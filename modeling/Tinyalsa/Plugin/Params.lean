/-
Hardware parameters on a PCM plugin: the constraints a plugin registers, the ranges
`pcm_plug_get_params` advertises for them, the refinement of a request against these ranges, and
the selection of the values handed to the plugin's `hw_params` callback.
-/
import Tinyalsa.Pcm.Handle

namespace Tinyalsa

/-! ## Plugins -/

/-- `struct pcm_plugin_min_max`. -/
structure PcmPluginMinMax where
  min : UInt32
  max : UInt32
  deriving DecidableEq, Repr

/-- `struct pcm_plugin_hw_constraints`. -/
structure PcmPluginHwConstraints where
  access : UInt64
  format : UInt64
  bitWidth : PcmPluginMinMax
  channels : PcmPluginMinMax
  rate : PcmPluginMinMax
  periods : PcmPluginMinMax
  periodBytes : PcmPluginMinMax
  deriving DecidableEq, Repr

/-- `PCM_PLUG_STATE_*`. -/
inductive PcmPlugState
  | opened | setup | prepared | running
  deriving DecidableEq, Repr

/-- `struct snd_xferi`. -/
structure SndXferi where
  result : Int := 0
  buf : UserBuf
  frames : UInt64

/-- The commands `pcm_plug_ioctl` knows nothing of. -/
inductive PcmExtraCmd
  | hwsync | delay | link | unlink | other (cmd : UInt32)
  deriving DecidableEq, Repr

/-- `struct pcm_plugin_ops`; `π` is the plugin's private data. A callback may write to its argument. -/
structure PcmPluginOps (π : Type) where
  hwParams : SndPcmHwParams → π → Int × SndPcmHwParams × π
  swParams : SndPcmSwParams → π → Int × SndPcmSwParams × π
  syncPtr : SndPcmSyncPtr → π → Int × SndPcmSyncPtr × π
  writeiFrames : SndXferi → π → Int × SndXferi × π
  readiFrames : SndXferi → π → Int × SndXferi × π
  ttstamp : Int → π → Int × Int × π
  prepare : π → Int × π
  start : π → Int × π
  drain : π → Int × π
  drop : π → Int × π
  /-- The word is the argument itself, or what it points to. -/
  ioctl : PcmExtraCmd → Int → π → Int × Int × π
  mmap : MmapOffset → Nat → π → MapAddr × π
  munmap : MapAddr → Nat → π → Int × π
  poll : Int → π → Int × PollEvents × π

/-- The callbacks but `hw_params` and `mmap`. -/
inductive PlugCallback
  | swParams | syncPtr | writeiFrames | readiFrames | ttstamp | prepare | start | drain | drop | ioctl | munmap | poll
  deriving DecidableEq, Repr

/-- A callback invoked, with what it returned. Ghost. -/
inductive PlugCall
  | hwParams (params : SndPcmHwParams) (ret : Int)
  | callback (c : PlugCallback) (ret : Int)
  | mmap (ret : MapAddr)
  deriving DecidableEq

/-- `struct pcm_plugin`, and the callbacks invoked on it, newest first. -/
structure PcmPlugin (π : Type) where
  constraints : PcmPluginHwConstraints
  priv : π
  state : PcmPlugState := .opened
  calls : List PlugCall := []

/-! ## Advertised ranges -/

/-- `SNDRV_PCM_SUBFORMAT_STD`. -/
def subformatStd : UInt64 := 0

/-- `pcm_plug_set_mask`. -/
def pcmPlugSetMask (p : SndPcmHwParams) (n : MaskParam) (v : UInt64) : SndPcmHwParams :=
  let bits := (p.masks n).bits
  let bits := Function.update bits 0 (bits 0 ||| (v &&& 0xFFFFFFFF).toUInt32)
  p.setMask n { bits := Function.update bits 1 (bits 1 ||| ((v >>> 32) &&& 0xFFFFFFFF).toUInt32) }

/-- `pcm_plug_set_interval`. -/
def pcmPlugSetInterval (params : SndPcmHwParams) (n : IntervalParam) (v : PcmPluginMinMax) (isInteger : Bool) :
    SndPcmHwParams :=
  let i := params.intervals n
  params.setInterval n { i with min := v.min, max := v.max, integer := isInteger || i.integer }

/-- `pcm_plug_frames_to_bytes`. -/
def pcmPlugFramesToBytes (frames frameBits : UInt32) : UInt32 := frames * (frameBits / 8)

/-- `pcm_plug_bytes_to_frames`; `none` is the trap of a division by zero. -/
def pcmPlugBytesToFrames (size frameBits : UInt32) : Option UInt32 :=
  if frameBits = 0 then none else some (size * 8 / frameBits)

/-- The masks and the intervals that `pcm_plug_get_params` copies from the constraints. -/
def pcmPlugCopyParams (c : PcmPluginHwConstraints) (params : SndPcmHwParams) : SndPcmHwParams :=
  let params := pcmPlugSetMask params .access c.access
  let params := pcmPlugSetMask params .format c.format
  let params := pcmPlugSetMask params .subformat subformatStd
  let params := pcmPlugSetInterval params .sampleBits c.bitWidth true
  let params := pcmPlugSetInterval params .channels c.channels true
  let params := pcmPlugSetInterval params .rate c.rate true
  let params := pcmPlugSetInterval params .periodBytes c.periodBytes false
  pcmPlugSetInterval params .periods c.periods true

/-- `pcm_plug_get_params`. -/
def pcmPlugGetParams (c : PcmPluginHwConstraints) (params : SndPcmHwParams) : Option (Int × SndPcmHwParams) := do
  let params := pcmPlugCopyParams c params
  let frameBits : PcmPluginMinMax := ⟨c.bitWidth.min * c.channels.min, c.bitWidth.max * c.channels.max⟩
  let params := pcmPlugSetInterval params .frameBits frameBits true
  let periodSize : PcmPluginMinMax :=
    ⟨← pcmPlugBytesToFrames c.periodBytes.min frameBits.min, ← pcmPlugBytesToFrames c.periodBytes.max frameBits.min⟩
  let params := pcmPlugSetInterval params .periodSize periodSize true
  let bufferBytes : PcmPluginMinMax :=
    ⟨c.periodBytes.min * c.periods.min, c.periodBytes.max * c.periods.max⟩
  let params := pcmPlugSetInterval params .bufferBytes bufferBytes true
  let bufferSize : PcmPluginMinMax :=
    ⟨← pcmPlugBytesToFrames bufferBytes.min frameBits.min, ← pcmPlugBytesToFrames bufferBytes.max frameBits.min⟩
  return (0, pcmPlugSetInterval params .bufferSize bufferSize true)

/-! ## Refinement -/

/-- `p->rmask & (1 << n)`. -/
def requestedBit (p : SndPcmHwParams) (n : Nat) : Bool := p.rmask &&& (1 <<< n.toUInt32) != 0

/-- `p->cmask |= 1 << n`. -/
def changedBit (p : SndPcmHwParams) (n : Nat) : SndPcmHwParams := { p with cmask := p.cmask ||| (1 <<< n.toUInt32) }

/-- One pass of the loop of `pcm_plug_masks_refine`. -/
def pcmPlugMaskRefine (c p : SndPcmHwParams) (n : MaskParam) : SndPcmHwParams :=
  if !requestedBit p n.index then p
  else
    let req := (p.masks n).bits
    let con := (c.masks n).bits
    let p := if req 0 ≠ con 0 ∨ req 1 ≠ con 1 then changedBit p n.index else p
    p.setMask n { bits := Function.update (Function.update req 0 (req 0 &&& con 0)) 1 (req 1 &&& con 1) }

/-- `pcm_plug_masks_refine`. -/
def pcmPlugMasksRefine (p c : SndPcmHwParams) : Int × SndPcmHwParams :=
  (0, [.access, .format, .subformat].foldl (pcmPlugMaskRefine c) p)

/-- The lower bound of a request against a constraint, and whether it changed. -/
def refineMin (ri ci : SndInterval) : SndInterval × Bool :=
  if ri.min < ci.min then ({ ri with min := ci.min, openmin := ci.openmin }, true)
  else if ri.min = ci.min ∧ !ri.openmin ∧ ci.openmin then ({ ri with openmin := true }, true)
  else (ri, false)

/-- The upper bound of a request against a constraint, and whether it changed. -/
def refineMax (ri ci : SndInterval) : SndInterval × Bool :=
  if ri.max > ci.max then ({ ri with max := ci.max, openmax := ci.openmax }, true)
  else if ri.max = ci.max ∧ !ri.openmax ∧ ci.openmax then ({ ri with openmax := true }, true)
  else (ri, false)

/-- The closed bounds of an integer interval. -/
def closeBounds (ri : SndInterval) : SndInterval :=
  if ri.integer then
    let ri := if ri.openmin then { ri with min := ri.min + 1, openmin := false } else ri
    if ri.openmax then { ri with max := ri.max - 1, openmax := false } else ri
  else if !ri.openmin ∧ !ri.openmax ∧ ri.min = ri.max then { ri with integer := true }
  else ri

/-- A requested interval against a constraint, and whether it changed. -/
def refineInterval (ri ci : SndInterval) : SndInterval × Bool :=
  let (ri, changedMin) := refineMin ri ci
  let (ri, changedMax) := refineMax ri ci
  let changedInteger := !ri.integer && ci.integer
  (closeBounds { ri with integer := ri.integer || ci.integer }, changedMin || changedMax || changedInteger)

/-- One pass of the loop of `pcm_plug_interval_refine`, with its variable `changed`. -/
def pcmPlugIntervalRefineOne (c : SndPcmHwParams) (s : SndPcmHwParams × Bool) (n : IntervalParam) :
    SndPcmHwParams × Bool :=
  let (p, changed) := s
  if !requestedBit p n.index then (p, changed)
  else
    let (ri, now) := refineInterval (p.intervals n) (c.intervals n)
    -- `changed` keeps the value earlier passes gave it
    let changed := changed || now
    let p := p.setInterval n ri
    (if changed then changedBit p n.index else p, changed)

/-- The intervals in the order of their parameters. -/
def intervalParams : List IntervalParam :=
  [.sampleBits, .frameBits, .channels, .rate, .periodTime, .periodSize, .periodBytes, .periods, .bufferTime,
    .bufferSize, .bufferBytes, .tickTime]

/-- `pcm_plug_interval_refine`. -/
def pcmPlugIntervalRefine (p c : SndPcmHwParams) : Int × SndPcmHwParams :=
  (0, (intervalParams.foldl (pcmPlugIntervalRefineOne c) (p, false)).1)

/-- `pcm_plug_hw_params_refine`. -/
def pcmPlugHwParamsRefine (p c : SndPcmHwParams) : Int × SndPcmHwParams :=
  let (rc, p) := pcmPlugMasksRefine p c
  if rc ≠ 0 then (rc, p)
  else
    let (rc, p) := pcmPlugIntervalRefine p c
    if rc ≠ 0 then (rc, p) else (rc, { p with rmask := 0 })

/-- `pcm_plug_hrefine`. -/
def pcmPlugHrefine (c : PcmPluginHwConstraints) (params : SndPcmHwParams) : Option (Int × SndPcmHwParams) := do
  let (rc, plugParams) ← pcmPlugGetParams c {}
  if rc ≠ 0 then return (-eInval, params)
  else return pcmPlugHwParamsRefine params plugParams

/-! ## Selection -/

/-- `PCM_PLUG_HW_PARAM_SELECT_*`. -/
inductive PcmPlugSelect
  | min | max | val
  deriving DecidableEq, Repr

/-- `pcm_plug_interval_select`. -/
def pcmPlugIntervalSelect (p : SndPcmHwParams) (n : IntervalParam) (select : PcmPlugSelect) (val : UInt32) :
    Int × SndPcmHwParams :=
  let i := p.intervals n
  if i.min = 0 then (-eInval, p)
  else
    match select with
    | .min => (0, p.setInterval n { i with max := i.min })
    | .max => (0, p.setInterval n { i with min := i.max })
    | .val => (0, p.setInterval n { i with min := val, max := val })

/-- `param_list`. -/
def paramList : List IntervalParam := [.sampleBits, .channels, .rate, .periodSize, .periods]

/-- `pcm_plug_hw_params_set`. -/
def pcmPlugHwParamsSet (p : SndPcmHwParams) : SndPcmHwParams :=
  let p := paramList.foldl (fun p n => (pcmPlugIntervalSelect p n .min 0).2) p
  let bw := (p.intervals .sampleBits).min
  let ch := (p.intervals .channels).min
  let periodSz := (p.intervals .periodSize).min
  let periods := (p.intervals .periods).min
  let frameBits := bw * ch
  let p := (pcmPlugIntervalSelect p .frameBits .val frameBits).2
  let p := (pcmPlugIntervalSelect p .periodBytes .val (pcmPlugFramesToBytes periodSz frameBits)).2
  let p := (pcmPlugIntervalSelect p .bufferSize .val (periodSz * periods)).2
  (pcmPlugIntervalSelect p .bufferBytes .val (pcmPlugFramesToBytes (periodSz * periods) frameBits)).2

/-- `pcm_plug_hparams`; `none` is the trap of a division by zero. -/
def pcmPlugHparams {π : Type} (ops : PcmPluginOps π) (params : SndPcmHwParams) (plugin : PcmPlugin π) :
    Option (Int × SndPcmHwParams × PcmPlugin π) := do
  if plugin.state ≠ .opened then return (-eBadFd, params, plugin)
  else
    let (rc, params) ← pcmPlugHrefine plugin.constraints { params with rmask := 0xFFFFFFFF }
    if rc ≠ 0 then return (rc, params, plugin)
    else
      let params := pcmPlugHwParamsSet params
      let (rc, params', priv) := ops.hwParams params plugin.priv
      return (rc, params', { plugin with
        priv
        state := if rc = 0 then .setup else plugin.state
        calls := .hwParams params rc :: plugin.calls })

/-! ## Soundness -/

/-- The values a plugin's masks admit: `STD` is the subformat it always supports. -/
def PcmPluginHwConstraints.allows (c : PcmPluginHwConstraints) : MaskParam → Nat → Bool
  | .access, i => c.access.toNat.testBit i
  | .format, i => c.format.toNat.testBit i
  | .subformat, i => i == subformatStd.toNat

/-- The range a plugin registers for a parameter. -/
def PcmPluginHwConstraints.range (c : PcmPluginHwConstraints) : IntervalParam → Option PcmPluginMinMax
  | .sampleBits => some c.bitWidth
  | .channels => some c.channels
  | .rate => some c.rate
  | .periods => some c.periods
  | .periodBytes => some c.periodBytes
  | _ => none

/-- The numbers of a range. -/
def PcmPluginMinMax.Contains (v : PcmPluginMinMax) (x : Nat) : Prop := v.min.toNat ≤ x ∧ x ≤ v.max.toNat

instance (v : PcmPluginMinMax) (x : Nat) : Decidable (v.Contains x) :=
  inferInstanceAs (Decidable (v.min.toNat ≤ x ∧ x ≤ v.max.toNat))

/-- The registered ranges are not empty, and start above 0. -/
def PcmPluginHwConstraints.RangesWF (c : PcmPluginHwConstraints) : Prop :=
  ∀ n v, c.range n = some v → 0 < v.min ∧ v.min ≤ v.max

/-- The constraints a plugin may register. -/
structure PcmPluginHwConstraints.WF (c : PcmPluginHwConstraints) : Prop where
  access : c.access ≠ 0
  format : c.format ≠ 0
  ranges : c.RangesWF

/-- The parameters handed over choose, for each mask, among the values requested and supported, and
for each registered range one value of it that was requested. -/
structure HandedSound (c : PcmPluginHwConstraints) (req handed : SndPcmHwParams) : Prop where
  nonempty : ∀ n, ∃ i, (handed.masks n).test i
  masks : ∀ n i, (handed.masks n).test i → (req.masks n).test i ∧ c.allows n i
  intervals : ∀ n v, c.range n = some v →
    ∃ x, (∀ y, (handed.intervals n).Contains y ↔ y = x) ∧ (req.intervals n).Contains x ∧ v.Contains x

/-- Every parameter has a value that is requested and supported. -/
structure Satisfiable (c : PcmPluginHwConstraints) (req : SndPcmHwParams) : Prop where
  masks : ∀ n, ∃ i, (req.masks n).test i ∧ c.allows n i
  intervals : ∀ n v, c.range n = some v → ∃ x, (req.intervals n).Contains x ∧ v.Contains x

/-- `HW_PARAMS` is sound on a plugin: what succeeds was handed sound parameters, and what cannot be
satisfied is refused before the callback. -/
structure HparamsSound {π : Type} (ops : PcmPluginOps π) (req : SndPcmHwParams) (plugin : PcmPlugin π) : Prop where
  sound : ∀ params plugin', pcmPlugHparams ops req plugin = some (0, params, plugin') →
    ∃ handed, plugin'.calls = .hwParams handed 0 :: plugin.calls ∧ HandedSound plugin.constraints req handed
  refused : ¬ Satisfiable plugin.constraints req →
    ∃ rc params plugin', pcmPlugHparams ops req plugin = some (rc, params, plugin') ∧ rc ≠ 0 ∧
      plugin'.calls = plugin.calls

/-- The parameters `pcm_plug_hparams` hands over for a request. -/
def pcmPlugHanded (c : PcmPluginHwConstraints) (req : SndPcmHwParams) : Option SndPcmHwParams :=
  (pcmPlugHrefine c { req with rmask := 0xFFFFFFFF }).map fun r => pcmPlugHwParamsSet r.2

section

variable {c : PcmPluginHwConstraints}

@[simp] theorem setMask_masks (p : SndPcmHwParams) (n : MaskParam) (m : SndMask) :
    (p.setMask n m).masks = Function.update p.masks n m := rfl

@[simp] theorem setInterval_masks (p : SndPcmHwParams) (n : IntervalParam) (i : SndInterval) :
    (p.setInterval n i).masks = p.masks := rfl

@[simp] theorem pcmPlugSetInterval_masks (p : SndPcmHwParams) (n : IntervalParam) (v : PcmPluginMinMax)
    (b : Bool) : (pcmPlugSetInterval p n v b).masks = p.masks := rfl

@[simp] theorem changedBit_masks (p : SndPcmHwParams) (n : Nat) : (changedBit p n).masks = p.masks := rfl

theorem pcmPlugIntervalSelect_masks (p : SndPcmHwParams) (n : IntervalParam) (s : PcmPlugSelect) (val : UInt32) :
    (pcmPlugIntervalSelect p n s val).2.masks = p.masks := by
  cases s <;> simp only [pcmPlugIntervalSelect] <;> split <;> rfl

theorem pcmPlugHwParamsSet_masks (p : SndPcmHwParams) : (pcmPlugHwParamsSet p).masks = p.masks := by
  have hfold : ∀ (ns : List IntervalParam) (p : SndPcmHwParams),
      (ns.foldl (fun p n => (pcmPlugIntervalSelect p n .min 0).2) p).masks = p.masks := by
    intro ns
    induction ns with
    | nil => intro p; rfl
    | cons n ns ih => intro p; rw [List.foldl_cons, ih, pcmPlugIntervalSelect_masks]
  simp only [pcmPlugHwParamsSet, pcmPlugIntervalSelect_masks, hfold]

theorem pcmPlugIntervalRefine_masks (p c : SndPcmHwParams) : (pcmPlugIntervalRefine p c).2.masks = p.masks := by
  have hone : ∀ s n, (pcmPlugIntervalRefineOne c s n).1.masks = s.1.masks := by
    rintro ⟨p, changed⟩ n
    simp only [pcmPlugIntervalRefineOne]
    split
    · rfl
    · split <;> rfl
  have hfold : ∀ (ns : List IntervalParam) (s : SndPcmHwParams × Bool),
      (ns.foldl (pcmPlugIntervalRefineOne c) s).1.masks = s.1.masks := by
    intro ns
    induction ns with
    | nil => intro s; rfl
    | cons n ns ih => intro s; rw [List.foldl_cons, ih, hone]
  exact hfold _ _

/-- The subformats a plugin advertises: none. -/
theorem pcmPlugGetParams_subformat {rc : Int} {p : SndPcmHwParams} (h : pcmPlugGetParams c {} = some (rc, p)) :
    rc = 0 ∧ (p.masks .subformat).bits 0 = 0 := by
  simp only [pcmPlugGetParams, Option.bind_eq_bind, Option.bind_eq_some_iff, Option.pure_def, Option.some.injEq,
    Prod.mk.injEq] at h
  obtain ⟨_, -, _, -, _, -, _, -, rfl, rfl⟩ := h
  refine ⟨rfl, ?_⟩
  simp [pcmPlugCopyParams, pcmPlugSetMask, subformatStd]

theorem pcmPlugMaskRefine_rmask (con p : SndPcmHwParams) (n : MaskParam) :
    (pcmPlugMaskRefine con p n).rmask = p.rmask := by
  simp only [pcmPlugMaskRefine]
  split
  · rfl
  · split <;> rfl

theorem pcmPlugMaskRefine_word {con p : SndPcmHwParams} {n : MaskParam} (hr : requestedBit p n.index) :
    ((pcmPlugMaskRefine con p n).masks n).bits 0 = (p.masks n).bits 0 &&& (con.masks n).bits 0 := by
  simp [pcmPlugMaskRefine, hr]

/-- A requested subformat is lost against a constraint without one. -/
theorem pcmPlugMasksRefine_subformat {p con : SndPcmHwParams} (hr : requestedBit p MaskParam.subformat.index)
    (hc : (con.masks .subformat).bits 0 = 0) : ((pcmPlugMasksRefine p con).2.masks .subformat).bits 0 = 0 := by
  simp only [pcmPlugMasksRefine, List.foldl_cons, List.foldl_nil]
  rw [pcmPlugMaskRefine_word, hc, UInt32.and_zero]
  unfold requestedBit at hr ⊢
  rwa [pcmPlugMaskRefine_rmask, pcmPlugMaskRefine_rmask]

/-- Refinement never fails, whatever it leaves of the request. -/
theorem pcmPlugHwParamsRefine_eq (p con : SndPcmHwParams) :
    (pcmPlugHwParamsRefine p con).1 = 0 ∧
      (pcmPlugHwParamsRefine p con).2.masks = (pcmPlugMasksRefine p con).2.masks :=
  ⟨rfl, pcmPlugIntervalRefine_masks (pcmPlugMasksRefine p con).2 con⟩

theorem pcmPlugHrefine_subformat {req : SndPcmHwParams} {rc : Int} {p : SndPcmHwParams}
    (h : pcmPlugHrefine c { req with rmask := 0xFFFFFFFF } = some (rc, p)) :
    rc = 0 ∧ (p.masks .subformat).bits 0 = 0 := by
  simp only [pcmPlugHrefine, Option.bind_eq_bind, Option.bind_eq_some_iff] at h
  obtain ⟨⟨rc', con⟩, hcon, h⟩ := h
  obtain ⟨rfl, hsub⟩ := pcmPlugGetParams_subformat hcon
  obtain ⟨hrc, hmasks⟩ := pcmPlugHwParamsRefine_eq { req with rmask := 0xFFFFFFFF } con
  simp only [ne_eq, not_true_eq_false, if_false, Option.pure_def, Option.some.injEq] at h
  rw [h] at hrc hmasks
  have hreq : requestedBit { req with rmask := 0xFFFFFFFF } MaskParam.subformat.index = true := by
    simp only [requestedBit]; decide
  exact ⟨hrc, by rw [hmasks]; exact pcmPlugMasksRefine_subformat hreq hsub⟩

/-- No parameters handed over contain the standard subformat. -/
theorem pcmPlugHanded_subformat {req handed : SndPcmHwParams} (h : pcmPlugHanded c req = some handed) :
    (handed.masks .subformat).bits 0 = 0 := by
  obtain ⟨⟨rc, p⟩, hp, rfl⟩ := Option.map_eq_some_iff.1 h
  rw [pcmPlugHwParamsSet_masks]
  exact (pcmPlugHrefine_subformat hp).2

/-- Parameters without the standard subformat are not sound. -/
theorem not_handedSound {req handed : SndPcmHwParams} (h : (handed.masks .subformat).bits 0 = 0) :
    ¬ HandedSound c req handed := by
  intro hs
  obtain ⟨i, hi⟩ := hs.nonempty .subformat
  have hstd : (i == subformatStd.toNat) = true := (hs.masks .subformat i hi).2
  obtain rfl : i = 0 := by simpa [subformatStd] using hstd
  simp [SndMask.test, h] at hi

end

section

variable {π : Type} {ops : PcmPluginOps π} {req : SndPcmHwParams} {plugin : PcmPlugin π}

/-- Outside the open state the request is refused; inside it, what the refinement leaves is handed over. -/
theorem pcmPlugHparams_closed (ops : PcmPluginOps π) (req : SndPcmHwParams) (h : plugin.state ≠ .opened) :
    pcmPlugHparams ops req plugin = some (-eBadFd, req, plugin) := by
  simp [pcmPlugHparams, h]

theorem pcmPlugHparams_handed (ops : PcmPluginOps π) (req : SndPcmHwParams) (h : plugin.state = .opened) :
    pcmPlugHparams ops req plugin = (pcmPlugHanded plugin.constraints req).map fun handed =>
      ((ops.hwParams handed plugin.priv).1, (ops.hwParams handed plugin.priv).2.1,
        { plugin with
          priv := (ops.hwParams handed plugin.priv).2.2
          state := if (ops.hwParams handed plugin.priv).1 = 0 then .setup else plugin.state
          calls := .hwParams handed (ops.hwParams handed plugin.priv).1 :: plugin.calls }) := by
  simp only [pcmPlugHparams, pcmPlugHanded, h, ne_eq, not_true_eq_false, if_false, Option.map_map]
  cases hr : pcmPlugHrefine plugin.constraints { req with rmask := 0xFFFFFFFF } with
  | none => rfl
  | some r =>
    obtain ⟨rc, p⟩ := r
    obtain ⟨rfl, -⟩ := pcmPlugHrefine_subformat hr
    rfl

/-- `HW_PARAMS` is sound on a plugin just when it cannot succeed and nothing unsatisfiable is asked:
the plugin is not open, or every parameter can be satisfied and the callback refuses what it is handed. -/
theorem pcmPlugHparams_sound_iff :
    HparamsSound ops req plugin ↔
      plugin.state ≠ .opened ∨
        Satisfiable plugin.constraints req ∧
          ∀ handed, pcmPlugHanded plugin.constraints req = some handed → (ops.hwParams handed plugin.priv).1 ≠ 0 := by
  by_cases hs : plugin.state = .opened
  · have hrun := pcmPlugHparams_handed ops req hs
    simp only [hs, ne_eq, not_true_eq_false, false_or]
    constructor
    · intro h
      refine ⟨?_, fun handed hh h0 => ?_⟩
      · by_contra hsat
        obtain ⟨rc, params, plugin', heq, -, hcalls⟩ := h.refused hsat
        rw [hrun, Option.map_eq_some_iff] at heq
        obtain ⟨handed, -, heq⟩ := heq
        rw [← (Prod.mk.inj (Prod.mk.inj heq).2).2] at hcalls
        exact absurd hcalls (List.cons_ne_self _ _)
      · rw [hh, Option.map_some, h0] at hrun
        obtain ⟨handed', hcalls, hsound⟩ := h.sound _ _ hrun
        rw [List.cons.injEq, PlugCall.hwParams.injEq] at hcalls
        rw [← hcalls.1.1] at hsound
        exact not_handedSound (pcmPlugHanded_subformat hh) hsound
    · rintro ⟨hsat, hrefuse⟩
      refine ⟨fun params plugin' heq => ?_, fun h => absurd hsat h⟩
      rw [hrun, Option.map_eq_some_iff] at heq
      obtain ⟨handed, hh, heq⟩ := heq
      exact absurd (Prod.mk.inj heq).1 (hrefuse handed hh)
  · have hrun := pcmPlugHparams_closed ops req hs
    refine ⟨fun _ => .inl hs, fun _ => ⟨fun params plugin' heq => ?_, fun _ => ⟨_, _, _, hrun, by decide, rfl⟩⟩⟩
    rw [hrun] at heq
    exact absurd (Prod.mk.inj (Option.some.inj heq)).1 (by decide)

end

/-! ## A request out of range -/

/-- Interleaved 16-bit stereo at up to 48 kHz. -/
def stereoConstraints : PcmPluginHwConstraints where
  access := 0x9
  format := 0x4
  bitWidth := ⟨16, 16⟩
  channels := ⟨1, 2⟩
  rate := ⟨8000, 48000⟩
  periods := ⟨2, 4⟩
  periodBytes := ⟨1024, 8192⟩

/-- A plugin whose callbacks succeed and write nothing. -/
def acceptingOps : PcmPluginOps Unit where
  hwParams p u := (0, p, u)
  swParams p u := (0, p, u)
  syncPtr s u := (0, s, u)
  writeiFrames x u := (0, x, u)
  readiFrames x u := (0, x, u)
  ttstamp t u := (0, t, u)
  prepare u := (0, u)
  start u := (0, u)
  drain u := (0, u)
  drop u := (0, u)
  ioctl _ arg u := (0, arg, u)
  mmap _ _ u := (.addr 4096, u)
  munmap _ _ u := (0, u)
  poll _ u := (1, {}, u)

/-- A request for a single rate. -/
def rateRequest (rate : UInt32) : SndPcmHwParams := paramSetInt paramInit .rate rate

theorem stereoConstraints_wf : stereoConstraints.WF where
  access := by decide
  format := by decide
  ranges := by rintro (_ | _) v h <;> cases h <;> decide

/-- A rate of 96 kHz is handed to a plugin that supports up to 48 kHz. -/
theorem pcmPlugHparams_out_of_range :
    stereoConstraints.WF ∧ ¬ HparamsSound acceptingOps (rateRequest 96000) ⟨stereoConstraints, (), .opened, []⟩ := by
  refine ⟨stereoConstraints_wf, fun h => ?_⟩
  have hns : ¬ Satisfiable stereoConstraints (rateRequest 96000) := by
    intro hs
    obtain ⟨x, ⟨hmin, -⟩, -, hmax⟩ := hs.intervals .rate _ rfl
    have hmin : 96000 ≤ x := hmin
    have hmax : x ≤ 48000 := hmax
    omega
  obtain ⟨rc, params, plugin', heq, hne, -⟩ := h.refused hns
  have hrc : (pcmPlugHparams acceptingOps (rateRequest 96000) ⟨stereoConstraints, (), .opened, []⟩).map
      (fun r => r.1) = some 0 := by decide
  rw [heq] at hrc
  exact hne (Option.some.inj hrc)

end Tinyalsa
