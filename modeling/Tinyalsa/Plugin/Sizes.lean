/-
The sizes a plugin is handed against those the library computes. pcm.c derives them from the format and
the channels of its configuration, pcm_plugin.c from the ranges the plugin registered; the two agree
just when the smallest sample width is that of the format and nothing is refined away or wraps.
-/
import Tinyalsa.Pcm.Errors
import Tinyalsa.Plugin.Protocol

namespace Tinyalsa

open Hoare

/-! ## What is selected -/

/-- An interval after `pcm_plug_interval_select`, which leaves one that starts at 0 as it is. -/
def selectInterval (select : PcmPlugSelect) (val : UInt32) (i : SndInterval) : SndInterval :=
  if i.min = 0 then i
  else
    match select with
    | .min => { i with max := i.min }
    | .max => { i with min := i.max }
    | .val => { i with min := val, max := val }

@[simp] theorem setInterval_intervals (p : SndPcmHwParams) (n : IntervalParam) (i : SndInterval) :
    (p.setInterval n i).intervals = Function.update p.intervals n i := rfl

theorem pcmPlugIntervalSelect_intervals (p : SndPcmHwParams) (n : IntervalParam) (select : PcmPlugSelect)
    (val : UInt32) :
    (pcmPlugIntervalSelect p n select val).2.intervals =
      Function.update p.intervals n (selectInterval select val (p.intervals n)) := by
  unfold pcmPlugIntervalSelect selectInterval
  dsimp only
  split
  · exact (Function.update_eq_self n p.intervals).symm
  · cases select <;> rfl

/-- The intervals handed over, by those the refinement left. -/
def selectedIntervals (r : IntervalParam → SndInterval) : IntervalParam → SndInterval := fun n =>
  let least (n : IntervalParam) := (selectInterval .min 0 (r n)).min
  let frameBits := least .sampleBits * least .channels
  match n with
  | .sampleBits | .channels | .rate | .periodSize | .periods => selectInterval .min 0 (r n)
  | .frameBits => selectInterval .val frameBits (r n)
  | .periodBytes => selectInterval .val (pcmPlugFramesToBytes (least .periodSize) frameBits) (r n)
  | .bufferSize => selectInterval .val (least .periodSize * least .periods) (r n)
  | .bufferBytes => selectInterval .val (pcmPlugFramesToBytes (least .periodSize * least .periods) frameBits) (r n)
  | .periodTime | .bufferTime | .tickTime => r n

theorem pcmPlugHwParamsSet_intervals (p : SndPcmHwParams) :
    (pcmPlugHwParamsSet p).intervals = selectedIntervals p.intervals := by
  funext n
  simp only [pcmPlugHwParamsSet, paramList, List.foldl_cons, List.foldl_nil, pcmPlugIntervalSelect_intervals]
  cases n <;> simp [selectedIntervals, Function.update]

/-! ## What is refined -/

theorem pcmPlugIntervalRefineOne_spec (c : SndPcmHwParams) (s : SndPcmHwParams × Bool) (n : IntervalParam)
    (h : requestedBit s.1 n.index) :
    (pcmPlugIntervalRefineOne c s n).1.intervals =
        Function.update s.1.intervals n (refineInterval (s.1.intervals n) (c.intervals n)).1 ∧
      (pcmPlugIntervalRefineOne c s n).1.rmask = s.1.rmask := by
  obtain ⟨p, changed⟩ := s
  simp only [pcmPlugIntervalRefineOne, h, Bool.not_true, Bool.false_eq_true, if_false]
  split <;> exact ⟨rfl, rfl⟩

/-- Each requested interval is refined once. -/
theorem foldl_refineOne (c : SndPcmHwParams) {ns : List IntervalParam} (hnd : ns.Nodup) (s : SndPcmHwParams × Bool)
    (h : ∀ n ∈ ns, requestedBit s.1 n.index) (m : IntervalParam) :
    (ns.foldl (pcmPlugIntervalRefineOne c) s).1.intervals m =
      if m ∈ ns then (refineInterval (s.1.intervals m) (c.intervals m)).1 else s.1.intervals m := by
  induction ns generalizing s with
  | nil => simp
  | cons n ns ih =>
    obtain ⟨hint, hrmask⟩ := pcmPlugIntervalRefineOne_spec c s n (h n List.mem_cons_self)
    obtain ⟨hn, hnd⟩ := List.nodup_cons.1 hnd
    rw [List.foldl_cons, ih hnd, hint]
    · by_cases hm : m = n
      · subst hm
        simp [hn]
      · simp [hm]
    · intro k hk
      unfold requestedBit
      rw [hrmask]
      exact h k (List.mem_cons_of_mem _ hk)

theorem pcmPlugMaskRefine_keeps (c p : SndPcmHwParams) (n : MaskParam) :
    (pcmPlugMaskRefine c p n).intervals = p.intervals ∧ (pcmPlugMaskRefine c p n).rmask = p.rmask := by
  simp only [pcmPlugMaskRefine]
  split
  · exact ⟨rfl, rfl⟩
  · split <;> exact ⟨rfl, rfl⟩

theorem pcmPlugHwParamsRefine_intervals (p c : SndPcmHwParams) (hp : p.rmask = 0xFFFFFFFF) (n : IntervalParam) :
    (pcmPlugHwParamsRefine p c).2.intervals n = (refineInterval (p.intervals n) (c.intervals n)).1 := by
  have hmasks : (pcmPlugMasksRefine p c).2.intervals = p.intervals ∧ (pcmPlugMasksRefine p c).2.rmask = p.rmask := by
    simp only [pcmPlugMasksRefine, List.foldl_cons, List.foldl_nil, pcmPlugMaskRefine_keeps, and_self]
  change (intervalParams.foldl (pcmPlugIntervalRefineOne c) ((pcmPlugMasksRefine p c).2, false)).1.intervals n = _
  rw [foldl_refineOne c (by decide), if_pos (by cases n <;> decide), hmasks.1]
  intro k _
  unfold requestedBit
  rw [hmasks.2, hp]
  cases k <;> decide

/-- A closed range of integers. -/
def SndInterval.closed (lo hi : UInt32) (integer : Bool) : SndInterval := { min := lo, max := hi, integer }

/-- The ranges `pcm_plug_get_params` advertises. -/
def advertised (c : PcmPluginHwConstraints) : IntervalParam → SndInterval
  | .sampleBits => .closed c.bitWidth.min c.bitWidth.max true
  | .frameBits => .closed (c.bitWidth.min * c.channels.min) (c.bitWidth.max * c.channels.max) true
  | .channels => .closed c.channels.min c.channels.max true
  | .rate => .closed c.rate.min c.rate.max true
  | .periodSize =>
    .closed (c.periodBytes.min * 8 / (c.bitWidth.min * c.channels.min))
      (c.periodBytes.max * 8 / (c.bitWidth.min * c.channels.min)) true
  | .periodBytes => .closed c.periodBytes.min c.periodBytes.max false
  | .periods => .closed c.periods.min c.periods.max true
  | .bufferBytes => .closed (c.periodBytes.min * c.periods.min) (c.periodBytes.max * c.periods.max) true
  | .bufferSize =>
    .closed (c.periodBytes.min * c.periods.min * 8 / (c.bitWidth.min * c.channels.min))
      (c.periodBytes.max * c.periods.max * 8 / (c.bitWidth.min * c.channels.min)) true
  | .periodTime | .bufferTime | .tickTime => .closed 0 0 false

@[simp] theorem pcmPlugSetMask_intervals (p : SndPcmHwParams) (n : MaskParam) (v : UInt64) :
    (pcmPlugSetMask p n v).intervals = p.intervals := rfl

theorem pcmPlugGetParams_intervals {c : PcmPluginHwConstraints} (h : c.bitWidth.min * c.channels.min ≠ 0) :
    ∃ p, pcmPlugGetParams c {} = some (0, p) ∧ p.intervals = advertised c := by
  simp only [pcmPlugGetParams, pcmPlugBytesToFrames, h, if_false, Option.bind_eq_bind, Option.bind_some,
    Option.pure_def]
  refine ⟨_, rfl, ?_⟩
  funext n
  cases n <;> simp [pcmPlugCopyParams, pcmPlugSetInterval, advertised, SndInterval.closed]

/-- The ranges a request leaves of those advertised. -/
def refinedIntervals (c : PcmPluginHwConstraints) (req : SndPcmHwParams) (n : IntervalParam) : SndInterval :=
  (refineInterval (req.intervals n) (advertised c n)).1

theorem pcmPlugHanded_intervals {c : PcmPluginHwConstraints} (h : c.bitWidth.min * c.channels.min ≠ 0)
    (req : SndPcmHwParams) :
    ∃ handed, pcmPlugHanded c req = some handed ∧ handed.intervals = selectedIntervals (refinedIntervals c req) := by
  obtain ⟨con, hcon, hint⟩ := pcmPlugGetParams_intervals h
  refine ⟨pcmPlugHwParamsSet (pcmPlugHwParamsRefine { req with rmask := 0xFFFFFFFF } con).2, ?_, ?_⟩
  · simp only [pcmPlugHanded, pcmPlugHrefine, hcon, Option.bind_eq_bind, Option.bind_some]
    rfl
  · rw [pcmPlugHwParamsSet_intervals]
    congr 1
    funext n
    rw [pcmPlugHwParamsRefine_intervals _ _ rfl, hint]
    rfl

/-- A plugin whose least frame has no bits divides by it. -/
theorem pcmPlugHanded_trap {c : PcmPluginHwConstraints} (h : c.bitWidth.min * c.channels.min = 0)
    (req : SndPcmHwParams) :
    pcmPlugHanded c req = none := by
  simp [pcmPlugHanded, pcmPlugHrefine, pcmPlugGetParams, pcmPlugBytesToFrames, h]

/-! ## Single values -/

/-- The interval holds one value. -/
def SndInterval.Single (i : SndInterval) (v : UInt32) : Prop :=
  i.min = v ∧ i.max = v ∧ i.openmin = false ∧ i.openmax = false

theorem refineInterval_closed (lo hi lo' hi' : UInt32) (b b' : Bool) :
    (refineInterval (.closed lo hi b) (.closed lo' hi' b')).1 =
      { min := if lo < lo' then lo' else lo, max := if hi > hi' then hi' else hi,
        integer := b || b' || decide ((if lo < lo' then lo' else lo) = if hi > hi' then hi' else hi) } := by
  have hmin : refineMin (.closed lo hi b) (.closed lo' hi' b') =
      (.closed (if lo < lo' then lo' else lo) hi b, decide (lo < lo')) := by
    unfold refineMin SndInterval.closed
    by_cases h : lo < lo' <;> simp [h]
  have hmax : ∀ lo, refineMax (.closed lo hi b) (.closed lo' hi' b') =
      (.closed lo (if hi > hi' then hi' else hi) b, decide (hi > hi')) := by
    intro lo
    unfold refineMax SndInterval.closed
    by_cases h : hi > hi' <;> simp [h]
  simp only [refineInterval, hmin, hmax]
  generalize (if lo < lo' then lo' else lo) = l
  generalize (if hi > hi' then hi' else hi) = u
  by_cases h : l = u <;> cases b <;> cases b' <;> simp [closeBounds, SndInterval.closed, h]

theorem selectInterval_min {i : SndInterval} {v : UInt32} (hi : i.min = v) (h : v ≠ 0)
    (ho : i.openmin = false ∧ i.openmax = false) : (selectInterval .min 0 i).Single v := by
  simp only [selectInterval, hi, h, if_false]
  exact ⟨rfl, rfl, ho⟩

theorem selectInterval_val {i : SndInterval} (v : UInt32) (h : i.min ≠ 0)
    (ho : i.openmin = false ∧ i.openmax = false) : (selectInterval .val v i).Single v := by
  simp only [selectInterval, h, if_false]
  exact ⟨rfl, rfl, ho⟩

theorem selectInterval_skip {i : SndInterval} (s : PcmPlugSelect) (v : UInt32) (h : i.min = 0) :
    selectInterval s v i = i := by
  simp [selectInterval, h]

/-! ## A request of the library -/

@[simp] theorem paramSetMask_intervals (p : SndPcmHwParams) (n : MaskParam) (bit : UInt32) :
    (paramSetMask p n bit).intervals = p.intervals := by
  unfold paramSetMask
  split <;> rfl

/-- The ranges `pcm_set_config` asks for. -/
def requestIntervals (config : PcmConfig) : IntervalParam → SndInterval
  | .periodSize => .closed config.periodSize 0xffffffff false
  | .channels => .closed config.channels config.channels true
  | .periods => .closed config.periodCount config.periodCount true
  | .rate => .closed config.rate config.rate true
  | _ => .closed 0 0xffffffff false

theorem hwRequest_intervals (p : Pcm) (config : PcmConfig) :
    (hwRequest p config).intervals = requestIntervals config := by
  funext n
  unfold hwRequest
  dsimp only
  rw [paramSetMask_intervals]
  split <;> cases n <;> simp [paramSetMin, paramSetInt, paramInit, requestIntervals, SndInterval.closed]

/-- The bits of a plugin's least frame. -/
def leastFrameBits (c : PcmPluginHwConstraints) : UInt32 := c.bitWidth.min * c.channels.min

/-- The least period size a plugin advertises. -/
def leastPeriodSize (c : PcmPluginHwConstraints) : UInt32 := c.periodBytes.min * 8 / leastFrameBits c

/-- The least buffer size a plugin advertises. -/
def leastBufferSize (c : PcmPluginHwConstraints) : UInt32 := c.periodBytes.min * c.periods.min * 8 / leastFrameBits c

/-- The period size selected for a request. -/
def selectedPeriodSize (c : PcmPluginHwConstraints) (config : PcmConfig) : UInt32 :=
  if config.periodSize < leastPeriodSize c then leastPeriodSize c else config.periodSize

/-- The constraints admit a configuration. -/
structure PcmPluginHwConstraints.Admits (c : PcmPluginHwConstraints) (config : PcmConfig) : Prop where
  format : c.format.toNat.testBit (pcmFormatToAlsa config.format).toNat
  bitWidth : c.bitWidth.Contains (pcmFormatToBits config.format).toNat
  channels : c.channels.Contains config.channels.toNat
  rate : c.rate.Contains config.rate.toNat
  periods : c.periods.Contains config.periodCount.toNat
  periodBytes : c.periodBytes.Contains (config.periodSize.toNat * config.frameBytes)

/-- The sizes handed over for a configuration. -/
structure HandedSizes (c : PcmPluginHwConstraints) (config : PcmConfig) (handed : SndPcmHwParams) : Prop where
  sampleBits : (handed.intervals .sampleBits).Single c.bitWidth.min
  channels : (handed.intervals .channels).Single config.channels
  periods : (handed.intervals .periods).Single config.periodCount
  periodSize : (handed.intervals .periodSize).Single (selectedPeriodSize c config)
  frameBits : (handed.intervals .frameBits).Single (c.bitWidth.min * config.channels)
  periodBytes : (handed.intervals .periodBytes).Single
    (pcmPlugFramesToBytes (selectedPeriodSize c config) (c.bitWidth.min * config.channels))
  bufferSize : leastBufferSize c ≠ 0 →
    (handed.intervals .bufferSize).Single (selectedPeriodSize c config * config.periodCount)
  bufferSizeSkipped : leastBufferSize c = 0 → (handed.intervals .bufferSize).Contains 0
  bufferBytes : c.periodBytes.min * c.periods.min ≠ 0 → (handed.intervals .bufferBytes).Single
    (pcmPlugFramesToBytes (selectedPeriodSize c config * config.periodCount) (c.bitWidth.min * config.channels))
  integer : (handed.intervals .periodSize).integer ∧ (handed.intervals .periods).integer

section

variable {c : PcmPluginHwConstraints} {config : PcmConfig} {p : Pcm}

/-- The larger of two lower bounds, as the refinement computes it. -/
theorem refined_of_le {x y : UInt32} (h : y ≤ x) : (if x < y then y else x) = x := by
  rw [if_neg (UInt32.not_lt.2 h)]

theorem refined_of_zero (y : UInt32) : (if 0 < y then y else 0) = y := by
  split
  · rfl
  · rename_i h
    rw [UInt32.not_lt, UInt32.le_zero_iff] at h
    exact h.symm

/-- Where the ranges of a request start, once refined. -/
theorem refinedIntervals_min (hadm : c.Admits config) (n : IntervalParam) :
    (refinedIntervals c (hwRequest p config) n).min =
      match n with
      | .sampleBits => c.bitWidth.min
      | .frameBits => leastFrameBits c
      | .channels => config.channels
      | .rate => config.rate
      | .periodSize => selectedPeriodSize c config
      | .periodBytes => c.periodBytes.min
      | .periods => config.periodCount
      | .bufferSize => leastBufferSize c
      | .bufferBytes => c.periodBytes.min * c.periods.min
      | .periodTime | .bufferTime | .tickTime => 0 := by
  have hch : c.channels.min ≤ config.channels := UInt32.le_iff_toNat_le.2 hadm.channels.1
  have hpc : c.periods.min ≤ config.periodCount := UInt32.le_iff_toNat_le.2 hadm.periods.1
  have hrate : c.rate.min ≤ config.rate := UInt32.le_iff_toNat_le.2 hadm.rate.1
  cases n <;> simp only [refinedIntervals, hwRequest_intervals, requestIntervals, advertised, refineInterval_closed,
    refined_of_zero, refined_of_le hch, refined_of_le hpc, refined_of_le hrate, leastFrameBits, leastBufferSize,
    selectedPeriodSize, leastPeriodSize]
  rfl

theorem refinedIntervals_open (n : IntervalParam) :
    (refinedIntervals c (hwRequest p config) n).openmin = false ∧
      (refinedIntervals c (hwRequest p config) n).openmax = false := by
  cases n <;> simp only [refinedIntervals, hwRequest_intervals, requestIntervals, advertised,
    refineInterval_closed, and_self]

theorem refinedIntervals_integer :
    (refinedIntervals c (hwRequest p config) .periodSize).integer = true ∧
      (refinedIntervals c (hwRequest p config) .periods).integer = true := by
  simp [refinedIntervals, hwRequest_intervals, requestIntervals, advertised, refineInterval_closed]

/-- A number of a range that starts above 0 is not 0. -/
theorem PcmPluginMinMax.Contains.ne_zero {v : PcmPluginMinMax} {x : UInt32} (h : v.Contains x.toNat) (hv : 0 < v.min) :
    x ≠ 0 := by
  rintro rfl
  exact absurd h.1 (not_le.2 (UInt32.lt_iff_toNat_lt.1 hv))

theorem selectedPeriodSize_ge : config.periodSize.toNat ≤ (selectedPeriodSize c config).toNat := by
  unfold selectedPeriodSize
  split <;> rename_i h
  · exact (UInt32.lt_iff_toNat_lt.1 h).le
  · exact le_rfl

/-- What a plugin is handed for a configuration it admits. -/
theorem handedSizes (hpos : c.RangesWF) (hadm : c.Admits config) (hfb : leastFrameBits c ≠ 0)
    (hps : config.periodSize ≠ 0) :
    ∃ handed, pcmPlugHanded c (hwRequest p config) = some handed ∧ HandedSizes c config handed := by
  obtain ⟨handed, hh, hint⟩ := pcmPlugHanded_intervals hfb (hwRequest p config)
  refine ⟨handed, hh, ?_⟩
  have hmin := fun n => refinedIntervals_min (p := p) hadm n
  have hopen := fun n => @refinedIntervals_open c config p n
  have hint' := @refinedIntervals_integer c config p
  generalize refinedIntervals c (hwRequest p config) = r at *
  have hbw : c.bitWidth.min ≠ 0 := UInt32.pos_iff_ne_zero.1 (hpos .sampleBits _ rfl).1
  have hps' : selectedPeriodSize c config ≠ 0 := by
    have := @selectedPeriodSize_ge c config
    rw [ne_eq, ← UInt32.toNat_inj] at hps ⊢
    simp only [UInt32.toNat_zero] at hps ⊢
    omega
  -- these four are the least of their ranges, and the other sizes are computed from them
  have hsb : (selectInterval .min 0 (r .sampleBits)).Single c.bitWidth.min :=
    selectInterval_min (hmin _) hbw (hopen _)
  have hch : (selectInterval .min 0 (r .channels)).Single config.channels :=
    selectInterval_min (hmin _) (hadm.channels.ne_zero (hpos .channels _ rfl).1) (hopen _)
  have hpc : (selectInterval .min 0 (r .periods)).Single config.periodCount :=
    selectInterval_min (hmin _) (hadm.periods.ne_zero (hpos .periods _ rfl).1) (hopen _)
  have hpsz : (selectInterval .min 0 (r .periodSize)).Single (selectedPeriodSize c config) :=
    selectInterval_min (hmin _) hps' (hopen _)
  have hpb : (r .periodBytes).min ≠ 0 := by
    rw [hmin]
    exact UInt32.pos_iff_ne_zero.1 (hpos .periodBytes _ rfl).1
  constructor
  · rw [hint]; exact hsb
  · rw [hint]; exact hch
  · rw [hint]; exact hpc
  · rw [hint]; exact hpsz
  · rw [hint, ← hsb.1, ← hch.1]
    exact selectInterval_val _ (by rw [hmin]; exact hfb) (hopen _)
  · rw [hint, ← hsb.1, ← hch.1, ← hpsz.1]
    exact selectInterval_val _ hpb (hopen _)
  · intro h
    rw [hint, ← hpsz.1, ← hpc.1]
    exact selectInterval_val _ (by rw [hmin]; exact h) (hopen _)
  · intro h
    have hskip := selectInterval_skip .val
      ((selectInterval .min 0 (r .periodSize)).min * (selectInterval .min 0 (r .periods)).min)
      ((hmin .bufferSize).trans h)
    rw [hint]
    show (selectInterval .val _ (r .bufferSize)).Contains 0
    rw [hskip]
    simp [SndInterval.Contains, hopen, hmin, h]
  · intro h
    rw [hint, ← hsb.1, ← hch.1, ← hpsz.1, ← hpc.1]
    exact selectInterval_val _ (by rw [hmin]; exact h) (hopen _)
  · rw [hint]
    refine ⟨?_, ?_⟩
    · simp only [selectedIntervals, selectInterval, hmin, hps', if_false]
      exact hint'.1
    · simp only [selectedIntervals, selectInterval, hmin, hadm.periods.ne_zero (hpos .periods _ rfl).1, if_false]
      exact hint'.2

end

/-! ## Agreement -/

/-- Every number of the interval is `x`, and `x` is one. -/
def SndInterval.Only (i : SndInterval) (x : Nat) : Prop := ∀ y, i.Contains y ↔ y = x

/-- The sizes a plugin was handed are those of the format, and of the handle as the application sees it. -/
structure SizesAgree (config : PcmConfig) (pcm : Pcm) (handed : SndPcmHwParams) (v : IntervalParam → Nat) : Prop where
  sampleBits : (handed.intervals .sampleBits).Only (v .sampleBits)
  frameBits : (handed.intervals .frameBits).Only (v .frameBits)
  channels : (handed.intervals .channels).Only (v .channels)
  periodSize : (handed.intervals .periodSize).Only (v .periodSize)
  periodBytes : (handed.intervals .periodBytes).Only (v .periodBytes)
  periods : (handed.intervals .periods).Only (v .periods)
  bufferSize : (handed.intervals .bufferSize).Only (v .bufferSize)
  bufferBytes : (handed.intervals .bufferBytes).Only (v .bufferBytes)
  frameBits_eq : v .frameBits = v .sampleBits * v .channels
  periodBytes_eq : v .periodBytes = v .periodSize * v .frameBits / 8
  bufferSize_eq : v .bufferSize = v .periodSize * v .periods
  bufferBytes_eq : v .bufferBytes = v .bufferSize * v .frameBits / 8
  width : v .sampleBits = (pcmFormatToBits config.format).toNat
  periodBytes_pcm : v .periodBytes = (pcmFramesToBytes pcm pcm.config.periodSize).toNat
  bufferBytes_pcm : v .bufferBytes = (pcmFramesToBytes pcm pcm.bufferSize).toNat

/-- The constraints fit a configuration: its width is the least one, its period is not below the least
advertised, and nothing wraps. -/
structure SizesFit (c : PcmPluginHwConstraints) (config : PcmConfig) : Prop where
  width : c.bitWidth.min = pcmFormatToBits config.format
  frameBits : (pcmFormatToBits config.format).toNat * config.channels.toNat < 2 ^ 32
  periodSize : leastPeriodSize c ≤ config.periodSize
  bufferSize : leastBufferSize c ≠ 0
  bufferBytes : config.periodSize.toNat * config.periodCount.toNat * config.frameBytes < 2 ^ 32

section

variable {c : PcmPluginHwConstraints} {config : PcmConfig} {pcm : Pcm} {handed : SndPcmHwParams}

theorem SndInterval.Single.only {i : SndInterval} {v : UInt32} (h : i.Single v) : i.Only v.toNat := by
  obtain ⟨hmin, hmax, ho, ho'⟩ := h
  intro y
  simp only [Contains, ho, ho', hmin, hmax, Bool.false_eq_true, if_false]
  omega

theorem SndInterval.Only.unique {i : SndInterval} {x y : Nat} (h : i.Only x) (h' : i.Only y) : x = y :=
  (h' x).1 ((h x).2 rfl)

theorem toNat_pcmPlugFramesToBytes (frames frameBits : UInt32) :
    (pcmPlugFramesToBytes frames frameBits).toNat = frames.toNat * (frameBits.toNat / 8) % 2 ^ 32 := by
  rw [pcmPlugFramesToBytes, UInt32.toNat_mul, UInt32.toNat_div]
  rfl

/-- A format's width is a number of bytes. -/
theorem width_bytes (f : PcmFormat) : (pcmFormatToBits f).toNat = 8 * ((pcmFormatToBits f).toNat / 8) := by
  cases f <;> decide

theorem width_mul_channels (config : PcmConfig) :
    (pcmFormatToBits config.format).toNat * config.channels.toNat = 8 * config.frameBytes := by
  unfold PcmConfig.frameBytes
  conv_lhs => rw [width_bytes]
  ring

/-- A handle as `pcm_set_config` leaves it for a configuration it took as it was asked for. -/
structure StoredFor (c : PcmPluginHwConstraints) (config : PcmConfig) (pcm : Pcm) : Prop where
  channels : pcm.config.channels = config.channels
  format : pcm.config.format = config.format
  periodSize : pcm.config.periodSize = selectedPeriodSize c config
  bufferSize : pcm.bufferSize = config.periodCount * config.periodSize

theorem selectedPeriodSize_eq_iff :
    (selectedPeriodSize c config).toNat = config.periodSize.toNat ↔ leastPeriodSize c ≤ config.periodSize := by
  unfold selectedPeriodSize
  rw [UInt32.le_iff_toNat_le]
  split <;> rename_i h <;> rw [UInt32.lt_iff_toNat_lt] at h <;> omega

/-- A number of frames, in bytes on the plugin's side. -/
theorem bytes_of_frames (hw : c.bitWidth.min = pcmFormatToBits config.format)
    (hfb : (pcmFormatToBits config.format).toNat * config.channels.toNat < 2 ^ 32) (frames : UInt32) :
    (c.bitWidth.min * config.channels).toNat = 8 * config.frameBytes ∧
      (pcmPlugFramesToBytes frames (c.bitWidth.min * config.channels)).toNat =
        frames.toNat * config.frameBytes % 2 ^ 32 := by
  have hbits : (c.bitWidth.min * config.channels).toNat = 8 * config.frameBytes := by
    rw [UInt32.toNat_mul, hw, Nat.mod_eq_of_lt hfb, width_mul_channels]
  refine ⟨hbits, ?_⟩
  rw [toNat_pcmPlugFramesToBytes, hbits, Nat.mul_div_cancel_left _ (by decide)]

/-- The sizes of constraints that fit. -/
def fittingSizes (config : PcmConfig) : IntervalParam → Nat
  | .sampleBits => (pcmFormatToBits config.format).toNat
  | .frameBits => 8 * config.frameBytes
  | .channels => config.channels.toNat
  | .periodSize => config.periodSize.toNat
  | .periodBytes => config.periodSize.toNat * config.frameBytes
  | .periods => config.periodCount.toNat
  | .bufferSize => config.periodSize.toNat * config.periodCount.toNat
  | .bufferBytes => config.periodSize.toNat * config.periodCount.toNat * config.frameBytes
  | _ => 0

theorem eight_mul_div (a b : Nat) : a * (8 * b) / 8 = a * b := by
  rw [Nat.mul_left_comm, Nat.mul_div_cancel_left _ (by decide)]

theorem StoredFor.toNat_pcmFramesToBytes (hp : StoredFor c config pcm) (frames : UInt32) :
    (pcmFramesToBytes pcm frames).toNat = frames.toNat * config.frameBytes % 2 ^ 32 := by
  rw [Tinyalsa.toNat_pcmFramesToBytes, PcmConfig.frameBytes, hp.channels, hp.format]
  rfl

theorem sizesAgree_of_fit (hpc : 0 < config.periodCount.toNat) (hfB : 0 < config.frameBytes)
    (hs : HandedSizes c config handed) (hp : StoredFor c config pcm) (h : SizesFit c config) :
    SizesAgree config pcm handed (fittingSizes config) := by
  have hsel : selectedPeriodSize c config = config.periodSize :=
    UInt32.toNat_inj.1 (selectedPeriodSize_eq_iff.2 h.periodSize)
  have hbytes := bytes_of_frames h.width h.frameBits
  have hbb : c.periodBytes.min * c.periods.min ≠ 0 := fun h0 => h.bufferSize (by simp [leastBufferSize, h0])
  have hle : config.periodSize.toNat * config.periodCount.toNat < 2 ^ 32 :=
    (Nat.le_mul_of_pos_right _ hfB).trans_lt h.bufferBytes
  have hpb : config.periodSize.toNat * config.frameBytes < 2 ^ 32 := by
    refine (Nat.mul_le_mul_right _ (Nat.le_mul_of_pos_right config.periodSize.toNat hpc)).trans_lt h.bufferBytes
  have hframes : (config.periodSize * config.periodCount).toNat =
      config.periodSize.toNat * config.periodCount.toNat := by
    rw [UInt32.toNat_mul, Nat.mod_eq_of_lt hle]
  have hsb := hs.sampleBits.only
  have hfb := hs.frameBits.only
  have hps := hs.periodSize.only
  have hpbs := hs.periodBytes.only
  have hbs := (hs.bufferSize h.bufferSize).only
  have hbbs := (hs.bufferBytes hbb).only
  rw [h.width] at hsb
  rw [(hbytes 0).1] at hfb
  rw [hsel] at hps
  rw [hsel, (hbytes _).2, Nat.mod_eq_of_lt hpb] at hpbs
  rw [hsel, hframes] at hbs
  rw [hsel, (hbytes _).2, hframes, Nat.mod_eq_of_lt h.bufferBytes] at hbbs
  refine ⟨hsb, hfb, hs.channels.only, hps, hpbs, hs.periods.only, hbs, hbbs, (width_mul_channels config).symm,
    (eight_mul_div _ _).symm, rfl, (eight_mul_div _ _).symm, rfl, ?_, ?_⟩
  · rw [hp.toNat_pcmFramesToBytes, hp.periodSize, hsel, Nat.mod_eq_of_lt hpb]
    rfl
  · rw [hp.toNat_pcmFramesToBytes, hp.bufferSize, UInt32.mul_comm, hframes, Nat.mod_eq_of_lt h.bufferBytes]
    rfl

theorem fit_of_sizesAgree (hps : 0 < config.periodSize.toNat) (hpc : 0 < config.periodCount.toNat)
    (hfB : 0 < config.frameBytes) (hs : HandedSizes c config handed) (hp : StoredFor c config pcm)
    {v : IntervalParam → Nat} (h : SizesAgree config pcm handed v) : SizesFit c config := by
  have hch := hs.channels.only.unique h.channels
  have hm := hs.periodSize.only.unique h.periodSize
  have hn := hs.periods.only.unique h.periods
  have hw : c.bitWidth.min = pcmFormatToBits config.format :=
    UInt32.toNat_inj.1 ((hs.sampleBits.only.unique h.sampleBits).trans h.width)
  have hfb : (pcmFormatToBits config.format).toNat * config.channels.toNat < 2 ^ 32 := by
    rw [hch, ← h.width, ← h.frameBits_eq, ← hs.frameBits.only.unique h.frameBits]
    exact UInt32.toNat_lt _
  have hge := @selectedPeriodSize_ge c config
  have hbs : leastBufferSize c ≠ 0 := by
    intro h0
    have hzero := (h.bufferSize 0).1 (hs.bufferSizeSkipped h0)
    rw [h.bufferSize_eq, ← hm, ← hn] at hzero
    have := Nat.mul_pos (hps.trans_le hge) hpc
    omega
  have hbb : c.periodBytes.min * c.periods.min ≠ 0 := fun h0 => hbs (by simp [leastBufferSize, h0])
  have hbits := (bytes_of_frames hw hfb 0).1
  have hvb : v .bufferBytes = (selectedPeriodSize c config).toNat * config.periodCount.toNat * config.frameBytes := by
    rw [h.bufferBytes_eq, h.bufferSize_eq, ← hm, ← hn, ← hs.frameBits.only.unique h.frameBits, hbits, eight_mul_div]
  have hlt : (selectedPeriodSize c config).toNat * config.periodCount.toNat * config.frameBytes < 2 ^ 32 := by
    rw [← hvb, ← (hs.bufferBytes hbb).only.unique h.bufferBytes]
    exact UInt32.toNat_lt _
  have hmul := Nat.mul_le_mul_right config.frameBytes (Nat.mul_le_mul_right config.periodCount.toNat hge)
  have hframes : (config.periodCount * config.periodSize).toNat =
      config.periodSize.toNat * config.periodCount.toNat := by
    rw [UInt32.mul_comm, UInt32.toNat_mul, Nat.mod_eq_of_lt]
    exact (Nat.le_mul_of_pos_right _ hfB).trans_lt (hmul.trans_lt hlt)
  -- the library's buffer has the frames asked for, the plugin's the frames selected
  have heq : config.periodSize.toNat * config.periodCount.toNat * config.frameBytes =
      (selectedPeriodSize c config).toNat * config.periodCount.toNat * config.frameBytes := by
    have := h.bufferBytes_pcm
    rw [hp.toNat_pcmFramesToBytes, hp.bufferSize, hframes, Nat.mod_eq_of_lt (hmul.trans_lt hlt), hvb] at this
    exact this.symm
  have hsel := Nat.eq_of_mul_eq_mul_right hpc (Nat.eq_of_mul_eq_mul_right hfB heq)
  exact ⟨hw, hfb, selectedPeriodSize_eq_iff.1 hsel.symm, hbs, hmul.trans_lt hlt⟩

end

/-! ## `pcm_set_config` on a plugin -/

/-- A handle on a plugin just opened: its `hw_params` leaves the period's size and count as they were handed,
and a refusal of it can be told from a success. -/
structure PlugHandle {π : Type} (c : PcmPluginHwConstraints) (ops : PcmPluginOps π) (w : World (PlugDev π)) : Prop where
  constraints : w.dev.data.plugin.constraints = c
  state : w.dev.data.plugin.state = .opened
  calls : w.dev.data.plugin.calls = []
  keeps : ∀ p u, ((ops.hwParams p u).2.1.intervals .periodSize) = p.intervals .periodSize ∧
    ((ops.hwParams p u).2.1.intervals .periods) = p.intervals .periods
  told : w.errno ≠ 0 ∨ ∀ p u, (ops.hwParams p u).1 = 0

/-- When `pcm_set_config` on a plugin returns 0, the sizes it was handed are those of the library. -/
def SizesAgreed (c : PcmPluginHwConstraints) (config : PcmConfig) : Prop :=
  ∀ (π : Type) (ops : PcmPluginOps π) (mem : PlugMemory π) (w : World (PlugDev π)), PlugHandle c ops w →
    (exec (pcmSetConfig (plugOps ops mem) (some config)) w).1 = 0 →
    (exec (pcmSetConfig (plugOps ops mem) (some config)) w).2.dev.trapped = false →
    ∃ handed v, .hwParams handed 0 ∈ (exec (pcmSetConfig (plugOps ops mem) (some config)) w).2.dev.data.plugin.calls ∧
      SizesAgree config (exec (pcmSetConfig (plugOps ops mem) (some config)) w).2.pcm handed v

section

variable {π : Type} {c : PcmPluginHwConstraints} {config : PcmConfig} {ops : PcmPluginOps π} {mem : PlugMemory π}
  {w : World (PlugDev π)}

/-- The answer of a plugin to `HW_PARAMS`. -/
theorem plugOps_hwParams (d : PlugDev π) (req : SndPcmHwParams) (h : d.data.plugin.state = .opened) :
    (plugOps ops mem).hwParams req d =
      match pcmPlugHanded d.data.plugin.constraints req with
      | none => (⟨-1, none⟩, req, { d with trapped := true })
      | some handed =>
        let (rc, params, priv) := ops.hwParams handed d.data.plugin.priv
        (⟨rc, none⟩, params, { d with data := { d.data with plugin := { d.data.plugin with
          priv, state := if rc = 0 then .setup else d.data.plugin.state
          calls := .hwParams handed rc :: d.data.plugin.calls } } }) := by
  simp only [plugOps, PlugDev.ioctl, pcmPlugIoctl, pcmPlugHparams_handed ops req h]
  cases pcmPlugHanded d.data.plugin.constraints req <;> rfl

/-- A command adds to the calls a plugin has seen. -/
theorem PlugDev.ioctl_calls {d : PlugDev π} {call : PlugCall} (h : call ∈ d.data.plugin.calls) (cmd : PcmPlugCmd) :
    call ∈ (d.ioctl ops cmd).2.2.data.plugin.calls := by
  unfold PlugDev.ioctl
  split <;> rename_i hio
  · rcases pcmPlugIoctl_cases hio with ⟨-, -, -, rfl⟩ | ⟨-, call', -, hg⟩ | ⟨-, -, rfl⟩
    · exact h
    · exact hg.calls ▸ List.mem_cons_of_mem _ h
    · exact h
  · exact h

theorem pcmPlugMmap_calls {plugin : PcmPlugin π} {call : PlugCall} (h : call ∈ plugin.calls) (offset : MmapOffset)
    (length : Nat) : call ∈ (pcmPlugMmap ops plugin offset length).2.calls := by
  unfold pcmPlugMmap
  split
  · exact h
  · exact List.mem_cons_of_mem _ h

/-- What the rest of `pcm_set_config` leaves as `HW_PARAMS` left it. -/
structure Kept (call : PlugCall) (p : Pcm) (w : World (PlugDev π)) : Prop where
  call : call ∈ w.dev.data.plugin.calls
  bufferSize : w.pcm.bufferSize = p.bufferSize
  periodSize : w.pcm.config.periodSize = p.config.periodSize
  channels : w.pcm.config.channels = p.config.channels
  format : w.pcm.config.format = p.config.format

theorem pcmSetBuffer_keeps {call : PlugCall} {p : Pcm} :
    KeepsPcm (Kept call p) (pcmSetBuffer (plugOps ops mem) (some config)) := by
  have hoops : ∀ (e : Int) (text : String), KeepsPcm (Kept call p) (oops (σ := PlugDev π) e text) :=
    fun _ _ b hb => ⟨hb.call, hb.bufferSize, hb.periodSize, hb.channels, hb.format⟩
  have hioctl : ∀ sparams, KeepsPcm (Kept call p) (ioctlSwParams (plugOps ops mem) sparams) := fun sparams b hb =>
    ⟨@PlugDev.ioctl_calls π ops b.dev call hb.call (.swParams sparams), hb.bufferSize, hb.periodSize,
      hb.channels, hb.format⟩
  have hmmap : ∀ offset n, KeepsPcm (Kept call p) (opsMmap (plugOps ops mem) offset n) := fun offset n b hb =>
    ⟨@pcmPlugMmap_calls π ops b.dev.data.plugin call hb.call offset n, hb.bufferSize, hb.periodSize,
      hb.channels, hb.format⟩
  have hsw : KeepsPcm (Kept call p) (pcmSetSwConfig (plugOps ops mem) (some config)) := by
    refine Triple.bind KeepsPcm.get fun _ => Triple.bind (Q := fun _ => Kept call p) ?_ fun _ => ?_
    · exact fun b hb => ⟨hb.call, hb.bufferSize, hb.periodSize, hb.channels, hb.format⟩
    refine Triple.bind (hioctl _) fun _ => Triple.ite (fun _ => ?_) fun _ => ?_
    · exact Triple.bind KeepsPcm.get fun _ => Triple.bind (hoops _ _) fun _ => KeepsPcm.pure _
    · refine Triple.bind (Q := fun _ => Kept call p) ?_ fun _ => KeepsPcm.pure _
      exact fun b hb => ⟨hb.call, hb.bufferSize, hb.periodSize, hb.channels, hb.format⟩
  refine Triple.bind KeepsPcm.get fun _ => Triple.ite (fun _ => ?_) fun _ => hsw
  refine Triple.bind (hmmap _ _) fun _ => Triple.bind (Q := fun _ => Kept call p) ?_ fun _ => ?_
  · exact fun b hb => ⟨hb.call, hb.bufferSize, hb.periodSize, hb.channels, hb.format⟩
  refine Triple.ite (fun _ => ?_) fun _ => hsw
  exact Triple.bind KeepsPcm.get fun _ => Triple.bind (hoops _ _) fun _ => KeepsPcm.pure _

/-- A `pcm_set_config` that returns 0 on a plugin handed it the parameters and stored what came back. -/
theorem pcmSetConfig_handed (hw : PlugHandle c ops w)
    (hret : (exec (pcmSetConfig (plugOps ops mem) (some config)) w).1 = 0)
    (htrap : (exec (pcmSetConfig (plugOps ops mem) (some config)) w).2.dev.trapped = false) :
    ∃ p handed, pcmPlugHanded c (hwRequest p config) = some handed ∧
      Kept (.hwParams handed 0) (storeRefined (some config) handed { p with config })
        (exec (pcmSetConfig (plugOps ops mem) (some config)) w).2 := by
  rcases pcmSetConfig_eq (plugOps ops mem) w (some config) with ⟨-, -, hneg⟩ | ⟨-, heq⟩
  · exact absurd (hret.symm.trans hneg) (by decide)
  rw [heq] at hret htrap ⊢
  have hr : (plugOps ops mem).hwParams (hwRequest (configStored (some config) w.pcm) config) w.dev = _ :=
    plugOps_hwParams w.dev (hwRequest (configStored (some config) w.pcm) config) hw.state
  rw [hw.constraints] at hr
  cases hh : pcmPlugHanded c (hwRequest (configStored (some config) w.pcm) config) with
  | none =>
    rw [hh] at hr
    obtain ⟨-, -, hdev⟩ := pcmSetHwConfig_refused (plugOps ops mem) (w.setPcm (configStored (some config) w.pcm))
      (some config) hr (show (-1 : Int) ≠ 0 by decide)
    rw [hdev] at htrap
    cases htrap
  | some handed =>
    rw [hh] at hr
    by_cases hrc : (ops.hwParams handed w.dev.data.plugin.priv).1 = 0
    · obtain ⟨w₁, heq₁, hpcm, hdev, -, -⟩ :=
        pcmSetHwConfig_taken (plugOps ops mem) (w.setPcm (configStored (some config) w.pcm)) (some config) hr hrc
      rw [heq₁]
      have hcfg : (configStored (some config) w.pcm).config = config := by
        unfold configStored
        dsimp only
        split <;> rfl
      refine ⟨_, handed, hh, pcmSetBuffer_keeps w₁ ⟨?_, ?_, ?_, ?_, ?_⟩⟩
      · rw [hdev, hrc]
        exact List.mem_cons_self
      · rw [hpcm]
        rfl
      · rw [hpcm, storeRefined_periodSize, storeRefined_periodSize, paramGetInt, paramGetInt, (hw.keeps _ _).1]
      · rw [hpcm]
        show (configStored (some config) w.pcm).config.channels = config.channels
        rw [hcfg]
      · rw [hpcm]
        show (configStored (some config) w.pcm).config.format = config.format
        rw [hcfg]
    · -- a refusal returns `-errno`, which is not 0
      obtain ⟨hneg, -, -⟩ := pcmSetHwConfig_refused (plugOps ops mem) (w.setPcm (configStored (some config) w.pcm))
        (some config) hr hrc
      rcases hw.told with he | hok
      · have herr : -w.errno = 0 := hneg.symm.trans hret
        omega
      · exact absurd (hok _ _) hrc

/-- The handle after it agrees with what the plugin was handed. -/
theorem Kept.storedFor {call : PlugCall} {p : Pcm} {handed : SndPcmHwParams} (hs : HandedSizes c config handed)
    (h : Kept call (storeRefined (some config) handed { p with config }) w) : StoredFor c config w.pcm where
  channels := h.channels
  format := h.format
  periodSize := by
    rw [h.periodSize, storeRefined_periodSize, paramGetInt, if_pos hs.integer.1, hs.periodSize.2.1]
  bufferSize := h.bufferSize

end

/-- An admitted configuration has frames, and they have bytes. -/
theorem PcmPluginHwConstraints.Admits.pos {c : PcmPluginHwConstraints} {config : PcmConfig} (hwf : c.RangesWF)
    (h : c.Admits config) :
    0 < config.periodSize.toNat ∧ 0 < config.periodCount.toNat ∧ 0 < config.frameBytes := by
  have hpb := UInt32.lt_iff_toNat_lt.1 (hwf .periodBytes _ rfl).1
  have hpc := UInt32.lt_iff_toNat_lt.1 (hwf .periods _ rfl).1
  have hpos : 0 < config.periodSize.toNat * config.frameBytes := lt_of_lt_of_le hpb h.periodBytes.1
  exact ⟨Nat.pos_of_mul_pos_right hpos, lt_of_lt_of_le hpc h.periods.1, Nat.pos_of_mul_pos_left hpos⟩

/-- A handle on a plugin that accepts every configuration. -/
def acceptingWorld (c : PcmPluginHwConstraints) (config : PcmConfig) : World (PlugDev Unit) :=
  { pcm := openedPcm config, dev := { data := ⟨0, 0, 0, none, ⟨c, (), .opened, []⟩⟩ }, user := ⟨0, fun _ => 0⟩ }

theorem acceptingWorld_handle (c : PcmPluginHwConstraints) (config : PcmConfig) :
    PlugHandle c acceptingOps (acceptingWorld c config) :=
  ⟨rfl, rfl, rfl, fun _ _ => ⟨rfl, rfl⟩, .inr fun _ _ => rfl⟩

/-- What the accepting plugin makes of a configuration it is handed. -/
theorem acceptingWorld_run {c : PcmPluginHwConstraints} {config : PcmConfig} {handed : SndPcmHwParams}
    (hh : pcmPlugHanded c (hwRequest (openedPcm config) config) = some handed) :
    (exec (pcmSetConfig (plugOps acceptingOps noMemory) (some config)) (acceptingWorld c config)).1 = 0 ∧
      (exec (pcmSetConfig (plugOps acceptingOps noMemory) (some config)) (acceptingWorld c config)).2.dev.trapped =
        false ∧
      (exec (pcmSetConfig (plugOps acceptingOps noMemory) (some config))
          (acceptingWorld c config)).2.dev.data.plugin.calls =
        [.callback .swParams 0, .hwParams handed 0] := by
  have hn : (openedPcm config).isNoirq = false := by simp [openedPcm, Pcm.isNoirq]
  have hm : (openedPcm config).isMmap = false := by simp [openedPcm, Pcm.isMmap]
  have hst : configStored (some config) (openedPcm config) = openedPcm config := by
    change (if (openedPcm config).isNoirq = true then _ else openedPcm config) = openedPcm config
    rw [if_neg (by simp [hn])]
  have hr := @plugOps_hwParams Unit acceptingOps noMemory (acceptingWorld c config).dev
    (hwRequest (openedPcm config) config) rfl
  rw [show (acceptingWorld c config).dev.data.plugin.constraints = c from rfl, hh] at hr
  rcases pcmSetConfig_eq (plugOps acceptingOps noMemory) (acceptingWorld c config) (some config) with
    ⟨⟨h, -⟩, -⟩ | ⟨-, heq⟩
  · exact absurd (h.symm.trans hn) (by decide)
  rw [heq, show (acceptingWorld c config).pcm = openedPcm config from rfl, hst]
  obtain ⟨w₁, heq₁, hpcm, hdev, -, -⟩ := pcmSetHwConfig_taken (plugOps acceptingOps noMemory)
    ((acceptingWorld c config).setPcm (openedPcm config)) (some config) hr rfl
  have hm₁ : w₁.pcm.isMmap = false := by rw [hpcm]; exact hm
  rw [heq₁]
  have hsw : ∀ s, ∃ d, (plugOps acceptingOps noMemory).swParams s w₁.dev = (⟨0, none⟩, s, d) ∧ d.trapped = false ∧
      d.data.plugin.calls = [.callback .swParams 0, .hwParams handed 0] := by
    intro s
    rw [hdev]
    exact ⟨_, rfl, rfl, rfl⟩
  obtain ⟨d, hd, htrap, hcalls⟩ := hsw (swRequest w₁.pcm (derefConfig (some config) w₁.pcm))
  simp only [pcmSetBuffer, pcmSetSwConfig, exec_bind, exec_get, hm₁, exec_modifyPcm, exec_ioctlSwParams,
    Bool.false_eq_true, if_false, World.setPcm_dev, hd, ne_eq, not_true_eq_false, exec_pure]
  exact ⟨trivial, htrap, hcalls⟩

/-- Where the two sides agree and the plugin does not trap, its constraints fit. -/
theorem SizesAgreed.fit {c : PcmPluginHwConstraints} {config : PcmConfig} (hwf : c.RangesWF) (hadm : c.Admits config)
    (hfb : leastFrameBits c ≠ 0) (h : SizesAgreed c config) : SizesFit c config := by
  obtain ⟨hps, hpc, hfB⟩ := hadm.pos hwf
  have hps' : config.periodSize ≠ 0 := fun h0 => by simp [h0] at hps
  obtain ⟨handed, hh, hs⟩ := handedSizes (p := openedPcm config) hwf hadm hfb hps'
  obtain ⟨hret, htrap, hcalls⟩ := acceptingWorld_run hh
  obtain ⟨handed', v, hmem, hagree⟩ := h Unit acceptingOps noMemory _ (acceptingWorld_handle c config) hret htrap
  obtain rfl : handed' = handed := by simpa [hcalls] using hmem
  obtain ⟨p, handed', -, hk⟩ := pcmSetConfig_handed (acceptingWorld_handle c config) hret htrap
  have hmem' := hk.call
  obtain rfl : handed' = _ := by simpa [hcalls] using hmem'
  exact fit_of_sizesAgree hps hpc hfB hs (hk.storedFor hs) hagree

/-- On a plugin that admits the configuration, the two sides agree just when the plugin traps on it or its
constraints fit. -/
theorem pcmSetConfig_sizesAgreed_iff {c : PcmPluginHwConstraints} {config : PcmConfig} (hwf : c.RangesWF)
    (hadm : c.Admits config) : SizesAgreed c config ↔ leastFrameBits c = 0 ∨ SizesFit c config := by
  constructor
  · intro h
    by_cases hfb : leastFrameBits c = 0
    · exact .inl hfb
    · exact .inr (h.fit hwf hadm hfb)
  · intro h π ops mem w hw hret htrap
    obtain ⟨p, handed, hh, hk⟩ := pcmSetConfig_handed hw hret htrap
    have hfb : leastFrameBits c ≠ 0 := fun h0 => by
      rw [pcmPlugHanded_trap h0] at hh
      cases hh
    obtain ⟨hps, hpc, hfB⟩ := hadm.pos hwf
    obtain ⟨handed', hh', hs⟩ := handedSizes (p := p) hwf hadm hfb fun h0 => by simp [h0] at hps
    obtain rfl := Option.some.inj (hh.symm.trans hh')
    exact ⟨handed, _, hk.call, sizesAgree_of_fit hpc hfB hs (hk.storedFor hs) (h.resolve_left hfb)⟩

theorem stereoConstraints_admits : stereoConstraints.Admits stereoConfig := by
  constructor <;> decide

theorem pcmSetConfig_sizesAgreed_stereo : SizesAgreed stereoConstraints stereoConfig := by
  refine (pcmSetConfig_sizesAgreed_iff stereoConstraints_wf.ranges stereoConstraints_admits).2 (.inr ?_)
  constructor <;> decide

/-- 16 or 32 bits. -/
def wideConstraints : PcmPluginHwConstraints := { stereoConstraints with format := 0x404, bitWidth := ⟨16, 32⟩ }

/-- Stereo at 32 bits. -/
def wideConfig : PcmConfig := { stereoConfig with format := .s32Le, periodSize := 512 }

/-- A plugin of 16 or 32 bits that is asked for 32 is handed the sizes of 16. -/
theorem pcmSetConfig_sizesAgreed_not :
    wideConstraints.WF ∧ wideConstraints.Admits wideConfig ∧ ¬ SizesAgreed wideConstraints wideConfig := by
  have hwf : wideConstraints.WF := ⟨by decide, by decide, by rintro (_ | _) v h <;> cases h <;> decide⟩
  have hadm : wideConstraints.Admits wideConfig := by constructor <;> decide
  exact ⟨hwf, hadm, fun h => absurd (h.fit hwf.ranges hadm (by decide)).width (by decide)⟩

end Tinyalsa
