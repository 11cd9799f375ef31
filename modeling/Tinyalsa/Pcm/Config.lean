/-
`pcm_set_config`: the handle's geometry and the software parameters derived from it, for any
backend. The requested configuration is read through a pointer that is the handle's own record in
one path and the caller's in the other, so what follows the backend's refinement differs by path.
-/
import Tinyalsa.Pcm.Handle

namespace Tinyalsa

open Hoare

/-! ## The function -/

/-- The defaults `pcm_set_config` stores for a `NULL` config. -/
def defaultConfig (old : PcmConfig) : PcmConfig :=
  { old with
    channels := 2
    rate := 48000
    periodSize := 1024
    periodCount := 4
    format := .s16Le
    startThreshold := ((4 : UInt32) * 1024).toUInt64
    stopThreshold := ((4 : UInt32) * 1024).toUInt64
    silenceThreshold := 0
    silenceSize := 0 }

/-- The hardware parameters requested for a configuration. -/
def hwRequest (pcm : Pcm) (config : PcmConfig) : SndPcmHwParams :=
  let params := paramInit
  let params := paramSetMask params .format (pcmFormatToAlsa config.format)
  let params := paramSetMin params .periodSize config.periodSize
  let params := paramSetInt params .channels config.channels
  let params := paramSetInt params .periods config.periodCount
  let params := paramSetInt params .rate config.rate
  let params := if pcm.isNoirq then { params with flags := params.flags ||| hwParamsNoPeriodWakeup } else params
  paramSetMask params .access (if pcm.isMmap then accessMmapInterleaved else accessRwInterleaved)

/-- The start threshold passed for a configuration. -/
def swStartThreshold (pcm : Pcm) (config : PcmConfig) : UInt64 :=
  if config.startThreshold = 0 then
    if pcm.isIn then 1 else (config.periodCount * config.periodSize / 2).toUInt64
  else config.startThreshold

/-- The stop threshold passed for a configuration. -/
def swStopThreshold (pcm : Pcm) (config : PcmConfig) : UInt64 :=
  if config.stopThreshold = 0 then
    if pcm.isIn then (config.periodCount * config.periodSize * 10).toUInt64
    else (config.periodCount * config.periodSize).toUInt64
  else config.stopThreshold

/-- The software parameters requested for a configuration. -/
def swRequest (pcm : Pcm) (config : PcmConfig) : SndPcmSwParams where
  tstampMode := tstampEnable
  periodStep := 1
  availMin := config.periodSize.toUInt64
  startThreshold := swStartThreshold pcm config
  stopThreshold := swStopThreshold pcm config
  xferAlign := (config.periodSize / 2).toUInt64
  silenceSize := config.silenceSize
  silenceThreshold := config.silenceThreshold

/-- `*config`: the handle's own record when the argument was `NULL`, the caller's otherwise. -/
def derefConfig (config : Option PcmConfig) (pcm : Pcm) : PcmConfig := config.getD pcm.config

/-- The length of the sample buffer's mapping. -/
def mmapLength (pcm : Pcm) : UInt32 := pcmFramesToBytes pcm pcm.bufferSize

/-- `pcm->config.period_size = ...; pcm->config.period_count = ...; pcm->buffer_size = ...`. -/
def storeRefined (config : Option PcmConfig) (params : SndPcmHwParams) (p : Pcm) : Pcm :=
  let p := { p with config := { p.config with
    periodSize := paramGetInt params .periodSize
    periodCount := paramGetInt params .periods } }
  { p with bufferSize := (derefConfig config p).periodCount * (derefConfig config p).periodSize }

/-- `pcm->config.start_threshold = ...; pcm->config.stop_threshold = ...`, where the config asked for
the defaults. -/
def storeThresholds (config : PcmConfig) (sparams : SndPcmSwParams) (p : Pcm) : Pcm :=
  { p with config := { p.config with
    startThreshold := if config.startThreshold = 0 then sparams.startThreshold else p.config.startThreshold
    stopThreshold := if config.stopThreshold = 0 then sparams.stopThreshold else p.config.stopThreshold } }

section

variable (config : Option PcmConfig) (c : PcmConfig) (params : SndPcmHwParams) (sparams : SndPcmSwParams) (p : Pcm)

@[simp] theorem storeRefined_flags : (storeRefined config params p).flags = p.flags := rfl
@[simp] theorem storeRefined_periodSize :
    (storeRefined config params p).config.periodSize = paramGetInt params .periodSize := rfl
@[simp] theorem storeRefined_periodCount :
    (storeRefined config params p).config.periodCount = paramGetInt params .periods := rfl
@[simp] theorem storeThresholds_flags : (storeThresholds c sparams p).flags = p.flags := rfl
@[simp] theorem storeThresholds_bufferSize : (storeThresholds c sparams p).bufferSize = p.bufferSize := rfl
@[simp] theorem storeThresholds_periodSize :
    (storeThresholds c sparams p).config.periodSize = p.config.periodSize := rfl
@[simp] theorem storeThresholds_periodCount :
    (storeThresholds c sparams p).config.periodCount = p.config.periodCount := rfl

end

section

variable {σ : Type} (ops : PcmOps σ)

/-- `pcm->ops->ioctl(pcm->data, SNDRV_PCM_IOCTL_HW_PARAMS, &params)`. -/
def ioctlHwParams (params : SndPcmHwParams) : PcmM σ (Int × SndPcmHwParams) := do
  let w ← get
  let (r, params', dev) := ops.hwParams params w.dev
  set (w.answered r.errno dev)
  record (.hwParams params r.ret)
  return (r.ret, params')

/-- `pcm->ops->ioctl(pcm->data, SNDRV_PCM_IOCTL_SW_PARAMS, &sparams)`. -/
def ioctlSwParams (params : SndPcmSwParams) : PcmM σ (Int × SndPcmSwParams) := do
  let w ← get
  let (r, params', dev) := ops.swParams params w.dev
  set (w.answered r.errno dev)
  record (.swParams params r.ret)
  return (r.ret, params')

/-- `pcm->ops->mmap(pcm->data, NULL, length, ..., MAP_SHARED, offset)`. -/
def opsMmap (offset : MmapOffset) (length : Nat) : PcmM σ MapAddr := do
  let w ← get
  let (a, errno, dev) := ops.mmap offset length w.dev
  set (w.answered errno dev)
  record (.mmap offset length)
  return a

/-- `pcm->ops->munmap(pcm->data, addr, length)`. -/
def opsMunmap (addr : MapAddr) (length : Nat) : PcmM σ Int := do
  let w ← get
  let (r, dev) := ops.munmap addr length w.dev
  set (w.answered r.errno dev)
  record (.munmap addr length r.ret)
  return r.ret

@[simp] theorem exec_ioctlHwParams (p : SndPcmHwParams) (w : World σ) :
    exec (ioctlHwParams ops p) w =
      (((ops.hwParams p w.dev).1.ret, (ops.hwParams p w.dev).2.1),
        (w.answered (ops.hwParams p w.dev).1.errno (ops.hwParams p w.dev).2.2).push
          (.hwParams p (ops.hwParams p w.dev).1.ret)) := (rfl)

@[simp] theorem exec_ioctlSwParams (p : SndPcmSwParams) (w : World σ) :
    exec (ioctlSwParams ops p) w =
      (((ops.swParams p w.dev).1.ret, (ops.swParams p w.dev).2.1),
        (w.answered (ops.swParams p w.dev).1.errno (ops.swParams p w.dev).2.2).push
          (.swParams p (ops.swParams p w.dev).1.ret)) := (rfl)

@[simp] theorem exec_opsMmap (offset : MmapOffset) (length : Nat) (w : World σ) :
    exec (opsMmap ops offset length) w =
      ((ops.mmap offset length w.dev).1,
        (w.answered (ops.mmap offset length w.dev).2.1 (ops.mmap offset length w.dev).2.2).push
        (.mmap offset length)) := (rfl)

@[simp] theorem exec_opsMunmap (addr : MapAddr) (length : Nat) (w : World σ) :
    exec (opsMunmap ops addr length) w =
      ((ops.munmap addr length w.dev).1.ret,
        (w.answered (ops.munmap addr length w.dev).1.errno (ops.munmap addr length w.dev).2).push
          (.munmap addr length (ops.munmap addr length w.dev).1.ret)) := (rfl)

/-- The software half of `pcm_set_config`. -/
def pcmSetSwConfig (config : Option PcmConfig) : PcmM σ Int := do
  let pcm := (← get).pcm
  let config := derefConfig config pcm
  let sparams := swRequest pcm config
  modifyPcm (storeThresholds config sparams)
  let (ret, sparams) ← ioctlSwParams ops sparams
  if ret ≠ 0 then
    let errnoCopy := (← get).errno
    let _ ← oops errnoCopy "cannot set sw params"
    return -errnoCopy
  else
    modifyPcm fun p => { p with boundary := sparams.boundary }
    return 0

/-- `pcm_set_config` from the mapping of the sample buffer on. -/
def pcmSetBuffer (config : Option PcmConfig) : PcmM σ Int := do
  let pcm := (← get).pcm
  if pcm.isMmap then
    let a ← opsMmap ops .data (mmapLength pcm).toNat
    modifyPcm fun p => { p with mmapBuffer := a }
    if a = .mapFailed then
      let errnoCopy := (← get).errno
      let _ ← oops errnoCopy s!"failed to mmap buffer {CInt.ofUInt (mmapLength pcm)} bytes\n"
      return -errnoCopy
    else pcmSetSwConfig ops config
  else pcmSetSwConfig ops config

/-- `pcm_set_config` from `HW_PARAMS` on. -/
def pcmSetHwConfig (config : Option PcmConfig) : PcmM σ Int := do
  let pcm := (← get).pcm
  let (ret, params) ← ioctlHwParams ops (hwRequest pcm (derefConfig config pcm))
  if ret ≠ 0 then
    let errnoCopy := (← get).errno
    let _ ← oops errnoCopy "cannot set hw params"
    return -errnoCopy
  else
    -- get our refined hw_params
    modifyPcm (storeRefined config params)
    pcmSetBuffer ops config

/-- `pcm_set_config` of a handle; `none` is a `NULL` config. -/
def pcmSetConfig (config : Option PcmConfig) : PcmM σ Int := do
  modifyPcm fun p => { p with config := config.getD (defaultConfig p.config) }
  let pcm := (← get).pcm
  if pcm.isNoirq then
    if !pcm.isMmap then
      let _ ← oops eInval "noirq only currently supported with mmap()."
      return -eInval
    else
      modifyPcm fun p => { p with noirqFramesPerMsec := (derefConfig config p).rate / 1000 }
      pcmSetHwConfig ops config
  else pcmSetHwConfig ops config

end

/-! ## What each part does -/

/-- The two handles describe the same ring. -/
def SameGeometry (p p' : Pcm) : Prop :=
  p'.bufferSize = p.bufferSize ∧ p'.config.periodSize = p.config.periodSize ∧
    p'.config.periodCount = p.config.periodCount

/-- The call that maps the sample buffer, where one is made. -/
def callsMapped (pcm : Pcm) (length : Nat) : List PcmCall := if pcm.isMmap then [.mmap .data length] else []

section

variable {σ : Type} (ops : PcmOps σ) (config : Option PcmConfig) (w : World σ)

/-- The device once the sample buffer is mapped. -/
def devMapped (pcm : Pcm) (length : Nat) (d : σ) : σ := if pcm.isMmap then (ops.mmap .data length d).2.2 else d

/-- The software half makes one `SW_PARAMS` call. -/
theorem pcmSetSwConfig_trace :
    (exec (pcmSetSwConfig ops config) w).2.trace =
      .swParams (swRequest w.pcm (derefConfig config w.pcm))
        (ops.swParams (swRequest w.pcm (derefConfig config w.pcm)) w.dev).1.ret :: w.trace := by
  simp only [pcmSetSwConfig, exec_bind, exec_get, exec_modifyPcm, exec_ioctlSwParams, exec_ite, exec_oops, exec_pure]
  by_cases h : (ops.swParams (swRequest w.pcm (derefConfig config w.pcm)) w.dev).1.ret = 0 <;> simp [h]

/-- The software half leaves the geometry alone. -/
theorem pcmSetSwConfig_geometry :
    let p := (exec (pcmSetSwConfig ops config) w).2.pcm
    p.bufferSize = w.pcm.bufferSize ∧ p.config.periodSize = w.pcm.config.periodSize ∧
      p.config.periodCount = w.pcm.config.periodCount := by
  simp only [pcmSetSwConfig, exec_bind, exec_get, exec_modifyPcm, exec_ioctlSwParams, exec_ite, exec_oops, exec_pure]
  by_cases h : (ops.swParams (swRequest w.pcm (derefConfig config w.pcm)) w.dev).1.ret = 0 <;> simp [h]

/-- The mapping of the sample buffer fails, or the software half follows it. -/
theorem pcmSetBuffer_cases :
    SameGeometry w.pcm (exec (pcmSetBuffer ops config) w).2.pcm ∧
      (w.pcm.isMmap ∧ (ops.mmap .data (mmapLength w.pcm).toNat w.dev).1 = .mapFailed ∧
          (exec (pcmSetBuffer ops config) w).2.trace = .mmap .data (mmapLength w.pcm).toNat :: w.trace ∨
        (w.pcm.isMmap → (ops.mmap .data (mmapLength w.pcm).toNat w.dev).1 ≠ .mapFailed) ∧
          (exec (pcmSetBuffer ops config) w).2.trace =
            .swParams (swRequest w.pcm (derefConfig config w.pcm))
              (ops.swParams (swRequest w.pcm (derefConfig config w.pcm))
                (devMapped ops w.pcm (mmapLength w.pcm).toNat w.dev)).1.ret ::
              (callsMapped w.pcm (mmapLength w.pcm).toNat ++ w.trace)) := by
  simp only [pcmSetBuffer, exec_bind, exec_get, exec_ite, devMapped, callsMapped]
  by_cases hm : w.pcm.isMmap = true
  · simp only [hm, if_true, exec_opsMmap, exec_modifyPcm, exec_oops, exec_pure]
    by_cases ha : (ops.mmap .data (mmapLength w.pcm).toNat w.dev).1 = .mapFailed
    · simp only [ha, if_true]
      exact ⟨⟨rfl, rfl, rfl⟩, .inl ⟨trivial, trivial, rfl⟩⟩
    · simp only [ha, if_false]
      refine ⟨pcmSetSwConfig_geometry ops config _, .inr ⟨fun _ => ha, ?_⟩⟩
      rw [pcmSetSwConfig_trace]
      cases config <;> rfl
  · simp only [hm]
    refine ⟨pcmSetSwConfig_geometry ops config w, .inr ⟨fun h => absurd h (by simp), ?_⟩⟩
    simpa using pcmSetSwConfig_trace ops config w

/-- `HW_PARAMS` fails, or its reply is stored and the rest follows it. -/
theorem pcmSetHwConfig_cases {params : SndPcmHwParams} {p : Pcm} {d : σ} {r : Reply}
    (hr : ops.hwParams (hwRequest w.pcm (derefConfig config w.pcm)) w.dev = (r, params, d))
    (hp : storeRefined config params w.pcm = p) :
    r.ret ≠ 0 ∧ (exec (pcmSetHwConfig ops config) w).2.trace =
        .hwParams (hwRequest w.pcm (derefConfig config w.pcm)) r.ret :: w.trace ∨
      r.ret = 0 ∧ SameGeometry p (exec (pcmSetHwConfig ops config) w).2.pcm ∧
        (p.isMmap ∧ (ops.mmap .data (mmapLength p).toNat d).1 = .mapFailed ∧
            (exec (pcmSetHwConfig ops config) w).2.trace =
              .mmap .data (mmapLength p).toNat :: .hwParams (hwRequest w.pcm (derefConfig config w.pcm)) 0 :: w.trace ∨
          (p.isMmap → (ops.mmap .data (mmapLength p).toNat d).1 ≠ .mapFailed) ∧
            (exec (pcmSetHwConfig ops config) w).2.trace =
              .swParams (swRequest p (derefConfig config p))
                (ops.swParams (swRequest p (derefConfig config p)) (devMapped ops p (mmapLength p).toNat d)).1.ret ::
                (callsMapped p (mmapLength p).toNat ++
                  .hwParams (hwRequest w.pcm (derefConfig config w.pcm)) 0 :: w.trace)) := by
  simp only [pcmSetHwConfig, exec_bind, exec_get, exec_ioctlHwParams, exec_ite, exec_oops, exec_pure,
    exec_modifyPcm, hr]
  by_cases h0 : r.ret = 0
  · refine .inr ⟨h0, ?_⟩
    subst hp
    simp only [h0, ne_eq, not_true_eq_false, if_false]
    exact pcmSetBuffer_cases ops config (((w.answered r.errno d).push
      (.hwParams (hwRequest w.pcm (derefConfig config w.pcm)) 0)).setPcm (storeRefined config params w.pcm))
  · exact .inl ⟨h0, by simp [h0]⟩

end

/-! ## Requested and refined geometry -/

/-- The configuration `pcm_set_config` works from. -/
def requested (config : Option PcmConfig) (pcm : Pcm) : PcmConfig := config.getD (defaultConfig pcm.config)

/-- The software parameters of a ring of `count` periods of `size` frames. -/
def swRefined (pcm : Pcm) (size count : UInt32) : Option PcmConfig → SndPcmSwParams
  | none =>
    { swRequest pcm { defaultConfig pcm.config with periodSize := size, periodCount := count } with
      startThreshold := (count * size).toUInt64
      stopThreshold := (count * size).toUInt64 }
  | some c => swRequest pcm { c with periodSize := size, periodCount := count }

/-- The handle, the mapping and the software parameters all follow the refined geometry. -/
structure GeometryRefined {σ : Type} (config : Option PcmConfig) (size count : UInt32) (w w' : World σ) : Prop where
  periodSize : w'.pcm.config.periodSize = size
  periodCount : w'.pcm.config.periodCount = count
  bufferSize : w'.pcm.bufferSize.toNat = size.toNat * count.toNat
  calls : w'.trace = .swParams (swRefined w.pcm size count config) 0 ::
    (callsMapped w.pcm (size.toNat * count.toNat * (requested config w.pcm).frameBytes) ++
      .hwParams (hwRequest w.pcm (requested config w.pcm)) 0 :: w.trace)

/-- The refined ring can be told from the request: it is the one asked for, as far as the derived
parameters go, and its sizes fit an `unsigned int`. -/
structure GeometryAsked (config : Option PcmConfig) (size count : UInt32) (pcm : Pcm) : Prop where
  fits : size.toNat * count.toNat < 2 ^ 32
  mapFits : pcm.isMmap → size.toNat * count.toNat * (requested config pcm).frameBytes < 2 ^ 32
  periodSize : ∀ c, config = some c → size = c.periodSize
  ring : count * size = (requested config pcm).periodCount * (requested config pcm).periodSize

/-- The backend takes a geometry: neither the mapping nor `SW_PARAMS` fails. -/
structure Takes {σ : Type} (ops : PcmOps σ) (config : Option PcmConfig) (size count : UInt32) (pcm : Pcm) (d : σ) :
    Prop where
  mmap : pcm.isMmap →
    (ops.mmap .data (size.toNat * count.toNat * (requested config pcm).frameBytes) d).1 ≠ .mapFailed
  swParams : (ops.swParams (swRefined pcm size count config)
    (devMapped ops pcm (size.toNat * count.toNat * (requested config pcm).frameBytes) d)).1.ret = 0

theorem toNat_pcmFramesToBytes (pcm : Pcm) (frames : UInt32) :
    (pcmFramesToBytes pcm frames).toNat = frames.toNat * pcm.config.frameBytes % 2 ^ 32 := by
  have hb : (pcmFormatToBits pcm.config.format >>> 3).toNat = (pcmFormatToBits pcm.config.format).toNat / 8 := by
    cases pcm.config.format <;> decide
  unfold pcmFramesToBytes PcmConfig.frameBytes
  rw [UInt32.toNat_mul, UInt32.toNat_mul, hb, Nat.mod_mul_mod, Nat.mul_assoc]

section

variable {config : Option PcmConfig} {params : SndPcmHwParams} {n : UInt32} {pcm : Pcm}

/-- The handle `HW_PARAMS` is answered for. -/
def configured (config : Option PcmConfig) (noirqFramesPerMsec : UInt32) (pcm : Pcm) : Pcm :=
  { pcm with config := requested config pcm, noirqFramesPerMsec }

/-- The ring's size and the software parameters are the refined ones just when the request and the
reply agree. -/
theorem storeRefined_refined_iff {size count : UInt32} (hs : paramGetInt params .periodSize = size)
    (hc : paramGetInt params .periods = count) {p : Pcm}
    (hp : storeRefined config params (configured config n pcm) = p) :
    (p.bufferSize.toNat = size.toNat * count.toNat ∧
        swRequest p (derefConfig config p) = swRefined pcm size count config) ↔
      size.toNat * count.toNat < 2 ^ 32 ∧ (∀ c, config = some c → size = c.periodSize) ∧
        count * size = (requested config pcm).periodCount * (requested config pcm).periodSize := by
  subst hs hc hp
  generalize hsz : paramGetInt params .periodSize = size
  generalize hct : paramGetInt params .periods = count
  have hmul : (count * size).toNat = size.toNat * count.toNat % 2 ^ 32 := by
    rw [UInt32.toNat_mul, Nat.mul_comm]
  have hlt := (count * size).toNat_lt
  cases config with
  | none =>
    -- the refined sizes are stored
    have hbs : (storeRefined none params (configured none n pcm)).bufferSize = count * size := by
      rw [← hsz, ← hct]; rfl
    rw [hbs, hmul, Nat.mod_eq_iff_lt (by decide)]
    refine and_congr_right fun _ => ⟨fun h => ⟨nofun, ?_⟩, fun h => ?_⟩
    · have := congrArg SndPcmSwParams.startThreshold h
      exact (UInt32.toUInt64_inj.1 this).symm
    · subst hsz hct
      have hr : paramGetInt params .periods * paramGetInt params .periodSize = 4 * 1024 := h.2
      rw [swRefined, hr]; rfl
  | some c =>
    -- the caller's sizes are stored, not the refined ones
    have hbs : (storeRefined (some c) params (configured (some c) n pcm)).bufferSize =
      c.periodCount * c.periodSize := rfl
    rw [hbs]
    constructor
    · rintro ⟨hb, hsw⟩
      have hav := congrArg SndPcmSwParams.availMin hsw
      have hav : c.periodSize = size := UInt32.toUInt64_inj.1 hav
      have hfit : size.toNat * count.toNat < 2 ^ 32 := hb ▸ (c.periodCount * c.periodSize).toNat_lt
      refine ⟨hfit, fun c' hc' => by cases hc'; exact hav.symm, ?_⟩
      rw [← UInt32.toNat_inj, hmul, Nat.mod_eq_of_lt hfit]
      exact hb.symm
    · rintro ⟨hfit, hc, hring⟩
      have hs : size = c.periodSize := hc c rfl
      have hring : count * size = c.periodCount * c.periodSize := hring
      refine ⟨by rw [← hring, hmul, Nat.mod_eq_of_lt hfit], ?_⟩
      unfold swRefined swRequest swStartThreshold swStopThreshold
      simp only [hring]
      subst hs
      rfl

end

section

variable {σ : Type} {ops : PcmOps σ} {config : Option PcmConfig} {w : World σ}

theorem callsMapped_eq_iff {p q : Pcm} (h : p.isMmap = q.isMmap) {l l' : Nat} :
    callsMapped p l = callsMapped q l' ↔ (q.isMmap → l = l') := by
  unfold callsMapped
  rw [h]
  split
  · rename_i hm
    simp [hm]
  · rename_i hm
    simp [hm]

theorem devMapped_congr {p q : Pcm} (h : p.isMmap = q.isMmap) {l l' : Nat} (hl : q.isMmap → l = l') (d : σ) :
    devMapped ops p l d = devMapped ops q l' d := by
  unfold devMapped
  rw [h]
  split
  · rename_i hm
    rw [hl hm]
  · rfl

/-- A `pcm_set_config` that returns 0 gets as far as `HW_PARAMS`. -/
theorem pcmSetConfig_reaches (h : (exec (pcmSetConfig ops config) w).1 = 0) :
    ∃ n, exec (pcmSetConfig ops config) w =
      exec (pcmSetHwConfig ops config) (w.setPcm (configured config n w.pcm)) := by
  simp only [pcmSetConfig, exec_bind, exec_get, exec_modifyPcm, exec_ite, exec_oops, exec_pure] at h ⊢
  split at h
  · rename_i hn
    split at h
    · exact absurd (show -eInval = 0 from h) (by decide)
    · rename_i hm
      exact ⟨_, by rw [if_pos hn, if_neg hm]; rfl⟩
  · rename_i hn
    exact ⟨w.pcm.noirqFramesPerMsec, by rw [if_neg hn]; rfl⟩

end

/-! ## A backend that refines -/

/-- A backend whose every call succeeds: it refines `HW_PARAMS` by `refine` and answers `SW_PARAMS`
with a boundary. -/
def refiningOps (refine : SndPcmHwParams → SndPcmHwParams) : PcmOps Unit where
  hwParams := fun p d => (⟨0, none⟩, refine p, d)
  swParams := fun p d => (⟨0, none⟩, { p with boundary := 0x1000000000000 }, d)
  syncPtr := fun s d => (⟨0, none⟩, s, d)
  cmd := fun _ d => (⟨0, none⟩, d)
  xfer := fun _ n b d => (⟨0, none⟩, n.toNat, b, d)
  link := fun _ d => (⟨0, none⟩, d)
  delay := fun _ d => (⟨0, none⟩, 0, d)
  info := fun d => (⟨0, none⟩, 0, d)
  ttstamp := fun t d => (⟨0, none⟩, t, d)
  poll := fun _ d => (⟨1, none⟩, {}, d)
  mmap := fun _ _ d => (.addr 4096, none, d)
  munmap := fun _ _ d => (⟨0, none⟩, d)
  run := id
  status := fun _ => {}
  control := fun _ => {}
  setControl := fun _ d => d
  buffer := fun _ _ => 0
  setBuffer := fun _ d => d

/-- A playback handle just opened. -/
def openedPcm (config : PcmConfig) : Pcm := { fd := 3, flags := 0, bufferSize := 0, boundary := 0, config }

/-- Two channels of 16 bits in four periods of 1024 frames. -/
def stereoConfig : PcmConfig where
  channels := 2
  rate := 48000
  periodSize := 1024
  periodCount := 4
  format := .s16Le
  startThreshold := 0
  stopThreshold := 0
  silenceThreshold := 0
  silenceSize := 0
  availMin := 0

/-- The world of a handle on a backend without state. -/
def idleWorld (pcm : Pcm) : World Unit := { pcm, dev := (), user := ⟨0, fun _ => 0⟩ }

end Tinyalsa
