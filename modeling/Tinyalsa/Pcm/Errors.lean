/-
Failures of the backend. The hardware backend answers `-1` with an `errno`, a plugin a negative number
that leaves `errno` alone; the library tests the answer in three ways and in two places rebuilds the
error from `errno`. Which failures it reports is what the properties here are about.
-/
import Tinyalsa.Pcm.Frame
import Tinyalsa.Plugin.Backend

namespace Tinyalsa

open Hoare

/-! ## Linked streams and delay -/

section

variable {σ : Type} (ops : PcmOps σ)

/-- `pcm1->ops->ioctl(pcm1->data, SNDRV_PCM_IOCTL_LINK, pcm2->fd)`. -/
def ioctlLink (fd : Int) : PcmM σ Int := do
  let w ← get
  let (r, dev) := ops.link fd w.dev
  set (w.answered r.errno dev)
  record (.link fd r.ret)
  return r.ret

/-- `pcm->ops->ioctl(pcm->data, SNDRV_PCM_IOCTL_DELAY, &pcm->pcm_delay)`. -/
def ioctlDelay : PcmM σ Int := do
  let w ← get
  let (r, pcmDelay, dev) := ops.delay w.pcm.pcmDelay w.dev
  set (w.answered r.errno dev)
  modifyPcm fun p => { p with pcmDelay }
  record (.delay r.ret)
  return r.ret

/-- `pcm_link` to a stream with this `fd`. -/
def pcmLink (fd : Int) : PcmM σ Int := do
  if (← ioctlLink ops fd) = -1 then oops (← get).errno "cannot link PCM" else return 0

/-- `pcm_unlink`. -/
def pcmUnlink : PcmM σ Int := do
  if (← ioctl ops .unlink) = -1 then oops (← get).errno "cannot unlink PCM" else return 0

/-- `pcm_get_delay`. -/
def pcmGetDelay : PcmM σ Int := do
  if (← ioctlDelay ops) < 0 then return -1 else return (← get).pcm.pcmDelay

@[simp] theorem exec_ioctlLink (fd : Int) (w : World σ) :
    exec (ioctlLink ops fd) w = ((ops.link fd w.dev).1.ret,
      (w.answered (ops.link fd w.dev).1.errno (ops.link fd w.dev).2).push (.link fd (ops.link fd w.dev).1.ret)) := (rfl)

@[simp] theorem exec_ioctlDelay (w : World σ) :
    exec (ioctlDelay ops) w = ((ops.delay w.pcm.pcmDelay w.dev).1.ret,
      ((w.answered (ops.delay w.pcm.pcmDelay w.dev).1.errno (ops.delay w.pcm.pcmDelay w.dev).2.2).setPcm
        { w.pcm with pcmDelay := (ops.delay w.pcm.pcmDelay w.dev).2.1 }).push
        (.delay (ops.delay w.pcm.pcmDelay w.dev).1.ret)) := (rfl)

/-! ## Operations and backends -/

/-- The operations that are each carried out by an ioctl. -/
inductive PcmOperation
  | setConfig (config : Option PcmConfig)
  | prepare
  | start
  | drain
  | stop
  | link (fd : Int)
  | unlink
  | getDelay
  | state
  | mmapCommit (frames : UInt32)

/-- The operation. -/
def PcmOperation.call : PcmOperation → PcmM σ Int
  | .setConfig config => pcmSetConfig ops config
  | .prepare => pcmPrepare ops
  | .start => pcmStart ops
  | .drain => pcmDrain ops
  | .stop => pcmStop ops
  | .link fd => pcmLink ops fd
  | .unlink => pcmUnlink ops
  | .getDelay => pcmGetDelay ops
  | .state => pcmState ops
  | .mmapCommit frames => pcmMmapCommit ops frames

end

/-- The ioctl that carries the operation out failed. -/
def PcmOperation.failed : PcmOperation → PcmCall → Bool
  | .setConfig _, .hwParams _ ret | .setConfig _, .swParams _ ret => ret < 0
  | .prepare, .cmd .prepare ret => ret < 0
  | .start, .cmd .start ret => ret < 0
  | .drain, .cmd .drain ret => ret < 0
  | .stop, .cmd .drop ret => ret < 0
  | .link _, .link _ ret => ret < 0
  | .unlink, .cmd .unlink ret => ret < 0
  | .getDelay, .delay ret => ret < 0
  | .state, .syncPtr _ ret _ _ | .mmapCommit _, .syncPtr _ ret _ _ => ret < 0
  | _, _ => false

/-- How a backend answers an ioctl. -/
def Backend.Answers (r : Reply) : Backend → Prop
  | .hw => r.ret < 0 → r.ret = -1 ∧ ∃ e, r.errno = some e ∧ 0 < e
  | .plug => r.ret < 0 → r.errno = none

section

variable {σ : Type}

/-- The ioctls of the operations are answered in the way of this backend. -/
structure Backend.Behind (k : Backend) (ops : PcmOps σ) : Prop where
  hwParams : ∀ p d, k.Answers (ops.hwParams p d).1
  swParams : ∀ p d, k.Answers (ops.swParams p d).1
  syncPtr : ∀ s d, k.Answers (ops.syncPtr s d).1
  cmd : ∀ c d, k.Answers (ops.cmd c d).1
  link : ∀ fd d, k.Answers (ops.link fd d).1
  delay : ∀ t d, k.Answers (ops.delay t d).1

variable (ops : PcmOps σ) (w : World σ)

/-- A failure of the operation's ioctl makes the result negative. -/
def FailureReported (op : PcmOperation) : Prop :=
  ∀ calls, (exec (op.call ops) w).2.trace = calls ++ w.trace → (∃ c ∈ calls, op.failed c) → (exec (op.call ops) w).1 < 0

/-- The handle `pcm_set_config` goes to the backend with. -/
def configStored (config : Option PcmConfig) (p : Pcm) : Pcm :=
  let p := { p with config := config.getD (defaultConfig p.config) }
  if p.isNoirq then { p with noirqFramesPerMsec := (derefConfig config p).rate / 1000 } else p

/-- The answer to the `HW_PARAMS` of `pcm_set_config`. -/
def hwAnswer (config : Option PcmConfig) : Reply × SndPcmHwParams × σ :=
  let p := configStored config w.pcm
  ops.hwParams (hwRequest p (derefConfig config p)) w.dev

/-- The answer to its `mmap`, on a device that took the hardware parameters. -/
def mmapAnswer (config : Option PcmConfig) : MapAddr × Option Int × σ :=
  let (_, params, dev) := hwAnswer ops w config
  ops.mmap .data (mmapLength (storeRefined config params (configStored config w.pcm))).toNat dev

/-- The answer to its `SW_PARAMS`, on a device that took the hardware parameters and mapped the buffer. -/
def swAnswer (config : Option PcmConfig) : Reply × SndPcmSwParams × σ :=
  let (_, params, dev) := hwAnswer ops w config
  let p := storeRefined config params (configStored config w.pcm)
  ops.swParams (swRequest p (derefConfig config p)) (if p.isMmap then (mmapAnswer ops w config).2.2 else dev)

/-- `errno` once the hardware parameters are taken and the buffer mapped. -/
def errnoConfigured (config : Option PcmConfig) : Int :=
  let errno := (hwAnswer ops w config).1.errno.getD w.errno
  if w.pcm.isMmap then (mmapAnswer ops w config).2.1.getD errno else errno

/-- The answers `pcm_set_config` can tell from a success: an error it rebuilds from `errno` finds one there. -/
structure ConfigErrno (config : Option PcmConfig) : Prop where
  hwParams : (hwAnswer ops w config).1.ret < 0 → 0 < w.errno
  swParams : (hwAnswer ops w config).1.ret = 0 → (w.pcm.isMmap → (mmapAnswer ops w config).1 ≠ .mapFailed) →
    (swAnswer ops w config).1.ret < 0 → 0 < errnoConfigured ops w config

/-- The failures of a plugin that the operation can tell from a success. -/
def PlugFailureSeen : PcmOperation → Prop
  | .setConfig config => w.pcm.isNoirq ∧ ¬ w.pcm.isMmap ∨ ConfigErrno ops w config
  | .link fd => ¬ (ops.link fd w.dev).1.ret < -1
  | .unlink => ¬ (ops.cmd .unlink w.dev).1.ret < -1
  | _ => True

end

/-! ## What is reported -/

section

variable {σ : Type} {ops : PcmOps σ} {w : World σ}

/-- A result that is negative, or that no failure went before, reports. -/
theorem FailureReported.of_noneSince {op : PcmOperation}
    (h : 0 ≤ (exec (op.call ops) w).1 → NoneSince op.failed w.trace (exec (op.call ops) w).2) :
    FailureReported ops w op := by
  rintro calls ht ⟨c, hc, hf⟩
  by_contra hneg
  obtain ⟨calls', ht', hall⟩ := h (not_lt.1 hneg)
  obtain rfl := List.append_cancel_right (ht.symm.trans ht')
  simp [hall c hc] at hf

/-- Synchronising the pointers fails no operation that `SYNC_PTR` does not carry out. -/
theorem noneSince_sync (ops : PcmOps σ) (op : PcmOperation)
    (h : ∀ flags ret b a, op.failed (.syncPtr flags ret b a) = false)
    (h' : ∀ ret, op.failed (.cmd .hwsync ret) = false) (t : List PcmCall) : SyncInvariant ops
      (NoneSince op.failed t) where
  error _ _ hw := hw
  run _ hw := hw
  hwsync _ hw := hw.cons rfl (h' _)
  sync _ _ _ _ hw := hw.cons rfl (h _ _ _ _)

variable {f : PcmCall → Bool} {t : List PcmCall}

/-- The function returns a negative result after a failure in the sense of `f`. -/
def Reports (f : PcmCall → Bool) (t : List PcmCall) (m : PcmM σ Int) : Prop :=
  Triple (NoneSince f t) m fun r w' => 0 ≤ r → NoneSince f t w'

theorem Reports.reported {op : PcmOperation} (h : Reports op.failed w.trace (op.call ops)) : FailureReported ops w op :=
  .of_noneSince (h w (NoneSince.refl _ w))

theorem Reports.pure (a : Int) : Reports f t (Pure.pure a : PcmM σ Int) := fun _ hb _ => hb

theorem Reports.keeps {m : PcmM σ Int} (h : KeepsPcm (NoneSince f t) m) : Reports f t m := fun b hb _ => h b hb

/-- What fails is reported whatever went before. -/
theorem oops_reports {P : World σ → Prop} (e : Int) (text : String) :
    Triple P (oops (σ := σ) e text) fun r w' => 0 ≤ r → NoneSince f t w' :=
  fun _ _ h => absurd h (show ¬ (0 : Int) ≤ -1 by decide)

theorem ioctl_noneSince (c : PcmCmd) :
    Triple (NoneSince f t) (ioctl ops c) fun ret w' => f (.cmd c ret) = false → NoneSince f t w' :=
  fun _ hb hf => hb.cons rfl hf

/-- The ioctl of an operation, whose failure ends the operation. -/
theorem ioctl_reports (c : PcmCmd) (hf : ∀ ret, f (.cmd c ret) = decide (ret < 0)) (text : String) {m : PcmM σ Int}
    (hm : Reports f t m) :
    Reports f t (do if (← ioctl ops c) < 0 then oops (← get).errno text else m : PcmM σ Int) := by
  refine Triple.bind (ioctl_noneSince c) fun ret => Triple.ite (fun _ => ?_) fun hret => ?_
  · exact Triple.get_bind fun _ => oops_reports _ _
  · exact hm.pre fun b hb => hb (by rw [hf, decide_eq_false hret])

theorem pcmPrepare_reported : FailureReported ops w .prepare := by
  have hkeep := noneSince_sync ops .prepare (fun _ _ _ _ => rfl) (fun _ => rfl) w.trace
  refine Reports.reported (ioctl_reports .prepare (fun _ => rfl) _ ?_)
  exact Triple.bind (hkeep.pcmSyncPtr _) fun _ => Reports.pure _

theorem pcmStart_reported : FailureReported ops w .start := by
  have hkeep := noneSince_sync ops .start (fun _ _ _ _ => rfl) (fun _ => rfl) w.trace
  have hstream : Reports (PcmOperation.failed .start) w.trace (pcmStartStream ops) :=
    Triple.bind hkeep.mmapStatus fun _ =>
      Triple.ite (fun _ => ioctl_reports .start (fun _ => rfl) _ (Reports.pure _)) fun _ => Reports.pure _
  have hprepared : Reports (PcmOperation.failed .start) w.trace (pcmStartPrepared ops) :=
    Triple.bind (hkeep.pcmSyncPtr _) fun _ => Triple.ite (fun _ => Reports.pure _) fun _ => hstream
  have hprepare : KeepsPcm (NoneSince (PcmOperation.failed .start) w.trace) (pcmPrepare ops) := by
    have hioctl : KeepsPcm (NoneSince (PcmOperation.failed .start) w.trace) (ioctl ops .prepare) :=
      fun b hb => hb.cons rfl rfl
    exact Triple.bind hioctl fun _ => Triple.ite (fun _ => Triple.bind KeepsPcm.get fun _ => hkeep.oops _ _) fun _ =>
      Triple.bind (hkeep.pcmSyncPtr _) fun _ => KeepsPcm.pure _
  refine Reports.reported (Triple.bind hkeep.pcmState fun _ => Triple.ite (fun _ => ?_) fun _ => hprepared)
  exact Triple.bind hprepare fun _ => Triple.ite (fun _ => Reports.pure _) fun _ => hprepared

theorem pcmDrain_reported : FailureReported ops w .drain := by
  refine Reports.reported (Triple.bind KeepsPcm.get fun _ => Triple.ite (fun _ => Reports.pure _) fun _ => ?_)
  exact ioctl_reports .drain (fun _ => rfl) _ (Reports.pure _)

theorem pcmStop_reported : FailureReported ops w .stop :=
  Reports.reported (ioctl_reports .drop (fun _ => rfl) _ (Reports.pure _))

theorem pcmGetDelay_reported : FailureReported ops w .getDelay := by
  have hioctl : Triple (NoneSince (PcmOperation.failed .getDelay) w.trace) (ioctlDelay ops)
      fun ret w' => ¬ ret < 0 → NoneSince (PcmOperation.failed .getDelay) w.trace w' :=
    fun b hb hret => hb.cons rfl (decide_eq_false hret)
  refine Reports.reported (Triple.bind hioctl fun ret => Triple.ite (fun _ => ?_) fun hret => ?_)
  · exact Triple.pure _ fun _ _ h => absurd h (by decide)
  · exact Triple.get_bind fun _ => Triple.pure _ fun _ hb _ => hb.1 hret

/-- Where `SYNC_PTR` carries the operation out, its failure makes `pcm_sync_ptr` fail. -/
theorem pcmSyncPtr_reported (hf : ∀ flags ret b a, f (.syncPtr flags ret b a) = decide (ret < 0)) {flags : SyncFlags}
    (hflags : flags.hwsync = false) :
    Triple (NoneSince f t) (pcmSyncPtr ops flags) fun r w' => (r = 0 ∨ r = -1) ∧ (r = 0 → NoneSince f t w') := by
  intro b hb
  cases hs : b.pcm.syncPtr with
  | none =>
    simp only [pcmSyncPtr, exec_bind, exec_get, hs, hflags]
    exact ⟨.inl rfl, fun _ => hb⟩
  | some s =>
    simp only [pcmSyncPtr, exec_bind, exec_get, hs, exec_ioctlSyncPtr, exec_ite, exec_oops, exec_pure]
    split <;> rename_i hret
    · exact ⟨.inr rfl, fun h => absurd h (show ¬ (-1 : Int) = 0 by decide)⟩
    · exact ⟨.inl rfl, fun _ => hb.cons rfl (by rw [hf, decide_eq_false hret])⟩

theorem pcmState_reported : FailureReported ops w .state := by
  refine Reports.reported (Triple.bind (pcmSyncPtr_reported (fun _ _ _ _ => rfl) rfl) fun err => ?_)
  refine Triple.ite (fun hneg => Triple.pure _ fun _ _ h => absurd hneg (not_lt.2 h)) fun hpos => ?_
  refine Triple.bind (Q := fun _ => NoneSince (PcmOperation.failed .state) w.trace) ?_ fun _ => Reports.pure _
  rintro b ⟨herr, hb⟩
  have hb := hb (by omega)
  cases hs : b.pcm.syncPtr <;> simp only [mmapStatus, exec_bind, exec_get, hs, exec_modify, exec_pure] <;> exact hb

theorem pcmMmapCommit_reported {frames : UInt32} : FailureReported ops w (.mmapCommit frames) := by
  refine Reports.reported
    (Triple.bind (Q := fun _ => NoneSince (PcmOperation.failed (.mmapCommit frames)) w.trace) ?_ fun _ => ?_)
  · exact fun b hb => hb.cons (pcmMmapApplForward_trace ops _ b) rfl
  refine Triple.bind (pcmSyncPtr_reported (fun _ _ _ _ => rfl) rfl) fun ret => ?_
  rintro b ⟨hret, hb⟩
  simp only [exec_bind, exec_record, exec_pure]
  intro h
  rcases hret with rfl | rfl
  · exact (hb rfl).cons rfl rfl
  · exact absurd h (show ¬ (0 : Int) ≤ -1 by decide)

/-- Where the calls an operation made are known, so is what it must report. -/
theorem failureReported_iff (op : PcmOperation) {calls : List PcmCall}
    (ht : (exec (op.call ops) w).2.trace = calls ++ w.trace) :
    FailureReported ops w op ↔ ((∃ c ∈ calls, op.failed c) → (exec (op.call ops) w).1 < 0) := by
  refine ⟨fun h => h calls ht, fun h calls' ht' => ?_⟩
  obtain rfl := List.append_cancel_right (ht.symm.trans ht')
  exact h

theorem pcmLink_reported_iff {fd : Int} : FailureReported ops w (.link fd) ↔ ¬ (ops.link fd w.dev).1.ret < -1 := by
  have ht : (exec (pcmLink ops fd) w).2.trace = [.link fd (ops.link fd w.dev).1.ret] ++ w.trace := by
    simp only [pcmLink, exec_bind, exec_ioctlLink, exec_ite]
    split <;> rfl
  have hret : (exec (pcmLink ops fd) w).1 = if (ops.link fd w.dev).1.ret = -1 then -1 else 0 := by
    simp only [pcmLink, exec_bind, exec_ioctlLink, exec_ite]
    split <;> rfl
  rw [failureReported_iff (.link fd) ht]
  simp only [PcmOperation.call, hret, List.mem_singleton, exists_eq_left, PcmOperation.failed, decide_eq_true_eq]
  split <;> omega

theorem pcmUnlink_reported_iff : FailureReported ops w .unlink ↔ ¬ (ops.cmd .unlink w.dev).1.ret < -1 := by
  have ht : (exec (pcmUnlink ops) w).2.trace = [.cmd .unlink (ops.cmd .unlink w.dev).1.ret] ++ w.trace := by
    simp only [pcmUnlink, exec_bind, exec_ioctl, exec_ite]
    split <;> rfl
  have hret : (exec (pcmUnlink ops) w).1 = if (ops.cmd .unlink w.dev).1.ret = -1 then -1 else 0 := by
    simp only [pcmUnlink, exec_bind, exec_ioctl, exec_ite]
    split <;> rfl
  rw [failureReported_iff .unlink ht]
  simp only [PcmOperation.call, hret, List.mem_singleton, exists_eq_left, PcmOperation.failed, decide_eq_true_eq]
  split <;> omega

/-! ## Errors rebuilt from `errno` -/

theorem configStored_flags (config : Option PcmConfig) (p : Pcm) : (configStored config p).flags = p.flags := by
  unfold configStored
  dsimp only
  split <;> rfl

theorem configStored_isMmap (config : Option PcmConfig) (p : Pcm) : (configStored config p).isMmap = p.isMmap := by
  rw [Pcm.isMmap, Pcm.isMmap, configStored_flags]

/-- A stream without interrupts must be mapped; else the backend is asked. -/
theorem pcmSetConfig_eq (ops : PcmOps σ) (w : World σ) (config : Option PcmConfig) :
    (w.pcm.isNoirq ∧ ¬ w.pcm.isMmap) ∧ (exec (pcmSetConfig ops config) w).2.trace = w.trace ∧
        (exec (pcmSetConfig ops config) w).1 = -eInval ∨
      ¬ (w.pcm.isNoirq ∧ ¬ w.pcm.isMmap) ∧
        exec (pcmSetConfig ops config) w = exec (pcmSetHwConfig ops config) (w.setPcm (configStored config w.pcm)) := by
  have hflags : ∀ c : PcmConfig, ({ w.pcm with config := c }).isNoirq = w.pcm.isNoirq ∧
      ({ w.pcm with config := c }).isMmap = w.pcm.isMmap := fun _ => ⟨rfl, rfl⟩
  simp only [pcmSetConfig, exec_bind, exec_get, exec_modifyPcm, exec_ite, exec_oops, exec_pure, configStored,
    World.setPcm_pcm, (hflags _).1, (hflags _).2]
  by_cases hn : w.pcm.isNoirq = true
  · by_cases hm : w.pcm.isMmap = true
    · refine .inr ⟨fun h => h.2 hm, ?_⟩
      simp only [hn, hm, if_true, Bool.not_true, Bool.false_eq_true, if_false]
      rfl
    · refine .inl ⟨⟨hn, hm⟩, ?_⟩
      simp only [hn, hm, if_true, Bool.not_false]
      exact ⟨rfl, trivial⟩
  · refine .inr ⟨fun h => hn h.1, ?_⟩
    simp only [hn, Bool.false_eq_true, if_false]

/-- How `pcm_set_config` ends: what it called, and what it returns. -/
inductive ConfigOutcome (ops : PcmOps σ) (w : World σ) (config : Option PcmConfig) (out : Int × World σ) : Prop
  | noirq (h : w.pcm.isNoirq ∧ ¬ w.pcm.isMmap) (ht : out.2.trace = w.trace)
  | hwParams (h : ¬ (w.pcm.isNoirq ∧ ¬ w.pcm.isMmap)) (hret : (hwAnswer ops w config).1.ret ≠ 0) (p : SndPcmHwParams)
      (ht : out.2.trace = [.hwParams p (hwAnswer ops w config).1.ret] ++ w.trace)
      (hout : out.1 = -((hwAnswer ops w config).1.errno.getD w.errno))
  | mmap (hret : (hwAnswer ops w config).1.ret = 0) (hm : w.pcm.isMmap) (ha : (mmapAnswer ops w config).1 = .mapFailed)
      (p : SndPcmHwParams) (l : Nat) (ht : out.2.trace = [.mmap .data l, .hwParams p 0] ++ w.trace)
  | swParams (h : ¬ (w.pcm.isNoirq ∧ ¬ w.pcm.isMmap)) (hret : (hwAnswer ops w config).1.ret = 0)
      (hm : w.pcm.isMmap → (mmapAnswer ops w config).1 ≠ .mapFailed)
      (p : SndPcmHwParams) (s : SndPcmSwParams) (q : Pcm) (l : Nat)
      (ht : out.2.trace =
        .swParams s (swAnswer ops w config).1.ret :: (callsMapped q l ++ (.hwParams p 0 :: w.trace)))
      (hout : out.1 = if (swAnswer ops w config).1.ret ≠ 0
        then -((swAnswer ops w config).1.errno.getD (errnoConfigured ops w config)) else 0)

theorem pcmSetSwConfig_outcome (config : Option PcmConfig) {r : Reply} {s' : SndPcmSwParams} {d : σ}
    (hr : ops.swParams (swRequest w.pcm (derefConfig config w.pcm)) w.dev = (r, s', d)) :
    (exec (pcmSetSwConfig ops config) w).1 = (if r.ret ≠ 0 then -(r.errno.getD w.errno) else 0) ∧
      (exec (pcmSetSwConfig ops config) w).2.trace =
        .swParams (swRequest w.pcm (derefConfig config w.pcm)) r.ret :: w.trace := by
  simp only [pcmSetSwConfig, exec_bind, exec_get, exec_modifyPcm, exec_ioctlSwParams, exec_ite, exec_oops, exec_pure,
    World.setPcm_dev, hr]
  split <;> exact ⟨rfl, rfl⟩

theorem pcmSetBuffer_outcome (config : Option PcmConfig) {a : MapAddr × Option Int × σ} {d : σ}
    {s : Reply × SndPcmSwParams × σ} (ha : ops.mmap .data (mmapLength w.pcm).toNat w.dev = a)
    (hd : (if w.pcm.isMmap then a.2.2 else w.dev) = d)
    (hs : ops.swParams (swRequest w.pcm (derefConfig config w.pcm)) d = s) :
    w.pcm.isMmap ∧ a.1 = .mapFailed ∧
        (exec (pcmSetBuffer ops config) w).2.trace = .mmap .data (mmapLength w.pcm).toNat :: w.trace ∨
      (w.pcm.isMmap → a.1 ≠ .mapFailed) ∧
        (exec (pcmSetBuffer ops config) w).1 =
          (if s.1.ret ≠ 0 then -(s.1.errno.getD (if w.pcm.isMmap then a.2.1.getD w.errno else w.errno)) else 0) ∧
        (exec (pcmSetBuffer ops config) w).2.trace =
          .swParams (swRequest w.pcm (derefConfig config w.pcm)) s.1.ret ::
            (callsMapped w.pcm (mmapLength w.pcm).toNat ++ w.trace) := by
  subst ha hd hs
  simp only [pcmSetBuffer, exec_bind, exec_get, exec_ite, callsMapped]
  by_cases hm : w.pcm.isMmap = true
  · simp only [hm, if_true, exec_opsMmap, exec_modifyPcm, exec_oops, exec_pure]
    split <;> rename_i hfail
    · exact .inl ⟨trivial, hfail, rfl⟩
    · exact .inr ⟨fun _ => hfail, pcmSetSwConfig_outcome config rfl⟩
  · simp only [hm, Bool.false_eq_true, if_false]
    exact .inr ⟨fun h => absurd h (by decide), pcmSetSwConfig_outcome config rfl⟩

theorem pcmSetHwConfig_taken (ops : PcmOps σ) (w : World σ) (config : Option PcmConfig) {r : Reply}
    {params : SndPcmHwParams} {d : σ}
    (hr : ops.hwParams (hwRequest w.pcm (derefConfig config w.pcm)) w.dev = (r, params, d)) (h0 : r.ret = 0) :
    ∃ w₁ : World σ, exec (pcmSetHwConfig ops config) w = exec (pcmSetBuffer ops config) w₁ ∧
      w₁.pcm = storeRefined config params w.pcm ∧ w₁.dev = d ∧ w₁.errno = r.errno.getD w.errno ∧
      w₁.trace = .hwParams (hwRequest w.pcm (derefConfig config w.pcm)) 0 :: w.trace := by
  simp only [pcmSetHwConfig, exec_bind, exec_get, exec_ioctlHwParams, exec_modifyPcm, hr, h0, ne_eq,
    not_true_eq_false, if_false]
  exact ⟨_, rfl, rfl, rfl, rfl, rfl⟩

theorem pcmSetHwConfig_refused (ops : PcmOps σ) (w : World σ) (config : Option PcmConfig) {r : Reply}
    {params : SndPcmHwParams} {d : σ}
    (hr : ops.hwParams (hwRequest w.pcm (derefConfig config w.pcm)) w.dev = (r, params, d)) (h0 : r.ret ≠ 0) :
    (exec (pcmSetHwConfig ops config) w).1 = -(r.errno.getD w.errno) ∧
      (exec (pcmSetHwConfig ops config) w).2.trace =
        .hwParams (hwRequest w.pcm (derefConfig config w.pcm)) r.ret :: w.trace ∧
      (exec (pcmSetHwConfig ops config) w).2.dev = d := by
  simp only [pcmSetHwConfig, exec_bind, exec_get, exec_ioctlHwParams, exec_oops, exec_pure, hr, if_pos h0]
  exact ⟨rfl, rfl, rfl⟩

theorem pcmSetConfig_outcome (ops : PcmOps σ) (w : World σ) (config : Option PcmConfig) :
    ConfigOutcome ops w config (exec (pcmSetConfig ops config) w) := by
  rcases pcmSetConfig_eq ops w config with ⟨h, ht, -⟩ | ⟨h, heq⟩
  · exact .noirq h ht
  rw [heq]
  by_cases hret : (hwAnswer ops w config).1.ret = 0
  · obtain ⟨w₁, heq₁, hpcm, hdev, herrno, htrace⟩ :=
      pcmSetHwConfig_taken ops (w.setPcm (configStored config w.pcm)) config rfl hret
    rw [World.setPcm_pcm] at hpcm htrace
    have hm₁ : w₁.pcm.isMmap = w.pcm.isMmap := by rw [hpcm]; exact configStored_isMmap config w.pcm
    have ha : ops.mmap .data (mmapLength w₁.pcm).toNat w₁.dev = mmapAnswer ops w config := by rw [hpcm, hdev]; rfl
    have hs : ops.swParams (swRequest w₁.pcm (derefConfig config w₁.pcm))
        (if w₁.pcm.isMmap then (mmapAnswer ops w config).2.2 else w₁.dev) = swAnswer ops w config := by
      rw [hpcm, hdev]; rfl
    rw [heq₁]
    rcases pcmSetBuffer_outcome config ha rfl hs with ⟨hm, hfail, ht⟩ | ⟨hm, hout, ht⟩
    · exact .mmap hret (hm₁ ▸ hm) hfail _ _ (by rw [ht, htrace]; rfl)
    · refine .swParams h hret (hm₁ ▸ hm) _ _ _ _ (ht.trans (by rw [htrace, World.setPcm_trace])) ?_
      rw [hout, hm₁, herrno]
      rfl
  · obtain ⟨hout, ht, -⟩ := pcmSetHwConfig_refused ops (w.setPcm (configStored config w.pcm)) config rfl hret
    exact .hwParams h hret _ ht hout

/-- A failure of `pcm_set_config` is reported where `errno` has an error to rebuild. -/
theorem pcmSetConfig_reported_iff (config : Option PcmConfig) :
    FailureReported ops w (.setConfig config) ↔ w.pcm.isNoirq ∧ ¬ w.pcm.isMmap ∨
      ((hwAnswer ops w config).1.ret < 0 → 0 < (hwAnswer ops w config).1.errno.getD w.errno) ∧
        ((hwAnswer ops w config).1.ret = 0 → (w.pcm.isMmap → (mmapAnswer ops w config).1 ≠ .mapFailed) →
          (swAnswer ops w config).1.ret < 0 →
          0 < (swAnswer ops w config).1.errno.getD (errnoConfigured ops w config)) := by
  have hmapped : ∀ (q : Pcm) (l : Nat), ∀ c ∈ callsMapped q l, (PcmOperation.setConfig config).failed c = false := by
    intro q l c hc
    unfold callsMapped at hc
    split at hc
    · obtain rfl := List.mem_singleton.1 hc
      rfl
    · cases hc
  cases pcmSetConfig_outcome ops w config with
  | noirq h ht =>
    exact iff_of_true ((@failureReported_iff _ _ _ (.setConfig config) [] ht).2 fun h => by simp at h) (.inl h)
  | hwParams h hret p ht hout =>
    rw [failureReported_iff (.setConfig config) ht, PcmOperation.call, hout]
    simp only [h, false_or, List.mem_singleton, exists_eq_left, PcmOperation.failed, decide_eq_true_eq, hret,
      false_imp_iff, and_true]
    exact imp_congr_right fun _ => by omega
  | mmap hret hm ha p l ht =>
    refine iff_of_true ((failureReported_iff (.setConfig config) ht).2 ?_) (.inr ⟨?_, ?_⟩)
    · simp [PcmOperation.failed]
    · omega
    · exact fun _ hne => absurd ha (hne hm)
  | swParams h hret hm p s q l ht hout =>
    -- `-errno` is returned: without an `errno` the failure reads as a success
    have ht' : (exec (PcmOperation.call ops (.setConfig config)) w).2.trace =
        (.swParams s (swAnswer ops w config).1.ret :: (callsMapped q l ++ [.hwParams p 0])) ++ w.trace := by
      rw [List.cons_append, List.append_assoc]
      exact ht
    rw [failureReported_iff _ ht', PcmOperation.call, hout]
    have hfail : (∃ c ∈ PcmCall.swParams s (swAnswer ops w config).1.ret :: (callsMapped q l ++ [.hwParams p 0]),
        (PcmOperation.setConfig config).failed c = true) ↔ (swAnswer ops w config).1.ret < 0 := by
      constructor
      · rintro ⟨c, hc, hf⟩
        rcases List.mem_cons.1 hc with rfl | hc
        · simpa [PcmOperation.failed] using hf
        · rcases List.mem_append.1 hc with hc | hc
          · simp [hmapped q l c hc] at hf
          · obtain rfl := List.mem_singleton.1 hc
            simp [PcmOperation.failed] at hf
      · exact fun hneg => ⟨_, List.mem_cons_self, by simpa [PcmOperation.failed] using hneg⟩
    rw [hfail]
    simp only [h, false_or, hret, lt_irrefl, false_imp_iff, true_and, true_imp_iff]
    constructor
    · intro hneg _ hlt
      have := hneg hlt
      rw [if_pos (by omega)] at this
      omega
    · intro hpos hlt
      have := hpos hm hlt
      rw [if_pos (by omega)]
      omega

/-! ## Failures of either backend -/

/-- An answer of the hardware that failed leaves a positive `errno`. -/
theorem Reply.errno_pos {r : Reply} (h : Backend.hw.Answers r) (hr : r.ret < 0) (e : Int) :
    0 < r.errno.getD e := by
  obtain ⟨-, e', he, hpos⟩ := h hr
  rw [he]
  exact hpos

/-- No operation reports a failed ioctl as a success on the hardware, and on a plugin just where it can tell. -/
theorem pcmOperation_reported_iff {k : Backend} (hk : k.Behind ops) (op : PcmOperation) :
    FailureReported ops w op ↔ k = .hw ∨ PlugFailureSeen ops w op := by
  cases op with
  | setConfig config =>
    rw [pcmSetConfig_reported_iff]
    cases k with
    | hw =>
      have hhw : Backend.hw.Answers (hwAnswer ops w config).1 := hk.hwParams _ _
      have hsw : Backend.hw.Answers (swAnswer ops w config).1 := hk.swParams _ _
      exact iff_of_true (.inr ⟨fun h => Reply.errno_pos hhw h _, fun _ _ h => Reply.errno_pos hsw h _⟩) (.inl rfl)
    | plug =>
      have hhw : (hwAnswer ops w config).1.ret < 0 → (hwAnswer ops w config).1.errno = none := hk.hwParams _ _
      have hsw : (swAnswer ops w config).1.ret < 0 → (swAnswer ops w config).1.errno = none := hk.swParams _ _
      simp only [reduceCtorEq, false_or, PlugFailureSeen]
      refine or_congr_right ⟨fun ⟨h, h'⟩ => ⟨fun hneg => ?_, fun h0 hm hneg => ?_⟩,
        fun ⟨h, h'⟩ => ⟨fun hneg => ?_, fun h0 hm hneg => ?_⟩⟩
      · simpa [hhw hneg] using h hneg
      · simpa [hsw hneg] using h' h0 hm hneg
      · simpa [hhw hneg] using h hneg
      · simpa [hsw hneg] using h' h0 hm hneg
  | link fd =>
    rw [pcmLink_reported_iff]
    cases k with
    | hw =>
      refine iff_of_true (fun h => ?_) (.inl rfl)
      obtain ⟨h', -⟩ := hk.link fd w.dev (by omega)
      omega
    | plug => simp [PlugFailureSeen]
  | unlink =>
    rw [pcmUnlink_reported_iff]
    cases k with
    | hw =>
      refine iff_of_true (fun h => ?_) (.inl rfl)
      obtain ⟨h', -⟩ := hk.cmd .unlink w.dev (by omega)
      omega
    | plug => simp [PlugFailureSeen]
  | prepare => exact iff_of_true pcmPrepare_reported (.inr trivial)
  | start => exact iff_of_true pcmStart_reported (.inr trivial)
  | drain => exact iff_of_true pcmDrain_reported (.inr trivial)
  | stop => exact iff_of_true pcmStop_reported (.inr trivial)
  | getDelay => exact iff_of_true pcmGetDelay_reported (.inr trivial)
  | state => exact iff_of_true pcmState_reported (.inr trivial)
  | mmapCommit frames => exact iff_of_true pcmMmapCommit_reported (.inr trivial)

end

/-- A plugin's backend answers as the plugin does. -/
theorem plugOps_behind {π : Type} (ops : PcmPluginOps π) (mem : PlugMemory π) :
    Backend.plug.Behind (plugOps ops mem) where
  hwParams _ _ := fun _ => rfl
  swParams _ _ := fun _ => rfl
  syncPtr _ _ := fun _ => rfl
  cmd _ _ := fun _ => rfl
  link _ _ := fun _ => rfl
  delay _ _ := fun _ => rfl

/-- A plugin that refuses its hardware parameters. -/
def refusingOps : PcmPluginOps Unit := { acceptingOps with hwParams := fun p u => (-eInval, p, u) }

/-- A handle on the stereo plugin. -/
def stereoWorld (errno : Int) : World (PlugDev Unit) :=
  { pcm := openedPcm stereoConfig, dev := { data := ⟨0, 0, 0, none, ⟨stereoConstraints, (), .opened, []⟩⟩ }, errno
    user := ⟨0, fun _ => 0⟩ }

theorem pcmOperation_reported_seen :
    FailureReported (plugOps refusingOps noMemory) (stereoWorld eIo) (.setConfig (some stereoConfig)) := by
  refine (pcmOperation_reported_iff (plugOps_behind refusingOps noMemory) _).2 (.inr (.inr ⟨?_, ?_⟩))
  · exact fun _ => by decide
  · exact fun h => absurd h (by decide +kernel)

/-- A plugin's `-EINVAL` for `HW_PARAMS` comes back from `pcm_set_config` as 0 when `errno` was 0. -/
theorem pcmOperation_reported_not :
    ¬ FailureReported (plugOps refusingOps noMemory) (stereoWorld 0) (.setConfig (some stereoConfig)) ∧
      (exec (pcmSetConfig (plugOps refusingOps noMemory) (some stereoConfig)) (stereoWorld 0)).1 = 0 := by
  have hret : (exec (pcmSetConfig (plugOps refusingOps noMemory) (some stereoConfig)) (stereoWorld 0)).1 = 0 := by
    decide +kernel
  have hfail : ((exec (pcmSetConfig (plugOps refusingOps noMemory) (some stereoConfig)) (stereoWorld 0)).2.trace.any
      (PcmOperation.setConfig (some stereoConfig)).failed) = true := by decide +kernel
  refine ⟨fun h => ?_, hret⟩
  have hneg := h _ (List.append_nil _).symm (List.any_eq_true.1 hfail)
  rw [PcmOperation.call, hret] at hneg
  exact absurd hneg (by decide)

end Tinyalsa
