/-
Underruns of a stream that is not to be restarted (`PCM_NORESTART`). Until it is prepared again the
device answers every transfer with `EPIPE`: which calls fail while it does, and which of them prepare it.
-/
import Tinyalsa.Pcm.Frame
import Tinyalsa.Pcm.Kernel

namespace Tinyalsa

open Hoare

/-! ## Devices and calls -/

def PcmCall.isPrepare : PcmCall → Bool
  | .cmd .prepare _ => true
  | _ => false

/-- The call moves frames, or sets out to. -/
def PcmCall.transfers : PcmCall → Bool
  | .xfer _ _ _ | .areas | .copy _ _ _ => true
  | _ => false

/-- `pcm_writei` and `pcm_readi`. -/
inductive RwApi
  | writei | readi
  deriving DecidableEq, Repr

/-- The stream has the direction of the call. -/
def RwApi.fits (pcm : Pcm) : RwApi → Bool
  | .writei => !pcm.isIn
  | .readi => pcm.isIn

section

variable {σ : Type} (ops : PcmOps σ) (xrun : σ → Prop)

/-- From an underrun on, a device answers every transfer with `EPIPE`, and of the calls made here only
`PREPARE` can end that. Which state it reports meanwhile is left open. -/
structure UnderrunDevice : Prop where
  xfer : ∀ b n u d, xrun d → (ops.xfer b n u d).1.ret ≠ 0 ∧ (ops.xfer b n u d).1.errno = some ePipe
  hwsync : ∀ d, xrun d → (ops.cmd .hwsync d).1.ret = -1 ∧ (ops.cmd .hwsync d).1.errno = some ePipe
  syncPtr : ∀ s d, xrun d → s.flags.hwsync → (ops.syncPtr s d).1.ret < 0 ∧ (ops.syncPtr s d).1.errno = some ePipe
  xferStays : ∀ b n u d, xrun d → xrun (ops.xfer b n u d).2.2.2
  hwsyncStays : ∀ d, xrun d → xrun (ops.cmd .hwsync d).2
  syncPtrStays : ∀ s d, xrun d → xrun (ops.syncPtr s d).2.2
  runStays : ∀ d, xrun d → xrun (ops.run d)

/-- The state the device reports when it is asked, if it answers. -/
def stateSeen (w : World σ) : Option PcmState :=
  match w.pcm.syncPtr with
  | none => some (ops.status (ops.run w.dev)).state
  | some s =>
    let (r, s', _) := ops.syncPtr { s with flags := { appl := true, availMin := true } } w.dev
    if r.ret < 0 then none else some s'.status.state

def RwApi.call (fuel : Nat) (frames : UInt32) : RwApi → PcmM σ (Option Int)
  | .writei => pcmWritei ops fuel frames
  | .readi => pcmReadi ops fuel frames

/-- A call of a run. It is struck if a call before it has failed in the underrun the device is in. -/
structure TransferCall (σ : Type) where
  before : World σ
  struck : Prop
  api : RwApi
  fuel : Nat
  frames : UInt32

namespace TransferCall

variable (c : TransferCall σ)

/-- The call, with a pass through its loops at least. -/
def run : Option Int × World σ := exec (c.api.call ops (c.fuel + 1) c.frames) c.before

/-- The call issued `PREPARE` before it transferred anything. -/
def PreparesFirst : Prop :=
  ∃ later ret earlier, (c.run ops).2.trace = later ++ .cmd .prepare ret :: (earlier ++ c.before.trace) ∧
    ∀ e ∈ earlier, PcmCall.transfers e = false

/-- The call failed and issued no `PREPARE`. -/
def FailsUnprepared : Prop :=
  (∃ r, (c.run ops).1 = some r ∧ r < 0) ∧ NoneSince PcmCall.isPrepare c.before.trace (c.run ops).2

/-- The first call after an underrun fails without `PREPARE`. The next one issues it first, so that it does
not fail of the same underrun. -/
def Recovers : Prop :=
  (c.struck → c.PreparesFirst ops ∧ ¬ c.FailsUnprepared ops) ∧
    (¬ c.struck → xrun c.before.dev → c.FailsUnprepared ops)

/-- The device is in an underrun in which a call has failed. -/
def StruckAfter : Prop :=
  xrun (c.run ops).2.dev ∧
    ((c.run ops).1 = some (-1) ∧ (c.run ops).2.errno = ePipe ∨
      c.struck ∧ NoneSince PcmCall.isPrepare c.before.trace (c.run ops).2)

/-- The call passes the checks of its arguments. -/
def Admitted : Prop := c.api.fits c.before.pcm ∧ c.frames.toNat ≤ CInt.intMax

/-- The device reports `SETUP` to a call just when one has failed before. -/
def StateTells : Prop :=
  (c.struck → c.Admitted ∧ stateSeen ops c.before = some .setup) ∧
    (¬ c.struck → xrun c.before.dev → c.Admitted →
      stateSeen ops c.before ≠ some .setup ∧ ¬ (c.before.pcm.isMmap ∧ c.frames = 0))

end TransferCall

/-- Runs of `pcm_writei` and `pcm_readi` on a stream that is not to be restarted, newest call first. The
last argument says whether a call has failed in the underrun the device is in. -/
inductive TransferRun : List (TransferCall σ) → World σ → Prop → Prop
  | start (w : World σ) : TransferRun [] w False
  /-- Anything may happen between the calls, but that an underrun stays one. -/
  | idle {calls : List (TransferCall σ)} {w : World σ} {struck : Prop} (h : TransferRun calls w struck) (w' : World σ)
      (hx : xrun w.dev → xrun w'.dev) : TransferRun calls w' struck
  /-- The stream is prepared otherwise. -/
  | prepared {calls : List (TransferCall σ)} {w : World σ} {struck : Prop} (h : TransferRun calls w struck)
      (w' : World σ) : TransferRun calls w' False
  | call {calls : List (TransferCall σ)} {w : World σ} {struck : Prop} (h : TransferRun calls w struck)
      (hnr : w.pcm.isNorestart) (api : RwApi) (fuel : Nat) (frames : UInt32) {r : Int}
      (hr : (TransferCall.run ops ⟨w, struck, api, fuel, frames⟩).1 = some r) :
      TransferRun (⟨w, struck, api, fuel, frames⟩ :: calls) (TransferCall.run ops ⟨w, struck, api, fuel, frames⟩).2
        (TransferCall.StruckAfter ops xrun ⟨w, struck, api, fuel, frames⟩)

/-! ## A call during an underrun -/

/-- The device is in an underrun, and none of the calls since `t` was a `PREPARE`. -/
structure Stalled (flags : UInt32) (t : List PcmCall) (w : World σ) : Prop where
  xrun : xrun w.dev
  flags : w.pcm.flags = flags
  unprepared : NoneSince PcmCall.isPrepare t w

end

section

variable {σ : Type} {ops : PcmOps σ} {xrun : σ → Prop} {flags : UInt32} {t : List PcmCall}

theorem UnderrunDevice.stalled (hd : UnderrunDevice ops xrun) (flags : UInt32) (t : List PcmCall) :
    SyncInvariant ops (Stalled xrun flags t) where
  error _ _ h := ⟨h.xrun, h.flags, h.unprepared⟩
  run _ h := ⟨hd.runStays _ h.xrun, h.flags, h.unprepared⟩
  hwsync _ h := ⟨hd.hwsyncStays _ h.xrun, h.flags, h.unprepared.cons rfl rfl⟩
  sync _ _ _ _ h := ⟨hd.syncPtrStays _ _ h.xrun, h.flags, h.unprepared.cons rfl rfl⟩

/-- A synchronisation with the hardware fails with `EPIPE`. -/
theorem UnderrunDevice.pcmSyncPtr (hd : UnderrunDevice ops xrun) {f : SyncFlags} (hf : f.hwsync) :
    Triple (Stalled xrun flags t) (pcmSyncPtr ops f) fun r w => r = -1 ∧ w.errno = ePipe ∧ Stalled xrun flags t w := by
  intro w hw
  unfold Tinyalsa.pcmSyncPtr
  cases hs : w.pcm.syncPtr with
  | none =>
    obtain ⟨hret, herr⟩ := hd.hwsync w.dev hw.xrun
    simp only [exec_bind, exec_get, hs, hf, if_true, exec_ioctl, hret]
    refine ⟨rfl, ?_, ?_⟩
    · simp [herr]
    · exact (hd.stalled flags t).error _ _ (hret ▸ (hd.stalled flags t).hwsync w hw)
  | some s =>
    obtain ⟨hret, herr⟩ := hd.syncPtr { s with flags := f } w.dev hw.xrun hf
    simp only [exec_bind, exec_get, hs, exec_ioctlSyncPtr, if_pos hret]
    refine ⟨rfl, ?_, ?_⟩
    · simp [herr]
    · exact (hd.stalled flags t).error _ _ ((hd.stalled flags t).sync w s f hs hw)

/-- The try of a transfer fails, but for a mapped one of no frames. -/
theorem UnderrunDevice.pcmTransferOnce (hd : UnderrunDevice ops xrun) (fuel : Nat) {frames : UInt32} {p : Pcm}
    (hp : p.flags = flags) (hne : ¬ (p.isMmap ∧ frames = 0)) :
    Triple (Stalled xrun flags t) (pcmTransferOnce ops fuel frames) fun r w =>
      r = some (-1) ∧ w.errno = ePipe ∧ Stalled xrun flags t w := by
  unfold Tinyalsa.pcmTransferOnce
  refine Triple.get_bind fun w => Triple.ite (fun hm => ?_) fun _ => ?_
  · unfold Tinyalsa.pcmMmapTransfer
    rintro w' ⟨hw, rfl⟩
    have hmap : p.isMmap := by
      unfold Pcm.isMmap at hm ⊢
      rw [hp, ← hw.flags]
      exact hm
    have hsync := hd.pcmSyncPtr (f := { hwsync := true, appl := true, availMin := true }) rfl w' hw
    rw [if_neg fun h0 => hne ⟨hmap, h0⟩, exec_bind, if_pos hsync.1]
    exact ⟨rfl, hsync.2⟩
  · rintro w' ⟨hw, rfl⟩
    obtain ⟨hret, herr⟩ := hd.xfer (!w'.pcm.isIn) frames w'.user w'.dev hw.xrun
    have hstay := hd.xferStays (!w'.pcm.isIn) frames w'.user w'.dev hw.xrun
    simp only [exec_bind, pcmRwTransfer, exec_get, exec_set, exec_record, exec_pure, if_neg hret]
    exact ⟨trivial, by simp [herr], hstay, hw.flags, hw.unprepared.cons rfl rfl⟩

/-- A call that prepares nothing fails. -/
theorem UnderrunDevice.pcmTransferAgain (hd : UnderrunDevice ops xrun) (fuel : Nat) {frames : UInt32} {p : Pcm}
    (hp : p.flags = flags) (hnr : p.isNorestart) (hne : ¬ (p.isMmap ∧ frames = 0)) :
    Triple (Stalled xrun flags t) (pcmTransferAgain ops (fuel + 1) frames) fun r w =>
      r = some (-1) ∧ Stalled xrun flags t w := by
  refine Triple.bind (hd.pcmTransferOnce fuel hp hne) fun r => ?_
  rintro w ⟨rfl, herr, hw⟩
  have hflag : (w.setPcm { w.pcm with xruns := CInt.wrapInt (w.pcm.xruns + 1) }).pcm.isNorestart := by
    unfold Pcm.isNorestart at hnr ⊢
    rw [hp, ← hw.flags] at hnr
    exact hnr
  simp only [exec_bind, exec_get, pcmRestarts, herr, exec_modifyPcm, exec_ite, exec_pure, show (-1 : Int) < 0 by decide,
    if_true, true_or, hflag]
  exact ⟨rfl, hw.xrun, hw.flags, hw.unprepared⟩

/-- `pcm_state` returns the code of `SETUP` where the device reports that state. -/
theorem pcmState_seen (ops : PcmOps σ) (w : World σ) :
    (exec (pcmState ops) w).1 = PcmState.setup.code ↔ stateSeen ops w = some .setup := by
  unfold pcmState pcmSyncPtr stateSeen
  cases hs : w.pcm.syncPtr with
  | none => simp [hs, mmapStatus]
  | some s =>
    simp only [exec_bind, exec_get, hs, exec_ioctlSyncPtr]
    split
    · simp [PcmState.code]
    · simp [mmapStatus]

/-! ## Each call -/

variable {c : TransferCall σ}

/-- An admitted call is `pcm_generic_transfer` past its first check. -/
theorem TransferCall.run_admitted (h : c.Admitted) :
    c.run ops = exec (do
      if (← pcmState ops) = PcmState.setup.code then
        if (← pcmPrepare ops) ≠ 0 then return some (-1) else pcmTransferAgain ops (c.fuel + 1) c.frames
      else pcmTransferAgain ops (c.fuel + 1) c.frames) c.before := by
  obtain ⟨hfits, hmax⟩ := h
  have hcall : exec (c.api.call ops (c.fuel + 1) c.frames) c.before =
      exec (pcmGenericTransfer ops (c.fuel + 1) c.frames) c.before := by
    cases hapi : c.api with
    | writei =>
      rw [hapi, RwApi.fits, Bool.not_eq_true'] at hfits
      simp only [RwApi.call, pcmWritei, exec_bind, exec_get, hfits, Bool.false_eq_true, if_false]
    | readi =>
      rw [hapi, RwApi.fits] at hfits
      simp only [RwApi.call, pcmReadi, exec_bind, exec_get, hfits, if_true]
  rw [TransferCall.run, hcall, pcmGenericTransfer, if_neg (by omega)]

/-- Any other call fails at once. -/
theorem TransferCall.run_refused (h : ¬ c.Admitted) : c.run ops = (some (-eInval), c.before) := by
  unfold TransferCall.run
  cases hapi : c.api with
  | writei =>
    by_cases hin : c.before.pcm.isIn
    · simp only [RwApi.call, pcmWritei, exec_bind, exec_get, hin, if_true, exec_pure]
    · have hmax : c.frames.toNat > CInt.intMax := by
        by_contra hle
        exact h ⟨by simpa [hapi, RwApi.fits] using hin, not_lt.1 hle⟩
      simp only [RwApi.call, pcmWritei, pcmGenericTransfer, exec_bind, exec_get, hin, if_pos hmax]
      rfl
  | readi =>
    by_cases hin : c.before.pcm.isIn
    · have hmax : c.frames.toNat > CInt.intMax := by
        by_contra hle
        exact h ⟨by simpa [hapi, RwApi.fits] using hin, not_lt.1 hle⟩
      simp only [RwApi.call, pcmReadi, pcmGenericTransfer, exec_bind, exec_get, hin, if_true, if_pos hmax, exec_pure]
    · simp only [RwApi.call, pcmReadi, exec_bind, exec_get, hin]
      rfl

/-- A `PREPARE` among the calls of a function is not none of them. -/
theorem TransferCall.PreparesFirst.not_none (h : c.PreparesFirst ops) :
    ¬ NoneSince PcmCall.isPrepare c.before.trace (c.run ops).2 := by
  rintro ⟨calls, ht, hnone⟩
  obtain ⟨later, ret, earlier, ht', -⟩ := h
  have heq : calls = later ++ .cmd .prepare ret :: earlier :=
    List.append_cancel_right (ht.symm.trans (ht'.trans (by rw [List.append_assoc, List.cons_append])))
  have hmem : PcmCall.cmd .prepare ret ∈ calls := by rw [heq]; exact List.mem_append_right _ List.mem_cons_self
  exact absurd (hnone _ hmem) Bool.true_eq_false_eq_False

/-- A call that sees `SETUP` issues `PREPARE` first. -/
theorem TransferCall.preparesFirst_of_setup (ha : c.Admitted) (hseen : stateSeen ops c.before = some .setup) :
    c.PreparesFirst ops := by
  have hsync : SyncInvariant ops (NoneSince PcmCall.transfers c.before.trace) := {
    error := fun _ _ h => h
    run := fun _ h => h
    hwsync := fun _ h => h.cons rfl rfl
    sync := fun _ _ _ _ h => h.cons rfl rfl }
  unfold TransferCall.PreparesFirst
  rw [TransferCall.run_admitted ha, exec_bind, if_pos ((pcmState_seen ops c.before).2 hseen)]
  obtain ⟨earlier, ht, hnone⟩ := hsync.pcmState c.before (NoneSince.refl _ _)
  generalize (exec (pcmState ops) c.before).2 = w at *
  have hkeep : PcmInvariant ops fun w' =>
      ∃ later, w'.trace = later ++ .cmd .prepare (ops.cmd .prepare w.dev).1.ret :: w.trace :=
    PcmInvariant.ofTrace (P := fun l => ∃ later, l = later ++ .cmd .prepare (ops.cmd .prepare w.dev).1.ret :: w.trace)
      fun k _ ⟨later, hl⟩ => ⟨k :: later, by rw [hl]; rfl⟩
  have hioctl : Triple (fun w' => w' = w) (ioctl ops .prepare) fun _ w' =>
      ∃ later, w'.trace = later ++ .cmd .prepare (ops.cmd .prepare w.dev).1.ret :: w.trace := by
    rintro _ rfl
    exact ⟨[], rfl⟩
  have hprepare : Triple (fun w' => w' = w) (pcmPrepare ops) fun _ w' =>
      ∃ later, w'.trace = later ++ .cmd .prepare (ops.cmd .prepare w.dev).1.ret :: w.trace :=
    Triple.bind hioctl fun _ => Triple.ite (fun _ => Triple.bind KeepsPcm.get fun _ => hkeep.oops _ _) fun _ =>
      Triple.bind (hkeep.wait.pcmSyncPtr _) fun _ => KeepsPcm.pure _
  have hrest : Triple (fun w' => w' = w) (do
      if (← pcmPrepare ops) ≠ 0 then return some (-1) else pcmTransferAgain ops (c.fuel + 1) c.frames) fun _ w' =>
      ∃ later, w'.trace = later ++ .cmd .prepare (ops.cmd .prepare w.dev).1.ret :: w.trace :=
    Triple.bind hprepare fun _ => Triple.ite (fun _ => KeepsPcm.pure _) fun _ =>
      hkeep.wait.pcmTransferAgain (hkeep.ioctl _) hkeep.xruns (fun fuel => hkeep.pcmTransferOnce fuel _) _
  obtain ⟨later, hend⟩ := hrest w rfl
  exact ⟨later, _, earlier, by rw [hend, ht], hnone⟩

/-- A call that sees another state fails, and prepares nothing. -/
theorem UnderrunDevice.failsUnprepared (hd : UnderrunDevice ops xrun) (hx : xrun c.before.dev)
    (hnr : c.before.pcm.isNorestart) (hseen : c.Admitted → stateSeen ops c.before ≠ some .setup)
    (hne : c.Admitted → ¬ (c.before.pcm.isMmap ∧ c.frames = 0)) : c.FailsUnprepared ops := by
  unfold TransferCall.FailsUnprepared
  by_cases ha : c.Admitted
  · have hstart : Stalled xrun c.before.pcm.flags c.before.trace c.before := ⟨hx, rfl, NoneSince.refl _ _⟩
    have hstate := (hd.stalled _ _).pcmState c.before hstart
    obtain ⟨hres, hend⟩ := hd.pcmTransferAgain c.fuel rfl hnr (hne ha) _ hstate
    rw [TransferCall.run_admitted ha, exec_bind, if_neg fun h => hseen ha ((pcmState_seen ops c.before).1 h)]
    exact ⟨⟨-1, hres, by decide⟩, hend.unprepared⟩
  · rw [TransferCall.run_refused ha]
    exact ⟨⟨-eInval, rfl, by decide⟩, NoneSince.refl _ _⟩

/-- In the underrun of a mapped stream a transfer of no frames succeeds. -/
theorem TransferCall.run_empty (ha : c.Admitted) (hm : c.before.pcm.isMmap) (h0 : c.frames = 0)
    (hseen : stateSeen ops c.before ≠ some .setup) (hd : UnderrunDevice ops xrun) (hx : xrun c.before.dev) :
    (c.run ops).1 = some 0 ∧ NoneSince PcmCall.isPrepare c.before.trace (c.run ops).2 := by
  have hstart : Stalled xrun c.before.pcm.flags c.before.trace c.before := ⟨hx, rfl, NoneSince.refl _ _⟩
  have hend := (hd.stalled _ _).pcmState c.before hstart
  rw [TransferCall.run_admitted ha, exec_bind, if_neg fun h => hseen ((pcmState_seen ops c.before).1 h)]
  generalize (exec (pcmState ops) c.before).2 = w at *
  have hmap : w.pcm.isMmap := by
    unfold Pcm.isMmap at hm ⊢
    rw [hend.flags]
    exact hm
  simp only [pcmTransferAgain, pcmTransferOnce, pcmMmapTransfer, exec_bind, exec_get, hmap, if_true, h0, exec_pure]
  exact ⟨rfl, hend.unprepared⟩

theorem UnderrunDevice.recovers_iff (hd : UnderrunDevice ops xrun) (hnr : c.before.pcm.isNorestart)
    (hs : c.struck → xrun c.before.dev) : c.Recovers ops xrun ↔ c.StateTells ops xrun := by
  constructor
  · rintro ⟨hnext, hfirst⟩
    refine ⟨fun hc => ?_, fun hc hx ha => ?_⟩
    · by_contra hnot
      have hseen : c.Admitted → stateSeen ops c.before ≠ some .setup := fun ha h => hnot ⟨ha, h⟩
      by_cases hempty : c.Admitted ∧ c.before.pcm.isMmap ∧ c.frames = 0
      · obtain ⟨ha, hm, h0⟩ := hempty
        exact (hnext hc).1.not_none (TransferCall.run_empty ha hm h0 (hseen ha) hd (hs hc)).2
      · exact (hnext hc).1.not_none (hd.failsUnprepared (hs hc) hnr hseen fun ha h => hempty ⟨ha, h⟩).2
    · have hseen : stateSeen ops c.before ≠ some .setup := fun h =>
        (TransferCall.preparesFirst_of_setup ha h).not_none (hfirst hc hx).2
      refine ⟨hseen, fun ⟨hm, h0⟩ => ?_⟩
      obtain ⟨r, hr, hneg⟩ := (hfirst hc hx).1
      rw [(TransferCall.run_empty ha hm h0 hseen hd hx).1] at hr
      obtain rfl := Option.some.inj hr
      exact absurd hneg (lt_irrefl 0)
  · rintro ⟨hnext, hfirst⟩
    refine ⟨fun hc => ?_, fun hc hx => ?_⟩
    · have hfirst := TransferCall.preparesFirst_of_setup (hnext hc).1 (hnext hc).2
      exact ⟨hfirst, fun hfails => hfirst.not_none hfails.2⟩
    · exact hd.failsUnprepared hx hnr (fun ha => (hfirst hc hx ha).1) fun ha => (hfirst hc hx ha).2

/-! ## Runs -/

/-- A call that is struck finds the device in its underrun. -/
theorem TransferRun.struck {calls : List (TransferCall σ)} {w : World σ} {struck : Prop}
    (h : TransferRun ops xrun calls w struck) : struck → xrun w.dev := by
  induction h with
  | start => exact False.elim
  | idle _ _ hx ih => exact fun hs => hx (ih hs)
  | prepared => exact False.elim
  | call => exact fun hs => hs.1

/-- In a run on a stream that is not to be restarted, the first call of every underrun fails without
`PREPARE` and the next one issues it first, just when the device reports `SETUP` to the calls in between
and another state to the first. -/
theorem transferRun_recovers_iff (hd : UnderrunDevice ops xrun) {calls : List (TransferCall σ)} {w : World σ}
    {struck : Prop} (h : TransferRun ops xrun calls w struck) :
    (∀ c ∈ calls, c.Recovers ops xrun) ↔ ∀ c ∈ calls, c.StateTells ops xrun := by
  induction h with
  | start => simp
  | idle _ _ _ ih => exact ih
  | prepared _ _ ih => exact ih
  | call h hnr api fuel frames hr ih =>
    rw [List.forall_mem_cons, List.forall_mem_cons, ih, hd.recovers_iff hnr h.struck]

end

/-! ## A device -/

/-- The stream has underrun, and was perhaps dropped since. -/
def Kernel.Stopped (k : Kernel) : Prop := k.status.state = .xrun ∨ k.status.state = .setup

instance (k : Kernel) : Decidable k.Stopped :=
  inferInstanceAs (Decidable (k.status.state = .xrun ∨ k.status.state = .setup))

/-- A kernel that answers `EPIPE` while its stream is stopped. -/
def stoppingOps : PcmOps Kernel := { Kernel.willing with
  syncPtr := fun s k => if s.flags.hwsync ∧ k.Stopped then (⟨-1, some ePipe⟩, s, k) else Kernel.willing.syncPtr s k
  cmd := fun c k => if c = .hwsync ∧ k.Stopped then (⟨-1, some ePipe⟩, k) else Kernel.cmd c k
  xfer := fun b n u k => if k.Stopped then (⟨-1, some ePipe⟩, 0, u, k) else Kernel.ops.xfer b n u k }

theorem stoppingOps_underrun : UnderrunDevice stoppingOps Kernel.Stopped where
  xfer b n u k hk := by simp [stoppingOps, hk]
  hwsync k hk := by simp [stoppingOps, hk]
  syncPtr s k hk hf := by simp [stoppingOps, hk, hf]
  xferStays b n u k hk := by simp [stoppingOps, hk]
  hwsyncStays k hk := by simp [stoppingOps, hk]
  syncPtrStays s k hk := by
    simp only [stoppingOps]
    split
    · exact hk
    · exact hk
  runStays _ hk := hk

/-- A playback stream in an underrun, not to be restarted. -/
def underrunWorld (state : PcmState) : World Kernel where
  pcm := { openedPcm stereoConfig with flags := pcmNorestart, syncPtr := some {} }
  dev := { status := { state } }
  user := ⟨0, fun _ => 0⟩

/-- The first write after the underrun. -/
def firstWrite : TransferCall Kernel := ⟨underrunWorld .xrun, False, .writei, 0, 4⟩

/-- The next one, in a state that the device reports by then. -/
def nextWrite (state : PcmState) : TransferCall Kernel :=
  ⟨(firstWrite.run stoppingOps).2.setDev (underrunWorld state).dev, firstWrite.StruckAfter stoppingOps Kernel.Stopped,
    .writei, 0, 4⟩

theorem firstWrite_run : TransferRun stoppingOps Kernel.Stopped [firstWrite] (firstWrite.run stoppingOps).2
    (firstWrite.StruckAfter stoppingOps Kernel.Stopped) :=
  .call (.start _) (by decide) .writei 0 4 (r := -1) (by decide +kernel)

theorem firstWrite_struck : firstWrite.StruckAfter stoppingOps Kernel.Stopped :=
  ⟨by decide +kernel, .inl (by decide +kernel)⟩

theorem nextWrite_run (state : PcmState) {r : Int} (hx : (underrunWorld state).dev.Stopped)
    (hr : ((nextWrite state).run stoppingOps).1 = some r) :
    TransferRun stoppingOps Kernel.Stopped [nextWrite state, firstWrite] ((nextWrite state).run stoppingOps).2
      ((nextWrite state).StruckAfter stoppingOps Kernel.Stopped) := by
  have hnr : (firstWrite.run stoppingOps).2.pcm.isNorestart := by decide +kernel
  exact .call (.idle firstWrite_run (nextWrite state).before fun _ => hx) hnr .writei 0 4 hr

/-- A stream that was dropped after the failed write reports `SETUP` to the next one, and recovers. -/
theorem transferRun_recovers_dropped : UnderrunDevice stoppingOps Kernel.Stopped ∧
    ∀ c ∈ [nextWrite .setup, firstWrite], c.Recovers stoppingOps Kernel.Stopped := by
  have hrun := nextWrite_run .setup (r := 4) (.inr rfl) (by decide +kernel)
  have hnext : (nextWrite .setup).StateTells stoppingOps Kernel.Stopped :=
    ⟨fun _ => ⟨⟨by decide +kernel, by decide⟩, by decide +kernel⟩, fun h => absurd firstWrite_struck h⟩
  have hfirst : firstWrite.StateTells stoppingOps Kernel.Stopped :=
    ⟨False.elim, fun _ _ _ => ⟨by decide +kernel, by decide +kernel⟩⟩
  refine ⟨stoppingOps_underrun, (transferRun_recovers_iff stoppingOps_underrun hrun).2 fun c hc => ?_⟩
  rcases List.mem_cons.1 hc with rfl | hc
  · exact hnext
  · rw [List.mem_singleton.1 hc]
    exact hfirst

/-- One that still reports `XRUN` fails again without `PREPARE`. -/
theorem transferRun_recovers_not :
    TransferRun stoppingOps Kernel.Stopped [nextWrite .xrun, firstWrite] ((nextWrite .xrun).run stoppingOps).2
        ((nextWrite .xrun).StruckAfter stoppingOps Kernel.Stopped) ∧
      ((nextWrite .xrun).run stoppingOps).1 = some (-1) ∧
      ¬ ∀ c ∈ [nextWrite .xrun, firstWrite], c.Recovers stoppingOps Kernel.Stopped := by
  have hr : ((nextWrite .xrun).run stoppingOps).1 = some (-1) := by decide +kernel
  refine ⟨nextWrite_run .xrun (.inl rfl) hr, hr, fun h => ?_⟩
  have hnext := h _ List.mem_cons_self
  have htells := (stoppingOps_underrun.recovers_iff (by decide +kernel) fun _ => Or.inl rfl).1 hnext
  exact absurd (htells.1 firstWrite_struck).2 (by decide +kernel)

end Tinyalsa
