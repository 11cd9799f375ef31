/-
What every function of a PCM handle keeps. The functions reach the handle's control block and the
device through a few primitives only, so a property that the primitives keep holds along every
call, and along every sequence of calls.
-/
import Tinyalsa.Pcm.Config
import Tinyalsa.Pcm.Transfer

namespace Tinyalsa

open Hoare

/-! ## Calls -/

/-- The functions of an opened handle. A transfer carries the fuel of its loops. -/
inductive PcmApi
  | setConfig (config : Option PcmConfig)
  | prepare
  | start
  | stop
  | state
  | writei (fuel : Nat) (frames : UInt32)
  | readi (fuel : Nat) (frames : UInt32)
  | mmapAvail
  | mmapBegin (frames : UInt32)
  | mmapCommit (frames : UInt32)
  | availUpdate
  | getHwPtr

section

variable {σ : Type} (ops : PcmOps σ)

/-- The call, without its result. -/
def PcmApi.call : PcmApi → PcmM σ Unit
  | .setConfig config => do let _ ← pcmSetConfig ops config
  | .prepare => do let _ ← pcmPrepare ops
  | .start => do let _ ← pcmStart ops
  | .stop => do let _ ← pcmStop ops
  | .state => do let _ ← pcmState ops
  | .writei fuel frames => do let _ ← pcmWritei ops fuel frames
  | .readi fuel frames => do let _ ← pcmReadi ops fuel frames
  | .mmapAvail => do let _ ← pcmMmapAvail ops
  | .mmapBegin frames => do let _ ← pcmMmapBegin ops frames
  | .mmapCommit frames => do let _ ← pcmMmapCommit ops frames
  | .availUpdate => do let _ ← pcmAvailUpdate ops
  | .getHwPtr => do let _ ← pcmMmapGetHwPtr ops

/-- `sysconf(_SC_PAGE_SIZE)`. -/
def pageSize : Nat := 4096

/-- `mmap_error` of `pcm_hw_mmap_status`: a zeroed copy takes the place of the pages. `memory` is whether
`calloc` has some. -/
def pcmCallocSyncPtr (memory : Bool) : PcmM σ Int := do
  if memory then
    modifyPcm fun p => { p with syncPtr := some {} }
    return 0
  else return -eNoMem

/-- `pcm_hw_mmap_status`. A status page mapped without a control page is unmapped again. -/
def pcmHwMmapStatus (memory : Bool) : PcmM σ Int := do
  if (← get).pcm.syncPtr.isSome then return 0
  else
    let status ← opsMmap ops .status pageSize
    modifyPcm fun p => { p with mmapStatus := status.orNull }
    if ¬ status.isMapped then pcmCallocSyncPtr memory
    else
      let control ← opsMmap ops .control pageSize
      modifyPcm fun p => { p with mmapControl := control.orNull }
      if ¬ control.isMapped then
        let _ ← opsMunmap ops status pageSize
        modifyPcm fun p => { p with mmapStatus := .addr 0 }
        pcmCallocSyncPtr memory
      else return 0

/-- What `pcm_open` does with a device it has opened: whether it hands out the handle. -/
def pcmOpenStream (memory : Bool) (config : Option PcmConfig) : PcmM σ Bool := do
  if (← pcmSetConfig ops config) ≠ 0 then return false
  else if (← pcmHwMmapStatus ops memory) < 0 then
    let _ ← oops (← get).errno "mmap status failed"
    return false
  else return true

/-- A sequence of calls. Before each the device acts on its own and the caller fills its buffer. -/
inductive PcmRun (w : World σ) : World σ → Prop
  | start : PcmRun w w
  | call {w' : World σ} (h : PcmRun w w') (user : UserBuf) (c : PcmApi) :
      PcmRun w (exec (c.call ops) { w'.setDev (ops.run w'.dev) with user }).2

/-! ## Primitives -/

/-- The ghost entries of the trace that no backend call stands behind. -/
def PcmCall.isMark : PcmCall → Bool
  | .areas | .copy _ _ _ | .commit _ _ => true
  | _ => false

/-- The function keeps the property. -/
abbrev KeepsPcm {α : Type} (I : World σ → Prop) (f : PcmM σ α) : Prop := Triple I f fun _ => I

theorem KeepsPcm.pure {I : World σ → Prop} {α : Type} (a : α) : KeepsPcm I (Pure.pure a : PcmM σ α) :=
  Triple.pure a fun _ hw => hw

theorem KeepsPcm.get {I : World σ → Prop} : KeepsPcm I (MonadState.get : PcmM σ (World σ)) := fun _ hw => hw

/-- None of the calls since `t` is one of `f`. -/
def NoneSince (f : PcmCall → Bool) (t : List PcmCall) (w : World σ) : Prop :=
  ∃ calls, w.trace = calls ++ t ∧ ∀ c ∈ calls, f c = false

theorem NoneSince.refl (f : PcmCall → Bool) (w : World σ) : NoneSince f w.trace w := ⟨[], rfl, by simp⟩

theorem NoneSince.cons {f : PcmCall → Bool} {t : List PcmCall} {w w' : World σ} {c : PcmCall} (h : NoneSince f t w)
    (ht : w'.trace = c :: w.trace) (hc : f c = false) : NoneSince f t w' := by
  obtain ⟨calls, hw, hf⟩ := h
  refine ⟨c :: calls, by rw [ht, hw]; rfl, fun c' hc' => ?_⟩
  rcases List.mem_cons.1 hc' with rfl | hc'
  · exact hc
  · exact hf c' hc'

/-- A property kept by the primitives that only read and synchronise the pointers. -/
structure SyncInvariant (I : World σ → Prop) : Prop where
  error : ∀ w e, I w → I (w.setPcm { w.pcm with error := e })
  run : ∀ w, I w → I (w.setDev (ops.run w.dev))
  hwsync : ∀ w, I w → I (exec (ioctl ops .hwsync) w).2
  sync : ∀ w s flags, w.pcm.syncPtr = some s → I w → I (exec (ioctlSyncPtr ops { s with flags }) w).2

/-- A property kept also by what a transfer does to wait and to start the stream. -/
structure WaitInvariant (I : World σ → Prop) : Prop extends SyncInvariant ops I where
  errno : ∀ w errno, I w → I { w with errno }
  poll : ∀ w t, I w → I (exec (opsPoll ops t) w).2
  start : ∀ w, I w → I (exec (ioctl ops .start) w).2

/-- A property kept by the primitives that all functions but `pcm_set_config` are made of. Of the handle's
own fields these write `error` and `xruns`. -/
structure StreamInvariant (I : World σ → Prop) : Prop where
  note : ∀ w error xruns, I w → I (w.setPcm { w.pcm with error, xruns })
  caller : ∀ w user fault errno, I w → I { w with user, fault, errno }
  run : ∀ w, I w → I (w.setDev (ops.run w.dev))
  setBuffer : ∀ w b, I w → I (w.setDev (ops.setBuffer b w.dev))
  cmd : ∀ w c, I w → I (exec (ioctl ops c) w).2
  sync : ∀ w s flags, w.pcm.syncPtr = some s → I w → I (exec (ioctlSyncPtr ops { s with flags }) w).2
  forward : ∀ w frames, I w → I (exec (pcmMmapApplForward ops frames) w).2
  poll : ∀ w t, I w → I (exec (opsPoll ops t) w).2
  rwTransfer : ∀ w n, I w → I (exec (pcmRwTransfer ops n) w).2
  mark : ∀ w c, c.isMark → I w → I (w.push c)

/-- A property kept by all primitives. -/
structure PcmInvariant (I : World σ → Prop) : Prop extends StreamInvariant ops I where
  handle : ∀ w p, p.syncPtr = w.pcm.syncPtr → I w → I (w.setPcm p)
  hwParams : ∀ w p, I w → I (exec (ioctlHwParams ops p) w).2
  swParams : ∀ w p, I w → I (exec (ioctlSwParams ops p) w).2
  mmap : ∀ w offset n, I w → I (exec (opsMmap ops offset n) w).2
  note := fun w _ _ => handle w _ rfl

open KeepsPcm

/-! ## Pointers -/

theorem pcmMmapApplForward_trace (frames : Int) (w : World σ) :
    (exec (pcmMmapApplForward ops frames) w).2.trace = .forward frames w.pcm.boundary :: w.trace := by
  unfold pcmMmapApplForward mmapControl setApplPtr
  cases hs : w.pcm.syncPtr with
  | none => simp [hs]
  | some s => simp [hs]

namespace SyncInvariant

variable {ops} {I : World σ → Prop} (h : SyncInvariant ops I)

include h

theorem oops (e : Int) (text : String) : KeepsPcm I (oops (σ := σ) e text) := fun w hw => h.error w ⟨text, e⟩ hw

theorem pcmSyncPtr (flags : SyncFlags) : KeepsPcm I (pcmSyncPtr ops flags) := by
  intro w hw
  have hioctl : KeepsPcm I (ioctl ops .hwsync) := fun w hw => h.hwsync w hw
  cases hs : w.pcm.syncPtr with
  | none =>
    simp only [Tinyalsa.pcmSyncPtr, exec_bind, exec_get, hs]
    refine Triple.ite (P := I) (Q := fun _ => I) (fun _ => ?_) (fun _ => pure _) w hw
    refine Triple.bind hioctl fun ret => Triple.ite (fun _ => ?_) fun _ => pure _
    exact Triple.bind get fun _ => h.oops _ _
  | some s =>
    have h₁ := h.sync w s flags hs hw
    simp only [Tinyalsa.pcmSyncPtr, exec_bind, exec_get, hs, exec_ite]
    split
    · exact h.oops _ _ _ h₁
    · exact h₁

theorem mmapStatus : KeepsPcm I (mmapStatus ops) := by
  intro w hw
  cases hs : w.pcm.syncPtr with
  | none =>
    simp only [Tinyalsa.mmapStatus, exec_bind, exec_get, hs, exec_modify, exec_pure]
    exact h.run w hw
  | some s =>
    simp only [Tinyalsa.mmapStatus, exec_bind, exec_get, hs, exec_pure]
    exact hw

theorem mmapControl : KeepsPcm I (mmapControl ops) := by
  intro w hw
  cases hs : w.pcm.syncPtr with
  | none =>
    simp only [Tinyalsa.mmapControl, exec_bind, exec_get, hs, exec_modify, exec_pure]
    exact h.run w hw
  | some s =>
    simp only [Tinyalsa.mmapControl, exec_bind, exec_get, hs, exec_pure]
    exact hw

theorem pcmState : KeepsPcm I (pcmState ops) :=
  Triple.bind (h.pcmSyncPtr _) fun _ => Triple.ite (fun _ => pure _) fun _ => Triple.bind h.mmapStatus fun _ => pure _

theorem pcmAvailNow : KeepsPcm I (pcmAvailNow ops) :=
  Triple.bind h.mmapStatus fun _ => Triple.bind h.mmapControl fun _ => Triple.bind get fun _ =>
    Triple.ite (fun _ => pure _) fun _ => pure _

theorem pcmMmapAvail : KeepsPcm I (pcmMmapAvail ops) :=
  Triple.bind (h.pcmSyncPtr _) fun _ => h.pcmAvailNow

theorem pcmAvailUpdate : KeepsPcm I (pcmAvailUpdate ops) :=
  Triple.bind (h.pcmSyncPtr _) fun _ => h.pcmMmapAvail

theorem pcmMmapBegin (frames : UInt32) : KeepsPcm I (pcmMmapBegin ops frames) :=
  Triple.bind h.mmapControl fun _ => Triple.bind get fun _ => Triple.bind h.pcmMmapAvail fun _ => pure _

end SyncInvariant

/-! ## Waiting and starting -/

namespace WaitInvariant

variable {ops} {I : World σ → Prop} (h : WaitInvariant ops I)

include h

theorem setErrno (e : Int) : KeepsPcm I (setErrno (σ := σ) e) := fun w hw => h.errno w e hw

theorem pcmStartStream : KeepsPcm I (pcmStartStream ops) := by
  have hstart : KeepsPcm I (ioctl ops .start) := fun w hw => h.start w hw
  refine Triple.bind h.mmapStatus fun _ => Triple.ite (fun _ => Triple.bind hstart fun _ => ?_) fun _ => pure _
  exact Triple.ite (fun _ => Triple.bind get fun _ => h.oops _ _) fun _ => pure _

theorem pcmStartPrepared : KeepsPcm I (pcmStartPrepared ops) :=
  Triple.bind (h.pcmSyncPtr _) fun _ => Triple.ite (fun _ => pure _) fun _ => h.pcmStartStream

theorem pcmPrepare (hp : KeepsPcm I (ioctl ops .prepare)) : KeepsPcm I (pcmPrepare ops) :=
  Triple.bind hp fun _ => Triple.ite (fun _ => Triple.bind get fun _ => h.oops _ _) fun _ =>
    Triple.bind (h.pcmSyncPtr _) fun _ => pure _

theorem pcmStart (hp : KeepsPcm I (ioctl ops .prepare)) : KeepsPcm I (pcmStart ops) :=
  Triple.bind h.pcmState fun _ => Triple.ite
    (fun _ => Triple.bind (h.pcmPrepare hp) fun _ => Triple.ite (fun _ => pure _) fun _ => h.pcmStartPrepared)
    fun _ => h.pcmStartPrepared

/-- A wait whose first poll establishes the property keeps it from there on. -/
theorem pcmWait_of_poll {P : World σ → Prop} (timeout : Int) (hpoll : Triple P (opsPoll ops timeout) fun _ => I)
    (fuel : Nat) (hrest : KeepsPcm I (Tinyalsa.pcmWait ops fuel timeout)) :
    Triple P (Tinyalsa.pcmWait ops (fuel + 1) timeout) fun _ => I := by
  refine Triple.bind hpoll fun r => Triple.ite (fun _ => ?_) fun _ => ?_
  · exact Triple.bind get fun _ => pure _
  refine Triple.ite (fun _ => pure _) fun _ => Triple.bind get fun _ => Triple.ite (fun _ => ?_) fun _ => ?_
  · exact Triple.bind h.pcmState fun _ => pure _
  · exact Triple.ite (fun _ => pure _) fun _ => hrest

theorem pcmWait (timeout : Int) : ∀ fuel, KeepsPcm I (pcmWait ops fuel timeout)
  | 0 => pure _
  | fuel + 1 => h.pcmWait_of_poll timeout (fun w hw => h.poll w timeout hw) fuel (pcmWait timeout fuel)

theorem waitForRoom (fuel : Nat) (avail : UInt32) : KeepsPcm I (waitForRoom ops fuel avail) := by
  refine Triple.ite (fun _ => Triple.bind get fun _ => Triple.ite (fun _ => ?_) fun _ => ?_) fun _ => pure _
  · exact Triple.bind (h.setErrno _) fun _ => pure _
  · refine Triple.bind (h.pcmWait _ fuel) fun r => ?_
    cases r with
    | none => exact pure _
    | some err => exact Triple.ite (fun _ => Triple.bind (h.setErrno _) fun _ => pure _) fun _ => pure _

/-- What keeps it through a restart, and through the attempts of a transfer. -/
theorem pcmRestarts (hp : KeepsPcm I (ioctl ops .prepare))
    (hx : ∀ w, I w → I (w.setPcm { w.pcm with xruns := CInt.wrapInt (w.pcm.xruns + 1) })) : KeepsPcm I
    (pcmRestarts ops) := by
  refine Triple.bind get fun _ => ?_
  have hrest : KeepsPcm I (do
      if (← MonadState.get : World σ).pcm.isNorestart then return false else return (← Tinyalsa.pcmPrepare ops) = 0 :
        PcmM σ Bool) :=
    Triple.bind get fun _ => Triple.ite (fun _ => pure _) fun _ => Triple.bind (h.pcmPrepare hp) fun _ => pure _
  have hxruns : KeepsPcm I (modifyPcm (σ := σ) fun p => { p with xruns := CInt.wrapInt (p.xruns + 1) }) := hx
  refine Triple.ite (fun _ => Triple.bind hxruns fun _ => ?_) fun _ => ?_
  · exact Triple.ite (fun _ => hrest) fun _ => pure _
  · exact Triple.ite (fun _ => hrest) fun _ => pure _

theorem pcmTransferAgain (hp : KeepsPcm I (ioctl ops .prepare))
    (hx : ∀ w, I w → I (w.setPcm { w.pcm with xruns := CInt.wrapInt (w.pcm.xruns + 1) })) {frames : UInt32}
    (honce : ∀ fuel, KeepsPcm I (pcmTransferOnce ops fuel frames)) : ∀ fuel,
      KeepsPcm I (pcmTransferAgain ops fuel frames)
  | 0 => pure _
  | fuel + 1 => by
    refine Triple.bind (honce fuel) fun r => ?_
    cases r with
    | none => exact pure _
    | some res =>
      refine Triple.ite (fun _ => Triple.bind get fun _ => ?_) fun _ => pure _
      refine Triple.ite (fun _ => Triple.bind (h.pcmRestarts hp hx) fun _ => ?_) fun _ => ?_
      · exact Triple.ite (fun _ => pcmTransferAgain hp hx honce fuel) fun _ => pure _
      · exact Triple.bind get fun _ => Triple.ite (fun _ => pure _) fun _ =>
          Triple.bind (h.oops _ _) fun _ => pure _

theorem pcmGenericTransfer (hp : KeepsPcm I (ioctl ops .prepare))
    (hx : ∀ w, I w → I (w.setPcm { w.pcm with xruns := CInt.wrapInt (w.pcm.xruns + 1) })) {frames : UInt32}
    (honce : ∀ fuel, KeepsPcm I (pcmTransferOnce ops fuel frames)) (fuel : Nat) :
    KeepsPcm I (pcmGenericTransfer ops fuel frames) :=
  Triple.ite (fun _ => pure _) fun _ => Triple.bind h.pcmState fun _ => Triple.ite
    (fun _ => Triple.bind (h.pcmPrepare hp) fun _ =>
      Triple.ite (fun _ => pure _) fun _ => h.pcmTransferAgain hp hx honce fuel)
    fun _ => h.pcmTransferAgain hp hx honce fuel

theorem pcmMmapGetHwPtr : KeepsPcm I (pcmMmapGetHwPtr ops) := by
  refine Triple.bind get fun _ => Triple.ite (fun _ => ?_) fun _ => Triple.bind (h.pcmSyncPtr _) fun _ => ?_
  · exact Triple.bind get fun _ => Triple.bind (h.oops _ _) fun _ => pure _
  refine Triple.ite (fun _ => Triple.bind get fun _ => Triple.bind (h.oops _ _) fun _ => pure _) fun _ => ?_
  refine Triple.bind h.mmapStatus fun _ => Triple.ite (fun _ => Triple.bind (h.oops _ _) fun _ => pure _) fun _ => ?_
  refine Triple.bind h.mmapStatus fun _ => Triple.ite (fun _ => ?_) fun _ => Triple.bind h.mmapStatus fun _ => pure _
  exact Triple.bind get fun _ => Triple.bind (h.oops _ _) fun _ => pure _

end WaitInvariant

/-! ## Functions -/

namespace StreamInvariant

variable {ops} {I : World σ → Prop} (h : StreamInvariant ops I)

include h

/-- The part of it that waiting needs. -/
theorem wait : WaitInvariant ops I where
  error w e := h.note w e w.pcm.xruns
  run := h.run
  hwsync w := h.cmd w _
  sync := h.sync
  errno w e := h.caller w w.user w.fault e
  poll := h.poll
  start w := h.cmd w _

theorem oops (e : Int) (text : String) : KeepsPcm I (oops (σ := σ) e text) := h.wait.oops e text

theorem record {c : PcmCall} (hc : c.isMark) : KeepsPcm I (record (σ := σ) c) := fun w hw => h.mark w c hc hw

theorem ioctl (c : PcmCmd) : KeepsPcm I (ioctl ops c) := fun w hw => h.cmd w c hw

theorem pcmMmapApplForward (frames : Int) : KeepsPcm I (pcmMmapApplForward ops frames) := fun w hw =>
    h.forward w frames hw

theorem pcmRwTransfer (frames : UInt32) : KeepsPcm I (pcmRwTransfer ops frames) := fun w hw => h.rwTransfer w frames hw

theorem pcmPrepare : KeepsPcm I (pcmPrepare ops) := h.wait.pcmPrepare (h.ioctl _)

theorem pcmStart : KeepsPcm I (pcmStart ops) := h.wait.pcmStart (h.ioctl _)

theorem pcmStop : KeepsPcm I (pcmStop ops) :=
  Triple.bind (h.ioctl _) fun _ => Triple.ite (fun _ => Triple.bind get fun _ => h.oops _ _) fun _ => pure _

theorem pcmMmapCommit (frames : UInt32) : KeepsPcm I (pcmMmapCommit ops frames) :=
  Triple.bind (h.pcmMmapApplForward _) fun _ => Triple.bind (h.wait.pcmSyncPtr _) fun _ =>
    Triple.bind (h.record rfl) fun _ => pure _

theorem ringCopy (pcmOff srcOff size : Nat) : KeepsPcm I (ringCopy ops pcmOff srcOff size) := by
  refine Triple.modify fun w hw => ?_
  have hr := h.run w hw
  split
  · exact h.caller _ _ w.fault w.errno hr
  · exact h.setBuffer _ _ hr

theorem pcmAreasCopy (pcmOffset srcOffset frames : UInt32) : KeepsPcm I (pcmAreasCopy ops pcmOffset srcOffset frames) :=
  Triple.bind get fun _ => Triple.bind (h.record rfl) fun _ => Triple.ite (fun _ => h.ringCopy _ _ _) fun _ =>
    Triple.modify fun w hw => h.caller w w.user true w.errno hw

theorem transferAreasLoop : ∀ (fuel : Nat) (offset size count : UInt32),
    KeepsPcm I (transferAreasLoop ops fuel offset size count)
  | 0, _, _, _ => pure _
  | fuel + 1, offset, size, count => by
    refine Triple.bind h.wait.pcmMmapAvail fun _ => Triple.ite (fun _ => ?_) fun _ => pure _
    refine Triple.bind (h.wait.pcmMmapBegin _) fun _ => Triple.bind (h.pcmAreasCopy _ _ _) fun _ => ?_
    refine Triple.bind (h.pcmMmapCommit _) fun _ => Triple.ite (fun _ => ?_) fun _ => ?_
    · exact Triple.bind (h.oops _ _) fun _ => pure _
    · exact transferAreasLoop fuel _ _ _

theorem pcmMmapTransferAreas (fuel : Nat) (offset size : UInt32) :
    KeepsPcm I (pcmMmapTransferAreas ops fuel offset size) :=
  Triple.bind (h.record rfl) fun _ => h.transferAreasLoop fuel offset size 0

theorem startIfReached (isPlayback : Bool) (state : PcmState) (avail : UInt32) :
    KeepsPcm I (startIfReached ops isPlayback state avail) :=
  Triple.bind get fun _ => Triple.ite (fun _ => Triple.bind h.pcmStart fun _ => pure _) fun _ => pure _

/-- A pass whose wait establishes the property keeps it from there on. -/
theorem mmapTransferLoop_of_wait {P : World σ → Prop} {R : Int → World σ → Prop} (isPlayback : Bool) (state : PcmState)
    (fuel : Nat) (userOffset frames : UInt32) (hdone : frames = 0 → ∀ w, P w → I w)
    (havail : Triple P (pcmMmapAvail ops) R)
    (hwait : ∀ avail, Triple (R avail) (waitForRoom ops fuel (CInt.toUInt avail)) fun _ => I)
    (hrest : ∀ userOffset frames, KeepsPcm I (Tinyalsa.mmapTransferLoop ops isPlayback state fuel userOffset frames)) :
    Triple P (Tinyalsa.mmapTransferLoop ops isPlayback state (fuel + 1) userOffset frames) fun _ => I := by
  refine Triple.ite (fun hz => Triple.pure _ (hdone hz)) fun _ => Triple.bind havail fun avail => ?_
  refine Triple.bind (hwait avail) fun r => ?_
  rcases r with _ | _ | _
  · exact pure _
  · exact pure _
  refine Triple.bind (h.pcmMmapTransferAreas fuel _ _) fun r => ?_
  cases r with
  | none => exact pure _
  | some transferred =>
    refine Triple.ite (fun _ => pure _) fun _ => Triple.bind (h.startIfReached _ _ _) fun _ => ?_
    exact Triple.ite (fun _ => hrest _ _) fun _ => pure _

theorem mmapTransferLoop (isPlayback : Bool) (state : PcmState) : ∀ (fuel : Nat) (userOffset frames : UInt32),
    KeepsPcm I (mmapTransferLoop ops isPlayback state fuel userOffset frames)
  | 0, _, _ => pure _
  | fuel + 1, _, _ => h.mmapTransferLoop_of_wait isPlayback state fuel _ _ (fun _ _ hw => hw) h.wait.pcmMmapAvail
      (fun _ => h.wait.waitForRoom fuel _) fun userOffset frames =>
        mmapTransferLoop isPlayback state fuel userOffset frames

theorem startCapture (state : PcmState) (frames : UInt32) : KeepsPcm I (startCapture ops state frames) :=
  Triple.bind get fun _ => Triple.ite (fun _ => Triple.bind h.pcmStart fun _ => pure _) fun _ => pure _

theorem pcmMmapTransfer (fuel : Nat) (frames : UInt32) : KeepsPcm I (pcmMmapTransfer ops fuel frames) := by
  refine Triple.ite (fun _ => pure _) fun _ => Triple.bind (h.wait.pcmSyncPtr _) fun _ =>
    Triple.ite (fun _ => pure _) fun _ => ?_
  refine Triple.bind h.wait.mmapStatus fun _ => Triple.bind (h.startCapture _ _) fun _ =>
    Triple.ite (fun _ => ?_) fun _ => pure _
  exact Triple.bind get fun _ => Triple.bind (h.mmapTransferLoop _ _ fuel _ _) fun _ => pure _

theorem xruns (w : World σ) (hw : I w) : I (w.setPcm { w.pcm with xruns := CInt.wrapInt (w.pcm.xruns + 1) }) :=
  h.note w w.pcm.error (CInt.wrapInt (w.pcm.xruns + 1)) hw

theorem pcmTransferOnce (fuel : Nat) (frames : UInt32) : KeepsPcm I (pcmTransferOnce ops fuel frames) :=
  Triple.bind get fun _ => Triple.ite (fun _ => h.pcmMmapTransfer fuel frames) fun _ =>
    Triple.bind (h.pcmRwTransfer frames) fun _ => pure _

theorem pcmGenericTransfer (fuel : Nat) (frames : UInt32) : KeepsPcm I (pcmGenericTransfer ops fuel frames) :=
  h.wait.pcmGenericTransfer (h.ioctl _) h.xruns (fun fuel => h.pcmTransferOnce fuel frames) fuel

theorem pcmMmapGetHwPtr : KeepsPcm I (pcmMmapGetHwPtr ops) := h.wait.pcmMmapGetHwPtr

/-- Every call keeps it if, where it is one, `pcm_set_config` does. -/
theorem call (c : PcmApi) (hset : ∀ config, c = .setConfig config → KeepsPcm I (pcmSetConfig ops config)) :
    KeepsPcm I (c.call ops) := by
  cases c with
  | setConfig config => exact Triple.bind (hset config rfl) fun _ => pure _
  | prepare => exact Triple.bind h.pcmPrepare fun _ => pure _
  | start => exact Triple.bind h.pcmStart fun _ => pure _
  | stop => exact Triple.bind h.pcmStop fun _ => pure _
  | state => exact Triple.bind h.wait.pcmState fun _ => pure _
  | writei fuel frames =>
    exact Triple.bind (Triple.bind get fun _ => Triple.ite (fun _ => pure _) fun _ => h.pcmGenericTransfer fuel frames)
      fun _ => pure _
  | readi fuel frames =>
    exact Triple.bind (Triple.bind get fun _ => Triple.ite (fun _ => h.pcmGenericTransfer fuel frames) fun _ => pure _)
      fun _ => pure _
  | mmapAvail => exact Triple.bind h.wait.pcmMmapAvail fun _ => pure _
  | mmapBegin frames => exact Triple.bind (h.wait.pcmMmapBegin frames) fun _ => pure _
  | mmapCommit frames => exact Triple.bind (h.pcmMmapCommit frames) fun _ => pure _
  | availUpdate => exact Triple.bind h.wait.pcmAvailUpdate fun _ => pure _
  | getHwPtr => exact Triple.bind h.pcmMmapGetHwPtr fun _ => pure _

end StreamInvariant

namespace PcmInvariant

variable {ops} {I : World σ → Prop} (h : PcmInvariant ops I)

theorem and {J : World σ → Prop} (h : PcmInvariant ops I) (h' : PcmInvariant ops J) :
    PcmInvariant ops fun w => I w ∧ J w where
  handle w p hp hw := ⟨h.handle w p hp hw.1, h'.handle w p hp hw.2⟩
  caller w user fault errno hw := ⟨h.caller w user fault errno hw.1, h'.caller w user fault errno hw.2⟩
  run w hw := ⟨h.run w hw.1, h'.run w hw.2⟩
  setBuffer w b hw := ⟨h.setBuffer w b hw.1, h'.setBuffer w b hw.2⟩
  cmd w c hw := ⟨h.cmd w c hw.1, h'.cmd w c hw.2⟩
  sync w s flags hs hw := ⟨h.sync w s flags hs hw.1, h'.sync w s flags hs hw.2⟩
  forward w frames hw := ⟨h.forward w frames hw.1, h'.forward w frames hw.2⟩
  hwParams w p hw := ⟨h.hwParams w p hw.1, h'.hwParams w p hw.2⟩
  swParams w p hw := ⟨h.swParams w p hw.1, h'.swParams w p hw.2⟩
  mmap w offset n hw := ⟨h.mmap w offset n hw.1, h'.mmap w offset n hw.2⟩
  poll w t hw := ⟨h.poll w t hw.1, h'.poll w t hw.2⟩
  rwTransfer w n hw := ⟨h.rwTransfer w n hw.1, h'.rwTransfer w n hw.2⟩
  mark w c hc hw := ⟨h.mark w c hc hw.1, h'.mark w c hc hw.2⟩

/-- A property of the trace that no further entry ends. -/
theorem ofTrace {P : List PcmCall → Prop} (hP : ∀ c l, P l → P (c :: l)) : PcmInvariant ops fun w => P w.trace where
  handle _ _ _ hw := hw
  caller _ _ _ _ hw := hw
  run _ hw := hw
  setBuffer _ _ hw := hw
  cmd _ _ hw := hP _ _ hw
  sync _ _ _ _ hw := hP _ _ hw
  forward w frames hw := by
    rw [pcmMmapApplForward_trace]
    exact hP _ _ hw
  hwParams _ _ hw := hP _ _ hw
  swParams _ _ hw := hP _ _ hw
  mmap _ _ _ hw := hP _ _ hw
  poll _ _ hw := hP _ _ hw
  rwTransfer _ _ hw := hP _ _ hw
  mark _ _ _ hw := hP _ _ hw

include h

theorem modifyPcm {f : Pcm → Pcm} (hf : ∀ p, (f p).syncPtr = p.syncPtr) : KeepsPcm I (modifyPcm (σ := σ) f) :=
  fun w hw => h.handle w _ (hf w.pcm) hw

theorem ioctlHwParams (p : SndPcmHwParams) : KeepsPcm I (ioctlHwParams ops p) := fun w hw => h.hwParams w p hw

theorem ioctlSwParams (p : SndPcmSwParams) : KeepsPcm I (ioctlSwParams ops p) := fun w hw => h.swParams w p hw

theorem opsMmap (offset : MmapOffset) (n : Nat) : KeepsPcm I (opsMmap ops offset n) := fun w hw => h.mmap w offset n hw

theorem pcmSetSwConfig (config : Option PcmConfig) : KeepsPcm I (pcmSetSwConfig ops config) := by
  refine Triple.bind get fun _ => Triple.bind (h.modifyPcm fun _ => rfl) fun _ => ?_
  refine Triple.bind (h.ioctlSwParams _) fun _ => Triple.ite (fun _ => ?_) fun _ => ?_
  · exact Triple.bind get fun _ => Triple.bind (h.oops _ _) fun _ => pure _
  · exact Triple.bind (h.modifyPcm fun _ => rfl) fun _ => pure _

theorem pcmSetBuffer (config : Option PcmConfig) : KeepsPcm I (pcmSetBuffer ops config) := by
  refine Triple.bind get fun _ => Triple.ite (fun _ => ?_) fun _ => h.pcmSetSwConfig config
  refine Triple.bind (h.opsMmap _ _) fun _ => Triple.bind (h.modifyPcm fun _ => rfl) fun _ => ?_
  refine Triple.ite (fun _ => ?_) fun _ => h.pcmSetSwConfig config
  exact Triple.bind get fun _ => Triple.bind (h.oops _ _) fun _ => pure _

theorem pcmSetHwConfig (config : Option PcmConfig) : KeepsPcm I (pcmSetHwConfig ops config) := by
  refine Triple.bind get fun _ => Triple.bind (h.ioctlHwParams _) fun _ => Triple.ite (fun _ => ?_) fun _ => ?_
  · exact Triple.bind get fun _ => Triple.bind (h.oops _ _) fun _ => pure _
  · exact Triple.bind (h.modifyPcm fun p => by cases config <;> rfl) fun _ => h.pcmSetBuffer config

theorem pcmSetConfig (config : Option PcmConfig) : KeepsPcm I (pcmSetConfig ops config) := by
  refine Triple.bind (h.modifyPcm fun _ => rfl) fun _ => Triple.bind get fun _ => Triple.ite (fun _ => ?_) fun _ => ?_
  · refine Triple.ite (fun _ => Triple.bind (h.oops _ _) fun _ => pure _) fun _ => ?_
    exact Triple.bind (h.modifyPcm fun _ => rfl) fun _ => h.pcmSetHwConfig config
  · exact h.pcmSetHwConfig config

/-- What the primitives keep holds along every run. -/
theorem pcmRun {w w' : World σ} (hrun : PcmRun ops w w') (hw : I w) : I w' := by
  induction hrun with
  | start => exact hw
  | @call w' _ user c ih =>
    exact h.toStreamInvariant.call c (fun config _ => h.pcmSetConfig config) _
      (h.caller (w'.setDev (ops.run w'.dev)) user w'.fault w'.errno (h.run w' ih))

end PcmInvariant

end

end Tinyalsa
