/-
What the device takes and gives. On a read/write stream the frames that a call reports are those that one
transfer has moved, whatever failed transfers and restarts came before it.
-/
import Tinyalsa.Pcm.Frame

namespace Tinyalsa

open Hoare

/-! ## Transfers of bytes -/

section

variable {σ : Type} (ops : PcmOps σ)

/-- `count` bytes by a function that transfers frames. -/
def transferBytes (transfer : UInt32 → PcmM σ (Option Int)) (count : UInt32) : PcmM σ (Option Int) := do
  let requestedFrames := pcmBytesToFrames (← get).pcm count
  match ← transfer requestedFrames with
  | none => return none
  | some ret =>
    if ret < 0 then return some ret
    else return some (if CInt.toUInt ret = requestedFrames then 0 else -eIo)

/-- `pcm_write`. -/
def pcmWrite (fuel : Nat) (count : UInt32) : PcmM σ (Option Int) := transferBytes (pcmWritei ops fuel) count

/-- `pcm_read`. -/
def pcmRead (fuel : Nat) (count : UInt32) : PcmM σ (Option Int) := transferBytes (pcmReadi ops fuel) count

/-- `pcm_mmap_write`. -/
def pcmMmapWrite (fuel : Nat) (count : UInt32) : PcmM σ (Option Int) := do
  if ~~~(← get).pcm.flags &&& pcmMmap ≠ 0 then return some (-eInval) else transferBytes (pcmWritei ops fuel) count

/-- `pcm_mmap_read`. -/
def pcmMmapRead (fuel : Nat) (count : UInt32) : PcmM σ (Option Int) := do
  if ~~~(← get).pcm.flags &&& (pcmIn ||| pcmMmap) ≠ 0 then return some (-eInval)
  else transferBytes (pcmReadi ops fuel) count

end

/-! ## What is moved -/

/-- A device with the bytes that its transfers have moved, in order. -/
structure Heard (σ : Type) where
  dev : σ
  bytes : List UInt8 := []

/-- The first `n` bytes of a buffer. -/
def UserBuf.bytes (user : UserBuf) (n : Nat) : List UInt8 := (List.range n).map user.byte

section

variable {σ : Type}

/-- The backend, listening: a transfer that succeeds has moved the frames it reports from the start of the buffer, or
to it. -/
def hearing (frameBytes : Nat) (ops : PcmOps σ) : PcmOps (Heard σ) where
  hwParams p d :=
    let (r, p', dev) := ops.hwParams p d.dev
    (r, p', { d with dev })
  swParams p d :=
    let (r, p', dev) := ops.swParams p d.dev
    (r, p', { d with dev })
  syncPtr s d :=
    let (r, s', dev) := ops.syncPtr s d.dev
    (r, s', { d with dev })
  cmd c d :=
    let (r, dev) := ops.cmd c d.dev
    (r, { d with dev })
  xfer write n user d :=
    let (r, result, user', dev) := ops.xfer write n user d.dev
    (r, result, user', ⟨dev, if r.ret = 0 then d.bytes ++ user'.bytes (result.toNat * frameBytes) else d.bytes⟩)
  link fd d :=
    let (r, dev) := ops.link fd d.dev
    (r, { d with dev })
  delay arg d :=
    let (r, frames, dev) := ops.delay arg d.dev
    (r, frames, { d with dev })
  info d :=
    let (r, subdevice, dev) := ops.info d.dev
    (r, subdevice, { d with dev })
  ttstamp t d :=
    let (r, t', dev) := ops.ttstamp t d.dev
    (r, t', { d with dev })
  poll timeout d :=
    let (r, events, dev) := ops.poll timeout d.dev
    (r, events, { d with dev })
  mmap offset length d :=
    let (addr, errno, dev) := ops.mmap offset length d.dev
    (addr, errno, { d with dev })
  munmap addr length d :=
    let (r, dev) := ops.munmap addr length d.dev
    (r, { d with dev })
  run d := { d with dev := ops.run d.dev }
  status d := ops.status d.dev
  control d := ops.control d.dev
  setControl c d := { d with dev := ops.setControl c d.dev }
  buffer d := ops.buffer d.dev
  setBuffer b d := { d with dev := ops.setBuffer b d.dev }

/-- A transfer that succeeds moves no more frames than it is given, and one that writes only reads the buffer. -/
structure Transfers (ops : PcmOps σ) : Prop where
  moved : ∀ write n user d, (ops.xfer write n user d).1.ret = 0 →
    0 ≤ (ops.xfer write n user d).2.1 ∧ (ops.xfer write n user d).2.1 ≤ n.toNat
  kept : ∀ n user d, (ops.xfer true n user d).2.2.1 = user

/-- A transfer that succeeds moves all frames that it is given, as a blocking one does. -/
def MovesWhole (ops : PcmOps σ) : Prop :=
  ∀ write n user d, (ops.xfer write n user d).1.ret = 0 → (ops.xfer write n user d).2.1 = n.toNat

/-- Between `w₀` and `w` the device has moved `n` frames, from the start of the buffer or to it. -/
structure Moves (frameBytes : Nat) (w₀ : World (Heard σ)) (n : Nat) (w : World (Heard σ)) : Prop where
  bytes : w.dev.bytes = w₀.dev.bytes ++ w.user.bytes (n * frameBytes)
  flags : w.pcm.flags = w₀.pcm.flags
  config : w.pcm.config = w₀.pcm.config
  user : w₀.pcm.isIn = false → w.user = w₀.user

/-- What a call leaves that is to transfer `frames`: it reports an error, or what one transfer of them reported; and the
device has moved just that. -/
structure Reported (ops : PcmOps σ) (frameBytes : Nat) (w₀ : World (Heard σ)) (frames : UInt32) (res : Option Int)
    (w : World (Heard σ)) : Prop where
  moves : Moves frameBytes w₀ (res.getD 0).toNat w
  transfer : res.getD (-1) < 0 ∨ ∃ write user d, (ops.xfer write frames user d).1.ret = 0 ∧
    res = some (ops.xfer write frames user d).2.1

end

section

variable {σ : Type} {ops : PcmOps σ} {frameBytes : Nat} {w₀ w : World (Heard σ)}

theorem UserBuf.bytes_zero (user : UserBuf) : user.bytes 0 = [] := rfl

theorem Moves.refl (frameBytes : Nat) (w : World (Heard σ)) : Moves frameBytes w 0 w :=
  ⟨by rw [Nat.zero_mul, UserBuf.bytes_zero, List.append_nil], rfl, rfl, fun _ => rfl⟩

theorem Moves.isIn {n : Nat} (h : Moves frameBytes w₀ n w) : w.pcm.isIn = w₀.pcm.isIn := by
  unfold Pcm.isIn
  rw [h.flags]

theorem Moves.isMmap {n : Nat} (h : Moves frameBytes w₀ n w) : w.pcm.isMmap = w₀.pcm.isMmap := by
  unfold Pcm.isMmap
  rw [h.flags]

/-- Nothing moved is what a call reports that fails, or that has not ended. -/
theorem Moves.reported {frames : UInt32} {res : Option Int} (h : Moves frameBytes w₀ 0 w) (hres : res.getD (-1) < 0) :
    Reported ops frameBytes w₀ frames res w := by
  refine ⟨?_, .inl hres⟩
  cases res with
  | none => exact h
  | some n =>
    have hneg : n < 0 := hres
    rwa [Option.getD_some, Int.toNat_of_nonpos hneg.le]

theorem Reported.le (hops : Transfers ops) {frames : UInt32} {n : Int}
    (h : Reported ops frameBytes w₀ frames (some n) w) : n ≤ frames.toNat := by
  rcases h.transfer with hneg | ⟨write, user, d, hret, heq⟩
  · have hneg : n < 0 := hneg
    omega
  · obtain ⟨-, hle⟩ := hops.moved write frames user d hret
    rwa [Option.some.inj heq]

/-- Only transfers move anything. -/
theorem moves_wait (frameBytes : Nat) (ops : PcmOps σ) (w₀ : World (Heard σ)) (n : Nat) :
    WaitInvariant (hearing frameBytes ops) (Moves frameBytes w₀ n) where
  error _ _ h := ⟨h.bytes, h.flags, h.config, h.user⟩
  run _ h := ⟨h.bytes, h.flags, h.config, h.user⟩
  hwsync _ h := ⟨h.bytes, h.flags, h.config, h.user⟩
  sync _ _ _ _ h := ⟨h.bytes, h.flags, h.config, h.user⟩
  errno _ _ h := ⟨h.bytes, h.flags, h.config, h.user⟩
  poll _ _ h := ⟨h.bytes, h.flags, h.config, h.user⟩
  start _ h := ⟨h.bytes, h.flags, h.config, h.user⟩

theorem ioctl_moves (c : PcmCmd) (n : Nat) : KeepsPcm (Moves frameBytes w₀ n) (ioctl (hearing frameBytes ops) c) :=
  fun _ h => ⟨h.bytes, h.flags, h.config, h.user⟩

/-- A transfer moves the frames that it reports. -/
theorem pcmRwTransfer_moves (hops : Transfers ops) {frames : UInt32} (hframes : frames.toNat ≤ CInt.intMax) :
    Triple (Moves frameBytes w₀ 0) (pcmRwTransfer (hearing frameBytes ops) frames) fun res =>
      Reported ops frameBytes w₀ frames (some res) := by
  intro w h
  have hbytes := h.bytes
  rw [Nat.zero_mul, UserBuf.bytes_zero, List.append_nil] at hbytes
  have huser : w₀.pcm.isIn = false → (ops.xfer (!w.pcm.isIn) frames w.user w.dev.dev).2.2.1 = w₀.user := by
    intro hin
    rw [h.isIn, hin, ← h.user hin]
    exact hops.kept ..
  unfold pcmRwTransfer
  simp only [exec_bind, exec_get, exec_set, exec_record, exec_pure, hearing]
  by_cases hret : (ops.xfer (!w.pcm.isIn) frames w.user w.dev.dev).1.ret = 0
  · obtain ⟨hpos, hle⟩ := hops.moved _ _ _ _ hret
    have hwrap : CInt.wrapInt (ops.xfer (!w.pcm.isIn) frames w.user w.dev.dev).2.1 =
        (ops.xfer (!w.pcm.isIn) frames w.user w.dev.dev).2.1 := by
      unfold CInt.intMax at hframes
      exact CInt.wrapInt_of_fits (by omega) (by omega)
    rw [if_pos hret, hwrap]
    refine ⟨⟨?_, h.flags, h.config, huser⟩, .inr ⟨_, _, _, hret, rfl⟩⟩
    simp [hret, hbytes]
  · rw [if_neg hret]
    refine ⟨⟨?_, h.flags, h.config, huser⟩, .inl (show (-1 : Int) < 0 by decide)⟩
    simp [hret, hbytes, UserBuf.bytes_zero]

/-- A try of a read/write stream is one transfer. -/
theorem pcmTransferOnce_moves (hops : Transfers ops) (hrw : w₀.pcm.isMmap = false) {frames : UInt32}
    (hframes : frames.toNat ≤ CInt.intMax) (fuel : Nat) :
    Triple (Moves frameBytes w₀ 0) (pcmTransferOnce (hearing frameBytes ops) fuel frames) fun res w =>
      res.isSome ∧ Reported ops frameBytes w₀ frames res w := by
  refine Triple.get_bind fun t => Triple.ite (fun hm => ?_) fun _ => ?_
  · rintro _ ⟨h, rfl⟩
    rw [h.isMmap, hrw] at hm
    cases hm
  · have hrun : Triple (fun w => Moves frameBytes w₀ 0 w ∧ w = t)
      (pcmRwTransfer (hearing frameBytes ops) frames) fun res =>
        Reported ops frameBytes w₀ frames (some res) := (pcmRwTransfer_moves hops hframes).pre fun _ hw => hw.1
    exact Triple.bind hrun fun n => Triple.pure _ fun w hw => ⟨rfl, hw⟩

/-- Tries that fail move nothing, and neither do the restarts between them. -/
theorem pcmTransferAgain_moves (hops : Transfers ops) (hrw : w₀.pcm.isMmap = false) {frames : UInt32}
    (hframes : frames.toNat ≤ CInt.intMax) : ∀ fuel,
    Triple (Moves frameBytes w₀ 0) (pcmTransferAgain (hearing frameBytes ops) fuel frames)
      (Reported ops frameBytes w₀ frames)
  | 0 => Triple.pure _ fun _ h => h.reported (by decide)
  | fuel + 1 => by
    have hwait := moves_wait frameBytes ops w₀ 0
    have hxruns : ∀ w, Moves frameBytes w₀ 0 w →
        Moves frameBytes w₀ 0 (w.setPcm { w.pcm with xruns := CInt.wrapInt (w.pcm.xruns + 1) }) :=
      fun _ h => ⟨h.bytes, h.flags, h.config, h.user⟩
    refine Triple.bind (pcmTransferOnce_moves hops hrw hframes fuel) fun res => ?_
    cases res with
    | none => exact Triple.pure _ fun _ h => absurd h.1 Bool.false_ne_true
    | some n =>
      refine Triple.ite (fun hneg => ?_) fun _ => Triple.pure _ fun _ h => h.2
      -- a failed try has moved nothing
      have hzero : n.toNat = 0 := Int.toNat_of_nonpos hneg.le
      refine Triple.pre (P := Moves frameBytes w₀ 0) ?_ fun w h => hzero ▸ h.2.moves
      refine Triple.bind KeepsPcm.get fun _ => Triple.ite (fun _ => ?_) fun _ => ?_
      · refine Triple.bind (hwait.pcmRestarts (ioctl_moves _ _) hxruns) fun _ => Triple.ite (fun _ => ?_) fun _ => ?_
        · exact pcmTransferAgain_moves hops hrw hframes fuel
        · exact Triple.pure _ fun _ h => h.reported (by decide)
      · refine Triple.bind KeepsPcm.get fun _ => Triple.ite (fun _ => ?_) fun _ => ?_
        · exact Triple.pure _ fun _ h => h.reported (by decide)
        · rintro w h
          exact (hwait.oops _ _ w h).reported (show (-1 : Int) < 0 by decide)

/-- A call moves the frames that it reports, and none where it fails. -/
theorem pcmGenericTransfer_moves (hops : Transfers ops) (hrw : w₀.pcm.isMmap = false) (fuel : Nat) (frames : UInt32) :
    Triple (Moves frameBytes w₀ 0) (pcmGenericTransfer (hearing frameBytes ops) fuel frames)
      (Reported ops frameBytes w₀ frames) := by
  have hwait := moves_wait frameBytes ops w₀ 0
  refine Triple.ite (fun _ => Triple.pure _ fun _ h => h.reported (by decide)) fun hmax =>
    Triple.bind hwait.pcmState fun _ => ?_
  have hagain : Triple (Moves frameBytes w₀ 0) (pcmTransferAgain (hearing frameBytes ops) fuel frames)
      (Reported ops frameBytes w₀ frames) := pcmTransferAgain_moves hops hrw (not_lt.1 hmax) fuel
  refine Triple.ite (fun _ => Triple.bind (hwait.pcmPrepare (ioctl_moves _ _)) fun _ => ?_) fun _ => hagain
  exact Triple.ite (fun _ => Triple.pure _ fun _ h => h.reported (by decide)) fun _ => hagain

theorem pcmWritei_moves (hops : Transfers ops) (hrw : w₀.pcm.isMmap = false) (fuel : Nat) (frames : UInt32) :
    Triple (Moves frameBytes w₀ 0) (pcmWritei (hearing frameBytes ops) fuel frames)
      (Reported ops frameBytes w₀ frames) :=
  Triple.bind KeepsPcm.get fun _ => Triple.ite (fun _ => Triple.pure _ fun _ h => h.reported (by decide)) fun _ =>
    pcmGenericTransfer_moves hops hrw fuel frames

theorem pcmReadi_moves (hops : Transfers ops) (hrw : w₀.pcm.isMmap = false) (fuel : Nat) (frames : UInt32) :
    Triple (Moves frameBytes w₀ 0) (pcmReadi (hearing frameBytes ops) fuel frames)
      (Reported ops frameBytes w₀ frames) :=
  Triple.bind KeepsPcm.get fun _ => Triple.ite (fun _ => pcmGenericTransfer_moves hops hrw fuel frames) fun _ =>
    Triple.pure _ fun _ h => h.reported (by decide)

/-! ## Whole calls -/

/-- On a read/write stream a call moves just the frames that it reports, by one transfer; where it fails, none. -/
theorem transfers_delivered (hops : Transfers ops) (hrw : w.pcm.isMmap = false) (fuel : Nat) (frames : UInt32) :
    Reported ops frameBytes w frames (exec (pcmWritei (hearing frameBytes ops) fuel frames) w).1
        (exec (pcmWritei (hearing frameBytes ops) fuel frames) w).2 ∧
      Reported ops frameBytes w frames (exec (pcmReadi (hearing frameBytes ops) fuel frames) w).1
        (exec (pcmReadi (hearing frameBytes ops) fuel frames) w).2 :=
  ⟨pcmWritei_moves hops hrw fuel frames w (.refl frameBytes w),
    pcmReadi_moves hops hrw fuel frames w (.refl frameBytes w)⟩

/-- What a call leaves that is to transfer `frames` and reports no number: it succeeds where all of them were moved. -/
def ReportedWhole (frameBytes : Nat) (w₀ : World (Heard σ)) (frames : UInt32) (res : Option Int) (w : World (Heard σ)) :
    Prop :=
  ∃ n, Moves frameBytes w₀ n w ∧
    (res = some 0 ∧ n = frames.toNat ∨ res = some (-eIo) ∧ n < frames.toNat ∨ res.getD (-1) < 0 ∧ n = 0)

theorem transferBytes_moves (hops : Transfers ops) {transfer : UInt32 → PcmM (Heard σ) (Option Int)} {count : UInt32}
    (htransfer : ∀ frames, Triple (Moves frameBytes w₀ 0) (transfer frames) (Reported ops frameBytes w₀ frames)) :
    Triple (Moves frameBytes w₀ 0) (transferBytes transfer count)
      (ReportedWhole frameBytes w₀ (pcmBytesToFrames w₀.pcm count)) := by
  refine Triple.get_bind fun t => ?_
  rintro w ⟨h, rfl⟩
  have hframes : pcmBytesToFrames w.pcm count = pcmBytesToFrames w₀.pcm count := by
    unfold pcmBytesToFrames
    rw [h.config]
  rw [hframes]
  generalize pcmBytesToFrames w₀.pcm count = frames
  refine Triple.bind (htransfer frames) (fun res => ?_) w h
  cases res with
  | none => exact Triple.pure _ fun w hw => ⟨0, hw.moves, .inr (.inr ⟨show (-1 : Int) < 0 by decide, rfl⟩)⟩
  | some n =>
    refine Triple.ite (fun hneg => Triple.pure _ fun w hw => ?_) fun hpos => Triple.pure _ fun w hw => ?_
    · exact ⟨n.toNat, hw.moves, .inr (.inr ⟨hneg, Int.toNat_of_nonpos hneg.le⟩)⟩
    · have hle : n ≤ frames.toNat := hw.le hops
      have hall : CInt.toUInt n = frames ↔ n.toNat = frames.toNat := by
        have hlt := frames.toNat_lt
        rw [← UInt32.toNat_inj, CInt.toNat_toUInt]
        omega
      refine ⟨n.toNat, hw.moves, ?_⟩
      split
      · exact .inl ⟨rfl, hall.1 ‹_›⟩
      · have hne := mt hall.2 ‹_›
        exact .inr (.inl ⟨rfl, by omega⟩)

end

/-- A device that takes up to two frames at a time. -/
def halfTaking : PcmOps Unit :=
  { refiningOps id with xfer := fun _ n user d => (⟨0, none⟩, min n.toNat 2, user, d) }

theorem halfTaking_transfers : Transfers halfTaking where
  moved _ n _ _ _ := ⟨by simp [halfTaking], by simp [halfTaking]⟩
  kept _ _ _ := rfl

/-- A playback handle on it, and three frames to write. -/
def halfTakingWorld : World (Heard Unit) :=
  { pcm := openedPcm stereoConfig, dev := ⟨(), []⟩, user := ⟨12, fun i => i.toUInt8⟩ }

theorem transfers_delivered_half :
    Reported halfTaking 4 halfTakingWorld 3 (exec (pcmWritei (hearing 4 halfTaking) 1 3) halfTakingWorld).1
        (exec (pcmWritei (hearing 4 halfTaking) 1 3) halfTakingWorld).2 ∧
      Reported halfTaking 4 halfTakingWorld 3 (exec (pcmReadi (hearing 4 halfTaking) 1 3) halfTakingWorld).1
        (exec (pcmReadi (hearing 4 halfTaking) 1 3) halfTakingWorld).2 :=
  transfers_delivered halfTaking_transfers rfl 1 3

end Tinyalsa
