/-
The kernel's side of a stream: what each call of a backend does to the control block shared with the
library, and one kernel that behaves so.
-/
import Tinyalsa.Pcm.Transfer

namespace Tinyalsa

/-! ## The control block -/

/-- What an accepted `SYNC_PTR` leaves in both copies: each field goes to the kernel, or with its flag
comes from there. -/
def exchanged (flags : SyncFlags) (lib kernel : SndPcmMmapControl) : SndPcmMmapControl where
  applPtr := if flags.appl then kernel.applPtr else lib.applPtr
  availMin := if flags.availMin then kernel.availMin else lib.availMin

/-- How the calls of a backend treat the kernel's control block. -/
structure ControlLaws {σ : Type} (ops : PcmOps σ) : Prop where
  syncPtr : ∀ s d, 0 ≤ (ops.syncPtr s d).1.ret →
    ops.control (ops.syncPtr s d).2.2 = exchanged s.flags s.control (ops.control d) ∧
      (ops.syncPtr s d).2.1.control = ops.control (ops.syncPtr s d).2.2
  syncPtrFails : ∀ s d, (ops.syncPtr s d).1.ret < 0 →
    ops.control (ops.syncPtr s d).2.2 = ops.control d ∧ (ops.syncPtr s d).2.1 = s
  cmd : ∀ c d, c ≠ .prepare → ops.control (ops.cmd c d).2 = ops.control d
  prepare : ∀ d, (ops.control (ops.cmd .prepare d).2).availMin = (ops.control d).availMin
  prepareFails : ∀ d, (ops.cmd .prepare d).1.ret < 0 → ops.control (ops.cmd .prepare d).2 = ops.control d
  swParams : ∀ p d, (ops.swParams p d).1.ret = 0 →
    ops.control (ops.swParams p d).2.2 = { ops.control d with availMin := p.availMin }
  swParamsFails : ∀ p d, (ops.swParams p d).1.ret ≠ 0 → ops.control (ops.swParams p d).2.2 = ops.control d
  hwParams : ∀ p d, ops.control (ops.hwParams p d).2.2 = ops.control d
  xfer : ∀ b n u d, (ops.control (ops.xfer b n u d).2.2.2).availMin = (ops.control d).availMin
  poll : ∀ t d, ops.control (ops.poll t d).2.2 = ops.control d
  mmap : ∀ o n d, ops.control (ops.mmap o n d).2.2 = ops.control d
  munmap : ∀ a n d, ops.control (ops.munmap a n d).2 = ops.control d
  run : ∀ d, ops.control (ops.run d) = ops.control d
  setBuffer : ∀ b d, ops.control (ops.setBuffer b d) = ops.control d
  setControl : ∀ c d, ops.control (ops.setControl c d) = c

/-! ## The stream's state -/

/-- A stream that is past `SETUP` and not on its way back there. -/
def PcmState.Active (s : PcmState) : Prop := s ≠ .opened ∧ s ≠ .setup ∧ s ≠ .draining

instance (s : PcmState) : Decidable s.Active := inferInstanceAs (Decidable (s ≠ .opened ∧ s ≠ .setup ∧ s ≠ .draining))

/-- How the calls of a transfer treat the stream's state: `SYNC_PTR` reports it, and none of them takes an
active stream back to `SETUP`. -/
structure StateLaws {σ : Type} (ops : PcmOps σ) : Prop where
  reported : ∀ s d, 0 ≤ (ops.syncPtr s d).1.ret →
    (ops.syncPtr s d).2.1.status.state = (ops.status (ops.syncPtr s d).2.2).state
  syncPtr : ∀ s d, (ops.status d).state.Active → (ops.status (ops.syncPtr s d).2.2).state.Active
  hwsync : ∀ d, (ops.status d).state.Active → (ops.status (ops.cmd .hwsync d).2).state.Active
  start : ∀ d, (ops.status d).state.Active → (ops.status (ops.cmd .start d).2).state.Active
  poll : ∀ t d, (ops.status d).state.Active → (ops.status (ops.poll t d).2.2).state.Active
  run : ∀ d, (ops.status d).state.Active → (ops.status (ops.run d)).state.Active
  setControl : ∀ c d, (ops.status d).state.Active → (ops.status (ops.setControl c d)).state.Active
  setBuffer : ∀ b d, (ops.status d).state.Active → (ops.status (ops.setBuffer b d)).state.Active

/-! ## A kernel -/

/-- A stream of the kernel. `trail` is what the hardware has played or recorded (ghost). `pages` says
whether status and control can be mapped, `answers` which of the next `SYNC_PTR`s are refused, and with
which `errno`; those after them are accepted. -/
structure Kernel where
  status : SndPcmMmapStatus := {}
  control : SndPcmMmapControl := {}
  buffer : Nat → UInt8 := fun _ => 0
  trail : List UInt8 := []
  pages : Bool := false
  answers : List (Option Int) := []

namespace Kernel

/-- `SNDRV_PCM_IOCTL_SYNC_PTR`. -/
def syncPtr (s : SndPcmSyncPtr) (k : Kernel) : Reply × SndPcmSyncPtr × Kernel :=
  match k.answers with
  | some errno :: answers => (⟨-1, some errno⟩, s, { k with answers })
  | _ =>
    let control := exchanged s.flags s.control k.control
    (⟨0, none⟩, { s with status := k.status, control }, { k with control, answers := k.answers.tail })

/-- The ioctls without an argument. -/
def cmd (c : PcmCmd) (k : Kernel) : Reply × Kernel :=
  match c with
  | .hwsync => (⟨0, none⟩, k)
  | .prepare =>
    (⟨0, none⟩, { k with
      status := { k.status with state := .prepared, hwPtr := 0 }
      control := { k.control with applPtr := 0 } })
  | .start => (⟨0, none⟩, { k with status := { k.status with state := .running } })
  | .drain => (⟨0, none⟩, { k with status := { k.status with state := .draining } })
  | .drop => (⟨0, none⟩, { k with status := { k.status with state := .setup } })
  | .unlink => (⟨0, none⟩, k)

/-- The backend of this kernel. It answers every poll at once. -/
def ops : PcmOps Kernel where
  hwParams p k := (⟨0, none⟩, p, { k with status := { k.status with state := .setup } })
  swParams p k := (⟨0, none⟩, p, { k with control := { k.control with availMin := p.availMin } })
  syncPtr := syncPtr
  cmd := cmd
  xfer _ n u k := (⟨0, none⟩, n.toNat, u,
    { k with control := { k.control with applPtr := k.control.applPtr + n.toUInt64 } })
  link _ k := (⟨0, none⟩, k)
  delay _ k := (⟨0, none⟩, 0, k)
  info k := (⟨0, none⟩, 0, k)
  ttstamp t k := (⟨0, none⟩, t, k)
  poll _ k := (⟨1, none⟩, { pollIn := true, pollOut := true }, k)
  mmap offset _ k := (if offset = .data || k.pages then .addr 4096 else .mapFailed, none, k)
  munmap _ _ k := (⟨0, none⟩, k)
  run k := k
  status k := k.status
  control k := k.control
  setControl control k := { k with control }
  buffer k := k.buffer
  setBuffer buffer k := { k with buffer }

theorem controlLaws : ControlLaws ops where
  syncPtr s k hret := by
    change 0 ≤ (syncPtr s k).1.ret at hret
    change (syncPtr s k).2.2.control = _ ∧ (syncPtr s k).2.1.control = (syncPtr s k).2.2.control
    unfold syncPtr at hret ⊢
    split at hret
    · have : (0 : Int) ≤ -1 := hret
      omega
    · exact ⟨rfl, rfl⟩
  syncPtrFails s k hret := by
    change (syncPtr s k).1.ret < 0 at hret
    change (syncPtr s k).2.2.control = k.control ∧ (syncPtr s k).2.1 = s
    unfold syncPtr at hret ⊢
    split at hret
    · exact ⟨rfl, rfl⟩
    · have : (0 : Int) < 0 := hret
      omega
  cmd c k hc := by
    cases c with
    | prepare => exact absurd rfl hc
    | _ => rfl
  prepare _ := rfl
  prepareFails k hret := by
    have : (0 : Int) < 0 := hret
    omega
  swParams _ _ _ := rfl
  swParamsFails _ _ hret := absurd rfl hret
  hwParams _ _ := rfl
  xfer _ _ _ _ := rfl
  poll _ _ := rfl
  mmap _ _ _ := rfl
  munmap _ _ _ := rfl
  run _ := rfl
  setBuffer _ _ := rfl
  setControl _ _ := rfl

theorem stateLaws : StateLaws ops where
  reported s k hret := by
    change 0 ≤ (syncPtr s k).1.ret at hret
    change (syncPtr s k).2.1.status.state = (syncPtr s k).2.2.status.state
    unfold syncPtr at hret ⊢
    split at hret
    · have : (0 : Int) ≤ -1 := hret
      omega
    · rfl
  syncPtr s k h := by
    change (syncPtr s k).2.2.status.state.Active
    unfold syncPtr
    split
    · exact h
    · exact h
  hwsync _ h := h
  start _ _ := show PcmState.Active .running by decide
  poll _ _ h := h
  run _ h := h
  setControl _ _ h := h
  setBuffer _ _ h := h

/-- The backend of a kernel that refuses nothing. -/
def willing : PcmOps Kernel := { ops with syncPtr := fun s k => syncPtr s { k with answers := [] } }

theorem willing_controlLaws : ControlLaws willing :=
  { controlLaws with
    syncPtr := fun _ _ _ => ⟨rfl, rfl⟩
    syncPtrFails := fun _ _ hret => absurd hret (lt_irrefl (0 : Int)) }

end Kernel

end Tinyalsa
