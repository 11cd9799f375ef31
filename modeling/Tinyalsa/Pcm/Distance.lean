/-
How far the application is behind the hardware, or its ring ahead of it. A stream that is not stopped by
its threshold lets the hardware run on by any distance; `pcm_mmap_avail` answers it in an `int`.
-/
import Tinyalsa.Pcm.Ring

namespace Tinyalsa

open Hoare

/-! ## The distance -/

/-- The frames between the pointers, around a boundary that a `long` can pass by a whole ring. -/
structure BoundarySized (p : Pcm) : Prop where
  nonempty : 0 < p.bufferSize.toNat
  twice : 2 * p.bufferSize.toNat ≤ p.boundary.toNat
  fits : p.boundary.toNat + p.bufferSize.toNat ≤ CInt.longMax

/-- `(hw_ptr + buffer_size - appl_ptr) mod boundary` for playback, `(hw_ptr - appl_ptr) mod boundary` for
capture. -/
def Pcm.distance (p : Pcm) (hwPtr applPtr : UInt64) : Nat :=
  ((hwPtr.toNat + p.lead - applPtr.toNat : Int) % p.boundary.toNat).toNat

/-- The frames from the application's slot to the end of the ring. -/
def Pcm.untilEnd (p : Pcm) (applPtr : UInt64) : Nat := p.bufferSize.toNat - applPtr.toNat % p.bufferSize.toNat

section

variable {p : Pcm} {hwPtr applPtr : UInt64}

theorem Pcm.Same.distance {q : Pcm} (h : p.Same q) (hwPtr applPtr : UInt64) :
    q.distance hwPtr applPtr = p.distance hwPtr applPtr := by
  obtain ⟨s, e, rfl⟩ := h
  rfl

/-- A number between minus one and two moduli, brought back by one of them. -/
theorem emod_of_window {x b : Int} (hlo : -b ≤ x) (hhi : x < 2 * b) :
    x % b = if x < 0 then x + b else if b ≤ x then x - b else x := by
  split
  · rw [← Int.add_emod_right]
    exact Int.emod_eq_of_lt (by omega) (by omega)
  split
  · rw [← Int.sub_emod_right]
    exact Int.emod_eq_of_lt (by omega) (by omega)
  · exact Int.emod_eq_of_lt (by omega) (by omega)

theorem Pcm.distance_lt (hpos : 0 < p.boundary.toNat) (hwPtr applPtr : UInt64) :
    (p.distance hwPtr applPtr : Int) = (hwPtr.toNat + p.lead - applPtr.toNat : Int) % p.boundary.toNat ∧
      p.distance hwPtr applPtr < p.boundary.toNat := by
  have hb : (0 : Int) < p.boundary.toNat := by omega
  have hnonneg := Int.emod_nonneg (hwPtr.toNat + p.lead - applPtr.toNat : Int) hb.ne'
  have hlt := Int.emod_lt_of_pos (hwPtr.toNat + p.lead - applPtr.toNat : Int) hb
  have heq : (p.distance hwPtr applPtr : Int) = (hwPtr.toNat + p.lead - applPtr.toNat : Int) % p.boundary.toNat :=
    Int.toNat_of_nonneg hnonneg
  exact ⟨heq, by omega⟩

/-- `pcm_mmap_playback_avail` and `pcm_mmap_capture_avail` compute the distance. -/
theorem pcmMmapAvail_distance (hp : BoundarySized p) (hhw : hwPtr < p.boundary) (happl : applPtr < p.boundary) :
    (if p.isIn then pcmMmapCaptureAvail p hwPtr applPtr else pcmMmapPlaybackAvail p hwPtr applPtr) =
      p.distance hwPtr applPtr := by
  have hx := UInt64.lt_iff_toNat_lt.1 hhw
  have hy := UInt64.lt_iff_toNat_lt.1 happl
  have htwice := hp.twice
  have hfits := hp.fits
  have hne := hp.nonempty
  unfold CInt.longMax at hfits
  rw [(Pcm.distance_lt (by omega) hwPtr applPtr).1]
  unfold Pcm.lead
  split
  · rw [Nat.cast_zero, add_zero, emod_of_window (by omega) (by omega)]
    unfold pcmMmapCaptureAvail
    rw [CInt.wrapLong_of_fits (by omega) (by omega)]
    dsimp only
    split
    · rw [CInt.wrapLong_of_fits (by omega) (by omega)]
    · rw [if_neg (by omega)]
  · rw [emod_of_window (by omega) (by omega)]
    unfold pcmMmapPlaybackAvail
    rw [CInt.wrapLong_of_fits (by omega) (by omega)]
    dsimp only
    split
    · rw [CInt.wrapLong_of_fits (by omega) (by omega)]
    split
    · rw [CInt.wrapLong_of_fits (by omega) (by omega)]
    · rfl

end

/-! ## What the library answers -/

section

variable {σ : Type} (ops : PcmOps σ)

/-- The hardware and the application pointer that `pcm_mmap_avail` reads. -/
def availPointers (w : World σ) : UInt64 × UInt64 :=
  let w := (exec (pcmSyncPtr ops { hwsync := true }) w).2
  let (status, w) := exec (mmapStatus ops) w
  (status.hwPtr, (exec (mmapControl ops) w).1.applPtr)

end

/-- On every device, the functions answer for these pointers as if nothing had to fit an `int`. -/
structure AvailExact (p : Pcm) (hwPtr applPtr : UInt64) : Prop where
  computes : (if p.isIn then pcmMmapCaptureAvail p hwPtr applPtr else pcmMmapPlaybackAvail p hwPtr applPtr) =
    p.distance hwPtr applPtr
  avail : ∀ (σ : Type) (ops : PcmOps σ) (w : World σ), p.Same w.pcm → availPointers ops w = (hwPtr, applPtr) →
    0 ≤ (exec (pcmMmapAvail ops) w).1 ∧ ((exec (pcmMmapAvail ops) w).1 = 0 ↔ p.distance hwPtr applPtr = 0)
  grants : ∀ (σ : Type) (ops : PcmOps σ) (w : World σ) (n : UInt32), p.Same w.pcm →
    (exec (mmapControl ops) w).1.applPtr = applPtr → availPointers ops (exec (mmapControl ops) w).2 = (hwPtr, applPtr) →
    (exec (pcmMmapBegin ops n) w).1.2.toNat =
      min n.toNat (min (p.distance hwPtr applPtr) (min p.bufferSize.toNat (p.untilEnd applPtr)))

section

variable {σ : Type} {ops : PcmOps σ} {p : Pcm} {hwPtr applPtr : UInt64} {w : World σ}

theorem same_invariant (ops : PcmOps σ) (p : Pcm) : SyncInvariant ops fun w => p.Same w.pcm where
  error w e h := h.trans ⟨w.pcm.syncPtr, e, rfl⟩
  run _ h := h
  hwsync _ h := h
  sync w _ _ _ h := h.trans ⟨_, w.pcm.error, rfl⟩

/-- `pcm_mmap_avail` returns what it computes from the pointers it reads, as an `int`. -/
theorem pcmMmapAvail_ret (h : p.Same w.pcm) (hptr : availPointers ops w = (hwPtr, applPtr)) :
    (exec (pcmMmapAvail ops) w).1 =
      CInt.wrapInt (if p.isIn then pcmMmapCaptureAvail p hwPtr applPtr else pcmMmapPlaybackAvail p hwPtr applPtr) := by
  have hsync := (same_invariant ops p).pcmSyncPtr { hwsync := true } w h
  have hend := (same_invariant ops p).mmapControl _ ((same_invariant ops p).mmapStatus _ hsync)
  obtain ⟨hcapture, hplayback, hin⟩ := hend.pcmMmapAvail hwPtr applPtr
  have hhw : (exec (mmapStatus ops) (exec (pcmSyncPtr ops { hwsync := true }) w).2).1.hwPtr = hwPtr :=
    congrArg Prod.fst hptr
  have happl : (exec (mmapControl ops) (exec (mmapStatus ops)
    (exec (pcmSyncPtr ops { hwsync := true }) w).2).2).1.applPtr =
    applPtr := congrArg Prod.snd hptr
  simp only [pcmMmapAvail, pcmAvailNow, exec_bind, exec_get, exec_ite, exec_pure, hin]
  rw [hhw, happl, hcapture, hplayback]
  split
  · rfl
  · rfl

theorem pcmMmapBegin_ret (hp : BoundarySized p) (h : p.Same w.pcm)
    (happl : (exec (mmapControl ops) w).1.applPtr = applPtr) (n : UInt32) :
    (exec (pcmMmapBegin ops n) w).1.2.toNat =
      min (min n.toNat
        (min (CInt.toUInt (exec (pcmMmapAvail ops) (exec (mmapControl ops) w).2).1).toNat p.bufferSize.toNat))
        (p.untilEnd applPtr) := by
  have hctl := (same_invariant ops p).mmapControl w h
  have hsize : (exec (mmapControl ops) w).2.pcm.bufferSize = p.bufferSize := by
    obtain ⟨s, e, hpcm⟩ := hctl
    rw [hpcm]
  have hslot := Nat.mod_lt applPtr.toNat hp.nonempty
  have hlt := p.bufferSize.toNat_lt
  have hoff : (applPtr % p.bufferSize.toUInt64).toUInt32.toNat = applPtr.toNat % p.bufferSize.toNat := by
    rw [UInt64.toNat_toUInt32, UInt64.toNat_mod, UInt32.toNat_toUInt64, Nat.mod_eq_of_lt (by omega)]
  simp only [pcmMmapBegin, exec_bind, exec_get, exec_pure, hsize, happl]
  rw [toNat_grantFrames (by omega), hoff]
  rfl

end

/-! ## Where an `int` is enough -/

/-- A device that shows these pointers, through mapped pages. -/
def showingOps (hwPtr applPtr : UInt64) : PcmOps Kernel :=
  { Kernel.ops with status := fun k => { k.status with hwPtr }, control := fun k => { k.control with applPtr } }

theorem showingOps_pointers (hwPtr applPtr : UInt64) (w : World Kernel) (h : w.pcm.syncPtr = none) :
    availPointers (showingOps hwPtr applPtr) w = (hwPtr, applPtr) ∧
      (exec (mmapControl (showingOps hwPtr applPtr)) w).1.applPtr = applPtr ∧
      (exec (mmapControl (showingOps hwPtr applPtr)) w).2 = w := by
  have hret : ((showingOps hwPtr applPtr).cmd .hwsync w.dev).1.ret ≠ -1 := show (0 : Int) ≠ -1 by decide
  simp only [availPointers, pcmSyncPtr, mmapStatus, mmapControl, exec_bind, exec_get, h, if_true, exec_ioctl,
    if_neg hret, exec_pure, exec_modify, World.push_pcm, World.answered_pcm, World.setDev_pcm]
  exact ⟨rfl, rfl, rfl⟩

section

variable {p : Pcm} {hwPtr applPtr : UInt64} (hp : BoundarySized p) (hhw : hwPtr < p.boundary)
    (happl : applPtr < p.boundary)

include hp hhw happl

theorem AvailExact.fits (h : AvailExact p hwPtr applPtr) :
    p.distance hwPtr applPtr < 2 ^ 31 ∨ 2 ^ 32 ≤ p.distance hwPtr applPtr ∧
      p.untilEnd applPtr ≤ p.distance hwPtr applPtr % 2 ^ 32 ∧ p.distance hwPtr applPtr % 2 ^ 32 < 2 ^ 31 := by
  have hcomputes := pcmMmapAvail_distance hp hhw happl
  have hend : p.untilEnd applPtr ≤ p.bufferSize.toNat := Nat.sub_le _ _
  have hlt := p.bufferSize.toNat_lt
  let w : World Kernel := { pcm := { p with syncPtr := none }, dev := {}, user := ⟨0, fun _ => 0⟩ }
  have hsame : p.Same w.pcm := ⟨none, p.error, rfl⟩
  obtain ⟨hptr, hctl, hkeep⟩ := showingOps_pointers hwPtr applPtr w rfl
  obtain ⟨hpos, -⟩ := h.avail Kernel (showingOps hwPtr applPtr) w hsame hptr
  have hgrant := h.grants Kernel (showingOps hwPtr applPtr) w p.bufferSize hsame hctl (by rw [hkeep]; exact hptr)
  rw [pcmMmapBegin_ret hp hsame hctl, hkeep, pcmMmapAvail_ret hsame hptr, hcomputes,
    CInt.toNat_toUInt_wrapInt_mod] at hgrant
  rw [pcmMmapAvail_ret hsame hptr, hcomputes, CInt.wrapInt_nonneg_iff] at hpos
  by_cases hfar : p.distance hwPtr applPtr < 2 ^ 32
  · rw [Nat.mod_eq_of_lt hfar] at hpos
    exact .inl hpos
  · exact .inr ⟨not_lt.1 hfar, by omega, hpos⟩

/-- The functions answer for two pointers as if nothing had to fit an `int` if and only if their distance
does, or exceeds whole turns of an `unsigned int` by no less than could be granted and fits then. -/
theorem availExact_iff : AvailExact p hwPtr applPtr ↔
    p.distance hwPtr applPtr < 2 ^ 31 ∨ 2 ^ 32 ≤ p.distance hwPtr applPtr ∧
      p.untilEnd applPtr ≤ p.distance hwPtr applPtr % 2 ^ 32 ∧ p.distance hwPtr applPtr % 2 ^ 32 < 2 ^ 31 := by
  have hcomputes := pcmMmapAvail_distance hp hhw happl
  have hslot := Nat.mod_lt applPtr.toNat hp.nonempty
  have hend : 0 < p.untilEnd applPtr := by
    unfold Pcm.untilEnd
    omega
  refine ⟨fun h => h.fits hp hhw happl, fun h => ?_⟩
  refine ⟨hcomputes, fun σ ops w hsame hptr => ?_, fun σ ops w n hsame hctl hptr => ?_⟩
  · rw [pcmMmapAvail_ret hsame hptr, hcomputes, CInt.wrapInt_nonneg_iff, CInt.wrapInt_eq_zero_iff]
    rcases h with hnear | ⟨hfar, hend', hfit⟩
    · rw [Nat.mod_eq_of_lt (hnear.trans (by decide))]
      exact ⟨hnear, .rfl⟩
    · exact ⟨hfit, by omega⟩
  · rw [pcmMmapBegin_ret hp hsame hctl, pcmMmapAvail_ret ((same_invariant ops p).mmapControl w hsame) hptr, hcomputes,
      CInt.toNat_toUInt_wrapInt_mod]
    rcases h with hnear | ⟨hfar, hend', hfit⟩
    · rw [Nat.mod_eq_of_lt (hnear.trans (by decide))]
      omega
    · have hle : p.untilEnd applPtr ≤ p.bufferSize.toNat := Nat.sub_le _ _
      omega

end

/-- A capture stream of four frames, with the boundary that the kernel gives it. -/
def freeRing : Pcm := { quadRing with flags := pcmMmap ||| pcmIn, boundary := 0x4000000000000000 }

theorem freeRing_sized : BoundarySized freeRing := ⟨by decide, by decide, by decide⟩

/-- Five frames are available, one more than the ring holds. -/
theorem availExact_overrun : AvailExact freeRing 7 2 :=
  (availExact_iff freeRing_sized (by decide) (by decide)).2 (.inl (by decide))

/-- The stream on a device that shows two pointers. -/
def freeWorld : World Kernel := { pcm := { freeRing with syncPtr := none }, dev := {}, user := ⟨0, fun _ => 0⟩ }

/-- After `2 ^ 32` frames that nobody read, nothing seems available. -/
theorem not_availExact_turn : (0x100000000 : UInt64) < freeRing.boundary ∧ freeRing.distance 0x100000000 0 = 2 ^ 32 ∧
    (exec (pcmMmapAvail (showingOps 0x100000000 0)) freeWorld).1 = 0 ∧ ¬ AvailExact freeRing 0x100000000 0 := by
  refine ⟨by decide, by decide +kernel, by decide +kernel, fun h => ?_⟩
  exact absurd (h.fits freeRing_sized (by decide) (by decide)) (by decide +kernel)

end Tinyalsa
