/-
The byte offsets of a mapped transfer. `pcm_areas_copy` counts bytes in an `int`; the frames a transfer
is offered are limited by `INT_MAX` themselves, not their bytes.
-/
import Tinyalsa.Pcm.Copies
import Tinyalsa.Pcm.Fifo

namespace Tinyalsa

open Hoare KeepsPcm

/-! ## Exact copies -/

/-- The three byte counts of a copy are the exact products, and its ranges lie in the ring and in the
caller's frames. -/
structure CopyExact (p : Pcm) (frames slot source n : UInt32) : Prop where
  size : CInt.ofUInt (pcmFramesToBytes p n) = ((n.toNat * p.frameBytes : Nat) : Int)
  pcmOffset : CInt.ofUInt (pcmFramesToBytes p slot) = ((slot.toNat * p.frameBytes : Nat) : Int)
  srcOffset : CInt.ofUInt (pcmFramesToBytes p source) = ((source.toNat * p.frameBytes : Nat) : Int)
  ring : InBounds p.size (CInt.ofUInt (pcmFramesToBytes p slot)) (CInt.ofUInt (pcmFramesToBytes p n))
  caller : InBounds (frames.toNat * p.frameBytes) (CInt.ofUInt (pcmFramesToBytes p source))
    (CInt.ofUInt (pcmFramesToBytes p n))

/-- Whatever the device does, every copy of a transfer of `frames` over this ring is exact. -/
def CopiesExact (config : PcmConfig) (bufferSize frames : UInt32) : Prop :=
  ∀ (σ : Type) (ops : PcmOps σ) (fuel : Nat) (w : World σ), w.pcm.config = config → w.pcm.bufferSize = bufferSize →
    ∀ calls, (exec (pcmGenericTransfer ops fuel frames) w).2.trace = calls ++ w.trace →
      ∀ slot source n, .copy slot source n ∈ calls → CopyExact w.pcm frames slot source n

/-- A copy within its ring and the frames offered, the last of which starts where an `int` can count. -/
theorem copyExact_of_within {p : Pcm} {frames slot source n : UInt32} (hring : p.size ≤ CInt.intMax)
    (hlast : (frames.toNat - 1) * p.frameBytes ≤ CInt.intMax) (hsource : source.toNat < frames.toNat)
    (hfit : source.toNat + n.toNat ≤ frames.toNat) (hslot : slot.toNat + n.toNat ≤ p.bufferSize.toNat) :
    CopyExact p frames slot source n := by
  have hbytes := Nat.mul_le_mul_right p.frameBytes hslot
  have hsrc := Nat.mul_le_mul_right p.frameBytes (show source.toNat ≤ frames.toNat - 1 by omega)
  have hend := Nat.mul_le_mul_right p.frameBytes hfit
  rw [Nat.add_mul] at hbytes hend
  have hsize : n.toNat * p.frameBytes ≤ CInt.intMax := (Nat.le_add_left _ _).trans (hbytes.trans hring)
  have hoff : slot.toNat * p.frameBytes ≤ CInt.intMax := (Nat.le_add_right _ _).trans (hbytes.trans hring)
  have hn := (ofUInt_pcmFramesToBytes_iff p n).2 hsize
  have hs := (ofUInt_pcmFramesToBytes_iff p slot).2 hoff
  have hf := (ofUInt_pcmFramesToBytes_iff p source).2 (hsrc.trans hlast)
  refine ⟨hn, hs, hf, ?_, ?_⟩
  · rw [hs, hn]
    exact ⟨Int.natCast_nonneg _, Int.natCast_nonneg _, by exact_mod_cast hbytes⟩
  · rw [hf, hn]
    exact ⟨Int.natCast_nonneg _, Int.natCast_nonneg _, by exact_mod_cast hend⟩

/-! ## Every transfer -/

/-- The copies made since `t` lie in the ring of `p` and in the frames offered. -/
structure Within {σ : Type} (p : Pcm) (t : List PcmCall) (frames : Nat) (w : World σ) : Prop where
  bufferSize : w.pcm.bufferSize = p.bufferSize
  copies : ∃ calls, w.trace = calls ++ t ∧ CopiesWithin p.bufferSize.toNat frames calls

namespace Within

variable {σ : Type} {ops : PcmOps σ} {p : Pcm} {t : List PcmCall} {frames : Nat} {w w' : World σ}

theorem step (h : Within p t frames w) (hsize : w'.pcm.bufferSize = w.pcm.bufferSize)
    (ht : ∃ calls, w'.trace = calls ++ w.trace ∧ CopiesWithin p.bufferSize.toNat frames calls) :
    Within p t frames w' := by
  obtain ⟨calls, hw, hc⟩ := h.copies
  obtain ⟨calls', hw', hc'⟩ := ht
  exact ⟨hsize.trans h.bufferSize, calls' ++ calls, by rw [hw', hw, List.append_assoc], hc'.append hc⟩

theorem none (h : Within p t frames w) (hsize : w'.pcm.bufferSize = w.pcm.bufferSize) (ht : w'.trace = w.trace) :
    Within p t frames w' :=
  h.step hsize ⟨[], ht, fun _ _ _ hmem => absurd hmem List.not_mem_nil⟩

theorem one (h : Within p t frames w) (hsize : w'.pcm.bufferSize = w.pcm.bufferSize) {c : PcmCall}
    (hc : c.isCopy = false) (ht : w'.trace = c :: w.trace) : Within p t frames w' := by
  refine h.step hsize ⟨[c], ht, fun _ _ _ hmem => ?_⟩
  rw [← List.mem_singleton.1 hmem] at hc
  cases hc

theorem waitInvariant (ops : PcmOps σ) (p : Pcm) (t : List PcmCall) (frames : Nat) :
    WaitInvariant ops (Within p t frames) where
  error _ _ h := h.none rfl rfl
  run _ h := h.none rfl rfl
  hwsync _ h := h.one (c := .cmd .hwsync _) rfl rfl rfl
  sync _ _ flags _ h := h.one (c := .syncPtr flags _ _ _) rfl rfl rfl
  errno _ _ h := h.none rfl rfl
  poll _ _ h := h.one (c := .poll _) rfl rfl rfl
  start _ h := h.one (c := .cmd .start _) rfl rfl rfl

theorem pcmTransferOnce {frames : UInt32} (hmax : frames.toNat ≤ CInt.intMax) (fuel : Nat) :
    KeepsPcm (Within p t frames.toNat) (pcmTransferOnce ops fuel frames) := by
  intro w h
  simp only [Tinyalsa.pcmTransferOnce, exec_bind, exec_get, exec_ite]
  split
  · have hcopies : Triple (Copying w.pcm w.trace frames.toNat 0) (pcmMmapTransfer ops fuel frames) _ :=
      Copying.pcmMmapTransfer fuel hmax
    obtain ⟨moved, -, hcopy, -⟩ := hcopies w (Copying.start _ w)
    obtain ⟨s, e, hpcm⟩ := hcopy.same
    obtain ⟨calls, ht, -, hwithin, -⟩ := hcopy.copies
    rw [h.bufferSize] at hwithin
    exact h.step (by rw [hpcm]) ⟨calls, ht, hwithin⟩
  · exact h.one (c := .xfer frames _ _) rfl rfl rfl

theorem pcmGenericTransfer {frames : UInt32} (hmax : frames.toNat ≤ CInt.intMax) (fuel : Nat) :
    KeepsPcm (Within p t frames.toNat) (pcmGenericTransfer ops fuel frames) :=
  (waitInvariant ops p t _).pcmGenericTransfer (fun _ h => h.one (c := .cmd .prepare _) rfl rfl rfl)
    (fun _ h => h.none rfl rfl) (pcmTransferOnce hmax) fuel

end Within

theorem copiesExact_of_le {config : PcmConfig} {bufferSize frames : UInt32} (hbuf : 0 < bufferSize.toNat)
    (hring : bufferSize.toNat * config.frameBytes ≤ CInt.intMax) (hmax : frames.toNat ≤ CInt.intMax)
    (hlast : (frames.toNat - 1) * config.frameBytes ≤ CInt.intMax) : CopiesExact config bufferSize frames := by
  rintro σ ops fuel w rfl rfl calls ht slot source n hmem
  have hstart : Within w.pcm w.trace frames.toNat w := ⟨rfl, [], rfl, fun _ _ _ h => absurd h List.not_mem_nil⟩
  obtain ⟨calls', ht', hwithin⟩ := (Within.pcmGenericTransfer hmax fuel w hstart).copies
  obtain rfl := List.append_cancel_right (ht.symm.trans ht')
  obtain ⟨⟨hsource, hfit⟩, hslot⟩ := hwithin slot source n hmem
  exact copyExact_of_within hring hlast hsource hfit (hslot hbuf).2

/-! ## A device that records one frame at a time -/

/-- A running capture stream whose hardware is always one frame ahead of the application. -/
def trickleOps : PcmOps Kernel :=
  { Kernel.ops with status := fun k => { state := .running, hwPtr := k.control.applPtr + 1 } }

theorem trickleOps_controlLaws : ControlLaws trickleOps := { Kernel.controlLaws with }

theorem applPtrOf_trickle {w : World Kernel} (h : w.pcm.syncPtr = none) :
    applPtrOf trickleOps w = w.dev.control.applPtr := by
  rw [applPtrOf, h]
  rfl

theorem trickleOps_setBuffer (b : Nat → UInt8) (k : Kernel) : (trickleOps.setBuffer b k).control = k.control := rfl

/-- The handle, with the boundary that the kernel gives it. -/
def tricklePcm (config : PcmConfig) (bufferSize : UInt32) : Pcm where
  fd := 3
  flags := pcmMmap ||| pcmIn
  bufferSize := bufferSize
  boundary := bufferSize.toUInt64 <<< 32
  config := config

theorem tricklePcm_boundary {config : PcmConfig} {bufferSize : UInt32} (h : bufferSize.toNat ≤ CInt.intMax) :
    (tricklePcm config bufferSize).boundary.toNat = bufferSize.toNat * 2 ^ 32 := by
  unfold CInt.intMax at h
  have hb : (tricklePcm config bufferSize).boundary.toNat = bufferSize.toNat <<< 32 % 2 ^ 64 := by
    simp [tricklePcm, UInt64.toNat_shiftLeft]
  rw [hb, Nat.shiftLeft_eq, Nat.mod_eq_of_lt (by omega)]

theorem tricklePcm_sized {config : PcmConfig} {bufferSize : UInt32} (hpos : 0 < bufferSize.toNat)
    (h : bufferSize.toNat ≤ CInt.intMax) : RingSized (tricklePcm config bufferSize) := by
  have hb : (tricklePcm config bufferSize).boundary.toNat = _ := tricklePcm_boundary h
  unfold CInt.intMax at h
  refine ⟨hpos, ?_, ?_, ?_⟩
  · rw [hb]
    exact Nat.dvd_mul_right _ _
  · rw [hb]
    change 2 * bufferSize.toNat ≤ bufferSize.toNat * 2 ^ 32
    omega
  · rw [hb]
    change bufferSize.toNat * 2 ^ 32 + bufferSize.toNat ≤ CInt.longMax
    unfold CInt.longMax
    omega

theorem tricklePcm_isIn (config : PcmConfig) (bufferSize : UInt32) : (tricklePcm config bufferSize).isIn = true :=
  show ((pcmMmap ||| pcmIn) &&& pcmIn != 0) = true by decide

theorem tricklePcm_isMmap (config : PcmConfig) (bufferSize : UInt32) : (tricklePcm config bufferSize).isMmap = true :=
  show ((pcmMmap ||| pcmIn) &&& pcmMmap != 0) = true by decide

/-- The application has read `k` frames. -/
structure Trickling (p : Pcm) (k : Nat) (w : World Kernel) : Prop where
  pcm : w.pcm = p
  applPtr : w.dev.control.applPtr.toNat = k

namespace Trickling

variable {config : PcmConfig} {bufferSize : UInt32} {k : Nat} {w : World Kernel}

theorem pcmSyncPtr (flags : SyncFlags) :
    Triple (Trickling (tricklePcm config bufferSize) k) (pcmSyncPtr trickleOps flags)
    fun r w => Trickling (tricklePcm config bufferSize) k w ∧ r = 0 := by
  rintro w ⟨hpcm, happl⟩
  have hnone : w.pcm.syncPtr = none := by rw [hpcm]; rfl
  have hret : (trickleOps.cmd .hwsync w.dev).1.ret ≠ -1 := show (0 : Int) ≠ -1 by decide
  simp only [Tinyalsa.pcmSyncPtr, exec_bind, exec_get, hnone, exec_ite, exec_ioctl, exec_pure, if_neg hret]
  split
  · exact ⟨⟨hpcm, happl⟩, rfl⟩
  · exact ⟨⟨hpcm, happl⟩, rfl⟩

theorem pcmMmapAvail (hk : k < 2 ^ 32) : Triple (Trickling (tricklePcm config bufferSize) k) (pcmMmapAvail trickleOps)
    fun r w => Trickling (tricklePcm config bufferSize) k w ∧ r = 1 := by
  intro w h
  obtain ⟨⟨hpcm, happl⟩, -⟩ := pcmSyncPtr { hwsync := true } w h
  rw [Tinyalsa.pcmMmapAvail, exec_bind]
  generalize (exec (Tinyalsa.pcmSyncPtr trickleOps { hwsync := true }) w).2 = w at hpcm happl ⊢
  have havail : pcmMmapCaptureAvail (tricklePcm config bufferSize) (w.dev.control.applPtr + 1) w.dev.control.applPtr =
    1 := by
    have hptr : (w.dev.control.applPtr + 1).toNat = k + 1 := by
      rw [UInt64.toNat_add, happl]
      exact Nat.mod_eq_of_lt (by have : (1 : UInt64).toNat = 1 := rfl; omega)
    unfold pcmMmapCaptureAvail
    rw [hptr, happl, CInt.wrapLong_of_fits (by omega) (by omega)]
    dsimp only
    rw [if_neg (by omega)]
    omega
  have hnone : w.pcm.syncPtr = none := by rw [hpcm]; rfl
  have hin : w.pcm.isIn = true := by rw [hpcm]; exact tricklePcm_isIn _ _
  simp only [pcmAvailNow, mmapStatus, mmapControl, exec_bind, exec_get, hnone, exec_pure, exec_modify, World.setDev_pcm,
    hin, if_true]
  refine ⟨⟨hpcm, happl⟩, ?_⟩
  change CInt.wrapInt (pcmMmapCaptureAvail w.pcm (w.dev.control.applPtr + 1) w.dev.control.applPtr) = 1
  rw [hpcm, havail]
  rfl

theorem pcmMmapBegin (hpos : 0 < bufferSize.toNat) (hk : k < 2 ^ 32) {n : UInt32} (hn : n ≠ 0) :
    Triple (Trickling (tricklePcm config bufferSize) k) (pcmMmapBegin trickleOps n)
    fun r w => Trickling (tricklePcm config bufferSize) k w ∧ r.2 = 1 := by
  rintro w ⟨hpcm, happl⟩
  have hnone : w.pcm.syncPtr = none := by rw [hpcm]; rfl
  have hstart : Trickling (tricklePcm config bufferSize) k w := ⟨hpcm, happl⟩
  obtain ⟨havail, hone⟩ := pcmMmapAvail hk w hstart
  have hslot := Nat.mod_lt w.dev.control.applPtr.toNat hpos
  have hlt := bufferSize.toNat_lt
  have hoff : (w.dev.control.applPtr % bufferSize.toUInt64).toUInt32.toNat =
      w.dev.control.applPtr.toNat % bufferSize.toNat := by
    rw [UInt64.toNat_toUInt32, UInt64.toNat_mod, UInt32.toNat_toUInt64, Nat.mod_eq_of_lt (by omega)]
  have hsize : w.pcm.bufferSize = bufferSize := by rw [hpcm]; rfl
  have hpos' : 0 < n.toNat := Nat.pos_of_ne_zero fun h => hn (UInt32.toNat_inj.1 h)
  simp only [Tinyalsa.pcmMmapBegin, mmapControl, exec_bind, exec_get, hnone, exec_modify, exec_pure,
    World.setDev_pcm, hsize]
  refine ⟨havail, ?_⟩
  change grantFrames bufferSize (w.dev.control.applPtr % bufferSize.toUInt64).toUInt32
    (CInt.toUInt (exec (Tinyalsa.pcmMmapAvail trickleOps) w).1) n = 1
  rw [hone, ← UInt32.toNat_inj, toNat_grantFrames (by omega), hoff]
  change min (min n.toNat (min 1 bufferSize.toNat)) _ = 1
  omega

theorem pcmAreasCopy (slot source n : UInt32) : Triple (Trickling (tricklePcm config bufferSize) k)
    (pcmAreasCopy trickleOps slot source n) fun _ w =>
      Trickling (tricklePcm config bufferSize) k w ∧ .copy slot source n ∈ w.trace := by
  have hmark : Triple (Trickling (tricklePcm config bufferSize) k) (record (.copy slot source n)) fun _ w =>
      Trickling (tricklePcm config bufferSize) k w ∧ .copy slot source n ∈ w.trace :=
    Triple.modify fun w h => ⟨⟨h.pcm, h.applPtr⟩, List.mem_cons_self⟩
  refine Triple.bind get fun _ => Triple.bind hmark fun _ => Triple.ite (fun _ => ?_) fun _ => ?_
  · refine Triple.modify fun w h => ?_
    split
    · exact ⟨⟨h.1.pcm, h.1.applPtr⟩, h.2⟩
    · refine ⟨⟨h.1.pcm, ?_⟩, h.2⟩
      change (trickleOps.setBuffer _ (trickleOps.run w.dev)).control.applPtr.toNat = k
      rw [trickleOps_setBuffer]
      exact h.1.applPtr
  · exact Triple.modify fun w h => ⟨⟨h.1.pcm, h.1.applPtr⟩, h.2⟩

theorem pcmMmapCommit (hpos : 0 < bufferSize.toNat) (hbuf : bufferSize.toNat ≤ CInt.intMax) (hk : k + 1 < 2 ^ 32) :
    Triple (Trickling (tricklePcm config bufferSize) k) (pcmMmapCommit trickleOps 1) fun ret w =>
      Trickling (tricklePcm config bufferSize) (k + 1) w ∧ ret = 1 := by
  have hmove : Triple (Trickling (tricklePcm config bufferSize) k)
    (pcmMmapApplForward trickleOps (CInt.ofUInt 1)) fun _ w =>
      Trickling (tricklePcm config bufferSize) (k + 1) w := by
    intro w h
    have hnone : w.pcm.syncPtr = none := by rw [h.pcm]; rfl
    have hbound : k + 1 < (tricklePcm config bufferSize).boundary.toNat := by rw [tricklePcm_boundary hbuf]; omega
    have hsized : RingSized (tricklePcm config bufferSize) := tricklePcm_sized hpos hbuf
    have happl : w.dev.control.applPtr.toNat = k % (tricklePcm config bufferSize).boundary.toNat := by
      rw [h.applPtr, Nat.mod_eq_of_lt (by omega)]
    have hone : (1 : UInt32).toNat ≤ (tricklePcm config bufferSize).bufferSize.toNat := hpos
    have hforward := toNat_applForward hsized happl hone (by decide)
    obtain ⟨hptr, ⟨s, hpcm⟩, -, -, ⟨hsome, -⟩ | ⟨-, hnone', -⟩⟩ :=
      pcmMmapApplForward_effect trickleOps_controlLaws (CInt.ofUInt 1) w
    · exact absurd hnone hsome
    · rw [applPtrOf_trickle hnone', applPtrOf_trickle hnone, h.pcm] at hptr
      refine ⟨?_, by rw [hptr]; exact hforward.trans (Nat.mod_eq_of_lt hbound)⟩
      rw [hpcm] at hnone' ⊢
      obtain rfl : s = none := hnone'
      rw [h.pcm]
      rfl
  refine Triple.bind hmove fun _ => Triple.bind (pcmSyncPtr {}) fun ret => Triple.assume fun hret => ?_
  have hmark : KeepsPcm (Trickling (tricklePcm config bufferSize) (k + 1))
    (record (.commit 1 (if ret ≠ 0 then ret else CInt.ofUInt 1))) :=
    Triple.modify fun w h => ⟨h.pcm, h.applPtr⟩
  refine Triple.bind hmark fun _ => Triple.pure _ fun w h => ⟨h, ?_⟩
  rw [if_neg (not_not.2 hret)]
  decide

/-- The trace holds a copy of this frame. -/
def Copied (source : Nat) (l : List PcmCall) : Prop :=
  ∃ slot source' n, .copy slot source' n ∈ l ∧ source'.toNat = source

theorem copied_invariant (ops : PcmOps Kernel) (source : Nat) : PcmInvariant ops fun w => Copied source w.trace :=
  .ofTrace (P := Copied source) fun c _ ⟨slot, source', n, hmem, hs⟩ =>
    ⟨slot, source', n, List.mem_cons_of_mem c hmem, hs⟩

/-- A pass over the ring copies its frames one by one, so that each of them starts a copy. -/
theorem transferAreasLoop (hpos : 0 < bufferSize.toNat) (hbuf : bufferSize.toNat ≤ CInt.intMax) :
    ∀ (rest fuel : Nat) (offset size count : UInt32), size.toNat = rest + 1 → rest < fuel →
      offset.toNat + size.toNat ≤ CInt.intMax →
      Triple (Trickling (tricklePcm config bufferSize) offset.toNat)
      (transferAreasLoop trickleOps fuel offset size count) fun _ w => Copied (offset.toNat + rest) w.trace
  | _, 0, _, _, _, _, hfuel, _ => absurd hfuel (Nat.not_lt_zero _)
  | rest, fuel + 1, offset, size, count, hsize, hfuel, hfit => by
    unfold CInt.intMax at hfit
    have hne : size ≠ 0 := by rintro rfl; cases hsize
    refine Triple.bind (pcmMmapAvail (by omega)) fun avail => Triple.assume fun havail => ?_
    rw [havail]
    refine Triple.ite (fun _ => ?_) fun h => absurd ⟨by decide, hne⟩ h
    refine Triple.bind (pcmMmapBegin hpos (by omega) hne) fun ⟨slot, n⟩ => Triple.assume fun hn => ?_
    obtain rfl : n = 1 := hn
    refine Triple.bind (pcmAreasCopy slot offset 1) fun _ => ?_
    cases rest with
    | zero =>
      refine Triple.pre (P := fun w => Copied (offset.toNat + 0) w.trace) ?_ fun w h => ⟨slot, offset, 1, h.2, rfl⟩
      have hkeep := (copied_invariant trickleOps (offset.toNat + 0)).toStreamInvariant
      refine Triple.bind (hkeep.pcmMmapCommit _) fun _ => Triple.ite (fun _ => ?_) fun _ =>
        hkeep.transferAreasLoop _ _ _ _
      exact Triple.bind (hkeep.oops _ _) fun _ => pure _
    | succ rest =>
      have hone : (1 : UInt32).toNat = 1 := rfl
      refine Triple.pre ?_ fun w h => h.1
      refine Triple.bind (pcmMmapCommit hpos hbuf (by omega)) fun ret => Triple.assume fun hret => ?_
      rw [hret, show CInt.toUInt 1 = 1 from rfl]
      refine Triple.ite (fun h => absurd h (by decide)) fun _ => ?_
      have hoff : (offset + 1).toNat = offset.toNat + 1 := by rw [UInt32.toNat_add, hone]; omega
      have hrest : (size - 1).toNat = rest + 1 := by
        rw [UInt32.toNat_sub_of_le _ _ (by rw [UInt32.le_iff_toNat_le, hone]; omega), hone, hsize]
        omega
      have hnext := transferAreasLoop hpos hbuf rest fuel (offset + 1) (size - 1) (count + 1) hrest (by omega)
        (by rw [hoff, hrest]; unfold CInt.intMax; omega)
      rw [hoff, Nat.add_assoc, Nat.add_comm 1] at hnext
      exact hnext

/-- The whole transfer, in one pass over the ring. -/
theorem pcmGenericTransfer (hpos : 0 < bufferSize.toNat) (hbuf : bufferSize.toNat ≤ CInt.intMax) {frames : UInt32}
    {last : Nat}
    (hframes : frames.toNat = last + 1) (hmax : frames.toNat ≤ CInt.intMax) :
    Triple (Trickling (tricklePcm config bufferSize) 0) (pcmGenericTransfer trickleOps (last + 3) frames)
      fun _ w => Copied last w.trace := by
  have hne : frames ≠ 0 := by rintro rfl; cases hframes
  have hkeep := (copied_invariant trickleOps last).toStreamInvariant
  have hstatus : Triple (Trickling (tricklePcm config bufferSize) 0) (mmapStatus trickleOps) fun st w =>
      Trickling (tricklePcm config bufferSize) 0 w ∧ st.state = .running := by
    rintro w ⟨hpcm, happl⟩
    have hnone : w.pcm.syncPtr = none := by rw [hpcm]; rfl
    simp only [mmapStatus, exec_bind, exec_get, hnone, exec_modify, exec_pure]
    exact ⟨⟨hpcm, happl⟩, rfl⟩
  have hareas : Triple (Trickling (tricklePcm config bufferSize) 0)
    (pcmMmapTransferAreas trickleOps (last + 1) 0 frames) fun _ w => Copied last w.trace := by
    have hloop : Triple (Trickling (tricklePcm config bufferSize) (0 : UInt32).toNat) _ _ :=
      transferAreasLoop hpos hbuf last (last + 1) 0 frames 0 hframes (Nat.lt_succ_self _) (by simpa using hmax)
    rw [show (0 : UInt32).toNat = 0 from rfl, Nat.zero_add] at hloop
    exact Triple.bind (Triple.modify fun w h => ⟨h.pcm, h.applPtr⟩) fun _ => hloop
  have hpass : ∀ state, Triple (Trickling (tricklePcm config bufferSize) 0)
      (mmapTransferLoop trickleOps (!(tricklePcm config bufferSize).isIn) state (last + 2) 0 frames) fun _ w =>
      Copied last w.trace := by
    intro state
    refine Triple.ite (fun h => absurd h hne) fun _ => Triple.bind (pcmMmapAvail (by decide)) fun avail => ?_
    refine Triple.assume fun havail => ?_
    have hroom : waitForRoom trickleOps (last + 1) (CInt.toUInt avail) = Pure.pure (some true) := by
      rw [havail]
      exact if_neg (by decide)
    simp only [hroom, pure_bind]
    refine Triple.bind hareas fun r => ?_
    cases r with
    | none => exact pure _
    | some transferred =>
      refine Triple.ite (fun _ => pure _) fun _ => Triple.bind (hkeep.startIfReached _ _ _) fun _ => ?_
      exact Triple.ite (fun _ => hkeep.mmapTransferLoop _ _ _ _ _) fun _ => pure _
  have hstart : ∀ state, state = .running → Triple (Trickling (tricklePcm config bufferSize) 0)
      (startCapture trickleOps state frames) fun go w => Trickling (tricklePcm config bufferSize) 0 w ∧ go = true := by
    rintro state rfl
    refine Triple.bind KeepsPcm.get fun v => Triple.ite (fun h => ?_) fun _ => Triple.pure _ fun w h => ⟨h, rfl⟩
    simp only [Bool.and_eq_true, decide_eq_true_eq, reduceCtorEq, and_false, false_and] at h
  have hmmap : Triple (Trickling (tricklePcm config bufferSize) 0) (pcmMmapTransfer trickleOps (last + 2) frames)
      fun _ w => Copied last w.trace := by
    refine Triple.ite (fun h => absurd h hne) fun _ => Triple.bind (pcmSyncPtr _) fun err =>
      Triple.assume fun herr => ?_
    refine Triple.ite (fun h => absurd (herr.symm.trans h) (by decide)) fun _ => ?_
    refine Triple.bind hstatus fun st => Triple.assume fun hst => Triple.bind (hstart _ hst) fun go =>
      Triple.assume fun hgo => ?_
    refine Triple.ite (fun _ => Triple.get_bind fun v => ?_) fun h => absurd hgo h
    rintro w ⟨h, rfl⟩
    rw [h.pcm]
    exact Triple.bind (hpass _) (fun _ => pure _) w h
  have honce : Triple (Trickling (tricklePcm config bufferSize) 0) (pcmTransferOnce trickleOps (last + 2) frames)
      fun _ w => Copied last w.trace := by
    refine Triple.get_bind fun v => ?_
    rintro w ⟨h, rfl⟩
    rw [if_pos (by rw [h.pcm]; exact tricklePcm_isMmap _ _)]
    exact hmmap w h
  have hagain : Triple (Trickling (tricklePcm config bufferSize) 0) (pcmTransferAgain trickleOps (last + 3) frames)
      fun _ w => Copied last w.trace := by
    refine Triple.bind honce fun r => ?_
    cases r with
    | none => exact pure _
    | some res =>
      refine Triple.ite (fun _ => Triple.bind get fun _ => ?_) fun _ => pure _
      refine Triple.ite (fun _ => Triple.bind (hkeep.wait.pcmRestarts (hkeep.ioctl _) hkeep.xruns) fun _ => ?_)
        fun _ => ?_
      · exact Triple.ite (fun _ =>
          hkeep.wait.pcmTransferAgain (hkeep.ioctl _) hkeep.xruns (fun fuel => hkeep.pcmTransferOnce fuel _) _)
          fun _ => pure _
      · exact Triple.bind get fun _ => Triple.ite (fun _ => pure _) fun _ =>
          Triple.bind (hkeep.oops _ _) fun _ => pure _
  have hstate : Triple (Trickling (tricklePcm config bufferSize) 0) (pcmState trickleOps) fun r w =>
      Trickling (tricklePcm config bufferSize) 0 w ∧ r ≠ PcmState.setup.code := by
    refine Triple.bind (pcmSyncPtr _) fun err => Triple.assume fun herr => Triple.ite (fun h => ?_) fun _ => ?_
    · exact absurd (herr ▸ h) (lt_irrefl 0)
    · exact Triple.bind hstatus fun st => Triple.pure _ fun w h => ⟨h.1, by rw [h.2]; decide⟩
  refine Triple.ite (fun h => absurd h (not_lt.2 hmax)) fun _ => Triple.bind hstate fun r => Triple.assume fun hr => ?_
  exact Triple.ite (fun h => absurd h hr) fun _ => hagain

end Trickling

/-- On that device the last frame offered starts a copy. -/
theorem le_of_copiesExact {config : PcmConfig} {bufferSize frames : UInt32} (hbuf : 0 < bufferSize.toNat)
    (hring : bufferSize.toNat * config.frameBytes ≤ CInt.intMax) (hmax : frames.toNat ≤ CInt.intMax)
    (h : CopiesExact config bufferSize frames) : (frames.toNat - 1) * config.frameBytes ≤ CInt.intMax := by
  by_contra hlarge
  have hbytes : 0 < config.frameBytes := Nat.pos_of_ne_zero fun h0 =>
    hlarge (by rw [h0, Nat.mul_zero]; exact Nat.zero_le _)
  have hframes : frames.toNat = frames.toNat - 1 + 1 := by
    have : frames.toNat - 1 ≠ 0 := fun h0 => hlarge (by rw [h0, Nat.zero_mul]; exact Nat.zero_le _)
    omega
  have hsize : bufferSize.toNat ≤ CInt.intMax := (Nat.le_mul_of_pos_right _ hbytes).trans hring
  let w : World Kernel :=
    { pcm := tricklePcm config bufferSize, dev := {}, user := ⟨frames.toNat * config.frameBytes, fun _ => 0⟩ }
  obtain ⟨slot, source, n, hmem, hsource⟩ := Trickling.pcmGenericTransfer hbuf hsize hframes hmax w ⟨rfl, rfl⟩
  have hexact := h Kernel trickleOps _ w rfl rfl _ (List.append_nil _).symm slot source n hmem
  have hle := (ofUInt_pcmFramesToBytes_iff w.pcm source).1 hexact.srcOffset
  rw [hsource] at hle
  exact hlarge hle

/-- Every copy of every transfer of `frames` is exact if and only if the last frame starts within `INT_MAX` bytes. -/
theorem copiesExact_iff {config : PcmConfig} {bufferSize frames : UInt32} (hbuf : 0 < bufferSize.toNat)
    (hring : bufferSize.toNat * config.frameBytes ≤ CInt.intMax) (hmax : frames.toNat ≤ CInt.intMax) :
    CopiesExact config bufferSize frames ↔ (frames.toNat - 1) * config.frameBytes ≤ CInt.intMax :=
  ⟨le_of_copiesExact hbuf hring hmax, copiesExact_of_le hbuf hring hmax⟩

theorem copiesExact_stereo : CopiesExact stereoConfig 1024 48000 :=
  (copiesExact_iff (by decide) (by decide) (by decide)).2 (by decide)

/-- Half a gigaframe of 16 bit stereo and two frames more. -/
theorem not_copiesExact_large :
    (1024 : UInt32).toNat * stereoConfig.frameBytes ≤ CInt.intMax ∧ (536870914 : UInt32).toNat ≤ CInt.intMax ∧
      ¬ CopiesExact stereoConfig 1024 536870914 := by
  refine ⟨by decide, by decide, fun h => ?_⟩
  exact absurd (le_of_copiesExact (by decide) (by decide) (by decide) h) (by decide)

end Tinyalsa
