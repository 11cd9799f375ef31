/-
The copies of a mapped transfer on any backend, whether it synchronises the pointers or not: they take
the caller's frames one after the other, never more than were offered, and stay in the ring.
-/
import Tinyalsa.Pcm.Account

namespace Tinyalsa

open Hoare KeepsPcm

/-! ## Copies in the trace -/

/-- The copies take the caller's frames one after the other, from the first on. -/
def SourcesInOrder : List PcmCall → Prop
  | [] => True
  | .copy _ source _ :: l => source.toNat = movedFrames l ∧ SourcesInOrder l
  | _ :: l => SourcesInOrder l

/-- Every copy lies in the `frames` offered, and in a ring of this size, if that has a slot. -/
def CopiesWithin (size frames : Nat) (l : List PcmCall) : Prop :=
  ∀ slot source n, .copy slot source n ∈ l → (source.toNat < frames ∧ source.toNat + n.toNat ≤ frames) ∧
    (0 < size → slot.toNat < size ∧ slot.toNat + n.toNat ≤ size)

/-- The entries that are no copies. -/
def PcmCall.isCopy : PcmCall → Bool
  | .copy _ _ _ => true
  | _ => false

/-- `moved` of the frames a transfer was offered have been copied since `t`, on the handle `p`. -/
structure Copying {σ : Type} (p : Pcm) (t : List PcmCall) (offered moved : Nat) (w : World σ) : Prop where
  same : p.Same w.pcm
  copies : ∃ calls, w.trace = calls ++ t ∧ SourcesInOrder calls ∧ CopiesWithin p.bufferSize.toNat offered calls ∧
    movedFrames calls = moved

theorem CopiesWithin.append {size frames : Nat} {l l' : List PcmCall} (h : CopiesWithin size frames l)
    (h' : CopiesWithin size frames l') : CopiesWithin size frames (l ++ l') := by
  intro slot source n hmem
  rcases List.mem_append.1 hmem with hmem | hmem
  · exact h slot source n hmem
  · exact h' slot source n hmem

theorem not_isCopy_cons {c : PcmCall} (hc : c.isCopy = false) {size frames : Nat} {l : List PcmCall}
    (hs : SourcesInOrder l) (hr : CopiesWithin size frames l) :
    SourcesInOrder (c :: l) ∧ CopiesWithin size frames (c :: l) ∧ movedFrames (c :: l) = movedFrames l := by
  have hwithin : CopiesWithin size frames (c :: l) := by
    intro slot source n hmem
    rcases List.mem_cons.1 hmem with rfl | hmem
    · cases hc
    · exact hr slot source n hmem
  cases c with
  | copy => cases hc
  | _ => exact ⟨hs, hwithin, rfl⟩

namespace Copying

section

variable {σ : Type} {ops : PcmOps σ} {p : Pcm} {t : List PcmCall} {offered moved : Nat} {w w' : World σ}

theorem start (offered : Nat) (w : World σ) : Copying w.pcm w.trace offered 0 w :=
  ⟨.refl _, [], rfl, trivial, fun _ _ _ h => absurd h List.not_mem_nil, rfl⟩

/-- A step that copies nothing. -/
theorem step (h : Copying p t offered moved w) (hsame : w.pcm.Same w'.pcm)
    (ht : w'.trace = w.trace ∨ ∃ c, c.isCopy = false ∧ w'.trace = c :: w.trace) : Copying p t offered moved w' := by
  obtain ⟨calls, hw, hs, hr, hm⟩ := h.copies
  refine ⟨h.same.trans hsame, ?_⟩
  rcases ht with ht | ⟨c, hc, ht⟩
  · exact ⟨calls, ht.trans hw, hs, hr, hm⟩
  · obtain ⟨hs', hr', hm'⟩ := not_isCopy_cons hc hs hr
    exact ⟨c :: calls, by rw [ht, hw]; rfl, hs', hr', hm'.trans hm⟩

theorem waitInvariant (ops : PcmOps σ) (p : Pcm) (t : List PcmCall) (offered moved : Nat) :
    WaitInvariant ops (Copying p t offered moved) where
  error w e h := h.step ⟨w.pcm.syncPtr, e, rfl⟩ (.inl rfl)
  run _ h := h.step (.refl _) (.inl rfl)
  hwsync _ h := h.step (.refl _) (.inr ⟨.cmd .hwsync _, rfl, rfl⟩)
  sync w _ flags _ h := h.step ⟨_, w.pcm.error, rfl⟩ (.inr ⟨.syncPtr flags _ _ _, rfl, rfl⟩)
  errno _ _ h := h.step (.refl _) (.inl rfl)
  poll _ _ h := h.step (.refl _) (.inr ⟨.poll _, rfl, rfl⟩)
  start _ h := h.step (.refl _) (.inr ⟨.cmd .start _, rfl, rfl⟩)

theorem prepare : KeepsPcm (Copying p t offered moved) (ioctl ops .prepare) :=
  fun _ h => h.step (.refl _) (.inr ⟨.cmd .prepare _, rfl, rfl⟩)

theorem startIfReached (isPlayback : Bool) (state : PcmState) (avail : UInt32) :
    KeepsPcm (Copying p t offered moved) (startIfReached ops isPlayback state avail) :=
  Triple.bind get fun _ => Triple.ite
    (fun _ => Triple.bind ((waitInvariant ops p t offered moved).pcmStart prepare) fun _ => pure _) fun _ => pure _

theorem startCapture (state : PcmState) (frames : UInt32) :
    KeepsPcm (Copying p t offered moved) (startCapture ops state frames) :=
  Triple.bind get fun _ => Triple.ite
    (fun _ => Triple.bind ((waitInvariant ops p t offered moved).pcmStart prepare) fun _ => pure _) fun _ => pure _

/-! ## A pass over the ring -/

/-- The region granted is no longer than asked for, and lies in the ring. -/
theorem pcmMmapBegin (n : UInt32) : Triple (Copying p t offered moved) (pcmMmapBegin ops n) fun r w =>
    Copying p t offered moved w ∧ r.2.toNat ≤ n.toNat ∧
      (0 < p.bufferSize.toNat → r.1.toNat < p.bufferSize.toNat ∧ r.1.toNat + r.2.toNat ≤ p.bufferSize.toNat) := by
  intro w h
  have hctl := (waitInvariant ops p t offered moved).mmapControl w h
  have hkeep := (waitInvariant ops p t offered moved).pcmMmapAvail _ hctl
  have hsize : (exec (mmapControl ops) w).2.pcm.bufferSize = p.bufferSize := by
    obtain ⟨s, e, hpcm⟩ := hctl.same
    rw [hpcm]
  simp only [Tinyalsa.pcmMmapBegin, exec_bind, exec_get, exec_pure, hsize]
  refine ⟨hkeep, ?_, fun hpos => ?_⟩
  · simp only [grantFrames, CInt.toNat_clamp]
    omega
  · have hslot := Nat.mod_lt (exec (mmapControl ops) w).1.applPtr.toNat hpos
    have hlt := p.bufferSize.toNat_lt
    have hoff : ((exec (mmapControl ops) w).1.applPtr % p.bufferSize.toUInt64).toUInt32.toNat =
        (exec (mmapControl ops) w).1.applPtr.toNat % p.bufferSize.toNat := by
      rw [UInt64.toNat_toUInt32, UInt64.toNat_mod, UInt32.toNat_toUInt64, Nat.mod_eq_of_lt (by omega)]
    rw [toNat_grantFrames (by omega), hoff]
    omega

theorem pcmAreasCopy {slot source n : UInt32} (hsource : source.toNat = moved)
    (hfit : source.toNat < offered ∧ source.toNat + n.toNat ≤ offered)
    (hring : 0 < p.bufferSize.toNat → slot.toNat < p.bufferSize.toNat ∧ slot.toNat + n.toNat ≤ p.bufferSize.toNat) :
    Triple (Copying p t offered moved) (pcmAreasCopy ops slot source n) fun _ =>
    Copying p t offered (moved + n.toNat) := by
  have hmark : Triple (Copying p t offered moved) (record (σ := σ) (.copy slot source n)) fun _ =>
    Copying p t offered (moved + n.toNat) := by
    refine Triple.modify fun w h => ?_
    obtain ⟨calls, hw, hs, hr, hm⟩ := h.copies
    refine ⟨h.same, .copy slot source n :: calls, by rw [World.push_trace, hw]; rfl,
      ⟨hsource.trans hm.symm, hs⟩, ?_, ?_⟩
    · intro slot' source' n' hmem
      rcases List.mem_cons.1 hmem with heq | hmem
      · obtain ⟨rfl, rfl, rfl⟩ := PcmCall.copy.inj heq
        exact ⟨hfit, hring⟩
      · exact hr slot' source' n' hmem
    · rw [movedFrames, hm, Nat.add_comm]
  refine Triple.bind get fun _ => Triple.bind hmark fun _ => Triple.ite (fun _ => ?_) fun _ => ?_
  · refine Triple.modify fun w h => ?_
    split
    · exact h.step (.refl _) (.inl rfl)
    · exact h.step (.refl _) (.inl rfl)
  · exact Triple.modify fun w h => h.step (.refl _) (.inl rfl)

/-- `pcm_sync_ptr` returns 0 or -1. -/
theorem pcmSyncPtr_ret (ops : PcmOps σ) (flags : SyncFlags) (w : World σ) :
    (exec (pcmSyncPtr ops flags) w).1 = 0 ∨ (exec (pcmSyncPtr ops flags) w).1 = -1 := by
  unfold pcmSyncPtr
  cases hs : w.pcm.syncPtr with
  | none =>
    simp only [exec_bind, exec_get, hs, exec_ite, exec_oops, exec_pure]
    split
    · split
      · exact .inr rfl
      · exact .inl rfl
    · exact .inl rfl
  | some s =>
    simp only [exec_bind, exec_get, hs, exec_ite, exec_oops, exec_pure]
    split
    · exact .inr rfl
    · exact .inl rfl

theorem pcmMmapApplForward (frames : Int) : KeepsPcm (Copying p t offered moved) (pcmMmapApplForward ops frames) := by
  intro w h
  refine h.step ?_ (.inr ⟨.forward frames w.pcm.boundary, rfl, pcmMmapApplForward_trace ops frames w⟩)
  unfold Tinyalsa.pcmMmapApplForward mmapControl setApplPtr
  cases hs : w.pcm.syncPtr with
  | none =>
    simp only [exec_bind, exec_get, hs, exec_modify, exec_pure, exec_record, World.setDev_pcm, World.push_pcm]
    exact .refl _
  | some s =>
    simp only [exec_bind, exec_get, hs, exec_modifyPcm, exec_pure, exec_record, World.setPcm_pcm, World.push_pcm]
    exact ⟨_, w.pcm.error, rfl⟩

/-- A commit answers for its frames, or fails. -/
theorem pcmMmapCommit {n : UInt32} (hmax : n.toNat ≤ CInt.intMax) :
    Triple (Copying p t offered moved) (pcmMmapCommit ops n)
    fun ret w => Copying p t offered moved w ∧ (ret = n.toNat ∨ ret < 0) := by
  refine Triple.bind (pcmMmapApplForward _) fun _ => fun w h => ?_
  have hret := pcmSyncPtr_ret ops {} w
  have hkeep := (waitInvariant ops p t offered moved).pcmSyncPtr {} w h
  simp only [exec_bind, exec_record, exec_pure]
  refine ⟨hkeep.step (.refl _) (.inr ⟨.commit n _, rfl, rfl⟩), ?_⟩
  rcases hret with hret | hret
  · rw [hret, if_neg (not_not.2 rfl), CInt.ofUInt_of_le hmax]
    exact .inl rfl
  · rw [hret]
    exact .inr (show (-1 : Int) < 0 by decide)

/-- What a pass returns is what it copied, unless its last commit failed. -/
theorem transferAreasLoop : ∀ (fuel : Nat) (offset size count : UInt32), count.toNat ≤ offset.toNat →
    offset.toNat + size.toNat ≤ offered → offered ≤ CInt.intMax →
    Triple (Copying p t offered offset.toNat) (transferAreasLoop ops fuel offset size count) fun r w =>
      ∃ moved, offset.toNat ≤ moved ∧ moved ≤ offset.toNat + size.toNat ∧ Copying p t offered moved w ∧
        ∀ c, r = some c → 0 ≤ c → c = (count.toNat + (moved - offset.toNat) : Nat)
  | 0, offset, _, _, _, _, _ => Triple.pure _ fun w h => ⟨_, le_rfl, Nat.le_add_right _ _, h, fun c hc => by cases hc⟩
  | fuel + 1, offset, size, count, hcount, hfit, hmax => by
    have hdone : Triple (Copying p t offered offset.toNat) (Pure.pure (some (CInt.ofUInt count)) : PcmM σ (Option Int))
      fun r w =>
        ∃ moved, offset.toNat ≤ moved ∧ moved ≤ offset.toNat + size.toNat ∧ Copying p t offered moved w ∧
          ∀ c, r = some c → 0 ≤ c → c = (count.toNat + (moved - offset.toNat) : Nat) := by
      refine Triple.pure _ fun w h => ⟨_, le_rfl, Nat.le_add_right _ _, h, fun c hc _ => ?_⟩
      rw [← Option.some.inj hc, CInt.ofUInt_of_le (by omega)]
      omega
    refine Triple.bind (waitInvariant ops p t offered _).pcmMmapAvail fun _ =>
      Triple.ite (fun hmore => ?_) fun _ => hdone
    refine Triple.bind (pcmMmapBegin size) fun ⟨slot, n⟩ => Triple.assume fun hgrant => ?_
    have hle : n.toNat ≤ size.toNat := hgrant.1
    have hsize : 0 < size.toNat := Nat.pos_of_ne_zero fun h => hmore.2 (UInt32.toNat_inj.1 h)
    refine Triple.bind (pcmAreasCopy rfl ⟨by omega, by omega⟩ hgrant.2) fun _ => ?_
    refine Triple.bind (pcmMmapCommit (by omega)) fun ret => Triple.assume fun hret => ?_
    refine Triple.ite (fun hneg => ?_) fun hpos => ?_
    · refine Triple.bind ((waitInvariant ops p t offered _).oops _ _) fun _ => Triple.pure _ fun w h => ?_
      refine ⟨_, Nat.le_add_right _ _, by omega, h, fun c hc hc' => ?_⟩
      rw [← Option.some.inj hc] at hc'
      omega
    · obtain rfl : ret = n.toNat := hret.resolve_right hpos
      rw [CInt.toUInt_toNat]
      unfold CInt.intMax at hmax
      have hoff : (offset + n).toNat = offset.toNat + n.toNat := by rw [UInt32.toNat_add]; omega
      have hcnt : (count + n).toNat = count.toNat + n.toNat := by rw [UInt32.toNat_add]; omega
      have hsize : (size - n).toNat = size.toNat - n.toNat :=
        UInt32.toNat_sub_of_le _ _ (UInt32.le_iff_toNat_le.2 hle)
      have hnext := transferAreasLoop fuel (offset + n) (size - n) (count + n)
      rw [hoff, hcnt, hsize] at hnext
      refine (hnext (by omega) (by omega) hmax).post ?_
      rintro r w ⟨moved, hlo, hhi, h, hres⟩
      refine ⟨moved, by omega, by omega, h, fun c hc hc' => ?_⟩
      rw [hres c hc hc']
      omega

theorem pcmMmapTransferAreas (fuel : Nat) (offset size : UInt32) (hfit : offset.toNat + size.toNat ≤ offered)
    (hmax : offered ≤ CInt.intMax) :
    Triple (Copying p t offered offset.toNat) (pcmMmapTransferAreas ops fuel offset size) fun r w =>
      ∃ moved, offset.toNat ≤ moved ∧ moved ≤ offset.toNat + size.toNat ∧ Copying p t offered moved w ∧
        ∀ c, r = some c → 0 ≤ c → c = (moved - offset.toNat : Nat) := by
  have hmark : KeepsPcm (Copying p t offered offset.toNat) (record (σ := σ) .areas) :=
    Triple.modify fun w h => h.step (.refl _) (.inr ⟨.areas, rfl, rfl⟩)
  refine Triple.bind hmark fun _ => (transferAreasLoop fuel offset size 0 (Nat.zero_le _) hfit hmax).post ?_
  rintro r w ⟨moved, hlo, hhi, h, hres⟩
  refine ⟨moved, hlo, hhi, h, fun c hc hc' => ?_⟩
  rw [hres c hc hc', show (0 : UInt32).toNat = 0 from rfl, Nat.zero_add]

/-! ## The whole transfer -/

/-- The transfer loop copies no more than it was offered, and counts no more than it copied. -/
theorem mmapTransferLoop (isPlayback : Bool) (state : PcmState) : ∀ (fuel : Nat) (userOffset frames : UInt32),
    userOffset.toNat + frames.toNat ≤ offered → offered ≤ CInt.intMax →
    Triple (Copying p t offered userOffset.toNat) (mmapTransferLoop ops isPlayback state fuel userOffset frames)
    fun r w =>
      ∃ moved, moved ≤ userOffset.toNat + frames.toNat ∧ Copying p t offered moved w ∧ ∀ u, r = some u → u.toNat ≤ moved
  | 0, _, _, _, _ => Triple.pure _ fun w h => ⟨_, Nat.le_add_right _ _, h, fun u hu => by cases hu⟩
  | fuel + 1, userOffset, frames, hfit, hmax => by
    have hstop : ∀ r : Option UInt32, (∀ u, r = some u → u = userOffset) →
        Triple (Copying p t offered userOffset.toNat) (Pure.pure r : PcmM σ (Option UInt32)) fun r w =>
          ∃ moved, moved ≤ userOffset.toNat + frames.toNat ∧ Copying p t offered moved w ∧ ∀ u, r = some u →
          u.toNat ≤ moved :=
      fun r hr => Triple.pure _ fun w h => ⟨_, Nat.le_add_right _ _, h, fun u hu => by rw [hr u hu]⟩
    have hsame : ∀ u, some userOffset = some u → u = userOffset := fun u hu => (Option.some.inj hu).symm
    refine Triple.ite (fun _ => hstop _ hsame) fun _ =>
      Triple.bind (waitInvariant ops p t offered _).pcmMmapAvail fun avail => ?_
    refine Triple.bind ((waitInvariant ops p t offered _).waitForRoom fuel _) fun r => ?_
    rcases r with _ | _ | _
    · exact hstop _ fun u hu => by cases hu
    · exact hstop _ hsame
    refine Triple.bind (pcmMmapTransferAreas fuel userOffset frames hfit hmax) fun r => ?_
    rintro w ⟨moved, hlo, hhi, h, hres⟩
    cases r with
    | none => exact ⟨moved, hhi, h, fun u hu => by cases hu⟩
    | some transferred =>
      -- what a failed pass copied is counted nowhere
      by_cases hneg : transferred < 0
      · simp only [hneg, if_true, exec_pure]
        refine ⟨moved, hhi, h, fun u hu => ?_⟩
        rw [hsame u hu]
        exact hlo
      · obtain rfl := hres transferred rfl (not_lt.1 hneg)
        unfold CInt.intMax at hmax
        have hto : (CInt.toUInt (moved - userOffset.toNat : Nat)).toNat = moved - userOffset.toNat := by
          rw [CInt.toNat_toUInt]; omega
        have hoff : (userOffset + CInt.toUInt (moved - userOffset.toNat : Nat)).toNat = moved := by
          rw [UInt32.toNat_add, hto]; omega
        have hsize : (frames - CInt.toUInt (moved - userOffset.toNat : Nat)).toNat =
            frames.toNat - (moved - userOffset.toNat) := by
          rw [UInt32.toNat_sub_of_le _ _ (by rw [UInt32.le_iff_toNat_le, hto]; omega), hto]
        have hnext := mmapTransferLoop isPlayback state fuel (userOffset + CInt.toUInt (moved - userOffset.toNat : Nat))
          (frames - CInt.toUInt (moved - userOffset.toNat : Nat))
        rw [hoff, hsize] at hnext
        have hpass : Triple (Copying p t offered moved)
            (Tinyalsa.startIfReached ops isPlayback state (CInt.toUInt avail) >>= fun go =>
              if go = true then Tinyalsa.mmapTransferLoop ops isPlayback state fuel
                (userOffset + CInt.toUInt (moved - userOffset.toNat : Nat))
                (frames - CInt.toUInt (moved - userOffset.toNat : Nat))
              else Pure.pure (some (userOffset + CInt.toUInt (moved - userOffset.toNat : Nat)))) fun r w =>
            ∃ moved, moved ≤ userOffset.toNat + frames.toNat ∧ Copying p t offered moved w ∧ ∀ u, r = some u →
            u.toNat ≤ moved := by
          refine Triple.bind (startIfReached isPlayback state _) fun go => Triple.ite (fun _ => ?_) fun _ => ?_
          · refine (hnext (by omega) hmax).post ?_
            rintro r w ⟨m, hm, h, hu⟩
            exact ⟨m, by omega, h, hu⟩
          · exact Triple.pure _ fun w h => ⟨moved, hhi, h, fun u hu => by rw [← Option.some.inj hu, hoff]⟩
        simp only [hneg, if_false]
        exact hpass w h

/-- A mapped transfer copies no more than it is offered, and returns no more than it copied. -/
theorem pcmMmapTransfer (fuel : Nat) {frames : UInt32} (hmax : frames.toNat ≤ CInt.intMax) :
    Triple (Copying p t frames.toNat 0) (pcmMmapTransfer ops fuel frames) fun r w =>
      ∃ moved, moved ≤ frames.toNat ∧ Copying p t frames.toNat moved w ∧ ∀ c, r = some c → c ≤ moved := by
  have hstop : ∀ c : Int, c ≤ 0 → Triple (Copying p t frames.toNat 0)
    (Pure.pure (some c) : PcmM σ (Option Int)) fun r w =>
      ∃ moved, moved ≤ frames.toNat ∧ Copying p t frames.toNat moved w ∧ ∀ c, r = some c → c ≤ moved :=
    fun c hc => Triple.pure _ fun w h => ⟨0, Nat.zero_le _, h, fun c' hc' => by rw [← Option.some.inj hc']; exact hc⟩
  refine Triple.ite (fun _ => hstop 0 le_rfl) fun _ =>
    Triple.bind ((waitInvariant ops p t frames.toNat 0).pcmSyncPtr _) fun _ => ?_
  refine Triple.ite (fun _ => hstop (-1) (by decide)) fun _ =>
    Triple.bind (waitInvariant ops p t frames.toNat 0).mmapStatus fun st => ?_
  refine Triple.bind (startCapture _ _) fun go => Triple.ite (fun _ => Triple.bind get fun v => ?_) fun _ =>
    hstop (-1) (by decide)
  refine Triple.bind (mmapTransferLoop (!v.pcm.isIn) st.state fuel 0 frames (by simp) hmax) fun u => Triple.pure _ ?_
  rintro w ⟨moved, hle, h, hu⟩
  refine ⟨moved, by simpa using hle, h, fun c hc => ?_⟩
  obtain ⟨v, hv, rfl⟩ := Option.map_eq_some_iff.1 hc
  have := hu v hv
  unfold transferResult
  split
  · rw [CInt.ofUInt_of_le (by simp at hle; omega)]
    omega
  · omega

end

end Copying

end Tinyalsa
