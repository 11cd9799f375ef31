/-
What `pcm_mmap_transfer` answers for: the frames it reports, those it copied and those it moved the
application pointer by. They agree unless a commit fails after its pass over the ring has moved
frames; these frames are then in the pointer and in no count.
-/
import Tinyalsa.Pcm.Frame
import Tinyalsa.Pcm.Kernel
import Tinyalsa.Pcm.Ring

namespace Tinyalsa

open Hoare KeepsPcm

/-! ## Frames in the trace -/

/-- The frames copied. -/
def movedFrames : List PcmCall → Nat
  | [] => 0
  | .copy _ _ n :: l => n.toNat + movedFrames l
  | _ :: l => movedFrames l

/-- The frames copied since `pcm_mmap_transfer_areas` was last entered. -/
def movedSinceAreas : List PcmCall → Nat
  | [] => 0
  | .areas :: _ => 0
  | .copy _ _ n :: l => n.toNat + movedSinceAreas l
  | _ :: l => movedSinceAreas l

/-- The copies take the caller's frames one after the other, to or from the slots that follow `base` in a
ring of this size. -/
def CopiesInOrder (base size : Nat) : List PcmCall → Prop
  | [] => True
  | .copy slot source _ :: l =>
    source.toNat = movedFrames l ∧ slot.toNat = (base + movedFrames l) % size ∧ CopiesInOrder base size l
  | _ :: l => CopiesInOrder base size l

/-- A commit failed after its pass over the ring had moved frames. -/
def DropsFrames : List PcmCall → Prop
  | [] => False
  | .commit _ ret :: l => ret < 0 ∧ 0 < movedSinceAreas l ∨ DropsFrames l
  | _ :: l => DropsFrames l

instance decidableDropsFrames : ∀ l, Decidable (DropsFrames l)
  | [] => isFalse id
  | c :: l => by
    have := decidableDropsFrames l
    cases c <;> unfold DropsFrames <;> infer_instance

/-- The entries that say nothing of frames. -/
def PcmCall.framesKept : PcmCall → Bool
  | .copy _ _ _ | .areas | .commit _ _ => false
  | _ => true

theorem framesKept_cons {c : PcmCall} (hc : c.framesKept) (base size : Nat) (l : List PcmCall) :
    movedFrames (c :: l) = movedFrames l ∧ movedSinceAreas (c :: l) = movedSinceAreas l ∧
      (CopiesInOrder base size (c :: l) ↔ CopiesInOrder base size l) ∧ (DropsFrames (c :: l) ↔ DropsFrames l) := by
  cases c with
  | copy p s n => cases hc
  | areas => cases hc
  | commit n ret => cases hc
  | _ => exact ⟨rfl, rfl, .rfl, .rfl⟩

/-! ## Tracking a transfer -/

/-- What a transfer started at `base` with the stream in `state` knows of itself: `ptr` frames are in the
pointer, `moved` are copied, `since` of them in this pass over the ring. -/
structure Tracked {σ : Type} (ops : PcmOps σ) (p : Pcm) (state : PcmState) (base ptr moved since : Nat)
    (w : World σ) : Prop where
  bufferSize : w.pcm.bufferSize = p.bufferSize
  boundary : w.pcm.boundary = p.boundary
  applPtr : (applPtrOf ops w).toNat = (base + ptr) % p.boundary.toNat
  active : state = .prepared → (ops.status w.dev).state.Active
  moved : movedFrames w.trace = moved
  since : movedSinceAreas w.trace = since
  inOrder : CopiesInOrder base p.bufferSize.toNat w.trace
  noDrops : ¬ DropsFrames w.trace

/-- The kernel knows of the pointer, too. -/
structure Tracking {σ : Type} (ops : PcmOps σ) (p : Pcm) (state : PcmState) (base ptr moved since : Nat)
    (w : World σ) : Prop extends Tracked ops p state base ptr moved since w where
  agrees : PtrAgrees ops w

/-- What a transfer leaves behind: `moved` frames copied and in the pointer, of which a failed commit
dropped the last ones from its count. -/
structure Outcome {σ : Type} (ops : PcmOps σ) (p : Pcm) (base moved dropped : Nat) (w : World σ) : Prop where
  applPtr : (applPtrOf ops w).toNat = (base + moved) % p.boundary.toNat
  moved : movedFrames w.trace = moved
  inOrder : CopiesInOrder base p.bufferSize.toNat w.trace
  drops : DropsFrames w.trace ↔ 0 < dropped

namespace Tracked

variable {σ : Type} {ops : PcmOps σ} {p : Pcm} {state : PcmState} {base ptr moved since : Nat} {w w' : World σ}

/-- A step that adds nothing about frames to the trace. -/
theorem step (h : Tracked ops p state base ptr moved since w) (hsize : w'.pcm.bufferSize = w.pcm.bufferSize)
    (hbound : w'.pcm.boundary = w.pcm.boundary) (hptr : applPtrOf ops w' = applPtrOf ops w)
    (hact : (ops.status w.dev).state.Active → (ops.status w'.dev).state.Active)
    (ht : w'.trace = w.trace ∨ ∃ c, c.framesKept ∧ w'.trace = c :: w.trace) :
    Tracked ops p state base ptr moved since w' := by
  obtain ⟨hm, hsi, hio, hd⟩ : movedFrames w'.trace = movedFrames w.trace ∧
      movedSinceAreas w'.trace = movedSinceAreas w.trace ∧
      (CopiesInOrder base p.bufferSize.toNat w'.trace ↔ CopiesInOrder base p.bufferSize.toNat w.trace) ∧
      (DropsFrames w'.trace ↔ DropsFrames w.trace) := by
    rcases ht with ht | ⟨c, hc, ht⟩
    · rw [ht]; exact ⟨rfl, rfl, .rfl, .rfl⟩
    · rw [ht]; exact framesKept_cons hc base p.bufferSize.toNat w.trace
  refine ⟨hsize.trans h.bufferSize, hbound.trans h.boundary, ?_, fun hs => hact (h.active hs), ?_, ?_, ?_, ?_⟩
  · rw [hptr]; exact h.applPtr
  · rw [hm]; exact h.moved
  · rw [hsi]; exact h.since
  · rw [hio]; exact h.inOrder
  · rw [hd]; exact h.noDrops

/-- `SYNC_PTR` of a pointer the kernel need not know yet: once accepted, it does. -/
theorem push_spec (hl : ControlLaws ops) (hs : StateLaws ops) : Triple (Tracked ops p state base ptr moved since)
    (pcmSyncPtr ops {}) fun r w =>
      (r = 0 ∧ Tracking ops p state base ptr moved since w) ∨ (r < 0 ∧ Tracked ops p state base ptr moved since w) := by
  intro w h
  obtain ⟨hnone, heq⟩ | ⟨s, hdev, ⟨b, a, ht⟩, ⟨_, _, hpcm⟩, hptr, hret⟩ := pcmSyncPtr_push hl w
  · rw [heq]
    exact .inl ⟨rfl, h, .of_mapped hnone⟩
  · have hstep : Tracked ops p state base ptr moved since (exec (pcmSyncPtr ops {}) w).2 := by
      refine h.step (by rw [hpcm]) (by rw [hpcm]) hptr ?_ (.inr ⟨_, rfl, ht⟩)
      rw [hdev]
      exact hs.syncPtr _ _
    rcases hret with ⟨-, hret⟩ | ⟨-, hret, hagr⟩
    · exact .inr ⟨by rw [hret]; decide, hstep⟩
    · exact .inl ⟨hret, hstep, hagr⟩

end Tracked

namespace Tracking

variable {σ : Type} {ops : PcmOps σ} {p : Pcm} {state : PcmState} {base ptr moved since : Nat} {w w' : World σ}

/-- A step of the device that leaves the control block alone. -/
theorem devStep (h : Tracking ops p state base ptr moved since w) (hpcm : w'.pcm = w.pcm)
    (hctl : ops.control w'.dev = ops.control w.dev)
    (hact : (ops.status w.dev).state.Active → (ops.status w'.dev).state.Active)
    (ht : w'.trace = w.trace ∨ ∃ c, c.framesKept ∧ w'.trace = c :: w.trace) :
    Tracking ops p state base ptr moved since w' := by
  refine ⟨h.step (by rw [hpcm]) (by rw [hpcm]) ?_ hact ht, h.agrees.congr (by rw [hpcm]) hctl⟩
  rw [applPtrOf, applPtrOf, hpcm, hctl]

variable (hl : ControlLaws ops) (hs : StateLaws ops)

include hl hs

theorem waitInvariant : WaitInvariant ops (Tracking ops p state base ptr moved since) where
  error w e h := ⟨h.step rfl rfl rfl id (.inl rfl), h.agrees⟩
  run w h := h.devStep rfl (hl.run _) (hs.run _) (.inl rfl)
  hwsync w h := h.devStep rfl (hl.cmd _ _ (by decide)) (hs.hwsync _) (.inr ⟨.cmd .hwsync _, rfl, rfl⟩)
  sync w s flags hsp h := by
    obtain ⟨hptr, hagr⟩ := h.agrees.sync hl hsp flags
    rw [exec_ioctlSyncPtr] at hptr hagr ⊢
    exact ⟨h.step rfl rfl hptr (hs.syncPtr _ _) (.inr ⟨.syncPtr flags _ _ _, rfl, rfl⟩), hagr⟩
  errno w e h := h.devStep rfl rfl id (.inl rfl)
  poll w t h := h.devStep rfl (hl.poll _ _) (hs.poll _ _) (.inr ⟨.poll _, rfl, rfl⟩)
  start w h := h.devStep rfl (hl.cmd _ _ (by decide)) (hs.start _) (.inr ⟨.cmd .start _, rfl, rfl⟩)

/-- The state an active stream reports is not `SETUP`. -/
theorem pcmState_spec (hst : state = .prepared) : Triple (Tracking ops p state base ptr moved since) (pcmState ops)
    fun r w => Tracking ops p state base ptr moved since w ∧ r ≠ PcmState.setup.code := by
  intro w h
  refine ⟨(waitInvariant hl hs).pcmState w h, ?_⟩
  have hact := h.active hst
  unfold pcmState pcmSyncPtr mmapStatus
  cases hsp : w.pcm.syncPtr with
  | none =>
    simp only [exec_bind, exec_get, hsp, Bool.false_eq_true, if_false, exec_pure, lt_irrefl, exec_modify]
    exact fun heq => (hs.run _ hact).2.1 (PcmState.code_inj.1 heq)
  | some s =>
    simp only [exec_bind, exec_get, hsp, exec_ite, exec_ioctlSyncPtr]
    split
    · simp only [exec_oops]
      exact show (-1 : Int) ≠ 1 by decide
    · rename_i hpos
      simp only [exec_pure, lt_irrefl, if_false, World.push_pcm, World.setPcm_pcm]
      rw [hs.reported _ _ (not_lt.1 hpos)]
      exact fun heq => (hs.syncPtr _ _ hact).2.1 (PcmState.code_inj.1 heq)

theorem pcmStart (hst : state = .prepared) : KeepsPcm (Tracking ops p state base ptr moved since) (pcmStart ops) := by
  refine Triple.bind (pcmState_spec hl hs hst) fun r => Triple.ite (fun hr w hw => absurd hr hw.2) fun _ => ?_
  exact ((waitInvariant hl hs).pcmStartPrepared).pre fun _ hw => hw.1

theorem startIfReached (isPlayback : Bool) (avail : UInt32) :
    KeepsPcm (Tracking ops p state base ptr moved since) (startIfReached ops isPlayback state avail) := by
  refine Triple.bind get fun w => Triple.ite (fun hc => ?_) fun _ => pure _
  have hst : state = .prepared := by simp only [Bool.and_eq_true, decide_eq_true_eq] at hc; exact hc.1.2
  exact Triple.bind (pcmStart hl hs hst) fun _ => pure _

theorem startCapture (frames : UInt32) :
    KeepsPcm (Tracking ops p state base ptr moved since) (startCapture ops state frames) := by
  refine Triple.bind get fun w => Triple.ite (fun hc => ?_) fun _ => pure _
  have hst : state = .prepared := by simp only [Bool.and_eq_true, decide_eq_true_eq] at hc; exact hc.1.2
  exact Triple.bind (pcmStart hl hs hst) fun _ => pure _

/-! ## A pass over the ring -/

/-- The region granted starts at the pointer's slot and does not wrap around. -/
theorem pcmMmapBegin_spec (hp : RingSized p) (n : UInt32) : Triple (Tracking ops p state base ptr moved since)
    (pcmMmapBegin ops n) fun r w => Tracking ops p state base ptr moved since w ∧
      r.1.toNat = (base + ptr) % p.bufferSize.toNat ∧ r.2.toNat ≤ n.toNat ∧
      r.1.toNat + r.2.toNat ≤ p.bufferSize.toNat := by
  have hctl : Triple (Tracking ops p state base ptr moved since) (mmapControl ops) fun c w =>
      Tracking ops p state base ptr moved since w ∧ c.applPtr.toNat = (base + ptr) % p.boundary.toNat := by
    intro w h
    have h' := (waitInvariant hl hs).mmapControl w h
    exact ⟨h', (congrArg UInt64.toNat (mmapControl_applPtr ops w)).trans h'.applPtr⟩
  refine Triple.bind hctl fun c => Triple.bind (m := get) (Q := fun v w =>
      (Tracking ops p state base ptr moved since w ∧ c.applPtr.toNat = (base + ptr) % p.boundary.toNat) ∧
        v.pcm.bufferSize = p.bufferSize) (fun w hw => ⟨hw, hw.1.bufferSize⟩) fun v => ?_
  intro w ⟨⟨h, hc⟩, hv⟩
  refine ⟨(waitInvariant hl hs).pcmMmapAvail w h, ?_⟩
  have hoff := toNat_ringOffset hp hc
  have hlt := Nat.mod_lt (base + ptr) hp.nonempty
  simp only [exec_bind, exec_pure, hv, hoff, toNat_grantFrames (hoff.trans_lt hlt).le]
  exact ⟨trivial, by omega, by omega⟩

theorem pcmAreasCopy_spec (slot source n : UInt32) (hslot : slot.toNat = (base + moved) % p.bufferSize.toNat)
    (hsource : source.toNat = moved) : Triple (Tracking ops p state base ptr moved since)
    (pcmAreasCopy ops slot source n) fun _ => Tracking ops p state base ptr (moved + n.toNat) (since + n.toNat) := by
  have hcopied : Triple (Tracking ops p state base ptr moved since) (record (.copy slot source n)) fun _ =>
      Tracking ops p state base ptr (moved + n.toNat) (since + n.toNat) := by
    refine Triple.modify fun w h => ?_
    refine ⟨⟨h.bufferSize, h.boundary, h.applPtr, h.active, ?_, ?_, ⟨?_, ?_, h.inOrder⟩, h.noDrops⟩, h.agrees⟩
    · rw [World.push_trace, movedFrames, h.moved, Nat.add_comm]
    · rw [World.push_trace, movedSinceAreas, h.since, Nat.add_comm]
    · rw [h.moved, hsource]
    · rw [h.moved, hslot]
  refine Triple.bind get fun _ => Triple.bind hcopied fun _ => ?_
  refine Triple.ite (fun _ => Triple.modify fun w h => ?_) fun _ => Triple.modify fun w h => ?_
  · split
    · exact h.devStep rfl (hl.run _) (hs.run _) (.inl rfl)
    · refine h.devStep rfl ((hl.setBuffer _ _).trans (hl.run _))
        (fun hact => hs.setBuffer _ _ (hs.run _ hact)) (.inl rfl)
  · exact h.devStep rfl rfl id (.inl rfl)

/-- The pointer moves by a chunk, before the kernel hears of it. -/
theorem pcmMmapApplForward_spec (hp : RingSized p) {n : UInt32} (hn : n.toNat ≤ p.bufferSize.toNat)
    (hmax : n.toNat ≤ CInt.intMax) : Triple (Tracking ops p state base ptr moved since)
    (pcmMmapApplForward ops (CInt.ofUInt n)) fun _ => Tracked ops p state base (ptr + n.toNat) moved since := by
  intro w h
  obtain ⟨hptr, ⟨s, hpcm⟩, -, -, hdev⟩ := pcmMmapApplForward_effect hl (CInt.ofUInt n) w
  have htrace := pcmMmapApplForward_trace ops (CInt.ofUInt n) w
  refine ⟨?_, ?_, ?_, fun hst => ?_, ?_, ?_, ?_, ?_⟩
  · rw [hpcm]; exact h.bufferSize
  · rw [hpcm]; exact h.boundary
  · rw [hptr, h.boundary, toNat_applForward hp h.applPtr hn hmax, Nat.add_assoc]
  · rcases hdev with ⟨-, -, hdev⟩ | ⟨-, -, c, hdev⟩
    · rw [hdev]; exact h.active hst
    · rw [hdev]; exact hs.setControl _ _ (hs.run _ (hs.run _ (h.active hst)))
  · rw [htrace]; exact h.moved
  · rw [htrace]; exact h.since
  · rw [htrace]; exact h.inOrder
  · rw [htrace]; exact h.noDrops

/-- A committed chunk is in the pointer; one that fails to commit is too, and ends the transfer. -/
theorem pcmMmapCommit_spec (hp : RingSized p) {n : UInt32} (hn : n.toNat ≤ p.bufferSize.toNat)
    (hmax : n.toNat ≤ CInt.intMax) : Triple (Tracking ops p state base ptr (ptr + n.toNat) since) (pcmMmapCommit ops n)
    fun ret w => (ret = n.toNat ∧ Tracking ops p state base (ptr + n.toNat) (ptr + n.toNat) since w) ∨
      (ret < 0 ∧ Outcome ops p base (ptr + n.toNat) since w) := by
  refine Triple.bind (pcmMmapApplForward_spec hl hs hp hn hmax) fun _ =>
    Triple.bind (Tracked.push_spec hl hs) fun r => ?_
  intro w hw
  simp only [exec_bind, exec_record, exec_pure]
  rcases hw with ⟨rfl, h⟩ | ⟨hneg, h⟩
  · refine .inl ⟨?_, ⟨h.bufferSize, h.boundary, h.applPtr, h.active, h.moved, h.since, h.inOrder, ?_⟩, h.agrees⟩
    · rw [if_neg (not_not.2 rfl), CInt.ofUInt_of_le hmax]
    · rintro (⟨hret, _⟩ | hd)
      · rw [if_neg (not_not.2 rfl), CInt.ofUInt_of_le hmax] at hret
        omega
      · exact h.noDrops hd
  · have hne : r ≠ 0 := by omega
    rw [if_pos hne]
    refine .inr ⟨hneg, h.applPtr, h.moved, h.inOrder, ?_⟩
    rw [World.push_trace, DropsFrames, h.since]
    exact ⟨fun hd => hd.elim And.right fun hd => absurd hd h.noDrops, fun hpos => .inl ⟨hneg, hpos⟩⟩

/-- The loop over the chunks: what it counts is copied and in the pointer, unless a commit fails. -/
theorem transferAreasLoop_spec (hp : RingSized p) (entry : Nat) : ∀ (fuel : Nat) (offset size count : UInt32),
    offset.toNat = entry + count.toNat → offset.toNat + size.toNat ≤ CInt.intMax →
    Triple (Tracking ops p state base offset.toNat offset.toNat count.toNat)
    (transferAreasLoop ops fuel offset size count) fun r w => ∀ c, r = some c →
        (∃ n : Nat, c = n ∧ n ≤ count.toNat + size.toNat ∧ Tracking ops p state base (entry + n) (entry + n) n w) ∨
          (c < 0 ∧ ∃ dropped, Outcome ops p base (entry + dropped) dropped w)
  | 0, _, _, _, _, _ => Triple.pure _ fun _ _ c hc => by cases hc
  | fuel + 1, offset, size, count, hoff, hfit => by
    refine Triple.bind ((waitInvariant hl hs).pcmMmapAvail) fun avail => Triple.ite (fun _ => ?_) fun _ => ?_
    · refine Triple.bind (pcmMmapBegin_spec hl hs hp size) fun ⟨slot, n⟩ => Triple.assume fun ⟨hslot, hn, hin⟩ => ?_
      replace hn : n.toNat ≤ size.toNat := hn
      replace hin : slot.toNat + n.toNat ≤ p.bufferSize.toNat := hin
      refine Triple.bind (pcmAreasCopy_spec hl hs slot offset n hslot rfl) fun _ => ?_
      refine Triple.bind (pcmMmapCommit_spec hl hs hp (by omega) (by omega)) fun ret =>
        Triple.ite (fun hneg => ?_) fun hpos => ?_
      · refine Triple.bind (Q := fun _ w => ∃ dropped, Outcome ops p base (entry + dropped) dropped w) ?_ fun _ => ?_
        · rintro w (⟨hret, _⟩ | ⟨_, hd⟩)
          · omega
          · refine ⟨count.toNat + n.toNat, ?_⟩
            rw [← Nat.add_assoc, ← hoff]
            exact ⟨hd.applPtr, hd.moved, hd.inOrder, hd.drops⟩
        · exact Triple.pure _ fun w hw c hc => .inr ⟨by rw [← Option.some.inj hc]; exact hneg, hw⟩
      · rintro w (⟨rfl, h⟩ | ⟨hneg, _⟩)
        · unfold CInt.intMax at hfit
          have hoff' : (offset + n).toNat = offset.toNat + n.toNat := by rw [UInt32.toNat_add]; omega
          have hcount' : (count + n).toNat = count.toNat + n.toNat := by rw [UInt32.toNat_add]; omega
          have hsize' : (size - n).toNat = size.toNat - n.toNat := by
            rw [UInt32.toNat_sub_of_le _ _ (UInt32.le_iff_toNat_le.2 hn)]
          have hnext := transferAreasLoop_spec hp entry fuel (offset + n) (size - n) (count + n)
          rw [hoff', hcount', hsize'] at hnext
          rw [CInt.toUInt_toNat]
          intro c hc
          obtain ⟨m, hm, hle, ht⟩ | hdrop := hnext (by omega) (by unfold CInt.intMax; omega) w h c hc
          · exact .inl ⟨m, hm, by omega, ht⟩
          · exact .inr hdrop
        · omega
    · refine Triple.pure _ fun w h c hc => .inl ⟨count.toNat, ?_, by omega, ?_⟩
      · rw [← Option.some.inj hc, CInt.ofUInt_of_le (by omega)]
      · rw [← hoff]; exact h

theorem pcmMmapTransferAreas_spec (hp : RingSized p) (fuel : Nat) (offset size : UInt32)
    (hfit : offset.toNat + size.toNat ≤ CInt.intMax) :
    Triple (Tracking ops p state base offset.toNat offset.toNat since) (pcmMmapTransferAreas ops fuel offset size)
      fun r w => ∀ c, r = some c →
        (∃ n : Nat, c = n ∧ n ≤ size.toNat ∧
          Tracking ops p state base (offset.toNat + n) (offset.toNat + n) n w) ∨
        (c < 0 ∧ ∃ dropped, Outcome ops p base (offset.toNat + dropped) dropped w) := by
  have hmark : Triple (Tracking ops p state base offset.toNat offset.toNat since) (record .areas) fun _ =>
      Tracking ops p state base offset.toNat offset.toNat 0 := by
    refine Triple.modify fun w h => ⟨⟨h.bufferSize, h.boundary, h.applPtr, h.active, h.moved, rfl, h.inOrder, ?_⟩,
      h.agrees⟩
    exact h.noDrops
  refine Triple.bind hmark fun _ => ?_
  refine (transferAreasLoop_spec hl hs hp offset.toNat fuel offset size 0 rfl hfit).post fun r w hw c hc =>
    (hw c hc).imp_left ?_
  rintro ⟨n, hn, hle, h⟩
  exact ⟨n, hn, by simpa using hle, h⟩

omit hl hs in
/-- A transfer that ends between two passes has dropped nothing. -/
theorem outcome (h : Tracking ops p state base moved moved since w) : Outcome ops p base (moved + 0) 0 w :=
  ⟨h.applPtr, h.moved, h.inOrder, fun hd => absurd hd h.noDrops, fun hd => absurd hd (lt_irrefl 0)⟩

/-- The loop of a transfer. -/
theorem mmapTransferLoop_spec (hp : RingSized p) (isPlayback : Bool) :
    ∀ (fuel : Nat) (userOffset frames : UInt32) (since : Nat),
    userOffset.toNat + frames.toNat ≤ CInt.intMax →
    Triple (Tracking ops p state base userOffset.toNat userOffset.toNat since)
      (mmapTransferLoop ops isPlayback state fuel userOffset frames) fun r w => ∀ u, r = some u →
        u.toNat ≤ userOffset.toNat + frames.toNat ∧ ∃ dropped, Outcome ops p base (u.toNat + dropped) dropped w
  | 0, _, _, _, _ => Triple.pure _ fun _ _ u hu => by cases hu
  | fuel + 1, userOffset, frames, since, hfit => by
    have hstop : ∀ (offset : UInt32) since, offset.toNat ≤ userOffset.toNat + frames.toNat →
        Triple (Tracking ops p state base offset.toNat offset.toNat since)
        (Pure.pure (some offset) : PcmM σ (Option UInt32)) fun r w => ∀ u, r = some u →
          u.toNat ≤ userOffset.toNat + frames.toNat ∧ ∃ dropped, Outcome ops p base (u.toNat + dropped) dropped w := by
      refine fun offset since hle => Triple.pure _ fun w h u hu => ?_
      rw [← Option.some.inj hu]
      exact ⟨hle, 0, h.outcome⟩
    refine Triple.ite (fun _ => hstop _ since (Nat.le_add_right _ _)) fun _ =>
      Triple.bind ((waitInvariant hl hs).pcmMmapAvail) fun avail => ?_
    refine Triple.bind ((waitInvariant hl hs).waitForRoom fuel _) fun r => ?_
    rcases r with _ | _ | _
    · exact Triple.pure _ fun _ _ u hu => by cases hu
    · exact hstop _ since (Nat.le_add_right _ _)
    refine Triple.bind (pcmMmapTransferAreas_spec hl hs hp fuel userOffset frames hfit) fun r => ?_
    cases r with
    | none => exact Triple.pure _ fun _ _ u hu => by cases hu
    | some transferred =>
      refine Triple.ite (fun hneg => Triple.pure _ fun w hw u hu => ?_) fun hpos => ?_
      · rw [← Option.some.inj hu]
        obtain ⟨n, hn, -⟩ | ⟨-, hdrop⟩ := hw transferred rfl
        · omega
        · exact ⟨Nat.le_add_right _ _, hdrop⟩
      · have hpass : ∀ n : Nat, n ≤ frames.toNat →
            Triple (Tracking ops p state base (userOffset.toNat + n) (userOffset.toNat + n) n)
            (Tinyalsa.startIfReached ops isPlayback state (CInt.toUInt avail) >>= fun go =>
              if go = true then mmapTransferLoop ops isPlayback state fuel (userOffset + CInt.toUInt n)
                (frames - CInt.toUInt n)
              else Pure.pure (some (userOffset + CInt.toUInt n))) fun r w => ∀ u, r = some u →
                u.toNat ≤ userOffset.toNat + frames.toNat ∧ ∃ dropped,
                Outcome ops p base (u.toNat + dropped) dropped w := by
          intro n hle
          unfold CInt.intMax at hfit
          have hoff : (userOffset + CInt.toUInt n).toNat = userOffset.toNat + n := by
            rw [UInt32.toNat_add, CInt.toNat_toUInt]; omega
          have hsize : (frames - CInt.toUInt n).toNat = frames.toNat - n := by
            have hto : (CInt.toUInt n).toNat = n := by rw [CInt.toNat_toUInt]; omega
            rw [UInt32.toNat_sub_of_le _ _ (by rw [UInt32.le_iff_toNat_le, hto]; exact hle), hto]
          have hnext := mmapTransferLoop_spec hp isPlayback fuel (userOffset + CInt.toUInt n) (frames - CInt.toUInt n) n
          have hdone := hstop (userOffset + CInt.toUInt n) n
          rw [hoff, hsize] at hnext
          rw [hoff] at hdone
          refine Triple.bind (startIfReached hl hs isPlayback _) fun go => Triple.ite (fun _ => ?_) fun _ => ?_
          · refine (hnext (by unfold CInt.intMax; omega)).post fun r w hw u hu => ⟨?_, (hw u hu).2⟩
            have := (hw u hu).1
            omega
          · exact hdone (by omega)
        intro w hw
        obtain ⟨n, rfl, hle, h⟩ | ⟨hneg, -⟩ := hw transferred rfl
        · exact hpass n hle w h
        · omega

end Tracking

/-! ## The whole transfer -/

section

variable {σ : Type} (ops : PcmOps σ)

/-- The application pointer a transfer starts from: what its first `SYNC_PTR` leaves. A transfer of no
frames makes none. -/
def entryPtr (frames : UInt32) (w : World σ) : UInt64 :=
  if frames = 0 then applPtrOf ops w else applPtrOf ops (exec (pcmSyncPtr ops entryFlags) w).2

/-- A transfer from `w` to `w'` answers for its result: the pointer has advanced by as many frames, and as
many of the caller's, from the first on, were moved; on -1 it has not advanced. -/
structure Accounted (frames : UInt32) (w w' : World σ) (r : Int) : Prop where
  counted : 0 ≤ r → r ≤ frames.toNat ∧
    (applPtrOf ops w').toNat = ((entryPtr ops frames w).toNat + r.toNat) % w.pcm.boundary.toNat ∧
      movedFrames w'.trace = r.toNat ∧ CopiesInOrder (entryPtr ops frames w).toNat w.pcm.bufferSize.toNat w'.trace
  failed : r = -1 → applPtrOf ops w' = entryPtr ops frames w ∧ movedFrames w'.trace = 0

variable {ops}

/-- A transfer after its first `SYNC_PTR`: an accepted one leaves the library with what the kernel has. -/
structure Entered (ops : PcmOps σ) (p : Pcm) (ret : Int) (w : World σ) : Prop where
  bufferSize : w.pcm.bufferSize = p.bufferSize
  boundary : w.pcm.boundary = p.boundary
  trace : ∃ c, c.framesKept ∧ w.trace = [c]
  agrees : ret ≠ -1 → ∀ s, w.pcm.syncPtr = some s → (ops.control w.dev).applPtr = s.control.applPtr
  reported : ret ≠ -1 → ∀ s, w.pcm.syncPtr = some s → s.status.state = (ops.status w.dev).state

theorem pcmSyncPtr_entered (hl : ControlLaws ops) (hs : StateLaws ops) {w : World σ} (ht : w.trace = []) :
    Entered ops w.pcm (exec (pcmSyncPtr ops entryFlags) w).1 (exec (pcmSyncPtr ops entryFlags) w).2 := by
  unfold pcmSyncPtr
  cases hsp : w.pcm.syncPtr with
  | none =>
    have hnone : ∀ {q : SndPcmSyncPtr → Prop} s, w.pcm.syncPtr = some s → q s := by rw [hsp]; rintro q s ⟨⟩
    have htrace : ∀ ret, ∃ c : PcmCall, c.framesKept ∧ .cmd .hwsync ret :: w.trace = [c] := fun ret =>
      ⟨.cmd .hwsync ret, rfl, by rw [ht]⟩
    simp only [exec_bind, exec_get, hsp, entryFlags, if_true, exec_ite, exec_ioctl, exec_oops, exec_pure]
    split
    · exact ⟨rfl, rfl, htrace _, fun _ => hnone, fun _ => hnone⟩
    · exact ⟨rfl, rfl, htrace _, fun _ => hnone, fun _ => hnone⟩
  | some s =>
    have htrace : ∀ ret b a, ∃ c : PcmCall, c.framesKept ∧ .syncPtr entryFlags ret b a :: w.trace = [c] :=
      fun ret b a =>
      ⟨.syncPtr entryFlags ret b a, rfl, by rw [ht]⟩
    simp only [exec_bind, exec_get, hsp, exec_ite, exec_ioctlSyncPtr, exec_oops, exec_pure]
    split
    · exact ⟨rfl, rfl, htrace _ _ _, fun hne => absurd rfl hne, fun hne => absurd rfl hne⟩
    · rename_i hpos
      obtain ⟨-, hnew⟩ := hl.syncPtr _ _ (not_lt.1 hpos)
      refine ⟨rfl, rfl, htrace _ _ _, fun _ s' hs' => ?_, fun _ s' hs' => ?_⟩
      · rw [← Option.some.inj hs']
        exact congrArg SndPcmMmapControl.applPtr hnew.symm
      · rw [← Option.some.inj hs']
        exact hs.reported _ _ (not_lt.1 hpos)

theorem Entered.tracking (hl : ControlLaws ops) {p : Pcm} {ret : Int} {w : World σ} (h : Entered ops p ret w)
    (hok : ret ≠ -1) (hbase : (applPtrOf ops w).toNat < p.boundary.toNat) :
    Tracking ops p (exec (mmapStatus ops) w).1.state (applPtrOf ops w).toNat 0 0 0 (exec (mmapStatus ops) w).2 := by
  obtain ⟨c, hc, htr⟩ := h.trace
  obtain ⟨hm, hsi, hio, hd⟩ := framesKept_cons hc (applPtrOf ops w).toNat p.bufferSize.toNat []
  rw [← htr] at hm hsi hio hd
  have hmod := (Nat.mod_eq_of_lt hbase).symm
  unfold mmapStatus
  cases hsp : w.pcm.syncPtr with
  | none =>
    simp only [exec_bind, exec_get, hsp, exec_modify, exec_pure, World.setDev_dev]
    refine ⟨⟨h.bufferSize, h.boundary, ?_, fun hst => ?_, hm, hsi, hio.2 trivial, hd.1⟩, ?_⟩
    · rw [Nat.add_zero, ← hmod, applPtrOf, applPtrOf, World.setDev_pcm, World.setDev_dev, hl.run]
    · rw [World.setDev_dev, hst]; decide
    · exact .of_mapped hsp
  | some s =>
    simp only [exec_bind, exec_get, hsp, exec_pure]
    refine ⟨⟨h.bufferSize, h.boundary, hmod, fun hst => ?_, hm, hsi, hio.2 trivial, hd.1⟩, h.agrees hok⟩
    rw [← h.reported hok s hsp, hst]
    decide

/-- A result of a transfer, and what it leaves behind. -/
def Ends (ops : PcmOps σ) (p : Pcm) (base : Nat) (frames : UInt32) (r : Int) (w : World σ) : Prop :=
  ∃ n dropped : Nat, (r = n ∨ r = -1 ∧ n = 0) ∧ n ≤ frames.toNat ∧ Outcome ops p base (n + dropped) dropped w

/-- The transfer from the start of a capture stream on. -/
theorem Tracking.transfer (hl : ControlLaws ops) (hs : StateLaws ops) {p : Pcm} (hp : RingSized p) {state : PcmState}
    {base : Nat} (fuel : Nat) {frames : UInt32} (hmax : frames.toNat ≤ CInt.intMax) :
    Triple (Tracking ops p state base 0 0 0) (do
        if ← Tinyalsa.startCapture ops state frames then
          let isPlayback := !(← MonadState.get : World σ).pcm.isIn
          return (← mmapTransferLoop ops isPlayback state fuel 0 frames).map transferResult
        else return some (-1) : PcmM σ (Option Int))
      fun r w => ∀ c, r = some c → Ends ops p base frames c w := by
  refine Triple.bind (Tracking.startCapture hl hs frames) fun go => Triple.ite (fun _ => ?_) fun _ => ?_
  · refine Triple.bind get fun v => ?_
    refine Triple.bind (mmapTransferLoop_spec hl hs hp (!v.pcm.isIn) fuel 0 frames 0 (by simpa using hmax)) fun u => ?_
    refine Triple.pure _ fun w hw c hc => ?_
    obtain ⟨u, rfl, rfl⟩ := Option.map_eq_some_iff.1 hc
    obtain ⟨hle, dropped, hout⟩ := hw u rfl
    rw [show (0 : UInt32).toNat = 0 from rfl, Nat.zero_add] at hle
    refine ⟨u.toNat, dropped, ?_, hle, hout⟩
    unfold transferResult
    split
    · exact .inl (CInt.ofUInt_of_le (hle.trans hmax))
    · rename_i hz
      exact .inr ⟨rfl, by rw [not_not.1 hz]; rfl⟩
  · refine Triple.pure _ fun w h c hc => ⟨0, 0, .inr ⟨(Option.some.inj hc).symm, rfl⟩, Nat.zero_le _, h.outcome⟩

theorem pcmMmapTransfer_ends (hl : ControlLaws ops) (hs : StateLaws ops) {w : World σ} (hp : RingSized w.pcm)
    (ht : w.trace = []) (fuel : Nat) {frames : UInt32} (hmax : frames.toNat ≤ CInt.intMax)
    (hbase : (entryPtr ops frames w).toNat < w.pcm.boundary.toNat) {r : Int}
    (hr : (exec (pcmMmapTransfer ops fuel frames) w).1 = some r) :
    Ends ops w.pcm (entryPtr ops frames w).toNat frames r (exec (pcmMmapTransfer ops fuel frames) w).2 := by
  have hmod := (Nat.mod_eq_of_lt hbase).symm
  by_cases hz : frames = 0
  · simp only [pcmMmapTransfer, hz, if_true, exec_pure] at hr ⊢
    rw [hz, entryPtr, if_pos rfl] at hmod
    refine ⟨0, 0, .inl (Option.some.inj hr).symm, Nat.zero_le _, hmod, ?_, ?_, ?_⟩
    · rw [ht]; rfl
    · rw [ht]; trivial
    · rw [ht]; exact ⟨False.elim, fun h => absurd h (lt_irrefl 0)⟩
  · have hentry : entryPtr ops frames w = applPtrOf ops (exec (pcmSyncPtr ops entryFlags) w).2 := if_neg hz
    have hent := pcmSyncPtr_entered hl hs ht
    rw [hentry] at hbase hmod ⊢
    rw [pcmMmapTransfer, if_neg hz, exec_bind, exec_ite] at hr ⊢
    by_cases hfail : (exec (pcmSyncPtr ops entryFlags) w).1 = -1
    · rw [if_pos hfail] at hr ⊢
      obtain ⟨c, hc, htr⟩ := hent.trace
      obtain ⟨hm, -, hio, hd⟩ := framesKept_cons hc (applPtrOf ops (exec (pcmSyncPtr ops entryFlags) w).2).toNat
        w.pcm.bufferSize.toNat []
      rw [← htr] at hm hio hd
      refine ⟨0, 0, .inr ⟨(Option.some.inj hr).symm, rfl⟩, Nat.zero_le _, hmod, hm, hio.2 trivial, ?_⟩
      exact ⟨fun h => absurd (hd.1 h) id, fun h => absurd h (lt_irrefl 0)⟩
    · rw [if_neg hfail] at hr ⊢
      have h := hent.tracking hl hfail hbase
      exact Tracking.transfer hl hs hp fuel hmax _ h r hr

end

/-! ## On the kernel -/

end Tinyalsa
