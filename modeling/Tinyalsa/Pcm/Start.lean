/-
When `pcm_mmap_transfer` starts a prepared playback stream. It compares the start threshold with the
fill level it read before the pass that writes, so a pass that reaches the threshold starts nothing.
-/
import Tinyalsa.Pcm.Ring

namespace Tinyalsa

open Hoare KeepsPcm

/-! ## Starts and waits in the trace -/

def PcmCall.isStart : PcmCall → Bool
  | .cmd .start _ => true
  | _ => false

/-- `START` has been issued. -/
def Started (l : List PcmCall) : Prop := ∃ c ∈ l, c.isStart

instance (l : List PcmCall) : Decidable (Started l) := inferInstanceAs (Decidable (∃ c ∈ l, c.isStart))

/-- The frames committed. -/
def committedFrames : List PcmCall → Nat
  | [] => 0
  | .commit n ret :: l => (if ret < 0 then 0 else n.toNat) + committedFrames l
  | _ :: l => committedFrames l

/-- Every wait that began with `threshold` frames in a ring that held `filled` at first came after `START`. -/
def WaitsHonoured (filled threshold : Nat) : List PcmCall → Prop
  | [] => True
  | .poll _ :: l => (threshold ≤ filled + committedFrames l → Started l) ∧ WaitsHonoured filled threshold l
  | _ :: l => WaitsHonoured filled threshold l

instance decidableWaitsHonoured (filled threshold : Nat) : ∀ l, Decidable (WaitsHonoured filled threshold l)
  | [] => isTrue trivial
  | c :: l => by
    have := decidableWaitsHonoured filled threshold l
    cases c <;> unfold WaitsHonoured <;> infer_instance

/-- A transfer honours the threshold: with as many frames in the ring, `START` has been issued before any
wait, and before the return of a transfer that had frames to move. -/
structure StartHonoured {σ : Type} (filled threshold : Nat) (frames : UInt32) (done : Option Int × World σ) : Prop where
  waits : WaitsHonoured filled threshold done.2.trace
  returns : frames ≠ 0 → done.1.isSome → threshold ≤ filled + committedFrames done.2.trace → Started done.2.trace

/-- The entries that neither wait, start nor commit. -/
def PcmCall.calm : PcmCall → Bool
  | .poll _ | .cmd .start _ | .commit _ _ => false
  | _ => true

/-- Nobody waited or started anything. -/
def Unstarted (l : List PcmCall) : Prop := ¬ Started l ∧ ∀ filled threshold, WaitsHonoured filled threshold l

theorem Started.cons {l : List PcmCall} (c : PcmCall) (h : Started l) : Started (c :: l) := by
  obtain ⟨d, hd, hs⟩ := h
  exact ⟨d, List.mem_cons_of_mem c hd, hs⟩

theorem calm_cons {c : PcmCall} (hc : c.calm) {l : List PcmCall} (h : Unstarted l) :
    Unstarted (c :: l) ∧ committedFrames (c :: l) = committedFrames l := by
  obtain ⟨hns, hw⟩ := h
  have hstart : ¬ c.isStart := by
    intro hs
    cases c with
    | cmd c ret => cases c <;> cases hs; cases hc
    | _ => cases hs
  have hnot : ¬ Started (c :: l) := by
    rintro ⟨d, hd, hs⟩
    rcases List.mem_cons.1 hd with rfl | hd
    · exact hstart hs
    · exact hns ⟨d, hd, hs⟩
  cases c with
  | poll ret => cases hc
  | commit n ret => cases hc
  | _ => exact ⟨⟨hnot, hw⟩, rfl⟩

theorem Unstarted.commit {l : List PcmCall} (h : Unstarted l) (n : UInt32) (ret : Int) :
    Unstarted (.commit n ret :: l) := by
  refine ⟨?_, h.2⟩
  rintro ⟨d, hd, hs⟩
  rcases List.mem_cons.1 hd with rfl | hd
  · cases hs
  · exact h.1 ⟨d, hd, hs⟩

section

variable {σ : Type} {ops : PcmOps σ}

/-- Once started, a transfer honours every threshold. -/
theorem started_invariant (ops : PcmOps σ) (filled threshold : Nat) :
    PcmInvariant ops fun w => Started w.trace ∧ WaitsHonoured filled threshold w.trace :=
  .ofTrace (P := fun l => Started l ∧ WaitsHonoured filled threshold l) fun c l h => by
    refine ⟨h.1.cons c, ?_⟩
    cases c with
    | poll ret => exact ⟨fun _ => h.1, h.2⟩
    | _ => exact h.2

/-- A wait that broke the rule cannot be undone. -/
theorem broken_invariant (ops : PcmOps σ) (filled threshold : Nat) :
    PcmInvariant ops fun w => ¬ WaitsHonoured filled threshold w.trace :=
  .ofTrace (P := fun l => ¬ WaitsHonoured filled threshold l) fun c l h => by
    cases c with
    | poll ret => exact fun hw => h hw.2
    | _ => exact h

/-! ## A prepared stream -/

/-- The stream is as it was. -/
def Rests (a b : SndPcmMmapStatus) : Prop := b.state = a.state ∧ b.hwPtr = a.hwPtr

theorem Rests.trans {a b c : SndPcmMmapStatus} (h : Rests a b) (h' : Rests b c) : Rests a c :=
  ⟨h'.1.trans h.1, h'.2.trans h.2⟩

/-- A prepared stream rests until it is started. Meanwhile it accepts `SYNC_PTR` and `HWSYNC`. -/
structure PreparedLaws (ops : PcmOps σ) : Prop where
  accepts : ∀ s d, (ops.status d).state = .prepared →
    0 ≤ (ops.syncPtr s d).1.ret ∧ (ops.syncPtr s d).2.1.status = ops.status (ops.syncPtr s d).2.2
  syncPtr : ∀ s d, (ops.status d).state = .prepared → Rests (ops.status d) (ops.status (ops.syncPtr s d).2.2)
  hwsync : ∀ d, (ops.status d).state = .prepared →
    (ops.cmd .hwsync d).1.ret ≠ -1 ∧ Rests (ops.status d) (ops.status (ops.cmd .hwsync d).2)
  run : ∀ d, (ops.status d).state = .prepared → Rests (ops.status d) (ops.status (ops.run d))
  setControl : ∀ c d, (ops.status d).state = .prepared → Rests (ops.status d) (ops.status (ops.setControl c d))
  setBuffer : ∀ b d, (ops.status d).state = .prepared → Rests (ops.status d) (ops.status (ops.setBuffer b d))

/-- A transfer before it starts the stream: the application is at `pos`, with room for `avail` frames,
`written` of its own before it. -/
structure Idle (ops : PcmOps σ) (p : Pcm) (pos avail written : Nat) (w : World σ) : Prop where
  handle : p.Same w.pcm
  positions : Positions p (ops.status w.dev).hwPtr (applPtrOf ops w) pos avail
  prepared : (ops.status w.dev).state = .prepared
  agrees : PtrAgrees ops w
  written : committedFrames w.trace = written
  unstarted : Unstarted w.trace

namespace Idle

variable {p : Pcm} {pos avail written : Nat} {w w' : World σ}

theorem step (h : Idle ops p pos avail written w) (hpcm : w.pcm.Same w'.pcm) (hptr : applPtrOf ops w' = applPtrOf ops w)
    (hagr : PtrAgrees ops w') (hrest : Rests (ops.status w.dev) (ops.status w'.dev))
    (ht : w'.trace = w.trace ∨ ∃ c, c.calm ∧ w'.trace = c :: w.trace) : Idle ops p pos avail written w' := by
  obtain ⟨hun, hcm⟩ : Unstarted w'.trace ∧ committedFrames w'.trace = committedFrames w.trace := by
    rcases ht with ht | ⟨c, hc, ht⟩
    · rw [ht]; exact ⟨h.unstarted, rfl⟩
    · rw [ht]; exact calm_cons hc h.unstarted
  refine ⟨h.handle.trans hpcm, ?_, hrest.1.trans h.prepared, hagr, hcm.trans h.written, hun⟩
  rw [hrest.2, hptr]
  exact h.positions

theorem devStep (h : Idle ops p pos avail written w) (hpcm : w'.pcm = w.pcm)
    (hctl : ops.control w'.dev = ops.control w.dev) (hrest : Rests (ops.status w.dev) (ops.status w'.dev))
    (ht : w'.trace = w.trace ∨ ∃ c, c.calm ∧ w'.trace = c :: w.trace) : Idle ops p pos avail written w' := by
  refine h.step (by rw [hpcm]; exact .refl _) ?_ (h.agrees.congr (by rw [hpcm]) hctl) hrest ht
  rw [applPtrOf, applPtrOf, hpcm, hctl]

variable (hl : ControlLaws ops) (hs : PreparedLaws ops)

include hl hs

theorem ringInvariant : RingInvariant ops p pos fun a w => a = avail ∧ Idle ops p pos avail written w where
  handle a w h := h.2.handle
  positions a w h := by rw [h.1]; exact h.2.positions
  error a w e h := ⟨h.1, h.2.step ⟨w.pcm.syncPtr, e, rfl⟩ rfl h.2.agrees ⟨rfl, rfl⟩ (.inl rfl)⟩
  run a w h := ⟨a, le_rfl, h.1, h.2.devStep rfl (hl.run _) (hs.run _ h.2.prepared) (.inl rfl)⟩
  hwsync a w h := ⟨a, le_rfl, h.1, h.2.devStep rfl (hl.cmd _ _ (by decide)) (hs.hwsync _ h.2.prepared).2
    (.inr ⟨.cmd .hwsync _, rfl, rfl⟩)⟩
  sync a w s flags hsp h := by
    obtain ⟨hret, hnew⟩ := hs.accepts { s with flags } w.dev h.2.prepared
    obtain ⟨hptr, hagr⟩ := h.2.agrees.sync hl hsp flags
    rw [exec_ioctlSyncPtr] at hptr hagr ⊢
    refine ⟨hret, fun s' hs' => ?_, a, le_rfl, h.1, ?_⟩
    · rw [← Option.some.inj hs']
      exact hnew
    · exact h.2.step ⟨some _, _, rfl⟩ hptr hagr (hs.syncPtr _ _ h.2.prepared) (.inr ⟨.syncPtr flags _ _ _, rfl, rfl⟩)

/-! ## A pass over the ring -/

theorem pcmMmapAvail (hp : RingSized p) : Triple (Idle ops p pos avail written) (pcmMmapAvail ops)
    fun r w => Idle ops p pos avail written w ∧ r = CInt.wrapInt avail := by
  intro w h
  obtain ⟨b, c, hab, hbc, -, hret, rfl, h'⟩ := (ringInvariant hl hs).pcmMmapAvail hp avail w ⟨rfl, h⟩
  obtain rfl : b = c := by omega
  exact ⟨h', hret⟩

theorem pcmMmapBegin (hp : RingSized p) (n : UInt32) : Triple (Idle ops p pos avail written) (pcmMmapBegin ops n)
    fun r w => Idle ops p pos avail written w ∧
      r.2.toNat = min (min n.toNat avail) (p.bufferSize.toNat - pos % p.bufferSize.toNat) := by
  intro w h
  obtain ⟨b, c, hab, hbc, ⟨rfl, h'⟩, -, hn⟩ := (ringInvariant hl hs).pcmMmapBegin hp avail n w ⟨rfl, h⟩
  obtain rfl : b = c := by omega
  exact ⟨h', hn⟩

theorem pcmAreasCopy (slot source n : UInt32) :
    KeepsPcm (Idle ops p pos avail written) (pcmAreasCopy ops slot source n) := by
  have hmark : KeepsPcm (Idle ops p pos avail written) (record (.copy slot source n)) := fun w h =>
    h.devStep rfl rfl ⟨rfl, rfl⟩ (.inr ⟨.copy slot source n, rfl, rfl⟩)
  refine Triple.bind get fun _ => Triple.bind hmark fun _ => ?_
  refine Triple.ite (fun _ => Triple.modify fun w h => ?_) fun _ => Triple.modify fun w h => ?_
  · have hrun := hs.run _ h.prepared
    split
    · exact h.devStep rfl (hl.run _) hrun (.inl rfl)
    · have hset := fun b => hs.setBuffer b _ (hrun.1.trans h.prepared)
      exact h.devStep rfl ((hl.setBuffer _ _).trans (hl.run _)) ((hrun.trans (hset _))) (.inl rfl)
  · exact h.devStep rfl rfl ⟨rfl, rfl⟩ (.inl rfl)

theorem pcmMmapCommit (hp : RingSized p) {n : UInt32} (hn : n.toNat ≤ avail) (hmax : n.toNat ≤ CInt.intMax) :
    Triple (Idle ops p pos avail written) (pcmMmapCommit ops n) fun ret w =>
      Idle ops p (pos + n.toNat) (avail - n.toNat) (written + n.toNat) w ∧ ret = n.toNat := by
  -- the pointer moves and is handed over before the frames are recorded
  have hsynced : Triple (Idle ops p pos avail written) (do
      pcmMmapApplForward ops (CInt.ofUInt n)
      pcmSyncPtr ops {} : PcmM σ Int) fun r w => r = 0 ∧ Idle ops p (pos + n.toNat) (avail - n.toNat) written w := by
    intro w h
    rw [exec_bind]
    obtain ⟨hptr, ⟨s, hpcm⟩, -, -, hdev⟩ := pcmMmapApplForward_effect hl (CInt.ofUInt n) w
    have ht := pcmMmapApplForward_trace ops (CInt.ofUInt n) w
    generalize (exec (pcmMmapApplForward ops (CInt.ofUInt n)) w).2 = w₁ at hptr hpcm hdev ht ⊢
    have hsame : p.Same w₁.pcm := h.handle.trans ⟨s, w.pcm.error, hpcm⟩
    have hrest : Rests (ops.status w.dev) (ops.status w₁.dev) := by
      rcases hdev with ⟨-, -, hdev⟩ | ⟨-, -, c, hdev⟩
      · rw [hdev]; exact ⟨rfl, rfl⟩
      · rw [hdev]
        have hrun := hs.run _ h.prepared
        have hrun' := hs.run _ (hrun.1.trans h.prepared)
        exact (hrun.trans hrun').trans (hs.setControl _ _ (hrun'.1.trans (hrun.1.trans h.prepared)))
    have hbound : w.pcm.boundary = p.boundary := by
      obtain ⟨s, e, hpcm⟩ := h.handle
      rw [hpcm]
    have hpos : Positions p (ops.status w₁.dev).hwPtr (applPtrOf ops w₁) (pos + n.toNat) (avail - n.toNat) := by
      rw [hptr, hrest.2, hbound]
      exact h.positions.forward hp hn hmax
    have hprep : (ops.status w₁.dev).state = .prepared := hrest.1.trans h.prepared
    obtain ⟨hun, hcm⟩ := calm_cons (c := .forward (CInt.ofUInt n) w.pcm.boundary) rfl h.unstarted
    rw [← ht] at hun hcm
    obtain ⟨hnone, heq⟩ | ⟨s, hdev', ⟨b, a, ht'⟩, hsame', hptr', hret⟩ := pcmSyncPtr_push hl w₁
    · rw [heq]
      exact ⟨rfl, hsame, hpos, hprep, .of_mapped hnone, hcm.trans h.written, hun⟩
    · obtain ⟨hneg, -⟩ | ⟨-, hzero, hagr⟩ := hret
      · exact absurd (hs.accepts s _ hprep).1 (not_le.2 hneg)
      · have hrest' := hs.syncPtr s _ hprep
        rw [← hdev'] at hrest'
        obtain ⟨hun', hcm'⟩ := calm_cons (c := .syncPtr {} (ops.syncPtr s w₁.dev).1.ret b a) rfl hun
        rw [← ht'] at hun' hcm'
        refine ⟨hzero, hsame.trans hsame', ?_, hrest'.1.trans hprep, hagr, hcm'.trans (hcm.trans h.written), hun'⟩
        rw [hptr', hrest'.2]
        exact hpos
  intro w h
  obtain ⟨hzero, h'⟩ := hsynced w h
  rw [exec_bind] at hzero h'
  have hpos : CInt.ofUInt n = n.toNat := CInt.ofUInt_of_le hmax
  simp only [Tinyalsa.pcmMmapCommit, exec_bind, exec_record, exec_pure, hzero, not_true_eq_false, if_false, ne_eq]
  refine ⟨⟨h'.handle, h'.positions, h'.prepared, h'.agrees, ?_, h'.unstarted.commit n _⟩, hpos⟩
  rw [World.push_trace, committedFrames, if_neg (show ¬ CInt.ofUInt n < 0 by omega), h'.written, Nat.add_comm]

/-- A pass over the ring writes all it has room for. With enough fuel it returns. -/
theorem transferAreasLoop (hp : RingSized p) : ∀ (fuel : Nat) (offset size count : UInt32) (pos avail written : Nat),
    count.toNat + size.toNat ≤ CInt.intMax → avail ≤ p.bufferSize.toNat →
    Triple (Idle ops p pos avail written) (transferAreasLoop ops fuel offset size count) fun r w =>
      (r = none ∧ fuel ≤ min size.toNat avail ∧ Unstarted w.trace) ∨
      (r = some ((count.toNat + min size.toNat avail : Nat) : Int) ∧
        Idle ops p (pos + min size.toNat avail) (avail - min size.toNat avail) (written + min size.toNat avail) w)
  | 0, _, _, _, _, _, _, _, _ => Triple.pure _ fun w h => .inl ⟨rfl, Nat.zero_le _, h.unstarted⟩
  | fuel + 1, offset, size, count, pos, avail, written, hfit, hle => by
    have hsize : size ≠ 0 ↔ size.toNat ≠ 0 := by rw [Ne, ← UInt32.toNat_inj]; rfl
    refine Triple.bind (pcmMmapAvail hl hs hp) fun r => Triple.assume fun hr => ?_
    have havail : r ≠ 0 ↔ avail ≠ 0 := by
      rw [hr]
      exact not_congr (CInt.wrapInt_eq_zero (hle.trans_lt p.bufferSize.toNat_lt))
    refine Triple.ite (fun hmore => ?_) fun hdone => ?_
    · rw [havail, hsize] at hmore
      have hslot := Nat.mod_lt pos hp.nonempty
      refine Triple.bind (pcmMmapBegin hl hs hp size) fun ⟨slot, n⟩ => Triple.assume fun hn => ?_
      replace hn : n.toNat = min (min size.toNat avail) (p.bufferSize.toNat - pos % p.bufferSize.toNat) := hn
      refine Triple.bind (pcmAreasCopy hl hs slot offset n) fun _ => ?_
      refine Triple.bind (pcmMmapCommit hl hs hp (by omega) (by omega)) fun ret => Triple.assume fun hret => ?_
      rw [hret]
      refine Triple.ite (fun hneg => absurd hneg (by omega)) fun _ => ?_
      rw [CInt.toUInt_toNat]
      unfold CInt.intMax at hfit
      have hcount' : (count + n).toNat = count.toNat + n.toNat := by rw [UInt32.toNat_add]; omega
      have hsize' : (size - n).toNat = size.toNat - n.toNat := by
        rw [UInt32.toNat_sub_of_le _ _ (UInt32.le_iff_toNat_le.2 (by omega))]
      have hnext := transferAreasLoop hp fuel (offset + n) (size - n) (count + n) (pos + n.toNat) (avail - n.toNat)
        (written + n.toNat)
      rw [hcount', hsize'] at hnext
      refine (hnext (by unfold CInt.intMax; omega) (by omega)).post fun r w hw => ?_
      have hrest : n.toNat + min (size.toNat - n.toNat) (avail - n.toNat) = min size.toNat avail := by omega
      obtain ⟨hnone, hfuel, hun⟩ | ⟨hsome, h⟩ := hw
      · exact .inl ⟨hnone, by omega, hun⟩
      · rw [Nat.add_assoc, hrest] at hsome
        rw [Nat.add_assoc, Nat.add_assoc, Nat.sub_sub, hrest] at h
        exact .inr ⟨hsome, h⟩
    · rw [havail, hsize] at hdone
      refine Triple.pure _ fun w h => ?_
      have hz : min size.toNat avail = 0 := by omega
      rw [hz, Nat.add_zero, Nat.add_zero, Nat.add_zero, Nat.sub_zero, CInt.ofUInt_of_le (by omega)]
      exact .inr ⟨rfl, h⟩

theorem pcmMmapTransferAreas (hp : RingSized p) (fuel : Nat) (offset size : UInt32) (hfit : size.toNat ≤ CInt.intMax)
    (hle : avail ≤ p.bufferSize.toNat) :
    Triple (Idle ops p pos avail written) (pcmMmapTransferAreas ops fuel offset size) fun r w =>
      (r = none ∧ fuel ≤ min size.toNat avail ∧ Unstarted w.trace) ∨
      (r = some ((min size.toNat avail : Nat) : Int) ∧
        Idle ops p (pos + min size.toNat avail) (avail - min size.toNat avail) (written + min size.toNat avail) w) := by
  have hmark : KeepsPcm (Idle ops p pos avail written) (record .areas) := fun w h =>
    h.devStep rfl rfl ⟨rfl, rfl⟩ (.inr ⟨.areas, rfl, rfl⟩)
  refine Triple.bind hmark fun _ => ?_
  have hloop := transferAreasLoop hl hs hp fuel offset size 0 pos avail written (by simpa using hfit) hle
  simpa using hloop

/-! ## Starting -/

/-- A prepared stream accepts every synchronisation. -/
theorem pcmSyncPtr (flags : SyncFlags) : Triple (Idle ops p pos avail written) (pcmSyncPtr ops flags)
    fun r w => (Idle ops p pos avail written w ∧ StatusFresh ops w) ∧ r = 0 := by
  intro w h
  obtain ⟨b, -, ⟨-, h'⟩, hfresh⟩ := (ringInvariant hl hs).pcmSyncPtr flags avail w ⟨rfl, h⟩
  refine ⟨⟨h', hfresh⟩, ?_⟩
  unfold Tinyalsa.pcmSyncPtr
  cases hsp : w.pcm.syncPtr with
  | none =>
    simp only [exec_bind, exec_get, hsp, exec_ite, exec_ioctl, exec_pure, (hs.hwsync _ h.prepared).1, if_false]
    split <;> rfl
  | some s =>
    have hret := (hs.accepts { s with flags } w.dev h.prepared).1
    simp only [exec_bind, exec_get, hsp, exec_ioctlSyncPtr, exec_pure, not_lt.2 hret, if_false]

theorem mmapStatus : Triple (fun w => Idle ops p pos avail written w ∧ StatusFresh ops w) (mmapStatus ops)
    fun st w => Idle ops p pos avail written w ∧ st.state = .prepared := by
  rintro w ⟨h, hfresh⟩
  unfold Tinyalsa.mmapStatus
  cases hsp : w.pcm.syncPtr with
  | none =>
    have hrun := hs.run _ h.prepared
    simp only [exec_bind, exec_get, hsp, exec_modify, exec_pure]
    exact ⟨h.devStep rfl (hl.run _) hrun (.inl rfl), hrun.1.trans h.prepared⟩
  | some s =>
    simp only [exec_bind, exec_get, hsp, exec_pure]
    exact ⟨h, by rw [hfresh s hsp]; exact h.prepared⟩

/-- `pcm_start` issues `START` to a prepared stream. -/
theorem pcmStart (filled threshold : Nat) : Triple (Idle ops p pos avail written) (pcmStart ops)
    fun _ w => Started w.trace ∧ WaitsHonoured filled threshold w.trace := by
  have hI := started_invariant ops filled threshold
  have hstate : Triple (Idle ops p pos avail written) (pcmState ops) fun r w =>
      Idle ops p pos avail written w ∧ r = PcmState.prepared.code := by
    refine Triple.bind (pcmSyncPtr hl hs _) fun r => Triple.assume fun hr => ?_
    rw [hr]
    refine Triple.ite (fun hneg => absurd hneg (lt_irrefl 0)) fun _ => ?_
    refine Triple.bind (mmapStatus hl hs) fun st => Triple.assume fun hst => ?_
    rw [hst]
    exact Triple.pure _ fun w h => ⟨h, rfl⟩
  have hstart : Triple (Idle ops p pos avail written) (ioctl ops .start) fun _ w =>
      Started w.trace ∧ WaitsHonoured filled threshold w.trace := fun w h =>
    ⟨⟨_, List.mem_cons_self, rfl⟩, h.unstarted.2 filled threshold⟩
  refine Triple.bind hstate fun r => Triple.assume fun hr => ?_
  rw [hr]
  refine Triple.ite (fun heq => absurd (PcmState.code_inj.1 heq) (by decide)) fun _ => ?_
  refine Triple.bind (pcmSyncPtr hl hs _) fun r => Triple.assume fun hr => ?_
  rw [hr]
  refine Triple.ite (fun hneg => absurd hneg (lt_irrefl 0)) fun _ => ?_
  refine Triple.bind (mmapStatus hl hs) fun st => Triple.assume fun hst => ?_
  rw [hst]
  refine Triple.ite (fun _ => ?_) fun hrun => absurd hrun (by decide)
  refine Triple.bind hstart fun _ => Triple.ite (fun _ => ?_) fun _ => pure _
  exact Triple.bind get fun _ => hI.oops _ _

/-! ## The loop -/

omit hl hs in
theorem reachesThreshold_iff {q : Pcm} (hsame : p.Same q) {filled : Nat} {room : UInt32}
    (hroom : room.toNat + filled = p.bufferSize.toNat) :
    reachesThreshold q room ↔ p.config.startThreshold.toNat ≤ filled := by
  obtain ⟨s, e, rfl⟩ := hsame
  have hsub : (p.bufferSize - room).toNat = filled := by
    rw [UInt32.toNat_sub_of_le _ _ (UInt32.le_iff_toNat_le.2 (by omega))]
    omega
  unfold reachesThreshold
  rw [decide_eq_true_eq, ge_iff_le, UInt64.le_iff_toNat_le, UInt32.toNat_toUInt64, hsub]

omit hl hs in
/-- A fill level below the threshold, read before the pass, starts nothing. -/
theorem startIfReached_below {filled : Nat} {room : UInt32} (hroom : room.toNat + filled = p.bufferSize.toNat)
    (hlow : filled < p.config.startThreshold.toNat) :
    Triple (Idle ops p pos avail written) (startIfReached ops true .prepared room)
      fun go w => Idle ops p pos avail written w ∧ go = true := by
  intro w h
  have hnot : reachesThreshold w.pcm room = false := by
    rw [← Bool.not_eq_true, reachesThreshold_iff h.handle hroom]
    omega
  simp only [startIfReached, exec_bind, exec_get, hnot, Bool.and_false, Bool.false_eq_true, if_false, exec_pure]
  exact ⟨h, trivial⟩

theorem startIfReached_reached {filled : Nat} {room : UInt32} (hroom : room.toNat + filled = p.bufferSize.toNat)
    (hhigh : p.config.startThreshold.toNat ≤ filled) (threshold : Nat) :
    Triple (Idle ops p pos avail written) (startIfReached ops true .prepared room)
      fun _ w => Started w.trace ∧ WaitsHonoured filled threshold w.trace := by
  intro w h
  have hyes : reachesThreshold w.pcm room = true := (reachesThreshold_iff h.handle hroom).2 hhigh
  simp only [startIfReached, exec_bind, exec_get, hyes, Bool.and_true, decide_true, if_true, exec_pure]
  exact pcmStart hl hs filled threshold w h

/-- The first pass of the loop over a ring with room: it writes what fits, then decides about the start. -/
theorem loop_pass (hp : RingSized p) {fuel : Nat} {userOffset frames : UInt32} (hne : frames ≠ 0)
    (hfit : frames.toNat ≤ CInt.intMax) (hle : avail ≤ p.bufferSize.toNat) (hroom : avail ≠ 0)
    {Q : Option UInt32 → World σ → Prop} (hnone : ∀ w, fuel ≤ min frames.toNat avail → Unstarted w.trace → Q none w)
    (hsome : ∀ room : UInt32, room.toNat = avail →
      Triple (Idle ops p (pos + min frames.toNat avail) (avail - min frames.toNat avail)
      (written + min frames.toNat avail)) (startIfReached ops true .prepared room >>= fun go =>
          if go = true then
            mmapTransferLoop ops true .prepared fuel (userOffset + CInt.toUInt (min frames.toNat avail : Nat))
              (frames - CInt.toUInt (min frames.toNat avail : Nat))
          else Pure.pure (some (userOffset + CInt.toUInt (min frames.toNat avail : Nat)))) Q) :
    Triple (Idle ops p pos avail written) (mmapTransferLoop ops true .prepared (fuel + 1) userOffset frames) Q := by
  refine Triple.ite (fun hz => absurd hz hne) fun _ => ?_
  refine Triple.bind (pcmMmapAvail hl hs hp) fun r => Triple.assume fun hr => ?_
  have hval : (CInt.toUInt r).toNat = avail := by
    rw [hr]
    exact CInt.toNat_toUInt_wrapInt (hle.trans_lt p.bufferSize.toNat_lt)
  have hpos : CInt.toUInt r ≠ 0 := by
    rw [Ne, ← UInt32.toNat_inj, hval]
    exact hroom
  refine Triple.bind (m := waitForRoom ops fuel (CInt.toUInt r))
    (Q := fun go w => Idle ops p pos avail written w ∧ go = some true)
    (fun w h => ?_) fun go => Triple.assume fun hgo => ?_
  · simp only [waitForRoom, if_neg hpos, exec_pure]
    exact ⟨h, trivial⟩
  rw [hgo]
  refine Triple.bind (pcmMmapTransferAreas hl hs hp fuel userOffset frames hfit hle) fun t => ?_
  rintro w (⟨rfl, hfuel, hun⟩ | ⟨rfl, h⟩)
  · exact hnone w hfuel hun
  · simp only [exec_ite]
    rw [if_neg (not_lt.2 (Int.natCast_nonneg _))]
    exact hsome _ hval w h

/-- While the threshold is out of reach, a transfer neither waits nor starts. -/
theorem loop_below (hp : RingSized p) {filled : Nat} {frames : UInt32} (hfit : frames.toNat ≤ CInt.intMax)
    (hle : p.config.startThreshold.toNat ≤ p.bufferSize.toNat)
    (hlow : filled + frames.toNat < p.config.startThreshold.toNat) (fuel : Nat) (userOffset : UInt32) :
    Triple (Idle ops p pos (p.bufferSize.toNat - filled) 0) (mmapTransferLoop ops true .prepared fuel userOffset frames)
      fun r w => WaitsHonoured filled p.config.startThreshold.toNat w.trace ∧
        (r.isSome → filled + committedFrames w.trace < p.config.startThreshold.toNat) := by
  have hend : ∀ (r : Option UInt32) pos avail written, filled + written < p.config.startThreshold.toNat →
      Triple (Idle ops p pos avail written) (Pure.pure r : PcmM σ (Option UInt32)) fun r w =>
        WaitsHonoured filled p.config.startThreshold.toNat w.trace ∧
          (r.isSome → filled + committedFrames w.trace < p.config.startThreshold.toNat) := by
    refine fun r pos avail written hlt => Triple.pure _ fun w h => ⟨h.unstarted.2 _ _, fun _ => ?_⟩
    rw [h.written]
    exact hlt
  cases fuel with
  | zero => exact hend none _ _ _ (by omega)
  | succ fuel =>
    by_cases hz : frames = 0
    · exact Triple.ite (fun _ => hend _ _ _ _ (by omega)) fun hne => absurd hz hne
    refine loop_pass hl hs hp hz hfit (Nat.sub_le _ _) (by omega) (fun w _ hun => ⟨hun.2 _ _, fun h => by cases h⟩) ?_
    have hmin : min frames.toNat (p.bufferSize.toNat - filled) = frames.toNat := by omega
    rw [hmin, CInt.toUInt_toNat, UInt32.sub_self]
    intro room hroom
    refine Triple.bind (startIfReached_below (show room.toNat + filled = p.bufferSize.toNat by omega) (by omega))
      fun go => Triple.assume fun hgo => ?_
    rw [hgo, if_pos rfl]
    cases fuel with
    | zero => exact hend none _ _ _ (by omega)
    | succ fuel => exact Triple.ite (fun _ => hend _ _ _ _ (by omega)) fun hne => absurd rfl hne

/-- A ring filled to the threshold, with room left, is started after the first pass. -/
theorem loop_reached (hp : RingSized p) {filled : Nat} {frames : UInt32} (hne : frames ≠ 0)
    (hfit : frames.toNat ≤ CInt.intMax)
    (hhigh : p.config.startThreshold.toNat ≤ filled) (hroom : filled < p.bufferSize.toNat) (fuel : Nat)
    (userOffset : UInt32) (threshold : Nat) :
    Triple (Idle ops p pos (p.bufferSize.toNat - filled) 0) (mmapTransferLoop ops true .prepared fuel userOffset frames)
      fun r w => WaitsHonoured filled threshold w.trace ∧ (r.isSome → Started w.trace) := by
  have hI := started_invariant ops filled threshold
  cases fuel with
  | zero => exact Triple.pure _ fun w h => ⟨h.unstarted.2 _ _, fun h => by cases h⟩
  | succ fuel =>
    refine loop_pass hl hs hp hne hfit (Nat.sub_le _ _) (by omega) (fun w _ hun => ⟨hun.2 _ _, fun h => by cases h⟩) ?_
    intro room hval
    refine Triple.bind (startIfReached_reached hl hs
      (show room.toNat + filled = p.bufferSize.toNat by omega) hhigh threshold) fun go => ?_
    refine Triple.post (Q := fun _ w => Started w.trace ∧ WaitsHonoured filled threshold w.trace) ?_ fun _ w h =>
      ⟨h.2, fun _ => h.1⟩
    exact Triple.ite (fun _ => hI.mmapTransferLoop true .prepared fuel _ _) fun _ => pure _

/-- A full ring that nobody started: the loop waits for it, or returns. -/
theorem loop_full (hp : RingSized p) {filled threshold : Nat} (hhigh : threshold ≤ filled + written) (fuel : Nat)
    {userOffset frames : UInt32} (hne : frames ≠ 0) :
    Triple (Idle ops p pos 0 written) (mmapTransferLoop ops true .prepared (fuel + 2) userOffset frames) fun r w =>
      WaitsHonoured filled threshold w.trace → r.isSome ∧ threshold ≤ filled + committedFrames w.trace ∧
      ¬ Started w.trace := by
  have hI := broken_invariant ops filled threshold
  have havail : Triple (Idle ops p pos 0 written) (Tinyalsa.pcmMmapAvail ops) fun r w =>
      Idle ops p pos 0 written w ∧ r = 0 := by
    refine (pcmMmapAvail hl hs hp).post fun r w h => ⟨h.1, ?_⟩
    rw [h.2]
    exact (CInt.wrapInt_eq_zero (by decide)).2 rfl
  have hflag : ∀ w, Idle ops p pos 0 written w → w.pcm.isNonblock = p.isNonblock := by
    intro w h
    obtain ⟨s, e, hpcm⟩ := h.handle
    rw [hpcm]
    rfl
  cases hnb : p.isNonblock with
  | true =>
    -- a non-blocking stream gives up on a full ring
    have hwait : Triple (Idle ops p pos 0 written) (waitForRoom ops (fuel + 1) (CInt.toUInt 0)) fun go w =>
        Idle ops p pos 0 written w ∧ go = some false := by
      intro w h
      simp only [waitForRoom, show CInt.toUInt 0 = 0 from rfl, if_true, exec_bind, exec_get, hflag w h, hnb, setErrno,
        exec_modify, exec_pure]
      exact ⟨h.devStep rfl rfl ⟨rfl, rfl⟩ (.inl rfl), trivial⟩
    refine Triple.ite (fun hz => absurd hz hne) fun _ => Triple.bind havail fun r => Triple.assume fun hr => ?_
    rw [hr]
    refine Triple.bind hwait fun go => Triple.assume fun hgo => ?_
    rw [hgo]
    exact Triple.pure _ fun w h _ => ⟨rfl, by rw [h.written]; exact hhigh, h.unstarted.1⟩
  | false =>
    -- a blocking one waits for room that a stream at rest never makes
    have hpoll : Triple (Idle ops p pos 0 written) (opsPoll ops (-1)) fun _ w =>
      ¬ WaitsHonoured filled threshold w.trace := by
      intro w h hw
      exact h.unstarted.1 (hw.1 (by rw [World.answered_trace, h.written]; exact hhigh))
    have hwait := hI.wait.pcmWait_of_poll (-1) hpoll fuel (hI.wait.pcmWait (-1) fuel)
    have hloop := hI.mmapTransferLoop_of_wait true .prepared (fuel + 1) userOffset frames
      (fun hz => absurd hz hne) havail
      (fun avail => Triple.assume fun hr => ?_) fun _ _ => hI.mmapTransferLoop true .prepared _ _ _
    · exact hloop.post fun r w hbroken hw => absurd hw hbroken
    rw [hr]
    refine Triple.ite (fun _ => Triple.get_bind fun v => Triple.ite (fun hyes => ?_) fun _ => ?_)
      fun hpos => absurd rfl hpos
    · rintro w ⟨h, rfl⟩
      rw [hflag w h, hnb] at hyes
      cases hyes
    · refine Triple.bind (hwait.pre fun _ hw => hw.1) fun r => ?_
      cases r with
      | none => exact pure _
      | some err => exact Triple.ite (fun _ => Triple.bind (hI.wait.setErrno _) fun _ => pure _) fun _ => pure _

/-- A transfer that fills the ring from below the threshold never starts the stream in that pass. -/
theorem loop_missed (hp : RingSized p) {filled : Nat} {frames : UInt32} (hne : frames ≠ 0)
    (hfit : frames.toNat ≤ CInt.intMax)
    (hlow : filled < p.config.startThreshold.toNat) (hle : p.config.startThreshold.toNat ≤ p.bufferSize.toNat)
    (hhigh : p.config.startThreshold.toNat ≤ filled + frames.toNat) (userOffset : UInt32) :
    Triple (Idle ops p pos (p.bufferSize.toNat - filled) 0)
      (mmapTransferLoop ops true .prepared (frames.toNat + 3) userOffset frames) fun r w =>
        WaitsHonoured filled p.config.startThreshold.toNat w.trace →
          r.isSome ∧ p.config.startThreshold.toNat ≤ filled + committedFrames w.trace ∧ ¬ Started w.trace := by
  refine loop_pass hl hs hp hne hfit (Nat.sub_le _ _) (by omega) (fun w hfuel => absurd hfuel (by omega)) ?_
  intro room hval
  refine Triple.bind (startIfReached_below (show room.toNat + filled = p.bufferSize.toNat by omega) hlow) fun go =>
    Triple.assume fun hgo => ?_
  rw [hgo, if_pos rfl]
  by_cases hfits : frames.toNat ≤ p.bufferSize.toNat - filled
  · -- all frames are written: the loop ends without a start
    rw [Nat.min_eq_left hfits, CInt.toUInt_toNat, UInt32.sub_self]
    refine Triple.ite (fun _ => Triple.pure _ fun w h _ => ⟨rfl, ?_, h.unstarted.1⟩) fun hz => absurd rfl hz
    rw [h.written]
    omega
  · -- the ring is full, and frames are left
    rw [Nat.min_eq_right (by omega), Nat.sub_self]
    have hroom : CInt.toUInt (p.bufferSize.toNat - filled : Nat) = room := by rw [← hval, CInt.toUInt_toNat]
    have hleft : frames - room ≠ 0 := by
      rw [Ne, ← UInt32.toNat_inj, UInt32.toNat_sub_of_le _ _ (UInt32.le_iff_toNat_le.2 (by omega)), hval]
      exact Nat.sub_ne_zero_of_lt (by omega)
    rw [hroom]
    exact loop_full hl hs hp (by omega) frames.toNat hleft

end Idle

/-! ## The whole transfer -/

/-- A prepared playback stream with `filled` frames in its ring, before the transfer. -/
structure Prepared (ops : PcmOps σ) (filled : Nat) (w : World σ) : Prop where
  playback : w.pcm.isIn = false
  prepared : (ops.status w.dev).state = .prepared
  hwPtr : (ops.status w.dev).hwPtr.toNat < w.pcm.boundary.toNat
  applPtr : (ops.control w.dev).applPtr.toNat = ((ops.status w.dev).hwPtr.toNat + filled) % w.pcm.boundary.toNat
  fits : filled ≤ w.pcm.bufferSize.toNat
  trace : w.trace = []

theorem unstarted_nil : Unstarted [] := ⟨fun ⟨_, hc, _⟩ => absurd hc List.not_mem_nil, fun _ _ => trivial⟩

/-- After its first `SYNC_PTR`, a transfer knows the ring. -/
theorem Prepared.idle (hl : ControlLaws ops) (hs : PreparedLaws ops) {filled : Nat} {w : World σ}
    (h : Prepared ops filled w) :
    (Idle ops w.pcm ((ops.status w.dev).hwPtr.toNat + filled) (w.pcm.bufferSize.toNat - filled) 0
        (exec (pcmSyncPtr ops entryFlags) w).2 ∧ StatusFresh ops (exec (pcmSyncPtr ops entryFlags) w).2) ∧
      (exec (pcmSyncPtr ops entryFlags) w).1 = 0 := by
  have hpos : ∀ {hwPtr applPtr : UInt64}, hwPtr = (ops.status w.dev).hwPtr → applPtr = (ops.control w.dev).applPtr →
      Positions w.pcm hwPtr applPtr ((ops.status w.dev).hwPtr.toNat + filled) (w.pcm.bufferSize.toNat - filled) := by
    rintro _ _ rfl rfl
    have hfits := h.fits
    refine ⟨h.applPtr, ⟨_, ?_, (Nat.mod_eq_of_lt h.hwPtr).symm⟩, Nat.sub_le _ _⟩
    simp only [Pcm.lead, h.playback, Bool.false_eq_true, if_false]
    omega
  cases hsp : w.pcm.syncPtr with
  | none =>
    have hidle : Idle ops w.pcm ((ops.status w.dev).hwPtr.toNat + filled) (w.pcm.bufferSize.toNat - filled) 0 w := by
      refine ⟨.refl _, hpos rfl (by rw [applPtrOf, hsp]; rfl), h.prepared, .of_mapped hsp, ?_, ?_⟩
      · rw [h.trace]; rfl
      · rw [h.trace]; exact unstarted_nil
    exact Idle.pcmSyncPtr hl hs entryFlags w hidle
  | some s =>
    obtain ⟨hret, hnew⟩ := hs.accepts { s with flags := entryFlags } w.dev h.prepared
    obtain ⟨hctl, hcopy⟩ := hl.syncPtr { s with flags := entryFlags } w.dev hret
    have hrest := hs.syncPtr { s with flags := entryFlags } w.dev h.prepared
    have happl := congrArg SndPcmMmapControl.applPtr hctl
    simp only [pcmSyncPtr, exec_bind, exec_get, hsp, exec_ioctlSyncPtr, exec_pure, not_lt.2 hret, if_false]
    refine ⟨⟨⟨⟨some _, _, rfl⟩, hpos hrest.2 ?_, hrest.1.trans h.prepared, fun s' hs' => ?_, ?_, ?_⟩, fun s' hs' => ?_⟩,
      trivial⟩
    · exact (congrArg SndPcmMmapControl.applPtr hcopy).trans happl
    · rw [← Option.some.inj hs']
      exact congrArg SndPcmMmapControl.applPtr hcopy.symm
    · simp only [World.push_trace, World.setPcm_trace, World.answered_trace, h.trace]
      rfl
    · simp only [World.push_trace, World.setPcm_trace, World.answered_trace, h.trace]
      exact (calm_cons rfl unstarted_nil).1
    · rw [← Option.some.inj hs']
      exact hnew

/-- A transfer of frames to a prepared stream is its loop. -/
theorem Prepared.transfer (hl : ControlLaws ops) (hs : PreparedLaws ops) {filled : Nat} {w : World σ}
    (h : Prepared ops filled w)
    {frames : UInt32} (hne : frames ≠ 0) :
    ∃ v, Idle ops w.pcm ((ops.status w.dev).hwPtr.toNat + filled) (w.pcm.bufferSize.toNat - filled) 0 v ∧
      ∀ fuel, exec (pcmMmapTransfer ops fuel frames) w =
        ((exec (mmapTransferLoop ops true .prepared fuel 0 frames) v).1.map transferResult,
          (exec (mmapTransferLoop ops true .prepared fuel 0 frames) v).2) := by
  obtain ⟨hfresh, hret⟩ := h.idle hl hs
  obtain ⟨hidle, hst⟩ := Idle.mmapStatus hl hs _ hfresh
  refine ⟨_, hidle, fun fuel => ?_⟩
  have hin : (exec (mmapStatus ops) (exec (pcmSyncPtr ops entryFlags) w).2).2.pcm.isIn = false := by
    obtain ⟨s, e, hpcm⟩ := hidle.handle
    rw [hpcm]
    exact h.playback
  rw [pcmMmapTransfer, if_neg hne, exec_bind, hret, if_neg (by decide), exec_bind, hst]
  simp only [startCapture, exec_bind, exec_get, hin, Bool.false_and, Bool.false_eq_true, if_false, exec_pure, if_true,
    Bool.not_false]

/-- A transfer honours the start threshold if and only if there is nothing to write, the ring was filled
to the threshold and not to the brim before it, or it stays below the threshold after it. -/
theorem pcmMmapTransfer_startHonoured_iff (hl : ControlLaws ops) (hs : PreparedLaws ops) {w : World σ}
    (hp : RingSized w.pcm)
    {filled : Nat} (hw : Prepared ops filled w) {frames : UInt32} (hmax : frames.toNat ≤ CInt.intMax)
    (hle : w.pcm.config.startThreshold.toNat ≤ w.pcm.bufferSize.toNat) :
    (∀ fuel, StartHonoured filled w.pcm.config.startThreshold.toNat frames (exec (pcmMmapTransfer ops fuel frames) w)) ↔
      frames = 0 ∨ (w.pcm.config.startThreshold.toNat ≤ filled ∧ filled < w.pcm.bufferSize.toNat) ∨
        filled + frames.toNat < w.pcm.config.startThreshold.toNat := by
  by_cases hz : frames = 0
  · refine iff_of_true (fun fuel => ?_) (.inl hz)
    rw [pcmMmapTransfer, if_pos hz, exec_pure]
    exact ⟨by rw [hw.trace]; trivial, fun hne => absurd hz hne⟩
  obtain ⟨v, hv, hloop⟩ := hw.transfer hl hs hz
  have hfits := hw.fits
  have hfull : w.pcm.bufferSize.toNat ≤ filled → w.pcm.bufferSize.toNat - filled = 0 := Nat.sub_eq_zero_of_le
  constructor
  · intro hall
    by_contra hnot
    have hbad : ∃ fuel, WaitsHonoured filled w.pcm.config.startThreshold.toNat
      (exec (mmapTransferLoop ops true .prepared fuel 0 frames) v).2.trace →
        (exec (mmapTransferLoop ops true .prepared fuel 0 frames) v).1.isSome ∧
          w.pcm.config.startThreshold.toNat ≤ filled + committedFrames
          (exec (mmapTransferLoop ops true .prepared fuel 0 frames) v).2.trace ∧
            ¬ Started (exec (mmapTransferLoop ops true .prepared fuel 0 frames) v).2.trace := by
      rcases Nat.lt_or_ge filled w.pcm.config.startThreshold.toNat with hlow | hhigh
      · exact ⟨frames.toNat + 3, Idle.loop_missed hl hs hp hz hmax hlow hle (by omega) 0 v hv⟩
      · rw [hfull (by omega)] at hv
        exact ⟨2, Idle.loop_full hl hs hp hhigh 0 hz v hv⟩
    obtain ⟨fuel, hfuel⟩ := hbad
    have hgood := hall fuel
    rw [hloop fuel] at hgood
    obtain ⟨hsome, hreach, hnever⟩ := hfuel hgood.waits
    exact hnever (hgood.returns hz (by rw [Option.isSome_map]; exact hsome) hreach)
  · rintro (hzero | ⟨hhigh, hroom⟩ | hlow) fuel
    · exact absurd hzero hz
    · obtain ⟨hwaits, hstart⟩ := Idle.loop_reached hl hs hp hz hmax hhigh hroom fuel 0
        w.pcm.config.startThreshold.toNat v hv
      rw [hloop fuel]
      exact ⟨hwaits, fun _ hsome _ => hstart (by rwa [Option.isSome_map] at hsome)⟩
    · obtain ⟨hwaits, hbelow⟩ := Idle.loop_below hl hs hp hmax hle hlow fuel 0 v hv
      rw [hloop fuel]
      refine ⟨hwaits, fun _ hsome hreach => absurd hreach (not_le.2 (hbelow ?_))⟩
      rwa [Option.isSome_map] at hsome

end

/-! ## On the kernel -/

theorem Kernel.willing_preparedLaws : PreparedLaws Kernel.willing where
  accepts _ _ _ := ⟨le_rfl, rfl⟩
  syncPtr _ _ _ := ⟨rfl, rfl⟩
  hwsync _ _ := ⟨show (0 : Int) ≠ -1 by decide, ⟨rfl, rfl⟩⟩
  run _ _ := ⟨rfl, rfl⟩
  setControl _ _ _ := ⟨rfl, rfl⟩
  setBuffer _ _ _ := ⟨rfl, rfl⟩

/-- The ring filled to half, which is its threshold. -/
def halfFull : World Kernel where
  pcm := { quadRing with config := { quadRing.config with startThreshold := 2 } }
  dev := { status := { state := .prepared, hwPtr := 2 }, control := ⟨4, 2⟩ }
  user := ⟨28, fun i => UInt8.ofNat i⟩

/-- More frames than the ring holds, written to a ring at its threshold. -/
theorem pcmMmapTransfer_startHonoured_halfFull :
    Prepared Kernel.willing 2 halfFull ∧
      ∀ fuel, StartHonoured 2 2 7 (exec (pcmMmapTransfer Kernel.willing fuel 7) halfFull) := by
  have hw : Prepared Kernel.willing 2 halfFull := ⟨by decide, by decide, by decide, by decide, by decide, rfl⟩
  refine ⟨hw, (pcmMmapTransfer_startHonoured_iff Kernel.willing_controlLaws Kernel.willing_preparedLaws
    ⟨by decide, by decide, by decide, by decide⟩ hw (by decide) (by decide)).2 (by decide)⟩

/-- Four frames written to an empty ring of four, with a threshold of four, start nothing; a fifth waits for
room that nobody makes. -/
theorem pcmMmapTransfer_startHonoured_not :
    Prepared Kernel.willing 0 (halfway []) ∧
      ¬ StartHonoured 0 4 4 (exec (pcmMmapTransfer Kernel.willing 6 4) (halfway [])) ∧
      ¬ WaitsHonoured 0 4 (exec (pcmMmapTransfer Kernel.willing 6 5) (halfway [])).2.trace := by
  refine ⟨⟨by decide, by decide, by decide, by decide, by decide, rfl⟩, fun h => ?_, by decide +kernel⟩
  exact absurd (h.returns (by decide) (by decide +kernel) (by decide +kernel)) (by decide +kernel)

end Tinyalsa
