/-
What opening and closing leave behind: the outcomes of opening a group, what closing adds to the
log, and a frame rule for the properties that no function of the mixer breaks.
-/
import Tinyalsa.Mixer.Invariant

namespace Tinyalsa

open Hoare

/-! ## Opening -/

section

variable {η π : Type} {leak : Nat} {w : MixWorld η π}

/-- How the opening of a group ends. -/
inductive OpenOutcome (leak : Nat) (k : GrpKind) (w : MixWorld η π) (r : Int × MixWorld η π) (new : List MixEvent) :
    Prop
  | absent (ret : r.1 < 0) (log : r.2.log = new ++ w.log) (fails : ∀ e ∈ new, ¬ e.setupFails) (inv : MixerInv r.2)
      (accounts : Accounts leak r.2) (ptr : r.2.mixer.ptr = w.mixer.ptr)
      (opened : ∀ k', k' ≠ k → .opened k' ∉ new) (tally : Tally w → Tally r.2)
  | present (ret : r.1 = 0) (log : r.2.log = new ++ w.log) (fails : ∀ e ∈ new, ¬ e.setupFails) (inv : MixerInv r.2)
      (accounts : Accounts leak r.2) (ptr : r.2.mixer.ptr = Function.update w.mixer.ptr k w.next)
      (opened : ∀ k', k' ≠ k → .opened k' ∉ new) (tally : Tally w → Tally r.2)
  | broken (ret : r.1 < 0) (log : r.2.log = new ++ w.log) (fails : ∃ e ∈ new, e.setupFails)
      (how : Dangling r.2 k)
  | leaked (kind : k = .hw) (ret : r.1 < 0) (log : r.2.log = new ++ w.log) (fails : ∃ e ∈ new, e.setupFails)
      (inv : MixerInv r.2) (accounts : Accounts (leak + 1) r.2) (ptr : r.2.mixer.ptr = w.mixer.ptr)
      (opened : ∀ k', k' ≠ k → .opened k' ∉ new)

/-- The set-up of a group that was just published. -/
theorem Publishes.outcome (b : MixBackends η π) {k : GrpKind} {w' : MixWorld η π} (new : List MixEvent)
    (h : Publishes k w w' new) (hi : MixerInv w) (ha : Accounts leak w) (hk : w.mixer.ptr k = 0)
    (ho : w.log.count (.opened k) = 0) (hnf : ∀ e ∈ new, ¬ e.setupFails)
    (hnew : ∀ k, ∀ e ∈ new, e.describes k = false) :
    ∃ new, OpenOutcome leak k w (exec (mixerGrpSetup b k w.next) w') new := by
  have hpos : w.next ≠ 0 := Nat.ne_of_gt (Nat.zero_lt_of_lt (ha.below k))
  have hptr : w'.mixer.ptr k = w.next := by rw [h.ptr, Function.update_self]
  have h0 : mixerGrpGetCount w'.heap (w'.mixer.ptr k) = 0 := by
    rw [hptr, h.heap, mixerGrpGetCount_update _ hpos, if_pos rfl]
  obtain ⟨new₂, hout⟩ := mixerGrpSetup_outcome b (h.inv hi ha hk) (h.accounts ha hk ho) (hptr ▸ hpos) h0
  rw [hptr] at hout
  have hlog : ∀ l : List MixEvent, l = new₂ ++ w'.log →
      l = (new₂ ++ new ++ [.opened k, .grpAlloc w.next]) ++ w.log := by
    rintro l rfl
    simp [h.log]
  refine ⟨new₂ ++ new ++ [.opened k, .grpAlloc w.next], ?_⟩
  rcases hout with ⟨hr, hl, hq, hnf₂, hi₂, ha₂, hp, htally⟩ | ⟨hr, hl, ⟨e, he, hf⟩, hd⟩
  · refine .present hr (hlog _ hl) ?_ hi₂ ha₂ (hp.trans h.ptr) ?_ fun ht => htally (h.tally ha hk hnew ht)
    · refine List.forall_mem_append.2 ⟨List.forall_mem_append.2 ⟨hnf₂, hnf⟩, ?_⟩
      simp [MixEvent.setupFails]
    · intro k' hne hm
      rcases List.mem_append.1 hm with hm | hm
      · rcases List.mem_append.1 hm with hm | hm
        · exact absurd (hq _ hm) (by simp [MixEvent.quiet])
        · exact absurd (h.quiet _ hm) (by simp [MixEvent.quiet])
      · simp [hne] at hm
  · exact .broken hr (hlog _ hl) ⟨e, List.mem_append_left _ (List.mem_append_left _ he), hf⟩ hd

theorem exec_mixerHwOpen (b : MixBackends η π) (w : MixWorld η π) : ∃ fd d₁ d₂,
    (fd < 0 ∧ exec (mixerHwOpen b) w = (fd, { w with hw := d₁, plug := d₂ })) ∨
    (0 ≤ fd ∧ exec (mixerHwOpen b) w = (if w.alloc 0 then fd else -1, { w with
      hw := d₁
      plug := d₂
      alloc := fun i => w.alloc (i + 1)
      isOpen := Function.update w.isOpen .hw true
      log := .hwData (w.alloc 0) :: .opened .hw :: w.log })) := by
  obtain ⟨fd, d₁, d₂, hopen⟩ := exec_openDev (b := b) (w := w) (k := .hw)
  refine ⟨fd, d₁, d₂, ?_⟩
  simp only [mixerHwOpen, exec_bind, hopen, exec_ite, exec_mixAlloc, exec_logMix, exec_pure]
  rcases lt_or_ge fd 0 with hneg | hpos
  · exact .inl ⟨hneg, by rw [if_pos hneg, if_pos hneg]⟩
  · rw [if_neg (not_lt.2 hpos), if_neg (not_lt.2 hpos)]
    refine .inr ⟨hpos, ?_⟩
    split <;> rfl

theorem Mixer.ptr_fd (m : Mixer) (fd : Int) : ({ m with fd } : Mixer).ptr = m.ptr := by
  funext k
  cases k <;> rfl

section

variable (b : MixBackends η π) (hi : MixerInv w) (ha : Accounts leak w) (hal : w.alloc 0 = true)

include hi ha hal

theorem mixerGrpOpen_outcome_hw (hk : w.mixer.ptr .hw = 0) (ho : w.log.count (.opened .hw) = 0) :
    ∃ new, OpenOutcome leak .hw w (exec (mixerGrpOpen b .hw) w) new := by
  have hpos : w.next ≠ 0 := Nat.ne_of_gt (Nat.zero_lt_of_lt (ha.below .hw))
  simp only [mixerGrpOpen, exec_bind, exec_callocGrp, hal, if_true, if_neg hpos, exec_modifyMixer]
  obtain ⟨fd, d₁, d₂, ⟨hneg, hopen⟩ | ⟨hge, hopen⟩⟩ := exec_mixerHwOpen b
    { w with
      alloc := fun i => w.alloc (i + 1)
      mixer := { w.mixer with fd := -1 }
      heap := Function.update w.heap w.next (some { kind := .hw })
      next := w.next + 1
      log := .grpAlloc w.next :: w.log }
  · -- the node does not open
    rw [hopen]
    simp only [if_pos hneg, exec_bind, exec_pure]
    rw [exec_freeGrp (g := { kind := .hw }) (Function.update_self ..)]
    have hp := w.mixer.ptr_fd (-1)
    obtain ⟨hi', ha'⟩ := withdrawn .hw 0 [] ({ w with
      hw := d₁
      plug := d₂
      alloc := fun i => w.alloc (i + 1)
      mixer := { w.mixer with fd := -1 }
      heap := Function.update (Function.update w.heap w.next (some { kind := .hw })) w.next none
      next := w.next + 1
      log := .grpFree w.next :: .grpAlloc w.next :: w.log }) hi ha rfl rfl (fun _ _ => rfl) rfl rfl hp rfl
      (fun hz => absurd hk hz) rfl (by simp) (ha.backendsOnce _)
    refine ⟨[.grpFree w.next, .grpAlloc w.next],
      .absent hneg rfl (by simp [MixEvent.setupFails]) hi' ha' hp (by simp) fun ht => ?_⟩
    exact ht.withdrawn (k := .hw) ha [.grpFree w.next, .grpAlloc w.next] rfl (by simp [MixEvent.describes]) rfl hp
  · rw [hopen]
    cases hd : w.alloc 1
    · -- no memory for the data of the backend: the descriptor stays open
      simp only [Bool.false_eq_true, if_false, exec_ite, exec_bind, exec_pure]
      rw [if_pos (by decide), exec_freeGrp (g := { kind := .hw }) (Function.update_self ..)]
      have hp := w.mixer.ptr_fd (-1)
      have hother : ∀ k', w.mixer.ptr k' ≠ 0 → Function.update w.isOpen .hw true k' = w.isOpen k' := by
        intro k' hz
        exact Function.update_of_ne (by rintro rfl; exact hz hk) _ _
      obtain ⟨hi', ha'⟩ := withdrawn .hw 1 [.hwData false, .opened .hw] ({ w with
        hw := d₁
        plug := d₂
        alloc := fun i => w.alloc (i + 1 + 1)
        mixer := { w.mixer with fd := -1 }
        heap := Function.update (Function.update w.heap w.next (some { kind := .hw })) w.next none
        next := w.next + 1
        isOpen := Function.update w.isOpen .hw true
        log := .grpFree w.next :: .hwData false :: .opened .hw :: .grpAlloc w.next :: w.log }) hi ha rfl rfl
        hother rfl rfl hp rfl (fun hz => absurd hk hz) rfl
        (by rintro (_ | _) <;> simp [List.count_cons, MixEvent.quiet]) (by omega)
      exact ⟨[.grpFree w.next, .hwData false, .opened .hw, .grpAlloc w.next],
        .leaked rfl (by show (-1 : Int) < 0; decide) rfl ⟨.hwData false, by simp, rfl⟩ hi' ha' hp (by simp)⟩
    · simp only [if_true, if_neg (not_lt.2 hge), exec_bind, exec_modifyMixer]
      exact Publishes.outcome b (k := .hw) [.hwData true]
        ⟨rfl, rfl, rfl, rfl, rfl, by funext k'; cases k' <;> rfl, rfl, fun _ => hge, rfl, by simp [MixEvent.quiet]⟩
        hi ha hk ho (by simp [MixEvent.setupFails]) (by simp [MixEvent.describes])

theorem mixerGrpOpen_outcome_plug (hk : w.mixer.ptr .plug = 0) (ho : w.log.count (.opened .plug) = 0) :
    ∃ new, OpenOutcome leak .plug w (exec (mixerGrpOpen b .plug) w) new := by
  have hpos : w.next ≠ 0 := Nat.ne_of_gt (Nat.zero_lt_of_lt (ha.below .plug))
  simp only [mixerGrpOpen, exec_bind, exec_callocGrp, hal, if_true, if_neg hpos]
  obtain ⟨ret, d₁, d₂, hopen⟩ := exec_openDev (b := b) (k := .plug) (w :=
    { w with
      alloc := fun i => w.alloc (i + 1)
      heap := Function.update w.heap w.next (some { kind := .plug })
      next := w.next + 1
      log := .grpAlloc w.next :: w.log })
  rw [hopen]
  rcases lt_or_ge ret 0 with hneg | hge
  · simp only [if_pos hneg, exec_bind, exec_pure]
    rw [exec_freeGrp (g := { kind := .plug }) (Function.update_self ..)]
    obtain ⟨hi', ha'⟩ := withdrawn .plug 0 [] ({ w with
      hw := d₁
      plug := d₂
      alloc := fun i => w.alloc (i + 1)
      heap := Function.update (Function.update w.heap w.next (some { kind := .plug })) w.next none
      next := w.next + 1
      log := .grpFree w.next :: .grpAlloc w.next :: w.log }) hi ha rfl rfl (fun _ _ => rfl) rfl rfl rfl rfl
      ha.fd rfl (by simp) (ha.backendsOnce _)
    refine ⟨[.grpFree w.next, .grpAlloc w.next],
      .absent hneg rfl (by simp [MixEvent.setupFails]) hi' ha' rfl (by simp) fun ht => ?_⟩
    exact ht.withdrawn (k := .plug) ha [.grpFree w.next, .grpAlloc w.next] rfl
      (by simp [MixEvent.describes]) rfl rfl
  · simp only [if_neg (not_lt.2 hge), exec_bind, exec_modifyMixer]
    exact Publishes.outcome b (k := .plug) []
      ⟨rfl, rfl, rfl, rfl, rfl, by funext k'; cases k' <;> rfl, rfl, ha.fd, rfl, by simp⟩ hi ha hk ho (by simp)
      (by simp)

end

/-- Opening a group, from a mixer in its invariant that has none of its kind. -/
theorem mixerGrpOpen_outcome (b : MixBackends η π) (k : GrpKind) (hi : MixerInv w) (ha : Accounts leak w)
    (hk : w.mixer.ptr k = 0) (ho : w.log.count (.opened k) = 0) :
    ∃ new, OpenOutcome leak k w (exec (mixerGrpOpen b k) w) new := by
  cases hal : w.alloc 0
  · -- no memory for the group
    simp only [mixerGrpOpen, exec_bind, exec_callocGrp, hal, Bool.false_eq_true, if_false, if_true, exec_pure]
    refine ⟨[], .absent (by show -eNoMem < 0; decide) rfl (by simp) (hi.irrel _ _ _ w.log w.mixer rfl rfl) ?_
      rfl (by simp) id⟩
    exact ha.quiet [] (by simp) rfl rfl rfl rfl rfl
  · cases k with
    | hw => exact mixerGrpOpen_outcome_hw b hi ha hal hk ho
    | plug => exact mixerGrpOpen_outcome_plug b hi ha hal hk ho

end

/-! ## Closing -/

section

variable {η π : Type} {b : MixBackends η π} {leak : Nat} {w : MixWorld η π}

/-- Closes the backend of a group and frees the group. -/
theorem exec_closeGroup {k : GrpKind} {a : Addr} {g : MixerCtlGroup} (hg : w.heap a = some g) (hk : g.kind = k)
    (ha : a ≠ 0) (ho : w.isOpen k = true) :
    ∃ d₁ d₂, exec (mixerGrpClose a) (exec (closeGrpDev b a) w).2 = ((), { w with
      hw := d₁
      plug := d₂
      mixer := { w.mixer with isCardInfoRetrieved := false }
      heap := Function.update w.heap a none
      isOpen := Function.update w.isOpen k false
      log := .grpFree a :: .closed k :: w.log }) := by
  obtain ⟨d₁, d₂, hclose⟩ := exec_closeDev (b := b) (w := w) (k := k)
  have hdev : exec (closeGrpDev b a) w = exec (closeDev b k) w := by
    simp only [closeGrpDev, exec_bind, exec_derefGrp hg, hk]
  have hfree := exec_freeGrp (w := (exec (closeDev b k) w).2) (a := a) (g := g) (by rw [hclose]; exact hg)
  rw [hclose] at hfree
  refine ⟨d₁, d₂, ?_⟩
  rw [hdev, hclose]
  simp only [mixerGrpClose, if_neg ha, exec_bind, hfree, exec_modifyMixer]
  simp [ho]

theorem exec_mixerClose : exec (mixerClose b) w =
    if w.mixer.fd ≥ 0 ∧ w.mixer.hGrp ≠ 0 then
      if w.mixer.vGrp ≠ 0 then
        exec (mixerGrpClose w.mixer.vGrp) (exec (closeGrpDev b w.mixer.vGrp)
          (exec (mixerGrpClose w.mixer.hGrp) (exec (closeGrpDev b w.mixer.hGrp) w).2).2).2
      else
        exec (mixerGrpClose w.mixer.vGrp)
          (exec (mixerGrpClose w.mixer.hGrp) (exec (closeGrpDev b w.mixer.hGrp) w).2).2
    else
      if w.mixer.vGrp ≠ 0 then
        exec (mixerGrpClose w.mixer.vGrp) (exec (closeGrpDev b w.mixer.vGrp)
          (exec (mixerGrpClose w.mixer.hGrp) w).2).2
      else exec (mixerGrpClose w.mixer.vGrp) (exec (mixerGrpClose w.mixer.hGrp) w).2 := by
  simp only [mixerClose, exec_bind, exec_get, exec_ite]

/-- What closing adds to the log for the group of a kind. -/
def closedEvents (w : MixWorld η π) (k : GrpKind) : List MixEvent :=
  if w.mixer.ptr k = 0 then [] else [.grpFree (w.mixer.ptr k), .closed k]

theorem exec_mixerGrpClose_null : exec (mixerGrpClose (η := η) (π := π) 0) w = ((), w) := by
  simp only [mixerGrpClose, if_true, exec_pure]

/-- Closing a sound mixer closes what its pointers hold. -/
theorem mixerClose_log (hi : MixerInv w) (ha : Accounts leak w) :
    (exec (mixerClose b) w).2.fault = false ∧
      (exec (mixerClose b) w).2.log = closedEvents w .plug ++ (closedEvents w .hw ++ w.log) := by
  have hlive₁ := hi.live .hw
  have hlive₂ := hi.live .plug
  simp only [Mixer.ptr] at hlive₁ hlive₂
  rw [exec_mixerClose]
  rcases eq_or_ne w.mixer.hGrp 0 with hz₁ | hz₁
  · have hc₁ : closedEvents w .hw = [] := if_pos hz₁
    rw [if_neg (fun h => h.2 hz₁), hc₁, hz₁, exec_mixerGrpClose_null]
    rcases eq_or_ne w.mixer.vGrp 0 with hz₂ | hz₂
    · have hc₂ : closedEvents w .plug = [] := if_pos hz₂
      rw [if_neg (not_not.2 hz₂), hc₂, hz₂, exec_mixerGrpClose_null]
      exact ⟨ha.fault, rfl⟩
    · obtain ⟨g, hg, hk, hopen, -⟩ := hlive₂.resolve_left hz₂
      obtain ⟨d₁, d₂, hclose⟩ := exec_closeGroup (b := b) hg hk hz₂ hopen
      have hc₂ : closedEvents w .plug = [.grpFree w.mixer.vGrp, .closed .plug] := if_neg hz₂
      rw [if_pos hz₂, hc₂, hclose]
      exact ⟨ha.fault, rfl⟩
  · obtain ⟨g, hg, hk, hopen, -⟩ := hlive₁.resolve_left hz₁
    obtain ⟨d₁, d₂, hclose⟩ := exec_closeGroup (b := b) hg hk hz₁ hopen
    have hc₁ : closedEvents w .hw = [.grpFree w.mixer.hGrp, .closed .hw] := if_neg hz₁
    rw [if_pos ⟨ha.fd hz₁, hz₁⟩, hc₁, hclose]
    rcases eq_or_ne w.mixer.vGrp 0 with hz₂ | hz₂
    · have hc₂ : closedEvents w .plug = [] := if_pos hz₂
      rw [if_neg (not_not.2 hz₂), hc₂, hz₂, exec_mixerGrpClose_null]
      exact ⟨ha.fault, rfl⟩
    · obtain ⟨g', hg', hk', hopen', -⟩ := hlive₂.resolve_left hz₂
      have hne : w.mixer.vGrp ≠ w.mixer.hGrp := (hi.ptr_ne .hw .plug (by decide) hz₁).symm
      obtain ⟨e₁, e₂, hclose'⟩ := exec_closeGroup (b := b) (w := { w with
        hw := d₁
        plug := d₂
        mixer := { w.mixer with isCardInfoRetrieved := false }
        heap := Function.update w.heap w.mixer.hGrp none
        isOpen := Function.update w.isOpen .hw false
        log := .grpFree w.mixer.hGrp :: .closed .hw :: w.log })
        ((Function.update_of_ne hne _ _).trans hg') hk' hz₂ (by simpa using hopen')
      have hc₂ : closedEvents w .plug = [.grpFree w.mixer.vGrp, .closed .plug] := if_neg hz₂
      rw [if_pos hz₂, hc₂, hclose']
      exact ⟨ha.fault, rfl⟩

theorem Accounts.closed (ha : Accounts leak w) (hne : w.mixer.hGrp ≠ 0 → w.mixer.hGrp ≠ w.mixer.vGrp)
    {w' : MixWorld η π}
    (hlog : w'.log = closedEvents w .plug ++ (closedEvents w .hw ++ w.log)) : Balanced w' ↔ leak = 0 := by
  have hcount : ∀ (k : GrpKind) (e : MixEvent), (closedEvents w k).count e =
      if w.mixer.ptr k ≠ 0 ∧ (.grpFree (w.mixer.ptr k) = e ∨ .closed k = e) then 1 else 0 := by
    intro k e
    unfold closedEvents
    split
    · rename_i hz
      simp [hz]
    · rename_i hz
      cases e <;> simp [hz, List.count_cons]
  have hlog' : ∀ e, w'.log.count e =
      (closedEvents w .plug).count e + ((closedEvents w .hw).count e + w.log.count e) := by
    intro e
    rw [hlog, List.count_append, List.count_append]
  -- closing balances all but the descriptors that leaked
  have hback : ∀ k, w'.log.count (.opened k) = w'.log.count (.closed k) + if k = .hw then leak else 0 := by
    intro k
    rw [hlog', hlog', ha.backends k]
    cases k <;> simp [hcount] <;> omega
  refine ⟨fun h => ?_, fun h0 => ⟨fun k => ?_, fun a => ?_, fun k => ?_, fun a => ?_⟩⟩
  · have h₁ := hback .hw
    rw [h.backends .hw, if_pos rfl] at h₁
    omega
  · rw [hback, h0, ite_self, Nat.add_zero]
  · rw [hlog', hlog', ha.groups a]
    have hh : (closedEvents w .hw).count (.grpFree a) = if w.mixer.hGrp ≠ 0 ∧ w.mixer.hGrp = a then 1 else 0 := by
      simpa [Mixer.ptr] using hcount .hw (.grpFree a)
    have hv : (closedEvents w .plug).count (.grpFree a) = if w.mixer.vGrp ≠ 0 ∧ w.mixer.vGrp = a then 1 else 0 := by
      simpa [Mixer.ptr] using hcount .plug (.grpFree a)
    have hz : ∀ k, (closedEvents w k).count (.grpAlloc a) = 0 := fun k => by simp [hcount]
    rw [hh, hv, hz, hz]
    rcases eq_or_ne w.mixer.hGrp a with rfl | hh'
    · rcases eq_or_ne w.mixer.hGrp 0 with h0 | h0
      · simp [h0]
      · simp [h0, (hne h0).symm, Nat.add_comm]
    · rcases eq_or_ne w.mixer.vGrp a with rfl | hv'
      · simp [hh', Nat.add_comm]
      · simp [hh', hv', hh'.symm, hv'.symm]
  · rw [hlog']
    simpa [hcount] using ha.backendsOnce k
  · rw [hlog']
    simpa [hcount] using ha.groupsOnce a

end

/-! ## Frames -/

section

variable {η π : Type}

/-- A property that survives what the functions do whatever state they find: writes to the group
addresses of `A`, and the changes of the mixer that `M` allows. -/
structure Stable (P : MixWorld η π → Prop) (A : Addr → Prop) (M : Mixer → Mixer → Prop) : Prop where
  ghost : ∀ w d₁ d₂ al o ft log, P w → (w.fault = true → ft = true) → w.log <:+ log →
    P { w with hw := d₁, plug := d₂, alloc := al, isOpen := o, fault := ft, log }
  free : ∀ w a, P w → P { w with heap := Function.update w.heap a none }
  write : ∀ w a g, A a → P w → P { w with heap := Function.update w.heap a (some g) }
  alloc : ∀ w, P w → A w.next ∧ P { w with next := w.next + 1 }
  mixer : ∀ w m, M w.mixer m → P w → P { w with mixer := m }

/-- The function keeps the property. -/
abbrev Keeps {α : Type} (P : MixWorld η π → Prop) (f : MixM η π α) : Prop := Triple P f fun _ => P

namespace Stable

variable {b : MixBackends η π} {P : MixWorld η π → Prop} {A : Addr → Prop} {M : Mixer → Mixer → Prop} (h : Stable P A M)

include h

theorem logMix (e : MixEvent) : Keeps P (logMix e) := fun w hw =>
  h.ghost w w.hw w.plug w.alloc w.isOpen w.fault _ hw id (List.suffix_cons e w.log)

theorem mixAlloc : Keeps P (mixAlloc (η := η) (π := π)) := fun w hw =>
  h.ghost w w.hw w.plug _ w.isOpen w.fault w.log hw id (List.suffix_refl _)

theorem modifyMixer {f : Mixer → Mixer} (hf : ∀ m, M m (f m)) : Keeps P (modifyMixer (η := η) (π := π) f) :=
  fun w hw => h.mixer w _ (hf w.mixer) hw

theorem callocGrp (k : GrpKind) :
    Triple P (callocGrp (η := η) (π := π) k) (fun a w => P w ∧ (a = 0 ∨ A a)) := by
  intro w hw
  rw [exec_callocGrp]
  split
  · obtain ⟨hA, hn⟩ := h.alloc w hw
    have hg := h.ghost _ w.hw w.plug (fun i => w.alloc (i + 1)) w.isOpen w.fault (.grpAlloc w.next :: w.log)
      (h.write _ w.next { kind := k } hA hn) id (List.suffix_cons _ _)
    exact ⟨hg, .inr hA⟩
  · exact ⟨h.ghost w w.hw w.plug _ w.isOpen w.fault w.log hw id (List.suffix_refl _), .inl rfl⟩

theorem derefGrp (a : Addr) : Keeps P (derefGrp (η := η) (π := π) a) := by
  intro w hw
  cases hg : w.heap a with
  | some g => rw [exec_derefGrp hg]; exact hw
  | none =>
    rw [exec_derefGrp_none hg]
    exact h.ghost w w.hw w.plug w.alloc w.isOpen true w.log hw (fun _ => rfl) (List.suffix_refl _)

theorem freeGrp (a : Addr) : Keeps P (freeGrp (η := η) (π := π) a) := by
  unfold Tinyalsa.freeGrp
  exact Triple.bind (h.derefGrp a) fun _ => Triple.bind (Triple.modify fun w hw => h.free w a hw) fun _ => h.logMix _

theorem openDev (k : GrpKind) : Keeps P (openDev b k) := by
  intro w hw
  obtain ⟨ret, d₁, d₂, heq⟩ := exec_openDev (b := b) (w := w) (k := k)
  rw [heq]
  split
  · exact h.ghost w d₁ d₂ w.alloc w.isOpen w.fault w.log hw id (List.suffix_refl _)
  · exact h.ghost w d₁ d₂ w.alloc _ w.fault _ hw id (List.suffix_cons _ _)

theorem closeDev (k : GrpKind) : Keeps P (closeDev b k) := by
  intro w hw
  obtain ⟨d₁, d₂, heq⟩ := exec_closeDev (b := b) (w := w) (k := k)
  rw [heq]
  exact h.ghost w d₁ d₂ w.alloc _ _ _ hw (fun hf => by rw [hf]; rfl) (List.suffix_cons _ _)

theorem ioctlCardInfo (k : GrpKind) : Keeps P (ioctlCardInfo b k) := by
  intro w hw
  obtain ⟨ret, d₁, d₂, heq⟩ := exec_ioctlCardInfo (b := b) (w := w) (k := k)
  rw [heq]
  exact h.ghost w d₁ d₂ w.alloc w.isOpen w.fault _ hw id (List.suffix_cons _ _)

theorem addControlsTo (hM : ∀ m t, M m { m with totalCount := t }) {a : Addr} (ha : A a) :
    Keeps P (addControlsTo b a) := by
  refine Triple.bind (h.derefGrp a) fun g => Triple.get_bind fun t => ?_
  rintro w ⟨hw, rfl⟩
  have hscan : ∀ {δ : Type} (k : GrpKind) (s : ScanState δ) (d₁ : η) (d₂ : π),
      P { scanned k a s w with hw := d₁, plug := d₂ } := by
    intro δ k s d₁ d₂
    have h₁ := h.mixer w { w.mixer with totalCount := s.totalCount } (hM w.mixer s.totalCount) hw
    have h₂ := h.write _ a s.grp ha h₁
    exact h.ghost _ d₁ d₂ s.alloc w.isOpen w.fault (s.calls.map (.scan k) ++ w.log) h₂ id (List.suffix_append _ _)
  cases hk : g.kind
  · exact hscan .hw _ _ w.plug
  · exact hscan .plug _ w.hw _

theorem rescanGrp (hM : ∀ m t, M m { m with totalCount := t }) {a : Addr} (ha : A a) : Keeps P (rescanGrp b a) :=
  Triple.ite (fun _ => h.addControlsTo hM ha) fun _ => Triple.pure _ fun _ hw => hw

theorem mixerGrpClose (hM : ∀ m v, M m { m with isCardInfoRetrieved := v }) (a : Addr) :
    Keeps P (mixerGrpClose (η := η) (π := π) a) :=
  Triple.ite (fun _ => Triple.pure _ fun _ hw => hw) fun _ =>
    Triple.bind (h.freeGrp a) fun _ => h.modifyMixer fun m => hM m false

theorem closeGrpDev (a : Addr) : Keeps P (closeGrpDev b a) :=
  Triple.bind (h.derefGrp a) fun g => h.closeDev g.kind

theorem mixerHwOpen : Keeps P (mixerHwOpen b) :=
  Triple.bind (h.openDev .hw) fun _ => Triple.ite (fun _ => Triple.pure _ fun _ hw => hw) fun _ =>
    Triple.bind h.mixAlloc fun _ => Triple.bind (h.logMix _) fun _ =>
      Triple.ite (fun _ => Triple.pure _ fun _ hw => hw) fun _ => Triple.pure _ fun _ hw => hw

theorem mixerGrpAbandon (k : GrpKind) (a : Addr) (ret : Int) : Keeps P (mixerGrpAbandon b k a ret) :=
  Triple.bind (h.closeDev k) fun _ => Triple.bind (h.freeGrp a) fun _ => Triple.pure _ fun _ hw => hw

section

variable (ht : ∀ m t, M m { m with totalCount := t })
include ht

theorem mixerGrpFill (k : GrpKind) {a : Addr} (ha : A a) : Keeps P (mixerGrpFill b k a) :=
  Triple.bind (h.addControlsTo ht ha) fun ret =>
    Triple.ite (fun _ => h.mixerGrpAbandon k a ret) fun _ => Triple.pure _ fun _ hw => hw

variable (hv : ∀ m v, M m { m with isCardInfoRetrieved := v })
include hv

theorem mixerGrpSetup (k : GrpKind) {a : Addr} (ha : A a) : Keeps P (mixerGrpSetup b k a) := by
  refine Triple.get_bind fun w => Triple.pre (P := P) ?_ fun _ hw => hw.1
  refine Triple.ite (fun _ => ?_) fun _ => h.mixerGrpFill ht k ha
  refine Triple.bind (h.ioctlCardInfo k) fun ret => Triple.ite (fun _ => h.mixerGrpAbandon k a ret) fun _ => ?_
  exact Triple.bind (h.modifyMixer fun m => hv m true) fun _ => h.mixerGrpFill ht k ha

theorem mixerGrpOpen_hw (hf : ∀ m v, M m { m with fd := v }) (hp : ∀ m v a, M m { m with fd := v, hGrp := a }) :
    Keeps P (mixerGrpOpen b .hw) := by
  refine Triple.bind (h.callocGrp .hw) fun a => ?_
  rintro w ⟨hw, ha⟩
  refine Triple.ite (P := P) (Q := fun _ => P) (fun _ => Triple.pure _ fun _ hw => hw) (fun hne => ?_) w hw
  have ha := ha.resolve_left hne
  refine Triple.bind (Q := fun _ => P) (h.modifyMixer fun m => hf m (-1)) fun _ => ?_
  refine Triple.bind (Q := fun _ => P) h.mixerHwOpen fun fd => Triple.ite (fun _ => ?_) fun _ => ?_
  · exact Triple.bind (h.freeGrp a) fun _ => Triple.pure _ fun _ hw => hw
  · exact Triple.bind (h.modifyMixer fun m => hp m fd a) fun _ => h.mixerGrpSetup ht hv .hw ha

/-- Opening the plugin group publishes nothing but its own pointer. -/
theorem mixerGrpOpen_plug (hp : ∀ m a, M m { m with vGrp := a }) : Keeps P (mixerGrpOpen b .plug) := by
  refine Triple.bind (h.callocGrp .plug) fun a => ?_
  rintro w ⟨hw, ha⟩
  refine Triple.ite (P := P) (Q := fun _ => P) (fun _ => Triple.pure _ fun _ hw => hw) (fun hne => ?_) w hw
  have ha := ha.resolve_left hne
  refine Triple.bind (Q := fun _ => P) (h.openDev .plug) fun ret => Triple.ite (fun _ => ?_) fun _ => ?_
  · exact Triple.bind (h.freeGrp a) fun _ => Triple.pure _ fun _ hw => hw
  · exact Triple.bind (h.modifyMixer fun m => hp m a) fun _ => h.mixerGrpSetup ht hv .plug ha

end

theorem mixerClose (hv : ∀ m v, M m { m with isCardInfoRetrieved := v }) : Keeps P (mixerClose b) := by
  intro w hw
  have hc : ∀ a v, P v → P (exec (Tinyalsa.mixerGrpClose a) v).2 := fun a v => h.mixerGrpClose hv a v
  have hd : ∀ a v, P v → P (exec (Tinyalsa.closeGrpDev b a) v).2 := fun a v => h.closeGrpDev a v
  rw [exec_mixerClose]
  split <;> split
  · exact hc _ _ (hd _ _ (hc _ _ (hd _ _ hw)))
  · exact hc _ _ (hc _ _ (hd _ _ hw))
  · exact hc _ _ (hd _ _ (hc _ _ hw))
  · exact hc _ _ (hc _ _ hw)

end Stable

end

end Tinyalsa
