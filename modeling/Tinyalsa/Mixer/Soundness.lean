/-
A mixer over its whole life: what it holds after opening and after any number of later scans, and
what closing it leaves behind. This is sound exactly where no step between the opening of a
backend and the end of its group's set-up fails, and an `unsigned int` counts the controls.
-/
import Tinyalsa.Mixer.Outcome

namespace Tinyalsa

open Hoare

/-! ## A whole life -/

section

variable {η π : Type}

/-- Calls of `mixer_add_new_ctls`, between which the devices and the allocator do what they like. -/
inductive AddsNewCtls (b : MixBackends η π) (w : MixWorld η π) : MixWorld η π → Prop
  | none : AddsNewCtls b w w
  | add {w' : MixWorld η π} (d₁ : η) (d₂ : π) (al : Nat → Bool) (h : AddsNewCtls b w w') :
      AddsNewCtls b w (exec (mixerAddNewCtls b) { w' with hw := d₁, plug := d₂, alloc := al }).2

/-- A mixer closed in `w` leaves nothing open and nothing allocated, and touches nothing freed. -/
def ClosesCleanly (b : MixBackends η π) (w : MixWorld η π) : Prop :=
  (exec (mixerClose b) w).2.fault = false ∧ Balanced (exec (mixerClose b) w).2

/-- A mixer that was opened in `w` is sound when it comes to be `w'`: its pointers are `NULL` or live, its total count
is the sum of the counts, and closed there it leaves nothing behind. Where opening fails, nothing is left behind at
once. -/
def LifeSound (b : MixBackends η π) (w w' : MixWorld η π) : Prop :=
  if (exec (mixerOpen b) w).1 then
    w'.fault = false ∧ MixerInv w' ∧ w'.mixer.totalCount.toNat = hCount w' + vCount w' ∧ ClosesCleanly b w'
  else (exec (mixerOpen b) w).2.fault = false ∧ Balanced (exec (mixerOpen b) w).2

/-- Nothing has been opened or allocated yet. -/
structure Fresh (w : MixWorld η π) : Prop where
  fault : w.fault = false
  next : 0 < w.next
  log : w.log = []

variable {b : MixBackends η π} {leak : Nat} {w : MixWorld η π}

theorem stable_history (l : List MixEvent) (ft : Bool) :
    Stable (fun w : MixWorld η π => l <:+ w.log ∧ (ft = true → w.fault = true)) (fun _ => True) fun _ _ => True where
  ghost := fun _ _ _ _ _ _ _ hw hf hl => ⟨hw.1.trans hl, fun h => hf (hw.2 h)⟩
  free := fun _ _ hw => hw
  write := fun _ _ _ _ hw => hw
  alloc := fun _ hw => ⟨trivial, hw⟩
  mixer := fun _ _ _ hw => hw

theorem stable_freed (x : Addr) :
    Stable (fun w : MixWorld η π => w.heap x = none ∧ x < w.next) (fun a => a ≠ x) fun _ _ => True where
  ghost := fun _ _ _ _ _ _ _ hw _ _ => hw
  free := fun w a hw => ⟨by
    rcases eq_or_ne x a with rfl | hne
    · exact Function.update_self ..
    · exact (Function.update_of_ne hne _ _).trans hw.1, hw.2⟩
  write := fun w a g ha hw => ⟨(Function.update_of_ne ha.symm _ _).trans hw.1, hw.2⟩
  alloc := fun w hw => ⟨Nat.ne_of_gt hw.2, hw.1, Nat.lt_succ_of_lt hw.2⟩
  mixer := fun _ _ _ hw => hw

theorem stable_dangling (x : Addr) :
    Stable (fun w : MixWorld η π => Dangling w .hw ∧ w.mixer.hGrp = x) (fun a => a ≠ x)
      fun m m' => m'.hGrp = m.hGrp ∧ m'.fd = m.fd where
  ghost := fun _ _ _ _ _ _ _ hw _ _ => ⟨⟨hw.1.ptr, hw.1.freed, hw.1.below, hw.1.fd⟩, hw.2⟩
  free := fun w a hw => ⟨⟨hw.1.ptr, ((stable_freed _).free w a ⟨hw.1.freed, hw.1.below⟩).1, hw.1.below, hw.1.fd⟩, hw.2⟩
  write := by
    rintro w a g ha ⟨hd, rfl⟩
    exact ⟨⟨hd.ptr, ((stable_freed _).write w a g ha ⟨hd.freed, hd.below⟩).1, hd.below, hd.fd⟩, rfl⟩
  alloc := by
    rintro w ⟨hd, rfl⟩
    exact ⟨Nat.ne_of_gt hd.below, ⟨hd.ptr, hd.freed, Nat.lt_succ_of_lt hd.below, hd.fd⟩, rfl⟩
  mixer := by
    rintro w m ⟨hm, hfd⟩ ⟨hd, rfl⟩
    have hp : m.ptr .hw = w.mixer.ptr .hw := hm
    refine ⟨⟨?_, ?_, ?_, fun _ => ?_⟩, hm⟩
    · exact fun h => hd.ptr (hp.symm.trans h)
    · exact (congrArg w.heap hp).trans hd.freed
    · exact hp.symm ▸ hd.below
    · exact hfd.symm ▸ hd.fd rfl

end

/-! ## Soundness -/

section

variable {η π : Type} {b : MixBackends η π} {leak : Nat} {w : MixWorld η π}

/-- A freed group has no backend to close. -/
theorem closeGrpDev_fault {a : Addr} (h : w.heap a = none) : (exec (closeGrpDev b a) w).2.fault = true := by
  simp only [closeGrpDev, exec_bind, exec_derefGrp_none h]
  obtain ⟨d₁, d₂, hclose⟩ := exec_closeDev (b := b) (w := { w with fault := true }) (k := .hw)
  rw [hclose]
  rfl

theorem mixerClose_fault {k : GrpKind} (h : Dangling w k) : (exec (mixerClose b) w).2.fault = true := by
  have hold := stable_history (η := η) (π := π) [] true
  have hkeep : ∀ (a : Addr) (v : MixWorld η π), v.fault = true → (exec (mixerGrpClose a) v).2.fault = true :=
    fun a v hv => (hold.mixerGrpClose (fun _ _ => trivial) a v ⟨v.log.nil_suffix, fun _ => hv⟩).2 rfl
  have hkeep' : ∀ (a : Addr) (v : MixWorld η π), v.fault = true → (exec (closeGrpDev b a) v).2.fault = true :=
    fun a v hv => (hold.closeGrpDev a v ⟨v.log.nil_suffix, fun _ => hv⟩).2 rfl
  rw [exec_mixerClose]
  cases k with
  | hw =>
    have hf := hkeep w.mixer.hGrp _ (closeGrpDev_fault (b := b) h.freed)
    rw [if_pos ⟨h.fd rfl, h.ptr⟩]
    split
    · exact hkeep _ _ (hkeep' _ _ hf)
    · exact hkeep _ _ hf
  | plug =>
    -- closing the hardware group first brings no freed group back
    have hfree := stable_freed (η := η) (π := π) w.mixer.vGrp
    have h₁ := hfree.closeGrpDev (b := b) w.mixer.hGrp w ⟨h.freed, h.below⟩
    have h₂ := hfree.mixerGrpClose (fun _ _ => trivial) w.mixer.hGrp
    have hp : w.mixer.vGrp ≠ 0 := h.ptr
    rw [if_pos hp, if_pos hp]
    split
    · exact hkeep _ _ (closeGrpDev_fault (h₂ _ h₁).1)
    · exact hkeep _ _ (closeGrpDev_fault (h₂ w ⟨h.freed, h.below⟩).1)

theorem rescanGrp_keeps (k : GrpKind) (hi : MixerInv w) (ha : Accounts leak w) :
    MixerInv (exec (rescanGrp b (w.mixer.ptr k)) w).2 ∧ Accounts leak (exec (rescanGrp b (w.mixer.ptr k)) w).2 ∧
      (exec (rescanGrp b (w.mixer.ptr k)) w).2.mixer.ptr = w.mixer.ptr := by
  rw [rescanGrp, exec_ite]
  split
  · rename_i hne
    obtain ⟨calls, h⟩ := addControlsTo_keeps b hi ha hne
    exact ⟨h.inv, h.accounts, h.ptr⟩
  · exact ⟨hi, ha, rfl⟩

theorem exec_mixerAddNewCtls : (exec (mixerAddNewCtls b) w).2 =
    (exec (rescanGrp b w.mixer.vGrp) (exec (rescanGrp b w.mixer.hGrp) w).2).2 := by
  simp only [mixerAddNewCtls, exec_bind, exec_get, exec_ite, exec_pure]
  split
  · rfl
  · split <;> rfl

theorem mixerAddNewCtls_keeps (hi : MixerInv w) (ha : Accounts leak w) :
    MixerInv (exec (mixerAddNewCtls b) w).2 ∧ Accounts leak (exec (mixerAddNewCtls b) w).2 := by
  obtain ⟨hi₁, ha₁, hp⟩ := rescanGrp_keeps (b := b) .hw hi ha
  obtain ⟨hi₂, ha₂, -⟩ := rescanGrp_keeps (b := b) .plug hi₁ ha₁
  rw [hp] at hi₂ ha₂
  rw [exec_mixerAddNewCtls]
  exact ⟨hi₂, ha₂⟩

theorem AddsNewCtls.keeps {w' : MixWorld η π} (h : AddsNewCtls b w w') (hi : MixerInv w) (ha : Accounts leak w) :
    MixerInv w' ∧ Accounts leak w' := by
  induction h with
  | none => exact ⟨hi, ha⟩
  | @add w' d₁ d₂ al _ ih =>
    refine mixerAddNewCtls_keeps (ih.1.irrel d₁ d₂ al w'.log w'.mixer rfl rfl) ?_
    exact ih.2.quiet [] (by simp) rfl rfl rfl rfl rfl

theorem Tally.rescanGrp (ht : Tally w) (k : GrpKind) (hi : MixerInv w) (ha : Accounts leak w) :
    Tally (exec (rescanGrp b (w.mixer.ptr k)) w).2 := by
  rw [Tinyalsa.rescanGrp, exec_ite]
  split
  · rename_i hne
    obtain ⟨calls, h⟩ := addControlsTo_keeps b hi ha hne
    exact h.tally ht
  · exact ht

theorem Tally.mixerAddNewCtls (ht : Tally w) (hi : MixerInv w) (ha : Accounts leak w) :
    Tally (exec (mixerAddNewCtls b) w).2 := by
  obtain ⟨hi₁, ha₁, hp⟩ := rescanGrp_keeps (b := b) .hw hi ha
  have ht₂ := (ht.rescanGrp (b := b) .hw hi ha).rescanGrp (b := b) .plug hi₁ ha₁
  rw [hp] at ht₂
  rw [exec_mixerAddNewCtls]
  exact ht₂

theorem AddsNewCtls.tally {w' : MixWorld η π} (h : AddsNewCtls b w w') (hi : MixerInv w) (ha : Accounts leak w)
    (ht : Tally w) : Tally w' := by
  induction h with
  | none => exact ht
  | @add w' d₁ d₂ al h ih =>
    obtain ⟨hi', ha'⟩ := h.keeps hi ha
    exact Tally.mixerAddNewCtls (ih.frame [] rfl (by simp) fun _ => rfl)
      (hi'.irrel d₁ d₂ al w'.log w'.mixer rfl rfl) (ha'.quiet [] (by simp) rfl rfl rfl rfl rfl)

/-- Scanning a freed group is an access to it. -/
theorem rescanGrp_fault {a : Addr} (ha : a ≠ 0) (h : w.heap a = none) : (exec (rescanGrp b a) w).2.fault = true := by
  rw [rescanGrp, exec_ite, if_pos ha]
  simp only [addControlsTo, exec_bind, exec_derefGrp_none h, exec_get, exec_set, exec_pure]
  rfl

theorem rescanGrp_keeps_fault (a : Addr) (h : w.fault = true) : (exec (rescanGrp b a) w).2.fault = true :=
  ((stable_history [] true).rescanGrp (fun _ _ => trivial) trivial w ⟨w.log.nil_suffix, fun _ => h⟩).2 rfl

theorem Dangling.mixerAddNewCtls {k : GrpKind} (h : Dangling w k) : (exec (mixerAddNewCtls b) w).2.fault = true := by
  rw [exec_mixerAddNewCtls]
  cases k with
  | hw => exact rescanGrp_keeps_fault _ (rescanGrp_fault h.ptr h.freed)
  | plug =>
    by_cases hh : w.mixer.hGrp ≠ 0 ∧ w.heap w.mixer.hGrp = none
    · exact rescanGrp_keeps_fault _ (rescanGrp_fault hh.1 hh.2)
    · -- scanning the hardware group brings no freed group back
      refine rescanGrp_fault h.ptr ?_
      rcases eq_or_ne w.mixer.hGrp 0 with hz | hz
      · rw [hz, rescanGrp, exec_ite, if_neg (not_not.2 rfl)]
        exact h.freed
      · have hne : w.mixer.hGrp ≠ w.mixer.vGrp := fun heq => hh ⟨hz, (congrArg w.heap heq).trans h.freed⟩
        exact ((stable_freed w.mixer.vGrp).rescanGrp (fun _ _ => trivial) hne w ⟨h.freed, h.below⟩).1

/-- A freed group that is still pointed to stays so, or has been accessed. -/
theorem AddsNewCtls.dangling {w' : MixWorld η π} {k : GrpKind} (h : AddsNewCtls b w w') (hd : Dangling w k) :
    w'.fault = true ∨ Dangling w' k := by
  induction h with
  | none => exact .inr hd
  | @add w' d₁ d₂ al _ ih =>
    rcases ih with hf | hd'
    · left
      rw [exec_mixerAddNewCtls]
      exact rescanGrp_keeps_fault _ (rescanGrp_keeps_fault _ hf)
    · exact .inl (Dangling.mixerAddNewCtls (k := k) ⟨hd'.ptr, hd'.freed, hd'.below, hd'.fd⟩)

theorem closesCleanly_iff (hi : MixerInv w) (ha : Accounts leak w) : ClosesCleanly b w ↔ leak = 0 := by
  obtain ⟨hf, hlog⟩ := mixerClose_log (b := b) hi ha
  have hne : w.mixer.hGrp ≠ 0 → w.mixer.hGrp ≠ w.mixer.vGrp := hi.ptr_ne .hw .plug nofun
  rw [ClosesCleanly, ha.closed hne hlog]
  exact and_iff_right hf

/-- The mixer `mixer_open` allocates, before its groups are opened. -/
def allocatedMixer (w : MixWorld η π) : MixWorld η π :=
  { w with alloc := fun i => w.alloc (i + 1), mixer := {}, self := w.next, next := w.next + 1 }

theorem exec_mixerOpen : exec (mixerOpen b) w =
    if w.alloc 0 then
      if (exec (mixerGrpOpen b .hw) (allocatedMixer w)).1 < 0 ∧
          (exec (mixerGrpOpen b .plug) (exec (mixerGrpOpen b .hw) (allocatedMixer w)).2).1 < 0 then
        (false, (exec (mixerClose b) (exec (mixerGrpOpen b .plug)
          (exec (mixerGrpOpen b .hw) (allocatedMixer w)).2).2).2)
      else (true, (exec (mixerGrpOpen b .plug) (exec (mixerGrpOpen b .hw) (allocatedMixer w)).2).2)
    else (false, { w with alloc := fun i => w.alloc (i + 1) }) := by
  simp only [mixerOpen, exec_bind, exec_mixAlloc, exec_ite, exec_modify, exec_pure, allocatedMixer]
  rfl

theorem allocatedMixer_inv : MixerInv (allocatedMixer w) :=
  ⟨fun k => .inl (by cases k <;> rfl), rfl⟩

theorem Fresh.accounts (h : Fresh w) : Accounts 0 (allocatedMixer w) := by
  have hlog : (allocatedMixer w).log = [] := h.log
  refine ⟨h.fault, fun k => ?_, fun a => ?_, fun k => ?_, fun a => ?_, fun a _ => ?_, fun k => ?_, fun hz =>
    absurd rfl hz⟩
  · rw [hlog]; cases k <;> rfl
  · rw [hlog, if_neg]
    · rfl
    · rintro ⟨hne, rfl | rfl⟩ <;> exact hne rfl
  · rw [hlog]; exact Nat.zero_le _
  · rw [hlog]; exact Nat.zero_le _
  · rw [hlog]; rfl
  · cases k <;> exact Nat.succ_pos _

theorem Fresh.tally (h : Fresh w) : Tally (allocatedMixer w) := by
  have hlog : (allocatedMixer w).log = [] := h.log
  intro k
  rw [hlog]
  cases k <;> rfl

/-- How opening both groups ends. -/
inductive OpeningOutcome (w : MixWorld η π) : Prop
  | sound (inv : MixerInv w) (accounts : Accounts 0 w) (tally : Tally w) (fails : ∀ e ∈ w.log, ¬ e.setupFails)
  | leaked (inv : MixerInv w) (accounts : Accounts 1 w) (fails : ∃ e ∈ w.log, e.setupFails)
  | dangling (k : GrpKind) (dangling : Dangling w k) (fails : ∃ e ∈ w.log, e.setupFails)

/-- The plugin group, after a hardware group that left the mixer sound or leaked the descriptor. -/
theorem openingOutcome_plug (leak : Nat) (hi : MixerInv w) (ha : Accounts leak w) (hp : w.mixer.ptr .plug = 0)
    (ho : w.log.count (.opened .plug) = 0)
    (hcase : leak = 0 ∧ Tally w ∧ (∀ e ∈ w.log, ¬ e.setupFails) ∨ leak = 1 ∧ ∃ e ∈ w.log, e.setupFails) :
    OpeningOutcome (exec (mixerGrpOpen b .plug) w).2 := by
  obtain ⟨new, hout⟩ := mixerGrpOpen_outcome b .plug hi ha hp ho
  have hsound : ∀ {w' : MixWorld η π}, w'.log = new ++ w.log → (∀ e ∈ new, ¬ e.setupFails) → MixerInv w' →
      Accounts leak w' → (Tally w → Tally w') → OpeningOutcome w' := by
    intro w' hl hf hi' ha' ht
    rcases hcase with ⟨rfl, ht₁, hnf⟩ | ⟨rfl, e, he, hf'⟩
    · refine .sound hi' ha' (ht ht₁) ?_
      rw [hl]
      exact List.forall_mem_append.2 ⟨hf, hnf⟩
    · exact .leaked hi' ha' ⟨e, hl ▸ List.mem_append_right _ he, hf'⟩
  rcases hout with ⟨-, hl, hf, hi', ha', -, -, ht⟩ | ⟨-, hl, hf, hi', ha', -, -, ht⟩ | ⟨-, hl, ⟨e, he, hf⟩, hd⟩ |
    ⟨hk, -⟩
  · exact hsound hl hf hi' ha' ht
  · exact hsound hl hf hi' ha' ht
  · exact .dangling .plug hd ⟨e, hl ▸ List.mem_append_left _ he, hf⟩
  · cases hk

theorem Fresh.opening (h : Fresh w) : OpeningOutcome
    (exec (mixerGrpOpen b .plug) (exec (mixerGrpOpen b .hw) (allocatedMixer w)).2).2 := by
  have hlog : (allocatedMixer w).log = [] := h.log
  obtain ⟨new, hout⟩ := mixerGrpOpen_outcome b .hw allocatedMixer_inv h.accounts rfl (by rw [hlog]; rfl)
  generalize exec (mixerGrpOpen b .hw) (allocatedMixer w) = r at *
  have hnew : r.2.log = new ++ (allocatedMixer w).log → r.2.log = new := by
    intro hl
    rw [hl, hlog, List.append_nil]
  have hnone : r.2.log = new → (∀ k, k ≠ .hw → .opened k ∉ new) → r.2.log.count (.opened .plug) = 0 := by
    intro hl hno
    rw [hl]
    exact List.count_eq_zero_of_not_mem (hno .plug nofun)
  rcases hout with ⟨-, hl, hf, hi, ha, hp, ho, ht⟩ | ⟨-, hl, hf, hi, ha, hp, ho, ht⟩ | ⟨-, hl, ⟨e, he, hf⟩, hd⟩ |
    ⟨-, -, hl, ⟨e, he, hf⟩, hi, ha, hp, ho⟩
  · have hl := hnew hl
    exact openingOutcome_plug 0 hi ha (by rw [hp]; rfl) (hnone hl ho) (.inl ⟨rfl, ht h.tally, hl ▸ hf⟩)
  · have hl := hnew hl
    exact openingOutcome_plug 0 hi ha (by rw [hp]; rfl) (hnone hl ho) (.inl ⟨rfl, ht h.tally, hl ▸ hf⟩)
  · -- the group of the hardware dangles whatever becomes of the plugin's
    obtain ⟨hd', -⟩ := (stable_dangling r.2.mixer.hGrp).mixerGrpOpen_plug (b := b) (fun _ _ => ⟨rfl, rfl⟩)
      (fun _ _ => ⟨rfl, rfl⟩) (fun _ _ => ⟨rfl, rfl⟩) r.2 ⟨hd, rfl⟩
    have hext : r.2.log <:+ (exec (mixerGrpOpen b .plug) r.2).2.log :=
      ((stable_history r.2.log false).mixerGrpOpen_plug (fun _ _ => trivial) (fun _ _ => trivial) (fun _ _ => trivial)
        r.2 ⟨List.suffix_refl _, nofun⟩).1
    exact .dangling .hw hd' ⟨e, hext.mem (hnew hl ▸ he), hf⟩
  · have hl := hnew hl
    exact openingOutcome_plug 1 hi ha (by rw [hp]; rfl) (hnone hl ho) (.inr ⟨rfl, e, hl ▸ he, hf⟩)

theorem mixerOpen_true (h : (exec (mixerOpen b) w).1 = true) : w.alloc 0 = true ∧ (exec (mixerOpen b) w).2 =
    (exec (mixerGrpOpen b .plug) (exec (mixerGrpOpen b .hw) (allocatedMixer w)).2).2 := by
  rw [exec_mixerOpen] at h ⊢
  split at h
  · rename_i hal
    rw [if_pos hal]
    split at h
    · cases h
    · rename_i hret
      exact ⟨hal, by rw [if_neg hret]⟩
  · cases h

/-- A mixer that was opened without a failing set-up is sound. -/
theorem Fresh.opened (h : Fresh w) (hret : (exec (mixerOpen b) w).1 = true)
    (hset : ∀ e ∈ (exec (mixerOpen b) w).2.log, ¬ e.setupFails) :
    MixerInv (exec (mixerOpen b) w).2 ∧ Accounts 0 (exec (mixerOpen b) w).2 := by
  rw [(mixerOpen_true hret).2] at hset ⊢
  rcases h.opening (b := b) with ⟨hi, ha, -, -⟩ | ⟨-, -, e, he, hf⟩ | ⟨-, -, e, he, hf⟩
  · exact ⟨hi, ha⟩
  · exact absurd hf (hset e he)
  · exact absurd hf (hset e he)

/-- Where both groups failed, closing leaves nothing behind just where no set-up failed. -/
theorem OpeningOutcome.closes (h : OpeningOutcome w) :
    (exec (mixerClose b) w).2.fault = false ∧ Balanced (exec (mixerClose b) w).2 ↔
      ∀ e ∈ (exec (mixerClose b) w).2.log, ¬ e.setupFails := by
  have hext : w.log <:+ (exec (mixerClose b) w).2.log :=
    ((stable_history w.log false).mixerClose (fun _ _ => trivial) w ⟨List.suffix_refl _, nofun⟩).1
  rcases h with ⟨hi, ha, -, hnf⟩ | ⟨hi, ha, e, he, hf⟩ | ⟨k, hd, e, he, hf⟩
  · refine iff_of_true ((closesCleanly_iff hi ha).2 rfl) ?_
    have hquiet : ∀ k, ∀ e ∈ closedEvents w k, ¬ e.setupFails := by
      intro k e he
      unfold closedEvents at he
      split at he
      · cases he
      · simp only [List.mem_cons, List.not_mem_nil, or_false] at he
        rcases he with rfl | rfl <;> exact Bool.false_ne_true
    rw [(mixerClose_log hi ha).2]
    exact List.forall_mem_append.2 ⟨hquiet .plug, List.forall_mem_append.2 ⟨hquiet .hw, hnf⟩⟩
  · refine iff_of_false (fun hc => ?_) fun hno => hno e (hext.mem he) hf
    exact absurd ((closesCleanly_iff hi ha).1 hc) Nat.one_ne_zero
  · exact iff_of_false (fun hc => absurd ((mixerClose_fault hd).symm.trans hc.1) nofun) fun hno =>
      hno e (hext.mem he) hf

/-- An opened mixer is sound later on just where no set-up failed and its controls can be counted. -/
theorem OpeningOutcome.lives (h : OpeningOutcome w) {w' : MixWorld η π} (hlife : AddsNewCtls b w w') :
    w'.fault = false ∧ MixerInv w' ∧ w'.mixer.totalCount.toNat = hCount w' + vCount w' ∧ ClosesCleanly b w' ↔
      (∀ e ∈ w.log, ¬ e.setupFails) ∧ w'.described < 2 ^ 32 := by
  rcases h with ⟨hi, ha, ht, hnf⟩ | ⟨hi, ha, e, he, hf⟩ | ⟨k, hd, e, he, hf⟩
  · obtain ⟨hi', ha'⟩ := hlife.keeps hi ha
    rw [hi'.total_exact_iff (hlife.tally hi ha ht)]
    exact ⟨fun hs => ⟨hnf, hs.2.2.1⟩, fun hc => ⟨ha'.fault, hi', hc.2, (closesCleanly_iff hi' ha').2 rfl⟩⟩
  · -- the descriptor that leaked stays open
    obtain ⟨hi', ha'⟩ := hlife.keeps hi ha
    refine iff_of_false (fun hs => ?_) fun hc => hc.1 e he hf
    exact absurd ((closesCleanly_iff hi' ha').1 hs.2.2.2) Nat.one_ne_zero
  · refine iff_of_false (fun hs => ?_) fun hc => hc.1 e he hf
    rcases hlife.dangling hd with hfault | hd'
    · exact absurd (hfault.symm.trans hs.1) nofun
    · exact hs.2.1.not_dangling k hd'

theorem mixerOpen_false (h : Fresh w) (hret : (exec (mixerOpen b) w).1 = false) :
    (exec (mixerOpen b) w).2.fault = false ∧ Balanced (exec (mixerOpen b) w).2 ↔
      ∀ e ∈ (exec (mixerOpen b) w).2.log, ¬ e.setupFails := by
  rw [exec_mixerOpen] at hret ⊢
  cases hal : w.alloc 0 with
  | false =>
    have hb : Balanced { w with alloc := fun i => w.alloc (i + 1) } := by
      constructor <;> intro _ <;> simp [h.log]
    simp only [Bool.false_eq_true, if_false]
    exact iff_of_true ⟨h.fault, hb⟩ (by simp [h.log])
  | true =>
    simp only [hal, if_true] at hret ⊢
    split at hret
    · rename_i hboth
      rw [if_pos hboth]
      exact h.opening.closes
    · cases hret

/-- A mixer lives soundly if and only if, once a backend is open, every later step of setting up its
group succeeds, and as long as the controls that were described are fewer than 2^32. -/
theorem mixer_life_sound_iff (h : Fresh w) {w' : MixWorld η π} (hlife : AddsNewCtls b (exec (mixerOpen b) w).2 w') :
    LifeSound b w w' ↔ (∀ e ∈ (exec (mixerOpen b) w).2.log, ¬ e.setupFails) ∧
      ((exec (mixerOpen b) w).1 = true → w'.described < 2 ^ 32) := by
  unfold LifeSound
  cases hret : (exec (mixerOpen b) w).1 with
  | false =>
    simp only [Bool.false_eq_true, if_false, false_implies, and_true]
    exact mixerOpen_false h hret
  | true =>
    simp only [if_true, true_implies]
    obtain ⟨-, heq⟩ := mixerOpen_true hret
    rw [heq] at hlife ⊢
    exact h.opening.lives hlife

end

/-! ## A concrete card -/

/-- A card whose controls carry these names; `info` is what its `CARD_INFO` returns. -/
structure Card where
  fd : Int := 3
  info : Int := 0
  names : List CString := []
  deriving DecidableEq, Repr

/-- The kernel's control device of a card: it numbers the controls from 1 in the order of its list. -/
def cardOps : MixerOps Card where
  openDev := fun c => (c.fd, c)
  closeDev := id
  cardInfo := fun c => (c.info, c)
  elemList := fun l c =>
    (0, { l with
      count := c.names.length.toUInt32
      used := min l.space (c.names.length.toUInt32 - l.offset)
      pids := fun i => if i < l.space.toNat ∧ l.offset.toNat + i < c.names.length then
        { numid := (l.offset.toNat + i + 1).toUInt32, name := c.names.getD (l.offset.toNat + i) [] }
      else l.pids i }, c)
  elemInfo := fun e c =>
    match c.names[e.id.numid.toNat - 1]? with
    | some name =>
      if e.id.numid = 0 then (-1, e, c)
      else (0, { e with id := { e.id with name }, type := .integer, count := 1, max := 100, step := 1 }, c)
    | none => (-1, e, c)

/-- The backends of a card without a plugin. -/
def cardBackends : MixBackends Card Card := ⟨cardOps, cardOps⟩

/-- Before anything is opened. -/
def unopened (hw plug : Card) : MixWorld Card Card := { hw, plug, alloc := fun _ => true }

/-- `ENOENT`. -/
def noCard : Card := { fd := -2 }

theorem fresh_unopened (hw plug : Card) : Fresh (unopened hw plug) := ⟨rfl, Nat.one_pos, rfl⟩

/-- A card with one control and no plugin. -/
def plainCard : MixWorld Card Card := unopened { names := [[86]] } noCard

theorem plainCard_setUp : ∀ e ∈ (exec (mixerOpen cardBackends) plainCard).2.log, ¬ e.setupFails := by
  decide +kernel

/-- The card comes to have a second control, and a third. -/
def grownPlainCard : MixWorld Card Card :=
  (exec (mixerAddNewCtls cardBackends)
    { (exec (mixerOpen cardBackends) plainCard).2 with
      hw := { names := [[86], [87], [88]] }
      plug := noCard
      alloc := fun _ => true }).2

theorem grownPlainCard_life : AddsNewCtls cardBackends (exec (mixerOpen cardBackends) plainCard).2 grownPlainCard := by
  unfold grownPlainCard
  exact .add _ _ _ .none

theorem mixer_life_sound_plain :
    LifeSound cardBackends plainCard grownPlainCard ∧ grownPlainCard.mixer.totalCount = 3 := by
  have hf : Fresh plainCard := fresh_unopened ..
  have hdescribed : grownPlainCard.described = 3 := by decide +kernel
  refine ⟨?_, by decide +kernel⟩
  rw [mixer_life_sound_iff hf grownPlainCard_life]
  exact ⟨plainCard_setUp, fun _ => lt_of_eq_of_lt hdescribed (by decide)⟩

/-- A card that opens but answers no `CARD_INFO`, and no plugin. -/
def muteCard : MixWorld Card Card := unopened { info := -1, names := [[86]] } noCard

/-- The hardware group of that card is abandoned behind its pointer, and `mixer_close` closes it again. -/
theorem mixer_life_unsound : Fresh muteCard ∧ ∀ w', ¬ LifeSound cardBackends muteCard w' := by
  refine ⟨fresh_unopened .., fun w' h => ?_⟩
  have hret : ¬ (exec (mixerOpen cardBackends) muteCard).1 = true := by decide +kernel
  have hfault : (exec (mixerOpen cardBackends) muteCard).2.fault = true := by decide +kernel
  unfold LifeSound at h
  rw [if_neg hret] at h
  exact absurd (hfault.symm.trans h.1) nofun

end Tinyalsa
