/-
Runs of a deterministic system: what holds of every step of a run, and the rules that take an
invariant from one step to all of them.
-/
import Mathlib.Init

namespace Run

variable {σ α : Type} {step : σ → α → σ} {I : σ → Prop} {P Q : σ → α → Prop} {s : σ} {a : α} {as : List α}

/-- `P` holds of each action of a run and the state it is taken in. -/
def Along (step : σ → α → σ) (P : σ → α → Prop) (s : σ) (as : List α) : Prop :=
  ∀ before a after, as = before ++ a :: after → P (before.foldl step s) a

theorem Along.nil : Along step P s [] := by
  intro before a after h
  cases before <;> cases h

theorem along_cons : Along step P s (a :: as) ↔ P s a ∧ Along step P (step s a) as := by
  constructor
  · intro h
    exact ⟨h [] a as rfl, fun before b after hb => h (a :: before) b after (by rw [hb]; rfl)⟩
  · rintro ⟨ha, hrest⟩ before b after heq
    cases before with
    | nil =>
      obtain ⟨rfl, rfl⟩ := List.cons.inj heq
      exact ha
    | cons _ before =>
      obtain ⟨rfl, rfl⟩ := List.cons.inj heq
      exact hrest before b after rfl

/-- What each step keeps, where `P` holds of it, holds at the end of the run. -/
theorem Along.invariant (h : Along step P s as) (hkeep : ∀ s a, I s → P s a → I (step s a)) (hs : I s) :
    I (as.foldl step s) := by
  induction as generalizing s with
  | nil => exact hs
  | cons a as ih =>
    obtain ⟨ha, hrest⟩ := along_cons.1 h
    exact ih hrest (hkeep s a hs ha)

/-- Two properties of steps that agree under an invariant agree along every run. -/
theorem along_iff (hkeep : ∀ s a, I s → Q s a → I (step s a)) (hiff : ∀ s a, I s → (P s a ↔ Q s a)) (hs : I s) :
    Along step P s as ↔ Along step Q s as := by
  induction as generalizing s with
  | nil => exact iff_of_true .nil .nil
  | cons a as ih =>
    rw [along_cons, along_cons, hiff s a hs]
    exact and_congr_right fun ha => ih (hkeep s a hs ha)

/-- `I` holds of every state of a run. -/
def Throughout (step : σ → α → σ) (I : σ → Prop) (s : σ) (as : List α) : Prop :=
  ∀ before after, as = before ++ after → I (before.foldl step s)

theorem throughout_cons : Throughout step I s (a :: as) ↔ I s ∧ Throughout step I (step s a) as := by
  constructor
  · intro h
    exact ⟨h [] _ rfl, fun before after hb => h (a :: before) after (by rw [hb]; rfl)⟩
  · rintro ⟨hs, hrest⟩ before after heq
    cases before with
    | nil => exact hs
    | cons _ before =>
      obtain ⟨rfl, rfl⟩ := List.cons.inj heq
      exact hrest before after rfl

/-- Where `Q` is just what keeps the invariant in one step, it is what keeps it throughout a run. -/
theorem throughout_iff (hiff : ∀ s a, I s → (I (step s a) ↔ Q s a)) (hs : I s) :
    Throughout step I s as ↔ Along step Q s as := by
  induction as generalizing s with
  | nil =>
    refine iff_of_true (fun before after h => ?_) .nil
    obtain ⟨rfl, -⟩ := List.append_eq_nil_iff.1 h.symm
    exact hs
  | cons a as ih =>
    rw [throughout_cons, along_cons]
    constructor
    · rintro ⟨-, h⟩
      have ha : I (step s a) := h [] as rfl
      exact ⟨(hiff s a hs).1 ha, (ih ha).1 h⟩
    · rintro ⟨hq, h⟩
      exact ⟨hs, (ih ((hiff s a hs).2 hq)).2 h⟩

/-- Along a run of steps of `P`, `J` holds throughout just when `Q` holds of each step: `Q` is what keeps `J` in one
step, where the invariant `I` holds. -/
theorem Along.throughout_iff {J : σ → Prop} (h : Along step P s as) (hkeep : ∀ s a, I s → P s a → I (step s a))
    (hiff : ∀ s a, I s → P s a → J s → (J (step s a) ↔ Q s a)) (hs : I s) (hj : J s) :
    Throughout step J s as ↔ Along step Q s as := by
  induction as generalizing s with
  | nil =>
    refine iff_of_true (fun before after heq => ?_) .nil
    obtain ⟨rfl, -⟩ := List.append_eq_nil_iff.1 heq.symm
    exact hj
  | cons a as ih =>
    obtain ⟨hp, hrest⟩ := along_cons.1 h
    rw [throughout_cons, along_cons, ← hiff s a hs hp hj]
    constructor
    · rintro ⟨-, hall⟩
      have hja : J (step s a) := hall [] as rfl
      exact ⟨hja, (ih hrest (hkeep s a hs hp) hja).1 hall⟩
    · rintro ⟨hja, hall⟩
      exact ⟨hj, (ih hrest (hkeep s a hs hp) hja).2 hall⟩

end Run
