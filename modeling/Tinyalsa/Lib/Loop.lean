/-
Loops that may run for ever: a step goes on or leaves with a result. Which loops end, and the rule by which
one does not.
-/
import Mathlib.Init

namespace Loop

section

variable {σ ρ : Type} {step : σ → σ ⊕ ρ} {s s' : σ} {r : ρ}

/-- The result of a loop, if it leaves within so many steps. -/
def run (step : σ → σ ⊕ ρ) : Nat → σ → Option ρ
  | 0, _ => none
  | fuel + 1, s =>
    match step s with
    | .inl s' => run step fuel s'
    | .inr r => some r

/-- The loop leaves at some time. -/
def Ends (step : σ → σ ⊕ ρ) (s : σ) : Prop := ∃ fuel, run step fuel s ≠ none

theorem run_inl (h : step s = .inl s') (fuel : Nat) : run step (fuel + 1) s = run step fuel s' := by
  rw [run, h]

theorem run_inr (h : step s = .inr r) (fuel : Nat) : run step (fuel + 1) s = some r := by
  rw [run, h]

theorem ends_of_inr (h : step s = .inr r) : Ends step s := by
  refine ⟨1, ?_⟩
  rw [run_inr h]
  rintro ⟨⟩

theorem ends_iff_of_inl (h : step s = .inl s') : Ends step s ↔ Ends step s' := by
  constructor
  · rintro ⟨fuel, hfuel⟩
    cases fuel with
    | zero => exact absurd rfl hfuel
    | succ fuel =>
      rw [run_inl h] at hfuel
      exact ⟨fuel, hfuel⟩
  · rintro ⟨fuel, hfuel⟩
    refine ⟨fuel + 1, ?_⟩
    rw [run_inl h]
    exact hfuel

/-- A loop that ends has what is kept backwards over a step, and holds where it leaves. -/
theorem Ends.backwards {P : σ → Prop} (h : Ends step s) (hleave : ∀ s r, step s = .inr r → P s)
    (hstep : ∀ s s', step s = .inl s' → P s' → P s) : P s := by
  obtain ⟨fuel, hfuel⟩ := h
  induction fuel generalizing s with
  | zero => exact absurd rfl hfuel
  | succ fuel ih =>
    cases hs : step s with
    | inl s' =>
      rw [run_inl hs] at hfuel
      exact hstep s s' hs (ih hfuel)
    | inr r => exact hleave s r hs

/-! ## Results -/

/-- The loop leaves with this result. -/
def Leaves (step : σ → σ ⊕ ρ) (s : σ) (r : ρ) : Prop := ∃ fuel, run step fuel s = some r

theorem leaves_of_inr (h : step s = .inr r) : Leaves step s r := ⟨1, run_inr h 0⟩

theorem leaves_of_inl (h : step s = .inl s') (hrest : Leaves step s' r) : Leaves step s r := by
  obtain ⟨fuel, hfuel⟩ := hrest
  exact ⟨fuel + 1, (run_inl h fuel).trans hfuel⟩

/-- With more fuel a loop leaves as it did. -/
theorem run_mono {fuel more : Nat} (h : run step fuel s = some r) (hle : fuel ≤ more) : run step more s = some r := by
  induction fuel generalizing s more with
  | zero => cases h
  | succ fuel ih =>
    obtain ⟨more, rfl⟩ : ∃ n, more = n + 1 := ⟨more - 1, by omega⟩
    cases hs : step s with
    | inl s' =>
      rw [run_inl hs] at h ⊢
      exact ih h (Nat.le_of_succ_le_succ hle)
    | inr r' =>
      rw [run_inr hs] at h ⊢
      exact h

theorem Leaves.unique {r' : ρ} (h : Leaves step s r) (h' : Leaves step s r') : r = r' := by
  obtain ⟨fuel, hfuel⟩ := h
  obtain ⟨fuel', hfuel'⟩ := h'
  have hmax := run_mono hfuel (Nat.le_max_left fuel fuel')
  rw [run_mono hfuel' (Nat.le_max_right fuel fuel')] at hmax
  exact (Option.some.inj hmax).symm

end

end Loop
