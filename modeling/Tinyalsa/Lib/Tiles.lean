/-
Things of different lengths laid out one after another: where they start and end, and the rule that takes
what is kept over one of them to all.
-/
import Mathlib.Init

namespace Tiling

section

variable {α : Type} {stands : Nat → α → Prop} {len len' : α → Nat} {as bs : List α} {p q : Nat}

/-- From `p` on the things of a list stand one behind another, as far as `q`. -/
inductive Tiles (stands : Nat → α → Prop) (len : α → Nat) : Nat → List α → Nat → Prop
  | nil (p : Nat) : Tiles stands len p [] p
  | cons {p q : Nat} {a : α} {as : List α} (head : stands p a) (tail : Tiles stands len (p + len a) as q) :
      Tiles stands len p (a :: as) q

theorem Tiles.le (h : Tiles stands len p as q) : p ≤ q := by
  induction h with
  | nil => exact Nat.le_refl _
  | cons _ _ ih => exact Nat.le_trans (Nat.le_add_right ..) ih

theorem Tiles.eq_of_nil (h : Tiles stands len p [] q) : p = q := by
  cases h
  rfl

theorem Tiles.append_iff :
    Tiles stands len p (as ++ bs) q ↔ ∃ r, Tiles stands len p as r ∧ Tiles stands len r bs q := by
  constructor
  · intro h
    induction as generalizing p with
    | nil => exact ⟨p, .nil p, h⟩
    | cons a as ih =>
      cases h with
      | cons head tail =>
        obtain ⟨r, has, hbs⟩ := ih tail
        exact ⟨r, .cons head has, hbs⟩
  · rintro ⟨r, has, hbs⟩
    induction has with
    | nil => exact hbs
    | cons head _ ih => exact .cons head (ih hbs)

/-- Lengths that agree on all there is lay it out alike. -/
theorem Tiles.congr_len (h : Tiles stands len p as q) (hlen : ∀ a ∈ as, len' a = len a) :
    Tiles stands len' p as q := by
  induction h with
  | nil p => exact .nil p
  | @cons p q a as head _ ih =>
    refine .cons head ?_
    rw [hlen a List.mem_cons_self]
    exact ih fun b hb => hlen b (List.mem_cons_of_mem _ hb)

/-- What is kept from the start of each thing to its end is kept over all of them. -/
theorem Tiles.invariant {I : Nat → Prop} (h : Tiles stands len p as q)
    (hkeep : ∀ r a, a ∈ as → stands r a → r + len a ≤ q → I r → I (r + len a)) (hp : I p) : I q := by
  induction h with
  | nil => exact hp
  | cons head tail ih =>
    refine ih (fun r b hb => hkeep r b (List.mem_cons_of_mem _ hb)) ?_
    exact hkeep _ _ List.mem_cons_self head tail.le hp

end

end Tiling
