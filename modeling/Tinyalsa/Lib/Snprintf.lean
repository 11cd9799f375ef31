/-
What `snprintf` leaves in memory: as much of a text as fits, and a terminating NUL. Printing one text and then
another behind it, into what is left of the buffer, prints both.
-/
import Mathlib.Tactic

namespace Snprintf

/-- The bytes around a buffer, which starts at any of them. -/
abbrev Memory := Int → UInt8

/-- The memory with these bytes from `a` on. -/
def put (m : Memory) (a : Int) (bytes : List UInt8) : Memory :=
  fun i => if a ≤ i then bytes[(i - a).toNat]?.getD (m i) else m i

/-- The memory after `snprintf(a, size, ...)` has printed a text. -/
def print (m : Memory) (a : Int) (size : Nat) (text : List UInt8) : Memory :=
  if size = 0 then m else put m a (text.take (size - 1) ++ [0])

section

variable {m : Memory} {a : Int} {size : Nat}

theorem put_of_lt {bytes : List UInt8} {k : Nat} (hk : k < bytes.length) : put m a bytes (a + k) = bytes[k] := by
  unfold put
  rw [if_pos (by omega), show (a + k - a).toNat = k by omega, List.getElem?_eq_getElem hk, Option.getD_some]

theorem put_of_outside {bytes : List UInt8} {i : Int} (hi : i < a ∨ a + bytes.length ≤ i) : put m a bytes i = m i := by
  unfold put
  split
  · rw [List.getElem?_eq_none (by omega), Option.getD_none]
  · rfl

/-- What is put behind `x` replaces what stood there before, if that was no longer. -/
theorem put_put (x : List UInt8) {y z : List UInt8} (h : y.length ≤ z.length) :
    put (put m a (x ++ y)) (a + x.length) z = put m a (x ++ z) := by
  funext i
  rcases lt_or_ge i (a + x.length) with hlt | hge
  · rw [put_of_outside (.inl hlt)]
    rcases lt_or_ge i a with hi | hi
    · rw [put_of_outside (.inl hi), put_of_outside (.inl hi)]
    · obtain ⟨k, rfl⟩ : ∃ k : Nat, i = a + k := ⟨(i - a).toNat, by omega⟩
      have hk : k < x.length := by omega
      rw [put_of_lt (by rw [List.length_append]; omega), put_of_lt (by rw [List.length_append]; omega),
        List.getElem_append_left hk, List.getElem_append_left hk]
  · obtain ⟨k, rfl⟩ : ∃ k : Nat, i = a + x.length + k := ⟨(i - (a + x.length)).toNat, by omega⟩
    rcases Nat.lt_or_ge k z.length with hk | hk
    · have hcast : a + x.length + k = a + ((x.length + k : Nat) : Int) := by push_cast; ring
      rw [put_of_lt hk, hcast, put_of_lt (by rw [List.length_append]; omega), List.getElem_append_right (by omega)]
      simp only [Nat.add_sub_cancel_left]
    · rw [put_of_outside (.inr (by omega)), put_of_outside (.inr (by rw [List.length_append]; omega)),
        put_of_outside (.inr (by rw [List.length_append]; omega))]

/-! ## Printing -/

@[simp] theorem print_zero (text : List UInt8) : print m a 0 text = m := rfl

theorem print_of_pos (hs : 0 < size) (text : List UInt8) :
    print m a size text = put m a (text.take (size - 1) ++ [0]) :=
  if_neg hs.ne'

/-- A text printed where another one ends, into what that left of the buffer. -/
theorem print_print (x y : List UInt8) :
    print (print m a size x) (a + (min x.length size : Nat)) (size - min x.length size) y =
    print m a size (x ++ y) := by
  rcases Nat.eq_zero_or_pos size with rfl | hs
  · simp
  rcases Nat.lt_or_ge x.length size with hlt | hge
  · have hx : x.take (size - 1) = x := List.take_of_length_le (by omega)
    have hrest : size - x.length - 1 = size - 1 - x.length := by omega
    rw [Nat.min_eq_left hlt.le, print_of_pos hs, print_of_pos hs, print_of_pos (by omega), hx, put_put x (by simp),
      List.take_append, hx, List.append_assoc, hrest]
  · rw [Nat.min_eq_right hge, Nat.sub_self, print_zero, print_of_pos hs, print_of_pos hs,
      List.take_append_of_le_length (by omega)]

/-- The text, as far as it fits. -/
theorem print_text (text : List UInt8) {k : Nat} (hk : k < min (size - 1) text.length) :
    text[k]? = some (print m a size text (a + k)) := by
  have hlen : (text.take (size - 1)).length = min (size - 1) text.length := List.length_take
  have hchar : text[k]? = some (text[k]) := List.getElem?_eq_getElem _
  rw [print_of_pos (by omega), put_of_lt (by rw [List.length_append, hlen]; omega), List.getElem_append_left (by omega),
    List.getElem_take, hchar]

theorem print_nul (hs : 0 < size) (text : List UInt8) :
    print m a size text (a + (min (size - 1) text.length : Nat)) = 0 := by
  have hlen : (text.take (size - 1)).length = min (size - 1) text.length := List.length_take
  rw [print_of_pos hs, put_of_lt (by rw [List.length_append, hlen]; simp), List.getElem_append_right (by omega)]
  simp

/-- Nothing outside the buffer is written. -/
theorem print_outside (text : List UInt8) {i : Int} (hi : i < a ∨ a + size ≤ i) : print m a size text i = m i := by
  rcases Nat.eq_zero_or_pos size with rfl | hs
  · rfl
  · have hlen : (text.take (size - 1)).length = min (size - 1) text.length := List.length_take
    rw [print_of_pos hs]
    refine put_of_outside (hi.imp_right fun h => ?_)
    rw [List.length_append, hlen, List.length_singleton]
    omega

end

end Snprintf
