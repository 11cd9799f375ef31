/-
Memory as bytes: little-endian loads and stores of any width, and copies of byte ranges. A load sees
the store to its own place, and none to another.
-/
import Mathlib.Tactic

namespace ByteMemory

/-- The bytes from an address on. -/
abbrev Memory := Nat → UInt8

/-- The little-endian number in the `w` bytes at `a`. -/
def load (m : Memory) (a : Nat) : Nat → Nat
  | 0 => 0
  | w + 1 => (m a).toNat + 256 * load m (a + 1) w

/-- Writes the `w` low bytes of `n` at `a`. -/
def store (m : Memory) (a w n : Nat) : Memory := fun i =>
  if a ≤ i ∧ i < a + w then UInt8.ofNat (n / 256 ^ (i - a)) else m i

/-- Copies `n` bytes of `src` from `s` on to `d`. -/
def copy (dst : Memory) (d : Nat) (src : Memory) (s n : Nat) : Memory := fun i =>
  if d ≤ i ∧ i < d + n then src (s + (i - d)) else dst i

section

variable {m m' : Memory} {a a' b v w : Nat}

theorem load_congr (h : ∀ i, i < w → m (a + i) = m' (a' + i)) : load m a w = load m' a' w := by
  induction w generalizing a a' with
  | zero => rfl
  | succ w ih =>
    have hhead : m a = m' a' := h 0 (Nat.succ_pos w)
    have htail : load m (a + 1) w = load m' (a' + 1) w := by
      refine ih fun i hi => ?_
      rw [Nat.add_assoc, Nat.add_comm 1 i, Nat.add_assoc, Nat.add_comm 1 i]
      exact h (i + 1) (Nat.succ_lt_succ hi)
    unfold load
    rw [hhead, htail]

theorem load_zero (h : ∀ i, i < w → m (a + i) = 0) : load m a w = 0 := by
  induction w generalizing a with
  | zero => rfl
  | succ w ih =>
    have hhead : m a = 0 := h 0 (Nat.succ_pos w)
    have htail : load m (a + 1) w = 0 := by
      refine ih fun i hi => ?_
      rw [Nat.add_assoc, Nat.add_comm 1 i]
      exact h (i + 1) (Nat.succ_lt_succ hi)
    unfold load
    rw [hhead, htail]
    rfl

theorem load_lt (m : Memory) (a w : Nat) : load m a w < 256 ^ w := by
  induction w generalizing a with
  | zero => exact Nat.one_pos
  | succ w ih =>
    have := (m a).toNat_lt
    have := ih (a + 1)
    unfold load
    rw [Nat.pow_succ]
    omega

theorem store_of_mem {n i : Nat} (h : i < w) : store m a w n (a + i) = UInt8.ofNat (n / 256 ^ i) := by
  unfold store
  rw [if_pos ⟨Nat.le_add_right a i, by omega⟩, Nat.add_sub_cancel_left]

theorem store_of_not_mem {n i : Nat} (h : i < a ∨ a + w ≤ i) : store m a w n i = m i := by
  unfold store
  rw [if_neg (by omega)]

theorem copy_of_mem {src : Memory} {s n i : Nat} (h : i < n) : copy m a src s n (a + i) = src (s + i) := by
  unfold copy
  rw [if_pos ⟨Nat.le_add_right a i, by omega⟩, Nat.add_sub_cancel_left]

/-- A copy of no bytes. -/
theorem copy_zero (dst : Memory) (d : Nat) (src : Memory) (s : Nat) : copy dst d src s 0 = dst := by
  funext i
  unfold copy
  rw [if_neg (by omega)]

/-- A copy from the start to the start. -/
theorem copy_start {src : Memory} {n i : Nat} (h : i < n) : copy m 0 src 0 n i = src i := by
  have hcopy : copy m 0 src 0 n (0 + i) = src (0 + i) := copy_of_mem h
  rwa [Nat.zero_add] at hcopy

/-- A load sees what was stored, as far as the width holds it. -/
theorem load_store (m : Memory) (a w n : Nat) : load (store m a w n) a w = n % 256 ^ w := by
  suffices h : ∀ v k, v + k = w → load (store m a w n) (a + k) v = n / 256 ^ k % 256 ^ v by
    simpa using h w 0 rfl
  intro v
  induction v with
  | zero =>
    intro k _
    rw [pow_zero, Nat.mod_one]
    rfl
  | succ v ih =>
    intro k hk
    have hbyte : (store m a w n (a + k)).toNat = n / 256 ^ k % 256 := by
      rw [store_of_mem (by omega), UInt8.toNat_ofNat']
    unfold load
    rw [hbyte, Nat.add_assoc, ih (k + 1) (by omega), Nat.pow_succ, ← Nat.div_div_eq_div_mul,
      pow_succ' 256 v, Nat.mod_mul]

theorem load_store_of_lt {n : Nat} (m : Memory) (a : Nat) (h : n < 256 ^ w) : load (store m a w n) a w = n := by
  rw [load_store, Nat.mod_eq_of_lt h]

/-- A load does not see a store to another place. -/
theorem load_store_disjoint {n : Nat} (h : b + v ≤ a ∨ a + w ≤ b) : load (store m a w n) b v = load m b v :=
  load_congr fun i hi => store_of_not_mem (by omega)

/-! ## Records -/

/-- Writes fields, each a width and a number, one after another. -/
def storeFields (m : Memory) (a : Nat) : List (Nat × Nat) → Memory
  | [] => m
  | (w, n) :: fields => storeFields (store m a w n) (a + w) fields

/-- The bytes of fields. -/
def fieldsSize (fields : List (Nat × Nat)) : Nat := (fields.map Prod.fst).sum

theorem fieldsSize_cons (w n : Nat) (fields : List (Nat × Nat)) :
    fieldsSize ((w, n) :: fields) = w + fieldsSize fields := by
  unfold fieldsSize
  rw [List.map_cons, List.sum_cons]

theorem load_storeFields_of_le {fields : List (Nat × Nat)} (h : b + v ≤ a ∨ a + fieldsSize fields ≤ b) :
    load (storeFields m a fields) b v = load m b v := by
  induction fields generalizing m a with
  | nil => rfl
  | cons field fields ih =>
    obtain ⟨w, n⟩ := field
    rw [fieldsSize_cons] at h
    unfold storeFields
    rw [ih (by omega), load_store_disjoint (by omega)]

/-- A load of the place of a field sees what was stored. -/
theorem load_storeFields {fields : List (Nat × Nat)} : ∀ {i : Nat} (hi : i < fields.length),
    load (storeFields m a fields) (a + fieldsSize (fields.take i)) fields[i].1 = fields[i].2 % 256 ^ fields[i].1 := by
  induction fields generalizing m a with
  | nil => rintro i ⟨⟩
  | cons field fields ih =>
    obtain ⟨w, n⟩ := field
    intro i hi
    cases i with
    | zero =>
      show load (storeFields (store m a w n) (a + w) fields) a w = n % 256 ^ w
      rw [load_storeFields_of_le (.inl le_rfl), load_store]
    | succ i =>
      have hsize : a + fieldsSize (((w, n) :: fields).take (i + 1)) = a + w + fieldsSize (fields.take i) := by
        rw [List.take_succ_cons, fieldsSize_cons, Nat.add_assoc]
      rw [hsize]
      exact ih (Nat.lt_of_succ_lt_succ hi)

theorem storeFields_of_le {fields : List (Nat × Nat)} {i : Nat} (h : a + fieldsSize fields ≤ i) :
    storeFields m a fields i = m i := by
  induction fields generalizing m a with
  | nil => rfl
  | cons field fields ih =>
    obtain ⟨w, n⟩ := field
    rw [fieldsSize_cons] at h
    unfold storeFields
    rw [ih (by omega), store_of_not_mem (by omega)]

end

end ByteMemory
