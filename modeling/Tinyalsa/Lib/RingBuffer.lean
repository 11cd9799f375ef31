/-
Windows of a ring: what successive positions of an unbounded stream read from slots that are taken
modulo the ring's size. A window grows at its end by storing into the slots after it, as long as it
does not catch up with its own start.
-/
import Mathlib.Tactic

namespace RingBuffer

variable {α : Type}

/-! ## Runs of slots -/

/-- The `len` elements of an unbounded memory from `off` on. -/
def stretch (slots : Nat → α) (off len : Nat) : List α := (List.range len).map fun i => slots (off + i)

/-- The memory with `len` elements of `data` stored from `off` on. -/
def store (slots : Nat → α) (off len : Nat) (data : Nat → α) : Nat → α :=
  fun i => if off ≤ i ∧ i < off + len then data (i - off) else slots i

@[simp] theorem length_stretch (slots : Nat → α) (off len : Nat) : (stretch slots off len).length = len := by
  simp [stretch]

@[simp] theorem stretch_zero (slots : Nat → α) (off : Nat) : stretch slots off 0 = [] := rfl

theorem stretch_add (slots : Nat → α) (off a b : Nat) :
    stretch slots off (a + b) = stretch slots off a ++ stretch slots (off + a) b := by
  simp only [stretch, List.range_add, List.map_append, List.map_map]
  congr 1
  exact List.map_congr_left fun i _ => by simp [Nat.add_assoc]

theorem stretch_congr {slots slots' : Nat → α} {off off' len : Nat}
    (h : ∀ i, i < len → slots (off + i) = slots' (off' + i)) :
    stretch slots off len = stretch slots' off' len :=
  List.map_congr_left fun i hi => h i (List.mem_range.1 hi)

theorem stretch_shift (slots : Nat → α) (off len : Nat) :
    stretch (fun i => slots (off + i)) 0 len = stretch slots off len :=
  stretch_congr fun i _ => by rw [Nat.zero_add]

/-- What was stored is read back. -/
theorem stretch_store (slots data : Nat → α) (off len : Nat) :
    stretch (store slots off len data) off len = stretch data 0 len := by
  refine stretch_congr fun i hi => ?_
  unfold store
  rw [if_pos ⟨by omega, by omega⟩, Nat.add_sub_cancel_left, Nat.zero_add]

/-! ## Windows -/

/-- The `len` elements that follow position `lo` of the stream. -/
def window (size : Nat) (slots : Nat → α) (lo len : Nat) : List α := stretch (fun i => slots (i % size)) lo len

variable {size lo len : Nat}

@[simp] theorem length_window (slots : Nat → α) : (window size slots lo len).length = len := length_stretch _ _ _

@[simp] theorem window_zero (slots : Nat → α) : window size slots lo 0 = [] := rfl

theorem window_add (slots : Nat → α) (a b : Nat) :
    window size slots lo (a + b) = window size slots lo a ++ window size slots (lo + a) b := stretch_add _ _ _ _

theorem window_congr {slots slots' : Nat → α} (h : ∀ i, i < len → slots ((lo + i) % size) = slots' ((lo + i) % size)) :
    window size slots lo len = window size slots' lo len := stretch_congr h

/-- A window starts with the shorter ones. -/
theorem take_window (slots : Nat → α) {n : Nat} (h : n ≤ len) :
    (window size slots lo len).take n = window size slots lo n := by
  obtain ⟨k, rfl⟩ := Nat.exists_eq_add_of_le h
  rw [window_add, List.take_append_of_le_length (length_window slots).ge,
    List.take_of_length_le (length_window slots).le]

/-- Only the slot of the start matters. -/
theorem window_start (slots : Nat → α) {lo' : Nat} (h : lo % size = lo' % size) :
    window size slots lo len = window size slots lo' len := by
  refine stretch_congr fun i _ => ?_
  simp only [Nat.add_mod lo, Nat.add_mod lo', h]

/-- A window that does not wrap is a stretch of the slots. -/
theorem window_eq_stretch (slots : Nat → α) (h : lo % size + len ≤ size) :
    window size slots lo len = stretch slots (lo % size) len := by
  refine stretch_congr fun i hi => ?_
  have hmod : (lo + i) % size = lo % size + i := by
    rw [Nat.add_mod, Nat.add_mod_mod, Nat.mod_eq_of_lt (by omega)]
  rw [hmod]

/-- Positions less than a turn apart have different slots. -/
theorem mod_ne_of_lt {j k : Nat} (hlt : j < k) (hturn : k < j + size) : j % size ≠ k % size := by
  intro h
  have hdvd : size ∣ k - j := (Nat.modEq_iff_dvd' hlt.le).1 h
  have := Nat.le_of_dvd (by omega) hdvd
  omega

/-- A window keeps its elements when only slots outside it change. -/
theorem window_outside {slots slots' : Nat → α} {hi n : Nat} (hhi : hi = lo + len) (hturn : len + n ≤ size)
    (h : ∀ i, i < size → (∀ t, t < n → (hi + t) % size ≠ i) → slots' i = slots i) :
    window size slots' lo len = window size slots lo len := by
  refine window_congr fun i hlt => h _ (Nat.mod_lt _ (by omega)) fun t ht => ?_
  exact (mod_ne_of_lt (by omega) (by omega)).symm

/-- Storing into the slots after a window leaves it alone. -/
theorem window_store (slots data : Nat → α) {hi n : Nat} (hhi : hi = lo + len) (hturn : len + n ≤ size) :
    window size (store slots (hi % size) n data) lo len = window size slots lo len := by
  refine window_outside hhi hturn fun i _ hout => ?_
  unfold store
  rw [if_neg]
  rintro ⟨hge, hlt⟩
  refine hout (i - hi % size) (by omega) ?_
  rw [Nat.add_mod, Nat.add_mod_mod, Nat.mod_eq_of_lt (by omega)]
  omega

end RingBuffer
