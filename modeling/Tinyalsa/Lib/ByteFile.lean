/-
Files of bytes with a position: reads move it as far as there are bytes, writes overwrite or append, and
seeking past the end is allowed.
-/
import Tinyalsa.Lib.ByteMemory

open ByteMemory

/-- A file that is open: its first `size` bytes, and the position. -/
structure ByteFile where
  bytes : Memory := fun _ => 0
  size : Nat := 0
  pos : Nat := 0

namespace ByteFile

/-- Reads `n` bytes at the position: whether there are as many, and the file behind them. -/
def read (f : ByteFile) (n : Nat) : Bool × ByteFile :=
  (f.pos + n ≤ f.size, { f with pos := f.pos + min n (f.size - f.pos) })

/-- Writes `n` bytes at the position. -/
def write (f : ByteFile) (src : Memory) (n : Nat) : ByteFile where
  bytes := copy f.bytes f.pos src 0 n
  size := if n = 0 then f.size else max f.size (f.pos + n)
  pos := f.pos + n

/-- Writes fields one after another. -/
def writeFields (f : ByteFile) (fields : List (Nat × Nat)) : ByteFile where
  bytes := storeFields f.bytes f.pos fields
  size := max f.size (f.pos + fieldsSize fields)
  pos := f.pos + fieldsSize fields

def seek (f : ByteFile) (pos : Nat) : ByteFile := { f with pos }

def skip (f : ByteFile) (n : Nat) : ByteFile := { f with pos := f.pos + n }

@[simp] theorem skip_bytes (f : ByteFile) (n : Nat) : (f.skip n).bytes = f.bytes := rfl
@[simp] theorem skip_size (f : ByteFile) (n : Nat) : (f.skip n).size = f.size := rfl
@[simp] theorem skip_pos (f : ByteFile) (n : Nat) : (f.skip n).pos = f.pos + n := rfl
@[simp] theorem seek_bytes (f : ByteFile) (pos : Nat) : (f.seek pos).bytes = f.bytes := rfl
@[simp] theorem seek_size (f : ByteFile) (pos : Nat) : (f.seek pos).size = f.size := rfl
@[simp] theorem seek_pos (f : ByteFile) (pos : Nat) : (f.seek pos).pos = pos := rfl

theorem read_of_le {f : ByteFile} {n : Nat} (h : f.pos + n ≤ f.size) : f.read n = (true, f.skip n) := by
  unfold read skip
  rw [decide_eq_true h, min_eq_left (by omega)]

/-- There are as many bytes, or the read fails. -/
theorem read_cases (f : ByteFile) (n : Nat) :
    (f.pos + n ≤ f.size ∧ f.read n = (true, f.skip n)) ∨ (f.size < f.pos + n ∧ ∃ f', f.read n = (false, f')) := by
  by_cases h : f.pos + n ≤ f.size
  · exact .inl ⟨h, read_of_le h⟩
  · refine .inr ⟨not_le.1 h, { f with pos := f.pos + min n (f.size - f.pos) }, ?_⟩
    unfold read
    rw [decide_eq_false h]

/-- A position that is inside a file, or no further than `b`, stays so when it is written at. -/
theorem write_within {f : ByteFile} {b n : Nat} (src : Memory) (h : f.pos ≤ max f.size b) :
    (f.write src n).pos ≤ max (f.write src n).size b := by
  unfold write
  dsimp only
  split
  · rename_i hzero
    subst hzero
    exact h
  · exact (le_max_right ..).trans (le_max_left ..)

end ByteFile
