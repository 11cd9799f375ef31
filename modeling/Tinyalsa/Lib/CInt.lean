/-
The C conversions between fixed-width integers: an `unsigned int` read as `int`, an `unsigned long`
computed and read as `long`, an `int` widened to `unsigned long`. Each is exact on the values that
fit and wraps elsewhere.
-/
import Mathlib.Data.UInt
import Mathlib.Tactic

namespace CInt

/-- `INT_MAX`. -/
def intMax : Nat := 2 ^ 31 - 1

/-- `LONG_MAX` on a 64-bit target. -/
def longMax : Nat := 2 ^ 63 - 1

/-- An integer stored in an `int`. -/
def wrapInt (x : Int) : Int := (x + 2 ^ 31) % 2 ^ 32 - 2 ^ 31

/-- An integer stored in a `long`. -/
def wrapLong (x : Int) : Int := (x + 2 ^ 63) % 2 ^ 64 - 2 ^ 63

/-- An `int` holds the integer. -/
def fitsInt (x : Int) : Bool := -2 ^ 31 ≤ x ∧ x < 2 ^ 31

/-- `(int) x`. -/
def ofUInt (x : UInt32) : Int := wrapInt x.toNat

/-- `(unsigned int) x`. -/
def toUInt (x : Int) : UInt32 := UInt32.ofInt x

/-- `(unsigned long) x`. -/
def toULong (x : Int) : UInt64 := UInt64.ofInt x

theorem wrapInt_of_fits {x : Int} (h₁ : -2 ^ 31 ≤ x) (h₂ : x < 2 ^ 31) : wrapInt x = x := by
  unfold wrapInt; omega

theorem fitsInt_iff {x : Int} : fitsInt x ↔ -2 ^ 31 ≤ x ∧ x < 2 ^ 31 := decide_eq_true_iff

theorem fitsInt_wrapInt (x : Int) : fitsInt (wrapInt x) := by
  rw [fitsInt_iff]
  unfold wrapInt
  omega

theorem wrapInt_of_fitsInt {x : Int} (h : fitsInt x) : wrapInt x = x :=
  wrapInt_of_fits (fitsInt_iff.1 h).1 (fitsInt_iff.1 h).2

theorem wrapLong_of_fits {x : Int} (h₁ : -2 ^ 63 ≤ x) (h₂ : x < 2 ^ 63) : wrapLong x = x := by
  unfold wrapLong; omega

theorem ofUInt_of_le {x : UInt32} (h : x.toNat ≤ intMax) : ofUInt x = x.toNat := by
  unfold intMax at h
  exact wrapInt_of_fits (by omega) (by omega)

@[simp] theorem toNat_toUInt (x : Int) : (toUInt x).toNat = (x % 2 ^ 32).toNat := by
  unfold toUInt UInt32.ofInt
  rw [UInt32.toNat_ofNat', Nat.mod_eq_of_lt (by omega)]

@[simp] theorem toNat_toULong (x : Int) : (toULong x).toNat = (x % 2 ^ 64).toNat := by
  unfold toULong UInt64.ofInt
  rw [UInt64.toNat_ofNat', Nat.mod_eq_of_lt (by omega)]

/-- Reading an `unsigned int` as `int` and back loses nothing. -/
@[simp] theorem toUInt_ofUInt (x : UInt32) : toUInt (ofUInt x) = x := by
  rw [← UInt32.toNat_inj, toNat_toUInt]
  have := x.toNat_lt
  unfold ofUInt wrapInt; omega

/-- A count that came out of an `unsigned int` goes back into one. -/
@[simp] theorem toUInt_toNat (x : UInt32) : toUInt x.toNat = x := by
  have := x.toNat_lt
  rw [← UInt32.toNat_inj, toNat_toUInt]
  omega

/-- A count that went through an `int` is back in an `unsigned int` what it was, but for whole turns. -/
theorem toNat_toUInt_wrapInt_mod (n : Nat) : (toUInt (wrapInt n)).toNat = n % 2 ^ 32 := by
  rw [toNat_toUInt]
  unfold wrapInt
  omega

theorem toNat_toUInt_wrapInt {n : Nat} (h : n < 2 ^ 32) : (toUInt (wrapInt n)).toNat = n := by
  rw [toNat_toUInt_wrapInt_mod, Nat.mod_eq_of_lt h]

theorem wrapInt_nonneg_iff (n : Nat) : 0 ≤ wrapInt n ↔ n % 2 ^ 32 < 2 ^ 31 := by
  unfold wrapInt
  omega

theorem wrapInt_eq_zero_iff (n : Nat) : wrapInt n = 0 ↔ n % 2 ^ 32 = 0 := by
  unfold wrapInt
  omega

theorem wrapInt_eq_zero {n : Nat} (h : n < 2 ^ 32) : wrapInt n = 0 ↔ n = 0 := by
  rw [wrapInt_eq_zero_iff, Nat.mod_eq_of_lt h]

theorem toULong_ofUInt {x : UInt32} (h : x.toNat ≤ intMax) : toULong (ofUInt x) = x.toUInt64 := by
  rw [← UInt64.toNat_inj, toNat_toULong, ofUInt_of_le h, UInt32.toNat_toUInt64]
  unfold intMax at h; omega

/-- The smaller of two `unsigned int`s, as the clamping idiom `if (x > y) x = y` computes it. -/
theorem toNat_clamp (x y : UInt32) : (if x > y then y else x).toNat = min x.toNat y.toNat := by
  split <;> rename_i h <;> simp only [gt_iff_lt, UInt32.lt_iff_toNat_lt, not_lt] at h <;> omega

end CInt
