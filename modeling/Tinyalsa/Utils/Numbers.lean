/-
Reading numbers from the texts of a command line: `strtol` as C defines it, and what `atoi` and `sscanf("%u")` make
of a text. The decimal digits of a number are read back as that number.
-/
import Tinyalsa.Utils.Tinymix

namespace Tinyalsa

open CInt Tinymix

/-! ## Texts -/

/-- `isspace`. -/
def isSpace (c : UInt8) : Bool := c = 32 || 9 ≤ c && c ≤ 13

/-- The value of a digit or a letter. -/
def digitValue (c : UInt8) : Option Nat :=
  if 48 ≤ c ∧ c ≤ 57 then some (c.toNat - 48)
  else if 97 ≤ c ∧ c ≤ 122 then some (c.toNat - 97 + 10)
  else if 65 ≤ c ∧ c ≤ 90 then some (c.toNat - 65 + 10)
  else none

/-- A digit of a base. -/
def isBaseDigit (base : Nat) (c : UInt8) : Bool := (digitValue c).any (· < base)

def baseNumber (base : Nat) (digits : CString) : Nat :=
  digits.foldl (fun v c => v * base + (digitValue c).getD 0) 0

/-- The sign in front of a number, and what is behind it. -/
def signed (s : CString) : Bool × CString :=
  if s.head? = some minusChar then (true, s.tail)
  else if s.head? = some plusChar then (false, s.tail)
  else (false, s)

/-- `0x` or `0X`, with a digit behind it. -/
def hasHexMark (s : CString) : Bool :=
  match s with
  | 48 :: x :: d :: _ => (x = 120 || x = 88) && isBaseDigit 16 d
  | _ => false

/-- The base of a number and its digits, from what the caller says of the base: 0 leaves it to the text. -/
def baseOf (base : Nat) (s : CString) : Nat × CString :=
  if (base = 0 || base = 16) && hasHexMark s then (16, s.drop 2)
  else if base = 0 then (if s.head? = some 48 then 8 else 10, s)
  else (base, s)

/-! ## `strtol` -/

/-- What `strtol` returns, the text that `*end` is left at, and whether it set `errno` to `ERANGE`. -/
structure StrtolResult where
  value : Int
  rest : CString
  range : Bool := false
  deriving DecidableEq, Repr

/-- The number in a `long`. -/
def clampLong (n : Int) : Int := max (-2 ^ 63) (min n (2 ^ 63 - 1))

/-- `strtol(s, &end, base)`. -/
def strtol (s : CString) (base : Nat) : StrtolResult :=
  let (negative, t) := signed (s.dropWhile isSpace)
  let (base, t) := baseOf base t
  let digits := t.takeWhile (isBaseDigit base)
  if digits = [] then { value := 0, rest := s }
  else
    let n : Int := if negative then -baseNumber base digits else baseNumber base digits
    { value := clampLong n, rest := t.dropWhile (isBaseDigit base), range := clampLong n ≠ n }

/-- `atoi`. -/
def atoi (s : CString) : Int := wrapInt (strtol s 10).value

/-- What `%u` stores for these digits: an `unsigned long`, of which the lower half is kept. -/
def scannedValue (negative : Bool) (digits : CString) : UInt32 :=
  let n := baseNumber 10 digits
  toUInt (if n ≥ 2 ^ 64 then 2 ^ 64 - 1 else if negative then -n else n)

/-- `%u`: the value, and what is left to be read. -/
def scanUInt (s : CString) : Option (UInt32 × CString) :=
  let (negative, t) := signed (s.dropWhile isSpace)
  let digits := t.takeWhile (isBaseDigit 10)
  if digits = [] then none else some (scannedValue negative digits, t.dropWhile (isBaseDigit 10))

/-- `sscanf(s, "%u", &value)`; nothing, where it does not return 1. -/
def sscanfUInt (s : CString) : Option UInt32 := (scanUInt s).map Prod.fst

/-! ## Decimal texts -/

theorem isBaseDigit_ten {c : UInt8} (h : isDigit c) : isBaseDigit 10 c ∧ (digitValue c).getD 0 = c.toNat - 48 := by
  simp only [isDigit, Bool.and_eq_true, decide_eq_true_eq] at h
  have hlt : c.toNat - 48 < 10 := by
    have := UInt8.le_iff_toNat_le.1 h.2
    simp only [UInt8.reduceToNat] at this
    omega
  unfold isBaseDigit digitValue
  rw [if_pos h]
  exact ⟨by simpa using hlt, rfl⟩

theorem isBaseDigit_eq (c : UInt8) : isBaseDigit 10 c = isDigit c := by
  cases hc : isDigit c with
  | true => exact (isBaseDigit_ten hc).1
  | false =>
    unfold isBaseDigit digitValue
    simp only [isDigit, Bool.and_eq_false_iff, decide_eq_false_iff_not] at hc
    rw [if_neg (by tauto)]
    split
    · simp
    · split
      · simp
      · rfl

theorem isSpace_of_isDigit {c : UInt8} (h : isDigit c) : isSpace c = false := by
  simp only [isDigit, Bool.and_eq_true, decide_eq_true_eq, UInt8.le_iff_toNat_le, UInt8.reduceToNat] at h
  simp only [isSpace, Bool.or_eq_false_iff, Bool.and_eq_false_iff, decide_eq_false_iff_not, UInt8.le_iff_toNat_le,
    UInt8.reduceToNat, ← UInt8.toNat_inj]
  omega

theorem baseNumber_digits {s : CString} (h : ∀ c ∈ s, isDigit c) : baseNumber 10 s = number 0 s := by
  have hfold : ∀ (s : CString) (v : Nat), (∀ c ∈ s, isDigit c) →
      s.foldl (fun v c => v * 10 + (digitValue c).getD 0) v = number v s := by
    intro s
    induction s with
    | nil => exact fun _ _ => rfl
    | cons c s ih =>
      intro v hs
      rw [List.foldl_cons, number_cons, (isBaseDigit_ten (hs c List.mem_cons_self)).2, Nat.mul_comm]
      exact ih _ fun d hd => hs d (List.mem_cons_of_mem c hd)
  exact hfold s 0 h

section

variable {m : Nat}

theorem digitsText_ne_nil (m : Nat) : digitsText m ≠ [] := fun h => Nat.toDigits_ne_nil (List.map_eq_nil_iff.1 h)

/-- What starts with a digit has neither space nor sign in front. -/
theorem signed_cons_digit {c : UInt8} (hc : isDigit c) (s : CString) :
    signed ((c :: s).dropWhile isSpace) = (false, c :: s) := by
  obtain ⟨-, hminus, hplus, -⟩ := ne_of_isDigit hc
  rw [List.dropWhile_cons_of_neg (by simp [isSpace_of_isDigit hc])]
  unfold signed
  rw [List.head?_cons, if_neg (by simpa using hminus), if_neg (by simpa using hplus)]

theorem signed_of_digits {s : CString} (hne : s ≠ []) (h : ∀ c ∈ s, isDigit c) :
    signed (s.dropWhile isSpace) = (false, s) := by
  obtain ⟨c, s, rfl⟩ := List.exists_cons_of_ne_nil hne
  exact signed_cons_digit (h c List.mem_cons_self) s

/-- The digits of a number start with `0` only for 0 itself. -/
theorem head?_digitsText (hm : 0 < m) : (digitsText m).head? ≠ some 48 := by
  induction m using Nat.strong_induction_on with
  | _ m ih =>
    unfold digitsText at ih ⊢
    rcases Nat.lt_or_ge m 10 with hlt | hge
    · rw [Nat.toDigits_of_lt_base hlt]
      interval_cases m <;> decide
    · rw [Nat.toDigits_of_base_le (by decide) hge, List.map_append]
      have hne : (Nat.toDigits 10 (m / 10)).map (·.toNat.toUInt8) ≠ [] :=
        fun h => Nat.toDigits_ne_nil (List.map_eq_nil_iff.1 h)
      rw [List.head?_append_of_ne_nil _ hne]
      exact ih (m / 10) (by omega) (by omega)

theorem strtol_digitsText (hm : m < 2 ^ 63) {base : Nat} (hbase : base = 0 ∨ base = 10) :
    strtol (digitsText m) base = { value := m, rest := [] } := by
  have hdigits : ∀ c ∈ digitsText m, isDigit c := fun c hc => isDigit_of_mem hc
  have hten : ∀ c ∈ digitsText m, isBaseDigit 10 c := fun c hc => (isBaseDigit_ten (hdigits c hc)).1
  rcases Nat.eq_zero_or_pos m with rfl | hpos
  · rcases hbase with rfl | rfl <;> decide
  have hhex : hasHexMark (digitsText m) = false := by
    have hhead := head?_digitsText hpos
    unfold hasHexMark
    split
    · rename_i heq
      rw [heq] at hhead
      exact absurd rfl hhead
    · rfl
  have hten' : baseOf base (digitsText m) = (10, digitsText m) := by
    unfold baseOf
    rw [hhex, Bool.and_false, if_neg Bool.false_ne_true]
    rcases hbase with rfl | rfl
    · rw [if_pos rfl, if_neg (head?_digitsText hpos)]
    · rfl
  have hclamp : clampLong (m : Int) = m := by
    unfold clampLong
    omega
  unfold strtol
  rw [signed_of_digits (digitsText_ne_nil m) hdigits]
  dsimp only
  rw [hten']
  dsimp only
  rw [List.takeWhile_eq_self_iff.2 hten, if_neg (digitsText_ne_nil m), List.dropWhile_eq_nil_iff.2 hten,
    baseNumber_digits hdigits, number_digitsText, if_neg Bool.false_ne_true, hclamp]
  simp

end

end Tinyalsa
