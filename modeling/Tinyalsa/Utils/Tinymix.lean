/-
tinymix: the values on its command line (`parse_int`, `to_control_value`), and which of the texts that it
documents they are read from.
-/
import Mathlib.Data.List.TakeWhile
import Tinyalsa.Lib.CInt
import Tinyalsa.Mixer.Group

namespace Tinyalsa.Tinymix

open CInt

/-! ## Parsing -/

/-- `struct parsed_int`. The remaining characters are given by their offset in the string. `overflow` is set where an
`int` overflows; ghost. -/
structure ParsedInt where
  valid : Bool := false
  value : Int := 0
  length : UInt32 := 0
  remainingLength : UInt32 := 0
  remaining : Nat := 0
  overflow : Bool := false
  deriving DecidableEq, Repr

/-- `struct control_value`, and whether an `int` overflowed on the way to it; ghost. -/
structure ControlValue where
  value : Int := 0
  isPercent : Bool := false
  isRelative : Bool := false
  overflow : Bool := false
  deriving DecidableEq, Repr

/-- The characters of a string, as far as `strlen` counts them. -/
def chars (str : CString) : CString := str.takeWhile (· ≠ 0)

/-- `'-'`. -/
def minusChar : UInt8 := 45
/-- `'+'`. -/
def plusChar : UInt8 := 43
/-- `'%'`. -/
def percentChar : UInt8 := 37

/-- `c >= '0' && c <= '9'`. -/
def isDigit (c : UInt8) : Bool := 48 ≤ c && c ≤ 57

/-- The loop of `parse_int`. -/
def digitLoop : List UInt8 → ParsedInt → ParsedInt
  | [], out => out
  | c :: s, out =>
    if !isDigit c then out
    else
      let tens := out.value * 10
      let value := wrapInt tens + (c.toNat - 48 : Nat)
      digitLoop s { out with
        value := wrapInt value
        length := out.length + 1
        overflow := out.overflow || !fitsInt tens || !fitsInt value }

/-- `out.value *= -1`. -/
def ParsedInt.negate (out : ParsedInt) : ParsedInt :=
  { out with value := wrapInt (out.value * -1), overflow := out.overflow || !fitsInt (out.value * -1) }

@[simp] theorem ParsedInt.negate_length (out : ParsedInt) : out.negate.length = out.length := rfl

/-- `parse_int`. -/
def parseInt (str : CString) : ParsedInt :=
  let s := chars str
  let negative := s.head? = some minusChar
  let out := digitLoop (if negative then s.tail else s) {}
  let out := if negative then out.negate else out
  { out with
    valid := out.length > 0
    remainingLength := (s.length - out.length.toNat).toUInt32
    remaining := out.length.toNat }

/-- `str[i]`, in a string with its terminating NUL. -/
def charAt (str : CString) (i : Nat) : UInt8 := (chars str)[i]?.getD 0

/-- `to_control_value`. -/
def toControlValue (valueString : CString) : ControlValue :=
  let parsed := parseInt valueString
  let isPercent := charAt valueString parsed.remaining = percentChar
  let i := if isPercent then 1 else 0
  if charAt valueString (parsed.remaining + i) = plusChar then
    { value := parsed.value, isPercent, isRelative := true, overflow := parsed.overflow }
  else if charAt valueString (parsed.remaining + i) = minusChar then
    { value := wrapInt (parsed.value * -1), isPercent, isRelative := true
      overflow := parsed.overflow || !fitsInt (parsed.value * -1) }
  else { value := parsed.value, isPercent, overflow := parsed.overflow }

/-! ## The loop over the digits -/

/-- The number that digits add to. -/
def number (v : Nat) (digits : List UInt8) : Nat := digits.foldl (fun v c => 10 * v + (c.toNat - 48)) v

theorem number_cons (v : Nat) (c : UInt8) (digits : List UInt8) :
    number v (c :: digits) = number (10 * v + (c.toNat - 48)) digits := by
  unfold number
  rw [List.foldl_cons]

theorem le_number (digits : List UInt8) (v : Nat) : v ≤ number v digits := by
  induction digits generalizing v with
  | nil => exact Nat.le_refl v
  | cons c digits ih =>
    rw [number_cons]
    have hle := ih (10 * v + (c.toNat - 48))
    omega

/-- The loop counts the digits that come first. -/
theorem digitLoop_length : ∀ (s : List UInt8) (out : ParsedInt),
    (digitLoop s out).length = out.length + (s.takeWhile isDigit).length.toUInt32
  | [], out => (UInt32.add_zero _).symm
  | c :: s, out => by
    unfold digitLoop
    cases hc : isDigit c
    · rw [List.takeWhile_cons_of_neg (by rw [hc]; decide)]
      exact (UInt32.add_zero _).symm
    · rw [List.takeWhile_cons_of_pos hc, List.length_cons, Nat.add_comm]
      refine (digitLoop_length s _).trans ?_
      dsimp only
      rw [UInt32.add_assoc]
      exact congrArg (out.length + ·) (UInt32.ofNat_add 1 _).symm

theorem digitLoop_overflow : ∀ (s : List UInt8) (out : ParsedInt), out.overflow → (digitLoop s out).overflow
  | [], _, h => h
  | c :: s, out, h => by
    unfold digitLoop
    split
    · exact h
    · refine digitLoop_overflow s _ ?_
      dsimp only
      rw [h]
      rfl

/-- The loop reads the number of its digits, unless an `int` does not hold it. -/
theorem digitLoop_value : ∀ (s : List UInt8) (out : ParsedInt) (v : Nat), out.value = v → v < 2 ^ 31 →
    out.overflow = false →
    (number v (s.takeWhile isDigit) < 2 ^ 31 → (digitLoop s out).value = number v (s.takeWhile isDigit) ∧
      (digitLoop s out).overflow = false) ∧
    (2 ^ 31 ≤ number v (s.takeWhile isDigit) → (digitLoop s out).overflow)
  | [], out, v, hv, hlt, ho => ⟨fun _ => ⟨hv, ho⟩, fun hge => absurd hge (not_le.2 hlt)⟩
  | c :: s, out, v, hv, hlt, ho => by
    unfold digitLoop
    cases hc : isDigit c
    · rw [List.takeWhile_cons_of_neg (by rw [hc]; decide)]
      exact ⟨fun _ => ⟨hv, ho⟩, fun hge => absurd hge (not_le.2 hlt)⟩
    · rw [List.takeWhile_cons_of_pos hc, number_cons]
      have hle := le_number (s.takeWhile isDigit) (10 * v + (c.toNat - 48))
      have hdigit : c.toNat - 48 ≤ 9 := by
        simp only [isDigit, Bool.and_eq_true, decide_eq_true_eq, UInt8.le_iff_toNat_le] at hc
        have := hc.2
        change c.toNat ≤ 57 at this
        omega
      by_cases hnext : 10 * v + (c.toNat - 48) < 2 ^ 31
      · -- no `int` overflows in this round
        have htens : fitsInt (out.value * 10) = true := by
          rw [hv, fitsInt_iff]
          omega
        have hvalue : fitsInt (out.value * 10 + (c.toNat - 48 : Nat)) = true := by
          rw [hv, fitsInt_iff]
          omega
        refine digitLoop_value s _ _ ?_ hnext ?_
        · dsimp only
          rw [wrapInt_of_fitsInt htens, wrapInt_of_fitsInt hvalue, hv]
          push_cast
          ring
        · dsimp only
          rw [wrapInt_of_fitsInt htens, ho, htens, hvalue]
          rfl
      · refine ⟨fun hlt => absurd (hle.trans_lt hlt) hnext, fun _ => digitLoop_overflow s _ ?_⟩
        dsimp only
        rw [Bool.or_eq_true, Bool.or_eq_true, Bool.not_eq_true', Bool.not_eq_true']
        by_cases htens : fitsInt (out.value * 10) = true
        · right
          rw [wrapInt_of_fitsInt htens, hv, ← Bool.not_eq_true, fitsInt_iff]
          omega
        · exact .inl (.inr (Bool.not_eq_true _ ▸ htens))

/-! ## The texts of values -/

/-- What the value of a text is relative to. -/
inductive Sign
  | plus | minus
  deriving DecidableEq, Repr

/-- What may follow the integer of a value. -/
structure Suffix where
  percent : Bool := false
  sign : Option Sign := none
  deriving DecidableEq, Repr

def Sign.char : Sign → UInt8
  | .plus => plusChar
  | .minus => minusChar

def Suffix.text (x : Suffix) : CString := (if x.percent then [percentChar] else []) ++ (x.sign.map Sign.char).toList

/-- The bytes of a decimal number. -/
def decimalText (n : Int) : CString := (toString n).toList.map (·.toNat.toUInt8)

/-- The text of an integer with a suffix is read as that value. -/
def ParsesAs (n : Int) (x : Suffix) : Prop :=
  toControlValue (decimalText n ++ x.text) =
    { value := if x.sign = some .minus then -n else n
      isPercent := x.percent
      isRelative := x.sign.isSome
      overflow := false }

/-- The digits of a number. -/
def digitsText (m : Nat) : CString := (Nat.toDigits 10 m).map (·.toNat.toUInt8)

theorem decimalText_of_nonneg {n : Int} (h : 0 ≤ n) : decimalText n = digitsText n.toNat := by
  unfold decimalText digitsText
  rw [Int.toString_eq_repr, Int.repr_eq_if, if_pos h, Nat.toList_repr]

theorem decimalText_of_neg {n : Int} (h : n < 0) : decimalText n = minusChar :: digitsText (-n).toNat := by
  unfold decimalText digitsText
  rw [Int.toString_eq_repr, Int.repr_eq_if, if_neg (not_le.2 h), String.toList_append, Nat.toList_repr]
  rfl

theorem toNat_digit {c : Char} (h : c.isDigit) : 48 ≤ c.toNat ∧ c.toNat ≤ 57 ∧ c.toNat.toUInt8.toNat = c.toNat := by
  have hbounds : 48 ≤ c.toNat ∧ c.toNat ≤ 57 := by
    simpa [Char.isDigit, UInt32.le_iff_toNat_le] using h
  refine ⟨hbounds.1, hbounds.2, ?_⟩
  exact UInt8.toNat_ofNat_of_lt' (by change c.toNat < 256; omega)

theorem isDigit_of_mem {m : Nat} {c : UInt8} (h : c ∈ digitsText m) : isDigit c := by
  obtain ⟨d, hd, rfl⟩ := List.mem_map.1 h
  obtain ⟨hlo, hhi, heq⟩ := toNat_digit (Nat.isDigit_of_mem_toDigits (by decide) (by decide) hd)
  simp only [isDigit, Bool.and_eq_true, decide_eq_true_eq, UInt8.le_iff_toNat_le, heq]
  exact ⟨hlo, hhi⟩

theorem ne_of_isDigit {c : UInt8} (h : isDigit c) : c ≠ 0 ∧ c ≠ minusChar ∧ c ≠ plusChar ∧ c ≠ percentChar := by
  refine ⟨?_, ?_, ?_, ?_⟩ <;>
    · rintro rfl
      exact absurd h (by decide)

theorem number_digitsText (m : Nat) : number 0 (digitsText m) = m := by
  have hdigits : ∀ (l : List Char) (v : Nat), (∀ c ∈ l, c.isDigit) →
      number v (l.map (·.toNat.toUInt8)) = Nat.ofDigitChars 10 l v := by
    intro l
    induction l with
    | nil => exact fun _ _ => rfl
    | cons c l ih =>
      intro v hl
      rw [List.map_cons, number_cons, (toNat_digit (hl c List.mem_cons_self)).2.2, Nat.ofDigitChars_cons]
      exact ih _ fun d hd => hl d (List.mem_cons_of_mem _ hd)
  unfold digitsText
  rw [hdigits _ _ fun c hc => Nat.isDigit_of_mem_toDigits (by decide) (by decide) hc, Nat.ofDigitChars_ten_toDigits]

theorem length_digitsText {m : Nat} (h : m ≤ 2 ^ 31) : 0 < (digitsText m).length ∧ (digitsText m).length < 2 ^ 32 := by
  unfold digitsText
  rw [List.length_map]
  refine ⟨Nat.length_toDigits_pos, ?_⟩
  have hle := (Nat.length_toDigits_le_iff (n := m) (k := 10) (b := 10) (by decide) (by decide)).2 (by omega)
  omega

theorem text_cases (x : Suffix) : ∀ c ∈ x.text, c = percentChar ∨ c = plusChar ∨ c = minusChar := by
  obtain ⟨percent, sign⟩ := x
  rcases percent with _ | _ <;> rcases sign with _ | _ | _ <;> simp [Suffix.text, Sign.char]

/-- The digits of a text come to its suffix. -/
theorem takeWhile_text (m : Nat) (x : Suffix) : (digitsText m ++ x.text).takeWhile isDigit = digitsText m := by
  rw [List.takeWhile_append_of_pos fun c hc => isDigit_of_mem hc]
  have hsuffix : x.text.takeWhile isDigit = [] := by
    obtain ⟨percent, sign⟩ := x
    rcases percent with _ | _ <;> rcases sign with _ | _ | _ <;> decide
  rw [hsuffix, List.append_nil]

theorem chars_text (m : Nat) (x : Suffix) : chars (digitsText m ++ x.text) = digitsText m ++ x.text := by
  unfold chars
  rw [List.takeWhile_eq_self_iff]
  intro c hc
  apply decide_eq_true
  rcases List.mem_append.1 hc with hc | hc
  · exact (ne_of_isDigit (isDigit_of_mem hc)).1
  · rcases text_cases x c hc with rfl | rfl | rfl <;> decide

theorem chars_minus (s : CString) : chars (minusChar :: s) = minusChar :: chars s := by
  unfold chars
  exact List.takeWhile_cons_of_pos (by decide)

section

variable {m : Nat} {x : Suffix}

theorem head?_text : (digitsText m ++ x.text).head? ≠ some minusChar := by
  cases hdigits : digitsText m with
  | nil =>
    have hne : digitsText m ≠ [] := by
      unfold digitsText
      exact fun h => Nat.toDigits_ne_nil (List.map_eq_nil_iff.1 h)
    exact absurd hdigits hne
  | cons c s =>
    have hc : isDigit c := isDigit_of_mem (m := m) (hdigits ▸ List.mem_cons_self)
    rw [List.cons_append, List.head?_cons]
    exact fun h => (ne_of_isDigit hc).2.1 (Option.some.inj h)

/-- The loop over a text counts its digits. -/
theorem digitLoop_text_length (h : m ≤ 2 ^ 31) :
    (digitLoop (digitsText m ++ x.text) {}).length.toNat = (digitsText m).length := by
  rw [digitLoop_length, takeWhile_text, UInt32.zero_add]
  exact UInt32.toNat_ofNat_of_lt' (length_digitsText h).2

theorem digitLoop_text_value (h : m < 2 ^ 31) :
    (digitLoop (digitsText m ++ x.text) {}).value = m ∧ (digitLoop (digitsText m ++ x.text) {}).overflow = false := by
  have hspec := (digitLoop_value (digitsText m ++ x.text) {} 0 rfl (by decide) rfl).1
  rw [takeWhile_text, number_digitsText] at hspec
  exact hspec h

/-- A text without a sign is read as it is meant. -/
theorem parsesAs_nonneg (h : m < 2 ^ 31) : ParsesAs m x := by
  obtain ⟨hvalue, hover⟩ := digitLoop_text_value (x := x) h
  have hlength := digitLoop_text_length (x := x) h.le
  have hchar : ∀ i, charAt (digitsText m ++ x.text) ((digitLoop (digitsText m ++ x.text) {}).length.toNat + i) =
      x.text[i]?.getD 0 := by
    intro i
    unfold charAt
    rw [chars_text, hlength, List.getElem?_append_right (Nat.le_add_right ..), Nat.add_sub_cancel_left]
  have hneg : fitsInt (-m) = true ∧ wrapInt (-m) = -m := by
    have hfits : fitsInt (-(m : Int)) = true := fitsInt_iff.2 (by omega)
    exact ⟨hfits, wrapInt_of_fitsInt hfits⟩
  have hzero := hchar 0
  have hone := hchar 1
  rw [Nat.add_zero] at hzero
  unfold ParsesAs toControlValue parseInt
  rw [decimalText_of_nonneg (Int.natCast_nonneg m), Int.toNat_natCast]
  simp only [chars_text, head?_text, if_false]
  rw [hzero, hvalue, hover]
  obtain ⟨percent, sign⟩ := x
  rcases percent with _ | _ <;> rcases sign with _ | _ | _ <;>
    simp [Suffix.text, Sign.char, minusChar, plusChar, percentChar] at hzero hone ⊢ <;>
    simp [hzero, hone, hneg]

/-- Behind a `'-'` the count of the digits points to the last digit, and no suffix is seen. -/
theorem toControlValue_minus (h : m ≤ 2 ^ 31) :
    toControlValue (minusChar :: (digitsText m ++ x.text)) =
      { value := ((digitLoop (digitsText m ++ x.text) {}).negate).value
        overflow := ((digitLoop (digitsText m ++ x.text) {}).negate).overflow } := by
  have hlength := digitLoop_text_length (x := x) h
  obtain ⟨k, hk⟩ := Nat.exists_eq_succ_of_ne_zero (length_digitsText h).1.ne'
  have hchars : chars (minusChar :: (digitsText m ++ x.text)) = minusChar :: (digitsText m ++ x.text) := by
    rw [chars_minus, chars_text]
  obtain ⟨c, hget, hc⟩ : ∃ c, (digitsText m)[k]? = some c ∧ isDigit c := by
    have hlt : k < (digitsText m).length := hk ▸ Nat.lt_succ_self k
    exact ⟨_, List.getElem?_eq_getElem hlt, isDigit_of_mem (List.getElem_mem hlt)⟩
  have hchar : charAt (minusChar :: (digitsText m ++ x.text)) (k + 1) = c := by
    unfold charAt
    rw [hchars, List.getElem?_cons_succ, List.getElem?_append_left (hk ▸ Nat.lt_succ_self k), hget]
    rfl
  obtain ⟨-, hminus, hplus, hpercent⟩ := ne_of_isDigit hc
  unfold toControlValue parseInt
  simp only [hchars, List.head?_cons, if_true, List.tail_cons, ParsedInt.negate_length, hlength, hk]
  simp only [hchar, if_neg hpercent, Nat.add_zero, if_neg hplus, if_neg hminus, decide_eq_false hpercent]

/-- A text with a sign is read as it is meant where nothing follows it. -/
theorem parsesAs_neg_iff {n : Int} (hneg : n < 0) (hle : -2 ^ 31 ≤ n) : ParsesAs n x ↔ x = {} ∧ n ≠ -2 ^ 31 := by
  have hm : (-n).toNat ≤ 2 ^ 31 := by omega
  unfold ParsesAs
  rw [decimalText_of_neg hneg, List.cons_append, toControlValue_minus hm]
  constructor
  · intro h
    obtain ⟨-, hpercent, hsign, hover⟩ := ControlValue.mk.inj h
    refine ⟨?_, ?_⟩
    · obtain ⟨percent, sign⟩ := x
      rw [Suffix.mk.injEq]
      exact ⟨hpercent.symm, Option.not_isSome_iff_eq_none.1 (by rw [← hsign]; exact Bool.false_ne_true)⟩
    · rintro rfl
      have hspec := (digitLoop_value (digitsText (2 ^ 31) ++ x.text) {} 0 rfl (by decide) rfl).2
      rw [takeWhile_text, number_digitsText] at hspec
      have hloop : (digitLoop (digitsText (2 ^ 31) ++ x.text) {}).overflow = true := hspec (Nat.le_refl _)
      have hnegate : (digitLoop (digitsText (2 ^ 31) ++ x.text) {}).negate.overflow = true := by
        unfold ParsedInt.negate
        dsimp only
        rw [hloop]
        rfl
      exact absurd (hnegate.symm.trans hover) (by decide)
  · rintro ⟨rfl, hne⟩
    obtain ⟨hvalue, hover⟩ := digitLoop_text_value (m := (-n).toNat) (x := {}) (by omega)
    have hback : ((-n).toNat : Int) * -1 = n := by omega
    have hfits : fitsInt n = true := fitsInt_iff.2 (by omega)
    unfold ParsedInt.negate
    rw [hvalue, hover, hback, hfits, wrapInt_of_fitsInt hfits]
    rfl

end

theorem parsesAs_iff (n : Int32) (x : Suffix) :
    ParsesAs n.toInt x ↔ 0 ≤ n.toInt ∨ x = {} ∧ n.toInt ≠ -2 ^ 31 := by
  have hlo := n.le_toInt
  have hhi := n.toInt_lt
  by_cases hneg : n.toInt < 0
  · rw [parsesAs_neg_iff hneg hlo]
    exact ⟨.inr, fun h => h.resolve_left (by omega)⟩
  · have hn : ((n.toInt.toNat : Nat) : Int) = n.toInt := Int.toNat_of_nonneg (by omega)
    rw [← hn]
    exact ⟨fun _ => .inl (Int.natCast_nonneg _), fun _ => parsesAs_nonneg (by omega)⟩

/-! ## Where the remaining characters begin -/

/-- A string begins with a `'-'`. -/
def Negative (str : CString) : Prop := (chars str).head? = some minusChar

instance (str : CString) : Decidable (Negative str) := by unfold Negative; infer_instance

/-- The digits behind the sign of a string. -/
def digits (str : CString) : CString :=
  (if Negative str then (chars str).tail else chars str).takeWhile isDigit

/-- The characters of a string that are parsed: the sign and the digits. -/
def consumed (str : CString) : Nat := (if Negative str then 1 else 0) + (digits str).length

/-- The remaining characters are those behind the parsed ones, and all of them. -/
def RemainingBehind (str : CString) : Prop :=
  (parseInt str).remaining = consumed str ∧
    consumed str + (parseInt str).remainingLength.toNat = (chars str).length

theorem remaining_parseInt (str : CString) : (parseInt str).remaining = (digits str).length % 2 ^ 32 := by
  have hloop : (parseInt str).remaining =
      (digitLoop (if Negative str then (chars str).tail else chars str) {}).length.toNat := by
    unfold parseInt Negative
    dsimp only
    by_cases hneg : (chars str).head? = some minusChar <;> simp [hneg, ParsedInt.negate]
  rw [hloop, digitLoop_length, UInt32.zero_add]
  exact UInt32.toNat_ofNat'

theorem remainingLength_parseInt (str : CString) :
    (parseInt str).remainingLength.toNat = ((chars str).length - (parseInt str).remaining) % 2 ^ 32 := by
  unfold parseInt
  exact UInt32.toNat_ofNat'

theorem remainingBehind_iff (str : CString) :
    RemainingBehind str ↔
      ¬ Negative str ∧ (digits str).length < 2 ^ 32 ∧ (chars str).length - (digits str).length < 2 ^ 32 := by
  have hle : ¬ Negative str → (digits str).length ≤ (chars str).length := by
    intro hneg
    unfold digits
    rw [if_neg hneg]
    exact (List.takeWhile_sublist _).length_le
  unfold RemainingBehind consumed
  rw [remainingLength_parseInt, remaining_parseInt]
  by_cases hneg : Negative str
  · rw [if_pos hneg]
    exact ⟨fun h => by omega, fun h => absurd hneg h.1⟩
  · have := hle hneg
    rw [if_neg hneg]
    constructor
    · rintro ⟨hpos, hlen⟩
      exact ⟨hneg, by omega, by omega⟩
    · rintro ⟨-, hdigits, hrest⟩
      exact ⟨by omega, by omega⟩

/-- What is documented for a value is parsed as it is meant exactly where the integer has no sign, or has nothing
behind it and is not the smallest one; and the remaining characters are those behind the parsed ones exactly where the
string has no sign (and its lengths fit their fields). -/
theorem parsing_iff (n : Int32) (x : Suffix) (str : CString) :
    (ParsesAs n.toInt x ↔ 0 ≤ n.toInt ∨ x = {} ∧ n.toInt ≠ -2 ^ 31) ∧
    (RemainingBehind str ↔
      ¬ Negative str ∧ (digits str).length < 2 ^ 32 ∧ (chars str).length - (digits str).length < 2 ^ 32) :=
  ⟨parsesAs_iff n x, remainingBehind_iff str⟩

/-- `-5%` is no percentage, and its remaining characters begin with its last digit. -/
theorem not_parsing :
    ¬ ((∀ (n : Int32) (x : Suffix), ParsesAs n.toInt x) ∧ ∀ str, RemainingBehind str) := by
  rintro ⟨hparses, -⟩
  rcases (parsesAs_iff (-5) { percent := true }).1 (hparses _ _) with h | ⟨h, -⟩
  · exact absurd h (by decide)
  · exact absurd h (by decide)

end Tinyalsa.Tinymix
