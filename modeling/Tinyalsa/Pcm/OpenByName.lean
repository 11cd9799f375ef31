/-
Opening a stream by a name (`pcm_open_by_name`): the names that stand for a card and a device, as `sscanf` reads them,
and what becomes of the others.
-/
import Tinyalsa.Pcm.Open
import Tinyalsa.Utils.Numbers

namespace Tinyalsa

open Hoare CInt Tinymix

/-! ## `sscanf` -/

/-- `sscanf(s, "%u,%u", &card, &device)`; nothing, where it does not return 2. -/
def sscanfUIntPair (s : CString) : Option (UInt32 × UInt32) :=
  match scanUInt s with
  | none => none
  | some (card, rest) =>
    if rest.head? = some 44 then (scanUInt rest.tail).map fun device => (card, device.1) else none

section

variable {σ : Type} (a : OpenAnswers) (name : CString) (flags : UInt32)

/-- The refusal of a name. -/
def nameNotMatched : OpenM σ (Option PcmBackend) := do
  badOops ⟨"name format is not matched", 0⟩
  return none

/-- `pcm_open_by_name`. -/
def pcmOpenByName (ops : Backend → PcmOps σ) (config : Option PcmConfig) : OpenM σ (Option PcmBackend) := do
  if charAt name 0 ≠ 104 ∨ charAt name 1 ≠ 119 ∨ charAt name 2 ≠ 58 then nameNotMatched
  else
    match sscanfUIntPair (name.drop 3) with
    | none => nameNotMatched
    | some (card, device) => pcmOpen a card device flags ops config

end

/-! ## The grammar of names -/

/-- A text of a number: spaces, a sign, digits. -/
structure NumberText (s : CString) (value : UInt32) : Prop where
  spells : ∃ (spaces digits : CString) (sign : Option Sign), s = spaces ++ (sign.map Sign.char).toList ++ digits ∧
    (∀ c ∈ spaces, isSpace c) ∧ digits ≠ [] ∧ (∀ c ∈ digits, isDigit c) ∧
      value = scannedValue (sign = some .minus) digits

/-- A name of a device of a card; what follows the number of the device does not matter. -/
structure NamesDevice (name : CString) (card device : UInt32) : Prop where
  spells : ∃ x y rest, name = 104 :: 119 :: 58 :: (x ++ 44 :: y ++ rest) ∧ NumberText x card ∧ NumberText y device ∧
    ∀ c ∈ rest.head?, isDigit c = false

/-- The digits in front of what does not start with one. -/
theorem span_digits {digits rest : CString} (hd : ∀ c ∈ digits, isDigit c) (hr : ∀ c ∈ rest.head?, isDigit c = false) :
    (digits ++ rest).takeWhile (isBaseDigit 10) = digits ∧ (digits ++ rest).dropWhile (isBaseDigit 10) = rest := by
  have hall : ∀ c ∈ digits, isBaseDigit 10 c = true := fun c hc => (isBaseDigit_eq c).trans (hd c hc)
  rw [List.takeWhile_append_of_pos hall, List.dropWhile_append_of_pos hall]
  cases rest with
  | nil => simp
  | cons c rest =>
    have hc : isBaseDigit 10 c = false := (isBaseDigit_eq c).trans (hr c rfl)
    rw [List.takeWhile_cons_of_neg (by simp [hc]), List.dropWhile_cons_of_neg (by simp [hc]), List.append_nil]
    exact ⟨rfl, rfl⟩

/-- The sign is read off a number that follows its spaces. -/
theorem signed_dropWhile {spaces digits rest : CString} {sign : Option Sign} (hs : ∀ c ∈ spaces, isSpace c)
    (hne : digits ≠ []) (hd : ∀ c ∈ digits, isDigit c) :
    signed ((spaces ++ (sign.map Sign.char).toList ++ digits ++ rest).dropWhile isSpace) =
      (decide (sign = some .minus), digits ++ rest) := by
  rw [List.append_assoc, List.append_assoc, List.dropWhile_append_of_pos hs]
  cases sign with
  | none =>
    obtain ⟨c, digits, rfl⟩ := List.exists_cons_of_ne_nil hne
    exact signed_cons_digit (hd c List.mem_cons_self) (digits ++ rest)
  | some sign =>
    cases sign <;> rfl

theorem scanUInt_numberText {x rest : CString} {v : UInt32} (h : NumberText x v)
    (hr : ∀ c ∈ rest.head?, isDigit c = false) : scanUInt (x ++ rest) = some (v, rest) := by
  obtain ⟨spaces, digits, sign, rfl, hs, hne, hd, rfl⟩ := h.spells
  obtain ⟨htake, hdrop⟩ := span_digits hd hr
  unfold scanUInt
  rw [signed_dropWhile hs hne hd]
  dsimp only
  rw [htake, hdrop, if_neg hne]

theorem signed_spells (s : CString) : ∃ sign : Option Sign, s = (sign.map Sign.char).toList ++ (signed s).2 ∧
    (signed s).1 = decide (sign = some .minus) := by
  unfold signed
  split
  · rename_i h
    obtain ⟨rest, rfl⟩ := List.head?_eq_some_iff.1 h
    exact ⟨some .minus, rfl, rfl⟩
  split
  · rename_i h
    obtain ⟨rest, rfl⟩ := List.head?_eq_some_iff.1 h
    exact ⟨some .plus, rfl, rfl⟩
  · exact ⟨none, rfl, rfl⟩

/-- What is scanned is the text of a number, up to the last digit. -/
theorem scanUInt_eq_some {s rest : CString} {v : UInt32} : scanUInt s = some (v, rest) ↔
    ∃ x, s = x ++ rest ∧ NumberText x v ∧ ∀ c ∈ rest.head?, isDigit c = false := by
  constructor
  · intro h
    obtain ⟨sign, hsign, hneg⟩ := signed_spells (s.dropWhile isSpace)
    unfold scanUInt at h
    generalize signed (s.dropWhile isSpace) = st at hsign hneg h
    obtain ⟨negative, t⟩ := st
    dsimp only at hsign hneg h
    by_cases hne : t.takeWhile (isBaseDigit 10) = []
    · rw [if_pos hne] at h
      cases h
    rw [if_neg hne] at h
    obtain ⟨rfl, rfl⟩ := Prod.mk.inj (Option.some.inj h)
    refine ⟨s.takeWhile isSpace ++ (sign.map Sign.char).toList ++ t.takeWhile (isBaseDigit 10), ?_,
      ⟨_, _, sign, rfl, fun c hc => List.mem_takeWhile_imp hc, hne, fun c hc => ?_, by rw [hneg]⟩, fun c hc => ?_⟩
    · rw [List.append_assoc, List.takeWhile_append_dropWhile, List.append_assoc, ← hsign,
        List.takeWhile_append_dropWhile]
    · exact (isBaseDigit_eq c).symm.trans (List.mem_takeWhile_imp hc)
    · rw [← isBaseDigit_eq]
      have hdrop := List.head?_dropWhile_not (isBaseDigit 10) t
      rw [hc] at hdrop
      simpa using hdrop
  · rintro ⟨x, rfl, hx, hr⟩
    exact scanUInt_numberText hx hr

/-- The two numbers are read where the text spells them, a comma between them. -/
theorem sscanfUIntPair_eq_some {s : CString} {card device : UInt32} : sscanfUIntPair s = some (card, device) ↔
    ∃ x y rest, s = x ++ 44 :: y ++ rest ∧ NumberText x card ∧ NumberText y device ∧
      ∀ c ∈ rest.head?, isDigit c = false := by
  unfold sscanfUIntPair
  constructor
  · intro h
    cases hx : scanUInt s with
    | none =>
      rw [hx] at h
      cases h
    | some read =>
      obtain ⟨c, comma⟩ := read
      rw [hx] at h
      dsimp only at h
      by_cases hhead : comma.head? = some 44
      · obtain ⟨t, rfl⟩ := List.head?_eq_some_iff.1 hhead
        rw [if_pos hhead, Option.map_eq_some_iff] at h
        obtain ⟨⟨d, rest⟩, hy, hpair⟩ := h
        obtain ⟨rfl, rfl⟩ := Prod.mk.inj hpair
        obtain ⟨x, rfl, hxv, -⟩ := scanUInt_eq_some.1 hx
        obtain ⟨y, hyt, hyv, hr⟩ := scanUInt_eq_some.1 hy
        rw [List.tail_cons] at hyt
        exact ⟨x, y, rest, by rw [hyt, List.append_assoc, List.cons_append], hxv, hyv, hr⟩
      · rw [if_neg hhead] at h
        cases h
  · rintro ⟨x, y, rest, rfl, hx, hy, hr⟩
    have hcomma : scanUInt (x ++ 44 :: y ++ rest) = some (card, 44 :: (y ++ rest)) := by
      rw [List.append_assoc]
      refine scanUInt_numberText hx ?_
      rintro c ⟨⟩
      rfl
    rw [hcomma]
    dsimp only
    rw [if_pos List.head?_cons, List.tail_cons, scanUInt_numberText hy hr]
    rfl

/-! ## Opening by a name -/

section

variable {name : CString} {card device : UInt32}

/-- A character that is there is in front of the text's end. -/
theorem getElem?_of_charAt {i : Nat} {c : UInt8} (h : charAt name i = c) (hc : c ≠ 0) : name[i]? = some c := by
  unfold charAt at h
  cases hi : (chars name)[i]? with
  | none => exact absurd (by rw [← h, hi]; rfl) hc
  | some d =>
    rw [hi] at h
    obtain rfl : d = c := h
    obtain ⟨hlt, hd⟩ := List.getElem?_eq_some_iff.1 hi
    have hprefix : chars name <+: name := List.takeWhile_prefix _
    rw [List.prefix_iff_getElem?.1 hprefix i hlt, hd]

/-- The three characters that `pcm_open_by_name` looks at. -/
theorem charAt_hw : (charAt name 0 = 104 ∧ charAt name 1 = 119 ∧ charAt name 2 = 58) ↔
    name = 104 :: 119 :: 58 :: name.drop 3 := by
  constructor
  · rintro ⟨h0, h1, h2⟩
    have h0 := getElem?_of_charAt h0 (by decide)
    have h1 := getElem?_of_charAt h1 (by decide)
    have h2 := getElem?_of_charAt h2 (by decide)
    obtain ⟨c, d, e, s, rfl⟩ : ∃ c d e s, name = c :: d :: e :: s := by
      match name with
      | c :: d :: e :: s => exact ⟨c, d, e, s, rfl⟩
      | [] | [_] | [_, _] => cases h2
    cases h0
    cases h1
    cases h2
    rfl
  · intro h
    rw [h]
    exact ⟨rfl, rfl, rfl⟩

theorem namesDevice_iff : NamesDevice name card device ↔
    name = 104 :: 119 :: 58 :: name.drop 3 ∧ sscanfUIntPair (name.drop 3) = some (card, device) := by
  rw [sscanfUIntPair_eq_some]
  constructor
  · rintro ⟨x, y, rest, rfl, hx, hy, hr⟩
    exact ⟨rfl, x, y, rest, rfl, hx, hy, hr⟩
  · rintro ⟨hname, x, y, rest, hs, hx, hy, hr⟩
    exact ⟨x, y, rest, hs ▸ hname, hx, hy, hr⟩

/-- A name is of one device at most. -/
theorem NamesDevice.unique {card' device' : UInt32} (h : NamesDevice name card device)
    (h' : NamesDevice name card' device') : card' = card ∧ device' = device := by
  have hread := (namesDevice_iff.1 h).2
  rw [(namesDevice_iff.1 h').2] at hread
  exact Prod.mk.inj (Option.some.inj hread)

theorem numberText_digitsText (m : Nat) : NumberText (digitsText m) (toUInt (min m (2 ^ 64 - 1) : Nat)) := by
  have hdigits : ∀ c ∈ digitsText m, isDigit c := fun c hc => isDigit_of_mem hc
  refine ⟨[], digitsText m, none, rfl, by simp, digitsText_ne_nil m, hdigits, ?_⟩
  unfold scannedValue
  rw [baseNumber_digits hdigits, number_digitsText, decide_eq_false nofun]
  dsimp only
  rw [if_neg Bool.false_ne_true]
  congr 1
  split
  · omega
  · omega

/-- The name of a device of a card. -/
def hwName (card device : Nat) : CString := 104 :: 119 :: 58 :: (digitsText card ++ 44 :: digitsText device)

theorem namesDevice_hwName (m n : Nat) {rest : CString} (hr : ∀ c ∈ rest.head?, isDigit c = false) :
    NamesDevice (hwName m n ++ rest) (toUInt (min m (2 ^ 64 - 1) : Nat)) (toUInt (min n (2 ^ 64 - 1) : Nat)) :=
  ⟨digitsText m, digitsText n, rest, rfl, numberText_digitsText m, numberText_digitsText n, hr⟩

end

section

variable {σ : Type} {name : CString} (a : OpenAnswers) (flags : UInt32) (ops : Backend → PcmOps σ)
  (config : Option PcmConfig)

/-- A name of a device is one way to open it. -/
theorem pcmOpenByName_of_namesDevice {card device : UInt32} (h : NamesDevice name card device) :
    pcmOpenByName a name flags ops config = pcmOpen a card device flags ops config := by
  obtain ⟨hname, hread⟩ := namesDevice_iff.1 h
  obtain ⟨h0, h1, h2⟩ := charAt_hw.2 hname
  unfold pcmOpenByName
  rw [if_neg (by simp [h0, h1, h2]), hread]

theorem pcmOpenByName_of_not_namesDevice (h : ∀ card device, ¬ NamesDevice name card device) :
    pcmOpenByName a name flags ops config = nameNotMatched := by
  unfold pcmOpenByName
  split
  · rfl
  · rename_i hchars
    simp only [ne_eq, not_or, not_not] at hchars
    have hname := charAt_hw.1 hchars
    cases hread : sscanfUIntPair (name.drop 3) with
    | none => rfl
    | some read => exact absurd (namesDevice_iff.2 ⟨hname, hread⟩) (h read.1 read.2)

end

/-- What opening by a name does: it opens the one device that the name is of, or refuses the name and touches nothing
but the error left behind. -/
inductive OpensByName (name : CString) : Prop
  | opens (card device : UInt32)
      (is : ∀ card' device', NamesDevice name card' device' ↔ card' = card ∧ device' = device)
      (same : ∀ (σ : Type) (a : OpenAnswers) (flags : UInt32) (ops : Backend → PcmOps σ) (config : Option PcmConfig)
        (w : OpenWorld σ), exec (pcmOpenByName a name flags ops config) w =
          exec (pcmOpen a card device flags ops config) w)
  | refuses (isnt : ∀ card device, ¬ NamesDevice name card device)
      (frame : ∀ (σ : Type) (a : OpenAnswers) (flags : UInt32) (ops : Backend → PcmOps σ) (config : Option PcmConfig)
        (w : OpenWorld σ), exec (pcmOpenByName a name flags ops config) w =
          (none, { w with badPcm := ⟨"name format is not matched", 0⟩ }))

/-- Every name is opened as the device it is of or refused; the name printed for a card and a device is of these,
whatever follows it, up to the width of the numbers. -/
theorem pcmOpenByName_names : (∀ name, OpensByName name) ∧
    ∀ (m n : Nat) (rest : CString), (∀ c ∈ rest.head?, isDigit c = false) →
      NamesDevice (hwName m n ++ rest) (toUInt (min m (2 ^ 64 - 1) : Nat)) (toUInt (min n (2 ^ 64 - 1) : Nat)) := by
  refine ⟨fun name => ?_, fun m n _ hr => namesDevice_hwName m n hr⟩
  by_cases h : ∃ card device, NamesDevice name card device
  · obtain ⟨card, device, h⟩ := h
    refine .opens card device (fun _ _ => ⟨h.unique, ?_⟩) fun _ a flags ops config _ => ?_
    · rintro ⟨rfl, rfl⟩
      exact h
    · rw [pcmOpenByName_of_namesDevice a flags ops config h]
  · have hnot : ∀ card device, ¬ NamesDevice name card device := fun card device hn => h ⟨card, device, hn⟩
    refine .refuses hnot fun _ a flags ops config w => ?_
    rw [pcmOpenByName_of_not_namesDevice a flags ops config hnot]
    rfl

theorem pcmOpenByName_names_hw : NamesDevice (hwName 4294967297 0 ++ [32, 50]) 1 0 :=
  pcmOpenByName_names.2 4294967297 0 [32, 50] (by rintro c ⟨⟩; rfl)

end Tinyalsa
