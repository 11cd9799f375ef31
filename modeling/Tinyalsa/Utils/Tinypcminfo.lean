/-
tinypcminfo: the card and the device that its options name, and the names of the formats that it lists for them.
-/
import Tinyalsa.Plugin.Formats
import Tinyalsa.Utils.CommandLine
import Tinyalsa.Utils.Numbers

namespace Tinyalsa.Tinypcminfo

open OptionScan CInt

/-! ## The options -/

/-- `long_options`. -/
def longOptions : List OptparseLong :=
  [⟨some (ascii ['h', 'e', 'l', 'p']), code 'h', .none⟩,
    ⟨some (ascii ['c', 'a', 'r', 'd']), code 'D', .required⟩,
    ⟨some (ascii ['d', 'e', 'v', 'i', 'c', 'e']), code 'd', .required⟩]

/-- The variables that the options set. -/
structure Target where
  card : UInt32 := 0
  device : UInt32 := 0
  deriving DecidableEq, Repr

/-- How `main` ends its loop, or the device that it goes on with. -/
inductive Outcome
  | help
  | badOption (errmsg : CString)
  /-- A number is read from NULL. -/
  | nullArgument
  | info (target : Target)
  deriving DecidableEq, Repr

/-- The switch of `main`. -/
def optionSwitch (target : Target) (c : Int) (optarg : Option CString) (errmsg : CString) : Target ⊕ Outcome :=
  if c = code 'D' then
    match optarg with
    | none => .inr .nullArgument
    | some s => .inl { target with card := toUInt (atoi s) }
  else if c = code 'd' then
    match optarg with
    | none => .inr .nullArgument
    | some s => .inl { target with device := toUInt (atoi s) }
  else if c = code 'h' then .inr .help
  else if c = code '?' then .inr (.badOption errmsg)
  else .inl target

/-- `main` up to its first line, within so many rounds of its loop. -/
def main (fuel : Nat) (argv : List CString) : Option (Option Outcome) :=
  (Loop.run (optionRound (fun o => optparseLong o longOptions) optionSwitch) fuel ({}, optparseInit argv)).map
    fun ret => do
      match ← ret with
      | .inl outcome => some outcome
      | .inr (target, _) => some (.info target)

/-! ## What is printed -/

/-- `format_lookup`. -/
def formatLookup : List (Option String) :=
  [some "S8", some "U8", some "S16_LE", some "S16_BE", some "U16_LE", some "U16_BE", some "S24_LE", some "S24_BE",
    some "U24_LE", some "U24_BE", some "S32_LE", some "S32_BE", some "U32_LE", some "U32_BE", some "FLOAT_LE",
    some "FLOAT_BE", some "FLOAT64_LE", some "FLOAT64_BE", some "IEC958_SUBFRAME_LE", some "IEC958_SUBFRAME_BE",
    some "MU_LAW", some "A_LAW", some "IMA_ADPCM", some "MPEG", some "GSM", none, none, none, none, none, none,
    some "SPECIAL", some "S24_3LE", some "S24_3BE", some "U24_3LE", some "U24_3BE", some "S20_3LE", some "S20_3BE",
    some "U20_3LE", some "U20_3BE", some "S18_3LE", some "S18_3BE", some "U18_3LE", some "U18_3BE"]

/-- `pcm_get_format_name`. -/
def pcmGetFormatName (bitIndex : UInt32) : Option String := formatLookup[bitIndex.toNat]?.join

/-- A constant text. -/
def constant (text : String) : Piece := { format := text, args := [] }

/-- `printf("%s", name)`. -/
def namePiece (name : String) : Piece := { format := "%s", args := [.str (some name)] }

/-- One round of the inner loop over the bits; `count` names are printed so far. -/
def printBit (m : SndMask) (k : Nat) : UInt32 × List Piece → Nat → UInt32 × List Piece
  | (count, printed), j =>
    if m.bits (Fin.ofNat 8 k) &&& (1 <<< j.toUInt32) ≠ 0 then
      match pcmGetFormatName (j.toUInt32 + k.toUInt32 * 32) with
      | none => (count, printed)
      | some name =>
        (count + 1, printed ++ [constant (if count = 0 then " Format Name:\t" else ", "), namePiece name])
    else (count, printed)

/-- The loops over the bits of the first two words. -/
def printBits (m : SndMask) : UInt32 × List Piece :=
  (List.range 2).foldl (fun s k => (List.range 32).foldl (printBit m k) s) (0, [])

/-- The format mask. -/
def printFormats (m : SndMask) : List Piece :=
  let (count, printed) := printBits m
  [{ format := "   Format[0]:\t%#08x\n", args := [.num (m.bits 0)] },
    { format := "   Format[1]:\t%#08x\n", args := [.num (m.bits 1)] }] ++ printed ++
    if count ≠ 0 then [constant "\n"] else []

/-- The parameters of one direction. -/
def printParams (params : Option SndPcmHwParams) : List Piece :=
  match params with
  | none => [constant "Device does not exist.\n"]
  | some _ =>
    (pcmParamsGetMask params .access).elim []
        (fun m => [{ format := "      Access:\t%#08x\n", args := [.num (m.bits 0)] }]) ++
      (pcmParamsGetMask params .format).elim [] printFormats ++
      (pcmParamsGetMask params .subformat).elim []
        (fun m => [{ format := "   Subformat:\t%#08x\n", args := [.num (m.bits 0)] }]) ++
      rangePieces params

/-- What `main` prints, where `pcm_params_get` answers so for the flags of the two directions. -/
def printInfo (target : Target) (pcmParamsGet : UInt32 → Option SndPcmHwParams) : List Piece :=
  { format := "Info for card %u, device %u:\n", args := [.num target.card, .num target.device] } ::
    (List.range 2).flatMap fun i =>
      { format := "\nPCM %s:\n", args := [.str (some (if i = 0 then "out" else "in"))] } ::
        printParams (pcmParamsGet (if i = 0 then 0 else pcmIn))

/-! ## What the options set -/

/-- The events at which `main` ends its loop. -/
def endsAt : Event → Option Outcome
  | .option c _ => if c = code 'h' then some .help else none
  | .error kind data => some (.badOption (errmsgOf (.error kind data)))

/-- The number that an option gives. -/
def numberSet (arg : Option CString) : Option UInt32 := arg.map fun s => toUInt (atoi s)

/-- The target behind an event. -/
def applyEvent (target : Target) (e : Event) : Target where
  card := (settingOf 'D' numberSet e).getD target.card
  device := (settingOf 'd' numberSet e).getD target.device

/-- The card and the device that were given last. -/
def targetOf (events : List Event) : Target where
  card := lastSetting 'D' numberSet 0 events
  device := lastSetting 'd' numberSet 0 events

theorem goodTable : GoodTable longOptions := ⟨by decide, by decide⟩

theorem foldl_applyEvent (events : List Event) : events.foldl applyEvent {} = targetOf events := by
  have hcard : (events.foldl applyEvent {}).card = lastSetting 'D' numberSet 0 events :=
    foldl_lastSetting (I := fun _ => True) (fun _ _ _ => trivial) (fun _ _ _ => rfl) trivial events
  have hdevice : (events.foldl applyEvent {}).device = lastSetting 'd' numberSet 0 events :=
    foldl_lastSetting (I := fun _ => True) (fun _ _ _ => trivial) (fun _ _ _ => rfl) trivial events
  unfold targetOf
  rw [← hcard, ← hdevice]

/-- At an event of its table, `main` ends its loop, or it sets what the option names. -/
theorem optionSwitch_eq (target : Target) {e : Event} (h : (tableGrammar longOptions).Told e) :
    onEvent optionSwitch target e = (endsAt e).elim (.inl (applyEvent target e)) .inr := by
  cases e with
  | error kind data => rfl
  | option c arg =>
    obtain ⟨l, hl, rfl, hrequired, -⟩ := told_table h
    simp only [longOptions, List.mem_cons, List.not_mem_nil, or_false] at hl
    rcases hl with rfl | rfl | rfl
    · rfl
    · obtain ⟨s, rfl⟩ := Option.ne_none_iff_exists'.1 (hrequired rfl)
      rfl
    · obtain ⟨s, rfl⟩ := Option.ne_none_iff_exists'.1 (hrequired rfl)
      rfl

theorem stopsEarly_optionSwitch : StopsEarly (tableGrammar longOptions) (onEvent optionSwitch) := by
  refine .inl fun target e target' he hb => ?_
  cases e with
  | option c arg => cases he
  | error kind data => cases hb

/-- tinypcminfo, on every command line: the first `-h` or error ends it, and else the card and the device are those
given last. -/
theorem main_info (prog : CString) {args : List CString} (hnul : ∀ a ∈ args, 0 ∉ a) :
    ∃ fuel, ∀ more ≥ fuel, main more (prog :: args) = some (some
      (match ((tableGrammar longOptions).scan args).1.findSome? endsAt with
      | some outcome => outcome
      | none => .info (targetOf ((tableGrammar longOptions).scan args).1))) := by
  have htold := Grammar.told_scan (G := tableGrammar longOptions) args.length args (Nat.le_refl _)
  have hreads := optparseLong_loopReads goodTable stopsEarly_optionSwitch {} prog hnul
  have hmain : ∃ fuel, ∀ more ≥ fuel, main more (prog :: args) = some (some _) :=
    hreads.outcome id .info (fun _ => rfl) fun _ _ => rfl
  rw [consume_findSome? endsAt applyEvent _ (fun target _ he => optionSwitch_eq target he) htold,
    foldl_applyEvent] at hmain
  cases hends : ((tableGrammar longOptions).scan args).1.findSome? endsAt <;> rw [hends] at hmain <;> exact hmain

/-- `tinypcminfo -D 1 --device=2`. -/
theorem main_info_device :
    ∃ fuel, ∀ more ≥ fuel, main more [[116], [45, 68], [49], [45, 45, 100, 101, 118, 105, 99, 101, 61, 50]] = some (some
      (match ((tableGrammar longOptions).scan
          [[45, 68], [49], [45, 45, 100, 101, 118, 105, 99, 101, 61, 50]]).1.findSome? endsAt with
      | some outcome => outcome
      | none => .info
          (targetOf ((tableGrammar longOptions).scan
            [[45, 68], [49], [45, 45, 100, 101, 118, 105, 99, 101, 61, 50]]).1))) :=
  main_info [116] (by decide)

/-! ## The formats that are listed -/

/-- The name that is printed for a bit. -/
def listedName (m : SndMask) (i : Nat) : Option String := if m.test i then pcmGetFormatName i.toUInt32 else none

/-- The names of the formats of a mask, in the order of the bits. -/
def formatNames (m : SndMask) : List String := (List.range 64).filterMap (listedName m)

/-- A line of names, up to its end. -/
def nameLine : List String → List Piece
  | [] => []
  | name :: rest =>
    constant " Format Name:\t" :: namePiece name :: rest.flatMap fun name => [constant ", ", namePiece name]

theorem nameLine_concat (names : List String) (name : String) : nameLine (names ++ [name]) =
    nameLine names ++ [constant (if names.length = 0 then " Format Name:\t" else ", "), namePiece name] := by
  cases names with
  | nil => rfl
  | cons first rest =>
    rw [List.cons_append, nameLine, nameLine, List.flatMap_append, List.flatMap_singleton, List.length_cons,
      if_neg (Nat.succ_ne_zero rest.length)]
    rfl

/-- The names so far are counted and printed. -/
structure Printed (names : List String) (s : UInt32 × List Piece) : Prop where
  count : s.1.toNat = names.length
  line : s.2 = nameLine names

section

variable {m : SndMask} {names : List String} {s : UInt32 × List Piece} {k j : Nat}

/-- The bit of a word is tested, and named by its place in the mask. -/
theorem printBit_eq (hk : k < 2) (hj : j < 32) : printBit m k s j =
    (listedName m (32 * k + j)).elim s fun name =>
      (s.1 + 1, s.2 ++ [constant (if s.1 = 0 then " Format Name:\t" else ", "), namePiece name]) := by
  have htest : (m.bits (Fin.ofNat 8 k) &&& (1 <<< j.toUInt32) != 0) = m.test (32 * k + j) := by
    have hword : (32 * k + j) / 32 = k := by omega
    have hfin : (⟨(32 * k + j) / 32, by omega⟩ : Fin 8) = Fin.ofNat 8 k :=
      Fin.ext (hword.trans (Nat.mod_eq_of_lt (by omega)).symm)
    unfold SndMask.test
    rw [and_bit_ne_zero _ hj, dif_pos (show (32 * k + j) / 32 < 8 by omega), hfin]
    congr 1
    omega
  have hindex : j.toUInt32 + k.toUInt32 * 32 = (32 * k + j).toUInt32 := by
    have hall : ∀ k < 2, ∀ j < 32, j.toUInt32 + k.toUInt32 * 32 = (32 * k + j).toUInt32 := by decide
    exact hall k hk j hj
  obtain ⟨count, printed⟩ := s
  unfold printBit listedName
  rw [← htest]
  dsimp only
  rw [hindex]
  by_cases hbit : (m.bits (Fin.ofNat 8 k) &&& (1 <<< j.toUInt32) != 0) = true
  · rw [if_pos hbit, if_pos (bne_iff_ne.1 hbit)]
    cases pcmGetFormatName (32 * k + j).toUInt32 <;> rfl
  · rw [if_neg hbit, if_neg (mt bne_iff_ne.2 hbit)]
    rfl

theorem Printed.bit (h : Printed names s) (hlen : names.length < 64) (hk : k < 2) (hj : j < 32) :
    Printed (names ++ (listedName m (32 * k + j)).toList) (printBit m k s j) := by
  rw [printBit_eq hk hj]
  cases listedName m (32 * k + j) with
  | none => rwa [Option.toList_none, List.append_nil]
  | some name =>
    have hzero : s.1 = 0 ↔ names.length = 0 := by rw [← UInt32.toNat_inj, h.count]; rfl
    rw [Option.toList_some]
    constructor
    · show (s.1 + 1).toNat = _
      rw [UInt32.toNat_add, h.count, List.length_append, List.length_singleton, UInt32.toNat_one]
      omega
    · show s.2 ++ _ = _
      rw [nameLine_concat, h.line]
      simp only [hzero]

/-- The inner loop prints what is listed of its word. -/
theorem Printed.word (hk : k < 2) {js : List Nat} (hjs : ∀ j ∈ js, j < 32) (h : Printed names s)
    (hlen : names.length + js.length ≤ 64) :
    Printed (names ++ js.filterMap fun j => listedName m (32 * k + j)) (js.foldl (printBit m k) s) := by
  induction js generalizing names s with
  | nil => rwa [List.filterMap_nil, List.append_nil]
  | cons j js ih =>
    rw [List.length_cons] at hlen
    have hbit := h.bit (m := m) (by omega) hk (hjs j List.mem_cons_self)
    have hle : (listedName m (32 * k + j)).toList.length ≤ 1 := Option.length_toList_le
    have hrest := ih (fun j' hj' => hjs j' (List.mem_cons_of_mem j hj')) hbit (by rw [List.length_append]; omega)
    rw [List.append_assoc] at hrest
    rw [List.foldl_cons, List.filterMap_cons]
    cases hname : listedName m (32 * k + j) <;> rw [hname] at hrest <;> exact hrest

/-- The two loops print the names in the order of the bits. -/
theorem printed_printBits (m : SndMask) : Printed (formatNames m) (printBits m) := by
  have hlt : ∀ j ∈ List.range 32, j < 32 := fun j hj => List.mem_range.1 hj
  have hnames : formatNames m = (List.range 32).filterMap (fun j => listedName m (32 * 0 + j)) ++
      (List.range 32).filterMap fun j => listedName m (32 * 1 + j) := by
    have hrange : List.range (32 + 32) = List.range 32 ++ (List.range 32).map (32 + ·) := List.range_add
    show (List.range (32 + 32)).filterMap (listedName m) = _
    rw [hrange, List.filterMap_append, List.filterMap_map]
    simp only [Nat.mul_zero, Nat.mul_one, Nat.zero_add, Function.comp_def]
  have hempty : Printed [] (0, []) := ⟨rfl, rfl⟩
  have hfirst := hempty.word (m := m) (k := 0) (by decide) hlt (by decide)
  have hlen : ((List.range 32).filterMap fun j => listedName m (32 * 0 + j)).length ≤ 32 :=
    (List.length_filterMap_le ..).trans (List.length_range).le
  have hsecond := hfirst.word (m := m) (k := 1) (by decide) hlt (by
    rw [List.length_range, List.nil_append]
    exact Nat.add_le_add_right hlen 32)
  unfold printBits
  rw [hnames, show List.range 2 = [0, 1] from rfl, List.foldl_cons, List.foldl_cons, List.foldl_nil]
  exact hsecond

end

theorem pcmGetFormatName_eq {i : Nat} (hi : i < 64) {name : String} :
    pcmGetFormatName i.toUInt32 = some name ↔ formatLookup[i]? = some (some name) := by
  have hindex : i.toUInt32.toNat = i := UInt32.toNat_ofNat_of_lt' (show i < 2 ^ 32 by omega)
  unfold pcmGetFormatName
  rw [hindex, Option.join_eq_some_iff]

theorem mem_formatNames {m : SndMask} {name : String} :
    name ∈ formatNames m ↔ ∃ i < 64, m.test i ∧ formatLookup[i]? = some (some name) := by
  unfold formatNames listedName
  rw [List.mem_filterMap]
  constructor
  · rintro ⟨i, hi, hname⟩
    have hlt := List.mem_range.1 hi
    obtain ⟨htest, hname⟩ := Option.ite_none_right_eq_some.1 hname
    exact ⟨i, hlt, htest, (pcmGetFormatName_eq hlt).1 hname⟩
  · rintro ⟨i, hlt, htest, hname⟩
    exact ⟨i, List.mem_range.2 hlt, by rw [if_pos htest, (pcmGetFormatName_eq hlt).2 hname]⟩

/-- No two formats have one name. -/
theorem formatLookup_unique {i j : Nat} {name : String} (hi : formatLookup[i]? = some (some name))
    (hj : formatLookup[j]? = some (some name)) : i = j := by
  have hidx : ∀ i < formatLookup.length, formatLookup[i]?.join.isSome →
      formatLookup.idxOf formatLookup[i]?.join = i := by decide +kernel
  have hfound : ∀ {i}, formatLookup[i]? = some (some name) → formatLookup.idxOf (some name) = i := by
    intro i hi
    have hlt := (List.getElem?_eq_some_iff.1 hi).1
    have h := hidx i hlt
    rw [hi] at h
    exact h rfl
  exact (hfound hi).symm.trans (hfound hj)

/-- What is printed of the formats of a device, and what it says of them. -/
structure FormatsListed (params : SndPcmHwParams) : Prop where
  /-- Behind the two words there is one line of names, or none. -/
  line : printFormats (params.masks .format) =
    [{ format := "   Format[0]:\t%#08x\n", args := [.num ((params.masks .format).bits 0)] },
      { format := "   Format[1]:\t%#08x\n", args := [.num ((params.masks .format).bits 1)] }] ++
      nameLine (formatNames (params.masks .format)) ++
      if formatNames (params.masks .format) = [] then [] else [constant "\n"]
  /-- The names are those of the bits that are set. -/
  names : ∀ name, name ∈ formatNames (params.masks .format) ↔
    ∃ i < 64, (params.masks .format).test i ∧ formatLookup[i]? = some (some name)
  /-- Of a plugin, they are those that it registers. -/
  registered : ∀ c, pcmPlugHrefine c paramInit = some (0, params) → formatNames (params.masks .format) =
    (List.range 64).filterMap fun i => if c.format.toNat.testBit i then pcmGetFormatName i.toUInt32 else none
  /-- A format of the library is listed just where its test admits it. -/
  tested : ∀ format : PcmFormat, format.recognized → ∃ name, pcmGetFormatName (pcmFormatToAlsa format) = some name ∧
    (pcmParamsFormatTest (some params) format = some true ↔ name ∈ formatNames (params.masks .format))

/-- tinypcminfo lists the formats that a device has, by their names and in their order. -/
theorem formats_listed (params : SndPcmHwParams) : FormatsListed params := by
  refine ⟨?_, fun name => mem_formatNames, fun c h => ?_, fun format hformat => ?_⟩
  · obtain ⟨hcount, hline⟩ := printed_printBits (params.masks .format)
    unfold printFormats
    dsimp only
    rw [hline]
    have hzero : (printBits (params.masks .format)).1 = 0 ↔ formatNames (params.masks .format) = [] := by
      rw [← UInt32.toNat_inj, hcount]
      exact List.length_eq_zero_iff
    by_cases hnone : formatNames (params.masks .format) = []
    · rw [if_neg (not_not.2 (hzero.2 hnone)), if_pos hnone]
    · rw [if_pos (mt hzero.1 hnone), if_neg hnone]
  · refine List.filterMap_congr fun i hi => ?_
    unfold listedName
    rw [pcmPlugHrefine_paramInit h (List.mem_range.1 hi)]
  · have hnamed : ∀ format : PcmFormat, format.recognized → (pcmGetFormatName (pcmFormatToAlsa format)).isSome := by
      intro format
      cases format <;> decide
    obtain ⟨name, hname⟩ := Option.isSome_iff_exists.1 (hnamed format hformat)
    refine ⟨name, hname, ?_⟩
    have hindex : formatLookup[(pcmFormatToAlsa format).toNat]? = some (some name) := Option.join_eq_some_iff.1 hname
    rw [pcmParamsFormatTest_eq, hformat, Bool.true_and, Option.some.injEq, mem_formatNames]
    constructor
    · intro htest
      exact ⟨_, format.alsa_lt, htest, hindex⟩
    · rintro ⟨i, -, htest, hi⟩
      rwa [formatLookup_unique hi hindex] at htest

end Tinyalsa.Tinypcminfo
