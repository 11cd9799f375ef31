/-
tinycap: `main` up to the capture. The file comes before the options, which are read from the arguments behind it; what
is captured is said by the last of each.
-/
import Tinyalsa.Utils.CommandLine
import Tinyalsa.Utils.Numbers
import Tinyalsa.Utils.Tinycap

namespace Tinyalsa.Tinycap

open OptionScan CInt

/-! ## The code -/

/-- `"D:d:c:r:b:p:n:t:M"`. -/
def optstring : CString :=
  ascii ['D', ':', 'd', ':', 'c', ':', 'r', ':', 'b', ':', 'p', ':', 'n', ':', 't', ':', 'M']

/-- How `main` ends, or the options that it captures with. -/
inductive Outcome
  | usage
  | notCreated (filename : CString)
  | badOption (errmsg : CString)
  /-- A number is read from NULL. -/
  | nullArgument
  | options (o : Options) (toStdout : Bool)

/-- `atoi(opts.optarg)`, in an `unsigned int`. -/
def numberOption (optarg : Option CString) (set : UInt32 → Options) : Options ⊕ Outcome :=
  match optarg with
  | none => .inr .nullArgument
  | some s => .inl (set (toUInt (atoi s)))

/-- The switch of `main`. -/
def optionSwitch (o : Options) (c : Int) (optarg : Option CString) (errmsg : CString) : Options ⊕ Outcome :=
  if c = code 'd' then numberOption optarg fun n => { o with device := n }
  else if c = code 'c' then numberOption optarg fun n => { o with channels := n }
  else if c = code 'r' then numberOption optarg fun n => { o with rate := n }
  else if c = code 'b' then numberOption optarg fun n => { o with bits := n }
  else if c = code 'D' then numberOption optarg fun n => { o with card := n }
  else if c = code 'p' then numberOption optarg fun n => { o with periodSize := n }
  else if c = code 'n' then numberOption optarg fun n => { o with periodCount := n }
  else if c = code 't' then numberOption optarg fun n => { o with captureTime := n }
  else if c = code 'M' then .inl { o with useMmap := true }
  else if c = code '?' then .inr (.badOption errmsg)
  else .inl o

/-- `main` up to the capture, within so many rounds of its loop, where the files of some names can be created. -/
def parseMain (fuel : Nat) (create : CString → Bool) (argv : List CString) : Option (Option Outcome) :=
  match argv with
  | _ :: filename :: args =>
    let toStdout := filename = [dash, dash]
    if !toStdout ∧ create filename = false then some (some (.notCreated filename))
    else
      (Loop.run (optionRound (fun o => optparse o optstring) optionSwitch) fuel
        ({}, optparseInit (filename :: args))).map fun ret => do
          match ← ret with
          | .inl outcome => some outcome
          | .inr (o, _) => some (.options o toStdout)
  | _ => some (some .usage)

/-! ## The options -/

/-- The options of tinycap. -/
def grammar : Grammar := optstringGrammar optstring

/-- A number that an option sets. -/
def numberSet (arg : Option CString) : Option UInt32 := arg.map fun s => toUInt (atoi s)

/-- The options of a command line. -/
def optionsOf (events : List Event) : Options where
  card := lastSetting 'D' numberSet 0 events
  device := lastSetting 'd' numberSet 0 events
  channels := lastSetting 'c' numberSet 2 events
  rate := lastSetting 'r' numberSet 48000 events
  bits := lastSetting 'b' numberSet 16 events
  periodSize := lastSetting 'p' numberSet 1024 events
  periodCount := lastSetting 'n' numberSet 4 events
  captureTime := lastSetting 't' numberSet 0xFFFFFFFF events
  useMmap := lastSetting 'M' (fun _ => some true) false events

/-- The options after an event. -/
def applyEvent (o : Options) (e : Event) : Options where
  card := (settingOf 'D' numberSet e).getD o.card
  device := (settingOf 'd' numberSet e).getD o.device
  channels := (settingOf 'c' numberSet e).getD o.channels
  rate := (settingOf 'r' numberSet e).getD o.rate
  bits := (settingOf 'b' numberSet e).getD o.bits
  periodSize := (settingOf 'p' numberSet e).getD o.periodSize
  periodCount := (settingOf 'n' numberSet e).getD o.periodCount
  captureTime := (settingOf 't' numberSet e).getD o.captureTime
  useMmap := (settingOf 'M' (fun _ => some true) e).getD o.useMmap

/-- The errors, at which `main` ends. -/
def endsAt : Event → Option Outcome
  | .option _ _ => none
  | .error kind data => some (.badOption (errmsgOf (.error kind data)))

theorem argtype_cases (c : UInt8) :
    optparseArgtype optstring c = none ∨
      charInt c = code 'M' ∧ optparseArgtype optstring c = some .none ∨
      (charInt c = code 'D' ∨ charInt c = code 'd' ∨ charInt c = code 'c' ∨ charInt c = code 'r' ∨
      charInt c = code 'b' ∨
        charInt c = code 'p' ∨ charInt c = code 'n' ∨ charInt c = code 't') ∧
        optparseArgtype optstring c = some .required := by
  by_cases hmem : c ∈ optstring
  · simp only [optstring, ascii, List.map_cons, List.map_nil, List.mem_cons, List.not_mem_nil, or_false] at hmem
    rcases hmem with rfl | rfl | rfl | rfl | rfl | rfl | rfl | rfl | rfl | rfl | rfl | rfl | rfl | rfl | rfl |
      rfl | rfl <;>
      decide
  · have hnone : optstring.dropWhile (· ≠ c) = [] := by
      rw [List.dropWhile_eq_nil_iff]
      intro d hd
      simpa using fun heq : d = c => hmem (heq ▸ hd)
    left
    unfold optparseArgtype
    rw [hnone]
    exact ite_self none

/-- The options that there are: each but the flag with an argument. -/
theorem told_cases {c : Int} {arg : Option CString} (h : grammar.Told (.option c arg)) :
    c = code 'M' ∨ (c = code 'D' ∨ c = code 'd' ∨ c = code 'c' ∨ c = code 'r' ∨ c = code 'b' ∨ c = code 'p' ∨
      c = code 'n' ∨ c = code 't') ∧ ∃ s, arg = some s := by
  obtain ⟨takes, ⟨char, hc⟩ | ⟨name, hname⟩, hrequired, -⟩ := h
  · obtain ⟨t, ht, heq⟩ := Option.map_eq_some_iff.1 hc
    obtain ⟨rfl, rfl⟩ := Prod.mk.inj heq
    rcases argtype_cases char with hnone | ⟨hflag, -⟩ | ⟨hcode, hrequired'⟩
    · rw [hnone] at ht
      cases ht
    · exact .inl hflag
    · rw [hrequired'] at ht
      cases ht
      obtain ⟨s, rfl⟩ := Option.ne_none_iff_exists'.1 (hrequired rfl)
      exact .inr ⟨hcode, s, rfl⟩
  · cases hname

section

variable (o : Options) {e : Event} {events : List Event}

theorem optionSwitch_eq (h : grammar.Told e) :
    onEvent optionSwitch o e = (endsAt e).elim (.inl (applyEvent o e)) .inr := by
  cases e with
  | error kind data => rfl
  | option c arg =>
    rcases told_cases h with rfl | ⟨hc, s, rfl⟩
    · rfl
    · rcases hc with rfl | rfl | rfl | rfl | rfl | rfl | rfl | rfl <;> rfl

theorem foldl_applyEvent (events : List Event) : events.foldl applyEvent {} = optionsOf events := by
  have hset : ∀ {α : Type} (field : Options → α) (c : Char) (value : Option CString → Option α),
      (∀ g e, field (applyEvent g e) = (settingOf c value e).getD (field g)) →
      field (events.foldl applyEvent {}) = lastSetting c value (field {}) events := by
    intro α field c value h
    have hkeep : ∀ (g : Options) (e : Event), True → True := fun _ _ h => h
    exact foldl_lastSetting hkeep (fun g e _ => h g e) trivial events
  have hcard := hset (·.card) 'D' numberSet fun _ _ => rfl
  have hdevice := hset (·.device) 'd' numberSet fun _ _ => rfl
  have hchannels := hset (·.channels) 'c' numberSet fun _ _ => rfl
  have hrate := hset (·.rate) 'r' numberSet fun _ _ => rfl
  have hbits := hset (·.bits) 'b' numberSet fun _ _ => rfl
  have hperiodSize := hset (·.periodSize) 'p' numberSet fun _ _ => rfl
  have hperiodCount := hset (·.periodCount) 'n' numberSet fun _ _ => rfl
  have hcaptureTime := hset (·.captureTime) 't' numberSet fun _ _ => rfl
  have huseMmap := hset (·.useMmap) 'M' (fun _ => some true) fun _ _ => rfl
  generalize events.foldl applyEvent {} = o at *
  cases o
  unfold optionsOf
  congr

end

/-- tinycap ends at the first error of the options behind the file name, with its message, and else it captures with
the last setting of each; it reads no number from NULL. -/
theorem parseMain_options (create : CString → Bool) (prog filename : CString) {args : List CString}
    (hnul : ∀ a ∈ args, 0 ∉ a) (hcreate : filename = [dash, dash] ∨ create filename = true) :
    ∃ fuel, ∀ more ≥ fuel, parseMain more create (prog :: filename :: args) = some (some
      (match (grammar.scan args).1.findSome? endsAt with
      | some outcome => outcome
      | none => .options (optionsOf (grammar.scan args).1) (filename = [dash, dash]))) := by
  have htold := Grammar.told_scan (G := grammar) args.length args (Nat.le_refl _)
  have hstops : StopsEarly grammar (onEvent optionSwitch) := by
    refine .inl fun o e o' he hb => ?_
    cases e with
    | option c arg => cases he
    | error kind data => cases hb
  have hascii : ∀ c ∈ optstring, c < 128 := by decide +kernel
  have hreads := optparse_loopReads hascii hstops {} filename hnul
  have hcreated : ¬ ((!decide (filename = [dash, dash])) = true ∧ create filename = false) := by
    rintro ⟨hfile, hno⟩
    rcases hcreate with hdash | hcreate
    · simp [hdash] at hfile
    · rw [hcreate] at hno
      cases hno
  have hmain : ∃ fuel, ∀ more ≥ fuel, parseMain more create (prog :: filename :: args) = some (some
      ((consume (onEvent optionSwitch) {} (grammar.scan args).1).elim
        (fun o => Outcome.options o (filename = [dash, dash])) id)) := by
    obtain ⟨fuel, hfuel⟩ := hreads.outcome (f := fun ret => do
        match ← ret with
        | .inl outcome => some outcome
        | .inr (o, _) => some (Outcome.options o (filename = [dash, dash])))
      id (fun o => .options o (filename = [dash, dash])) (fun _ => rfl) fun _ _ => rfl
    refine ⟨fuel, fun more hmore => ?_⟩
    unfold parseMain
    dsimp only
    rw [if_neg hcreated]
    exact hfuel more hmore
  rw [consume_findSome? endsAt applyEvent _ (fun o _ he => optionSwitch_eq o he) htold, foldl_applyEvent] at hmain
  cases hends : (grammar.scan args).1.findSome? endsAt <;> rw [hends] at hmain <;> exact hmain

/-- `tinycap a -r 8000`. -/
theorem parseMain_options_rate :
    ∃ fuel, ∀ more ≥ fuel, parseMain more (fun _ => true) [[116], [97], [45, 114], [56, 48, 48, 48]] = some (some
      (match (grammar.scan [[45, 114], [56, 48, 48, 48]]).1.findSome? endsAt with
      | some outcome => outcome
      | none => .options (optionsOf (grammar.scan [[45, 114], [56, 48, 48, 48]]).1)
          (([97] : CString) = [dash, dash]))) :=
  parseMain_options (fun _ => true) [116] [97] (by decide) (.inr rfl)

end Tinyalsa.Tinycap
