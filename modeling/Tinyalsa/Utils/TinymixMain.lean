/-
tinymix: `main`. Its options are read from a copy of the arguments, and the command is looked for in the arguments
themselves; both are given here by the arguments as they stand.
-/
import Tinyalsa.Utils.CommandLine
import Tinyalsa.Utils.Numbers

namespace Tinyalsa.Tinymix

open OptionScan

/-! ## The code -/

/-- `long_options`. -/
def longOptions : List OptparseLong :=
  [⟨some (ascii ['c', 'a', 'r', 'd']), code 'D', .required⟩,
    ⟨some (ascii ['v', 'e', 'r', 's', 'i', 'o', 'n']), code 'v', .none⟩,
    ⟨some (ascii ['h', 'e', 'l', 'p']), code 'h', .none⟩]

/-- `"get"`. -/
def getWord : CString := ascii ['g', 'e', 't']
/-- `"set"`. -/
def setWord : CString := ascii ['s', 'e', 't']
/-- `"controls"`. -/
def controlsWord : CString := ascii ['c', 'o', 'n', 't', 'r', 'o', 'l', 's']
/-- `"contents"`. -/
def contentsWord : CString := ascii ['c', 'o', 'n', 't', 'e', 'n', 't', 's']

/-- `is_command`. -/
def isCommand (arg : CString) : Bool := arg = getWord || arg = setWord || arg = controlsWord || arg = contentsWord

/-- `find_command_position`. -/
def findCommandPosition (argv : List CString) : Option Nat := argv.findIdx? isCommand

/-- What is to be done with the mixer, or what is missing for it. -/
inductive Command
  | get (control : CString)
  | set (control : CString) (values : List CString)
  | listControls (printAll : Bool)
  | noControl
  | noValues
  | usage
  deriving DecidableEq, Repr

/-- `main`, behind `mixer_open`. -/
def command (argv : List CString) : Command :=
  match findCommandPosition argv with
  | none => .usage
  | some i =>
    let cmd := argv[i]?.getD []
    if cmd = getWord then
      match argv[i + 1]? with
      | none => .noControl
      | some control => .get control
    else if cmd = setWord then
      match argv[i + 1]? with
      | none => .noControl
      | some control => if i + 2 ≥ argv.length then .noValues else .set control (argv.drop (i + 2))
    else if cmd = controlsWord then .listControls false
    else if cmd = contentsWord then .listControls true
    else .usage

/-- How `main` ends its loop over the options, or the card and the command that it goes on with. -/
inductive Outcome
  | help
  | version
  /-- A number is read from NULL. -/
  | nullArgument
  | mixer (card : Int) (command : Command)
  deriving DecidableEq, Repr

/-- The switch of `main`. -/
def optionSwitch (card : Int) (c : Int) (optarg : Option CString) (_errmsg : CString) : Int ⊕ Outcome :=
  if c = code 'D' then
    match optarg with
    | none => .inr .nullArgument
    | some s => .inl (atoi s)
  else if c = code 'h' then .inr .help
  else if c = code 'v' then .inr .version
  else .inl card

/-- `main` up to the command, within so many rounds of its loop; nothing, where the options read what is not there. -/
def main (fuel : Nat) (argv : List CString) : Option (Option Outcome) :=
  (Loop.run (optionRound (fun o => optparseLong o longOptions) optionSwitch) fuel (0, optparseInit argv)).map
    fun ret => do
    match ← ret with
    | .inl outcome => some outcome
    | .inr (card, _) => some (.mixer card (command argv))

/-! ## The command -/

/-- The command of a word and the arguments behind it. -/
def commandOf (word : CString) (rest : List CString) : Command :=
  if word = getWord then
    match rest with
    | [] => .noControl
    | control :: _ => .get control
  else if word = setWord then
    match rest with
    | [] => .noControl
    | [_] => .noValues
    | control :: values => .set control values
  else .listControls (word = contentsWord)

/-- The command is the first of its words among the arguments, be it meant as one or not. -/
theorem command_eq {before rest : List CString} {word : CString} (hbefore : ∀ a ∈ before, isCommand a = false)
    (hword : isCommand word = true) : command (before ++ word :: rest) = commandOf word rest := by
  have hposition : findCommandPosition (before ++ word :: rest) = some before.length := by
    unfold findCommandPosition
    rw [List.findIdx?_append, List.findIdx?_eq_none_iff.2 hbefore, List.findIdx?_cons, hword]
    simp
  have hget : (before ++ word :: rest)[before.length]? = some word := by simp
  have hnext : (before ++ word :: rest)[before.length + 1]? = rest.head? := by
    rw [List.getElem?_append_right (Nat.le_add_right ..), Nat.add_sub_cancel_left]
    cases rest <;> rfl
  have hdrop : (before ++ word :: rest).drop (before.length + 2) = rest.tail := by
    rw [List.drop_length_add_append]
    cases rest <;> rfl
  have hlength : (before ++ word :: rest).length = before.length + 1 + rest.length := by
    rw [List.length_append, List.length_cons]
    omega
  unfold command commandOf
  rw [hposition]
  dsimp only
  rw [hget, hnext, hdrop, hlength]
  dsimp only [Option.getD_some]
  by_cases hget : word = getWord
  · rw [if_pos hget, if_pos hget]
    cases rest <;> rfl
  rw [if_neg hget, if_neg hget]
  by_cases hset : word = setWord
  · rw [if_pos hset, if_pos hset]
    match rest with
    | [] => rfl
    | [_] => exact if_pos (Nat.le_refl _)
    | control :: value :: values => exact if_neg (by simp only [List.length_cons]; omega)
  rw [if_neg hset, if_neg hset]
  by_cases hcontrols : word = controlsWord
  · rw [if_pos hcontrols, hcontrols]
    rfl
  rw [if_neg hcontrols]
  have hcontents : word = contentsWord := by
    unfold isCommand at hword
    simp only [Bool.or_eq_true, decide_eq_true_eq] at hword
    tauto
  rw [if_pos hcontents, hcontents]
  rfl

theorem command_of_none {argv : List CString} (h : ∀ a ∈ argv, isCommand a = false) : command argv = .usage := by
  unfold command findCommandPosition
  rw [List.findIdx?_eq_none_iff.2 h]

/-! ## The options -/

/-- The events at which `main` ends its loop. -/
def endsAt : Event → Option Outcome
  | .option c _ => if c = code 'h' then some .help else if c = code 'v' then some .version else none
  | .error .. => none

theorem goodTable : GoodTable longOptions := ⟨by decide, by decide⟩

/-- The number that `-D` gives. -/
def cardSet (arg : Option CString) : Option Int := arg.map atoi

section

variable {e : Event} {events : List Event} (card : Int)

/-- At an event of its table, `main` ends its loop, or it keeps the card that is set. -/
theorem optionSwitch_eq (h : (tableGrammar longOptions).Told e) :
    onEvent optionSwitch card e = (endsAt e).elim (.inl ((settingOf 'D' cardSet e).getD card)) .inr := by
  cases e with
  | error kind data => rfl
  | option c arg =>
    obtain ⟨l, hl, rfl, hrequired, -⟩ := told_table h
    simp only [longOptions, List.mem_cons, List.not_mem_nil, or_false] at hl
    rcases hl with rfl | rfl | rfl
    · obtain ⟨s, rfl⟩ := Option.ne_none_iff_exists'.1 (hrequired rfl)
      rfl
    · rfl
    · rfl

theorem consume_optionSwitch (h : ∀ e ∈ events, (tableGrammar longOptions).Told e) :
    consume (onEvent optionSwitch) card events =
      (events.findSome? endsAt).elim (.inl (lastSetting 'D' cardSet card events)) .inr := by
  let apply (card : Int) (e : Event) : Int := (settingOf 'D' cardSet e).getD card
  have hlast : events.foldl apply card = lastSetting 'D' cardSet card events :=
    @foldl_lastSetting Int Int (fun _ => True) apply id 'D' cardSet (fun _ _ _ => trivial) (fun _ _ _ => rfl) card
      trivial events
  rw [consume_findSome? endsAt apply _ (fun card _ he => optionSwitch_eq card he) h, hlast]

end

/-- tinymix goes on after an error, but at a flag it ends. -/
theorem stopsEarly_optionSwitch : StopsEarly (tableGrammar longOptions) (onEvent optionSwitch) := by
  refine .inr fun card c code' card' hc hb => ?_
  obtain ⟨l, hl, heq⟩ := Option.map_eq_some_iff.1 hc
  have hmem := List.mem_of_find?_eq_some hl
  have hfound : l.shortname ≠ 0 ∧ l.shortname = charInt c := by simpa using List.find?_some hl
  have hflag : ∀ l ∈ longOptions, l.argtype = .none → l.shortname = code 'h' ∨ l.shortname = code 'v' := by decide
  obtain ⟨rfl, htype⟩ := Prod.mk.inj heq
  rcases hflag l hmem htype with hh | hv
  · rw [← hfound.2, hh] at hb
    cases hb
  · rw [← hfound.2, hv] at hb
    cases hb

/-- tinymix, on every command line: the first `-h` or `-v` ends it, and else the card is the one given last, whatever is
wrong with the other options. The command is the first of its words among the arguments as they were given. -/
theorem main_outcome (prog : CString) {args : List CString} (hnul : ∀ a ∈ args, 0 ∉ a) :
    (∃ fuel, ∀ more ≥ fuel, main more (prog :: args) = some (some
      (match ((tableGrammar longOptions).scan args).1.findSome? endsAt with
      | some outcome => outcome
      | none => .mixer (lastSetting 'D' cardSet 0 ((tableGrammar longOptions).scan args).1)
        (command (prog :: args))))) ∧
    ((∀ a ∈ prog :: args, isCommand a = false) → command (prog :: args) = .usage) ∧
    ∀ before word rest, prog :: args = before ++ word :: rest → (∀ a ∈ before, isCommand a = false) →
      isCommand word = true → command (prog :: args) = commandOf word rest := by
  refine ⟨?_, command_of_none, fun before word rest heq hbefore hword => heq ▸ command_eq hbefore hword⟩
  have htold := Grammar.told_scan (G := tableGrammar longOptions) args.length args (Nat.le_refl _)
  have hreads := optparseLong_loopReads goodTable stopsEarly_optionSwitch 0 prog hnul
  have hmain : ∃ fuel, ∀ more ≥ fuel, main more (prog :: args) = some (some _) :=
    hreads.outcome id (.mixer · (command (prog :: args))) (fun _ => rfl) fun _ _ => rfl
  rw [consume_optionSwitch 0 htold] at hmain
  cases hends : ((tableGrammar longOptions).scan args).1.findSome? endsAt <;> rw [hends] at hmain <;> exact hmain

/-- `tinymix -D 1 controls`. -/
theorem main_outcome_controls :
    (∃ fuel, ∀ more ≥ fuel, main more [[116], [45, 68], [49], controlsWord] = some (some
      (match ((tableGrammar longOptions).scan [[45, 68], [49], controlsWord]).1.findSome? endsAt with
      | some outcome => outcome
      | none => .mixer (lastSetting 'D' cardSet 0 ((tableGrammar longOptions).scan [[45, 68], [49], controlsWord]).1)
          (command [[116], [45, 68], [49], controlsWord])))) ∧
    ((∀ a ∈ [[116], [45, 68], [49], controlsWord], isCommand a = false) →
      command [[116], [45, 68], [49], controlsWord] = .usage) ∧
    ∀ before word rest, [[116], [45, 68], [49], controlsWord] = before ++ word :: rest →
      (∀ a ∈ before, isCommand a = false) → isCommand word = true →
      command [[116], [45, 68], [49], controlsWord] = commandOf word rest :=
  main_outcome [116] (by decide)

end Tinyalsa.Tinymix
