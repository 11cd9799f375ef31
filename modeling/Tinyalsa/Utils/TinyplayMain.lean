/-
tinyplay: `main` up to `ctx_init`. The command it goes on with is that of the last settings, and the file the first
argument that is no option.
-/
import Tinyalsa.Pcm.Handle
import Tinyalsa.Utils.CommandLine
import Tinyalsa.Utils.Numbers
import Tinyalsa.Utils.Tinyplay

namespace Tinyalsa

open OptionScan

/-- `PCM_OUT`. -/
def pcmOut : UInt32 := 0x00000000

namespace Tinyplay

/-- `long_options`. -/
def longOptions : List OptparseLong :=
  [⟨some (ascii ['c', 'a', 'r', 'd']), code 'D', .required⟩,
    ⟨some (ascii ['d', 'e', 'v', 'i', 'c', 'e']), code 'd', .required⟩,
    ⟨some (ascii ['p', 'e', 'r', 'i', 'o', 'd', '-', 's', 'i', 'z', 'e']), code 'p', .required⟩,
    ⟨some (ascii ['p', 'e', 'r', 'i', 'o', 'd', '-', 'c', 'o', 'u', 'n', 't']), code 'n', .required⟩,
    ⟨some (ascii ['f', 'i', 'l', 'e', '-', 't', 'y', 'p', 'e']), code 'i', .required⟩,
    ⟨some (ascii ['c', 'h', 'a', 'n', 'n', 'e', 'l', 's']), code 'c', .required⟩,
    ⟨some (ascii ['r', 'a', 't', 'e']), code 'r', .required⟩,
    ⟨some (ascii ['b', 'i', 't', 's']), code 'b', .required⟩,
    ⟨some (ascii ['f', 'l', 'o', 'a', 't']), code 'f', .none⟩,
    ⟨some (ascii ['m', 'm', 'a', 'p']), code 'M', .none⟩,
    ⟨some (ascii ['h', 'e', 'l', 'p']), code 'h', .none⟩]

/-- `cmd_init`; `avail_min` stays as it is on the stack. -/
def cmdInit (cmd : Cmd) : Cmd where
  filename := none
  filetype := none
  card := 0
  device := 0
  flags := pcmOut
  config := { cmd.config with
    periodSize := 1024
    periodCount := 2
    channels := 2
    rate := 48000
    format := .s16Le
    silenceThreshold := 1024 * 2
    silenceSize := 0
    stopThreshold := 1024 * 2
    startThreshold := 1024 }
  bits := 16
  isFloat := false

/-- The texts of a `char *`, as they are in a `struct cmd`. -/
def textOf (s : CString) : String := String.ofList (s.map fun c => Char.ofNat c.toNat)

/-- How `main` ends, or the command that it goes on with. -/
inductive Outcome
  | usage
  | help
  | badNumber (what : String)
  | badOption (errmsg : CString)
  /-- A text is read from NULL. -/
  | nullArgument
  | play (cmd : Cmd)

/-- `sscanf(opts.optarg, "%u", &...)`, and where it does not read a number. -/
def numberOption (what : String) (optarg : Option CString) (set : UInt32 → Cmd) : Cmd ⊕ Outcome :=
  match optarg with
  | none => .inr .nullArgument
  | some s =>
    match sscanfUInt s with
    | some n => .inl (set n)
    | none => .inr (.badNumber what)

/-- The switch of `main`. -/
def optionSwitch (cmd : Cmd) (c : Int) (optarg : Option CString) (errmsg : CString) : Cmd ⊕ Outcome :=
  if c = code 'D' then numberOption "card number" optarg fun n => { cmd with card := n }
  else if c = code 'd' then numberOption "device number" optarg fun n => { cmd with device := n }
  else if c = code 'p' then
    numberOption "period size" optarg fun n => { cmd with config := { cmd.config with periodSize := n } }
  else if c = code 'n' then
    numberOption "period count" optarg fun n => { cmd with config := { cmd.config with periodCount := n } }
  else if c = code 'c' then
    numberOption "channel count" optarg fun n => { cmd with config := { cmd.config with channels := n } }
  else if c = code 'r' then
    numberOption "rate" optarg fun n => { cmd with config := { cmd.config with rate := n } }
  else if c = code 'i' then .inl { cmd with filetype := optarg.map textOf }
  else if c = code 'b' then numberOption "bits per one sample" optarg fun n => { cmd with bits := n }
  else if c = code 'f' then .inl { cmd with isFloat := true }
  else if c = code 'M' then .inl { cmd with flags := cmd.flags ||| pcmMmap }
  else if c = code 'h' then .inr .help
  else if c = code '?' then .inr (.badOption errmsg)
  else .inl cmd

/-- `strrchr(filename, '.')`, and what is behind it. -/
def extension (filename : CString) : Option CString :=
  if 46 ∈ filename then some (filename.reverse.takeWhile (· ≠ 46)).reverse else none

/-- `main`, from the end of the options to `ctx_init`. -/
def finishCmd (cmd : Cmd) (filename : Option CString) : Cmd :=
  let filetype := if cmd.filetype = none then (filename.bind extension).map textOf else cmd.filetype
  let bufferSize := (cmd.config.periodSize * cmd.config.periodCount).toUInt64
  { cmd with
    filename := filename.map textOf
    filetype
    config := { cmd.config with
      silenceThreshold := bufferSize, stopThreshold := bufferSize, startThreshold := cmd.config.periodSize.toUInt64 } }

/-- `main` up to `ctx_init`, within so many rounds of its loop; nothing, where the options read what is not there. -/
def main (fuel : Nat) (stack : Cmd) (argv : List CString) : Option (Option Outcome) :=
  if argv.length < 2 then some (some .usage)
  else
    (Loop.run (optionRound (fun o => optparseLong o longOptions) optionSwitch) fuel
      (cmdInit stack, optparseInit argv)).map fun ret => do
        match ← ret with
        | .inl outcome => some outcome
        | .inr (cmd, options) =>
          let (filename, _) ← optparseArg options
          some (.play (finishCmd cmd filename))

theorem goodTable : GoodTable longOptions := ⟨by decide, by decide⟩

/-- The options that take a number. -/
def numeric : List Int := [code 'D', code 'd', code 'p', code 'n', code 'c', code 'r', code 'b']

/-- The events that `main` goes on at. -/
def GoesOn : Event → Prop
  | .option c arg => c ≠ code 'h' ∧ c ≠ code '?' ∧ (c ∈ numeric → (arg.bind sscanfUInt).isSome)
  | .error .. => False

/-- The command after an event. -/
def applyEvent (cmd : Cmd) (e : Event) : Cmd :=
  match onEvent optionSwitch cmd e with
  | .inl cmd => cmd
  | .inr _ => cmd

/-- The command of a command line, given its options and the first of the other arguments. -/
def commandOf (stack : Cmd) (events : List Event) (filename : Option CString) : Cmd :=
  let number (c : Char) (default : UInt32) := lastSetting c (·.bind sscanfUInt) default events
  let bufferSize := (number 'p' 1024 * number 'n' 2).toUInt64
  { filename := filename.map textOf
    filetype := lastSetting 'i' (fun arg => some (arg.map textOf)) none events <|> (filename.bind extension).map textOf
    card := number 'D' 0
    device := number 'd' 0
    flags := lastSetting 'M' (fun _ => some (pcmOut ||| pcmMmap)) pcmOut events
    config := { stack.config with
      periodSize := number 'p' 1024
      periodCount := number 'n' 2
      channels := number 'c' 2
      rate := number 'r' 48000
      format := .s16Le
      silenceThreshold := bufferSize
      silenceSize := 0
      stopThreshold := bufferSize
      startThreshold := (number 'p' 1024).toUInt64 }
    bits := number 'b' 16
    isFloat := lastSetting 'f' (fun _ => some true) false events }

/-! ### The switch -/

section

variable (cmd : Cmd) {e : Event} {stack : Cmd}

theorem numberOption_cases (what : String) (arg : Option CString) (set : UInt32 → Cmd) :
    (∃ n, arg.bind sscanfUInt = some n ∧ numberOption what arg set = .inl (set n)) ∨
      arg.bind sscanfUInt = none ∧ (arg = none ∧ numberOption what arg set = .inr .nullArgument ∨
        arg ≠ none ∧ numberOption what arg set = .inr (.badNumber what)) := by
  unfold numberOption
  cases arg with
  | none => exact .inr ⟨rfl, .inl ⟨rfl, rfl⟩⟩
  | some s =>
    dsimp only [Option.bind]
    cases sscanfUInt s with
    | none => exact .inr ⟨rfl, .inr ⟨Option.some_ne_none s, rfl⟩⟩
    | some n => exact .inl ⟨n, rfl, rfl⟩

theorem optionSwitch_goesOn (h : GoesOn e) : onEvent optionSwitch cmd e = .inl (applyEvent cmd e) := by
  suffices hgoes : ∃ cmd', onEvent optionSwitch cmd e = .inl cmd' by
    obtain ⟨cmd', hcmd'⟩ := hgoes
    unfold applyEvent
    rw [hcmd']
  cases e with
  | error kind data => exact h.elim
  | option c arg =>
    obtain ⟨hhelp, hmark, hnumeric⟩ := h
    have hnumber : ∀ what set, c ∈ numeric → ∃ cmd', numberOption what arg set = .inl cmd' := by
      intro what set hc
      rcases numberOption_cases what arg set with ⟨n, -, h⟩ | ⟨hnone, -⟩
      · exact ⟨set n, h⟩
      · rw [hnone] at hnumeric
        cases hnumeric hc
    show ∃ cmd', optionSwitch cmd c arg _ = .inl cmd'
    by_cases hmem : c ∈ numeric
    · have hgoes := fun what set => hnumber what set hmem
      simp only [numeric, List.mem_cons, List.not_mem_nil, or_false] at hmem
      unfold optionSwitch
      rcases hmem with hc | hc | hc | hc | hc | hc | hc <;> rw [hc] <;> exact hgoes _ _
    · simp only [numeric, List.mem_cons, List.not_mem_nil, or_false, not_or] at hmem
      obtain ⟨h₁, h₂, h₃, h₄, h₅, h₆, h₇⟩ := hmem
      unfold optionSwitch
      rw [if_neg h₁, if_neg h₂, if_neg h₃, if_neg h₄, if_neg h₅, if_neg h₆, if_neg h₇, if_neg hhelp, if_neg hmark]
      by_cases hi : c = code 'i'
      · exact ⟨_, if_pos hi⟩
      · rw [if_neg hi]
        by_cases hf : c = code 'f'
        · exact ⟨_, if_pos hf⟩
        · rw [if_neg hf]
          by_cases hm : c = code 'M'
          · exact ⟨_, if_pos hm⟩
          · exact ⟨_, if_neg hm⟩

/-- What is not gone on at ends `main`; and no text is read from NULL. -/
theorem optionSwitch_ends (h : ¬ GoesOn e) (htold : (tableGrammar longOptions).Told e) :
    ∃ r, onEvent optionSwitch cmd e = .inr r ∧ r ≠ .nullArgument ∧ ∀ cmd', r ≠ .play cmd' := by
  cases e with
  | error kind data => exact ⟨.badOption _, rfl, by rintro ⟨⟩, by rintro _ ⟨⟩⟩
  | option c arg =>
    obtain ⟨l, hl, rfl, hrequired, -⟩ := told_table htold
    have hmark : l.shortname ≠ code '?' := by
      have htable : ∀ l ∈ longOptions, l.shortname ≠ code '?' := by decide
      exact htable l hl
    by_cases hhelp : l.shortname = code 'h'
    · refine ⟨.help, ?_, by rintro ⟨⟩, by rintro _ ⟨⟩⟩
      show optionSwitch cmd l.shortname arg _ = _
      rw [hhelp]
      rfl
    · have hnumeric : l.shortname ∈ numeric ∧ arg.bind sscanfUInt = none := by
        by_contra hno
        refine h ⟨hhelp, hmark, fun hmem => ?_⟩
        by_contra hnone
        exact hno ⟨hmem, by simpa using hnone⟩
      have hsome : arg ≠ none := by
        refine hrequired ?_
        have htable : ∀ l ∈ longOptions, l.shortname ∈ numeric → l.argtype = .required := by decide
        exact htable l hl hnumeric.1
      have hbad : ∀ what set, numberOption what arg set = .inr (.badNumber what) := by
        intro what set
        rcases numberOption_cases what arg set with ⟨n, hn, -⟩ | ⟨-, ⟨hnull, -⟩ | ⟨-, hbad⟩⟩
        · rw [hnumeric.2] at hn
          cases hn
        · exact absurd hnull hsome
        · exact hbad
      suffices hwhat : ∃ what, onEvent optionSwitch cmd (.option l.shortname arg) = .inr (.badNumber what) by
        obtain ⟨what, hwhat⟩ := hwhat
        exact ⟨_, hwhat, by rintro ⟨⟩, by rintro _ ⟨⟩⟩
      show ∃ what, optionSwitch cmd l.shortname arg _ = _
      have hmem := hnumeric.1
      simp only [numeric, List.mem_cons, List.not_mem_nil, or_false] at hmem
      unfold optionSwitch
      rcases hmem with hc | hc | hc | hc | hc | hc | hc <;> rw [hc] <;> exact ⟨_, hbad _ _⟩

/-! ### What is set -/

/-- The number that an event sets. -/
def numberSet (c : Char) (e : Event) : Option UInt32 := settingOf c (·.bind sscanfUInt) e

theorem applyEvent_number {c : Char} {arg : Option CString} {what : String} {set : UInt32 → Cmd}
    (h : ∀ errmsg, optionSwitch cmd (code c) arg errmsg = numberOption what arg set) :
    applyEvent cmd (.option (code c) arg) = ((arg.bind sscanfUInt).map set).getD cmd := by
  unfold applyEvent onEvent
  show (match optionSwitch cmd (code c) arg _ with | .inl cmd => cmd | .inr _ => cmd) = _
  rw [h]
  rcases numberOption_cases what arg set with ⟨n, hn, hset⟩ | ⟨hnone, ⟨-, hend⟩ | ⟨-, hend⟩⟩
  · rw [hset, hn]
    rfl
  · rw [hend, hnone]
    rfl
  · rw [hend, hnone]
    rfl

theorem settingOf_other {α : Type} {c : Char} {c' : Int} (h : c' ≠ code c) (value : Option CString → Option α)
    (arg : Option CString) : settingOf c value (.option c' arg) = none := if_neg h

/-- An event sets its own variable, and leaves the others as they are. -/
theorem applyEvent_eq :
    applyEvent cmd e =
      { cmd with
        filetype := (settingOf 'i' (fun arg => some (arg.map textOf)) e).getD cmd.filetype
        card := (numberSet 'D' e).getD cmd.card
        device := (numberSet 'd' e).getD cmd.device
        flags := (settingOf 'M' (fun _ => some (cmd.flags ||| pcmMmap)) e).getD cmd.flags
        config := { cmd.config with
          periodSize := (numberSet 'p' e).getD cmd.config.periodSize
          periodCount := (numberSet 'n' e).getD cmd.config.periodCount
          channels := (numberSet 'c' e).getD cmd.config.channels
          rate := (numberSet 'r' e).getD cmd.config.rate }
        bits := (numberSet 'b' e).getD cmd.bits
        isFloat := (settingOf 'f' (fun _ => some true) e).getD cmd.isFloat } := by
  cases e with
  | error kind data => rfl
  | option c arg =>
    by_cases hset : ∃ d ∈ ['D', 'd', 'p', 'n', 'c', 'r', 'b', 'i', 'f', 'M'], c = code d
    · obtain ⟨d, hd, rfl⟩ := hset
      simp only [List.mem_cons, List.not_mem_nil, or_false] at hd
      rcases hd with rfl | rfl | rfl | rfl | rfl | rfl | rfl | rfl | rfl | rfl
      case inr.inr.inr.inr.inr.inr.inr.inl => rfl
      case inr.inr.inr.inr.inr.inr.inr.inr.inl => rfl
      case inr.inr.inr.inr.inr.inr.inr.inr.inr => rfl
      all_goals
        rw [applyEvent_number cmd (fun _ => rfl)]
        unfold numberSet
        cases hn : arg.bind sscanfUInt <;> simp [settingOf, code_inj, hn]
    · have hne : ∀ d ∈ ['D', 'd', 'p', 'n', 'c', 'r', 'b', 'i', 'f', 'M'], c ≠ code d := fun d hd hc => hset ⟨d, hd, hc⟩
      simp only [List.forall_mem_cons, List.not_mem_nil, false_imp_iff, implies_true, and_true] at hne
      obtain ⟨hD, hd, hp, hn, hc, hr, hb, hi, hf, hM⟩ := hne
      have hkeep : applyEvent cmd (.option c arg) = cmd := by
        unfold applyEvent onEvent
        show (match optionSwitch cmd c arg _ with | .inl cmd => cmd | .inr _ => cmd) = _
        unfold optionSwitch
        rw [if_neg hD, if_neg hd, if_neg hp, if_neg hn, if_neg hc, if_neg hr, if_neg hi, if_neg hb,
          if_neg hf, if_neg hM]
        by_cases hhelp : c = code 'h'
        · rw [if_pos hhelp]
        · rw [if_neg hhelp]
          by_cases hmark : c = code '?'
          · rw [if_pos hmark]
          · rw [if_neg hmark]
      rw [hkeep]
      unfold numberSet
      rw [settingOf_other hD, settingOf_other hd, settingOf_other hp, settingOf_other hn, settingOf_other hc,
        settingOf_other hr, settingOf_other hi, settingOf_other hb, settingOf_other hf, settingOf_other hM]
      rfl

/-- The flags are those of a playback, with or without mmap. -/
def PlayFlags (cmd : Cmd) : Prop := cmd.flags = pcmOut ∨ cmd.flags = pcmOut ||| pcmMmap

theorem applyEvent_flags (h : PlayFlags cmd) :
    PlayFlags (applyEvent cmd e) ∧
      (applyEvent cmd e).flags = (settingOf 'M' (fun _ => some (pcmOut ||| pcmMmap)) e).getD cmd.flags := by
  have hor : cmd.flags ||| pcmMmap = pcmOut ||| pcmMmap := by
    rcases h with h | h <;> rw [h]
    rfl
  have hflags : (applyEvent cmd e).flags = (settingOf 'M' (fun _ => some (pcmOut ||| pcmMmap)) e).getD cmd.flags := by
    rw [applyEvent_eq]
    dsimp only
    rw [hor]
  refine ⟨?_, hflags⟩
  unfold PlayFlags
  rw [hflags]
  cases hs : settingOf 'M' (fun _ => some (pcmOut ||| pcmMmap)) e with
  | none => exact h
  | some flags =>
    right
    unfold settingOf at hs
    split at hs
    · split_ifs at hs
      exact (Option.some.inj hs).symm
    · cases hs

/-- The options of a command line, applied one after the other. -/
theorem finishCmd_foldl (stack : Cmd) (events : List Event) (filename : Option CString) :
    finishCmd (events.foldl applyEvent (cmdInit stack)) filename = commandOf stack events filename := by
  have hset : ∀ {α : Type} (field : Cmd → α) (c : Char) (value : Option CString → Option α),
      (∀ g e, PlayFlags g → field (applyEvent g e) = (settingOf c value e).getD (field g)) →
      field (events.foldl applyEvent (cmdInit stack)) = lastSetting c value (field (cmdInit stack)) events :=
    fun _ _ _ h => foldl_lastSetting (fun g _ hg => (applyEvent_flags g hg).1) h (.inl rfl) events
  have hkept : ∀ {α : Type} (field : Cmd → α), (∀ g e, field (applyEvent g e) = field g) →
      field (events.foldl applyEvent (cmdInit stack)) = field (cmdInit stack) :=
    fun field h => List.foldlRecOn (motive := fun g => field g = field (cmdInit stack)) events applyEvent rfl
      fun g hg e _ => (h g e).trans hg
  have hcard := hset (·.card) 'D' (·.bind sscanfUInt) fun g e _ => by rw [applyEvent_eq]; rfl
  have hdevice := hset (·.device) 'd' (·.bind sscanfUInt) fun g e _ => by rw [applyEvent_eq]; rfl
  have hperiodSize := hset (·.config.periodSize) 'p' (·.bind sscanfUInt) fun g e _ => by rw [applyEvent_eq]; rfl
  have hperiodCount := hset (·.config.periodCount) 'n' (·.bind sscanfUInt) fun g e _ => by rw [applyEvent_eq]; rfl
  have hchannels := hset (·.config.channels) 'c' (·.bind sscanfUInt) fun g e _ => by rw [applyEvent_eq]; rfl
  have hrate := hset (·.config.rate) 'r' (·.bind sscanfUInt) fun g e _ => by rw [applyEvent_eq]; rfl
  have hbits := hset (·.bits) 'b' (·.bind sscanfUInt) fun g e _ => by rw [applyEvent_eq]; rfl
  have hisFloat := hset (·.isFloat) 'f' (fun _ => some true) fun g e _ => by rw [applyEvent_eq]
  have hfiletype := hset (·.filetype) 'i' (fun arg => some (arg.map textOf)) fun g e _ => by rw [applyEvent_eq]
  have hflags := hset (·.flags) 'M' (fun _ => some (pcmOut ||| pcmMmap)) fun g e hg => (applyEvent_flags g hg).2
  have hformat := hkept (·.config.format) fun g e => by rw [applyEvent_eq]
  have hsilenceSize := hkept (·.config.silenceSize) fun g e => by rw [applyEvent_eq]
  have havailMin := hkept (·.config.availMin) fun g e => by rw [applyEvent_eq]
  have hfiletype' : ∀ x y : Option String, (if x = none then y else x) = (x <|> y) := by
    intro x y
    cases x <;> rfl
  unfold finishCmd commandOf
  dsimp only
  rw [hfiletype', hcard, hdevice, hperiodSize, hperiodCount, hchannels, hrate, hbits, hisFloat, hfiletype, hflags,
    hformat, hsilenceSize, havailMin]
  rfl

end

/-- tinyplay goes on with a command just where each option is read; it is the one of the last settings, and the file is
the first string that is no option, wherever it stands. -/
theorem main_command (stack : Cmd) (prog : CString) {args : List CString} (hargs : args ≠ [])
    (hnul : ∀ a ∈ args, 0 ∉ a) :
    ∃ fuel outcome, (∀ more ≥ fuel, main more stack (prog :: args) = some (some outcome)) ∧ outcome ≠ .nullArgument ∧
      ((∃ cmd, outcome = .play cmd) ↔ ∀ e ∈ ((tableGrammar longOptions).scan args).1, GoesOn e) ∧
      ∀ cmd, outcome = .play cmd →
        cmd = commandOf stack ((tableGrammar longOptions).scan args).1
          ((tableGrammar longOptions).scan args).2.head? := by
  have hlength : ¬ (prog :: args).length < 2 := by
    have := List.length_pos_of_ne_nil hargs
    rw [List.length_cons]
    omega
  have hstops : StopsEarly (tableGrammar longOptions) (onEvent optionSwitch) := by
    refine .inl fun g e g' he hb => ?_
    cases e with
    | option c arg => cases he
    | error kind data =>
      have hend : onEvent optionSwitch g (.error kind data) = .inr (.badOption (errmsgOf (.error kind data))) := rfl
      rw [hend] at hb
      cases hb
  have htold := Grammar.told_scan (G := tableGrammar longOptions) args.length args (Nat.le_refl _)
  have hreads := optparseLong_loopReads goodTable hstops (cmdInit stack) prog hnul
  unfold LoopReads at hreads
  have hmain : ∀ {fuel more ret}, Loop.run (optionRound (fun o => optparseLong o longOptions) optionSwitch) fuel
      (cmdInit stack, optparseInit (prog :: args)) = some ret → more ≥ fuel →
      main more stack (prog :: args) = some (do
        match ← ret with
        | .inl outcome => some outcome
        | .inr (cmd, options) =>
          let (filename, _) ← optparseArg options
          some (.play (finishCmd cmd filename))) := by
    intro fuel more ret hrun hmore
    unfold main
    rw [if_neg hlength, Loop.run_mono hrun hmore]
    rfl
  by_cases hgoes : ∀ e ∈ ((tableGrammar longOptions).scan args).1, GoesOn e
  · rw [consume_eq_foldl GoesOn (fun g _ he => optionSwitch_goesOn g he) hgoes (cmdInit stack)] at hreads
    obtain ⟨o, ⟨fuel, hfuel⟩, -, -, hle, hleft⟩ := hreads
    obtain ⟨o', harg⟩ := optparseArg_eq hle hleft
    refine ⟨fuel, .play (commandOf stack ((tableGrammar longOptions).scan args).1
      ((tableGrammar longOptions).scan args).2.head?), fun more hmore => ?_, by rintro ⟨⟩,
      iff_of_true ⟨_, rfl⟩ hgoes, ?_⟩
    · rw [hmain hfuel hmore, ← finishCmd_foldl]
      dsimp only [bind, Option.bind]
      rw [harg]
    · rintro cmd ⟨⟩
      rfl
  · obtain ⟨r, hr, hnull, hplay⟩ := consume_leaves GoesOn (fun g e he => ⟨_, optionSwitch_goesOn g he⟩)
      (fun g e he hno => optionSwitch_ends g hno (htold e he)) hgoes (cmdInit stack)
    rw [hr] at hreads
    obtain ⟨fuel, hfuel⟩ := hreads
    refine ⟨fuel, r, fun more hmore => hmain hfuel hmore, hnull,
      iff_of_false (fun ⟨cmd, hcmd⟩ => hplay cmd hcmd) hgoes, ?_⟩
    exact fun cmd hcmd => absurd hcmd (hplay cmd)

/-- A `struct cmd` on the stack. -/
def stackCmd : Cmd := ⟨none, none, 0, 0, 0, ⟨0, 0, 0, 0, .s8, 0, 0, 0, 0, 0⟩, 0, false⟩

/-- `tinyplay a.wav -D 1`. -/
theorem main_command_card :
    ∃ fuel outcome,
      (∀ more ≥ fuel, main more stackCmd [[112], [97, 46, 119, 97, 118], [45, 68], [49]] = some (some outcome)) ∧
      outcome ≠ .nullArgument ∧
      ((∃ cmd, outcome = .play cmd) ↔
        ∀ e ∈ ((tableGrammar longOptions).scan [[97, 46, 119, 97, 118], [45, 68], [49]]).1, GoesOn e) ∧
      ∀ cmd, outcome = .play cmd →
        cmd = commandOf stackCmd ((tableGrammar longOptions).scan [[97, 46, 119, 97, 118], [45, 68], [49]]).1
          ((tableGrammar longOptions).scan [[97, 46, 119, 97, 118], [45, 68], [49]]).2.head? :=
  main_command stackCmd [112] (by decide) (by decide)

end Tinyplay

end Tinyalsa
