/-
Loops that read all options of a command line: they get the options that one scan of the arguments finds, and read back
just the command lines of the table. What the variables are that such a loop sets.
-/
import Tinyalsa.Lib.OptionLine
import Tinyalsa.Utils.OptionTable

namespace Tinyalsa

open OptionScan

/-! ## Reading all options -/

section

variable {longopts : List OptparseLong} {prog : CString} {args left : List CString}

/-- What is told of an option is said by an entry of its table. -/
theorem told_table {c : Int} {arg : Option CString} (h : (tableGrammar longopts).Told (.option c arg)) :
    ∃ l ∈ longopts, l.shortname = c ∧ (l.argtype = .required → arg ≠ none) ∧ (l.argtype = .none → arg = none) := by
  obtain ⟨takes, hoption, hrequired, hnone⟩ := h
  rcases hoption with ⟨char, hc⟩ | ⟨name, hn⟩
  · obtain ⟨l, hl, heq⟩ := Option.map_eq_some_iff.1 hc
    have hfound : l.shortname ≠ 0 ∧ l.shortname = charInt char := by simpa using List.find?_some hl
    cases heq
    exact ⟨l, List.mem_of_find?_eq_some hl, hfound.2, hrequired, hnone⟩
  · obtain ⟨l, hl, heq⟩ := Option.map_eq_some_iff.1 hn
    cases heq
    exact ⟨l, List.mem_of_find?_eq_some hl, rfl, hrequired, hnone⟩

/-- The options of a table are read as one scan finds them, by every loop that does not go on both after a flag and
after an error; and each is an option of the table, with an argument as it takes one. -/
theorem options_read_as_scanned {γ ρ : Type} {body : γ → Int → Option CString → CString → γ ⊕ ρ}
    (h : GoodTable longopts)
    (hstops : StopsEarly (tableGrammar longopts) (onEvent body)) (g : γ) (hnul : ∀ a ∈ args, 0 ∉ a) :
    LoopReads (tableGrammar longopts) (fun o => optparseLong o longopts) body g prog args ∧
      ∀ e ∈ ((tableGrammar longopts).scan args).1, (tableGrammar longopts).Told e :=
  ⟨optparseLong_loopReads h hstops g prog hnul, Grammar.told_scan args.length args (Nat.le_refl _)⟩

/-- The options with their arguments. -/
abbrev Settings := List (Int × Option CString)

/-- A loop that collects the options, up to an error. -/
def collect (settings : Settings) (c : Int) (optarg : Option CString) (errmsg : CString) : Settings ⊕ CString :=
  if c = questionMark then .inr errmsg else .inl (settings ++ [(c, optarg)])

def settingEvent (s : Int × Option CString) : Event := .option s.1 s.2

theorem consume_collect {events : List Event} (hcodes : ∀ code arg, .option code arg ∈ events → code ≠ questionMark)
    (settings settings' : Settings) :
    consume (onEvent collect) settings events = .inl settings' ↔
      Clean events ∧ settings'.map settingEvent = settings.map settingEvent ++ events := by
  have hinj : Function.Injective settingEvent := by
    rintro ⟨c, a⟩ ⟨c', a'⟩ heq
    cases heq
    rfl
  induction events generalizing settings with
  | nil =>
    rw [consume, Sum.inl.injEq, List.append_nil]
    exact ⟨fun h => ⟨clean_nil, by rw [h]⟩, fun h => (List.map_injective_iff.2 hinj h.2).symm⟩
  | cons e events ih =>
    cases e with
    | option code arg =>
      have hcode : code ≠ questionMark := hcodes code arg List.mem_cons_self
      have hstep : onEvent collect settings (.option code arg) = .inl (settings ++ [(code, arg)]) := if_neg hcode
      have hrest := ih (fun c a hca => hcodes c a (List.mem_cons_of_mem _ hca)) (settings ++ [(code, arg)])
      rw [consume_cons_inl hstep, clean_cons]
      refine hrest.trans ?_
      rw [List.map_append, List.append_assoc]
      exact and_congr_left fun _ => (and_iff_right rfl).symm
    | error kind data =>
      have hstep : onEvent collect settings (.error kind data) = .inr (errmsgOf (.error kind data)) := by
        show collect settings questionMark none (errmsgOf (.error kind data)) = _
        exact if_pos rfl
      rw [consume_cons_inr hstep, clean_cons]
      exact iff_of_false (fun h => by cases h) fun h => by cases h.1.1

theorem stopsEarly_collect (G : Grammar) : StopsEarly G (onEvent collect) := by
  refine .inl fun g e g' he hb => ?_
  cases e with
  | option code arg => cases he
  | error kind data => cases hb

/-- The command lines that are read without an error are just those of the grammar, and are read as they are written. -/
theorem options_roundtrip (h : GoodTable longopts) (hmark : ∀ l ∈ longopts, l.shortname ≠ questionMark)
    (hnul : ∀ a ∈ args, 0 ∉ a) (settings : Settings) :
    (∃ o, Loop.Leaves (optionRound (fun o => optparseLong o longopts) collect) ([], optparseInit (prog :: args))
        (some (.inr (settings, o))) ∧ o.argv.drop o.optind = left) ↔
      (tableGrammar longopts).Line (settings.map settingEvent) left args := by
  have hcodes : ∀ code arg, .option code arg ∈ ((tableGrammar longopts).scan args).1 → code ≠ questionMark := by
    intro code arg hmem
    obtain ⟨l, hl, rfl, -⟩ := told_table (Grammar.told_scan args.length args (Nat.le_refl _) _ hmem)
    exact hmark l hl
  have hreads := optparseLong_loopReads h (stopsEarly_collect _) [] prog hnul
  rw [← Grammar.scan_eq_iff_line]
  unfold LoopReads at hreads
  constructor
  · rintro ⟨o, hleaves, hleft⟩
    cases hc : consume (onEvent collect) [] ((tableGrammar longopts).scan args).1 with
    | inr r =>
      rw [hc] at hreads
      cases hreads.unique hleaves
    | inl settings' =>
      rw [hc] at hreads
      obtain ⟨o', hleaves', -, -, -, hleft'⟩ := hreads
      cases hleaves'.unique hleaves
      obtain ⟨hclean, hevents⟩ := (consume_collect hcodes [] settings).1 hc
      have hevents : settings.map settingEvent = ((tableGrammar longopts).scan args).1 := hevents
      rw [hevents, ← hleft, hleft']
      exact ⟨hclean, rfl⟩
  · rintro ⟨hclean, hscan⟩
    have hc : consume (onEvent collect) [] ((tableGrammar longopts).scan args).1 = .inl settings := by
      rw [consume_collect hcodes, hscan]
      exact ⟨hclean, rfl⟩
    rw [hc] at hreads
    obtain ⟨o, hleaves, -, -, -, hleft⟩ := hreads
    exact ⟨o, hleaves, by rw [hleft, hscan]⟩

end

/-- A table with the option `-D`, or `--card`, that needs an argument. -/
def cardTable : List OptparseLong := [⟨some [99, 97, 114, 100], 68, .required⟩]

/-- `prog x -D1 y`. -/
theorem options_read_as_scanned_card :
    LoopReads (tableGrammar cardTable) (fun o => optparseLong o cardTable) collect [] [112]
        [[120], [45, 68, 49], [121]] ∧
      ∀ e ∈ ((tableGrammar cardTable).scan [[120], [45, 68, 49], [121]]).1, (tableGrammar cardTable).Told e :=
  options_read_as_scanned ⟨by decide, by decide⟩ (stopsEarly_collect _) [] (by decide)

/-- `prog x --card=1 y`. -/
theorem options_roundtrip_card :
    ∃ o, Loop.Leaves (optionRound (fun o => optparseLong o cardTable) collect)
        ([], optparseInit [[112], [120], [45, 45, 99, 97, 114, 100, 61, 49], [121]])
        (some (.inr ([(68, some [49])], o))) ∧ o.argv.drop o.optind = [[120], [121]] := by
  have hspelt : (tableGrammar cardTable).Spelling (.option 68 (some [49])) [99, 97, 114, 100, 61, 49] none :=
    @Grammar.Spelling.joined _ [99, 97, 114, 100] 68 .required [49] (by decide) (by decide) (by decide)
  have hline : (tableGrammar cardTable).Line [.option 68 (some [49])] [[120], [121]]
      [[120], [45, 45, 99, 97, 114, 100, 61, 49], [121]] :=
    .positional (by decide) (.long hspelt (.positional (by decide) .nil))
  exact (options_roundtrip ⟨by decide, by decide⟩ (by decide) (by decide) [(68, some [49])]).2 hline

/-! ## Settings -/

/-- A character constant. -/
def code (c : Char) : Int := c.toNat

theorem code_inj {c d : Char} : code c = code d ↔ c = d := by
  unfold code
  rw [Int.natCast_inj, Char.toNat_inj]

/-- The bytes of a string constant. -/
def ascii (s : List Char) : CString := s.map (·.toNat.toUInt8)

/-- What an event sets with the option of a code, by a reading of the argument. -/
def settingOf {α : Type} (c : Char) (value : Option CString → Option α) : Event → Option α
  | .option c' arg => if c' = code c then value arg else none
  | .error .. => none

/-- The last setting of an option. -/
def lastSetting {α : Type} (c : Char) (value : Option CString → Option α) (default : α) (events : List Event) : α :=
  (events.filterMap (settingOf c value)).getLastD default

/-- A variable that an option sets has the value it was set to last. -/
theorem foldl_lastSetting {α γ : Type} {I : γ → Prop} {apply : γ → Event → γ} {field : γ → α} {c : Char}
    {value : Option CString → Option α} (hkeep : ∀ g e, I g → I (apply g e))
    (h : ∀ g e, I g → field (apply g e) = (settingOf c value e).getD (field g)) {g : γ} (hg : I g)
    (events : List Event) : field (events.foldl apply g) = lastSetting c value (field g) events := by
  unfold lastSetting
  induction events generalizing g with
  | nil => rfl
  | cons e events ih =>
    rw [List.foldl_cons, ih (hkeep g e hg), h g e hg, List.filterMap_cons]
    cases settingOf c value e with
    | none => rfl
    | some a =>
      rw [List.getLastD_cons]
      rfl

/-- A switch that goes on at each event of a list applies them one after the other. -/
theorem consume_eq_foldl {γ ρ : Type} {body : γ → Event → γ ⊕ ρ} {apply : γ → Event → γ} (goes : Event → Prop)
    (h : ∀ g e, goes e → body g e = .inl (apply g e)) {events : List Event} (hgoes : ∀ e ∈ events, goes e) (g : γ) :
    consume body g events = .inl (events.foldl apply g) := by
  induction events generalizing g with
  | nil => rfl
  | cons e events ih =>
    rw [consume_cons_inl (h g e (hgoes e List.mem_cons_self)), List.foldl_cons]
    exact ih (fun e' he' => hgoes e' (List.mem_cons_of_mem e he')) _

/-- A switch that ends at some events and sets variables at the others ends at the first of them, if there is one. -/
theorem consume_findSome? {γ ρ : Type} {body : γ → Event → γ ⊕ ρ} (ends : Event → Option ρ) (apply : γ → Event → γ)
    (goes : Event → Prop)
    (h : ∀ g e, goes e → body g e = (ends e).elim (.inl (apply g e)) .inr) {events : List Event}
    (hgoes : ∀ e ∈ events, goes e) (g : γ) :
    consume body g events = (events.findSome? ends).elim (.inl (events.foldl apply g)) .inr := by
  induction events generalizing g with
  | nil => rfl
  | cons e events ih =>
    have he := h g e (hgoes e List.mem_cons_self)
    cases hends : ends e with
    | some r =>
      rw [hends] at he
      rw [consume_cons_inr he, List.findSome?_cons, hends]
      rfl
    | none =>
      rw [hends] at he
      rw [consume_cons_inl he, List.findSome?_cons, hends, ih fun e' he' => hgoes e' (List.mem_cons_of_mem e he')]
      rfl

/-- A switch that leaves at an event leaves at the first of them. -/
theorem consume_leaves {γ ρ : Type} {body : γ → Event → γ ⊕ ρ} {Q : ρ → Prop} (goes : Event → Prop)
    (hgoes : ∀ g e, goes e → ∃ g', body g e = .inl g') {events : List Event}
    (h : ∀ g, ∀ e ∈ events, ¬ goes e → ∃ r, body g e = .inr r ∧ Q r) (hleaves : ¬ ∀ e ∈ events, goes e) (g : γ) :
    ∃ r, consume body g events = .inr r ∧ Q r := by
  induction events generalizing g with
  | nil => exact absurd (fun e he => absurd he List.not_mem_nil) hleaves
  | cons e events ih =>
    by_cases he : goes e
    · obtain ⟨g', hg'⟩ := hgoes g e he
      rw [consume_cons_inl hg']
      refine ih (fun g e' he' => h g e' (List.mem_cons_of_mem e he')) (fun hall => hleaves ?_) g'
      exact List.forall_mem_cons.2 ⟨he, hall⟩
    · obtain ⟨r, hr, hq⟩ := h g e List.mem_cons_self he
      exact ⟨r, consume_cons_inr hr events, hq⟩

end Tinyalsa
