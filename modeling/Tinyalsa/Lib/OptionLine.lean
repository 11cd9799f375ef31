/-
The command lines of a grammar of options, given by how they are put together: the ways to write an option, and where
the other arguments may stand. The scan accepts exactly these, and reads back what was written.
-/
import Mathlib.Data.List.TakeWhile
import Tinyalsa.Lib.OptionScan

namespace OptionScan

/-- No event is an error. -/
def Clean (events : List Event) : Prop := ∀ e ∈ events, e.isError = false

theorem clean_cons {e : Event} {events : List Event} : Clean (e :: events) ↔ e.isError = false ∧ Clean events := by
  unfold Clean
  rw [List.forall_mem_cons]

theorem clean_append {events events' : List Event} : Clean (events ++ events') ↔ Clean events ∧ Clean events' := by
  unfold Clean
  rw [List.forall_mem_append]

theorem clean_nil : Clean [] := fun _ h => absurd h List.not_mem_nil

namespace Grammar

/-- What is known of a long name. -/
def longOf (G : Grammar) (name : Arg) : Option (Int × Takes) := (G.long.getD fun _ => none) name

/-- How short options are written behind a dash, with the argument that follows: flags, and at the end one that may have
an argument. -/
inductive Bundle (G : Grammar) : List Event → Arg → Option Arg → Prop
  | bare {c : UInt8} {code : Int} {takes : Takes} (h : G.short c = some (code, takes)) (ht : takes ≠ .required) :
      Bundle G [.option code none] [c] none
  | joined {c : UInt8} {code : Int} {takes : Takes} {arg : Arg} (h : G.short c = some (code, takes))
    (ht : takes ≠ .none) (harg : arg ≠ []) : Bundle G [.option code (some arg)] (c :: arg) none
  | next {c : UInt8} {code : Int} (arg : Arg) (h : G.short c = some (code, .required)) :
      Bundle G [.option code (some arg)] [c] (some arg)
  | flag {c : UInt8} {code : Int} {events : List Event} {chars : Arg} {next : Option Arg}
      (h : G.short c = some (code, .none)) (hrest : Bundle G events chars next) :
      Bundle G (.option code none :: events) (c :: chars) next

/-- How a long option is written behind two dashes, with the argument that follows. -/
inductive Spelling (G : Grammar) : Event → Arg → Option Arg → Prop
  | bare {name : Arg} {code : Int} {takes : Takes} (h : G.longOf name = some (code, takes)) (ht : takes ≠ .required)
      (hname : equals ∉ name) (hne : name ≠ []) : Spelling G (.option code none) name none
  | joined {name : Arg} {code : Int} {takes : Takes} (arg : Arg) (h : G.longOf name = some (code, takes))
      (ht : takes ≠ .none) (hname : equals ∉ name) : Spelling G (.option code (some arg)) (name ++ equals :: arg) none
  | next {name : Arg} {code : Int} (arg : Arg) (h : G.longOf name = some (code, .required)) (hname : equals ∉ name)
      (hne : name ≠ []) : Spelling G (.option code (some arg)) name (some arg)

/-- A command line, with the options that it sets in their order and the other arguments in theirs. -/
inductive Line (G : Grammar) : List Event → List Arg → List Arg → Prop
  | nil : Line G [] [] []
  | stop (left : List Arg) : Line G [] left ([dash, dash] :: left)
  | positional {a : Arg} {events : List Event} {left args : List Arg} (h : G.classify a = .positional)
      (hrest : Line G events left args) : Line G events (a :: left) (a :: args)
  | short {chars : Arg} {next : Option Arg} {es events : List Event} {left args : List Arg} (h : G.Bundle es chars next)
      (hdash : chars.head? ≠ some dash) (hrest : Line G events left args) :
      Line G (es ++ events) left ((dash :: chars) :: (next.toList ++ args))
  | long {text : Arg} {next : Option Arg} {e : Event} {events : List Event} {left args : List Arg}
      (h : G.Spelling e text next) (hrest : Line G events left args) :
      Line G (e :: events) left ((dash :: dash :: text) :: (next.toList ++ args))

variable {G : Grammar} {events : List Event} {chars text : Arg} {next : Option Arg} {e : Event} {args left : List Arg}

/-! ## What is written is read -/

theorem Bundle.ne_nil (h : G.Bundle events chars next) : chars ≠ [] := by
  cases h <;> exact List.cons_ne_nil _ _

/-- What a bundle comes to, with the argument that its last option waits for. -/
theorem Bundle.cluster (h : G.Bundle events chars next) :
    Clean events ∧ (next = none ∧ G.cluster chars = (events, none) ∨
      ∃ es code name arg, next = some arg ∧ G.cluster chars = (es, some (code, name)) ∧
        events = es ++ [.option code (some arg)]) := by
  have hclean : ∀ code arg, Clean [.option code arg] := by
    intro code arg e he
    rw [List.mem_singleton.1 he]
    rfl
  induction h with
  | bare h ht =>
    rename_i code takes
    refine ⟨hclean _ _, .inl ⟨rfl, ?_⟩⟩
    rw [Grammar.cluster, h]
    cases takes with
    | none => rfl
    | required => exact absurd rfl ht
    | optional => rfl
  | joined h ht harg =>
    rename_i code takes arg
    refine ⟨hclean _ _, .inl ⟨rfl, ?_⟩⟩
    rw [Grammar.cluster, h]
    cases takes with
    | none => exact absurd rfl ht
    | required => exact if_neg harg
    | optional =>
      dsimp only
      rw [if_neg harg]
  | next arg h =>
    rename_i c code
    refine ⟨hclean _ _, .inr ⟨[], code, [c], arg, rfl, ?_, rfl⟩⟩
    rw [Grammar.cluster, h]
    exact if_pos rfl
  | flag h hrest ih =>
    obtain ⟨hc, hcluster⟩ := ih
    refine ⟨clean_cons.2 ⟨rfl, hc⟩, ?_⟩
    rw [Grammar.cluster, h]
    dsimp only
    rcases hcluster with ⟨hnone, hcluster⟩ | ⟨es, code, name, arg, hsome, hcluster, heq⟩
    · exact .inl ⟨hnone, by rw [hcluster]⟩
    · refine .inr ⟨_ :: es, code, name, arg, hsome, by rw [hcluster], ?_⟩
      rw [heq]
      rfl

theorem takeWhile_name {name : Arg} (arg : Arg) (h : equals ∉ name) :
    (name ++ equals :: arg).takeWhile (· ≠ equals) = name ∧
      (name ++ equals :: arg).dropWhile (· ≠ equals) = equals :: arg := by
  have hall : ∀ c ∈ name, decide (c ≠ equals) = true := by
    intro c hc
    simpa using fun heq : c = equals => h (heq ▸ hc)
  constructor
  · rw [List.takeWhile_append_of_pos hall, List.takeWhile_cons_of_neg (by simp), List.append_nil]
  · rw [List.dropWhile_append_of_pos hall, List.dropWhile_cons_of_neg (by simp)]

theorem takeWhile_bare {name : Arg} (h : equals ∉ name) :
    name.takeWhile (· ≠ equals) = name ∧ name.dropWhile (· ≠ equals) = [] := by
  have hall : ∀ c ∈ name, decide (c ≠ equals) = true := by
    intro c hc
    simpa using fun heq : c = equals => h (heq ▸ hc)
  exact ⟨List.takeWhile_eq_self_iff.2 hall, List.dropWhile_eq_nil_iff.2 hall⟩

theorem Spelling.longOption (h : G.Spelling e text next) :
    e.isError = false ∧ (next = none ∧ G.longOption text = ([e], none) ∨
      ∃ code name arg, next = some arg ∧ G.longOption text = ([], some (code, name)) ∧
        e = .option code (some arg)) := by
  unfold Grammar.longOption
  cases h with
  | bare h ht hname hne =>
    rename_i code takes
    obtain ⟨htake, hdrop⟩ := takeWhile_bare hname
    unfold longOf at h
    refine ⟨rfl, .inl ⟨rfl, ?_⟩⟩
    dsimp only
    rw [htake, hdrop, h]
    cases takes with
    | none => rfl
    | required => exact absurd rfl ht
    | optional => rfl
  | joined arg h ht hname =>
    rename_i name code takes
    obtain ⟨htake, hdrop⟩ := takeWhile_name arg hname
    unfold longOf at h
    refine ⟨rfl, .inl ⟨rfl, ?_⟩⟩
    dsimp only
    rw [htake, hdrop, h]
    cases takes with
    | none => exact absurd rfl ht
    | required => rfl
    | optional => rfl
  | next arg h hname hne =>
    obtain ⟨htake, hdrop⟩ := takeWhile_bare hname
    unfold longOf at h
    refine ⟨rfl, .inr ⟨_, text, arg, rfl, ?_, rfl⟩⟩
    dsimp only
    rw [htake, hdrop, h]
    rfl

theorem Line.scan (h : G.Line events left args) : Clean events ∧ G.scan args = (events, left) := by
  induction h with
  | nil => exact ⟨clean_nil, rfl⟩
  | stop left => exact ⟨clean_nil, scan_stop left (by simp [classify])⟩
  | positional h hrest ih =>
    refine ⟨ih.1, ?_⟩
    rw [scan_positional _ h, ih.2]
  | short h hdash hrest ih =>
    rename_i chars next es events left args
    obtain ⟨c, cs, rfl⟩ := List.exists_cons_of_ne_nil h.ne_nil
    have hc : c ≠ dash := by simpa using hdash
    have hkind : G.classify (dash :: c :: cs) = .short (c :: cs) := by simp [classify, hc]
    obtain ⟨hclean, hcluster⟩ := h.cluster
    refine ⟨clean_append.2 ⟨hclean, ih.1⟩, ?_⟩
    rw [scan_short _ hkind]
    rcases hcluster with ⟨rfl, hcluster⟩ | ⟨es', code, name, arg, rfl, hcluster, rfl⟩
    · rw [hcluster]
      dsimp only [resume, Option.toList, List.nil_append]
      rw [ih.2]
    · rw [hcluster]
      dsimp only [resume, Option.toList, List.cons_append, List.nil_append]
      rw [ih.2, List.append_assoc]
      rfl
  | long h hrest ih =>
    rename_i text next e events left args
    have hkind : G.classify (dash :: dash :: text) = .long text := by
      have hlong : G.long.isSome = true ∧ text ≠ [] := by
        have hsome : ∀ {name code takes}, G.longOf name = some (code, takes) → G.long.isSome = true := by
          intro name code takes hn
          unfold longOf at hn
          cases hl : G.long with
          | none =>
            rw [hl] at hn
            cases hn
          | some long => rfl
        cases h with
        | bare h ht hname hne => exact ⟨hsome h, hne⟩
        | joined arg h ht hname => exact ⟨hsome h, by simp⟩
        | next arg h hname hne => exact ⟨hsome h, hne⟩
      simp [classify, hlong.1, hlong.2]
    obtain ⟨hclean, hoption⟩ := h.longOption
    refine ⟨clean_cons.2 ⟨hclean, ih.1⟩, ?_⟩
    rw [scan_long _ hkind]
    rcases hoption with ⟨rfl, hoption⟩ | ⟨code, name, arg, rfl, hoption, rfl⟩
    · rw [hoption]
      dsimp only [resume, Option.toList, List.nil_append]
      rw [ih.2]
      rfl
    · rw [hoption]
      dsimp only [resume, Option.toList, List.cons_append, List.nil_append]
      rw [ih.2]

/-! ## What is read was written -/

/-- A cluster without errors is a bundle, if the argument its last option waits for is there. -/
theorem bundle_of_cluster : ∀ {chars : Arg}, chars ≠ [] → Clean (G.cluster chars).1 →
    ((G.cluster chars).2 = none → G.Bundle (G.cluster chars).1 chars none) ∧
    ∀ code name arg, (G.cluster chars).2 = some (code, name) →
      G.Bundle ((G.cluster chars).1 ++ [.option code (some arg)]) chars (some arg)
  | [], hne, _ => absurd rfl hne
  | c :: rest, _, hclean => by
    rw [cluster] at hclean ⊢
    cases hc : G.short c with
    | none =>
      rw [hc] at hclean
      have herror := hclean _ List.mem_cons_self
      cases herror
    | some option =>
      obtain ⟨code, takes⟩ := option
      rw [hc] at hclean
      cases takes with
      | none =>
        dsimp only at hclean ⊢
        by_cases hnil : rest = []
        · subst hnil
          exact ⟨fun _ => .bare hc (by decide), fun _ _ _ h => by cases h⟩
        · obtain ⟨hnone, hsome⟩ := bundle_of_cluster hnil (clean_cons.1 hclean).2
          exact ⟨fun h => .flag hc (hnone h), fun code name arg h => .flag hc (hsome code name arg h)⟩
      | required =>
        dsimp only
        by_cases hnil : rest = []
        · subst hnil
          rw [if_pos rfl]
          refine ⟨(fun h => by cases h), fun code' name arg h => ?_⟩
          cases h
          exact .next arg hc
        · rw [if_neg hnil]
          exact ⟨fun _ => .joined hc (by decide) hnil, fun _ _ _ h => by cases h⟩
      | optional =>
        dsimp only
        refine ⟨fun _ => ?_, fun _ _ _ h => by cases h⟩
        by_cases hnil : rest = []
        · subst hnil
          exact .bare hc (by decide)
        · rw [if_neg hnil]
          exact .joined hc (by decide) hnil

/-- A long option without an error is spelled, if the argument it waits for is there. -/
theorem spelling_of_longOption (hne : text ≠ []) (hclean : Clean (G.longOption text).1) :
    (∀ e, G.longOption text = ([e], none) → G.Spelling e text none) ∧
    ∀ code name arg, G.longOption text = ([], some (code, name)) →
      G.Spelling (.option code (some arg)) text (some arg) := by
  have hname : equals ∉ text.takeWhile (· ≠ equals) := fun h => by simpa using List.mem_takeWhile_imp h
  have hsplit := List.takeWhile_append_dropWhile (p := (· ≠ equals)) (l := text)
  have hdrop : text.dropWhile (· ≠ equals) = [] ∨ ∃ arg, text.dropWhile (· ≠ equals) = equals :: arg := by
    cases hd : text.dropWhile (· ≠ equals) with
    | nil => exact .inl rfl
    | cons c arg =>
      have hc := List.head_dropWhile_not (fun x => decide (x ≠ equals)) (hd ▸ List.cons_ne_nil c arg)
      simp only [hd, List.head_cons, decide_eq_false_iff_not, not_not] at hc
      exact .inr ⟨arg, by rw [hc]⟩
  unfold longOption at hclean ⊢
  dsimp only at hclean ⊢
  generalize htake : text.takeWhile (· ≠ equals) = name at hname hsplit hclean ⊢
  rcases hdrop with hdrop | ⟨arg, hdrop⟩
  · -- there is no `=`
    rw [hdrop, List.append_nil] at hsplit
    subst hsplit
    rw [hdrop] at hclean ⊢
    cases hlong : (G.long.getD fun _ => none) name with
    | none =>
      rw [hlong] at hclean
      have herror := hclean _ List.mem_cons_self
      cases herror
    | some option =>
      obtain ⟨code, takes⟩ := option
      cases takes with
      | none =>
        refine ⟨fun e h => ?_, fun _ _ _ h => by cases h⟩
        cases h
        exact .bare hlong (by decide) hname hne
      | required =>
        refine ⟨(fun e h => by cases h), fun code' name' arg h => ?_⟩
        cases h
        exact .next arg hlong hname hne
      | optional =>
        refine ⟨fun e h => ?_, fun _ _ _ h => by cases h⟩
        cases h
        exact .bare hlong (by decide) hname hne
  · rw [hdrop] at hsplit hclean ⊢
    cases hlong : (G.long.getD fun _ => none) name with
    | none =>
      rw [hlong] at hclean
      have herror := hclean _ List.mem_cons_self
      cases herror
    | some option =>
      obtain ⟨code, takes⟩ := option
      cases takes with
      | none =>
        rw [hlong] at hclean
        have herror := hclean _ List.mem_cons_self
        cases herror
      | required =>
        refine ⟨fun e h => ?_, fun _ _ _ h => by cases h⟩
        cases h
        exact hsplit ▸ .joined arg hlong (by decide) hname
      | optional =>
        refine ⟨fun e h => ?_, fun _ _ _ h => by cases h⟩
        cases h
        exact hsplit ▸ .joined arg hlong (by decide) hname

theorem line_of_scan : ∀ (n : Nat) (args : List Arg), args.length ≤ n → Clean (G.scan args).1 →
    G.Line (G.scan args).1 (G.scan args).2 args
  | _, [], _, _ => .nil
  | n + 1, a :: args, hle, hclean => by
    have hlength : args.length ≤ n := Nat.le_of_succ_le_succ hle
    have ih := line_of_scan n
    cases hkind : G.classify a with
    | stop =>
      rw [scan_stop args hkind]
      have ha : a = [dash, dash] := by
        unfold classify at hkind
        split at hkind
        · split_ifs at hkind
          simp_all
        · cases hkind
      rw [ha]
      exact .stop args
    | positional =>
      rw [scan_positional args hkind] at hclean ⊢
      exact .positional hkind (ih args hlength hclean)
    | short chars =>
      rw [scan_short args hkind] at hclean ⊢
      obtain ⟨ha, hdash⟩ : a = dash :: chars ∧ chars.head? ≠ some dash := by
        unfold classify at hkind
        split at hkind
        · split_ifs at hkind
          cases hkind
          simp_all
        · cases hkind
      obtain ⟨hclean, hresume⟩ := clean_append.1 hclean
      obtain ⟨hnone, hsome⟩ := bundle_of_cluster (ne_nil_of_short hkind) hclean
      rw [ha]
      cases hwaits : (G.cluster chars).2 with
      | none =>
        rw [hwaits] at hresume
        exact .short (hnone hwaits) hdash (ih args hlength hresume)
      | some waits =>
        obtain ⟨code, name⟩ := waits
        rw [hwaits] at hresume
        cases args with
        | nil =>
          have herror := hresume _ List.mem_cons_self
          cases herror
        | cons arg args =>
          have hline := Line.short (hsome code name arg hwaits) hdash
            (ih args (Nat.le_of_succ_le hlength) (clean_cons.1 hresume).2)
          rw [List.append_assoc] at hline
          exact hline
    | long text =>
      rw [scan_long args hkind] at hclean ⊢
      obtain ⟨ha, hne⟩ : a = dash :: dash :: text ∧ text ≠ [] := by
        unfold classify at hkind
        split at hkind
        · split_ifs at hkind
          cases hkind
          simp_all
        · cases hkind
      obtain ⟨hclean, hresume⟩ := clean_append.1 hclean
      obtain ⟨hnone, hsome⟩ := spelling_of_longOption hne hclean
      rw [ha]
      rcases longOption_cases G text with ⟨e, hoption⟩ | ⟨code, name, hoption⟩
      · rw [hoption] at hresume ⊢
        exact .long (hnone e hoption) (ih args hlength hresume)
      · rw [hoption] at hresume ⊢
        cases args with
        | nil =>
          have herror := hresume _ List.mem_cons_self
          cases herror
        | cons arg args =>
          exact .long (hsome code name arg hoption) (ih args (Nat.le_of_succ_le hlength) (clean_cons.1 hresume).2)

/-- The scan finds no error just in the command lines of the grammar, and reads them as they are written. -/
theorem scan_eq_iff_line : Clean events ∧ G.scan args = (events, left) ↔ G.Line events left args := by
  refine ⟨?_, Line.scan⟩
  rintro ⟨hclean, hscan⟩
  have hline := line_of_scan args.length args (Nat.le_refl _) (by rw [hscan]; exact hclean)
  rwa [hscan] at hline

/-! ## What is told -/

/-- An option of the grammar, with an argument as it takes one. -/
def IsOption (G : Grammar) (code : Int) (arg : Option Arg) : Prop :=
  ∃ takes, ((∃ c, G.short c = some (code, takes)) ∨ ∃ name, G.longOf name = some (code, takes)) ∧
    (takes = .required → arg ≠ none) ∧ (takes = .none → arg = none)

/-- Every event but an error is an option of the grammar. -/
def Told (G : Grammar) : Event → Prop
  | .option code arg => G.IsOption code arg
  | .error .. => True

theorem told_single (h : G.Told e) : ∀ e' ∈ [e], G.Told e' := fun e' he' => by
  rw [List.mem_singleton.1 he']
  exact h

/-- What is told of a cluster, and of the argument that its last option waits for. -/
theorem told_cluster : ∀ chars : Arg, (∀ e ∈ (G.cluster chars).1, G.Told e) ∧
    ∀ code name, (G.cluster chars).2 = some (code, name) → ∀ arg, G.IsOption code (some arg)
  | [] => ⟨fun _ h => absurd h List.not_mem_nil, fun _ _ h => by cases h⟩
  | c :: rest => by
    rw [cluster]
    cases hc : G.short c with
    | none => exact ⟨told_single trivial, fun _ _ h => by cases h⟩
    | some option =>
      obtain ⟨code, takes⟩ := option
      cases takes with
      | none =>
        obtain ⟨htold, hwaits⟩ := told_cluster rest
        exact ⟨List.forall_mem_cons.2 ⟨⟨_, .inl ⟨c, hc⟩, (fun h => by cases h), fun _ => rfl⟩, htold⟩, hwaits⟩
      | required =>
        dsimp only
        split_ifs
        · refine ⟨(fun _ h => absurd h List.not_mem_nil), fun code' name h arg => ?_⟩
          cases h
          exact ⟨_, .inl ⟨c, hc⟩, (fun _ => Option.some_ne_none arg), fun h => by cases h⟩
        · refine ⟨told_single ⟨_, .inl ⟨c, hc⟩, (fun _ => Option.some_ne_none _), fun h => by cases h⟩, ?_⟩
          exact fun _ _ h => by cases h
      | optional =>
        refine ⟨told_single ⟨_, .inl ⟨c, hc⟩, (fun h => by cases h), fun h => by cases h⟩, ?_⟩
        exact fun _ _ h => by cases h

theorem told_longOption (text : Arg) : (∀ e ∈ (G.longOption text).1, G.Told e) ∧
    ∀ code name, (G.longOption text).2 = some (code, name) → ∀ arg, G.IsOption code (some arg) := by
  unfold longOption
  dsimp only
  cases hlong : (G.long.getD fun _ => none) (text.takeWhile (· ≠ equals)) with
  | none => exact ⟨told_single trivial, fun _ _ h => by cases h⟩
  | some option =>
    obtain ⟨code, takes⟩ := option
    cases takes with
    | none =>
      dsimp only
      split_ifs
      · exact ⟨told_single trivial, fun _ _ h => by cases h⟩
      · refine ⟨told_single ⟨_, .inr ⟨_, hlong⟩, (fun h => by cases h), fun _ => rfl⟩, ?_⟩
        exact fun _ _ h => by cases h
    | required =>
      dsimp only
      split_ifs with harg
      · refine ⟨told_single ⟨_, .inr ⟨_, hlong⟩, (fun _ h => ?_), fun h => by cases h⟩, fun _ _ h => by cases h⟩
        rw [h] at harg
        cases harg
      · refine ⟨(fun _ h => absurd h List.not_mem_nil), fun code' name h arg => ?_⟩
        cases h
        exact ⟨_, .inr ⟨_, hlong⟩, (fun _ => Option.some_ne_none arg), fun h => by cases h⟩
    | optional =>
      refine ⟨told_single ⟨_, .inr ⟨_, hlong⟩, (fun h => by cases h), fun h => by cases h⟩, ?_⟩
      exact fun _ _ h => by cases h

theorem told_scan : ∀ (n : Nat) (args : List Arg), args.length ≤ n → ∀ e ∈ (G.scan args).1, G.Told e
  | _, [], _ => fun _ h => absurd h List.not_mem_nil
  | n + 1, a :: args, hle => by
    have hlength : args.length ≤ n := Nat.le_of_succ_le_succ hle
    have ih := told_scan n
    have hresume : ∀ waits : Option (Int × Arg),
        (∀ code name, waits = some (code, name) → ∀ arg, G.IsOption code (some arg)) →
        ∀ e ∈ (G.resume waits args).1, G.Told e := by
      intro waits hwaits
      rcases waits with _ | ⟨code, name⟩
      · exact ih args hlength
      · cases args with
        | nil => exact told_single trivial
        | cons arg args =>
          exact List.forall_mem_cons.2 ⟨hwaits code name rfl arg, ih args (Nat.le_of_succ_le hlength)⟩
    cases hkind : G.classify a with
    | stop =>
      rw [scan_stop args hkind]
      exact fun _ h => absurd h List.not_mem_nil
    | positional =>
      rw [scan_positional args hkind]
      exact ih args hlength
    | short chars =>
      rw [scan_short args hkind]
      obtain ⟨htold, hwaits⟩ := told_cluster (G := G) chars
      exact List.forall_mem_append.2 ⟨htold, hresume _ hwaits⟩
    | long text =>
      rw [scan_long args hkind]
      obtain ⟨htold, hwaits⟩ := told_longOption (G := G) text
      exact List.forall_mem_append.2 ⟨htold, hresume _ hwaits⟩

end Grammar

end OptionScan
