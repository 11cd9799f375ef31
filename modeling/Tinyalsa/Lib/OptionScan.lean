/-
What the arguments on a command line say: short options in clusters, long options, the arguments of both, and the
strings that are neither. One pass over the arguments gives the options in their order, and what is left over.
-/
import Mathlib.Tactic
import Tinyalsa.Lib.Loop

namespace OptionScan

/-- An argument, without its terminating NUL. -/
abbrev Arg := List UInt8

/-- `'-'`. -/
def dash : UInt8 := 45
/-- `'='`. -/
def equals : UInt8 := 61

/-- Whether an option takes an argument. -/
inductive Takes
  | none | required | optional
  deriving DecidableEq, Repr

/-- The options there are: the code of each, and whether it takes an argument. Without `long`, there are no long
options. -/
structure Grammar where
  short : UInt8 → Option (Int × Takes)
  long : Option (Arg → Option (Int × Takes)) := .none

inductive ErrorKind
  | invalid | missing | tooMany
  deriving DecidableEq, Repr

/-- What a reader of the options is told: an option and its argument, or what is wrong with a text. -/
inductive Event
  | option (code : Int) (arg : Option Arg)
  | error (kind : ErrorKind) (data : Arg)
  deriving DecidableEq, Repr

def Event.isError : Event → Bool
  | .option .. => false
  | .error .. => true

/-- The kinds of arguments: `--`, the characters behind a dash, the text behind two, and any other string. -/
inductive Kind
  | stop
  | short (chars : Arg)
  | long (text : Arg)
  | positional
  deriving DecidableEq, Repr

namespace Grammar

variable (G : Grammar)

def classify : Arg → Kind
  | a :: b :: chars =>
    if a ≠ dash then .positional
    else if b ≠ dash then .short (b :: chars)
    else if chars = [] then .stop
    else if G.long.isSome then .long chars
    else .positional
  | _ => .positional

/-- The options in a cluster; and the last one, if it is still without the argument it needs. -/
def cluster : Arg → List Event × Option (Int × Arg)
  | [] => ([], none)
  | c :: rest =>
    match G.short c with
    | none => ([.error .invalid [c]], none)
    | some (code, .none) => (.option code none :: (cluster rest).1, (cluster rest).2)
    | some (code, .required) => if rest = [] then ([], some (code, [c])) else ([.option code (some rest)], none)
    | some (code, .optional) => ([.option code (if rest = [] then none else some rest)], none)

/-- A long option: the event, or the option that is still without the argument it needs. -/
def longOption (text : Arg) : List Event × Option (Int × Arg) :=
  let name := text.takeWhile (· ≠ equals)
  let arg := (text.dropWhile (· ≠ equals)).tail?
  match (G.long.getD fun _ => none) name with
  | none => ([.error .invalid text], none)
  | some (code, .none) => if arg.isSome then ([.error .tooMany name], none) else ([.option code none], none)
  | some (code, .required) => if arg.isSome then ([.option code arg], none) else ([], some (code, name))
  | some (code, .optional) => ([.option code arg], none)

/-- One pass over the arguments: what a reader of the options is told, and the arguments that are left over. -/
def scan : List Arg → List Event × List Arg
  | [] => ([], [])
  | a :: args =>
    let options : List Event × Option (Int × Arg) → List Event × List Arg
      | (events, none) => (events ++ (scan args).1, (scan args).2)
      | (events, some (code, name)) =>
        match args with
        | [] => (events ++ [.error .missing name], [])
        | next :: args => (events ++ .option code (some next) :: (scan args).1, (scan args).2)
    match G.classify a with
    | .stop => ([], args)
    | .positional => ((scan args).1, a :: (scan args).2)
    | .short chars => options (G.cluster chars)
    | .long text => options (G.longOption text)

/-- The scan behind a group of options, the last of which may still need its argument. -/
def resume : Option (Int × Arg) → List Arg → List Event × List Arg
  | none, args => G.scan args
  | some (_, name), [] => ([.error .missing name], [])
  | some (code, _), next :: args => (.option code (some next) :: (G.scan args).1, (G.scan args).2)

/-! ## The scan, by the first argument -/

section

variable {G} {a : Arg} {chars text : Arg} (args : List Arg)

theorem scan_stop (h : G.classify a = .stop) : G.scan (a :: args) = ([], args) := by
  rw [scan, h]

theorem scan_positional (h : G.classify a = .positional) :
    G.scan (a :: args) = ((G.scan args).1, a :: (G.scan args).2) := by
  rw [scan, h]

theorem scan_short (h : G.classify a = .short chars) :
    G.scan (a :: args) =
      ((G.cluster chars).1 ++ (G.resume (G.cluster chars).2 args).1, (G.resume (G.cluster chars).2 args).2) := by
  rw [scan, h]
  dsimp only
  rcases G.cluster chars with ⟨events, _ | ⟨code, name⟩⟩
  · rfl
  · cases args <;> rfl

theorem scan_long (h : G.classify a = .long text) :
    G.scan (a :: args) =
      ((G.longOption text).1 ++ (G.resume (G.longOption text).2 args).1, (G.resume (G.longOption text).2 args).2) := by
  rw [scan, h]
  dsimp only
  rcases G.longOption text with ⟨events, _ | ⟨code, name⟩⟩
  · rfl
  · cases args <;> rfl

/-- A cluster is not empty. -/
theorem ne_nil_of_short (h : G.classify a = .short chars) : chars ≠ [] := by
  unfold classify at h
  split at h
  · split_ifs at h
    cases h
    exact List.cons_ne_nil _ _
  · cases h

/-- A long option is one event, or waits for its argument. -/
theorem longOption_cases (G : Grammar) (text : Arg) :
    (∃ e, G.longOption text = ([e], none)) ∨ ∃ code name, G.longOption text = ([], some (code, name)) := by
  unfold longOption
  dsimp only
  split
  · exact .inl ⟨_, rfl⟩
  · split
    · exact .inl ⟨_, rfl⟩
    · exact .inl ⟨_, rfl⟩
  · split
    · exact .inl ⟨_, rfl⟩
    · exact .inr ⟨_, _, rfl⟩
  · exact .inl ⟨_, rfl⟩

end

/-! ## Reading one option at a time -/

/-- What a reader does in one call: what it tells, if it is not at the end, how many arguments it takes, and where it
is in a cluster then. -/
structure Call where
  event : Option Event
  taken : Nat
  subopt : Nat
  deriving DecidableEq, Repr

/-- The next option is that of a cluster; behind an invalid one, the place in the cluster is not reset. -/
def callShort (subopt : Nat) : Arg → Option Arg → Call
  | [], _ => ⟨some (.error .invalid []), 1, subopt⟩
  | c :: rest, next =>
    match G.short c with
    | none => ⟨some (.error .invalid [c]), 1, subopt⟩
    | some (code, .none) =>
      if rest = [] then ⟨some (.option code none), 1, 0⟩ else ⟨some (.option code none), 0, subopt + 1⟩
    | some (code, .required) =>
      if rest ≠ [] then ⟨some (.option code (some rest)), 1, 0⟩
      else
        match next with
        | some next => ⟨some (.option code (some next)), 2, 0⟩
        | none => ⟨some (.error .missing [c]), 1, 0⟩
    | some (code, .optional) => ⟨some (.option code (if rest = [] then none else some rest)), 1, 0⟩

def callLong (subopt : Nat) (text : Arg) (next : Option Arg) : Call :=
  match G.longOption text with
  | (events, none) => ⟨events.head?, 1, subopt⟩
  | (_, some (code, name)) =>
    match next with
    | some next => ⟨some (.option code (some next)), 2, subopt⟩
    | none => ⟨some (.error .missing name), 1, subopt⟩

/-- A call of a reader that is `subopt` characters into the first of the arguments. -/
def call (subopt : Nat) : List Arg → Call
  | [] => ⟨none, 0, subopt⟩
  | a :: args =>
    match G.classify a with
    | .stop => ⟨none, 1, subopt⟩
    | .positional => ⟨none, 0, subopt⟩
    | .short chars => G.callShort subopt (chars.drop subopt) args.head?
    | .long text => G.callLong subopt text args.head?

section

variable {G} {a : Arg} {chars text : Arg} (args : List Arg) (k : Nat)

theorem call_stop (h : G.classify a = .stop) : G.call k (a :: args) = ⟨none, 1, k⟩ := by
  rw [call, h]

theorem call_short (h : G.classify a = .short chars) :
    G.call k (a :: args) = G.callShort k (chars.drop k) args.head? := by
  rw [call, h]

theorem call_long (h : G.classify a = .long text) : G.call k (a :: args) = G.callLong k text args.head? := by
  rw [call, h]

end

end Grammar

/-! ## Users of a reader -/

section

variable {γ ρ : Type}

/-- What is to be done about each event, in their order, until it ends with a result. -/
def consume (body : γ → Event → γ ⊕ ρ) : γ → List Event → γ ⊕ ρ
  | g, [] => .inl g
  | g, e :: events =>
    match body g e with
    | .inl g => consume body g events
    | .inr r => .inr r

variable {body : γ → Event → γ ⊕ ρ} {g g' : γ} {r : ρ} {e : Event}

theorem consume_cons_inl (h : body g e = .inl g') (events : List Event) :
    consume body g (e :: events) = consume body g' events := by
  rw [consume, h]

theorem consume_cons_inr (h : body g e = .inr r) (events : List Event) : consume body g (e :: events) = .inr r := by
  rw [consume, h]

/-- A user that does not go on both after a flag and after an error: then it never goes on behind an error in the
middle of a cluster. -/
def StopsEarly (G : Grammar) (body : γ → Event → γ ⊕ ρ) : Prop :=
  (∀ g e g', e.isError → body g e ≠ .inl g') ∨
    ∀ g c code g', G.short c = some (code, .none) → body g (.option code none) ≠ .inl g'

/-- A reader of the options that moves the other arguments behind them: `At` relates its state to the arguments that
it has taken, those it has moved, those that are still to be read, and its place in a cluster. -/
structure Reader (G : Grammar) (body : γ → Event → γ ⊕ ρ) {σ : Type} (step : γ × σ → (γ × σ) ⊕ Option (ρ ⊕ γ × σ))
    (At : σ → List Arg → List Arg → List Arg → Nat → Prop) : Prop where
  /-- An argument that is no option is one of those that are moved. -/
  pass : ∀ {s taken moved a args}, At s taken moved (a :: args) 0 → G.classify a = .positional →
    At s taken (moved ++ [a]) args 0
  finish : ∀ {s taken moved args} (g : γ), At s taken moved args 0 → (G.call 0 args).event = none →
    (∀ a ∈ args.head?, G.classify a ≠ .positional) →
    ∃ s', step (g, s) = .inr (some (.inr (g, s'))) ∧
      At s' (taken ++ args.take (G.call 0 args).taken) moved (args.drop (G.call 0 args).taken) 0
  tell : ∀ {s taken moved args k e} (g : γ), At s taken moved args k → (G.call k args).event = some e →
    (∀ a ∈ args.head?, ∀ chars, G.classify a = .short chars → k < chars.length) →
    (∀ a ∈ args.head?, k ≠ 0 → ∃ chars, G.classify a = .short chars) →
    ∃ s',
      At s' (taken ++ args.take (G.call k args).taken) moved (args.drop (G.call k args).taken) (G.call k args).subopt ∧
      step (g, s) =
        match body g e with
        | .inl g => .inl (g, s')
        | .inr r => .inr (some (.inl r))

/-- The loop over a reader comes to what its user makes of the events: a result, or the end, where the arguments that
are left over stand behind those that were taken. -/
def Reads (body : γ → Event → γ ⊕ ρ) {σ : Type} (step : γ × σ → (γ × σ) ⊕ Option (ρ ⊕ γ × σ))
    (At : σ → List Arg → List Arg → List Arg → Nat → Prop) (g : γ) (s : σ) (taken all : List Arg)
    (events : List Event) (left : List Arg) : Prop :=
  match consume body g events with
  | .inr r => Loop.Leaves step (g, s) (some (.inl r))
  | .inl g' => ∃ s' taken' moved rest, Loop.Leaves step (g, s) (some (.inr (g', s'))) ∧ At s' taken' moved rest 0 ∧
      moved ++ rest = left ∧ taken <+: taken' ∧ (taken' ++ left).Perm all

namespace Reader

variable {G : Grammar} {σ : Type} {step : γ × σ → (γ × σ) ⊕ Option (ρ ⊕ γ × σ)}
  {At : σ → List Arg → List Arg → List Arg → Nat → Prop} {s : σ} {taken moved args all left : List Arg} {k t k' : Nat}
  {events : List Event} {a : Arg}

/-- The first event, and then the others. -/
theorem reads_tell (h : Reader G body step At) (hat : At s taken moved (a :: args) k)
    (hcall : G.call k (a :: args) = ⟨some e, t, k'⟩) (hk : k ≠ 0 → ∃ chars, G.classify a = .short chars)
    (hlt : ∀ cs, G.classify a = .short cs → k < cs.length) (hall : (taken ++ moved ++ a :: args).Perm all)
    (hnext : ∀ g' s' taken', body g e = .inl g' → At s' taken' moved ((a :: args).drop t) k' →
      (taken' ++ moved ++ (a :: args).drop t).Perm all → Reads body step At g' s' taken' all events left) :
    Reads body step At g s taken all (e :: events) left := by
  obtain ⟨s', hat', hstep⟩ := h.tell g hat (by rw [hcall])
    (fun b hb chars hchars => by cases hb; exact hlt chars hchars) (fun b hb hne => by cases hb; exact hk hne)
  rw [hcall] at hat'
  unfold Reads
  cases hb : body g e with
  | inr r =>
    rw [consume_cons_inr hb]
    rw [hb] at hstep
    exact Loop.leaves_of_inr hstep
  | inl g' =>
    rw [consume_cons_inl hb]
    rw [hb] at hstep
    have hperm : (taken ++ (a :: args).take t ++ moved ++ (a :: args).drop t).Perm all := by
      refine List.Perm.trans ?_ hall
      rw [List.append_assoc taken, List.append_assoc taken, List.append_assoc taken]
      refine List.Perm.append_left taken ?_
      refine (List.perm_append_comm.append_right _).trans ?_
      rw [List.append_assoc, List.take_append_drop]
    have hrest := hnext g' s' _ hb hat' hperm
    unfold Reads at hrest
    cases hc : consume body g' events with
    | inr r =>
      rw [hc] at hrest
      exact Loop.leaves_of_inl hstep hrest
    | inl g'' =>
      rw [hc] at hrest
      obtain ⟨s'', taken', moved', rest, hleaves, hat'', hleft, hpre, hperm'⟩ := hrest
      exact ⟨s'', taken', moved', rest, Loop.leaves_of_inl hstep hleaves, hat'', hleft,
        (List.prefix_append taken _).trans hpre, hperm'⟩

/-- At the end, the arguments that were moved stand before those behind `--`. -/
theorem reads_finish (h : Reader G body step At) (hat : At s taken moved args 0)
    (hcall : G.call 0 args = ⟨none, t, 0⟩) (hfront : ∀ a ∈ args.head?, G.classify a ≠ .positional)
    (hall : (taken ++ moved ++ args).Perm all) : Reads body step At g s taken all [] (moved ++ args.drop t) := by
  obtain ⟨s', hstep, hat'⟩ := h.finish g hat (by rw [hcall]) hfront
  rw [hcall] at hat'
  refine ⟨s', _, _, _, Loop.leaves_of_inr hstep, hat', rfl, List.prefix_append taken _, ?_⟩
  refine List.Perm.trans ?_ hall
  rw [List.append_assoc taken, List.append_assoc taken]
  refine List.Perm.append_left taken ?_
  rw [← List.append_assoc]
  refine (List.perm_append_comm.append_right _).trans ?_
  rw [List.append_assoc, List.take_append_drop]

/-- The induction hypothesis of the scan: the loop from where `args` are to be read. -/
def Scans (G : Grammar) (body : γ → Event → γ ⊕ ρ) (step : γ × σ → (γ × σ) ⊕ Option (ρ ⊕ γ × σ))
    (At : σ → List Arg → List Arg → List Arg → Nat → Prop) (args : List Arg) : Prop :=
  ∀ g s taken moved all, At s taken moved args 0 → (taken ++ moved ++ args).Perm all →
    Reads body step At g s taken all (G.scan args).1 (moved ++ (G.scan args).2)

/-- An option that takes no more than its own argument string, or also the next one. -/
theorem reads_resume (h : Reader G body step At) (hat : At s taken moved (a :: args) k) 
    (hk : k ≠ 0 → ∃ chars, G.classify a = .short chars) (hlt : ∀ cs, G.classify a = .short cs → k < cs.length)
    (hall : (taken ++ moved ++ a :: args).Perm all) {code : Int} {name : Arg}
    (hmissing : args = [] → G.call k [a] = ⟨some (.error .missing name), 1, 0⟩)
    (hnext : ∀ next rest, args = next :: rest → G.call k (a :: args) = ⟨some (.option code (some next)), 2, 0⟩)
    (ih : ∀ rest, rest.length ≤ args.length → Scans G body step At rest) :
    Reads body step At g s taken all (G.resume (some (code, name)) args).1
      (moved ++ (G.resume (some (code, name)) args).2) := by
  cases args with
  | nil =>
    refine h.reads_tell hat (hmissing rfl) hk hlt hall fun g' s' taken' _ hat' hperm => ?_
    exact ih [] (Nat.le_refl _) g' s' taken' moved all hat' hperm
  | cons next rest =>
    refine h.reads_tell hat (hnext next rest rfl) hk hlt hall fun g' s' taken' _ hat' hperm => ?_
    exact ih rest (Nat.le_succ _) g' s' taken' moved all hat' hperm

/-- The options of a cluster, from the one that is next. Only one that comes behind flags is not the first. -/
theorem reads_cluster (h : Reader G body step At) (hstops : StopsEarly G body) {chars : Arg}
    (hchars : G.classify a = .short chars) (ih : ∀ rest, rest.length ≤ args.length → Scans G body step At rest) :
    ∀ (cs : Arg) (k : Nat) (g : γ) (s : σ) (taken : List Arg), chars.drop k = cs → cs ≠ [] →
      (k ≠ 0 → ∀ g e g', e.isError → body g e ≠ .inl g') → At s taken moved (a :: args) k →
      (taken ++ moved ++ a :: args).Perm all →
      Reads body step At g s taken all ((G.cluster cs).1 ++ (G.resume (G.cluster cs).2 args).1)
        (moved ++ (G.resume (G.cluster cs).2 args).2)
  | [], _, _, _, _, _, hne, _, _, _ => absurd rfl hne
  | c :: cs, k, g, s, taken, hdrop, _, hk, hat, hall => by
    have hlt : ∀ cs, G.classify a = .short cs → k < cs.length := by
      intro cs' hcs'
      rw [hchars] at hcs'
      cases hcs'
      by_contra hge
      rw [List.drop_eq_nil_of_le (not_lt.1 hge)] at hdrop
      cases hdrop
    have hcall : G.call k (a :: args) = G.callShort k (c :: cs) args.head? := by
      rw [Grammar.call_short args k hchars, hdrop]
    -- the cluster ends with this option
    have hlast : ∀ e, G.call k (a :: args) = ⟨some e, 1, 0⟩ →
        Reads body step At g s taken all ([e] ++ (G.scan args).1) (moved ++ (G.scan args).2) := by
      intro e he
      refine h.reads_tell hat he (fun _ => ⟨_, hchars⟩) hlt hall fun g' s' taken' _ hat' hperm => ?_
      exact ih args (Nat.le_refl _) g' s' taken' moved all hat' hperm
    cases hc : G.short c with
    | none =>
      have he : G.call k (a :: args) = ⟨some (.error .invalid [c]), 1, k⟩ := by
        rw [hcall, Grammar.callShort, hc]
      rw [Grammar.cluster, hc]
      refine h.reads_tell hat he (fun _ => ⟨_, hchars⟩) hlt hall fun g' s' taken' hb hat' hperm => ?_
      -- the place in the cluster is not reset, but then the user has stopped
      have hzero : k = 0 := by
        by_contra hne
        exact hk hne g _ g' rfl hb
      subst hzero
      exact ih args (Nat.le_refl _) g' s' taken' moved all hat' hperm
    | some option =>
      obtain ⟨code, takes⟩ := option
      cases takes with
      | none =>
        rw [Grammar.cluster, hc]
        by_cases hnil : cs = []
        · subst hnil
          exact hlast _ (by rw [hcall, Grammar.callShort, hc]; rfl)
        · have he : G.call k (a :: args) = ⟨some (.option code none), 0, k + 1⟩ := by
            rw [hcall, Grammar.callShort, hc]
            exact if_neg hnil
          refine h.reads_tell hat he (fun _ => ⟨_, hchars⟩) hlt hall fun g' s' taken' hb hat' hperm => ?_
          refine reads_cluster h hstops hchars ih cs (k + 1) g' s' taken' ?_ hnil ?_ hat' hperm
          · rw [← List.tail_drop, hdrop]
            rfl
          · exact fun _ => hstops.resolve_right fun hflags => hflags g c code g' hc hb
      | required =>
        rw [Grammar.cluster, hc]
        dsimp only
        by_cases hnil : cs = []
        · subst hnil
          rw [if_pos rfl]
          refine h.reads_resume hat (fun _ => ⟨_, hchars⟩) hlt hall (fun hargs => ?_) (fun next rest hargs => ?_) ih
          · subst hargs
            rw [hcall, Grammar.callShort, hc]
            rfl
          · subst hargs
            rw [hcall, Grammar.callShort, hc]
            rfl
        · rw [if_neg hnil]
          refine hlast (.option code (some cs)) ?_
          rw [hcall, Grammar.callShort, hc]
          exact if_pos hnil
      | optional =>
        rw [Grammar.cluster, hc]
        exact hlast (.option code (if cs = [] then none else some cs)) (by rw [hcall, Grammar.callShort, hc])

theorem scans (h : Reader G body step At) (hstops : StopsEarly G body) :
    ∀ (n : Nat) (args : List Arg), args.length ≤ n → Scans G body step At args
  | _, [], _, g, s, taken, moved, all, hat, hall => by
    have hend := h.reads_finish (g := g) hat (t := 0) rfl (fun _ h => by cases h) hall
    exact hend
  | n + 1, a :: args, hle, g, s, taken, moved, all, hat, hall => by
    have ih : ∀ rest, rest.length ≤ args.length → Scans G body step At rest := fun rest hrest =>
      scans h hstops n rest (hrest.trans (Nat.le_of_succ_le_succ hle))
    cases hkind : G.classify a with
    | stop =>
      rw [Grammar.scan_stop args hkind]
      exact h.reads_finish hat (Grammar.call_stop args 0 hkind) (fun b hb => by cases hb; rw [hkind]; rintro ⟨⟩) hall
    | positional =>
      rw [Grammar.scan_positional args hkind]
      have hperm : (taken ++ (moved ++ [a]) ++ args).Perm all := by simpa using hall
      have hrest := ih args (Nat.le_refl _) g s taken (moved ++ [a]) all (h.pass hat hkind) hperm
      rw [List.append_assoc] at hrest
      exact hrest
    | short chars =>
      rw [Grammar.scan_short args hkind]
      exact h.reads_cluster hstops hkind ih chars 0 g s taken rfl (Grammar.ne_nil_of_short hkind)
        (fun hne => absurd rfl hne) hat hall
    | long text =>
      rw [Grammar.scan_long args hkind]
      have hlt : ∀ cs, G.classify a = .short cs → 0 < cs.length := fun cs hcs => by
        rw [hkind] at hcs
        cases hcs
      have hcall : G.call 0 (a :: args) = G.callLong 0 text args.head? :=
        Grammar.call_long args 0 hkind
      rcases Grammar.longOption_cases G text with ⟨e, hlong⟩ | ⟨code, name, hlong⟩
      · rw [hlong]
        have he : G.call 0 (a :: args) = ⟨some e, 1, 0⟩ := by
          rw [hcall, Grammar.callLong, hlong]
          rfl
        refine h.reads_tell hat he (fun hne => absurd rfl hne) hlt hall
          fun g' s' taken' _ hat' hperm => ?_
        exact ih args (Nat.le_refl _) g' s' taken' moved all hat' hperm
      · rw [hlong]
        refine h.reads_resume hat (fun hne => absurd rfl hne) hlt hall (fun hargs => ?_)
          (fun next rest hargs => ?_) ih
        · subst hargs
          rw [hcall, Grammar.callLong, hlong]
          rfl
        · subst hargs
          rw [hcall, Grammar.callLong, hlong]
          rfl

end Reader

end

end OptionScan
