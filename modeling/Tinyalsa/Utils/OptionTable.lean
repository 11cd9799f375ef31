/-
`optparse_long` over a table of options, and the loop of a tool over `optparse` or `optparse_long`: it meets the
options that one scan of the arguments finds, in that order, and leaves the other arguments in theirs.
-/
import Tinyalsa.Utils.Optparse

namespace Tinyalsa

open OptionScan

/-! ## The short options of a table -/

/-- The options of a table: of several with one name, the first. -/
def tableGrammar (longopts : List OptparseLong) : Grammar where
  short c := (longopts.find? fun l => l.shortname ≠ 0 ∧ l.shortname = charInt c).map fun l => (charInt c, l.argtype)
  long := some fun name => (longopts.find? fun l => l.longname = some name).map fun l => (l.shortname, l.argtype)

/-- What a table needs: short names that are ASCII characters other than the colon, and no more of them than the array
for the string of the options is made for. -/
structure GoodTable (longopts : List OptparseLong) : Prop where
  ascii : ∀ l ∈ longopts, 0 ≤ l.shortname ∧ l.shortname < 128 ∧ l.shortname ≠ 58
  fits : longopts.length ≤ 96

theorem charInt_of_lt {c : UInt8} (h : c.toNat < 128) : charInt c = c.toNat :=
  if_pos (UInt8.lt_iff_toNat_lt.2 h)

theorem charInt_inj {c d : UInt8} (h : charInt c = charInt d) : c = d := by
  have hc := c.toNat_lt
  have hd := d.toNat_lt
  rw [← UInt8.toNat_inj]
  unfold charInt at h
  split_ifs at h with h₁ h₂ h₂ <;> simp only [UInt8.lt_iff_toNat_lt, UInt8.reduceToNat] at h₁ h₂ <;> omega

theorem charInt_ofInt {n : Int} (h₀ : 0 ≤ n) (h₁ : n < 128) : charInt (UInt8.ofInt n) = n := by
  have hmod : (n % 2 ^ 8).toNat = n.toNat := by omega
  have htoNat : (UInt8.ofInt n).toNat = n.toNat := by
    unfold UInt8.ofInt
    rw [UInt8.toNat_ofNat', hmod, Nat.mod_eq_of_lt (by omega)]
  rw [charInt_of_lt (by omega), htoNat, Int.toNat_of_nonneg h₀]

section

variable {longopts : List OptparseLong} {l : OptparseLong} {c : UInt8}

theorem GoodTable.tail (h : GoodTable (l :: longopts)) : GoodTable longopts :=
  ⟨fun l' hl' => h.ascii l' (List.mem_cons_of_mem l hl'), (Nat.le_succ _).trans h.fits⟩

theorem fromLong_cons_zero (h : l.shortname = 0) : optparseFromLong (l :: longopts) = optparseFromLong longopts := by
  unfold optparseFromLong
  rw [List.flatMap_cons, if_neg (not_not.2 h), List.nil_append]

theorem fromLong_cons (h : l.shortname ≠ 0) :
    optparseFromLong (l :: longopts) =
      UInt8.ofInt l.shortname :: (List.replicate (argtypeValue l.argtype) colonChar ++ optparseFromLong longopts) := by
  unfold optparseFromLong
  rw [List.flatMap_cons, if_pos h]
  rfl

/-- The string does not start with a colon. -/
theorem fromLong_head : ∀ {longopts : List OptparseLong}, GoodTable longopts →
    (optparseFromLong longopts)[0]? ≠ some colonChar
  | [], _ => by rintro ⟨⟩
  | l :: longopts, h => by
    obtain ⟨h₀, h₁, hcolon⟩ := h.ascii l List.mem_cons_self
    by_cases hzero : l.shortname = 0
    · rw [fromLong_cons_zero hzero]
      exact fromLong_head h.tail
    · rw [fromLong_cons hzero, List.getElem?_cons_zero]
      intro heq
      refine hcolon ?_
      rw [← charInt_ofInt h₀ h₁, Option.some.inj heq]
      rfl

/-- Each option is found in the string as it is in the table. -/
theorem argtype_fromLong (hcolon : c ≠ colonChar) : ∀ {longopts : List OptparseLong}, GoodTable longopts →
    optparseArgtype (optparseFromLong longopts) c =
      (longopts.find? fun l => l.shortname ≠ 0 ∧ l.shortname = charInt c).map (·.argtype)
  | [], _ => if_neg hcolon
  | l :: longopts, h => by
    obtain ⟨h₀, h₁, -⟩ := h.ascii l List.mem_cons_self
    have ih := argtype_fromLong hcolon h.tail
    have hhead := fromLong_head h.tail
    by_cases hzero : l.shortname = 0
    · rw [fromLong_cons_zero hzero, List.find?_cons_of_neg (by simp [hzero]), ih]
    have hchar := charInt_ofInt h₀ h₁
    unfold optparseArgtype at ih ⊢
    rw [if_neg hcolon] at ih ⊢
    rw [fromLong_cons hzero]
    by_cases hc : UInt8.ofInt l.shortname = c
    · rw [List.find?_cons_of_pos (by simp [hzero, ← hc, hchar]), List.dropWhile_cons_of_neg (by simp [hc]),
        Option.map_some]
      cases l.argtype with
      | none => exact if_neg hhead
      | required => exact (if_pos rfl).trans (if_neg hhead)
      | optional => rfl
    · have hne : ¬ (l.shortname ≠ 0 ∧ l.shortname = charInt c) := fun heq => hc (charInt_inj (hchar.trans heq.2))
      rw [List.find?_cons_of_neg (by simpa using hne), List.dropWhile_cons_of_pos (by simpa using hc),
        List.dropWhile_append_of_pos]
      · exact ih
      · intro d hd
        rw [List.eq_of_mem_replicate hd]
        simpa using Ne.symm hcolon

theorem sameShort_table (h : GoodTable longopts) : SameShort (tableGrammar longopts) (optparseFromLong longopts) := by
  intro c _
  by_cases hcolon : c = colonChar
  · subst hcolon
    have hnone : longopts.find? (fun l => l.shortname ≠ 0 ∧ l.shortname = charInt colonChar) = none := by
      rw [List.find?_eq_none]
      intro l hl
      have hne : l.shortname ≠ charInt colonChar := (h.ascii l hl).2.2
      simpa using fun _ => hne
    change Option.map _ _ = _
    rw [hnone]
    rfl
  · rw [argtype_fromLong hcolon h, Option.map_map]
    rfl

/-- The string fits in its array. -/
theorem length_fromLong (h : GoodTable longopts) : (optparseFromLong longopts).length + 1 ≤ sizeofOptstring := by
  have hle : ∀ longopts : List OptparseLong, (optparseFromLong longopts).length ≤ 3 * longopts.length := by
    intro longopts
    induction longopts with
    | nil => exact Nat.le_refl 0
    | cons l longopts ih =>
      have htype : argtypeValue l.argtype ≤ 2 := by cases l.argtype <;> decide
      by_cases hzero : l.shortname = 0
      · rw [fromLong_cons_zero hzero, List.length_cons]
        omega
      · rw [fromLong_cons hzero, List.length_cons, List.length_append, List.length_replicate, List.length_cons]
        omega
  have hlongopts := hle longopts
  have hfits := h.fits
  unfold sizeofOptstring
  omega

end

/-! ## Long options -/

theorem longoptsMatch_iff : ∀ name text : CString, longoptsMatch name text = true ↔ text.takeWhile (· ≠ equals) = name
  | [], [] => by simp [longoptsMatch]
  | [], a :: as => by
    by_cases ha : a = equals <;> simp [longoptsMatch, ha]
  | n :: ns, [] => by simp [longoptsMatch]
  | n :: ns, a :: as => by
    unfold longoptsMatch
    by_cases ha : a = equals
    · simp [ha]
    · rw [if_neg ha, List.takeWhile_cons_of_pos (by simpa using ha)]
      by_cases hn : a = n
      · rw [if_neg (not_not.2 hn), longoptsMatch_iff ns as, hn]
        simp
      · rw [if_pos hn]
        simp [hn]

theorem longoptsArg_eq : ∀ text : CString, optparseLongoptsArg text = (text.dropWhile (· ≠ equals)).tail?
  | [] => rfl
  | a :: as => by
    unfold optparseLongoptsArg
    by_cases ha : a = equals
    · rw [if_pos ha, List.dropWhile_cons_of_neg (by simpa using ha)]
      rfl
    · rw [if_neg ha, List.dropWhile_cons_of_pos (by simpa using ha), longoptsArg_eq as]

section

variable {longopts : List OptparseLong} {o : Optparse} {before args : List CString} {a text : CString} {depth : Nat}

/-- The loop finds the first entry with the name that stands before the `=`. -/
theorem optparseLongopt_eq (o : Optparse) (text : CString) : ∀ longopts : List OptparseLong,
    optparseLongopt o text longopts =
      match longopts.find? fun l => l.longname = some (text.takeWhile (· ≠ equals)) with
      | none => optparseError o optparseMsgInvalid text
      | some l => optparseMatched o text l
  | [] => rfl
  | l :: longopts => by
    have hmatch : optparseLongoptsMatch l.longname text = true ↔ l.longname = some (text.takeWhile (· ≠ equals)) := by
      cases hname : l.longname with
      | none => simp [optparseLongoptsMatch]
      | some name =>
        rw [optparseLongoptsMatch, longoptsMatch_iff, Option.some_inj]
        exact eq_comm
    unfold optparseLongopt
    by_cases hl : l.longname = some (text.takeWhile (· ≠ equals))
    · rw [if_pos (hmatch.2 hl), List.find?_cons_of_pos (by simpa using hl)]
    · rw [if_neg fun h => hl (hmatch.1 h), List.find?_cons_of_neg (by simpa using hl)]
      exact optparseLongopt_eq o text longopts

theorem optparseLongopt_returns (hargv : o.argv = before ++ a :: args) (hoptind : o.optind = before.length + 1)
    (hpermute : o.permute = true) (hoptarg : o.optarg = none) (herrmsg : o.errmsg = []) :
    Returns ((tableGrammar longopts).callLong o.subopt text args.head?) before [] (a :: args)
      (optparseLongopt o text longopts) := by
  have hnext : o.argv[o.optind]? = args.head? := by
    rw [hargv, hoptind, List.getElem?_append_right (Nat.le_add_right ..), Nat.add_sub_cancel_left]
    cases args <;> rfl
  have hkeep : ∀ n, o.argv = before ++ (a :: args).take n ++ [] ++ (a :: args).drop n := by
    intro n
    rw [hargv, List.append_nil, List.append_assoc, List.take_append_drop]
  have hgrammar : ((tableGrammar longopts).long.getD fun _ => none) (text.takeWhile (· ≠ equals)) =
      (longopts.find? fun l => l.longname = some (text.takeWhile (· ≠ equals))).map fun l =>
      (l.shortname, l.argtype) := rfl
  rw [optparseLongopt_eq]
  unfold Grammar.callLong Grammar.longOption
  dsimp only
  rw [hgrammar]
  cases hfind : longopts.find? fun l => l.longname = some (text.takeWhile (· ≠ equals)) with
  | none =>
    dsimp only [Option.map_none]
    exact ⟨_, _, optparseError_eq o .invalid text, hkeep 1, hoptind, hpermute, rfl, rfl, hoptarg, rfl⟩
  | some l =>
    have hname : l.longname = some (text.takeWhile (· ≠ equals)) := by simpa using List.find?_some hfind
    dsimp only [Option.map_some]
    unfold optparseMatched
    dsimp only
    rw [longoptsArg_eq, hname]
    dsimp only [Option.getD_some]
    rw [hnext]
    cases harg : (text.dropWhile (· ≠ equals)).tail? with
    | some arg =>
      cases l.argtype with
      | none => exact ⟨_, _, optparseError_eq _ .tooMany _, hkeep 1, hoptind, hpermute, rfl, rfl, hoptarg, rfl⟩
      | required => exact ⟨_, _, rfl, hkeep 1, hoptind, hpermute, rfl, rfl, rfl, herrmsg⟩
      | optional => exact ⟨_, _, rfl, hkeep 1, hoptind, hpermute, rfl, rfl, rfl, herrmsg⟩
    | none =>
      cases l.argtype with
      | none => exact ⟨_, _, rfl, hkeep 1, hoptind, hpermute, rfl, rfl, hoptarg, herrmsg⟩
      | required =>
        cases args with
        | nil => exact ⟨_, _, optparseError_eq _ .missing _, hkeep 1, hoptind, hpermute, rfl, rfl, rfl, rfl⟩
        | cons next args =>
          exact ⟨_, _, rfl, hkeep 2, congrArg (· + 1) hoptind, hpermute, rfl, rfl, rfl, herrmsg⟩
      | optional => exact ⟨_, _, rfl, hkeep 1, hoptind, hpermute, rfl, rfl, hoptarg, herrmsg⟩

/-! ## `optparse_long` -/

/-- Only what the code takes for neither kind of option is moved. -/
theorem optparseLongAt_skips : Skips (tableGrammar longopts) fun depth o => optparseLongAt depth o longopts := by
  intro depth o x hx hpositional hpermute
  refine ⟨{ o with optind := o.optind + 1 }, rfl, rfl, hpermute, rfl, ?_⟩
  have hkind : optparseIsDashdash x = false ∧ optparseIsShortopt x = false ∧ optparseIsLongopt x = false := by
    rcases classify_cases (tableGrammar longopts) x with ⟨-, h⟩ | ⟨-, -, _, -, h⟩ | ⟨-, -, -, _, -, h⟩ | ⟨hd, hs, hl, -⟩
    · rw [hpositional] at h
      cases h
    · rw [hpositional] at h
      cases h
    · rw [hpositional] at h
      cases h
    · exact ⟨hd, hs, hl⟩
  dsimp only
  rw [optparseLongAt]
  dsimp only
  rw [hx]
  dsimp only
  rw [hkind.1, hkind.2.1, hkind.2.2, hpermute]
  rfl

theorem optparseLongAt_front (h : GoodTable longopts) :
    ReadsFront (tableGrammar longopts) fun depth o => optparseLongAt depth o longopts := by
  intro depth o before args hargv hoptind hpermute hplace hnul
  dsimp only
  rw [optparseLongAt]
  cases args with
  | nil =>
    have hend : o.argv[o.optind]? = none := by simp [hargv, hoptind]
    rw [hend]
    dsimp only
    rw [if_pos (by rw [hoptind, hargv, List.append_nil])]
    exact ⟨_, _, rfl, by simpa using hargv, hoptind, hpermute, rfl, rfl⟩
  | cons a args =>
    have hget : o.argv[o.optind]? = some a := by simp [hargv, hoptind]
    rw [hget]
    dsimp only
    have hfront := hplace.front a rfl
    rcases classify_cases (tableGrammar longopts) a with ⟨hd, hkind⟩ | ⟨hd, hs, chars, rfl, hkind⟩ |
      ⟨hd, hs, hl, text, rfl, hkind⟩ | ⟨-, -, -, hkind⟩
    · rw [hd, Grammar.call_stop args _ hkind]
      exact ⟨_, _, rfl, by simpa using hargv, congrArg (· + 1) hoptind, hpermute, rfl, rfl⟩
    · have hfits := length_fromLong h
      rw [hd, hs, Grammar.call_short args _ hkind]
      dsimp only [Bool.false_eq_true, if_false, if_true, optparseLongFallback]
      rw [if_neg Bool.false_ne_true, if_pos rfl, if_neg (not_lt.2 hfits), optparse, optparseAt_short hget hd hs]
      refine optparseShortopt_returns (o := { o with errmsg := [], optopt := 0, optarg := none }) (sameShort_table h)
        hargv hoptind hpermute rfl rfl (hplace.short _ rfl chars hkind)
        fun hmem => hnul _ List.mem_cons_self (List.mem_cons_of_mem dash hmem)
    · have hlong : (tableGrammar longopts).classify (dash :: dash :: text) = .long text := hkind
      rw [hd, hs, hl, Grammar.call_long args _ hlong]
      exact optparseLongopt_returns
        (o := { o with errmsg := [], optopt := 0, optarg := none, optind := o.optind + 1 })
        hargv (congrArg (· + 1) hoptind) hpermute rfl rfl
    · exact absurd hkind hfront

end

/-! ## The loop of a tool -/

/-- A round of `while ((c = optparse_long(...)) != -1) switch (c) {...}`: the call and the switch, which gets the
code, `optarg` and `errmsg`. The loop leaves with what the switch returns, or at the end of the options; or with
nothing, where the call reads or writes what is not there. -/
def optionRound {γ ρ : Type} (read : Optparse → Option (Int × Optparse))
    (body : γ → Int → Option CString → CString → γ ⊕ ρ) : γ × Optparse → (γ × Optparse) ⊕ Option (ρ ⊕ γ × Optparse)
  | (g, options) =>
    match read options with
    | none => .inr none
    | some (c, options) =>
      if c = -1 then .inr (some (.inr (g, options)))
      else
        match body g c options.optarg options.errmsg with
        | .inl g => .inl (g, options)
        | .inr r => .inr (some (.inl r))

/-- The switch, at an event. -/
def onEvent {γ ρ : Type} (body : γ → Int → Option CString → CString → γ ⊕ ρ) (g : γ) (e : Event) : γ ⊕ ρ :=
  body g (returnCode e) (optargOf e) (errmsgOf e)

/-- The options, between two calls: the strings in `moved` are to come behind the options in `args`. -/
structure OptionsAt (G : Grammar) (o : Optparse) (taken moved args : List CString) (k : Nat) : Prop where
  argv : o.argv = taken ++ moved ++ args
  optind : o.optind = taken.length
  permute : o.permute = true
  subopt : o.subopt = k
  moved : ∀ x ∈ moved, G.classify x = .positional
  nul : ∀ a ∈ args, 0 ∉ a

/-- No code is that of the end. -/
structure GoodCodes (G : Grammar) : Prop where
  short : ∀ c code takes, G.short c = some (code, takes) → code ≠ -1
  long : ∀ long ∈ G.long, ∀ name code takes, long name = some (code, takes) → code ≠ -1

section

variable {G : Grammar} {k : Nat} {args : List CString} {e : Event}

theorem questionMark_ne : questionMark ≠ -1 := by decide

theorem returnCode_short (hcodes : GoodCodes G) (chars : CString) (next : Option CString) :
    ∀ e ∈ (G.callShort k chars next).event, returnCode e ≠ -1 := by
  unfold Grammar.callShort
  split
  · rintro _ ⟨⟩
    exact questionMark_ne
  · split
    · rintro _ ⟨⟩
      exact questionMark_ne
    · split_ifs <;>
      · rintro _ ⟨⟩
        exact hcodes.short _ _ _ ‹_›
    · split_ifs
      · rintro _ ⟨⟩
        exact hcodes.short _ _ _ ‹_›
      · split
        · rintro _ ⟨⟩
          exact hcodes.short _ _ _ ‹_›
        · rintro _ ⟨⟩
          exact questionMark_ne
    · rintro _ ⟨⟩
      exact hcodes.short _ _ _ ‹_›

/-- A long option, or the one that waits for its argument, has a code of its own. -/
theorem returnCode_longOption (hcodes : GoodCodes G) (text : CString) :
    (∀ e ∈ (G.longOption text).1, returnCode e ≠ -1) ∧ ∀ w ∈ (G.longOption text).2, w.1 ≠ -1 := by
  have hlong : ∀ name code takes, (G.long.getD fun _ => none) name = some (code, takes) → code ≠ -1 := by
    intro name code takes h
    cases hl : G.long with
    | none =>
      rw [hl] at h
      cases h
    | some long =>
      rw [hl] at h
      exact hcodes.long long hl name code takes h
  have hone : ∀ e, returnCode e ≠ -1 →
      (∀ e' ∈ [e], returnCode e' ≠ -1) ∧ ∀ w ∈ (none : Option (Int × Arg)), w.1 ≠ -1 := by
    intro e he
    refine ⟨fun e' he' => ?_, fun w hw => by cases hw⟩
    rw [List.mem_singleton.1 he']
    exact he
  unfold Grammar.longOption
  dsimp only
  split
  · exact hone _ questionMark_ne
  · split_ifs
    · exact hone _ questionMark_ne
    · exact hone _ (hlong _ _ _ ‹_›)
  · split_ifs
    · exact hone _ (hlong _ _ _ ‹_›)
    · refine ⟨fun e he => absurd he List.not_mem_nil, ?_⟩
      rintro _ ⟨⟩
      exact hlong _ _ _ ‹_›
  · exact hone _ (hlong _ _ _ ‹_›)

theorem returnCode_long (hcodes : GoodCodes G) (text : CString) (next : Option CString) :
    ∀ e ∈ (G.callLong k text next).event, returnCode e ≠ -1 := by
  obtain ⟨hevents, hwaits⟩ := returnCode_longOption hcodes text
  unfold Grammar.callLong
  split
  · rename_i heq
    rw [heq] at hevents
    exact fun e he => hevents e (List.mem_of_mem_head? he)
  · rename_i heq
    rw [heq] at hwaits
    split
    · rintro _ ⟨⟩
      exact hwaits _ rfl
    · rintro _ ⟨⟩
      exact questionMark_ne

theorem returnCode_ne (hcodes : GoodCodes G) : ∀ e ∈ (G.call k args).event, returnCode e ≠ -1 := by
  cases args with
  | nil => rintro _ ⟨⟩
  | cons a args =>
    unfold Grammar.call
    split
    · rintro _ ⟨⟩
    · rename_i heq
      cases heq
      split
      · rintro _ ⟨⟩
      · rintro _ ⟨⟩
      · exact returnCode_short hcodes _ _
      · exact returnCode_long hcodes _ _

/-- A call that finds the end is not in a cluster. -/
theorem subopt_of_end (h : (G.call 0 args).event = none) : (G.call 0 args).subopt = 0 := by
  cases args with
  | nil => rfl
  | cons a args =>
    cases hkind : G.classify a with
    | stop => rw [Grammar.call_stop args 0 hkind]
    | positional => rw [Grammar.call, hkind]
    | short chars =>
      rw [Grammar.call_short args 0 hkind] at h
      unfold Grammar.callShort at h
      split at h
      · cases h
      · split at h
        · cases h
        · split_ifs at h
        · split_ifs at h
          split at h <;> cases h
        · cases h
    | long text =>
      rw [Grammar.call_long args 0 hkind]
      unfold Grammar.callLong
      split
      · rfl
      · split <;> rfl

variable {γ ρ : Type} {read : Optparse → Option (Int × Optparse)} {body : γ → Int → Option CString → CString → γ ⊕ ρ}

/-- The loop over a function whose calls are those of a reader. -/
theorem optionRound_reader (hcodes : GoodCodes G)
    (hread : ∀ o taken moved args k, OptionsAt G o taken moved args k → InPlace G k args →
      Returns (G.call k args) taken moved args (read o)) :
    Reader G (onEvent body) (optionRound read body) (OptionsAt G) where
  pass := by
    intro o taken moved a args h ha
    refine ⟨by rw [h.argv]; simp, h.optind, h.permute, h.subopt, ?_, fun b hb => h.nul b (List.mem_cons_of_mem a hb)⟩
    intro x hx
    rcases List.mem_append.1 hx with hx | hx
    · exact h.moved x hx
    · rw [List.mem_singleton.1 hx]
      exact ha
  finish := by
    intro o taken moved args g h hnone hfront
    have hplace : InPlace G 0 args := by
      refine ⟨hfront, fun a ha chars hchars => ?_, fun a ha hne => absurd rfl hne⟩
      exact List.length_pos_of_ne_nil (Grammar.ne_nil_of_short hchars)
    obtain ⟨r, o', hret, hargv, hoptind, hpermute, hsubopt, htold⟩ := hread o taken moved args 0 h hplace
    rw [hnone] at htold
    have hzero : (G.call 0 args).subopt = 0 := subopt_of_end hnone
    refine ⟨o', ?_, hargv, ?_, hpermute, hsubopt.trans hzero, h.moved, fun a ha => h.nul a (List.mem_of_mem_drop ha)⟩
    · rw [optionRound, hret]
      exact if_pos htold
    · rw [hoptind, List.length_append, List.length_take_of_le (call_taken_le G 0 args)]
  tell := by
    intro o taken moved args k e g h hsome hshort hother
    have hplace : InPlace G k args := by
      refine ⟨?_, hshort, hother⟩
      rintro a ha hpositional
      cases args with
      | nil => cases ha
      | cons b args =>
        cases ha
        rw [Grammar.call, hpositional] at hsome
        cases hsome
    obtain ⟨r, o', hret, hargv, hoptind, hpermute, hsubopt, htold⟩ := hread o taken moved args k h hplace
    rw [hsome] at htold
    obtain ⟨rfl, hoptarg, herrmsg⟩ := htold
    refine ⟨o', ⟨hargv, ?_, hpermute, hsubopt, h.moved, fun a ha => h.nul a (List.mem_of_mem_drop ha)⟩, ?_⟩
    · rw [hoptind, List.length_append, List.length_take_of_le (call_taken_le G k args)]
    · rw [optionRound, hret]
      dsimp only
      rw [if_neg (returnCode_ne hcodes e hsome), hoptarg, herrmsg]
      rfl

end

/-! ## Reading a command line -/

section

variable {G : Grammar} {γ ρ : Type} {read : Optparse → Option (Int × Optparse)}
  {body : γ → Int → Option CString → CString → γ ⊕ ρ} {args : List CString}

theorem returns_of_optionsAt {readAt : Nat → Optparse → Option (Int × Optparse)} (hskips : Skips G readAt)
    (hfront : ReadsFront G readAt) {o : Optparse} {taken moved : List CString} {k : Nat}
    (h : OptionsAt G o taken moved args k) (hplace : InPlace G k args) :
    Returns (G.call k args) taken moved args (readAt (o.argv.length + 1) o) := by
  refine returns_of_skips hskips hfront hplace h.nul moved taken _ o ?_ h.moved h.argv h.optind h.permute h.subopt
  rw [h.argv, List.length_append, List.length_append]
  omega

theorem optionsAt_init (prog : CString) (hnul : ∀ a ∈ args, 0 ∉ a) :
    OptionsAt G (optparseInit (prog :: args)) [prog] [] args 0 :=
  ⟨rfl, rfl, rfl, rfl, fun _ h => absurd h List.not_mem_nil, hnul⟩

/-- What a loop over the options comes to: what its switch makes of the events of the scan, in their order. At the end,
the strings are permuted, and from `optind` on are those that the scan leaves over. -/
def LoopReads (G : Grammar) (read : Optparse → Option (Int × Optparse))
    (body : γ → Int → Option CString → CString → γ ⊕ ρ) (g : γ) (prog : CString) (args : List CString) : Prop :=
  match consume (onEvent body) g (G.scan args).1 with
  | .inr r => Loop.Leaves (optionRound read body) (g, optparseInit (prog :: args)) (some (.inl r))
  | .inl g' => ∃ o, Loop.Leaves (optionRound read body) (g, optparseInit (prog :: args)) (some (.inr (g', o))) ∧
      o.argv.head? = some prog ∧ o.argv.Perm (prog :: args) ∧ o.optind ≤ o.argv.length ∧
      o.argv.drop o.optind = (G.scan args).2

/-- What a `main` makes of the end of its loop, where it does not look at the strings. -/
theorem LoopReads.outcome {read : Optparse → Option (Int × Optparse)} {prog : CString}
    (h : LoopReads G read body g prog args)
    {α : Type} {f : Option (ρ ⊕ γ × Optparse) → Option α} (ended : ρ → α) (goesOn : γ → α)
    (hended : ∀ r, f (some (.inl r)) = some (ended r)) (hgoes : ∀ g o, f (some (.inr (g, o))) = some (goesOn g)) :
    ∃ fuel, ∀ more ≥ fuel, (Loop.run (optionRound read body) more (g, optparseInit (prog :: args))).map f =
      some (some ((consume (onEvent body) g (G.scan args).1).elim goesOn ended)) := by
  unfold LoopReads at h
  cases hc : consume (onEvent body) g (G.scan args).1 with
  | inr r =>
    rw [hc] at h
    obtain ⟨fuel, hfuel⟩ := h
    refine ⟨fuel, fun more hmore => ?_⟩
    rw [Loop.run_mono hfuel hmore, Option.map_some, hended]
    rfl
  | inl g' =>
    rw [hc] at h
    obtain ⟨o, ⟨fuel, hfuel⟩, -⟩ := h
    refine ⟨fuel, fun more hmore => ?_⟩
    rw [Loop.run_mono hfuel hmore, Option.map_some, hgoes]
    rfl

theorem loopReads_of_reader
    (h : Reader G (onEvent body) (optionRound read body) (OptionsAt G)) (hstops : StopsEarly G (onEvent body)) (g : γ)
    (prog : CString) (hnul : ∀ a ∈ args, 0 ∉ a) : LoopReads G read body g prog args := by
  have hreads := h.scans hstops args.length args (Nat.le_refl _) g (optparseInit (prog :: args)) [prog] []
    (prog :: args) (optionsAt_init prog hnul) (List.Perm.refl _)
  unfold Reads at hreads
  unfold LoopReads
  cases hc : consume (onEvent body) g (G.scan args).1 with
  | inr r =>
    rw [hc] at hreads
    exact hreads
  | inl g' =>
    rw [hc] at hreads
    obtain ⟨o, taken, moved, rest, hleaves, hat, hleft, ⟨more, htaken⟩, hperm⟩ := hreads
    rw [List.nil_append] at hleft hperm
    have hargv : o.argv = taken ++ (G.scan args).2 := by rw [hat.argv, List.append_assoc, hleft]
    refine ⟨o, hleaves, ?_, ?_, ?_, ?_⟩
    · rw [hargv, ← htaken]
      rfl
    · rw [hargv]
      exact hperm
    · rw [hargv, hat.optind, List.length_append]
      exact Nat.le_add_right ..
    · rw [hargv, hat.optind, List.drop_left]

theorem goodCodes_table {longopts : List OptparseLong} (h : GoodTable longopts) :
    GoodCodes (tableGrammar longopts) where
  short := by
    intro c code takes hc
    obtain ⟨l, hl, heq⟩ := Option.map_eq_some_iff.1 hc
    have hfound : l.shortname ≠ 0 ∧ l.shortname = charInt c := by simpa using List.find?_some hl
    have hpos := (h.ascii l (List.mem_of_find?_eq_some hl)).1
    cases heq
    omega
  long := by
    rintro _ ⟨⟩ name code takes hn
    obtain ⟨l, hl, heq⟩ := Option.map_eq_some_iff.1 hn
    have hpos := (h.ascii l (List.mem_of_find?_eq_some hl)).1
    cases heq
    omega

/-- Reading with `optparse_long` until it returns -1: whatever the arguments are, nothing is read that is not there, and
the switch gets the options that one pass finds. -/
theorem optparseLong_loopReads {longopts : List OptparseLong} (h : GoodTable longopts)
    (hstops : StopsEarly (tableGrammar longopts) (onEvent body)) (g : γ) (prog : CString) (hnul : ∀ a ∈ args, 0 ∉ a) :
    LoopReads (tableGrammar longopts) (fun o => optparseLong o longopts) body g prog args :=
  loopReads_of_reader (optionRound_reader (goodCodes_table h) fun _ _ _ _ _ hat hplace =>
    returns_of_optionsAt optparseLongAt_skips (optparseLongAt_front h) hat hplace) hstops g prog hnul

/-- The options of a `getopt` string. -/
def optstringGrammar (optstring : CString) : Grammar where
  short c := (optparseArgtype optstring c).map fun takes => (charInt c, takes)

theorem goodCodes_optstring {optstring : CString} (h : ∀ c ∈ optstring, c < 128) :
    GoodCodes (optstringGrammar optstring) where
  short := by
    intro c code takes hc
    obtain ⟨t, ht, heq⟩ := Option.map_eq_some_iff.1 hc
    have hmem : c ∈ optstring := by
      unfold optparseArgtype at ht
      split at ht
      · cases ht
      · split at ht
        · cases ht
        · rename_i d rest hdrop
          have hd := List.head_dropWhile_not (fun x => decide (x ≠ c)) (hdrop ▸ List.cons_ne_nil d rest)
          simp only [hdrop, List.head_cons, decide_eq_false_iff_not, not_not] at hd
          rw [← hd]
          exact (List.dropWhile_sublist _).subset (hdrop ▸ List.mem_cons_self)
    have hlt := UInt8.lt_iff_toNat_lt.1 (h c hmem)
    have hcode : charInt c = c.toNat := charInt_of_lt hlt
    cases heq
    omega
  long := by rintro _ ⟨⟩

theorem optparse_loopReads {optstring : CString} (h : ∀ c ∈ optstring, c < 128)
    (hstops : StopsEarly (optstringGrammar optstring) (onEvent body)) (g : γ) (prog : CString)
    (hnul : ∀ a ∈ args, 0 ∉ a) :
    LoopReads (optstringGrammar optstring) (fun o => optparse o optstring) body g prog args := by
  have hskips : Skips (optstringGrammar optstring) fun depth o => optparseAt depth o optstring := optparseAt_skips
  have hfront : ReadsFront (optstringGrammar optstring) fun depth o => optparseAt depth o optstring :=
    optparseAt_front (fun _ _ => rfl) rfl
  exact loopReads_of_reader (optionRound_reader (goodCodes_optstring h) fun _ _ _ _ _ hat hplace =>
    returns_of_optionsAt hskips hfront hat hplace) hstops g prog hnul

/-- Behind the options, `optparse_arg` gives the first of the other arguments. -/
theorem optparseArg_eq {o : Optparse} {left : List CString} (hle : o.optind ≤ o.argv.length)
    (hleft : o.argv.drop o.optind = left) : ∃ o', optparseArg o = some (left.head?, o') := by
  have hget : o.argv[o.optind]? = left.head? := by
    rw [← hleft, List.head?_drop]
  unfold optparseArg
  rw [hget]
  cases left with
  | nil =>
    dsimp only [List.head?_nil]
    rw [if_pos (Nat.le_antisymm hle (List.drop_eq_nil_iff.1 hleft))]
    exact ⟨_, rfl⟩
  | cons a left => exact ⟨_, rfl⟩

end

end Tinyalsa
