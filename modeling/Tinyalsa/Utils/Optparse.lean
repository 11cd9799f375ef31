/-
The option parser of the tools (`optparse.h`): short options in clusters, long options, and the array of arguments
that it permutes while it reads. Each call is compared with one step of a scan over the arguments.
-/
import Tinyalsa.Lib.OptionScan
import Tinyalsa.Mixer.Group

namespace Tinyalsa

open OptionScan

/-! ## The code -/

/-- `enum optparse_argtype`. -/
abbrev OptparseArgtype := OptionScan.Takes

/-- The value of an `enum optparse_argtype`. -/
def argtypeValue : OptparseArgtype → Nat
  | .none => 0
  | .required => 1
  | .optional => 2

/-- `struct optparse_long`, other than the one that ends an array; `longname` may be NULL. -/
structure OptparseLong where
  longname : Option CString
  shortname : Int
  argtype : OptparseArgtype

/-- `struct optparse`. `argv` are the strings before the NULL, and strings are without their NULs. -/
structure Optparse where
  argv : List CString
  permute : Bool := true
  optind : Nat := 1
  optopt : Int := 0
  optarg : Option CString := none
  errmsg : CString := []
  subopt : Nat := 0

/-- `':'`. -/
def colonChar : UInt8 := 58
/-- `'?'`. -/
def questionMark : Int := 63

/-- A `char`, as an `int`. -/
def charInt (c : UInt8) : Int := if c < 128 then c.toNat else c.toNat - 256

/-- `"invalid option"`. -/
def optparseMsgInvalid : CString :=
  [105, 110, 118, 97, 108, 105, 100, 32, 111, 112, 116, 105, 111, 110]
/-- `"option requires an argument"`. -/
def optparseMsgMissing : CString :=
  [111, 112, 116, 105, 111, 110, 32, 114, 101, 113, 117, 105, 114, 101, 115, 32, 97, 110, 32, 97, 114, 103, 117, 109,
    101, 110, 116]
/-- `"option takes no arguments"`. -/
def optparseMsgToomany : CString :=
  [111, 112, 116, 105, 111, 110, 32, 116, 97, 107, 101, 115, 32, 110, 111, 32, 97, 114, 103, 117, 109, 101, 110, 116,
    115]
/-- `" -- '"`. -/
def errorSeparator : CString := [32, 45, 45, 32, 39]
/-- `'\''`. -/
def quoteChar : UInt8 := 39

/-- `sizeof(options->errmsg)`. -/
def sizeofErrmsg : Nat := 64

/-- `optparse_error`; nothing, where it would write behind `errmsg`. The loops over `msg` and `sep` do not look at the
size. -/
def optparseError (options : Optparse) (msg data : CString) : Option (Int × Optparse) :=
  let text := msg ++ errorSeparator
  let text := text ++ data.take (sizeofErrmsg - 2 - text.length)
  if text.length + 2 > sizeofErrmsg then none
  else some (questionMark, { options with errmsg := text ++ [quoteChar] })

/-- `optparse_init`. -/
def optparseInit (argv : List CString) : Optparse where
  argv

/-- `optparse_is_dashdash`. -/
def optparseIsDashdash : CString → Bool
  | [a, b] => a = dash && b = dash
  | _ => false

/-- `optparse_is_shortopt`. -/
def optparseIsShortopt : CString → Bool
  | a :: b :: _ => a = dash && b ≠ dash
  | _ => false

/-- `optparse_is_longopt`. -/
def optparseIsLongopt : CString → Bool
  | a :: b :: _ :: _ => a = dash && b = dash
  | _ => false

/-- The loop of `optparse_permute`: `n` strings from `i` on move to the front by one; nothing, where it would read the
NULL or what is behind it. -/
def permuteLoop : Nat → Nat → List CString → Option (List CString)
  | 0, _, argv => some argv
  | n + 1, i, argv => do
    let next ← argv[i + 1]?
    permuteLoop n (i + 1) (argv.set i next)

/-- `optparse_permute`. -/
def optparsePermute (options : Optparse) (index : Nat) : Option Optparse := do
  let nonoption ← options.argv[index]?
  let argv ← permuteLoop (options.optind - 1 - index) index options.argv
  if options.optind - 1 < argv.length then some { options with argv := argv.set (options.optind - 1) nonoption }
  else none

/-- `optparse_argtype`; nothing for -1. -/
def optparseArgtype (optstring : CString) (c : UInt8) : Option OptparseArgtype :=
  if c = colonChar then none
  else
    match optstring.dropWhile (· ≠ c) with
    | [] => none
    | _ :: rest =>
      if rest[0]? = some colonChar then
        if rest[1]? = some colonChar then some .optional else some .required
      else some .none

/-- `optparse`, at the character `c` of a short option, with `rest` behind it. -/
def optparseChar (options : Optparse) (c : UInt8) (rest optstring : CString) : Option (Int × Optparse) :=
  let options := { options with optopt := charInt c }
  let next := options.argv[options.optind + 1]?
  match optparseArgtype optstring c with
  | none =>
    let str := if c = 0 then [] else [c]
    optparseError { options with optind := options.optind + 1 } optparseMsgInvalid str
  | some .none =>
    if rest ≠ [] then some (charInt c, { options with subopt := options.subopt + 1 })
    else some (charInt c, { options with subopt := 0, optind := options.optind + 1 })
  | some .required =>
    let options := { options with subopt := 0, optind := options.optind + 1 }
    if rest ≠ [] then some (charInt c, { options with optarg := some rest })
    else
      match next with
      | some next => some (charInt c, { options with optarg := some next, optind := options.optind + 1 })
      | none => optparseError { options with optarg := none } optparseMsgMissing [c]
  | some .optional =>
    let options := { options with subopt := 0, optind := options.optind + 1 }
    some (charInt c, { options with optarg := if rest ≠ [] then some rest else none })

/-- `optparse`, at a short option; nothing, where it would read behind the end of the string. -/
def optparseShortopt (options : Optparse) (option optstring : CString) : Option (Int × Optparse) :=
  if option.length < options.subopt + 1 then none
  else
    let option := option.drop (options.subopt + 1)
    optparseChar options (option.headD 0) option.tail optstring

/-- `optparse`, as deep as it may call itself at strings that are no options; nothing, where it reads behind the NULL
of `argv`. -/
def optparseAt : Nat → Optparse → CString → Option (Int × Optparse)
  | 0, _, _ => none
  | depth + 1, options, optstring =>
    let options := { options with errmsg := [], optopt := 0, optarg := none }
    match options.argv[options.optind]? with
    | none => if options.optind = options.argv.length then some (-1, options) else none
    | some option =>
      if optparseIsDashdash option then some (-1, { options with optind := options.optind + 1 })
      else if !optparseIsShortopt option then
        if options.permute then do
          let index := options.optind
          let (r, options) ← optparseAt depth { options with optind := options.optind + 1 } optstring
          let options ← optparsePermute options index
          some (r, { options with optind := options.optind - 1 })
        else some (-1, options)
      else optparseShortopt options option optstring

/-- `optparse`. It calls itself once for each string that it moves, and once more. -/
def optparse (options : Optparse) (optstring : CString) : Option (Int × Optparse) :=
  optparseAt (options.argv.length + 1) options optstring

/-- `optparse_arg`. -/
def optparseArg (options : Optparse) : Option (Option CString × Optparse) :=
  match options.argv[options.optind]? with
  | some option => some (some option, { options with subopt := 0, optind := options.optind + 1 })
  | none => if options.optind = options.argv.length then some (none, { options with subopt := 0 }) else none

/-- `optparse_from_long`. -/
def optparseFromLong (longopts : List OptparseLong) : CString :=
  longopts.flatMap fun l =>
    if l.shortname ≠ 0 then UInt8.ofInt l.shortname :: List.replicate (argtypeValue l.argtype) colonChar else []

/-- The loop of `optparse_longopts_match`. -/
def longoptsMatch : CString → CString → Bool
  | [], [] => true
  | [], a :: _ => a = equals
  | _ :: _, [] => false
  | n :: ns, a :: as => if a = equals then false else if a ≠ n then false else longoptsMatch ns as

/-- `optparse_longopts_match`. -/
def optparseLongoptsMatch (longname : Option CString) (option : CString) : Bool :=
  match longname with
  | none => false
  | some longname => longoptsMatch longname option

/-- `optparse_longopts_arg`. -/
def optparseLongoptsArg : CString → Option CString
  | [] => none
  | a :: as => if a = equals then some as else optparseLongoptsArg as

/-- `sizeof(optstring)`. -/
def sizeofOptstring : Nat := 96 * 3 + 1

/-- `optparse_long_fallback`; nothing, where the string of the options does not fit in its array. -/
def optparseLongFallback (options : Optparse) (longopts : List OptparseLong) : Option (Int × Optparse) :=
  let optstring := optparseFromLong longopts
  if optstring.length + 1 > sizeofOptstring then none else optparse options optstring

/-- `optparse_long`, at a long option that is the one of `l`. -/
def optparseMatched (options : Optparse) (option : CString) (l : OptparseLong) : Option (Int × Optparse) :=
  let name := l.longname.getD []
  let options := { options with optopt := l.shortname }
  match optparseLongoptsArg option with
  | some arg =>
    if l.argtype = .none then optparseError options optparseMsgToomany name
    else some (options.optopt, { options with optarg := some arg })
  | none =>
    if l.argtype = .required then
      match options.argv[options.optind]? with
      | some next => some (options.optopt, { options with optarg := some next, optind := options.optind + 1 })
      | none => optparseError { options with optarg := none } optparseMsgMissing name
    else some (options.optopt, options)

/-- `optparse_long`, at a long option: the loop over `longopts`. -/
def optparseLongopt (options : Optparse) (option : CString) : List OptparseLong → Option (Int × Optparse)
  | [] => optparseError options optparseMsgInvalid option
  | l :: longopts =>
    if optparseLongoptsMatch l.longname option then optparseMatched options option l
    else optparseLongopt options option longopts

/-- `optparse_long` without a `longindex`, as deep as it may call itself at strings that are no options. -/
def optparseLongAt : Nat → Optparse → List OptparseLong → Option (Int × Optparse)
  | 0, _, _ => none
  | depth + 1, options, longopts =>
    match options.argv[options.optind]? with
    | none => if options.optind = options.argv.length then some (-1, options) else none
    | some option =>
      if optparseIsDashdash option then some (-1, { options with optind := options.optind + 1 })
      else if optparseIsShortopt option then optparseLongFallback options longopts
      else if !optparseIsLongopt option then
        if options.permute then do
          let index := options.optind
          let (r, options) ← optparseLongAt depth { options with optind := options.optind + 1 } longopts
          let options ← optparsePermute options index
          some (r, { options with optind := options.optind - 1 })
        else some (-1, options)
      else
        let options := { options with errmsg := [], optopt := 0, optarg := none, optind := options.optind + 1 }
        optparseLongopt options (option.drop 2) longopts

/-- `optparse_long`. -/
def optparseLong (options : Optparse) (longopts : List OptparseLong) : Option (Int × Optparse) :=
  optparseLongAt (options.argv.length + 1) options longopts

/-! ## Moving a string -/

section

variable (o : Optparse) (taken xs rest : List CString) (x : CString)

theorem permuteLoop_eq : ∃ y, permuteLoop xs.length taken.length (taken ++ x :: xs ++ rest) = some
    (taken ++ xs ++ y :: rest) := by
  induction xs generalizing taken x with
  | nil => exact ⟨x, by simp [permuteLoop]⟩
  | cons z xs ih =>
    obtain ⟨y, hy⟩ := ih (taken ++ [z]) z
    refine ⟨y, ?_⟩
    have hnext : (taken ++ x :: z :: xs ++ rest)[taken.length + 1]? = some z := by simp
    have hset : (taken ++ x :: z :: xs ++ rest).set taken.length z = taken ++ [z] ++ z :: xs ++ rest := by simp
    rw [List.length_append, List.length_singleton, List.append_assoc taken [z] xs] at hy
    rw [List.length_cons, permuteLoop, hnext]
    exact (congrArg (permuteLoop xs.length (taken.length + 1)) hset).trans hy

/-- The string at `index` moves behind those that were taken after it. -/
theorem optparsePermute_eq (hargv : o.argv = taken ++ x :: xs ++ rest)
    (hoptind : o.optind = taken.length + 1 + xs.length) :
    optparsePermute o taken.length = some { o with argv := taken ++ xs ++ x :: rest } := by
  obtain ⟨y, hy⟩ := permuteLoop_eq taken xs rest x
  have hget : o.argv[taken.length]? = some x := by simp [hargv]
  have hcount : o.optind - 1 - taken.length = xs.length := by omega
  have hlast : o.optind - 1 = (taken ++ xs).length := by
    rw [List.length_append]
    omega
  unfold optparsePermute
  rw [hget, hcount, hargv]
  dsimp only [bind, Option.bind]
  rw [hy, hlast]
  dsimp only
  rw [if_pos (by simp), List.set_append_right _ _ (Nat.le_refl _), Nat.sub_self]
  rfl

end

/-! ## What a call returns -/

/-- The text of an error. -/
def errorText (msg data : CString) : CString :=
  (msg ++ errorSeparator ++ data).take (sizeofErrmsg - 2) ++ [quoteChar]

def errorMsg : ErrorKind → CString
  | .invalid => optparseMsgInvalid
  | .missing => optparseMsgMissing
  | .tooMany => optparseMsgToomany

/-- What `optparse` returns for an event, and what is in `optarg` and `errmsg` then. -/
def returnCode : Event → Int
  | .option code _ => code
  | .error .. => questionMark

def optargOf : Event → Option CString
  | .option _ arg => arg
  | .error .. => none

def errmsgOf : Event → CString
  | .option .. => []
  | .error kind data => errorText (errorMsg kind) data

/-- An error fits in its array. -/
theorem optparseError_eq (o : Optparse) (kind : ErrorKind) (data : CString) :
    optparseError o (errorMsg kind) data = some (questionMark,
    { o with errmsg := errorText (errorMsg kind) data }) := by
  have hlength : (errorMsg kind ++ errorSeparator).length ≤ 32 := by
    cases kind <;> decide
  unfold optparseError errorText
  dsimp only
  rw [List.take_append, List.take_of_length_le (hlength.trans (by decide)), if_neg]
  rw [List.length_append, List.length_take]
  unfold sizeofErrmsg
  omega

/-- What a call returned is what a reader is told. -/
def Told (r : Int) (o : Optparse) : Option Event → Prop
  | none => r = -1
  | some e => r = returnCode e ∧ o.optarg = optargOf e ∧ o.errmsg = errmsgOf e

/-- A call did what a call of a reader does, for whom the strings in `moved` come behind those that it takes. -/
def Returns (c : Grammar.Call) (taken moved args : List CString) (ret : Option (Int × Optparse)) : Prop :=
  ∃ r o, ret = some (r, o) ∧ o.argv = taken ++ args.take c.taken ++ moved ++ args.drop c.taken ∧
    o.optind = taken.length + c.taken ∧ o.permute = true ∧ o.subopt = c.subopt ∧ Told r o c.event

theorem call_taken_le (G : Grammar) (k : Nat) (args : List CString) : (G.call k args).taken ≤ args.length := by
  cases args with
  | nil => exact Nat.le_refl 0
  | cons a args =>
    have hnext : ∀ next, args.head? = some next → 2 ≤ (a :: args).length := by
      intro next hnext
      cases args with
      | nil => cases hnext
      | cons => simp
    have hone : 1 ≤ (a :: args).length := by simp
    cases hkind : G.classify a with
    | stop => rw [Grammar.call_stop args k hkind]; exact hone
    | positional => rw [Grammar.call, hkind]; exact Nat.zero_le _
    | short chars =>
      rw [Grammar.call_short args k hkind]
      unfold Grammar.callShort
      split
      · exact hone
      · split
        · exact hone
        · split_ifs
          · exact hone
          · exact Nat.zero_le _
        · split_ifs
          · exact hone
          · split
            · exact hnext _ ‹_›
            · exact hone
        · exact hone
    | long text =>
      rw [Grammar.call_long args k hkind]
      unfold Grammar.callLong
      split
      · exact hone
      · split
        · exact hnext _ ‹_›
        · exact hone

/-! ## Strings that are no options -/

section

variable {G : Grammar} {readAt : Nat → Optparse → Option (Int × Optparse)} {args : List CString} {k : Nat}

/-- A function that calls itself behind a string that is no option, and moves that string behind what was taken. -/
def Skips (G : Grammar) (readAt : Nat → Optparse → Option (Int × Optparse)) : Prop :=
  ∀ depth o x, o.argv[o.optind]? = some x → G.classify x = .positional → o.permute = true →
    ∃ o', o'.argv = o.argv ∧ o'.optind = o.optind + 1 ∧ o'.permute = true ∧ o'.subopt = o.subopt ∧
      readAt (depth + 1) o = do
        let (r, options) ← readAt depth o'
        let options ← optparsePermute options o.optind
        some (r, { options with optind := options.optind - 1 })

/-- The place of a reader: in a cluster, or in front of an argument. -/
structure InPlace (G : Grammar) (k : Nat) (args : List CString) : Prop where
  front : ∀ a ∈ args.head?, G.classify a ≠ .positional
  short : ∀ a ∈ args.head?, ∀ chars, G.classify a = .short chars → k < chars.length
  other : ∀ a ∈ args.head?, k ≠ 0 → ∃ chars, G.classify a = .short chars

/-- A function that reads an option where there is one. -/
def ReadsFront (G : Grammar) (readAt : Nat → Optparse → Option (Int × Optparse)) : Prop :=
  ∀ depth o before args, o.argv = before ++ args → o.optind = before.length → o.permute = true →
    InPlace G o.subopt args → (∀ a ∈ args, 0 ∉ a) → Returns (G.call o.subopt args) before [] args (readAt (depth + 1) o)

/-- The strings in front of the next option stand behind what a call takes. -/
theorem returns_of_skips (hskips : Skips G readAt) (hfront : ReadsFront G readAt) (hplace : InPlace G k args)
    (hnul : ∀ a ∈ args, 0 ∉ a) :
    ∀ (moved taken : List CString) (depth : Nat) (o : Optparse), moved.length < depth →
      (∀ x ∈ moved, G.classify x = .positional) → o.argv = taken ++ moved ++ args → o.optind = taken.length →
      o.permute = true → o.subopt = k → Returns (G.call k args) taken moved args (readAt depth o)
  | [], taken, depth + 1, o, _, _, hargv, hoptind, hpermute, hsubopt => by
    subst hsubopt
    exact hfront depth o taken args (by simpa using hargv) hoptind hpermute hplace hnul
  | x :: moved, taken, depth + 1, o, hdepth, hmoved, hargv, hoptind, hpermute, hsubopt => by
    have hx : o.argv[o.optind]? = some x := by simp [hargv, hoptind]
    obtain ⟨o', hargv', hoptind', hpermute', hsubopt', hread⟩ :=
      hskips depth o x hx (hmoved x List.mem_cons_self) hpermute
    obtain ⟨r, o'', hret, hargv'', hoptind'', hpermute'', hsubopt'', htold⟩ :=
      returns_of_skips hskips hfront hplace hnul moved (taken ++ [x]) depth o' (Nat.lt_of_succ_lt_succ hdepth)
        (fun y hy => hmoved y (List.mem_cons_of_mem x hy)) (by rw [hargv', hargv]; simp) (by simp [hoptind', hoptind])
        hpermute' (hsubopt'.trans hsubopt)
    have hlength : (args.take (G.call k args).taken).length = (G.call k args).taken :=
      List.length_take_of_le (call_taken_le G k args)
    have hmove := optparsePermute_eq o'' taken (args.take (G.call k args).taken)
      (moved ++ args.drop (G.call k args).taken) x (by rw [hargv'']; simp) (by rw [hoptind'', hlength]; simp)
    have hback : o''.optind - 1 = taken.length + (G.call k args).taken := by
      rw [hoptind'', List.length_append, List.length_singleton]
      omega
    refine ⟨r, { o'' with
      argv := taken ++ args.take (G.call k args).taken ++ x :: (moved ++ args.drop (G.call k args).taken)
      optind := o''.optind - 1 }, ?_, by simp, hback, hpermute'', hsubopt'', htold⟩
    rw [hread, hret, hoptind]
    dsimp only [bind, Option.bind]
    rw [hmove]

end

/-! ## At an option -/

/-- The kinds of strings, as the code tells them apart. -/
theorem classify_cases (G : Grammar) (a : CString) :
    optparseIsDashdash a = true ∧ G.classify a = .stop ∨
    optparseIsDashdash a = false ∧ optparseIsShortopt a = true ∧
      (∃ chars, a = dash :: chars ∧ G.classify a = .short chars) ∨
    optparseIsDashdash a = false ∧ optparseIsShortopt a = false ∧ optparseIsLongopt a = true ∧
      (∃ text, a = dash :: dash :: text ∧ G.classify a = if G.long.isSome then .long text else .positional) ∨
    optparseIsDashdash a = false ∧ optparseIsShortopt a = false ∧ optparseIsLongopt a = false ∧
      G.classify a = .positional := by
  match a with
  | [] => exact .inr (.inr (.inr ⟨rfl, rfl, rfl, rfl⟩))
  | [_] => exact .inr (.inr (.inr ⟨rfl, rfl, rfl, rfl⟩))
  | x :: y :: zs =>
    unfold Grammar.classify
    by_cases hx : x = dash
    · by_cases hy : y = dash
      · cases zs with
        | nil => exact .inl ⟨by simp [optparseIsDashdash, hx, hy], by simp [hx, hy]⟩
        | cons z zs =>
          exact .inr (.inr (.inl ⟨rfl, by simp [optparseIsShortopt, hy], by simp [optparseIsLongopt, hx, hy], z :: zs,
            by simp [hx, hy], by simp [hx, hy]⟩))
      · refine .inr (.inl ⟨?_, by simp [optparseIsShortopt, hx, hy], y :: zs, by simp [hx], by simp [hx, hy]⟩)
        cases zs <;> simp [optparseIsDashdash, hy]
    · refine .inr (.inr (.inr ⟨?_, by simp [optparseIsShortopt, hx], ?_, by simp [hx]⟩))
      · cases zs <;> simp [optparseIsDashdash, hx]
      · cases zs <;> simp [optparseIsLongopt, hx]

section

variable {G : Grammar} {optstring : CString} {o : Optparse} {before args : List CString} {a chars : CString}

/-- The short options of a grammar are those of the string. -/
def SameShort (G : Grammar) (optstring : CString) : Prop :=
  ∀ c, c ≠ 0 → G.short c = (optparseArgtype optstring c).map fun takes => (charInt c, takes)

theorem optparseShortopt_returns (hsame : SameShort G optstring) (hargv : o.argv = before ++ (dash :: chars) :: args)
    (hoptind : o.optind = before.length) (hpermute : o.permute = true) (hoptarg : o.optarg = none)
    (herrmsg : o.errmsg = []) (hlt : o.subopt < chars.length) (hnul : 0 ∉ chars) :
    Returns (G.callShort o.subopt (chars.drop o.subopt) args.head?) before [] ((dash :: chars) :: args)
      (optparseShortopt o (dash :: chars) optstring) := by
  obtain ⟨c, rest, hdrop⟩ : ∃ c rest, chars.drop o.subopt = c :: rest :=
    ⟨_, _, List.drop_eq_getElem_cons hlt⟩
  have hc : c ≠ 0 := by
    rintro rfl
    exact hnul (List.mem_of_mem_drop (hdrop ▸ List.mem_cons_self))
  have hnext : o.argv[o.optind + 1]? = args.head? := by
    rw [hargv, hoptind, List.getElem?_append_right (Nat.le_add_right ..), Nat.add_sub_cancel_left]
    cases args <;> rfl
  have hkeep : ∀ n, o.argv = before ++ ((dash :: chars) :: args).take n ++ [] ++ ((dash :: chars) :: args).drop n := by
    intro n
    rw [hargv, List.append_nil, List.append_assoc, List.take_append_drop]
  have hshort := hsame c hc
  unfold optparseShortopt
  rw [if_neg (by rw [List.length_cons]; omega), List.drop_succ_cons, hdrop]
  change Returns _ _ _ _ (optparseChar o c rest optstring)
  unfold optparseChar
  rw [Grammar.callShort, hshort]
  dsimp only
  rw [hnext]
  cases htype : optparseArgtype optstring c with
  | none =>
    dsimp only [Option.map_none]
    rw [if_neg hc]
    refine ⟨_, _, optparseError_eq _ .invalid [c], hkeep 1, ?_, hpermute, rfl, rfl, hoptarg, rfl⟩
    exact congrArg (· + 1) hoptind
  | some takes =>
    cases takes with
    | none =>
      dsimp only [Option.map_some]
      by_cases hrest : rest = []
      · rw [if_pos hrest, if_neg (absurd hrest)]
        exact ⟨_, _, rfl, hkeep 1, congrArg (· + 1) hoptind, hpermute, rfl, rfl, hoptarg, herrmsg⟩
      · rw [if_neg hrest, if_pos hrest]
        exact ⟨_, _, rfl, hkeep 0, hoptind, hpermute, rfl, rfl, hoptarg, herrmsg⟩
    | required =>
      dsimp only [Option.map_some]
      by_cases hrest : rest = []
      · rw [if_neg (not_not.2 hrest), if_neg (not_not.2 hrest)]
        cases args with
        | nil =>
          refine ⟨_, _, optparseError_eq _ .missing [c], hkeep 1, ?_, hpermute, rfl, rfl, rfl, rfl⟩
          exact congrArg (· + 1) hoptind
        | cons next args =>
          exact ⟨_, _, rfl, hkeep 2, congrArg (· + 2) hoptind, hpermute, rfl, rfl, rfl, herrmsg⟩
      · rw [if_pos hrest, if_pos hrest]
        exact ⟨_, _, rfl, hkeep 1, congrArg (· + 1) hoptind, hpermute, rfl, rfl, rfl, herrmsg⟩
    | optional =>
      dsimp only [Option.map_some]
      refine ⟨_, _, rfl, hkeep 1, congrArg (· + 1) hoptind, hpermute, rfl, rfl, ?_, herrmsg⟩
      dsimp only [optargOf]
      by_cases hrest : rest = []
      · rw [if_pos hrest, if_neg (not_not.2 hrest)]
      · rw [if_neg hrest, if_pos hrest]

end

/-! ## `optparse` -/

section

variable {G : Grammar} {optstring : CString} {o : Optparse} {depth : Nat} {a : CString}

theorem optparseAt_short (ho : o.argv[o.optind]? = some a) (hdashdash : optparseIsDashdash a = false)
    (hshort : optparseIsShortopt a = true) :
    optparseAt (depth + 1) o optstring =
      optparseShortopt { o with errmsg := [], optopt := 0, optarg := none } a optstring := by
  rw [optparseAt]
  dsimp only
  rw [ho]
  dsimp only
  rw [hdashdash, hshort]
  rfl

/-- What is moved is neither `--` nor a short option. -/
theorem optparseAt_skips : Skips G fun depth o => optparseAt depth o optstring := by
  intro depth o x hx hpositional hpermute
  refine ⟨{ o with errmsg := [], optopt := 0, optarg := none, optind := o.optind + 1 }, rfl, rfl, hpermute, rfl, ?_⟩
  have hkind : optparseIsDashdash x = false ∧ optparseIsShortopt x = false := by
    rcases classify_cases G x with ⟨-, h⟩ | ⟨-, -, _, -, h⟩ | ⟨hd, hs, -, -⟩ | ⟨hd, hs, -, -⟩
    · rw [hpositional] at h
      cases h
    · rw [hpositional] at h
      cases h
    · exact ⟨hd, hs⟩
    · exact ⟨hd, hs⟩
  dsimp only
  rw [optparseAt]
  dsimp only
  rw [hx]
  dsimp only
  rw [hkind.1, hkind.2, hpermute]
  rfl

theorem optparseAt_front (hsame : SameShort G optstring) (hlong : G.long = none) :
    ReadsFront G fun depth o => optparseAt depth o optstring := by
  intro depth o before args hargv hoptind hpermute hplace hnul
  cases args with
  | nil =>
    have hend : o.argv[o.optind]? = none := by simp [hargv, hoptind]
    have hread : optparseAt (depth + 1) o optstring =
        some (-1, { o with errmsg := [], optopt := 0, optarg := none }) := by
      rw [optparseAt]
      dsimp only
      rw [hend]
      exact if_pos (by rw [hoptind, hargv, List.append_nil])
    exact ⟨_, _, hread, by simpa using hargv, hoptind, hpermute, rfl, rfl⟩
  | cons a args =>
    have hget : o.argv[o.optind]? = some a := by simp [hargv, hoptind]
    have hfront := hplace.front a rfl
    rcases classify_cases G a with ⟨hd, hkind⟩ | ⟨hd, hs, chars, rfl, hkind⟩ | ⟨-, -, -, _, -, hkind⟩ | ⟨-, -, -, hkind⟩
    · have hread : optparseAt (depth + 1) o optstring =
          some (-1, { o with errmsg := [], optopt := 0, optarg := none, optind := o.optind + 1 }) := by
        rw [optparseAt]
        dsimp only
        rw [hget]
        dsimp only
        rw [hd]
        rfl
      rw [Grammar.call_stop args _ hkind]
      exact ⟨_, _, hread, by simpa using hargv, congrArg (· + 1) hoptind, hpermute, rfl, rfl⟩
    · dsimp only
      rw [Grammar.call_short args _ hkind, optparseAt_short hget hd hs]
      refine optparseShortopt_returns (o := { o with errmsg := [], optopt := 0, optarg := none }) hsame hargv hoptind
        hpermute rfl rfl
        (hplace.short _ rfl chars hkind) fun hmem => hnul _ List.mem_cons_self (List.mem_cons_of_mem dash hmem)
    · rw [hlong] at hkind
      exact absurd hkind hfront
    · exact absurd hkind hfront

end

end Tinyalsa
