/-
What `tinymix controls` and `tinymix contents` list (`list_controls`), and which control a word of `tinymix get` or
`tinymix set` addresses: the row of that number, or the first row of that name.
-/
import Tinyalsa.Mixer.Names
import Tinyalsa.Utils.TinymixText

namespace Tinyalsa.Tinymix

open Hoare CInt

/-! ## Controls by a word -/

/-- `isnumber`. -/
def isnumber (str : CString) : Bool := str ≠ [] && (strtol str 0).rest = []

/-- `mixer_ctl_get_type_string`. -/
def mixerCtlGetTypeString (ctl : MixerCtl) : CString :=
  match ctl.info.type with
  | .boolean => ascii ['B', 'O', 'O', 'L']
  | .integer => ascii ['I', 'N', 'T']
  | .enumerated => ascii ['E', 'N', 'U', 'M']
  | .bytes => ascii ['B', 'Y', 'T', 'E']
  | .iec958 => ascii ['I', 'E', 'C', '9', '5', '8']
  | .integer64 => ascii ['I', 'N', 'T', '6', '4']
  | .none => ascii ['U', 'n', 'k', 'n', 'o', 'w', 'n']

def tabChar : UInt8 := 9
def newlineChar : UInt8 := 10

/-- `%-40s`. -/
def padded (s : CString) : CString := s ++ List.replicate (40 - s.length) 32

/-- The first two lines of a listing. -/
def heading (numCtls : Nat) (printAll : Bool) : CString :=
  ascii "Number of controls: ".toList ++ digitsText numCtls ++ [newlineChar] ++ ascii "ctl\ttype\tnum\t".toList ++
    padded (ascii "name".toList) ++ ascii "\tdevice".toList ++ (if printAll then ascii "\tvalue".toList else []) ++
    [newlineChar]

/-- The columns of a control. -/
def rowText (i : Nat) (ctl : MixerCtl) : CString :=
  digitsText i ++ tabChar :: mixerCtlGetTypeString ctl ++ tabChar :: digitsText ctl.info.count.toNat ++
    tabChar :: padded (chars ctl.info.id.name) ++ tabChar :: digitsText ctl.info.id.device.toNat

section

variable {δ η π : Type} (opsOf : Addr → CtlOps δ) (printEnum : MixerCtl → CtlM δ CString) (w : MixWorld η π)

/-- The control that `get` and `set` find by a word. -/
def findCtl (nameOrId : CString) : Option CtlPtr :=
  if isnumber nameOrId then mixerGetCtl w.mixer w.heap (toUInt (atoi nameOrId))
  else mixerGetCtlByName w.mixer w.heap (some nameOrId)

/-- `print_control_values`, through the operations of the control's group. -/
def printCtl (ctl : MixerCtl) : CtlM δ CString := printControlValues (opsOf ctl.grp) printEnum ctl

/-- `print_control_values_by_name_or_id`; nothing, where there is no such control. -/
def printControlValuesByNameOrId (nameOrId : CString) : CtlM δ (Option CString) := do
  match (findCtl w nameOrId).bind (derefCtl w.heap) with
  | none => return none
  | some ctl =>
    let text ← printCtl opsOf printEnum ctl
    return some text

/-- The loop of `list_controls` over the ids that are left; nothing, where it comes to a control that is `NULL`. -/
def listLoop (printAll : Bool) : List Nat → CtlM δ (Option CString)
  | [] => return some []
  | i :: rest => do
    match (mixerGetCtl w.mixer w.heap i.toUInt32).bind (derefCtl w.heap) with
    | none => return none
    | some ctl =>
      let values ← if printAll then printCtl opsOf printEnum ctl else pure []
      let behind ← listLoop printAll rest
      return behind.map fun text => rowText i ctl ++ values ++ [newlineChar] ++ text

/-- `list_controls`. -/
def listControls (printAll : Bool) : CtlM δ (Option CString) := do
  let numCtls := w.mixer.totalCount.toNat
  let rows ← listLoop opsOf printEnum w printAll (List.range numCtls)
  return rows.map (heading numCtls printAll ++ ·)

end

/-! ## Rows and words -/

section

variable {η π : Type} (w : MixWorld η π)

/-- The columns of row `i`. -/
def rowOf (i : Nat) : CString :=
  (((ctlsById w)[i]?.bind (derefCtl w.heap)).map (rowText i)).getD []

/-- The words that address the rows. -/
structure WordsAddress : Prop where
  /-- The number of a row addresses the row; beyond the last row it addresses nothing. -/
  row : ∀ i, i < 2 ^ 32 → findCtl w (digitsText i) = (ctlsById w)[i]?
  /-- A word that is no number addresses the first row of that name. -/
  name : ∀ s, isnumber s = false → findCtl w s = (ctlsById w).find? (ctlIs w.heap (MixerCtl.named s))
  /-- A hexadecimal number addresses row 0: it is told by `strtol` to be a number, and read by `atoi`. -/
  hex : ∀ ds, ds ≠ [] → (∀ c ∈ ds, isBaseDigit 16 c) → findCtl w (48 :: 120 :: ds) = (ctlsById w)[0]?
  /-- A row is addressed by its own name where no row before it has that name; and where the name is a number, just
  where this is the number of the row. -/
  own : ∀ i p ctl, (ctlsById w)[i]? = some p → derefCtl w.heap p = some ctl →
    (findCtl w (chars ctl.info.id.name) = some p ↔
      if isnumber (chars ctl.info.id.name) then (toUInt (atoi (chars ctl.info.id.name))).toNat = i
      else ∀ j q, j < i → (ctlsById w)[j]? = some q → ctlIs w.heap (MixerCtl.named (chars ctl.info.id.name)) q = false)

end

section

variable {δ η π : Type} {opsOf : Addr → CtlOps δ} {printEnum : MixerCtl → CtlM δ CString} {w : MixWorld η π}

/-- An id below the total count denotes a control that is there. -/
theorem exists_ctl (hi : MixerInv w) {id : UInt32} (hlt : id.toNat < w.mixer.totalCount.toNat) :
    ∃ p ctl, mixerGetCtl w.mixer w.heap id = some p ∧ derefCtl w.heap p = some ctl := by
  rcases Nat.lt_or_ge id.toNat (hCount w) with hin | hge
  · obtain ⟨g, hg, -, -⟩ := hi.grp_of_lt (k := .hw) hin
    exact ⟨_, g.ctl id.toNat, mixerGetCtl_hw hlt hin, congrArg (Option.map fun g : MixerCtlGroup => g.ctl id.toNat) hg⟩
  · obtain ⟨hp, hin⟩ := mixerGetCtl_plug hi hlt hge
    obtain ⟨g, hg, -, -⟩ := hi.grp_of_lt (k := .plug) hin
    exact ⟨_, g.ctl (id.toNat - hCount w), hp,
      congrArg (Option.map fun g : MixerCtlGroup => g.ctl (id.toNat - hCount w)) hg⟩

/-- Row `i` is the control with the id `i`. -/
theorem getElem?_ctlsById (hi : MixerInv w) {i : Nat} (hlt : i < 2 ^ 32) :
    (ctlsById w)[i]? = mixerGetCtl w.mixer w.heap i.toUInt32 := by
  have hid : ∀ {n : Nat}, n < 2 ^ 32 → n.toUInt32.toNat = n := fun h => UInt32.toNat_ofNat_of_lt' h
  have hsome : ∀ n, n < w.mixer.totalCount.toNat →
      mixerGetCtl w.mixer w.heap n.toUInt32 = some ((mixerGetCtl w.mixer w.heap n.toUInt32).getD ⟨0, 0⟩) := by
    intro n hn
    have hn' := hid (hn.trans w.mixer.totalCount.toNat_lt)
    have hne : mixerGetCtl w.mixer w.heap n.toUInt32 ≠ none := mixerGetCtl_ne_none hi (by omega)
    obtain ⟨p, hp⟩ := Option.ne_none_iff_exists'.1 hne
    rw [hp, Option.getD_some]
  have hlist : ctlsById w = (List.range w.mixer.totalCount.toNat).map fun n =>
      (mixerGetCtl w.mixer w.heap n.toUInt32).getD ⟨0, 0⟩ := by
    unfold ctlsById
    rw [← List.filterMap_eq_map]
    exact List.filterMap_congr fun n hn => hsome n (List.mem_range.1 hn)
  rw [hlist, List.getElem?_map]
  rcases Nat.lt_or_ge i w.mixer.totalCount.toNat with hin | hout
  · rw [List.getElem?_range hin]
    exact (hsome i hin).symm
  · rw [List.getElem?_eq_none (by rwa [List.length_range]), mixerGetCtl_none (by rw [hid hlt]; exact hout)]
    rfl

theorem isnumber_digitsText {m : Nat} (hm : m < 2 ^ 63) : isnumber (digitsText m) = true := by
  unfold isnumber
  rw [strtol_digitsText hm (.inl rfl)]
  simp [digitsText_ne_nil]

/-- The number of a row addresses it, also where an `int` cannot hold the number. -/
theorem findCtl_digitsText (hi : MixerInv w) {i : Nat} (hlt : i < 2 ^ 32) :
    findCtl w (digitsText i) = (ctlsById w)[i]? := by
  have hid : toUInt (atoi (digitsText i)) = i.toUInt32 := by
    unfold atoi
    rw [strtol_digitsText (by omega) (.inr rfl), ← UInt32.toNat_inj]
    exact (toNat_toUInt_wrapInt hlt).trans (UInt32.toNat_ofNat_of_lt' hlt).symm
  unfold findCtl
  rw [if_pos (isnumber_digitsText (by omega)), hid, getElem?_ctlsById hi hlt]

theorem findCtl_number (hi : MixerInv w) {s : CString} (hs : isnumber s = true) :
    findCtl w s = (ctlsById w)[(toUInt (atoi s)).toNat]? := by
  unfold findCtl
  rw [if_pos hs, getElem?_ctlsById hi (toUInt (atoi s)).toNat_lt]
  congr 1
  exact UInt32.toNat_inj.1 (UInt32.toNat_ofNat_of_lt' (toUInt (atoi s)).toNat_lt).symm

theorem findCtl_name (hi : MixerInv w) (hfit : hCount w + vCount w < 2 ^ 32) {s : CString} (hs : isnumber s = false) :
    findCtl w s = (ctlsById w).find? (ctlIs w.heap (MixerCtl.named s)) := by
  have hagree := lookupsAgree_of_fit hi hfit (some s)
  unfold findCtl
  rw [if_neg (by rw [hs]; decide), hagree.first, hagree.index, goesBy_some, ← List.head?_filter,
    List.head?_eq_getElem?]
  rfl

/-- A hexadecimal number is one for `isnumber`, and 0 for `atoi`. -/
theorem isnumber_hex {ds : CString} (hne : ds ≠ []) (hds : ∀ c ∈ ds, isBaseDigit 16 c) :
    isnumber (48 :: 120 :: ds) = true ∧ atoi (48 :: 120 :: ds) = 0 := by
  obtain ⟨d, rest, rfl⟩ := List.exists_cons_of_ne_nil hne
  have hsigned : signed ((48 :: 120 :: d :: rest).dropWhile isSpace) = (false, 48 :: 120 :: d :: rest) := rfl
  have hmark : hasHexMark (48 :: 120 :: d :: rest) = true := by
    unfold hasHexMark
    simp [hds d List.mem_cons_self]
  have hall : ∀ c ∈ d :: rest, isBaseDigit 16 c = true := hds
  constructor
  · have hbase : baseOf 0 (48 :: 120 :: d :: rest) = (16, d :: rest) := by
      unfold baseOf
      rw [hmark]
      rfl
    have hrest : (strtol (48 :: 120 :: d :: rest) 0).rest = [] := by
      unfold strtol
      rw [hsigned]
      dsimp only
      rw [hbase]
      dsimp only
      rw [List.takeWhile_eq_self_iff.2 hall, if_neg (List.cons_ne_nil d rest), List.dropWhile_eq_nil_iff.2 hall]
    unfold isnumber
    rw [hrest]
    rfl
  · have hdigits : (48 :: 120 :: d :: rest).takeWhile (isBaseDigit 10) = [48] := rfl
    have hvalue : (strtol (48 :: 120 :: d :: rest) 10).value = 0 := by
      unfold strtol
      rw [hsigned]
      dsimp only
      rw [show baseOf 10 (48 :: 120 :: d :: rest) = (10, 48 :: 120 :: d :: rest) from if_neg Bool.false_ne_true]
      dsimp only
      rw [hdigits]
      rfl
    unfold atoi
    rw [hvalue]
    rfl

/-- No control has two rows. -/
theorem nodup_ctlsById (hi : MixerInv w) (hfit : hCount w + vCount w < 2 ^ 32) : (ctlsById w).Nodup := by
  have hgrp : ∀ a, (grpCtls w.heap a).Nodup := fun a =>
    List.nodup_range.map fun i j h => (CtlPtr.mk.inj h).2
  rw [ctlsById_eq hi hfit]
  refine (hgrp _).append (hgrp _) ?_
  rcases eq_or_ne w.mixer.hGrp 0 with hz | hne
  · have hnone : grpCtls w.heap w.mixer.hGrp = [] := by
      unfold grpCtls mixerGrpGetCount
      rw [if_pos hz]
      rfl
    rw [hnone]
    exact List.disjoint_nil_left _
  · intro p hp hq
    obtain ⟨i, -, rfl⟩ := List.mem_map.1 hp
    obtain ⟨j, -, hj⟩ := List.mem_map.1 hq
    exact hi.ptr_ne .hw .plug nofun hne (CtlPtr.mk.inj hj).1.symm

/-- In a list without repetitions, an element that is selected is found just where none before it is selected. -/
theorem find?_eq_some_iff_first {α : Type} {l : List α} (hl : l.Nodup) {t : α → Bool} {i : Nat} {x : α}
    (hx : l[i]? = some x) (ht : t x = true) :
    l.find? t = some x ↔ ∀ j y, j < i → l[j]? = some y → t y = false := by
  obtain ⟨hlt, hget⟩ := List.getElem?_eq_some_iff.1 hx
  rw [List.find?_eq_some_iff_getElem]
  constructor
  · rintro ⟨-, k, hk, heq, hbefore⟩ j y hj hy
    obtain rfl : k = i := (List.getElem?_inj hk hl).1 (by rw [List.getElem?_eq_getElem hk, heq, hx])
    obtain ⟨-, rfl⟩ := List.getElem?_eq_some_iff.1 hy
    simpa using hbefore j hj
  · intro h
    refine ⟨ht, i, hlt, hget, fun j hj => ?_⟩
    simpa using h j _ hj (List.getElem?_eq_getElem (hj.trans hlt))

theorem findCtl_own (hi : MixerInv w) (hfit : hCount w + vCount w < 2 ^ 32) {i : Nat} {p : CtlPtr} {ctl : MixerCtl}
    (hp : (ctlsById w)[i]? = some p) (hctl : derefCtl w.heap p = some ctl) :
    findCtl w (chars ctl.info.id.name) = some p ↔
      if isnumber (chars ctl.info.id.name) then (toUInt (atoi (chars ctl.info.id.name))).toNat = i
      else ∀ j q, j < i → (ctlsById w)[j]? = some q →
        ctlIs w.heap (MixerCtl.named (chars ctl.info.id.name)) q = false := by
  have hnodup := nodup_ctlsById hi hfit
  have hlt := (List.getElem?_eq_some_iff.1 hp).1
  cases hs : isnumber (chars ctl.info.id.name) with
  | true =>
    rw [findCtl_number hi hs, ← hp, if_pos rfl, eq_comm, List.getElem?_inj hlt hnodup]
    exact eq_comm
  | false =>
    have hself : ctlIs w.heap (MixerCtl.named (chars ctl.info.id.name)) p = true := by
      unfold ctlIs MixerCtl.named strEq chars
      rw [hctl]
      refine decide_eq_true (List.takeWhile_eq_self_iff.2 ?_)
      exact fun x hx => List.mem_takeWhile_imp (p := fun c : UInt8 => decide (c ≠ 0)) hx
    rw [findCtl_name hi hfit hs, if_neg Bool.false_ne_true]
    exact find?_eq_some_iff_first hnodup hp hself

/-! ## The listing -/

/-- A row whose values `get` prints. -/
def rowWith (w : MixWorld η π) (i : Nat) (text : Option CString) : CString :=
  rowOf w i ++ text.getD [] ++ [newlineChar]

/-- A round of the loop: the row, and behind it what `get` prints for its number. -/
theorem listLoop_cons (hi : MixerInv w) (printAll : Bool) {i : Nat} (hlt : i < w.mixer.totalCount.toNat)
    (rest : List Nat) (s : AccessState δ) :
    exec (listLoop opsOf printEnum w printAll (i :: rest)) s = exec (do
      let text ← if printAll then printControlValuesByNameOrId opsOf printEnum w (digitsText i) else pure (some [])
      let behind ← listLoop opsOf printEnum w printAll rest
      return behind.map (rowWith w i text ++ ·)) s := by
  have hi32 : i < 2 ^ 32 := hlt.trans w.mixer.totalCount.toNat_lt
  have hid : i.toUInt32.toNat = i := UInt32.toNat_ofNat_of_lt' hi32
  obtain ⟨p, ctl, hp, hctl⟩ := exists_ctl hi (show i.toUInt32.toNat < w.mixer.totalCount.toNat by rwa [hid])
  have hfind : findCtl w (digitsText i) = some p := by rw [findCtl_digitsText hi hi32, getElem?_ctlsById hi hi32, hp]
  have hrow : rowOf w i = rowText i ctl := by
    unfold rowOf
    rw [getElem?_ctlsById hi hi32, hp, Option.bind_some, hctl]
    rfl
  rw [listLoop, hp, Option.bind_some, hctl]
  unfold printControlValuesByNameOrId rowWith
  rw [hfind, Option.bind_some, hctl, hrow]
  cases printAll <;> simp only [exec_bind, exec_pure, Bool.false_eq_true, if_true, if_false, Option.getD_some]

theorem listLoop_columns (hi : MixerInv w) (s : AccessState δ) {ids : List Nat}
    (hids : ∀ i ∈ ids, i < w.mixer.totalCount.toNat) :
    exec (listLoop opsOf printEnum w false ids) s = (some (ids.flatMap fun i => rowOf w i ++ [newlineChar]), s) := by
  induction ids with
  | nil => rfl
  | cons i rest ih =>
    obtain ⟨hi', hrest⟩ := List.forall_mem_cons.1 hids
    rw [listLoop_cons hi false hi']
    simp only [exec_bind, exec_pure, Bool.false_eq_true, if_false, ih hrest, Option.map_some, rowWith,
      Option.getD_some, List.append_nil, List.flatMap_cons]

theorem listLoop_values (hi : MixerInv w) {ids : List Nat} (hids : ∀ i ∈ ids, i < w.mixer.totalCount.toNat)
    (s : AccessState δ) :
    exec (listLoop opsOf printEnum w true ids) s = exec (do
      let texts ← ids.mapM fun i => printControlValuesByNameOrId opsOf printEnum w (digitsText i)
      return some (List.zipWith (rowWith w) ids texts).flatten) s := by
  induction ids generalizing s with
  | nil => rfl
  | cons i rest ih =>
    obtain ⟨hi', hrest⟩ := List.forall_mem_cons.1 hids
    rw [listLoop_cons hi true hi', List.mapM_cons]
    simp only [exec_bind, exec_pure, if_true, ih hrest, Option.map_some, List.zipWith_cons_cons,
      List.flatten_cons]

/-- What the two commands list, and which row each word addresses. -/
structure Listed (opsOf : Addr → CtlOps δ) (printEnum : MixerCtl → CtlM δ CString) (w : MixWorld η π) : Prop where
  words : WordsAddress w
  /-- `controls` prints the columns of every control, in the order of the ids. -/
  controls : ∀ s, exec (listControls opsOf printEnum w false) s =
    (some (heading w.mixer.totalCount.toNat false ++
      (List.range w.mixer.totalCount.toNat).flatMap fun i => rowOf w i ++ [newlineChar]), s)
  /-- `contents` prints behind each row what `get` prints for its number. -/
  contents : ∀ s, exec (listControls opsOf printEnum w true) s = exec (do
    let texts ← (List.range w.mixer.totalCount.toNat).mapM fun i =>
      printControlValuesByNameOrId opsOf printEnum w (digitsText i)
    return some (heading w.mixer.totalCount.toNat true ++
      (List.zipWith (rowWith w) (List.range w.mixer.totalCount.toNat) texts).flatten)) s

/-- tinymix lists every control of a mixer, and what is listed can be addressed: by the number of its row always, and
by its name where no row before it has the name and no number is meant by it. -/
theorem listed_addressed (hi : MixerInv w) (hfit : hCount w + vCount w < 2 ^ 32) : Listed opsOf printEnum w := by
  have hids : ∀ i ∈ List.range w.mixer.totalCount.toNat, i < w.mixer.totalCount.toNat := fun i h => List.mem_range.1 h
  refine ⟨⟨fun i hlt => findCtl_digitsText hi hlt, fun s hs => findCtl_name hi hfit hs, fun ds hne hds => ?_,
    fun i p ctl hp hctl => findCtl_own hi hfit hp hctl⟩, fun s => ?_, fun s => ?_⟩
  · obtain ⟨hnumber, hatoi⟩ := isnumber_hex hne hds
    rw [findCtl_number hi hnumber, hatoi]
    rfl
  · unfold listControls
    simp only [exec_bind, exec_pure, listLoop_columns hi s hids, Option.map_some]
  · unfold listControls
    simp only [exec_bind, exec_pure, listLoop_values hi hids s, Option.map_some]

/-- Two controls of the hardware, the second with the number 12 for a name, and one of the plugin. -/
def namedCard : MixWorld Card MixerPlugin where
  hw := {}
  plug := oneControl
  alloc := fun _ => true
  mixer := { hGrp := 2, vGrp := 3, totalCount := 3 }
  self := 1
  heap := fun a =>
    if a = 2 then
      some {
        kind := .hw
        ctl := fun i =>
          { mixer := 1, grp := 2, info := { id := { name := if i = 0 then [86, 111, 108] else [49, 50] } } }
        allocated := 2
        count := 2 }
    else if a = 3 then
      some {
        kind := .plug
        ctl := fun _ => { mixer := 1, grp := 3, info := { id := { name := [86, 111, 108] } } }
        allocated := 1
        count := 1 }
    else none
  isOpen := fun _ => true

theorem namedCard_inv : MixerInv namedCard where
  live := by
    intro k
    refine .inr ?_
    cases k with
    | hw => exact ⟨_, rfl, rfl, rfl, by decide +kernel, fun _ _ => ⟨rfl, rfl⟩⟩
    | plug => exact ⟨_, rfl, rfl, rfl, by decide +kernel, fun _ _ => ⟨rfl, rfl⟩⟩
  total := by decide +kernel

/-- `Vol` is row 0, row 2 has its number only, and no word but a number addresses row 1. -/
theorem listed_addressed_named : Listed (fun _ => echoOps) (fun _ => pure []) namedCard ∧
    findCtl namedCard [86, 111, 108] = some ⟨2, 0⟩ ∧ findCtl namedCard [50] = some ⟨3, 0⟩ ∧
      findCtl namedCard [49, 50] = none := by
  refine ⟨listed_addressed namedCard_inv (by decide +kernel), ?_, ?_, ?_⟩ <;> decide +kernel

end

end Tinyalsa.Tinymix
