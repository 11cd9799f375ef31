/-
What tinymix prints of an ENUMERATED control (`print_enum`), and what `set` makes of the name that is marked there: the
first item of that name, unless the name starts with a digit and is taken for an index.
-/
import Tinyalsa.Mixer.EnumByName
import Tinyalsa.Utils.TinymixText

namespace Tinyalsa.Tinymix

open Hoare ByteMemory CInt

/-! ## A control and its names -/

section

variable {δ : Type} (ops : CtlOps δ)

/-- The backend of a control, beside which the control's names are kept. -/
def enumOps : CtlOps (EnumWorld δ) where
  elemInfo info w :=
    let (ret, info, dev) := ops.elemInfo info w.dev
    (ret, info, { w with dev })
  elemRead ev w :=
    let (ret, ev, dev) := ops.elemRead ev w.dev
    (ret, ev, { w with dev })
  elemWrite ev w :=
    let (ret, dev) := ops.elemWrite ev w.dev
    (ret, { w with dev })
  tlvRead tlv w :=
    let (ret, tlv, dev) := ops.tlvRead tlv w.dev
    (ret, tlv, { w with dev })
  tlvWrite tlv w :=
    let (ret, dev) := ops.tlvWrite tlv w.dev
    (ret, { w with dev })

/-- A function on the names of the control, among those on its values. -/
def onNames {α : Type} (f : EnumM δ α) : CtlM (EnumWorld δ) α := do
  let s ← get
  let (a, dev) := exec f s.dev
  set { s with dev }
  return a

/-! ## Printing -/

/-- `"> "`. -/
def markText : CString := ascii ['>', ' ']
/-- What is printed for NULL. -/
def nullText : CString := ascii ['(', 'n', 'u', 'l', 'l', ')']

/-- `printf("%s%s, ", marked ? "> " : "", string)`. -/
def itemText (marked : Bool) (string : CString) : CString :=
  (if marked then markText else []) ++ chars string ++ commaText

/-- The string at an address, as `%s` prints it. -/
def printedString (a : Addr) : EnumM δ CString := do
  if a = 0 then return nullText else readString a

/-- The loop of `print_enum`, with `rem` items left from `i` on. -/
def printItems (value : UInt32) : Nat → Nat → CtlM (EnumWorld δ) CString
  | 0, _ => return []
  | rem + 1, i => do
    let string ← onNames (mixerCtlGetEnumString ops i.toUInt32)
    let text := itemText (value = i.toUInt32) (← onNames (printedString string))
    let behind ← printItems value rem (i + 1)
    return text ++ behind

/-- `mixer_ctl_get_num_enums`. -/
def mixerCtlGetNumEnums (ctl : MixerCtl) : UInt32 := ctl.info.items

/-- `print_enum`. -/
def printEnum (ctl : MixerCtl) : CtlM (EnumWorld δ) CString := do
  let numEnums := mixerCtlGetNumEnums ctl
  let value := toUInt (← mixerCtlGetValue (enumOps ops) ctl 0)
  printItems ops value numEnums.toNat 0

/-- `set_values` with the functions it calls, over what finds its control. -/
def enumParts (findCtl : CString → Option MixerCtl) : SetParts (EnumWorld δ) where
  findCtl
  setByteCtl ctl values := do
    let _ ← tinymixSetByteCtl (enumOps ops) ctl values
    return ()
  setEnumByString _ string := onNames (mixerCtlSetEnumByString ops (some string))

end

/-- The items from the `i`-th on, the one that is the value marked. -/
def itemsText (value : Nat) : Nat → List CString → CString
  | _, [] => []
  | i, name :: rest => itemText (value = i) name ++ itemsText value (i + 1) rest

/-- A control whose names are cached, or can be. -/
def NamesAtHand {δ : Type} (names : List CString) (w : EnumWorld δ) : Prop :=
  EnumReady names w ∨ ∃ live, HasNames w live ∧ NamesFrom (NameOf names) live

section

variable {δ : Type} (ops : CtlOps δ) (stored : δ → UInt32 → ValueUnion) (findCtl : CString → Option MixerCtl)
  (control : CString)

/-- `tinymix set control word`, for a control with its names. -/
def setByWord (word : CString) (w : EnumWorld δ) : Int × EnumWorld δ :=
  let (ret, s) := exec (setValues (enumOps ops) (enumParts ops findCtl) control [word]) { dev := w }
  (ret, s.dev)

variable (names : List CString)

/-- What `get` prints of an ENUMERATED control, and what becomes of a name of it as the argument of `set`. -/
structure NameHandedBack (w : EnumWorld δ) : Prop where
  /-- The items are printed once for each value, always with the first value marked. -/
  prints : (exec (printControlValues (enumOps ops) (printEnum ops) w.ctl) { dev := w }).1 =
    commaText.intercalate
      (List.replicate w.ctl.info.count.toNat (itemsText (storedItem stored w.ctl w.dev 0) 0 names))
  kept : stored (exec (printControlValues (enumOps ops) (printEnum ops) w.ctl) { dev := w }).2.dev.dev = stored w.dev
  /-- A word that starts with no digit sets the first item of that name, and all other values to 0. -/
  named : ∀ word i, isInt word = false → names.findIdx? (strEq word) = some i →
    (setByWord ops findCtl control word w).1 = 0 ∧ ∀ j, j < w.ctl.values →
      storedItem stored w.ctl (setByWord ops findCtl control word w).2.dev j = if j = 0 then i else 0
  unknown : ∀ word, isInt word = false → (∀ n ∈ names, strEq word n = false) →
    (setByWord ops findCtl control word w).1 = -1 ∧
      stored (setByWord ops findCtl control word w).2.dev = stored w.dev
  /-- A number sets the first value to it, whatever the items are called and how many there are. -/
  number : ∀ word, isInt word → (toControlValue word).isPercent = false → (toControlValue word).isRelative = false →
    (setByWord ops findCtl control word w).1 = 0 ∧
      storedItem stored w.ctl (setByWord ops findCtl control word w).2.dev 0 =
        (toUInt (toControlValue word).value).toNat ∧
      ∀ j, 0 < j → j < w.ctl.values → storedItem stored w.ctl (setByWord ops findCtl control word w).2.dev j =
        storedItem stored w.ctl w.dev j
  /-- The marked name, handed back, marks the same item just where it is the first of that name. -/
  marked : ∀ n, names[storedItem stored w.ctl w.dev 0]? = some n → isInt n = false →
    (storedItem stored w.ctl (setByWord ops findCtl control n w).2.dev 0 = storedItem stored w.ctl w.dev 0 ↔
      ∀ j m, j < storedItem stored w.ctl w.dev 0 → names[j]? = some m → strEq n m = false)

end

section

variable {δ : Type} {ops : CtlOps δ} {stored : δ → UInt32 → ValueUnion} {names : List CString} {ctl : MixerCtl}
  {s : AccessState (EnumWorld δ)} {w : EnumWorld δ} {live : List (Addr × CString)} {value : UInt32}

@[simp] theorem exec_onNames {α : Type} (f : EnumM δ α) :
    exec (onNames f) s = ((exec f s.dev).1, { s with dev := (exec f s.dev).2 }) := (rfl)

theorem storesValues_enumOps (hb : StoresValues ops stored) :
    StoresValues (enumOps ops) fun w => stored w.dev where
  readKeeps ev w := hb.readKeeps ev w.dev
  read ev w := hb.read ev w.dev
  writeFails ev w := hb.writeFails ev w.dev
  write ev w := hb.write ev w.dev

/-- What the name of an item is cached as is printed as the name. -/
theorem itemText_congr {n t : CString} (h : strEq n t) (marked : Bool) : itemText marked t = itemText marked n := by
  unfold itemText
  rw [show chars t = chars n from (strEq_iff.1 h).symm]

/-- With its names cached, a control is asked for nothing. -/
theorem getEnumString_cached (hn : HasNames w live) (ht : w.ctl.info.type = .enumerated) {i : Nat}
    (hi : i < w.ctl.info.items.toNat) : ∃ p, live[i]? = some p ∧
      exec (mixerCtlGetEnumString ops i.toUInt32) w = (p.1, w) ∧ exec (printedString p.1) w = (p.2, w) := by
  obtain ⟨p, hp, hcell, hstring⟩ := hn.cellAt hi
  have hindex : i.toUInt32.toNat = i := UInt32.toNat_ofNat_of_lt' (hi.trans w.ctl.info.items.toNat_lt)
  have hguard : ¬ (w.ctl.info.type ≠ .enumerated ∨ i.toUInt32 ≥ w.ctl.info.items) := by
    rw [ge_iff_le, UInt32.le_iff_toNat_le, hindex]
    exact not_or.2 ⟨not_not.2 ht, not_le.2 hi⟩
  refine ⟨p, hp, ?_, ?_⟩
  · unfold mixerCtlGetEnumString
    rw [exec_bind, exec_get]
    dsimp only
    rw [if_neg hguard, exec_bind, exec_mixerCtlFillEnumString_cached ops hn]
    dsimp only
    rw [if_neg (by decide), exec_bind, exec_get]
    dsimp only
    unfold getCell
    rw [exec_bind, exec_get]
    dsimp only
    rw [hindex, hcell]
    rfl
  · have hmem : (p.1, NameObj.string p.2) ∈ nameObjs w.ename (live.map Prod.fst) live :=
      List.mem_cons_of_mem _ (List.mem_map.2 ⟨p, List.mem_of_getElem? hp, rfl⟩)
    unfold printedString readString
    rw [if_neg (hn.2.pos _ hmem), exec_bind, exec_get]
    dsimp only
    rw [hstring]
    rfl

/-- With the names cached, the loop prints them and changes nothing. -/
theorem printItems_cached (hn : HasNames s.dev live) (hfrom : NamesFrom (NameOf names) live)
    (ht : s.dev.ctl.info.type = .enumerated) (hitems : s.dev.ctl.info.items.toNat = names.length) :
    ∀ rem i, i + rem = names.length →
      exec (printItems ops value rem i) s = (itemsText value.toNat i (names.drop i), s)
  | 0, i, hrem => by
    rw [List.drop_eq_nil_of_le (by omega)]
    rfl
  | rem + 1, i, hrem => by
    have hi : i < names.length := by omega
    have hlt : i < 2 ^ 32 := hi.trans (hitems ▸ s.dev.ctl.info.items.toNat_lt)
    obtain ⟨p, hp, hget, hprint⟩ := @getEnumString_cached _ ops _ _ hn ht i (hitems ▸ hi)
    have hname : strEq names[i] p.2 := hfrom i p hp _ (List.getElem?_eq_getElem hi)
    have hmark : decide (value = i.toUInt32) = decide (value.toNat = i) :=
      decide_eq_decide.2 (by rw [← UInt32.toNat_inj, UInt32.toNat_ofNat_of_lt' hlt])
    have hrest := printItems_cached hn hfrom ht hitems rem (i + 1) (by omega)
    rw [printItems, exec_bind, exec_onNames, hget]
    dsimp only
    rw [exec_bind, exec_onNames, hprint]
    dsimp only
    rw [exec_bind, hrest, exec_pure, List.drop_eq_getElem_cons hi, itemsText, hmark, itemText_congr hname]

/-- The names are fetched before the first is printed. -/
theorem printItems_fetch {rem : Nat} (hfill : (exec (mixerCtlFillEnumString ops) s.dev).1 = 0)
    (hn : HasNames (exec (mixerCtlFillEnumString ops) s.dev).2 live)
    (hctl : (exec (mixerCtlFillEnumString ops) s.dev).2.ctl = s.dev.ctl) (ht : s.dev.ctl.info.type = .enumerated)
    (hitems : s.dev.ctl.info.items.toNat = rem + 1) : exec (printItems ops value (rem + 1) 0) s =
      exec (printItems ops value (rem + 1) 0) { s with dev := (exec (mixerCtlFillEnumString ops) s.dev).2 } := by
  have hpos : ¬ (0 : Nat).toUInt32 ≥ s.dev.ctl.info.items := by
    rw [ge_iff_le, UInt32.le_iff_toNat_le, hitems]
    exact not_le.2 (Nat.succ_pos rem)
  have hget : exec (mixerCtlGetEnumString ops (0 : Nat).toUInt32) s.dev =
      exec (mixerCtlGetEnumString ops (0 : Nat).toUInt32) (exec (mixerCtlFillEnumString ops) s.dev).2 := by
    unfold mixerCtlGetEnumString
    rw [exec_bind, exec_get, exec_bind, exec_get]
    dsimp only
    rw [hctl, if_neg (not_or.2 ⟨not_not.2 ht, hpos⟩), exec_bind, exec_bind,
      exec_mixerCtlFillEnumString_cached ops hn]
    dsimp only
    rw [hfill]
  rw [printItems, exec_bind, exec_bind, exec_onNames, exec_onNames, hget]
  rfl

/-- Fetching the names succeeds and leaves what is stored. -/
theorem fill_ready (hb : ServesEnum ops stored names w.ctl) (hw : EnumReady names w) :
    (exec (mixerCtlFillEnumString ops) w).1 = 0 ∧ (exec (mixerCtlFillEnumString ops) w).2.ctl = w.ctl ∧
      stored (exec (mixerCtlFillEnumString ops) w).2.dev = stored w.dev ∧
      ∃ live, HasNames (exec (mixerCtlFillEnumString ops) w).2 live ∧ NamesFrom (NameOf names) live := by
  have hf := mixerCtlFillEnumString_spec (hb.answersStored w.dev) rfl hw.cached
  have hret := hb.fills hw
  refine ⟨hret, by rw [hf.frame], hf.dev, ?_⟩
  rcases hf.ends with ⟨-, hnames⟩ | ⟨hfail, -⟩
  · exact hnames
  · rw [hret] at hfail
    exact absurd hfail (by decide)

/-- The loop prints all items, whether their names are cached or not. -/
theorem printItems_text (hb : ServesEnum ops stored names w.ctl) (hw : NamesAtHand names w) (hs : s.dev = w) :
    ∃ s', exec (printItems ops value names.length 0) s = (itemsText value.toNat 0 names, s') ∧
      NamesAtHand names s'.dev ∧ s'.dev.ctl = w.ctl ∧ stored s'.dev.dev = stored w.dev := by
  subst hs
  rcases hw with hw | ⟨live, hn, hfrom⟩
  · obtain ⟨hret, hctl, hdev, live, hn, hfrom⟩ := fill_ready hb hw
    cases hnames : names with
    | nil => exact ⟨s, rfl, .inl (hnames ▸ hw), rfl, rfl⟩
    | cons n rest =>
      have hlen : names.length = rest.length + 1 := by rw [hnames, List.length_cons]
      have hfetch := @printItems_fetch _ ops s live value rest.length hret hn hctl hb.enumerated (hb.items.trans hlen)
      have hprint := @printItems_cached _ ops names { s with dev := (exec (mixerCtlFillEnumString ops) s.dev).2 } live
        value hn hfrom (by rw [hctl]; exact hb.enumerated) (by rw [hctl]; exact hb.items) (rest.length + 1) 0
        (by rw [hlen, Nat.zero_add])
      rw [← hnames, hlen, hfetch, hprint]
      exact ⟨_, rfl, .inr ⟨live, hn, hfrom⟩, hctl, hdev⟩
  · exact ⟨s, printItems_cached hn hfrom hb.enumerated hb.items _ 0 (Nat.zero_add _), .inr ⟨live, hn, hfrom⟩, rfl, rfl⟩

theorem storedItem_lt (ctl : MixerCtl) (d : δ) (j : Nat) : storedItem stored ctl d j < 2 ^ 32 := load_lt _ _ _

/-- Reading a value leaves the names at hand. -/
theorem NamesAtHand.read (hw : NamesAtHand names w) (d : δ) : NamesAtHand names { w with dev := d } :=
  hw.imp (fun h => ⟨h.alloc, h.cached⟩) id

/-- `print_enum` prints the items in order, the one that is stored first marked. -/
theorem printEnum_text (hb : ServesEnum ops stored names w.ctl) (hw : NamesAtHand names w)
    (hcount : 0 < w.ctl.info.count) (hs : s.dev = w) :
    ∃ s', exec (printEnum ops w.ctl) s = (itemsText (storedItem stored w.ctl w.dev 0) 0 names, s') ∧
      NamesAtHand names s'.dev ∧ s'.dev.ctl = w.ctl ∧ stored s'.dev.dev = stored w.dev := by
  subst hs
  have hread : ¬ ReadFails (enumOps ops) s.dev.ctl s := not_lt.2 (hb.reads _ _ rfl)
  have hsingle : s.dev.ctl.info.type.single := by
    rw [hb.enumerated]
    rfl
  have hmember : s.dev.ctl.info.type.member = some .enumerated := by
    rw [hb.enumerated]
    rfl
  have hget := exec_mixerCtlGetValue (UInt32.not_le.2 hcount) hread hsingle hmember
  have hvalue := (storesValues_enumOps hb.values).getValue hsingle hmember (by decide) (UInt32.not_le.2 hcount) hread
  have hitem : (toUInt (exec (mixerCtlGetValue (enumOps ops) s.dev.ctl 0) s).1).toNat =
      storedItem stored s.dev.ctl s.dev.dev 0 := by
    rw [hvalue, hb.enumerated]
    exact toNat_toUInt_wrapInt (storedItem_lt s.dev.ctl s.dev.dev 0)
  have hkept : stored (ops.elemRead s.dev.ctl.elemValue s.dev.dev).2.2 = stored s.dev.dev := hb.values.readKeeps _ _
  have hdev : (exec (mixerCtlGetValue (enumOps ops) s.dev.ctl 0) s).2.dev =
      { s.dev with dev := (ops.elemRead s.dev.ctl.elemValue s.dev.dev).2.2 } := by
    rw [hget]
    rfl
  unfold printEnum mixerCtlGetNumEnums
  rw [exec_bind, hb.items]
  generalize exec (mixerCtlGetValue (enumOps ops) s.dev.ctl 0) s = r at hitem hdev ⊢
  obtain ⟨s', hprint, hnames, hctl, hstored⟩ := @printItems_text _ ops stored names r.2
    { s.dev with dev := (ops.elemRead s.dev.ctl.elemValue s.dev.dev).2.2 } (toUInt r.1) hb (hw.read _) hdev
  rw [hitem] at hprint
  exact ⟨s', hprint, hnames, hctl, hstored.trans hkept⟩

/-- `print_control_values` prints the items once for each value, always with the first value marked. -/
theorem printEach_enum (buf : Memory) (hb : ServesEnum ops stored names ctl) (hcount : 0 < ctl.info.count) {d : δ} :
    ∀ (ids : List Nat) (s : AccessState (EnumWorld δ)), NamesAtHand names s.dev → s.dev.ctl = ctl →
      stored s.dev.dev = stored d →
      (exec (printEach (enumOps ops) (printEnum ops) ctl buf ids) s).1 =
          commaText.intercalate (ids.map fun _ => itemsText (storedItem stored ctl d 0) 0 names) ∧
        stored (exec (printEach (enumOps ops) (printEnum ops) ctl buf ids) s).2.dev.dev = stored d
  | [], _, _, _, hd => ⟨rfl, hd⟩
  | i :: rest, s, hw, hctl, hd => by
    obtain ⟨s', hprint, hw', hctl', hd'⟩ :=
      @printEnum_text _ ops stored names s _ (by rwa [hctl]) hw (by rwa [hctl]) rfl
    have hvalue : exec (printValue (enumOps ops) (printEnum ops) ctl buf i) s =
        (itemsText (storedItem stored ctl d 0) 0 names, s') := by
      unfold printValue
      rw [hb.enumerated]
      dsimp only
      rw [hctl] at hprint
      rw [hprint]
      unfold storedItem
      rw [hd]
    obtain ⟨hbehind, hdev⟩ := printEach_enum buf hb hcount rest s' hw' (hctl'.trans hctl) (hd'.trans hd)
    rw [printEach, exec_bind, hvalue]
    dsimp only
    rw [exec_bind, exec_pure]
    refine ⟨?_, hdev⟩
    rw [hbehind]
    cases rest with
    | nil => simp
    | cons j rest => simp [List.intercalate_cons_cons]

theorem printControlValues_enum (hb : ServesEnum ops stored names w.ctl) (hw : EnumReady names w)
    (hcount : 0 < w.ctl.info.count) :
    (exec (printControlValues (enumOps ops) (printEnum ops) w.ctl) { dev := w }).1 =
      commaText.intercalate
        (List.replicate w.ctl.info.count.toNat (itemsText (storedItem stored w.ctl w.dev 0) 0 names)) ∧
    stored (exec (printControlValues (enumOps ops) (printEnum ops) w.ctl) { dev := w }).2.dev.dev = stored w.dev := by
  have hbuf : exec (bufferToPrint (enumOps ops) w.ctl) { dev := w } = (some fun _ => 0, { dev := w }) := by
    unfold bufferToPrint
    rw [hb.enumerated, if_neg (fun h => nomatch h.1), exec_pure]
  obtain ⟨htext, hkept⟩ := printEach_enum (fun _ => 0) hb hcount (List.range w.ctl.info.count.toNat) { dev := w }
    (.inl hw) rfl rfl
  unfold printControlValues
  rw [exec_bind, hbuf]
  dsimp only
  rw [exec_bind, exec_pure]
  refine ⟨?_, hkept⟩
  rw [htext, hb.enumerated, if_neg (by decide), List.append_nil, List.map_const', List.length_range]

/-! ## Setting by what is printed -/

section

variable {findCtl : CString → Option MixerCtl} {control word : CString} {i : Nat}

/-- A word that starts with no digit is looked up among the names. -/
theorem exec_setValues_word (hfind : findCtl control = some s.dev.ctl) (ht : s.dev.ctl.info.type = .enumerated)
    (hint : isInt word = false) : exec (setValues (enumOps ops) (enumParts ops findCtl) control [word]) s =
      (if (exec (mixerCtlSetEnumByString ops (some word)) s.dev).1 ≠ 0 then -1 else 0,
        { s with dev := (exec (mixerCtlSetEnumByString ops (some word)) s.dev).2 }) := by
  unfold setValues enumParts
  dsimp only
  rw [hfind]
  dsimp only
  rw [ht, if_neg (by decide), List.headD_cons, hint, if_neg Bool.false_ne_true, if_pos rfl,
    if_neg (not_not.2 List.length_singleton), exec_bind, exec_onNames]
  dsimp only
  split <;> rfl

/-- A word that is a number sets the first value to it, be there such an item or not. -/
theorem setValues_number (hb : ServesEnum ops stored names s.dev.ctl) (hcount : 0 < s.dev.ctl.info.count)
    (hfind : findCtl control = some s.dev.ctl) (hint : isInt word) (hpercent : (toControlValue word).isPercent = false)
    (hrel : (toControlValue word).isRelative = false) :
    let r := exec (setValues (enumOps ops) (enumParts ops findCtl) control [word]) s
    r.1 = 0 ∧ storedItem stored s.dev.ctl r.2.dev.dev 0 = (toUInt (toControlValue word).value).toNat ∧
      ∀ j, 0 < j → j < s.dev.ctl.values →
        storedItem stored s.dev.ctl r.2.dev.dev j = storedItem stored s.dev.ctl s.dev.dev j := by
  have hsingle : s.dev.ctl.info.type.single := by
    rw [hb.enumerated]
    rfl
  have hmember : s.dev.ctl.info.type.member = some .enumerated := by
    rw [hb.enumerated]
    rfl
  have hset : exec (setControlValues (enumOps ops) s.dev.ctl [word]) s =
      (if (exec (mixerCtlSetValue (enumOps ops) s.dev.ctl 0 (toControlValue word).value) s).1 ≠ 0 then -1 else 0,
        (exec (mixerCtlSetValue (enumOps ops) s.dev.ctl 0 (toControlValue word).value) s).2) := by
    unfold setControlValues
    rw [if_pos (show [word].length = 1 from rfl)]
    show exec (setEach (enumOps ops) s.dev.ctl [(0, toControlValue word)]) s = _
    rw [setEach, setControlValue, hrel, if_neg Bool.false_ne_true, setNextValue, hpercent, if_neg Bool.false_ne_true,
      exec_bind]
    split <;> rfl
  have hread : ¬ ReadFails (enumOps ops) s.dev.ctl s := not_lt.2 (hb.reads _ _ rfl)
  have hwrite : 0 ≤ (exec (mixerCtlSetValue (enumOps ops) s.dev.ctl 0 (toControlValue word).value) s).1 := by
    rw [exec_mixerCtlSetValue (UInt32.not_le.2 hcount) hread hsingle hmember]
    exact hb.writes _ _ ((storesValues_enumOps hb.values).readCtl hread).1
  obtain ⟨-, u, hu, hfirst, hrest⟩ :=
    (storesValues_enumOps hb.values).setValue hsingle hmember (fun _ => by decide) hwrite
  have hrun : exec (setValues (enumOps ops) (enumParts ops findCtl) control [word]) s =
      (0, (exec (setControlValues (enumOps ops) s.dev.ctl [word]) s).2) :=
    exec_setValues hfind (by rw [hb.enumerated]; decide) hint
  rw [hrun, hset]
  unfold storedItem
  dsimp only
  rw [hu, Function.update_self]
  refine ⟨rfl, ?_, fun j hj hin => hrest j hj.ne' (lt_min_iff.1 hin).2⟩
  refine hfirst.trans ?_
  rw [hb.enumerated]
  exact Nat.mod_eq_of_lt (toUInt (toControlValue word).value).toNat_lt

/-- What `set` leaves for a name that some item has. -/
theorem setByWord_named (hb : ServesEnum ops stored names w.ctl) (hw : EnumReady names w)
    (hfind : findCtl control = some w.ctl) (hint : isInt word = false) (hi : names.findIdx? (strEq word) = some i) :
    (setByWord ops findCtl control word w).1 = 0 ∧ ∀ j, j < w.ctl.values →
      storedItem stored w.ctl (setByWord ops findCtl control word w).2.dev j = if j = 0 then i else 0 := by
  have hlt : i < 2 ^ 32 := (List.findIdx?_eq_some_iff_getElem.1 hi).1.trans (hb.items ▸ w.ctl.info.items.toNat_lt)
  have hrun : setByWord ops findCtl control word w = (0, (exec (mixerCtlSetEnumByString ops (some word)) w).2) := by
    unfold setByWord
    rw [exec_setValues_word hfind hb.enumerated hint, (stored_found hb hw hi).1]
    rfl
  rw [hrun]
  refine ⟨rfl, fun j hj => ?_⟩
  rw [storedItem_found hb hw hi]
  rcases Nat.eq_zero_or_pos j with rfl | hpos
  · rw [itemUnion_first, Nat.mod_eq_of_lt hlt, if_pos rfl]
  · rw [itemUnion_rest _ _ hpos (lt_min_iff.1 hj).2, if_neg hpos.ne']

/-- The printed names are handed back as their first namesakes, if they are taken for names. -/
theorem names_handedBack (hb : ServesEnum ops stored names w.ctl) (hw : EnumReady names w)
    (hcount : 0 < w.ctl.info.count) (hfind : findCtl control = some w.ctl) :
    NameHandedBack ops stored findCtl control names w := by
  have hvalues : 0 < w.ctl.values := lt_min (UInt32.lt_iff_toNat_lt.1 hcount) (by decide)
  obtain ⟨hprints, hkept⟩ := printControlValues_enum hb hw hcount
  refine ⟨hprints, hkept, fun word i hint hi => setByWord_named hb hw hfind hint hi,
    fun word hint hmiss => ?_, fun word hint hpercent hrel => ?_, fun n hn hint => ?_⟩
  · obtain ⟨hneg, hkept⟩ :=
      setEnumByString_missing (hb.answersStored w.dev) rfl hw.cached hb.enumerated hb.items hmiss
    unfold setByWord
    rw [exec_setValues_word hfind hb.enumerated hint, if_pos (ne_of_lt hneg)]
    exact ⟨rfl, hkept⟩
  · exact setValues_number (s := { dev := w }) hb hcount hfind hint hpercent hrel
  · obtain ⟨hlt, rfl⟩ := List.getElem?_eq_some_iff.1 hn
    generalize storedItem stored w.ctl w.dev 0 = v at hlt hint ⊢
    cases hi : names.findIdx? (strEq names[v]) with
    | none => exact absurd (List.findIdx?_eq_none_iff.1 hi _ (List.getElem_mem hlt)) (by simp [strEq])
    | some i =>
      obtain ⟨-, hset⟩ := setByWord_named hb hw hfind hint hi
      obtain ⟨hin, hname, hfirst⟩ := List.findIdx?_eq_some_iff_getElem.1 hi
      rw [hset 0 hvalues, if_pos rfl]
      constructor
      · rintro rfl j m hj hm
        obtain ⟨hjlt, rfl⟩ := List.getElem?_eq_some_iff.1 hm
        simpa using hfirst j hj
      · intro hnone
        rcases Nat.lt_trichotomy i v with hlt' | rfl | hgt
        · rw [hnone i _ hlt' (List.getElem?_eq_getElem hin)] at hname
          cases hname
        · rfl
        · exact absurd (hfirst v hgt) (by simp [strEq])

end

end

theorem names_handedBack_source :
    NameHandedBack sourceOps id (fun _ => some sourceCtl) [83] sourceNames { dev := fun _ _ => 0, ctl := sourceCtl } :=
  names_handedBack sourceOps_servesEnum (enumReady_fresh sourceNames (fun _ _ => 0) sourceCtl) (by decide) rfl

end Tinyalsa.Tinymix
