/-
An enumerated control set by the name of an item (`mixer_ctl_set_enum_by_string`), against the same control
set by the item's index (`mixer_ctl_set_value`): the one writes a union that is all zero but for its first
element, the other the union that it read.
-/
import Tinyalsa.Mixer.EnumNames
import Tinyalsa.Mixer.Percent
import Tinyalsa.Mixer.Stored
import Mathlib.Data.List.TakeWhile

namespace Tinyalsa

open Hoare ByteMemory CInt

/-! ## Backends with names and values -/

/-- A backend that answers requests for the items of a control with their names, and stores its values. -/
structure ServesEnum {δ : Type} (ops : CtlOps δ) (stored : δ → UInt32 → ValueUnion) (names : List CString)
    (ctl : MixerCtl) : Prop where
  enumerated : ctl.info.type = .enumerated
  items : ctl.info.items.toNat = names.length
  named : ∀ m d n, names[m]? = some n → 0 ≤ (ops.elemInfo (ctl.itemRequest m) d).1 ∧
    strEq n (ops.elemInfo (ctl.itemRequest m) d).2.1.itemName
  infoKeeps : ∀ info d, stored (ops.elemInfo info d).2.2 = stored d
  values : StoresValues ops stored
  reads : ∀ ev d, ev.id.numid = ctl.info.id.numid → 0 ≤ (ops.elemRead ev d).1
  writes : ∀ ev d, ev.id.numid = ctl.info.id.numid → 0 ≤ (ops.elemWrite ev d).1

/-- The string is the name of an item. -/
def NameOf (names : List CString) (m : Nat) (s : CString) : Prop := ∀ n, names[m]? = some n → strEq n s

/-- A control whose names are not cached yet, or are those of its items. Memory does not run out. -/
structure EnumReady {δ : Type} (names : List CString) (w : EnumWorld δ) : Prop where
  alloc : ∀ k, w.alloc k = true
  cached : NoNames w ∨ ∃ live, HasNames w live ∧ NamesFrom (NameOf names) live

section

variable {δ : Type} (ops : CtlOps δ)

/-- The same control over a backend that records what is written to it. -/
def EnumWorld.recording (w : EnumWorld δ) : EnumWorld (δ × List SndCtlElemValue) where
  dev := (w.dev, [])
  ctl := w.ctl
  ename := w.ename
  alloc := w.alloc
  heap := w.heap
  fault := w.fault
  closed := w.closed

/-- `mixer_ctl_get_enum_string(ctl, mixer_ctl_get_value(ctl, 0))`: the string at the address it returns. -/
def currentName (w : EnumWorld δ) : Option CString :=
  let (value, s) := exec (mixerCtlGetValue ops w.ctl 0) { dev := w.dev }
  let (name, w) := exec (mixerCtlGetEnumString ops (toUInt value)) { w with dev := s.dev }
  stringAt w.heap name

variable (stored : δ → UInt32 → ValueUnion) (names : List CString)

/-- An element of the values that are stored for a control. -/
def storedItem (ctl : MixerCtl) (d : δ) (j : Nat) : Nat := (stored d ctl.info.id.numid).elem .enumerated j

/-- The values a control has in the union. -/
def MixerCtl.values (ctl : MixerCtl) : Nat := min ctl.info.count.toNat ValueMember.enumerated.capacity

/-- Setting a control by the name `s` is setting it by the first index of that name. -/
structure SetsByName (w : EnumWorld δ) (s : CString) : Prop where
  /-- Without an item of that name it fails, and writes nothing. -/
  missing : (∀ n ∈ names, strEq s n = false) → (exec (mixerCtlSetEnumByString ops (some s)) w).1 < 0 ∧
    (exec (mixerCtlSetEnumByString (recordWrites ops) (some s)) w.recording).2.dev.2 = []
  /-- Both ways succeed, or neither does. -/
  succeeds : ∀ i, names.findIdx? (strEq s) = some i → ((exec (mixerCtlSetEnumByString ops (some s)) w).1 = 0 ↔
    0 ≤ (exec (mixerCtlSetValue ops w.ctl 0 (wrapInt i)) { dev := w.dev }).1)
  same : ∀ i, names.findIdx? (strEq s) = some i → ∀ j, j < w.ctl.values →
    storedItem stored w.ctl (exec (mixerCtlSetEnumByString ops (some s)) w).2.dev j =
      storedItem stored w.ctl (exec (mixerCtlSetValue ops w.ctl 0 (wrapInt i)) { dev := w.dev }).2.dev j
  others : ∀ i, names.findIdx? (strEq s) = some i → ∀ j, 0 < j → j < w.ctl.values →
    storedItem stored w.ctl (exec (mixerCtlSetEnumByString ops (some s)) w).2.dev j = storedItem stored w.ctl w.dev j
  current : ∀ i, names.findIdx? (strEq s) = some i →
    ∃ t, currentName ops (exec (mixerCtlSetEnumByString ops (some s)) w).2 = some t ∧ strEq s t

/-- There is no item of that name; or the control has a value, and all its values behind the first are 0. -/
def FirstValueOnly (w : EnumWorld δ) (s : CString) : Prop :=
  (∀ n ∈ names, strEq s n = false) ∨
    0 < w.ctl.info.count ∧ ∀ j, 0 < j → j < w.ctl.values → storedItem stored w.ctl w.dev j = 0

end

/-! ## Names -/

theorem findIdx?_forall₂ {α β : Type} {p : α → Bool} {q : β → Bool} : ∀ {l : List α} {l' : List β},
    List.Forall₂ (fun a b => p a = q b) l l' → l.findIdx? p = l'.findIdx? q
  | [], [], .nil => rfl
  | a :: l, b :: l', .cons hab hrest => by
    rw [List.findIdx?_cons, List.findIdx?_cons, hab, findIdx?_forall₂ hrest]

theorem strEq_iff {s t : CString} : strEq s t ↔ s.takeWhile (· ≠ 0) = t.takeWhile (· ≠ 0) := decide_eq_true_iff

/-- What a string is compared to may be replaced by an equal one. -/
theorem strEq_congr {s n t : CString} (h : strEq n t) : strEq s t = strEq s n := by
  unfold strEq
  rw [strEq_iff.1 h]

theorem strEq_takeWhile {n t : CString} (h : strEq n t) : strEq n (t.takeWhile (· ≠ 0)) := by
  rw [strEq_iff] at h ⊢
  rw [h, List.takeWhile_idem]

section

variable {δ : Type} {ops : CtlOps δ} {stored : δ → UInt32 → ValueUnion} {names : List CString} {ctl : MixerCtl}
  {w : EnumWorld δ} {s : CString} {i : Nat} {live : List (Addr × CString)}

/-- The search among the cached names finds what a search among the names finds. -/
theorem findIdx?_names (hlen : live.length = names.length) (hfrom : NamesFrom (NameOf names) live) (s : CString) :
    (live.findIdx? fun p => strEq s p.2) = names.findIdx? (strEq s) := by
  refine findIdx?_forall₂ (List.forall₂_iff_get.2 ⟨hlen, fun k hk hk' => ?_⟩)
  exact strEq_congr (hfrom k _ (List.getElem?_eq_getElem hk) _ (List.getElem?_eq_getElem hk'))

/-- The backend's answers name the items, whatever else is kept. -/
theorem ServesEnum.answersItems (hb : ServesEnum ops stored names ctl) {D : δ → Prop}
    (hD : ∀ info d, D d → D (ops.elemInfo info d).2.2) : AnswersItems ops ctl D (NameOf names) :=
  ⟨fun _ _ => hD _ _, fun m d _ _ n hn => strEq_takeWhile (hb.named m d n hn).2⟩

/-- The backend names the items and keeps what is stored. -/
theorem ServesEnum.answersStored (hb : ServesEnum ops stored names ctl) (d : δ) :
    AnswersItems ops ctl (fun d' => stored d' = stored d) (NameOf names) :=
  hb.answersItems fun info d' hd => (hb.infoKeeps info d').trans hd

/-- Fetching the names succeeds. -/
theorem ServesEnum.fills (hb : ServesEnum ops stored names w.ctl) (hw : EnumReady names w) :
    (exec (mixerCtlFillEnumString ops) w).1 = 0 := by
  refine (mixerCtlFillEnumString_spec (hb.answersStored w.dev) rfl hw.cached).serves ⟨hw.alloc, fun m d hm _ => ?_⟩
  rw [hb.items] at hm
  exact (hb.named m d _ (List.getElem?_eq_getElem hm)).1

/-- Recording what is written changes no answer. -/
theorem ServesEnum.recording (hb : ServesEnum ops stored names ctl) :
    AnswersItems (recordWrites ops) ctl (fun d => d.2 = []) (NameOf names) :=
  ⟨fun _ _ hd => hd, fun m d _ _ n hn => strEq_takeWhile (hb.named m d.1 n hn).2⟩

/-- Without an item of the name, nothing is done behind filling the names. -/
theorem setEnumByString_missing {D : δ → Prop} (hans : AnswersItems ops w.ctl D (NameOf names)) (hd : D w.dev)
    (hc : NoNames w ∨ ∃ live, HasNames w live ∧ NamesFrom (NameOf names) live)
    (ht : w.ctl.info.type = .enumerated) (hitems : w.ctl.info.items.toNat = names.length)
    (hmiss : ∀ n ∈ names, strEq s n = false) :
    (exec (mixerCtlSetEnumByString ops (some s)) w).1 < 0 ∧
    D (exec (mixerCtlSetEnumByString ops (some s)) w).2.dev := by
  have hneg : -eInval < 0 := by decide
  have hf := mixerCtlFillEnumString_spec hans hd hc
  rcases exec_mixerCtlSetEnumByString (s := s) hf ht with ⟨-, hrun⟩ | ⟨-, live, hn, hfrom, hrun⟩ <;> rw [hrun]
  · exact ⟨hneg, hf.dev⟩
  · have hlen : live.length = names.length := by
      rw [hn.1, hf.frame]
      exact hitems
    rw [findIdx?_names hlen hfrom, List.findIdx?_eq_none_iff.2 hmiss]
    exact ⟨hneg, hf.dev⟩

/-- With an item of the name, its first index is written. -/
theorem setEnumByString_found (hb : ServesEnum ops stored names w.ctl) (hw : EnumReady names w)
    (hi : names.findIdx? (strEq s) = some i) :
    ∃ w' live, HasNames w' live ∧ NamesFrom (NameOf names) live ∧ w'.ctl = w.ctl ∧ stored w'.dev = stored w.dev ∧
      exec (mixerCtlSetEnumByString ops (some s)) w =
        (0, { w' with dev := (ops.elemWrite (w.ctl.itemValue i) w'.dev).2 }) := by
  have hf := mixerCtlFillEnumString_spec (hb.answersStored w.dev) rfl hw.cached
  have hctl : (exec (mixerCtlFillEnumString ops) w).2.ctl = w.ctl := by rw [hf.frame]
  rcases exec_mixerCtlSetEnumByString (s := s) hf hb.enumerated with ⟨hret, -⟩ | ⟨-, live, hn, hfrom, hrun⟩
  · rw [hb.fills hw] at hret
    exact absurd hret (by decide)
  · have hlen : live.length = names.length := by rw [hn.1, hctl, hb.items]
    rw [findIdx?_names hlen hfrom, hi] at hrun
    refine ⟨_, live, hn, hfrom, hctl, hf.dev, hrun.trans ?_⟩
    show writeItem ops _ i = _
    unfold writeItem
    dsimp only
    rw [hctl, if_neg (not_lt.2 (hb.writes _ _ rfl))]

/-! ## Values -/

/-- The union that is written for an item. -/
def MixerCtl.itemUnion (ctl : MixerCtl) (i : Nat) : ValueUnion := fun b => (ctl.itemValue i).value b

theorem itemUnion_first (ctl : MixerCtl) (i : Nat) : (ctl.itemUnion i).elem .enumerated 0 = i % 2 ^ 32 := by
  unfold MixerCtl.itemUnion
  rw [ValueUnion.elem_eq (fun _ => rfl) (by decide)]
  exact load_store _ _ _ _

theorem itemUnion_rest (ctl : MixerCtl) (i : Nat) {j : Nat} (hj : 0 < j) (hin : j < ValueMember.enumerated.capacity) :
    (ctl.itemUnion i).elem .enumerated j = 0 := by
  unfold MixerCtl.itemUnion
  rw [ValueUnion.elem_eq (fun _ => rfl) hin]
  refine (load_store_disjoint (ValueMember.elem_disjoint .enumerated hj.ne')).trans ?_
  exact load_zero fun _ _ => rfl

/-- Behind a call that found the name, the control's union is the item's. -/
theorem stored_found (hb : ServesEnum ops stored names w.ctl) (hw : EnumReady names w)
    (hi : names.findIdx? (strEq s) = some i) :
    (exec (mixerCtlSetEnumByString ops (some s)) w).1 = 0 ∧
      stored (exec (mixerCtlSetEnumByString ops (some s)) w).2.dev w.ctl.info.id.numid = w.ctl.itemUnion i := by
  obtain ⟨w', live, -, -, -, -, hrun⟩ := setEnumByString_found hb hw hi
  have hwrite := hb.values.write (w.ctl.itemValue i) w'.dev (hb.writes _ _ rfl)
  rw [hrun]
  refine ⟨rfl, (congrFun hwrite _).trans ?_⟩
  exact Function.update_self _ _ _

/-- The name of the value that was written is the one that was looked for. -/
theorem currentName_found (hb : ServesEnum ops stored names w.ctl) (hw : EnumReady names w)
    (hi : names.findIdx? (strEq s) = some i) (hcount : 0 < w.ctl.info.count) :
    ∃ t, currentName ops (exec (mixerCtlSetEnumByString ops (some s)) w).2 = some t ∧ strEq s t := by
  obtain ⟨hlt, hs, -⟩ := List.findIdx?_eq_some_iff_getElem.1 hi
  have hlt32 : i < 2 ^ 32 := hlt.trans (hb.items ▸ w.ctl.info.items.toNat_lt)
  obtain ⟨-, hunion⟩ := stored_found hb hw hi
  obtain ⟨w', live, hn, hfrom, hctl, -, hrun⟩ := setEnumByString_found hb hw hi
  rw [hrun] at hunion ⊢
  unfold currentName
  dsimp only at hunion ⊢
  rw [hctl]
  generalize (ops.elemWrite (w.ctl.itemValue i) w'.dev).2 = d at *
  have hin : (0 : UInt32).toNat < ValueMember.enumerated.capacity := by decide
  -- what is read back is the index, wrapped to `int`
  have hvalue : (exec (mixerCtlGetValue ops w.ctl 0) { dev := d }).1 = wrapInt i := by
    rw [hb.values.getValue (m := .enumerated) (by rw [hb.enumerated]; rfl) (by rw [hb.enumerated]; rfl) hin
      (UInt32.not_le.2 hcount) (not_lt.2 (hb.reads _ _ rfl)), hunion, hb.enumerated]
    show wrapInt (((w.ctl.itemUnion i).elem .enumerated 0 : Nat) : Int) = _
    rw [itemUnion_first, Nat.mod_eq_of_lt hlt32]
  generalize exec (mixerCtlGetValue ops w.ctl 0) { dev := d } = g at *
  rw [hvalue]
  have hid : (toUInt (wrapInt i)).toNat = i := toNat_toUInt_wrapInt hlt32
  have hcached : HasNames { w' with dev := g.2.dev } live := hn
  have hfill := exec_mixerCtlFillEnumString_cached ops hcached
  have hends : FillEnds ops (fun _ => True) (NameOf names) { w' with dev := g.2.dev }
      (exec (mixerCtlFillEnumString ops) { w' with dev := g.2.dev }) := by
    rw [hfill]
    exact ⟨rfl, trivial, .inl ⟨rfl, live, hcached, hfrom⟩, fun _ => rfl⟩
  obtain ⟨a, hget, hname⟩ := exec_mixerCtlGetEnumString (toUInt (wrapInt i)) hends
    (by rw [show ({ w' with dev := g.2.dev } : EnumWorld δ).ctl = w.ctl from hctl, hb.enumerated])
    (by
      rw [show ({ w' with dev := g.2.dev } : EnumWorld δ).ctl = w.ctl from hctl, UInt32.lt_iff_toNat_lt, hid, hb.items]
      exact hlt)
  rw [hfill] at hget hname
  obtain ⟨t, ht, hof⟩ := hname rfl
  rw [hid] at hof
  refine ⟨t, ?_, ?_⟩
  · dsimp only at hget ⊢
    rw [hctl] at hget
    rw [hget]
    exact ht
  · rw [strEq_congr (hof _ (List.getElem?_eq_getElem hlt))]
    exact hs

/-! ## By name and by index -/

/-- Setting by the index changes the first value only, where there is one. -/
theorem setByIndex (hb : ServesEnum ops stored names w.ctl) (hlt : i < 2 ^ 32) :
    let r := exec (mixerCtlSetValue ops w.ctl 0 (wrapInt i)) { dev := w.dev }
    (0 ≤ r.1 ↔ 0 < w.ctl.info.count) ∧ (0 < w.ctl.info.count → storedItem stored w.ctl r.2.dev 0 = i ∧
      ∀ j, 0 < j → j < w.ctl.values → storedItem stored w.ctl r.2.dev j = storedItem stored w.ctl w.dev j) := by
  have hs : w.ctl.info.type.single := by
    rw [hb.enumerated]
    rfl
  have hm : w.ctl.info.type.member = some .enumerated := by
    rw [hb.enumerated]
    rfl
  have hsucc : 0 ≤ (exec (mixerCtlSetValue ops w.ctl 0 (wrapInt i)) { dev := w.dev }).1 ↔ 0 < w.ctl.info.count := by
    by_cases hc : w.ctl.info.count ≤ 0
    · rw [exec_mixerCtlSetValue_range hc]
      exact iff_of_false (show ¬ (0 : Int) ≤ -eInval by decide) (UInt32.not_lt.2 hc)
    · have hr : ¬ ReadFails ops w.ctl { dev := w.dev } := not_lt.2 (hb.reads _ _ rfl)
      rw [exec_mixerCtlSetValue hc hr hs hm]
      exact iff_of_true (hb.writes _ _ (hb.values.readCtl hr).1) (UInt32.not_le.1 hc)
  refine ⟨hsucc, fun hcount => ?_⟩
  obtain ⟨-, u, hu, hfirst, hrest⟩ := hb.values.setValue hs hm (fun _ => by decide) (hsucc.2 hcount)
  unfold storedItem
  rw [hu, Function.update_self]
  constructor
  · refine hfirst.trans ?_
    rw [hb.enumerated]
    show (toUInt (wrapInt i)).toNat % 256 ^ 4 = i
    rw [toNat_toUInt_wrapInt hlt]
    exact Nat.mod_eq_of_lt hlt
  · intro j hj hin
    exact hrest j hj.ne' (lt_min_iff.1 hin).2

theorem storedItem_found (hb : ServesEnum ops stored names w.ctl) (hw : EnumReady names w)
    (hi : names.findIdx? (strEq s) = some i) (j : Nat) :
    storedItem stored w.ctl (exec (mixerCtlSetEnumByString ops (some s)) w).2.dev j =
      (w.ctl.itemUnion i).elem .enumerated j := by
  unfold storedItem
  rw [(stored_found hb hw hi).2]

/-- An enumerated control is set by name as it is set by index just where there is no item of that name, or the
control has a value and those behind the first are 0. -/
theorem setsByName_iff (hb : ServesEnum ops stored names w.ctl) (hw : EnumReady names w) (s : CString) :
    SetsByName ops stored names w s ↔ FirstValueOnly stored names w s := by
  have hlt32 : ∀ {i}, names.findIdx? (strEq s) = some i → i < 2 ^ 32 := fun hi =>
    (List.findIdx?_eq_some_iff_getElem.1 hi).1.trans (hb.items ▸ w.ctl.info.items.toNat_lt)
  constructor
  · intro h
    unfold FirstValueOnly
    cases hi : names.findIdx? (strEq s) with
    | none => exact .inl (List.findIdx?_eq_none_iff.1 hi)
    | some i =>
      -- by name the values behind the first become 0, by index they stay
      refine .inr ⟨(setByIndex hb (hlt32 hi)).1.1 ((h.succeeds i hi).1 (stored_found hb hw hi).1), fun j hj hin => ?_⟩
      rw [← h.others i hi j hj hin, storedItem_found hb hw hi]
      exact itemUnion_rest _ _ hj (lt_min_iff.1 hin).2
  · intro h
    have hfound : ∀ {i}, names.findIdx? (strEq s) = some i → 0 < w.ctl.info.count ∧
        ∀ j, 0 < j → j < w.ctl.values → storedItem stored w.ctl w.dev j = 0 := by
      intro i hi
      refine h.resolve_left fun hmiss => ?_
      rw [List.findIdx?_eq_none_iff.2 hmiss] at hi
      cases hi
    constructor
    · intro hmiss
      exact ⟨(setEnumByString_missing (hb.answersItems (D := fun _ => True) fun _ _ _ => trivial) trivial hw.cached
          hb.enumerated hb.items hmiss).1,
        (setEnumByString_missing (w := w.recording) hb.recording rfl hw.cached hb.enumerated hb.items hmiss).2⟩
    · intro i hi
      exact iff_of_true (stored_found hb hw hi).1 ((setByIndex hb (hlt32 hi)).1.2 (hfound hi).1)
    · intro i hi j hin
      obtain ⟨hcount, hzero⟩ := hfound hi
      obtain ⟨hfirst, hrest⟩ := (setByIndex hb (hlt32 hi)).2 hcount
      rw [storedItem_found hb hw hi]
      rcases Nat.eq_zero_or_pos j with rfl | hj
      · rw [hfirst, itemUnion_first, Nat.mod_eq_of_lt (hlt32 hi)]
      · rw [hrest j hj hin, hzero j hj hin]
        exact itemUnion_rest _ _ hj (lt_min_iff.1 hin).2
    · intro i hi j hj hin
      rw [storedItem_found hb hw hi, (hfound hi).2 j hj hin]
      exact itemUnion_rest _ _ hj (lt_min_iff.1 hin).2
    · intro i hi
      exact currentName_found hb hw hi (hfound hi).1

end

/-! ## A control of two values -/

def sourceNames : List CString := [[77], [76]]

/-- Stored unions, for a control that chooses among two sources. -/
def sourceOps : CtlOps (UInt32 → ValueUnion) :=
  { unionOps with elemInfo := fun i d =>
      (0, { i with type := .enumerated, count := 2, items := 2, itemName := sourceNames.getD i.item.toNat [] }, d) }

def sourceCtl : MixerCtl where
  info := { id := { numid := 7 }, type := .enumerated, count := 2, items := 2 }

theorem sourceOps_servesEnum : ServesEnum sourceOps id sourceNames sourceCtl where
  enumerated := rfl
  items := rfl
  named m d n hn := by
    match m, hn with
    | 0, rfl => exact ⟨le_refl 0, rfl⟩
    | 1, rfl => exact ⟨le_refl 0, rfl⟩
  infoKeeps _ _ := rfl
  values := ⟨unionOps_storesValues.readKeeps, unionOps_storesValues.read, unionOps_storesValues.writeFails,
    unionOps_storesValues.write⟩
  reads ev d h := by
    show 0 ≤ (unionOps.elemRead ev d).1
    unfold unionOps
    dsimp only
    rw [h]
    exact le_refl 0
  writes ev d h := by
    show 0 ≤ (unionOps.elemWrite ev d).1
    unfold unionOps
    dsimp only
    rw [h]
    exact le_refl 0

theorem enumReady_fresh {δ : Type} (names : List CString) (dev : δ) (ctl : MixerCtl) : EnumReady names { dev, ctl } :=
  ⟨fun _ => rfl, .inl ⟨rfl, .empty⟩⟩

theorem storedItem_zero (ctl : MixerCtl) (j : Nat) : storedItem id ctl (fun _ _ => 0) j = 0 := by
  refine load_zero fun i _ => ?_
  unfold ValueUnion.memory
  split <;> rfl

/-- All values are 0. -/
theorem setsByName_source : SetsByName sourceOps id sourceNames { dev := fun _ _ => 0, ctl := sourceCtl } [76] :=
  (setsByName_iff sourceOps_servesEnum (enumReady_fresh _ _ _) [76]).2
    (.inr ⟨by decide, fun j _ _ => storedItem_zero _ j⟩)

/-- The union whose second value is 1, for each control. -/
def secondSet : UInt32 → ValueUnion := fun _ b => if b.val = 4 then 1 else 0

/-- The second value is lost when the first is set by name. -/
theorem not_setsByName_source : ServesEnum sourceOps id sourceNames sourceCtl ∧
    ¬ SetsByName sourceOps id sourceNames { dev := secondSet, ctl := sourceCtl } [76] := by
  refine ⟨sourceOps_servesEnum, fun h => ?_⟩
  have hin : 1 < sourceCtl.values := by decide
  have hsecond := h.others 1 rfl 1 Nat.one_pos hin
  exact absurd hsecond (by decide +kernel)

end Tinyalsa
