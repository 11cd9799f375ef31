/-
`tinymix set` with numbers (`set_control_value`, `set_control_values`, `set_values`): what becomes of the values of
a control, and what is returned, against setting each element that the arguments are for.
-/
import Tinyalsa.Mixer.Percent
import Tinyalsa.Mixer.Stored
import Tinyalsa.Utils.Tinymix

namespace Tinyalsa.Tinymix

open Hoare ByteMemory CInt

/-! ## Setting a control -/

/-- `is_int`. -/
def isInt (value : CString) : Bool := isDigit (charAt value 0)

/-- How `set_values` finds a control by its name or number, and how it sets what is not set by numbers: a BYTE
control, and an ENUMERATED one by the name of an item. -/
structure SetParts (δ : Type) where
  findCtl : CString → Option MixerCtl
  setByteCtl : MixerCtl → List CString → CtlM δ Unit
  setEnumByString : MixerCtl → CString → CtlM δ Int

section

variable {δ : Type} (ops : CtlOps δ) (ctl : MixerCtl)

/-- `value->is_percent ? mixer_ctl_get_percent(ctl, i) : mixer_ctl_get_value(ctl, i)`. -/
def prevValue (i : UInt32) (value : ControlValue) : CtlM δ Int := do
  if value.isPercent then return (← mixerCtlGetPercent ops ctl i).1
  else mixerCtlGetValue ops ctl i

/-- `value->is_percent ? mixer_ctl_set_percent(ctl, i, next_value) : mixer_ctl_set_value(ctl, i, next_value)`. -/
def setNextValue (i : UInt32) (value : ControlValue) (nextValue : Int) : CtlM δ Int := do
  if value.isPercent then return (← mixerCtlSetPercent ops ctl i nextValue).1
  else mixerCtlSetValue ops ctl i nextValue

/-- `set_control_value`. -/
def setControlValue (i : UInt32) (value : ControlValue) : CtlM δ Int := do
  if value.isRelative then
    let prev ← prevValue ops ctl i value
    if prev < 0 then return prev
    else setNextValue ops ctl i value (wrapInt (value.value + prev))
  else setNextValue ops ctl i value value.value

/-- The loops of `set_control_values`: one element after the other, up to an error. -/
def setEach : List (UInt32 × ControlValue) → CtlM δ Int
  | [] => return 0
  | (i, value) :: rest => do
    if (← setControlValue ops ctl i value) ≠ 0 then return -1
    else setEach rest

/-- `set_control_values`. -/
def setControlValues (values : List CString) : CtlM δ Int := do
  let numValues := values.length
  if numValues = 1 then
    -- the loop runs to `num_values`, not to `num_ctl_values`
    setEach ops ctl ((List.range numValues).map fun i => (i.toUInt32, toControlValue (values.headD [])))
  else if numValues > ctl.info.count.toNat then return -1
  else setEach ops ctl (values.mapIdx fun i v => (i.toUInt32, toControlValue v))

/-- `set_values`. -/
def setValues (parts : SetParts δ) (control : CString) (values : List CString) : CtlM δ Int := do
  match parts.findCtl control with
  | none => return -1
  | some ctl =>
    if ctl.info.type = .bytes then
      parts.setByteCtl ctl values
      return 0
    else if isInt (values.headD []) then
      let _ ← setControlValues ops ctl values
      return 0
    else if ctl.info.type = .enumerated then
      if values.length ≠ 1 then return -1
      else if (← parts.setEnumByString ctl (values.headD [])) ≠ 0 then return -1
      else return 0
    else return -1

end

/-! ## What is to be set -/

/-- What a relative argument adds to, for an element with the value `cur`. -/
def base (info : SndCtlElemInfo) (v : ControlValue) (cur : Int) : Int :=
  if v.isPercent then (intToPercent info cur).1 else cur

/-- The value that an argument makes of the value `cur`: none, if an `int` overflows or the control has no
percentages. -/
def wanted (info : SndCtlElemInfo) (v : ControlValue) (cur : Int) : Option Int :=
  let next := if v.isRelative then v.value + base info v cur else v.value
  if v.overflow || !fitsInt next then none
  else if v.isPercent then
    if info.type ≠ .integer || v.isRelative && (intToPercent info cur).2 || (percentToInt info next).2 then none
    else some (percentToInt info next).1
  else some next

/-- The elements that are to be set, each with the argument for it: one argument is for all elements, and more
arguments than elements are for none. -/
def required (count : Nat) (values : List CString) : List (UInt32 × ControlValue) :=
  if values.length = 1 then (List.range count).map fun i => (i.toUInt32, toControlValue (values.headD []))
  else if values.length > count then []
  else values.mapIdx fun i v => (i.toUInt32, toControlValue v)

section

variable {δ : Type} (ops : CtlOps δ) (ctl : MixerCtl)

def setWanted (i : UInt32) : Option Int → CtlM δ Bool
  | none => return false
  | some value => return (← mixerCtlSetValue ops ctl i value) = 0

/-- Sets an element to what its argument makes of it, and tells whether that succeeded. -/
def applyArgument (i : UInt32) (v : ControlValue) : CtlM δ Bool := do
  if v.isRelative then
    let s ← get
    let cur ← mixerCtlGetValue ops ctl i
    if (ops.elemRead ctl.elemValue s.dev).1 < 0 then return false
    else setWanted ops ctl i (wanted ctl.info v cur)
  else setWanted ops ctl i (wanted ctl.info v 0)

def applyAll : List (UInt32 × ControlValue) → CtlM δ Bool
  | [] => return true
  | (i, v) :: rest => do
    if ← applyArgument ops ctl i v then applyAll rest
    else return false

variable (stored : δ → UInt32 → ValueUnion) (m : ValueMember)

/-- The value of an element. -/
def valueAt (d : δ) (i : Nat) : Int := ctl.info.type.decode ((stored d ctl.info.id.numid).elem m i)

/-- Setting a control does what it reports. -/
structure SetsAsReported (parts : SetParts δ) (control : CString) (values : List CString) (s : AccessState δ) :
    Prop where
  /-- It returns 0 just when each required write succeeds. -/
  reports : (exec (setValues ops parts control values) s).1 = 0 ↔
    (exec (applyAll ops ctl (required ctl.info.count.toNat values)) s).1 = true
  applies : (exec (applyAll ops ctl (required ctl.info.count.toNat values)) s).1 = true →
    ∀ i v, (i, v) ∈ required ctl.info.count.toNat values →
      some (valueAt ctl stored m (exec (setValues ops parts control values) s).2.dev i.toNat) =
        (wanted ctl.info v (valueAt ctl stored m s.dev i.toNat)).map ctl.info.type.normalise
  others : (exec (applyAll ops ctl (required ctl.info.count.toNat values)) s).1 = true →
    ∀ i, i < ctl.info.count → (∀ v, (i, v) ∉ required ctl.info.count.toNat values) →
      valueAt ctl stored m (exec (setValues ops parts control values) s).2.dev i.toNat =
        valueAt ctl stored m s.dev i.toNat
  /-- With more arguments than elements the backend is not even asked. -/
  refused : ctl.info.count.toNat < values.length → (exec (setValues ops parts control values) s).2 = s

/-- The argument is not relative to something negative, where `f` are the values. -/
def NotNegative (f : Nat → Int) (x : UInt32 × ControlValue) : Bool :=
  !(x.2.isRelative && base ctl.info x.2 (f x.1.toNat) < 0)

/-- The elements that are set: with one argument the first only, and none from the first on whose negative value (or
percentage) an argument is relative to. -/
def reached (d : δ) (values : List CString) : List (UInt32 × ControlValue) :=
  ((required ctl.info.count.toNat values).take values.length).takeWhile
    (NotNegative ctl (valueAt ctl stored m d))

/-- Each required write succeeds, and an element that is not reached has the wanted value already. -/
def OthersSetAlready (values : List CString) (s : AccessState δ) : Prop :=
  (exec (applyAll ops ctl (required ctl.info.count.toNat values)) s).1 = true ∧
    ∀ i v, (i, v) ∈ required ctl.info.count.toNat values → (i, v) ∉ reached ctl stored m s.dev values →
      (wanted ctl.info v (valueAt ctl stored m s.dev i.toNat)).map ctl.info.type.normalise =
        some (valueAt ctl stored m s.dev i.toNat)

end

/-! ## Percentages and sums -/

section

variable {info : SndCtlElemInfo} {v : ControlValue} {cur w : Int}

/-- An absolute argument makes the same of every value. -/
theorem wanted_absolute (h : v.isRelative = false) (a b : Int) : wanted info v a = wanted info v b := by
  unfold wanted
  rw [h]
  rfl

/-- What is wanted is a sum that an `int` holds, or its percentage. -/
theorem wanted_eq_some (h : wanted info v cur = some w) :
    let next := if v.isRelative then v.value + base info v cur else v.value
    fitsInt next ∧ (v.isPercent → info.type = .integer) ∧
      w = if v.isPercent then (percentToInt info next).1 else next := by
  unfold wanted at h
  dsimp only at h ⊢
  generalize (if v.isRelative then v.value + base info v cur else v.value) = next at *
  split at h
  · cases h
  rename_i hfits
  rw [Bool.or_eq_true, not_or, Bool.not_eq_true', Bool.not_eq_false] at hfits
  refine ⟨hfits.2, ?_⟩
  split at h
  · rename_i hpercent
    split at h
    · cases h
    rename_i hok
    simp only [Bool.or_eq_true, not_or, decide_eq_true_eq, not_not] at hok
    rw [if_pos hpercent]
    exact ⟨fun _ => hok.1.1, (Option.some.inj h).symm⟩
  · rename_i hpercent
    rw [if_neg hpercent]
    exact ⟨fun h => absurd h hpercent, (Option.some.inj h).symm⟩

theorem percentToInt_fitsInt (percent : Int) : fitsInt (percentToInt info percent).1 := by
  unfold percentToInt
  split
  · decide
  · exact fitsInt_wrapInt _

theorem wanted_fitsInt (h : wanted info v cur = some w) : fitsInt w := by
  obtain ⟨hfits, -, rfl⟩ := wanted_eq_some h
  split
  · exact percentToInt_fitsInt _
  · exact hfits

end

/-! ## One argument -/

section

variable {δ : Type} {ops : CtlOps δ} {stored : δ → UInt32 → ValueUnion} {ctl : MixerCtl} {m : ValueMember}
  {s : AccessState δ} {i : UInt32} {v : ControlValue}

theorem setWanted_true {w : Option Int} (h : (exec (setWanted ops ctl i w) s).1 = true) :
    ∃ value, w = some value ∧ exec (mixerCtlSetValue ops ctl i value) s = (0, (exec (setWanted ops ctl i w) s).2) := by
  cases w with
  | none => cases h
  | some value =>
    have hret : (exec (mixerCtlSetValue ops ctl i value) s).1 = 0 := of_decide_eq_true h
    exact ⟨value, rfl, Prod.ext hret rfl⟩

/-- Setting a value writes an element that there is. -/
theorem lt_of_setValue {value : Int} (h : (exec (mixerCtlSetValue ops ctl i value) s).1 = 0) :
    ¬ ctl.info.count ≤ i := by
  intro hid
  rw [exec_mixerCtlSetValue_range hid] at h
  exact absurd h (show ¬ -eInval = 0 by decide)

/-- An argument that is applied: what it is relative to is read, and what is wanted then is written. -/
theorem applyArgument_true (hb : StoresValues ops stored) (hc : HoldsValues ctl m)
    (h : (exec (applyArgument ops ctl i v) s).1 = true) :
    ¬ ctl.info.count ≤ i ∧ ∃ s₁ w,
      (v.isRelative = true → exec (mixerCtlGetValue ops ctl i) s = (valueAt ctl stored m s.dev i.toNat, s₁)) ∧
      (v.isRelative = false → s₁ = s) ∧ stored s₁.dev = stored s.dev ∧
      wanted ctl.info v (valueAt ctl stored m s.dev i.toNat) = some w ∧
      exec (mixerCtlSetValue ops ctl i w) s₁ = (0, (exec (applyArgument ops ctl i v) s).2) := by
  unfold applyArgument at h ⊢
  by_cases hrel : v.isRelative = true
  · simp only [hrel, if_true, exec_bind, exec_get, exec_ite] at h ⊢
    by_cases hread : (ops.elemRead ctl.elemValue s.dev).1 < 0
    · rw [if_pos hread] at h
      cases h
    rw [if_neg hread] at h ⊢
    obtain ⟨w, hw, hset⟩ := setWanted_true h
    have hid := lt_of_setValue (congrArg Prod.fst hset)
    have hcur := hb.getValue hc.single hc.member (hc.id_lt hid) hid hread
    rw [hcur] at hw hset ⊢
    exact ⟨hid, _, w, fun _ => Prod.ext hcur rfl, Bool.noConfusion,
      hb.gets hc (show CtlCall.gets (.getValue i) = true from rfl), hw, hset⟩
  · rw [Bool.not_eq_true] at hrel
    simp only [hrel, Bool.false_eq_true, if_false] at h ⊢
    obtain ⟨w, hw, hset⟩ := setWanted_true h
    refine ⟨lt_of_setValue (congrArg Prod.fst hset), s, w, False.elim, fun _ => rfl, rfl, ?_,
      hset⟩
    rw [wanted_absolute hrel _ 0]
    exact hw

/-- An argument that is applied makes of its element what is wanted, and changes no other. -/
theorem applyArgument_values (hb : StoresValues ops stored) (hc : HoldsValues ctl m)
    (h : (exec (applyArgument ops ctl i v) s).1 = true) :
    some (valueAt ctl stored m (exec (applyArgument ops ctl i v) s).2.dev i.toNat) =
        (wanted ctl.info v (valueAt ctl stored m s.dev i.toNat)).map ctl.info.type.normalise ∧
      ∀ j, j ≠ i.toNat → j < m.capacity →
        valueAt ctl stored m (exec (applyArgument ops ctl i v) s).2.dev j = valueAt ctl stored m s.dev j := by
  obtain ⟨-, s₁, w, -, -, hkept, hw, hset⟩ := applyArgument_true hb hc h
  have hret : 0 ≤ (exec (mixerCtlSetValue ops ctl i w) s₁).1 := by rw [hset]
  obtain ⟨-, u, hu, helem, hothers⟩ := hb.setValue hc.single hc.member hc.id_lt hret
  have hfits := fitsInt_iff.1 (wanted_fitsInt hw)
  rw [hset, hkept] at hu
  rw [hkept] at hothers
  unfold valueAt at hw ⊢
  rw [hw, hu, Function.update_self, helem, CtlElemType.decode_encode hc.single hc.member hfits.1 hfits.2]
  refine ⟨rfl, fun j hne hj => ?_⟩
  rw [hothers j hne hj]

/-- What an argument is relative to. -/
theorem exec_prevValue (ht : v.isPercent → ctl.info.type = .integer) :
    exec (prevValue ops ctl i v) s =
      (base ctl.info v (exec (mixerCtlGetValue ops ctl i) s).1, (exec (mixerCtlGetValue ops ctl i) s).2) := by
  unfold prevValue base
  by_cases hpercent : v.isPercent
  · simp only [hpercent, if_true, exec_bind, exec_mixerCtlGetPercent (ht hpercent), exec_pure]
  · simp only [hpercent, Bool.false_eq_true, if_false, Prod.eta]

theorem exec_setNextValue {next : Int} (ht : v.isPercent → ctl.info.type = .integer) :
    exec (setNextValue ops ctl i v next) s =
      exec (mixerCtlSetValue ops ctl i (if v.isPercent then (percentToInt ctl.info next).1 else next)) s := by
  unfold setNextValue
  by_cases hpercent : v.isPercent
  · simp only [hpercent, if_true, exec_bind, exec_mixerCtlSetPercent (ht hpercent), exec_pure, Prod.eta]
  · simp only [hpercent, Bool.false_eq_true, if_false]

/-- An argument that can be applied is, unless it is relative to something negative. -/
theorem setControlValue_eq (hb : StoresValues ops stored) (hc : HoldsValues ctl m)
    (h : (exec (applyArgument ops ctl i v) s).1 = true)
    (hge : v.isRelative = true → 0 ≤ base ctl.info v (valueAt ctl stored m s.dev i.toNat)) :
    exec (setControlValue ops ctl i v) s = (0, (exec (applyArgument ops ctl i v) s).2) := by
  obtain ⟨-, s₁, w, hget, habs, -, hw, hset⟩ := applyArgument_true hb hc h
  obtain ⟨hfits, ht, rfl⟩ := wanted_eq_some hw
  unfold setControlValue
  by_cases hrel : v.isRelative = true
  · simp only [hrel, if_true] at hfits hset ⊢
    rw [exec_bind, exec_prevValue ht, hget hrel]
    dsimp only
    rw [if_neg (not_lt.2 (hge hrel)), exec_setNextValue ht, wrapInt_of_fitsInt hfits]
    exact hset
  · rw [Bool.not_eq_true] at hrel
    simp only [hrel, Bool.false_eq_true, if_false] at hset ⊢
    rw [exec_setNextValue ht, ← hset, habs hrel]

/-- An argument that is relative to something negative is taken for an error. -/
theorem setControlValue_negative (hb : StoresValues ops stored) (hc : HoldsValues ctl m)
    (h : (exec (applyArgument ops ctl i v) s).1 = true) (hrel : v.isRelative = true)
    (hneg : base ctl.info v (valueAt ctl stored m s.dev i.toNat) < 0) :
    (exec (setControlValue ops ctl i v) s).1 ≠ 0 ∧
      stored (exec (setControlValue ops ctl i v) s).2.dev = stored s.dev := by
  obtain ⟨-, s₁, w, hget, -, hkept, hw, -⟩ := applyArgument_true hb hc h
  obtain ⟨-, ht, -⟩ := wanted_eq_some hw
  unfold setControlValue
  rw [if_pos hrel, exec_bind, exec_prevValue ht, hget hrel]
  dsimp only
  rw [if_pos hneg]
  exact ⟨ne_of_lt hneg, hkept⟩

end

/-! ## Arguments in turn -/

section

variable {δ : Type} {ops : CtlOps δ} {stored : δ → UInt32 → ValueUnion} {ctl : MixerCtl} {m : ValueMember}
  {s : AccessState δ} {values : List CString}

theorem applyAll_cons_true {x : UInt32 × ControlValue} {l : List (UInt32 × ControlValue)}
    (h : (exec (applyAll ops ctl (x :: l)) s).1 = true) :
    (exec (applyArgument ops ctl x.1 x.2) s).1 = true ∧
      (exec (applyAll ops ctl l) (exec (applyArgument ops ctl x.1 x.2) s).2).1 = true := by
  unfold applyAll at h
  rw [exec_bind, exec_ite] at h
  split at h
  · rename_i happly
    exact ⟨happly, h⟩
  · cases h

theorem applyAll_take : ∀ (l : List (UInt32 × ControlValue)) (n : Nat) {s : AccessState δ},
    (exec (applyAll ops ctl l) s).1 = true → (exec (applyAll ops ctl (l.take n)) s).1 = true
  | _, 0, _, _ => rfl
  | [], _ + 1, _, _ => rfl
  | x :: l, n + 1, s, h => by
    obtain ⟨hhead, hrest⟩ := applyAll_cons_true h
    rw [List.take_succ_cons, applyAll, exec_bind, exec_ite, if_pos hhead]
    exact applyAll_take l n hrest

/-- The loop makes of each element what is wanted, up to the first argument that is relative to something negative. -/
theorem setEach_values (hb : StoresValues ops stored) (hc : HoldsValues ctl m) (f : Nat → Int) :
    ∀ (l : List (UInt32 × ControlValue)) (s : AccessState δ), l.Pairwise (fun x y => x.1.toNat ≠ y.1.toNat) →
      (∀ x ∈ l, x.1.toNat < m.capacity) → (∀ x ∈ l, f x.1.toNat = valueAt ctl stored m s.dev x.1.toNat) →
      (exec (applyAll ops ctl l) s).1 = true →
      (∀ x ∈ l.takeWhile (NotNegative ctl f),
        some (valueAt ctl stored m (exec (setEach ops ctl l) s).2.dev x.1.toNat) =
          (wanted ctl.info x.2 (f x.1.toNat)).map ctl.info.type.normalise) ∧
      ∀ j, j < m.capacity → (∀ x ∈ l.takeWhile (NotNegative ctl f), x.1.toNat ≠ j) →
        valueAt ctl stored m (exec (setEach ops ctl l) s).2.dev j = valueAt ctl stored m s.dev j
  | [], _, _, _, _, _ => ⟨fun _ hx => (List.not_mem_nil hx).elim, fun _ _ _ => rfl⟩
  | x :: l, s, hdistinct, hcap, hf, happly => by
    obtain ⟨hhead, hrest⟩ := applyAll_cons_true happly
    obtain ⟨hne, hdistinct⟩ := List.pairwise_cons.1 hdistinct
    have hfx := hf x List.mem_cons_self
    unfold setEach
    rw [exec_bind, exec_ite]
    by_cases hneg : NotNegative ctl f x = true
    · -- the element is set, and the loop goes on
      have hge : x.2.isRelative = true → 0 ≤ base ctl.info x.2 (valueAt ctl stored m s.dev x.1.toNat) := by
        intro hrel
        rw [← hfx]
        simpa [NotNegative, hrel] using hneg
      rw [setControlValue_eq hb hc hhead hge, if_neg (not_not.2 rfl), List.takeWhile_cons_of_pos hneg]
      obtain ⟨hset, hkept⟩ := applyArgument_values hb hc hhead
      obtain ⟨hsets, hothers⟩ := setEach_values hb hc f l _ hdistinct (fun y hy => hcap y (List.mem_cons_of_mem _ hy))
        (fun y hy => by
          rw [hkept _ (hne y hy).symm (hcap y (List.mem_cons_of_mem _ hy))]
          exact hf y (List.mem_cons_of_mem _ hy)) hrest
      refine ⟨fun y hy => ?_, fun j hj hother => ?_⟩
      · rcases List.mem_cons.1 hy with rfl | hy
        · rw [hothers _ (hcap y List.mem_cons_self) fun z hz => (hne z (List.takeWhile_sublist _ |>.subset hz)).symm,
            hset, hfx]
        · exact hsets y hy
      · rw [hothers j hj fun y hy => hother y (List.mem_cons_of_mem _ hy)]
        exact hkept j (hother x List.mem_cons_self).symm hj
    · -- the loop ends here, and nothing changes
      have hblocked : x.2.isRelative = true ∧ base ctl.info x.2 (valueAt ctl stored m s.dev x.1.toNat) < 0 := by
        rw [← hfx]
        simpa [NotNegative] using hneg
      obtain ⟨hret, hstored⟩ := setControlValue_negative hb hc hhead hblocked.1 hblocked.2
      rw [if_pos hret, List.takeWhile_cons_of_neg hneg]
      refine ⟨fun _ hy => (List.not_mem_nil hy).elim, fun j _ _ => ?_⟩
      unfold valueAt
      rw [exec_pure, hstored]

/-- Each element is required once, in its place. -/
theorem required_getElem? {count : Nat} (hcount : count < 2 ^ 32) {j : Nat} {x : UInt32 × ControlValue}
    (h : (required count values)[j]? = some x) : x.1.toNat = j ∧ j < count := by
  have hindex : ∀ k, k < count → (k.toUInt32).toNat = k := fun k hk => UInt32.toNat_ofNat_of_lt' (hk.trans hcount)
  unfold required at h
  split at h
  · obtain ⟨k, hk, rfl⟩ := Option.map_eq_some_iff.1 (List.getElem?_map ▸ h)
    obtain ⟨hlt, rfl⟩ := List.getElem?_eq_some_iff.1 hk
    rw [List.length_range] at hlt
    rw [List.getElem_range]
    exact ⟨hindex j hlt, hlt⟩
  · split at h
    · cases h
    rename_i hle
    obtain ⟨v, hv, rfl⟩ := Option.map_eq_some_iff.1 (List.getElem?_mapIdx ▸ h)
    obtain ⟨hlt, -⟩ := List.getElem?_eq_some_iff.1 hv
    exact ⟨hindex j (by omega), by omega⟩

theorem required_pairwise {count : Nat} (hcount : count < 2 ^ 32) :
    (required count values).Pairwise fun x y => x.1.toNat ≠ y.1.toNat := by
  refine List.pairwise_iff_getElem.2 fun i j hi hj hij => ?_
  rw [(required_getElem? hcount (List.getElem?_eq_getElem hi)).1,
    (required_getElem? hcount (List.getElem?_eq_getElem hj)).1]
  exact hij.ne

theorem required_lt {count : Nat} (hcount : count < 2 ^ 32) {x : UInt32 × ControlValue}
    (hx : x ∈ required count values) : x.1.toNat < count := by
  obtain ⟨j, hj⟩ := List.mem_iff_getElem?.1 hx
  obtain ⟨hxj, hlt⟩ := required_getElem? hcount hj
  exact hxj ▸ hlt

theorem required_inj {count : Nat} (hcount : count < 2 ^ 32) {x y : UInt32 × ControlValue}
    (hx : x ∈ required count values) (hy : y ∈ required count values) (h : x.1.toNat = y.1.toNat) : x = y := by
  obtain ⟨j, hj⟩ := List.mem_iff_getElem?.1 hx
  obtain ⟨k, hk⟩ := List.mem_iff_getElem?.1 hy
  have hjk : j = k := by
    rw [← (required_getElem? hcount hj).1, h, (required_getElem? hcount hk).1]
  exact Option.some.inj (hj.symm.trans (hjk ▸ hk))

theorem required_refused {count : Nat} (h : count < values.length) : required count values = [] := by
  unfold required
  split
  · rw [show count = 0 by omega]
    rfl
  · rfl

/-- Where the arguments are not too many, the loop is over the first required elements. -/
theorem exec_setControlValues (h : values.length ≤ ctl.info.count.toNat) :
    exec (setControlValues ops ctl values) s =
      exec (setEach ops ctl ((required ctl.info.count.toNat values).take values.length)) s := by
  unfold setControlValues required
  dsimp only
  by_cases hone : values.length = 1
  · rw [if_pos hone, if_pos hone, ← List.map_take, List.take_range, Nat.min_eq_left h]
  · rw [if_neg hone, if_neg hone, if_neg (not_lt.2 h), if_neg (not_lt.2 h),
      List.take_of_length_le (List.length_mapIdx.le)]

theorem exec_prevValue_range {i : UInt32} {v : ControlValue} (h : ctl.info.count ≤ i) :
    (exec (prevValue ops ctl i v) s).2 = s := by
  unfold prevValue mixerCtlGetPercent
  rw [exec_ite, exec_bind, exec_ite, exec_bind, exec_mixerCtlGetValue_range h]
  split
  · split <;> rfl
  · rfl

theorem exec_setNextValue_range {i : UInt32} {v : ControlValue} {next : Int} (h : ctl.info.count ≤ i) :
    (exec (setNextValue ops ctl i v next) s).2 = s := by
  unfold setNextValue mixerCtlSetPercent
  rw [exec_ite, exec_bind, exec_ite, exec_bind, exec_mixerCtlSetValue_range h, exec_mixerCtlSetValue_range h]
  split
  · split <;> rfl
  · rfl

theorem exec_setControlValue_range {i : UInt32} {v : ControlValue} (h : ctl.info.count ≤ i) :
    (exec (setControlValue ops ctl i v) s).2 = s := by
  unfold setControlValue
  rw [exec_ite]
  split
  · rw [exec_bind, exec_ite, exec_prevValue_range h]
    split
    · rfl
    · exact exec_setNextValue_range h
  · exact exec_setNextValue_range h

/-- Too many arguments are refused before the backend is asked. -/
theorem exec_setControlValues_refused (h : ctl.info.count.toNat < values.length) :
    (exec (setControlValues ops ctl values) s).2 = s := by
  unfold setControlValues
  dsimp only
  by_cases hone : values.length = 1
  · have hzero : ctl.info.count ≤ (0 : Nat).toUInt32 := by
      rw [UInt32.le_iff_toNat_le]
      change ctl.info.count.toNat ≤ 0
      omega
    have hlist : (List.range values.length).map (fun i => (i.toUInt32, toControlValue (values.headD []))) =
        [((0 : Nat).toUInt32, toControlValue (values.headD []))] := by
      rw [hone]
      rfl
    rw [if_pos hone, hlist, setEach, exec_bind, exec_ite, exec_setControlValue_range hzero]
    split <;> rfl
  · rw [if_neg hone, if_pos h]
    rfl

end

/-! ## What is reported -/

section

variable {δ : Type} {ops : CtlOps δ} {stored : δ → UInt32 → ValueUnion} {ctl : MixerCtl} {m : ValueMember}
  {parts : SetParts δ} {control : CString} {values : List CString} {s : AccessState δ}

/-- With numbers, 0 is returned whatever becomes of them. -/
theorem exec_setValues (hfind : parts.findCtl control = some ctl) (ht : ctl.info.type ≠ .bytes)
    (hint : isInt (values.headD [])) :
    exec (setValues ops parts control values) s = (0, (exec (setControlValues ops ctl values) s).2) := by
  unfold setValues
  rw [hfind]
  dsimp only
  rw [if_neg ht, if_pos hint, exec_bind, exec_pure]

/-- What the loop leaves, where all arguments can be applied: what is wanted of the elements that are reached, and the
others as they were. -/
theorem exec_setControlValues_values (hb : StoresValues ops stored) (hc : HoldsValues ctl m)
    (happly : (exec (applyAll ops ctl (required ctl.info.count.toNat values)) s).1 = true) :
    (∀ x ∈ reached ctl stored m s.dev values,
      some (valueAt ctl stored m (exec (setControlValues ops ctl values) s).2.dev x.1.toNat) =
        (wanted ctl.info x.2 (valueAt ctl stored m s.dev x.1.toNat)).map ctl.info.type.normalise) ∧
    ∀ j, j < m.capacity → (∀ x ∈ reached ctl stored m s.dev values, x.1.toNat ≠ j) →
      valueAt ctl stored m (exec (setControlValues ops ctl values) s).2.dev j = valueAt ctl stored m s.dev j := by
  have hcount : ctl.info.count.toNat < 2 ^ 32 := ctl.info.count.toNat_lt
  rcases lt_or_ge ctl.info.count.toNat values.length with hlt | hle
  · unfold reached
    rw [required_refused hlt, exec_setControlValues_refused hlt]
    exact ⟨fun _ hx => (List.not_mem_nil (List.mem_of_mem_take (List.takeWhile_sublist _ |>.subset hx))).elim,
      fun _ _ _ => rfl⟩
  · rw [exec_setControlValues hle]
    exact setEach_values hb hc _ _ _ ((required_pairwise hcount).sublist (List.take_sublist _ _))
      (fun x hx => (required_lt hcount (List.mem_of_mem_take hx)).trans_le hc.fits) (fun _ _ => rfl)
      (applyAll_take _ _ happly)

theorem mem_required_of_reached {d : δ} {x : UInt32 × ControlValue} (h : x ∈ reached ctl stored m d values) :
    x ∈ required ctl.info.count.toNat values :=
  List.mem_of_mem_take (List.takeWhile_sublist _ |>.subset h)

/-- Setting a control with numbers does what it reports just when each required write succeeds and the elements that
are not reached have the wanted values already. -/
theorem setsAsReported_iff (hb : StoresValues ops stored) (hc : HoldsValues ctl m) (ht : ctl.info.type ≠ .bytes)
    (hfind : parts.findCtl control = some ctl) (hint : isInt (values.headD [])) :
    SetsAsReported ops ctl stored m parts control values s ↔ OthersSetAlready ops ctl stored m values s := by
  have hcount : ctl.info.count.toNat < 2 ^ 32 := ctl.info.count.toNat_lt
  have hrun : exec (setValues ops parts control values) s = _ := exec_setValues hfind ht hint
  constructor
  · rintro ⟨hreports, happlies, -, -⟩
    rw [hrun] at hreports happlies
    have happly := hreports.1 rfl
    obtain ⟨-, hothers⟩ := exec_setControlValues_values hb hc happly
    refine ⟨happly, fun i v hiv hnot => ?_⟩
    rw [← happlies happly i v hiv, hothers i.toNat ((required_lt hcount hiv).trans_le hc.fits)]
    intro x hx hxi
    exact hnot (required_inj hcount (mem_required_of_reached hx) hiv hxi ▸ hx)
  · rintro ⟨happly, halready⟩
    obtain ⟨hsets, hothers⟩ := exec_setControlValues_values hb hc happly
    refine ⟨?_, fun _ i v hiv => ?_, fun _ i hi hnone => ?_, fun hlt => ?_⟩ <;> rw [hrun]
    · exact iff_of_true rfl happly
    · by_cases hr : (i, v) ∈ reached ctl stored m s.dev values
      · exact hsets _ hr
      · rw [halready i v hiv hr, hothers i.toNat ((required_lt hcount hiv).trans_le hc.fits)]
        intro x hx hxi
        exact hr (required_inj hcount (mem_required_of_reached hx) hiv hxi ▸ hx)
    · refine hothers _ ((UInt32.lt_iff_toNat_lt.1 hi).trans_le hc.fits) fun x hx hxi => ?_
      have hx : (i, x.2) ∈ required ctl.info.count.toNat values := by
        rw [← UInt32.toNat_inj.1 hxi]
        exact mem_required_of_reached hx
      exact hnone x.2 hx
    · exact exec_setControlValues_refused hlt

end

/-- A mixer with the volume of two channels as its only control. -/
def volumeParts : SetParts (UInt32 → ValueUnion) where
  findCtl _ := some volumeCtl
  setByteCtl _ _ := pure ()
  setEnumByString _ _ := pure (-eInval)

/-- `tinymix set Volume 5 7` reaches both channels. -/
theorem setsAsReported_volume :
    SetsAsReported unionOps volumeCtl id .integer volumeParts [] [[53], [55]] silent := by
  have happly : (exec (applyAll unionOps volumeCtl (required volumeCtl.info.count.toNat [[53], [55]])) silent).1 =
    true := by
    decide
  have hreached : ∀ x ∈ required volumeCtl.info.count.toNat [[53], [55]],
      x ∈ reached volumeCtl id .integer silent.dev [[53], [55]] := by decide
  exact (setsAsReported_iff unionOps_storesValues ⟨rfl, rfl, by decide, by decide⟩ (by decide) rfl (by decide)).2
    ⟨happly, fun i v hv hnot => absurd (hreached (i, v) hv) hnot⟩

/-- `tinymix set Volume 5` leaves the second channel at 0, and reports success. -/
theorem not_setsAsReported_volume : ¬ SetsAsReported unionOps volumeCtl id .integer volumeParts [] [[53]] silent := by
  intro h
  have happly : (exec (applyAll unionOps volumeCtl (required volumeCtl.info.count.toNat [[53]])) silent).1 = true := by
    decide
  have hsecond := h.applies happly 1 (toControlValue [53]) (by decide)
  revert hsecond
  decide

end Tinyalsa.Tinymix
