/-
Values as percentages (`mixer_ctl_get_percent`, `mixer_ctl_set_percent`): where errors of the conversions
and of the accessors are told from values, and where no `int` overflows on the way.
-/
import Tinyalsa.Mixer.Values

namespace Tinyalsa

open Hoare ByteMemory CInt

/-! ## The conversions -/

/-- `percent_to_int`, and whether an `int` of it overflowed. Ghost. -/
def percentToInt (ei : SndCtlElemInfo) (percent : Int) : Int × Bool :=
  if percent > 100 ∨ percent < 0 then (-eInval, false)
  else
    let range := ei.max - ei.min
    let product := wrapInt range * percent
    let value := ei.min + (wrapInt product).tdiv 100
    (wrapInt value, !fitsInt range || !fitsInt product || !fitsInt value)

/-- `int_to_percent`, and whether an `int` of it overflowed. Ghost. -/
def intToPercent (ei : SndCtlElemInfo) (value : Int) : Int × Bool :=
  let range := ei.max - ei.min
  if wrapInt range = 0 then (0, !fitsInt range)
  else
    let percent := ((value - ei.min) * 100).tdiv (wrapInt range)
    (wrapInt percent, !fitsInt range || !fitsInt percent)

section

variable {δ : Type} (ops : CtlOps δ) (ctl : MixerCtl)

/-- `mixer_ctl_get_percent`. -/
def mixerCtlGetPercent (id : UInt32) : CtlM δ (Int × Bool) := do
  if ctl.info.type ≠ .integer then return (-eInval, false)
  else return intToPercent ctl.info (← mixerCtlGetValue ops ctl id)

/-- `mixer_ctl_set_percent`. -/
def mixerCtlSetPercent (id : UInt32) (percent : Int) : CtlM δ (Int × Bool) := do
  if ctl.info.type ≠ .integer then return (-eInval, false)
  else
    let (value, overflow) := percentToInt ctl.info percent
    return (← mixerCtlSetValue ops ctl id value, overflow)

/-- The backend, with the values that are written to it, newest first. Ghost. -/
def recordWrites : CtlOps (δ × List SndCtlElemValue) where
  elemInfo i d := ((ops.elemInfo i d.1).1, (ops.elemInfo i d.1).2.1, (ops.elemInfo i d.1).2.2, d.2)
  elemRead ev d := ((ops.elemRead ev d.1).1, (ops.elemRead ev d.1).2.1, (ops.elemRead ev d.1).2.2, d.2)
  elemWrite ev d := ((ops.elemWrite ev d.1).1, (ops.elemWrite ev d.1).2, ev :: d.2)
  tlvRead t d := ((ops.tlvRead t d.1).1, (ops.tlvRead t d.1).2.1, (ops.tlvRead t d.1).2.2, d.2)
  tlvWrite t d := ((ops.tlvWrite t d.1).1, (ops.tlvWrite t d.1).2, d.2)

/-- A call of a percent accessor. -/
inductive PercentCall
  | get (id : UInt32)
  | set (id : UInt32) (percent : Int)

/-- `ev.value.integer.value[id]`. -/
def SndCtlElemValue.long (ev : SndCtlElemValue) (id : Nat) : Int :=
  wrapLong (load ev.value (ValueMember.integer.size * id) ValueMember.integer.size)

/-- A value within the bounds of a control. -/
def SndCtlElemInfo.InBounds (ei : SndCtlElemInfo) (v : Int) : Prop := ei.min ≤ v ∧ v ≤ ei.max

/-- What was accessed lies inside the union. -/
def AccessState.Inside {δ : Type} (s : AccessState δ) : Prop := ∀ e ∈ s.touched, e.2 < e.1.capacity

/-- A call keeps errors apart from values; no `int` overflows, and no access leaves the union. -/
def KeepsErrorsApart (s : AccessState δ) : PercentCall → Prop
  | .get id =>
    let r := exec (mixerCtlGetPercent ops ctl id) { s with touched := [] }
    r.2.Inside ∧ r.1.2 = false ∧
      (id < ctl.info.count → ¬ ReadFails ops ctl s →
        ctl.info.InBounds ((ops.elemRead ctl.elemValue s.dev).2.1.long id.toNat) → 0 ≤ r.1.1 ∧ r.1.1 ≤ 100) ∧
      (ctl.info.count ≤ id ∨ ReadFails ops ctl s → r.1.1 < 0)
  | .set id percent =>
    let r := exec (mixerCtlSetPercent (recordWrites ops) ctl id percent) { s with dev := (s.dev, []), touched := [] }
    r.2.Inside ∧ r.1.2 = false ∧
      (0 ≤ percent ∧ percent ≤ 100 → id < ctl.info.count → ¬ ReadFails ops ctl s →
        ∃ ev, r.2.dev.2 = [ev] ∧ ctl.info.InBounds (ev.long id.toNat)) ∧
      (percent < 0 ∨ 100 < percent → r.1.1 ≠ 0 ∧ r.2.dev.2 = [])

/-- The percentage of a value is an `int`. -/
def PercentFits (ei : SndCtlElemInfo) (v : Int) : Prop :=
  ei.min < ei.max → fitsInt (((v - ei.min) * 100).tdiv (ei.max - ei.min))

/-- An error code lies so far below the bounds that its percentage is negative, and an `int`. -/
def BelowBounds (ei : SndCtlElemInfo) (e : Int) : Prop :=
  ei.min < ei.max ∧ ei.max - ei.min ≤ 100 * (ei.min - e) ∧ 100 * (ei.min - e) / (ei.max - ei.min) ≤ 2 ^ 31

/-- Where the control can be read, the union has the element. -/
def ElemInside (s : AccessState δ) (id : UInt32) : Prop :=
  id < ctl.info.count → ¬ ReadFails ops ctl s → id.toNat < ValueMember.integer.capacity

/-- The calls that keep errors apart: the element lies in the union; the range of the control, and its part for the
percentage, are `int`s; a percentage out of range meets an error before it is written; and an error code is below the
control's bounds. -/
def ErrorsDistinct (s : AccessState δ) : PercentCall → Prop
  | .get id => ElemInside ops ctl s id ∧ ctl.info.max - ctl.info.min < 2 ^ 31 ∧
    (ctl.info.count ≤ id → BelowBounds ctl.info (-eInval)) ∧
    (id < ctl.info.count → ReadFails ops ctl s → BelowBounds ctl.info (ops.elemRead ctl.elemValue s.dev).1) ∧
    (id < ctl.info.count → ¬ ReadFails ops ctl s →
      PercentFits ctl.info (wrapInt ((ops.elemRead ctl.elemValue s.dev).2.1.long id.toNat)))
  | .set id percent =>
    if 0 ≤ percent ∧ percent ≤ 100 then
      ElemInside ops ctl s id ∧ ctl.info.max - ctl.info.min < 2 ^ 31 ∧
        (ctl.info.max - ctl.info.min) * percent < 2 ^ 31
    else ctl.info.count ≤ id ∨ ReadFails ops ctl s

end

/-! ## Percentages of values -/

section

variable {ei : SndCtlElemInfo} {v e : Int}

/-- The bounds of a control are `int`s in order. -/
structure SndCtlElemInfo.IntBounds (ei : SndCtlElemInfo) : Prop where
  lower : -2 ^ 31 ≤ ei.min
  le : ei.min ≤ ei.max
  upper : ei.max < 2 ^ 31

/-- The value of a percentage, where the range and its part fit. -/
theorem percentToInt_value (h : ei.IntBounds) {percent : Int} (hp : 0 ≤ percent ∧ percent ≤ 100)
    (hr : ei.max - ei.min < 2 ^ 31) (hpart : (ei.max - ei.min) * percent < 2 ^ 31) :
    ∃ v, ei.InBounds v ∧ percentToInt ei percent = (v, false) := by
  obtain ⟨hlo, hle, hhi⟩ := h
  have hnonneg : 0 ≤ (ei.max - ei.min) * percent := mul_nonneg (by omega) hp.1
  have hmost : (ei.max - ei.min) * percent ≤ (ei.max - ei.min) * 100 := mul_le_mul_of_nonneg_left hp.2 (by omega)
  have hrange : wrapInt (ei.max - ei.min) = ei.max - ei.min := wrapInt_of_fits (by omega) hr
  unfold percentToInt
  rw [if_neg (by omega)]
  dsimp only
  rw [hrange]
  generalize (ei.max - ei.min) * percent = part at *
  rw [wrapInt_of_fits (by omega) hpart, Int.tdiv_eq_ediv_of_nonneg hnonneg]
  have hfits : ∀ x : Int, -2 ^ 31 ≤ x → x < 2 ^ 31 → fitsInt x = true := fun x h₁ h₂ => fitsInt_iff.2 ⟨h₁, h₂⟩
  rw [wrapInt_of_fits (by omega) (by omega), hfits _ (by omega) hr, hfits part (by omega) hpart,
    hfits (ei.min + part / 100) (by omega) (by omega)]
  exact ⟨_, ⟨by omega, by omega⟩, rfl⟩

theorem percentToInt_fits {percent : Int} (hp : 0 ≤ percent ∧ percent ≤ 100)
    (hover : (percentToInt ei percent).2 = false) :
    ei.max - ei.min < 2 ^ 31 ∧ (ei.max - ei.min) * percent < 2 ^ 31 := by
  unfold percentToInt at hover
  rw [if_neg (by omega)] at hover
  simp only [Bool.or_eq_false_iff, Bool.not_eq_false', fitsInt_iff] at hover
  obtain ⟨⟨⟨hlo, hhi⟩, -, hpart⟩, -⟩ := hover
  rw [wrapInt_of_fits hlo hhi] at hpart
  exact ⟨hhi, hpart⟩

theorem percentToInt_refused {percent : Int} (hp : ¬ (0 ≤ percent ∧ percent ≤ 100)) :
    percentToInt ei percent = (-eInval, false) := by
  unfold percentToInt
  rw [if_pos (by omega)]

/-- A percentage of a range that fits. -/
theorem intToPercent_eq (h : ei.IntBounds) (hr : ei.max - ei.min < 2 ^ 31) :
    intToPercent ei v =
      if ei.min = ei.max then (0, false)
      else (wrapInt (((v - ei.min) * 100).tdiv (ei.max - ei.min)),
        !fitsInt (((v - ei.min) * 100).tdiv (ei.max - ei.min))) := by
  obtain ⟨hlo, hle, hhi⟩ := h
  have hrange : wrapInt (ei.max - ei.min) = ei.max - ei.min := wrapInt_of_fits (by omega) hr
  have hfits : fitsInt (ei.max - ei.min) = true := fitsInt_iff.2 ⟨by omega, hr⟩
  unfold intToPercent
  simp only [hrange, hfits, Bool.not_true, Bool.false_or]
  by_cases heq : ei.min = ei.max
  · rw [if_pos heq, if_pos (by omega)]
  · rw [if_neg heq, if_neg (by omega)]

/-- The percentage of a value in the bounds. -/
theorem intToPercent_inBounds (h : ei.IntBounds) (hr : ei.max - ei.min < 2 ^ 31) (hv : ei.InBounds v) :
    0 ≤ (intToPercent ei v).1 ∧ (intToPercent ei v).1 ≤ 100 := by
  rw [intToPercent_eq h hr]
  obtain ⟨hlo, hhi⟩ := hv
  split
  · exact ⟨le_refl _, by norm_num⟩
  · rename_i hne
    have hpos : 0 < ei.max - ei.min := by have := h.le; omega
    have hle : ((v - ei.min) * 100).tdiv (ei.max - ei.min) ≤ 100 := by
      rw [Int.tdiv_eq_ediv_of_nonneg (by omega)]
      exact Int.ediv_le_of_le_mul hpos (by omega)
    have hge : 0 ≤ ((v - ei.min) * 100).tdiv (ei.max - ei.min) := Int.tdiv_nonneg (by omega) hpos.le
    dsimp only
    rw [wrapInt_of_fits (by omega) (by omega)]
    exact ⟨hge, hle⟩

theorem intToPercent_range (hover : (intToPercent ei v).2 = false) : ei.max - ei.min < 2 ^ 31 := by
  unfold intToPercent at hover
  dsimp only at hover
  split at hover
  · simp only [Bool.not_eq_false', fitsInt_iff] at hover
    exact hover.2
  · simp only [Bool.or_eq_false_iff, Bool.not_eq_false', fitsInt_iff] at hover
    exact hover.1.2

theorem intToPercent_overflow (h : ei.IntBounds) (hr : ei.max - ei.min < 2 ^ 31) :
    (intToPercent ei v).2 = false ↔ PercentFits ei v := by
  have hle := h.le
  rw [intToPercent_eq h hr]
  unfold PercentFits
  split
  · exact iff_of_true rfl fun hlt => by omega
  · rename_i hne
    simp only [Bool.not_eq_false']
    exact ⟨fun hfits _ => hfits, fun hfits => hfits (by omega)⟩

/-- An error code is told from a percentage just when it lies far enough below the bounds. -/
theorem intToPercent_error (h : ei.IntBounds) (hr : ei.max - ei.min < 2 ^ 31) :
    (intToPercent ei e).2 = false ∧ (intToPercent ei e).1 < 0 ↔ BelowBounds ei e := by
  have hle := h.le
  rw [intToPercent_eq h hr]
  unfold BelowBounds
  split
  · exact iff_of_false (fun h => lt_irrefl _ h.2) fun h => by omega
  rename_i hne
  have hpos : 0 < ei.max - ei.min := by omega
  simp only [Bool.not_eq_false']
  rcases le_or_gt ei.min e with hge | hlt
  · have hnonneg : 0 ≤ ((e - ei.min) * 100).tdiv (ei.max - ei.min) := Int.tdiv_nonneg (by omega) hpos.le
    refine iff_of_false (fun ⟨hfits, hneg⟩ => ?_) fun h => by omega
    rw [wrapInt_of_fitsInt hfits] at hneg
    omega
  · -- a negative quotient is rounded towards zero
    have hquot : ((e - ei.min) * 100).tdiv (ei.max - ei.min) = -(100 * (ei.min - e) / (ei.max - ei.min)) := by
      rw [show (e - ei.min) * 100 = -(100 * (ei.min - e)) by ring, Int.neg_tdiv, Int.tdiv_eq_ediv_of_nonneg (by omega)]
    have hone : 1 ≤ 100 * (ei.min - e) / (ei.max - ei.min) ↔ ei.max - ei.min ≤ 100 * (ei.min - e) := by
      rw [Int.le_ediv_iff_mul_le hpos, one_mul]
    rw [hquot, fitsInt_iff, ← hone]
    generalize 100 * (ei.min - e) / (ei.max - ei.min) = q
    refine ⟨fun ⟨hfits, hneg⟩ => ?_, fun ⟨_, hq, hbound⟩ => ?_⟩
    · rw [wrapInt_of_fits hfits.1 hfits.2] at hneg
      omega
    · rw [wrapInt_of_fits (by omega) (by omega)]
      omega

end

/-! ## The accessors -/

section

variable {δ : Type} {ops : CtlOps δ} {ctl : MixerCtl} {s : AccessState δ} {id : UInt32} {percent : Int}

theorem exec_mixerCtlGetPercent (ht : ctl.info.type = .integer) :
    exec (mixerCtlGetPercent ops ctl id) s =
      (intToPercent ctl.info (exec (mixerCtlGetValue ops ctl id) s).1, (exec (mixerCtlGetValue ops ctl id) s).2) := by
  unfold mixerCtlGetPercent
  rw [if_neg (not_not.2 ht)]
  rfl

theorem exec_mixerCtlSetPercent (ht : ctl.info.type = .integer) :
    exec (mixerCtlSetPercent ops ctl id percent) s =
      (((exec (mixerCtlSetValue ops ctl id (percentToInt ctl.info percent).1) s).1, (percentToInt ctl.info percent).2),
        (exec (mixerCtlSetValue ops ctl id (percentToInt ctl.info percent).1) s).2) := by
  unfold mixerCtlSetPercent
  rw [if_neg (not_not.2 ht)]
  rfl

theorem inside_nil (h : s.touched = []) : s.Inside := by
  intro e he
  rw [h] at he
  cases he

theorem inside_single {i : Nat} (h : s.touched = [(.integer, i)]) : s.Inside ↔ i < ValueMember.integer.capacity := by
  unfold AccessState.Inside
  rw [h]
  refine ⟨fun hall => hall _ List.mem_cons_self, fun hlt e he => ?_⟩
  obtain rfl := List.mem_singleton.1 he
  exact hlt

/-- Getting a percentage keeps errors apart just when the element is in the union, the range fits, a value's percentage
fits, and an error lies below the bounds. -/
theorem keepsErrorsApart_get (ht : ctl.info.type = .integer) (h : ctl.info.IntBounds) :
    KeepsErrorsApart ops ctl s (.get id) ↔ ErrorsDistinct ops ctl s (.get id) := by
  have hread : ReadFails ops ctl { s with touched := [] } ↔ ReadFails ops ctl s := Iff.rfl
  unfold KeepsErrorsApart ErrorsDistinct ElemInside
  dsimp only
  rw [exec_mixerCtlGetPercent ht]
  dsimp only
  by_cases hr : ctl.info.max - ctl.info.min < 2 ^ 31
  swap
  · exact iff_of_false (fun hk => hr (intToPercent_range hk.2.1)) fun hd => hr hd.2.1
  rw [and_iff_right hr]
  by_cases hid : ctl.info.count ≤ id
  · have hlt : ¬ id < ctl.info.count := UInt32.not_lt.2 hid
    rw [exec_mixerCtlGetValue_range hid, and_iff_right (inside_nil rfl)]
    simp only [hlt, hid, true_or, forall_const, false_imp_iff, true_and, and_true]
    exact intToPercent_error h hr
  have hlt : id < ctl.info.count := UInt32.not_le.1 hid
  by_cases hfail : ReadFails ops ctl s
  · rw [exec_mixerCtlGetValue_fails hid (hread.2 hfail), and_iff_right (inside_nil rfl)]
    simp only [hlt, hid, hfail, not_true_eq_false, false_imp_iff, or_true, forall_const, true_and, and_true]
    exact intToPercent_error h hr
  · have hs : ctl.info.type.single := by rw [ht]; rfl
    have hm : ctl.info.type.member = some .integer := by rw [ht]; rfl
    rw [exec_mixerCtlGetValue hid (hread.not.2 hfail) hs hm]
    simp only [hlt, hid, hfail, not_false_eq_true, false_imp_iff, or_self, forall_const, true_and, and_true]
    refine and_congr (inside_single rfl) ?_
    have hvalue : ctl.info.type.decode (load (ops.elemRead ctl.elemValue s.dev).2.1.value
        (ValueMember.integer.size * id.toNat) ValueMember.integer.size) =
        wrapInt ((ops.elemRead ctl.elemValue s.dev).2.1.long id.toNat) := by
      rw [ht]
      rfl
    rw [hvalue, intToPercent_overflow h hr]
    refine ⟨fun hk => hk.1, fun hfits => ⟨hfits, fun hv => ?_⟩⟩
    have hlong : wrapInt ((ops.elemRead ctl.elemValue s.dev).2.1.long id.toNat) =
        (ops.elemRead ctl.elemValue s.dev).2.1.long id.toNat :=
      wrapInt_of_fits (h.lower.trans hv.1) (hv.2.trans_lt h.upper)
    rw [hlong]
    exact intToPercent_inBounds h hr hv

/-- A value that is written as a `long` is in the union that is written. -/
theorem long_setElem {v : Int} (hlo : -2 ^ 31 ≤ v) (hhi : v < 2 ^ 31) :
    (setElem ops ctl s .integer id.toNat (CtlElemType.integer.encode v)).long id.toNat = v := by
  unfold setElem SndCtlElemValue.long CtlElemType.encode
  dsimp only
  rw [load_store_of_lt _ _ (toULong v).toNat_lt, toNat_toULong]
  unfold wrapLong
  omega

/-- A percentage keeps errors apart just when the element is in the union and its part of the range fits. -/
theorem keepsErrorsApart_percent (ht : ctl.info.type = .integer) (h : ctl.info.IntBounds)
    (hp : 0 ≤ percent ∧ percent ≤ 100) :
    KeepsErrorsApart ops ctl s (.set id percent) ↔ ErrorsDistinct ops ctl s (.set id percent) := by
  have hs : ctl.info.type.single := by rw [ht]; rfl
  have hm : ctl.info.type.member = some .integer := by rw [ht]; rfl
  have hread : ReadFails (recordWrites ops) ctl { s with dev := (s.dev, []), touched := [] } ↔ ReadFails ops ctl s :=
    Iff.rfl
  have hout : ¬ (percent < 0 ∨ 100 < percent) := by omega
  unfold KeepsErrorsApart ErrorsDistinct ElemInside
  dsimp only
  rw [exec_mixerCtlSetPercent ht]
  dsimp only
  rw [if_pos hp]
  by_cases hfit : ctl.info.max - ctl.info.min < 2 ^ 31 ∧ (ctl.info.max - ctl.info.min) * percent < 2 ^ 31
  swap
  · exact iff_of_false (fun hk => hfit (percentToInt_fits hp hk.2.1)) fun hd => hfit hd.2
  rw [and_iff_left hfit]
  obtain ⟨v, hv, heq⟩ := percentToInt_value h hp hfit.1 hfit.2
  rw [heq]
  simp only [hp, hout, and_self, forall_const, false_imp_iff, and_true, true_and]
  by_cases hid : ctl.info.count ≤ id
  · have hlt : ¬ id < ctl.info.count := UInt32.not_lt.2 hid
    rw [exec_mixerCtlSetValue_range hid]
    simp only [hlt, false_imp_iff, and_true, iff_true]
    exact inside_nil rfl
  have hlt : id < ctl.info.count := UInt32.not_le.1 hid
  by_cases hfail : ReadFails ops ctl s
  · rw [exec_mixerCtlSetValue_fails hid (hread.2 hfail)]
    simp only [hfail, not_true_eq_false, false_imp_iff, implies_true, and_true, iff_true]
    exact inside_nil rfl
  · rw [exec_mixerCtlSetValue hid (hread.not.2 hfail) hs hm]
    simp only [hlt, hfail, not_false_eq_true, forall_const]
    refine (and_iff_left ⟨_, rfl, ?_⟩).trans (inside_single rfl)
    rw [ht, long_setElem (h.lower.trans hv.1) (hv.2.trans_lt h.upper)]
    exact hv

/-- What is no percentage is written as an error code, unless another error prevents it. -/
theorem keepsErrorsApart_noPercent (ht : ctl.info.type = .integer) (hp : ¬ (0 ≤ percent ∧ percent ≤ 100)) :
    KeepsErrorsApart ops ctl s (.set id percent) ↔ ErrorsDistinct ops ctl s (.set id percent) := by
  have hs : ctl.info.type.single := by rw [ht]; rfl
  have hm : ctl.info.type.member = some .integer := by rw [ht]; rfl
  have hread : ReadFails (recordWrites ops) ctl { s with dev := (s.dev, []), touched := [] } ↔ ReadFails ops ctl s :=
    Iff.rfl
  have hout : percent < 0 ∨ 100 < percent := by omega
  unfold KeepsErrorsApart ErrorsDistinct
  dsimp only
  rw [exec_mixerCtlSetPercent ht]
  dsimp only
  rw [if_neg hp, percentToInt_refused hp]
  by_cases hid : ctl.info.count ≤ id
  · rw [exec_mixerCtlSetValue_range hid]
    exact iff_of_true ⟨inside_nil rfl, rfl, fun h => absurd h hp, fun _ => ⟨show -eInval ≠ 0 by decide, rfl⟩⟩
      (.inl hid)
  by_cases hfail : ReadFails ops ctl s
  · rw [exec_mixerCtlSetValue_fails hid (hread.2 hfail)]
    exact iff_of_true ⟨inside_nil rfl, rfl, fun h => absurd h hp, fun _ => ⟨ne_of_lt hfail, rfl⟩⟩ (.inr hfail)
  · refine iff_of_false (fun hk => ?_) (not_or.2 ⟨hid, hfail⟩)
    have hwrites := (hk.2.2.2 hout).2
    rw [exec_mixerCtlSetValue hid (hread.not.2 hfail) hs hm] at hwrites
    exact absurd hwrites (List.cons_ne_nil _ _)

/-- The percent accessors keep errors apart from values, without an overflow, on these calls only. -/
theorem keepsErrorsApart_iff (ht : ctl.info.type = .integer) (h : ctl.info.IntBounds) (call : PercentCall) :
    KeepsErrorsApart ops ctl s call ↔ ErrorsDistinct ops ctl s call := by
  cases call with
  | get id => exact keepsErrorsApart_get ht h
  | set id percent =>
    by_cases hp : 0 ≤ percent ∧ percent ≤ 100
    · exact keepsErrorsApart_percent ht h hp
    · exact keepsErrorsApart_noPercent ht hp

end

/-- An attenuation from -100 to 0. -/
def attenuation : MixerCtl where
  info := { id := { numid := 3 }, type := .integer, count := 1, min := -100, max := 0 }

theorem attenuation_intBounds : attenuation.info.IntBounds := ⟨by decide, by decide, by decide⟩

theorem keepsErrorsApart_attenuation : KeepsErrorsApart echoOps attenuation { dev := () } (.set 0 40) := by
  refine (keepsErrorsApart_iff rfl attenuation_intBounds _).2 ?_
  unfold ErrorsDistinct
  dsimp only
  rw [if_pos (by decide)]
  exact ⟨fun _ _ => by decide, by decide, by decide⟩

/-- A percentage of 150 is written as the value -22, and the value of an element that does not exist is 78 percent. -/
theorem not_keepsErrorsApart_attenuation :
    ¬ KeepsErrorsApart echoOps attenuation { dev := () } (.set 0 150) ∧
      ¬ KeepsErrorsApart echoOps attenuation { dev := () } (.get 1) := by
  refine ⟨fun h => ?_, fun h => ?_⟩
  · exact absurd (h.2.2.2 (.inr (by decide))).2 (List.cons_ne_nil _ _)
  · have hneg := h.2.2.2 (.inl (by decide))
    exact absurd hneg (show ¬ (78 : Int) < 0 by decide)

end Tinyalsa
