/-
How far the percentage of a value is from it, and what becomes of a control whose percentage is saved and
restored (`mixer_ctl_get_percent`, then `mixer_ctl_set_percent` with its result).
-/
import Tinyalsa.Lib.Scale
import Tinyalsa.Mixer.Percent
import Tinyalsa.Mixer.Stored

namespace Tinyalsa

open Hoare ByteMemory CInt Scale

/-! ## The conversions as scales -/

/-- The bounds of a control are `int`s in order, and so is a hundred times the range. -/
structure SndCtlElemInfo.PercentRange (ei : SndCtlElemInfo) : Prop where
  bounds : ei.IntBounds
  lt : ei.min < ei.max
  fits : 100 * (ei.max - ei.min) < 2 ^ 31

section

variable {ei : SndCtlElemInfo} {p v : Int}

theorem percentToInt_scale (h : ei.PercentRange) (hp : 0 ≤ p ∧ p ≤ 100) :
    (percentToInt ei p).1 = ei.min + scale (ei.max - ei.min) 100 p := by
  obtain ⟨⟨hlo, -, hhi⟩, hlt, hfits⟩ := h
  have hnonneg := scale_nonneg (a := ei.max - ei.min) (b := 100) (by omega) (by omega) hp.1
  have hle := scale_le (a := ei.max - ei.min) (b := 100) (by omega) (by omega) hp.2
  have hpart : 0 ≤ (ei.max - ei.min) * p := mul_nonneg (by omega) hp.1
  have hmost : (ei.max - ei.min) * p ≤ (ei.max - ei.min) * 100 := mul_le_mul_of_nonneg_left hp.2 (by omega)
  have hrange : wrapInt (ei.max - ei.min) = ei.max - ei.min := wrapInt_of_fits (by omega) (by omega)
  have hproduct : wrapInt ((ei.max - ei.min) * p) = (ei.max - ei.min) * p := wrapInt_of_fits (by omega) (by omega)
  unfold percentToInt
  rw [if_neg (by omega)]
  dsimp only
  rw [hrange, hproduct, Int.tdiv_eq_ediv_of_nonneg hpart]
  change wrapInt (ei.min + scale (ei.max - ei.min) 100 p) = _
  exact wrapInt_of_fits (by omega) (by omega)

theorem intToPercent_scale (h : ei.PercentRange) (hv : ei.InBounds v) :
    (intToPercent ei v).1 = scale 100 (ei.max - ei.min) (v - ei.min) := by
  obtain ⟨hbounds, hlt, hfits⟩ := h
  have hnonneg := scale_nonneg (a := 100) (b := ei.max - ei.min) (x := v - ei.min) (by omega) (by omega)
    (sub_nonneg.2 hv.1)
  have hle := scale_le (a := 100) (b := ei.max - ei.min) (x := v - ei.min) (by omega) (by omega)
    (sub_le_sub_right hv.2 _)
  have hpos : 0 ≤ 100 * (v - ei.min) := mul_nonneg (by norm_num) (sub_nonneg.2 hv.1)
  rw [intToPercent_eq hbounds (by omega), if_neg (by omega)]
  dsimp only
  rw [mul_comm (v - ei.min), Int.tdiv_eq_ediv_of_nonneg hpos]
  change wrapInt (scale 100 (ei.max - ei.min) (v - ei.min)) = _
  exact wrapInt_of_fits (by omega) (by omega)

theorem intToPercent_range_of_inBounds (h : ei.PercentRange) (hv : ei.InBounds v) :
    0 ≤ (intToPercent ei v).1 ∧ (intToPercent ei v).1 ≤ 100 :=
  intToPercent_inBounds h.bounds (by have := h.fits; have := h.lt; omega) hv

theorem percentToInt_inBounds (h : ei.PercentRange) (hp : 0 ≤ p ∧ p ≤ 100) : ei.InBounds (percentToInt ei p).1 := by
  have hlt := h.lt
  have hnonneg := scale_nonneg (a := ei.max - ei.min) (b := 100) (by omega) (by omega) hp.1
  have hle := scale_le (a := ei.max - ei.min) (b := 100) (by omega) (by omega) hp.2
  rw [percentToInt_scale h hp]
  exact ⟨by omega, by omega⟩

/-! ## Accuracy -/

/-- Both conversions keep the order and the ends of their range, and there and back a number is rounded down by less
than one of each scale. -/
structure PercentAccurate (ei : SndCtlElemInfo) : Prop where
  valueMono : ∀ p q, 0 ≤ p → p ≤ q → q ≤ 100 → (percentToInt ei p).1 ≤ (percentToInt ei q).1
  percentMono : ∀ v w, ei.min ≤ v → v ≤ w → w ≤ ei.max → (intToPercent ei v).1 ≤ (intToPercent ei w).1
  least : (percentToInt ei 0).1 = ei.min ∧ (intToPercent ei ei.min).1 = 0
  most : (percentToInt ei 100).1 = ei.max ∧ (intToPercent ei ei.max).1 = 100
  percentBack : ∀ p, 0 ≤ p → p ≤ 100 → let p' := (intToPercent ei (percentToInt ei p).1).1
    p' ≤ p ∧ ((p - p' : Int) : ℚ) < 1 + 100 / (ei.max - ei.min : Int)
  valueBack : ∀ v, ei.InBounds v → let v' := (percentToInt ei (intToPercent ei v).1).1
    v' ≤ v ∧ ((v - v' : Int) : ℚ) < 1 + (ei.max - ei.min : Int) / 100

/-- The percentage of the value of a percentage. -/
theorem percent_back (h : ei.PercentRange) (hp : 0 ≤ p ∧ p ≤ 100) : (intToPercent ei (percentToInt ei p).1).1 =
    scale 100 (ei.max - ei.min) (scale (ei.max - ei.min) 100 p) := by
  rw [intToPercent_scale h (percentToInt_inBounds h hp), percentToInt_scale h hp, add_sub_cancel_left]

/-- The value of the percentage of a value. -/
theorem value_back (h : ei.PercentRange) (hv : ei.InBounds v) : (percentToInt ei (intToPercent ei v).1).1 =
    ei.min + scale (ei.max - ei.min) 100 (scale 100 (ei.max - ei.min) (v - ei.min)) := by
  rw [percentToInt_scale h (intToPercent_range_of_inBounds h hv), intToPercent_scale h hv]

theorem value_back_le (h : ei.PercentRange) (hv : ei.InBounds v) : (percentToInt ei (intToPercent ei v).1).1 ≤ v := by
  have hlt := h.lt
  have hle := back_le (x := v - ei.min) (show (0 : Int) < 100 by norm_num) (show 0 < ei.max - ei.min by omega)
  rw [value_back h hv]
  omega

theorem percent_back_le (h : ei.PercentRange) (hp : 0 ≤ p ∧ p ≤ 100) :
    (intToPercent ei (percentToInt ei p).1).1 ≤ p := by
  have hlt := h.lt
  rw [percent_back h hp]
  exact back_le (by omega) (by norm_num)

/-- The percentage of a value is got again from its own value just when the rest that it leaves is a whole number of
percents. -/
theorem percent_again_iff (h : ei.PercentRange) (hv : ei.InBounds v) :
    (intToPercent ei (percentToInt ei (intToPercent ei v).1).1).1 = (intToPercent ei v).1 ↔
      100 ∣ 100 * (v - ei.min) % (ei.max - ei.min) := by
  have hlt := h.lt
  rw [percent_back h (intToPercent_range_of_inBounds h hv), back_eq_iff (by omega) (by norm_num),
    intToPercent_scale h hv, dvd_mul_scale_iff]

/-- The conversions of a control whose bounds are `int`s are accurate. -/
theorem percentAccurate (h : ei.PercentRange) : PercentAccurate ei := by
  have hlt := h.lt
  have hpos : 0 < ei.max - ei.min := by omega
  have hmin : ei.InBounds ei.min := ⟨le_rfl, hlt.le⟩
  have hmax : ei.InBounds ei.max := ⟨hlt.le, le_rfl⟩
  constructor
  · intro p q hp hpq hq
    rw [percentToInt_scale h ⟨hp, by omega⟩, percentToInt_scale h ⟨by omega, hq⟩]
    have := scale_mono (a := ei.max - ei.min) (b := 100) hpos.le (by norm_num) hpq
    omega
  · intro v w hv hvw hw
    rw [intToPercent_scale h ⟨hv, by omega⟩, intToPercent_scale h ⟨by omega, hw⟩]
    exact scale_mono (by norm_num) hpos (by omega)
  · constructor
    · rw [percentToInt_scale h (by norm_num), scale_zero, add_zero]
    · rw [intToPercent_scale h hmin, sub_self, scale_zero]
  · constructor
    · rw [percentToInt_scale h (by norm_num), scale_whole (by norm_num), add_sub_cancel]
    · rw [intToPercent_scale h hmax, scale_whole hpos.ne']
  · intro p hp hp'
    have herror := back_error (x := p) hpos (show (0 : Int) < 100 by norm_num)
    dsimp only
    refine ⟨percent_back_le h ⟨hp, hp'⟩, ?_⟩
    rw [percent_back h ⟨hp, hp'⟩]
    exact_mod_cast herror
  · intro v hv
    have herror := back_error (x := v - ei.min) (show (0 : Int) < 100 by norm_num) hpos
    refine ⟨value_back_le h hv, ?_⟩
    rw [value_back h hv, ← sub_sub]
    exact_mod_cast herror

end

theorem attenuation_percentRange : attenuation.info.PercentRange := ⟨attenuation_intBounds, by decide, by decide⟩

theorem percentAccurate_attenuation : PercentAccurate attenuation.info := percentAccurate attenuation_percentRange

/-- A control from 2 ^ 31 on: its bounds are `long`s, and the value of a percentage an `int`. -/
def longCtl : SndCtlElemInfo := { min := 2 ^ 31, max := 2 ^ 31 + 100 }

theorem not_percentAccurate_long : longCtl.min < longCtl.max ∧ 100 * (longCtl.max - longCtl.min) < 2 ^ 31 ∧
    ¬ PercentAccurate longCtl := by
  refine ⟨by decide, by decide, fun h => ?_⟩
  have hleast := h.least.1
  revert hleast
  decide

/-! ## Saving and restoring -/

section

variable {δ : Type} (ops : CtlOps δ) (stored : δ → UInt32 → ValueUnion) (ctl : MixerCtl) (id : UInt32)

/-- The value of an element that is stored. -/
def storedValue (d : δ) : Int := wrapLong ((stored d ctl.info.id.numid).elem .integer id.toNat)

/-- Saves the percentage of a value and restores it: the percentage, and what setting it returned. -/
def saveRestore : CtlM δ (Int × Int) := do
  let percent := (← mixerCtlGetPercent ops ctl id).1
  return (percent, (← mixerCtlSetPercent ops ctl id percent).1)

/-- A percentage is got that can be, and set with success. -/
def Restores (s : AccessState δ) : Prop := ¬ ReadFails ops ctl s ∧ 0 ≤ (exec (saveRestore ops ctl id) s).1.2

/-- The percentage that is got after a restored one. -/
def PercentAgain (P : Int → Int → Int → Prop) : Prop :=
  ∀ s t, ctl.info.InBounds (storedValue stored ctl id s.dev) → Restores ops ctl id s →
    stored t.dev ctl.info.id.numid = stored (exec (saveRestore ops ctl id) s).2.dev ctl.info.id.numid →
    ¬ ReadFails ops ctl t →
    P (storedValue stored ctl id s.dev) (exec (saveRestore ops ctl id) s).1.1
    (exec (mixerCtlGetPercent ops ctl id) t).1.1

/-- Rounds of saving and restoring, with the percentage and the value that each of them leaves; in between anything
happens that leaves the control alone. -/
inductive Rounds : AccessState δ → List (Int × Int) → Prop
  | done (s) : Rounds s []
  | round {s t rounds} : stored t.dev ctl.info.id.numid = stored s.dev ctl.info.id.numid → Restores ops ctl id t →
      Rounds (exec (saveRestore ops ctl id) t).2 rounds →
      Rounds s (((exec (saveRestore ops ctl id) t).1.1,
        storedValue stored ctl id (exec (saveRestore ops ctl id) t).2.dev) :: rounds)

/-- The percentage that was restored is got again. -/
def PercentStable : Prop := PercentAgain ops stored ctl id fun _ percent again => again = percent

/-- The percentage that was restored is got again just when the part of the value is a whole number of percents, and
else a smaller one; no round raises anything, and the first that gives its percentage again ends the changes. -/
structure PercentSettles : Prop where
  again : PercentAgain ops stored ctl id fun v percent again =>
    again ≤ percent ∧ (again = percent ↔ 100 ∣ 100 * (v - ctl.info.min) % (ctl.info.max - ctl.info.min))
  falls : ∀ s rounds, ctl.info.InBounds (storedValue stored ctl id s.dev) → Rounds ops stored ctl id s rounds →
    (∀ a ∈ rounds, a.2 ≤ storedValue stored ctl id s.dev) ∧ rounds.Pairwise fun a b => b.1 ≤ a.1 ∧ b.2 ≤ a.2
  settled : ∀ s a b rounds, ctl.info.InBounds (storedValue stored ctl id s.dev) →
    Rounds ops stored ctl id s (a :: b :: rounds) → b.1 = a.1 → ∀ c ∈ b :: rounds, c = a

end

section

variable {δ : Type} {ops : CtlOps δ} {stored : δ → UInt32 → ValueUnion} {ctl : MixerCtl} {id : UInt32}
  {s : AccessState δ}

/-- The percentage that is got is that of the stored value. -/
theorem StoresValues.getPercent (hb : StoresValues ops stored) (ht : ctl.info.type = .integer)
    (h : ctl.info.PercentRange) (hin : id.toNat < ValueMember.integer.capacity) (hid : ¬ ctl.info.count ≤ id)
    (hv : ctl.info.InBounds (storedValue stored ctl id s.dev)) (hr : ¬ ReadFails ops ctl s) :
    (exec (mixerCtlGetPercent ops ctl id) s).1.1 = (intToPercent ctl.info (storedValue stored ctl id s.dev)).1 ∧
      stored (exec (mixerCtlGetPercent ops ctl id) s).2.dev = stored s.dev := by
  have hs : ctl.info.type.single := by rw [ht]; rfl
  have hm : ctl.info.type.member = some .integer := by rw [ht]; rfl
  have hvalue : (exec (mixerCtlGetValue ops ctl id) s).1 = storedValue stored ctl id s.dev := by
    rw [hb.getValue hs hm hin hid hr, ht]
    exact wrapInt_of_fits (h.bounds.lower.trans hv.1) (hv.2.trans_lt h.bounds.upper)
  rw [exec_mixerCtlGetPercent ht]
  constructor
  · rw [hvalue]
  · rw [exec_mixerCtlGetValue hid hr hs hm]
    exact hb.readKeeps _ _

/-- Where a percentage is set with success, its value is stored. -/
theorem StoresValues.setPercent (hb : StoresValues ops stored) (ht : ctl.info.type = .integer)
    (h : ctl.info.PercentRange) (hin : id.toNat < ValueMember.integer.capacity) {p : Int} (hp : 0 ≤ p ∧ p ≤ 100)
    (hret : 0 ≤ (exec (mixerCtlSetPercent ops ctl id p) s).1.1) : ¬ ctl.info.count ≤ id ∧
      storedValue stored ctl id (exec (mixerCtlSetPercent ops ctl id p) s).2.dev = (percentToInt ctl.info p).1 := by
  have hs : ctl.info.type.single := by rw [ht]; rfl
  have hm : ctl.info.type.member = some .integer := by rw [ht]; rfl
  have hbounds := percentToInt_inBounds h hp
  have hlower := h.bounds.lower.trans hbounds.1
  have hupper := hbounds.2.trans_lt h.bounds.upper
  rw [exec_mixerCtlSetPercent ht] at hret ⊢
  obtain ⟨hid, u, hu, helem, -⟩ := hb.setValue hs hm (fun _ => hin) hret
  refine ⟨hid, ?_⟩
  unfold storedValue
  dsimp only
  rw [hu, Function.update_self, helem, ht]
  show wrapLong ((toULong _).toNat % 256 ^ 8 : Nat) = _
  rw [toNat_toULong]
  unfold wrapLong
  omega

/-- A round leaves the value of the percentage of the value. -/
theorem StoresValues.saveRestore (hb : StoresValues ops stored) (ht : ctl.info.type = .integer)
    (h : ctl.info.PercentRange) (hin : id.toNat < ValueMember.integer.capacity)
    (hv : ctl.info.InBounds (storedValue stored ctl id s.dev)) (hres : Restores ops ctl id s) :
    ¬ ctl.info.count ≤ id ∧
      (exec (saveRestore ops ctl id) s).1.1 = (intToPercent ctl.info (storedValue stored ctl id s.dev)).1 ∧
      storedValue stored ctl id (exec (saveRestore ops ctl id) s).2.dev =
        (percentToInt ctl.info (intToPercent ctl.info (storedValue stored ctl id s.dev)).1).1 := by
  obtain ⟨hr, hret⟩ := hres
  have hid : ¬ ctl.info.count ≤ id := by
    intro hid
    unfold Tinyalsa.saveRestore at hret
    rw [exec_bind, exec_bind, exec_mixerCtlSetPercent ht, exec_mixerCtlSetValue_range hid] at hret
    exact absurd hret (show ¬ (0 : Int) ≤ -eInval by decide)
  obtain ⟨hget, -⟩ := hb.getPercent ht h hin hid hv hr
  have hp := intToPercent_range_of_inBounds h hv
  unfold Tinyalsa.saveRestore at hret ⊢
  rw [exec_bind, exec_bind] at hret ⊢
  rw [hget] at hret ⊢
  exact ⟨hid, rfl, (hb.setPercent ht h hin hp hret).2⟩

/-- What the rounds from a value on leave. -/
def roundsFrom (ei : SndCtlElemInfo) (v : Int) : Nat → List (Int × Int)
  | 0 => []
  | n + 1 =>
    let percent := (intToPercent ei v).1
    let v' := (percentToInt ei percent).1
    (percent, v') :: roundsFrom ei v' n

theorem StoresValues.rounds {rounds : List (Int × Int)} (hb : StoresValues ops stored) (ht : ctl.info.type = .integer)
    (h : ctl.info.PercentRange) (hin : id.toNat < ValueMember.integer.capacity)
    (hv : ctl.info.InBounds (storedValue stored ctl id s.dev)) (hrounds : Rounds ops stored ctl id s rounds) :
    rounds = roundsFrom ctl.info (storedValue stored ctl id s.dev) rounds.length := by
  induction hrounds with
  | done s => rfl
  | @round s t rounds hsame hres _ ih =>
    have hvalue : storedValue stored ctl id t.dev = storedValue stored ctl id s.dev := by
      unfold storedValue
      rw [hsame]
    have hv' : ctl.info.InBounds (storedValue stored ctl id t.dev) := by
      rw [hvalue]
      exact hv
    obtain ⟨-, hget, hset⟩ := hb.saveRestore ht h hin hv' hres
    have hbounds := percentToInt_inBounds h (intToPercent_range_of_inBounds h hv)
    rw [hvalue] at hget hset
    rw [List.length_cons, roundsFrom, hget, hset]
    rw [hset] at ih
    exact congrArg _ (ih hbounds)

/-- From a value on, no round leaves a greater percentage or value than the one before. -/
theorem roundsFrom_le {ei : SndCtlElemInfo} (h : ei.PercentRange) : ∀ {n : Nat} {v : Int}, ei.InBounds v →
    (∀ a ∈ roundsFrom ei v n, a.1 ≤ (intToPercent ei v).1 ∧ a.2 ≤ v) ∧
      (roundsFrom ei v n).Pairwise fun a b => b.1 ≤ a.1 ∧ b.2 ≤ a.2
  | 0, _, _ => ⟨fun _ ha => absurd ha List.not_mem_nil, List.Pairwise.nil⟩
  | n + 1, v, hv => by
    have hp := intToPercent_range_of_inBounds h hv
    have hle := value_back_le h hv
    have hple := percent_back_le h hp
    obtain ⟨hall, hpair⟩ := roundsFrom_le h (n := n) (percentToInt_inBounds h hp)
    refine ⟨fun a ha => ?_, .cons (fun b hb => ⟨(hall b hb).1.trans hple, (hall b hb).2⟩) hpair⟩
    rcases List.mem_cons.1 ha with rfl | ha
    · exact ⟨le_rfl, hle⟩
    · exact ⟨(hall a ha).1.trans hple, (hall a ha).2.trans hle⟩

/-- A percentage that is got again is got ever after. -/
theorem roundsFrom_settled {ei : SndCtlElemInfo} {v : Int}
    (h : (intToPercent ei (percentToInt ei (intToPercent ei v).1).1).1 =
    (intToPercent ei v).1) (n : Nat) :
    ∀ c ∈ roundsFrom ei (percentToInt ei (intToPercent ei v).1).1 n,
      c = ((intToPercent ei v).1, (percentToInt ei (intToPercent ei v).1).1) := by
  induction n with
  | zero => exact fun _ hc => by cases hc
  | succ n ih =>
    intro c hc
    rw [roundsFrom, h] at hc
    rcases List.mem_cons.1 hc with rfl | hc
    · rfl
    · exact ih c hc

end

/-- A control of four steps. -/
def stepCtl : MixerCtl where
  info := { id := { numid := 5 }, type := .integer, count := 1, max := 3 }

end Tinyalsa
