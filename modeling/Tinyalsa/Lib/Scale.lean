/-
Numbers of one scale as numbers of another, rounded down, and what is lost on the way there and back.
-/
import Mathlib.Tactic

/-- A number `x` of `b` as one of `a`, rounded down. -/
def scale (a b x : Int) : Int := a * x / b

namespace Scale

variable {a b x y : Int}

theorem scale_mono (ha : 0 ≤ a) (hb : 0 < b) (h : x ≤ y) : scale a b x ≤ scale a b y :=
  Int.ediv_le_ediv hb (mul_le_mul_of_nonneg_left h ha)

theorem scale_nonneg (ha : 0 ≤ a) (hb : 0 < b) (hx : 0 ≤ x) : 0 ≤ scale a b x :=
  Int.ediv_nonneg (mul_nonneg ha hx) hb.le

@[simp] theorem scale_zero : scale a b 0 = 0 := by
  unfold scale
  rw [mul_zero, Int.zero_ediv]

/-- The whole of one scale is the whole of the other. -/
@[simp] theorem scale_whole (hb : b ≠ 0) : scale a b b = a := Int.mul_ediv_cancel a hb

theorem scale_le (ha : 0 ≤ a) (hb : 0 < b) (h : x ≤ b) : scale a b x ≤ a := by
  have hmono := scale_mono ha hb h
  rwa [scale_whole hb.ne'] at hmono

/-- Rounding down loses less than one. -/
theorem mul_scale_bounds (hb : 0 < b) : a * x - b < b * scale a b x ∧ b * scale a b x ≤ a * x := by
  have hmod := Int.emod_lt_of_pos (a * x) hb
  have hnonneg := Int.emod_nonneg (a * x) hb.ne'
  have hdiv := Int.mul_ediv_add_emod (a * x) b
  unfold scale
  constructor
  · linarith
  · linarith

/-- There and back, a number does not grow. -/
theorem back_le (ha : 0 < a) (hb : 0 < b) : scale b a (scale a b x) ≤ x := by
  have hback := (mul_scale_bounds (a := b) (x := scale a b x) ha).2
  have hthere := (mul_scale_bounds (a := a) (x := x) hb).2
  exact le_of_mul_le_mul_left (hback.trans hthere) ha

/-- There and back, a number loses less than one of each scale. -/
theorem back_error (ha : 0 < a) (hb : 0 < b) : ((x - scale b a (scale a b x) : Int) : ℚ) < 1 + b / a := by
  have hback := (mul_scale_bounds (a := b) (x := scale a b x) ha).1
  have hthere := (mul_scale_bounds (a := a) (x := x) hb).1
  have hprod : a * (x - scale b a (scale a b x)) < a + b := by linarith
  have hprod' : ((x - scale b a (scale a b x) : Int) : ℚ) * a < a + b := by
    rw [mul_comm]
    exact_mod_cast hprod
  have ha' : (0 : ℚ) < a := by exact_mod_cast ha
  rw [← lt_div_iff₀ ha', add_div, div_self ha'.ne'] at hprod'
  exact hprod'

/-- A number comes back just when nothing is rounded on the way there. -/
theorem back_eq_iff (ha : 0 < a) (hb : 0 < b) : scale b a (scale a b x) = x ↔ b ∣ a * x := by
  constructor
  · intro h
    have hback := (mul_scale_bounds (a := b) (x := scale a b x) ha).2
    rw [h] at hback
    have hwhole : b * scale a b x = a * x := le_antisymm (mul_scale_bounds hb).2 hback
    exact ⟨_, hwhole.symm⟩
  · rintro ⟨k, hk⟩
    have hthere : scale a b x = k := by
      unfold scale
      rw [hk, Int.mul_ediv_cancel_left _ hb.ne']
    rw [hthere]
    unfold scale
    rw [← hk, Int.mul_ediv_cancel_left _ ha.ne']

/-- Nothing is rounded on the way back of a number that was rounded, just when the remainder is whole. -/
theorem dvd_mul_scale_iff : b ∣ a * scale b a x ↔ b ∣ b * x % a := by
  have hdiv := Int.mul_ediv_add_emod (b * x) a
  have hwhole : b ∣ a * scale b a x + b * x % a := by
    unfold scale
    rw [hdiv]
    exact dvd_mul_right _ _
  exact Int.dvd_iff_dvd_of_dvd_add hwhole

end Scale
