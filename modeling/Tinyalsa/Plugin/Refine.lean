/-
Refining a request against a constraint (`pcm_plug_hw_params_refine`): what each requested parameter
becomes, and what `cmask` tells about it.
-/
import Tinyalsa.Plugin.Params

namespace Tinyalsa

/-! ## Intervals as sets -/

namespace SndInterval

/-- The first number that is not below an interval. -/
def lo (i : SndInterval) : Nat := i.min.toNat + i.openmin.toNat

/-- The first number beyond an interval. -/
def hi (i : SndInterval) : Nat := i.max.toNat + 1 - i.openmax.toNat

/-- Some number lies in the interval. -/
def Nonempty (i : SndInterval) : Prop := ∃ x, i.Contains x

theorem contains_iff (i : SndInterval) (x : Nat) : i.Contains x ↔ i.lo ≤ x ∧ x < i.hi := by
  unfold Contains lo hi
  cases i.openmin <;> cases i.openmax <;> simp

theorem Nonempty.lo_lt_hi {i : SndInterval} (h : i.Nonempty) : i.lo < i.hi := by
  obtain ⟨x, hx⟩ := h
  have := (contains_iff i x).1 hx
  omega

/-- A non-empty interval starts at a number that fits, and ends above 0. -/
theorem Nonempty.fits {i : SndInterval} (h : i.Nonempty) : i.lo < 2 ^ 32 ∧ 0 < i.hi := by
  have hlt := h.lo_lt_hi
  have hmax := i.max.toNat_lt
  unfold hi at hlt ⊢
  omega

end SndInterval

section

variable (ri ci : SndInterval)

/-! ### The bounds -/

theorem refineMin_lo : (refineMin ri ci).1.lo = max ri.lo ci.lo := by
  unfold refineMin SndInterval.lo
  simp only [UInt32.lt_iff_toNat_lt, ← UInt32.toNat_inj]
  split
  · have := ri.openmin.toNat_le
    dsimp only
    omega
  split
  · rename_i h
    obtain ⟨heq, hri, hci⟩ := h
    simp only [Bool.not_eq_true'] at hri
    simp [hri, hci, heq]
  · rename_i hlt hno
    have := ci.openmin.toNat_le
    rcases Nat.lt_or_ge ci.min.toNat ri.min.toNat with h | h
    · dsimp only
      omega
    · have heq : ri.min.toNat = ci.min.toNat := by omega
      cases hri : ri.openmin <;> cases hci : ci.openmin <;> simp [heq, hri, hci] at hno ⊢

theorem refineMax_hi : (refineMax ri ci).1.hi = min ri.hi ci.hi := by
  unfold refineMax SndInterval.hi
  simp only [gt_iff_lt, UInt32.lt_iff_toNat_lt, ← UInt32.toNat_inj]
  split
  · have := ri.openmax.toNat_le
    have := ci.openmax.toNat_le
    dsimp only
    omega
  split
  · rename_i h
    obtain ⟨heq, hri, hci⟩ := h
    simp only [Bool.not_eq_true'] at hri
    simp [hri, hci, heq]
  · rename_i hlt hno
    have := ri.openmax.toNat_le
    have := ci.openmax.toNat_le
    rcases Nat.lt_or_ge ri.max.toNat ci.max.toNat with h | h
    · dsimp only
      omega
    · have heq : ri.max.toNat = ci.max.toNat := by omega
      cases hri : ri.openmax <;> cases hci : ci.openmax <;> simp [heq, hri, hci] at hno ⊢

@[simp] theorem refineMin_hi : (refineMin ri ci).1.hi = ri.hi := by
  unfold refineMin
  split
  · rfl
  · split <;> rfl

@[simp] theorem refineMin_max : (refineMin ri ci).1.max = ri.max := by
  unfold refineMin
  split
  · rfl
  · split <;> rfl

@[simp] theorem refineMin_openmax : (refineMin ri ci).1.openmax = ri.openmax := by
  unfold refineMin
  split
  · rfl
  · split <;> rfl

@[simp] theorem refineMax_min : (refineMax ri ci).1.min = ri.min := by
  unfold refineMax
  split
  · rfl
  · split <;> rfl

@[simp] theorem refineMax_openmin : (refineMax ri ci).1.openmin = ri.openmin := by
  unfold refineMax
  split
  · rfl
  · split <;> rfl

@[simp] theorem refineMin_integer : (refineMin ri ci).1.integer = ri.integer := by
  unfold refineMin
  split
  · rfl
  · split <;> rfl

@[simp] theorem refineMax_lo : (refineMax ri ci).1.lo = ri.lo := by
  unfold refineMax
  split
  · rfl
  · split <;> rfl

@[simp] theorem refineMax_integer : (refineMax ri ci).1.integer = ri.integer := by
  unfold refineMax
  split
  · rfl
  · split <;> rfl

/-- The request against the constraint before its open bounds are closed. -/
def clipped : SndInterval :=
  { (refineMax (refineMin ri ci).1 ci).1 with integer := ri.integer || ci.integer }

theorem refineInterval_fst : (refineInterval ri ci).1 = closeBounds (clipped ri ci) := by
  simp only [refineInterval, clipped, refineMax_integer, refineMin_integer]

theorem clipped_lo : (clipped ri ci).lo = max ri.lo ci.lo :=
  (refineMax_lo _ _).trans (refineMin_lo ri ci)

theorem clipped_hi : (clipped ri ci).hi = min ri.hi ci.hi := by
  have h := refineMax_hi (refineMin ri ci).1 ci
  rwa [refineMin_hi] at h

end

/-- Closing an open bound keeps the numbers of an interval, where the step of the bound does not wrap. -/
theorem closeBounds_bounds {i : SndInterval} (hlo : i.lo < 2 ^ 32) (hhi : 0 < i.hi) :
    (closeBounds i).lo = i.lo ∧ (closeBounds i).hi = i.hi := by
  have hmin : i.openmin = true → (i.min + 1).toNat = i.min.toNat + 1 := by
    intro h
    simp only [SndInterval.lo, h, Bool.toNat_true] at hlo
    rw [UInt32.toNat_add]
    exact Nat.mod_eq_of_lt hlo
  have hmax : i.openmax = true → (i.max - 1).toNat = i.max.toNat - 1 := by
    intro h
    simp only [SndInterval.hi, h, Bool.toNat_true] at hhi
    have hpos : 0 < i.max.toNat := by simpa using hhi
    exact UInt32.toNat_sub_of_le _ _ (UInt32.le_iff_toNat_le.2 hpos)
  unfold closeBounds SndInterval.lo SndInterval.hi at *
  cases hi : i.integer
  · simp only [Bool.false_eq_true, if_false]
    split
    · exact ⟨rfl, rfl⟩
    · exact ⟨rfl, rfl⟩
  · simp only [if_true]
    cases ho : i.openmin <;> cases hc : i.openmax <;> simp_all <;> omega

/-- A refined interval holds the numbers that both hold. -/
theorem refineInterval_contains {ri ci : SndInterval} (hr : ri.Nonempty) (hc : ci.Nonempty) (x : Nat) :
    (refineInterval ri ci).1.Contains x ↔ ri.Contains x ∧ ci.Contains x := by
  obtain ⟨hlo, hhi⟩ : (clipped ri ci).lo < 2 ^ 32 ∧ 0 < (clipped ri ci).hi := by
    have := hr.fits
    have := hc.fits
    rw [clipped_lo, clipped_hi]
    omega
  obtain ⟨hlo', hhi'⟩ := closeBounds_bounds hlo hhi
  rw [refineInterval_fst, SndInterval.contains_iff, SndInterval.contains_iff, SndInterval.contains_iff, hlo', hhi',
    clipped_lo, clipped_hi]
  omega

/-- No step of a bound wraps when the open bounds of a refined interval are closed. -/
theorem clipped_fits {ri ci : SndInterval} (hr : ri.Nonempty) (hc : ci.Nonempty) :
    ((clipped ri ci).openmin → (clipped ri ci).min.toNat + 1 < 2 ^ 32) ∧
      ((clipped ri ci).openmax → 0 < (clipped ri ci).max.toNat) := by
  have hlo := clipped_lo ri ci
  have hhi := clipped_hi ri ci
  have := hr.fits
  have := hc.fits
  unfold SndInterval.lo at hlo
  unfold SndInterval.hi at hhi
  refine ⟨fun h => ?_, fun h => ?_⟩
  · rw [h, Bool.toNat_true] at hlo
    unfold SndInterval.lo at *
    omega
  · rw [h, Bool.toNat_true] at hhi
    unfold SndInterval.hi at *
    omega

/-! ### Refining again -/

/-- An interval whose bounds are within the constraint's, and that needs no closing. -/
structure SndInterval.Settled (i ci : SndInterval) : Prop where
  min : ci.min ≤ i.min
  openmin : i.min = ci.min → ci.openmin → i.openmin
  max : i.max ≤ ci.max
  openmax : i.max = ci.max → ci.openmax → i.openmax
  integer : ci.integer → i.integer
  closed : closeBounds i = i

attribute [ext] SndInterval

section

variable (i : SndInterval)

theorem closeBounds_min : (closeBounds i).min = if i.integer && i.openmin then i.min + 1 else i.min := by
  rcases i with ⟨min, max, _ | _, _ | _, _ | _⟩ <;> simp [closeBounds]
  split <;> rfl

theorem closeBounds_max : (closeBounds i).max = if i.integer && i.openmax then i.max - 1 else i.max := by
  rcases i with ⟨min, max, _ | _, _ | _, _ | _⟩ <;> simp [closeBounds]
  split <;> rfl

theorem closeBounds_openmin : (closeBounds i).openmin = (!i.integer && i.openmin) := by
  rcases i with ⟨min, max, _ | _, _ | _, _ | _⟩ <;> simp [closeBounds]
  split <;> rfl

theorem closeBounds_openmax : (closeBounds i).openmax = (!i.integer && i.openmax) := by
  rcases i with ⟨min, max, _ | _, _ | _, _ | _⟩ <;> simp [closeBounds]
  split <;> rfl

theorem closeBounds_integer {i : SndInterval} (h : i.integer) : (closeBounds i).integer := by
  rcases i with ⟨min, max, _ | _, _ | _, _ | _⟩ <;> simp_all [closeBounds]

end

theorem closeBounds_idem (i : SndInterval) : closeBounds (closeBounds i) = closeBounds i := by
  unfold closeBounds
  cases hi : i.integer <;> cases ho : i.openmin <;> cases hc : i.openmax <;> simp [hi, ho, hc]
  split <;> simp_all

/-- Refining a settled interval leaves it alone. -/
theorem SndInterval.Settled.refineInterval {i ci : SndInterval} (h : i.Settled ci) :
    refineInterval i ci = (i, false) := by
  have hmin : refineMin i ci = (i, false) := by
    unfold refineMin
    rw [if_neg (UInt32.not_lt.2 h.min), if_neg]
    rintro ⟨heq, hopen, hci⟩
    simp [h.openmin heq hci] at hopen
  have hmax : refineMax i ci = (i, false) := by
    unfold refineMax
    rw [if_neg (UInt32.not_lt.2 h.max), if_neg]
    rintro ⟨heq, hopen, hci⟩
    simp [h.openmax heq hci] at hopen
  have hint : (i.integer || ci.integer) = i.integer := by
    cases hc : ci.integer
    · exact Bool.or_false _
    · rw [h.integer hc, Bool.or_true]
  simp only [Tinyalsa.refineInterval, hmin, hmax, hint, h.closed, Bool.false_or]
  cases hi : i.integer
  · have hc : ci.integer = false := by
      by_contra hc
      rw [h.integer (by simpa using hc)] at hi
      cases hi
    rw [hc]
    rfl
  · rfl

/-- Clipping leaves no bound outside the constraint's. -/
theorem clipped_within (ri ci : SndInterval) :
    ci.min ≤ (clipped ri ci).min ∧ ((clipped ri ci).min = ci.min → ci.openmin → (clipped ri ci).openmin) ∧
      (clipped ri ci).max ≤ ci.max ∧ ((clipped ri ci).max = ci.max → ci.openmax → (clipped ri ci).openmax) := by
  unfold clipped
  dsimp only
  rw [refineMax_min, refineMax_openmin]
  refine ⟨?_, ?_, ?_, ?_⟩
  · unfold refineMin
    grind
  · unfold refineMin
    grind
  · generalize (refineMin ri ci).1 = i
    unfold refineMax
    grind
  · generalize (refineMin ri ci).1 = i
    unfold refineMax
    grind

/-- A refined interval is settled. -/
theorem refineInterval_settled {ri ci : SndInterval} (hr : ri.Nonempty) (hc : ci.Nonempty) :
    (refineInterval ri ci).1.Settled ci := by
  obtain ⟨hmin, hopenmin, hmax, hopenmax⟩ := clipped_within ri ci
  obtain ⟨hlo, hhi⟩ := clipped_fits hr hc
  have hint : ci.integer → (clipped ri ci).integer := by
    intro h
    simp [clipped, h]
  have hidem := closeBounds_idem (clipped ri ci)
  rw [refineInterval_fst]
  generalize clipped ri ci = i at *
  -- an open bound that is closed moves away from the constraint's
  have hmin' : i.openmin = true → ci.min < i.min + 1 := by
    intro h
    have hsum : (i.min + 1).toNat = i.min.toNat + 1 := by
      rw [UInt32.toNat_add]
      exact Nat.mod_eq_of_lt (hlo h)
    rw [UInt32.le_iff_toNat_le] at hmin
    rw [UInt32.lt_iff_toNat_lt]
    omega
  have hmax' : i.openmax = true → i.max - 1 < ci.max := by
    intro h
    have hpos := hhi h
    have hdiff : (i.max - 1).toNat = i.max.toNat - 1 := UInt32.toNat_sub_of_le _ _ (UInt32.le_iff_toNat_le.2 hpos)
    rw [UInt32.le_iff_toNat_le] at hmax
    rw [UInt32.lt_iff_toNat_lt]
    omega
  refine ⟨?_, ?_, ?_, ?_, fun h => closeBounds_integer (hint h), hidem⟩
  · rw [closeBounds_min]
    cases i.integer
    · exact hmin
    cases ho : i.openmin
    · exact hmin
    · exact UInt32.le_of_lt (hmin' ho)
  · rw [closeBounds_min, closeBounds_openmin]
    cases i.integer
    · exact hopenmin
    cases ho : i.openmin
    · rw [ho] at hopenmin
      exact hopenmin
    · intro heq
      exact absurd (hmin' ho) (by simp [← heq])
  · rw [closeBounds_max]
    cases i.integer
    · exact hmax
    cases ho : i.openmax
    · exact hmax
    · exact UInt32.le_of_lt (hmax' ho)
  · rw [closeBounds_max, closeBounds_openmax]
    cases i.integer
    · exact hopenmax
    cases ho : i.openmax
    · rw [ho] at hopenmax
      exact hopenmax
    · intro heq
      exact absurd (hmax' ho) (by simp [← heq])

/-! ## Parameters -/

theorem toNat_bit {n : Nat} (hn : n < 32) : ((1 : UInt32) <<< n.toUInt32).toNat = 2 ^ n := by
  rw [UInt32.toNat_shiftLeft, Nat.toUInt32_eq, UInt32.toNat_ofNat', Nat.mod_eq_of_lt (by omega : n < 2 ^ 32),
    Nat.mod_eq_of_lt hn, UInt32.toNat_one, Nat.one_shiftLeft, Nat.mod_eq_of_lt (Nat.pow_lt_pow_right (by omega) hn)]

theorem and_bit_ne_zero (x : UInt32) {n : Nat} (hn : n < 32) : (x &&& (1 <<< n.toUInt32) != 0) = x.toNat.testBit n := by
  have hbits : ∀ i, (x &&& (1 <<< n.toUInt32)).toNat.testBit i = (x.toNat.testBit i && decide (n = i)) := by
    intro i
    rw [UInt32.toNat_and, toNat_bit hn, Nat.testBit_and, Nat.testBit_two_pow]
  cases hx : x.toNat.testBit n
  · have hzero : x &&& (1 <<< n.toUInt32) = 0 := by
      refine UInt32.toNat_inj.1 (Nat.eq_of_testBit_eq fun i => ?_)
      rw [hbits]
      by_cases hi : n = i
      · subst hi
        simp [hx]
      · simp [hi]
    rw [hzero]
    rfl
  · have hset := hbits n
    rw [bne_iff_ne]
    intro hzero
    simp [hzero, hx] at hset

theorem testBit_or_bit (x : UInt32) {m : Nat} (hm : m < 32) (n : Nat) :
    (x ||| (1 <<< m.toUInt32)).toNat.testBit n = (x.toNat.testBit n || decide (m = n)) := by
  rw [UInt32.toNat_or, toNat_bit hm, Nat.testBit_or, Nat.testBit_two_pow]

theorem MaskParam.index_lt (n : MaskParam) : n.index < 32 := by cases n <;> decide

theorem IntervalParam.index_lt (n : IntervalParam) : n.index < 32 := by cases n <;> decide

/-- `p->cmask & (1 << n)`. -/
def reportedBit (p : SndPcmHwParams) (n : Nat) : Bool := p.cmask &&& (1 <<< n.toUInt32) != 0

theorem reportedBit_changedBit (p : SndPcmHwParams) {m n : Nat} (hm : m < 32) (hn : n < 32) :
    reportedBit (changedBit p m) n = (reportedBit p n || decide (m = n)) := by
  unfold reportedBit changedBit
  rw [and_bit_ne_zero _ hn, and_bit_ne_zero _ hn, testBit_or_bit _ hm]

/-- The mask that is requested, as far as the constraint has it too. -/
def refineMask (req con : SndMask) : SndMask where
  bits := Function.update (Function.update req.bits 0 (req.bits 0 &&& con.bits 0)) 1 (req.bits 1 &&& con.bits 1)

/-- The first words of two masks are the same. -/
def SndMask.SameWords (req con : SndMask) : Prop := req.bits 0 = con.bits 0 ∧ req.bits 1 = con.bits 1

instance (req con : SndMask) : Decidable (req.SameWords con) :=
  inferInstanceAs (Decidable (req.bits 0 = con.bits 0 ∧ req.bits 1 = con.bits 1))

/-- A pass of `pcm_plug_masks_refine` touches its mask and the mask's bit in `cmask` only. -/
theorem pcmPlugMaskRefine_pass (c p : SndPcmHwParams) (n : MaskParam) :
    (pcmPlugMaskRefine c p n).rmask = p.rmask ∧ (pcmPlugMaskRefine c p n).intervals = p.intervals ∧
      (pcmPlugMaskRefine c p n).masks = (if requestedBit p n.index then
        Function.update p.masks n (refineMask (p.masks n) (c.masks n)) else p.masks) ∧
      ∀ i, i < 32 → (reportedBit (pcmPlugMaskRefine c p n) i ↔ reportedBit p i ∨
        n.index = i ∧ requestedBit p n.index ∧ ¬ (p.masks n).SameWords (c.masks n)) := by
  unfold pcmPlugMaskRefine
  cases hr : requestedBit p n.index
  · exact ⟨rfl, rfl, rfl, fun i _ => by simp⟩
  · simp only [Bool.not_true, Bool.false_eq_true, if_false, if_true]
    split
    · rename_i hdiff
      refine ⟨rfl, rfl, rfl, fun i hi => ?_⟩
      have hwords : ¬ (p.masks n).SameWords (c.masks n) := by
        unfold SndMask.SameWords
        tauto
      have hbit := reportedBit_changedBit p n.index_lt hi
      change (reportedBit (changedBit p n.index) i = true ↔ _)
      rw [hbit]
      simp [hwords]
    · rename_i hsame
      refine ⟨rfl, rfl, rfl, fun i hi => ?_⟩
      have hwords : (p.masks n).SameWords (c.masks n) := by
        unfold SndMask.SameWords
        tauto
      change (reportedBit p i = true ↔ _)
      simp [hwords]

/-- The loop of `pcm_plug_masks_refine` over some masks. -/
theorem foldl_pcmPlugMaskRefine (c : SndPcmHwParams) (ns : List MaskParam) (p : SndPcmHwParams) (hns : ns.Nodup) :
    let p' := ns.foldl (pcmPlugMaskRefine c) p
    p'.rmask = p.rmask ∧ p'.intervals = p.intervals ∧
      (∀ n, p'.masks n = if n ∈ ns ∧ requestedBit p n.index then refineMask (p.masks n) (c.masks n) else p.masks n) ∧
      ∀ i, i < 32 → (reportedBit p' i ↔ reportedBit p i ∨
        ∃ n ∈ ns, n.index = i ∧ requestedBit p n.index ∧ ¬ (p.masks n).SameWords (c.masks n)) := by
  induction ns generalizing p with
  | nil => exact ⟨rfl, rfl, fun n => by simp, fun i _ => by simp⟩
  | cons n ns ih =>
    obtain ⟨hn, hns⟩ := List.nodup_cons.1 hns
    obtain ⟨hr, hi, hm, hc⟩ := ih (pcmPlugMaskRefine c p n) hns
    obtain ⟨hr₁, hi₁, hm₁, hc₁⟩ := pcmPlugMaskRefine_pass c p n
    have hreq : ∀ i, requestedBit (pcmPlugMaskRefine c p n) i = requestedBit p i := by
      intro i
      rw [requestedBit, hr₁]
      rfl
    have hother : ∀ m ∈ ns, (pcmPlugMaskRefine c p n).masks m = p.masks m := by
      intro m hmem
      rw [hm₁]
      split
      · refine Function.update_of_ne ?_ _ _
        rintro rfl
        exact hn hmem
      · rfl
    refine ⟨hr.trans hr₁, hi.trans hi₁, fun m => ?_, fun i hlt => ?_⟩
    · rw [List.foldl_cons, hm, hreq]
      by_cases hmem : m ∈ ns
      · rw [hother m hmem]
        simp [hmem]
      · rw [if_neg fun h => hmem h.1, hm₁]
        by_cases hmn : m = n
        · subst hmn
          by_cases hq : requestedBit p m.index = true <;> simp [hq]
        · rw [if_neg (c := m ∈ n :: ns ∧ _) fun h => (List.mem_cons.1 h.1).elim hmn hmem]
          split
          · exact Function.update_of_ne hmn _ _
          · rfl
    · rw [List.foldl_cons, hc i hlt, hc₁ i hlt, or_assoc, List.exists_mem_cons_iff]
      refine or_congr_right (or_congr_right (exists_congr fun m => and_congr_right fun hmem => ?_))
      rw [hreq, hother m hmem]

/-- Clipping or converting the request changes it. -/
def Clips (ri ci : SndInterval) : Prop := (refineInterval ri ci).2 = true

theorem pcmPlugIntervalRefineOne_requested (c : SndPcmHwParams) {p : SndPcmHwParams} (changed : Bool)
    {n : IntervalParam} (hr : requestedBit p n.index = true) :
    pcmPlugIntervalRefineOne c (p, changed) n =
      let flag := changed || (refineInterval (p.intervals n) (c.intervals n)).2
      let p' := p.setInterval n (refineInterval (p.intervals n) (c.intervals n)).1
      (if flag then changedBit p' n.index else p', flag) := by
  unfold pcmPlugIntervalRefineOne
  dsimp only
  rw [hr, Bool.not_true, if_neg Bool.false_ne_true]

theorem pcmPlugIntervalRefineOne_not_requested (c : SndPcmHwParams) {p : SndPcmHwParams} (changed : Bool)
    {n : IntervalParam} (hr : requestedBit p n.index = false) :
    pcmPlugIntervalRefineOne c (p, changed) n = (p, changed) := by
  unfold pcmPlugIntervalRefineOne
  dsimp only
  rw [hr, Bool.not_false, if_pos rfl]

/-- A pass of `pcm_plug_interval_refine` touches its interval and the interval's bit in `cmask` only. -/
theorem pcmPlugIntervalRefineOne_pass (c p : SndPcmHwParams) (changed : Bool) (n : IntervalParam) :
    let r := pcmPlugIntervalRefineOne c (p, changed) n
    r.1.rmask = p.rmask ∧ r.1.masks = p.masks ∧
      r.1.intervals = (if requestedBit p n.index then
        Function.update p.intervals n (refineInterval (p.intervals n) (c.intervals n)).1 else p.intervals) ∧
      (r.2 ↔ changed ∨ requestedBit p n.index ∧ Clips (p.intervals n) (c.intervals n)) ∧
      ∀ i, i < 32 → (reportedBit r.1 i ↔ reportedBit p i ∨
        n.index = i ∧ requestedBit p n.index ∧ (changed ∨ Clips (p.intervals n) (c.intervals n))) := by
  cases hr : requestedBit p n.index
  · rw [pcmPlugIntervalRefineOne_not_requested c changed hr]
    exact ⟨rfl, rfl, rfl, by simp, fun i _ => by simp⟩
  rw [pcmPlugIntervalRefineOne_requested c changed hr]
  unfold Clips
  have hflag := Bool.or_eq_true changed (refineInterval (p.intervals n) (c.intervals n)).2
  cases hf : changed || (refineInterval (p.intervals n) (c.intervals n)).2 with
  | false =>
    rw [hf] at hflag
    refine ⟨rfl, rfl, rfl, by simp [← hflag], fun i _ => ?_⟩
    change (reportedBit p i = true ↔ _)
    simp [← hflag]
  | true =>
    rw [hf] at hflag
    refine ⟨rfl, rfl, rfl, by simp [← hflag], fun i hi => ?_⟩
    change (reportedBit (changedBit p n.index) i = true ↔ _)
    rw [reportedBit_changedBit p n.index_lt hi]
    simp [← hflag]

/-- The loop of `pcm_plug_interval_refine` over some intervals: once one of them was clipped, each one after
it is reported. -/
theorem foldl_pcmPlugIntervalRefineOne (c : SndPcmHwParams) (ns : List IntervalParam) (p : SndPcmHwParams)
    (changed : Bool) (hns : ns.Pairwise (·.index < ·.index)) :
    let p' := (ns.foldl (pcmPlugIntervalRefineOne c) (p, changed)).1
    p'.rmask = p.rmask ∧ p'.masks = p.masks ∧
      (∀ n, p'.intervals n = if n ∈ ns ∧ requestedBit p n.index then
        (refineInterval (p.intervals n) (c.intervals n)).1 else p.intervals n) ∧
      ∀ i, i < 32 → (reportedBit p' i ↔ reportedBit p i ∨ ∃ n ∈ ns, n.index = i ∧ requestedBit p n.index ∧
        (changed ∨ ∃ m ∈ ns, m.index ≤ n.index ∧ requestedBit p m.index ∧ Clips (p.intervals m) (c.intervals m))) := by
  induction ns generalizing p changed with
  | nil => exact ⟨rfl, rfl, fun n => by simp, fun i _ => by simp⟩
  | cons n ns ih =>
    -- what the first pass leaves in `changed` is what the rest starts from
    obtain ⟨hlt, hns⟩ := List.pairwise_cons.1 hns
    obtain ⟨hr₁, hm₁, hi₁, hf₁, hc₁⟩ := pcmPlugIntervalRefineOne_pass c p changed n
    rw [List.foldl_cons]
    generalize pcmPlugIntervalRefineOne c (p, changed) n = r at *
    obtain ⟨q, flag⟩ := r
    obtain ⟨hr, hm, hi, hc⟩ := ih q flag hns
    dsimp only at *
    have hreq : ∀ i, requestedBit q i = requestedBit p i := fun i => by rw [requestedBit, hr₁]; rfl
    have hother : ∀ m ∈ ns, q.intervals m = p.intervals m := by
      intro m hmem
      rw [hi₁]
      split
      · refine Function.update_of_ne ?_ _ _
        rintro rfl
        exact lt_irrefl _ (hlt _ hmem)
      · rfl
    refine ⟨hr.trans hr₁, hm.trans hm₁, fun m => ?_, fun i hi32 => ?_⟩
    · rw [hi, hreq]
      by_cases hmem : m ∈ ns
      · rw [hother m hmem]
        simp [hmem]
      · rw [if_neg fun h => hmem h.1, hi₁]
        by_cases hmn : m = n
        · subst hmn
          by_cases hq : requestedBit p m.index = true <;> simp [hq]
        · rw [if_neg (c := m ∈ n :: ns ∧ _) fun h => (List.mem_cons.1 h.1).elim hmn hmem]
          split
          · exact Function.update_of_ne hmn _ _
          · rfl
    · rw [hc i hi32, hc₁ i hi32, or_assoc, List.exists_mem_cons_iff]
      refine or_congr_right (or_congr ?_ (exists_congr fun m => and_congr_right fun hmem => ?_))
      · -- no interval after the first has a parameter as low
        have hfirst : ¬ ∃ m ∈ ns, m.index ≤ n.index ∧ requestedBit p m.index ∧
          Clips (p.intervals m) (c.intervals m) := by
          rintro ⟨m, hmem, hle, -⟩
          exact absurd (hlt m hmem) (Nat.not_lt.2 hle)
        rw [List.exists_mem_cons_iff]
        simp only [hfirst, or_false, le_refl, true_and]
        tauto
      · rw [hreq, hf₁, List.exists_mem_cons_iff, or_assoc]
        have hle := (hlt m hmem).le
        have htail : (∃ k ∈ ns, k.index ≤ m.index ∧ requestedBit q k.index ∧ Clips (q.intervals k) (c.intervals k)) ↔
            ∃ k ∈ ns, k.index ≤ m.index ∧ requestedBit p k.index ∧ Clips (p.intervals k) (c.intervals k) := by
          refine exists_congr fun k => and_congr_right fun hk => ?_
          rw [hreq, hother k hk]
        rw [htail]
        simp only [hle, true_and]

/-- What the refinement makes of a request, parameter by parameter. -/
theorem pcmPlugHwParamsRefine_spec (p c : SndPcmHwParams) :
    let p' := (pcmPlugHwParamsRefine p c).2
    (∀ n, p'.masks n =
      if requestedBit p n.index then refineMask (p.masks n) (c.masks n) else p.masks n) ∧
    (∀ n, p'.intervals n =
      if requestedBit p n.index then (refineInterval (p.intervals n) (c.intervals n)).1 else p.intervals n) ∧
    (∀ n : MaskParam, reportedBit p' n.index ↔
      reportedBit p n.index ∨ requestedBit p n.index ∧ ¬ (p.masks n).SameWords (c.masks n)) ∧
    ∀ n : IntervalParam, reportedBit p' n.index ↔ reportedBit p n.index ∨ requestedBit p n.index ∧
      ∃ m : IntervalParam, m.index ≤ n.index ∧ requestedBit p m.index ∧ Clips (p.intervals m) (c.intervals m) := by
  have hmem : ∀ n : IntervalParam, n ∈ intervalParams := by rintro ⟨⟩ <;> decide
  have hmask : ∀ n : MaskParam, n ∈ [MaskParam.access, .format, .subformat] := by rintro ⟨⟩ <;> decide
  obtain ⟨hr₁, hi₁, hm₁, hc₁⟩ :=
    foldl_pcmPlugMaskRefine c [.access, .format, .subformat] p (by decide)
  obtain ⟨-, hm₂, hi₂, hc₂⟩ :=
    foldl_pcmPlugIntervalRefineOne c intervalParams (pcmPlugMasksRefine p c).2 false (by decide)
  change (pcmPlugMasksRefine p c).2.rmask = p.rmask at hr₁
  change (pcmPlugMasksRefine p c).2.intervals = p.intervals at hi₁
  change ∀ n, (pcmPlugMasksRefine p c).2.masks n = _ at hm₁
  change ∀ i, i < 32 → (reportedBit (pcmPlugMasksRefine p c).2 i ↔ _) at hc₁
  have hreq : ∀ i, requestedBit (pcmPlugMasksRefine p c).2 i = requestedBit p i := by
    intro i
    rw [requestedBit, hr₁]
    rfl
  simp only [hreq, hi₁, hmem, true_and, Bool.false_eq_true, false_or] at hi₂ hc₂
  simp only [hmask, true_and] at hm₁ hc₁
  refine ⟨fun n => ?_, hi₂, fun n => ?_, fun n => ?_⟩
  · rw [← hm₁]
    exact congrFun hm₂ n
  · refine (hc₂ n.index n.index_lt).trans ?_
    -- no interval has the index of a mask
    have hnone : ¬ ∃ i : IntervalParam, i.index = n.index ∧ requestedBit p i.index ∧
        ∃ m : IntervalParam, m.index ≤ i.index ∧ requestedBit p m.index ∧ Clips (p.intervals m) (c.intervals m) := by
      rintro ⟨i, heq, -⟩
      revert heq
      cases n <;> cases i <;> decide
    rw [or_iff_left hnone, hc₁ n.index n.index_lt]
    refine or_congr_right ⟨?_, fun h => ⟨n, rfl, h⟩⟩
    rintro ⟨m, heq, h⟩
    obtain rfl : m = n := by revert heq; cases n <;> cases m <;> decide
    exact h
  · refine (hc₂ n.index n.index_lt).trans ?_
    have hnone : ¬ ∃ m : MaskParam, m.index = n.index ∧ requestedBit p m.index ∧
        ¬ (p.masks m).SameWords (c.masks m) := by
      rintro ⟨m, heq, -⟩
      revert heq
      cases n <;> cases m <;> decide
    rw [hc₁ n.index n.index_lt, or_iff_left hnone]
    refine or_congr_right ⟨?_, fun h => ⟨n, rfl, h⟩⟩
    rintro ⟨i, heq, h⟩
    obtain rfl : i = n := by revert heq; cases n <;> cases i <;> decide
    exact h

/-! ## Exact intersection -/

/-- A refined request is the intersection of the request with the constraint, in the parameters that are requested. -/
structure RefinedExactly (p c p' : SndPcmHwParams) : Prop where
  intervals : ∀ n : IntervalParam, requestedBit p n.index →
    ∀ x, (p'.intervals n).Contains x ↔ (p.intervals n).Contains x ∧ (c.intervals n).Contains x
  /-- Closing an open bound does not wrap. -/
  noWrap : ∀ n : IntervalParam, requestedBit p n.index → let i := clipped (p.intervals n) (c.intervals n)
    (i.openmin → i.min.toNat + 1 < 2 ^ 32) ∧ (i.openmax → 0 < i.max.toNat)
  masks : ∀ n : MaskParam, requestedBit p n.index → ∀ w : Fin 8, w.val < 2 →
    (p'.masks n).bits w = (p.masks n).bits w &&& (c.masks n).bits w
  sameIntervals : ∀ n : IntervalParam, ¬ requestedBit p n.index → p'.intervals n = p.intervals n
  sameMasks : ∀ n : MaskParam, ¬ requestedBit p n.index → p'.masks n = p.masks n

/-- Refining with every parameter requested leaves alone what `p` requested. -/
structure Refined (p c p' : SndPcmHwParams) : Prop where
  intervals : ∀ n : IntervalParam, requestedBit p n.index →
    ((pcmPlugHwParamsRefine { p' with rmask := 0xFFFFFFFF } c).2.intervals n) = p'.intervals n
  masks : ∀ n : MaskParam, requestedBit p n.index →
    ((pcmPlugHwParamsRefine { p' with rmask := 0xFFFFFFFF } c).2.masks n) = p'.masks n

theorem requestedBit_all (p : SndPcmHwParams) {n : Nat} (hn : n < 32) :
    requestedBit { p with rmask := 0xFFFFFFFF } n = true := by
  unfold requestedBit
  rw [and_bit_ne_zero _ hn]
  have hall : ∀ i < 32, (0xFFFFFFFF : UInt32).toNat.testBit i = true := by decide
  exact hall n hn

theorem refineMask_word {req con : SndMask} {w : Fin 8} (hw : w.val < 2) :
    (refineMask req con).bits w = req.bits w &&& con.bits w := by
  have hcases : w = 0 ∨ w = 1 := by omega
  rcases hcases with rfl | rfl <;> rfl

theorem refineMask_idem (req con : SndMask) : refineMask (refineMask req con) con = refineMask req con := by
  unfold refineMask
  congr 1
  funext w
  rcases eq_or_ne w 0 with rfl | h0
  · simp [UInt32.and_assoc]
  rcases eq_or_ne w 1 with rfl | h1
  · simp [UInt32.and_assoc]
  · simp [h0, h1]

/-- Refinement is exact intersection, and refining again changes nothing. -/
theorem pcmPlugHwParamsRefine_exact (p c : SndPcmHwParams) (hp : ∀ n, (p.intervals n).Nonempty)
    (hc : ∀ n, (c.intervals n).Nonempty) :
    RefinedExactly p c (pcmPlugHwParamsRefine p c).2 ∧ Refined p c (pcmPlugHwParamsRefine p c).2 := by
  obtain ⟨hm, hi, -, -⟩ := pcmPlugHwParamsRefine_spec p c
  generalize (pcmPlugHwParamsRefine p c).2 = p' at *
  obtain ⟨hm', hi', -, -⟩ := pcmPlugHwParamsRefine_spec { p' with rmask := 0xFFFFFFFF } c
  refine ⟨⟨fun n hr x => ?_, fun n _ => clipped_fits (hp n) (hc n), fun n hr w hw => ?_, fun n hr => ?_,
    fun n hr => ?_⟩, fun n hr => ?_, fun n hr => ?_⟩
  · rw [hi, if_pos hr]
    exact refineInterval_contains (hp n) (hc n) x
  · rw [hm, if_pos hr]
    exact refineMask_word hw
  · rw [hi, if_neg hr]
  · rw [hm, if_neg hr]
  · have hsettled := refineInterval_settled (hp n) (hc n)
    rw [hi', if_pos (requestedBit_all p' n.index_lt)]
    dsimp only
    rw [hi, if_pos hr, hsettled.refineInterval]
  · rw [hm', if_pos (requestedBit_all p' n.index_lt)]
    dsimp only
    rw [hm, if_pos hr, refineMask_idem]

/-- Rates from 8 kHz to below 48 kHz. -/
def belowStudioRate : SndPcmHwParams :=
  paramInit.setInterval .rate { min := 8000, max := 48000, openmax := true, integer := true }

theorem pcmPlugHwParamsRefine_exact_below : let p' := (pcmPlugHwParamsRefine paramInit belowStudioRate).2
    RefinedExactly paramInit belowStudioRate p' ∧ Refined paramInit belowStudioRate p' := by
  have hp : ∀ n, (paramInit.intervals n).Contains 8000 := by decide
  have hc : ∀ n, (belowStudioRate.intervals n).Contains 8000 := by decide
  exact pcmPlugHwParamsRefine_exact _ _ (fun n => ⟨_, hp n⟩) fun n => ⟨_, hc n⟩

example : ((pcmPlugHwParamsRefine paramInit belowStudioRate).2.intervals .rate).max = 47999 := by decide

/-! ## What `cmask` reports -/

/-- `cmask` reports what changed of the parameters requested, and nothing else. -/
structure ReportsChanges (p p' : SndPcmHwParams) : Prop where
  masks : ∀ n : MaskParam, requestedBit p n.index →
    (reportedBit p' n.index ↔ reportedBit p n.index ∨ p'.masks n ≠ p.masks n)
  intervals : ∀ n : IntervalParam, requestedBit p n.index →
    (reportedBit p' n.index ↔ reportedBit p n.index ∨ p'.intervals n ≠ p.intervals n)
  otherMasks : ∀ n : MaskParam, ¬ requestedBit p n.index → reportedBit p' n.index = reportedBit p n.index
  otherIntervals : ∀ n : IntervalParam, ¬ requestedBit p n.index → reportedBit p' n.index = reportedBit p n.index

/-- No bit of the first words of a mask is missing in the constraint. -/
def SndMask.Within (req con : SndMask) : Prop :=
  req.bits 0 &&& con.bits 0 = req.bits 0 ∧ req.bits 1 &&& con.bits 1 = req.bits 1

theorem refineMask_eq_self {req con : SndMask} : refineMask req con = req ↔ req.Within con := by
  unfold refineMask SndMask.Within
  refine ⟨fun h => ?_, fun ⟨h0, h1⟩ => ?_⟩
  · rw [← congrFun (congrArg SndMask.bits h) 0, ← congrFun (congrArg SndMask.bits h) 1]
    simp [UInt32.and_assoc]
  · rw [h0, h1, Function.update_eq_self, Function.update_eq_self]

theorem SndMask.SameWords.within {req con : SndMask} (h : req.SameWords con) : req.Within con := by
  unfold Within
  rw [← h.1, ← h.2]
  exact ⟨UInt32.and_self, UInt32.and_self⟩

section

variable (ri ci : SndInterval)

/-- The lower bound of the constraint takes the request's place. -/
def ClippedMin : Prop := ri.min < ci.min ∨ ri.min = ci.min ∧ !ri.openmin ∧ ci.openmin

/-- The upper bound of the constraint takes the request's place. -/
def ClippedMax : Prop := ci.max < ri.max ∨ ri.max = ci.max ∧ !ri.openmax ∧ ci.openmax

/-- The constraint takes something from the request. -/
def Clipped : Prop := ClippedMin ri ci ∨ ClippedMax ri ci ∨ !ri.integer ∧ ci.integer

/-- The request alone is not in the form the refinement leaves: an integer interval with an open bound, or
a single number not marked as an integer. -/
def Unsettled : Prop :=
  if ri.integer then ri.openmin ∨ ri.openmax else !ri.openmin ∧ !ri.openmax ∧ ri.min = ri.max

/-- The bounds of the constraint beyond the last number and below the first, which closing turns around to the
request's own. -/
def WrapsBack : Prop :=
  ri.integer ∧ !ri.openmin ∧ !ri.openmax ∧
    (ClippedMin ri ci → ci.openmin ∧ ci.min = 0xFFFFFFFF ∧ ri.min = 0) ∧
    (ClippedMax ri ci → ci.openmax ∧ ci.max = 0 ∧ ri.max = 0xFFFFFFFF)

/-- The request is changed by the constraint. -/
def Changes : Prop := Clipped ri ci ∧ ¬ WrapsBack ri ci ∨ ¬ Clipped ri ci ∧ Unsettled ri

theorem refineMin_snd : (refineMin ri ci).2 ↔ ClippedMin ri ci := by
  unfold refineMin ClippedMin
  grind

theorem refineMax_snd : (refineMax ri ci).2 ↔ ClippedMax ri ci := by
  unfold refineMax ClippedMax
  grind

theorem clippedMax_refineMin : ClippedMax (refineMin ri ci).1 ci ↔ ClippedMax ri ci := by
  unfold refineMin ClippedMax
  split
  · rfl
  · split <;> rfl

theorem clips_iff : Clips ri ci ↔ Clipped ri ci := by
  have hflag : (refineInterval ri ci).2 =
      ((refineMin ri ci).2 || (refineMax (refineMin ri ci).1 ci).2 || (!ri.integer && ci.integer)) := by
    simp only [refineInterval, refineMax_integer, refineMin_integer]
  unfold Clips Clipped
  rw [hflag, Bool.or_eq_true, Bool.or_eq_true, Bool.and_eq_true, refineMin_snd, refineMax_snd,
    clippedMax_refineMin, or_assoc]

end

/-- The closing of an interval changes it just when it is unsettled. -/
theorem closeBounds_eq_self {i : SndInterval} : closeBounds i = i ↔ ¬ Unsettled i := by
  rcases i with ⟨min, max, _ | _, _ | _, _ | _⟩ <;> simp [closeBounds, Unsettled]

/-- One step above a number comes back to a number that is not above it only by wrapping around. -/
theorem succ_eq_iff_wraps {a b : UInt32} (h : a ≤ b) : b + 1 = a ↔ b = 0xFFFFFFFF ∧ a = 0 := by
  constructor
  · intro hsucc
    have hb : b.toNat + 1 = 2 ^ 32 := by
      by_contra hne
      have hlt := b.toNat_lt
      have hsum : (b + 1).toNat = b.toNat + 1 := by
        rw [UInt32.toNat_add]
        exact Nat.mod_eq_of_lt (by simp; omega)
      rw [hsucc] at hsum
      rw [UInt32.le_iff_toNat_le] at h
      omega
    have hmax : b = 0xFFFFFFFF := UInt32.toNat_inj.1 (by simpa using hb)
    subst hmax
    exact ⟨rfl, hsucc.symm⟩
  · rintro ⟨rfl, rfl⟩
    rfl

section

variable {ri ci : SndInterval}

theorem ClippedMin.le (h : ClippedMin ri ci) : ri.min ≤ ci.min := by
  rcases h with hlt | ⟨heq, -⟩
  · exact UInt32.le_of_lt hlt
  · exact UInt32.le_of_eq heq

theorem ClippedMax.le (h : ClippedMax ri ci) : ci.max ≤ ri.max := by
  rcases h with hlt | ⟨heq, -⟩
  · exact UInt32.le_of_lt hlt
  · exact UInt32.le_of_eq heq.symm

/-- A clipped lower bound is not the request's. -/
theorem ClippedMin.ne (h : ClippedMin ri ci) : ¬ (ci.min = ri.min ∧ ci.openmin = ri.openmin) := by
  rintro ⟨hmin, hopen⟩
  rcases h with hlt | ⟨-, hclosed, hci⟩
  · exact absurd hlt (hmin ▸ UInt32.lt_irrefl _)
  · rw [← hopen, hci] at hclosed
    cases hclosed

/-- A clipped upper bound is not the request's. -/
theorem ClippedMax.ne (h : ClippedMax ri ci) : ¬ (ci.max = ri.max ∧ ci.openmax = ri.openmax) := by
  rintro ⟨hmax, hopen⟩
  rcases h with hlt | ⟨-, hclosed, hci⟩
  · exact absurd hlt (hmax ▸ UInt32.lt_irrefl _)
  · rw [← hopen, hci] at hclosed
    cases hclosed

theorem refineMin_of_clipped (h : ClippedMin ri ci) :
    (refineMin ri ci).1 = { ri with min := ci.min, openmin := ci.openmin } := by
  unfold refineMin
  split
  · rfl
  · rename_i hlt
    obtain ⟨heq, hclosed, hopen⟩ := h.resolve_left hlt
    rw [if_pos ⟨heq, hclosed, hopen⟩, ← heq, hopen]

theorem refineMin_of_not_clipped (h : ¬ ClippedMin ri ci) : (refineMin ri ci).1 = ri := by
  obtain ⟨hlt, heq⟩ := not_or.1 h
  unfold refineMin
  rw [if_neg hlt, if_neg heq]

theorem refineMax_of_clipped (h : ClippedMax ri ci) :
    (refineMax ri ci).1 = { ri with max := ci.max, openmax := ci.openmax } := by
  unfold refineMax
  split
  · rfl
  · rename_i hlt
    obtain ⟨heq, hclosed, hopen⟩ := h.resolve_left hlt
    rw [if_pos ⟨heq, hclosed, hopen⟩, ← heq, hopen]

theorem refineMax_of_not_clipped (h : ¬ ClippedMax ri ci) : (refineMax ri ci).1 = ri := by
  obtain ⟨hlt, heq⟩ := not_or.1 h
  unfold refineMax
  rw [if_neg hlt, if_neg heq]

/-- The lower bound of a clipped interval is the constraint's where that clips, else the request's. -/
theorem clipped_min (ri ci : SndInterval) :
    (ClippedMin ri ci ∧ (clipped ri ci).min = ci.min ∧ (clipped ri ci).openmin = ci.openmin) ∨
    (¬ ClippedMin ri ci ∧ (clipped ri ci).min = ri.min ∧ (clipped ri ci).openmin = ri.openmin) := by
  unfold clipped
  dsimp only
  rw [refineMax_min, refineMax_openmin]
  by_cases h : ClippedMin ri ci
  · rw [refineMin_of_clipped h]
    exact .inl ⟨h, rfl, rfl⟩
  · rw [refineMin_of_not_clipped h]
    exact .inr ⟨h, rfl, rfl⟩

/-- The upper bound of a clipped interval is the constraint's where that clips, else the request's. -/
theorem clipped_max (ri ci : SndInterval) :
    (ClippedMax ri ci ∧ (clipped ri ci).max = ci.max ∧ (clipped ri ci).openmax = ci.openmax) ∨
    (¬ ClippedMax ri ci ∧ (clipped ri ci).max = ri.max ∧ (clipped ri ci).openmax = ri.openmax) := by
  unfold clipped
  dsimp only
  by_cases h : ClippedMax ri ci
  · rw [refineMax_of_clipped ((clippedMax_refineMin ri ci).2 h)]
    exact .inl ⟨h, rfl, rfl⟩
  · rw [refineMax_of_not_clipped (mt (clippedMax_refineMin ri ci).1 h), refineMin_max, refineMin_openmax]
    exact .inr ⟨h, rfl, rfl⟩

/-- The lower bound of a closed interval is the request's just when it is not open and was not clipped, or was
clipped to a bound that wraps back. -/
theorem closed_min_iff (hi : ri.integer) : ri.openmin = false ∧ (closeBounds (clipped ri ci)).min = ri.min ↔
    ri.openmin = false ∧ (ClippedMin ri ci → ci.openmin ∧ ci.min = 0xFFFFFFFF ∧ ri.min = 0) := by
  have hint : (clipped ri ci).integer = true := by simp [clipped, hi]
  rw [closeBounds_min, hint, Bool.true_and]
  refine and_congr_right fun hclosed => ?_
  rcases clipped_min ri ci with ⟨hc, hmin, hopen⟩ | ⟨hc, hmin, hopen⟩
  · rw [hmin, hopen]
    cases ho : ci.openmin
    · have hne : ci.min ≠ ri.min := fun heq => hc.ne ⟨heq, ho.trans hclosed.symm⟩
      simp [hc, hne]
    · simp [hc, succ_eq_iff_wraps hc.le]
  · rw [hmin, hopen, hclosed]
    simp [hc]

/-- The upper bound of a closed interval is the request's just when it is not open and was not clipped, or was
clipped to a bound that wraps back. -/
theorem closed_max_iff (hi : ri.integer) : ri.openmax = false ∧ (closeBounds (clipped ri ci)).max = ri.max ↔
    ri.openmax = false ∧ (ClippedMax ri ci → ci.openmax ∧ ci.max = 0 ∧ ri.max = 0xFFFFFFFF) := by
  have hint : (clipped ri ci).integer = true := by simp [clipped, hi]
  rw [closeBounds_max, hint, Bool.true_and]
  refine and_congr_right fun hclosed => ?_
  rcases clipped_max ri ci with ⟨hc, hmax, hopen⟩ | ⟨hc, hmax, hopen⟩
  · rw [hmax, hopen]
    cases ho : ci.openmax
    · have hne : ci.max ≠ ri.max := fun heq => hc.ne ⟨heq, ho.trans hclosed.symm⟩
      simp [hc, hne]
    · have hpred : ci.max - 1 = ri.max ↔ ci.max = 0 ∧ ri.max = 0xFFFFFFFF := by
        rw [sub_eq_iff_eq_add, eq_comm, succ_eq_iff_wraps hc.le, and_comm]
      simp [hc, hpred]
  · rw [hmax, hopen, hclosed]
    simp [hc]

theorem clipped_of_not_clipped (h : ¬ Clipped ri ci) : clipped ri ci = ri := by
  obtain ⟨hmin, hmax, hint⟩ : ¬ ClippedMin ri ci ∧ ¬ ClippedMax ri ci ∧ ¬ (!ri.integer ∧ ci.integer) := by
    simpa only [Clipped, not_or] using h
  have hsame : (ri.integer || ci.integer) = ri.integer := by
    cases hr : ri.integer <;> cases hc : ci.integer <;> simp_all
  unfold clipped
  rw [refineMin_of_not_clipped hmin, refineMax_of_not_clipped hmax, hsame]

theorem closeBounds_clipped_integer (hi : ri.integer) : closeBounds (clipped ri ci) = ri ↔ WrapsBack ri ci := by
  have hint : (clipped ri ci).integer = true := by simp [clipped, hi]
  have hopenmin : (closeBounds (clipped ri ci)).openmin = false := by rw [closeBounds_openmin, hint]; rfl
  have hopenmax : (closeBounds (clipped ri ci)).openmax = false := by rw [closeBounds_openmax, hint]; rfl
  have hfields : closeBounds (clipped ri ci) = ri ↔
      (ri.openmin = false ∧ (closeBounds (clipped ri ci)).min = ri.min) ∧
        (ri.openmax = false ∧ (closeBounds (clipped ri ci)).max = ri.max) := by
    constructor
    · intro hself
      rw [hself] at hopenmin hopenmax ⊢
      exact ⟨⟨hopenmin, rfl⟩, ⟨hopenmax, rfl⟩⟩
    · rintro ⟨⟨hopen, hmin⟩, ⟨hopen', hmax⟩⟩
      exact SndInterval.ext hmin hmax (hopenmin.trans hopen.symm) (hopenmax.trans hopen'.symm)
        ((closeBounds_integer hint).trans hi.symm)
  rw [hfields, closed_min_iff hi, closed_max_iff hi]
  unfold WrapsBack
  simp only [hi, Bool.not_eq_true', true_and]
  tauto

theorem closeBounds_clipped_ne (hi : ri.integer = false) (hc : Clipped ri ci) : closeBounds (clipped ri ci) ≠ ri := by
  intro hself
  cases hci : ci.integer
  · have hint : (clipped ri ci).integer = false := by simp [clipped, hi, hci]
    have hmin := closeBounds_min (clipped ri ci)
    have hmax := closeBounds_max (clipped ri ci)
    have hopenmin := closeBounds_openmin (clipped ri ci)
    have hopenmax := closeBounds_openmax (clipped ri ci)
    simp only [hself, hint, Bool.false_and, Bool.not_false, Bool.true_and] at hmin hmax hopenmin hopenmax
    rcases hc with hlo | hhi | ⟨-, hinteger⟩
    · rcases clipped_min ri ci with ⟨-, hm, ho⟩ | ⟨hno, -, -⟩
      · exact hlo.ne ⟨(hmin.trans hm).symm, (hopenmin.trans ho).symm⟩
      · exact hno hlo
    · rcases clipped_max ri ci with ⟨-, hm, ho⟩ | ⟨hno, -, -⟩
      · exact hhi.ne ⟨(hmax.trans hm).symm, (hopenmax.trans ho).symm⟩
      · exact hno hhi
    · rw [hci] at hinteger
      cases hinteger
  · have hint : (closeBounds (clipped ri ci)).integer := closeBounds_integer (by simp [clipped, hci])
    rw [hself, hi] at hint
    cases hint

end

theorem refineInterval_ne (ri ci : SndInterval) : (refineInterval ri ci).1 ≠ ri ↔ Changes ri ci := by
  rw [refineInterval_fst]
  by_cases hc : Clipped ri ci
  · have hback : closeBounds (clipped ri ci) = ri ↔ WrapsBack ri ci := by
      cases hi : ri.integer
      · have hno : ¬ WrapsBack ri ci := by simp [WrapsBack, hi]
        exact iff_of_false (closeBounds_clipped_ne hi hc) hno
      · exact closeBounds_clipped_integer hi
    rw [Ne, hback]
    unfold Changes
    tauto
  · rw [clipped_of_not_clipped hc, Ne, closeBounds_eq_self]
    unfold Changes
    tauto

/-- The parameters whose bit in `cmask` agrees with what happens to them: a mask is reported where it differs
from the constraint, an interval from the first interval that is clipped on. -/
structure ReportedAsChanged (p c : SndPcmHwParams) : Prop where
  masks : ∀ n : MaskParam, requestedBit p n.index → reportedBit p n.index ∨
    ((p.masks n).Within (c.masks n) → (p.masks n).SameWords (c.masks n))
  intervals : ∀ n : IntervalParam, requestedBit p n.index → reportedBit p n.index ∨
    ((∃ m : IntervalParam, m.index ≤ n.index ∧ requestedBit p m.index ∧ Clipped (p.intervals m) (c.intervals m)) ↔
      Changes (p.intervals n) (c.intervals n))

/-- `cmask` reports exactly what changed just when each requested parameter is reported as it changes. -/
theorem pcmPlugHwParamsRefine_reportsChanges_iff (p c : SndPcmHwParams) :
    ReportsChanges p (pcmPlugHwParamsRefine p c).2 ↔ ReportedAsChanged p c := by
  obtain ⟨hm, hi, hcm, hci⟩ := pcmPlugHwParamsRefine_spec p c
  simp only [clips_iff] at hci
  generalize (pcmPlugHwParamsRefine p c).2 = p' at *
  have hmask : ∀ n : MaskParam, requestedBit p n.index →
      (p'.masks n ≠ p.masks n ↔ ¬ (p.masks n).Within (c.masks n)) := by
    intro n hr
    rw [hm, if_pos hr, Ne, refineMask_eq_self]
  have hinterval : ∀ n : IntervalParam, requestedBit p n.index →
      (p'.intervals n ≠ p.intervals n ↔ Changes (p.intervals n) (c.intervals n)) := by
    intro n hr
    rw [hi, if_pos hr]
    exact refineInterval_ne _ _
  constructor
  · rintro ⟨hmasks, hintervals, -, -⟩
    refine ⟨fun n hr => ?_, fun n hr => ?_⟩
    · have h := hmasks n hr
      rw [hcm, hmask n hr] at h
      tauto
    · have h := hintervals n hr
      rw [hci, hinterval n hr, and_iff_right hr] at h
      by_cases hbefore : reportedBit p n.index = true
      · exact .inl hbefore
      · rw [or_iff_right hbefore, or_iff_right hbefore] at h
        exact .inr h
  · rintro ⟨hmasks, hintervals⟩
    refine ⟨fun n hr => ?_, fun n hr => ?_, fun n hr => ?_, fun n hr => ?_⟩
    · have h := hmasks n hr
      have hwithin := @SndMask.SameWords.within (p.masks n) (c.masks n)
      rw [hcm, hmask n hr]
      tauto
    · have h := hintervals n hr
      rw [hci, hinterval n hr, and_iff_right hr]
      rcases h with h | h
      · exact ⟨fun _ => .inl h, fun _ => .inl h⟩
      · exact or_congr_right h
    · rw [Bool.eq_iff_iff, hcm]
      tauto
    · rw [Bool.eq_iff_iff, hci]
      tauto

/-- Once the channels are clipped, the rate is reported too, though it stays. -/
theorem pcmPlugHwParamsRefine_not_reportsChanges :
    let p := { paramSetInt (paramSetInt paramInit .rate 44100) .periods 4 with
      rmask := 1 <<< IntervalParam.channels.index.toUInt32 ||| 1 <<< IntervalParam.rate.index.toUInt32 }
    let c := paramInit.setInterval .channels { min := 1, max := 2, integer := true }
    ¬ ReportsChanges p (pcmPlugHwParamsRefine p c).2 := by
  intro p c h
  have hrate := h.intervals .rate (by decide)
  have hsame : (pcmPlugHwParamsRefine p c).2.intervals .rate = p.intervals .rate := by decide
  have hreported : reportedBit (pcmPlugHwParamsRefine p c).2 IntervalParam.rate.index = true := by decide
  have hbefore : reportedBit p IntervalParam.rate.index = false := by decide
  rcases hrate.1 hreported with h | h
  · rw [hbefore] at h
    cases h
  · exact h hsame

end Tinyalsa
