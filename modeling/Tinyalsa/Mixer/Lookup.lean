/-
Looking controls up by their id (`mixer_get_ctl`, `mixer_ctl_get_id`). Ids index the controls of the
hardware group followed by those of the plugin group: when they keep their meaning while controls
are added, and when a control's own id leads back to it.
-/
import Tinyalsa.Mixer.Enumerate

namespace Tinyalsa

open Hoare

/-! ## Controls by their id -/

/-- A pointer to a control: its group and its index there. -/
structure CtlPtr where
  grp : Addr
  index : Nat
  deriving DecidableEq, Repr

/-- `mixer_get_ctl`; `none` is `NULL`. -/
def mixerGetCtl (mixer : Mixer) (heap : Addr → Option MixerCtlGroup) (id : UInt32) : Option CtlPtr :=
  if id ≥ mixer.totalCount then none
  else if id < mixerGrpGetCount heap mixer.hGrp then some ⟨mixer.hGrp, id.toNat⟩
  else if id - mixerGrpGetCount heap mixer.hGrp < mixerGrpGetCount heap mixer.vGrp then
    some ⟨mixer.vGrp, (id - mixerGrpGetCount heap mixer.hGrp).toNat⟩
  else none

/-- `mixer_get_ctl_const`, whose text is the same. -/
def mixerGetCtlConst (mixer : Mixer) (heap : Addr → Option MixerCtlGroup) (id : UInt32) : Option CtlPtr :=
  mixerGetCtl mixer heap id

/-- `*ctl`. -/
def derefCtl (heap : Addr → Option MixerCtlGroup) (p : CtlPtr) : Option MixerCtl :=
  (heap p.grp).map fun g => g.ctl p.index

def mixerCtlGetId (ctl : MixerCtl) : UInt32 := ctl.info.id.numid - 1

section

variable {η π : Type} {b : MixBackends η π} {w : MixWorld η π} {id : UInt32}

theorem mixerGetCtl_none (h : w.mixer.totalCount.toNat ≤ id.toNat) : mixerGetCtl w.mixer w.heap id = none :=
  if_pos (UInt32.le_iff_toNat_le.2 h)

theorem mixerGetCtl_hw (ht : id.toNat < w.mixer.totalCount.toNat) (hlt : id.toNat < hCount w) :
    mixerGetCtl w.mixer w.heap id = some ⟨w.mixer.hGrp, id.toNat⟩ := by
  unfold mixerGetCtl
  rw [if_neg (by simpa [UInt32.le_iff_toNat_le] using ht), if_pos (UInt32.lt_iff_toNat_lt.2 hlt)]

/-- An id below the total count that is none of the hardware group is one of the plugin group. -/
theorem mixerGetCtl_plug (hi : MixerInv w) (ht : id.toNat < w.mixer.totalCount.toNat) (hge : hCount w ≤ id.toNat) :
    mixerGetCtl w.mixer w.heap id = some ⟨w.mixer.vGrp, id.toNat - hCount w⟩ ∧ id.toNat - hCount w < vCount w := by
  have htotal := hi.toNat_total
  have hv := (mixerGrpGetCount w.heap w.mixer.vGrp).toNat_lt
  have hle : mixerGrpGetCount w.heap w.mixer.hGrp ≤ id := UInt32.le_iff_toNat_le.2 hge
  have hsub : (id - mixerGrpGetCount w.heap w.mixer.hGrp).toNat = id.toNat - hCount w := UInt32.toNat_sub_of_le _ _ hle
  have hh := (mixerGrpGetCount w.heap w.mixer.hGrp).toNat_lt
  -- where the sum of the counts wraps, it wraps below the hardware count
  have hlt : id.toNat - hCount w < vCount w := by
    rw [htotal] at ht
    rcases Nat.lt_or_ge (hCount w + vCount w) (2 ^ 32) with hfit | hwrap <;> omega
  refine ⟨?_, hlt⟩
  unfold mixerGetCtl
  rw [if_neg (by simpa [UInt32.le_iff_toNat_le] using ht), if_neg (by simpa [UInt32.lt_iff_toNat_lt] using hge),
    if_pos (by rw [UInt32.lt_iff_toNat_lt, hsub]; exact hlt), hsub]

/-- An id below the total count denotes a control. -/
theorem mixerGetCtl_ne_none (hi : MixerInv w) (ht : id.toNat < w.mixer.totalCount.toNat) :
    mixerGetCtl w.mixer w.heap id ≠ none := by
  rcases Nat.lt_or_ge id.toNat (hCount w) with hlt | hge
  · rw [mixerGetCtl_hw ht hlt]
    exact nofun
  · rw [(mixerGetCtl_plug hi ht hge).1]
    exact nofun

/-- A group that counts a control is there, and counts it itself. -/
theorem MixerInv.grp_of_lt (hi : MixerInv w) {k : GrpKind} {i : Nat}
    (hlt : i < (mixerGrpGetCount w.heap (w.mixer.ptr k)).toNat) :
    ∃ g, w.heap (w.mixer.ptr k) = some g ∧ g.kind = k ∧ i < g.count.toNat := by
  have hne : w.mixer.ptr k ≠ 0 := by
    intro hz
    rw [mixerGrpGetCount, if_pos hz] at hlt
    exact absurd hlt (Nat.not_lt_zero i)
  obtain ⟨g, hg, hk, -⟩ := (hi.live k).resolve_left hne
  rw [mixerGrpGetCount, if_neg hne, hg] at hlt
  exact ⟨g, hg, hk, hlt⟩

/-! ## Ids and new controls -/

/-- The number of controls that the backend `k` described in a call of `mixer_add_new_ctls`. -/
def newlyDescribed (b : MixBackends η π) (w : MixWorld η π) (k : GrpKind) : Nat :=
  (exec (mixerAddNewCtls b) w).2.log.countP (MixEvent.describes k) - w.log.countP (MixEvent.describes k)

/-- The id denotes the same control in both states: the same position in the same group, and the
control there is unchanged. -/
structure IdSurvives (w w' : MixWorld η π) (id : UInt32) : Prop where
  ptr : mixerGetCtl w'.mixer w'.heap id = mixerGetCtl w.mixer w.heap id
  ctl : ∀ p, mixerGetCtl w.mixer w.heap id = some p → derefCtl w'.heap p = derefCtl w.heap p

/-- What the scan of one group does to the ids. -/
structure GrpRescanned (k : GrpKind) (w w' : MixWorld η π) (new : Nat) : Prop where
  inv : MixerInv w'
  ptr : w'.mixer.ptr = w.mixer.ptr
  count : (mixerGrpGetCount w'.heap (w.mixer.ptr k)).toNat = (mixerGrpGetCount w.heap (w.mixer.ptr k)).toNat + new
  other : ∀ k', k' ≠ k → w'.heap (w.mixer.ptr k') = w.heap (w.mixer.ptr k') ∨ w.mixer.ptr k' = 0
  kept : ∀ k' i, i < (mixerGrpGetCount w.heap (w.mixer.ptr k')).toNat →
    derefCtl w'.heap ⟨w.mixer.ptr k', i⟩ = derefCtl w.heap ⟨w.mixer.ptr k', i⟩
  log : ∀ k', w'.log.countP (MixEvent.describes k') = w.log.countP (MixEvent.describes k') + if k' = k then new else 0

theorem rescanGrp_rescanned (b : MixBackends η π) (k : GrpKind) (hi : MixerInv w) :
    ∃ new, GrpRescanned k w (exec (rescanGrp b (w.mixer.ptr k)) w).2 new := by
  rw [rescanGrp, exec_ite]
  split
  · rename_i hne
    obtain ⟨g, hg, hgk, hopen, hfit, hlink⟩ := (hi.live k).resolve_left hne
    obtain ⟨ret, d₁, d₂, al, g', calls, hgrow, heq⟩ := exec_addControlsTo (b := b) hg
    rw [heq]
    have hinv := hi.grown hne hg hgrow d₁ d₂ al (calls.map (.scan g.kind) ++ w.log)
    have hother : ∀ k', k' ≠ k → Function.update w.heap (w.mixer.ptr k) (some g') (w.mixer.ptr k') =
        w.heap (w.mixer.ptr k') ∨ w.mixer.ptr k' = 0 := by
      intro k' hk'
      exact .inl (Function.update_of_ne (hi.ptr_ne k k' hk'.symm hne).symm _ _)
    refine ⟨g'.count.toNat - g.count.toNat, hinv, by funext k'; cases k' <;> rfl, ?_, hother, ?_, ?_⟩
    · rw [mixerGrpGetCount_update _ hne, if_pos rfl, mixerGrpGetCount, if_neg hne, hg]
      have hle := hgrow.grows
      show g'.count.toNat = g.count.toNat + _
      omega
    · intro k' i hi'
      rcases eq_or_ne k' k with rfl | hk'
      · rw [mixerGrpGetCount, if_neg hne, hg] at hi'
        unfold derefCtl
        show Option.map _ (Function.update w.heap (w.mixer.ptr k') (some g') (w.mixer.ptr k')) = _
        rw [Function.update_self, hg]
        exact congrArg some (hgrow.kept i hi')
      · unfold derefCtl
        show Option.map _ (Function.update w.heap (w.mixer.ptr k) (some g') (w.mixer.ptr k')) = _
        rw [Function.update_of_ne (hi.ptr_ne k k' hk'.symm hne).symm]
    · intro k'
      show List.countP _ (calls.map (.scan g.kind) ++ w.log) = _
      rw [List.countP_append, countP_describes_scan, hgk, hgrow.described, Nat.add_comm]
  · exact ⟨0, hi, rfl, rfl, fun _ _ => .inl rfl, fun _ _ _ => rfl, fun k' => by rw [ite_self]; rfl⟩

end

section

variable {η π : Type} {b : MixBackends η π} {w w' : MixWorld η π}

/-- The groups of `w` have grown by `dh` and `dv` controls in `w'`. -/
structure GroupsGrown (w w' : MixWorld η π) (dh dv : Nat) : Prop where
  inv : MixerInv w'
  ptr : w'.mixer.ptr = w.mixer.ptr
  hCount : hCount w' = hCount w + dh
  vCount : vCount w' = vCount w + dv
  kept : ∀ k i, i < (mixerGrpGetCount w.heap (w.mixer.ptr k)).toNat →
    derefCtl w'.heap ⟨w.mixer.ptr k, i⟩ = derefCtl w.heap ⟨w.mixer.ptr k, i⟩

theorem GrpRescanned.count_other {k k' : GrpKind} {new : Nat} (h : GrpRescanned k w w' new) (hk : k' ≠ k) :
    mixerGrpGetCount w'.heap (w.mixer.ptr k') = mixerGrpGetCount w.heap (w.mixer.ptr k') := by
  unfold mixerGrpGetCount
  rcases h.other k' hk with heap | hz
  · rw [heap]
  · rw [if_pos hz, if_pos hz]

theorem mixerAddNewCtls_grown (b : MixBackends η π) (hi : MixerInv w) :
    GroupsGrown w (exec (mixerAddNewCtls b) w).2 (newlyDescribed b w .hw) (newlyDescribed b w .plug) := by
  obtain ⟨dh, h₁⟩ := rescanGrp_rescanned b .hw hi
  obtain ⟨dv, h₂⟩ := rescanGrp_rescanned b .plug h₁.inv
  rw [h₁.ptr] at h₂
  have hend : (exec (mixerAddNewCtls b) w).2 =
      (exec (rescanGrp b (w.mixer.ptr .plug)) (exec (rescanGrp b (w.mixer.ptr .hw)) w).2).2 := exec_mixerAddNewCtls
  unfold newlyDescribed
  rw [hend]
  generalize exec (rescanGrp b (w.mixer.ptr .hw)) w = r₁ at *
  generalize exec (rescanGrp b (w.mixer.ptr .plug)) r₁.2 = r₂ at *
  have hptr : r₂.2.mixer.ptr = w.mixer.ptr := h₂.ptr.trans h₁.ptr
  have hh : r₂.2.mixer.hGrp = w.mixer.ptr .hw := congrFun hptr .hw
  have hv : r₂.2.mixer.vGrp = w.mixer.ptr .plug := congrFun hptr .plug
  -- the scan of a group describes controls of its own kind only
  have hnew : ∀ k, r₂.2.log.countP (MixEvent.describes k) - w.log.countP (MixEvent.describes k) =
      if k = .hw then dh else dv := by
    intro k
    rw [h₂.log, h₁.log]
    cases k <;> simp
  rw [hnew, hnew]
  have ho₁ := h₁.count_other (show GrpKind.plug ≠ .hw by decide)
  have ho₂ := h₂.count_other (show GrpKind.hw ≠ .plug by decide)
  have hc₁ := h₁.count
  have hc₂ := h₂.count
  rw [h₁.ptr] at ho₂ hc₂
  refine ⟨h₂.inv, hptr, ?_, ?_, fun k i hlt => ?_⟩
  · show (mixerGrpGetCount r₂.2.heap r₂.2.mixer.hGrp).toNat = _
    rw [hh, ho₂, hc₁]
    rfl
  · show (mixerGrpGetCount r₂.2.heap r₂.2.mixer.vGrp).toNat = _
    rw [hv, hc₂, ho₁]
    rfl
  · have hk₂ := h₂.kept k i
    rw [h₁.ptr] at hk₂
    refine (hk₂ ?_).trans (h₁.kept k i hlt)
    cases k
    · rw [hc₁]
      omega
    · rw [ho₁]
      exact hlt

/-- The total count after a call is the sum of what was there and what was described. -/
theorem GroupsGrown.total {dh dv : Nat} (h : GroupsGrown w w' dh dv) (hi : MixerInv w) :
    w'.mixer.totalCount = w.mixer.totalCount + dh.toUInt32 + dv.toUInt32 := by
  have h₁ := h.hCount
  have h₂ := h.vCount
  rw [← UInt32.toNat_inj, h.inv.toNat_total, h₁, h₂, UInt32.toNat_add, UInt32.toNat_add, hi.toNat_total,
    Nat.toUInt32_eq, Nat.toUInt32_eq, UInt32.toNat_ofNat', UInt32.toNat_ofNat']
  omega

/-- The ids below the total count keep their meaning just when the total count does not wrap around,
and no hardware control is added in front of a plugin control. -/
theorem mixerGetCtl_survives_iff (hi : MixerInv w) :
    (∀ id, id < w.mixer.totalCount → IdSurvives w (exec (mixerAddNewCtls b) w).2 id) ↔
      w.mixer.totalCount ≤
          w.mixer.totalCount + (newlyDescribed b w .hw).toUInt32 + (newlyDescribed b w .plug).toUInt32 ∧
        (w.mixer.totalCount ≤ mixerGrpGetCount w.heap w.mixer.hGrp ∨ newlyDescribed b w .hw = 0) := by
  have h := mixerAddNewCtls_grown b hi
  rw [← h.total hi, UInt32.le_iff_toNat_le, UInt32.le_iff_toNat_le]
  generalize newlyDescribed b w .hw = dh at *
  generalize newlyDescribed b w .plug = dv at *
  generalize (exec (mixerAddNewCtls b) w).2 = w' at *
  have hh := h.hCount
  have hv := h.vCount
  have hcount : (mixerGrpGetCount w.heap w.mixer.hGrp).toNat = hCount w := rfl
  have hhptr : w'.mixer.hGrp = w.mixer.hGrp := congrFun h.ptr .hw
  have hvptr : w'.mixer.vGrp = w.mixer.vGrp := congrFun h.ptr .plug
  constructor
  · intro hall
    refine ⟨?_, ?_⟩
    · -- an id that the new total leaves out denotes nothing any more
      by_contra hwrap
      rw [not_le] at hwrap
      have hs := (hall w'.mixer.totalCount (UInt32.lt_iff_toNat_lt.2 hwrap)).ptr
      rw [mixerGetCtl_none le_rfl] at hs
      exact mixerGetCtl_ne_none hi hwrap hs.symm
    · by_contra hshift
      rw [not_or, not_le] at hshift
      obtain ⟨hlt, hgrown⟩ := hshift
      -- the first plugin control's id denotes the first new hardware control
      have hs := (hall (mixerGrpGetCount w.heap w.mixer.hGrp) (UInt32.lt_iff_toNat_lt.2 hlt)).ptr
      obtain ⟨hplug, hpos⟩ := mixerGetCtl_plug hi hlt le_rfl
      have hv0 : w.mixer.ptr .plug ≠ 0 := by
        intro hz
        rw [Nat.sub_self] at hpos
        have hz' : mixerGrpGetCount w.heap w.mixer.vGrp = 0 := if_pos hz
        rw [vCount, hz'] at hpos
        exact absurd hpos (lt_irrefl 0)
      have hne := hi.ptr_ne .plug .hw nofun hv0
      rw [hplug] at hs
      rcases Nat.lt_or_ge (hCount w) w'.mixer.totalCount.toNat with hin | hout
      · rw [mixerGetCtl_hw hin (by omega), hhptr] at hs
        exact hne (CtlPtr.mk.inj (Option.some.inj hs)).1.symm
      · rw [mixerGetCtl_none hout] at hs
        cases hs
  · rintro ⟨hle, hkeep⟩ id hid
    rw [UInt32.lt_iff_toNat_lt] at hid
    rcases Nat.lt_or_ge id.toNat (hCount w) with hlt | hge
    · have hbefore := mixerGetCtl_hw hid hlt
      refine ⟨?_, fun p hp => ?_⟩
      · rw [mixerGetCtl_hw (by omega) (by omega), hbefore, hhptr]
      · rw [hbefore] at hp
        obtain rfl := Option.some.inj hp
        exact h.kept .hw _ hlt
    · obtain ⟨hbefore, hlt⟩ := mixerGetCtl_plug hi hid hge
      obtain rfl : dh = 0 := hkeep.resolve_left (by omega)
      refine ⟨?_, fun p hp => ?_⟩
      · rw [(mixerGetCtl_plug h.inv (by omega) (by omega)).1, hbefore, hvptr, hh, Nat.add_zero]
      · rw [hbefore] at hp
        obtain rfl := Option.some.inj hp
        exact h.kept .plug _ hlt

/-- A mixer of a card with a control and of the plugin `p`, to which the card has added a second one since. -/
def grownCard (p : MixerPlugin) : MixWorld Card MixerPlugin :=
  { (exec (mixerOpen (withPlugin cardOps 0)) { hw := { names := [[86]] }, plug := p, alloc := fun _ => true }).2 with
    hw := { names := [[86], [87]] }, plug := p, alloc := fun _ => true }

theorem grownCard_inv {p : MixerPlugin}
    (hset : ∀ e ∈ (exec (mixerOpen (withPlugin cardOps 0))
      { hw := { names := [[86]] }, plug := p, alloc := fun _ => true }).2.log, ¬ e.setupFails)
    (hret : (exec (mixerOpen (withPlugin cardOps 0))
      { hw := { names := [[86]] }, plug := p, alloc := fun _ => true }).1 = true) : MixerInv (grownCard p) :=
  (Fresh.opened ⟨rfl, Nat.one_pos, rfl⟩ hret hset).1.irrel _ _ _ _ _ rfl rfl

/-- Without plugin controls the ids survive. -/
theorem mixerGetCtl_survives_card : MixerInv (grownCard noControls) ∧
    ∀ id, id < (grownCard noControls).mixer.totalCount →
      IdSurvives (grownCard noControls)
        (exec (mixerAddNewCtls (withPlugin cardOps 0)) (grownCard noControls)).2 id := by
  have hi : MixerInv (grownCard noControls) := grownCard_inv (by decide +kernel) (by decide +kernel)
  have hle : (grownCard noControls).mixer.totalCount ≤ (grownCard noControls).mixer.totalCount +
      (newlyDescribed (withPlugin cardOps 0) (grownCard noControls) .hw).toUInt32 +
      (newlyDescribed (withPlugin cardOps 0) (grownCard noControls) .plug).toUInt32 := by decide +kernel
  have hkeep : (grownCard noControls).mixer.totalCount ≤
      mixerGrpGetCount (grownCard noControls).heap (grownCard noControls).mixer.hGrp := by decide +kernel
  exact ⟨hi, (mixerGetCtl_survives_iff hi).2 ⟨hle, .inl hkeep⟩⟩

/-- With one, the new hardware control takes over its id. -/
theorem mixerGetCtl_survives_not : MixerInv (grownCard oneControl) ∧
    ¬ ∀ id, id < (grownCard oneControl).mixer.totalCount → IdSurvives (grownCard oneControl)
      (exec (mixerAddNewCtls (withPlugin cardOps 0)) (grownCard oneControl)).2 id := by
  refine ⟨grownCard_inv (by decide +kernel) (by decide +kernel), fun h => ?_⟩
  have hs := (h 1 (by decide +kernel)).ptr
  have hbefore : mixerGetCtl (grownCard oneControl).mixer (grownCard oneControl).heap 1 =
      some ⟨(grownCard oneControl).mixer.vGrp, 0⟩ := by decide +kernel
  have hafter : mixerGetCtl (exec (mixerAddNewCtls (withPlugin cardOps 0)) (grownCard oneControl)).2.mixer
      (exec (mixerAddNewCtls (withPlugin cardOps 0)) (grownCard oneControl)).2.heap 1 =
      some ⟨(grownCard oneControl).mixer.hGrp, 1⟩ := by decide +kernel
  rw [hbefore, hafter] at hs
  exact absurd (CtlPtr.mk.inj (Option.some.inj hs)).2 (by decide)

end

/-! ## Ids and numbers -/

/-- The kernel numbers the controls of a card from 1 on, in the order of its list. -/
structure NumbersFromOne {η : Type} (ops : MixerOps η) (count : η → UInt32) : Prop where
  counted : ∀ l d, 0 ≤ (ops.elemList l d).1 → (ops.elemList l d).2.1.count = count d
  numbered : ∀ l d i, 0 ≤ (ops.elemList l d).1 → i < l.space.toNat → l.offset.toNat + i < (count d).toNat →
    ((ops.elemList l d).2.1.pids i).numid.toNat = l.offset.toNat + i + 1
  described : ∀ e d, 0 ≤ (ops.elemInfo e d).1 → (ops.elemInfo e d).2.1.id.numid = e.id.numid
  listKeeps : ∀ l d, count (ops.elemList l d).2.2 = count d
  infoKeeps : ∀ e d, count (ops.elemInfo e d).2.2 = count d

/-- The hardware controls on the heap carry their numbers. -/
def HwNumbered (heap : Addr → Option MixerCtlGroup) : Prop :=
  ∀ a g, heap a = some g → g.kind = .hw → ∀ i, i < g.count.toNat → (g.ctl i).info.id.numid.toNat = i + 1

theorem HwNumbered.update {heap : Addr → Option MixerCtlGroup} (h : HwNumbered heap) (a : Addr)
    {g : Option MixerCtlGroup}
    (hg : ∀ g', g = some g' → g'.kind = .hw → ∀ i, i < g'.count.toNat → (g'.ctl i).info.id.numid.toNat = i + 1) :
    HwNumbered (Function.update heap a g) := by
  intro a' g' ha' hk
  rcases eq_or_ne a' a with rfl | hne
  · rw [Function.update_self] at ha'
    exact hg g' ha' hk
  · rw [Function.update_of_ne hne] at ha'
    exact h a' g' ha' hk

section

variable {η : Type} {hw : MixerOps η} {load : Int} {count : η → UInt32} {w : MixWorld η MixerPlugin}

/-- The first scan of a card numbers its controls. -/
theorem NumbersFromOne.scan (hn : NumbersFromOne hw count) (mixer grp : Addr) (s : ScanState η) (h0 : s.grp.count = 0)
    {i : Nat} (hi : i < (exec (addControls hw mixer grp) s).2.grp.count.toNat) :
    ((exec (addControls hw mixer grp) s).2.grp.ctl i).info.id.numid.toNat = i + 1 := by
  obtain ⟨eid, m, new, h⟩ := addControls_spec (D := fun d => count d = count s.dev) hw mixer grp
    (fun e d hd => (hn.infoKeeps e d).trans hd) (fun l d hd => (hn.listKeeps l d).trans hd) s rfl
  generalize exec (addControls hw mixer grp) s = r at *
  have hz : s.grp.count.toNat = 0 := by rw [h0]; rfl
  rw [h.spec.count] at hi
  have hlt : s.grp.count.toNat < m := by omega
  have hcount := hn.counted {} s.dev (h.listed hlt)
  have hbound := h.bound hlt
  rw [hcount] at hbound
  obtain ⟨d, hd, hret, heid⟩ := h.numbers hlt
  obtain ⟨e, -, hdesc, hctl⟩ := h.spec.added i (by omega) hi
  rw [hz, Nat.sub_zero] at hdesc hctl
  have hspace : (secondList s.grp.count (hw.elemList {} s.dev).2.1).space.toNat = (count s.dev).toNat := by
    show ((hw.elemList {} s.dev).2.1.count - s.grp.count).toNat = _
    rw [hcount, h0, UInt32.sub_zero]
  have hoffset : (secondList s.grp.count (hw.elemList {} s.dev).2.1).offset.toNat = 0 := hz
  have hnum := hn.numbered _ d i hret (by rw [hspace]; omega) (by rw [hoffset, hd]; omega)
  rw [← heid, hoffset, Nat.zero_add] at hnum
  rw [hctl]
  show (hw.elemInfo (({} : MixerCtl).request (eid i).numid) e).2.1.id.numid.toNat = _
  rw [hn.described _ e hdesc]
  exact hnum

theorem hwNumbered_fact (hn : NumbersFromOne hw count) (load : Int) :
    GroupFact (withPlugin hw load) fun _ heap => HwNumbered heap where
  free := fun p heap a h => h.update a nofun
  new := fun p heap a k h => h.update a fun g' hg' _ i hi => by
    obtain rfl := Option.some.inj hg'
    exact absurd hi (Nat.not_lt_zero i)
  scan := fun w a g hg h0 h => by
    cases hk : g.kind with
    | hw =>
      rw [exec_addControlsTo_hw hg hk]
      refine h.update a fun g' hg' _ i hi => ?_
      obtain rfl := Option.some.inj hg'
      exact hn.scan w.self a (scanState w.hw g w) h0 hi
    | plug =>
      have hgrow := (groupGrows (mixerPlugOps load) w.self a (s := scanState w.plug g w) rfl).1
      rw [exec_addControlsTo_plug hg hk]
      refine h.update a fun g' hg' hk' => ?_
      obtain rfl := Option.some.inj hg'
      rw [show (withPlugin hw load).plug = mixerPlugOps load from rfl, hgrow.kind] at hk'
      exact absurd (hk.symm.trans hk') nofun

/-- Looking a control up by its id and asking it for its id are inverse to each other. -/
structure IdsRoundTrip {η π : Type} (w : MixWorld η π) : Prop where
  found : ∀ id, id < w.mixer.totalCount → ∃ p c, mixerGetCtl w.mixer w.heap id = some p ∧
    mixerGetCtlConst w.mixer w.heap id = some p ∧ derefCtl w.heap p = some c ∧ mixerCtlGetId c = id
  back : ∀ k i c, i < (mixerGrpGetCount w.heap (w.mixer.ptr k)).toNat →
    derefCtl w.heap ⟨w.mixer.ptr k, i⟩ = some c →
    mixerGetCtl w.mixer w.heap (mixerCtlGetId c) = some ⟨w.mixer.ptr k, i⟩

/-- A control with the number of its place in the hardware group has that place as its id. -/
theorem mixerCtlGetId_of_numid {c : MixerCtl} {i : Nat} (h : c.info.id.numid.toNat = i + 1) :
    (mixerCtlGetId c).toNat = i := by
  unfold mixerCtlGetId
  rw [UInt32.toNat_sub_of_le, h]
  · rfl
  · rw [UInt32.le_iff_toNat_le, h]
    exact Nat.succ_le_succ (Nat.zero_le i)

/-- The ids of an opened mixer round-trip just when its plugin group holds no control. -/
theorem mixerCtlGetId_roundTrips_iff (hn : NumbersFromOne hw count) (hf : Fresh w) (hheap : ∀ a, w.heap a = none)
    (hset : ∀ e ∈ (exec (mixerOpen (withPlugin hw load)) w).2.log, ¬ e.setupFails)
    (hret : (exec (mixerOpen (withPlugin hw load)) w).1 = true) :
    IdsRoundTrip (exec (mixerOpen (withPlugin hw load)) w).2 ↔
      mixerGrpGetCount (exec (mixerOpen (withPlugin hw load)) w).2.heap
        (exec (mixerOpen (withPlugin hw load)) w).2.mixer.vGrp = 0 := by
  have hi := (hf.opened hret hset).1
  have hnum := (hwNumbered_fact hn load).opened (fun a g hg => absurd ((hheap a).symm.trans hg) nofun)
  have hdesc : TableDescribed (exec (mixerOpen (withPlugin hw load)) w).2.plug
      (exec (mixerOpen (withPlugin hw load)) w).2.heap :=
    tableDescribed_fact.opened (fun a g hg => absurd ((hheap a).symm.trans hg) nofun)
  generalize (exec (mixerOpen (withPlugin hw load)) w).2 = w' at *
  constructor
  · intro h
    by_contra hv
    have hpos : 0 < vCount w' := Nat.pos_of_ne_zero fun h0 => hv (UInt32.toNat_inj.1 h0)
    obtain ⟨g, hg, hk, hlt⟩ := hi.grp_of_lt (k := .plug) hpos
    obtain ⟨c, -, hd⟩ := hdesc _ g hg hk 0 hlt
    -- the first plugin control has the number 0, so its id is the largest number there is
    have hid : mixerCtlGetId (g.ctl 0) = 0xFFFFFFFF := by
      unfold mixerCtlGetId
      rw [UInt32.toNat_inj.1 (hd.numid.trans (show (0 : Nat) = (0 : UInt32).toNat from rfl))]
      rfl
    have hb := h.back .plug 0 (g.ctl 0) hpos (by unfold derefCtl; rw [hg]; rfl)
    rw [mixerGetCtl_none] at hb
    · cases hb
    · rw [hid]
      exact Nat.le_of_lt_succ w'.mixer.totalCount.toNat_lt
  · intro hv
    have htotal : w'.mixer.totalCount.toNat = hCount w' := by
      rw [hi.total, hv, UInt32.add_zero]
    have hctl : ∀ i, i < hCount w' →
        ∃ c, derefCtl w'.heap ⟨w'.mixer.hGrp, i⟩ = some c ∧ (mixerCtlGetId c).toNat = i := by
      intro i hlt
      obtain ⟨g, hg, hk, hlt'⟩ := hi.grp_of_lt (k := .hw) hlt
      exact ⟨g.ctl i, by unfold derefCtl; rw [show w'.heap w'.mixer.hGrp = some g from hg]; rfl,
        mixerCtlGetId_of_numid (hnum _ g hg hk i hlt')⟩
    refine ⟨fun id hid => ?_, fun k i c hlt hc => ?_⟩
    · rw [UInt32.lt_iff_toNat_lt] at hid
      obtain ⟨c, hc, hback⟩ := hctl id.toNat (by omega)
      have hget := mixerGetCtl_hw hid (by omega)
      exact ⟨_, c, hget, hget, hc, UInt32.toNat_inj.1 hback⟩
    · cases k with
      | hw =>
        obtain ⟨c', hc', hback⟩ := hctl i hlt
        obtain rfl : c' = c := Option.some.inj (hc'.symm.trans hc)
        have hin : i < w'.mixer.totalCount.toNat := htotal ▸ hlt
        rw [← hback] at hin
        rw [mixerGetCtl_hw hin (by rw [hback]; exact hlt), hback]
        rfl
      | plug =>
        have hz : mixerGrpGetCount w'.heap (w'.mixer.ptr .plug) = 0 := hv
        rw [hz] at hlt
        exact absurd hlt (Nat.not_lt_zero i)

theorem cardOps_numbers : NumbersFromOne cardOps fun c => c.names.length.toUInt32 where
  counted := fun _ _ _ => rfl
  numbered := by
    intro l c i _ hspace hlt
    have hlen : l.offset.toNat + i < c.names.length := by
      rw [Nat.toUInt32_eq, UInt32.toNat_ofNat'] at hlt
      exact hlt.trans_le (Nat.mod_le _ _)
    have hfit := c.names.length.toUInt32.toNat_lt
    show (if i < l.space.toNat ∧ l.offset.toNat + i < c.names.length then _ else _ : SndCtlElemId).numid.toNat = _
    rw [if_pos ⟨hspace, hlen⟩, Nat.toUInt32_eq, UInt32.toNat_ofNat']
    exact Nat.mod_eq_of_lt (by omega)
  described := by
    intro e c _
    unfold cardOps
    simp only
    split
    · split <;> rfl
    · rfl
  listKeeps := fun _ _ => rfl
  infoKeeps := by
    intro e c
    unfold cardOps
    simp only
    split
    · split <;> rfl
    · rfl

/-- A card with a control and the plugin `p`, before they are opened. -/
def unopenedBoth (p : MixerPlugin) : MixWorld Card MixerPlugin :=
  { hw := { names := [[86]] }, plug := p, alloc := fun _ => true }

theorem mixerCtlGetId_roundTrips_card :
    IdsRoundTrip (exec (mixerOpen (withPlugin cardOps 0)) (unopenedBoth noControls)).2 := by
  have hset : ∀ e ∈ (exec (mixerOpen (withPlugin cardOps 0)) (unopenedBoth noControls)).2.log, ¬ e.setupFails := by
    decide +kernel
  have hret : (exec (mixerOpen (withPlugin cardOps 0)) (unopenedBoth noControls)).1 = true := by decide +kernel
  have hnone : mixerGrpGetCount (exec (mixerOpen (withPlugin cardOps 0)) (unopenedBoth noControls)).2.heap
      (exec (mixerOpen (withPlugin cardOps 0)) (unopenedBoth noControls)).2.mixer.vGrp = 0 := by decide +kernel
  rw [mixerCtlGetId_roundTrips_iff cardOps_numbers ⟨rfl, Nat.one_pos, rfl⟩ (fun _ => rfl) hset hret]
  exact hnone

/-- The id of the first plugin control is no id at all. -/
theorem mixerCtlGetId_roundTrips_not :
    (exec (mixerOpen (withPlugin cardOps 0)) (unopenedBoth oneControl)).1 = true ∧
      ¬ IdsRoundTrip (exec (mixerOpen (withPlugin cardOps 0)) (unopenedBoth oneControl)).2 := by
  refine ⟨by decide +kernel, fun h => ?_⟩
  obtain ⟨p, c, hp, -, hc, hid⟩ := h.found 1 (by decide +kernel)
  have hget : (mixerGetCtl (exec (mixerOpen (withPlugin cardOps 0)) (unopenedBoth oneControl)).2.mixer
      (exec (mixerOpen (withPlugin cardOps 0)) (unopenedBoth oneControl)).2.heap 1).bind (fun p =>
        (derefCtl (exec (mixerOpen (withPlugin cardOps 0)) (unopenedBoth oneControl)).2.heap p).map mixerCtlGetId) =
      some 0xFFFFFFFF := by decide +kernel
  rw [hp, Option.bind_some, hc, Option.map_some, hid] at hget
  exact absurd hget (by decide)

end

end Tinyalsa
