/-
Adding controls to a group (`add_controls`) over a backend that follows the protocol of control lists and
whose list grows at its end: a call only extends the group, and a later call resumes where one failed.
-/
import Tinyalsa.Lib.Run
import Tinyalsa.Mixer.Group

namespace Tinyalsa

open Hoare

/-! ## Lists of controls -/

/-- A backend with the list `list` of controls, which grows at its end only, also while it is asked. It may fail
at any request; where it does not, it follows the protocol. -/
structure FollowsList {δ : Type} (ops : MixerOps δ) (list : δ → List SndCtlElemInfo) : Prop where
  listGrows : ∀ l d, list d <+: list (ops.elemList l d).2.2
  infoGrows : ∀ i d, list d <+: list (ops.elemInfo i d).2.2
  /-- A list request tells how many controls there are. -/
  counts : ∀ l d, 0 ≤ (ops.elemList l d).1 → (ops.elemList l d).2.1.count.toNat = (list d).length
  /-- It numbers the controls from the offset on, as far as there is space. -/
  numbers : ∀ l d i e, 0 ≤ (ops.elemList l d).1 → i < l.space.toNat → (list d)[l.offset.toNat + i]? = some e →
    ((ops.elemList l d).2.1.pids i).numid = e.id.numid
  /-- An empty control is filled with what the list has under its number. -/
  fills : ∀ numid d e, 0 ≤ (ops.elemInfo (({} : MixerCtl).request numid) d).1 → e ∈ list d → e.id.numid = numid →
    (ops.elemInfo (({} : MixerCtl).request numid) d).2.1 = e

/-- The group holds the first controls of the list, in the list's order and each of them filled in and linked. -/
structure HoldsFirst {δ : Type} (list : δ → List SndCtlElemInfo) (mixer grp : Addr) (s : ScanState δ) : Prop where
  allocated : s.grp.count.toNat ≤ s.grp.allocated
  ctl : ∀ i, i < s.grp.count.toNat → ∃ e, (list s.dev)[i]? = some e ∧ s.grp.ctl i = ⟨mixer, e, grp⟩
  le : s.grp.count.toNat ≤ (list s.dev).length

/-- A call that made the steps `new` extended the group, up to the whole list unless a step failed. -/
structure Extended {δ : Type} (list : δ → List SndCtlElemInfo) (mixer grp : Addr) (s : ScanState δ)
    (r : Int × ScanState δ) (new : List ScanCall) : Prop where
  kept : ∀ i, i < s.grp.count.toNat → r.2.grp.ctl i = s.grp.ctl i
  grows : s.grp.count ≤ r.2.grp.count
  total : r.2.totalCount = s.totalCount + (r.2.grp.count - s.grp.count)
  holds : HoldsFirst list mixer grp r.2
  devGrows : list s.dev <+: list r.2.dev
  calls : r.2.calls = new ++ s.calls
  ret : r.1 = 0 ∧ (∀ c ∈ new, ¬ c.fails) ∧ r.2.grp.count.toNat = (list s.dev).length ∨
    r.1 = -1 ∧ ∃ c ∈ new, c.fails

section

variable {δ : Type} {ops : MixerOps δ} {list : δ → List SndCtlElemInfo} {mixer grp : Addr}

theorem getElem?_extended {xs ys : List SndCtlElemInfo} (h : xs <+: ys) {i : Nat} {e : SndCtlElemInfo}
    (he : xs[i]? = some e) : ys[i]? = some e := by
  obtain ⟨zs, rfl⟩ := h
  rw [List.getElem?_append_left (List.getElem?_eq_some_iff.1 he).1]
  exact he

/-- A group keeps holding the first controls of a list that grows. -/
theorem HoldsFirst.grow {s s' : ScanState δ} (h : HoldsFirst list mixer grp s) (hgrp : s'.grp = s.grp)
    (hlist : list s.dev <+: list s'.dev) : HoldsFirst list mixer grp s' := by
  refine ⟨hgrp ▸ h.allocated, fun i hi => ?_, hgrp ▸ h.le.trans hlist.length_le⟩
  rw [hgrp] at hi ⊢
  obtain ⟨e, he, hctl⟩ := h.ctl i hi
  exact ⟨e, getElem?_extended hlist he, hctl⟩

/-- The numbers of the second request are those of the controls the group does not have yet, and each of these
is filled with what the list has in its place. -/
theorem FollowsList.described (hb : FollowsList ops list) {s : ScanState δ} {d : δ} (hd : list s.dev <+: list d)
    (hlisted : 0 ≤ (ops.elemList {} s.dev).1)
    (hnumbered : 0 ≤ (ops.elemList (secondList s.grp.count (ops.elemList {} s.dev).2.1) d).1) {i : Nat} {c : MixerCtl}
    (hold : s.grp.count.toNat ≤ i) (hlt : i < (list s.dev).length)
    (hc : Described ops (list s.dev <+: list ·) mixer grp
      ((ops.elemList (secondList s.grp.count (ops.elemList {} s.dev).2.1) d).2.1.pids
        (i - s.grp.count.toNat)).numid {} c) :
    ∃ e, (list s.dev)[i]? = some e ∧ c = ⟨mixer, e, grp⟩ := by
  obtain ⟨e, he⟩ : ∃ e, (list s.dev)[i]? = some e := ⟨_, List.getElem?_eq_getElem hlt⟩
  have hcount := hb.counts {} s.dev hlisted
  have hspace : (secondList s.grp.count (ops.elemList {} s.dev).2.1).space.toNat =
      (list s.dev).length - s.grp.count.toNat := by
    show ((ops.elemList {} s.dev).2.1.count - s.grp.count).toNat = _
    rw [UInt32.toNat_sub_of_le, hcount]
    rw [UInt32.le_iff_toNat_le, hcount]
    omega
  have hnum := hb.numbers _ d (i - s.grp.count.toNat) e hnumbered (by rw [hspace]; omega) (by
    show (list d)[s.grp.count.toNat + (i - s.grp.count.toNat)]? = _
    rw [Nat.add_sub_cancel' hold]
    exact getElem?_extended hd he)
  obtain ⟨d', hd', hret, rfl⟩ := hc
  rw [hnum] at hret ⊢
  rw [hb.fills _ d' e hret (List.mem_of_getElem? (getElem?_extended hd' he)) rfl]
  exact ⟨e, he, rfl⟩

/-- A call on a group that holds the first controls extends it. -/
theorem FollowsList.extended (hb : FollowsList ops list) {s : ScanState δ} (h : HoldsFirst list mixer grp s) :
    ∃ new, Extended list mixer grp s (exec (addControls ops mixer grp) s) new := by
  have hd₁ := hb.listGrows {} s.dev
  have hd₂ := hd₁.trans (hb.listGrows (secondList s.grp.count (ops.elemList {} s.dev).2.1) _)
  have hcount : 0 ≤ (ops.elemList {} s.dev).1 → (ops.elemList {} s.dev).2.1.count.toNat = (list s.dev).length :=
    hb.counts {} s.dev
  rcases addControls_cases ops mixer grp s with ⟨new, hexit⟩ | ⟨s₂, head, hentry, hexec⟩
  · -- an early exit: the group is as it was
    have hdev : list s.dev <+: list (exec (addControls ops mixer grp) s).2.dev := by
      rcases hexit.dev with h | h <;> rw [h] <;> assumption
    generalize exec (addControls ops mixer grp) s = r at *
    have hu := hexit.untouched
    refine ⟨new, hu.kept, by rw [hu.count]; exact UInt32.le_refl _,
      by rw [hu.total, hu.count, UInt32.sub_self, UInt32.add_zero],
      ⟨by rw [hu.count]; exact hu.fits h.allocated, fun i hi => ?_, by rw [hu.count]; exact h.le.trans hdev.length_le⟩,
      hdev, hexit.calls, ?_⟩
    · rw [hu.count] at hi
      rw [hu.kept i hi]
      obtain ⟨e, he, hctl⟩ := h.ctl i hi
      exact ⟨e, getElem?_extended hdev he, hctl⟩
    · by_cases hlisted : 0 ≤ (ops.elemList {} s.dev).1
      · rcases hexit.ret with ⟨hret, hnone, heq⟩ | ⟨hret, hfails | hless⟩
        · exact .inl ⟨hret, hnone, by rw [hu.count, heq, hcount hlisted]⟩
        · exact .inr ⟨hret, hfails⟩
        · -- a list that only grows has not lost the group's controls
          have hle := h.le
          rw [UInt32.lt_iff_toNat_lt, hcount hlisted] at hless
          omega
      · have hfails : ScanCall.fails (.elemList (ops.elemList {} s.dev).1) := decide_eq_true (not_le.1 hlisted)
        rcases hexit.ret with ⟨-, hnone, -⟩ | ⟨hret, -⟩
        · exact absurd hfails (hnone _ hexit.listed)
        · exact .inr ⟨hret, _, hexit.listed, hfails⟩
  · -- the loop ran, to its end or to a control that is refused
    have hold : s₂.grp.count = s.grp.count := by rw [hentry.grp]
    have hfirst := hcount hentry.listed
    obtain ⟨m, new, hdesc⟩ := describeControls_spec (D := (list s.dev <+: list ·)) mixer grp
      (fun i d hd => hd.trans (hb.infoGrows i d))
      (ops.elemList (secondList s.grp.count (ops.elemList {} s.dev).2.1) (ops.elemList {} s.dev).2.2).2.1.pids
      (ops.elemList {} s.dev).2.1.count (s := s₂) (by rw [hentry.dev]; exact hd₂) (by rw [hold]; exact hentry.more.le)
    rw [hexec]
    generalize exec (describeControls ops mixer grp _ _) s₂ = r at *
    have hkept : ∀ i, i < s.grp.count.toNat → r.2.grp.ctl i = s.grp.ctl i := by
      intro i hi
      rw [hdesc.kept i (by rwa [hold]), hentry.grp]
      exact if_pos hi
    have hbound := hdesc.bound
    rw [hfirst] at hbound
    refine ⟨new ++ head, hkept, ?_, ?_, ⟨?_, fun i hi => ?_, ?_⟩, hdesc.dev, ?_, ?_⟩
    · rw [UInt32.le_iff_toNat_le, hdesc.count, ← hold]
      exact hdesc.grows
    · rw [hdesc.total, hentry.total, hold]
    · rw [hdesc.count, hdesc.allocated, hentry.grp]
      exact hdesc.bound
    · by_cases hi' : i < s.grp.count.toNat
      · rw [hkept i hi']
        obtain ⟨e, he, hctl⟩ := h.ctl i hi'
        exact ⟨e, getElem?_extended hdesc.dev he, hctl⟩
      · rw [hdesc.count] at hi
        have hnew : s₂.grp.ctl i = {} := by
          rw [hentry.grp]
          exact if_neg hi'
        have hc := hdesc.added i (by rw [hold]; omega) hi
        rw [hnew, hold] at hc
        obtain ⟨e, he, hctl⟩ := hb.described hd₁ hentry.listed hentry.numbered (by omega) (by omega) hc
        exact ⟨e, getElem?_extended hdesc.dev he, hctl⟩
    · rw [hdesc.count]
      exact hbound.trans hdesc.dev.length_le
    · rw [hdesc.calls, hentry.calls, List.append_assoc]
    · rcases hdesc.ret with ⟨hret, hm, hnone⟩ | ⟨hret, c, hc, hf⟩
      · refine .inl ⟨hret, fun c hc => ?_, by rw [hdesc.count, hm, hfirst]⟩
        rcases List.mem_append.1 hc with hc | hc
        · exact hnone c hc
        · exact hentry.succeeds c hc
      · exact .inr ⟨hret, c, List.mem_append_left _ hc, hf⟩

/-- A backend with fewer controls than the group is refused, and the group is left as it is. -/
theorem addControls_fewer {s : ScanState δ} (hlisted : 0 ≤ (ops.elemList {} s.dev).1)
    (hless : (ops.elemList {} s.dev).2.1.count < s.grp.count) :
    (exec (addControls ops mixer grp) s).1 = -1 ∧ (exec (addControls ops mixer grp) s).2.grp = s.grp ∧
      (exec (addControls ops mixer grp) s).2.totalCount = s.totalCount := by
  have hne : ¬ s.grp.count = (ops.elemList {} s.dev).2.1.count := (UInt32.ne_of_lt hless).symm
  have hgt : s.grp.count > (ops.elemList {} s.dev).2.1.count := hless
  simp only [addControls, exec_bind, exec_get, exec_ioctlElemList, if_neg (not_lt.2 hlisted), if_neg hne, if_pos hgt,
    exec_pure]
  exact ⟨trivial, trivial, trivial⟩

end

/-! ## Runs -/

/-- What happens to a group: its backend, the allocator and the mixer's count of all controls become different,
or its controls are added. -/
inductive GroupAct (δ : Type)
  | become (dev : δ) (alloc : Nat → Bool) (totalCount : UInt32)
  | addControls

section

variable {δ : Type} (ops : MixerOps δ) (list : δ → List SndCtlElemInfo) (mixer grp : Addr)

def groupStep (s : ScanState δ) : GroupAct δ → ScanState δ
  | .become dev alloc totalCount => { s with dev, alloc, totalCount }
  | .addControls => (exec (addControls ops mixer grp) s).2

/-- The list of a backend that becomes different has grown at its end. -/
def GrowsAtEnd (s : ScanState δ) : GroupAct δ → Prop
  | .become dev _ _ => list s.dev <+: list dev
  | .addControls => True

/-- No step of a call fails. -/
def FailureFree (s : ScanState δ) : Prop :=
  ∃ new, (exec (addControls ops mixer grp) s).2.calls = new ++ s.calls ∧ ∀ c ∈ new, ¬ c.fails

/-- Two groups hold the same controls. -/
def SameControls (g g' : MixerCtlGroup) : Prop := g.count = g'.count ∧ ∀ i, i < g.count.toNat → g.ctl i = g'.ctl i

end

section

open Run

variable {δ : Type} {ops : MixerOps δ} {list : δ → List SndCtlElemInfo} {mixer grp : Addr}

/-- Along a run a group holds the first controls of its backend. -/
theorem FollowsList.holds (hb : FollowsList ops list) {s : ScanState δ} (h : HoldsFirst list mixer grp s)
    {acts : List (GroupAct δ)} (hrun : Along (groupStep ops mixer grp) (GrowsAtEnd list) s acts) :
    HoldsFirst list mixer grp (acts.foldl (groupStep ops mixer grp) s) := by
  refine hrun.invariant (fun s a hs ha => ?_) h
  cases a with
  | become dev alloc totalCount => exact hs.grow rfl ha
  | addControls =>
    obtain ⟨new, hext⟩ := hb.extended hs
    exact hext.holds

/-- Two calls that complete their groups on the same list leave the same controls. -/
theorem HoldsFirst.same {s s' : ScanState δ} {xs : List SndCtlElemInfo} (h : HoldsFirst list mixer grp s)
    (h' : HoldsFirst list mixer grp s') (hxs : xs <+: list s.dev) (hxs' : xs <+: list s'.dev)
    (hcount : s.grp.count.toNat = xs.length) (hcount' : s'.grp.count.toNat = xs.length) :
    SameControls s.grp s'.grp := by
  refine ⟨UInt32.toNat_inj.1 (hcount.trans hcount'.symm), fun i hi => ?_⟩
  obtain ⟨e, he, hctl⟩ := h.ctl i hi
  obtain ⟨e', he', hctl'⟩ := h'.ctl i (by omega)
  have hx := List.getElem?_eq_getElem (l := xs) (i := i) (by omega)
  have heq : e = e' := by
    rw [getElem?_extended hxs hx] at he
    rw [getElem?_extended hxs' hx] at he'
    exact Option.some.inj (he.symm.trans he')
  rw [hctl, hctl', heq]

/-- Adding controls to a group, whatever failed before: each call extends the group; one that returns 0 leaves what
a call without failures leaves; and a backend that lost controls is refused. -/
theorem addControls_resumes (hb : FollowsList ops list) {s₀ : ScanState δ} (h0 : s₀.grp.count = 0)
    {acts : List (GroupAct δ)} (hrun : Along (groupStep ops mixer grp) (GrowsAtEnd list) s₀ acts) :
    let s := acts.foldl (groupStep ops mixer grp) s₀
    let r := exec (addControls ops mixer grp) s
    (∃ new, Extended list mixer grp s r new) ∧
      (r.1 = 0 → ∀ s₁, HoldsFirst list mixer grp s₁ → list s₁.dev = list s.dev → FailureFree ops mixer grp s₁ →
        SameControls r.2.grp (exec (addControls ops mixer grp) s₁).2.grp) ∧
      ∀ s₁, 0 ≤ (ops.elemList {} s₁.dev).1 → (ops.elemList {} s₁.dev).2.1.count < s₁.grp.count →
        (exec (addControls ops mixer grp) s₁).1 = -1 ∧ (exec (addControls ops mixer grp) s₁).2.grp = s₁.grp ∧
          (exec (addControls ops mixer grp) s₁).2.totalCount = s₁.totalCount := by
  intro s r
  have hstart : HoldsFirst list mixer grp s₀ := by
    have hz : s₀.grp.count.toNat = 0 := by rw [h0]; rfl
    exact ⟨by omega, fun i hi => by omega, by omega⟩
  obtain ⟨new, hext⟩ := hb.extended (hb.holds hstart hrun)
  refine ⟨⟨new, hext⟩, fun hret s₁ h₁ hlist hfree => ?_, fun s₁ => addControls_fewer⟩
  obtain ⟨new₁, hext₁⟩ := hb.extended h₁
  obtain ⟨new', hcalls, hnone⟩ := hfree
  have hcomplete : r.2.grp.count.toNat = (list s.dev).length := by
    rcases hext.ret with ⟨-, -, h⟩ | ⟨hneg, -⟩
    · exact h
    · exact absurd (hneg.symm.trans hret) (by decide)
  have hcomplete₁ : (exec (addControls ops mixer grp) s₁).2.grp.count.toNat = (list s₁.dev).length := by
    rcases hext₁.ret with ⟨-, -, h⟩ | ⟨-, c, hc, hf⟩
    · exact h
    · obtain rfl : new₁ = new' := List.append_cancel_right (hext₁.calls.symm.trans hcalls)
      exact absurd hf (hnone c hc)
  exact hext.holds.same hext₁.holds hext.devGrows (hlist ▸ hext₁.devGrows) hcomplete (by rw [hcomplete₁, hlist])

end

/-! ## A backend that fails on schedule -/

/-- A backend with controls numbered from 1 on; `failing` says which of the requests to come fail. -/
structure NumberedDev where
  controls : Nat
  failing : List Bool := []

/-- The control in a place of the list. -/
def numberedCtl (i : Nat) : SndCtlElemInfo := { id := { numid := (i + 1).toUInt32 }, type := .boolean, count := 1 }

def NumberedDev.list (d : NumberedDev) : List SndCtlElemInfo := (List.range d.controls).map numberedCtl

/-- The request at hand fails, or there are more controls than the request can count. -/
def NumberedDev.refuses (d : NumberedDev) : Prop := d.failing.head? = some true ∨ 2 ^ 32 ≤ d.controls

instance numberedDev_refuses (d : NumberedDev) : Decidable d.refuses :=
  inferInstanceAs (Decidable (d.failing.head? = some true ∨ 2 ^ 32 ≤ d.controls))

def numberedOps : MixerOps NumberedDev where
  openDev d := (3, d)
  closeDev d := d
  cardInfo d := (0, d)
  elemList l d := if d.refuses then (-eIo, l, { d with failing := d.failing.tail }) else
    (0, { l with count := d.controls.toUInt32, pids := fun i => (numberedCtl (l.offset.toNat + i)).id },
      { d with failing := d.failing.tail })
  elemInfo i d := if d.refuses then (-eIo, i, { d with failing := d.failing.tail }) else
    (0, { id := { numid := i.id.numid }, type := .boolean, count := 1 }, { d with failing := d.failing.tail })

theorem numberedOps_followsList : FollowsList numberedOps NumberedDev.list := by
  refine ⟨fun l d => ?_, fun i d => ?_, fun l d h => ?_, fun l d i e h _ he => ?_, fun numid d e h he hnum => ?_⟩
  · unfold numberedOps
    dsimp only
    split <;> exact List.prefix_rfl
  · unfold numberedOps
    dsimp only
    split <;> exact List.prefix_rfl
  all_goals
    unfold numberedOps at h ⊢
    dsimp only at h ⊢
    split at h
    · exact absurd h (show ¬ (0 : Int) ≤ -eIo by decide)
    rename_i hok
    rw [if_neg hok]
  · have hlt : d.controls < 2 ^ 32 := by
      unfold NumberedDev.refuses at hok
      omega
    simpa [NumberedDev.list, Nat.toUInt32, UInt32.toNat_ofNat'] using hlt
  · obtain ⟨hlt, heq⟩ := List.getElem?_eq_some_iff.1 he
    simp only [NumberedDev.list, List.getElem_map, List.getElem_range] at heq
    rw [← heq]
  · obtain ⟨k, -, rfl⟩ := List.mem_map.1 he
    rw [← hnum]
    rfl

/-- The second control fails at first; then a fourth one appears, and the rest is added. -/
theorem addControls_resumes_numbered :
    let s₀ : ScanState NumberedDev := ⟨⟨3, [false, false, false, true]⟩, fun _ => true, { kind := .hw }, 0, []⟩
    let s := [.addControls, .become ⟨4, []⟩ (fun _ => true) 9].foldl (groupStep numberedOps 1 2) s₀
    s.grp.count = 1 ∧ ∃ new, Extended NumberedDev.list 1 2 s (exec (addControls numberedOps 1 2) s) new := by
  refine ⟨by decide, (addControls_resumes numberedOps_followsList rfl ?_).1⟩
  refine Run.along_cons.2 ⟨trivial, Run.along_cons.2 ⟨?_, .nil⟩⟩
  exact ⟨[numberedCtl 3], by decide⟩

end Tinyalsa
