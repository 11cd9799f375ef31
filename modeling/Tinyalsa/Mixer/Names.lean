/-
Looking controls up by their name (`mixer_get_num_ctls_by_name`, `mixer_get_ctl_by_name` and its
variants): each scans the two groups with loops of its own, and they agree with the list of the
controls by their ids as long as the counts of the groups add up.
-/
import Tinyalsa.Mixer.Lookup

namespace Tinyalsa

open Hoare

/-! ## The lookups -/

/-- `strcmp(s, t) == 0`: the bytes in front of the terminators are the same. -/
def strEq (s t : CString) : Bool := s.takeWhile (· ≠ 0) = t.takeWhile (· ≠ 0)

/-- `!strcmp(name, (char*) ctl->info.id.name)`. -/
def MixerCtl.named (name : CString) (ctl : MixerCtl) : Bool := strEq name ctl.info.id.name

/-- `device == ctl->info.id.device`. -/
def MixerCtl.onDevice (device : UInt32) (ctl : MixerCtl) : Bool := device = ctl.info.id.device

/-- The loop that counts, with `rem` controls left from `n` on. -/
def countNamedLoop (name : CString) (ctl : Nat → MixerCtl) : Nat → Nat → UInt32 → UInt32
  | 0, _, count => count
  | rem + 1, n, count =>
    countNamedLoop name ctl rem (n + 1) (if (ctl n).named name then count + 1 else count)

/-- The loop that counts `index` down: the control it returns, or what is left of `index`. -/
def findNamedLoop (name : CString) (ctl : Nat → MixerCtl) : Nat → Nat → UInt32 → Option Nat × UInt32
  | 0, _, index => (none, index)
  | rem + 1, n, index =>
    if (ctl n).named name then
      if index = 0 then (some n, index) else findNamedLoop name ctl rem (n + 1) (index - 1)
    else findNamedLoop name ctl rem (n + 1) index

/-- The loop that looks for a name and a device. -/
def findDeviceLoop (name : CString) (device : UInt32) (ctl : Nat → MixerCtl) : Nat → Nat → Option Nat
  | 0, _ => none
  | rem + 1, n =>
    if (ctl n).named name && (ctl n).onDevice device then some n
    else findDeviceLoop name device ctl rem (n + 1)

section

variable (heap : Addr → Option MixerCtlGroup) (grp : Addr) (name : CString)

/-- `*grp`, where `grp` is not `NULL`. -/
def grpAt : MixerCtlGroup := (heap grp).getD { kind := .hw }

/-- The scan of one group that counts, where the mixer has the group. -/
def countInGrp (count : UInt32) : UInt32 :=
  if grp ≠ 0 then countNamedLoop name (grpAt heap grp).ctl (grpAt heap grp).count.toNat 0 count else count

/-- The scan of one group for an index. -/
def findInGrp (index : UInt32) : Option CtlPtr × UInt32 :=
  if grp ≠ 0 then
    let (found, index) := findNamedLoop name (grpAt heap grp).ctl (grpAt heap grp).count.toNat 0 index
    (found.map (CtlPtr.mk grp), index)
  else (none, index)

/-- The scan of one group for a device. -/
def findDeviceInGrp (device : UInt32) : Option CtlPtr :=
  if grp ≠ 0 then
    (findDeviceLoop name device (grpAt heap grp).ctl (grpAt heap grp).count.toNat 0).map (CtlPtr.mk grp)
  else none

end

section

variable (mixer : Mixer) (heap : Addr → Option MixerCtlGroup)

/-- `mixer_get_num_ctls_by_name`. -/
def mixerGetNumCtlsByName (name : Option CString) : UInt32 :=
  match name with
  | none => 0
  | some name => countInGrp heap mixer.vGrp name (countInGrp heap mixer.hGrp name 0)

/-- `mixer_get_ctl_by_name_and_index`. -/
def mixerGetCtlByNameAndIndex (name : Option CString) (index : UInt32) : Option CtlPtr :=
  match name with
  | none => none
  | some name =>
    match findInGrp heap mixer.hGrp name index with
    | (some ctl, _) => some ctl
    | (none, index) => (findInGrp heap mixer.vGrp name index).1

/-- `mixer_get_ctl_by_name`. -/
def mixerGetCtlByName (name : Option CString) : Option CtlPtr :=
  match name with
  | none => none
  | some name => mixerGetCtlByNameAndIndex mixer heap (some name) 0

/-- `mixer_get_ctl_by_name_and_device`. -/
def mixerGetCtlByNameAndDevice (name : Option CString) (device : UInt32) : Option CtlPtr :=
  match name with
  | none => none
  | some name =>
    match findDeviceInGrp heap mixer.hGrp name device with
    | some ctl => some ctl
    | none => findDeviceInGrp heap mixer.vGrp name device

end

/-! ## The loops -/

section

variable {name : CString} {ctl : Nat → MixerCtl}

theorem countNamedLoop_eq (name : CString) (ctl : Nat → MixerCtl) : ∀ (rem n : Nat) (count : UInt32),
    countNamedLoop name ctl rem n count =
      count + ((List.range' n rem).countP fun i => (ctl i).named name).toUInt32
  | 0, _, count => (UInt32.add_zero count).symm
  | rem + 1, n, count => by
    rw [countNamedLoop, countNamedLoop_eq name ctl rem (n + 1), List.range'_succ, List.countP_cons]
    split
    · rw [Nat.toUInt32_eq, Nat.toUInt32_eq, UInt32.ofNat_add, UInt32.add_assoc, UInt32.add_comm 1]
      rfl
    · rfl

/-- The loop returns the `index`-th control of that name, or counts `index` down by all there are. -/
theorem findNamedLoop_eq (name : CString) (ctl : Nat → MixerCtl) : ∀ (rem n : Nat) (index : UInt32),
    (findNamedLoop name ctl rem n index).1 =
        ((List.range' n rem).filter fun i => (ctl i).named name)[index.toNat]? ∧
      ((findNamedLoop name ctl rem n index).1 = none →
        (findNamedLoop name ctl rem n index).2.toNat =
          index.toNat - ((List.range' n rem).filter fun i => (ctl i).named name).length)
  | 0, _, _ => ⟨rfl, fun _ => rfl⟩
  | rem + 1, n, index => by
    rw [findNamedLoop, List.range'_succ]
    by_cases hn : (ctl n).named name
    · rw [if_pos hn, List.filter_cons_of_pos (p := fun i => (ctl i).named name) hn]
      by_cases hz : index = 0
      · rw [if_pos hz, hz]
        exact ⟨rfl, nofun⟩
      · have hpos : index.toNat ≠ 0 := fun h => hz (UInt32.toNat_inj.1 h)
        have hsub : (index - 1).toNat = index.toNat - 1 :=
          UInt32.toNat_sub_of_le _ _ (UInt32.le_iff_toNat_le.2 (Nat.one_le_iff_ne_zero.2 hpos))
        obtain ⟨hfound, hleft⟩ := findNamedLoop_eq name ctl rem (n + 1) (index - 1)
        rw [if_neg hz]
        refine ⟨?_, fun h => ?_⟩
        · obtain ⟨k, hk⟩ := Nat.exists_eq_succ_of_ne_zero hpos
          rw [hfound, hsub, hk]
          rfl
        · rw [hleft h, hsub, List.length_cons]
          omega
    · rw [if_neg hn, List.filter_cons_of_neg (p := fun i => (ctl i).named name) hn]
      exact findNamedLoop_eq name ctl rem (n + 1) index

theorem findDeviceLoop_eq (name : CString) (device : UInt32) (ctl : Nat → MixerCtl) : ∀ rem n : Nat,
    findDeviceLoop name device ctl rem n =
      (List.range' n rem).find? fun i => (ctl i).named name && (ctl i).onDevice device
  | 0, _ => rfl
  | rem + 1, n => by
    rw [findDeviceLoop, List.range'_succ, List.find?_cons, findDeviceLoop_eq name device ctl rem (n + 1)]
    cases (ctl n).named name && (ctl n).onDevice device <;> rfl

end

/-! ## Against the list of the ids -/

section

variable {η π : Type} {w : MixWorld η π}

/-- `mixer_get_ctl(0), mixer_get_ctl(1), ..., mixer_get_ctl(total_count - 1)`. -/
def ctlsById (w : MixWorld η π) : List CtlPtr :=
  (List.range w.mixer.totalCount.toNat).filterMap fun id => mixerGetCtl w.mixer w.heap id.toUInt32

/-- The control at `p` is there, and is one of those that `t` selects. -/
def ctlIs (heap : Addr → Option MixerCtlGroup) (t : MixerCtl → Bool) (p : CtlPtr) : Bool :=
  (derefCtl heap p).any t

/-- A control goes by the name; none goes by `NULL`. -/
def goesBy (name : Option CString) (ctl : MixerCtl) : Bool := name.any fun s => ctl.named s

/-- The lookups of a name describe the list of the ids. -/
structure LookupsAgree (w : MixWorld η π) (name : Option CString) : Prop where
  index : ∀ k : UInt32, mixerGetCtlByNameAndIndex w.mixer w.heap name k =
    ((ctlsById w).filter (ctlIs w.heap (goesBy name)))[k.toNat]?
  null : ∀ k : UInt32, mixerGetCtlByNameAndIndex w.mixer w.heap name k = none ↔
    mixerGetNumCtlsByName w.mixer w.heap name ≤ k
  first : mixerGetCtlByName w.mixer w.heap name = mixerGetCtlByNameAndIndex w.mixer w.heap name 0
  device : ∀ d : UInt32, mixerGetCtlByNameAndDevice w.mixer w.heap name d =
    (ctlsById w).find? (ctlIs w.heap fun c => goesBy name c && c.onDevice d)

/-- The controls of the group at `a`. -/
def grpCtls (heap : Addr → Option MixerCtlGroup) (a : Addr) : List CtlPtr :=
  (List.range (mixerGrpGetCount heap a).toNat).map (CtlPtr.mk a)

theorem ctlsById_eq (hi : MixerInv w) (hfit : hCount w + vCount w < 2 ^ 32) :
    ctlsById w = grpCtls w.heap w.mixer.hGrp ++ grpCtls w.heap w.mixer.vGrp := by
  have htotal : w.mixer.totalCount.toNat = hCount w + vCount w := hi.toNat_total.trans (Nat.mod_eq_of_lt hfit)
  have hid : ∀ n, n < hCount w + vCount w → n.toUInt32.toNat = n := by
    intro n hn
    rw [Nat.toUInt32_eq, UInt32.toNat_ofNat']
    exact Nat.mod_eq_of_lt (hn.trans hfit)
  unfold ctlsById grpCtls
  rw [htotal, List.range_add, List.filterMap_append, List.filterMap_map, ← List.filterMap_eq_map,
    ← List.filterMap_eq_map]
  congr 1
  · refine List.filterMap_congr fun n hn => ?_
    rw [List.mem_range] at hn
    have h := hid n (by omega)
    rw [mixerGetCtl_hw (by omega) (by omega), h]
    rfl
  · refine List.filterMap_congr fun n hn => ?_
    rw [List.mem_range] at hn
    have h := hid (hCount w + n) (by omega)
    have hplug : mixerGetCtl w.mixer w.heap (hCount w + n).toUInt32 =
        some ⟨w.mixer.vGrp, (hCount w + n).toUInt32.toNat - hCount w⟩ := (mixerGetCtl_plug hi (by omega) (by omega)).1
    rw [h, Nat.add_sub_cancel_left] at hplug
    exact hplug

/-- Where the counts add up to more than an `unsigned int`, the ids end within the hardware group. -/
theorem ctlsById_wrapped (hi : MixerInv w) (hwrap : 2 ^ 32 ≤ hCount w + vCount w) :
    w.mixer.totalCount.toNat < hCount w ∧
      ctlsById w = (List.range w.mixer.totalCount.toNat).map (CtlPtr.mk w.mixer.hGrp) := by
  have htotal := hi.toNat_total
  have hh : hCount w < 2 ^ 32 := (mixerGrpGetCount w.heap w.mixer.hGrp).toNat_lt
  have hv : vCount w < 2 ^ 32 := (mixerGrpGetCount w.heap w.mixer.vGrp).toNat_lt
  have hlt : w.mixer.totalCount.toNat < hCount w := by omega
  refine ⟨hlt, ?_⟩
  unfold ctlsById
  rw [← List.filterMap_eq_map]
  refine List.filterMap_congr fun n hn => ?_
  rw [List.mem_range] at hn
  have h : n.toUInt32.toNat = n := by
    rw [Nat.toUInt32_eq, UInt32.toNat_ofNat']
    exact Nat.mod_eq_of_lt (by omega)
  rw [mixerGetCtl_hw (by omega) (by omega), h]
  rfl

/-- The controls of the group at `a` that `t` selects. -/
def grpSelect (heap : Addr → Option MixerCtlGroup) (a : Addr) (t : MixerCtl → Bool) : List CtlPtr :=
  (grpCtls heap a).filter (ctlIs heap t)

theorem grpSelect_eq {heap : Addr → Option MixerCtlGroup} {a : Addr} {g : MixerCtlGroup} (hg : heap a = some g)
    (ha : a ≠ 0) (t : MixerCtl → Bool) :
    grpSelect heap a t = ((List.range' 0 g.count.toNat).filter fun i => t (g.ctl i)).map (CtlPtr.mk a) := by
  have hcount : mixerGrpGetCount heap a = g.count := by
    unfold mixerGrpGetCount
    rw [if_neg ha, hg]
    rfl
  have hctl : ∀ i, ctlIs heap t ⟨a, i⟩ = t (g.ctl i) := by
    intro i
    unfold ctlIs derefCtl
    rw [hg]
    rfl
  unfold grpSelect grpCtls
  rw [hcount, List.filter_map, List.range_eq_range']
  congr 1
  exact List.filter_congr fun i _ => hctl i

section

variable {heap : Addr → Option MixerCtlGroup} {a : Addr}

theorem countInGrp_eq (hl : a = 0 ∨ ∃ g, heap a = some g) (name : CString) (count : UInt32) :
    countInGrp heap a name count = count + (grpSelect heap a (MixerCtl.named name)).length.toUInt32 := by
  unfold countInGrp
  split
  · rename_i ha
    obtain ⟨g, hg⟩ := hl.resolve_left ha
    rw [show grpAt heap a = g by unfold grpAt; rw [hg]; rfl, countNamedLoop_eq, grpSelect_eq hg ha, List.length_map,
      List.countP_eq_length_filter]
  · rename_i ha
    rw [not_not.1 ha]
    exact (UInt32.add_zero count).symm

theorem findInGrp_eq (hl : a = 0 ∨ ∃ g, heap a = some g) (name : CString) (index : UInt32) :
    (findInGrp heap a name index).1 = (grpSelect heap a (MixerCtl.named name))[index.toNat]? ∧
      ((findInGrp heap a name index).1 = none →
        (findInGrp heap a name index).2.toNat =
          index.toNat - (grpSelect heap a (MixerCtl.named name)).length) := by
  unfold findInGrp
  split
  · rename_i ha
    obtain ⟨g, hg⟩ := hl.resolve_left ha
    obtain ⟨hfound, hleft⟩ := findNamedLoop_eq name g.ctl g.count.toNat 0 index
    rw [show grpAt heap a = g by unfold grpAt; rw [hg]; rfl, grpSelect_eq hg ha, List.length_map, List.getElem?_map]
    exact ⟨congrArg (Option.map (CtlPtr.mk a)) hfound, fun h => hleft (Option.map_eq_none_iff.1 h)⟩
  · rename_i ha
    rw [not_not.1 ha]
    exact ⟨rfl, fun _ => rfl⟩

theorem findDeviceInGrp_eq (hl : a = 0 ∨ ∃ g, heap a = some g) (name : CString) (device : UInt32) :
    findDeviceInGrp heap a name device =
      (grpSelect heap a fun c => c.named name && c.onDevice device).head? := by
  unfold findDeviceInGrp
  split
  · rename_i ha
    obtain ⟨g, hg⟩ := hl.resolve_left ha
    rw [show grpAt heap a = g by unfold grpAt; rw [hg]; rfl, findDeviceLoop_eq, grpSelect_eq hg ha, List.head?_map,
      List.head?_filter]
  · rename_i ha
    rw [not_not.1 ha]
    rfl

end

theorem MixerInv.grpLive (hi : MixerInv w) (k : GrpKind) : w.mixer.ptr k = 0 ∨ ∃ g, w.heap (w.mixer.ptr k) = some g :=
  (hi.live k).imp_right fun ⟨g, hg, _⟩ => ⟨g, hg⟩

/-- The controls that `t` selects, in the order of the groups. -/
def mixerSelect (w : MixWorld η π) (t : MixerCtl → Bool) : List CtlPtr :=
  grpSelect w.heap w.mixer.hGrp t ++ grpSelect w.heap w.mixer.vGrp t

theorem mixerGetCtlByNameAndIndex_eq (hi : MixerInv w) (name : CString) (k : UInt32) :
    mixerGetCtlByNameAndIndex w.mixer w.heap (some name) k = (mixerSelect w (MixerCtl.named name))[k.toNat]? := by
  obtain ⟨hfound, hleft⟩ := findInGrp_eq (hi.grpLive .hw) name k
  simp only [Mixer.ptr] at hfound hleft
  unfold mixerGetCtlByNameAndIndex mixerSelect
  dsimp only
  generalize findInGrp w.heap w.mixer.hGrp name k = r at *
  obtain ⟨found, index⟩ := r
  cases found with
  | some ctl =>
    obtain ⟨hlt, -⟩ := List.getElem?_eq_some_iff.1 hfound.symm
    rw [List.getElem?_append_left hlt]
    exact hfound
  | none =>
    have hge := List.getElem?_eq_none_iff.1 hfound.symm
    rw [List.getElem?_append_right hge]
    rw [← hleft rfl]
    exact (findInGrp_eq (hi.grpLive .plug) name index).1

theorem mixerGetCtlByNameAndDevice_eq (hi : MixerInv w) (name : CString) (d : UInt32) :
    mixerGetCtlByNameAndDevice w.mixer w.heap (some name) d =
      (mixerSelect w fun c => c.named name && c.onDevice d).head? := by
  have hh := findDeviceInGrp_eq (hi.grpLive .hw) name d
  have hv := findDeviceInGrp_eq (hi.grpLive .plug) name d
  simp only [Mixer.ptr] at hh hv
  unfold mixerGetCtlByNameAndDevice mixerSelect
  dsimp only
  rw [hh, hv, List.head?_append]
  cases (grpSelect w.heap w.mixer.hGrp _).head? <;> rfl

theorem mixerGetNumCtlsByName_eq (hi : MixerInv w) (name : CString) :
    mixerGetNumCtlsByName w.mixer w.heap (some name) = (mixerSelect w (MixerCtl.named name)).length.toUInt32 := by
  have hh := countInGrp_eq (hi.grpLive .hw) name 0
  have hv := countInGrp_eq (hi.grpLive .plug) name (countInGrp w.heap w.mixer.hGrp name 0)
  simp only [Mixer.ptr] at hh hv
  unfold mixerGetNumCtlsByName mixerSelect
  dsimp only
  rw [hv, hh, UInt32.zero_add, List.length_append, Nat.toUInt32_eq, Nat.toUInt32_eq, Nat.toUInt32_eq, UInt32.ofNat_add]

theorem goesBy_some (name : CString) : goesBy (some name) = MixerCtl.named name := rfl

/-- Counts that add up leave the lookups in agreement with the ids. -/
theorem lookupsAgree_of_fit (hi : MixerInv w) (hfit : hCount w + vCount w < 2 ^ 32) (name : Option CString) :
    LookupsAgree w name := by
  have hlist : ∀ t, (ctlsById w).filter (ctlIs w.heap t) = mixerSelect w t := by
    intro t
    rw [ctlsById_eq hi hfit, List.filter_append]
    rfl
  cases name with
  | none =>
    have hnone : ∀ l : List CtlPtr, l.filter (ctlIs w.heap (goesBy none)) = [] := by
      intro l
      refine List.filter_eq_nil_iff.2 fun p _ => ?_
      unfold ctlIs
      cases derefCtl w.heap p <;> exact nofun
    refine ⟨fun k => ?_, fun k => iff_of_true rfl (UInt32.zero_le), rfl, fun d => ?_⟩
    · rw [hnone]
      rfl
    · refine (List.find?_eq_none.2 fun p _ => ?_).symm
      unfold ctlIs
      cases derefCtl w.heap p <;> exact nofun
  | some name =>
    refine ⟨fun k => ?_, fun k => ?_, rfl, fun d => ?_⟩
    · rw [hlist, goesBy_some, mixerGetCtlByNameAndIndex_eq hi]
    · have hle : (mixerSelect w (MixerCtl.named name)).length ≤ hCount w + vCount w := by
        rw [← hlist]
        refine (List.length_filter_le _ _).trans_eq ?_
        rw [ctlsById_eq hi hfit, List.length_append, grpCtls, grpCtls, List.length_map, List.length_map,
          List.length_range, List.length_range]
      have hlen : (mixerSelect w (MixerCtl.named name)).length.toUInt32.toNat =
          (mixerSelect w (MixerCtl.named name)).length := by
        rw [Nat.toUInt32_eq, UInt32.toNat_ofNat']
        exact Nat.mod_eq_of_lt (hle.trans_lt hfit)
      rw [mixerGetCtlByNameAndIndex_eq hi, mixerGetNumCtlsByName_eq hi, List.getElem?_eq_none_iff,
        UInt32.le_iff_toNat_le, hlen]
    · rw [mixerGetCtlByNameAndDevice_eq hi, ← List.head?_filter, hlist]
      rfl

/-- Where they do not, the first hardware control without an id is found by its name all the same. -/
theorem not_lookupsAgree_of_wrap (hi : MixerInv w) (hwrap : 2 ^ 32 ≤ hCount w + vCount w) :
    ∃ name, ¬ LookupsAgree w (some name) := by
  obtain ⟨hlt, hlist⟩ := ctlsById_wrapped hi hwrap
  have ha : w.mixer.hGrp ≠ 0 := by
    intro hz
    have h0 : hCount w = 0 := congrArg UInt32.toNat (if_pos hz)
    omega
  obtain ⟨g, hg⟩ := (hi.grpLive .hw).resolve_left ha
  refine ⟨(g.ctl w.mixer.totalCount.toNat).info.id.name, fun h => ?_⟩
  generalize hname : (g.ctl w.mixer.totalCount.toNat).info.id.name = name at h
  have hself : ctlIs w.heap (MixerCtl.named name) ⟨w.mixer.hGrp, w.mixer.totalCount.toNat⟩ := by
    unfold ctlIs derefCtl
    rw [show w.heap w.mixer.hGrp = some g from hg]
    exact decide_eq_true (by rw [hname])
  -- `hits` controls of that name have an id; the one behind them has none
  obtain ⟨hits, hhits⟩ : ∃ l, l = (ctlsById w).filter (ctlIs w.heap (MixerCtl.named name)) := ⟨_, rfl⟩
  have hshort : hits.length < 2 ^ 32 := by
    have hle : hits.length ≤ w.mixer.totalCount.toNat := by
      rw [hhits]
      refine (List.length_filter_le _ _).trans_eq ?_
      rw [hlist, List.length_map, List.length_range]
    exact hle.trans_lt w.mixer.totalCount.toNat_lt
  have hk : hits.length.toUInt32.toNat = hits.length := by
    rw [Nat.toUInt32_eq, UInt32.toNat_ofNat']
    exact Nat.mod_eq_of_lt hshort
  have hindex := h.index hits.length.toUInt32
  obtain ⟨rest, hrest⟩ := Nat.exists_eq_add_of_lt hlt
  have hsplit : mixerSelect w (MixerCtl.named name) = hits ++ ⟨w.mixer.hGrp, w.mixer.totalCount.toNat⟩ ::
      (((List.range rest).map fun i => ⟨w.mixer.hGrp, w.mixer.totalCount.toNat + 1 + i⟩).filter
        (ctlIs w.heap (MixerCtl.named name)) ++ grpSelect w.heap w.mixer.vGrp (MixerCtl.named name)) := by
    unfold mixerSelect
    conv_lhs => rw [grpSelect]
    unfold grpCtls
    rw [show (mixerGrpGetCount w.heap w.mixer.hGrp).toNat = w.mixer.totalCount.toNat + 1 + rest by
      exact hrest.trans (by omega), List.range_add, List.range_succ, List.map_append, List.map_append,
      List.filter_append, List.filter_append, ← hlist, ← hhits, List.map_cons, List.map_nil,
      List.filter_cons_of_pos hself, List.filter_nil, List.map_map, List.append_assoc, List.append_assoc]
    rfl
  rw [goesBy_some, ← hhits, hk, mixerGetCtlByNameAndIndex_eq hi, hk, hsplit, List.getElem?_append_right le_rfl,
    Nat.sub_self, List.getElem?_eq_none_iff.2 (le_refl hits.length)] at hindex
  cases hindex

/-- The lookups by name agree with the ids just when the counts of the groups add up. -/
theorem mixerGetCtlByName_agrees_iff (hi : MixerInv w) :
    (∀ name, LookupsAgree w name) ↔ hCount w + vCount w < 2 ^ 32 := by
  refine ⟨fun h => ?_, lookupsAgree_of_fit hi⟩
  by_contra hwrap
  obtain ⟨name, hnot⟩ := not_lookupsAgree_of_wrap hi (Nat.le_of_not_lt hwrap)
  exact hnot (h _)

/-- A card with two controls and a plugin with one, all of the same name. -/
def unopenedAlike : MixWorld Card MixerPlugin :=
  { hw := { names := [[65], [65]] }, plug := oneControl, alloc := fun _ => true }

theorem mixerGetCtlByName_agrees_alike :
    MixerInv (exec (mixerOpen (withPlugin cardOps 0)) unopenedAlike).2 ∧
      ∀ name, LookupsAgree (exec (mixerOpen (withPlugin cardOps 0)) unopenedAlike).2 name := by
  have hfresh : Fresh unopenedAlike := ⟨rfl, Nat.one_pos, rfl⟩
  have hset : ∀ e ∈ (exec (mixerOpen (withPlugin cardOps 0)) unopenedAlike).2.log, ¬ e.setupFails := by
    decide +kernel
  have hret : (exec (mixerOpen (withPlugin cardOps 0)) unopenedAlike).1 = true := by decide +kernel
  have hi := (hfresh.opened hret hset).1
  have hcounts : mixerGrpGetCount (exec (mixerOpen (withPlugin cardOps 0)) unopenedAlike).2.heap
        (exec (mixerOpen (withPlugin cardOps 0)) unopenedAlike).2.mixer.hGrp = 2 ∧
      mixerGrpGetCount (exec (mixerOpen (withPlugin cardOps 0)) unopenedAlike).2.heap
        (exec (mixerOpen (withPlugin cardOps 0)) unopenedAlike).2.mixer.vGrp = 1 := by decide +kernel
  refine ⟨hi, ?_⟩
  rw [mixerGetCtlByName_agrees_iff hi, hCount, vCount, hcounts.1, hcounts.2]
  decide

/-- A hardware group of `2 ^ 32 - 1` controls and a plugin group of one. -/
def crowdedCard : MixWorld Card MixerPlugin where
  hw := {}
  plug := oneControl
  alloc := fun _ => true
  mixer := { hGrp := 2, vGrp := 3 }
  self := 1
  heap := fun a =>
    if a = 2 then
      some { kind := .hw, ctl := fun _ => { mixer := 1, grp := 2 }, allocated := 4294967295, count := 0xFFFFFFFF }
    else if a = 3 then some { kind := .plug, ctl := fun _ => { mixer := 1, grp := 3 }, allocated := 1, count := 1 }
    else none
  isOpen := fun _ => true

theorem crowdedCard_inv : MixerInv crowdedCard where
  live := by
    intro k
    refine .inr ?_
    cases k with
    | hw => exact ⟨_, rfl, rfl, rfl, by decide +kernel, fun _ _ => ⟨rfl, rfl⟩⟩
    | plug => exact ⟨_, rfl, rfl, rfl, by decide +kernel, fun _ _ => ⟨rfl, rfl⟩⟩
  total := by decide +kernel

/-- Their total wraps to 0, and a lookup by name finds what no id does. -/
theorem mixerGetCtlByName_agrees_not : MixerInv crowdedCard ∧ ¬ ∀ name, LookupsAgree crowdedCard name := by
  refine ⟨crowdedCard_inv, fun h => ?_⟩
  obtain ⟨name, hnot⟩ := not_lookupsAgree_of_wrap crowdedCard_inv (by decide +kernel)
  exact hnot (h _)

end

end Tinyalsa
