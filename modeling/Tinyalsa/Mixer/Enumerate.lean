/-
Enumerating the controls of a plugin whose table grows (`mixer_add_new_ctls` over
`mixer_plug_get_elem_list`). The plugin ignores the offset of a list request, so the group follows
the table exactly as long as every scan starts from an empty or from a complete group.
-/
import Tinyalsa.Mixer.Opening
import Tinyalsa.Mixer.Plugin

namespace Tinyalsa

open Hoare

/-! ## Growing tables -/

/-- A control may change what it shows, but not what it is. -/
structure SameControl (c c' : SndControl) : Prop where
  iface : c'.iface = c.iface
  name : c'.name = c.name
  type : c'.type = c.type
  access : c'.access = c.access
  count : c'.elemCount = c.elemCount

/-- The table `p'` extends the table `p` at its end. -/
def MixerPlugin.Grows (p p' : MixerPlugin) : Prop :=
  ∀ (i : Nat) (c : SndControl), p.controls[i]? = some c → ∃ c', p'.controls[i]? = some c' ∧ SameControl c c'

/-- The group holds the first controls of the table, in the table's order. -/
def Enumerates (p : MixerPlugin) (g : MixerCtlGroup) : Prop :=
  ∀ i, i < g.count.toNat → ∃ c, p.controls[i]? = some c ∧ DescribesControl (g.ctl i).info i c

/-- Every group of plugin controls on the heap holds the first controls of the table. -/
def TableDescribed (p : MixerPlugin) (heap : Addr → Option MixerCtlGroup) : Prop :=
  ∀ a g, heap a = some g → g.kind = .plug → Enumerates p g

theorem DescribesControl.same {info : SndCtlElemInfo} {i : Nat} {c c' : SndControl} (h : DescribesControl info i c)
    (hs : SameControl c c') : DescribesControl info i c' :=
  ⟨h.numid, h.iface.trans hs.iface.symm, by rw [h.name, hs.name], h.type.trans hs.type.symm,
    h.access.trans hs.access.symm, h.count.trans hs.count.symm⟩

theorem MixerPlugin.Grows.enumerates {p p' : MixerPlugin} (hp : p.Grows p') {g : MixerCtlGroup} (h : Enumerates p g) :
    Enumerates p' g := by
  intro i hi
  obtain ⟨c, hc, hd⟩ := h i hi
  obtain ⟨c', hc', hs⟩ := hp i c hc
  exact ⟨c', hc', hd.same hs⟩

theorem TableDescribed.update {p : MixerPlugin} {heap : Addr → Option MixerCtlGroup} (h : TableDescribed p heap)
    (a : Addr) {g : Option MixerCtlGroup} (hg : ∀ g', g = some g' → g'.kind = .plug → Enumerates p g') :
    TableDescribed p (Function.update heap a g) := by
  intro a' g' ha' hk
  rcases eq_or_ne a' a with rfl | hne
  · rw [Function.update_self] at ha'
    exact hg g' ha' hk
  · rw [Function.update_of_ne hne] at ha'
    exact h a' g' ha' hk

/-! ## One scan -/

/-- A scan of the plugin asks for the numbers from the group's count on, and describes the controls from
the first one on. -/
structure PlugScan (p : MixerPlugin) (g g' : MixerCtlGroup) (ret : Int) : Prop where
  kind : g'.kind = g.kind
  kept : ∀ i, i < g.count.toNat → g'.ctl i = g.ctl i
  described : ∀ i, g.count.toNat ≤ i → i < g'.count.toNat →
    ∃ c, p.controls[i - g.count.toNat]? = some c ∧ DescribesControl (g'.ctl i).info (i - g.count.toNat) c
  result : ret = 0 ∨ ret = -1
  grows : g.count.toNat ≤ g'.count.toNat
  complete : ret = 0 → g'.count = p.numControls
  bound : g.count.toNat < g'.count.toNat → g'.count.toNat ≤ p.controls.length

theorem addControls_plugScan (load : Int) (mixer grp : Addr) (s : ScanState MixerPlugin) :
    (exec (addControls (mixerPlugOps load) mixer grp) s).2.dev = s.dev ∧
      PlugScan s.dev s.grp (exec (addControls (mixerPlugOps load) mixer grp) s).2.grp
        (exec (addControls (mixerPlugOps load) mixer grp) s).1 := by
  obtain ⟨eid, m, new, h⟩ := addControls_spec (D := fun p => p = s.dev) (mixerPlugOps load) mixer grp
    (fun _ _ hd => hd) (fun _ _ hd => hd) s rfl
  generalize exec (addControls (mixerPlugOps load) mixer grp) s = r at *
  -- the first answer says how long the table is
  have hfirst : ((mixerPlugOps load).elemList {} s.dev).2.1.count = s.dev.numControls :=
    (mixerPlugGetElemList_numbers (Nat.zero_le _)).2.1
  refine ⟨h.spec.dev, h.spec.kind, h.spec.kept, fun i h₁ h₂ => ?_, h.ret, by rw [h.spec.count]; exact h.spec.grows,
    fun h0 => ?_, fun hlt => ?_⟩
  · rw [h.spec.count] at h₂
    have hlt : s.grp.count.toNat < m := by omega
    have hbound := h.bound hlt
    obtain ⟨d, rfl, -, heid⟩ := h.numbers hlt
    rw [hfirst, MixerPlugin.toNat_numControls] at hbound
    have hspace : (s.dev.numControls - s.grp.count).toNat = s.dev.controls.length - s.grp.count.toNat := by
      rw [UInt32.toNat_sub_of_le, MixerPlugin.toNat_numControls]
      rw [UInt32.le_iff_toNat_le, MixerPlugin.toNat_numControls]
      omega
    have hasked : (secondList s.grp.count ((mixerPlugOps load).elemList {} s.dev).2.1).space.toNat =
        s.dev.controls.length - s.grp.count.toNat := by
      show (((mixerPlugOps load).elemList {} s.dev).2.1.count - s.grp.count).toNat = _
      rw [hfirst, hspace]
    have hnum : (eid (i - s.grp.count.toNat)).numid.toNat = i - s.grp.count.toNat := by
      rw [heid]
      exact (mixerPlugGetElemList_numbers (by omega)).2.2 _ (by omega)
    obtain ⟨d, rfl, hret, hctl⟩ := h.spec.added i h₁ h₂
    obtain ⟨c, hc, hdesc⟩ := mixerPlugGetElemInfo_describes hret
    have hreq : (({} : MixerCtl).request (eid (i - s.grp.count.toNat)).numid).id.numid.toNat =
      i - s.grp.count.toNat := hnum
    rw [hreq] at hc hdesc
    rw [hctl]
    exact ⟨c, hc, hdesc⟩
  · rw [← UInt32.toNat_inj, h.spec.count, h.complete h0, hfirst]
  · rw [h.spec.count] at hlt ⊢
    have hbound := h.bound hlt
    rwa [hfirst, MixerPlugin.toNat_numControls] at hbound

/-- A scan that starts at the first control, or finds nothing new, keeps the table's order. -/
theorem PlugScan.enumerates {p : MixerPlugin} {g g' : MixerCtlGroup} {ret : Int} (h : PlugScan p g g' ret)
    (he : Enumerates p g) (hs : g.count = 0 ∨ g.count = p.numControls) : Enumerates p g' := by
  intro i hi
  by_cases hold : i < g.count.toNat
  · rw [h.kept i hold]
    exact he i hold
  · rcases hs with h0 | hsame
    · obtain ⟨c, hc, hd⟩ := h.described i (by omega) hi
      rw [h0] at hc hd
      exact ⟨c, hc, hd⟩
    · have hbound := h.bound (by omega)
      rw [hsame, MixerPlugin.toNat_numControls] at hold
      omega

/-- Any other scan describes the first control once more. -/
theorem PlugScan.duplicates {p : MixerPlugin} {g g' : MixerCtlGroup} {ret : Int} (h : PlugScan p g g' ret)
    (h0 : g.count ≠ 0) (hlt : g.count.toNat < g'.count.toNat) : ¬ Enumerates p g' := by
  intro he
  obtain ⟨c, -, hd⟩ := he g.count.toNat hlt
  obtain ⟨c', -, hd'⟩ := h.described g.count.toNat le_rfl hlt
  have hz := hd.numid.symm.trans hd'.numid
  rw [Nat.sub_self] at hz
  exact h0 (UInt32.toNat_inj.1 hz)

/-! ## The functions of a mixer -/

section

variable {η : Type} {hw : MixerOps η} {load : Int} {w : MixWorld η MixerPlugin} {a : Addr}

/-- The backends of a card with a plugin. -/
def withPlugin (hw : MixerOps η) (load : Int) : MixBackends η MixerPlugin := ⟨hw, mixerPlugOps load⟩

/-- A fact about the plugin and the groups that holds of new groups and is kept by a group's first scan. -/
structure GroupFact (b : MixBackends η MixerPlugin) (I : MixerPlugin → (Addr → Option MixerCtlGroup) → Prop) :
    Prop where
  free : ∀ p heap a, I p heap → I p (Function.update heap a none)
  new : ∀ p heap a k, I p heap → I p (Function.update heap a (some { kind := k }))
  scan : ∀ w a g, w.heap a = some g → g.count = 0 → I w.plug w.heap →
    I (exec (addControlsTo b a) w).2.plug (exec (addControlsTo b a) w).2.heap

/-- A fact about groups holds of every mixer that was opened. -/
theorem GroupFact.opened {I : MixerPlugin → (Addr → Option MixerCtlGroup) → Prop} (h : GroupFact (withPlugin hw load) I)
    (hI : I w.plug w.heap) :
    I (exec (mixerOpen (withPlugin hw load)) w).2.plug (exec (mixerOpen (withPlugin hw load)) w).2.heap :=
  OpeningFact.mixerOpen (I := I) ⟨fun _ _ h => h, fun _ _ h => h, fun _ _ h => h, h.free, h.new, h.scan⟩ w hI

/-- A scan that starts clean keeps the description of the table. -/
theorem addControlsTo_described (hw : MixerOps η) (load : Int) {g : MixerCtlGroup} (hg : w.heap a = some g)
    (h : TableDescribed w.plug w.heap)
    (hs : g.kind = .plug → g.count = 0 ∨ g.count = w.plug.numControls) :
    TableDescribed (exec (addControlsTo (withPlugin hw load) a) w).2.plug
      (exec (addControlsTo (withPlugin hw load) a) w).2.heap := by
  cases hk : g.kind with
  | hw =>
    have hgrow := (groupGrows hw w.self a (s := scanState w.hw g w) rfl).1
    rw [exec_addControlsTo_hw hg hk]
    refine h.update a fun g' hg' hk' => ?_
    obtain rfl := Option.some.inj hg'
    rw [show (withPlugin hw load).hw = hw from rfl, hgrow.kind] at hk'
    exact absurd (hk.symm.trans hk') nofun
  | plug =>
    obtain ⟨hdev, hscan⟩ := addControls_plugScan load w.self a (scanState w.plug g w)
    rw [exec_addControlsTo_plug hg hk]
    show TableDescribed (exec (addControls (mixerPlugOps load) w.self a) (scanState w.plug g w)).2.dev _
    rw [hdev]
    refine h.update a fun g' hg' _ => ?_
    obtain rfl := Option.some.inj hg'
    exact hscan.enumerates (h a g hg hk) (hs hk)

theorem tableDescribed_fact : GroupFact (withPlugin hw load) TableDescribed where
  free := fun p heap a h => h.update a nofun
  new := fun p heap a k h => h.update a fun g' hg' _ i hi => by
    obtain rfl := Option.some.inj hg'
    exact absurd hi (Nat.not_lt_zero i)
  scan := fun w a g hg h0 h => addControlsTo_described hw load hg h fun _ => .inl h0

end

/-! ## Runs -/

section

variable {η : Type} {hw : MixerOps η} {load : Int} {w : MixWorld η MixerPlugin}

/-- The plugin group is empty, or holds the whole table. -/
def ScanStartsClean (w : MixWorld η MixerPlugin) : Prop :=
  mixerGrpGetCount w.heap w.mixer.vGrp = 0 ∨ mixerGrpGetCount w.heap w.mixer.vGrp = w.plug.numControls

/-- The plugin group holds the whole table, in the table's order. -/
def EnumeratesAll (w : MixWorld η MixerPlugin) : Prop :=
  ∃ g, w.heap w.mixer.vGrp = some g ∧ g.count = w.plug.numControls ∧ Enumerates w.plug g

/-- A mixer is opened, its group set-ups succeed, and then the plugin's table grows and new controls are
added in any order; each scan starts clean. The hardware and the allocator do what they like. -/
inductive PluginRun (hw : MixerOps η) (load : Int) : MixWorld η MixerPlugin → Prop
  | opened {w : MixWorld η MixerPlugin} (hf : Fresh w) (hheap : ∀ a, w.heap a = none)
      (hset : ∀ e ∈ (exec (mixerOpen (withPlugin hw load)) w).2.log, ¬ e.setupFails)
      (hret : (exec (mixerOpen (withPlugin hw load)) w).1 = true) :
      PluginRun hw load (exec (mixerOpen (withPlugin hw load)) w).2
  | grows {w : MixWorld η MixerPlugin} (p : MixerPlugin) (d : η) (al : Nat → Bool) (h : PluginRun hw load w)
    (hg : w.plug.Grows p) :
      PluginRun hw load { w with plug := p, hw := d, alloc := al }
  | addNewCtls {w : MixWorld η MixerPlugin} (h : PluginRun hw load w) (hs : ScanStartsClean w) :
      PluginRun hw load (exec (mixerAddNewCtls (withPlugin hw load)) w).2

/-- What the scan of the hardware group leaves alone. -/
structure HwScanned (w w' : MixWorld η MixerPlugin) : Prop where
  plug : w'.plug = w.plug
  grp : w'.heap w.mixer.vGrp = w.heap w.mixer.vGrp
  vGrp : w'.mixer.vGrp = w.mixer.vGrp
  described : TableDescribed w.plug w.heap → TableDescribed w'.plug w'.heap

theorem rescanGrp_hwScanned (hw : MixerOps η) (load : Int) (hi : MixerInv w) :
    HwScanned w (exec (rescanGrp (withPlugin hw load) w.mixer.hGrp) w).2 := by
  rw [rescanGrp, exec_ite]
  split
  · rename_i hne
    obtain ⟨g, hg, hk, -⟩ := (hi.live .hw).resolve_left hne
    have hne' : w.mixer.vGrp ≠ w.mixer.hGrp := (hi.ptr_ne .hw .plug (by decide) hne).symm
    have hd := fun h : TableDescribed w.plug w.heap =>
      addControlsTo_described hw load hg h fun hk' => absurd (hk.symm.trans hk') (by decide)
    rw [Mixer.ptr] at hg hd
    rw [exec_addControlsTo_hw hg hk] at hd ⊢
    exact ⟨rfl, Function.update_of_ne hne' _ _, rfl, hd⟩
  · exact ⟨rfl, rfl, rfl, id⟩

/-- A call of `mixer_add_new_ctls` that returned `rc` and scanned the plugin group `g` into `g'`. -/
structure AddsToPlugGrp (w w' : MixWorld η MixerPlugin) (rc : Int) (g g' : MixerCtlGroup) : Prop where
  before : w.heap w.mixer.vGrp = some g
  after : w'.heap w'.mixer.vGrp = some g'
  plug : w'.plug = w.plug
  enumerates : Enumerates w.plug g
  scan : ∃ ret, PlugScan w.plug g g' ret ∧ (rc = 0 → ret = 0)
  described : (g.count = 0 ∨ g.count = w.plug.numControls) → TableDescribed w'.plug w'.heap

theorem exec_mixerAddNewCtls_fst (b : MixBackends η MixerPlugin) (h : (exec (mixerAddNewCtls b) w).1 = 0) :
    ¬ (exec (rescanGrp b w.mixer.vGrp) (exec (rescanGrp b w.mixer.hGrp) w).2).1 < 0 := by
  simp only [mixerAddNewCtls, exec_bind, exec_get, exec_ite, exec_pure] at h
  intro hneg
  split at h
  · rename_i hneg'
    rw [h] at hneg'
    exact absurd hneg' (lt_irrefl 0)
  · exact absurd (hneg.trans_eq h.symm) (lt_irrefl _)

theorem mixerAddNewCtls_scans (hw : MixerOps η) (load : Int) (hi : MixerInv w) (h : TableDescribed w.plug w.heap)
    (hv : w.mixer.vGrp ≠ 0) :
    ∃ g g', AddsToPlugGrp w (exec (mixerAddNewCtls (withPlugin hw load)) w).2
      (exec (mixerAddNewCtls (withPlugin hw load)) w).1 g g' := by
  have hret := exec_mixerAddNewCtls_fst (w := w) (withPlugin hw load)
  rw [exec_mixerAddNewCtls]
  have hs := rescanGrp_hwScanned hw load hi
  obtain ⟨g, hg, hk, -⟩ := (hi.live .plug).resolve_left hv
  rw [Mixer.ptr] at hg
  generalize exec (rescanGrp (withPlugin hw load) w.mixer.hGrp) w = r at *
  have hg₁ : r.2.heap w.mixer.vGrp = some g := hs.grp.trans hg
  obtain ⟨hdev, hscan⟩ := addControls_plugScan load r.2.self w.mixer.vGrp (scanState r.2.plug g r.2)
  have hdesc := addControlsTo_described hw load hg₁ (hs.described h)
  have hplug : (withPlugin hw load).plug = mixerPlugOps load := rfl
  rw [rescanGrp, if_pos hv, exec_addControlsTo_plug hg₁ hk, hplug] at hret ⊢
  rw [exec_addControlsTo_plug hg₁ hk, hplug] at hdesc
  generalize exec (addControls (mixerPlugOps load) r.2.self w.mixer.vGrp) (scanState r.2.plug g r.2) = q at *
  have hscan' : PlugScan r.2.plug g q.2.grp q.1 := hscan
  rw [hs.plug] at hscan' hdesc
  refine ⟨g, q.2.grp, hg, ?_, hdev.trans hs.plug, h _ _ hg hk, ⟨q.1, hscan', fun h0 => ?_⟩, fun hc => hdesc fun _ => hc⟩
  · show Function.update r.2.heap w.mixer.vGrp (some q.2.grp) r.2.mixer.vGrp = _
    rw [hs.vGrp, Function.update_self]
  · rcases hscan'.result with h0' | hneg
    · exact h0'
    · exact absurd (show q.1 < 0 by rw [hneg]; decide) (hret h0)

/-- Along a run the mixer is sound and its plugin group holds the first controls of the table. -/
theorem PluginRun.described (h : PluginRun hw load w) :
    MixerInv w ∧ Accounts 0 w ∧ TableDescribed w.plug w.heap := by
  induction h with
  | @opened w hf hheap hset hret =>
    obtain ⟨hi, ha⟩ := hf.opened hret hset
    exact ⟨hi, ha, tableDescribed_fact.opened (fun a g hg => absurd ((hheap a).symm.trans hg) nofun)⟩
  | grows p d al _ hg ih =>
    refine ⟨ih.1.irrel d p al _ _ rfl rfl, ih.2.1.quiet [] (by simp) rfl rfl rfl rfl rfl, ?_⟩
    exact fun a g ha hk => hg.enumerates (ih.2.2 a g ha hk)
  | @addNewCtls w _ hs ih =>
    obtain ⟨hi, ha, hd⟩ := ih
    obtain ⟨hi', ha'⟩ := mixerAddNewCtls_keeps (b := withPlugin hw load) hi ha
    refine ⟨hi', ha', ?_⟩
    rcases eq_or_ne w.mixer.vGrp 0 with hv | hv
    · have hs := rescanGrp_hwScanned hw load hi
      rw [exec_mixerAddNewCtls, hv, rescanGrp, if_neg (not_not.2 rfl), exec_pure]
      exact hs.described hd
    · obtain ⟨g, g', hcall⟩ := mixerAddNewCtls_scans hw load hi hd hv
      refine hcall.described ?_
      rw [ScanStartsClean, mixerGrpGetCount, if_neg hv, hcall.before] at hs
      exact hs

/-- After a successful call the plugin group holds the whole table in order, just when the scan started
clean. -/
theorem mixerAddNewCtls_enumerates_iff (h : PluginRun hw load w) (hv : w.mixer.vGrp ≠ 0)
    (hret : (exec (mixerAddNewCtls (withPlugin hw load)) w).1 = 0) :
    EnumeratesAll (exec (mixerAddNewCtls (withPlugin hw load)) w).2 ↔ ScanStartsClean w := by
  obtain ⟨hi, -, hd⟩ := h.described
  obtain ⟨g, g', hcall⟩ := mixerAddNewCtls_scans hw load hi hd hv
  obtain ⟨ret, hscan, hz⟩ := hcall.scan
  have hfull : g'.count = w.plug.numControls := hscan.complete (hz hret)
  rw [ScanStartsClean, mixerGrpGetCount, if_neg hv, hcall.before]
  show _ ↔ g.count = 0 ∨ g.count = w.plug.numControls
  constructor
  · rintro ⟨g₁, hg₁, -, henum⟩
    obtain rfl : g' = g₁ := Option.some.inj (hcall.after.symm.trans hg₁)
    rw [hcall.plug] at henum
    by_contra hpartial
    rw [not_or] at hpartial
    refine hscan.duplicates hpartial.1 ?_ henum
    have hle := hscan.grows
    have hne : g.count.toNat ≠ g'.count.toNat := fun heq => hpartial.2 ((UInt32.toNat_inj.1 heq).trans hfull)
    omega
  · intro hs
    refine ⟨g', hcall.after, by rw [hcall.plug]; exact hfull, ?_⟩
    rw [hcall.plug]
    exact hscan.enumerates hcall.enumerates hs

end

/-! ## A growing plugin -/

/-- A plugin with as many integer controls as names. -/
def namedPlugin (names : List CString) (h : names.length < 2 ^ 32) : MixerPlugin where
  controls := names.map fun name => { name, type := .integer, int := { count := 1, max := 100 } }
  fits := by simpa using h

/-- Before a plugin is opened, on a card without controls of its own. -/
def unopenedPlugin (p : MixerPlugin) : MixWorld Card MixerPlugin := { hw := noCard, plug := p, alloc := fun _ => true }

/-- A mixer opened on the plugin `p`, whose table has become that of `p'` since. -/
def grownMixer (p p' : MixerPlugin) : MixWorld Card MixerPlugin :=
  { (exec (mixerOpen (withPlugin cardOps 0)) (unopenedPlugin p)).2 with
    plug := p'
    hw := noCard
    alloc := fun _ => true }

def noControls : MixerPlugin := namedPlugin [] (by decide)
def oneControl : MixerPlugin := namedPlugin [[65]] (by decide)
def twoControls : MixerPlugin := namedPlugin [[65], [66]] (by decide)

theorem grownMixer_run {p p' : MixerPlugin}
    (hg : ((exec (mixerOpen (withPlugin cardOps 0)) (unopenedPlugin p)).2.plug).Grows p')
    (hset : ∀ e ∈ (exec (mixerOpen (withPlugin cardOps 0)) (unopenedPlugin p)).2.log, ¬ e.setupFails)
    (hret : (exec (mixerOpen (withPlugin cardOps 0)) (unopenedPlugin p)).1 = true) :
    PluginRun cardOps 0 (grownMixer p p') :=
  .grows p' noCard (fun _ => true) (.opened ⟨rfl, Nat.one_pos, rfl⟩ (fun _ => rfl) hset hret) hg

/-- Two controls that appear on an empty plugin are enumerated. -/
theorem mixerAddNewCtls_enumerates_fresh :
    EnumeratesAll (exec (mixerAddNewCtls (withPlugin cardOps 0)) (grownMixer noControls twoControls)).2 := by
  have hplug : (exec (mixerOpen (withPlugin cardOps 0)) (unopenedPlugin noControls)).2.plug = noControls := by
    decide +kernel
  have hrun : PluginRun cardOps 0 (grownMixer noControls twoControls) := by
    refine grownMixer_run ?_ (by decide +kernel) (by decide +kernel)
    rw [hplug]
    exact fun i c hc => absurd hc nofun
  have hv : (grownMixer noControls twoControls).mixer.vGrp ≠ 0 := by decide +kernel
  have hret : (exec (mixerAddNewCtls (withPlugin cardOps 0)) (grownMixer noControls twoControls)).1 = 0 := by
    decide +kernel
  have hclean : mixerGrpGetCount (grownMixer noControls twoControls).heap
      (grownMixer noControls twoControls).mixer.vGrp = 0 := by decide +kernel
  rw [mixerAddNewCtls_enumerates_iff hrun hv hret]
  exact .inl hclean

/-- A second control that appears behind the first one is listed as the first one again. -/
theorem mixerAddNewCtls_enumerates_twice :
    PluginRun cardOps 0 (grownMixer oneControl twoControls) ∧
      (exec (mixerAddNewCtls (withPlugin cardOps 0)) (grownMixer oneControl twoControls)).1 = 0 ∧
      ¬ EnumeratesAll (exec (mixerAddNewCtls (withPlugin cardOps 0)) (grownMixer oneControl twoControls)).2 := by
  have hplug : (exec (mixerOpen (withPlugin cardOps 0)) (unopenedPlugin oneControl)).2.plug = oneControl := by
    decide +kernel
  have hrun : PluginRun cardOps 0 (grownMixer oneControl twoControls) := by
    refine grownMixer_run ?_ (by decide +kernel) (by decide +kernel)
    rw [hplug]
    rintro (_ | i) c hc
    · obtain rfl := Option.some.inj hc
      exact ⟨_, rfl, rfl, rfl, rfl, rfl, rfl⟩
    · exact absurd hc nofun
  refine ⟨hrun, by decide +kernel, fun h => ?_⟩
  obtain ⟨g, hg, -, hall⟩ := h
  have hcount : (Option.map (fun g : MixerCtlGroup => (g.count.toNat, (g.ctl 1).info.id.numid))
      ((exec (mixerAddNewCtls (withPlugin cardOps 0)) (grownMixer oneControl twoControls)).2.heap
        (exec (mixerAddNewCtls (withPlugin cardOps 0)) (grownMixer oneControl twoControls)).2.mixer.vGrp)) =
      some (2, 0) := by decide +kernel
  rw [hg] at hcount
  obtain ⟨hc, hn⟩ := Prod.mk.inj (Option.some.inj hcount)
  obtain ⟨c, -, hd⟩ := hall 1 (by rw [hc]; decide)
  have := hd.numid
  rw [hn] at this
  exact absurd this (by decide)

end Tinyalsa
