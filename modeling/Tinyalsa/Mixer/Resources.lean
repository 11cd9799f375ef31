/-
What a card's mixers hold for its plugin, from `mixer_open` to `mixer_close` and from one mixer to the next: the ledger
of the plugin's device against the log of the mixer.
-/
import Tinyalsa.Mixer.PlugOpen
import Tinyalsa.Mixer.Opening

namespace Tinyalsa

open Hoare Ledger

/-! ## Over the life of a mixer -/

section

variable {η π : Type}

/-- The worlds differ in nothing that concerns the plugin but what its controls run on, and no fault is forgotten. -/
structure SamePlug (w w' : MixWorld η (PlugDevice π)) : Prop where
  plug : ∃ table, w'.plug = { w.plug with table }
  isOpen : w'.isOpen .plug = w.isOpen .plug
  fault : w'.fault = false → w.fault = false
  opened : w'.log.count (.opened .plug) = w.log.count (.opened .plug)
  closed : w'.log.count (.closed .plug) = w.log.count (.closed .plug)

/-- The plugin of a mixer: while it is open its data is what is in use, and else nothing is. -/
structure PlugHeld (w : MixWorld η (PlugDevice π)) : Prop where
  accounted : w.plug.Accounted
  used : w.isOpen .plug = true → ∃ data, w.plug.data = some data ∧ w.plug.inUse = {data}
  unused : w.isOpen .plug = false → w.plug.inUse = 0
  log : w.log.count (.opened .plug) = w.log.count (.closed .plug) + (w.isOpen .plug).toNat

/-- Nothing is said of a mixer that touched what was freed. -/
def PlugKept (w : MixWorld η (PlugDevice π)) : Prop := w.fault = false → PlugHeld w

/-- A plugin that is kept and not open. -/
def PlugShut (w : MixWorld η (PlugDevice π)) : Prop := PlugKept w ∧ w.isOpen .plug = false

variable {hw : MixerOps η} {ops : MixerOps π} {card : UInt32} {w w' : MixWorld η (PlugDevice π)}

theorem PlugKept.same (hs : SamePlug w w') (h : PlugKept w) : PlugKept w' := by
  intro hf
  obtain ⟨hacc, hused, hunused, hlog⟩ := h (hs.fault hf)
  obtain ⟨table, hplug⟩ := hs.plug
  refine ⟨?_, fun ho => ?_, fun ho => ?_, ?_⟩
  · rw [hplug]
    exact hacc
  · rw [hplug]
    exact hused (hs.isOpen ▸ ho)
  · rw [hplug]
    exact hunused (hs.isOpen ▸ ho)
  · rw [hs.opened, hs.closed, hs.isOpen, hlog]

theorem PlugShut.same (hs : SamePlug w w') (h : PlugShut w) : PlugShut w' :=
  ⟨h.1.same hs, hs.isOpen.trans h.2⟩

/-- What is added to the log says nothing of the plugin. -/
theorem SamePlug.log {l : List MixEvent} (hl : ∀ e ∈ l, e ≠ .opened .plug ∧ e ≠ .closed .plug) (table : π)
    (hplug : w'.plug = { w.plug with table }) (hopen : w'.isOpen .plug = w.isOpen .plug)
    (hf : w'.fault = false → w.fault = false) (hlog : w'.log = l ++ w.log) : SamePlug w w' := by
  have hcount : ∀ e : MixEvent, e ∉ l → w'.log.count e = w.log.count e := by
    intro e he
    rw [hlog, List.count_append, List.count_eq_zero_of_not_mem he, Nat.zero_add]
  exact ⟨⟨table, hplug⟩, hopen, hf, hcount _ fun h => (hl _ h).1 rfl, hcount _ fun h => (hl _ h).2 rfl⟩

theorem scan_notPlug (k : GrpKind) (calls : List ScanCall) :
    ∀ e ∈ calls.map (MixEvent.scan k), e ≠ .opened .plug ∧ e ≠ .closed .plug := by
  intro e he
  obtain ⟨c, -, rfl⟩ := List.mem_map.1 he
  exact ⟨nofun, nofun⟩

/-- A scan asks the plugin for its controls and nothing else. -/
theorem addControls_plug (self a : Addr) (s : ScanState (PlugDevice π)) :
    ∃ table, (exec (addControls (plugDeviceOps ops card) self a) s).2.dev = { s.dev with table } := by
  have hinfo : ∀ info (d : PlugDevice π), (∃ table, d = { s.dev with table }) →
      ∃ table, ((plugDeviceOps ops card).elemInfo info d).2.2 = { s.dev with table } := by
    rintro info d ⟨table, rfl⟩
    exact ⟨(ops.elemInfo info table).2.2, rfl⟩
  have hlist : ∀ elist (d : PlugDevice π), (∃ table, d = { s.dev with table }) →
      ∃ table, ((plugDeviceOps ops card).elemList elist d).2.2 = { s.dev with table } := by
    rintro elist d ⟨table, rfl⟩
    exact ⟨(ops.elemList elist table).2.2, rfl⟩
  obtain ⟨eid, m, new, hscan⟩ := addControls_spec (plugDeviceOps ops card) self a hinfo hlist s ⟨s.dev.table, rfl⟩
  exact hscan.spec.dev

theorem exec_openDev_plug : (exec (openDev ⟨hw, plugDeviceOps ops card⟩ .plug) w).2 =
    if (PlugDevice.open ops card w.plug).1 < 0 then { w with plug := (PlugDevice.open ops card w.plug).2 }
    else { w with
      plug := (PlugDevice.open ops card w.plug).2
      isOpen := Function.update w.isOpen .plug true
      log := .opened .plug :: w.log } := by
  simp only [openDev, exec_bind, exec_get, exec_set, exec_ite, exec_modify, exec_logMix, exec_pure]
  change (ite ((PlugDevice.open ops card w.plug).1 < 0) _ _ : Int × MixWorld η (PlugDevice π)).2 = _
  split <;> rfl

/-! The functions that leave the plugin alone, for a property of what concerns it. -/

section

variable {P : MixWorld η (PlugDevice π) → Prop} (hP : ∀ {w w' : MixWorld η (PlugDevice π)}, SamePlug w w' → P w → P w')

include hP

theorem plug_frame {α : Type} {f : MixM η (PlugDevice π) α} (hf : ∀ w, SamePlug w (exec f w).2) : Keeps P f :=
  fun w h => hP (hf w) h

theorem plug_modifyMixer (f : Mixer → Mixer) : Keeps P (modifyMixer (η := η) (π := PlugDevice π) f) :=
  plug_frame hP fun w => .log (l := []) (by simp) w.plug.table rfl rfl id rfl

theorem plug_mixAlloc : Keeps P (mixAlloc (η := η) (π := PlugDevice π)) :=
  plug_frame hP fun w => .log (l := []) (by simp) w.plug.table rfl rfl id rfl

theorem plug_logMix {e : MixEvent} (he : e ≠ .opened .plug ∧ e ≠ .closed .plug) :
    Keeps P (logMix (η := η) (π := PlugDevice π) e) :=
  plug_frame hP fun w => .log (l := [e]) (by simpa using he) w.plug.table rfl rfl id rfl

theorem plug_callocGrp (k : GrpKind) : Keeps P (callocGrp (η := η) (π := PlugDevice π) k) := by
  refine plug_frame hP fun w => ?_
  rw [exec_callocGrp]
  split
  · exact .log (l := [.grpAlloc w.next]) (by simp) w.plug.table rfl rfl id rfl
  · exact .log (l := []) (by simp) w.plug.table rfl rfl id rfl

theorem plug_derefGrp (a : Addr) : Keeps P (derefGrp (η := η) (π := PlugDevice π) a) := by
  refine plug_frame hP fun w => ?_
  cases hg : w.heap a with
  | some g =>
    rw [exec_derefGrp hg]
    exact .log (l := []) (by simp) w.plug.table rfl rfl id rfl
  | none =>
    rw [exec_derefGrp_none hg]
    exact .log (l := []) (by simp) w.plug.table rfl rfl nofun rfl

theorem plug_freeGrp (a : Addr) : Keeps P (freeGrp (η := η) (π := PlugDevice π) a) := by
  refine Triple.bind (plug_derefGrp hP a) fun _ => Triple.bind (Q := fun _ => P) ?_ fun _ =>
    plug_logMix hP ⟨nofun, nofun⟩
  exact plug_frame hP fun w => .log (l := []) (by simp) w.plug.table rfl rfl id rfl

theorem plug_addControlsTo (a : Addr) : Keeps P (addControlsTo (η := η) ⟨hw, plugDeviceOps ops card⟩ a) := by
  refine plug_frame hP fun w => ?_
  cases hg : w.heap a with
  | none =>
    rw [exec_addControlsTo_none hg]
    exact .log (scan_notPlug .hw _) w.plug.table rfl rfl nofun rfl
  | some g =>
    cases hk : g.kind with
    | hw =>
      rw [exec_addControlsTo_hw hg hk]
      exact .log (scan_notPlug .hw _) w.plug.table rfl rfl id rfl
    | plug =>
      rw [exec_addControlsTo_plug hg hk]
      obtain ⟨table, hdev⟩ := @addControls_plug π ops card w.self a (scanState w.plug g w)
      exact .log (scan_notPlug .plug _) table hdev rfl id rfl

theorem plug_ioctlCardInfo (k : GrpKind) : Keeps P (ioctlCardInfo (η := η) ⟨hw, plugDeviceOps ops card⟩ k) := by
  refine plug_frame hP fun w => ?_
  cases k with
  | hw => exact .log (l := [.cardInfo .hw (hw.cardInfo w.hw).1]) (by simp) w.plug.table rfl rfl id rfl
  | plug =>
    exact .log (l := [.cardInfo .plug (ops.cardInfo w.plug.table).1]) (by simp) (ops.cardInfo w.plug.table).2 rfl rfl
      id rfl

theorem plug_openDev_hw : Keeps P (openDev (η := η) ⟨hw, plugDeviceOps ops card⟩ .hw) := by
  refine plug_frame hP fun w => ?_
  simp only [openDev, exec_bind, exec_get, exec_set, exec_ite, exec_modify, exec_logMix, exec_pure]
  split
  · exact .log (l := []) (by simp) w.plug.table rfl rfl id rfl
  · have hne : GrpKind.plug ≠ .hw := by decide
    exact .log (l := [.opened .hw]) (by simp) w.plug.table rfl (Function.update_of_ne hne true w.isOpen) id rfl

theorem plug_closeDev_hw : Keeps P (closeDev (η := η) ⟨hw, plugDeviceOps ops card⟩ .hw) := by
  refine plug_frame hP fun w => .log (l := [.closed .hw]) (by simp) w.plug.table rfl
    (Function.update_of_ne (show GrpKind.plug ≠ .hw by decide) false w.isOpen) (fun hf => ?_) rfl
  exact (Bool.or_eq_false_iff.1 hf).1

theorem plug_mixerGrpClose (a : Addr) : Keeps P (mixerGrpClose (η := η) (π := PlugDevice π) a) :=
  Triple.ite (fun _ => Triple.pure _ fun _ h => h) fun _ =>
    Triple.bind (plug_freeGrp hP a) fun _ => plug_modifyMixer hP _

theorem plug_mixerHwOpen : Keeps P (mixerHwOpen (η := η) ⟨hw, plugDeviceOps ops card⟩) := by
  refine Triple.bind (plug_openDev_hw hP) fun fd => Triple.ite (fun _ => Triple.pure _ fun _ h => h) fun _ => ?_
  refine Triple.bind (plug_mixAlloc hP) fun ok => Triple.bind (plug_logMix hP ⟨nofun, nofun⟩) fun _ => ?_
  exact Triple.ite (fun _ => Triple.pure _ fun _ h => h) fun _ => Triple.pure _ fun _ h => h

/-- The set-up of a group, where closing its device keeps the property. -/
theorem plug_mixerGrpSetup {k : GrpKind} (hclose : Keeps P (closeDev (η := η) ⟨hw, plugDeviceOps ops card⟩ k))
    (a : Addr) :
    Keeps P (mixerGrpSetup (η := η) ⟨hw, plugDeviceOps ops card⟩ k a) := by
  have habandon : ∀ ret, Keeps P (mixerGrpAbandon (η := η) ⟨hw, plugDeviceOps ops card⟩ k a ret) := fun ret =>
    Triple.bind hclose fun _ => Triple.bind (plug_freeGrp hP a) fun _ => Triple.pure _ fun _ h => h
  have hfill : Keeps P (mixerGrpFill (η := η) ⟨hw, plugDeviceOps ops card⟩ k a) :=
    Triple.bind (plug_addControlsTo hP a) fun ret => Triple.ite (fun _ => habandon ret) fun _ =>
      Triple.pure _ fun _ h => h
  refine Triple.get_bind fun w => Triple.pre (P := P) ?_ fun _ h => h.1
  refine Triple.ite (fun _ => Triple.bind (plug_ioctlCardInfo hP k) fun ret => ?_) fun _ => hfill
  exact Triple.ite (fun _ => habandon ret) fun _ => Triple.bind (plug_modifyMixer hP _) fun _ => hfill

theorem plug_mixerGrpOpen_hw : Keeps P (mixerGrpOpen (η := η) ⟨hw, plugDeviceOps ops card⟩ .hw) := by
  refine Triple.bind (plug_callocGrp hP .hw) fun a => Triple.ite (fun _ => Triple.pure _ fun _ h => h) fun _ => ?_
  refine Triple.bind (plug_modifyMixer hP _) fun _ => Triple.bind (plug_mixerHwOpen hP) fun fd =>
    Triple.ite (fun _ => ?_) fun _ => ?_
  · exact Triple.bind (plug_freeGrp hP a) fun _ => Triple.pure _ fun _ h => h
  · exact Triple.bind (plug_modifyMixer hP _) fun _ => plug_mixerGrpSetup hP (plug_closeDev_hw hP) a

theorem plug_mixerAddNewCtls : Keeps P (mixerAddNewCtls (η := η) ⟨hw, plugDeviceOps ops card⟩) := by
  have hrescan : ∀ a, Keeps P (rescanGrp (η := η) ⟨hw, plugDeviceOps ops card⟩ a) := fun a =>
    Triple.ite (fun _ => plug_addControlsTo hP a) fun _ => Triple.pure _ fun _ h => h
  intro w h
  rw [exec_mixerAddNewCtls]
  exact hrescan _ _ (hrescan _ _ h)

end

/-! Opening and closing the plugin. -/

theorem plugShut_openDev : Triple (PlugShut (η := η) (π := π)) (openDev ⟨hw, plugDeviceOps ops card⟩ .plug)
    fun _ => PlugKept := by
  rintro w ⟨h, hshut⟩
  rw [exec_openDev_plug]
  split
  · rename_i hneg
    intro hf
    obtain ⟨hacc, -, hunused, hlog⟩ := h hf
    obtain ⟨hacc', ⟨-, hinUse⟩ | ⟨hret, -⟩⟩ := @PlugDevice.Accounted.open π ops card _ hacc
    · exact ⟨hacc', fun ho => absurd (hshut.symm.trans ho) nofun, fun _ => hinUse.trans (hunused hshut), hlog⟩
    · exact absurd hneg (by rw [hret]; decide)
  · rename_i hge
    intro hf
    obtain ⟨hacc, -, hunused, hlog⟩ := h hf
    obtain ⟨hacc', ⟨hneg, -⟩ | ⟨-, data, hdata, hinUse⟩⟩ := @PlugDevice.Accounted.open π ops card _ hacc
    · exact absurd hneg hge
    · have hopen : Function.update w.isOpen .plug true .plug = true := Function.update_self ..
      rw [hunused hshut] at hinUse
      refine ⟨hacc', fun _ => ⟨data, hdata, hinUse⟩, fun ho => absurd (hopen.symm.trans ho) nofun, ?_⟩
      show (MixEvent.opened .plug :: w.log).count _ = (MixEvent.opened .plug :: w.log).count _ +
        (Function.update w.isOpen .plug true .plug).toNat
      rw [List.count_cons_self, List.count_cons_of_ne (show MixEvent.opened .plug ≠ .closed .plug by decide), hlog,
        hshut, hopen]
      rfl

theorem plugKept_closeDev (k : GrpKind) : Keeps PlugKept (closeDev (η := η) ⟨hw, plugDeviceOps ops card⟩ k) := by
  cases k with
  | hw => exact plug_closeDev_hw PlugKept.same
  | plug =>
    intro w h hfault
    obtain ⟨hf, hopen⟩ := Bool.or_eq_false_iff.1 hfault
    have hopen : w.isOpen .plug = true := by simpa using hopen
    obtain ⟨hacc, hused, -, hlog⟩ := h hf
    obtain ⟨data, hdata, hinUse⟩ := hused hopen
    have hmem : data ∈ w.plug.inUse := hinUse ▸ Multiset.mem_singleton_self data
    obtain ⟨hacc', hinUse'⟩ := @PlugDevice.Accounted.close π ops _ hacc data hdata hmem
    have hshut : Function.update w.isOpen .plug false .plug = false := Function.update_self ..
    refine ⟨hacc', fun ho => absurd (hshut.symm.trans ho) nofun, fun _ => ?_, ?_⟩
    · rw [hinUse] at hinUse'
      exact hinUse'.trans (Multiset.erase_singleton data)
    · show (MixEvent.closed .plug :: w.log).count _ = (MixEvent.closed .plug :: w.log).count _ +
        (Function.update w.isOpen .plug false .plug).toNat
      rw [List.count_cons_self, List.count_cons_of_ne (show MixEvent.closed .plug ≠ .opened .plug by decide), hlog,
        hopen, hshut]
      rfl

theorem plugKept_mixerClose : Keeps PlugKept (mixerClose (η := η) ⟨hw, plugDeviceOps ops card⟩) := by
  have hclose : ∀ a, Keeps PlugKept (closeGrpDev (η := η) ⟨hw, plugDeviceOps ops card⟩ a) := fun a =>
    Triple.bind (plug_derefGrp PlugKept.same a) fun g => plugKept_closeDev g.kind
  have hfree : ∀ a, Keeps PlugKept (mixerGrpClose (η := η) (π := PlugDevice π) a) := plug_mixerGrpClose PlugKept.same
  intro w h
  rw [exec_mixerClose]
  split <;> split
  · exact hfree _ _ (hclose _ _ (hfree _ _ (hclose _ _ h)))
  · exact hfree _ _ (hfree _ _ (hclose _ _ h))
  · exact hfree _ _ (hclose _ _ (hfree _ _ h))
  · exact hfree _ _ (hfree _ _ h)

theorem plugShut_mixerOpen : Triple (PlugShut (η := η) (π := π)) (mixerOpen ⟨hw, plugDeviceOps ops card⟩)
    fun _ => PlugKept := by
  have hplug : Triple (PlugShut (η := η)) (mixerGrpOpen ⟨hw, plugDeviceOps ops card⟩ .plug) fun _ => PlugKept := by
    refine Triple.bind (plug_callocGrp PlugShut.same .plug) fun a => Triple.ite
      (fun _ => Triple.pure _ fun _ h => h.1) fun _ => ?_
    refine Triple.bind plugShut_openDev fun ret => Triple.ite (fun _ => ?_) fun _ => ?_
    · exact Triple.bind (plug_freeGrp PlugKept.same a) fun _ => Triple.pure _ fun _ h => h
    · exact Triple.bind (plug_modifyMixer PlugKept.same _) fun _ =>
        plug_mixerGrpSetup PlugKept.same (plugKept_closeDev .plug) a
  intro w h
  have hallocated : PlugShut (allocatedMixer w) := h.same (.log (l := []) (by simp) w.plug.table rfl rfl id rfl)
  have hhw : Keeps PlugShut (mixerGrpOpen ⟨hw, plugDeviceOps ops card⟩ .hw) := plug_mixerGrpOpen_hw PlugShut.same
  have hopened := hplug _ (hhw _ hallocated)
  rw [exec_mixerOpen]
  split
  · split
    · exact plugKept_mixerClose _ hopened
    · exact hopened
  · exact h.1.same (.log (l := []) (by simp) w.plug.table rfl rfl id rfl)

end

/-! ## Over the mixers of a card -/

section

variable {η π : Type}

/-- The mixers of a card, one after the other, none of which a failing set-up spoils; the flag says that one is open.
Each has a log of its own. Between the calls the backends, the allocations and the plugin to come are as they like. -/
inductive MixerRun (b : MixBackends η π) (card : UInt32) (w₀ : MixWorld η (PlugDevice π)) :
    Bool → MixWorld η (PlugDevice π) → Prop
  | start : MixerRun b card w₀ false w₀
  | opened {w : MixWorld η (PlugDevice π)} (h : MixerRun b card w₀ false w)
      (hset : ∀ e ∈ (exec (mixerOpen ⟨b.hw, plugDeviceOps b.plug card⟩) { w with log := [] }).2.log, ¬ e.setupFails) :
      MixerRun b card w₀ (exec (mixerOpen ⟨b.hw, plugDeviceOps b.plug card⟩) { w with log := [] }).1
        (exec (mixerOpen ⟨b.hw, plugDeviceOps b.plug card⟩) { w with log := [] }).2
  | addedNewCtls {w : MixWorld η (PlugDevice π)} (h : MixerRun b card w₀ true w) :
      MixerRun b card w₀ true (exec (mixerAddNewCtls ⟨b.hw, plugDeviceOps b.plug card⟩) w).2
  | closed {w : MixWorld η (PlugDevice π)} (h : MixerRun b card w₀ true w) :
      MixerRun b card w₀ false (exec (mixerClose ⟨b.hw, plugDeviceOps b.plug card⟩) w).2
  | changed {isOpen : Bool} {w : MixWorld η (PlugDevice π)} (h : MixerRun b card w₀ isOpen w) (hw : η) (table : π)
      (answers : Nat → MixerPlugAnswers) (alloc : Nat → Bool) :
      MixerRun b card w₀ isOpen { w with hw, plug := { w.plug with table, answers }, alloc }

/-- What `mixer_plug_close` gives back. -/
def MixerResource.isClosed : MixerResource → Bool
  | .plugData | .pluginLib | .plugin => true
  | _ => false

/-- What is held for the plugins of a card's mixers, where one mixer is open or none is. -/
structure PlugResources (isOpen : Bool) (w : MixWorld η (PlugDevice π)) : Prop where
  /-- Nothing that was freed was accessed. -/
  noFault : w.fault = false
  /-- Nothing was given back that was not held. -/
  sound : w.plug.ledger.sound = true
  /-- What the plugin of an open mixer uses is held, and nothing of the ones before it. -/
  inUse : ∀ r : MixerResource, r.isClosed → w.plug.ledger.count r = (w.isOpen .plug).toNat
  shut : isOpen = false → w.isOpen .plug = false
  /-- The node of the card definition, the definition and its parser's library are held for each plugin ever opened. -/
  left : ∀ r ∈ [MixerResource.sndNode, .cardNode, .parserLib], w.plug.ledger.count r = w.plug.opened.card
  /-- And so is its `eventfd`, where there was one. -/
  eventfd : w.plug.ledger.count .eventfd = w.plug.opened.countP (·.eventfd.isSome)

/-- Nothing has been opened. -/
structure NothingOpened (w : MixWorld η (PlugDevice π)) : Prop extends Fresh w where
  isOpen : w.isOpen .plug = false
  ledger : w.plug.ledger = {}
  opened : w.plug.opened = 0
  inUse : w.plug.inUse = 0

/-- Between two calls: an open mixer is sound, and without one the plugin is shut. -/
structure PlugBetween (isOpen : Bool) (w : MixWorld η (PlugDevice π)) : Prop where
  noFault : w.fault = false
  next : 0 < w.next
  held : PlugHeld w
  mixer : isOpen = true → MixerInv w ∧ Accounts 0 w
  shut : isOpen = false → w.isOpen .plug = false

variable {b : MixBackends η π} {card : UInt32} {w w₀ : MixWorld η (PlugDevice π)} {isOpen : Bool}

/-- How often a kind occurs in what a list of plugins holds, where each holds it `n` times or not. -/
theorem count_sum (f : MixerPlugData → Multiset (Item MixerResource)) (r : MixerResource) (p : MixerPlugData → Bool)
    (hf : ∀ d, ((f d).map Item.kind).count r = (p d).toNat) (s : Multiset MixerPlugData) :
    (((s.map f).sum).map Item.kind).count r = s.countP (p ·) := by
  induction s using Multiset.induction with
  | empty => rfl
  | cons d s ih =>
    rw [Multiset.map_cons, Multiset.sum_cons, Multiset.map_add, Multiset.count_add, ih, hf, Multiset.countP_cons]
    cases p d <;> simp [Nat.add_comm]

theorem PlugDevice.Accounted.count {d : PlugDevice π} (h : d.Accounted) (r : MixerResource) :
    d.ledger.count r = d.inUse.countP (fun _ => r.isClosed) +
      d.opened.countP (fun p => if r = .eventfd then p.eventfd.isSome else !r.isClosed) := by
  rw [Holds.count h, Multiset.map_add, Multiset.count_add]
  congr 1
  · exact count_sum _ r (fun _ => r.isClosed) (fun d => by cases r <;> rfl) _
  · refine (count_sum _ r (fun p => if r = .eventfd then p.eventfd.isSome else !r.isClosed) (fun d => ?_) _).trans ?_
    · cases hfd : d.eventfd <;> cases r <;>
        simp [MixerPlugData.left, MixerNode.items, eventfdItems, hfd, MixerResource.isClosed]
    · rfl

theorem PlugHeld.card_inUse (h : PlugHeld w) : w.plug.inUse.card = (w.isOpen .plug).toNat := by
  cases ho : w.isOpen .plug with
  | false =>
    rw [h.unused ho]
    rfl
  | true =>
    obtain ⟨data, -, hinUse⟩ := h.used ho
    rw [hinUse]
    rfl

theorem PlugBetween.resources (h : PlugBetween isOpen w) : PlugResources isOpen w := by
  have hcount := h.held.accounted.count
  refine ⟨h.noFault, h.held.accounted.sound, fun r hr => ?_, h.shut, fun r hr => ?_, ?_⟩
  · have hne : r ≠ .eventfd := by
      rintro rfl
      cases hr
    rw [hcount, hr, ← h.held.card_inUse]
    simp [hne]
  · have hkind : r.isClosed = false ∧ r ≠ .eventfd := by
      simp only [List.mem_cons, List.not_mem_nil, or_false] at hr
      rcases hr with rfl | rfl | rfl <;> decide
    rw [hcount, hkind.1]
    simp [hkind.2]
  · rw [hcount]
    simp [MixerResource.isClosed]

/-- A mixer that has closed all it opened has no plugin open. -/
theorem PlugHeld.shut_of_balanced (h : PlugHeld w) (hb : Balanced w) : w.isOpen .plug = false := by
  have hlog := h.log
  rw [hb.backends .plug] at hlog
  cases ho : w.isOpen .plug with
  | false => rfl
  | true =>
    rw [ho] at hlog
    exact absurd hlog (Nat.ne_of_lt (Nat.lt_succ_self _))

theorem stable_next : Stable (fun w : MixWorld η π => 0 < w.next) (fun _ => True) fun _ _ => True where
  ghost := fun _ _ _ _ _ _ _ hw _ _ => hw
  free := fun _ _ hw => hw
  write := fun _ _ _ _ hw => hw
  alloc := fun _ _ => ⟨trivial, Nat.succ_pos _⟩
  mixer := fun _ _ _ hw => hw

theorem NothingOpened.between (h : NothingOpened w) : PlugBetween false w where
  noFault := h.fault
  next := h.next
  held := by
    refine ⟨?_, fun ho => absurd (h.isOpen.symm.trans ho) nofun, fun _ => h.inUse, ?_⟩
    · unfold PlugDevice.Accounted
      rw [h.inUse, h.opened, h.ledger]
      exact holds_empty
    · rw [h.log, h.isOpen]
      rfl
  mixer := nofun
  shut _ := h.isOpen

theorem mixerOpen_next {b : MixBackends η π} {w : MixWorld η π} (h : 0 < w.next) :
    0 < (exec (mixerOpen b) w).2.next := by
  have hkept := stable_next (η := η) (π := π)
  have hopened := hkept.mixerGrpOpen_plug (b := b) (fun _ _ => trivial) (fun _ _ => trivial) (fun _ _ => trivial) _
    (hkept.mixerGrpOpen_hw (b := b) (fun _ _ => trivial) (fun _ _ => trivial) (fun _ _ => trivial)
      (fun _ _ _ => trivial) (allocatedMixer w) (Nat.succ_pos _))
  rw [exec_mixerOpen]
  split
  · split
    · exact hkept.mixerClose (fun _ _ => trivial) _ hopened
    · exact hopened
  · exact h

/-- Opening a mixer without a failing set-up. -/
theorem PlugBetween.opened (h : PlugBetween false w)
    (hset : ∀ e ∈ (exec (mixerOpen ⟨b.hw, plugDeviceOps b.plug card⟩) { w with log := [] }).2.log, ¬ e.setupFails) :
    PlugBetween (exec (mixerOpen ⟨b.hw, plugDeviceOps b.plug card⟩) { w with log := [] }).1
      (exec (mixerOpen ⟨b.hw, plugDeviceOps b.plug card⟩) { w with log := [] }).2 := by
  have hshut := h.shut rfl
  have hfresh : Fresh { w with log := [] } := ⟨h.noFault, h.next, rfl⟩
  have hheld : PlugShut { w with log := [] } :=
    ⟨fun _ => ⟨h.held.accounted, h.held.used, h.held.unused, by simp [hshut]⟩, hshut⟩
  have hopen : Triple (PlugShut (η := η)) (mixerOpen ⟨b.hw, plugDeviceOps b.plug card⟩) fun _ => PlugKept :=
    plugShut_mixerOpen
  have hkept := hopen _ hheld
  have hnext := mixerOpen_next (b := ⟨b.hw, plugDeviceOps b.plug card⟩) hfresh.next
  cases hret : (exec (mixerOpen ⟨b.hw, plugDeviceOps b.plug card⟩) { w with log := [] }).1 with
  | false =>
    obtain ⟨hfault, hbalanced⟩ := (mixerOpen_false hfresh hret).2 hset
    exact ⟨hfault, hnext, hkept hfault, nofun, fun _ => (hkept hfault).shut_of_balanced hbalanced⟩
  | true =>
    obtain ⟨hi, ha⟩ := hfresh.opened hret hset
    exact ⟨ha.fault, hnext, hkept ha.fault, fun _ => ⟨hi, ha⟩, nofun⟩

/-- Closing a mixer. -/
theorem PlugBetween.closed (h : PlugBetween true w) :
    PlugBetween false (exec (mixerClose ⟨b.hw, plugDeviceOps b.plug card⟩) w).2 := by
  obtain ⟨hi, ha⟩ := h.mixer rfl
  obtain ⟨hfault, hbalanced⟩ := (closesCleanly_iff (b := ⟨b.hw, plugDeviceOps b.plug card⟩) hi ha).2 rfl
  have hclose : Keeps PlugKept (mixerClose ⟨b.hw, plugDeviceOps b.plug card⟩) := plugKept_mixerClose
  have hheld := hclose w (fun _ => h.held) hfault
  have hnext := stable_next.mixerClose (b := ⟨b.hw, plugDeviceOps b.plug card⟩) (fun _ _ => trivial) w h.next
  exact ⟨hfault, hnext, hheld, nofun, fun _ => hheld.shut_of_balanced hbalanced⟩

theorem PlugBetween.addedNewCtls (h : PlugBetween true w) :
    PlugBetween true (exec (mixerAddNewCtls ⟨b.hw, plugDeviceOps b.plug card⟩) w).2 := by
  obtain ⟨hi, ha⟩ := h.mixer rfl
  obtain ⟨hi', ha'⟩ := mixerAddNewCtls_keeps (b := ⟨b.hw, plugDeviceOps b.plug card⟩) hi ha
  have hkept : Keeps PlugKept (mixerAddNewCtls ⟨b.hw, plugDeviceOps b.plug card⟩) := plug_mixerAddNewCtls PlugKept.same
  exact ⟨ha'.fault, Nat.zero_lt_of_lt (ha'.below .hw), hkept w (fun _ => h.held) ha'.fault, fun _ => ⟨hi', ha'⟩, nofun⟩

theorem PlugBetween.changed (h : PlugBetween isOpen w) (hw : η) (table : π) (answers : Nat → MixerPlugAnswers)
    (alloc : Nat → Bool) : PlugBetween isOpen { w with hw, plug := { w.plug with table, answers }, alloc } where
  noFault := h.noFault
  next := h.next
  held := ⟨h.held.accounted, h.held.used, h.held.unused, h.held.log⟩
  mixer ho := by
    obtain ⟨hi, ha⟩ := h.mixer ho
    exact ⟨hi.irrel hw _ alloc w.log w.mixer rfl rfl, ha.quiet [] (by simp) rfl rfl rfl rfl rfl⟩
  shut := h.shut

/-- Over any mixers of a card, one after the other, where no set-up fails: what a failed opening took is given back,
what an open plugin uses is held, closing gives that back once, and the node, the definition, its parser and the
`eventfd` of every plugin stay for good. -/
theorem mixerRun_resources (h : NothingOpened w₀) (hrun : MixerRun b card w₀ isOpen w) : PlugResources isOpen w := by
  have hbetween : PlugBetween isOpen w := by
    induction hrun with
    | start => exact h.between
    | opened _ hset ih => exact ih.opened hset
    | addedNewCtls _ ih => exact ih.addedNewCtls
    | closed _ ih => exact ih.closed
    | changed _ hw table answers alloc ih => exact ih.changed hw table answers alloc
  exact hbetween.resources

/-- A virtual card with one control and no kernel device; its first attempt finds no library. -/
def virtualCard : MixWorld Card (PlugDevice Card) where
  hw := noCard
  plug := {
    table := { names := [[86]] }
    answers := fun i => { soName := (0, some [108]), dlopenPlugin := fun _ => i ≠ 0 } }
  alloc := fun _ => true

theorem virtualCard_nothingOpened : NothingOpened virtualCard := ⟨⟨rfl, Nat.one_pos, rfl⟩, rfl, rfl, rfl, rfl⟩

/-- Its mixer is opened. -/
def withMixer (w : MixWorld Card (PlugDevice Card)) : MixWorld Card (PlugDevice Card) :=
  (exec (mixerOpen ⟨cardOps, plugDeviceOps cardOps 100⟩) { w with log := [] }).2

/-- Its mixer is scanned, and closed. -/
def withoutMixer (w : MixWorld Card (PlugDevice Card)) : MixWorld Card (PlugDevice Card) :=
  (exec (mixerClose ⟨cardOps, plugDeviceOps cardOps 100⟩)
    (exec (mixerAddNewCtls ⟨cardOps, plugDeviceOps cardOps 100⟩) w).2).2

theorem mixerRun_withMixer {w : MixWorld Card (PlugDevice Card)} {isOpen : Bool}
    (h : MixerRun cardBackends 100 virtualCard false w)
    (hret : (exec (mixerOpen ⟨cardOps, plugDeviceOps cardOps 100⟩) { w with log := [] }).1 = isOpen)
    (hset : ∀ e ∈ (withMixer w).log, ¬ e.setupFails) : MixerRun cardBackends 100 virtualCard isOpen (withMixer w) :=
  hret ▸ h.opened hset

theorem mixerRun_withoutMixer {w : MixWorld Card (PlugDevice Card)} (h : MixerRun cardBackends 100 virtualCard true w) :
    MixerRun cardBackends 100 virtualCard false (withoutMixer w) :=
  h.addedNewCtls.closed

/-- Three attempts, of which two give a mixer. -/
def openedTwice : MixWorld Card (PlugDevice Card) :=
  withoutMixer (withMixer (withoutMixer (withMixer (withMixer virtualCard))))

theorem openedTwice_run : MixerRun cardBackends 100 virtualCard false openedTwice := by
  have hrefused : MixerRun cardBackends 100 virtualCard false (withMixer virtualCard) :=
    mixerRun_withMixer .start (by decide +kernel) (by decide +kernel)
  have hfirst : MixerRun cardBackends 100 virtualCard true (withMixer (withMixer virtualCard)) :=
    mixerRun_withMixer hrefused (by decide +kernel) (by decide +kernel)
  exact mixerRun_withoutMixer
    (mixerRun_withMixer (mixerRun_withoutMixer hfirst) (by decide +kernel) (by decide +kernel))

theorem mixerRun_resources_twice :
    PlugResources false openedTwice ∧ openedTwice.plug.ledger.count .pluginLib = 0 ∧
      openedTwice.plug.ledger.count .parserLib = 2 := by
  refine ⟨mixerRun_resources virtualCard_nothingOpened openedTwice_run, ?_, ?_⟩ <;> decide +kernel

end

end Tinyalsa
