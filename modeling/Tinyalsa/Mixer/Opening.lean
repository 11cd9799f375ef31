/-
Opening a mixer over any two backends: what the primitives of opening keep of the plugin's device and of the groups
holds of every mixer that is opened, and also where opening it fails.
-/
import Tinyalsa.Mixer.Soundness

namespace Tinyalsa

open Hoare

/-- A fact about the plugin's device and the groups that holds of new groups and is kept by a group's first scan. -/
structure OpeningFact {η π : Type} (b : MixBackends η π) (I : π → (Addr → Option MixerCtlGroup) → Prop) : Prop where
  opens : ∀ d heap, I d heap → I (b.plug.openDev d).2 heap
  closes : ∀ d heap, I d heap → I (b.plug.closeDev d) heap
  cardInfo : ∀ d heap, I d heap → I (b.plug.cardInfo d).2 heap
  free : ∀ d heap a, I d heap → I d (Function.update heap a none)
  new : ∀ d heap a k, I d heap → I d (Function.update heap a (some { kind := k }))
  scan : ∀ w a g, w.heap a = some g → g.count = 0 → I w.plug w.heap →
    I (exec (addControlsTo b a) w).2.plug (exec (addControlsTo b a) w).2.heap

section

variable {η π : Type} {b : MixBackends η π} {I : π → (Addr → Option MixerCtlGroup) → Prop} {w : MixWorld η π} {a : Addr}

/-- The function keeps the fact. -/
def KeepsFact {α : Type} (I : π → (Addr → Option MixerCtlGroup) → Prop) (f : MixM η π α) : Prop :=
  Triple (fun w => I w.plug w.heap) f fun _ w => I w.plug w.heap

/-- The fact holds, and the group at `a` holds no control yet. -/
def EmptyAt (I : π → (Addr → Option MixerCtlGroup) → Prop) (a : Addr) (d : π) (heap : Addr → Option MixerCtlGroup) :
    Prop :=
  I d heap ∧ ∃ g, heap a = some g ∧ g.count = 0

/-- The memory of a freed group is taken for that of an empty group of the hardware. -/
theorem exec_addControlsTo_none (h : w.heap a = none) :
    exec (addControlsTo b a) w =
      ((exec (addControls b.hw w.self a) (scanState w.hw { kind := .hw } { w with fault := true })).1,
        { scanned .hw a (exec (addControls b.hw w.self a) (scanState w.hw { kind := .hw } { w with fault := true })).2
            { w with fault := true } with
          hw :=
            (exec (addControls b.hw w.self a) (scanState w.hw { kind := .hw } { w with fault := true })).2.dev }) := by
  simp only [addControlsTo, exec_bind, exec_derefGrp_none h, exec_get, exec_set, exec_pure]

theorem modifyMixer_keepsFact (f : Mixer → Mixer) : KeepsFact (η := η) I (modifyMixer f) :=
  Triple.modify fun _ h => h

namespace OpeningFact

variable (h : OpeningFact b I)

include h

theorem openDev (k : GrpKind) : KeepsFact I (openDev b k) := by
  intro w hI
  cases k <;> simp only [Tinyalsa.openDev, exec_bind, exec_get, exec_set, exec_ite, exec_modify, exec_logMix, exec_pure]
  · split <;> exact hI
  · split <;> exact h.opens _ _ hI

theorem closeDev (k : GrpKind) : KeepsFact I (closeDev b k) := by
  intro w hI
  cases k
  · exact hI
  · exact h.closes _ _ hI

theorem ioctlCardInfo (k : GrpKind) : KeepsFact I (ioctlCardInfo b k) := by
  intro w hI
  cases k
  · exact hI
  · exact h.cardInfo _ _ hI

/-- The device may be asked before the group is filled. -/
theorem emptyAt (a : Addr) : (∀ k, KeepsFact (EmptyAt I a) (Tinyalsa.openDev b k)) ∧
    ∀ k, KeepsFact (EmptyAt I a) (Tinyalsa.ioctlCardInfo b k) := by
  constructor
  · rintro k w ⟨hI, hg⟩
    refine ⟨h.openDev k w hI, ?_⟩
    cases k <;> simp only [Tinyalsa.openDev, exec_bind, exec_get, exec_set, exec_ite, exec_modify, exec_logMix,
      exec_pure] <;>
      split <;> exact hg
  · rintro k w ⟨hI, hg⟩
    refine ⟨h.ioctlCardInfo k w hI, ?_⟩
    cases k <;> exact hg

theorem freeGrp : KeepsFact (η := η) I (freeGrp a) := by
  intro w hI
  cases hg : w.heap a with
  | some g =>
    rw [exec_freeGrp hg]
    exact h.free _ _ a hI
  | none =>
    simp only [Tinyalsa.freeGrp, exec_bind, exec_derefGrp_none hg, exec_modify, exec_logMix]
    exact h.free _ _ a hI

theorem mixerHwOpen : KeepsFact (EmptyAt I a) (mixerHwOpen b) := by
  refine Triple.bind ((h.emptyAt a).1 .hw) fun fd => Triple.ite (fun _ => Triple.pure _ fun _ hI => hI) fun _ => ?_
  refine Triple.bind (Q := fun _ w => EmptyAt I a w.plug w.heap) (fun _ hI => hI) fun ok => ?_
  refine Triple.bind (Q := fun _ w => EmptyAt I a w.plug w.heap) (Triple.modify fun _ hI => hI) fun _ => ?_
  exact Triple.ite (fun _ => Triple.pure _ fun _ hI => hI) fun _ => Triple.pure _ fun _ hI => hI

theorem mixerGrpAbandon (k : GrpKind) (ret : Int) : KeepsFact I (mixerGrpAbandon b k a ret) :=
  Triple.bind (h.closeDev k) fun _ => Triple.bind h.freeGrp fun _ => Triple.pure _ fun _ hI => hI

theorem mixerGrpFill (k : GrpKind) :
    Triple (fun w => EmptyAt I a w.plug w.heap) (mixerGrpFill b k a) fun _ w => I w.plug w.heap := by
  have hscan : Triple (fun w => EmptyAt I a w.plug w.heap) (addControlsTo b a) fun _ w => I w.plug w.heap := by
    rintro w ⟨hI, g, hg, h0⟩
    exact h.scan w a g hg h0 hI
  refine Triple.bind hscan fun ret => Triple.ite (fun _ => ?_) fun _ => Triple.pure _ fun _ hI => hI
  exact h.mixerGrpAbandon k ret

theorem mixerGrpSetup (k : GrpKind) :
    Triple (fun w => EmptyAt I a w.plug w.heap) (mixerGrpSetup b k a) fun _ w => I w.plug w.heap := by
  refine Triple.get_bind fun w => Triple.pre (P := fun w => EmptyAt I a w.plug w.heap) ?_ fun _ hI => hI.1
  refine Triple.ite (fun _ => ?_) fun _ => h.mixerGrpFill k
  refine Triple.bind ((h.emptyAt a).2 k) fun ret => ?_
  refine Triple.ite (fun _ => ?_) fun _ => Triple.bind (modifyMixer_keepsFact _) fun _ => h.mixerGrpFill k
  refine Triple.pre (P := fun w => I w.plug w.heap) ?_ fun _ hI => hI.1
  exact h.mixerGrpAbandon k ret

theorem callocGrp (k : GrpKind) :
    Triple (fun w => I w.plug w.heap) (callocGrp (η := η) (π := π) k)
      fun a w => I w.plug w.heap ∧ (a ≠ 0 → EmptyAt I a w.plug w.heap) := by
  intro w hI
  rw [exec_callocGrp]
  split
  · have hnew := h.new w.plug w.heap w.next k hI
    exact ⟨hnew, fun _ => ⟨hnew, _, Function.update_self .., rfl⟩⟩
  · exact ⟨hI, fun hne => absurd rfl hne⟩

theorem mixerGrpOpen (k : GrpKind) : KeepsFact I (mixerGrpOpen b k) := by
  refine Triple.bind (h.callocGrp k) fun a => ?_
  refine Triple.ite (fun _ => Triple.pure _ fun _ hI => hI.1) fun hne => ?_
  refine Triple.pre (P := fun w => EmptyAt I a w.plug w.heap) ?_ fun _ hI => hI.2 hne
  have hfree : Triple (fun w : MixWorld η π => EmptyAt I a w.plug w.heap) (Tinyalsa.freeGrp a)
      fun _ w => I w.plug w.heap := Triple.pre h.freeGrp fun _ hI => hI.1
  cases k with
  | hw =>
    refine Triple.bind (modifyMixer_keepsFact _) fun _ => ?_
    refine Triple.bind h.mixerHwOpen fun fd => Triple.ite (fun _ => ?_) fun _ => ?_
    · exact Triple.bind hfree fun _ => Triple.pure _ fun _ hI => hI
    · exact Triple.bind (modifyMixer_keepsFact _) fun _ => h.mixerGrpSetup .hw
  | plug =>
    refine Triple.bind ((h.emptyAt a).1 .plug) fun ret => Triple.ite (fun _ => ?_) fun _ => ?_
    · exact Triple.bind hfree fun _ => Triple.pure _ fun _ hI => hI
    · exact Triple.bind (modifyMixer_keepsFact _) fun _ => h.mixerGrpSetup .plug

theorem mixerGrpClose : KeepsFact (η := η) I (mixerGrpClose a) :=
  Triple.ite (fun _ => Triple.pure _ fun _ hI => hI) fun _ => Triple.bind h.freeGrp fun _ => modifyMixer_keepsFact _

theorem closeGrpDev : KeepsFact I (closeGrpDev b a) := by
  have hderef : KeepsFact (η := η) I (derefGrp a) := by
    intro w hI
    cases hg : w.heap a with
    | some g =>
      rw [exec_derefGrp hg]
      exact hI
    | none =>
      rw [exec_derefGrp_none hg]
      exact hI
  exact Triple.bind hderef fun g => h.closeDev g.kind

theorem mixerClose : KeepsFact I (mixerClose b) := by
  intro w hI
  rw [exec_mixerClose]
  split
  · have hI := h.mixerGrpClose (a := w.mixer.hGrp) _ (h.closeGrpDev (a := w.mixer.hGrp) w hI)
    split
    · exact h.mixerGrpClose _ (h.closeGrpDev _ hI)
    · exact h.mixerGrpClose _ hI
  · have hI := h.mixerGrpClose (a := w.mixer.hGrp) w hI
    split
    · exact h.mixerGrpClose _ (h.closeGrpDev _ hI)
    · exact h.mixerGrpClose _ hI

/-- The fact holds after a mixer was opened, or opening it has failed. -/
theorem mixerOpen : KeepsFact I (mixerOpen b) := by
  intro w hI
  have hopened := h.mixerGrpOpen .plug _ (h.mixerGrpOpen .hw (allocatedMixer w) hI)
  rw [exec_mixerOpen]
  split
  · split
    · exact h.mixerClose _ hopened
    · exact hopened
  · exact hI

end OpeningFact

end

end Tinyalsa
