/-
Runs of the calls of a mixer over a plugin whose controls were built by the initialisers: which of them reach outside
the table, read a `value` as another structure than it is, or call a callback that is not there.
-/
import Tinyalsa.Mixer.EnumNames
import Tinyalsa.Mixer.Opening
import Tinyalsa.Mixer.PlugCalls

namespace Tinyalsa

open Hoare ByteMemory Run

/-! ## One request -/

namespace TracedPlugin

section

variable {κ ν : Type} {calls : PlugCallbacks κ ν} {d d' : TracedPlugin κ ν} {c : PlugControl κ} {ok : Prop}

/-- All accesses so far were sound. -/
def AllSound (d : TracedPlugin κ ν) : Prop := ∀ a ∈ d.accesses, a.Sound

theorem Proceeds.allSound_iff (h : Proceeds d d' ok) (hd : d.AllSound) : d'.AllSound ↔ ok := by
  obtain ⟨new, hnew, hok⟩ := h.accesses
  unfold AllSound
  rw [hnew, List.forall_mem_append, hok]
  exact and_iff_left hd

/-- A request that only looks at the table. -/
theorem Proceeds.looks {α : Type} {f : PlugM κ ν α} {r : α}
    (h : ∃ new, (∀ a ∈ new, a.Sound) ∧ exec f d = (r, { d with accesses := new ++ d.accesses })) :
    Proceeds d (exec f d).2 True ∧ (exec f d).2.table = d.table := by
  obtain ⟨new, hnew, hexec⟩ := h
  rw [hexec]
  exact ⟨.record (iff_true_intro hnew), rfl⟩

theorem callElem_proceeds (hc : calls.NeverShrink) (callback : Option κ) (ev : SndCtlElemValue) (d : TracedPlugin κ ν) :
    Proceeds d (exec (callElem calls callback ev) d).2 callback.isSome := by
  have hnew : (∀ a ∈ [PlugAccess.call callback], a.Sound) ↔ callback.isSome := List.forall_mem_singleton
  cases callback with
  | none => exact .record hnew
  | some f => exact ⟨hc.elem f _ _ d.table, _, rfl, hnew⟩

theorem callElem_id (hc : calls.NeverShrink) (callback : Option κ) (ev : SndCtlElemValue) (d : TracedPlugin κ ν) :
    (exec (callElem calls callback ev) d).1.2.id = ev.id := by
  cases callback with
  | none => rfl
  | some f => exact hc.id f _ _ _

theorem callTlv_proceeds (hc : calls.NeverShrink) (callback : Option κ) (tlv : SndCtlTlv) (d : TracedPlugin κ ν) :
    Proceeds d (exec (callTlv calls callback tlv) d).2 callback.isSome := by
  have hnew : (∀ a ∈ [PlugAccess.call callback], a.Sound) ↔ callback.isSome := List.forall_mem_singleton
  cases callback with
  | none => exact .record hnew
  | some f => exact ⟨hc.tlv f _ _ d.table, _, rfl, hnew⟩

/-- A request about the elements of a control looks its identifier up first, and then the control. -/
theorem exec_elemRequest {id : SndCtlElemId} (h : d.table.controls[id.numid.toNat]? = some c) :
    ∃ new id', (∀ a ∈ new, a.Sound) ∧ id'.numid = id.numid ∧
      exec (mixerPlugGetElemId id id.numid) d = ((0, id'), { d with accesses := new ++ d.accesses }) := by
  obtain ⟨new, hnew, hexec⟩ := exec_mixerPlugGetElemId id id.numid d
  rw [Tinyalsa.mixerPlugGetElemId, getElem?_plain, h, Option.map_some] at hexec
  exact ⟨new, { id with iface := c.iface, name := elemName c.name }, hnew, rfl, hexec⟩

theorem exec_mixerPlugElemRead (calls : PlugCallbacks κ ν) {ev : SndCtlElemValue}
    (h : d.table.controls[ev.id.numid.toNat]? = some c) :
    ∃ new id', (∀ a ∈ new, a.Sound) ∧ id'.numid = ev.id.numid ∧ exec (mixerPlugElemRead calls ev) d =
      exec (callElem calls c.get { ev with id := id' }) { d with accesses := new ++ d.accesses } := by
  obtain ⟨new, id', hnew, hid, hexec⟩ := exec_elemRequest h
  refine ⟨.control id'.numid d.table.numControls :: new, id', ?_, hid, ?_⟩
  · exact List.forall_mem_cons.2 ⟨sound_control (by rw [hid]; exact h), hnew⟩
  · simp only [mixerPlugElemRead, exec_bind, hexec, if_neg (lt_irrefl (0 : Int))]
    rw [exec_control (by rw [hid]; exact h)]
    rfl

theorem exec_mixerPlugElemWrite (calls : PlugCallbacks κ ν) {ev : SndCtlElemValue}
    (h : d.table.controls[ev.id.numid.toNat]? = some c) :
    ∃ new id', (∀ a ∈ new, a.Sound) ∧ (exec (mixerPlugElemWrite calls ev) d).2 =
      (exec (callElem calls c.put { ev with id := id' }) { d with accesses := new ++ d.accesses }).2 := by
  obtain ⟨new, id', hnew, hid, hexec⟩ := exec_elemRequest h
  refine ⟨.control id'.numid d.table.numControls :: new, id', ?_, ?_⟩
  · exact List.forall_mem_cons.2 ⟨sound_control (by rw [hid]; exact h), hnew⟩
  · simp only [mixerPlugElemWrite, exec_bind, hexec, if_neg (lt_irrefl (0 : Int))]
    rw [exec_control (by rw [hid]; exact h)]
    rfl

/-- The elements of a control are read by its own callback, which a TLV control has not. -/
theorem elemRead_proceeds (hc : calls.NeverShrink) (ev : SndCtlElemValue)
    (h : d.table.controls[ev.id.numid.toNat]? = some c) :
    Proceeds d ((ctlOps calls).elemRead ev d).2.2 (¬ c.IsTlv) ∧
      ((ctlOps calls).elemRead ev d).2.1.id.numid = ev.id.numid := by
  obtain ⟨new, id', hnew, hid, hexec⟩ := exec_mixerPlugElemRead calls h
  show Proceeds d (exec (mixerPlugElemRead calls ev) d).2 _ ∧ (exec (mixerPlugElemRead calls ev) d).1.2.id.numid = _
  rw [hexec]
  constructor
  · refine ((Proceeds.record (iff_true_intro hnew)).trans (callElem_proceeds hc _ _ _)).congr ?_
    rcases (d.table.built_of_getElem? h).callbacks with ⟨htlv, hget, -⟩ | ⟨htlv, hget, -⟩
    · exact iff_of_true ⟨hget, trivial⟩ htlv
    · exact iff_of_false (by rw [hget]; simp) (not_not.2 htlv)
  · rw [callElem_id hc]
    exact hid

theorem elemWrite_proceeds (hc : calls.NeverShrink) (ev : SndCtlElemValue)
    (h : d.table.controls[ev.id.numid.toNat]? = some c) : Proceeds d ((ctlOps calls).elemWrite ev d).2 (¬ c.IsTlv) := by
  obtain ⟨new, id', hnew, hexec⟩ := exec_mixerPlugElemWrite calls h
  show Proceeds d (exec (mixerPlugElemWrite calls ev) d).2 _
  rw [hexec]
  refine ((Proceeds.record (iff_true_intro hnew)).trans (callElem_proceeds hc _ _ _)).congr ?_
  rcases (d.table.built_of_getElem? h).callbacks with ⟨htlv, -, hput⟩ | ⟨htlv, -, hput, -⟩
  · exact iff_of_true ⟨hput, trivial⟩ htlv
  · exact iff_of_false (by rw [hput]; simp) (not_not.2 htlv)

/-- A request for TLV data that is made of a TLV control. -/
theorem sound_tlv {numid : UInt32} (h : d.table.controls[numid.toNat]? = some c) (ht : c.IsTlv) :
    ∀ a ∈ [PlugAccess.value c .tlvBytes, .control numid d.table.numControls], a.Sound := by
  have hb := d.table.built_of_getElem? h
  rcases hb.callbacks with ⟨htlv, -⟩ | ⟨-, -, -, hstruct, -⟩
  · exact absurd ht htlv
  · refine List.forall_mem_cons.2 ⟨⟨hstruct, ?_⟩, List.forall_mem_singleton.2 (sound_control h)⟩
    rw [hb.calledFor, hstruct]

theorem tlvRead_proceeds (hc : calls.NeverShrink) {tlv : SndCtlTlv}
    (h : d.table.controls[tlv.numid.toNat]? = some c) (ht : c.IsTlv) :
    Proceeds d ((ctlOps calls).tlvRead tlv d).2.2 True := by
  show Proceeds d (exec (mixerPlugTlvRead calls tlv) d).2 True
  simp only [mixerPlugTlvRead, exec_bind, exec_control h]
  rcases (d.table.built_of_getElem? h).callbacks with ⟨htlv, -⟩ | ⟨-, -, -, -, hget, -⟩
  · exact absurd ht htlv
  · refine (Proceeds.trans ?_ (callTlv_proceeds hc _ _ _)).congr (iff_true_intro ⟨hget, trivial⟩)
    exact .record (iff_true_intro (sound_tlv h ht))

theorem tlvWrite_proceeds (hc : calls.NeverShrink) {tlv : SndCtlTlv}
    (h : d.table.controls[tlv.numid.toNat]? = some c) (ht : c.IsTlv) :
    Proceeds d ((ctlOps calls).tlvWrite tlv d).2 True := by
  show Proceeds d (exec (mixerPlugTlvWrite calls tlv) d).2 True
  simp only [mixerPlugTlvWrite, exec_bind, exec_control h, exec_pure]
  rcases (d.table.built_of_getElem? h).callbacks with ⟨htlv, -⟩ | ⟨-, -, -, -, -, hput⟩
  · exact absurd ht htlv
  · refine (Proceeds.trans ?_ (callTlv_proceeds hc _ _ _)).congr (iff_true_intro ⟨hput, trivial⟩)
    exact .record (iff_true_intro (sound_tlv h ht))

theorem elemInfo_proceeds (calls : PlugCallbacks κ ν) (info : SndCtlElemInfo) (d : TracedPlugin κ ν) :
    Proceeds d ((ctlOps calls).elemInfo info d).2.2 True ∧ ((ctlOps calls).elemInfo info d).2.2.table = d.table :=
  Proceeds.looks (exec_mixerPlugGetElemInfo info d)

theorem elemList_proceeds (load : Int) (elist : SndCtlElemList) (d : TracedPlugin κ ν) :
    Proceeds d ((mixerOps (κ := κ) (ν := ν) load).elemList elist d).2.2 True ∧
      ((mixerOps (κ := κ) (ν := ν) load).elemList elist d).2.2.table = d.table :=
  Proceeds.looks (exec_mixerPlugGetElemList elist d)

end

end TracedPlugin

/-! ## One accessor -/

/-- The call does not ask for a single value of a control with TLV data. -/
def CtlCall.AvoidsTlv (ctl : MixerCtl) : CtlCall → Prop
  | .getValue id | .setValue id _ => mixerCtlIsAccessTlvRw ctl → ctl.info.count ≤ id
  | _ => True

section

open TracedPlugin

variable {κ ν : Type} {calls : PlugCallbacks κ ν} {ctl : MixerCtl} {s : AccessState (TracedPlugin κ ν)}
    {c : PlugControl κ}

theorem isAccessTlvRw_iff (h : ctl.info.access = c.access) : mixerCtlIsAccessTlvRw ctl = true ↔ c.IsTlv := by
  unfold mixerCtlIsAccessTlvRw PlugControl.IsTlv
  rw [h, decide_eq_true_iff]

/-- Only bytes come with TLV data. -/
theorem PlugControl.Built.type_of_tlv (h : c.Built) (ht : c.IsTlv) : c.type = .bytes := by
  cases h
  case tlvBytes => rfl
  all_goals exact absurd access_readwrite ht

theorem getValue_proceeds (hc : calls.NeverShrink) {id : UInt32}
    (h : s.dev.table.controls[ctl.info.id.numid.toNat]? = some c) :
    Proceeds s.dev (exec (mixerCtlGetValue (ctlOps calls) ctl id) s).2.dev (c.IsTlv → ctl.info.count ≤ id) := by
  by_cases hid : ctl.info.count ≤ id
  · rw [exec_mixerCtlGetValue_range hid]
    exact (Proceeds.refl _).congr (iff_of_true trivial fun _ => hid)
  · have hread : Proceeds s.dev ((ctlOps calls).elemRead ctl.elemValue s.dev).2.2 (c.IsTlv → ctl.info.count ≤ id) :=
      (elemRead_proceeds hc ctl.elemValue h).1.congr (by simp only [hid, imp_false])
    by_cases hr : ReadFails (ctlOps calls) ctl s
    · rwa [exec_mixerCtlGetValue_fails hid hr]
    · cases hs : ctl.info.type.single with
      | false => rwa [exec_mixerCtlGetValue_none hid hr hs]
      | true =>
        obtain ⟨m, hm⟩ := CtlElemType.member_of_single hs
        rwa [exec_mixerCtlGetValue hid hr hs hm]

theorem setValue_proceeds (hc : calls.NeverShrink) {id : UInt32} {value : Int}
    (h : s.dev.table.controls[ctl.info.id.numid.toNat]? = some c) :
    Proceeds s.dev (exec (mixerCtlSetValue (ctlOps calls) ctl id value) s).2.dev (c.IsTlv → ctl.info.count ≤ id) := by
  by_cases hid : ctl.info.count ≤ id
  · rw [exec_mixerCtlSetValue_range hid]
    exact (Proceeds.refl _).congr (iff_of_true trivial fun _ => hid)
  · obtain ⟨hread, hnum⟩ := elemRead_proceeds hc ctl.elemValue h
    have hiff : ¬ c.IsTlv ↔ (c.IsTlv → ctl.info.count ≤ id) := by simp only [hid, imp_false]
    by_cases hr : ReadFails (ctlOps calls) ctl s
    · rw [exec_mixerCtlSetValue_fails hid hr]
      exact hread.congr hiff
    · cases hs : ctl.info.type.single with
      | false =>
        rw [exec_mixerCtlSetValue_none hid hr hs]
        exact hread.congr hiff
      | true =>
        obtain ⟨m, hm⟩ := CtlElemType.member_of_single hs
        rw [exec_mixerCtlSetValue hid hr hs hm]
        -- the control that is written is the one that was read, with the same access flags
        obtain ⟨c', hc', -, haccess⟩ := hread.grows _ _ h
        have hwrite := elemWrite_proceeds hc (d := ((ctlOps calls).elemRead ctl.elemValue s.dev).2.2) (c := c')
          (setElem (ctlOps calls) ctl s m id.toNat (ctl.info.type.encode value)) (by
            show _[((ctlOps calls).elemRead ctl.elemValue s.dev).2.1.id.numid.toNat]? = _
            rw [hnum]
            exact hc')
        refine (hread.trans hwrite).congr ?_
        unfold PlugControl.IsTlv at hiff ⊢
        rw [haccess, and_self, hiff]

theorem readElems_proceeds (hc : calls.NeverShrink) {m : ValueMember} {a : Memory} {count : Nat}
    (h : s.dev.table.controls[ctl.info.id.numid.toNat]? = some c) (ht : ¬ c.IsTlv) :
    Proceeds s.dev (exec (readArray (ctlOps calls) ctl m a count) s).2.dev True := by
  have hread := (elemRead_proceeds hc ctl.elemValue h).1.congr (iff_true_intro ht)
  simp only [readArray, exec_bind, exec_ite, exec_pure, exec_touch]
  split <;> exact hread

theorem readTlv_proceeds (hc : calls.NeverShrink) {a : Memory} {count : UInt64}
    (h : s.dev.table.controls[ctl.info.id.numid.toNat]? = some c) (ht : c.IsTlv) :
    Proceeds s.dev (exec (readTlv (ctlOps calls) ctl a count) s).2.dev True := by
  simp only [readTlv, exec_bind, exec_ite, exec_pure]
  split
  · exact .refl _
  · split
    · exact .refl _
    · exact tlvRead_proceeds hc h ht

theorem writeTlv_proceeds (hc : calls.NeverShrink) {a : Memory} {count : UInt64}
    (h : s.dev.table.controls[ctl.info.id.numid.toNat]? = some c) (ht : c.IsTlv) :
    Proceeds s.dev (exec (writeTlv (ctlOps calls) ctl a count) s).2.dev True := by
  simp only [writeTlv, exec_bind, exec_ite, exec_pure]
  split
  · exact .refl _
  · split
    · exact .refl _
    · exact tlvWrite_proceeds hc h ht

/-- The array accessors choose the TLV request just for controls with TLV data. -/
theorem arrayPath_tlv_iff (hb : c.Built) (htype : ctl.info.type = c.type) (haccess : ctl.info.access = c.access) :
    (ctl.arrayPath = some .tlv → c.IsTlv) ∧ ∀ m, ctl.arrayPath = some (.elems m) → ¬ c.IsTlv := by
  have hiff := isAccessTlvRw_iff haccess
  unfold MixerCtl.arrayPath
  constructor
  · intro hp
    cases ht : ctl.info.type <;> rw [ht] at hp <;> dsimp only at hp
    case bytes =>
      split at hp
      · rename_i hrw
        exact hiff.1 hrw
      · cases hp
    all_goals cases hp
  · intro m hp htlv
    rw [htype, hb.type_of_tlv htlv] at hp
    dsimp only at hp
    rw [if_pos (hiff.2 htlv)] at hp
    cases hp

/-- A call of an accessor is sound just when it does not ask for a single value of a control with TLV data. -/
theorem ctlCall_proceeds (hc : calls.NeverShrink) (call : CtlCall) (h : s.dev.table.Has ctl.info) :
    Proceeds s.dev (exec (call.run (ctlOps calls) ctl) s).2.dev (call.AvoidsTlv ctl) := by
  obtain ⟨c, hget, htype, haccess⟩ := h
  have hb := s.dev.table.built_of_getElem? hget
  have hiff := isAccessTlvRw_iff haccess
  obtain ⟨htlv, helems⟩ := arrayPath_tlv_iff hb htype haccess
  cases call with
  | getValue id => exact (getValue_proceeds hc hget).congr (imp_congr hiff.symm Iff.rfl)
  | setValue id value => exact (setValue_proceeds hc hget).congr (imp_congr hiff.symm Iff.rfl)
  | getArray array count =>
    show Proceeds s.dev (exec (mixerCtlGetArray (ctlOps calls) ctl array count) s).2.dev True
    cases array with
    | none => exact .refl _
    | some a =>
      by_cases hbad : BadCount ctl count
      · rw [exec_mixerCtlGetArray_bad hbad]
        exact .refl _
      rw [exec_mixerCtlGetArray hbad]
      match hp : ctl.arrayPath with
      | some (.elems m) => exact readElems_proceeds hc hget (helems m hp)
      | some .tlv => exact readTlv_proceeds hc hget (htlv hp)
      | none => exact .refl _
  | setArray array count =>
    show Proceeds s.dev (exec (mixerCtlSetArray (ctlOps calls) ctl array count) s).2.dev True
    cases array with
    | none => exact .refl _
    | some a =>
      by_cases hbad : BadCount ctl count
      · rw [exec_mixerCtlSetArray_bad hbad]
        exact .refl _
      rw [exec_mixerCtlSetArray hbad]
      match hp : ctl.arrayPath with
      | some (.elems m) => exact (elemWrite_proceeds hc _ hget).congr (iff_true_intro (helems m hp))
      | some .tlv => exact writeTlv_proceeds hc hget (htlv hp)
      | none => exact .refl _

end

/-! ## One call about names -/

section

variable {δ : Type} {ops : CtlOps δ} {ctl : MixerCtl} {D : δ → Prop} {a : Addr}

/-- The function leaves the device and the control alone. -/
def LeavesDev {α : Type} (f : EnumM δ α) : Prop := ∀ w, (exec f w).2.dev = w.dev ∧ (exec f w).2.ctl = w.ctl

/-- The device is in `D`, and the control is `ctl`. -/
def At (D : δ → Prop) (ctl : MixerCtl) (w : EnumWorld δ) : Prop := D w.dev ∧ w.ctl = ctl

theorem LeavesDev.at {α : Type} {f : EnumM δ α} (h : LeavesDev f) : Triple (At D ctl) f fun _ => At D ctl := by
  rintro w ⟨hd, hctl⟩
  obtain ⟨hdev, hctl'⟩ := h w
  exact ⟨by rw [hdev]; exact hd, by rw [hctl', hctl]⟩

theorem LeavesDev.bind {α β : Type} {f : EnumM δ α} {g : α → EnumM δ β} (hf : LeavesDev f) (hg : ∀ r, LeavesDev (g r)) :
    LeavesDev (f >>= g) := by
  intro w
  obtain ⟨hdev, hctl⟩ := hf w
  obtain ⟨hdev', hctl'⟩ := hg (exec f w).1 (exec f w).2
  exact ⟨hdev'.trans hdev, hctl'.trans hctl⟩

theorem leavesDev_pure {α : Type} (r : α) : LeavesDev (pure r : EnumM δ α) := fun _ => ⟨rfl, rfl⟩

theorem leavesDev_allocObj (o : NameObj) : LeavesDev (δ := δ) (allocObj o) := by
  intro w
  rcases allocObj_cases w o with ⟨-, h⟩ | ⟨-, h⟩ <;> rw [h] <;> exact ⟨rfl, rfl⟩

theorem leavesDev_freeObj (a : Addr) : LeavesDev (δ := δ) (freeObj a) := by
  intro w
  unfold freeObj
  split
  · simp only [exec_bind, exec_get]
    split <;> exact ⟨rfl, rfl⟩
  · exact ⟨rfl, rfl⟩

theorem leavesDev_getCell (a : Addr) (i : Nat) : LeavesDev (δ := δ) (getCell a i) := by
  intro w
  simp only [getCell, exec_bind, exec_get]
  split <;> exact ⟨rfl, rfl⟩

theorem leavesDev_setCell (a : Addr) (i : Nat) (name : Addr) : LeavesDev (δ := δ) (setCell a i name) := by
  intro w
  simp only [setCell, exec_bind, exec_get]
  split
  · split <;> exact ⟨rfl, rfl⟩
  · exact ⟨rfl, rfl⟩

theorem leavesDev_readString (a : Addr) : LeavesDev (δ := δ) (readString a) := by
  intro w
  simp only [readString, exec_bind, exec_get]
  split <;> exact ⟨rfl, rfl⟩

theorem leavesDev_freeNames (a : Addr) : ∀ rem m, LeavesDev (δ := δ) (freeNames a rem m)
  | 0, _ => leavesDev_pure ()
  | rem + 1, m => (leavesDev_getCell a m).bind fun name => (leavesDev_freeObj name).bind fun _ =>
    leavesDev_freeNames a rem (m + 1)

/-- What requests for items, and writing the item of an enumerated control, keep of the device. -/
structure ItemsKeep (ops : CtlOps δ) (ctl : MixerCtl) (D : δ → Prop) : Prop where
  info : ∀ tmp d, D d → D (ops.elemInfo tmp d).2.2
  write : ctl.info.type = .enumerated → ∀ i d, D d → D (ops.elemWrite (ctl.itemValue i) d).2

namespace ItemsKeep

variable (h : ItemsKeep ops ctl D)

include h

theorem ioctlItemInfo (tmp : SndCtlElemInfo) : Triple (At D ctl) (ioctlItemInfo ops tmp) fun _ => At D ctl :=
  fun _ hw => ⟨h.info _ _ hw.1, hw.2⟩

theorem fillLoop (a : Addr) : ∀ rem m, Triple (At D ctl) (fillLoop ops a rem m) fun _ => At D ctl
  | 0, _ => Triple.pure _ fun _ hw => hw
  | rem + 1, m => by
    refine Triple.get_bind fun w => Triple.pre (P := At D ctl) ?_ fun _ hw => hw.1
    refine Triple.bind (h.ioctlItemInfo _) fun r => Triple.ite (fun _ => Triple.pure _ fun _ hw => hw) fun _ => ?_
    refine Triple.bind (leavesDev_allocObj _).at fun name => Triple.bind (leavesDev_setCell a m name).at fun _ => ?_
    exact Triple.ite (fun _ => Triple.pure _ fun _ hw => hw) fun _ => fillLoop a rem (m + 1)

theorem mixerCtlFillEnumString : Triple (At D ctl) (mixerCtlFillEnumString ops) fun _ => At D ctl := by
  refine Triple.get_bind fun w => Triple.pre (P := At D ctl) ?_ fun _ hw => hw.1
  refine Triple.ite (fun _ => Triple.pure _ fun _ hw => hw) fun _ => ?_
  refine Triple.bind (leavesDev_allocObj _).at fun a => Triple.ite (fun _ => Triple.pure _ fun _ hw => hw) fun _ => ?_
  refine Triple.bind (h.fillLoop a _ _) fun ok => Triple.ite (fun _ => ?_) fun _ => ?_
  · exact Triple.bind (Q := fun _ => At D ctl) (Triple.modify fun _ hw => hw) fun _ => Triple.pure _ fun _ hw => hw
  · rw [freeFilled_eq]
    refine Triple.bind (leavesDev_freeNames a _ _).at fun _ => Triple.bind (leavesDev_freeObj a).at fun _ => ?_
    exact Triple.pure _ fun _ hw => hw

theorem mixerCtlGetEnumString (enumId : UInt32) :
    Triple (At D ctl) (mixerCtlGetEnumString ops enumId) fun _ => At D ctl := by
  refine Triple.get_bind fun w => Triple.pre (P := At D ctl) ?_ fun _ hw => hw.1
  refine Triple.ite (fun _ => Triple.pure _ fun _ hw => hw) fun _ => ?_
  refine Triple.bind h.mixerCtlFillEnumString fun ret => Triple.ite (fun _ => Triple.pure _ fun _ hw => hw) fun _ => ?_
  exact Triple.get_bind fun w => Triple.pre (leavesDev_getCell _ _).at fun _ hw => hw.1

theorem searchLoop (ht : ctl.info.type = .enumerated) (string : CString) :
    ∀ rem i, Triple (At D ctl) (searchLoop ops string rem i) fun _ => At D ctl
  | 0, _ => Triple.pure _ fun _ hw => hw
  | rem + 1, i => by
    refine Triple.get_bind fun w => ?_
    refine Triple.bind (Q := fun _ w' => At D ctl w' ∧ w.ctl = ctl) ?_ fun a => ?_
    · rintro _ ⟨hw, rfl⟩
      exact ⟨(leavesDev_getCell _ _).at _ hw, hw.2⟩
    refine Triple.bind (Q := fun _ w' => At D ctl w' ∧ w.ctl = ctl) ?_ fun name => ?_
    · rintro w' ⟨hw, hctl⟩
      exact ⟨(leavesDev_readString _).at _ hw, hctl⟩
    refine Triple.assume fun hctl => Triple.ite (fun _ => ?_) fun _ => searchLoop ht string rem (i + 1)
    refine Triple.bind (Q := fun _ => At D ctl) ?_ fun ret => Triple.pure _ fun _ hw => hw
    rintro w' ⟨hd, hctl'⟩
    refine ⟨?_, hctl'⟩
    show D (ops.elemWrite (w.ctl.itemValue i) w'.dev).2
    rw [hctl]
    exact h.write ht i _ hd

theorem mixerCtlSetEnumByString (string : Option CString) :
    Triple (At D ctl) (mixerCtlSetEnumByString ops string) fun _ => At D ctl := by
  intro w hw
  cases string with
  | none => exact hw
  | some string =>
    simp only [Tinyalsa.mixerCtlSetEnumByString, exec_bind, exec_get, exec_ite, exec_pure]
    split
    · exact hw
    · rename_i ht
      rw [not_not, hw.2] at ht
      have hfill := h.mixerCtlFillEnumString w hw
      split
      · exact hfill
      · exact h.searchLoop ht string _ _ _ hfill

end ItemsKeep

theorem leavesDev_mixerCleanupControl : LeavesDev (δ := δ) mixerCleanupControl := by
  intro w
  simp only [mixerCleanupControl, exec_bind, exec_get]
  split
  · exact ((leavesDev_freeNames _ _ _).bind fun _ => leavesDev_freeObj _) w
  · exact ⟨rfl, rfl⟩

end

section

open TracedPlugin

variable {κ ν : Type} {calls : PlugCallbacks κ ν} {d d₀ : TracedPlugin κ ν} {info : SndCtlElemInfo}

/-- Whether a control is described or not, what it is is told. -/
theorem mixerPlugInfo_tells (ctl : SndControl) (einfo : SndCtlElemInfo) :
    (Tinyalsa.mixerPlugInfo ctl einfo).2.id = einfo.id ∧ (Tinyalsa.mixerPlugInfo ctl einfo).2.type = einfo.type ∧
      (Tinyalsa.mixerPlugInfo ctl einfo).2.access = einfo.access := by
  unfold Tinyalsa.mixerPlugInfo Tinyalsa.mixerPlugInfoEnum Tinyalsa.mixerPlugInfoBytes
  cases ctl.type <;> dsimp only
  case enumerated => split <;> exact ⟨rfl, rfl, rfl⟩
  case bytes => split <;> exact ⟨rfl, rfl, rfl⟩
  all_goals exact ⟨rfl, rfl, rfl⟩

/-- The information of a control remains that of a control of the table when it is read anew. -/
theorem has_elemInfo (h : d.table.Has info) : d.table.Has ((ctlOps calls).elemInfo info d).2.1 := by
  obtain ⟨c, hc, -, -⟩ := h
  obtain ⟨new, -, hexec⟩ := exec_mixerPlugGetElemInfo info d
  show d.table.Has (exec (TracedPlugin.mixerPlugGetElemInfo info) d).1.2
  have hplain : d.table.plain.controls[info.id.numid.toNat]? = some c.plain := by rw [getElem?_plain, hc]; rfl
  simp only [hexec, Tinyalsa.mixerPlugGetElemInfo, Tinyalsa.mixerPlugGetElemId, hplain]
  obtain ⟨hid, htype, haccess⟩ := mixerPlugInfo_tells c.plain { info with
    id := { info.id with numid := info.id.numid, iface := c.plain.iface, name := elemName c.plain.name }
    type := c.plain.type
    access := c.plain.access }
  exact ⟨c, by rw [hid]; exact hc, htype, haccess⟩

theorem itemsKeep (hc : calls.NeverShrink) {ctl : MixerCtl} (h : d₀.table.Has ctl.info) :
    ItemsKeep (ctlOps calls) ctl fun d => Proceeds d₀ d True where
  info := fun tmp d hd => (hd.trans (elemInfo_proceeds calls tmp d).1).congr (and_self_iff.trans Iff.rfl)
  write := fun ht i d hd => by
    obtain ⟨c, hget, htype, -⟩ := h.grow hd.grows
    have htlv : ¬ c.IsTlv := by
      intro hc'
      have hbytes := (d.table.built_of_getElem? hget).type_of_tlv hc'
      rw [ht, hbytes] at htype
      cases htype
    exact (hd.trans (elemWrite_proceeds hc (ctl.itemValue i) hget)).congr (iff_true_intro ⟨htlv, trivial⟩)

/-- A call about the names of a control is sound, and leaves it a control of the table. -/
theorem enumCall_proceeds (hc : calls.NeverShrink) (call : EnumCall) {e : EnumWorld (TracedPlugin κ ν)}
    (h : e.dev.table.Has e.ctl.info) : Proceeds e.dev (exec (call.run (ctlOps calls)) e).2.dev True ∧
      (exec (call.run (ctlOps calls)) e).2.dev.table.Has (exec (call.run (ctlOps calls)) e).2.ctl.info := by
  have hat : At (fun d => Proceeds e.dev d True) e.ctl e := ⟨.refl _, rfl⟩
  have hkeeps {e' : EnumWorld (TracedPlugin κ ν)} (h' : At (fun d => Proceeds e.dev d True) e.ctl e') :
      Proceeds e.dev e'.dev True ∧ e'.dev.table.Has e'.ctl.info := by
    obtain ⟨hdev, hctl⟩ := h'
    exact ⟨hdev, hctl ▸ h.grow hdev.grows⟩
  cases call with
  | getEnumString enumId => exact hkeeps ((itemsKeep hc h).mixerCtlGetEnumString enumId e hat)
  | setEnumByString string => exact hkeeps ((itemsKeep hc h).mixerCtlSetEnumByString string e hat)
  | update =>
    obtain ⟨hinfo, htable⟩ := elemInfo_proceeds calls e.ctl.info e.dev
    refine ⟨hinfo, ?_⟩
    show ((ctlOps calls).elemInfo e.ctl.info e.dev).2.2.table.Has ((ctlOps calls).elemInfo e.ctl.info e.dev).2.1
    rw [htable]
    exact has_elemInfo h
  | close => exact hkeeps (leavesDev_mixerCleanupControl.at e hat)

end

/-! ## Groups -/

section

open TracedPlugin

variable {η κ ν : Type} {calls : PlugCallbacks κ ν} {hw : MixerOps η} {load : Int} {d₀ : TracedPlugin κ ν}
  {t t' : PlugTable κ ν} {heap : Addr → Option MixerCtlGroup}

/-- The controls of the groups of a plugin are controls of its table. -/
def TableHas (t : PlugTable κ ν) (heap : Addr → Option MixerCtlGroup) : Prop :=
  ∀ a g, heap a = some g → g.kind = .plug → ∀ i, i < g.count.toNat → t.Has (g.ctl i).info

theorem TableHas.grow (h : TableHas t heap) (ht : t.Grows t') : TableHas t' heap :=
  fun a g hg hk i hi => (h a g hg hk i hi).grow ht

theorem TableHas.update (h : TableHas t heap) (a : Addr) {g : Option MixerCtlGroup}
    (hg : ∀ g', g = some g' → g'.kind = .plug → ∀ i, i < g'.count.toNat → t.Has (g'.ctl i).info) :
    TableHas t (Function.update heap a g) := by
  intro a' g' ha' hk
  rcases eq_or_ne a' a with rfl | hne
  · rw [Function.update_self] at ha'
    exact hg g' ha' hk
  · rw [Function.update_of_ne hne] at ha'
    exact h a' g' ha' hk

/-- The backends of a card with a plugin whose accesses are recorded. -/
def withTraced (hw : MixerOps η) (load : Int) : MixBackends η (TracedPlugin κ ν) := ⟨hw, mixerOps load⟩

/-- Since `d₀` the plugin was only looked at, and its groups hold controls of its table. -/
def Scanned (d₀ d : TracedPlugin κ ν) (heap : Addr → Option MixerCtlGroup) : Prop :=
  (Proceeds d₀ d True ∧ d.table = d₀.table) ∧ TableHas d₀.table heap

/-- A control that a scan describes is one of the table. -/
theorem has_described {D : TracedPlugin κ ν → Prop} (hD : ∀ d, D d → d.table = t) {mixer grp : Addr} {numid : UInt32}
    {c : MixerCtl} (h : Described (mixerOps load) D mixer grp numid {} c) : t.Has c.info := by
  obtain ⟨d, hd, hret, rfl⟩ := h
  obtain ⟨_, -, hexec⟩ := exec_mixerPlugGetElemInfo (({} : MixerCtl).request numid) d
  have hinfo : ((mixerOps load).elemInfo (({} : MixerCtl).request numid) d).2.1 =
      (Tinyalsa.mixerPlugGetElemInfo d.table.plain (({} : MixerCtl).request numid)).2 := congrArg (·.1.2) hexec
  have hanswer : ((mixerOps load).elemInfo (({} : MixerCtl).request numid) d).1 =
      (Tinyalsa.mixerPlugGetElemInfo d.table.plain (({} : MixerCtl).request numid)).1 := congrArg (·.1.1) hexec
  obtain ⟨c, hget, hdesc⟩ := mixerPlugGetElemInfo_describes (hanswer ▸ hret)
  rw [getElem?_plain, hD d hd] at hget
  obtain ⟨c', hget', rfl⟩ := Option.map_eq_some_iff.1 hget
  rw [hinfo]
  exact ⟨c', by rw [hdesc.numid]; exact hget', hdesc.type, hdesc.access⟩

/-- A scan of a group, which may have been freed, looks at the plugin and describes controls of its table. -/
theorem addControlsTo_scanned (a : Addr) :
    KeepsFact (η := η) (Scanned d₀) (addControlsTo (withTraced hw load) a) := by
  rintro w ⟨⟨hd, htable⟩, hhas⟩
  have hwKind {g : MixerCtlGroup} (hk : g.kind = .hw) (w' : MixWorld η (TracedPlugin κ ν)) :
      ∀ g', some (exec (addControls hw w'.self a) (scanState w'.hw g w')).2.grp = some g' → g'.kind = .plug →
        ∀ i, i < g'.count.toNat → d₀.table.Has (g'.ctl i).info := by
    have hgrow := (groupGrows hw w'.self a (s := scanState w'.hw g w') rfl).1
    rintro g' hg' hk'
    obtain rfl := Option.some.inj hg'
    exact absurd ((hk.symm.trans hgrow.kind.symm).trans hk') (by decide)
  cases hg : w.heap a with
  | none =>
    rw [exec_addControlsTo_none hg]
    exact ⟨⟨hd, htable⟩, hhas.update a (hwKind rfl _)⟩
  | some g =>
    cases hk : g.kind with
    | hw =>
      rw [exec_addControlsTo_hw hg hk]
      exact ⟨⟨hd, htable⟩, hhas.update a (hwKind hk w)⟩
    | plug =>
      have hlook (d : TracedPlugin κ ν) (r : TracedPlugin κ ν) (h : Proceeds d r True ∧ r.table = d.table) :
          (Proceeds d₀ d True ∧ d.table = d₀.table) → Proceeds d₀ r True ∧ r.table = d₀.table :=
        fun hd => ⟨(hd.1.trans h.1).congr (and_self_iff.trans Iff.rfl), h.2.trans hd.2⟩
      obtain ⟨eid, m, new, h⟩ := addControls_spec (D := fun d => Proceeds d₀ d True ∧ d.table = d₀.table)
        (mixerOps (κ := κ) (ν := ν) load) w.self a
        (fun i d => hlook d _ (Proceeds.looks (exec_mixerPlugGetElemInfo i d)))
        (fun l d => hlook d _ (elemList_proceeds load l d)) (scanState w.plug g w) ⟨hd, htable⟩
      rw [exec_addControlsTo_plug hg hk]
      refine ⟨h.spec.dev, hhas.update a fun g' hg' _ i hi => ?_⟩
      obtain rfl := Option.some.inj hg'
      by_cases hold : i < g.count.toNat
      · have hkept := h.spec.kept i hold
        rw [show (withTraced hw load).plug = mixerOps load from rfl, hkept]
        exact hhas a g hg hk i hold
      · have hlt : i < m := by
          rw [← h.spec.count]
          exact hi
        exact has_described (fun d hd => hd.2) (h.spec.added i (not_lt.1 hold) hlt)

theorem scanned_fact : OpeningFact (η := η) (withTraced hw load) (Scanned d₀) where
  opens := fun _ _ h => h
  closes := fun _ _ h => h
  cardInfo := fun _ _ h => h
  free := fun _ _ a h => ⟨h.1, h.2.update a nofun⟩
  new := fun _ _ a _ h => ⟨h.1, h.2.update a fun g' hg' _ i hi => by
    obtain rfl := Option.some.inj hg'
    exact absurd hi (Nat.not_lt_zero i)⟩
  scan := fun w a _ _ _ h => addControlsTo_scanned a w h

theorem mixerAddNewCtls_scanned (w : MixWorld η (TracedPlugin κ ν)) (h : Scanned d₀ w.plug w.heap) :
    Scanned d₀ (exec (mixerAddNewCtls (withTraced hw load)) w).2.plug
      (exec (mixerAddNewCtls (withTraced hw load)) w).2.heap := by
  have hrescan (a : Addr) : KeepsFact (η := η) (Scanned d₀) (rescanGrp (withTraced hw load) a) :=
    Triple.ite (fun _ => addControlsTo_scanned a) fun _ => Triple.pure _ fun _ h => h
  rw [exec_mixerAddNewCtls]
  exact hrescan _ _ (hrescan _ w h)

end

/-! ## Runs -/

/-- What is done to a card with a plugin: it, its hardware and the allocator become different, the caller turns to
another of its mixers, a mixer is opened, controls are added to the mixer, or a control of a group is called. The
names that were kept for a control may be any. -/
inductive PlugCtlAct (η κ ν : Type)
  | become (table : PlugTable κ ν) (hw : η) (alloc : Nat → Bool)
  | turnTo (self : Addr) (mixer : Mixer)
  | mixerOpen
  | mixerAddNewCtls
  | value (grp : Addr) (n : Nat) (call : CtlCall)
  | names (grp : Addr) (n : Nat) (call : EnumCall) (ename : Addr) (heap : ObjHeap NameObj)

section

open TracedPlugin

variable {η κ ν : Type} (calls : PlugCallbacks κ ν) (hw : MixerOps η) (hwCtl : CtlOps η) (load : Int)

/-- A call of an accessor on a control of the group `g`. -/
def valueCall (w : MixWorld η (TracedPlugin κ ν)) (g : MixerCtlGroup) (n : Nat) (call : CtlCall) :
    MixWorld η (TracedPlugin κ ν) :=
  match g.kind with
  | .hw =>
    let s := (exec (call.run hwCtl (g.ctl n)) { dev := w.hw, alloc := w.alloc }).2
    { w with hw := s.dev, alloc := s.alloc }
  | .plug =>
    let s := (exec (call.run (ctlOps calls) (g.ctl n)) { dev := w.plug, alloc := w.alloc }).2
    { w with plug := s.dev, alloc := s.alloc }

/-- The group after a call that changed one of its controls. -/
def MixerCtlGroup.putCtl (g : MixerCtlGroup) (n : Nat) (ctl : MixerCtl) : MixerCtlGroup :=
  { g with ctl := Function.update g.ctl n ctl }

/-- A call about names on a control of the group `g` at `grp`. -/
def namesCall (w : MixWorld η (TracedPlugin κ ν)) (grp : Addr) (g : MixerCtlGroup) (n : Nat) (call : EnumCall)
    (ename : Addr) (heap : ObjHeap NameObj) : MixWorld η (TracedPlugin κ ν) :=
  match g.kind with
  | .hw =>
    let e := (exec (call.run hwCtl) { dev := w.hw, ctl := g.ctl n, ename, alloc := w.alloc, heap }).2
    { w with hw := e.dev, alloc := e.alloc, heap := Function.update w.heap grp (some (g.putCtl n e.ctl)) }
  | .plug =>
    let e := (exec (call.run (ctlOps calls)) { dev := w.plug, ctl := g.ctl n, ename, alloc := w.alloc, heap }).2
    { w with plug := e.dev, alloc := e.alloc, heap := Function.update w.heap grp (some (g.putCtl n e.ctl)) }

/-- There is a call only where there is a control. -/
def plugCtlStep (w : MixWorld η (TracedPlugin κ ν)) : PlugCtlAct η κ ν → MixWorld η (TracedPlugin κ ν)
  | .become table hw alloc => { w with plug := { w.plug with table }, hw, alloc }
  | .turnTo self mixer => { w with self, mixer }
  | .mixerOpen => (exec (mixerOpen (withTraced hw load)) w).2
  | .mixerAddNewCtls => (exec (mixerAddNewCtls (withTraced hw load)) w).2
  | .value grp n call => (w.heap grp).elim w fun g =>
    if n < g.count.toNat then valueCall calls hwCtl w g n call else w
  | .names grp n call ename heap => (w.heap grp).elim w fun g =>
    if n < g.count.toNat then namesCall calls hwCtl w grp g n call ename heap else w

/-- The table of the plugin never shrinks. -/
def TableGrows (w : MixWorld η (TracedPlugin κ ν)) : PlugCtlAct η κ ν → Prop
  | .become table _ _ => w.plug.table.Grows table
  | _ => True

/-- No single value is asked for of a control of the plugin that has TLV data. -/
def AvoidsTlvValues (w : MixWorld η (TracedPlugin κ ν)) : PlugCtlAct η κ ν → Prop
  | .value grp n call => ∀ g, w.heap grp = some g → n < g.count.toNat → g.kind = .plug → call.AvoidsTlv (g.ctl n)
  | _ => True

variable {calls hw hwCtl load} {w : MixWorld η (TracedPlugin κ ν)}

theorem TableHas.putCtl {t : PlugTable κ ν} {heap : Addr → Option MixerCtlGroup} (h : TableHas t heap) {grp : Addr}
    {g : MixerCtlGroup} (hg : heap grp = some g) {n : Nat} {ctl : MixerCtl} (hctl : g.kind = .plug → t.Has ctl.info) :
    TableHas t (Function.update heap grp (some (g.putCtl n ctl))) := by
  refine h.update grp fun g' hg' hk i hi => ?_
  obtain rfl := Option.some.inj hg'
  show t.Has (Function.update g.ctl n ctl i).info
  rcases eq_or_ne i n with rfl | hne
  · rw [Function.update_self]
    exact hctl hk
  · rw [Function.update_of_ne hne]
    exact h grp g hg hk i hi

/-- What one step does to the plugin and the groups. -/
theorem plugCtlStep_proceeds (hc : calls.NeverShrink) (h : TableHas w.plug.table w.heap) (a : PlugCtlAct η κ ν)
    (ha : TableGrows w a) :
    TableHas (plugCtlStep calls hw hwCtl load w a).plug.table (plugCtlStep calls hw hwCtl load w a).heap ∧
      (w.plug.AllSound → ((plugCtlStep calls hw hwCtl load w a).plug.AllSound ↔ AvoidsTlvValues w a)) := by
  have hstart : Scanned w.plug w.plug w.heap := ⟨⟨.refl _, rfl⟩, h⟩
  have hscanned {w' : MixWorld η (TracedPlugin κ ν)} (hs : Scanned w.plug w'.plug w'.heap) :
      TableHas w'.plug.table w'.heap ∧ (w.plug.AllSound → (w'.plug.AllSound ↔ True)) :=
    ⟨hs.1.2 ▸ hs.2, fun hall => hs.1.1.allSound_iff hall⟩
  cases a with
  | become table hw' alloc => exact ⟨h.grow ha, fun hall => iff_of_true hall trivial⟩
  | turnTo self mixer => exact ⟨h, fun hall => iff_of_true hall trivial⟩
  | mixerOpen => exact hscanned (scanned_fact.mixerOpen w hstart)
  | mixerAddNewCtls => exact hscanned (mixerAddNewCtls_scanned w hstart)
  | value grp n call =>
    cases hg : w.heap grp with
    | none =>
      simp only [plugCtlStep, AvoidsTlvValues, hg, Option.elim_none]
      exact ⟨h, fun hall => iff_of_true hall nofun⟩
    | some g =>
      simp only [plugCtlStep, AvoidsTlvValues, hg, Option.elim_some, Option.some.injEq, forall_eq']
      by_cases hn : n < g.count.toNat
      · rw [if_pos hn]
        cases hk : g.kind with
        | hw =>
          simp only [valueCall, hk]
          exact ⟨h, fun hall => iff_of_true hall fun _ => nofun⟩
        | plug =>
          have hcall := ctlCall_proceeds hc call (s := { dev := w.plug, alloc := w.alloc }) (h grp g hg hk n hn)
          simp only [valueCall, hk, hn, true_imp_iff]
          exact ⟨h.grow hcall.grows, fun hall => hcall.allSound_iff hall⟩
      · rw [if_neg hn]
        exact ⟨h, fun hall => iff_of_true hall fun hn' => absurd hn' hn⟩
  | names grp n call ename heap =>
    cases hg : w.heap grp with
    | none =>
      simp only [plugCtlStep, AvoidsTlvValues, hg, Option.elim_none]
      exact ⟨h, fun hall => iff_of_true hall trivial⟩
    | some g =>
      simp only [plugCtlStep, AvoidsTlvValues, hg, Option.elim_some]
      by_cases hn : n < g.count.toNat
      · rw [if_pos hn]
        cases hk : g.kind with
        | hw =>
          simp only [namesCall, hk]
          exact ⟨h.putCtl hg fun hk' => absurd (hk.symm.trans hk') (by decide), fun hall => iff_of_true hall trivial⟩
        | plug =>
          obtain ⟨hcall, hhas⟩ := enumCall_proceeds hc call
            (e := { dev := w.plug, ctl := g.ctl n, ename, alloc := w.alloc, heap }) (h grp g hg hk n hn)
          simp only [namesCall, hk]
          exact ⟨(h.grow hcall.grows).putCtl hg fun _ => hhas, fun hall => hcall.allSound_iff hall⟩
      · rw [if_neg hn]
        exact ⟨h, fun hall => iff_of_true hall trivial⟩

/-- Along every run on a plugin whose controls the initialisers built, all accesses to it are sound just as long as no
single value is asked for of a control with TLV data. -/
theorem plugAccesses_sound_iff (hc : calls.NeverShrink) (hheap : ∀ a, w.heap a = none) (hnew : w.plug.accesses = [])
    {acts : List (PlugCtlAct η κ ν)} (hgrow : Along (plugCtlStep calls hw hwCtl load) TableGrows w acts) :
    Throughout (plugCtlStep calls hw hwCtl load) (fun w => w.plug.AllSound) w acts ↔
      Along (plugCtlStep calls hw hwCtl load) AvoidsTlvValues w acts := by
  have hstart : TableHas w.plug.table w.heap := fun a g hg => absurd ((hheap a).symm.trans hg) nofun
  have hsound : w.plug.AllSound := by
    unfold AllSound
    rw [hnew]
    exact fun _ ha => (List.not_mem_nil ha).elim
  exact hgrow.throughout_iff (I := fun w => TableHas w.plug.table w.heap)
    (fun w a h ha => (plugCtlStep_proceeds hc h a ha).1) (fun w a h ha => (plugCtlStep_proceeds hc h a ha).2)
      hstart hsound

end

/-! ## A plugin with one control -/

/-- Callbacks that succeed and do nothing. -/
def idleCallbacks : PlugCallbacks Unit Unit where
  elem := fun _ _ ev t => (0, ev, t)
  tlv := fun _ _ tlv t => (0, tlv, t)

theorem idleCallbacks_neverShrink : idleCallbacks.NeverShrink where
  id := fun _ _ _ _ => rfl
  elem := fun _ _ _ t => .refl t
  tlv := fun _ _ _ t => .refl t

/-- A table of one control, of four bytes of TLV data. -/
def tlvTable : PlugTable Unit Unit where
  controls := [initSndControlTlvBytes [84] (sndValueTlvBytes 4 () ())]
  priv := ()
  fits := by decide
  built := by
    intro c hc
    rw [List.mem_singleton.1 hc]
    exact .tlvBytes ..

/-- Hardware that refuses every request. -/
def refusingCtl : CtlOps Card where
  elemInfo := fun info d => (-eInval, info, d)
  elemRead := fun ev d => (-eInval, ev, d)
  elemWrite := fun _ d => (-eInval, d)
  tlvRead := fun tlv d => (-eInval, tlv, d)
  tlvWrite := fun _ d => (-eInval, d)

/-- Before a mixer is opened on the plugin, on a card without hardware. -/
def tlvWorld : MixWorld Card (TracedPlugin Unit Unit) :=
  { hw := noCard, plug := { table := tlvTable }, alloc := fun _ => true }

/-- The TLV data of the control is read by its own callback. -/
theorem plugAccesses_sound_array :
    Throughout (plugCtlStep idleCallbacks cardOps refusingCtl 0) (fun w => w.plug.AllSound) tlvWorld
      [.mixerOpen, .value 3 0 (.getArray (some fun _ => 0) 4)] := by
  refine (plugAccesses_sound_iff idleCallbacks_neverShrink (fun _ => rfl) rfl ?_).2 ?_
  · exact along_cons.2 ⟨trivial, along_cons.2 ⟨trivial, .nil⟩⟩
  · exact along_cons.2 ⟨trivial, along_cons.2 ⟨fun _ _ _ _ => trivial, .nil⟩⟩

/-- One byte of it is asked for by a callback that is not there. -/
theorem not_plugAccesses_sound_value :
    ¬ Throughout (plugCtlStep idleCallbacks cardOps refusingCtl 0) (fun w => w.plug.AllSound) tlvWorld
      [.mixerOpen, .value 3 0 (.getValue 0)] := by
  intro h
  have hall := h [.mixerOpen, .value 3 0 (.getValue 0)] [] rfl
  have hcall : PlugAccess.call none ∈ ([.mixerOpen, .value 3 0 (.getValue 0)].foldl
      (plugCtlStep idleCallbacks cardOps refusingCtl 0) tlvWorld).plug.accesses := by decide +kernel
  exact absurd (hall _ hcall) (by decide)

end Tinyalsa
