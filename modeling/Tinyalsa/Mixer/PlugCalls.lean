/-
The controls of a mixer plugin with their callbacks (`plugin.h`, `mixer_plugin.c`): every access to the plugin's table,
every `value` that is read and every callback that is called is recorded, and what the requests of a mixer record is
told request by request.
-/
import Tinyalsa.Mixer.Values

namespace Tinyalsa

open Hoare ByteMemory

/-! ## The table -/

/-- `struct snd_value_tlv_bytes`. A callback is named by a `κ`, and none is a null pointer. -/
structure SndValueTlvBytes (κ : Type) where
  size : UInt32 := 0
  get : Option κ := none
  put : Option κ := none
  deriving DecidableEq

/-- What the `value` of a control points to. -/
inductive SndValue (κ : Type)
  | int (val : SndValueInt)
  | bytes (size : UInt32)
  | enum (val : SndValueEnum)
  | tlvBytes (val : SndValueTlvBytes κ)
  deriving DecidableEq

/-- The structures that `value` is read as. -/
inductive ValueStruct
  | int | bytes | enum | tlvBytes
  deriving DecidableEq, Repr

/-- `struct snd_control` with the fields its initialisers set. -/
structure PlugControl (κ : Type) where
  iface : UInt32 := 0
  access : UInt32 := 0
  type : CtlElemType := .none
  name : CString := []
  value : SndValue κ := .bytes 0
  get : Option κ := none
  put : Option κ := none
  deriving DecidableEq

section

variable {κ : Type}

/-- `SND_VALUE_TLV_BYTES`. -/
def sndValueTlvBytes (size : UInt32) (get put : κ) : SndValueTlvBytes κ := { size, get := some get, put := some put }

/-- `INIT_SND_CONTROL_INTEGER`. -/
def initSndControlInteger (name : CString) (get put : κ) (int : SndValueInt) : PlugControl κ :=
  { iface := 2, access := 3, type := .integer, name, value := .int int, get := some get, put := some put }

/-- `INIT_SND_CONTROL_BYTES`. -/
def initSndControlBytes (name : CString) (get put : κ) (size : UInt32) : PlugControl κ :=
  { iface := 2, access := 3, type := .bytes, name, value := .bytes size, get := some get, put := some put }

/-- `INIT_SND_CONTROL_ENUM`. -/
def initSndControlEnum (name : CString) (get put : κ) (enum : SndValueEnum) : PlugControl κ :=
  { iface := 2, access := 3, type := .enumerated, name, value := .enum enum, get := some get, put := some put }

/-- `INIT_SND_CONTROL_TLV_BYTES`, which installs no callback on the control itself. -/
def initSndControlTlvBytes (name : CString) (bytes : SndValueTlvBytes κ) : PlugControl κ :=
  { iface := 2, access := accessTlvReadwrite, type := .bytes, name, value := .tlvBytes bytes }

/-- The control was built by an initialiser. -/
inductive PlugControl.Built : PlugControl κ → Prop
  | integer (name : CString) (get put : κ) (int : SndValueInt) : Built (initSndControlInteger name get put int)
  | bytes (name : CString) (get put : κ) (size : UInt32) : Built (initSndControlBytes name get put size)
  | enum (name : CString) (get put : κ) (enum : SndValueEnum) : Built (initSndControlEnum name get put enum)
  | tlvBytes (name : CString) (size : UInt32) (get put : κ) :
      Built (initSndControlTlvBytes name (sndValueTlvBytes size get put))

/-- The structure that `value` points to. -/
def SndValue.struct : SndValue κ → ValueStruct
  | .int _ => .int
  | .bytes _ => .bytes
  | .enum _ => .enum
  | .tlvBytes _ => .tlvBytes

/-- The structure that the type and the access flags of a control call for. -/
def PlugControl.calledFor (ctl : PlugControl κ) : Option ValueStruct :=
  match ctl.type with
  | .integer => some .int
  | .enumerated => some .enum
  | .bytes => some (if ctl.access &&& accessTlvReadwrite ≠ 0 then .tlvBytes else .bytes)
  | _ => none

/-- `value` read as each of the structures. What is read as another one than it is, is nothing in particular. -/
def SndValue.asInt : SndValue κ → SndValueInt
  | .int val => val
  | _ => {}

def SndValue.asBytes : SndValue κ → UInt32
  | .bytes size => size
  | _ => 0

def SndValue.asEnum : SndValue κ → SndValueEnum
  | .enum val => val
  | _ => {}

def SndValue.asTlvBytes : SndValue κ → SndValueTlvBytes κ
  | .tlvBytes val => val
  | _ => {}

end

/-- `struct mixer_plugin`: a table of controls that initialisers built, and what else the plugin keeps. -/
structure PlugTable (κ ν : Type) where
  controls : List (PlugControl κ)
  priv : ν
  fits : controls.length < 2 ^ 32
  built : ∀ c ∈ controls, c.Built

/-- An access of `mixer_plugin.c` to the plugin. -/
inductive PlugAccess (κ : Type)
  | control (numid numControls : UInt32)
  | value (ctl : PlugControl κ) (s : ValueStruct)
  | call (callback : Option κ)
  deriving DecidableEq

/-- The access is to a control of the table, to a `value` as its control calls for, or to a callback there is. -/
def PlugAccess.Sound {κ : Type} : PlugAccess κ → Prop
  | .control numid numControls => numid < numControls
  | .value ctl s => ctl.value.struct = s ∧ ctl.calledFor = some s
  | .call callback => callback.isSome

instance {κ : Type} (a : PlugAccess κ) : Decidable a.Sound := by
  cases a <;> unfold PlugAccess.Sound <;> infer_instance

/-- A plugin and the accesses to it so far, newest first. Ghost. -/
structure TracedPlugin (κ ν : Type) where
  table : PlugTable κ ν
  accesses : List (PlugAccess κ) := []

/-- What the callbacks do. They are given the number of the control they are called for. -/
structure PlugCallbacks (κ ν : Type) where
  elem : κ → UInt32 → SndCtlElemValue → PlugTable κ ν → Int × SndCtlElemValue × PlugTable κ ν
  tlv : κ → UInt32 → SndCtlTlv → PlugTable κ ν → Int × SndCtlTlv × PlugTable κ ν

def PlugTable.numControls {κ ν : Type} (t : PlugTable κ ν) : UInt32 := t.controls.length.toUInt32

/-! ## The requests -/

abbrev PlugM (κ ν : Type) := StateM (TracedPlugin κ ν)

namespace TracedPlugin

section

variable {κ ν : Type}

/-- Records an access. -/
def access (a : PlugAccess κ) : PlugM κ ν Unit := modify fun d => { d with accesses := a :: d.accesses }

/-- `plugin->controls + numid`. What lies behind the table is nothing in particular. -/
def control (numid : UInt32) : PlugM κ ν (PlugControl κ) := do
  let d ← get
  access (.control numid d.table.numControls)
  return (d.table.controls[numid.toNat]?).getD {}

def mixerPlugGetElemId (id : SndCtlElemId) (offset : UInt32) : PlugM κ ν (Int × SndCtlElemId) := do
  let d ← get
  if offset ≥ d.table.numControls then return (-eInval, id)
  else
    let ctl ← control offset
    return (0, { id with numid := offset, iface := ctl.iface, name := elemName ctl.name })

def mixerPlugInfoEnum (ctl : PlugControl κ) (einfo : SndCtlElemInfo) : PlugM κ ν (Int × SndCtlElemInfo) := do
  access (.value ctl .enum)
  let val := ctl.value.asEnum
  if einfo.item ≥ val.items then return (-eInval, { einfo with count := 1, items := val.items })
  else return (0, { einfo with
    count := 1
    items := val.items
    itemName := (val.texts.getD einfo.item.toNat []).take 63 })

def mixerPlugInfoBytes (ctl : PlugControl κ) (einfo : SndCtlElemInfo) : PlugM κ ν (Int × SndCtlElemInfo) := do
  if ctl.access &&& accessTlvReadwrite ≠ 0 then
    access (.value ctl .tlvBytes)
    return (0, { einfo with count := ctl.value.asTlvBytes.size })
  else
    access (.value ctl .bytes)
    return (0, { einfo with count := ctl.value.asBytes })

def mixerPlugInfoInteger (ctl : PlugControl κ) (einfo : SndCtlElemInfo) : PlugM κ ν (Int × SndCtlElemInfo) := do
  access (.value ctl .int)
  let val := ctl.value.asInt
  return (0, { einfo with count := val.count, min := val.min, max := val.max, step := val.step })

/-- The `switch` of `mixer_plug_get_elem_info`. -/
def mixerPlugInfo (ctl : PlugControl κ) (einfo : SndCtlElemInfo) : PlugM κ ν (Int × SndCtlElemInfo) :=
  match ctl.type with
  | .enumerated => mixerPlugInfoEnum ctl einfo
  | .bytes => mixerPlugInfoBytes ctl einfo
  | .integer => mixerPlugInfoInteger ctl einfo
  | _ => return (-eInval, einfo)

def mixerPlugGetElemInfo (einfo : SndCtlElemInfo) : PlugM κ ν (Int × SndCtlElemInfo) := do
  let (ret, id) ← mixerPlugGetElemId einfo.id einfo.id.numid
  if ret < 0 then return (ret, { einfo with id })
  else
    let ctl ← control id.numid
    mixerPlugInfo ctl { einfo with id, type := ctl.type, access := ctl.access }

/-- The loop of `mixer_plug_get_elem_list`, with `avail` places left. -/
def elemListLoop : Nat → SndCtlElemList → PlugM κ ν (Int × SndCtlElemList)
  | 0, elist => return (0, elist)
  | avail + 1, elist => do
    let (ret, id) ← mixerPlugGetElemId (elist.pids elist.used.toNat) elist.used
    let elist := { elist with pids := Function.update elist.pids elist.used.toNat id }
    if ret < 0 then return (ret, elist) else elemListLoop avail { elist with used := elist.used + 1 }

def mixerPlugGetElemList (elist : SndCtlElemList) : PlugM κ ν (Int × SndCtlElemList) := do
  let d ← get
  elemListLoop elist.space.toNat { elist with count := d.table.numControls, used := 0 }

variable (calls : PlugCallbacks κ ν)

/-- Calls a callback of an element. A null pointer that is called ends the program; nothing is told of what follows. -/
def callElem (callback : Option κ) (ev : SndCtlElemValue) : PlugM κ ν (Int × SndCtlElemValue) := do
  access (.call callback)
  match callback with
  | none => return (0, ev)
  | some f =>
    let d ← get
    let (ret, ev, table) := calls.elem f ev.id.numid ev d.table
    set { d with table }
    return (ret, ev)

/-- Calls a callback of TLV data. -/
def callTlv (callback : Option κ) (tlv : SndCtlTlv) : PlugM κ ν (Int × SndCtlTlv) := do
  access (.call callback)
  match callback with
  | none => return (0, tlv)
  | some f =>
    let d ← get
    let (ret, tlv, table) := calls.tlv f tlv.numid tlv d.table
    set { d with table }
    return (ret, tlv)

def mixerPlugTlvWrite (tlv : SndCtlTlv) : PlugM κ ν Int := do
  let ctl ← control tlv.numid
  access (.value ctl .tlvBytes)
  let (ret, _) ← callTlv calls ctl.value.asTlvBytes.put tlv
  return ret

def mixerPlugTlvRead (tlv : SndCtlTlv) : PlugM κ ν (Int × SndCtlTlv) := do
  let ctl ← control tlv.numid
  access (.value ctl .tlvBytes)
  callTlv calls ctl.value.asTlvBytes.get tlv

def mixerPlugElemWrite (ev : SndCtlElemValue) : PlugM κ ν Int := do
  let (ret, id) ← mixerPlugGetElemId ev.id ev.id.numid
  if ret < 0 then return ret
  else
    let ctl ← control id.numid
    let (ret, _) ← callElem calls ctl.put { ev with id }
    return ret

def mixerPlugElemRead (ev : SndCtlElemValue) : PlugM κ ν (Int × SndCtlElemValue) := do
  let (ret, id) ← mixerPlugGetElemId ev.id ev.id.numid
  if ret < 0 then return (ret, { ev with id })
  else
    let ctl ← control id.numid
    callElem calls ctl.get { ev with id }

/-- The requests of a control, as operations of the plugin. -/
def ctlOps : CtlOps (TracedPlugin κ ν) where
  elemInfo := fun einfo d =>
    let r := exec (mixerPlugGetElemInfo einfo) d
    (r.1.1, r.1.2, r.2)
  elemRead := fun ev d =>
    let r := exec (mixerPlugElemRead calls ev) d
    (r.1.1, r.1.2, r.2)
  elemWrite := fun ev d => exec (mixerPlugElemWrite calls ev) d
  tlvRead := fun tlv d =>
    let r := exec (mixerPlugTlvRead calls tlv) d
    (r.1.1, r.1.2, r.2)
  tlvWrite := fun tlv d => exec (mixerPlugTlvWrite calls tlv) d

/-- The requests of a mixer, as operations of the plugin; `load` is what finding and loading its library returns. -/
def mixerOps (load : Int) : MixerOps (TracedPlugin κ ν) where
  openDev := fun d => (load, d)
  closeDev := id
  cardInfo := fun d => (0, d)
  elemList := fun elist d =>
    let r := exec (mixerPlugGetElemList elist) d
    (r.1.1, r.1.2, r.2)
  elemInfo := fun einfo d =>
    let r := exec (mixerPlugGetElemInfo einfo) d
    (r.1.1, r.1.2, r.2)

end

end TracedPlugin

/-! ## Controls from initialisers -/

section

variable {κ ν : Type} {c : PlugControl κ} {t t' : PlugTable κ ν} {info : SndCtlElemInfo}

/-- The control has TLV data for its bytes. -/
def PlugControl.IsTlv (c : PlugControl κ) : Prop := c.access &&& accessTlvReadwrite ≠ 0

theorem access_readwrite : (3 : UInt32) &&& accessTlvReadwrite = 0 := by decide

theorem access_tlv : accessTlvReadwrite &&& accessTlvReadwrite ≠ 0 := by decide

/-- An initialiser makes `value` point to what the type and the access flags it sets call for. -/
theorem PlugControl.Built.calledFor (h : c.Built) : c.calledFor = some c.value.struct := by
  cases h
  case bytes => exact congrArg some (if_neg (not_not.2 access_readwrite))
  case tlvBytes => exact congrArg some (if_pos access_tlv)
  all_goals rfl

/-- It installs callbacks on the control itself, or on its TLV data. -/
theorem PlugControl.Built.callbacks (h : c.Built) :
    (¬ c.IsTlv ∧ c.get.isSome ∧ c.put.isSome) ∨
      (c.IsTlv ∧ c.get = none ∧ c.put = none ∧ c.value.struct = .tlvBytes ∧ c.value.asTlvBytes.get.isSome ∧
        c.value.asTlvBytes.put.isSome) := by
  cases h
  case tlvBytes => exact .inr ⟨access_tlv, rfl, rfl, rfl, rfl, rfl⟩
  all_goals exact .inl ⟨not_not.2 access_readwrite, rfl, rfl⟩

/-- A control, whose `value` may be read as any structure. -/
def PlugControl.plain (c : PlugControl κ) : SndControl where
  iface := c.iface
  access := c.access
  name := c.name
  type := c.type
  enum := c.value.asEnum
  bytesSize := c.value.asBytes
  tlvSize := c.value.asTlvBytes.size
  int := c.value.asInt

/-- The table without its callbacks. -/
def PlugTable.plain (t : PlugTable κ ν) : MixerPlugin where
  controls := t.controls.map PlugControl.plain
  fits := by
    rw [List.length_map]
    exact t.fits

theorem PlugTable.toNat_numControls (t : PlugTable κ ν) : t.numControls.toNat = t.controls.length := by
  unfold numControls
  rw [Nat.toUInt32_eq, UInt32.toNat_ofNat']
  exact Nat.mod_eq_of_lt t.fits

theorem PlugTable.plain_numControls (t : PlugTable κ ν) : t.plain.numControls = t.numControls := by
  rw [← UInt32.toNat_inj, MixerPlugin.toNat_numControls, t.toNat_numControls]
  exact List.length_map ..

theorem PlugTable.built_of_getElem? {i : Nat} (h : t.controls[i]? = some c) : c.Built :=
  t.built c (List.mem_of_getElem? h)

/-- The controls of a table remain what they are; others may be added behind them. -/
def PlugTable.Grows (t t' : PlugTable κ ν) : Prop :=
  ∀ (i : Nat) (c : PlugControl κ), t.controls[i]? = some c → ∃ c', t'.controls[i]? = some c' ∧ c'.type = c.type ∧
    c'.access = c.access

theorem PlugTable.Grows.refl (t : PlugTable κ ν) : t.Grows t := fun _ c h => ⟨c, h, rfl, rfl⟩

theorem PlugTable.Grows.trans {t'' : PlugTable κ ν} (h : t.Grows t') (h' : t'.Grows t'') : t.Grows t'' := by
  intro i c hc
  obtain ⟨c', hc', htype, haccess⟩ := h i c hc
  obtain ⟨c'', hc'', htype', haccess'⟩ := h' i c' hc'
  exact ⟨c'', hc'', htype'.trans htype, haccess'.trans haccess⟩

/-- The information is that of a control of the table. -/
def PlugTable.Has (t : PlugTable κ ν) (info : SndCtlElemInfo) : Prop :=
  ∃ c, t.controls[info.id.numid.toNat]? = some c ∧ info.type = c.type ∧ info.access = c.access

theorem PlugTable.Has.grow (h : t.Has info) (ht : t.Grows t') : t'.Has info := by
  obtain ⟨c, hc, htype, haccess⟩ := h
  obtain ⟨c', hc', htype', haccess'⟩ := ht _ c hc
  exact ⟨c', hc', htype.trans htype'.symm, haccess.trans haccess'.symm⟩

/-- No callback takes controls away, and those of an element leave its identifier alone. -/
structure PlugCallbacks.NeverShrink (calls : PlugCallbacks κ ν) : Prop where
  id : ∀ f numid ev t, (calls.elem f numid ev t).2.1.id = ev.id
  elem : ∀ f numid ev t, PlugTable.Grows t (calls.elem f numid ev t).2.2
  tlv : ∀ f numid tlv t, PlugTable.Grows t (calls.tlv f numid tlv t).2.2

end

/-! ## What the requests record -/

namespace TracedPlugin

section

variable {κ ν : Type} {d d' d'' : TracedPlugin κ ν} {ok ok' : Prop} {c : PlugControl κ} {numid : UInt32}

/-- The table has not shrunk since `d`, and the accesses in between were sound just when `ok`. -/
structure Proceeds (d d' : TracedPlugin κ ν) (ok : Prop) : Prop where
  grows : d.table.Grows d'.table
  accesses : ∃ new, d'.accesses = new ++ d.accesses ∧ ((∀ a ∈ new, a.Sound) ↔ ok)

theorem Proceeds.refl (d : TracedPlugin κ ν) : Proceeds d d True := ⟨.refl _, [], rfl, by simp⟩

theorem Proceeds.trans (h : Proceeds d d' ok) (h' : Proceeds d' d'' ok') : Proceeds d d'' (ok' ∧ ok) := by
  obtain ⟨new, hnew, hok⟩ := h.accesses
  obtain ⟨new', hnew', hok'⟩ := h'.accesses
  refine ⟨h.grows.trans h'.grows, new' ++ new, ?_, ?_⟩
  · rw [hnew', hnew, List.append_assoc]
  · rw [List.forall_mem_append, hok, hok']

theorem Proceeds.congr (h : Proceeds d d' ok) (hiff : ok ↔ ok') : Proceeds d d' ok' := by
  rwa [← propext hiff]

/-- Sound accesses alone change nothing but the record. -/
theorem Proceeds.record {new : List (PlugAccess κ)} (h : (∀ a ∈ new, a.Sound) ↔ ok) :
    Proceeds d { d with accesses := new ++ d.accesses } ok := ⟨.refl _, new, rfl, h⟩

theorem sound_control (h : d.table.controls[numid.toNat]? = some c) :
    (PlugAccess.control numid d.table.numControls : PlugAccess κ).Sound := by
  show numid < d.table.numControls
  rw [UInt32.lt_iff_toNat_lt, d.table.toNat_numControls]
  exact (List.getElem?_eq_some_iff.1 h).1

theorem exec_control (h : d.table.controls[numid.toNat]? = some c) :
    exec (control numid) d = (c, { d with accesses := .control numid d.table.numControls :: d.accesses }) := by
  have hget : (d.table.controls[numid.toNat]?).getD {} = c := by rw [h, Option.getD_some]
  rw [← hget]
  rfl

theorem getElem?_plain (t : PlugTable κ ν) (i : Nat) : t.plain.controls[i]? = (t.controls[i]?).map PlugControl.plain :=
  List.getElem?_map

/-- The identifier of a control is told from the table, which is looked at where it has one. -/
theorem exec_mixerPlugGetElemId (id : SndCtlElemId) (offset : UInt32) (d : TracedPlugin κ ν) :
    ∃ new, (∀ a ∈ new, a.Sound) ∧ exec (mixerPlugGetElemId id offset) d =
      (Tinyalsa.mixerPlugGetElemId d.table.plain id offset, { d with accesses := new ++ d.accesses }) := by
  have hlen := d.table.toNat_numControls
  simp only [mixerPlugGetElemId, Tinyalsa.mixerPlugGetElemId, getElem?_plain, exec_bind, exec_get, exec_ite, exec_pure]
  cases hc : d.table.controls[offset.toNat]? with
  | none =>
    have hge : offset ≥ d.table.numControls := by
      rw [ge_iff_le, UInt32.le_iff_toNat_le, hlen]
      exact List.getElem?_eq_none_iff.1 hc
    rw [if_pos hge]
    exact ⟨[], by simp, rfl⟩
  | some c =>
    have hlt : ¬ offset ≥ d.table.numControls := by
      rw [ge_iff_le, UInt32.le_iff_toNat_le, hlen, not_le]
      exact (List.getElem?_eq_some_iff.1 hc).1
    rw [if_neg hlt, exec_control hc]
    exact ⟨[_], by simpa using sound_control hc, rfl⟩

theorem sound_value (hb : c.Built) : ∀ a ∈ [PlugAccess.value c c.value.struct], a.Sound := by
  intro a ha
  obtain rfl := List.mem_singleton.1 ha
  exact ⟨rfl, hb.calledFor⟩

/-- A control's information is told by the structure it calls for. -/
theorem exec_mixerPlugInfo (hb : c.Built) (einfo : SndCtlElemInfo) (d : TracedPlugin κ ν) :
    ∃ new, (∀ a ∈ new, a.Sound) ∧ exec (mixerPlugInfo c einfo) d =
      (Tinyalsa.mixerPlugInfo c.plain einfo, { d with accesses := new ++ d.accesses }) := by
  refine ⟨_, sound_value hb, ?_⟩
  cases hb with
  | integer name get put int => rfl
  | bytes name get put size =>
    show exec (mixerPlugInfoBytes _ einfo) d = (Tinyalsa.mixerPlugInfoBytes _ einfo, _)
    have hplain : ¬ (initSndControlBytes name get put size).access &&& accessTlvReadwrite ≠ 0 :=
      not_not.2 access_readwrite
    have hplain' : ¬ (initSndControlBytes name get put size).plain.access &&& accessTlvReadwrite ≠ 0 := hplain
    rw [mixerPlugInfoBytes, if_neg hplain, Tinyalsa.mixerPlugInfoBytes, if_neg hplain']
    rfl
  | enum name get put enum =>
    show exec (mixerPlugInfoEnum _ einfo) d = (Tinyalsa.mixerPlugInfoEnum _ einfo, _)
    have hplain : (initSndControlEnum name get put enum).plain.enum = enum := rfl
    have hvalue : (initSndControlEnum name get put enum).value.asEnum = enum := rfl
    simp only [mixerPlugInfoEnum, Tinyalsa.mixerPlugInfoEnum, hplain, hvalue, exec_bind, exec_ite, exec_pure]
    split <;> rfl
  | tlvBytes name size get put =>
    show exec (mixerPlugInfoBytes _ einfo) d = (Tinyalsa.mixerPlugInfoBytes _ einfo, _)
    have htlv : (initSndControlTlvBytes name (sndValueTlvBytes size get put)).access &&& accessTlvReadwrite ≠ 0 :=
      access_tlv
    have htlv' :
        (initSndControlTlvBytes name (sndValueTlvBytes size get put)).plain.access &&& accessTlvReadwrite ≠ 0 :=
      htlv
    rw [mixerPlugInfoBytes, if_pos htlv, Tinyalsa.mixerPlugInfoBytes, if_pos htlv']
    rfl

/-- Information is told as from the table without its callbacks. -/
theorem exec_mixerPlugGetElemInfo (einfo : SndCtlElemInfo) (d : TracedPlugin κ ν) :
    ∃ new, (∀ a ∈ new, a.Sound) ∧ exec (mixerPlugGetElemInfo einfo) d =
      (Tinyalsa.mixerPlugGetElemInfo d.table.plain einfo, { d with accesses := new ++ d.accesses }) := by
  obtain ⟨new, hnew, hid⟩ := exec_mixerPlugGetElemId einfo.id einfo.id.numid d
  have hplain := getElem?_plain d.table einfo.id.numid.toNat
  simp only [mixerPlugGetElemInfo, exec_bind, exec_ite, hid, exec_pure]
  cases hc : d.table.controls[einfo.id.numid.toNat]? with
  | none =>
    rw [hc, Option.map_none] at hplain
    refine ⟨new, hnew, ?_⟩
    simp only [Tinyalsa.mixerPlugGetElemInfo, Tinyalsa.mixerPlugGetElemId, hplain]
    rfl
  | some c =>
    rw [hc, Option.map_some] at hplain
    simp only [Tinyalsa.mixerPlugGetElemInfo, Tinyalsa.mixerPlugGetElemId, hplain,
      if_neg (show ¬ (0 : Int) < 0 by decide)]
    rw [exec_control (d := { d with accesses := new ++ d.accesses }) hc]
    obtain ⟨new', hnew', hinfo⟩ := exec_mixerPlugInfo (d.table.built_of_getElem? hc)
      { einfo with
        id := { einfo.id with numid := einfo.id.numid, iface := c.plain.iface, name := elemName c.plain.name }
        type := c.type
        access := c.access }
      { d with accesses := .control einfo.id.numid d.table.numControls :: (new ++ d.accesses) }
    refine ⟨new' ++ .control einfo.id.numid d.table.numControls :: new, ?_, ?_⟩
    · exact List.forall_mem_append.2 ⟨hnew', List.forall_mem_cons.2 ⟨sound_control hc, hnew⟩⟩
    · rw [hinfo, List.append_assoc]
      rfl

/-- A list of controls, too. -/
theorem exec_elemListLoop : ∀ (avail : Nat) (elist : SndCtlElemList) (d : TracedPlugin κ ν),
    ∃ new, (∀ a ∈ new, a.Sound) ∧ exec (elemListLoop avail elist) d =
      (Tinyalsa.elemListLoop d.table.plain avail elist, { d with accesses := new ++ d.accesses })
  | 0, elist, d => ⟨[], by simp, rfl⟩
  | avail + 1, elist, d => by
    obtain ⟨new, hnew, hid⟩ := exec_mixerPlugGetElemId (elist.pids elist.used.toNat) elist.used d
    simp only [elemListLoop, Tinyalsa.elemListLoop, exec_bind, exec_ite, hid, exec_pure]
    split
    · exact ⟨new, hnew, rfl⟩
    · obtain ⟨new', hnew', hloop⟩ := exec_elemListLoop avail _ { d with accesses := new ++ d.accesses }
      refine ⟨new' ++ new, List.forall_mem_append.2 ⟨hnew', hnew⟩, ?_⟩
      rw [hloop, List.append_assoc]

theorem exec_mixerPlugGetElemList (elist : SndCtlElemList) (d : TracedPlugin κ ν) :
    ∃ new, (∀ a ∈ new, a.Sound) ∧ exec (mixerPlugGetElemList elist) d =
      (Tinyalsa.mixerPlugGetElemList d.table.plain elist, { d with accesses := new ++ d.accesses }) := by
  rw [Tinyalsa.mixerPlugGetElemList, d.table.plain_numControls]
  exact exec_elemListLoop ..

end

end TracedPlugin

end Tinyalsa
