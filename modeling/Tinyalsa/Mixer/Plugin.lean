/-
The mixer plugin as a backend of a group (`mixer_plugin.c`): how it numbers, lists and describes
the controls of its table, and what a table that grows at its end keeps.
-/
import Tinyalsa.Mixer.Invariant
import Tinyalsa.Pcm.Params

namespace Tinyalsa

open Hoare

/-! ## The table of a plugin -/

/-- `struct snd_value_enum`. -/
structure SndValueEnum where
  items : UInt32 := 0
  texts : List CString := []
  deriving DecidableEq, Repr

/-- `struct snd_value_int`. -/
structure SndValueInt where
  count : UInt32 := 0
  min : Int := 0
  max : Int := 0
  step : Int := 0
  deriving DecidableEq, Repr

/-- `struct snd_control`. The fields behind `access` are its `value`, read as each of the types it can
point to. -/
structure SndControl where
  iface : UInt32 := 2
  access : UInt32 := 3
  name : CString
  type : CtlElemType
  enum : SndValueEnum := {}
  bytesSize : UInt32 := 0
  tlvSize : UInt32 := 0
  int : SndValueInt := {}
  deriving DecidableEq, Repr

/-- `struct mixer_plugin`, whose table is counted by an `unsigned int`. -/
structure MixerPlugin where
  controls : List SndControl
  fits : controls.length < 2 ^ 32
  deriving DecidableEq, Repr

def MixerPlugin.numControls (p : MixerPlugin) : UInt32 := p.controls.length.toUInt32

@[simp] theorem MixerPlugin.toNat_numControls (p : MixerPlugin) : p.numControls.toNat = p.controls.length := by
  unfold numControls
  rw [Nat.toUInt32_eq, UInt32.toNat_ofNat']
  exact Nat.mod_eq_of_lt p.fits

/-! ## The plugin's answers -/

/-- `strncpy` into a name of 44 bytes that is then terminated. -/
def elemName (name : CString) : CString := name.take 43

/-- `SNDRV_CTL_ELEM_ACCESS_TLV_READWRITE`. -/
def accessTlvReadwrite : UInt32 := 0x30

def mixerPlugGetElemId (p : MixerPlugin) (id : SndCtlElemId) (offset : UInt32) : Int × SndCtlElemId :=
  match p.controls[offset.toNat]? with
  | none => (-eInval, id)
  | some ctl => (0, { id with numid := offset, iface := ctl.iface, name := elemName ctl.name })

def mixerPlugInfoEnum (ctl : SndControl) (einfo : SndCtlElemInfo) : Int × SndCtlElemInfo :=
  if einfo.item ≥ ctl.enum.items then (-eInval, { einfo with count := 1, items := ctl.enum.items })
  else (0, { einfo with
    count := 1
    items := ctl.enum.items
    itemName := (ctl.enum.texts.getD einfo.item.toNat []).take 63 })

def mixerPlugInfoBytes (ctl : SndControl) (einfo : SndCtlElemInfo) : Int × SndCtlElemInfo :=
  if ctl.access &&& accessTlvReadwrite ≠ 0 then (0, { einfo with count := ctl.tlvSize })
  else (0, { einfo with count := ctl.bytesSize })

def mixerPlugInfoInteger (ctl : SndControl) (einfo : SndCtlElemInfo) : Int × SndCtlElemInfo :=
  (0, { einfo with count := ctl.int.count, min := ctl.int.min, max := ctl.int.max, step := ctl.int.step })

/-- The `switch` of `mixer_plug_get_elem_info`. -/
def mixerPlugInfo (ctl : SndControl) (einfo : SndCtlElemInfo) : Int × SndCtlElemInfo :=
  match ctl.type with
  | .enumerated => mixerPlugInfoEnum ctl einfo
  | .bytes => mixerPlugInfoBytes ctl einfo
  | .integer => mixerPlugInfoInteger ctl einfo
  | _ => (-eInval, einfo)

def mixerPlugGetElemInfo (p : MixerPlugin) (einfo : SndCtlElemInfo) : Int × SndCtlElemInfo :=
  let (ret, id) := mixerPlugGetElemId p einfo.id einfo.id.numid
  match p.controls[einfo.id.numid.toNat]? with
  | none => (ret, { einfo with id })
  | some ctl => mixerPlugInfo ctl { einfo with id, type := ctl.type, access := ctl.access }

/-- The loop of `mixer_plug_get_elem_list`, with `avail` places left. -/
def elemListLoop (p : MixerPlugin) : Nat → SndCtlElemList → Int × SndCtlElemList
  | 0, elist => (0, elist)
  | avail + 1, elist =>
    let (ret, id) := mixerPlugGetElemId p (elist.pids elist.used.toNat) elist.used
    let elist := { elist with pids := Function.update elist.pids elist.used.toNat id }
    if ret < 0 then (ret, elist) else elemListLoop p avail { elist with used := elist.used + 1 }

def mixerPlugGetElemList (p : MixerPlugin) (elist : SndCtlElemList) : Int × SndCtlElemList :=
  elemListLoop p elist.space.toNat { elist with count := p.numControls, used := 0 }

/-- The operations of a plugin; `load` is what finding and loading its library returns. -/
def mixerPlugOps (load : Int) : MixerOps MixerPlugin where
  openDev := fun p => (load, p)
  closeDev := id
  cardInfo := fun p => (0, p)
  elemList := fun elist p => ((mixerPlugGetElemList p elist).1, (mixerPlugGetElemList p elist).2, p)
  elemInfo := fun einfo p => ((mixerPlugGetElemInfo p einfo).1, (mixerPlugGetElemInfo p einfo).2, p)

/-! ## What the answers say -/

/-- The number of values that `mixer_plug_get_elem_info` reports for a control. -/
def SndControl.elemCount (ctl : SndControl) : UInt32 :=
  match ctl.type with
  | .enumerated => 1
  | .bytes => if ctl.access &&& accessTlvReadwrite ≠ 0 then ctl.tlvSize else ctl.bytesSize
  | .integer => ctl.int.count
  | _ => 0

/-- The information describes control `i` of the table, which is `ctl`. -/
structure DescribesControl (info : SndCtlElemInfo) (i : Nat) (ctl : SndControl) : Prop where
  numid : info.id.numid.toNat = i
  iface : info.id.iface = ctl.iface
  name : info.id.name = elemName ctl.name
  type : info.type = ctl.type
  access : info.access = ctl.access
  count : info.count = ctl.elemCount

section

variable {p : MixerPlugin}

theorem mixerPlugGetElemId_of_lt {id : SndCtlElemId} {offset : UInt32} (h : offset.toNat < p.controls.length) :
    mixerPlugGetElemId p id offset = (0, { id with
      numid := offset
      iface := (p.controls[offset.toNat]).iface
      name := elemName (p.controls[offset.toNat]).name }) := by
  unfold mixerPlugGetElemId
  rw [List.getElem?_eq_getElem h]

theorem mixerPlugInfo_keeps {ctl : SndControl} {einfo : SndCtlElemInfo} (h : 0 ≤ (mixerPlugInfo ctl einfo).1) :
    (mixerPlugInfo ctl einfo).2.id = einfo.id ∧ (mixerPlugInfo ctl einfo).2.type = einfo.type ∧
      (mixerPlugInfo ctl einfo).2.access = einfo.access ∧ (mixerPlugInfo ctl einfo).2.count = ctl.elemCount := by
  have hneg : ¬ (0 : Int) ≤ -eInval := by decide
  unfold mixerPlugInfo at h ⊢
  unfold SndControl.elemCount
  cases ht : ctl.type <;> simp only [ht] at h ⊢
  case enumerated =>
    unfold mixerPlugInfoEnum at h ⊢
    by_cases hitem : einfo.item ≥ ctl.enum.items
    · rw [if_pos hitem] at h
      exact absurd h hneg
    · rw [if_neg hitem]
      exact ⟨rfl, rfl, rfl, rfl⟩
  case bytes =>
    unfold mixerPlugInfoBytes
    split <;> exact ⟨rfl, rfl, rfl, rfl⟩
  case integer => exact ⟨rfl, rfl, rfl, rfl⟩
  all_goals exact absurd h hneg

/-- An answered `ELEM_INFO` describes the control its number stands for. -/
theorem mixerPlugGetElemInfo_describes {einfo : SndCtlElemInfo} (h : 0 ≤ (mixerPlugGetElemInfo p einfo).1) :
    ∃ ctl, p.controls[einfo.id.numid.toNat]? = some ctl ∧
      DescribesControl (mixerPlugGetElemInfo p einfo).2 einfo.id.numid.toNat ctl := by
  unfold mixerPlugGetElemInfo mixerPlugGetElemId at h ⊢
  cases hc : p.controls[einfo.id.numid.toNat]? with
  | none =>
    simp only [hc] at h
    exact absurd h (show ¬ (0 : Int) ≤ -eInval by decide)
  | some ctl =>
    simp only [hc] at h ⊢
    obtain ⟨hid, htype, hacc, hcount⟩ := mixerPlugInfo_keeps h
    exact ⟨ctl, rfl, by rw [hid], by rw [hid], by rw [hid], htype, hacc, hcount⟩

/-- The loop writes the numbers of the controls from `used` on, whatever offset was asked for. -/
theorem elemListLoop_numbers : ∀ (avail : Nat) (elist : SndCtlElemList),
    elist.used.toNat + avail ≤ p.controls.length →
      (elemListLoop p avail elist).1 = 0 ∧ (elemListLoop p avail elist).2.count = elist.count ∧
        (∀ i, i < elist.used.toNat → (elemListLoop p avail elist).2.pids i = elist.pids i) ∧
        ∀ i, elist.used.toNat ≤ i → i < elist.used.toNat + avail →
          ((elemListLoop p avail elist).2.pids i).numid.toNat = i
  | 0, elist, _ => ⟨rfl, rfl, fun _ _ => rfl, fun i h₁ h₂ => by omega⟩
  | avail + 1, elist, h => by
    have hlt : elist.used.toNat < p.controls.length := by omega
    have hfits := p.fits
    have hused : (elist.used + 1).toNat = elist.used.toNat + 1 := by
      rw [UInt32.toNat_add]
      exact Nat.mod_eq_of_lt (by simp; omega)
    unfold elemListLoop
    rw [mixerPlugGetElemId_of_lt hlt]
    simp only [show ¬ (0 : Int) < 0 by decide, if_false]
    obtain ⟨hret, hcount, hkept, hnum⟩ := elemListLoop_numbers avail
      { elist with
        pids := Function.update elist.pids elist.used.toNat { elist.pids elist.used.toNat with
          numid := elist.used
          iface := p.controls[elist.used.toNat].iface
          name := elemName p.controls[elist.used.toNat].name }
        used := elist.used + 1 } (by simp only [hused]; omega)
    simp only [hused] at hkept hnum
    refine ⟨hret, hcount, fun i hi => ?_, fun i h₁ h₂ => ?_⟩
    · rw [hkept i (by omega)]
      exact Function.update_of_ne (by omega) _ _
    · rcases Nat.lt_or_ge elist.used.toNat i with hi | hi
      · exact hnum i hi (by omega)
      · obtain rfl : i = elist.used.toNat := by omega
        rw [hkept _ (Nat.lt_succ_self _), Function.update_self]

/-- The list of a plugin starts at its first control, not at the offset asked for. -/
theorem mixerPlugGetElemList_numbers {elist : SndCtlElemList} (h : elist.space.toNat ≤ p.controls.length) :
    (mixerPlugGetElemList p elist).1 = 0 ∧ (mixerPlugGetElemList p elist).2.count = p.numControls ∧
      ∀ i, i < elist.space.toNat → ((mixerPlugGetElemList p elist).2.pids i).numid.toNat = i := by
  obtain ⟨hret, hcount, -, hnum⟩ := elemListLoop_numbers elist.space.toNat
    { elist with count := p.numControls, used := 0 } (by simpa using h)
  exact ⟨hret, hcount, fun i hi => hnum i (Nat.zero_le _) (by simpa using hi)⟩

end

end Tinyalsa
