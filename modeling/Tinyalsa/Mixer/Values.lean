/-
The values of a control (`mixer_ctl_get_value`, `mixer_ctl_set_value`, `mixer_ctl_get_array`,
`mixer_ctl_set_array`): four accessors of one union, over any backend. Each access to an element of the
union is recorded.
-/
import Tinyalsa.Lib.ByteMemory
import Tinyalsa.Lib.CInt
import Tinyalsa.Mixer.Plugin

namespace Tinyalsa

open Hoare ByteMemory CInt

/-! ## The union of values -/

/-- The members of the union in `struct snd_ctl_elem_value`. -/
inductive ValueMember
  | integer | enumerated | bytes | iec958
  deriving DecidableEq, Repr

/-- The bytes of an element: of a `long`, an `unsigned int`, an `unsigned char`, a `struct snd_aes_iec958`. -/
def ValueMember.size : ValueMember → Nat
  | .integer => 8
  | .enumerated => 4
  | .bytes => 1
  | .iec958 => 176

/-- The elements of a member. -/
def ValueMember.capacity : ValueMember → Nat
  | .integer => 128
  | .enumerated => 128
  | .bytes => 512
  | .iec958 => 1

/-- The bytes of the union. -/
def valueUnionSize : Nat := 1024

/-- `struct snd_ctl_elem_value`: the bytes of its union, and what lies behind it. -/
structure SndCtlElemValue where
  id : SndCtlElemId := {}
  value : Memory := fun _ => 0

/-- `struct snd_ctl_tlv`. -/
structure SndCtlTlv where
  numid : UInt32 := 0
  length : UInt32 := 0
  tlv : Memory := fun _ => 0

/-- `sizeof(struct snd_ctl_tlv)`. -/
def sizeofTlv : UInt64 := 8

/-- `SIZE_MAX`. -/
def sizeMax : UInt64 := 0xFFFFFFFFFFFFFFFF

/-- `struct mixer_ops` of a backend `δ`, as far as the accessors of a control use it. -/
structure CtlOps (δ : Type) where
  elemInfo : SndCtlElemInfo → δ → Int × SndCtlElemInfo × δ
  elemRead : SndCtlElemValue → δ → Int × SndCtlElemValue × δ
  elemWrite : SndCtlElemValue → δ → Int × δ
  tlvRead : SndCtlTlv → δ → Int × SndCtlTlv × δ
  tlvWrite : SndCtlTlv → δ → Int × δ

/-- What an accessor works on. `alloc` says which of the allocations to come succeed; `touched` are the elements
of the union that were read or written, newest first. Ghost. -/
structure AccessState (δ : Type) where
  dev : δ
  alloc : Nat → Bool := fun _ => true
  touched : List (ValueMember × Nat) := []

abbrev CtlM (δ : Type) := StateM (AccessState δ)

section

variable {δ : Type}

/-- The accessor comes to elements of a member. -/
def touch (m : ValueMember) (ids : List Nat) : CtlM δ Unit :=
  modify fun s => { s with touched := ids.map (m, ·) ++ s.touched }

/-- Reads an element of the union. -/
def readElem (m : ValueMember) (ev : SndCtlElemValue) (id : Nat) : CtlM δ Nat := do
  touch m [id]
  return load ev.value (m.size * id) m.size

/-- Writes an element of the union. -/
def writeElem (m : ValueMember) (ev : SndCtlElemValue) (id n : Nat) : CtlM δ SndCtlElemValue := do
  touch m [id]
  return { ev with value := store ev.value (m.size * id) m.size n }

/-- The outcome of an allocation. -/
def ctlAlloc : CtlM δ Bool := do
  let s ← get
  set { s with alloc := fun i => s.alloc (i + 1) }
  return s.alloc 0

variable (ops : CtlOps δ)

/-- `grp->ops->ioctl(grp->data, SNDRV_CTL_IOCTL_ELEM_READ, &ev)`. -/
def ioctlElemRead (ev : SndCtlElemValue) : CtlM δ (Int × SndCtlElemValue) := do
  let s ← get
  let (ret, ev, dev) := ops.elemRead ev s.dev
  set { s with dev }
  return (ret, ev)

/-- `grp->ops->ioctl(grp->data, SNDRV_CTL_IOCTL_ELEM_WRITE, &ev)`. -/
def ioctlElemWrite (ev : SndCtlElemValue) : CtlM δ Int := do
  let s ← get
  let (ret, dev) := ops.elemWrite ev s.dev
  set { s with dev }
  return ret

/-- `grp->ops->ioctl(grp->data, SNDRV_CTL_IOCTL_TLV_READ, tlv)`. -/
def ioctlTlvRead (tlv : SndCtlTlv) : CtlM δ (Int × SndCtlTlv) := do
  let s ← get
  let (ret, tlv, dev) := ops.tlvRead tlv s.dev
  set { s with dev }
  return (ret, tlv)

/-- `grp->ops->ioctl(grp->data, SNDRV_CTL_IOCTL_TLV_WRITE, tlv)`. -/
def ioctlTlvWrite (tlv : SndCtlTlv) : CtlM δ Int := do
  let s ← get
  let (ret, dev) := ops.tlvWrite tlv s.dev
  set { s with dev }
  return ret

/-! ## The accessors -/

/-- `memset(&ev, 0, sizeof(ev)); ev.id.numid = ctl->info.id.numid`. -/
def MixerCtl.elemValue (ctl : MixerCtl) : SndCtlElemValue := { id := { numid := ctl.info.id.numid } }

def mixerCtlIsAccessTlvRw (ctl : MixerCtl) : Bool := ctl.info.access &&& accessTlvReadwrite ≠ 0

/-- `mixer_ctl_get_value`. -/
def mixerCtlGetValue (ctl : MixerCtl) (id : UInt32) : CtlM δ Int := do
  if id ≥ ctl.info.count then return -eInval
  else
    let (ret, ev) ← ioctlElemRead ops ctl.elemValue
    if ret < 0 then return ret
    else
      match ctl.info.type with
      | .boolean => return if (← readElem .integer ev id.toNat) = 0 then 0 else 1
      | .integer => return wrapInt (wrapLong (← readElem .integer ev id.toNat))
      | .enumerated => return wrapInt (← readElem .enumerated ev id.toNat)
      | .bytes => return (← readElem .bytes ev id.toNat)
      | _ => return -eInval

/-- `mixer_ctl_set_value`. -/
def mixerCtlSetValue (ctl : MixerCtl) (id : UInt32) (value : Int) : CtlM δ Int := do
  if id ≥ ctl.info.count then return -eInval
  else
    let (ret, ev) ← ioctlElemRead ops ctl.elemValue
    if ret < 0 then return ret
    else
      match ctl.info.type with
      | .boolean => ioctlElemWrite ops (← writeElem .integer ev id.toNat (if value = 0 then 0 else 1))
      | .integer => ioctlElemWrite ops (← writeElem .integer ev id.toNat (toULong value).toNat)
      | .enumerated => ioctlElemWrite ops (← writeElem .enumerated ev id.toNat (toUInt value).toNat)
      | .bytes => ioctlElemWrite ops (← writeElem .bytes ev id.toNat (value % 256).toNat)
      | _ => return -eInval

/-- `memcpy(array, source, size * count)` with the elements of a member that were read. -/
def readArray (ctl : MixerCtl) (m : ValueMember) (array : Memory) (count : Nat) : CtlM δ (Int × Memory) := do
  let (ret, ev) ← ioctlElemRead ops ctl.elemValue
  if ret < 0 then return (ret, array)
  else
    touch m (List.range count)
    return (0, copy array 0 ev.value 0 (m.size * count))

/-- `memcpy(dest, array, size * count)` to the elements of a member, which are written. -/
def writeArray (ctl : MixerCtl) (m : ValueMember) (array : Memory) (count : Nat) : CtlM δ Int := do
  touch m (List.range count)
  let ev := ctl.elemValue
  ioctlElemWrite ops { ev with value := copy ev.value 0 array 0 (m.size * count) }

/-- The bytes of a control with TLV access; the array is written also when reading them fails. -/
def readTlv (ctl : MixerCtl) (array : Memory) (count : UInt64) : CtlM δ (Int × Memory) := do
  if count > sizeMax - sizeofTlv then return (-eInval, array)
  else if !(← ctlAlloc) then return (-eNoMem, array)
  else
    let (ret, tlv) ← ioctlTlvRead ops { numid := ctl.info.id.numid, length := count.toUInt32 }
    return (ret, copy array 0 tlv.tlv 0 count.toNat)

def writeTlv (ctl : MixerCtl) (array : Memory) (count : UInt64) : CtlM δ Int := do
  if count > sizeMax - sizeofTlv then return -eInval
  else if !(← ctlAlloc) then return -eNoMem
  else
    let tlv := copy (fun _ => 0) 0 array 0 count.toNat
    ioctlTlvWrite ops { numid := ctl.info.id.numid, length := count.toUInt32, tlv }

/-- `mixer_ctl_get_array`; an array of `none` is `NULL`. -/
def mixerCtlGetArray (ctl : MixerCtl) (array : Option Memory) (count : UInt64) : CtlM δ (Int × Option Memory) := do
  match array with
  | none => return (-eInval, none)
  | some array =>
    let (ret, array) ←
      if count = 0 then pure (-eInval, array)
      else if count > ctl.info.count.toUInt64 then pure (-eInval, array)
      else
        match ctl.info.type with
        | .boolean | .integer => readArray ops ctl .integer array count.toNat
        | .bytes =>
          if mixerCtlIsAccessTlvRw ctl then readTlv ops ctl array count
          else readArray ops ctl .bytes array count.toNat
        | .iec958 => readArray ops ctl .iec958 array count.toNat
        | _ => pure (-eInval, array)
    return (ret, some array)

/-- `mixer_ctl_set_array`; an array of `none` is `NULL`. -/
def mixerCtlSetArray (ctl : MixerCtl) (array : Option Memory) (count : UInt64) : CtlM δ Int := do
  match array with
  | none => return -eInval
  | some array =>
    if count = 0 then return -eInval
    else if count > ctl.info.count.toUInt64 then return -eInval
    else
      match ctl.info.type with
      | .boolean | .integer => writeArray ops ctl .integer array count.toNat
      | .bytes =>
        if mixerCtlIsAccessTlvRw ctl then writeTlv ops ctl array count
        else writeArray ops ctl .bytes array count.toNat
      | .iec958 => writeArray ops ctl .iec958 array count.toNat
      | _ => return -eInval

/-- A call of an accessor. -/
inductive CtlCall
  | getValue (id : UInt32)
  | setValue (id : UInt32) (value : Int)
  | getArray (array : Option Memory) (count : UInt64)
  | setArray (array : Option Memory) (count : UInt64)

/-- The caller's array. -/
def CtlCall.array : CtlCall → Option Memory
  | .getArray array _ => array
  | .setArray array _ => array
  | _ => none

/-- What a call returns, and the caller's array after it. -/
def CtlCall.run (ctl : MixerCtl) : CtlCall → CtlM δ (Int × Option Memory)
  | .getValue id => return (← mixerCtlGetValue ops ctl id, none)
  | .setValue id value => return (← mixerCtlSetValue ops ctl id value, none)
  | .getArray array count => mixerCtlGetArray ops ctl array count
  | .setArray array count => return (← mixerCtlSetArray ops ctl array count, array)

end

section

variable {δ : Type} (ops : CtlOps δ) (s : AccessState δ)

@[simp] theorem exec_touch (m : ValueMember) (ids : List Nat) :
    exec (touch m ids) s = ((), { s with touched := ids.map (m, ·) ++ s.touched }) := (rfl)

@[simp] theorem exec_readElem (m : ValueMember) (ev : SndCtlElemValue) (id : Nat) :
    exec (readElem m ev id) s =
      (load ev.value (m.size * id) m.size, { s with touched := (m, id) :: s.touched }) := (rfl)

@[simp] theorem exec_writeElem (m : ValueMember) (ev : SndCtlElemValue) (id n : Nat) :
    exec (writeElem m ev id n) s =
      ({ ev with value := store ev.value (m.size * id) m.size n }, { s with touched := (m, id) :: s.touched }) := (rfl)

@[simp] theorem exec_ctlAlloc :
    exec (ctlAlloc (δ := δ)) s = (s.alloc 0, { s with alloc := fun i => s.alloc (i + 1) }) := (rfl)

@[simp] theorem exec_ioctlElemRead (ev : SndCtlElemValue) :
    exec (ioctlElemRead ops ev) s = (((ops.elemRead ev s.dev).1, (ops.elemRead ev s.dev).2.1),
      { s with dev := (ops.elemRead ev s.dev).2.2 }) := (rfl)

@[simp] theorem exec_ioctlElemWrite (ev : SndCtlElemValue) :
    exec (ioctlElemWrite ops ev) s = ((ops.elemWrite ev s.dev).1, { s with dev := (ops.elemWrite ev s.dev).2 }) := (rfl)

@[simp] theorem exec_ioctlTlvRead (tlv : SndCtlTlv) :
    exec (ioctlTlvRead ops tlv) s = (((ops.tlvRead tlv s.dev).1, (ops.tlvRead tlv s.dev).2.1),
      { s with dev := (ops.tlvRead tlv s.dev).2.2 }) := (rfl)

@[simp] theorem exec_ioctlTlvWrite (tlv : SndCtlTlv) :
    exec (ioctlTlvWrite ops tlv) s = ((ops.tlvWrite tlv s.dev).1, { s with dev := (ops.tlvWrite tlv s.dev).2 }) := (rfl)

end

/-! ## One value -/

/-- The member that holds the values of a control. -/
def CtlElemType.member : CtlElemType → Option ValueMember
  | .boolean => some .integer
  | .integer => some .integer
  | .enumerated => some .enumerated
  | .bytes => some .bytes
  | .iec958 => some .iec958
  | _ => Option.none

/-- The value an element stands for. -/
def CtlElemType.decode : CtlElemType → Nat → Int
  | .boolean, n => if n = 0 then 0 else 1
  | .integer, n => wrapInt (wrapLong n)
  | .enumerated, n => wrapInt n
  | _, n => n

/-- The element that is written for a value. -/
def CtlElemType.encode : CtlElemType → Int → Nat
  | .boolean, v => if v = 0 then 0 else 1
  | .integer, v => (toULong v).toNat
  | .enumerated, v => (toUInt v).toNat
  | _, v => (v % 256).toNat

/-- A type whose values are got and set one by one. -/
def CtlElemType.single (t : CtlElemType) : Bool := t matches .boolean | .integer | .enumerated | .bytes

section

variable {δ : Type} {ops : CtlOps δ} {ctl : MixerCtl} {id : UInt32} {s : AccessState δ} {m : ValueMember}

/-- The backend refuses to read the control. -/
def ReadFails (ops : CtlOps δ) (ctl : MixerCtl) (s : AccessState δ) : Prop := (ops.elemRead ctl.elemValue s.dev).1 < 0

theorem exec_mixerCtlGetValue_range (h : ctl.info.count ≤ id) :
    exec (mixerCtlGetValue ops ctl id) s = (-eInval, s) := by
  unfold mixerCtlGetValue
  rw [if_pos h, exec_pure]

theorem exec_mixerCtlGetValue_fails (h : ¬ ctl.info.count ≤ id) (hr : ReadFails ops ctl s) :
    exec (mixerCtlGetValue ops ctl id) s =
      ((ops.elemRead ctl.elemValue s.dev).1, { s with dev := (ops.elemRead ctl.elemValue s.dev).2.2 }) := by
  unfold ReadFails at hr
  unfold mixerCtlGetValue
  rw [if_neg h, exec_bind, exec_ioctlElemRead]
  dsimp only
  rw [if_pos hr, exec_pure]

/-- Where the control can be read, the value of its element is returned. -/
theorem exec_mixerCtlGetValue (h : ¬ ctl.info.count ≤ id) (hr : ¬ ReadFails ops ctl s) (hs : ctl.info.type.single)
    (hm : ctl.info.type.member = some m) :
    exec (mixerCtlGetValue ops ctl id) s =
      (ctl.info.type.decode (load (ops.elemRead ctl.elemValue s.dev).2.1.value (m.size * id.toNat) m.size),
        { s with
          dev := (ops.elemRead ctl.elemValue s.dev).2.2
          touched := (m, id.toNat) :: s.touched }) := by
  unfold ReadFails at hr
  unfold mixerCtlGetValue
  rw [if_neg h, exec_bind, exec_ioctlElemRead]
  dsimp only
  rw [if_neg hr]
  cases ht : ctl.info.type <;> rw [ht] at hs hm <;>
    first | exact absurd hs (by decide) | obtain rfl := Option.some.inj hm
  all_goals simp only [exec_bind, exec_readElem, exec_pure, CtlElemType.decode]

theorem exec_mixerCtlGetValue_none (h : ¬ ctl.info.count ≤ id) (hr : ¬ ReadFails ops ctl s)
    (hs : ctl.info.type.single = false) :
    exec (mixerCtlGetValue ops ctl id) s = (-eInval, { s with dev := (ops.elemRead ctl.elemValue s.dev).2.2 }) := by
  unfold ReadFails at hr
  unfold mixerCtlGetValue
  rw [if_neg h, exec_bind, exec_ioctlElemRead]
  dsimp only
  rw [if_neg hr]
  cases ht : ctl.info.type <;> rw [ht] at hs <;> first | exact absurd hs (by decide) | rfl

theorem exec_mixerCtlSetValue_range {value : Int} (h : ctl.info.count ≤ id) :
    exec (mixerCtlSetValue ops ctl id value) s = (-eInval, s) := by
  unfold mixerCtlSetValue
  rw [if_pos h, exec_pure]

theorem exec_mixerCtlSetValue_fails {value : Int} (h : ¬ ctl.info.count ≤ id) (hr : ReadFails ops ctl s) :
    exec (mixerCtlSetValue ops ctl id value) s =
      ((ops.elemRead ctl.elemValue s.dev).1, { s with dev := (ops.elemRead ctl.elemValue s.dev).2.2 }) := by
  unfold ReadFails at hr
  unfold mixerCtlSetValue
  rw [if_neg h, exec_bind, exec_ioctlElemRead]
  dsimp only
  rw [if_pos hr, exec_pure]

/-- The union to be written for a value: the one that was read, but for one element. -/
def setElem (ops : CtlOps δ) (ctl : MixerCtl) (s : AccessState δ) (m : ValueMember) (id n : Nat) : SndCtlElemValue :=
  let ev := (ops.elemRead ctl.elemValue s.dev).2.1
  { ev with value := store ev.value (m.size * id) m.size n }

/-- Where the control can be read, its union is written with one element changed. -/
theorem exec_mixerCtlSetValue {value : Int} (h : ¬ ctl.info.count ≤ id) (hr : ¬ ReadFails ops ctl s)
    (hs : ctl.info.type.single) (hm : ctl.info.type.member = some m) :
    exec (mixerCtlSetValue ops ctl id value) s =
      let w := ops.elemWrite (setElem ops ctl s m id.toNat (ctl.info.type.encode value))
        (ops.elemRead ctl.elemValue s.dev).2.2
      (w.1, { s with dev := w.2, touched := (m, id.toNat) :: s.touched }) := by
  unfold ReadFails at hr
  unfold mixerCtlSetValue
  rw [if_neg h, exec_bind, exec_ioctlElemRead]
  dsimp only
  rw [if_neg hr]
  cases ht : ctl.info.type <;> rw [ht] at hs hm <;>
    first | exact absurd hs (by decide) | obtain rfl := Option.some.inj hm
  all_goals simp only [exec_bind, exec_writeElem, exec_ioctlElemWrite, CtlElemType.encode, setElem]

theorem exec_mixerCtlSetValue_none {value : Int} (h : ¬ ctl.info.count ≤ id) (hr : ¬ ReadFails ops ctl s)
    (hs : ctl.info.type.single = false) :
    exec (mixerCtlSetValue ops ctl id value) s =
      (-eInval, { s with dev := (ops.elemRead ctl.elemValue s.dev).2.2 }) := by
  unfold ReadFails at hr
  unfold mixerCtlSetValue
  rw [if_neg h, exec_bind, exec_ioctlElemRead]
  dsimp only
  rw [if_neg hr]
  cases ht : ctl.info.type <;> rw [ht] at hs <;> first | exact absurd hs (by decide) | rfl

theorem CtlElemType.member_of_single {t : CtlElemType} (h : t.single) : ∃ m, t.member = some m := by
  cases t <;> first | exact absurd h (by decide) | exact ⟨_, rfl⟩

/-! ## Arrays of values -/

/-- How an array is accessed: the elements of a member, or the bytes behind a TLV. -/
inductive ArrayPath
  | elems (m : ValueMember)
  | tlv
  deriving DecidableEq

/-- The path by which the array accessors reach the values of a control. -/
def MixerCtl.arrayPath (ctl : MixerCtl) : Option ArrayPath :=
  match ctl.info.type with
  | .boolean => some (.elems .integer)
  | .integer => some (.elems .integer)
  | .bytes => if mixerCtlIsAccessTlvRw ctl then some .tlv else some (.elems .bytes)
  | .iec958 => some (.elems .iec958)
  | _ => none

/-- A count the array accessors refuse. -/
def BadCount (ctl : MixerCtl) (count : UInt64) : Prop := count = 0 ∨ ctl.info.count.toUInt64 < count

variable {a : Memory} {count : UInt64}

theorem exec_mixerCtlGetArray (h : ¬ BadCount ctl count) :
    exec (mixerCtlGetArray ops ctl (some a) count) s =
      let r := match ctl.arrayPath with
        | some (.elems m) => exec (readArray ops ctl m a count.toNat) s
        | some .tlv => exec (readTlv ops ctl a count) s
        | none => ((-eInval, a), s)
      ((r.1.1, some r.1.2), r.2) := by
  obtain ⟨h0, hle⟩ := not_or.1 h
  unfold mixerCtlGetArray MixerCtl.arrayPath
  simp only [if_neg h0, if_neg hle, gt_iff_lt]
  cases ctl.info.type <;> try rfl
  cases mixerCtlIsAccessTlvRw ctl <;> rfl

theorem exec_mixerCtlGetArray_bad (h : BadCount ctl count) :
    exec (mixerCtlGetArray ops ctl (some a) count) s = ((-eInval, some a), s) := by
  unfold mixerCtlGetArray
  rcases h with rfl | h
  · rfl
  · simp only [gt_iff_lt, if_pos h, ite_self]
    rfl

theorem exec_mixerCtlSetArray (h : ¬ BadCount ctl count) :
    exec (mixerCtlSetArray ops ctl (some a) count) s =
      match ctl.arrayPath with
      | some (.elems m) => exec (writeArray ops ctl m a count.toNat) s
      | some .tlv => exec (writeTlv ops ctl a count) s
      | none => (-eInval, s) := by
  obtain ⟨h0, hle⟩ := not_or.1 h
  unfold mixerCtlSetArray MixerCtl.arrayPath
  simp only [if_neg h0, if_neg hle, gt_iff_lt]
  cases ctl.info.type <;> try rfl
  cases mixerCtlIsAccessTlvRw ctl <;> rfl

theorem exec_mixerCtlSetArray_bad (h : BadCount ctl count) :
    exec (mixerCtlSetArray ops ctl (some a) count) s = (-eInval, s) := by
  unfold mixerCtlSetArray
  rcases h with rfl | h
  · rfl
  · simp only [gt_iff_lt, if_pos h, ite_self]
    rfl

theorem MixerCtl.arrayPath_elems (h : ctl.arrayPath = some (.elems m)) : ctl.info.type.member = some m := by
  unfold arrayPath at h
  cases ht : ctl.info.type <;> rw [ht] at h <;> dsimp only at h
  case bytes =>
    split at h <;> cases h
    rfl
  all_goals
    cases h
    try rfl

end

/-! ## The elements that are accessed -/

section

variable {δ : Type} {ops : CtlOps δ} {ctl : MixerCtl} {s : AccessState δ} {e : ValueMember × Nat}

/-- An element below the control's count, of the member that holds its values. -/
def CountedElem (ctl : MixerCtl) (e : ValueMember × Nat) : Prop :=
  ctl.info.type.member = some e.1 ∧ e.2 < ctl.info.count.toNat

theorem touched_getValue {id : UInt32} (h : e ∈ (exec (mixerCtlGetValue ops ctl id) s).2.touched) :
    e ∈ s.touched ∨ CountedElem ctl e := by
  by_cases hid : ctl.info.count ≤ id
  · rw [exec_mixerCtlGetValue_range hid] at h
    exact .inl h
  by_cases hr : ReadFails ops ctl s
  · rw [exec_mixerCtlGetValue_fails hid hr] at h
    exact .inl h
  cases hs : ctl.info.type.single
  · rw [exec_mixerCtlGetValue_none hid hr hs] at h
    exact .inl h
  · obtain ⟨m, hm⟩ := CtlElemType.member_of_single hs
    rw [exec_mixerCtlGetValue hid hr hs hm] at h
    rcases List.mem_cons.1 h with rfl | h
    · exact .inr ⟨hm, UInt32.lt_iff_toNat_lt.1 (UInt32.not_le.1 hid)⟩
    · exact .inl h

theorem touched_setValue {id : UInt32} {value : Int} (h : e ∈ (exec (mixerCtlSetValue ops ctl id value) s).2.touched) :
    e ∈ s.touched ∨ CountedElem ctl e := by
  by_cases hid : ctl.info.count ≤ id
  · rw [exec_mixerCtlSetValue_range hid] at h
    exact .inl h
  by_cases hr : ReadFails ops ctl s
  · rw [exec_mixerCtlSetValue_fails hid hr] at h
    exact .inl h
  cases hs : ctl.info.type.single
  · rw [exec_mixerCtlSetValue_none hid hr hs] at h
    exact .inl h
  · obtain ⟨m, hm⟩ := CtlElemType.member_of_single hs
    rw [exec_mixerCtlSetValue hid hr hs hm] at h
    rcases List.mem_cons.1 h with rfl | h
    · exact .inr ⟨hm, UInt32.lt_iff_toNat_lt.1 (UInt32.not_le.1 hid)⟩
    · exact .inl h

/-- The elements of an array that is accepted are counted. -/
theorem countedElem_of_range {m : ValueMember} {count : UInt64} (hm : ctl.info.type.member = some m)
    (hb : ¬ BadCount ctl count) (h : e ∈ (List.range count.toNat).map (m, ·)) : CountedElem ctl e := by
  obtain ⟨i, hi, rfl⟩ := List.mem_map.1 h
  have hle := UInt64.not_lt.1 (not_or.1 hb).2
  rw [UInt64.le_iff_toNat_le, UInt32.toNat_toUInt64] at hle
  exact ⟨hm, Nat.lt_of_lt_of_le (List.mem_range.1 hi) hle⟩

theorem touched_getArray {array : Option Memory} {count : UInt64}
    (h : e ∈ (exec (mixerCtlGetArray ops ctl array count) s).2.touched) : e ∈ s.touched ∨ CountedElem ctl e := by
  cases array with
  | none => exact .inl h
  | some a =>
    by_cases hb : BadCount ctl count
    · rw [exec_mixerCtlGetArray_bad hb] at h
      exact .inl h
    rw [exec_mixerCtlGetArray hb] at h
    rcases hp : ctl.arrayPath with _ | m | _ <;> rw [hp] at h <;> dsimp only at h
    · exact .inl h
    · rw [readArray, exec_bind, exec_ioctlElemRead, exec_ite] at h
      split at h
      · exact .inl h
      · rcases List.mem_append.1 h with h | h
        · exact .inr (countedElem_of_range (MixerCtl.arrayPath_elems hp) hb h)
        · exact .inl h
    · rw [readTlv, exec_ite] at h
      split at h
      · exact .inl h
      · rw [exec_bind, exec_ctlAlloc, exec_ite] at h
        split at h <;> exact .inl h

theorem touched_setArray {array : Option Memory} {count : UInt64}
    (h : e ∈ (exec (mixerCtlSetArray ops ctl array count) s).2.touched) : e ∈ s.touched ∨ CountedElem ctl e := by
  cases array with
  | none => exact .inl h
  | some a =>
    by_cases hb : BadCount ctl count
    · rw [exec_mixerCtlSetArray_bad hb] at h
      exact .inl h
    rw [exec_mixerCtlSetArray hb] at h
    rcases hp : ctl.arrayPath with _ | m | _ <;> rw [hp] at h <;> dsimp only at h
    · exact .inl h
    · rcases List.mem_append.1 h with h | h
      · exact .inr (countedElem_of_range (MixerCtl.arrayPath_elems hp) hb h)
      · exact .inl h
    · rw [writeTlv, exec_ite] at h
      split at h
      · exact .inl h
      · rw [exec_bind, exec_ctlAlloc, exec_ite] at h
        split at h <;> exact .inl h

/-- A call comes to counted elements only. -/
theorem touched_run {call : CtlCall} (h : e ∈ (exec (call.run ops ctl) s).2.touched) :
    e ∈ s.touched ∨ CountedElem ctl e := by
  cases call with
  | getValue id => exact touched_getValue h
  | setValue id value => exact touched_setValue h
  | getArray array count => exact touched_getArray h
  | setArray array count => exact touched_setArray h

end

/-- Whatever the backend, no call comes to an element outside its member. -/
def AccessesInside (ctl : MixerCtl) : Prop :=
  ∀ (δ : Type) (ops : CtlOps δ) (call : CtlCall) (s : AccessState δ), s.touched = [] →
    ∀ e ∈ (exec (call.run ops ctl) s).2.touched, e.2 < e.1.capacity

/-- The member that holds the values of a control has an element for each of them. -/
def CountFits (info : SndCtlElemInfo) : Prop := ∀ m, info.type.member = some m → info.count.toNat ≤ m.capacity

/-- A backend that answers with what it is asked with. -/
def echoOps : CtlOps Unit where
  elemInfo i u := (0, i, u)
  elemRead ev u := (0, ev, u)
  elemWrite _ u := (0, u)
  tlvRead t u := (0, t, u)
  tlvWrite _ u := (0, u)

/-- The accesses stay inside the union just when the member has an element for each value of the control. -/
theorem accessesInside_iff (ctl : MixerCtl) : AccessesInside ctl ↔ CountFits ctl.info := by
  constructor
  · intro h m hm
    by_contra hgt
    rw [not_le] at hgt
    -- the element behind the last one can be asked for
    have hcap : m.capacity < 2 ^ 32 := by cases m <;> decide
    have hid : (m.capacity.toUInt32).toNat = m.capacity := by
      rw [Nat.toUInt32_eq, UInt32.toNat_ofNat', Nat.mod_eq_of_lt hcap]
    have hle : ¬ ctl.info.count ≤ m.capacity.toUInt32 := by
      rw [UInt32.le_iff_toNat_le, hid]
      omega
    have hr : ¬ ReadFails echoOps ctl { dev := () } := lt_irrefl 0
    cases hs : ctl.info.type.single
    · obtain ⟨rfl, hp⟩ : m = .iec958 ∧ ctl.arrayPath = some (.elems .iec958) := by
        unfold MixerCtl.arrayPath
        cases ht : ctl.info.type <;> rw [ht] at hs hm <;> first | exact absurd hs (by decide) | cases hm
        exact ⟨rfl, rfl⟩
      have hlt : 1 < ctl.info.count.toUInt64.toNat := by
        rw [UInt32.toNat_toUInt64]
        exact hgt
      have hb : ¬ BadCount ctl ctl.info.count.toUInt64 := by
        rintro (h0 | h0)
        · rw [h0] at hlt
          exact absurd hlt (by decide)
        · exact UInt64.lt_irrefl _ h0
      have hin := h Unit echoOps (.setArray (some fun _ => 0) ctl.info.count.toUInt64) { dev := () } rfl (.iec958, 1)
      simp only [CtlCall.run, exec_bind, exec_mixerCtlSetArray hb, hp] at hin
      exact absurd (hin (List.mem_append_left _ (List.mem_map.2 ⟨1, List.mem_range.2 hlt, rfl⟩))) (lt_irrefl 1)
    · have hin := h Unit echoOps (.getValue m.capacity.toUInt32) { dev := () } rfl (m, m.capacity.toUInt32.toNat)
      simp only [CtlCall.run, exec_bind, exec_mixerCtlGetValue hle hr hs hm] at hin
      have hlt := hin List.mem_cons_self
      rw [hid] at hlt
      exact absurd hlt (lt_irrefl _)
  · rintro h δ ops call s hs e he
    rcases touched_run he with he | ⟨hm, hlt⟩
    · rw [hs] at he
      cases he
    · exact hlt.trans_le (h _ hm)

/-- A plugin with one control of 200 integers. -/
def wideTable : MixerPlugin where
  controls := [{ name := [87], type := .integer, int := { count := 200, max := 100 } }]
  fits := by decide

/-- The plugin reports the control as it is, and its element 150 is read behind the union's integers. -/
theorem not_accessesInside_wide :
    (mixerPlugGetElemInfo wideTable {}).1 = 0 ∧ ¬ AccessesInside { info := (mixerPlugGetElemInfo wideTable {}).2 } := by
  refine ⟨by decide, fun h => ?_⟩
  have hin := h Unit echoOps (.getValue 150) { dev := () } rfl (.integer, 150) (List.mem_singleton_self _)
  exact absurd hin (by decide)

end Tinyalsa
