/-
The values of a control over a backend that stores one union for each control: the accessors behave like
one array of values.
-/
import Tinyalsa.Mixer.Values

namespace Tinyalsa

open Hoare ByteMemory CInt

/-! ## Stored unions -/

/-- The bytes of a union. -/
abbrev ValueUnion := Fin valueUnionSize → UInt8

namespace ValueUnion

def memory (u : ValueUnion) : Memory := fun i => if h : i < valueUnionSize then u ⟨i, h⟩ else 0

/-- An element of a member. -/
def elem (u : ValueUnion) (m : ValueMember) (i : Nat) : Nat := load u.memory (m.size * i) m.size

end ValueUnion

/-- A backend that stores a union for each control. Reading returns it and writing replaces it, or nothing
happens. -/
structure StoresValues {δ : Type} (ops : CtlOps δ) (stored : δ → UInt32 → ValueUnion) : Prop where
  readKeeps : ∀ ev d, stored (ops.elemRead ev d).2.2 = stored d
  read : ∀ ev d, 0 ≤ (ops.elemRead ev d).1 →
    (ops.elemRead ev d).2.1.id.numid = ev.id.numid ∧
      ∀ i : Fin valueUnionSize, (ops.elemRead ev d).2.1.value i = stored d ev.id.numid i
  writeFails : ∀ ev d, (ops.elemWrite ev d).1 < 0 → stored (ops.elemWrite ev d).2 = stored d
  write : ∀ ev d, 0 ≤ (ops.elemWrite ev d).1 →
    stored (ops.elemWrite ev d).2 = Function.update (stored d) ev.id.numid fun i => ev.value i

/-- A control whose values the union holds, one by one. -/
structure HoldsValues (ctl : MixerCtl) (m : ValueMember) : Prop where
  single : ctl.info.type.single
  member : ctl.info.type.member = some m
  noTlv : ctl.info.type = .bytes → mixerCtlIsAccessTlvRw ctl = false
  fits : ctl.info.count.toNat ≤ m.capacity

/-- What is read back for a value. -/
def CtlElemType.normalise : CtlElemType → Int → Int
  | .boolean, v => if v = 0 then 0 else 1
  | .bytes, v => v % 256
  | _, v => v

/-- The value of an element of a caller's array, whose elements are as long as those of the member. -/
def arrayValue (m : ValueMember) (a : Memory) (i : Nat) : Int :=
  match m with
  | .integer => wrapLong (load a (m.size * i) m.size)
  | _ => load a (m.size * i) m.size

theorem ValueMember.elem_within {m : ValueMember} {i k : Nat} (hi : i < m.capacity) (hk : k < m.size) :
    m.size * i + k < valueUnionSize := by
  have hall : m.size * m.capacity ≤ valueUnionSize := by cases m <;> decide
  have hnext : m.size * (i + 1) ≤ m.size * m.capacity := Nat.mul_le_mul_left _ hi
  rw [Nat.mul_succ] at hnext
  omega

/-- The element of a union given by some bytes. -/
theorem ValueUnion.elem_eq {u : ValueUnion} {value : Memory} (h : ∀ i : Fin valueUnionSize, value i = u i)
    {m : ValueMember} {i : Nat} (hi : i < m.capacity) : u.elem m i = load value (m.size * i) m.size := by
  refine load_congr fun k hk => ?_
  have hlt := ValueMember.elem_within hi hk
  unfold memory
  rw [dif_pos hlt]
  exact (h ⟨_, hlt⟩).symm

/-- Two elements of a member do not overlap. -/
theorem ValueMember.elem_disjoint (m : ValueMember) {i j : Nat} (h : i ≠ j) :
    m.size * i + m.size ≤ m.size * j ∨ m.size * j + m.size ≤ m.size * i := by
  rcases Nat.lt_or_gt_of_ne h with h | h
  · exact .inl (by rw [← Nat.mul_succ]; exact Nat.mul_le_mul_left _ h)
  · exact .inr (by rw [← Nat.mul_succ]; exact Nat.mul_le_mul_left _ h)

/-- A value that is written into an element is read out of it, as far as the type keeps it. -/
theorem CtlElemType.decode_encode {t : CtlElemType} {m : ValueMember} (hs : t.single) (hm : t.member = some m) {v : Int}
    (hlo : -2 ^ 31 ≤ v) (hhi : v < 2 ^ 31) : t.decode (t.encode v % 256 ^ m.size) = t.normalise v := by
  cases t <;> first | exact absurd hs (by decide) | obtain rfl := Option.some.inj hm
  all_goals simp only [decode, encode, normalise, ValueMember.size]
  case boolean => split <;> rfl
  case integer =>
    rw [toNat_toULong]
    unfold wrapInt wrapLong
    omega
  case enumerated =>
    rw [toNat_toUInt]
    unfold wrapInt
    omega
  case bytes => omega

/-- An element of an array stands for the array's value, where an `int` holds it. -/
theorem CtlElemType.decode_load {t : CtlElemType} {m : ValueMember} (hs : t.single) (hm : t.member = some m)
    {a : Memory} {i : Nat} (hlo : -2 ^ 31 ≤ arrayValue m a i) (hhi : arrayValue m a i < 2 ^ 31) :
    t.decode (load a (m.size * i) m.size) = t.normalise (arrayValue m a i) := by
  have hlt := load_lt a (m.size * i) m.size
  unfold arrayValue at *
  cases t <;> first | exact absurd hs (by decide) | obtain rfl := Option.some.inj hm
  all_goals
    simp only [decode, normalise] at *
    generalize load a _ _ = n at *
    simp only [ValueMember.size] at hlt
  case boolean =>
    unfold wrapLong
    split <;> split <;> omega
  case integer => exact wrapInt_of_fits hlo hhi
  case enumerated => exact wrapInt_of_fits hlo hhi
  case bytes => omega

/-! ## The accessors over stored unions -/

section

variable {δ : Type} {ops : CtlOps δ} {stored : δ → UInt32 → ValueUnion} {ctl : MixerCtl} {m : ValueMember}
  {s : AccessState δ} {id : UInt32} {a : Memory} {count : UInt64}

/-- The array accessors reach the same member, or none. -/
theorem HoldsValues.arrayPath (hc : HoldsValues ctl m) : ctl.arrayPath = some (.elems m) ∨ ctl.arrayPath = none := by
  obtain ⟨hs, hm, htlv, -⟩ := hc
  unfold MixerCtl.arrayPath
  cases ht : ctl.info.type <;> rw [ht] at hs hm htlv <;>
    first | exact absurd hs (by decide) | obtain rfl := Option.some.inj hm
  case bytes =>
    rw [htlv rfl]
    exact .inl rfl
  case enumerated => exact .inr rfl
  all_goals exact .inl rfl

theorem HoldsValues.id_lt (hc : HoldsValues ctl m) (hid : ¬ ctl.info.count ≤ id) : id.toNat < m.capacity := by
  have := hc.fits
  rw [UInt32.le_iff_toNat_le] at hid
  omega

/-- The union that is read is the one that is stored for the control. -/
theorem StoresValues.readCtl (hb : StoresValues ops stored) (hr : ¬ ReadFails ops ctl s) :
    (ops.elemRead ctl.elemValue s.dev).2.1.id.numid = ctl.info.id.numid ∧ ∀ i : Fin valueUnionSize,
      (ops.elemRead ctl.elemValue s.dev).2.1.value i = stored s.dev ctl.info.id.numid i :=
  hb.read _ _ (not_lt.1 hr)

theorem StoresValues.getValue (hb : StoresValues ops stored) (hs : ctl.info.type.single)
    (hm : ctl.info.type.member = some m) (hin : id.toNat < m.capacity) (hid : ¬ ctl.info.count ≤ id)
    (hr : ¬ ReadFails ops ctl s) : (exec (mixerCtlGetValue ops ctl id) s).1 =
      ctl.info.type.decode ((stored s.dev ctl.info.id.numid).elem m id.toNat) := by
  rw [exec_mixerCtlGetValue hid hr hs hm, ValueUnion.elem_eq (hb.readCtl hr).2 hin]

/-- A value that is set changes one element of the control's union. -/
theorem StoresValues.setValue (hb : StoresValues ops stored) (hs : ctl.info.type.single)
    (hm : ctl.info.type.member = some m) (hin : ¬ ctl.info.count ≤ id → id.toNat < m.capacity) {v : Int}
    (hret : 0 ≤ (exec (mixerCtlSetValue ops ctl id v) s).1) :
    ¬ ctl.info.count ≤ id ∧ ∃ u, stored (exec (mixerCtlSetValue ops ctl id v) s).2.dev =
        Function.update (stored s.dev) ctl.info.id.numid u ∧
      u.elem m id.toNat = ctl.info.type.encode v % 256 ^ m.size ∧
      ∀ j, j ≠ id.toNat → j < m.capacity → u.elem m j = (stored s.dev ctl.info.id.numid).elem m j := by
  by_cases hid : ctl.info.count ≤ id
  · rw [exec_mixerCtlSetValue_range hid] at hret
    exact absurd hret (show ¬ (0 : Int) ≤ -eInval by decide)
  by_cases hr : ReadFails ops ctl s
  · rw [exec_mixerCtlSetValue_fails hid hr] at hret
    exact absurd hr (not_lt.2 hret)
  rw [exec_mixerCtlSetValue hid hr hs hm] at hret ⊢
  obtain ⟨hnum, hread⟩ := hb.readCtl hr
  have hwrite := hb.write _ _ hret
  rw [hb.readKeeps] at hwrite
  refine ⟨hid, fun i => (setElem ops ctl s m id.toNat (ctl.info.type.encode v)).value i, ?_, ?_, fun j hne hj => ?_⟩
  · rw [← hnum]
    exact hwrite
  · rw [ValueUnion.elem_eq (fun _ => rfl) (hin hid)]
    exact load_store _ _ _ _
  · rw [ValueUnion.elem_eq (fun _ => rfl) hj, ValueUnion.elem_eq hread hj]
    exact load_store_disjoint (m.elem_disjoint hne)

/-- The union to be written for an array. -/
def arrayUnion (m : ValueMember) (a : Memory) (count : Nat) : ValueUnion :=
  fun i => copy (fun _ => 0) 0 a 0 (m.size * count) i

/-- An array that is set replaces the control's union. -/
theorem StoresValues.setArray (hb : StoresValues ops stored) (hc : HoldsValues ctl m)
    (hret : 0 ≤ (exec (mixerCtlSetArray ops ctl (some a) count) s).1) :
    ¬ BadCount ctl count ∧ ctl.arrayPath = some (.elems m) ∧
      stored (exec (mixerCtlSetArray ops ctl (some a) count) s).2.dev =
        Function.update (stored s.dev) ctl.info.id.numid (arrayUnion m a count.toNat) := by
  have hneg : ¬ (0 : Int) ≤ -eInval := by decide
  by_cases hbad : BadCount ctl count
  · rw [exec_mixerCtlSetArray_bad hbad] at hret
    exact absurd hret hneg
  rw [exec_mixerCtlSetArray hbad] at hret ⊢
  rcases hc.arrayPath with hp | hp <;> rw [hp] at hret ⊢
  · exact ⟨hbad, rfl, hb.write _ _ hret⟩
  · exact absurd hret hneg

/-- An accepted array lies inside the union. -/
theorem arrayBytes_lt (hc : HoldsValues ctl m) (hbad : ¬ BadCount ctl count) {i : Nat} (hi : i < m.size * count.toNat) :
    i < valueUnionSize := by
  have hle := UInt64.not_lt.1 (not_or.1 hbad).2
  rw [UInt64.le_iff_toNat_le, UInt32.toNat_toUInt64] at hle
  have hbytes : m.size * count.toNat ≤ m.size * m.capacity := Nat.mul_le_mul_left _ (hle.trans hc.fits)
  have hall : m.size * m.capacity ≤ valueUnionSize := by cases m <;> decide
  omega

/-- An array that is got starts with the bytes of the control's union. -/
theorem StoresValues.getArray (hb : StoresValues ops stored) (hc : HoldsValues ctl m) (hbad : ¬ BadCount ctl count)
    (hp : ctl.arrayPath = some (.elems m)) (hr : ¬ ReadFails ops ctl s) :
    ∃ a', (exec (mixerCtlGetArray ops ctl (some a) count) s).1 = (0, some a') ∧
      ∀ i (h : i < m.size * count.toNat), a' i = stored s.dev ctl.info.id.numid ⟨i, arrayBytes_lt hc hbad h⟩ := by
  obtain ⟨-, hread⟩ := hb.readCtl hr
  unfold ReadFails at hr
  rw [exec_mixerCtlGetArray hbad, hp]
  dsimp only
  rw [readArray, exec_bind, exec_ioctlElemRead]
  dsimp only
  rw [if_neg hr]
  refine ⟨_, rfl, fun i h => ?_⟩
  rw [← hread]
  exact copy_start h

end

/-! ## One array of values -/

/-- The call asks for elements the control does not have, or for none. -/
def CtlCall.refused (ctl : MixerCtl) : CtlCall → Prop
  | .getValue id => ctl.info.count ≤ id
  | .setValue id _ => ctl.info.count ≤ id
  | .getArray _ count => BadCount ctl count
  | .setArray _ count => BadCount ctl count

/-- The call reads the control first. -/
def CtlCall.reads : CtlCall → Bool
  | .setArray .. => false
  | _ => true

/-- The call only reads. -/
def CtlCall.gets : CtlCall → Bool
  | .getValue _ => true
  | .getArray .. => true
  | _ => false

/-- The accessors of a control behave like one array of values, whatever state they are called in. -/
structure BehavesAsArray {δ : Type} (ops : CtlOps δ) (stored : δ → UInt32 → ValueUnion) (ctl : MixerCtl)
    (m : ValueMember) : Prop where
  /-- A value that was set is got while the values of the control stay. -/
  setGet : ∀ s id v, -2 ^ 31 ≤ v → v < 2 ^ 31 → 0 ≤ (exec (mixerCtlSetValue ops ctl id v) s).1 →
    ∀ t, stored t.dev ctl.info.id.numid = stored (exec (mixerCtlSetValue ops ctl id v) s).2.dev ctl.info.id.numid →
      ¬ ReadFails ops ctl t → (exec (mixerCtlGetValue ops ctl id) t).1 = ctl.info.type.normalise v
  setKeeps : ∀ s id v, 0 ≤ (exec (mixerCtlSetValue ops ctl id v) s).1 → ∀ j, j ≠ id.toNat → j < m.capacity →
    (stored (exec (mixerCtlSetValue ops ctl id v) s).2.dev ctl.info.id.numid).elem m j =
      (stored s.dev ctl.info.id.numid).elem m j
  /-- An array that was set is got, as an array and value by value. -/
  setArrayGet : ∀ s a count, count.toNat = ctl.info.count.toNat →
    0 ≤ (exec (mixerCtlSetArray ops ctl (some a) count) s).1 →
    ∀ t, stored t.dev ctl.info.id.numid =
        stored (exec (mixerCtlSetArray ops ctl (some a) count) s).2.dev ctl.info.id.numid → ¬ ReadFails ops ctl t →
      (∀ b, ∃ b', (exec (mixerCtlGetArray ops ctl (some b) count) t).1 = (0, some b') ∧
        ∀ i, i < m.size * count.toNat → b' i = a i) ∧
      ∀ id, id < ctl.info.count → -2 ^ 31 ≤ arrayValue m a id.toNat → arrayValue m a id.toNat < 2 ^ 31 →
        (exec (mixerCtlGetValue ops ctl id) t).1 = ctl.info.type.normalise (arrayValue m a id.toNat)
  /-- What is asked for in vain, or cannot be read, changes nothing. -/
  refused : ∀ s (call : CtlCall), call.refused ctl ∨ call.reads ∧ ReadFails ops ctl s →
    (exec (call.run ops ctl) s).1.1 < 0 ∧ (exec (call.run ops ctl) s).1.2 = call.array ∧
      stored (exec (call.run ops ctl) s).2.dev = stored s.dev
  gets : ∀ s (call : CtlCall), call.gets → stored (exec (call.run ops ctl) s).2.dev = stored s.dev
  others : ∀ s (call : CtlCall) n, n ≠ ctl.info.id.numid →
    stored (exec (call.run ops ctl) s).2.dev n = stored s.dev n

section

variable {δ : Type} {ops : CtlOps δ} {stored : δ → UInt32 → ValueUnion} {ctl : MixerCtl} {m : ValueMember}
  {s : AccessState δ} {id : UInt32} {a : Memory} {count : UInt64}

/-- Getting leaves the stored unions alone. -/
theorem StoresValues.gets (hb : StoresValues ops stored) (hc : HoldsValues ctl m) {call : CtlCall} (hget : call.gets) :
    stored (exec (call.run ops ctl) s).2.dev = stored s.dev := by
  cases call with
  | getValue id =>
    show stored (exec (mixerCtlGetValue ops ctl id) s).2.dev = _
    by_cases hid : ctl.info.count ≤ id
    · rw [exec_mixerCtlGetValue_range hid]
    by_cases hr : ReadFails ops ctl s
    · rw [exec_mixerCtlGetValue_fails hid hr]
      exact hb.readKeeps _ _
    · rw [exec_mixerCtlGetValue hid hr hc.single hc.member]
      exact hb.readKeeps _ _
  | getArray array count =>
    show stored (exec (mixerCtlGetArray ops ctl array count) s).2.dev = _
    cases array with
    | none => rfl
    | some a =>
      by_cases hbad : BadCount ctl count
      · rw [exec_mixerCtlGetArray_bad hbad]
      rw [exec_mixerCtlGetArray hbad]
      rcases hc.arrayPath with hp | hp <;> rw [hp]
      dsimp only
      rw [readArray, exec_bind, exec_ioctlElemRead, exec_ite]
      split <;> exact hb.readKeeps _ _
  | _ => cases hget

/-- Writing changes the control that is written only. -/
theorem StoresValues.write_other (hb : StoresValues ops stored) {ev : SndCtlElemValue} {d : δ} {n : UInt32}
    (hn : n ≠ ev.id.numid) : stored (ops.elemWrite ev d).2 n = stored d n := by
  rcases lt_or_ge (ops.elemWrite ev d).1 0 with hret | hret
  · rw [hb.writeFails _ _ hret]
  · rw [hb.write _ _ hret, Function.update_of_ne hn]

/-- A call changes no other control. -/
theorem StoresValues.others (hb : StoresValues ops stored) (hc : HoldsValues ctl m) (call : CtlCall) {n : UInt32}
    (hn : n ≠ ctl.info.id.numid) : stored (exec (call.run ops ctl) s).2.dev n = stored s.dev n := by
  cases call with
  | getValue id => rw [hb.gets hc (show CtlCall.gets (.getValue id) = true from rfl)]
  | getArray array count => rw [hb.gets hc (show CtlCall.gets (.getArray array count) = true from rfl)]
  | setValue id value =>
    show stored (exec (mixerCtlSetValue ops ctl id value) s).2.dev n = _
    by_cases hid : ctl.info.count ≤ id
    · rw [exec_mixerCtlSetValue_range hid]
    by_cases hr : ReadFails ops ctl s
    · rw [exec_mixerCtlSetValue_fails hid hr]
      exact congrFun (hb.readKeeps _ _) n
    · rw [exec_mixerCtlSetValue hid hr hc.single hc.member]
      obtain ⟨hnum, -⟩ := hb.readCtl hr
      exact (hb.write_other (by rw [setElem, hnum]; exact hn)).trans (congrFun (hb.readKeeps _ _) n)
  | setArray array count =>
    show stored (exec (mixerCtlSetArray ops ctl array count) s).2.dev n = _
    cases array with
    | none => rfl
    | some a =>
      by_cases hbad : BadCount ctl count
      · rw [exec_mixerCtlSetArray_bad hbad]
      rw [exec_mixerCtlSetArray hbad]
      rcases hc.arrayPath with hp | hp <;> rw [hp]
      exact hb.write_other hn

/-- A call that is refused, or cannot read the control, fails and changes nothing. -/
theorem StoresValues.refused (hb : StoresValues ops stored) (hc : HoldsValues ctl m) {call : CtlCall}
    (h : call.refused ctl ∨ call.reads ∧ ReadFails ops ctl s) :
    (exec (call.run ops ctl) s).1.1 < 0 ∧ (exec (call.run ops ctl) s).1.2 = call.array ∧
      stored (exec (call.run ops ctl) s).2.dev = stored s.dev := by
  have hneg : -eInval < 0 := by decide
  cases call with
  | getValue id =>
    show (exec (mixerCtlGetValue ops ctl id) s).1 < 0 ∧ _ = _ ∧ stored (exec (mixerCtlGetValue ops ctl id) s).2.dev = _
    by_cases hid : ctl.info.count ≤ id
    · rw [exec_mixerCtlGetValue_range hid]
      exact ⟨hneg, rfl, rfl⟩
    · obtain ⟨-, hr⟩ := h.resolve_left hid
      rw [exec_mixerCtlGetValue_fails hid hr]
      exact ⟨hr, rfl, hb.readKeeps _ _⟩
  | setValue id value =>
    show (exec (mixerCtlSetValue ops ctl id value) s).1 < 0 ∧ _ = _ ∧
      stored (exec (mixerCtlSetValue ops ctl id value) s).2.dev = _
    by_cases hid : ctl.info.count ≤ id
    · rw [exec_mixerCtlSetValue_range hid]
      exact ⟨hneg, rfl, rfl⟩
    · obtain ⟨-, hr⟩ := h.resolve_left hid
      rw [exec_mixerCtlSetValue_fails hid hr]
      exact ⟨hr, rfl, hb.readKeeps _ _⟩
  | getArray array count =>
    show (exec (mixerCtlGetArray ops ctl array count) s).1.1 < 0 ∧
      (exec (mixerCtlGetArray ops ctl array count) s).1.2 = _ ∧
      stored (exec (mixerCtlGetArray ops ctl array count) s).2.dev = _
    cases array with
    | none => exact ⟨hneg, rfl, rfl⟩
    | some a =>
      by_cases hbad : BadCount ctl count
      · rw [exec_mixerCtlGetArray_bad hbad]
        exact ⟨hneg, rfl, rfl⟩
      · obtain ⟨-, hr⟩ := h.resolve_left hbad
        unfold ReadFails at hr
        rw [exec_mixerCtlGetArray hbad]
        rcases hc.arrayPath with hp | hp <;> rw [hp]
        · dsimp only
          rw [readArray, exec_bind, exec_ioctlElemRead]
          dsimp only
          rw [if_pos hr]
          exact ⟨hr, rfl, hb.readKeeps _ _⟩
        · exact ⟨hneg, rfl, rfl⟩
  | setArray array count =>
    obtain hbad : BadCount ctl count := h.resolve_right fun h => Bool.false_ne_true h.1
    show (exec (mixerCtlSetArray ops ctl array count) s).1 < 0 ∧ _ = _ ∧
      stored (exec (mixerCtlSetArray ops ctl array count) s).2.dev = _
    cases array with
    | none => exact ⟨hneg, rfl, rfl⟩
    | some a =>
      rw [exec_mixerCtlSetArray_bad hbad]
      exact ⟨hneg, rfl, rfl⟩

/-- Over a backend that stores a union for each control, the accessors of a control whose values the union
holds behave like one array. -/
theorem behavesAsArray (hb : StoresValues ops stored) (hc : HoldsValues ctl m) : BehavesAsArray ops stored ctl m := by
  refine ⟨fun s id v hlo hhi hret t ht hr => ?_, fun s id v hret j hne hj => ?_,
    fun s a count hcount hret t ht hr => ?_,
    fun s call h => hb.refused hc h, fun s call h => hb.gets hc h, fun s call n hn => hb.others hc call hn⟩
  · obtain ⟨hid, u, hu, helem, -⟩ := hb.setValue hc.single hc.member hc.id_lt hret
    rw [hb.getValue hc.single hc.member (hc.id_lt hid) hid hr, ht, hu, Function.update_self, helem]
    exact CtlElemType.decode_encode hc.single hc.member hlo hhi
  · obtain ⟨-, u, hu, -, hkeep⟩ := hb.setValue hc.single hc.member hc.id_lt hret
    rw [hu, Function.update_self, hkeep j hne hj]
  · obtain ⟨hbad, hp, hstored⟩ := hb.setArray hc hret
    rw [hstored, Function.update_self] at ht
    refine ⟨fun b => ?_, fun id hid hlo hhi => ?_⟩
    · obtain ⟨b', hget, hbytes⟩ := hb.getArray (a := b) hc hbad hp hr
      refine ⟨b', hget, fun i hi => ?_⟩
      rw [hbytes i hi, ht]
      exact copy_start hi
    · have hid' : ¬ ctl.info.count ≤ id := UInt32.not_le.2 hid
      have hlt : id.toNat < count.toNat := by
        rw [hcount]
        exact UInt32.lt_iff_toNat_lt.1 hid
      have helem : (arrayUnion m a count.toNat).elem m id.toNat = load a (m.size * id.toNat) m.size := by
        refine (@ValueUnion.elem_eq _ (copy (fun _ => 0) 0 a 0 (m.size * count.toNat)) (fun _ => rfl) _ _
          (hc.id_lt hid')).trans (load_congr fun k hk => copy_start ?_)
        have hnext : m.size * (id.toNat + 1) ≤ m.size * count.toNat := Nat.mul_le_mul_left _ hlt
        rw [Nat.mul_succ] at hnext
        omega
      rw [hb.getValue hc.single hc.member (hc.id_lt hid') hid' hr, ht, helem]
      exact CtlElemType.decode_load hc.single hc.member hlo hhi

end

/-! ## A backend that stores unions -/

/-- The stored unions themselves; a control numbered 0 cannot be read or written. -/
def unionOps : CtlOps (UInt32 → ValueUnion) where
  elemInfo i d := (0, i, d)
  elemRead ev d := if ev.id.numid = 0 then (-eNoDev, ev, d) else (0, { ev with value := (d ev.id.numid).memory }, d)
  elemWrite ev d := if ev.id.numid = 0 then (-eNoDev, d) else (0, Function.update d ev.id.numid fun i => ev.value i)
  tlvRead t d := (-eNoDev, t, d)
  tlvWrite _ d := (-eNoDev, d)

theorem unionOps_storesValues : StoresValues unionOps id := by
  have hneg : ¬ (0 : Int) ≤ -eNoDev := by decide
  refine ⟨fun ev d => ?_, fun ev d h => ?_, fun ev d h => ?_, fun ev d h => ?_⟩
  all_goals
    unfold unionOps at *
    dsimp only at *
  · split <;> rfl
  · split at h
    · exact absurd h hneg
    rename_i hne
    rw [if_neg hne]
    refine ⟨rfl, fun i => ?_⟩
    show ValueUnion.memory _ i = _
    unfold ValueUnion.memory
    rw [dif_pos i.isLt]
    rfl
  · split
    · rfl
    · rename_i hne
      rw [if_neg hne] at h
      exact absurd h (lt_irrefl 0)
  · split at h
    · exact absurd h hneg
    rename_i hne
    rw [if_neg hne]
    rfl

/-- A volume of two channels. -/
def volumeCtl : MixerCtl where
  info := { id := { numid := 7 }, type := .integer, count := 2, min := -50, max := 50 }

/-- No volume is set yet. -/
def silent : AccessState (UInt32 → ValueUnion) where
  dev _ _ := 0

/-- A volume that is set on the second channel, and got there. -/
theorem behavesAsArray_volume :
    BehavesAsArray unionOps id volumeCtl .integer ∧
      (exec (mixerCtlSetValue unionOps volumeCtl 1 (-30)) silent).1 = 0 ∧
        (exec (mixerCtlGetValue unionOps volumeCtl 1)
          (exec (mixerCtlSetValue unionOps volumeCtl 1 (-30)) silent).2).1 = -30 := by
  have harray : BehavesAsArray unionOps id volumeCtl .integer :=
    behavesAsArray unionOps_storesValues ⟨rfl, rfl, by decide, by decide⟩
  have hset : (exec (mixerCtlSetValue unionOps volumeCtl 1 (-30)) silent).1 = 0 := by decide
  have hreads : ¬ ReadFails unionOps volumeCtl (exec (mixerCtlSetValue unionOps volumeCtl 1 (-30)) silent).2 := by
    unfold ReadFails
    decide
  exact ⟨harray, hset, harray.setGet silent 1 (-30) (by decide) (by decide) hset.ge _ rfl hreads⟩

end Tinyalsa
