/-
What tinymix prints of a control (`print_control_values`), and what becomes of that as the arguments of `tinymix set`.
A BYTE control is set from numbers by a function of its own (`tinymix_set_byte_ctl`).
-/
import Tinyalsa.Utils.CommandLine
import Tinyalsa.Utils.Numbers
import Tinyalsa.Utils.TinymixSet

namespace Tinyalsa.Tinymix

open Hoare ByteMemory CInt

/-! ## Bytes from numbers -/

/-- Why `tinymix_set_byte_ctl` exits. -/
inductive ByteFailure
  /-- `"set_byte_ctl: Failed to alloc mem for bytes %u\n"`. -/
  | noMemory (numValues : Nat)
  /-- `"%s not an integer\n"`. -/
  | notInteger (value : CString)
  /-- `"strtol: %s: %s\n"`. -/
  | outOfRange (value : CString)
  /-- `"%s should be between [0, 0xff]\n"`. -/
  | notByte (value : CString)
  /-- `"Failed to set binary control\n"`. -/
  | refused
  deriving DecidableEq, Repr

/-- A round of the loop: the byte that a value stands for. -/
def byteOf (value : CString) : Except ByteFailure UInt8 :=
  let r := strtol value 0
  if r.rest ≠ [] then .error (.notInteger value)
  else if r.range then .error (.outOfRange value)
  else if r.value < 0 ∨ r.value > 0xff then .error (.notByte value)
  else .ok r.value.toNat.toUInt8

/-- The loop of `tinymix_set_byte_ctl`. -/
def bytesOf : List CString → Except ByteFailure (List UInt8)
  | [] => .ok []
  | value :: values =>
    match byteOf value with
    | .error e => .error e
    | .ok b =>
      match bytesOf values with
      | .error e => .error e
      | .ok bs => .ok (b :: bs)

/-- `buf`, zeroed by `calloc`. -/
def bufferOf (bs : List UInt8) : Memory := fun i => bs[i]?.getD 0

/-- How a value is printed, apart from the items of an ENUMERATED control. -/
def onText : CString := ascii ['O', 'n']
def offText : CString := ascii ['O', 'f', 'f']
def unknownText : CString := ascii ['u', 'n', 'k', 'n', 'o', 'w', 'n']
/-- `", "`. -/
def commaText : CString := ascii [',', ' ']

/-- A lower-case digit. -/
def hexDigit (n : UInt8) : UInt8 := if n < 10 then 48 + n else 87 + n

/-- `printf("%02hhx", c)`. -/
def hexText (c : UInt8) : CString := [hexDigit (c / 16), hexDigit (c % 16)]

section

variable {δ : Type} (ops : CtlOps δ)

/-- `tinymix_set_byte_ctl`; it returns, or exits for a reason. -/
def tinymixSetByteCtl (ctl : MixerCtl) (values : List CString) : CtlM δ (Option ByteFailure) := do
  if !(← ctlAlloc) then return some (.noMemory values.length)
  else
    match bytesOf values with
    | .error e => return some e
    | .ok bs =>
      if (← mixerCtlSetArray ops ctl (some (bufferOf bs)) values.length.toUInt32.toUInt64) < 0 then return some .refused
      else return none

/-! ## Printing -/

/-- The `switch` of `print_control_values`. `printEnum` is `print_enum`. -/
def printValue (printEnum : MixerCtl → CtlM δ CString) (ctl : MixerCtl) (buf : Memory) (i : Nat) : CtlM δ CString := do
  match ctl.info.type with
  | .integer => return decimalText (← mixerCtlGetValue ops ctl i.toUInt32)
  | .boolean => return if (← mixerCtlGetValue ops ctl i.toUInt32) ≠ 0 then onText else offText
  | .enumerated => printEnum ctl
  | .bytes => return hexText (buf i)
  | _ => return unknownText

/-- The loop of `print_control_values`, over the values that are left. -/
def printEach (printEnum : MixerCtl → CtlM δ CString) (ctl : MixerCtl) (buf : Memory) : List Nat → CtlM δ CString
  | [] => return []
  | i :: rest => do
    let text ← printValue ops printEnum ctl buf i
    let behind ← printEach printEnum ctl buf rest
    return text ++ (if rest ≠ [] then commaText else []) ++ behind

/-- `buf` of `print_control_values`: the bytes of a BYTE control, if they can be had. -/
def bufferToPrint (ctl : MixerCtl) : CtlM δ (Option Memory) := do
  if ctl.info.type = .bytes ∧ ctl.info.count > 0 then
    if !(← ctlAlloc) then return none
    else
      let (ret, buf) ← mixerCtlGetArray ops ctl (some fun _ => 0) ctl.info.count.toUInt64
      return if ret < 0 then none else buf
  else return some fun _ => 0

/-- `" (range %d->%d)"`. -/
def rangeText (min max : Int) : CString :=
  ascii [' ', '(', 'r', 'a', 'n', 'g', 'e', ' '] ++ decimalText min ++ ascii ['-', '>'] ++ decimalText max ++
    ascii [')']

/-- `print_control_values`. -/
def printControlValues (printEnum : MixerCtl → CtlM δ CString) (ctl : MixerCtl) : CtlM δ CString := do
  match ← bufferToPrint ops ctl with
  | none => return []
  | some buf =>
    let text ← printEach ops printEnum ctl buf (List.range ctl.info.count.toNat)
    return text ++ if ctl.info.type = .integer then rangeText (wrapInt ctl.info.min) (wrapInt ctl.info.max) else []

end

/-! ## Setting bytes -/

section

variable {δ : Type} (ops : CtlOps δ) (stored : δ → UInt32 → ValueUnion) (ctl : MixerCtl)

/-- The union written for some bytes. -/
def bytesValue (bs : List UInt8) : SndCtlElemValue :=
  { ctl.elemValue with value := copy (fun _ => 0) 0 (bufferOf bs) 0 bs.length }

/-- Bytes are set all together or not at all. -/
structure SetsBytes (values : List CString) (s : AccessState δ) : Prop where
  /-- It returns just where memory can be had, each value stands for a byte, the control has room for them and the
  write succeeds. -/
  returns : (exec (tinymixSetByteCtl ops ctl values) s).1 = none ↔ s.alloc 0 = true ∧ ∃ bs, bytesOf values = .ok bs ∧
    bs ≠ [] ∧ bs.length ≤ ctl.info.count.toNat ∧ 0 ≤ (ops.elemWrite (bytesValue ctl bs) s.dev).1
  /-- The elements behind the bytes given become 0. -/
  sets : (exec (tinymixSetByteCtl ops ctl values) s).1 = none → ∀ bs, bytesOf values = .ok bs →
    ∀ i, i < ValueMember.bytes.capacity →
      valueAt ctl stored .bytes (exec (tinymixSetByteCtl ops ctl values) s).2.dev i = (bs[i]?.getD 0).toNat
  others : ∀ n, n ≠ ctl.info.id.numid →
    stored (exec (tinymixSetByteCtl ops ctl values) s).2.dev n = stored s.dev n
  exits : (exec (tinymixSetByteCtl ops ctl values) s).1 ≠ none →
    stored (exec (tinymixSetByteCtl ops ctl values) s).2.dev = stored s.dev
  /-- Where a value stands for no byte, the backend is not even asked. -/
  unasked : (∃ value ∈ values, ∀ b, byteOf value ≠ .ok b) →
    (exec (tinymixSetByteCtl ops ctl values) s).2.dev = s.dev

end

theorem bytesOf_cons_ok {value : CString} {values : List CString} {bs : List UInt8} :
    bytesOf (value :: values) = .ok bs ↔ ∃ b bs', byteOf value = .ok b ∧ bytesOf values = .ok bs' ∧ bs = b :: bs' := by
  rw [bytesOf]
  cases hb : byteOf value with
  | error e => simp
  | ok b =>
    cases hbs : bytesOf values with
    | error e => simp
    | ok bs' =>
      simp only [Except.ok.injEq, exists_and_left, exists_eq_left']
      exact eq_comm

/-- Each value stands for its byte. -/
theorem bytesOf_eq_ok {values : List CString} {bs : List UInt8} :
    bytesOf values = .ok bs ↔ List.Forall₂ (fun value b => byteOf value = .ok b) values bs := by
  induction values generalizing bs with
  | nil =>
    rw [List.forall₂_nil_left_iff]
    constructor
    · intro h
      exact (Except.ok.inj h).symm
    · rintro rfl
      rfl
  | cons value values ih =>
    rw [bytesOf_cons_ok, List.forall₂_cons_left_iff]
    constructor
    · rintro ⟨b, bs', hb, hbs, rfl⟩
      exact ⟨b, bs', hb, ih.1 hbs, rfl⟩
    · rintro ⟨b, bs', hb, hbs, rfl⟩
      exact ⟨b, bs', hb, ih.2 hbs, rfl⟩

theorem exists_byteOf {values : List CString} {bs : List UInt8} (h : bytesOf values = .ok bs) :
    ∀ value ∈ values, ∃ b, byteOf value = .ok b := by
  induction values generalizing bs with
  | nil => exact fun _ hmem => absurd hmem List.not_mem_nil
  | cons value values ih =>
    obtain ⟨b, bs', hb, hbs, -⟩ := bytesOf_cons_ok.1 h
    exact List.forall_mem_cons.2 ⟨⟨b, hb⟩, ih hbs⟩

section

variable {δ : Type} {ops : CtlOps δ} {stored : δ → UInt32 → ValueUnion} {ctl : MixerCtl} {s : AccessState δ}
  {values : List CString} {bs : List UInt8}

theorem elem_bytes (u : ValueUnion) (i : Nat) : u.elem .bytes i = (u.memory i).toNat := by
  simp [ValueUnion.elem, ValueMember.size, load]

/-- What is stored of bytes that were written. -/
theorem elem_arrayUnion_bytes (bs : List UInt8) {i : Nat} (hi : i < ValueMember.bytes.capacity) :
    (arrayUnion .bytes (bufferOf bs) bs.length).elem .bytes i = (bs[i]?.getD 0).toNat := by
  have hlt : i < valueUnionSize := hi.trans (by decide)
  rw [elem_bytes]
  unfold ValueUnion.memory arrayUnion bufferOf
  rw [dif_pos hlt]
  dsimp only [ValueMember.size]
  rw [Nat.one_mul]
  by_cases hlen : i < bs.length
  · rw [copy_start hlen]
  · unfold copy
    rw [if_neg (by omega), List.getElem?_eq_none (not_lt.1 hlen)]
    rfl

/-- What the call comes to once each value stands for a byte. -/
theorem exec_tinymixSetByteCtl_ok (hc : HoldsValues ctl .bytes) (ht : ctl.info.type = .bytes)
    (hlen : values.length < 2 ^ 32) (hbs : bytesOf values = .ok bs) (halloc : s.alloc 0 = true) :
    (bs ≠ [] ∧ bs.length ≤ ctl.info.count.toNat ∧
      exec (tinymixSetByteCtl ops ctl values) s =
        (if (ops.elemWrite (bytesValue ctl bs) s.dev).1 < 0 then some .refused else none,
          { s with
            dev := (ops.elemWrite (bytesValue ctl bs) s.dev).2
            alloc := fun i => s.alloc (i + 1)
            touched := (List.range bs.length).map (.bytes, ·) ++ s.touched })) ∨
      ¬ (bs ≠ [] ∧ bs.length ≤ ctl.info.count.toNat) ∧
        exec (tinymixSetByteCtl ops ctl values) s = (some .refused, { s with alloc := fun i => s.alloc (i + 1) }) := by
  have heq : values.length = bs.length := (bytesOf_eq_ok.1 hbs).length_eq
  have hcount : values.length.toUInt32.toUInt64.toNat = bs.length := by
    rw [UInt32.toNat_toUInt64, ← heq]
    exact UInt32.toNat_ofNat_of_lt' hlen
  have hbad : BadCount ctl values.length.toUInt32.toUInt64 ↔ ¬ (bs ≠ [] ∧ bs.length ≤ ctl.info.count.toNat) := by
    unfold BadCount
    rw [← UInt64.toNat_inj, UInt64.lt_iff_toNat_lt, hcount, UInt32.toNat_toUInt64]
    change bs.length = 0 ∨ _ ↔ _
    rw [List.length_eq_zero_iff, not_and_or, not_not, not_le]
  unfold tinymixSetByteCtl
  simp only [exec_bind, exec_ctlAlloc, halloc, hbs, Bool.not_true, Bool.false_eq_true, if_false]
  by_cases hfits : bs ≠ [] ∧ bs.length ≤ ctl.info.count.toNat
  · have hpath : ctl.arrayPath = some (.elems .bytes) := by
      unfold MixerCtl.arrayPath
      rw [ht, hc.noTlv ht]
      rfl
    refine .inl ⟨hfits.1, hfits.2, ?_⟩
    rw [exec_mixerCtlSetArray (mt hbad.1 (not_not.2 hfits)), hpath]
    dsimp only
    unfold writeArray
    simp only [exec_bind, exec_touch, exec_ioctlElemWrite, hcount, ValueMember.size, Nat.one_mul, exec_ite, exec_pure]
    by_cases hret : (ops.elemWrite (bytesValue ctl bs) s.dev).1 < 0
    · rw [if_pos hret]
      exact if_pos hret
    · rw [if_neg hret]
      exact if_neg hret
  · refine .inr ⟨hfits, ?_⟩
    rw [exec_mixerCtlSetArray_bad (hbad.2 hfits)]
    rfl

/-- Where a value stands for no byte, or there is no memory, nothing is asked of the backend. -/
theorem exec_tinymixSetByteCtl_error (h : s.alloc 0 = false ∨ ∀ bs, bytesOf values ≠ .ok bs) :
    (exec (tinymixSetByteCtl ops ctl values) s).1 ≠ none ∧
      (exec (tinymixSetByteCtl ops ctl values) s).2.dev = s.dev := by
  unfold tinymixSetByteCtl
  simp only [exec_bind, exec_ctlAlloc]
  cases halloc : s.alloc 0 with
  | false => exact ⟨nofun, rfl⟩
  | true =>
    cases hbs : bytesOf values with
    | error e => exact ⟨nofun, rfl⟩
    | ok bs => exact absurd hbs (h.resolve_left (by rw [halloc]; exact Bool.noConfusion) bs)

theorem bytesValue_union (bs : List UInt8) :
    (fun i : Fin valueUnionSize => (bytesValue ctl bs).value i) = arrayUnion .bytes (bufferOf bs) bs.length := by
  unfold arrayUnion bytesValue
  dsimp only [ValueMember.size]
  rw [Nat.one_mul]

theorem type_of_bytes (hc : HoldsValues ctl .bytes) : ctl.info.type = .bytes := by
  have hm := hc.member
  cases ht : ctl.info.type <;> rw [ht] at hm <;> first | rfl | cases hm

/-- `tinymix_set_byte_ctl` sets all bytes or exits without a change; it does not keep the elements that no value is
given for. -/
theorem setsBytes_of_stores (hb : StoresValues ops stored) (hc : HoldsValues ctl .bytes)
    (hlen : values.length < 2 ^ 32) (s : AccessState δ) : SetsBytes ops stored ctl values s := by
  have ht := type_of_bytes hc
  by_cases hok : s.alloc 0 = true ∧ ∃ bs, bytesOf values = .ok bs
  · obtain ⟨halloc, bs, hbs⟩ := hok
    have hsame : ∀ bs', bytesOf values = .ok bs' → bs' = bs := fun bs' h => Except.ok.inj (h.symm.trans hbs)
    have hbytes : ¬ ∃ value ∈ values, ∀ b, byteOf value ≠ .ok b := by
      rintro ⟨value, hmem, hnone⟩
      obtain ⟨b, hb⟩ := exists_byteOf hbs value hmem
      exact hnone b hb
    rcases exec_tinymixSetByteCtl_ok hc ht hlen hbs halloc with ⟨hne, hle, hexec⟩ | ⟨hfits, hexec⟩
    · have hdev : (exec (tinymixSetByteCtl ops ctl values) s).2.dev = (ops.elemWrite (bytesValue ctl bs) s.dev).2 := by
        rw [hexec]
      have hnone : (exec (tinymixSetByteCtl ops ctl values) s).1 = none ↔
          0 ≤ (ops.elemWrite (bytesValue ctl bs) s.dev).1 := by
        rw [hexec]
        dsimp only
        split
        · exact iff_of_false nofun (not_le.2 ‹_›)
        · exact iff_of_true rfl (not_lt.1 ‹_›)
      refine ⟨?_, fun h bs' hbs' i hi => ?_, fun n hn => ?_, fun h => ?_, fun h => absurd h hbytes⟩
      · rw [hnone]
        constructor
        · intro hret
          exact ⟨halloc, bs, hbs, hne, hle, hret⟩
        · rintro ⟨-, bs', hbs', -, -, hret⟩
          rwa [hsame bs' hbs'] at hret
      · rw [hsame bs' hbs', ← elem_arrayUnion_bytes bs hi]
        unfold valueAt
        rw [hdev, hb.write _ _ (hnone.1 h), ht, bytesValue_union]
        exact congrArg (fun u : ValueUnion => (u.elem .bytes i : Int)) (Function.update_self ..)
      · rw [hdev]
        exact hb.write_other hn
      · rw [hdev]
        exact hb.writeFails _ _ (not_le.1 (mt hnone.2 h))
    · have hrefused : (exec (tinymixSetByteCtl ops ctl values) s).1 ≠ none := by
        rw [hexec]
        exact nofun
      have hdev : (exec (tinymixSetByteCtl ops ctl values) s).2.dev = s.dev := by rw [hexec]
      refine ⟨iff_of_false hrefused ?_, fun h => absurd h hrefused, fun n _ => by rw [hdev], fun _ => by rw [hdev],
        fun _ => hdev⟩
      rintro ⟨-, bs', hbs', hne, hle, -⟩
      rw [hsame bs' hbs'] at hne hle
      exact hfits ⟨hne, hle⟩
  · have hor : s.alloc 0 = false ∨ ∀ bs, bytesOf values ≠ .ok bs := by
      by_contra hcon
      rw [not_or, Bool.not_eq_false, not_forall] at hcon
      obtain ⟨halloc, bs, hbs⟩ := hcon
      exact hok ⟨halloc, bs, not_not.1 hbs⟩
    obtain ⟨hne, hdev⟩ : (exec (tinymixSetByteCtl ops ctl values) s).1 ≠ none ∧
        (exec (tinymixSetByteCtl ops ctl values) s).2.dev = s.dev := exec_tinymixSetByteCtl_error hor
    refine ⟨iff_of_false hne ?_, fun h => absurd h hne, fun n _ => by rw [hdev], fun _ => by rw [hdev], fun _ => hdev⟩
    rintro ⟨halloc, bs, hbs, -⟩
    exact hok ⟨halloc, bs, hbs⟩

end

/-! ## What is printed -/

/-- A value as it is printed. -/
def valueText (t : CtlElemType) (v : Int) : CString :=
  match t with
  | .integer => decimalText v
  | .boolean => if v ≠ 0 then onText else offText
  | .bytes => hexText v.toNat.toUInt8
  | _ => unknownText

section

variable {δ : Type} (ops : CtlOps δ) (stored : δ → UInt32 → ValueUnion) (ctl : MixerCtl) (m : ValueMember)

/-- The values of a control, each as a word. -/
def printedWords (d : δ) : List CString :=
  (List.range ctl.info.count.toNat).map fun i => valueText ctl.info.type (valueAt ctl stored m d i)

/-- The backend reads the control and takes what is written to it. -/
structure Obliging : Prop where
  reads : ∀ d, 0 ≤ (ops.elemRead ctl.elemValue d).1
  writes : ∀ ev d, ev.id.numid = ctl.info.id.numid → (ops.elemWrite ev d).1 = 0

/-- What `get` prints of a control, and what becomes of it as the arguments of `set`. -/
structure HandedBack (parts : SetParts δ) (control : CString) (printEnum : MixerCtl → CtlM δ CString)
    (s : AccessState δ) : Prop where
  prints : (exec (printControlValues ops printEnum ctl) s).1 =
    commaText.intercalate (printedWords stored ctl m s.dev) ++
      if ctl.info.type = .integer then rangeText (wrapInt ctl.info.min) (wrapInt ctl.info.max) else []
  /-- Integers are what they were. -/
  integers : ctl.info.type = .integer → 0 ≤ valueAt ctl stored m s.dev 0 →
    (∀ i, i < ctl.info.count.toNat → valueAt ctl stored m s.dev i ≠ -2 ^ 31) →
    (exec (setValues ops parts control (printedWords stored ctl m s.dev)) s).1 = 0 ∧
      ∀ i, i < ctl.info.count.toNat →
        valueAt ctl stored m (exec (setValues ops parts control (printedWords stored ctl m s.dev)) s).2.dev i =
          valueAt ctl stored m s.dev i
  /-- Switches are refused, and so are integers where the first is negative. -/
  refused : ctl.info.type = .boolean ∨ ctl.info.type = .integer ∧ valueAt ctl stored m s.dev 0 < 0 →
    exec (setValues ops parts control (printedWords stored ctl m s.dev)) s = (-1, s)
  /-- Any arguments set bytes all together or not at all. -/
  allBytes : ctl.info.type = .bytes → ∀ values, values.length < 2 ^ 32 → SetsBytes ops stored ctl values s
  /-- Bytes are what they were just where each has one octal digit. -/
  bytes : ctl.info.type = .bytes →
    ((exec (tinymixSetByteCtl ops ctl (printedWords stored ctl m s.dev)) s).1 = none ∧
      (∀ i, i < ctl.info.count.toNat →
        valueAt ctl stored m (exec (tinymixSetByteCtl ops ctl (printedWords stored ctl m s.dev)) s).2.dev i =
          valueAt ctl stored m s.dev i) ↔
      ∀ i, i < ctl.info.count.toNat → valueAt ctl stored m s.dev i < 8)

end

section

variable {δ : Type} {ops : CtlOps δ} {stored : δ → UInt32 → ValueUnion} {ctl : MixerCtl} {m : ValueMember}
  {s : AccessState δ} {printEnum : MixerCtl → CtlM δ CString} {buf : Memory} {d₀ : δ}

theorem toNat_index {i : Nat} (hi : i < ctl.info.count.toNat) : i.toUInt32.toNat = i :=
  UInt32.toNat_ofNat_of_lt' (hi.trans ctl.info.count.toNat_lt)

/-- A value that is read leaves the stored values alone. -/
theorem getValue_stored (hb : StoresValues ops stored) (hc : HoldsValues ctl m) (ho : Obliging ops ctl) {i : Nat}
    (hi : i < ctl.info.count.toNat) (hs : stored s.dev = stored d₀) :
    (exec (mixerCtlGetValue ops ctl i.toUInt32) s).1 = valueAt ctl stored m d₀ i ∧
      stored (exec (mixerCtlGetValue ops ctl i.toUInt32) s).2.dev = stored d₀ := by
  have hindex := toNat_index hi
  have hid : ¬ ctl.info.count ≤ i.toUInt32 := by
    rw [UInt32.le_iff_toNat_le, hindex]
    omega
  have hval := hb.getValue hc.single hc.member (hc.id_lt hid) hid (not_lt.2 (ho.reads s.dev))
  refine ⟨?_, (hb.gets hc (show CtlCall.gets (.getValue i.toUInt32) = true from rfl)).trans hs⟩
  rw [hval, hindex, hs]
  rfl

theorem printValue_text (hb : StoresValues ops stored) (hc : HoldsValues ctl m) (ho : Obliging ops ctl)
    (henum : ctl.info.type ≠ .enumerated) (hbuf : ctl.info.type = .bytes → ∀ i, i < ctl.info.count.toNat →
      ((buf i).toNat : Int) = valueAt ctl stored m d₀ i) {i : Nat} (hi : i < ctl.info.count.toNat)
    (hs : stored s.dev = stored d₀) :
    (exec (printValue ops printEnum ctl buf i) s).1 = valueText ctl.info.type (valueAt ctl stored m d₀ i) ∧
      stored (exec (printValue ops printEnum ctl buf i) s).2.dev = stored d₀ := by
  have hsingle := hc.single
  obtain ⟨hval, hkept⟩ := getValue_stored hb hc ho hi hs
  unfold printValue valueText
  cases ht : ctl.info.type <;> rw [ht] at hsingle <;> first | exact absurd hsingle (by decide) | dsimp only
  case enumerated => exact absurd ht henum
  case bytes =>
    refine ⟨?_, hs⟩
    rw [exec_pure, ← hbuf ht i hi, Int.toNat_natCast, Nat.toUInt8_eq, UInt8.ofNat_toNat]
  case integer =>
    rw [exec_bind, exec_pure, hval]
    exact ⟨rfl, hkept⟩
  case boolean =>
    rw [exec_bind, exec_pure, hval]
    exact ⟨rfl, hkept⟩

/-- The words are printed one after the other. -/
theorem printEach_text (hb : StoresValues ops stored) (hc : HoldsValues ctl m) (ho : Obliging ops ctl)
    (henum : ctl.info.type ≠ .enumerated) (hbuf : ctl.info.type = .bytes → ∀ i, i < ctl.info.count.toNat →
      ((buf i).toNat : Int) = valueAt ctl stored m d₀ i) (ids : List Nat) (hids : ∀ i ∈ ids, i < ctl.info.count.toNat)
    (hs : stored s.dev = stored d₀) :
    (exec (printEach ops printEnum ctl buf ids) s).1 =
        commaText.intercalate (ids.map fun i => valueText ctl.info.type (valueAt ctl stored m d₀ i)) ∧
      stored (exec (printEach ops printEnum ctl buf ids) s).2.dev = stored d₀ := by
  induction ids generalizing s with
  | nil => exact ⟨rfl, hs⟩
  | cons i rest ih =>
    obtain ⟨hi, hrest⟩ := List.forall_mem_cons.1 hids
    obtain ⟨htext, hkept⟩ :
        (exec (printValue ops printEnum ctl buf i) s).1 = valueText ctl.info.type (valueAt ctl stored m d₀ i) ∧
          stored (exec (printValue ops printEnum ctl buf i) s).2.dev = stored d₀ :=
      printValue_text hb hc ho henum hbuf hi hs
    obtain ⟨hbehind, hdev⟩ := ih hrest hkept
    rw [printEach, exec_bind, exec_bind, exec_pure]
    refine ⟨?_, hdev⟩
    rw [htext, hbehind]
    cases rest with
    | nil => simp
    | cons j rest => simp [List.intercalate_cons_cons]

/-- The bytes to be printed are those that are stored. -/
theorem bufferToPrint_bytes (hb : StoresValues ops stored) (hc : HoldsValues ctl m) (ho : Obliging ops ctl)
    (halloc : s.alloc 0 = true) : ∃ buf, (exec (bufferToPrint ops ctl) s).1 = some buf ∧
      (ctl.info.type = .bytes → ∀ i, i < ctl.info.count.toNat →
        ((buf i).toNat : Int) = valueAt ctl stored m s.dev i) ∧
      stored (exec (bufferToPrint ops ctl) s).2.dev = stored s.dev := by
  unfold bufferToPrint
  by_cases hbytes : ctl.info.type = .bytes ∧ ctl.info.count > 0
  · obtain ⟨ht, hcount⟩ := hbytes
    have hm : m = .bytes := by
      have hmember := hc.member
      rw [ht] at hmember
      exact (Option.some.inj hmember).symm
    subst hm
    have hlen : ctl.info.count.toUInt64.toNat = ctl.info.count.toNat := UInt32.toNat_toUInt64 _
    have hbad : ¬ BadCount ctl ctl.info.count.toUInt64 := by
      rintro (hzero | hlt)
      · rw [← UInt64.toNat_inj, hlen] at hzero
        rw [gt_iff_lt, UInt32.lt_iff_toNat_lt, hzero] at hcount
        exact lt_irrefl _ hcount
      · exact absurd hlt (UInt64.lt_irrefl _)
    have hpath : ctl.arrayPath = some (.elems .bytes) := by
      unfold MixerCtl.arrayPath
      rw [ht, hc.noTlv ht]
      rfl
    have hread : ∀ t : AccessState δ, ¬ ReadFails ops ctl t := fun t => not_lt.2 (ho.reads t.dev)
    obtain ⟨a', hget, hstored⟩ := hb.getArray (a := fun _ => 0) hc hbad hpath
      (hread { s with alloc := fun i => s.alloc (i + 1) })
    rw [if_pos ⟨ht, hcount⟩]
    simp only [exec_bind, exec_ctlAlloc, halloc, Bool.not_true, Bool.false_eq_true, if_false, exec_pure, hget]
    refine ⟨a', rfl, fun _ i hi => ?_, ?_⟩
    · have hlt : i < ValueMember.bytes.size * ctl.info.count.toUInt64.toNat := by
        rw [hlen]
        simpa [ValueMember.size] using hi
      rw [hstored i hlt]
      unfold valueAt
      rw [ht, elem_bytes]
      unfold ValueUnion.memory
      rw [dif_pos (arrayBytes_lt hc hbad hlt)]
      rfl
    · exact hb.gets hc (show CtlCall.gets (.getArray (some fun _ => 0) ctl.info.count.toUInt64) = true from rfl)
  · rw [if_neg hbytes]
    refine ⟨_, rfl, fun ht i hi => ?_, rfl⟩
    have hzero : ¬ ctl.info.count > 0 := fun h => hbytes ⟨ht, h⟩
    rw [gt_iff_lt, UInt32.lt_iff_toNat_lt] at hzero
    exact absurd (Nat.zero_lt_of_lt hi) hzero

theorem printControlValues_text (hb : StoresValues ops stored) (hc : HoldsValues ctl m) (ho : Obliging ops ctl)
    (henum : ctl.info.type ≠ .enumerated) (halloc : s.alloc 0 = true) :
    (exec (printControlValues ops printEnum ctl) s).1 =
      commaText.intercalate (printedWords stored ctl m s.dev) ++
        if ctl.info.type = .integer then rangeText (wrapInt ctl.info.min) (wrapInt ctl.info.max) else [] := by
  obtain ⟨buf, hbuf, hbytes, hkept⟩ := bufferToPrint_bytes hb hc ho halloc
  unfold printControlValues
  rw [exec_bind, hbuf]
  dsimp only
  rw [exec_bind, exec_pure]
  obtain ⟨htext, -⟩ := printEach_text (s := (exec (bufferToPrint ops ctl) s).2) hb hc ho henum hbytes
    (List.range ctl.info.count.toNat) (fun i hi => List.mem_range.1 hi) hkept
  rw [htext]
  rfl

/-! ## What is set again -/

theorem toControlValue_decimalText {n : Int} (hlo : -2 ^ 31 < n) (hhi : n < 2 ^ 31) :
    toControlValue (decimalText n) = { value := n } := by
  have hparses : ParsesAs n {} := by
    rcases lt_or_ge n 0 with hneg | hpos
    · exact (parsesAs_neg_iff hneg hlo.le).2 ⟨rfl, by omega⟩
    · obtain ⟨k, rfl⟩ := Int.eq_ofNat_of_zero_le hpos
      exact parsesAs_nonneg (by omega)
  unfold ParsesAs at hparses
  simpa [Suffix.text] using hparses

/-- The first character tells the sign. -/
theorem isInt_decimalText (n : Int) : isInt (decimalText n) = decide (0 ≤ n) := by
  unfold isInt charAt
  rcases lt_or_ge n 0 with hneg | hpos
  · rw [decimalText_of_neg hneg, chars_minus, decide_eq_false (not_le.2 hneg)]
    rfl
  · have hchars : chars (digitsText n.toNat) = digitsText n.toNat := by
      have htext := chars_text n.toNat {}
      simpa [Suffix.text] using htext
    obtain ⟨c, rest, hdigits⟩ := List.exists_cons_of_ne_nil (digitsText_ne_nil n.toNat)
    have hc : isDigit c = true := isDigit_of_mem (m := n.toNat) (hdigits ▸ List.mem_cons_self)
    rw [decimalText_of_nonneg hpos, hchars, hdigits, decide_eq_true hpos]
    exact hc

/-- An element is set to the value that it has. -/
theorem setControlValue_same (hb : StoresValues ops stored) (hc : HoldsValues ctl m) (ho : Obliging ops ctl)
    (ht : ctl.info.type = .integer) {i : Nat} (hi : i < ctl.info.count.toNat) {v : Int} (hfits : fitsInt v = true)
    (hv : v = valueAt ctl stored m s.dev i) :
    (exec (setControlValue ops ctl i.toUInt32 { value := v }) s).1 = 0 ∧ ∀ j, j < ctl.info.count.toNat →
      valueAt ctl stored m (exec (setControlValue ops ctl i.toUInt32 { value := v }) s).2.dev j =
        valueAt ctl stored m s.dev j := by
  have hindex := toNat_index hi
  have hid : ¬ ctl.info.count ≤ i.toUInt32 := by
    rw [UInt32.le_iff_toNat_le, hindex]
    omega
  have hread : ¬ ReadFails ops ctl s := not_lt.2 (ho.reads s.dev)
  have hexec : exec (setControlValue ops ctl i.toUInt32 { value := v }) s =
      exec (mixerCtlSetValue ops ctl i.toUInt32 v) s := rfl
  have hret : (exec (mixerCtlSetValue ops ctl i.toUInt32 v) s).1 = 0 := by
    rw [exec_mixerCtlSetValue hid hread hc.single hc.member]
    exact ho.writes _ _ (hb.readCtl hread).1
  obtain ⟨-, u, hu, helem, hothers⟩ := hb.setValue hc.single hc.member hc.id_lt hret.ge
  obtain ⟨hlo, hhi⟩ := fitsInt_iff.1 hfits
  rw [hexec]
  refine ⟨hret, fun j hj => ?_⟩
  have hcap := hc.fits
  by_cases hji : j = i
  · rw [hji, ← hv]
    unfold valueAt
    rw [hu, Function.update_self, ← hindex, helem, CtlElemType.decode_encode hc.single hc.member hlo hhi, ht]
    rfl
  · unfold valueAt
    rw [hu, Function.update_self, hothers j (by rwa [hindex]) (by omega)]

/-- Elements are set to the values that they have. -/
theorem setEach_same (hb : StoresValues ops stored) (hc : HoldsValues ctl m) (ho : Obliging ops ctl)
    (ht : ctl.info.type = .integer) {f : Nat → Int} (hfits : ∀ i, fitsInt (f i) = true) (ids : List Nat)
    (hids : ∀ i ∈ ids, i < ctl.info.count.toNat)
    (hs : ∀ j, j < ctl.info.count.toNat → valueAt ctl stored m s.dev j = f j) :
    ∀ j, j < ctl.info.count.toNat →
      valueAt ctl stored m (exec (setEach ops ctl (ids.map fun i => (i.toUInt32, { value := f i }))) s).2.dev j =
        f j := by
  induction ids generalizing s with
  | nil => exact hs
  | cons i rest ih =>
    obtain ⟨hi, hrest⟩ := List.forall_mem_cons.1 hids
    obtain ⟨hret, hsame⟩ := setControlValue_same hb hc ho ht hi (hfits i) (hs i hi).symm
    rw [List.map_cons, setEach, exec_bind, exec_ite, if_neg (not_not.2 hret)]
    exact ih hrest fun j hj => (hsame j hj).trans (hs j hj)

theorem headD_printedWords (hcount : 0 < ctl.info.count.toNat) (d : δ) :
    (printedWords stored ctl m d).headD [] = valueText ctl.info.type (valueAt ctl stored m d 0) := by
  obtain ⟨n, hn⟩ := Nat.exists_eq_succ_of_ne_zero hcount.ne'
  unfold printedWords
  rw [hn, List.range_succ_eq_map, List.map_cons, List.headD_cons]

theorem valueAt_fitsInt (ht : ctl.info.type = .integer) (d : δ) (i : Nat) :
    fitsInt (valueAt ctl stored m d i) = true := by
  unfold valueAt
  rw [ht]
  exact fitsInt_wrapInt _

/-- The printed integers, as the loop that sets them gets them. -/
theorem setControlValues_printed (ht : ctl.info.type = .integer) (hcount : 0 < ctl.info.count.toNat)
    (hmin : ∀ i, i < ctl.info.count.toNat → valueAt ctl stored m s.dev i ≠ -2 ^ 31) :
    exec (setControlValues ops ctl (printedWords stored ctl m s.dev)) s =
      exec (setEach ops ctl ((List.range ctl.info.count.toNat).map fun i =>
        (i.toUInt32, { value := valueAt ctl stored m s.dev i }))) s := by
  have hword : ∀ i, i < ctl.info.count.toNat →
      toControlValue (valueText ctl.info.type (valueAt ctl stored m s.dev i)) =
        { value := valueAt ctl stored m s.dev i } := by
    intro i hi
    have hfits : fitsInt (valueAt ctl stored m s.dev i) = true := valueAt_fitsInt ht s.dev i
    obtain ⟨hlo, hhi⟩ := fitsInt_iff.1 hfits
    rw [ht]
    exact toControlValue_decimalText (lt_of_le_of_ne hlo (hmin i hi).symm) hhi
  have hlength : (printedWords stored ctl m s.dev).length = ctl.info.count.toNat := by
    unfold printedWords
    rw [List.length_map, List.length_range]
  unfold setControlValues
  dsimp only
  rw [hlength]
  by_cases hone : ctl.info.count.toNat = 1
  · rw [if_pos hone]
    congr 2
    refine List.map_congr_left fun i hi => ?_
    have hzero : i = 0 := by
      have := List.mem_range.1 hi
      omega
    unfold printedWords
    rw [hzero, hone, ← hword 0 hcount]
    rfl
  · rw [if_neg hone, if_neg (lt_irrefl _)]
    congr 2
    unfold printedWords
    refine List.ext_getElem (by simp) fun i hi _ => ?_
    have hi : i < ctl.info.count.toNat := by simpa using hi
    simp [hword i hi]

/-- Bytes that are printed and read back: a leading 0 makes the number octal, and no other letter is a digit then. -/
theorem byteOf_hexText (b : UInt8) : byteOf (hexText b) = .ok b ↔ b.toNat < 8 := by
  have hall : ∀ n, n < 256 → (byteOf (hexText n.toUInt8) = .ok n.toUInt8 ↔ n < 8) := by decide +kernel
  have hb := hall b.toNat b.toNat_lt
  rwa [Nat.toUInt8_eq, UInt8.ofNat_toNat] at hb

/-- Each printed byte stands for itself. -/
theorem bytesOf_printed {bs : List UInt8} (hsame : bs.length = ctl.info.count.toNat ∧
      ∀ i (h : i < bs.length), valueAt ctl stored .bytes s.dev i = bs[i].toNat)
    (ht : ctl.info.type = .bytes) :
    bytesOf (printedWords stored ctl .bytes s.dev) = .ok bs ↔
      ∀ i, i < ctl.info.count.toNat → valueAt ctl stored .bytes s.dev i < 8 := by
  obtain ⟨hlen, hval⟩ := hsame
  have hword : ∀ i (h : i < bs.length),
      valueText ctl.info.type (valueAt ctl stored .bytes s.dev i) = hexText bs[i] := by
    intro i h
    rw [ht, hval i h]
    unfold valueText
    rw [Int.toNat_natCast, Nat.toUInt8_eq, UInt8.ofNat_toNat]
  rw [bytesOf_eq_ok, List.forall₂_iff_get]
  constructor
  · rintro ⟨-, h⟩ i hi
    have hi' : i < bs.length := hlen ▸ hi
    have hbyte := h i (by simpa [printedWords] using hi) hi'
    simp only [printedWords, List.get_eq_getElem, List.getElem_map, List.getElem_range, hword i hi'] at hbyte
    rw [hval i hi']
    exact_mod_cast (byteOf_hexText _).1 hbyte
  · intro h
    refine ⟨by simp [printedWords, hlen], fun i _ hi => ?_⟩
    have hlt := h i (hlen ▸ hi)
    rw [hval i hi] at hlt
    simp only [printedWords, List.get_eq_getElem, List.getElem_map, List.getElem_range, hword i hi]
    exact (byteOf_hexText _).2 (by exact_mod_cast hlt)

/-- The bytes of a control come back from what is printed of them just where each has one octal digit. -/
theorem bytes_handedBack (hb : StoresValues ops stored) (hc : HoldsValues ctl .bytes) (ho : Obliging ops ctl)
    (hcount : 0 < ctl.info.count.toNat) (halloc : s.alloc 0 = true) :
    (exec (tinymixSetByteCtl ops ctl (printedWords stored ctl .bytes s.dev)) s).1 = none ∧
      (∀ i, i < ctl.info.count.toNat →
        valueAt ctl stored .bytes (exec (tinymixSetByteCtl ops ctl (printedWords stored ctl .bytes s.dev)) s).2.dev i =
          valueAt ctl stored .bytes s.dev i) ↔
      ∀ i, i < ctl.info.count.toNat → valueAt ctl stored .bytes s.dev i < 8 := by
  have ht := type_of_bytes hc
  have hlength : (printedWords stored ctl .bytes s.dev).length = ctl.info.count.toNat := by simp [printedWords]
  have hsets : SetsBytes ops stored ctl (printedWords stored ctl .bytes s.dev) s :=
    setsBytes_of_stores hb hc (by rw [hlength]; exact ctl.info.count.toNat_lt) s
  have hcap : ∀ i, i < ctl.info.count.toNat → i < ValueMember.bytes.capacity := fun i hi => hi.trans_le hc.fits
  constructor
  · rintro ⟨hnone, hsame⟩
    obtain ⟨-, bs, hbs, -⟩ := hsets.returns.1 hnone
    have hlen : bs.length = ctl.info.count.toNat := by
      rw [← hlength]
      exact (bytesOf_eq_ok.1 hbs).length_eq.symm
    refine (bytesOf_printed ⟨hlen, fun i hi => ?_⟩ ht).1 hbs
    have hi' : i < ctl.info.count.toNat := hlen ▸ hi
    rw [← hsame i hi', hsets.sets hnone bs hbs i (hcap i hi'), List.getElem?_eq_getElem hi, Option.getD_some]
  · intro hsmall
    obtain ⟨bs, hlen, hval⟩ : ∃ bs : List UInt8, bs.length = ctl.info.count.toNat ∧
        ∀ i (h : i < bs.length), valueAt ctl stored .bytes s.dev i = bs[i].toNat := by
      refine ⟨(List.range ctl.info.count.toNat).map (stored s.dev ctl.info.id.numid).memory, by simp, fun i h => ?_⟩
      unfold valueAt
      rw [ht, elem_bytes, List.getElem_map, List.getElem_range]
      rfl
    have hbs := (bytesOf_printed ⟨hlen, hval⟩ ht).2 hsmall
    have hnone : (exec (tinymixSetByteCtl ops ctl (printedWords stored ctl .bytes s.dev)) s).1 = none := by
      refine hsets.returns.2 ⟨halloc, bs, hbs, ?_, hlen.le, (ho.writes _ _ rfl).ge⟩
      rintro rfl
      exact hcount.ne hlen
    refine ⟨hnone, fun i hi => ?_⟩
    have hi' : i < bs.length := hlen ▸ hi
    rw [hsets.sets hnone bs hbs i (hcap i hi), List.getElem?_eq_getElem hi', Option.getD_some, hval i hi']

theorem integers_handedBack (hb : StoresValues ops stored) (hc : HoldsValues ctl m) (ho : Obliging ops ctl)
    (hcount : 0 < ctl.info.count.toNat) {parts : SetParts δ} {control : CString}
    (hfind : parts.findCtl control = some ctl) (ht : ctl.info.type = .integer)
    (hpos : 0 ≤ valueAt ctl stored m s.dev 0)
    (hmin : ∀ i, i < ctl.info.count.toNat → valueAt ctl stored m s.dev i ≠ -2 ^ 31) :
    (exec (setValues ops parts control (printedWords stored ctl m s.dev)) s).1 = 0 ∧
      ∀ i, i < ctl.info.count.toNat →
        valueAt ctl stored m (exec (setValues ops parts control (printedWords stored ctl m s.dev)) s).2.dev i =
          valueAt ctl stored m s.dev i := by
  have hne : ctl.info.type ≠ .bytes := by
    rw [ht]
    exact nofun
  have hint : isInt ((printedWords stored ctl m s.dev).headD []) = true := by
    rw [headD_printedWords hcount, ht]
    exact (isInt_decimalText _).trans (decide_eq_true hpos)
  rw [exec_setValues hfind hne hint, setControlValues_printed ht hcount hmin]
  refine ⟨rfl, ?_⟩
  exact setEach_same hb hc ho ht (fun i => valueAt_fitsInt ht s.dev i) _ (fun i hi => List.mem_range.1 hi)
    fun _ _ => rfl

/-- Arguments of which the first is not a digit are refused. -/
theorem exec_setValues_refused {parts : SetParts δ} {control : CString} {values : List CString}
    (hfind : parts.findCtl control = some ctl) (hbytes : ctl.info.type ≠ .bytes) (henum : ctl.info.type ≠ .enumerated)
    (hint : isInt (values.headD []) = false) : exec (setValues ops parts control values) s = (-1, s) := by
  unfold setValues
  rw [hfind]
  dsimp only
  rw [if_neg hbytes, hint, if_neg Bool.false_ne_true, if_neg henum, exec_pure]

/-- `get` prints the values of a control. Handed back to `set`, integers are what they were unless the first is
negative, bytes only where each has one octal digit, and switches are refused. -/
theorem printed_handedBack (hb : StoresValues ops stored) (hc : HoldsValues ctl m) (ho : Obliging ops ctl)
    (henum : ctl.info.type ≠ .enumerated) (hcount : 0 < ctl.info.count) (halloc : s.alloc 0 = true) {parts : SetParts δ}
    {control : CString} (hfind : parts.findCtl control = some ctl) (printEnum : MixerCtl → CtlM δ CString) :
    HandedBack ops stored ctl m parts control printEnum s := by
  have hpos : 0 < ctl.info.count.toNat := UInt32.lt_iff_toNat_lt.1 hcount
  have hbytes : ctl.info.type = .bytes → m = .bytes := by
    intro ht
    have hmember := hc.member
    rw [ht] at hmember
    exact (Option.some.inj hmember).symm
  refine ⟨printControlValues_text hb hc ho henum halloc, fun ht => integers_handedBack hb hc ho hpos hfind ht,
    fun hrefused => ?_, fun ht => ?_, fun ht => ?_⟩
  · refine exec_setValues_refused hfind ?_ henum ?_
    · rcases hrefused with ht | ⟨ht, -⟩
      · rw [ht]
        exact nofun
      · rw [ht]
        exact nofun
    · rw [headD_printedWords hpos]
      rcases hrefused with ht | ⟨ht, hneg⟩
      · rw [ht]
        unfold valueText
        dsimp only
        split
        · decide
        · decide
      · rw [ht]
        unfold valueText
        rw [isInt_decimalText, decide_eq_false (not_le.2 hneg)]
  · obtain rfl := hbytes ht
    exact fun values hlen => setsBytes_of_stores hb hc hlen s
  · obtain rfl := hbytes ht
    exact bytes_handedBack hb hc ho hpos halloc

end

theorem volume_obliging : Obliging unionOps volumeCtl where
  reads _ := le_rfl
  writes ev d hid := by
    unfold unionOps
    dsimp only
    rw [if_neg]
    rw [hid]
    decide

/-- The volume of two channels. -/
theorem printed_handedBack_volume :
    HandedBack unionOps id volumeCtl .integer volumeParts [] (fun _ => pure []) silent :=
  printed_handedBack unionOps_storesValues ⟨rfl, rfl, by decide, by decide⟩ volume_obliging (by decide) (by decide) rfl
    rfl _

end Tinyalsa.Tinymix
