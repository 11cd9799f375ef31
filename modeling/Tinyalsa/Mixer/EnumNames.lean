/-
The names of an enumerated control (`mixer_ctl_get_enum_string`, `mixer_ctl_set_enum_by_string`): an array
of strings that is allocated on first use, and freed with the control. Its length is nowhere but in the
control's info, which `mixer_ctl_update` reads anew.
-/
import Tinyalsa.Lib.ObjHeap
import Tinyalsa.Lib.Run
import Tinyalsa.Mixer.Names
import Tinyalsa.Mixer.Values

namespace Tinyalsa

open Hoare ByteMemory Run

/-! ## The control and its names -/

/-- What is allocated for names: an array of pointers, or a string. -/
inductive NameObj
  | array (cells : List Addr)
  | string (s : CString)
  deriving DecidableEq, Repr

/-- A control and the objects allocated for its names. `alloc` says which of the allocations to come succeed.
`fault` is set by an access outside an object, or to none; and `closed` when the mixer is closed. Ghosts. -/
structure EnumWorld (δ : Type) where
  dev : δ
  ctl : MixerCtl
  ename : Addr := 0
  alloc : Nat → Bool := fun _ => true
  heap : ObjHeap NameObj := {}
  fault : Bool := false
  closed : Bool := false

abbrev EnumM (δ : Type) := StateM (EnumWorld δ)

/-- The pointer in a cell of an array. -/
def cellAt (h : ObjHeap NameObj) (a : Addr) (i : Nat) : Option Addr :=
  match h.obj a with
  | some (.array cells) => cells[i]?
  | _ => none

/-- The string at an address. -/
def stringAt (h : ObjHeap NameObj) (a : Addr) : Option CString :=
  match h.obj a with
  | some (.string s) => some s
  | _ => none

section

variable {δ : Type}

def raiseFault : EnumM δ Unit := modify fun w => { w with fault := true }

/-- A new object, or `NULL`. -/
def allocObj (o : NameObj) : EnumM δ Addr := do
  let w ← get
  if w.alloc 0 then
    set { w with alloc := fun i => w.alloc (i + 1), heap := w.heap.alloc o }
    return w.heap.next
  else
    set { w with alloc := fun i => w.alloc (i + 1) }
    return 0

/-- `strdup`. -/
def strdup (s : CString) : EnumM δ Addr := allocObj (.string (s.takeWhile (· ≠ 0)))

/-- `free`. -/
def freeObj (a : Addr) : EnumM δ Unit := do
  if a ≠ 0 then
    let w ← get
    if (w.heap.obj a).isSome then set { w with heap := w.heap.free a } else raiseFault

/-- `a[i]`. -/
def getCell (a : Addr) (i : Nat) : EnumM δ Addr := do
  match cellAt (← get).heap a i with
  | some name => return name
  | none =>
    raiseFault
    return 0

/-- `a[i] = name`. -/
def setCell (a : Addr) (i : Nat) (name : Addr) : EnumM δ Unit := do
  let w ← get
  match w.heap.obj a with
  | some (.array cells) =>
    if i < cells.length then set { w with heap := w.heap.put a (.array (cells.set i name)) } else raiseFault
  | _ => raiseFault

/-- The string a call of `strcmp` reads. -/
def readString (a : Addr) : EnumM δ CString := do
  match stringAt (← get).heap a with
  | some s => return s
  | none =>
    raiseFault
    return []

variable (ops : CtlOps δ)

/-- `grp->ops->ioctl(grp->data, SNDRV_CTL_IOCTL_ELEM_INFO, &tmp)`. -/
def ioctlItemInfo (tmp : SndCtlElemInfo) : EnumM δ (Int × SndCtlElemInfo) := do
  let w ← get
  let (ret, tmp, dev) := ops.elemInfo tmp w.dev
  set { w with dev }
  return (ret, tmp)

/-- `grp->ops->ioctl(grp->data, SNDRV_CTL_IOCTL_ELEM_WRITE, &ev)`. -/
def ioctlItemWrite (ev : SndCtlElemValue) : EnumM δ Int := do
  let w ← get
  let (ret, dev) := ops.elemWrite ev w.dev
  set { w with dev }
  return ret

/-! ## The calls -/

/-- The request for an item: `tmp.id.numid = ctl->info.id.numid; tmp.value.enumerated.item = m`. -/
def MixerCtl.itemRequest (ctl : MixerCtl) (m : Nat) : SndCtlElemInfo where
  id := { numid := ctl.info.id.numid }
  item := m.toUInt32

/-- The loop of `mixer_ctl_fill_enum_string`, with `rem` items left from `m` on; `false` is `goto fail`. -/
def fillLoop (enames : Addr) : Nat → Nat → EnumM δ Bool
  | 0, _ => return true
  | rem + 1, m => do
    let w ← get
    let (ret, tmp) ← ioctlItemInfo ops (w.ctl.itemRequest m)
    if ret < 0 then return false
    else
      let name ← strdup tmp.itemName
      setCell enames m name
      if name = 0 then return false
      else fillLoop enames rem (m + 1)

/-- The loop behind `fail`. -/
def freeFilled (enames : Addr) : Nat → Nat → EnumM δ Unit
  | 0, _ => return ()
  | rem + 1, m => do
    let name ← getCell enames m
    if name ≠ 0 then freeObj name
    freeFilled enames rem (m + 1)

/-- `mixer_ctl_fill_enum_string`. -/
def mixerCtlFillEnumString : EnumM δ Int := do
  let w ← get
  if w.ename ≠ 0 then return 0
  else
    let items := w.ctl.info.items.toNat
    let enames ← allocObj (.array (List.replicate items 0))
    if enames = 0 then return -1
    else
      let ok ← fillLoop ops enames items 0
      if ok then
        modify fun w => { w with ename := enames }
        return 0
      else
        freeFilled enames items 0
        freeObj enames
        return -1

/-- `mixer_ctl_get_enum_string`. -/
def mixerCtlGetEnumString (enumId : UInt32) : EnumM δ Addr := do
  let w ← get
  if w.ctl.info.type ≠ .enumerated ∨ enumId ≥ w.ctl.info.items then return 0
  else
    let ret ← mixerCtlFillEnumString ops
    if ret < 0 then return 0
    else getCell (← get).ename enumId.toNat

/-- The value that is written for an item, all zero but for `ev.value.enumerated.item[0]`. -/
def MixerCtl.itemValue (ctl : MixerCtl) (i : Nat) : SndCtlElemValue :=
  { ctl.elemValue with
    value := store ctl.elemValue.value (ValueMember.enumerated.size * 0) ValueMember.enumerated.size i }

/-- The loop of `mixer_ctl_set_enum_by_string`, with `rem` items left from `i` on. -/
def searchLoop (string : CString) : Nat → Nat → EnumM δ Int
  | 0, _ => return -eInval
  | rem + 1, i => do
    let w ← get
    let name ← readString (← getCell w.ename i)
    if strEq string name then
      let ret ← ioctlItemWrite ops (w.ctl.itemValue i)
      return if ret < 0 then ret else 0
    else searchLoop string rem (i + 1)

/-- `mixer_ctl_set_enum_by_string`. -/
def mixerCtlSetEnumByString (string : Option CString) : EnumM δ Int := do
  let w ← get
  match string with
  | none => return -eInval
  | some string =>
    if w.ctl.info.type ≠ .enumerated then return -eInval
    else
      let ret ← mixerCtlFillEnumString ops
      if ret < 0 then return -eInval
      else searchLoop ops string w.ctl.info.items.toNat 0

/-- `mixer_ctl_update`. -/
def mixerCtlUpdate : EnumM δ Unit := do
  let w ← get
  let (_, info) ← ioctlItemInfo ops w.ctl.info
  modify fun w => { w with ctl := { w.ctl with info } }

/-- The loop of `mixer_cleanup_control`. -/
def freeNames (ename : Addr) : Nat → Nat → EnumM δ Unit
  | 0, _ => return ()
  | rem + 1, m => do
    freeObj (← getCell ename m)
    freeNames ename rem (m + 1)

/-- `mixer_cleanup_control`. -/
def mixerCleanupControl : EnumM δ Unit := do
  let w ← get
  if w.ename ≠ 0 then
    freeNames w.ename w.ctl.info.items.toNat 0
    freeObj w.ename

/-- A call on a control, or on the mixer it belongs to. -/
inductive EnumCall
  | getEnumString (enumId : UInt32)
  | setEnumByString (string : Option CString)
  | update
  | close
  deriving DecidableEq, Repr

def EnumCall.run : EnumCall → EnumM δ Unit
  | .getEnumString enumId => do
    let _ ← mixerCtlGetEnumString ops enumId
    return ()
  | .setEnumByString string => do
    let _ ← mixerCtlSetEnumByString ops string
    return ()
  | .update => mixerCtlUpdate ops
  | .close => do
    mixerCleanupControl
    modify fun w => { w with closed := true }

/-- A call, while the mixer is open. -/
def enumStep (w : EnumWorld δ) (call : EnumCall) : EnumWorld δ :=
  if w.closed then w else (exec (call.run ops) w).2

end

/-! ## Objects -/

section

variable {δ : Type} {w : EnumWorld δ} {h : ObjHeap NameObj} {a name : Addr} {i : Nat} {s : CString} {o : NameObj}
  {cells : List Addr} {live : List (Addr × CString)}

/-- The objects of an array and of strings. -/
def nameObjs (a : Addr) (cells : List Addr) (live : List (Addr × CString)) : List (Addr × NameObj) :=
  (a, .array cells) :: live.map fun p => (p.1, .string p.2)

theorem nameObjs_append (a : Addr) (cells : List Addr) (live : List (Addr × CString)) (name : Addr) (s : CString) :
    ((name, .string s) :: nameObjs a cells live).Perm (nameObjs a cells (live ++ [(name, s)])) := by
  unfold nameObjs
  rw [List.map_append, List.map_singleton, ← List.cons_append]
  exact (List.perm_append_singleton _ _).symm

theorem cellAt_of_owns (ho : h.Owns (nameObjs a cells live)) (i : Nat) : cellAt h a i = cells[i]? := by
  unfold cellAt
  rw [ho.get List.mem_cons_self]

theorem stringAt_of_owns (ho : h.Owns (nameObjs a cells live)) (hp : (name, s) ∈ live) : stringAt h name = some s := by
  unfold stringAt
  rw [ho.get (List.mem_cons_of_mem _ (List.mem_map.2 ⟨_, hp, rfl⟩))]

/-- An allocation fails, or returns the address of a new object. -/
theorem allocObj_cases (w : EnumWorld δ) (o : NameObj) :
    (w.alloc 0 = false ∧ exec (allocObj o) w = (0, { w with alloc := fun i => w.alloc (i + 1) })) ∨
    (w.alloc 0 ∧ exec (allocObj o) w =
      (w.heap.next, { w with alloc := fun i => w.alloc (i + 1), heap := w.heap.alloc o })) := by
  unfold allocObj
  cases ha : w.alloc 0
  · exact .inl ⟨rfl, by simp [ha]⟩
  · exact .inr ⟨rfl, by simp [ha]⟩

theorem exec_ioctlItemInfo (ops : CtlOps δ) (tmp : SndCtlElemInfo) (w : EnumWorld δ) :
    exec (ioctlItemInfo ops tmp) w =
      (((ops.elemInfo tmp w.dev).1, (ops.elemInfo tmp w.dev).2.1), { w with dev := (ops.elemInfo tmp w.dev).2.2 }) :=
  (rfl)

theorem exec_ioctlItemWrite (ops : CtlOps δ) (ev : SndCtlElemValue) (w : EnumWorld δ) :
    exec (ioctlItemWrite ops ev) w = ((ops.elemWrite ev w.dev).1, { w with dev := (ops.elemWrite ev w.dev).2 }) := (rfl)

theorem exec_getCell (hc : cellAt w.heap a i = some name) : exec (getCell a i) w = (name, w) := by
  unfold getCell
  rw [exec_bind, exec_get]
  dsimp only
  rw [hc]
  rfl

theorem exec_readString (hs : stringAt w.heap a = some s) : exec (readString a) w = (s, w) := by
  unfold readString
  rw [exec_bind, exec_get]
  dsimp only
  rw [hs]
  rfl

theorem exec_setCell (hw : w.heap = h) (hc : h.obj a = some (.array cells)) (hi : i < cells.length) :
    exec (setCell a i name) w = ((), { w with heap := h.put a (.array (cells.set i name)) }) := by
  unfold setCell
  rw [exec_bind, exec_get]
  dsimp only
  rw [hw, hc]
  dsimp only
  rw [if_pos hi, exec_set]

theorem exec_freeObj_null : exec (freeObj 0) w = ((), w) := rfl

theorem exec_freeObj (hne : a ≠ 0) (hc : w.heap.obj a = some o) :
    exec (freeObj a) w = ((), { w with heap := w.heap.free a }) := by
  unfold freeObj
  rw [if_pos hne, exec_bind, exec_get]
  dsimp only
  rw [hc]
  rfl

/-! ## Freeing the names -/

/-- `free(NULL)` does nothing, so the two loops that free names are the same. -/
theorem freeFilled_eq (a : Addr) : ∀ rem m, freeFilled (δ := δ) a rem m = freeNames a rem m
  | 0, _ => rfl
  | rem + 1, m => by
    unfold freeFilled freeNames
    rw [freeFilled_eq a rem (m + 1)]
    congr 1
    funext name
    by_cases hn : name = 0
    · subst hn
      rfl
    · rw [if_pos hn]

theorem freeNames_nulls (ho : w.heap.Owns (nameObjs a cells live)) : ∀ {rem : Nat} {before : List Addr},
    cells = before ++ List.replicate rem 0 → exec (freeNames a rem before.length) w = ((), w)
  | 0, _, _ => rfl
  | rem + 1, before, hcells => by
    have hcell : cellAt w.heap a before.length = some 0 := by
      rw [cellAt_of_owns ho, hcells, List.getElem?_append_right le_rfl, Nat.sub_self]
      rfl
    have hnext : cells = (before ++ [0]) ++ List.replicate rem 0 := by
      rw [hcells, List.append_assoc]
      rfl
    have ih := freeNames_nulls ho hnext
    rw [List.length_append] at ih
    unfold freeNames
    rw [exec_bind, exec_getCell hcell, exec_bind, exec_freeObj_null]
    exact ih

/-- The loop frees the strings whose addresses the array holds from `before` on, and nothing else. -/
theorem freeNames_spec : ∀ {live : List (Addr × CString)} {before : List Addr} {rem : Nat} {w : EnumWorld δ},
    w.heap.Owns (nameObjs a cells live) → cells = before ++ live.map Prod.fst ++ List.replicate rem 0 →
    ∃ h, exec (freeNames a (live.length + rem) before.length) w = ((), { w with heap := h }) ∧
      h.Owns (nameObjs a cells [])
  | [], before, rem, w, ho, hcells => by
    rw [List.map_nil, List.append_nil] at hcells
    rw [List.length_nil, Nat.zero_add, freeNames_nulls ho hcells]
    exact ⟨w.heap, rfl, ho⟩
  | (name, s) :: live, before, rem, w, ho, hcells => by
    have hcell : cellAt w.heap a before.length = some name := by
      rw [cellAt_of_owns ho, hcells, List.append_assoc, List.getElem?_append_right le_rfl, Nat.sub_self]
      rfl
    have hnext : cells = (before ++ [name]) ++ live.map Prod.fst ++ List.replicate rem 0 := by
      rw [hcells]
      simp only [List.map_cons, List.append_assoc, List.cons_append, List.nil_append]
    have hmem : (name, NameObj.string s) ∈ nameObjs a cells ((name, s) :: live) :=
      List.mem_cons_of_mem _ List.mem_cons_self
    -- the name is brought to the front of the objects, and freed
    have hfree : (w.heap.free name).Owns (nameObjs a cells live) := (ho.perm (.swap ..)).free
    obtain ⟨h, hrun, hown⟩ := freeNames_spec (w := { w with heap := w.heap.free name }) hfree hnext
    rw [List.length_append] at hrun
    refine ⟨h, ?_, hown⟩
    rw [List.length_cons, Nat.add_right_comm]
    unfold freeNames
    rw [exec_bind, exec_getCell hcell, exec_bind, exec_freeObj (ho.pos _ hmem) (ho.get hmem)]
    exact hrun

end

/-! ## Filling the array -/

section

variable {δ : Type} {ops : CtlOps δ} {ctl : MixerCtl} {D : δ → Prop} {N : Nat → CString → Prop} {w : EnumWorld δ}
  {a : Addr} {live : List (Addr × CString)} {n rem : Nat}

/-- What is known of the backend's answers to requests for items, as long as it is in states of `D`. -/
structure AnswersItems (ops : CtlOps δ) (ctl : MixerCtl) (D : δ → Prop) (N : Nat → CString → Prop) : Prop where
  keeps : ∀ m d, D d → D (ops.elemInfo (ctl.itemRequest m) d).2.2
  names : ∀ m d, D d → 0 ≤ (ops.elemInfo (ctl.itemRequest m) d).1 →
    N m ((ops.elemInfo (ctl.itemRequest m) d).2.1.itemName.takeWhile (· ≠ 0))

/-- Nothing stands in the way of filling `n` items. -/
def Serves (ops : CtlOps δ) (D : δ → Prop) (n : Nat) (w : EnumWorld δ) : Prop :=
  (∀ k, w.alloc k = true) ∧ ∀ m d, m < n → D d → 0 ≤ (ops.elemInfo (w.ctl.itemRequest m) d).1

/-- Each name is one the backend answered for its item. -/
def NamesFrom (N : Nat → CString → Prop) (live : List (Addr × CString)) : Prop := ∀ i p, live[i]? = some p → N i p.2

theorem NamesFrom.append (hn : NamesFrom N live) {p : Addr × CString} (hp : N live.length p.2) :
    NamesFrom N (live ++ [p]) := by
  intro i q hq
  rcases Nat.lt_trichotomy i live.length with hi | rfl | hi
  · rw [List.getElem?_append_left hi] at hq
    exact hn i q hq
  · rw [List.getElem?_append_right le_rfl, Nat.sub_self] at hq
    obtain rfl := Option.some.inj hq
    exact hp
  · rw [List.getElem?_eq_none (by rw [List.length_append]; exact hi)] at hq
    cases hq

/-- What the loop that fills leaves: the names it got, in the first of `n` cells; all of them, if it succeeded. -/
structure Filled (ops : CtlOps δ) (D : δ → Prop) (N : Nat → CString → Prop) (a : Addr) (n : Nat) (w : EnumWorld δ)
    (r : Bool × EnumWorld δ) : Prop where
  frame : r.2 = { w with dev := r.2.dev, alloc := r.2.alloc, heap := r.2.heap }
  dev : D r.2.dev
  names : ∃ live rest, live.length + rest = n ∧
    r.2.heap.Owns (nameObjs a (live.map Prod.fst ++ List.replicate rest 0) live) ∧ NamesFrom N live ∧
    (r.1 = true → rest = 0)
  serves : Serves ops D n w → r.1 = true

/-- A name that was got goes to the first free cell. -/
theorem owns_setCell {h : ObjHeap NameObj} {s : CString}
    (ho : h.Owns (nameObjs a (live.map Prod.fst ++ List.replicate (rem + 1) 0) live)) :
    let cells := (live.map Prod.fst ++ List.replicate (rem + 1) 0).set live.length h.next
    ((h.alloc (.string s)).put a (.array cells)).Owns
      (nameObjs a ((live ++ [(h.next, s)]).map Prod.fst ++ List.replicate rem 0) (live ++ [(h.next, s)])) := by
  have hcells : (live.map Prod.fst ++ List.replicate (rem + 1) 0).set live.length h.next =
      (live ++ [(h.next, s)]).map Prod.fst ++ List.replicate rem 0 := by
    rw [List.set_append_right _ _ (by rw [List.length_map]), List.length_map, Nat.sub_self, List.map_append,
      List.append_assoc]
    rfl
  dsimp only
  rw [hcells]
  exact ((ho.alloc (.string s)).perm (nameObjs_append ..)).put _

theorem fillLoop_spec (hans : AnswersItems ops ctl D N) :
    ∀ {rem : Nat} {live : List (Addr × CString)} {w : EnumWorld δ}, w.ctl = ctl → D w.dev → NamesFrom N live →
    w.heap.Owns (nameObjs a (live.map Prod.fst ++ List.replicate rem 0) live) →
    Filled ops D N a (live.length + rem) w (exec (fillLoop ops a rem live.length) w)
  | 0, live, w, _, hd, hn, ho => ⟨rfl, hd, ⟨live, 0, rfl, ho, hn, fun _ => rfl⟩, fun _ => rfl⟩
  | rem + 1, live, w, hctl, hd, hn, ho => by
    have hstep : D (ops.elemInfo (w.ctl.itemRequest live.length) w.dev).2.2 := by
      rw [hctl]
      exact hans.keeps _ _ hd
    have hlt : live.length < live.length + (rem + 1) := Nat.lt_add_of_pos_right (Nat.succ_pos rem)
    have hlen : live.length < (live.map Prod.fst ++ List.replicate (rem + 1) 0).length := by simp
    have hold : ∀ {h : ObjHeap NameObj}, h.Owns (nameObjs a (live.map Prod.fst ++ List.replicate (rem + 1) 0) live) →
        ∃ l rest, l.length + rest = live.length + (rem + 1) ∧
          h.Owns (nameObjs a (l.map Prod.fst ++ List.replicate rest 0) l) ∧ NamesFrom N l ∧ (false = true → rest = 0) :=
      fun ho => ⟨live, rem + 1, rfl, ho, hn, by rintro ⟨⟩⟩
    unfold fillLoop
    rw [exec_bind, exec_get, exec_bind, exec_ioctlItemInfo]
    dsimp only
    by_cases hret : (ops.elemInfo (w.ctl.itemRequest live.length) w.dev).1 < 0
    · -- the item is refused: the names so far are left to the caller
      rw [if_pos hret, exec_pure]
      exact ⟨rfl, hstep, hold ho, fun hs => absurd hret (not_lt.2 (hs.2 _ _ hlt hd))⟩
    rw [if_neg hret, exec_bind]
    unfold strdup
    generalize hname : ((ops.elemInfo (w.ctl.itemRequest live.length) w.dev).2.1.itemName.takeWhile (· ≠ 0)) = name
    rcases allocObj_cases { w with dev := (ops.elemInfo (w.ctl.itemRequest live.length) w.dev).2.2 } (.string name) with
      ⟨hal, hrun⟩ | ⟨hal, hrun⟩ <;> rw [hrun] <;> dsimp only
    · -- no memory: the cell is set to the `NULL` it already is
      have hcells : (live.map Prod.fst ++ List.replicate (rem + 1) 0).set live.length 0 =
          live.map Prod.fst ++ List.replicate (rem + 1) 0 := by
        rw [List.set_append_right _ _ (by rw [List.length_map]), List.length_map, Nat.sub_self]
        rfl
      rw [exec_bind, exec_setCell ?_ (ho.get List.mem_cons_self) hlen, hcells]
      swap
      · rfl
      dsimp only
      rw [if_pos rfl, exec_pure]
      exact ⟨rfl, hstep, hold (ho.put _), fun hs => absurd (hs.1 0) (by simpa using hal)⟩
    · -- one more cell holds a name
      have hset := owns_setCell (s := name) ho
      have hcell := (ho.alloc (.string name)).get (List.mem_cons_of_mem _ List.mem_cons_self)
      rw [exec_bind, exec_setCell ?_ hcell hlen]
      swap
      · rfl
      dsimp only
      rw [if_neg ho.next_pos]
      have hfrom : NamesFrom N (live ++ [(w.heap.next, name)]) := by
        refine hn.append ?_
        rw [← hname, hctl]
        exact hans.names _ _ hd (not_lt.1 (by rw [← hctl]; exact hret))
      have ih := fillLoop_spec hans (w := { w with
        dev := (ops.elemInfo (w.ctl.itemRequest live.length) w.dev).2.2
        alloc := fun i => w.alloc (i + 1)
        heap := (w.heap.alloc (.string name)).put a
          (.array ((live.map Prod.fst ++ List.replicate (rem + 1) 0).set live.length w.heap.next)) })
        hctl hstep hfrom hset
      rw [List.length_append, List.length_singleton, Nat.add_assoc, Nat.add_comm 1 rem] at ih
      exact ⟨ih.frame, ih.dev, ih.names, fun hs => ih.serves ⟨fun k => hs.1 (k + 1), hs.2⟩⟩

end

/-! ## The cache -/

section

variable {δ : Type} {ops : CtlOps δ} {ctl : MixerCtl} {D : δ → Prop} {N : Nat → CString → Prop} {w : EnumWorld δ}
  {live : List (Addr × CString)}

/-- No names are cached, and nothing is allocated. -/
def NoNames (w : EnumWorld δ) : Prop := w.ename = 0 ∧ w.heap.Owns []

/-- The names that are cached: an array of exactly as many strings as the control has items. Nothing else is
allocated. -/
def HasNames (w : EnumWorld δ) (live : List (Addr × CString)) : Prop :=
  live.length = w.ctl.info.items.toNat ∧ w.heap.Owns (nameObjs w.ename (live.map Prod.fst) live)

theorem HasNames.ename_ne (h : HasNames w live) : w.ename ≠ 0 := h.2.pos _ List.mem_cons_self

/-- The cell of an item holds the address of its name. -/
theorem HasNames.cellAt (h : HasNames w live) {i : Nat} (hi : i < w.ctl.info.items.toNat) :
    ∃ p, live[i]? = some p ∧ Tinyalsa.cellAt w.heap w.ename i = some p.1 ∧ stringAt w.heap p.1 = some p.2 := by
  obtain ⟨hlen, ho⟩ := h
  have hlt : i < live.length := by
    rw [hlen]
    exact hi
  refine ⟨live[i], List.getElem?_eq_getElem hlt, ?_, stringAt_of_owns ho (List.getElem_mem hlt)⟩
  rw [cellAt_of_owns ho, List.getElem?_map, List.getElem?_eq_getElem hlt]
  rfl

/-- What `mixer_ctl_fill_enum_string` leaves: the names, or an error and nothing allocated. -/
structure FillEnds (ops : CtlOps δ) (D : δ → Prop) (N : Nat → CString → Prop) (w : EnumWorld δ)
    (r : Int × EnumWorld δ) : Prop where
  frame : r.2 = { w with dev := r.2.dev, alloc := r.2.alloc, heap := r.2.heap, ename := r.2.ename }
  dev : D r.2.dev
  ends : (r.1 = 0 ∧ ∃ live, HasNames r.2 live ∧ NamesFrom N live) ∨ (r.1 = -1 ∧ NoNames r.2)
  serves : Serves ops D w.ctl.info.items.toNat w → r.1 = 0

/-- The names that were got before filling failed are freed, and their array. -/
theorem freeFailed {a : Addr} {rest : Nat}
    (ho : w.heap.Owns (nameObjs a (live.map Prod.fst ++ List.replicate rest 0) live)) :
    ∃ h, exec (do freeFilled a (live.length + rest) 0; freeObj a) w = ((), { w with heap := h }) ∧ h.Owns [] := by
  have hcells : live.map Prod.fst ++ List.replicate rest 0 = [] ++ live.map Prod.fst ++ List.replicate rest 0 := rfl
  obtain ⟨h, hrun, hown⟩ := freeNames_spec ho hcells
  refine ⟨h.free a, ?_, hown.free⟩
  rw [exec_bind, freeFilled_eq, show (0 : Nat) = ([] : List Addr).length from rfl, hrun]
  exact exec_freeObj (w := { w with heap := h }) (hown.pos _ List.mem_cons_self) (hown.get List.mem_cons_self)

/-- Names that are cached are not filled again. -/
theorem exec_mixerCtlFillEnumString_cached (ops : CtlOps δ) (hn : HasNames w live) :
    exec (mixerCtlFillEnumString ops) w = (0, w) := by
  unfold mixerCtlFillEnumString
  rw [exec_bind, exec_get]
  dsimp only
  rw [if_pos hn.ename_ne, exec_pure]

theorem mixerCtlFillEnumString_spec (hans : AnswersItems ops w.ctl D N) (hd : D w.dev)
    (hc : NoNames w ∨ ∃ live, HasNames w live ∧ NamesFrom N live) :
    FillEnds ops D N w (exec (mixerCtlFillEnumString ops) w) := by
  rcases hc with ⟨hnull, ho⟩ | ⟨live, hn, hfrom⟩
  · unfold mixerCtlFillEnumString
    rw [exec_bind, exec_get]
    dsimp only
    rw [if_neg (not_not.2 hnull), exec_bind]
    rcases allocObj_cases w (.array (List.replicate w.ctl.info.items.toNat 0)) with ⟨hal, hrun⟩ | ⟨hal, hrun⟩ <;>
      rw [hrun]
    · refine ⟨rfl, hd, .inr ⟨rfl, hnull, ho⟩, fun hs => absurd (hs.1 0) (by rw [hal]; exact Bool.false_ne_true)⟩
    dsimp only
    rw [if_neg ho.next_pos, exec_bind]
    have hfill := @fillLoop_spec _ _ _ _ _ w.heap.next hans w.ctl.info.items.toNat []
      { w with
        alloc := fun i => w.alloc (i + 1)
        heap := w.heap.alloc (.array (List.replicate w.ctl.info.items.toNat 0)) } rfl hd (by rintro i p ⟨⟩) (ho.alloc _)
    rw [List.length_nil, Nat.zero_add] at hfill
    revert hfill
    generalize exec (fillLoop ops _ _ _) _ = r
    obtain ⟨ok, w'⟩ := r
    rintro ⟨hframe, hdev, ⟨live, rest, hlen, hown, hfrom, hall⟩, hserves⟩
    dsimp only at *
    cases ok with
    | true =>
      obtain rfl := hall rfl
      rw [List.replicate_zero, List.append_nil] at hown
      refine ⟨?_, hdev, .inl ⟨rfl, live, ⟨?_, hown⟩, hfrom⟩, fun _ => rfl⟩
      · rw [hframe]
        rfl
      · rw [hframe]
        exact hlen
    | false =>
      -- the names so far and the array are freed again
      obtain ⟨h, hfree, hnone⟩ := freeFailed hown
      rw [hlen, exec_bind] at hfree
      rw [if_neg Bool.false_ne_true, exec_bind, exec_bind, hfree, exec_pure]
      refine ⟨?_, hdev, .inr ⟨rfl, ?_, hnone⟩, fun hs => ?_⟩
      · rw [hframe]
      · rw [hframe]
        exact hnull
      · exact absurd (hserves ⟨fun k => hs.1 (k + 1), hs.2⟩) Bool.false_ne_true
  · rw [exec_mixerCtlFillEnumString_cached ops hn]
    exact ⟨rfl, hd, .inl ⟨rfl, live, hn, hfrom⟩, fun _ => rfl⟩

/-- An item below the control's items is looked up among the names, once they are filled. -/
theorem exec_mixerCtlGetEnumString (enumId : UInt32) (hf : FillEnds ops D N w (exec (mixerCtlFillEnumString ops) w))
    (ht : w.ctl.info.type = .enumerated) (hid : enumId < w.ctl.info.items) :
    ∃ a, exec (mixerCtlGetEnumString ops enumId) w = (a, (exec (mixerCtlFillEnumString ops) w).2) ∧
      ((exec (mixerCtlFillEnumString ops) w).1 = 0 →
        ∃ s, stringAt (exec (mixerCtlFillEnumString ops) w).2.heap a = some s ∧ N enumId.toNat s) := by
  have hguard : ¬ (w.ctl.info.type ≠ .enumerated ∨ enumId ≥ w.ctl.info.items) :=
    not_or.2 ⟨not_not.2 ht, UInt32.not_le.2 hid⟩
  unfold mixerCtlGetEnumString
  rw [exec_bind, exec_get]
  dsimp only
  rw [if_neg hguard, exec_bind]
  obtain ⟨hframe, -, hends, -⟩ := hf
  generalize exec (mixerCtlFillEnumString ops) w = r at *
  rcases hends with ⟨hret, live, hn, hfrom⟩ | ⟨hret, -⟩ <;> rw [hret]
  · have hlt : enumId.toNat < r.2.ctl.info.items.toNat := by
      rw [hframe]
      exact UInt32.lt_iff_toNat_lt.1 hid
    obtain ⟨p, hp, hcell, hstr⟩ := hn.cellAt hlt
    rw [if_neg (lt_irrefl 0), exec_bind, exec_get, exec_getCell hcell]
    exact ⟨p.1, rfl, fun _ => ⟨p.2, hstr, hfrom _ _ hp⟩⟩
  · rw [if_pos (by decide), exec_pure]
    exact ⟨0, rfl, fun h => absurd h (by decide)⟩

/-- What writing an item returns and leaves. -/
def writeItem (ops : CtlOps δ) (w : EnumWorld δ) (i : Nat) : Int × EnumWorld δ :=
  let r := ops.elemWrite (w.ctl.itemValue i) w.dev
  (if r.1 < 0 then r.1 else 0, { w with dev := r.2 })

/-- The search writes the index of the first name that is the string, or nothing. -/
theorem exec_searchLoop (ops : CtlOps δ) (s : CString) : ∀ rest before : List (Addr × CString),
    HasNames w (before ++ rest) →
    exec (searchLoop ops s rest.length before.length) w =
      (rest.findIdx? fun p => strEq s p.2).elim (-eInval, w) fun k => writeItem ops w (before.length + k)
  | [], _, _ => rfl
  | p :: rest, before, hn => by
    obtain ⟨hlen, ho⟩ := hn
    have hcell : Tinyalsa.cellAt w.heap w.ename before.length = some p.1 := by
      rw [cellAt_of_owns ho, List.getElem?_map, List.getElem?_append_right le_rfl, Nat.sub_self]
      rfl
    have hstr : stringAt w.heap p.1 = some p.2 := stringAt_of_owns ho (List.mem_append_right _ List.mem_cons_self)
    have hnext : HasNames w (before ++ [p] ++ rest) := by
      rw [List.append_assoc]
      exact ⟨hlen, ho⟩
    have ih := exec_searchLoop ops s rest (before ++ [p]) hnext
    rw [List.length_cons, searchLoop, exec_bind, exec_get, exec_bind, exec_bind, exec_getCell hcell,
      exec_readString hstr, List.findIdx?_cons]
    dsimp only
    cases hs : strEq s p.2
    · rw [if_neg Bool.false_ne_true, if_neg Bool.false_ne_true]
      rw [List.length_append] at ih
      refine ih.trans ?_
      cases rest.findIdx? fun p => strEq s p.2 with
      | none => rfl
      | some k => exact congrArg (writeItem ops w) (Nat.add_right_comm ..)
    · rw [if_pos rfl, if_pos rfl, exec_bind, exec_ioctlItemWrite, exec_pure]
      rfl

/-- An item is set by its name once the names are filled. -/
theorem exec_mixerCtlSetEnumByString {s : CString}
    (hf : FillEnds ops D N w (exec (mixerCtlFillEnumString ops) w)) (ht : w.ctl.info.type = .enumerated) :
    let r := exec (mixerCtlFillEnumString ops) w
    (r.1 = -1 ∧ exec (mixerCtlSetEnumByString ops (some s)) w = (-eInval, r.2)) ∨
    (r.1 = 0 ∧ ∃ live, HasNames r.2 live ∧ NamesFrom N live ∧ exec (mixerCtlSetEnumByString ops (some s)) w =
      (live.findIdx? fun p => strEq s p.2).elim (-eInval, r.2) (writeItem ops r.2)) := by
  unfold mixerCtlSetEnumByString
  rw [exec_bind, exec_get]
  dsimp only
  rw [if_neg (not_not.2 ht), exec_bind]
  obtain ⟨hframe, -, hends, -⟩ := hf
  generalize exec (mixerCtlFillEnumString ops) w = r at *
  rcases hends with ⟨hret, live, hn, hfrom⟩ | ⟨hret, -⟩ <;> rw [hret]
  · refine .inr ⟨rfl, live, hn, hfrom, ?_⟩
    have hctl : r.2.ctl = w.ctl := by rw [hframe]
    have hsearch := exec_searchLoop ops s live [] hn
    rw [List.length_nil, hn.1, hctl] at hsearch
    simp only [Nat.zero_add] at hsearch
    rw [if_neg (lt_irrefl 0)]
    exact hsearch
  · exact .inl ⟨rfl, rfl⟩

end

/-! ## Over runs -/

section

variable {δ : Type} {ops : CtlOps δ} {w : EnumWorld δ} {live : List (Addr × CString)}

/-- The cached names match the control: no access was outside an object, names are cached for each of its items or
none are, what is allocated is freed with the mixer, and filling that fails leaves nothing behind. -/
structure NamesMatch (ops : CtlOps δ) (w : EnumWorld δ) : Prop where
  inside : w.fault = false
  cached : w.closed = false → NoNames w ∨ ∃ live, HasNames w live
  freed : w.closed = true → w.heap.Owns []
  failed : w.closed = false → (exec (mixerCtlFillEnumString ops) w).1 < 0 →
    NoNames (exec (mixerCtlFillEnumString ops) w).2

/-- The call is no update of the control that changes the number of its items while its names are cached. -/
def KeepsItems (ops : CtlOps δ) (w : EnumWorld δ) (call : EnumCall) : Prop :=
  w.closed = false → w.ename ≠ 0 → call = .update → (ops.elemInfo w.ctl.info w.dev).2.1.items = w.ctl.info.items

theorem answersItems_any (ctl : MixerCtl) : AnswersItems ops ctl (fun _ => True) (fun _ _ => True) :=
  ⟨fun _ _ _ => trivial, fun _ _ _ _ => trivial⟩

theorem fillEnds_any (ops : CtlOps δ) (hc : NoNames w ∨ ∃ live, HasNames w live) :
    FillEnds ops (fun _ => True) (fun _ _ => True) w (exec (mixerCtlFillEnumString ops) w) := by
  refine mixerCtlFillEnumString_spec (answersItems_any _) trivial (hc.imp_right ?_)
  rintro ⟨live, hn⟩
  exact ⟨live, hn, fun _ _ _ => trivial⟩

/-- That a failed fill leaves nothing behind follows from the rest. -/
theorem NamesMatch.of_cached (hin : w.fault = false)
    (hc : NoNames w ∨ ∃ live, HasNames w live) (hcl : w.closed = false) :
    NamesMatch ops w := by
  refine ⟨hin, fun _ => hc, fun h => ?_, fun _ hneg => ?_⟩
  · rw [hcl] at h
    cases h
  · rcases (fillEnds_any ops hc).ends with ⟨hret, -⟩ | ⟨-, hnone⟩
    · rw [hret] at hneg
      exact absurd hneg (lt_irrefl 0)
    · exact hnone

/-- What a fill leaves is cached, or nothing. -/
theorem NamesMatch.fill (h : NamesMatch ops w) (hcl : w.closed = false) :
    NamesMatch ops (exec (mixerCtlFillEnumString ops) w).2 := by
  obtain ⟨hframe, -, hends, -⟩ := fillEnds_any ops (h.cached hcl)
  refine .of_cached ?_ ?_ ?_
  · rw [hframe]
    exact h.inside
  · rcases hends with ⟨-, live, hn, -⟩ | ⟨-, hnone⟩
    · exact .inr ⟨live, hn⟩
    · exact .inl hnone
  · rw [hframe]
    exact hcl

/-- The names do not depend on the backend's state. -/
theorem NamesMatch.setDev (h : NamesMatch ops w) (hcl : w.closed = false) (dev : δ) :
    NamesMatch ops { w with dev } := .of_cached h.inside (h.cached hcl) hcl

theorem NamesMatch.getEnumString (h : NamesMatch ops w) (hcl : w.closed = false) (enumId : UInt32) :
    NamesMatch ops (exec (mixerCtlGetEnumString ops enumId) w).2 := by
  by_cases hguard : w.ctl.info.type ≠ .enumerated ∨ enumId ≥ w.ctl.info.items
  · unfold mixerCtlGetEnumString
    rw [exec_bind, exec_get]
    dsimp only
    rw [if_pos hguard, exec_pure]
    exact h
  · obtain ⟨ht, hid⟩ := not_or.1 hguard
    obtain ⟨a, hrun, -⟩ :=
      exec_mixerCtlGetEnumString enumId (fillEnds_any ops (h.cached hcl)) (not_not.1 ht) (UInt32.not_le.1 hid)
    rw [hrun]
    exact h.fill hcl

theorem NamesMatch.setEnumByString (h : NamesMatch ops w) (hcl : w.closed = false) (string : Option CString) :
    NamesMatch ops (exec (mixerCtlSetEnumByString ops string) w).2 := by
  cases string with
  | none => exact h
  | some s =>
    by_cases ht : w.ctl.info.type = .enumerated
    · have hfill := h.fill hcl
      have hopen : (exec (mixerCtlFillEnumString ops) w).2.closed = false := by
        rw [(fillEnds_any ops (h.cached hcl)).frame]
        exact hcl
      rcases exec_mixerCtlSetEnumByString (s := s) (fillEnds_any ops (h.cached hcl)) ht with
        ⟨-, hrun⟩ | ⟨-, live, -, -, hrun⟩ <;> rw [hrun]
      · exact hfill
      · cases live.findIdx? fun p => strEq s p.2 with
        | none => exact hfill
        | some k => exact hfill.setDev hopen _
    · unfold mixerCtlSetEnumByString
      rw [exec_bind, exec_get]
      dsimp only
      rw [if_pos ht, exec_pure]
      exact h

/-- The names that are cached are freed, each once. -/
theorem exec_mixerCleanupControl (hn : HasNames w live) :
    ∃ h, exec mixerCleanupControl w = ((), { w with heap := h }) ∧ h.Owns [] := by
  obtain ⟨hlen, ho⟩ := hn
  have hcells : live.map Prod.fst = [] ++ live.map Prod.fst ++ List.replicate 0 0 := by
    rw [List.nil_append, List.replicate_zero, List.append_nil]
  obtain ⟨h, hrun, hown⟩ := freeNames_spec ho hcells
  rw [List.length_nil, Nat.add_zero, hlen] at hrun
  refine ⟨h.free w.ename, ?_, hown.free⟩
  unfold mixerCleanupControl
  rw [exec_bind, exec_get]
  dsimp only
  rw [if_pos (ho.pos _ List.mem_cons_self), exec_bind, hrun]
  exact exec_freeObj (w := { w with heap := h }) (hown.pos _ List.mem_cons_self) (hown.get List.mem_cons_self)

theorem NamesMatch.close (h : NamesMatch ops w) (hcl : w.closed = false) :
    NamesMatch ops (exec (EnumCall.run ops .close) w).2 := by
  show NamesMatch ops { (exec mixerCleanupControl w).2 with closed := true }
  have hopen : ∀ {w' : EnumWorld δ}, ({ w' with closed := true } : EnumWorld δ).closed = false → False := by
    rintro w' ⟨⟩
  rcases h.cached hcl with ⟨hnull, hnone⟩ | ⟨live, hn⟩
  · have hrun : exec mixerCleanupControl w = ((), w) := by
      unfold mixerCleanupControl
      rw [exec_bind, exec_get]
      dsimp only
      rw [if_neg (not_not.2 hnull), exec_pure]
    rw [hrun]
    exact ⟨h.inside, fun hc => (hopen hc).elim, fun _ => hnone, fun hc => (hopen hc).elim⟩
  · obtain ⟨heap, hrun, hnone⟩ := exec_mixerCleanupControl hn
    rw [hrun]
    exact ⟨h.inside, fun hc => (hopen hc).elim, fun _ => hnone, fun hc => (hopen hc).elim⟩

/-- An update keeps the match just when it leaves the number of items alone, or there are no names yet. -/
theorem NamesMatch.update_iff (h : NamesMatch ops w) (hcl : w.closed = false) :
    NamesMatch ops (exec (mixerCtlUpdate ops) w).2 ↔
      (w.ename ≠ 0 → (ops.elemInfo w.ctl.info w.dev).2.1.items = w.ctl.info.items) := by
  show NamesMatch ops { w with
    dev := (ops.elemInfo w.ctl.info w.dev).2.2
    ctl := { w.ctl with info := (ops.elemInfo w.ctl.info w.dev).2.1 } } ↔ _
  constructor
  · rintro h' hne
    obtain ⟨live, hlen, ho⟩ := (h.cached hcl).resolve_left fun hn => hne hn.1
    obtain ⟨live', hlen', ho'⟩ := (h'.cached hcl).resolve_left fun hn => hne hn.1
    -- the array is the same, and as long as there were and are items
    have hobj := (ho.get List.mem_cons_self).symm.trans (ho'.get List.mem_cons_self)
    rw [Option.some.injEq, NameObj.array.injEq] at hobj
    have hsame := congrArg List.length hobj
    rw [List.length_map, List.length_map, hlen, hlen'] at hsame
    exact UInt32.toNat_inj.1 hsame.symm
  · intro hkeep
    refine .of_cached h.inside ?_ hcl
    rcases h.cached hcl with hnone | ⟨live, hn⟩
    · exact .inl hnone
    · refine .inr ⟨live, ?_, hn.2⟩
      rw [hn.1, ← hkeep hn.ename_ne]

theorem namesMatch_step (h : NamesMatch ops w) (call : EnumCall) :
    NamesMatch ops (enumStep ops w call) ↔ KeepsItems ops w call := by
  unfold enumStep KeepsItems
  cases hcl : w.closed
  · rw [if_neg Bool.false_ne_true]
    cases call with
    | getEnumString enumId => exact iff_of_true (h.getEnumString hcl enumId) (by rintro _ _ ⟨⟩)
    | setEnumByString string => exact iff_of_true (h.setEnumByString hcl string) (by rintro _ _ ⟨⟩)
    | update =>
      refine (h.update_iff hcl).trans ?_
      simp only [true_imp_iff]
    | close => exact iff_of_true (h.close hcl) (by rintro _ _ ⟨⟩)
  · rw [if_pos rfl]
    exact iff_of_true h (by rintro ⟨⟩)

/-- The cached names match the control throughout a run just when no update in it changes the number of items while
names are cached. -/
theorem namesMatch_iff (ops : CtlOps δ) (dev : δ) (ctl : MixerCtl) (alloc : Nat → Bool) (calls : List EnumCall) :
    Throughout (enumStep ops) (NamesMatch ops) { dev, ctl, alloc } calls ↔
      Along (enumStep ops) (KeepsItems ops) { dev, ctl, alloc } calls := by
  refine throughout_iff (fun w call h => namesMatch_step h call) (.of_cached rfl (.inl ⟨rfl, .empty⟩) rfl)

end

/-- A control that gets a third item after two requests for its info. -/
def growingOps : CtlOps Nat where
  elemInfo i d := (0, { i with
    type := .enumerated
    items := if d < 2 then 2 else 3
    itemName := [65 + i.item.toUInt8] }, d + 1)
  elemRead ev d := (0, ev, d)
  elemWrite _ d := (0, d)
  tlvRead t d := (0, t, d)
  tlvWrite _ d := (0, d)

def growingCtl : MixerCtl where
  info := { id := { numid := 1 }, type := .enumerated, count := 1, items := 2 }

/-- After the update, the third item is looked up outside the array of two. -/
theorem not_namesMatch_growing : ¬ Throughout (enumStep growingOps) (NamesMatch growingOps)
    { dev := 0, ctl := growingCtl } [.getEnumString 0, .update, .getEnumString 2] :=
  fun h => absurd (h [.getEnumString 0, .update, .getEnumString 2] [] rfl).inside (by decide +kernel)

end Tinyalsa
