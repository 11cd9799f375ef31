/-
Control groups of a mixer and the scan that fills them (`add_controls`), over any backend. A scan
asks the backend for its list twice, grows the group's array, and describes the new controls one
by one; every call it makes can fail.
-/
import Tinyalsa.Errno
import Tinyalsa.Lib.Hoare
import Mathlib.Logic.Function.Basic

namespace Tinyalsa

open Hoare

/-! ## Controls -/

/-- The bytes of a C string. -/
abbrev CString := List UInt8

/-- The address of an allocated object; 0 is `NULL`. -/
abbrev Addr := Nat

/-- `SNDRV_CTL_ELEM_TYPE_*`. -/
inductive CtlElemType
  | none | boolean | integer | enumerated | bytes | iec958 | integer64
  deriving DecidableEq, Repr

/-- `struct snd_ctl_elem_id`. -/
structure SndCtlElemId where
  numid : UInt32 := 0
  iface : UInt32 := 0
  device : UInt32 := 0
  name : CString := []
  deriving DecidableEq, Repr

/-- `struct snd_ctl_elem_info`, with the members of its unions side by side. -/
structure SndCtlElemInfo where
  id : SndCtlElemId := {}
  type : CtlElemType := .none
  access : UInt32 := 0
  count : UInt32 := 0
  items : UInt32 := 0
  item : UInt32 := 0
  itemName : CString := []
  min : Int := 0
  max : Int := 0
  step : Int := 0
  deriving DecidableEq, Repr

/-- `struct snd_ctl_elem_list`; `pids` is the memory the identifiers are written to. -/
structure SndCtlElemList where
  offset : UInt32 := 0
  space : UInt32 := 0
  used : UInt32 := 0
  count : UInt32 := 0
  pids : Nat → SndCtlElemId := fun _ => {}

/-- `struct mixer_ctl`. -/
structure MixerCtl where
  mixer : Addr := 0
  info : SndCtlElemInfo := {}
  grp : Addr := 0
  deriving DecidableEq, Repr

/-- The two kinds of groups. -/
inductive GrpKind
  | hw | plug
  deriving DecidableEq, Repr

/-- `struct mixer_ctl_group`: `ctl` is an array of `allocated` controls, `kind` the backend its `ops`
and `data` belong to. -/
structure MixerCtlGroup where
  kind : GrpKind
  ctl : Nat → MixerCtl := fun _ => {}
  allocated : Nat := 0
  count : UInt32 := 0

/-- `struct mixer_ops` of a backend `δ`, as far as scans and openings use it. -/
structure MixerOps (δ : Type) where
  /-- What opening the device returns: negative, or a descriptor. -/
  openDev : δ → Int × δ
  closeDev : δ → δ
  cardInfo : δ → Int × δ
  elemList : SndCtlElemList → δ → Int × SndCtlElemList × δ
  elemInfo : SndCtlElemInfo → δ → Int × SndCtlElemInfo × δ

/-! ## Scans -/

/-- The outcome of a step of a scan. Ghost. -/
inductive ScanCall
  | elemList (ret : Int)
  | alloc (ok : Bool)
  | elemInfo (ret : Int)
  deriving DecidableEq, Repr

/-- The step failed. -/
def ScanCall.fails : ScanCall → Bool
  | .elemList ret => ret < 0
  | .alloc ok => !ok
  | .elemInfo ret => ret < 0

/-- A control was described. -/
def ScanCall.describes : ScanCall → Bool
  | .elemInfo ret => 0 ≤ ret
  | _ => false

/-- What a scan of one group works on. `alloc` says which of the allocations to come succeed. -/
structure ScanState (δ : Type) where
  dev : δ
  alloc : Nat → Bool
  grp : MixerCtlGroup
  totalCount : UInt32
  calls : List ScanCall := []

section

variable {δ : Type} (ops : MixerOps δ)

/-- The outcome of an allocation. -/
def scanAlloc : StateM (ScanState δ) Bool := do
  let s ← get
  set { s with alloc := fun i => s.alloc (i + 1), calls := .alloc (s.alloc 0) :: s.calls }
  return s.alloc 0

/-- `grp->ops->ioctl(grp->data, SNDRV_CTL_IOCTL_ELEM_LIST, &elist)`. -/
def ioctlElemList (elist : SndCtlElemList) : StateM (ScanState δ) (Int × SndCtlElemList) := do
  let s ← get
  let (ret, elist, dev) := ops.elemList elist s.dev
  set { s with dev, calls := .elemList ret :: s.calls }
  return (ret, elist)

/-- `ei->id.numid = numid`. -/
def MixerCtl.request (c : MixerCtl) (numid : UInt32) : SndCtlElemInfo :=
  { c.info with id := { c.info.id with numid } }

/-- `grp->ops->ioctl(grp->data, SNDRV_CTL_IOCTL_ELEM_INFO, ei)` for control `n` under a number. -/
def ioctlElemInfo (n : Nat) (numid : UInt32) : StateM (ScanState δ) Int := do
  let s ← get
  let (ret, info, dev) := ops.elemInfo ((s.grp.ctl n).request numid) s.dev
  set { s with
    dev
    grp := { s.grp with ctl := Function.update s.grp.ctl n { s.grp.ctl n with info } }
    calls := .elemInfo ret :: s.calls }
  return ret

/-- `ctl[n].mixer = mixer; ctl[n].grp = grp`. -/
def linkCtl (mixer grp : Addr) (n : Nat) : StateM (ScanState δ) Unit :=
  modify fun s => { s with grp := { s.grp with
    ctl := Function.update s.grp.ctl n { s.grp.ctl n with mixer, grp } } }

/-- The loop of `add_controls` with `rem` controls left from `n` on; the control it failed at, if any. -/
def addControlsLoop (mixer grp : Addr) (eid : Nat → SndCtlElemId) (old : Nat) :
    Nat → Nat → StateM (ScanState δ) (Option Nat)
  | 0, _ => return none
  | rem + 1, n => do
    if (← ioctlElemInfo ops n (eid (n - old)).numid) < 0 then return some n
    else
      linkCtl mixer grp n
      addControlsLoop mixer grp eid old rem (n + 1)

/-- `grp->count = count; mixer->total_count += (count - old_count)`. -/
def keepControls (count : UInt32) : StateM (ScanState δ) Unit :=
  modify fun s => { s with
    grp := { s.grp with count }
    totalCount := s.totalCount + (count - s.grp.count) }

/-- `mixer_realloc_z(grp->ctl, curnum, newnum, sizeof(struct mixer_ctl))`, where it succeeds. -/
def reallocZ (curnum newnum : Nat) : StateM (ScanState δ) Unit :=
  modify fun s => { s with grp := { s.grp with
    ctl := fun i => if i < curnum then s.grp.ctl i else {}
    allocated := newnum } }

/-- `add_controls` once the array has grown and the new numbers are known. -/
def describeControls (mixer grp : Addr) (eid : Nat → SndCtlElemId) (newCount : UInt32) :
    StateM (ScanState δ) Int := do
  let oldCount := (← get).grp.count
  let failed ← addControlsLoop ops mixer grp eid oldCount.toNat (newCount.toNat - oldCount.toNat) oldCount.toNat
  match failed with
  | none =>
    keepControls newCount
    return 0
  | some n =>
    -- the controls that were added are kept; the one that failed has no names that could be freed
    keepControls n.toUInt32
    return -1

/-- `add_controls`. -/
def addControls (mixer grp : Addr) : StateM (ScanState δ) Int := do
  let oldCount := (← get).grp.count
  let (ret, elist) ← ioctlElemList ops {}
  if ret < 0 then return -1
  else if oldCount = elist.count then return 0   -- no new controls
  else if oldCount > elist.count then return -1  -- driver has removed controls
  else if !(← scanAlloc) then return -1
  else
    reallocZ oldCount.toNat elist.count.toNat
    let newCount := elist.count
    if !(← scanAlloc) then return -1
    else
      let (ret, elist) ← ioctlElemList ops
        { elist with space := newCount - oldCount, offset := oldCount, pids := fun _ => {} }
      if ret < 0 then return -1
      else describeControls ops mixer grp elist.pids newCount

@[simp] theorem exec_scanAlloc (s : ScanState δ) :
    exec (scanAlloc (δ := δ)) s =
      (s.alloc 0, { s with alloc := fun i => s.alloc (i + 1), calls := .alloc (s.alloc 0) :: s.calls }) := (rfl)

@[simp] theorem exec_ioctlElemList (elist : SndCtlElemList) (s : ScanState δ) :
    exec (ioctlElemList ops elist) s =
      (((ops.elemList elist s.dev).1, (ops.elemList elist s.dev).2.1),
        { s with
          dev := (ops.elemList elist s.dev).2.2
          calls := .elemList (ops.elemList elist s.dev).1 :: s.calls }) := (rfl)

theorem exec_ioctlElemInfo {n : Nat} {numid : UInt32} {s : ScanState δ} {ret : Int} {info : SndCtlElemInfo} {dev : δ}
    (h : ops.elemInfo ((s.grp.ctl n).request numid) s.dev = (ret, info, dev)) :
    exec (ioctlElemInfo ops n numid) s =
      (ret, { s with
        dev
        grp := { s.grp with ctl := Function.update s.grp.ctl n { s.grp.ctl n with info } }
        calls := .elemInfo ret :: s.calls }) := by
  simp only [ioctlElemInfo, exec_bind, exec_get, h, exec_set, exec_pure]

@[simp] theorem exec_linkCtl (mixer grp : Addr) (n : Nat) (s : ScanState δ) :
    exec (linkCtl mixer grp n) s =
      ((), { s with grp := { s.grp with
        ctl := Function.update s.grp.ctl n { s.grp.ctl n with mixer, grp } } }) := (rfl)

@[simp] theorem exec_keepControls (count : UInt32) (s : ScanState δ) :
    exec (keepControls count) s =
      ((), { s with grp := { s.grp with count }, totalCount := s.totalCount + (count - s.grp.count) }) := (rfl)

@[simp] theorem exec_reallocZ (curnum newnum : Nat) (s : ScanState δ) :
    exec (reallocZ curnum newnum) s =
      ((), { s with grp := { s.grp with
        ctl := fun i => if i < curnum then s.grp.ctl i else {}
        allocated := newnum } }) := (rfl)

end

/-! ## What a scan leaves -/

section

variable {δ : Type} {ops : MixerOps δ} {D : δ → Prop} {mixer grp : Addr}

/-- Control `c` is linked to its group and carries what the backend, in a state of `D`, answered for
control `c₀` under the number `numid`. -/
def Described (ops : MixerOps δ) (D : δ → Prop) (mixer grp : Addr) (numid : UInt32) (c₀ c : MixerCtl) : Prop :=
  ∃ d, D d ∧ 0 ≤ (ops.elemInfo (c₀.request numid) d).1 ∧
    c = ⟨mixer, (ops.elemInfo (c₀.request numid) d).2.1, grp⟩

/-- The loop started at control `n` with `eid` for the numbers from `old` on has described the
controls below `m`. -/
structure LoopSpec (ops : MixerOps δ) (D : δ → Prop) (mixer grp : Addr) (eid : Nat → SndCtlElemId) (old n m : Nat)
    (s s' : ScanState δ) : Prop where
  dev : D s'.dev
  alloc : s'.alloc = s.alloc
  kind : s'.grp.kind = s.grp.kind
  allocated : s'.grp.allocated = s.grp.allocated
  count : s'.grp.count = s.grp.count
  total : s'.totalCount = s.totalCount
  kept : ∀ i, i < n → s'.grp.ctl i = s.grp.ctl i
  added : ∀ i, n ≤ i → i < m → Described ops D mixer grp (eid (i - old)).numid (s.grp.ctl i) (s'.grp.ctl i)

/-- A described control is linked, and the loop goes on behind it. -/
theorem addControlsLoop_next {eid : Nat → SndCtlElemId} {old rem n : Nat} {s : ScanState δ} {ret : Int}
    {info : SndCtlElemInfo} {dev : δ}
    (heq : ops.elemInfo ((s.grp.ctl n).request (eid (n - old)).numid) s.dev = (ret, info, dev)) (hret : ¬ ret < 0) :
    exec (addControlsLoop ops mixer grp eid old (rem + 1) n) s =
      exec (addControlsLoop ops mixer grp eid old rem (n + 1))
        { s with
          dev
          grp := { s.grp with ctl := Function.update s.grp.ctl n ⟨mixer, info, grp⟩ }
          calls := .elemInfo ret :: s.calls } := by
  simp only [addControlsLoop, exec_bind, exec_ioctlElemInfo ops heq, exec_linkCtl, if_neg hret,
    Function.update_self, Function.update_idem]

theorem addControlsLoop_spec (mixer grp : Addr) (hD : ∀ i d, D d → D (ops.elemInfo i d).2.2) (eid : Nat → SndCtlElemId)
    (old : Nat) :
    ∀ (rem n : Nat) (s : ScanState δ), D s.dev →
      ∃ m new, n ≤ m ∧ LoopSpec ops D mixer grp eid old n m s (exec (addControlsLoop ops mixer grp eid old rem n) s).2 ∧
        (exec (addControlsLoop ops mixer grp eid old rem n) s).2.calls = new ++ s.calls ∧
        new.countP ScanCall.describes = m - n ∧
        ((exec (addControlsLoop ops mixer grp eid old rem n) s).1 = none ∧ m = n + rem ∧ (∀ c ∈ new, ¬ c.fails) ∨
          (exec (addControlsLoop ops mixer grp eid old rem n) s).1 = some m ∧ m < n + rem ∧ ∃ c ∈ new, c.fails)
  | 0, n, s, hs =>
    ⟨n, [], le_rfl, ⟨hs, rfl, rfl, rfl, rfl, rfl, fun _ _ => rfl, fun i h₁ h₂ => by omega⟩, rfl, by simp,
      .inl ⟨rfl, rfl, by simp⟩⟩
  | rem + 1, n, s, hs => by
    obtain ⟨ret, info, dev, heq⟩ : ∃ ret info dev, ops.elemInfo ((s.grp.ctl n).request (eid (n - old)).numid) s.dev =
      (ret, info, dev) := ⟨_, _, _, rfl⟩
    have hdev : D dev := by have := hD ((s.grp.ctl n).request (eid (n - old)).numid) s.dev hs; rwa [heq] at this
    -- the control of slot `n` is refused, which ends the loop, or described for good
    by_cases hret : ret < 0
    · simp only [addControlsLoop, exec_bind, exec_ioctlElemInfo ops heq, exec_pure, if_pos hret]
      refine ⟨n, [.elemInfo ret], le_rfl, ⟨hdev, rfl, rfl, rfl, rfl, rfl, fun i hi => ?_, fun i h₁ h₂ => by omega⟩,
        rfl, ?_, .inr ⟨rfl, by omega, _, List.mem_singleton_self _, decide_eq_true hret⟩⟩
      · exact Function.update_of_ne (by omega) _ _
      · have : ¬ ScanCall.describes (.elemInfo ret) := by simpa [ScanCall.describes] using hret
        simp [this]
    · rw [addControlsLoop_next heq hret]
      obtain ⟨m, new, hm, hspec, hcalls, hcount, hres⟩ := addControlsLoop_spec mixer grp hD eid old rem (n + 1)
        { s with
          dev
          grp := { s.grp with ctl := Function.update s.grp.ctl n ⟨mixer, info, grp⟩ }
          calls := .elemInfo ret :: s.calls } hdev
      refine ⟨m, new ++ [.elemInfo ret], by omega, ⟨hspec.dev, hspec.alloc, hspec.kind, hspec.allocated,
        hspec.count, hspec.total, fun i hi => ?_, fun i h₁ h₂ => ?_⟩, ?_, ?_, ?_⟩
      · rw [hspec.kept i (by omega)]
        exact Function.update_of_ne (by omega) _ _
      · rcases Nat.lt_or_ge n i with hi | hi
        · have hctl : Function.update s.grp.ctl n ⟨mixer, info, grp⟩ i = s.grp.ctl i :=
            Function.update_of_ne (by omega) _ _
          exact hctl ▸ hspec.added i hi h₂
        · obtain rfl : i = n := by omega
          rw [hspec.kept i (by omega)]
          exact ⟨s.dev, hs, by rw [heq]; omega, by rw [heq]; exact Function.update_self ..⟩
      · rw [hcalls]; simp
      · rw [List.countP_append, hcount]
        have : ScanCall.describes (.elemInfo ret) := by simpa [ScanCall.describes] using hret
        simp [this]; omega
      · rcases hres with ⟨h₁, h₂, h₃⟩ | ⟨h₁, h₂, c, hc, hf⟩
        · refine .inl ⟨h₁, by omega, fun c hc => ?_⟩
          rcases List.mem_append.1 hc with hc | hc
          · exact h₃ c hc
          · rw [List.mem_singleton.1 hc]; simpa [ScanCall.fails] using hret
        · exact .inr ⟨h₁, by omega, c, List.mem_append_left _ hc, hf⟩

/-- The controls below `m` are described, from the group's array in `s` and the numbers `eid`. -/
structure DescribeSpec (ops : MixerOps δ) (D : δ → Prop) (mixer grp : Addr) (eid : Nat → SndCtlElemId)
    (newCount : UInt32) (s : ScanState δ) (r : Int × ScanState δ) (m : Nat) (new : List ScanCall) : Prop where
  dev : D r.2.dev
  kind : r.2.grp.kind = s.grp.kind
  allocated : r.2.grp.allocated = s.grp.allocated
  grows : s.grp.count.toNat ≤ m
  bound : m ≤ newCount.toNat
  count : r.2.grp.count.toNat = m
  total : r.2.totalCount = s.totalCount + (r.2.grp.count - s.grp.count)
  kept : ∀ i, i < s.grp.count.toNat → r.2.grp.ctl i = s.grp.ctl i
  added : ∀ i, s.grp.count.toNat ≤ i → i < m →
    Described ops D mixer grp (eid (i - s.grp.count.toNat)).numid (s.grp.ctl i) (r.2.grp.ctl i)
  calls : r.2.calls = new ++ s.calls
  described : new.countP ScanCall.describes = m - s.grp.count.toNat
  ret : r.1 = 0 ∧ m = newCount.toNat ∧ (∀ c ∈ new, ¬ c.fails) ∨ r.1 = -1 ∧ ∃ c ∈ new, c.fails

theorem describeControls_spec (mixer grp : Addr) (hI : ∀ i d, D d → D (ops.elemInfo i d).2.2) (eid : Nat → SndCtlElemId)
    (newCount : UInt32) {s : ScanState δ} (hs : D s.dev) (hle : s.grp.count.toNat ≤ newCount.toNat) :
    ∃ m new,
      DescribeSpec ops D mixer grp eid newCount s (exec (describeControls ops mixer grp eid newCount) s) m new := by
  obtain ⟨m, new, hm, hspec, hcalls, hcount, hres⟩ := addControlsLoop_spec mixer grp hI eid
    s.grp.count.toNat (newCount.toNat - s.grp.count.toNat) s.grp.count.toNat s hs
  simp only [describeControls, exec_bind, exec_get]
  generalize exec (addControlsLoop ops mixer grp eid s.grp.count.toNat (newCount.toNat - s.grp.count.toNat)
    s.grp.count.toNat) s = q at *
  obtain ⟨o, s'⟩ := q
  have htotal : s'.totalCount = s.totalCount := hspec.total
  have hold : s'.grp.count = s.grp.count := hspec.count
  rcases hres with ⟨rfl, hm', hnew⟩ | ⟨rfl, hm', hnew⟩
  · refine ⟨m, new, hspec.dev, hspec.kind, hspec.allocated, hm, by omega, by simp; omega, ?_, hspec.kept,
      hspec.added, hcalls, hcount, .inl ⟨rfl, by omega, hnew⟩⟩
    simp [htotal, hold]
  · have := newCount.toNat_lt
    refine ⟨m, new, hspec.dev, hspec.kind, hspec.allocated, hm, by omega, ?_, ?_, hspec.kept,
      hspec.added, hcalls, hcount, .inr ⟨rfl, hnew⟩⟩
    · simp; omega
    · simp [htotal, hold]

/-- What a scan of `add_controls` leaves: the group holds `m` controls, the new ones described under
the numbers `eid`. -/
structure ScanSpec (ops : MixerOps δ) (D : δ → Prop) (mixer grp : Addr) (eid : Nat → SndCtlElemId) (m : Nat)
    (s s' : ScanState δ) : Prop where
  dev : D s'.dev
  kind : s'.grp.kind = s.grp.kind
  grows : s.grp.count.toNat ≤ m
  count : s'.grp.count.toNat = m
  fits : s.grp.count.toNat ≤ s.grp.allocated → m ≤ s'.grp.allocated
  total : s'.totalCount = s.totalCount + (s'.grp.count - s.grp.count)
  kept : ∀ i, i < s.grp.count.toNat → s'.grp.ctl i = s.grp.ctl i
  added : ∀ i, s.grp.count.toNat ≤ i → i < m →
    Described ops D mixer grp (eid (i - s.grp.count.toNat)).numid {} (s'.grp.ctl i)

/-- The second request of a scan. -/
def secondList (oldCount : UInt32) (elist : SndCtlElemList) : SndCtlElemList :=
  { elist with space := elist.count - oldCount, offset := oldCount, pids := fun _ => {} }

/-- The outcome of a scan that made the calls `new`. -/
structure ScanOutcome (ops : MixerOps δ) (D : δ → Prop) (mixer grp : Addr) (s : ScanState δ)
    (r : Int × ScanState δ) (eid : Nat → SndCtlElemId) (m : Nat) (new : List ScanCall) : Prop where
  spec : ScanSpec ops D mixer grp eid m s r.2
  calls : r.2.calls = new ++ s.calls
  described : new.countP ScanCall.describes = m - s.grp.count.toNat
  ret : r.1 = 0 ∨ r.1 = -1
  fails : (∃ c ∈ new, c.fails) → r.1 = -1
  failed : r.1 = -1 → s.grp.count = 0 → ∃ c ∈ new, c.fails
  complete : r.1 = 0 → m = (ops.elemList {} s.dev).2.1.count.toNat
  bound : s.grp.count.toNat < m → m ≤ (ops.elemList {} s.dev).2.1.count.toNat
  listed : s.grp.count.toNat < m → 0 ≤ (ops.elemList {} s.dev).1
  numbers : s.grp.count.toNat < m → ∃ d, D d ∧
    0 ≤ (ops.elemList (secondList s.grp.count (ops.elemList {} s.dev).2.1) d).1 ∧
    eid = (ops.elemList (secondList s.grp.count (ops.elemList {} s.dev).2.1) d).2.1.pids

/-- The scan left the controls of the group alone. -/
structure Untouched (s s' : ScanState δ) : Prop where
  kind : s'.grp.kind = s.grp.kind
  count : s'.grp.count = s.grp.count
  total : s'.totalCount = s.totalCount
  fits : s.grp.count.toNat ≤ s.grp.allocated → s.grp.count.toNat ≤ s'.grp.allocated
  kept : ∀ i, i < s.grp.count.toNat → s'.grp.ctl i = s.grp.ctl i

/-- The outcome of a scan that describes no control. -/
theorem Untouched.outcome {s s' : ScanState δ} {ret : Int} {new : List ScanCall} (h : Untouched s s') (hdev : D s'.dev)
    (hcalls : s'.calls = new ++ s.calls) (hnd : ∀ c ∈ new, ¬ c.describes) (hret : ret = 0 ∨ ret = -1)
    (hfails : (∃ c ∈ new, c.fails) → ret = -1) (hfailed : ret = -1 → s.grp.count = 0 → ∃ c ∈ new, c.fails)
    (hcomplete : ret = 0 → s.grp.count = (ops.elemList {} s.dev).2.1.count) :
    ScanOutcome ops D mixer grp s (ret, s') (fun _ => {}) s.grp.count.toNat new where
  spec := ⟨hdev, h.kind, le_rfl, by rw [h.count], h.fits,
    by rw [h.count, h.total, UInt32.sub_self, UInt32.add_zero], h.kept, fun i h₁ h₂ => by omega⟩
  calls := hcalls
  described := by
    rw [Nat.sub_self, List.countP_eq_zero]
    simpa using hnd
  ret := hret
  fails := hfails
  failed := hfailed
  complete := fun h0 => by rw [hcomplete h0]
  bound := fun hlt => absurd hlt (lt_irrefl _)
  listed := fun hlt => absurd hlt (lt_irrefl _)
  numbers := fun hlt => absurd hlt (lt_irrefl _)

/-- A scan that ends before its loop: it describes nothing, and it fails where a call of it failed or the
backend has fewer controls than the group. -/
structure EarlyExit (ops : MixerOps δ) (s : ScanState δ) (r : Int × ScanState δ) (new : List ScanCall) : Prop where
  untouched : Untouched s r.2
  dev : r.2.dev = (ops.elemList {} s.dev).2.2 ∨
    r.2.dev = (ops.elemList (secondList s.grp.count (ops.elemList {} s.dev).2.1) (ops.elemList {} s.dev).2.2).2.2
  calls : r.2.calls = new ++ s.calls
  listed : .elemList (ops.elemList {} s.dev).1 ∈ new
  quiet : ∀ c ∈ new, ¬ c.describes
  ret : r.1 = 0 ∧ (∀ c ∈ new, ¬ c.fails) ∧ s.grp.count = (ops.elemList {} s.dev).2.1.count ∨
    r.1 = -1 ∧ ((∃ c ∈ new, c.fails) ∨ (ops.elemList {} s.dev).2.1.count < s.grp.count)

/-- A scan before its loop: the array has grown, and the numbers of the new controls are known. -/
structure LoopEntry (ops : MixerOps δ) (s s₂ : ScanState δ) (new : List ScanCall) : Prop where
  more : s.grp.count.toNat < (ops.elemList {} s.dev).2.1.count.toNat
  listed : 0 ≤ (ops.elemList {} s.dev).1
  numbered : 0 ≤ (ops.elemList (secondList s.grp.count (ops.elemList {} s.dev).2.1) (ops.elemList {} s.dev).2.2).1
  dev : s₂.dev =
    (ops.elemList (secondList s.grp.count (ops.elemList {} s.dev).2.1) (ops.elemList {} s.dev).2.2).2.2
  grp : s₂.grp = { s.grp with
    ctl := fun i => if i < s.grp.count.toNat then s.grp.ctl i else {}
    allocated := (ops.elemList {} s.dev).2.1.count.toNat }
  total : s₂.totalCount = s.totalCount
  calls : s₂.calls = new ++ s.calls
  quiet : ∀ c ∈ new, ¬ c.describes
  succeeds : ∀ c ∈ new, ¬ c.fails

/-- A scan that ends right after its first request. -/
theorem EarlyExit.ofList {s : ScanState δ} {r₁ : Int} {l₁ : SndCtlElemList} {d₁ : δ} {ret : Int}
    (h₁ : ops.elemList {} s.dev = (r₁, l₁, d₁))
    (hret : ret = 0 ∧ 0 ≤ r₁ ∧ s.grp.count = l₁.count ∨ ret = -1 ∧ (r₁ < 0 ∨ l₁.count < s.grp.count)) :
    EarlyExit ops s (ret, { s with dev := d₁, calls := .elemList r₁ :: s.calls }) [.elemList r₁] where
  untouched := ⟨rfl, rfl, rfl, id, fun _ _ => rfl⟩
  dev := .inl (by rw [h₁])
  calls := rfl
  listed := by simp [h₁]
  quiet := by simp [ScanCall.describes]
  ret := by
    rw [h₁]
    simpa [ScanCall.fails] using hret

/-- How a scan can go: it ends early, or it describes the controls the backend lists. -/
theorem addControls_cases (ops : MixerOps δ) (mixer grp : Addr) (s : ScanState δ) :
    (∃ new, EarlyExit ops s (exec (addControls ops mixer grp) s) new) ∨
      ∃ s₂ new, LoopEntry ops s s₂ new ∧ exec (addControls ops mixer grp) s =
        exec (describeControls ops mixer grp
          (ops.elemList (secondList s.grp.count (ops.elemList {} s.dev).2.1) (ops.elemList {} s.dev).2.2).2.1.pids
          (ops.elemList {} s.dev).2.1.count) s₂ := by
  generalize hr : exec (addControls ops mixer grp) s = r
  obtain ⟨r₁, l₁, d₁, h₁⟩ : ∃ r₁ l₁ d₁, ops.elemList {} s.dev = (r₁, l₁, d₁) := ⟨_, _, _, rfl⟩
  simp only [addControls, exec_bind, exec_get, exec_ioctlElemList, h₁, exec_ite, exec_pure, exec_scanAlloc,
    exec_reallocZ] at hr
  split at hr
  · -- the list is refused
    rename_i hneg
    subst hr
    exact .inl ⟨_, .ofList h₁ (.inr ⟨rfl, .inl hneg⟩)⟩
  rename_i hpos
  split at hr
  · -- no new controls
    rename_i heq
    subst hr
    exact .inl ⟨_, .ofList h₁ (.inl ⟨rfl, not_lt.1 hpos, heq⟩)⟩
  rename_i hne
  split at hr
  · -- the backend has fewer controls than the group
    rename_i hlt
    subst hr
    exact .inl ⟨_, .ofList h₁ (.inr ⟨rfl, .inr hlt⟩)⟩
  rename_i hle
  split at hr
  · -- no memory for the larger array
    rename_i hal
    subst hr
    refine .inl ⟨[.alloc (s.alloc 0), .elemList r₁], ⟨rfl, rfl, rfl, id, fun _ _ => rfl⟩, .inl (by rw [h₁]), rfl,
      by simp [h₁], ?_, .inr ⟨rfl, .inl ⟨_, List.mem_cons_self .., by simpa [ScanCall.fails] using hal⟩⟩⟩
    simp [ScanCall.describes]
  rename_i hal₀
  have hlt : s.grp.count.toNat < l₁.count.toNat := by
    simp only [gt_iff_lt, UInt32.lt_iff_toNat_lt, ← UInt32.toNat_inj] at hle hne
    omega
  have hkept : ∀ i, i < s.grp.count.toNat → (if i < s.grp.count.toNat then s.grp.ctl i else {}) = s.grp.ctl i :=
    fun i hi => if_pos hi
  split at hr
  · -- the array has grown already, but there is no memory for the numbers
    rename_i hal
    subst hr
    refine .inl ⟨[.alloc (s.alloc 1), .alloc (s.alloc 0), .elemList r₁], ⟨rfl, rfl, rfl, fun _ => hlt.le, hkept⟩,
      .inl (by rw [h₁]), rfl, by simp [h₁], ?_,
      .inr ⟨rfl, .inl ⟨_, List.mem_cons_self .., by simpa [ScanCall.fails] using hal⟩⟩⟩
    simp [ScanCall.describes]
  rename_i hal₁
  obtain ⟨r₂, l₂, d₂, h₂⟩ : ∃ r₂ l₂ d₂, ops.elemList (secondList s.grp.count l₁) d₁ = (r₂, l₂, d₂) := ⟨_, _, _, rfl⟩
  have h₂' := h₂
  unfold secondList at h₂'
  rw [h₂'] at hr
  split at hr
  · -- the new numbers are refused
    rename_i hneg
    subst hr
    refine .inl ⟨[.elemList r₂, .alloc (s.alloc 1), .alloc (s.alloc 0), .elemList r₁],
      ⟨rfl, rfl, rfl, fun _ => hlt.le, hkept⟩, .inr (by rw [h₁, h₂]), rfl, by simp [h₁], ?_,
      .inr ⟨rfl, .inl ⟨_, List.mem_cons_self .., decide_eq_true hneg⟩⟩⟩
    simp [ScanCall.describes]
  rename_i hpos₂
  refine .inr ⟨{ dev := d₂, alloc := fun i => s.alloc (i + 1 + 1)
                 grp := { s.grp with
                   ctl := fun i => if i < s.grp.count.toNat then s.grp.ctl i else {}
                   allocated := l₁.count.toNat }
                 totalCount := s.totalCount
                 calls := .elemList r₂ :: .alloc (s.alloc (0 + 1)) :: .alloc (s.alloc 0) :: .elemList r₁ :: s.calls },
    [.elemList r₂, .alloc (s.alloc (0 + 1)), .alloc (s.alloc 0), .elemList r₁],
    ⟨by rwa [h₁], by rw [h₁]; exact not_lt.1 hpos, by rw [h₁, h₂]; exact not_lt.1 hpos₂, by rw [h₁, h₂],
    by rw [h₁], rfl, rfl, by simp [ScanCall.describes], ?_⟩, ?_⟩
  · simp_all [ScanCall.fails]
  · rw [h₁, h₂]
    exact hr.symm

theorem addControls_spec (ops : MixerOps δ) (mixer grp : Addr) (hI : ∀ i d, D d → D (ops.elemInfo i d).2.2)
    (hL : ∀ l d, D d → D (ops.elemList l d).2.2)
    (s : ScanState δ) (hs : D s.dev) :
    ∃ eid m new, ScanOutcome ops D mixer grp s (exec (addControls ops mixer grp) s) eid m new := by
  have hd₁ := hL {} s.dev hs
  have hd₂ := hL (secondList s.grp.count (ops.elemList {} s.dev).2.1) _ hd₁
  rcases addControls_cases ops mixer grp s with ⟨new, h⟩ | ⟨s₂, head, hentry, hexec⟩
  · -- an early exit leaves the group alone, but for the size of its array
    have hdev : D (exec (addControls ops mixer grp) s).2.dev := by
      rcases h.dev with h | h <;> rw [h] <;> assumption
    refine ⟨_, _, new, h.untouched.outcome hdev h.calls h.quiet (h.ret.imp And.left And.left) ?_ ?_ ?_⟩
    · rintro ⟨c, hc, hf⟩
      rcases h.ret with ⟨-, hnone, -⟩ | ⟨hret, -⟩
      · exact absurd hf (hnone c hc)
      · exact hret
    · intro hret h0
      rcases h.ret with ⟨hz, -⟩ | ⟨-, hf | hlt⟩
      · exact absurd (hz.symm.trans hret) (by decide)
      · exact hf
      · rw [h0] at hlt
        exact absurd hlt UInt32.not_lt_zero
    · intro hret
      rcases h.ret with ⟨-, -, heq⟩ | ⟨hneg, -⟩
      · exact heq
      · exact absurd (hneg.symm.trans hret) (by decide)
  · -- the new controls are described one by one
    have hcount : s₂.grp.count = s.grp.count := by rw [hentry.grp]
    rw [hexec]
    obtain ⟨m, new, h⟩ := describeControls_spec mixer grp hI
      (ops.elemList (secondList s.grp.count (ops.elemList {} s.dev).2.1) (ops.elemList {} s.dev).2.2).2.1.pids
      (ops.elemList {} s.dev).2.1.count (s := s₂) (by rw [hentry.dev]; exact hd₂) (by rw [hcount]; exact hentry.more.le)
    generalize exec (describeControls ops mixer grp _ _) s₂ = r at *
    have hkept : ∀ i, i < s.grp.count.toNat → s₂.grp.ctl i = s.grp.ctl i := by
      intro i hi
      rw [hentry.grp]
      exact if_pos hi
    refine ⟨_, m, new ++ head, ⟨h.dev, ?_, ?_, h.count, ?_, ?_, ?_, ?_⟩, ?_, ?_,
      h.ret.imp And.left And.left, ?_, ?_, ?_,
      fun _ => h.bound, fun _ => hentry.listed, fun _ => ⟨_, hd₁, hentry.numbered, rfl⟩⟩
    · rw [h.kind, hentry.grp]
    · exact hcount ▸ h.grows
    · intro _
      rw [h.allocated, hentry.grp]
      exact h.bound
    · rw [h.total, hentry.total, hcount]
    · intro i hi
      rw [h.kept i (by rwa [hcount]), hkept i hi]
    · intro i h₁ h₂
      have hnew : s₂.grp.ctl i = {} := by
        rw [hentry.grp]
        exact if_neg (Nat.not_lt.2 h₁)
      have hadded := h.added i (by rwa [hcount]) h₂
      rwa [hnew, hcount] at hadded
    · rw [h.calls, hentry.calls, List.append_assoc]
    · rw [List.countP_append, h.described, hcount, List.countP_eq_zero.2 (by simpa using hentry.quiet), Nat.add_zero]
    · rintro ⟨c, hc, hf⟩
      rcases h.ret with ⟨-, -, hnew⟩ | ⟨hret, -⟩
      · rcases List.mem_append.1 hc with hc | hc
        · exact absurd hf (hnew c hc)
        · exact absurd hf (hentry.succeeds c hc)
      · exact hret
    · intro hret _
      rcases h.ret with ⟨h0, -⟩ | ⟨-, c, hc, hf⟩
      · exact absurd (h0.symm.trans hret) (by decide)
      · exact ⟨c, List.mem_append_left _ hc, hf⟩
    · intro h0
      rcases h.ret with ⟨-, hm, -⟩ | ⟨hret, -⟩
      · exact hm
      · exact absurd (hret.symm.trans h0) (by decide)

end

end Tinyalsa
