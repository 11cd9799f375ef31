/-
The representation invariant of a mixer and the account of what it holds: one lemma a function of
the life of a mixer on what it does, then what scanning and setting up a group make of both.
-/
import Tinyalsa.Mixer.Life

namespace Tinyalsa

open Hoare

/-! ## Execution -/

section

variable {η π : Type} {b : MixBackends η π} {w : MixWorld η π} {k : GrpKind} {a : Addr}

@[simp] theorem exec_logMix (e : MixEvent) : exec (logMix e) w = ((), { w with log := e :: w.log }) := (rfl)

@[simp] theorem exec_modifyMixer (f : Mixer → Mixer) :
    exec (modifyMixer f) w = ((), { w with mixer := f w.mixer }) := (rfl)

@[simp] theorem exec_mixAlloc : exec (mixAlloc (η := η) (π := π)) w =
    (w.alloc 0, { w with alloc := fun i => w.alloc (i + 1) }) := (rfl)

theorem exec_callocGrp : exec (callocGrp (η := η) (π := π) k) w =
    if w.alloc 0 then
      (w.next, { w with
        alloc := fun i => w.alloc (i + 1)
        heap := Function.update w.heap w.next (some { kind := k })
        next := w.next + 1
        log := .grpAlloc w.next :: w.log })
    else (0, { w with alloc := fun i => w.alloc (i + 1) }) := by
  simp only [callocGrp, exec_bind, exec_mixAlloc, exec_ite, exec_get, exec_set, exec_logMix, exec_pure]

theorem exec_derefGrp {g : MixerCtlGroup} (h : w.heap a = some g) : exec (derefGrp a) w = (g, w) := by
  simp only [derefGrp, exec_bind, exec_get, h, exec_pure]

theorem exec_derefGrp_none (h : w.heap a = none) :
    exec (derefGrp a) w = ({ kind := .hw }, { w with fault := true }) := by
  simp only [derefGrp, exec_bind, exec_get, h, exec_modify, exec_pure]

theorem exec_freeGrp {g : MixerCtlGroup} (h : w.heap a = some g) :
    exec (freeGrp a) w =
      ((), { w with heap := Function.update w.heap a none, log := .grpFree a :: w.log }) := by
  simp only [freeGrp, exec_bind, exec_derefGrp h, exec_modify, exec_logMix]

/-- Opening a device changes only the device, whether the backend is open, and the log. -/
theorem exec_openDev : ∃ ret d₁ d₂, exec (openDev b k) w =
    (ret, if ret < 0 then { w with hw := d₁, plug := d₂ }
      else { w with hw := d₁, plug := d₂, isOpen := Function.update w.isOpen k true, log := .opened k :: w.log }) := by
  cases k
  · refine ⟨(b.hw.openDev w.hw).1, (b.hw.openDev w.hw).2, w.plug, ?_⟩
    simp only [openDev, exec_bind, exec_get, exec_set, exec_ite, exec_modify, exec_logMix, exec_pure]
    split <;> rfl
  · refine ⟨(b.plug.openDev w.plug).1, w.hw, (b.plug.openDev w.plug).2, ?_⟩
    simp only [openDev, exec_bind, exec_get, exec_set, exec_ite, exec_modify, exec_logMix, exec_pure]
    split <;> rfl

theorem exec_closeDev : ∃ d₁ d₂, exec (closeDev b k) w =
    ((), { w with
      hw := d₁
      plug := d₂
      fault := w.fault || !w.isOpen k
      isOpen := Function.update w.isOpen k false
      log := .closed k :: w.log }) := by
  cases k
  · exact ⟨b.hw.closeDev w.hw, w.plug, rfl⟩
  · exact ⟨w.hw, b.plug.closeDev w.plug, rfl⟩

theorem exec_ioctlCardInfo : ∃ ret d₁ d₂, exec (ioctlCardInfo b k) w =
    (ret, { w with hw := d₁, plug := d₂, log := .cardInfo k ret :: w.log }) := by
  cases k
  · exact ⟨(b.hw.cardInfo w.hw).1, (b.hw.cardInfo w.hw).2, w.plug, rfl⟩
  · exact ⟨(b.plug.cardInfo w.plug).1, w.hw, (b.plug.cardInfo w.plug).2, rfl⟩

theorem exec_addControlsTo_hw {g : MixerCtlGroup} (h : w.heap a = some g) (hk : g.kind = .hw) :
    exec (addControlsTo b a) w =
      ((exec (addControls b.hw w.self a) (scanState w.hw g w)).1,
        { scanned .hw a (exec (addControls b.hw w.self a) (scanState w.hw g w)).2 w with
          hw := (exec (addControls b.hw w.self a) (scanState w.hw g w)).2.dev }) := by
  simp only [addControlsTo, exec_bind, exec_derefGrp h, exec_get, hk, exec_set, exec_pure]

theorem exec_addControlsTo_plug {g : MixerCtlGroup} (h : w.heap a = some g) (hk : g.kind = .plug) :
    exec (addControlsTo b a) w =
      ((exec (addControls b.plug w.self a) (scanState w.plug g w)).1,
        { scanned .plug a (exec (addControls b.plug w.self a) (scanState w.plug g w)).2 w with
          plug := (exec (addControls b.plug w.self a) (scanState w.plug g w)).2.dev }) := by
  simp only [addControlsTo, exec_bind, exec_derefGrp h, exec_get, hk, exec_set, exec_pure]

/-- What a scan makes of the group `g` at `a` of the mixer at `mixer`. -/
structure GroupGrows (mixer a : Addr) (g g' : MixerCtlGroup) (ret : Int) (calls : List ScanCall) : Prop where
  kind : g'.kind = g.kind
  grows : g.count.toNat ≤ g'.count.toNat
  fits : g.count.toNat ≤ g.allocated → g'.count.toNat ≤ g'.allocated
  kept : ∀ i, i < g.count.toNat → g'.ctl i = g.ctl i
  linked : ∀ i, g.count.toNat ≤ i → i < g'.count.toNat → (g'.ctl i).mixer = mixer ∧ (g'.ctl i).grp = a
  described : calls.countP ScanCall.describes = g'.count.toNat - g.count.toNat
  result : ret = 0 ∨ ret = -1
  fails : (∃ c ∈ calls, c.fails) → ret = -1
  failed : ret = -1 → g.count = 0 → ∃ c ∈ calls, c.fails

theorem groupGrows {δ : Type} (ops : MixerOps δ) (self a : Addr) {s : ScanState δ} (hc : s.calls = []) :
    GroupGrows self a s.grp (exec (addControls ops self a) s).2.grp (exec (addControls ops self a) s).1
        (exec (addControls ops self a) s).2.calls ∧
      (exec (addControls ops self a) s).2.totalCount =
        s.totalCount + ((exec (addControls ops self a) s).2.grp.count - s.grp.count) := by
  obtain ⟨eid, m, new, h⟩ := addControls_spec (D := fun _ => True) ops self a
    (fun _ _ _ => trivial) (fun _ _ _ => trivial) s trivial
  have hcalls : (exec (addControls ops self a) s).2.calls = new := by rw [h.calls, hc, List.append_nil]
  refine ⟨⟨h.spec.kind, ?_, fun hf => ?_, h.spec.kept, fun i h₁ h₂ => ?_, ?_, h.ret, ?_, ?_⟩, h.spec.total⟩
  · rw [h.spec.count]; exact h.spec.grows
  · rw [h.spec.count]; exact h.spec.fits hf
  · rw [h.spec.count] at h₂
    obtain ⟨d, -, -, hctl⟩ := h.spec.added i h₁ h₂
    rw [hctl]; exact ⟨rfl, rfl⟩
  · rw [hcalls, h.spec.count]; exact h.described
  · rw [hcalls]; exact h.fails
  · rw [hcalls]; exact h.failed

/-- A scan changes one group, the total count, and the devices. -/
theorem exec_addControlsTo {g : MixerCtlGroup} (h : w.heap a = some g) :
    ∃ ret d₁ d₂ al g' calls, GroupGrows w.self a g g' ret calls ∧
      exec (addControlsTo b a) w = (ret, { w with
        hw := d₁
        plug := d₂
        alloc := al
        mixer := { w.mixer with totalCount := w.mixer.totalCount + (g'.count - g.count) }
        heap := Function.update w.heap a (some g')
        log := calls.map (.scan g.kind) ++ w.log }) := by
  cases hk : g.kind
  · obtain ⟨hg, ht⟩ := groupGrows b.hw w.self a (s := scanState w.hw g w) rfl
    refine ⟨_, (exec (addControls b.hw w.self a) (scanState w.hw g w)).2.dev, w.plug,
      (exec (addControls b.hw w.self a) (scanState w.hw g w)).2.alloc, _, _, hg, ?_⟩
    rw [exec_addControlsTo_hw h hk, scanned, ht]
    rfl
  · obtain ⟨hg, ht⟩ := groupGrows b.plug w.self a (s := scanState w.plug g w) rfl
    refine ⟨_, w.hw, (exec (addControls b.plug w.self a) (scanState w.plug g w)).2.dev,
      (exec (addControls b.plug w.self a) (scanState w.plug g w)).2.alloc, _, _, hg, ?_⟩
    rw [exec_addControlsTo_plug h hk, scanned, ht]
    rfl

end

/-! ## The representation invariant -/

/-- The group pointer of a kind. -/
def Mixer.ptr (m : Mixer) : GrpKind → Addr
  | .hw => m.hGrp
  | .plug => m.vGrp

/-- `mixer_grp_get_count`. -/
def mixerGrpGetCount (heap : Addr → Option MixerCtlGroup) (grp : Addr) : UInt32 :=
  if grp = 0 then 0 else (heap grp).elim 0 MixerCtlGroup.count

section

variable {η π : Type}

/-- A live group of kind `k` at `a`: its backend is open, and its controls point back to it. -/
def LiveGrp (w : MixWorld η π) (k : GrpKind) (a : Addr) : Prop :=
  ∃ g, w.heap a = some g ∧ g.kind = k ∧ w.isOpen k = true ∧ g.count.toNat ≤ g.allocated ∧
    ∀ i, i < g.count.toNat → (g.ctl i).mixer = w.self ∧ (g.ctl i).grp = a

/-- Both group pointers are `NULL` or live, and the total count is what an `unsigned int` keeps of the sum of their
counts. -/
structure MixerInv (w : MixWorld η π) : Prop where
  live : ∀ k, w.mixer.ptr k = 0 ∨ LiveGrp w k (w.mixer.ptr k)
  total : w.mixer.totalCount =
    mixerGrpGetCount w.heap w.mixer.hGrp + mixerGrpGetCount w.heap w.mixer.vGrp

/-- Every backend opened was closed once, every group allocated was freed once. -/
structure Balanced (w : MixWorld η π) : Prop where
  backends : ∀ k, w.log.count (.closed k) = w.log.count (.opened k)
  groups : ∀ a, w.log.count (.grpFree a) = w.log.count (.grpAlloc a)
  backendsOnce : ∀ k, w.log.count (.opened k) ≤ 1
  groupsOnce : ∀ a, w.log.count (.grpAlloc a) ≤ 1

/-- What is open and allocated is what the pointers of the mixer hold, but for `leak` hardware devices. -/
structure Accounts (leak : Nat) (w : MixWorld η π) : Prop where
  fault : w.fault = false
  backends : ∀ k, w.log.count (.opened k) =
    w.log.count (.closed k) + (if w.mixer.ptr k = 0 then 0 else 1) + if k = .hw then leak else 0
  groups : ∀ a, w.log.count (.grpAlloc a) =
    w.log.count (.grpFree a) + if a ≠ 0 ∧ (a = w.mixer.hGrp ∨ a = w.mixer.vGrp) then 1 else 0
  backendsOnce : ∀ k, w.log.count (.opened k) ≤ 1
  groupsOnce : ∀ a, w.log.count (.grpAlloc a) ≤ 1
  frontier : ∀ a, w.next ≤ a → w.log.count (.grpAlloc a) = 0
  below : ∀ k, w.mixer.ptr k < w.next
  fd : w.mixer.hGrp ≠ 0 → 0 ≤ w.mixer.fd

/-- The pointer of a kind is left to a group that was freed. -/
structure Dangling (w : MixWorld η π) (k : GrpKind) : Prop where
  ptr : w.mixer.ptr k ≠ 0
  freed : w.heap (w.mixer.ptr k) = none
  below : w.mixer.ptr k < w.next
  fd : k = .hw → 0 ≤ w.mixer.fd

/-- The counts of the two groups. -/
abbrev hCount (w : MixWorld η π) : Nat := (mixerGrpGetCount w.heap w.mixer.hGrp).toNat
abbrev vCount (w : MixWorld η π) : Nat := (mixerGrpGetCount w.heap w.mixer.vGrp).toNat

/-- A control of the backend `k` was described. -/
def MixEvent.describes (k : GrpKind) : MixEvent → Bool
  | .scan k' c => k' = k && c.describes
  | _ => false

/-- The number of controls that the backends have described. -/
def MixWorld.described (w : MixWorld η π) : Nat :=
  w.log.countP (MixEvent.describes .hw) + w.log.countP (MixEvent.describes .plug)

/-- Each group counts the controls that its backend has described. -/
def Tally (w : MixWorld η π) : Prop :=
  ∀ k, w.log.countP (MixEvent.describes k) = (mixerGrpGetCount w.heap (w.mixer.ptr k)).toNat

variable {leak : Nat} {w : MixWorld η π}

theorem MixerInv.toNat_total (hi : MixerInv w) : w.mixer.totalCount.toNat = (hCount w + vCount w) % 2 ^ 32 := by
  rw [hi.total, UInt32.toNat_add]

theorem Tally.described_eq (h : Tally w) : w.described = hCount w + vCount w := by
  rw [MixWorld.described, h, h]
  rfl

/-- The total count is the sum of the counts where it fits an `unsigned int`. -/
theorem MixerInv.total_exact_iff (hi : MixerInv w) (h : Tally w) :
    w.mixer.totalCount.toNat = hCount w + vCount w ↔ w.described < 2 ^ 32 := by
  rw [hi.toNat_total, h.described_eq]
  omega

/-- The two groups of a mixer are different ones. -/
theorem MixerInv.ptr_ne (h : MixerInv w) (k k' : GrpKind) (hk : k ≠ k') (hz : w.mixer.ptr k ≠ 0) :
    w.mixer.ptr k ≠ w.mixer.ptr k' := by
  intro heq
  rcases h.live k with h₁ | ⟨g, hg, hgk, -⟩
  · exact hz h₁
  rcases h.live k' with h₂ | ⟨g', hg', hgk', -⟩
  · exact hz (heq.trans h₂)
  · rw [heq, hg'] at hg
    exact hk (by rw [← hgk, ← hgk', Option.some.inj hg])

theorem MixerInv.not_dangling (h : MixerInv w) (k : GrpKind) : ¬ Dangling w k := by
  intro hd
  rcases h.live k with h₁ | ⟨g, hg, -⟩
  · exact hd.ptr h₁
  · rw [hd.freed] at hg; cases hg

/-- Neither invariant looks at the devices, the allocations to come, or the card info. -/
theorem MixerInv.irrel (h : MixerInv w) (d₁ : η) (d₂ : π) (al : Nat → Bool) (log : List MixEvent) (m : Mixer)
    (hp : m.ptr = w.mixer.ptr) (ht : m.totalCount = w.mixer.totalCount) :
    MixerInv { w with hw := d₁, plug := d₂, alloc := al, log, mixer := m } := by
  have h₁ : m.hGrp = w.mixer.hGrp := congrFun hp .hw
  have h₂ : m.vGrp = w.mixer.vGrp := congrFun hp .plug
  refine ⟨fun k => ?_, ?_⟩
  · simp only [hp]; exact h.live k
  · simp only [h₁, h₂, ht]; exact h.total

theorem mixerGrpGetCount_update (heap : Addr → Option MixerCtlGroup) {a : Addr} (ha : a ≠ 0) (g : MixerCtlGroup)
    (a' : Addr) :
    mixerGrpGetCount (Function.update heap a (some g)) a' = if a' = a then g.count else mixerGrpGetCount heap a' := by
  unfold mixerGrpGetCount
  split
  · rename_i hz
    rw [if_neg (by rintro rfl; exact ha hz)]
  · split
    · rename_i heq
      rw [heq, Function.update_self]; rfl
    · rename_i hne
      rw [Function.update_of_ne hne]

/-- The event opens, closes, allocates and frees nothing. -/
def MixEvent.quiet : MixEvent → Bool
  | .hwData _ | .cardInfo _ _ | .scan _ _ => true
  | _ => false

theorem Accounts.quiet {w' : MixWorld η π} (h : Accounts leak w) (new : List MixEvent) (hq : ∀ e ∈ new, e.quiet)
    (hlog : w'.log = new ++ w.log) (hptr : w'.mixer.ptr = w.mixer.ptr) (hf : w'.fault = w.fault)
    (hn : w'.next = w.next) (hfd : w'.mixer.fd = w.mixer.fd) : Accounts leak w' := by
  have hcount : ∀ e : MixEvent, e.quiet = false → w'.log.count e = w.log.count e := by
    intro e he
    rw [hlog, List.count_append, List.count_eq_zero_of_not_mem, Nat.zero_add]
    intro hm
    rw [hq e hm] at he
    cases he
  have h₁ : w'.mixer.hGrp = w.mixer.hGrp := congrFun hptr .hw
  have h₂ : w'.mixer.vGrp = w.mixer.vGrp := congrFun hptr .plug
  refine ⟨hf ▸ h.fault, fun k => ?_, fun a => ?_, fun k => ?_, fun a => ?_, fun a ha => ?_, fun k => ?_, fun hz => ?_⟩
  · rw [hcount _ rfl, hcount _ rfl, hptr]; exact h.backends k
  · rw [hcount _ rfl, hcount _ rfl, h₁, h₂]; exact h.groups a
  · rw [hcount _ rfl]; exact h.backendsOnce k
  · rw [hcount _ rfl]; exact h.groupsOnce a
  · rw [hcount _ rfl]; exact h.frontier a (hn ▸ ha)
  · rw [hptr, hn]; exact h.below k
  · rw [hfd]; exact h.fd (h₁ ▸ hz)

theorem scan_quiet (k : GrpKind) (calls : List ScanCall) : ∀ e ∈ calls.map (MixEvent.scan k), e.quiet := by
  intro e he
  obtain ⟨c, -, rfl⟩ := List.mem_map.1 he
  rfl

theorem countP_describes_scan (k k' : GrpKind) (calls : List ScanCall) :
    (calls.map (MixEvent.scan k)).countP (MixEvent.describes k') =
      if k' = k then calls.countP ScanCall.describes else 0 := by
  rw [List.countP_map]
  split
  · rename_i heq
    subst heq
    exact List.countP_congr fun c _ => by simp [MixEvent.describes]
  · rename_i hne
    rw [List.countP_eq_zero]
    intro c _
    simp [MixEvent.describes, Ne.symm hne]

/-- Events that describe nothing, and groups whose counts stay, keep the tally. -/
theorem Tally.frame {w' : MixWorld η π} (h : Tally w) (new : List MixEvent) (hlog : w'.log = new ++ w.log)
    (hnew : ∀ k, ∀ e ∈ new, e.describes k = false)
    (hcount : ∀ k, mixerGrpGetCount w'.heap (w'.mixer.ptr k) = mixerGrpGetCount w.heap (w.mixer.ptr k)) : Tally w' := by
  intro k
  have hzero : new.countP (MixEvent.describes k) = 0 := List.countP_eq_zero.2 fun e he => by simp [hnew k e he]
  rw [hlog, List.countP_append, hzero, Nat.zero_add, hcount, h k]

/-- What a scan from a sound mixer leaves. -/
structure ScanKeeps (leak : Nat) (w w' : MixWorld η π) (k : GrpKind) (ret : Int) (calls : List ScanCall) :
    Prop where
  inv : MixerInv w'
  accounts : Accounts leak w'
  ptr : w'.mixer.ptr = w.mixer.ptr
  fd : w'.mixer.fd = w.mixer.fd
  self : w'.self = w.self
  log : w'.log = calls.map (.scan k) ++ w.log
  result : ret = 0 ∨ ret = -1
  fails : (∃ c ∈ calls, c.fails) → ret = -1
  failed : ret = -1 → mixerGrpGetCount w.heap (w.mixer.ptr k) = 0 → ∃ c ∈ calls, c.fails
  tally : Tally w → Tally w'

/-- A group that grew keeps the invariant. -/
theorem MixerInv.grown (hi : MixerInv w) {k : GrpKind} (hk : w.mixer.ptr k ≠ 0) {g g' : MixerCtlGroup}
    (hg : w.heap (w.mixer.ptr k) = some g) {ret : Int} {calls : List ScanCall}
    (hgrow : GroupGrows w.self (w.mixer.ptr k) g g' ret calls) (d₁ : η) (d₂ : π) (al : Nat → Bool)
      (log : List MixEvent) :
    MixerInv { w with
      hw := d₁
      plug := d₂
      alloc := al
      mixer := { w.mixer with totalCount := w.mixer.totalCount + (g'.count - g.count) }
      heap := Function.update w.heap (w.mixer.ptr k) (some g')
      log } := by
  obtain ⟨g₀, hg₀, hgk, hopen, hfit, hlink⟩ := (hi.live k).resolve_left hk
  obtain rfl : g = g₀ := Option.some.inj (hg.symm.trans hg₀)
  refine ⟨fun k' => ?_, ?_⟩
  · rcases eq_or_ne k' k with rfl | hne
    · refine .inr ⟨g', ?_, hgrow.kind.trans hgk, hopen, hgrow.fits hfit, fun i hlt => ?_⟩
      · cases k' <;> exact Function.update_self ..
      · rcases Nat.lt_or_ge i g.count.toNat with hlt' | hge
        · rw [hgrow.kept i hlt']
          have := hlink i hlt'
          cases k' <;> exact this
        · have := hgrow.linked i hge hlt
          cases k' <;> exact this
    · -- the other group lies elsewhere
      rcases hi.live k' with hz | ⟨g₂, hg₂, hrest⟩
      · left
        cases k' <;> exact hz
      · have hptr := hi.ptr_ne _ _ hne.symm hk
        refine .inr ⟨g₂, ?_, ?_⟩
        · cases k' <;> exact (Function.update_of_ne (Ne.symm hptr) _ _).trans hg₂
        · cases k' <;> exact hrest
  · have hcount : mixerGrpGetCount w.heap (w.mixer.ptr k) = g.count := by rw [mixerGrpGetCount, if_neg hk, hg]; rfl
    have hne : ∀ k', k ≠ k' → w.mixer.ptr k' ≠ w.mixer.ptr k := fun k' h => (hi.ptr_ne _ _ h hk).symm
    cases k
    · have hv := hne .plug nofun
      simp only [Mixer.ptr] at hk hcount hv ⊢
      rw [mixerGrpGetCount_update _ hk, mixerGrpGetCount_update _ hk, if_pos rfl, if_neg hv, hi.total, hcount]
      grind
    · have hv := hne .hw nofun
      simp only [Mixer.ptr] at hk hcount hv ⊢
      rw [mixerGrpGetCount_update _ hk, mixerGrpGetCount_update _ hk, if_pos rfl, if_neg hv, hi.total, hcount]
      grind

/-- A scan counts the controls that it describes. -/
theorem Tally.grown (h : Tally w) (hi : MixerInv w) {k : GrpKind} (hk : w.mixer.ptr k ≠ 0) {g g' : MixerCtlGroup}
    (hg : w.heap (w.mixer.ptr k) = some g) {ret : Int} {calls : List ScanCall}
    (hgrow : GroupGrows w.self (w.mixer.ptr k) g g' ret calls) {w' : MixWorld η π} (hptr : w'.mixer.ptr = w.mixer.ptr)
    (hheap : w'.heap = Function.update w.heap (w.mixer.ptr k) (some g'))
      (hlog : w'.log = calls.map (.scan k) ++ w.log) :
    Tally w' := by
  intro k'
  rw [hlog, List.countP_append, countP_describes_scan, hgrow.described, hptr, hheap, mixerGrpGetCount_update _ hk, h k']
  rcases eq_or_ne k' k with rfl | hne
  · have hcount : mixerGrpGetCount w.heap (w.mixer.ptr k') = g.count := by rw [mixerGrpGetCount, if_neg hk, hg]; rfl
    rw [if_pos rfl, if_pos rfl, hcount]
    exact Nat.sub_add_cancel hgrow.grows
  · rw [if_neg hne, if_neg (hi.ptr_ne k k' hne.symm hk).symm, Nat.zero_add]

theorem addControlsTo_keeps (b : MixBackends η π) {k : GrpKind} (hi : MixerInv w) (ha : Accounts leak w)
    (hk : w.mixer.ptr k ≠ 0) :
    ∃ calls, ScanKeeps leak w (exec (addControlsTo b (w.mixer.ptr k)) w).2 k
      (exec (addControlsTo b (w.mixer.ptr k)) w).1 calls := by
  obtain ⟨g, hg, hgk, -⟩ := (hi.live k).resolve_left hk
  obtain ⟨ret, d₁, d₂, al, g', calls, hgrow, heq⟩ := exec_addControlsTo (b := b) hg
  rw [heq, hgk]
  have hptr : ({ w.mixer with totalCount := w.mixer.totalCount + (g'.count - g.count) } : Mixer).ptr = w.mixer.ptr := by
    funext k'; cases k' <;> rfl
  refine ⟨calls, hi.grown hk hg hgrow d₁ d₂ al _, ?_, hptr, rfl, rfl, rfl, hgrow.result, hgrow.fails, fun hr h0 => ?_,
    fun ht => ht.grown hi hk hg hgrow hptr rfl rfl⟩
  · exact ha.quiet _ (scan_quiet k calls) rfl hptr rfl rfl rfl
  · refine hgrow.failed hr ?_
    rw [mixerGrpGetCount, if_neg hk, hg] at h0
    exact h0

/-- The group of a kind was abandoned after it was published. -/
theorem mixerGrpAbandon_dangling (b : MixBackends η π) {k : GrpKind} (hi : MixerInv w) (ha : Accounts leak w)
    (hk : w.mixer.ptr k ≠ 0) (ret : Int) :
    (exec (mixerGrpAbandon b k (w.mixer.ptr k) ret) w).1 = ret ∧
      Dangling (exec (mixerGrpAbandon b k (w.mixer.ptr k) ret) w).2 k ∧
      (exec (mixerGrpAbandon b k (w.mixer.ptr k) ret) w).2.log =
        [.grpFree (w.mixer.ptr k), .closed k] ++ w.log := by
  obtain ⟨g, hg, -⟩ := (hi.live k).resolve_left hk
  obtain ⟨d₁, d₂, hclose⟩ := exec_closeDev (b := b) (w := w) (k := k)
  have hfree := exec_freeGrp (w := (exec (closeDev b k) w).2) (a := w.mixer.ptr k) (g := g) (by rw [hclose]; exact hg)
  rw [hclose] at hfree
  simp only [mixerGrpAbandon, exec_bind, hclose, hfree, exec_pure]
  exact ⟨trivial, ⟨hk, Function.update_self .., ha.below k, fun hhw => ha.fd (by subst hhw; exact hk)⟩, rfl⟩

/-- How the set-up of a published group ends: the group is filled, or it was abandoned behind its
pointer after a call failed. -/
inductive SetupOutcome (leak : Nat) (k : GrpKind) (w : MixWorld η π) (r : Int × MixWorld η π) (new : List MixEvent) :
    Prop
  | filled (ret : r.1 = 0) (log : r.2.log = new ++ w.log) (quiet : ∀ e ∈ new, e.quiet)
      (fails : ∀ e ∈ new, ¬ e.setupFails) (inv : MixerInv r.2) (accounts : Accounts leak r.2)
      (ptr : r.2.mixer.ptr = w.mixer.ptr) (tally : Tally w → Tally r.2)
  | abandoned (ret : r.1 < 0) (log : r.2.log = new ++ w.log) (fails : ∃ e ∈ new, e.setupFails)
    (dangling : Dangling r.2 k)

theorem mixerGrpFill_outcome (b : MixBackends η π) {k : GrpKind} (hi : MixerInv w) (ha : Accounts leak w)
    (hk : w.mixer.ptr k ≠ 0) (h0 : mixerGrpGetCount w.heap (w.mixer.ptr k) = 0) :
    ∃ new, SetupOutcome leak k w (exec (mixerGrpFill b k (w.mixer.ptr k)) w) new := by
  obtain ⟨calls, h⟩ := addControlsTo_keeps b hi ha hk
  simp only [mixerGrpFill, exec_bind, exec_ite, exec_pure]
  generalize exec (addControlsTo b (w.mixer.ptr k)) w = r at *
  obtain ⟨ret, w₁⟩ := r
  rcases h.result with rfl | rfl
  · refine ⟨calls.map (.scan k), .filled rfl h.log (scan_quiet k calls) ?_ h.inv h.accounts h.ptr h.tally⟩
    intro e he hf
    obtain ⟨c, hc, rfl⟩ := List.mem_map.1 he
    exact absurd (show (0 : Int) = -1 from h.fails ⟨c, hc, hf⟩) (by decide)
  · obtain ⟨c, hc, hf⟩ := h.failed rfl h0
    obtain ⟨hret, hdangling, hlog⟩ := mixerGrpAbandon_dangling b (k := k) h.inv h.accounts (h.ptr ▸ hk)
      (-1)
    rw [h.ptr] at hret hdangling hlog
    refine ⟨[.grpFree (w.mixer.ptr k), .closed k] ++ calls.map (.scan k), .abandoned ?_ ?_ ?_ hdangling⟩
    · rw [if_pos (show (-1 : Int) < 0 by decide), hret]; decide
    · rw [if_pos (show (-1 : Int) < 0 by decide), hlog, h.log, List.append_assoc]
    · exact ⟨.scan k c, List.mem_append_right _ (List.mem_map.2 ⟨c, hc, rfl⟩), hf⟩

theorem mixerGrpSetup_outcome (b : MixBackends η π) {k : GrpKind} (hi : MixerInv w) (ha : Accounts leak w)
    (hk : w.mixer.ptr k ≠ 0) (h0 : mixerGrpGetCount w.heap (w.mixer.ptr k) = 0) :
    ∃ new, SetupOutcome leak k w (exec (mixerGrpSetup b k (w.mixer.ptr k)) w) new := by
  simp only [mixerGrpSetup, exec_bind, exec_get, exec_ite]
  split
  · obtain ⟨ret, d₁, d₂, hcard⟩ := exec_ioctlCardInfo (b := b) (w := w) (k := k)
    rw [hcard]
    split
    · rename_i hret
      have hi₁ := hi.irrel d₁ d₂ w.alloc (.cardInfo k ret :: w.log) w.mixer rfl rfl
      have ha₁ : Accounts leak { w with hw := d₁, plug := d₂, log := .cardInfo k ret :: w.log } :=
        ha.quiet [.cardInfo k ret] (by simp [MixEvent.quiet]) rfl rfl rfl rfl rfl
      obtain ⟨hr, hdangling, hlog⟩ := mixerGrpAbandon_dangling b (k := k) hi₁ ha₁ hk ret
      refine ⟨[.grpFree (w.mixer.ptr k), .closed k, .cardInfo k ret], .abandoned ?_ ?_ ?_ hdangling⟩
      · rw [hr]; exact hret
      · rw [hlog]; rfl
      · exact ⟨.cardInfo k ret, by simp, decide_eq_true hret⟩
    · rename_i hret
      have hp : ({ w.mixer with isCardInfoRetrieved := true } : Mixer).ptr = w.mixer.ptr := by
        funext k'; cases k' <;> rfl
      have hi₁ := hi.irrel d₁ d₂ w.alloc (.cardInfo k ret :: w.log) { w.mixer with isCardInfoRetrieved := true } hp rfl
      have ha₁ : Accounts leak { w with
          hw := d₁
          plug := d₂
          log := .cardInfo k ret :: w.log
          mixer := { w.mixer with isCardInfoRetrieved := true } } :=
        ha.quiet [.cardInfo k ret] (by simp [MixEvent.quiet]) rfl hp rfl rfl rfl
      obtain ⟨new, hout⟩ := mixerGrpFill_outcome b (k := k) hi₁ ha₁ (by rw [hp]; exact hk) (by rw [hp]; exact h0)
      rw [hp] at hout
      refine ⟨new ++ [.cardInfo k ret], ?_⟩
      rcases hout with ⟨hr, hlog, hq, hnf, hi₂, ha₂, hptr, htally⟩ | ⟨hr, hlog, ⟨e, he, hf⟩, hd⟩
      · refine .filled hr (by rw [List.append_assoc]; exact hlog) ?_ ?_ hi₂ ha₂ (hptr.trans hp) fun ht => htally ?_
        · exact List.forall_mem_append.2 ⟨hq, by simp [MixEvent.quiet]⟩
        · exact List.forall_mem_append.2 ⟨hnf, by simpa [MixEvent.setupFails] using hret⟩
        · exact ht.frame [.cardInfo k ret] rfl (by simp [MixEvent.describes]) fun k' => by rw [hp]
      · exact .abandoned hr (by rw [List.append_assoc]; exact hlog) ⟨e, List.mem_append_left _ he, hf⟩ hd
  · exact mixerGrpFill_outcome b hi ha hk h0

/-- The world `w'` holds a new empty group for `k` whose backend was opened. -/
structure Publishes (k : GrpKind) (w w' : MixWorld η π) (new : List MixEvent) : Prop where
  heap : w'.heap = Function.update w.heap w.next (some { kind := k })
  next : w'.next = w.next + 1
  isOpen : w'.isOpen = Function.update w.isOpen k true
  self : w'.self = w.self
  fault : w'.fault = w.fault
  ptr : w'.mixer.ptr = Function.update w.mixer.ptr k w.next
  total : w'.mixer.totalCount = w.mixer.totalCount
  fd : w'.mixer.hGrp ≠ 0 → 0 ≤ w'.mixer.fd
  log : w'.log = new ++ .opened k :: .grpAlloc w.next :: w.log
  quiet : ∀ e ∈ new, e.quiet

theorem Publishes.inv {k : GrpKind} {w' : MixWorld η π} {new : List MixEvent} (h : Publishes k w w' new)
    (hi : MixerInv w) (ha : Accounts leak w) (hk : w.mixer.ptr k = 0) : MixerInv w' := by
  have hpos : w.next ≠ 0 := Nat.ne_of_gt (Nat.zero_lt_of_lt (ha.below k))
  refine ⟨fun k' => ?_, ?_⟩
  · rw [h.ptr]
    rcases eq_or_ne k' k with rfl | hne
    · rw [Function.update_self]
      exact .inr ⟨{ kind := k' }, by rw [h.heap, Function.update_self], rfl, by rw [h.isOpen, Function.update_self],
        le_rfl, fun i hlt => absurd hlt (Nat.not_lt_zero i)⟩
    · rw [Function.update_of_ne hne]
      rcases hi.live k' with hz | ⟨g, hg, hrest⟩
      · exact .inl hz
      · refine .inr ⟨g, ?_, ?_⟩
        · rw [h.heap, Function.update_of_ne (ha.below k').ne, hg]
        · rw [h.isOpen, Function.update_of_ne hne, h.self]; exact hrest
  · have hcnt := mixerGrpGetCount_update w.heap hpos { kind := k }
    have hbelow : ∀ k', w.mixer.ptr k' ≠ w.next := fun k' => (ha.below k').ne
    have hzero : mixerGrpGetCount w.heap 0 = 0 := rfl
    have hptr := h.ptr
    have h₁ : w'.mixer.hGrp = Function.update w.mixer.ptr k w.next .hw := congrFun hptr .hw
    have h₂ : w'.mixer.vGrp = Function.update w.mixer.ptr k w.next .plug := congrFun hptr .plug
    rw [h.total, h.heap, hcnt, hcnt, hi.total, h₁, h₂]
    cases k
    · have hv := hbelow .plug
      have hz : w.mixer.hGrp = 0 := hk
      simp [Mixer.ptr] at hv ⊢
      simp [hv, hz, hzero]
    · have hv := hbelow .hw
      have hz : w.mixer.vGrp = 0 := hk
      simp [Mixer.ptr] at hv ⊢
      simp [hv, hz, hzero]

theorem Publishes.accounts {k : GrpKind} {w' : MixWorld η π} {new : List MixEvent} (h : Publishes k w w' new)
    (ha : Accounts leak w) (hk : w.mixer.ptr k = 0) (ho : w.log.count (.opened k) = 0) : Accounts leak w' := by
  have hpos : w.next ≠ 0 := Nat.ne_of_gt (Nat.zero_lt_of_lt (ha.below k))
  -- of the new events only the opening and the allocation are counted
  have hcount : ∀ e : MixEvent, e.quiet = false →
      w'.log.count e = w.log.count e + (if .opened k = e ∨ .grpAlloc w.next = e then 1 else 0) := by
    intro e he
    have h0 : new.count e = 0 := List.count_eq_zero_of_not_mem fun hm => by rw [h.quiet e hm] at he; cases he
    rw [h.log, List.count_append, h0, Nat.zero_add, List.count_cons, List.count_cons]
    cases e <;> simp
  have hnew : w.log.count (.grpAlloc w.next) = 0 := ha.frontier _ le_rfl
  have hptr : ∀ k', w'.mixer.ptr k' = if k' = k then w.next else w.mixer.ptr k' := by
    intro k'
    rw [h.ptr, Function.update_apply]
  refine ⟨h.fault ▸ ha.fault, fun k' => ?_, fun a => ?_, fun k' => ?_, fun a => ?_, fun a hle => ?_, fun k' => ?_, h.fd⟩
  · rw [hcount _ rfl, hcount _ rfl, ha.backends k', hptr]
    rcases eq_or_ne k' k with rfl | hne
    · simp [hk, hpos]; omega
    · simp [hne, hne.symm]
  · rw [hcount _ rfl, hcount _ rfl, ha.groups a]
    have h₁ : w'.mixer.hGrp = if .hw = k then w.next else w.mixer.hGrp := hptr .hw
    have h₂ : w'.mixer.vGrp = if .plug = k then w.next else w.mixer.vGrp := hptr .plug
    have hh : w.mixer.hGrp < w.next := ha.below .hw
    have hv : w.mixer.vGrp < w.next := ha.below .plug
    rw [h₁, h₂]
    rcases eq_or_ne a w.next with rfl | hne
    · cases k <;> simp [hpos, hh.ne', hv.ne']
    · have hne' : w.next ≠ a := hne.symm
      rcases eq_or_ne a 0 with rfl | ha0
      · cases k <;> simp [hne']
      · cases k
        · have hz : w.mixer.hGrp = 0 := hk
          simp [hne, hne', ha0, hz]
        · have hz : w.mixer.vGrp = 0 := hk
          simp [hne, hne', ha0, hz]
  · rw [hcount _ rfl]
    rcases eq_or_ne k' k with rfl | hne
    · simp [ho]
    · simpa [hne.symm] using ha.backendsOnce k'
  · rw [hcount _ rfl]
    rcases eq_or_ne a w.next with rfl | hne
    · simp [hnew]
    · simpa [hne.symm] using ha.groupsOnce a
  · rw [h.next] at hle
    rw [hcount _ rfl, ha.frontier a (Nat.le_of_succ_le hle)]
    have : w.next ≠ a := Nat.ne_of_lt hle
    simp [this]
  · rw [hptr, h.next]
    split
    · exact Nat.lt_succ_self _
    · exact Nat.lt_succ_of_lt (ha.below k')

/-- The new group counts nothing yet. -/
theorem Publishes.tally {k : GrpKind} {w' : MixWorld η π} {new : List MixEvent} (h : Publishes k w w' new)
    (ha : Accounts leak w) (hk : w.mixer.ptr k = 0) (hnew : ∀ k, ∀ e ∈ new, e.describes k = false) (ht : Tally w) :
    Tally w' := by
  have hpos : w.next ≠ 0 := Nat.ne_of_gt (Nat.zero_lt_of_lt (ha.below k))
  refine ht.frame (new ++ [.opened k, .grpAlloc w.next]) (by simp [h.log]) (fun k' => ?_) fun k' => ?_
  · exact List.forall_mem_append.2 ⟨hnew k', by simp [MixEvent.describes]⟩
  · rw [h.heap, h.ptr, mixerGrpGetCount_update _ hpos]
    rcases eq_or_ne k' k with rfl | hne
    · rw [Function.update_self, if_pos rfl, hk]
      rfl
    · rw [Function.update_of_ne hne, if_neg (ha.below k').ne]

/-- A group that was allocated and freed again counts nothing. -/
theorem Tally.withdrawn {k : GrpKind} {w' : MixWorld η π} (ht : Tally w) (ha : Accounts leak w) (new : List MixEvent)
    (hlog : w'.log = new ++ w.log) (hnew : ∀ k, ∀ e ∈ new, e.describes k = false)
    (hheap : w'.heap = Function.update (Function.update w.heap w.next (some { kind := k })) w.next none)
    (hptr : w'.mixer.ptr = w.mixer.ptr) : Tally w' := by
  refine ht.frame new hlog hnew fun k' => ?_
  have hne : w.mixer.ptr k' ≠ w.next := (ha.below k').ne
  rw [hptr, hheap]
  unfold mixerGrpGetCount
  rw [Function.update_of_ne hne, Function.update_of_ne hne]

/-- The world `w'` differs from a sound one by a group that was allocated and freed again, and perhaps
by a device opened for it (`extra`) in the meantime. -/
theorem withdrawn (k : GrpKind) (extra : Nat) (mid : List MixEvent) (w' : MixWorld η π) (hi : MixerInv w)
    (ha : Accounts leak w)
    (hheap : w'.heap = Function.update (Function.update w.heap w.next (some { kind := k })) w.next none)
    (hnext : w'.next = w.next + 1) (hopen : ∀ k, w.mixer.ptr k ≠ 0 → w'.isOpen k = w.isOpen k)
    (hself : w'.self = w.self) (hfault : w'.fault = w.fault) (hptr : w'.mixer.ptr = w.mixer.ptr)
    (htotal : w'.mixer.totalCount = w.mixer.totalCount) (hfd : w'.mixer.hGrp ≠ 0 → 0 ≤ w'.mixer.fd)
    (hlog : w'.log = .grpFree w.next :: (mid ++ .grpAlloc w.next :: w.log))
    (hmid : ∀ e : MixEvent, e.quiet = false → mid.count e = if .opened .hw = e then extra else 0)
    (honce : w.log.count (.opened .hw) + extra ≤ 1) : MixerInv w' ∧ Accounts (leak + extra) w' := by
  have hkept : ∀ k', w'.heap (w.mixer.ptr k') = w.heap (w.mixer.ptr k') := fun k' => by
    rw [hheap, Function.update_of_ne (ha.below k').ne, Function.update_of_ne (ha.below k').ne]
  have h₁ : w'.mixer.hGrp = w.mixer.hGrp := congrFun hptr .hw
  have h₂ : w'.mixer.vGrp = w.mixer.vGrp := congrFun hptr .plug
  have hnew : w.log.count (.grpAlloc w.next) = 0 := ha.frontier _ le_rfl
  -- of the new events only the pair of the group and the extra openings are counted
  have hcount : ∀ e : MixEvent, e.quiet = false → w'.log.count e =
      w.log.count e + (if .opened .hw = e then extra else 0) +
        if .grpFree w.next = e ∨ .grpAlloc w.next = e then 1 else 0 := by
    intro e he
    rw [hlog, List.count_cons, List.count_append, List.count_cons, hmid e he]
    cases e <;> simp [Nat.add_comm]
  refine ⟨⟨fun k' => ?_, ?_⟩, hfault ▸ ha.fault, fun k' => ?_, fun a => ?_, fun k' => ?_, fun a => ?_,
    fun a hle => ?_, fun k' => ?_, hfd⟩
  · rw [hptr]
    rcases hi.live k' with hz | ⟨g, hg, hgk, ho, hrest⟩
    · exact .inl hz
    · rcases eq_or_ne (w.mixer.ptr k') 0 with hz | hz
      · exact .inl hz
      · exact .inr ⟨g, (hkept k').trans hg, hgk, (hopen k' hz).trans ho, by rw [hself]; exact hrest⟩
  · have hh := hkept .hw
    have hv := hkept .plug
    simp only [Mixer.ptr] at hh hv
    rw [htotal, hi.total, h₁, h₂, mixerGrpGetCount, mixerGrpGetCount, mixerGrpGetCount, mixerGrpGetCount, hh, hv]
  · rw [hcount _ rfl, hcount _ rfl, hptr, ha.backends k']
    cases k'
    · simp; omega
    · simp
  · rw [hcount _ rfl, hcount _ rfl, h₁, h₂, ha.groups a]
    rcases eq_or_ne w.next a with rfl | hne
    · simp; omega
    · simp [hne]
  · rw [hcount _ rfl]
    have := ha.backendsOnce k'
    cases k'
    · simpa using honce
    · simpa using this
  · rw [hcount _ rfl]
    rcases eq_or_ne w.next a with rfl | hne
    · simp [hnew]
    · simpa [hne] using ha.groupsOnce a
  · rw [hnext] at hle
    have hne : w.next ≠ a := Nat.ne_of_lt hle
    rw [hcount _ rfl]
    simpa [hne] using ha.frontier a (Nat.le_of_succ_le hle)
  · rw [hptr, hnext]
    exact Nat.lt_succ_of_lt (ha.below k')

end

end Tinyalsa
