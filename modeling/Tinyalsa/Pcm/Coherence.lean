/-
The two copies of the control block: the kernel's, and the one in `pcm->sync_ptr` where the pages
could not be mapped. The library's copy is only worth pushing while it is fresh: read back after the
last call that changed the kernel's behind it.
-/
import Tinyalsa.Pcm.Frame
import Tinyalsa.Pcm.Kernel

namespace Tinyalsa

open Hoare

/-! ## Pulls, pushes and changes -/

namespace PcmCall

/-- An accepted `SYNC_PTR` that only reads the kernel's block. -/
def pulls : PcmCall → Bool
  | .syncPtr f ret _ _ => 0 ≤ ret && (f.appl && f.availMin)
  | _ => false

/-- An accepted `SYNC_PTR` that writes to the kernel's block. -/
def pushes : PcmCall → Bool
  | .syncPtr f ret _ _ => 0 ≤ ret && !(f.appl && f.availMin)
  | _ => false

/-- A call that changes the kernel's block behind the library's copy. -/
def changesBlock : PcmCall → Bool
  | .swParams _ ret => ret = 0
  | .cmd .prepare ret => 0 ≤ ret
  | .xfer _ _ _ => true
  | _ => false

/-- An entry of the trace that neither touches the kernel's block nor moves the pointer. -/
def inert : PcmCall → Bool
  | .swParams _ ret => ret ≠ 0
  | .cmd .prepare ret => ret < 0
  | .syncPtr _ ret before after => ret < 0 && before = after
  | .xfer _ _ _ | .forward _ _ => false
  | _ => true

end PcmCall

/-- The library's copy was read from the kernel after the last change behind it. -/
def CopyFresh : List PcmCall → Bool
  | [] => false
  | c :: l => c.pulls || !c.changesBlock && CopyFresh l

/-- Every push was made with a fresh copy. -/
def PushesFresh : List PcmCall → Prop
  | [] => True
  | c :: l => (c.pushes → CopyFresh l) ∧ PushesFresh l

/-- The moves of the application pointer since the last accepted `SYNC_PTR`, newest first. -/
def pendingMoves : List PcmCall → List (Int × UInt64)
  | [] => []
  | .forward frames boundary :: l => (frames, boundary) :: pendingMoves l
  | c :: l => if c.pulls || c.pushes then [] else pendingMoves l

/-- An application pointer after such moves. -/
def advance (applPtr : UInt64) (moves : List (Int × UInt64)) : UInt64 :=
  moves.foldr (fun m a => applForward m.2 a m.1) applPtr

instance decidablePushesFresh : ∀ l, Decidable (PushesFresh l)
  | [] => isTrue trivial
  | c :: l =>
    have := decidablePushesFresh l
    inferInstanceAs (Decidable ((c.pushes → CopyFresh l) ∧ PushesFresh l))

/-- Every `SYNC_PTR` left the kernel's `avail_min` as it was, and changed its `appl_ptr` by the frames
committed since the last one, or not at all. -/
def SyncsKeep : List PcmCall → Prop
  | [] => True
  | .syncPtr f ret before after :: l =>
    after.availMin = before.availMin ∧
      after.applPtr = (if 0 ≤ ret ∧ !f.appl then advance before.applPtr (pendingMoves l) else before.applPtr) ∧
      SyncsKeep l
  | _ :: l => SyncsKeep l

/-- The parameters of the last accepted `SW_PARAMS`. -/
def lastSwParams : List PcmCall → Option SndPcmSwParams
  | [] => none
  | .swParams p ret :: l => if ret = 0 then some p else lastSwParams l
  | _ :: l => lastSwParams l

/-- Inert entries leave everything the trace says about the block as it was. -/
theorem inert_cons {c : PcmCall} (hc : c.inert) (l : List PcmCall) :
    (PushesFresh (c :: l) → PushesFresh l) ∧ CopyFresh (c :: l) = CopyFresh l ∧
      pendingMoves (c :: l) = pendingMoves l ∧ (SyncsKeep l → SyncsKeep (c :: l)) ∧
      lastSwParams (c :: l) = lastSwParams l := by
  refine ⟨fun h => h.2, ?_⟩
  cases c with
  | swParams p ret =>
    have hne : ret ≠ 0 := by simpa [PcmCall.inert] using hc
    exact ⟨by simp [CopyFresh, PcmCall.pulls, PcmCall.changesBlock, hne], rfl, id, by simp [lastSwParams, hne]⟩
  | cmd c ret =>
    refine ⟨?_, rfl, id, rfl⟩
    cases c with
    | prepare =>
      have hneg : ret < 0 := by simpa [PcmCall.inert] using hc
      simp [CopyFresh, PcmCall.pulls, PcmCall.changesBlock, hneg]
    | _ => rfl
  | syncPtr f ret before after =>
    obtain ⟨hneg, heq⟩ : ret < 0 ∧ before = after := by simpa [PcmCall.inert] using hc
    have hnot : ¬ 0 ≤ ret := by omega
    refine ⟨by simp [CopyFresh, PcmCall.pulls, PcmCall.changesBlock, hnot], ?_, fun h => ⟨?_, ?_, h⟩, rfl⟩
    · simp [pendingMoves, PcmCall.pulls, PcmCall.pushes, hnot]
    · rw [heq]
    · simp [hnot, heq]
  | xfer n ret result => cases hc
  | forward n b => cases hc
  | _ => exact ⟨rfl, rfl, id, rfl⟩

/-! ## The invariant -/

/-- The control block in `pcm->sync_ptr`, where there is one. -/
def Pcm.controlCopy (pcm : Pcm) : Option SndPcmMmapControl := pcm.syncPtr.map (·.control)

section

variable {σ : Type} {ops : PcmOps σ}

/-- The kernel's block holds what it should, and a fresh copy agrees with it but for the frames that
are still to be pushed. -/
structure BlockKept (ops : PcmOps σ) (w : World σ) : Prop where
  availMin : ∀ p, lastSwParams w.trace = some p → (ops.control w.dev).availMin = p.availMin
  pushes : SyncsKeep w.trace
  applPtr : ∀ c, w.pcm.controlCopy = some c → CopyFresh w.trace →
    c.applPtr = advance (ops.control w.dev).applPtr (pendingMoves w.trace)
  copyMin : ∀ c, w.pcm.controlCopy = some c → CopyFresh w.trace → c.availMin = (ops.control w.dev).availMin

/-- As long as every push is fresh, the block is kept. -/
def KeptWhileFresh (ops : PcmOps σ) (w : World σ) : Prop := PushesFresh w.trace → BlockKept ops w

namespace KeptWhileFresh

variable {w w' : World σ} (h : KeptWhileFresh ops w)

include h

/-- A step that leaves the trace, the library's copy and the kernel's block alone. -/
theorem same (ht : w'.trace = w.trace) (hs : w'.pcm.controlCopy = w.pcm.controlCopy)
    (hc : ops.control w'.dev = ops.control w.dev) : KeptWhileFresh ops w' := by
  intro hf
  rw [ht] at hf
  have hk := h hf
  refine ⟨?_, ?_, ?_, ?_⟩
  · rw [ht, hc]; exact hk.availMin
  · rw [ht]; exact hk.pushes
  · rw [ht, hc, hs]; exact hk.applPtr
  · rw [ht, hc, hs]; exact hk.copyMin

/-- A step that adds an inert entry. -/
theorem inert {c : PcmCall} (hc : c.inert) (ht : w'.trace = c :: w.trace)
    (hs : w'.pcm.controlCopy = w.pcm.controlCopy) (hd : ops.control w'.dev = ops.control w.dev) :
    KeptWhileFresh ops w' := by
  obtain ⟨hpf, hcf, hpm, hpc, hls⟩ := inert_cons hc w.trace
  intro hf
  rw [ht] at hf
  have hk := h (hpf hf)
  refine ⟨?_, ?_, ?_, ?_⟩
  · rw [ht, hls, hd]; exact hk.availMin
  · rw [ht]; exact hpc hk.pushes
  · rw [ht, hcf, hpm, hs, hd]; exact hk.applPtr
  · rw [ht, hcf, hs, hd]; exact hk.copyMin

/-- A step that changes the block behind the copy: nothing is claimed of the copy until the next pull,
so only the kernel's `avail_min` is to be shown. -/
theorem changed {c : PcmCall} (hc : c.changesBlock) (ht : w'.trace = c :: w.trace)
    (hm : (∀ p, lastSwParams w.trace = some p → (ops.control w.dev).availMin = p.availMin) →
      ∀ p, lastSwParams (c :: w.trace) = some p → (ops.control w'.dev).availMin = p.availMin) :
    KeptWhileFresh ops w' := by
  intro hf
  rw [ht] at hf
  have hk := h hf.2
  obtain ⟨hstale, hpc⟩ : CopyFresh (c :: w.trace) = false ∧ SyncsKeep (c :: w.trace) := by
    cases c with
    | swParams p ret => exact ⟨by simp [CopyFresh, PcmCall.pulls, hc], hk.pushes⟩
    | cmd c ret => exact ⟨by simp [CopyFresh, PcmCall.pulls, hc], hk.pushes⟩
    | xfer n ret result => exact ⟨rfl, hk.pushes⟩
    | _ => cases hc
  refine ⟨by rw [ht]; exact hm hk.availMin, by rw [ht]; exact hpc, fun _ _ hfresh => ?_, fun _ _ hfresh => ?_⟩
  · rw [ht, hstale] at hfresh; cases hfresh
  · rw [ht, hstale] at hfresh; cases hfresh

/-- An accepted `SYNC_PTR`. One that pulls takes the kernel's block; one that pushes brings a copy that
was fresh. -/
theorem accepted {f : SyncFlags} {ret : Int} (hret : 0 ≤ ret) {lib : SndPcmMmapControl}
    (hlib : w.pcm.controlCopy = some lib)
    (ht : w'.trace = .syncPtr f ret (ops.control w.dev) (ops.control w'.dev) :: w.trace)
    (hs : w'.pcm.controlCopy = some (ops.control w'.dev))
    (hd : ops.control w'.dev = exchanged f lib (ops.control w.dev)) : KeptWhileFresh ops w' := by
  intro hf
  rw [ht] at hf
  have hk := h hf.2
  have hfresh : ¬ (f.appl ∧ f.availMin) → CopyFresh w.trace := by
    intro hpush
    refine hf.1 ?_
    rcases f with ⟨_, _ | _, _ | _⟩ <;> simp_all [PcmCall.pushes]
  have hpend : pendingMoves w'.trace = [] := by
    rw [ht]
    rcases f with ⟨_, _ | _, _ | _⟩ <;> simp [pendingMoves, PcmCall.pulls, PcmCall.pushes, hret]
  have hmin : (ops.control w'.dev).availMin = (ops.control w.dev).availMin := by
    rw [hd]
    by_cases hm : f.availMin
    · simp [exchanged, hm]
    · simpa [exchanged, hm] using hk.copyMin lib hlib (hfresh fun hall => hm hall.2)
  refine ⟨?_, ?_, ?_, ?_⟩
  · rw [ht, hmin]
    exact hk.availMin
  · rw [ht]
    refine ⟨hmin, ?_, hk.pushes⟩
    rw [hd]
    by_cases ha : f.appl
    · simp [exchanged, ha]
    · simpa [exchanged, ha, hret] using hk.applPtr lib hlib (hfresh fun hall => ha hall.1)
  · rintro c hc -
    rw [hs] at hc
    rw [hpend, ← Option.some.inj hc]
    rfl
  · rintro c hc -
    rw [hs] at hc
    rw [← Option.some.inj hc]

end KeptWhileFresh

/-- Every call keeps it. -/
theorem ControlLaws.keptWhileFresh (hl : ControlLaws ops) : PcmInvariant ops (KeptWhileFresh ops) where
  handle w p hp h := h.same rfl (congrArg (Option.map _) hp) rfl
  caller w user fault errno h := h.same rfl rfl rfl
  run w h := h.same rfl rfl (hl.run _)
  setBuffer w b h := h.same rfl rfl (hl.setBuffer _ _)
  cmd w c h := by
    rw [exec_ioctl]
    by_cases hc : c = .prepare
    · subst hc
      rcases lt_or_ge (ops.cmd .prepare w.dev).1.ret 0 with hneg | hpos
      · exact h.inert (c := .cmd .prepare _) (by simpa [PcmCall.inert] using hneg) rfl rfl (hl.prepareFails _ hneg)
      · refine h.changed (c := .cmd .prepare _) (by simpa [PcmCall.changesBlock] using hpos) rfl fun hm p hp => ?_
        exact (hl.prepare _).trans (hm p hp)
    · refine h.inert (c := .cmd c _) ?_ rfl rfl (hl.cmd _ _ hc)
      cases c with
      | prepare => exact absurd rfl hc
      | _ => rfl
  sync w s flags hs h := by
    rw [exec_ioctlSyncPtr]
    have hcopy : w.pcm.controlCopy = some s.control := by rw [Pcm.controlCopy, hs]; rfl
    rcases lt_or_ge (ops.syncPtr { s with flags } w.dev).1.ret 0 with hneg | hpos
    · obtain ⟨hctl, hkept⟩ := hl.syncPtrFails _ _ hneg
      refine h.inert (c := .syncPtr flags _ _ _) ?_ rfl ?_ hctl
      · simpa [PcmCall.inert, hctl] using hneg
      · rw [hcopy]
        exact congrArg (fun s => some s.control) hkept
    · obtain ⟨hctl, hnew⟩ := hl.syncPtr _ _ hpos
      exact h.accepted hpos hcopy rfl (congrArg some hnew) hctl
  forward w frames h := by
    have ht := pcmMmapApplForward_trace ops frames w
    have hcons : ∀ {w' : World σ} {boundary : UInt64}, w'.trace = .forward frames boundary :: w.trace →
        PushesFresh w'.trace → BlockKept ops w := fun ht hf => h (by rw [ht] at hf; exact hf.2)
    cases hs : w.pcm.syncPtr with
    | none =>
      -- the pointer lies in the mapped page: there is no copy to go stale
      have hnone : (exec (pcmMmapApplForward ops frames) w).2.pcm.controlCopy = none := by
        simp [pcmMmapApplForward, mmapControl, setApplPtr, hs, Pcm.controlCopy]
      have hmin : (ops.control (exec (pcmMmapApplForward ops frames) w).2.dev).availMin =
        (ops.control w.dev).availMin := by
        simp [pcmMmapApplForward, mmapControl, setApplPtr, hs, hl.setControl, hl.run]
      intro hf
      have hk := hcons ht hf
      refine ⟨by rw [ht, hmin]; exact hk.availMin, by rw [ht]; exact hk.pushes, fun c hc => ?_, fun c hc => ?_⟩
      · rw [hnone] at hc; cases hc
      · rw [hnone] at hc; cases hc
    | some s =>
      -- the copy moves alone, and the trace has the move that is pending
      have hcopy : (exec (pcmMmapApplForward ops frames) w).2.pcm.controlCopy =
          some { s.control with applPtr := applForward w.pcm.boundary s.control.applPtr frames } := by
        simp [pcmMmapApplForward, mmapControl, setApplPtr, hs, Pcm.controlCopy]
      have hdev : (exec (pcmMmapApplForward ops frames) w).2.dev = w.dev := by
        simp [pcmMmapApplForward, mmapControl, setApplPtr, hs]
      have hold : w.pcm.controlCopy = some s.control := by rw [Pcm.controlCopy, hs]; rfl
      intro hf
      have hk := hcons ht hf
      refine ⟨by rw [ht, hdev]; exact hk.availMin, by rw [ht]; exact hk.pushes, fun c hc hfresh => ?_,
        fun c hc hfresh => ?_⟩
      · rw [hcopy] at hc
        rw [ht] at hfresh ⊢
        rw [← Option.some.inj hc, hdev, pendingMoves, advance, List.foldr_cons]
        exact congrArg (applForward w.pcm.boundary · frames) (hk.applPtr _ hold hfresh)
      · rw [hcopy] at hc
        rw [ht] at hfresh
        rw [← Option.some.inj hc, hdev]
        exact hk.copyMin s.control hold hfresh
  hwParams w p h := by
    rw [exec_ioctlHwParams]
    exact h.inert (c := .hwParams p _) rfl rfl rfl (hl.hwParams _ _)
  swParams w p h := by
    rw [exec_ioctlSwParams]
    by_cases hret : (ops.swParams p w.dev).1.ret = 0
    · refine h.changed (c := .swParams p _) (by simpa [PcmCall.changesBlock] using hret) rfl fun _ q hq => ?_
      have hpq : p = q := by simpa [lastSwParams, hret] using hq
      have hctl := congrArg SndPcmMmapControl.availMin (hl.swParams p w.dev hret)
      rw [← hpq]
      exact hctl
    · exact h.inert (c := .swParams p _) (by simpa [PcmCall.inert] using hret) rfl rfl (hl.swParamsFails _ _ hret)
  mmap w offset n h := by
    rw [exec_opsMmap]
    exact h.inert (c := .mmap offset n) rfl rfl rfl (hl.mmap _ _ _)
  poll w t h := h.inert (c := .poll _) rfl rfl rfl (hl.poll t w.dev)
  rwTransfer w n h := h.changed (c := .xfer n _ _) rfl rfl fun hm p hp => (hl.xfer _ _ _ _).trans (hm p hp)
  mark w c hc h := by
    refine h.inert (c := c) ?_ rfl rfl rfl
    cases c with
    | areas => rfl
    | copy p s n => rfl
    | commit n ret => rfl
    | _ => cases hc

/-! ## Runs -/

/-- No copy is held yet. -/
def NoCopy (w : World σ) : Prop := w.pcm.syncPtr = none ∧ CopyFresh w.trace = false

theorem NoCopy.cons {w w' : World σ} (h : NoCopy w) {c : PcmCall} (hc : c.pulls = false)
    (ht : w'.trace = c :: w.trace) (hs : w'.pcm.syncPtr = w.pcm.syncPtr) : NoCopy w' := by
  refine ⟨hs.trans h.1, ?_⟩
  rw [ht, CopyFresh, hc, h.2]
  simp

/-- Without a copy no call pulls. -/
theorem noCopy_invariant (ops : PcmOps σ) : PcmInvariant ops NoCopy where
  handle w p hp h := ⟨hp.trans h.1, h.2⟩
  caller w user fault errno h := h
  run w h := h
  setBuffer w b h := h
  cmd w c h := h.cons (c := .cmd c _) rfl rfl rfl
  sync w s flags hs h := by rw [h.1] at hs; cases hs
  forward w frames h := by
    refine h.cons (c := .forward frames w.pcm.boundary) rfl (pcmMmapApplForward_trace ops frames w) ?_
    · simp [pcmMmapApplForward, mmapControl, setApplPtr, h.1]
  hwParams w p h := h.cons (c := .hwParams p _) rfl rfl rfl
  swParams w p h := h.cons (c := .swParams p _) rfl rfl rfl
  mmap w offset n h := h.cons (c := .mmap offset n) rfl rfl rfl
  poll w t h := h.cons (c := .poll _) rfl rfl rfl
  rwTransfer w n h := h.cons (c := .xfer n _ _) rfl rfl rfl
  mark w c hc h := by
    refine h.cons (c := c) ?_ rfl rfl
    cases c with
    | syncPtr f ret b a => cases hc
    | _ => rfl

/-- The block a failed mapping leaves the library with is stale. -/
theorem pcmCallocSyncPtr_keptWhileFresh (memory : Bool) : Triple (fun w => KeptWhileFresh ops w ∧ NoCopy w)
    (pcmCallocSyncPtr (σ := σ) memory) fun _ => KeptWhileFresh ops := by
  refine Triple.ite (fun _ => ?_) fun _ => Triple.pure _ fun w hw => hw.1
  refine fun w hw hf => ?_
  have hk := hw.1 hf
  refine ⟨hk.availMin, hk.pushes, fun c _ hfresh => ?_, fun c _ hfresh => ?_⟩
  · exact absurd (hw.2.2.symm.trans hfresh) Bool.false_ne_true
  · exact absurd (hw.2.2.symm.trans hfresh) Bool.false_ne_true

theorem opsMunmap_keptWhileFresh (hl : ControlLaws ops) (addr : MapAddr) (n : Nat) :
    KeepsPcm (fun w => KeptWhileFresh ops w ∧ NoCopy w) (opsMunmap ops addr n) := by
  intro w hw
  rw [exec_opsMunmap]
  exact ⟨hw.1.inert (c := .munmap addr n _) rfl rfl rfl (hl.munmap _ _ _),
    hw.2.cons (c := .munmap addr n _) rfl rfl rfl⟩

theorem pcmHwMmapStatus_keptWhileFresh (hl : ControlLaws ops) (memory : Bool) :
    Triple (fun w => KeptWhileFresh ops w ∧ NoCopy w) (pcmHwMmapStatus ops memory) fun _ => KeptWhileFresh ops := by
  have hI := hl.keptWhileFresh.and (noCopy_invariant ops)
  refine Triple.bind KeepsPcm.get fun _ => Triple.ite (fun _ => Triple.pure _ fun w hw => hw.1) fun _ => ?_
  refine Triple.bind (hI.opsMmap _ _) fun _ => Triple.bind (hI.modifyPcm fun _ => rfl) fun _ => ?_
  refine Triple.ite (fun _ => pcmCallocSyncPtr_keptWhileFresh memory) fun _ => ?_
  refine Triple.bind (hI.opsMmap _ _) fun _ => Triple.bind (hI.modifyPcm fun _ => rfl) fun _ => ?_
  refine Triple.ite (fun _ => ?_) fun _ => Triple.pure _ fun w hw => hw.1
  exact Triple.bind (opsMunmap_keptWhileFresh hl _ _) fun _ => Triple.bind (hI.modifyPcm fun _ => rfl) fun _ =>
    pcmCallocSyncPtr_keptWhileFresh memory

/-- A handle of `pcm_open` keeps the block while every push is fresh. -/
theorem pcmOpenStream_keptWhileFresh (hl : ControlLaws ops) (memory : Bool) (config : Option PcmConfig) :
    Triple (fun w => KeptWhileFresh ops w ∧ NoCopy w) (pcmOpenStream ops memory config)
    fun _ => KeptWhileFresh ops := by
  have hI := hl.keptWhileFresh.and (noCopy_invariant ops)
  refine Triple.bind (hI.pcmSetConfig config) fun _ => Triple.ite (fun _ => Triple.pure _ fun w hw => hw.1) fun _ => ?_
  refine Triple.bind (pcmHwMmapStatus_keptWhileFresh hl memory) fun _ => Triple.ite (fun _ => ?_) fun _ => ?_
  · exact Triple.bind KeepsPcm.get fun _ => Triple.bind (hl.keptWhileFresh.oops _ _) fun _ => KeepsPcm.pure _
  · exact KeepsPcm.pure _

/-- A device, opened but not configured. -/
structure Unconfigured (w : World σ) : Prop where
  trace : w.trace = []
  syncPtr : w.pcm.syncPtr = none

theorem Unconfigured.kept {w : World σ} (h : Unconfigured w) : KeptWhileFresh ops w ∧ NoCopy w := by
  refine ⟨fun _ => ⟨?_, ?_, ?_, ?_⟩, h.syncPtr, ?_⟩
  · rw [h.trace]; rintro p ⟨⟩
  · rw [h.trace]; trivial
  · rw [Pcm.controlCopy, h.syncPtr]; rintro c ⟨⟩
  · rw [Pcm.controlCopy, h.syncPtr]; rintro c ⟨⟩
  · rw [h.trace]; rfl

/-- What the library does to the kernel's block: its `avail_min` is that of the last accepted
`SW_PARAMS`, and no `SYNC_PTR` changed `appl_ptr` other than by committed frames. -/
def BlockSound (ops : PcmOps σ) (w : World σ) : Prop :=
  (∀ p, lastSwParams w.trace = some p → (ops.control w.dev).availMin = p.availMin) ∧ SyncsKeep w.trace

/-- In a run whose pushes are all fresh, every state reached has a sound block. -/
theorem pcmRun_blockSound (hl : ControlLaws ops) (memory : Bool) (config : Option PcmConfig) {w w' : World σ}
    (hw : Unconfigured w) (hrun : PcmRun ops (exec (pcmOpenStream ops memory config) w).2 w')
    (hfresh : PushesFresh w'.trace) : BlockSound ops w' := by
  have hopen := pcmOpenStream_keptWhileFresh hl memory config w hw.kept
  have hk := hl.keptWhileFresh.pcmRun hrun hopen hfresh
  exact ⟨hk.availMin, hk.pushes⟩

end

/-! ## On the kernel -/

/-- A configuration without thresholds of its own. -/
def stereo : PcmConfig where
  channels := 2
  rate := 48000
  periodSize := 1024
  periodCount := 4
  format := .s16Le
  startThreshold := 0
  stopThreshold := 0
  silenceThreshold := 0
  silenceSize := 0
  availMin := 0

/-- A playback device on a kernel whose status and control cannot be mapped. -/
def unmapped : World Kernel where
  pcm := { fd := 3, flags := 0, bufferSize := 0, boundary := 0, config := stereo }
  dev := {}
  user := ⟨0, fun _ => 0⟩

/-- The handle `pcm_open` makes of it. -/
def unmappedOpened : World Kernel := (exec (pcmOpenStream Kernel.ops true (some stereo)) unmapped).2

/-- A sequence of calls on that handle. -/
def unmappedRun (cs : List PcmApi) : World Kernel :=
  cs.foldl (fun w c => (exec (c.call Kernel.ops) { w.setDev (Kernel.ops.run w.dev) with user := w.user }).2)
    unmappedOpened

theorem unmappedRun_run (cs : List PcmApi) : PcmRun Kernel.ops unmappedOpened (unmappedRun cs) := by
  induction cs using List.reverseRecOn with
  | nil => exact .start
  | append_singleton cs c ih =>
    rw [unmappedRun, List.foldl_concat]
    exact .call ih _ c

/-- Frames committed after a pull reach the kernel, and nothing else does. -/
theorem pcmRun_blockSound_committed : BlockSound Kernel.ops (unmappedRun [.prepare, .mmapCommit 16, .mmapAvail]) :=
  pcmRun_blockSound Kernel.controlLaws true (some stereo) (w := unmapped) ⟨rfl, rfl⟩ (unmappedRun_run _)
    (by decide +kernel)

/-- `pcm_mmap_avail` as the first call pushes the zeroed copy. -/
theorem pcmRun_blockSound_not : (exec (pcmOpenStream Kernel.ops true (some stereo)) unmapped).1 = true ∧
    ¬ ∀ w', PcmRun Kernel.ops unmappedOpened w' → BlockSound Kernel.ops w' := by
  refine ⟨by decide +kernel, fun h => ?_⟩
  have hsound := (h _ (unmappedRun_run [.mmapAvail])).1
  have hlast : (lastSwParams (unmappedRun [.mmapAvail]).trace).map (·.availMin) = some 1024 := by decide +kernel
  have hkernel : (Kernel.ops.control (unmappedRun [.mmapAvail]).dev).availMin = 0 := by decide +kernel
  obtain ⟨p, hp, hmin⟩ := Option.map_eq_some_iff.1 hlast
  have hmust := hsound p hp
  rw [hkernel, hmin] at hmust
  exact absurd hmust (by decide)

end Tinyalsa
