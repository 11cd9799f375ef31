/-
The mappings of a stream, from `pcm_open` to `pcm_close`: a backend that records what it maps and unmaps, and
the runs after which nothing is left mapped.
-/
import Tinyalsa.Pcm.Open

namespace Tinyalsa

open Hoare

/-! ## The record -/

/-- The answers that decide which mappings are live. -/
inductive MapReply
  | mmap (offset : MmapOffset) (addr : MapAddr) (length : Nat)
  | munmap (addr : MapAddr) (length : Nat) (ret : Int)
  | swParams (ret : Int)
  deriving DecidableEq, Repr

/-- The live mappings, newest first. A refused `munmap` leaves its mapping live. -/
def live : List MapReply → List (MapAddr × Nat)
  | [] => []
  | .mmap _ addr length :: l => if addr.isMapped then (addr, length) :: live l else live l
  | .munmap addr length ret :: l => if ret = 0 then (live l).erase (addr, length) else live l
  | .swParams _ :: l => live l

/-- Every `munmap` was issued for a live mapping. -/
def MunmapsLive : List MapReply → Prop
  | [] => True
  | .munmap addr length _ :: l => (addr, length) ∈ live l ∧ MunmapsLive l
  | _ :: l => MunmapsLive l

/-- Everything mapped has been unmapped, once and as it was mapped. -/
def MapsBalanced (l : List MapReply) : Prop := live l = [] ∧ MunmapsLive l

/-- The sample buffer was mapped just before. -/
def buffered : List MapReply → Bool
  | .mmap .data addr _ :: _ => addr.isMapped
  | _ => false

/-- No `munmap` was refused, and no `SW_PARAMS` that followed a mapping of the sample buffer. -/
def Obliging : List MapReply → Prop
  | [] => True
  | .munmap _ _ ret :: l => ret = 0 ∧ Obliging l
  | .swParams ret :: l => (ret ≠ 0 → buffered l = false) ∧ Obliging l
  | .mmap _ _ _ :: l => Obliging l

instance decidableObliging : ∀ l, Decidable (Obliging l)
  | [] => isTrue trivial
  | .munmap _ _ ret :: l =>
    have := decidableObliging l
    inferInstanceAs (Decidable (ret = 0 ∧ Obliging l))
  | .swParams ret :: l =>
    have := decidableObliging l
    inferInstanceAs (Decidable ((ret ≠ 0 → buffered l = false) ∧ Obliging l))
  | .mmap _ _ _ :: l => decidableObliging l

theorem Obliging.tail {c : MapReply} {l : List MapReply} (h : Obliging (c :: l)) : Obliging l := by
  cases c with
  | mmap _ _ _ => exact h
  | _ => exact h.2

/-- A device with the record of its mappings. -/
structure Recorded (σ : Type) where
  dev : σ
  replies : List MapReply := []

section

variable {σ : Type}

/-- The backend, recording. -/
def recording (ops : PcmOps σ) : PcmOps (Recorded σ) where
  hwParams p d :=
    let (r, p', dev) := ops.hwParams p d.dev
    (r, p', { d with dev })
  swParams p d :=
    let (r, p', dev) := ops.swParams p d.dev
    (r, p', ⟨dev, .swParams r.ret :: d.replies⟩)
  syncPtr s d :=
    let (r, s', dev) := ops.syncPtr s d.dev
    (r, s', { d with dev })
  cmd c d :=
    let (r, dev) := ops.cmd c d.dev
    (r, { d with dev })
  xfer write n user d :=
    let (r, result, user', dev) := ops.xfer write n user d.dev
    (r, result, user', { d with dev })
  link fd d :=
    let (r, dev) := ops.link fd d.dev
    (r, { d with dev })
  delay arg d :=
    let (r, frames, dev) := ops.delay arg d.dev
    (r, frames, { d with dev })
  info d :=
    let (r, subdevice, dev) := ops.info d.dev
    (r, subdevice, { d with dev })
  ttstamp t d :=
    let (r, t', dev) := ops.ttstamp t d.dev
    (r, t', { d with dev })
  poll timeout d :=
    let (r, events, dev) := ops.poll timeout d.dev
    (r, events, { d with dev })
  mmap offset length d :=
    let (addr, errno, dev) := ops.mmap offset length d.dev
    (addr, errno, ⟨dev, .mmap offset addr length :: d.replies⟩)
  munmap addr length d :=
    let (r, dev) := ops.munmap addr length d.dev
    (r, ⟨dev, .munmap addr length r.ret :: d.replies⟩)
  run d := { d with dev := ops.run d.dev }
  status d := ops.status d.dev
  control d := ops.control d.dev
  setControl c d := { d with dev := ops.setControl c d.dev }
  buffer d := ops.buffer d.dev
  setBuffer b d := { d with dev := ops.setBuffer b d.dev }

end

/-- Unless an answer spoilt it, the live mappings are these, and nothing else was unmapped. -/
def Tracks (l : List MapReply) (maps : List (MapAddr × Nat)) : Prop := Obliging l → (live l).Perm maps ∧ MunmapsLive l

namespace Tracks

variable {l : List MapReply} {maps : List (MapAddr × Nat)} {addr : MapAddr} {n : Nat}

theorem mmap (h : Tracks l maps) (offset : MmapOffset) :
    Tracks (.mmap offset addr n :: l) (if addr.isMapped then (addr, n) :: maps else maps) := by
  intro ho
  obtain ⟨hp, hm⟩ := h ho
  refine ⟨?_, hm⟩
  rw [live]
  split
  · exact hp.cons _
  · exact hp

theorem munmap (h : Tracks l ((addr, n) :: maps)) (ret : Int) : Tracks (.munmap addr n ret :: l) maps := by
  rintro ⟨hret, ho⟩
  obtain ⟨hp, hm⟩ := h ho
  refine ⟨?_, hp.mem_iff.2 List.mem_cons_self, hm⟩
  rw [live, if_pos hret]
  have herase := hp.erase (addr, n)
  rwa [List.erase_cons_head] at herase

theorem swParams (h : Tracks l maps) (ret : Int) : Tracks (.swParams ret :: l) maps := fun ho => h ho.2

theorem perm {maps' : List (MapAddr × Nat)} (h : Tracks l maps) (hp : maps.Perm maps') : Tracks l maps' :=
  fun ho => ⟨(h ho).1.trans hp, (h ho).2⟩

/-- An unmapping that does not concern a live mapping leaves none behind either. -/
theorem munmap_nil (h : Obliging l → live l = []) (ret : Int) :
    Obliging (.munmap addr n ret :: l) → live (.munmap addr n ret :: l) = [] := by
  rintro ⟨hret, ho⟩
  rw [live, if_pos hret, h ho, List.erase_nil]

end Tracks

/-! ## What a handle answers for -/

/-- The mapping of a page, where there is one. -/
def pageAt (addr : MapAddr) : List (MapAddr × Nat) := if addr.isMapped then [(addr, pageSize)] else []

namespace Pcm

variable (pcm : Pcm)

/-- Whether the library has a copy of the pages, and where they are mapped. -/
def pageState : Bool × MapAddr × MapAddr := (pcm.syncPtr.isSome, pcm.mmapStatus, pcm.mmapControl)

def pages : List (MapAddr × Nat) := pageAt pcm.mmapControl ++ pageAt pcm.mmapStatus

/-- Whether the handle has a sample buffer mapped. -/
def hasBuffer : Bool := pcm.isMmap && pcm.mmapBuffer.isMapped

/-- The sample buffer, with the length computed for its unmapping. -/
def bufferMapping : List (MapAddr × Nat) :=
  if pcm.hasBuffer then [(pcm.mmapBuffer, (mmapLength pcm).toNat)] else []

def mappings : List (MapAddr × Nat) := pcm.pages ++ pcm.bufferMapping

/-- The second handle answers for the mappings of the first. -/
structure SameMappings (p q : Pcm) : Prop where
  flags : q.flags = p.flags
  syncPtr : q.syncPtr.isSome = p.syncPtr.isSome
  status : q.mmapStatus = p.mmapStatus
  control : q.mmapControl = p.mmapControl
  buffer : q.mmapBuffer = p.mmapBuffer
  length : p.hasBuffer → mmapLength q = mmapLength p

theorem SameMappings.hasBuffer {p q : Pcm} (h : SameMappings p q) : q.hasBuffer = p.hasBuffer := by
  rw [Pcm.hasBuffer, Pcm.hasBuffer, isMmap, isMmap, h.flags, h.buffer]

theorem SameMappings.pages {p q : Pcm} (h : SameMappings p q) : q.pages = p.pages := by
  rw [Pcm.pages, Pcm.pages, h.status, h.control]

theorem SameMappings.pageState {p q : Pcm} (h : SameMappings p q) : q.pageState = p.pageState := by
  rw [Pcm.pageState, Pcm.pageState, h.syncPtr, h.status, h.control]

theorem SameMappings.mappings {p q : Pcm} (h : SameMappings p q) : q.mappings = p.mappings := by
  rw [Pcm.mappings, Pcm.mappings, h.pages, bufferMapping, bufferMapping, h.hasBuffer, h.buffer]
  split
  · rename_i hb
    rw [h.length hb]
  · rfl

theorem SameMappings.trans {p q r : Pcm} (h : SameMappings p q) (h' : SameMappings q r) : SameMappings p r where
  flags := h'.flags.trans h.flags
  syncPtr := h'.syncPtr.trans h.syncPtr
  status := h'.status.trans h.status
  control := h'.control.trans h.control
  buffer := h'.buffer.trans h.buffer
  length hb := (h'.length (h.hasBuffer.trans hb)).trans (h.length hb)

end Pcm

section

variable {σ : Type} {ops : PcmOps σ}

/-- The handle answers for the live mappings. A page has a mapping only where the library has no copy of it. -/
structure Owns (w : World (Recorded σ)) : Prop where
  status : w.pcm.mmapStatus ≠ .mapFailed
  control : w.pcm.mmapControl ≠ .mapFailed
  copy : w.pcm.syncPtr.isSome → w.pcm.pages = []
  tracks : Tracks w.dev.replies w.pcm.mappings

theorem Owns.same {w w' : World (Recorded σ)} (h : Owns w) (hr : w'.dev.replies = w.dev.replies)
    (hp : w.pcm.SameMappings w'.pcm) : Owns w' where
  status := hp.status ▸ h.status
  control := hp.control ▸ h.control
  copy hs := hp.pages.trans (h.copy (hp.syncPtr ▸ hs))
  tracks := by rw [hr, hp.mappings]; exact h.tracks

theorem Owns.answered {w w' : World (Recorded σ)} (h : Owns w) {ret : Int}
    (hr : w'.dev.replies = .swParams ret :: w.dev.replies) (hp : w.pcm.SameMappings w'.pcm) : Owns w' where
  status := hp.status ▸ h.status
  control := hp.control ▸ h.control
  copy hs := hp.pages.trans (h.copy (hp.syncPtr ▸ hs))
  tracks := by rw [hr, hp.mappings]; exact h.tracks.swParams ret

/-! ## Calls that map nothing -/

/-- Nothing was mapped or unmapped, and the handle answers for what it did. -/
structure Unmoved (w w' : World (Recorded σ)) : Prop where
  replies : w'.dev.replies = w.dev.replies
  pcm : w.pcm.SameMappings w'.pcm

theorem Unmoved.step {w w₁ w₂ : World (Recorded σ)} (h : Unmoved w w₁) (hr : w₂.dev.replies = w₁.dev.replies)
    (hp : w₁.pcm.SameMappings w₂.pcm) : Unmoved w w₂ := ⟨hr.trans h.replies, h.pcm.trans hp⟩

theorem unmoved_invariant (ops : PcmOps σ) (w : World (Recorded σ)) : StreamInvariant (recording ops) (Unmoved w) where
  note _ _ _ h := h.step rfl ⟨rfl, rfl, rfl, rfl, rfl, fun _ => rfl⟩
  caller _ _ _ _ h := h.step rfl ⟨rfl, rfl, rfl, rfl, rfl, fun _ => rfl⟩
  run _ h := h.step rfl ⟨rfl, rfl, rfl, rfl, rfl, fun _ => rfl⟩
  setBuffer _ _ h := h.step rfl ⟨rfl, rfl, rfl, rfl, rfl, fun _ => rfl⟩
  cmd _ _ h := h.step rfl ⟨rfl, rfl, rfl, rfl, rfl, fun _ => rfl⟩
  sync w' s flags hs h := h.step rfl ⟨rfl, by rw [hs]; rfl, rfl, rfl, rfl, fun _ => rfl⟩
  forward w' frames h := by
    unfold pcmMmapApplForward mmapControl setApplPtr
    cases hs : w'.pcm.syncPtr with
    | none =>
      simp only [exec_bind, exec_get, exec_modify, exec_pure, World.setDev_pcm, hs]
      exact h.step rfl ⟨rfl, rfl, rfl, rfl, rfl, fun _ => rfl⟩
    | some s =>
      simp only [exec_bind, exec_get, exec_pure, hs, exec_modifyPcm]
      exact h.step rfl ⟨rfl, by rw [hs]; rfl, rfl, rfl, rfl, fun _ => rfl⟩
  poll _ _ h := h.step rfl ⟨rfl, rfl, rfl, rfl, rfl, fun _ => rfl⟩
  rwTransfer _ _ h := h.step rfl ⟨rfl, rfl, rfl, rfl, rfl, fun _ => rfl⟩
  mark _ _ _ h := h.step rfl ⟨rfl, rfl, rfl, rfl, rfl, fun _ => rfl⟩

/-! ## `pcm_set_config` -/

/-- After a failure without a sample buffer: only the pages are live. -/
def PagesLeft (w : World (Recorded σ)) : Prop := Obliging w.dev.replies → (live w.dev.replies).Perm w.pcm.pages

theorem Owns.pagesLeft {w : World (Recorded σ)} (h : Owns w) (hb : w.pcm.hasBuffer = false) : PagesLeft w := by
  intro ho
  have hp := (h.tracks ho).1
  rwa [Pcm.mappings, Pcm.bufferMapping, hb, if_neg Bool.false_ne_true, List.append_nil] at hp

/-- What `pcm_set_config` leaves, with the pages as they were. -/
def Configures (s : Bool × MapAddr × MapAddr) (r : Int) (w : World (Recorded σ)) : Prop :=
  Owns w ∧ w.pcm.pageState = s ∧ (r ≠ 0 → PagesLeft w)

theorem Configures.same {s : Bool × MapAddr × MapAddr} {r : Int} {w w' : World (Recorded σ)} (h : Configures s r w)
    (hr : w'.dev.replies = w.dev.replies) (hp : w.pcm.SameMappings w'.pcm) : Configures s r w' := by
  refine ⟨h.1.same hr hp, hp.pageState.trans h.2.1, fun hne => ?_⟩
  have hleft := h.2.2 hne
  unfold PagesLeft at hleft ⊢
  rwa [hr, hp.pages]

theorem pcmSetSwConfig_owns (config : Option PcmConfig) (s : Bool × MapAddr × MapAddr) :
    Triple (fun w => Owns w ∧ w.pcm.pageState = s ∧ (w.pcm.hasBuffer → buffered w.dev.replies))
      (pcmSetSwConfig (recording ops) config) (Configures s) := by
  rintro w ⟨how, hp, hb⟩
  simp only [pcmSetSwConfig, exec_bind, exec_get, exec_modifyPcm, exec_ioctlSwParams, exec_ite, exec_oops, exec_pure]
  have hsame : w.pcm.SameMappings
    (storeThresholds (derefConfig config w.pcm) (swRequest w.pcm (derefConfig config w.pcm)) w.pcm) :=
    ⟨rfl, rfl, rfl, rfl, rfl, fun _ => rfl⟩
  split
  · rename_i hret
    refine ⟨how.answered rfl (hsame.trans ⟨rfl, rfl, rfl, rfl, rfl, fun _ => rfl⟩), hp, fun _ ho => ?_⟩
    -- the answer that spoils a mapped buffer is excluded
    have hbuf : w.pcm.hasBuffer = false := by
      cases h : w.pcm.hasBuffer with
      | false => rfl
      | true =>
        have hfresh : buffered w.dev.replies = false := ho.1 hret
        rw [hb h] at hfresh
        cases hfresh
    exact how.pagesLeft hbuf ho.2
  · exact ⟨how.answered rfl (hsame.trans ⟨rfl, rfl, rfl, rfl, rfl, fun _ => rfl⟩), hp, fun h => absurd rfl h⟩

/-- A handle without a sample buffer takes the address it was given. -/
theorem Owns.mapBuffer {w w' : World (Recorded σ)} (h : Owns w) (hb : w.pcm.hasBuffer = false) (hm : w.pcm.isMmap)
    {addr : MapAddr} (hr : w'.dev.replies = .mmap .data addr (mmapLength w.pcm).toNat :: w.dev.replies)
    (hp : w'.pcm = { w.pcm with mmapBuffer := addr }) :
    Owns w' ∧ w'.pcm.pageState = w.pcm.pageState ∧ (w'.pcm.hasBuffer → buffered w'.dev.replies) := by
  have hpages : w'.pcm.pages = w.pcm.pages := by rw [hp]; rfl
  have hbuffer : w'.pcm.hasBuffer = addr.isMapped := by
    rw [hp]
    change (w.pcm.isMmap && addr.isMapped) = _
    rw [hm, Bool.true_and]
  refine ⟨⟨by rw [hp]; exact h.status, by rw [hp]; exact h.control, fun hs => ?_, ?_⟩, by rw [hp]; rfl, fun hb' => ?_⟩
  · rw [hpages]
    exact h.copy (by rw [hp] at hs; exact hs)
  · rw [hr]
    refine (h.tracks.mmap .data).perm ?_
    rw [Pcm.mappings, Pcm.bufferMapping, hb, if_neg Bool.false_ne_true, List.append_nil, Pcm.mappings, hpages,
      Pcm.bufferMapping, hbuffer]
    split
    · rw [hp]
      exact (List.perm_append_singleton _ _).symm
    · rw [List.append_nil]
  · rw [hr]
    rw [hbuffer] at hb'
    exact hb'

theorem pcmSetBuffer_owns (config : Option PcmConfig) (s : Bool × MapAddr × MapAddr) :
    Triple (fun w => Owns w ∧ w.pcm.pageState = s ∧ w.pcm.hasBuffer = false) (pcmSetBuffer (recording ops) config)
      (Configures s) := by
  refine Triple.get_bind fun t => Triple.ite (fun hm => ?_) fun hm => ?_
  · rintro w ⟨⟨how, hp, hb⟩, rfl⟩
    have hmapped : ∀ w', w' = (exec (do
        let a ← opsMmap (recording ops) .data (mmapLength w.pcm).toNat
        modifyPcm fun p => { p with mmapBuffer := a }) w).2 →
        Owns w' ∧ w'.pcm.pageState = w.pcm.pageState ∧ (w'.pcm.hasBuffer → buffered w'.dev.replies) := by
      rintro w' rfl
      exact how.mapBuffer hb hm rfl rfl
    obtain ⟨how', hp', hb'⟩ := hmapped _ rfl
    simp only [exec_bind, exec_opsMmap, exec_modifyPcm, exec_ite, exec_get, exec_oops, exec_pure] at how' hp' hb' ⊢
    split
    · rename_i hfail
      refine Configures.same ⟨how', hp'.trans hp, fun _ => how'.pagesLeft ?_⟩ rfl
        ⟨rfl, rfl, rfl, rfl, rfl, fun _ => rfl⟩
      change (w.pcm.isMmap && MapAddr.isMapped _) = false
      rw [hfail]
      exact Bool.and_false _
    · exact pcmSetSwConfig_owns config s _ ⟨how', hp'.trans hp, hb'⟩
  · refine (pcmSetSwConfig_owns config s).pre fun w hw => ⟨hw.1.1, hw.1.2.1, fun hb => ?_⟩
    rw [hw.1.2.2] at hb
    cases hb

/-- A handle without a sample buffer. -/
def Unbuffered (s : Bool × MapAddr × MapAddr) (w : World (Recorded σ)) : Prop :=
  Owns w ∧ w.pcm.pageState = s ∧ w.pcm.hasBuffer = false

theorem Unbuffered.same {s : Bool × MapAddr × MapAddr} {w w' : World (Recorded σ)} (h : Unbuffered s w)
    (hr : w'.dev.replies = w.dev.replies) (hp : w.pcm.SameMappings w'.pcm) : Unbuffered s w' :=
  ⟨h.1.same hr hp, hp.pageState.trans h.2.1, hp.hasBuffer.trans h.2.2⟩

theorem Unbuffered.configures {s : Bool × MapAddr × MapAddr} {w : World (Recorded σ)} (h : Unbuffered s w) (r : Int) :
    Configures s r w := ⟨h.1, h.2.1, fun _ => h.1.pagesLeft h.2.2⟩

/-- Without a sample buffer, its length may change. -/
theorem Unbuffered.modify {s : Bool × MapAddr × MapAddr} {f : Pcm → Pcm}
    (hf : ∀ p, (f p).flags = p.flags ∧ (f p).syncPtr = p.syncPtr ∧ (f p).mmapStatus = p.mmapStatus ∧
      (f p).mmapControl = p.mmapControl ∧ (f p).mmapBuffer = p.mmapBuffer) :
    KeepsPcm (Unbuffered s) (modifyPcm (σ := Recorded σ) f) := by
  intro w hw
  obtain ⟨hflags, hsync, hstatus, hcontrol, hbuffer⟩ := hf w.pcm
  refine hw.same rfl ⟨hflags, congrArg _ hsync, hstatus, hcontrol, hbuffer, fun hb => ?_⟩
  rw [hw.2.2] at hb
  cases hb

theorem unbuffered_oops {s : Bool × MapAddr × MapAddr} (e : Int) (text : String) :
    KeepsPcm (Unbuffered s) (oops (σ := Recorded σ) e text) :=
  fun _ hw => hw.same rfl ⟨rfl, rfl, rfl, rfl, rfl, fun _ => rfl⟩

theorem pcmSetHwConfig_owns (config : Option PcmConfig) (s : Bool × MapAddr × MapAddr) :
    Triple (Unbuffered s) (pcmSetHwConfig (recording ops) config) (Configures s) := by
  have hhw : ∀ p, KeepsPcm (Unbuffered s) (ioctlHwParams (recording ops) p) := fun _ _ hw =>
    hw.same rfl ⟨rfl, rfl, rfl, rfl, rfl, fun _ => rfl⟩
  refine Triple.bind KeepsPcm.get fun _ => Triple.bind (hhw _) fun _ => Triple.ite (fun _ => ?_) fun _ => ?_
  · exact Triple.bind KeepsPcm.get fun _ => Triple.bind (unbuffered_oops _ _) fun _ =>
      Triple.pure _ fun _ hw => hw.configures _
  · refine Triple.bind (Unbuffered.modify fun p => ?_) fun _ => pcmSetBuffer_owns config s
    cases config <;> exact ⟨rfl, rfl, rfl, rfl, rfl⟩

theorem pcmSetConfig_owns (config : Option PcmConfig) (s : Bool × MapAddr × MapAddr) :
    Triple (Unbuffered s) (pcmSetConfig (recording ops) config) (Configures s) := by
  refine Triple.bind (Unbuffered.modify fun _ => ⟨rfl, rfl, rfl, rfl, rfl⟩) fun _ => Triple.bind KeepsPcm.get fun _ =>
    Triple.ite (fun _ => Triple.ite (fun _ => ?_) fun _ => ?_) fun _ => pcmSetHwConfig_owns config s
  · exact Triple.bind (unbuffered_oops _ _) fun _ => Triple.pure _ fun _ hw => hw.configures _
  · exact Triple.bind (Unbuffered.modify fun _ => ⟨rfl, rfl, rfl, rfl, rfl⟩) fun _ => pcmSetHwConfig_owns config s

/-- A `pcm_set_config` that the backend refuses at once, with a sample buffer that takes as many bytes under
the new configuration. -/
structure RefusedAlike (ops : PcmOps (Recorded σ)) (config : Option PcmConfig) (w : World (Recorded σ)) : Prop where
  refused : (ops.hwParams (hwRequest w.pcm (requested config w.pcm)) w.dev).1.ret ≠ 0
  length : mmapLength { w.pcm with config := requested config w.pcm } = mmapLength w.pcm

theorem pcmSetHwConfig_unmoved {config : Option PcmConfig} {w : World (Recorded σ)}
    (h : ((recording ops).hwParams (hwRequest w.pcm (derefConfig config w.pcm)) w.dev).1.ret ≠ 0) :
    Unmoved w (exec (pcmSetHwConfig (recording ops) config) w).2 := by
  simp only [pcmSetHwConfig, exec_bind, exec_get, exec_ioctlHwParams, exec_oops, exec_pure, if_pos h]
  exact ⟨rfl, rfl, rfl, rfl, rfl, rfl, fun _ => rfl⟩

theorem pcmSetConfig_unmoved {config : Option PcmConfig} {w : World (Recorded σ)} (hm : w.pcm.isMmap)
    (h : RefusedAlike (recording ops) config w) : Unmoved w (exec (pcmSetConfig (recording ops) config) w).2 := by
  have hd : ∀ n, derefConfig config (configured config n w.pcm) = requested config w.pcm := by
    intro n
    cases config <;> rfl
  have hconfigured : ∀ n, Unmoved w (w.setPcm (configured config n w.pcm)) := fun n =>
    ⟨rfl, rfl, rfl, rfl, rfl, rfl, fun _ => h.length⟩
  have hhw : ∀ n, Unmoved w (exec (pcmSetHwConfig (recording ops) config) (w.setPcm
    (configured config n w.pcm))).2 := by
    intro n
    have hstep : Unmoved (w.setPcm (configured config n w.pcm))
        (exec (pcmSetHwConfig (recording ops) config) (w.setPcm (configured config n w.pcm))).2 := by
      refine pcmSetHwConfig_unmoved ?_
      rw [World.setPcm_pcm, hd]
      exact h.refused
    exact (hconfigured n).step hstep.replies hstep.pcm
  simp only [pcmSetConfig, exec_bind, exec_get, exec_modifyPcm, exec_ite]
  split
  · split
    · rename_i hn
      have hnot : (!w.pcm.isMmap) = true := hn
      rw [hm] at hnot
      cases hnot
    · exact hhw _
  · exact hhw w.pcm.noirqFramesPerMsec

/-! ## The pages -/

theorem pageAt_orNull (addr : MapAddr) : pageAt addr.orNull = pageAt addr := by
  cases addr <;> rfl

theorem orNull_ne_mapFailed (addr : MapAddr) : addr.orNull ≠ .mapFailed := by
  cases addr <;> simp [MapAddr.orNull]

theorem pageAt_mapped {addr : MapAddr} (h : addr.isMapped) : pageAt addr = [(addr, pageSize)] := if_pos h

/-- The handle answers for one more page. -/
theorem Tracks.mapPage {l : List MapReply} {maps : List (MapAddr × Nat)} (h : Tracks l maps) (offset : MmapOffset)
    (addr : MapAddr) : Tracks (.mmap offset addr pageSize :: l) (pageAt addr ++ maps) := by
  have hmap : Tracks (.mmap offset addr pageSize :: l) (if addr.isMapped then (addr, pageSize) :: maps else maps) :=
    h.mmap offset
  unfold pageAt
  split
  · rename_i hm
    rwa [if_pos hm] at hmap
  · rename_i hm
    rwa [if_neg hm] at hmap

theorem Tracks.munmapPage {l : List MapReply} {maps : List (MapAddr × Nat)} {addr : MapAddr} (hm : addr.isMapped)
    (h : Tracks l (pageAt addr ++ maps)) (ret : Int) : Tracks (.munmap addr pageSize ret :: l) maps := by
  rw [pageAt_mapped hm] at h
  exact h.munmap ret

theorem pcmCallocSyncPtr_owns (memory : Bool) :
    Triple (fun w => Owns w ∧ w.pcm.pages = []) (pcmCallocSyncPtr (σ := Recorded σ) memory) fun _ => Owns := by
  refine Triple.ite (fun _ => ?_) fun _ => Triple.pure _ fun w hw => hw.1
  exact fun w hw => ⟨hw.1.status, hw.1.control, fun _ => hw.2, hw.1.tracks⟩

/-- The pages of a handle are these. -/
def Paged (status control : MapAddr) (w : World (Recorded σ)) : Prop :=
  Owns w ∧ w.pcm.syncPtr = none ∧ w.pcm.mmapStatus = status ∧ w.pcm.mmapControl = control

theorem Paged.tracks {status control : MapAddr} {w : World (Recorded σ)} (h : Paged status control w) :
    Tracks w.dev.replies (pageAt control ++ (pageAt status ++ w.pcm.bufferMapping)) := by
  have ht := h.1.tracks
  rwa [Pcm.mappings, Pcm.pages, h.2.2.1, h.2.2.2, List.append_assoc] at ht

/-- A handle without a copy of the pages, from what is tracked. -/
theorem Paged.of_tracks {status control : MapAddr} {w : World (Recorded σ)} (hs : status ≠ .mapFailed)
    (hc : control ≠ .mapFailed) (hsync : w.pcm.syncPtr = none) (hps : w.pcm.mmapStatus = status)
    (hpc : w.pcm.mmapControl = control)
    (ht : Tracks w.dev.replies (pageAt control ++ (pageAt status ++ w.pcm.bufferMapping))) :
      Paged status control w := by
  refine ⟨⟨by rwa [hps], by rwa [hpc], fun h => ?_, ?_⟩, hsync, hps, hpc⟩
  · rw [hsync] at h
    cases h
  · rwa [Pcm.mappings, Pcm.pages, hps, hpc, List.append_assoc]

theorem pageAt_unmapped {addr : MapAddr} (h : ¬ addr.isMapped) : pageAt addr = [] := if_neg h

theorem pcmHwMmapStatus_owns (memory : Bool) :
    Triple (Paged (.addr 0) (.addr 0)) (pcmHwMmapStatus (recording ops) memory) fun _ => Owns := by
  refine Triple.bind KeepsPcm.get fun _ => Triple.ite (fun _ => Triple.pure _ fun w hw => hw.1) fun _ => ?_
  refine Triple.bind (Q := fun status w => Tracks w.dev.replies (pageAt status ++ w.pcm.bufferMapping) ∧
    w.pcm.syncPtr = none ∧ w.pcm.mmapControl = .addr 0) (fun w hw => ⟨hw.tracks.mapPage .status _, hw.2.1, hw.2.2.2⟩)
    fun status => ?_
  refine Triple.bind (Q := fun _ => Paged status.orNull (.addr 0)) (fun w hw => .of_tracks (orNull_ne_mapFailed _) nofun
    hw.2.1 rfl hw.2.2 (by rw [pageAt_orNull]; exact hw.1)) fun _ => ?_
  refine Triple.ite (fun hm => (pcmCallocSyncPtr_owns memory).pre fun w hw => ⟨hw.1, ?_⟩) fun hm => ?_
  · rw [Pcm.pages, hw.2.2.1, hw.2.2.2, pageAt_orNull, pageAt_unmapped hm]
    rfl
  have hmapped : status.isMapped := by simpa using hm
  refine Triple.bind (Q := fun control w => Tracks w.dev.replies
    (pageAt control ++ (pageAt status ++ w.pcm.bufferMapping)) ∧
    w.pcm.syncPtr = none ∧ w.pcm.mmapStatus = status.orNull) (fun w hw => ⟨?_, hw.2.1, hw.2.2.1⟩) fun control => ?_
  · have ht := hw.tracks
    rw [pageAt_orNull] at ht
    exact ht.mapPage .control _
  refine Triple.bind (Q := fun _ => Paged status.orNull control.orNull) (fun w hw => .of_tracks (orNull_ne_mapFailed _)
    (orNull_ne_mapFailed _) hw.2.1 hw.2.2 rfl (by rw [pageAt_orNull, pageAt_orNull]; exact hw.1)) fun _ => ?_
  refine Triple.ite (fun hc => ?_) fun _ => Triple.pure _ fun w hw => hw.1
  -- the status page is given back before the copy takes its place
  refine Triple.bind (Q := fun _ w => Tracks w.dev.replies w.pcm.bufferMapping ∧ w.pcm.syncPtr = none ∧
    w.pcm.mmapControl = control.orNull) (fun w hw => ⟨?_, hw.2.1, hw.2.2.2⟩) fun _ => ?_
  · have ht := hw.tracks
    rw [pageAt_orNull, pageAt_orNull, pageAt_unmapped hc, List.nil_append] at ht
    exact ht.munmapPage hmapped _
  refine Triple.bind (Q := fun _ => Paged (.addr 0) control.orNull)
    (fun w hw => .of_tracks nofun (orNull_ne_mapFailed _) hw.2.1 rfl hw.2.2
      (by rw [pageAt_orNull, pageAt_unmapped hc]; exact hw.1)) fun _ => ?_
  refine (pcmCallocSyncPtr_owns memory).pre fun w hw => ⟨hw.1, ?_⟩
  rw [Pcm.pages, hw.2.2.1, hw.2.2.2, pageAt_orNull, pageAt_unmapped hc]
  rfl

theorem munmapPage_tracks {p : Pcm} {maps : List (MapAddr × Nat)} {addr : MapAddr} (hf : addr ≠ .mapFailed) :
    Triple (fun w => w.pcm = p ∧ Tracks w.dev.replies (pageAt addr ++ maps)) (munmapPage (recording ops) addr)
      fun _ w => w.pcm = p ∧ Tracks w.dev.replies maps := by
  refine Triple.ite (fun hne => ?_) fun h0 => Triple.pure _ fun w hw => ⟨hw.1, ?_⟩
  · have hm : addr.isMapped := by
      cases addr with
      | mapFailed => exact absurd rfl hf
      | addr a => exact decide_eq_true fun ha => hne (congrArg _ ha)
    refine Triple.bind (Q := fun _ w => w.pcm = p ∧ Tracks w.dev.replies maps) (fun w hw => ?_) fun _ =>
      Triple.pure _ fun _ hw => hw
    exact ⟨hw.1, hw.2.munmapPage hm _⟩
  · obtain rfl : addr = .addr 0 := not_not.1 h0
    exact hw.2

/-- The pages are given back where they were mapped. -/
theorem pcmHwMunmapStatus_owns :
    Triple Owns (pcmHwMunmapStatus (recording ops)) fun _ w => Owns w ∧ w.pcm.pages = [] := by
  refine Triple.get_bind fun t => ?_
  rintro w ⟨how, rfl⟩
  refine Triple.ite (P := fun w' => w' = w) (Q := fun _ w => Owns w ∧ w.pcm.pages = []) (fun hs => ?_)
    (fun hs => ?_) w rfl
  · rintro w rfl
    exact ⟨⟨how.status, how.control, nofun, how.tracks⟩, how.copy hs⟩
  · refine Triple.bind (Q := fun _ w' => w'.pcm = w.pcm ∧
      Tracks w'.dev.replies (pageAt w.pcm.mmapControl ++ w.pcm.bufferMapping)) ?_ fun _ => ?_
    · refine (munmapPage_tracks how.status).pre ?_
      rintro w rfl
      refine ⟨rfl, how.tracks.perm ?_⟩
      rw [Pcm.mappings, Pcm.pages, ← List.append_assoc]
      exact List.perm_append_comm.append_right _
    · refine Triple.bind (munmapPage_tracks how.control) fun _ w' hw => ⟨⟨nofun, nofun, fun _ => rfl, ?_⟩, rfl⟩
      change Tracks w'.dev.replies w'.pcm.bufferMapping
      rw [hw.1]
      exact hw.2

/-! ## Opening and closing -/

def NothingLive (w : World (Recorded σ)) : Prop := Obliging w.dev.replies → live w.dev.replies = []

theorem Tracks.balanced {l : List MapReply} (h : Tracks l []) (ho : Obliging l) : MapsBalanced l :=
  ⟨(h ho).1.eq_nil, (h ho).2⟩

/-- A handle that answers for its sample buffer alone. -/
theorem Owns.tracksBuffer {w : World (Recorded σ)} (h : Owns w) (hp : w.pcm.pages = []) :
    Tracks w.dev.replies w.pcm.bufferMapping := by
  have ht := h.tracks
  rwa [Pcm.mappings, hp, List.nil_append] at ht

theorem munmapBuffer_balanced : Triple (fun w => Owns w ∧ w.pcm.pages = [] ∧ w.pcm.hasBuffer)
    (munmapBuffer (recording ops)) fun _ w => Obliging w.dev.replies → MapsBalanced w.dev.replies := by
  rintro w ⟨how, hp, hb⟩
  have ht := how.tracksBuffer hp
  rw [Pcm.bufferMapping, if_pos hb] at ht
  exact (ht.munmap _).balanced

theorem munmapBuffer_nothing : Triple (fun w => Owns w ∧ w.pcm.pages = []) (munmapBuffer (recording ops))
    fun _ => NothingLive := by
  rintro w ⟨how, hp⟩
  by_cases hb : w.pcm.hasBuffer
  · exact fun ho => (munmapBuffer_balanced w ⟨how, hp, hb⟩ ho).1
  · have ht := how.tracksBuffer hp
    rw [Pcm.bufferMapping, if_neg hb] at ht
    exact Tracks.munmap_nil (fun ho => (ht ho).1.eq_nil) _

theorem pcmOpenFail_nothing (text : String) :
    Triple Owns (pcmOpenFail (recording ops) text) fun r w => r.isSome ∧ NothingLive w := by
  refine Triple.bind KeepsPcm.get fun _ => Triple.bind pcmHwMunmapStatus_owns fun _ => Triple.get_bind fun t => ?_
  refine Triple.ite (fun hm => ?_) fun hm => ?_
  · refine Triple.bind (munmapBuffer_nothing.pre fun w hw => hw.1) fun _ => Triple.pure _ fun w hw => ⟨rfl, hw⟩
  · refine Triple.pure _ ?_
    rintro w ⟨⟨how, hp⟩, rfl⟩
    have ht := how.tracksBuffer hp
    have hb : ¬ w.pcm.hasBuffer := by
      rw [Pcm.hasBuffer, Bool.and_eq_true]
      exact fun h => hm h.1
    rw [Pcm.bufferMapping, if_neg hb] at ht
    exact ⟨rfl, fun ho => (ht ho).1.eq_nil⟩

/-- What `pcm_open` makes of its stream. -/
def SetUp (r : Option PcmError) (w : World (Recorded σ)) : Prop := if r.isSome then NothingLive w else Owns w

theorem pcmOpenFail_setUp (text : String) : Triple Owns (pcmOpenFail (recording ops) text) SetUp :=
  (pcmOpenFail_nothing text).post fun r w hw => by
    rw [SetUp, if_pos hw.1]
    exact hw.2

theorem pcmOpenTtstamp_setUp : Triple Owns (pcmOpenTtstamp (recording ops)) SetUp := by
  have hxruns : KeepsPcm (Owns (σ := σ)) (modifyPcm fun p => { p with xruns := 0 }) := fun w hw =>
    hw.same rfl ⟨rfl, rfl, rfl, rfl, rfl, fun _ => rfl⟩
  have hioctl : KeepsPcm Owns (ioctlTtstamp (recording ops) tstampTypeMonotonic) := fun w hw =>
    hw.same rfl ⟨rfl, rfl, rfl, rfl, rfl, fun _ => rfl⟩
  have hready : Triple (Owns (σ := σ)) (do
      modifyPcm fun p => { p with xruns := 0 }
      return none) SetUp := Triple.bind hxruns fun _ => Triple.pure _ fun _ hw => hw
  refine Triple.bind KeepsPcm.get fun _ => Triple.ite (fun _ => ?_) fun _ => hready
  exact Triple.bind hioctl fun _ => Triple.ite (fun _ => pcmOpenFail_setUp _) fun _ => hready

/-- No page is mapped or copied. -/
def noPages : Bool × MapAddr × MapAddr := (false, .addr 0, .addr 0)

theorem pages_of_noPages {p : Pcm} (h : p.pageState = noPages) :
    p.syncPtr = none ∧ p.mmapStatus = .addr 0 ∧ p.mmapControl = .addr 0 ∧ p.pages = [] := by
  simp only [Pcm.pageState, noPages, Prod.mk.injEq] at h
  obtain ⟨hsync, hs, hc⟩ := h
  refine ⟨by simpa using hsync, hs, hc, ?_⟩
  rw [Pcm.pages, hs, hc]
  rfl

theorem PagesLeft.nothing {w : World (Recorded σ)} (h : PagesLeft w) (hp : w.pcm.pageState = noPages) :
    NothingLive w := by
  intro ho
  have hleft := h ho
  rw [(pages_of_noPages hp).2.2.2] at hleft
  exact hleft.eq_nil

theorem pcmSetUp_setUp (memory : Bool) (config : Option PcmConfig) :
    Triple (Unbuffered noPages) (pcmSetUp (recording ops) memory config) SetUp := by
  have hinfo : KeepsPcm (Unbuffered noPages) (ioctlInfo (recording ops)) := fun w hw =>
    hw.same rfl ⟨rfl, rfl, rfl, rfl, rfl, fun _ => rfl⟩
  refine Triple.bind hinfo fun _ => Triple.ite (fun _ => ?_) fun _ => ?_
  · exact Triple.bind KeepsPcm.get fun _ => Triple.pure _ fun w hw => (hw.1.pagesLeft hw.2.2).nothing hw.2.1
  refine Triple.bind (Unbuffered.modify fun _ => ⟨rfl, rfl, rfl, rfl, rfl⟩) fun _ =>
    Triple.bind (pcmSetConfig_owns config noPages) fun r => Triple.ite (fun hr => ?_) fun _ => ?_
  · exact Triple.bind (Q := fun _ => Configures noPages r) (fun _ hw => hw) fun _ => Triple.pure _ fun w hw =>
      (hw.2.2 hr).nothing hw.2.1
  refine Triple.bind ((pcmHwMmapStatus_owns memory).pre fun w hw => ?_) fun _ =>
    Triple.ite (fun _ => pcmOpenFail_setUp _) fun _ => pcmOpenTtstamp_setUp
  obtain ⟨hsync, hs, hc, -⟩ := pages_of_noPages hw.2.1
  exact ⟨hw.1, hsync, hs, hc⟩

theorem pcmHwMunmapStatus_buffer (f : UInt32) (addr : MapAddr) :
    KeepsPcm (fun w : World (Recorded σ) => w.pcm.flags = f ∧ w.pcm.mmapBuffer = addr)
      (pcmHwMunmapStatus (recording ops)) := by
  have hpage : ∀ page, KeepsPcm (fun w : World (Recorded σ) => w.pcm.flags = f ∧ w.pcm.mmapBuffer = addr)
      (munmapPage (recording ops) page) := fun page =>
    Triple.ite (fun _ => Triple.bind (Q := fun _ w => w.pcm.flags = f ∧ w.pcm.mmapBuffer = addr)
      (fun _ hw => hw) fun _ =>
      KeepsPcm.pure _) fun _ => KeepsPcm.pure _
  refine Triple.bind KeepsPcm.get fun _ => Triple.ite (fun _ => fun _ hw => hw) fun _ => ?_
  exact Triple.bind (hpage _) fun _ => Triple.bind (hpage _) fun _ => fun _ hw => hw

/-- `pcm_close` gives back what the handle answers for, if its sample buffer is mapped. -/
theorem pcmTearDown_balanced : Triple (fun w => Owns w ∧ (w.pcm.isMmap → w.pcm.mmapBuffer.isMapped))
    (pcmTearDown (recording ops)) fun _ w => Obliging w.dev.replies → MapsBalanced w.dev.replies := by
  rintro w ⟨how, hb⟩
  refine Triple.bind (P := fun w' => w' = w) (Q := fun _ w => (Owns w ∧ w.pcm.pages = []) ∧
    (w.pcm.isMmap → w.pcm.hasBuffer)) (R := fun _ w => Obliging w.dev.replies → MapsBalanced w.dev.replies) ?_
    (fun _ => ?_) w rfl
  · rintro w rfl
    refine ⟨pcmHwMunmapStatus_owns w how, ?_⟩
    have hkeep : KeepsPcm (fun w' => w'.pcm.flags = w.pcm.flags ∧ w'.pcm.mmapBuffer = w.pcm.mmapBuffer)
      (pcmHwMunmapStatus (recording ops)) := pcmHwMunmapStatus_buffer _ _
    obtain ⟨hflags, hbuffer⟩ := hkeep w ⟨rfl, rfl⟩
    rw [Pcm.hasBuffer, Pcm.isMmap, hflags, hbuffer]
    exact fun hm => Bool.and_eq_true_iff.2 ⟨hm, hb hm⟩
  refine Triple.get_bind fun t => Triple.ite (fun hm => ?_) fun hm => ?_
  · rintro w ⟨⟨⟨how, hp⟩, hbuf⟩, rfl⟩
    -- stopping the stream maps and unmaps nothing
    refine Triple.bind (P := fun w' => w' = w) (Q := fun _ w => Owns w ∧ w.pcm.pages = [] ∧ w.pcm.hasBuffer)
      (R := fun _ w => Obliging w.dev.replies → MapsBalanced w.dev.replies) ?_ (fun _ => ?_) w rfl
    · rintro w rfl
      have hstop := (unmoved_invariant ops w).pcmStop w ⟨rfl, rfl, rfl, rfl, rfl, rfl, fun _ => rfl⟩
      exact ⟨how.same hstop.replies hstop.pcm, hstop.pcm.pages.trans hp, hstop.pcm.hasBuffer.trans (hbuf hm)⟩
    · exact Triple.bind munmapBuffer_balanced fun _ => Triple.pure _ fun _ hw => hw
  · refine Triple.pure _ ?_
    rintro w ⟨⟨⟨how, hp⟩, -⟩, rfl⟩
    have ht := how.tracksBuffer hp
    have hnone : ¬ w.pcm.hasBuffer := by
      rw [Pcm.hasBuffer, Bool.and_eq_true]
      exact fun h => hm h.1
    rw [Pcm.bufferMapping, if_neg hnone] at ht
    exact ht.balanced

/-! ## Runs -/

/-- When a call leaves the handle answering for its mappings: `pcm_set_config` on a handle with a sample buffer must
be one that the backend refuses. -/
def CallKeeps (ops : PcmOps (Recorded σ)) (w : World (Recorded σ)) : PcmApi → Prop
  | .setConfig config => w.pcm.hasBuffer → RefusedAlike ops config w
  | _ => True

/-- A sequence of such calls. -/
inductive KeepingRun (ops : PcmOps (Recorded σ)) (w : World (Recorded σ)) : World (Recorded σ) → Prop
  | start : KeepingRun ops w w
  | call {w' : World (Recorded σ)} (h : KeepingRun ops w w') (user : UserBuf) (c : PcmApi)
      (hc : CallKeeps ops { w'.setDev (ops.run w'.dev) with user } c) :
      KeepingRun ops w (exec (c.call ops) { w'.setDev (ops.run w'.dev) with user }).2

theorem call_owns {w : World (Recorded σ)} (h : Owns w) {c : PcmApi} (hc : CallKeeps (recording ops) w c) :
    Owns (exec (c.call (recording ops)) w).2 := by
  by_cases hset : ∃ config, c = .setConfig config
  · obtain ⟨config, rfl⟩ := hset
    cases hb : w.pcm.hasBuffer with
    | false => exact (pcmSetConfig_owns config w.pcm.pageState w ⟨h, rfl, hb⟩).1
    | true =>
      have hm : w.pcm.isMmap := (Bool.and_eq_true_iff.1 hb).1
      have hstep := pcmSetConfig_unmoved hm (hc hb)
      exact h.same hstep.replies hstep.pcm
  · have hstep := (unmoved_invariant ops w).call c (fun config hs => absurd ⟨config, hs⟩ hset) w
      ⟨rfl, rfl, rfl, rfl, rfl, rfl, fun _ => rfl⟩
    exact h.same hstep.replies hstep.pcm

theorem KeepingRun.owns {w w' : World (Recorded σ)} (hrun : KeepingRun (recording ops) w w') (h : Owns w) :
    Owns w' := by
  induction hrun with
  | start => exact h
  | @call w' _ user c hc ih =>
    have hbefore : Owns { w'.setDev ((recording ops).run w'.dev) with user } :=
      ih.same rfl ⟨rfl, rfl, rfl, rfl, rfl, fun _ => rfl⟩
    exact call_owns hbefore hc

/-! ## Whole lives -/

/-- A property of the stream, which the steps of opening leave alone. -/
theorem stream_invariant (S : World (Recorded σ) → Prop) : OpenInvariant fun w => S w.stream where
  event _ _ hw := hw
  data _ _ hw := hw
  badPcm _ _ hw := hw

theorem onStream_spec {α : Type} {P : World (Recorded σ) → Prop} {Q : α → World (Recorded σ) → Prop}
    {m : PcmM (Recorded σ) α} (h : Triple P m Q) : Triple (fun w => P w.stream) (onStream m) fun r w => Q r w.stream :=
  fun w hw => h w.stream hw

/-- A stream for which nothing has been asked yet. -/
def Calloced (w : World (Recorded σ)) : Prop := w.dev.replies = [] ∧ w.pcm = callocedPcm

theorem Calloced.nothing {w : World (Recorded σ)} (h : Calloced w) : NothingLive w := fun _ => by rw [h.1]; rfl

theorem Calloced.unbuffered {w : World (Recorded σ)} (h : Calloced w) (fd : Int) (flags : UInt32) :
    Unbuffered noPages (w.setPcm { w.pcm with fd, flags }) := by
  have hb : ({ callocedPcm with fd, flags } : Pcm).hasBuffer = false := Bool.and_false _
  rw [h.2]
  refine ⟨⟨nofun, nofun, nofun, fun _ => ?_⟩, rfl, hb⟩
  rw [World.setPcm_dev, h.1]
  refine ⟨?_, trivial⟩
  rw [World.setPcm_pcm, Pcm.mappings, Pcm.bufferMapping, hb]
  exact .refl _

/-- What `pcm_open` leaves of its stream. -/
def Opened (handle : Option PcmBackend) (w : World (Recorded σ)) : Prop :=
  if handle.isSome then Owns w else NothingLive w

section

variable {a : OpenAnswers} {card device flags : UInt32}

theorem failCloseDevNode_opened (node : Option SndNode) :
    Triple (fun w => NothingLive w.stream) (failCloseDevNode node) fun handle w => Opened (σ := σ) handle w.stream :=
  Triple.bind ((stream_invariant NothingLive).closeDevNode node) fun _ =>
    Triple.bind ((stream_invariant NothingLive).note _) fun _ => Triple.pure _ fun _ hw => hw

theorem pcmOpenOn_opened (ops : Backend → PcmOps σ) (config : Option PcmConfig) (b : Backend) (node : Option SndNode)
    (fd : Int) : Triple (fun w => Calloced w.stream)
      (pcmOpenOn a card device flags (fun b => recording (ops b)) config b node fd) fun handle w =>
      Opened handle w.stream := by
  have hsetUp : Triple Calloced (do
      modifyPcm fun p => { p with fd, flags }
      pcmSetUp (recording (ops b)) a.callocSyncPtr config) SetUp :=
    Triple.bind (Q := fun _ => Unbuffered noPages) (fun _ hw => hw.unbuffered fd flags) fun _ => pcmSetUp_setUp _ config
  refine Triple.ite (fun _ => ?_) fun _ => ?_
  · refine Triple.bind KeepsOpen.get fun _ => Triple.bind ((stream_invariant Calloced).badOops _) fun _ => ?_
    exact (failCloseDevNode_opened node).pre fun w hw => hw.nothing
  refine Triple.bind ((stream_invariant Calloced).useData b) fun _ => Triple.bind (onStream_spec hsetUp) fun r => ?_
  cases r with
  | none => exact Triple.pure _ fun w hw => hw
  | some error =>
    refine Triple.bind ((stream_invariant NothingLive).badOops _) fun _ =>
      Triple.bind ((stream_invariant NothingLive).opsClose b) fun _ => failCloseDevNode_opened node

theorem pcmOpen_opened (ops : Backend → PcmOps σ) (config : Option PcmConfig) :
    Triple (fun w => w.stream.dev.replies = []) (pcmOpen a card device flags (fun b => recording (ops b)) config)
      fun handle w => Opened handle w.stream := by
  have hI := stream_invariant (Calloced (σ := σ))
  refine Triple.ite (fun _ => ?_) fun _ => ?_
  · refine Triple.bind (Q := fun _ w => w.stream.dev.replies = []) (fun w hw => hw) fun _ =>
      Triple.pure _ fun w hw => ?_
    exact fun _ => by rw [hw]; rfl
  refine Triple.bind (Q := fun _ w => w.stream.dev.replies = []) (fun w hw => hw) fun _ => ?_
  refine Triple.bind (Q := fun _ w => Calloced w.stream) (fun w hw => ⟨hw, rfl⟩) fun _ => ?_
  refine Triple.bind (hI.opsOpen none .hw) fun fd => Triple.ite (fun _ => ?_) fun _ =>
    pcmOpenOn_opened ops config _ _ fd
  refine Triple.bind hI.sndUtilsOpenPcm fun node => Triple.ite (fun _ => ?_) fun _ => ?_
  · exact Triple.bind (hI.badOops _) fun _ => (failCloseDevNode_opened node).pre fun w hw => hw.nothing
  · exact Triple.bind (hI.opsOpen node .plug) fun fd => pcmOpenOn_opened ops config _ _ fd

end

theorem pcmClose_balanced (ops : Backend → PcmOps σ) (h : PcmBackend) :
    Triple (fun w => Owns w.stream ∧ (w.stream.pcm.isMmap → w.stream.pcm.mmapBuffer.isMapped))
      (pcmClose (fun b => recording (ops b)) (some h)) fun _ w =>
        Obliging w.stream.dev.replies → MapsBalanced w.stream.dev.replies := by
  have hI := stream_invariant (σ := σ) fun w => Obliging w.dev.replies → MapsBalanced w.dev.replies
  refine Triple.bind (onStream_spec pcmTearDown_balanced) fun _ => Triple.bind (hI.closeDevNode _) fun _ =>
    Triple.bind (hI.opsClose _) fun _ => ?_
  exact Triple.bind (onStream_spec (P := fun w => Obliging w.dev.replies → MapsBalanced w.dev.replies)
    (Q := fun _ w => Obliging w.dev.replies → MapsBalanced w.dev.replies) fun w hw => hw) fun _ =>
      Triple.bind (hI.note _) fun _ => Triple.pure _ fun _ hw => hw

/-- A `pcm_open` that fails leaves nothing mapped; and after any calls that keep the mappings, `pcm_close`
unmaps each once and as it was mapped, and nothing else. The backend refuses no `munmap`, and no `SW_PARAMS` that
follows a mapping of the sample buffer. -/
theorem pcmOpen_pcmClose_balanced (ops : Backend → PcmOps σ) (a : OpenAnswers) (card device flags : UInt32)
    (config : Option PcmConfig) {w : World (Recorded σ)} (hw : w.dev.replies = []) :
    let recorded := fun b => recording (ops b)
    let opened := exec (pcmOpen a card device flags recorded config) { stream := w }
    (opened.1 = none → Obliging opened.2.stream.dev.replies → live opened.2.stream.dev.replies = []) ∧
      ∀ h w', opened.1 = some h → KeepingRun (recorded h.ops) opened.2.stream w' →
        (w'.pcm.isMmap → w'.pcm.mmapBuffer.isMapped) →
          let closed := exec (pcmClose recorded (some h)) { opened.2 with stream := w' }
          Obliging closed.2.stream.dev.replies → MapsBalanced closed.2.stream.dev.replies := by
  intro recorded opened
  have hopened : Opened opened.1 opened.2.stream := pcmOpen_opened ops config _ hw
  refine ⟨fun hnone => ?_, fun h w' hsome hrun hbuf => ?_⟩
  · rw [hnone] at hopened
    exact hopened
  · rw [hsome] at hopened
    exact pcmClose_balanced ops h _ ⟨hrun.owns hopened, hbuf⟩

end

/-! ## On a device -/

/-- A device that maps everything, each at an address of its own. -/
def mappingOps : PcmOps Unit :=
  { refiningOps id with
    mmap := fun offset _ d =>
      match offset with
      | .data => (.addr 0x10000, none, d)
      | .status => (.addr 0x20000, none, d)
      | .control => (.addr 0x30000, none, d) }

/-- A card with the device. -/
def hwAnswers : OpenAnswers where
  openHw := fun _ => 3
  openCard := fun _ => false
  getPcm := fun _ => false
  getInt := fun _ => (0, none)
  getStr := fun _ => (0, none)
  dlopenPlugin := fun _ => false
  hwRefine := fun p => (⟨0, none⟩, p)

def unrecorded : World (Recorded Unit) where
  pcm := callocedPcm
  dev := { dev := () }
  user := ⟨0, fun _ => 0⟩

/-- `pcm_open` of a playback stream with a mapped sample buffer. -/
def mmapOpened (ops : PcmOps Unit) : Option PcmBackend × OpenWorld (Recorded Unit) :=
  exec (pcmOpen hwAnswers 0 0 pcmMmap (fun _ => recording ops) (some stereoConfig)) { stream := unrecorded }

/-- The stream once it is prepared. -/
def mmapPrepared : World (Recorded Unit) :=
    (exec (PcmApi.prepare.call (recording mappingOps)) (mmapOpened mappingOps).2.stream).2

theorem pcmOpen_pcmClose_balanced_prepared :
    (mmapOpened mappingOps).1.isSome ∧
      MapsBalanced (exec (pcmClose (fun _ => recording mappingOps) (mmapOpened mappingOps).1)
        { (mmapOpened mappingOps).2 with stream := mmapPrepared }).2.stream.dev.replies := by
  have hopened : (mmapOpened mappingOps).1.isSome := by decide +kernel
  obtain ⟨h, hsome⟩ := Option.isSome_iff_exists.1 hopened
  have hrun : KeepingRun (recording mappingOps) (mmapOpened mappingOps).2.stream mmapPrepared :=
    .call .start (mmapOpened mappingOps).2.stream.user .prepare trivial
  have hclosed := (pcmOpen_pcmClose_balanced (fun _ => mappingOps) hwAnswers 0 0 pcmMmap (some stereoConfig)
    (w := unrecorded) rfl).2 h mmapPrepared hsome hrun (by decide +kernel)
  rw [← hsome] at hclosed
  exact ⟨hopened, hclosed (by decide +kernel)⟩

/-- A device that refuses `SW_PARAMS`: `pcm_open` fails and leaves the sample buffer mapped. -/
theorem pcmOpen_pcmClose_balanced_not :
    (mmapOpened { mappingOps with swParams := fun p d => (⟨-1, some eInval⟩, p, d) }).1.isNone ∧
      live (mmapOpened { mappingOps with swParams := fun p d => (⟨-1, some eInval⟩, p, d) }).2.stream.dev.replies ≠
      [] := by
  decide +kernel

end Tinyalsa
