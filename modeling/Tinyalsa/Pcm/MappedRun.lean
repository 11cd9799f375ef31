/-
Calls on a memory-mapped stream, from one to the next: what is written is what the hardware plays, and what it
records is what is read. A restart drops what is queued; nothing else is lost, and nothing is moved twice.
-/
import Tinyalsa.Pcm.Fifo

namespace Tinyalsa

open Hoare RingBuffer

/-! ## The backend -/

section

variable {σ : Type} (ops : PcmOps σ) (trail : σ → List UInt8)

/-- How a backend treats the ring: the hardware may move on in any command, and `PREPARE` empties the ring. -/
structure StreamLaws (p : Pcm) : Prop extends FifoLaws ops trail p where
  cmdMoves : ∀ c d, c ≠ .prepare → (ops.status d).hwPtr < p.boundary → HwStep ops trail p d (ops.cmd c d).2
  pollMoves : ∀ t d, (ops.status d).hwPtr < p.boundary → HwStep ops trail p d (ops.poll t d).2.2
  prepareRefused : ∀ d, (ops.status d).hwPtr < p.boundary → (ops.cmd .prepare d).1.ret < 0 →
    HwStep ops trail p d (ops.cmd .prepare d).2
  prepareEmpties : ∀ d, (ops.status d).hwPtr < p.boundary → 0 ≤ (ops.cmd .prepare d).1.ret →
    (∃ d', HwStep ops trail p d d' ∧ trail (ops.cmd .prepare d).2 = trail d') ∧
      (ops.status (ops.cmd .prepare d).2).hwPtr = (ops.control (ops.cmd .prepare d).2).applPtr ∧
      (ops.control (ops.cmd .prepare d).2).applPtr < p.boundary

end

/-- The call prepares the stream anew. -/
def PcmCall.prepares : PcmCall → Bool
  | .cmd .prepare _ => true
  | _ => false

/-- How often the stream was prepared. -/
def timesPrepared (trace : List PcmCall) : Nat := trace.countP PcmCall.prepares

theorem timesPrepared_cons {c : PcmCall} (hc : c.prepares = false) (l : List PcmCall) :
    timesPrepared (c :: l) = timesPrepared l := by
  unfold timesPrepared
  rw [List.countP_cons_of_neg (by rw [hc]; exact Bool.false_ne_true)]

theorem timesPrepared_le_cons (c : PcmCall) (l : List PcmCall) : timesPrepared l ≤ timesPrepared (c :: l) := by
  unfold timesPrepared
  rw [List.countP_cons]
  exact Nat.le_add_right ..

/-! ## The stream between two calls -/

section

variable {σ : Type} (ops : PcmOps σ) (trail : σ → List UInt8)

/-- The bytes that went through the ring since `w₀`, against those the calls have reported: for playback some of what
was queued when the stream was prepared anew is missing among the first, for capture among the second. -/
structure Carried (w₀ : World σ) (bytes sent : List UInt8) (w : World σ) : Prop where
  since : timesPrepared w₀.trace ≤ timesPrepared w.trace
  playback : w₀.pcm.isIn = false → sent.Sublist (trail w₀.dev ++ bytes)
  capture : w₀.pcm.isIn = true → (trail w₀.dev ++ bytes).Sublist sent
  all : timesPrepared w.trace = timesPrepared w₀.trace → sent = trail w₀.dev ++ bytes

/-- The handle of `w₀` after some overruns. -/
def Pcm.overrun (p : Pcm) (n : Int) : Pcm := { p with xruns := n }

/-- The world between two calls that have reported these bytes. -/
def Carries (w₀ : World σ) (bytes : List UInt8) (w : World σ) : Prop :=
  ∃ n pos avail sent, Fifo ops trail (w₀.pcm.overrun n) pos sent [] w.user avail w ∧ Carried trail w₀ bytes sent w

/-- What a call makes of the caller's buffer: its size stays, and what it plays is only read. -/
structure BufferKept (p : Pcm) (user user' : UserBuf) : Prop where
  size : user'.size = user.size
  played : p.isIn = false → user' = user

/-- The world within a call: the first bytes of the caller's buffer are moved. -/
def Filling (w₀ : World σ) (bytes : List UInt8) (user : UserBuf) (moved : Nat) (w : World σ) : Prop :=
  BufferKept w₀.pcm user w.user ∧ Carries ops trail w₀ (bytes ++ stretch w.user.byte 0 moved) w

end

section

variable {σ : Type} {ops : PcmOps σ} {trail : σ → List UInt8} {w₀ w w' : World σ} {bytes sent : List UInt8}

theorem HwStep.overrun {p : Pcm} {d d' : σ} (h : HwStep ops trail p d d') (n : Int) :
    HwStep ops trail (p.overrun n) d d' := ⟨h.control, h.moves⟩

theorem StreamLaws.overrun {p : Pcm} (hl : StreamLaws ops trail p) (n : Int) : StreamLaws ops trail (p.overrun n) :=
  { hl with
    syncMoves := fun s d hd => by
      obtain ⟨d', hstep, hrest⟩ := hl.syncMoves s d hd
      exact ⟨d', hstep.overrun n, hrest⟩
    hwsyncMoves := fun d hd => (hl.hwsyncMoves d hd).overrun n
    runMoves := fun d hd => (hl.runMoves d hd).overrun n
    cmdMoves := fun c d hc hd => (hl.cmdMoves c d hc hd).overrun n
    pollMoves := fun t d hd => (hl.pollMoves t d hd).overrun n
    prepareRefused := fun d hd hret => (hl.prepareRefused d hd hret).overrun n
    prepareEmpties := fun d hd hret => by
      obtain ⟨⟨d', hstep, htrail⟩, hrest⟩ := hl.prepareEmpties d hd hret
      exact ⟨⟨d', hstep.overrun n, htrail⟩, hrest⟩ }

theorem ByteSized.overrun {p : Pcm} (hp : ByteSized p) (n : Int) : ByteSized (p.overrun n) :=
  ⟨⟨hp.nonempty, hp.divides, hp.twice, hp.fits⟩, hp.frame, hp.bytes⟩

/-! ## One step -/

/-- A step that moves nothing between the caller and the ring. -/
theorem Filling.step {n : Int} {user : UserBuf} {pos moved avail : Nat} (hkept : BufferKept w₀.pcm user w.user)
    (hc : Carried trail w₀ (bytes ++ stretch w.user.byte 0 moved) sent w)
    (hf : Fifo ops trail (w₀.pcm.overrun n) pos sent [] w.user avail w')
    (ht : timesPrepared w'.trace = timesPrepared w.trace) : Filling ops trail w₀ bytes user moved w' := by
  have huser := hf.user
  refine ⟨by rwa [huser], n, pos, avail, sent, by rwa [huser], ?_⟩
  rw [huser]
  exact ⟨by rw [ht]; exact hc.since, hc.playback, hc.capture, fun h => hc.all (ht ▸ h)⟩

/-- Waiting and starting moves nothing. -/
theorem Filling.wait (hl : StreamLaws ops trail w₀.pcm) (hp : ByteSized w₀.pcm) (bytes : List UInt8) (user : UserBuf)
    (moved : Nat) : WaitInvariant ops (Filling ops trail w₀ bytes user moved) where
  error w e := by
    rintro ⟨hkept, n, pos, avail, sent, hf, hc⟩
    exact .step hkept hc ((Fifo.ringInvariant (hp.overrun n) (hl.overrun n).toFifoLaws).error _ _ e hf) rfl
  run w := by
    rintro ⟨hkept, n, pos, avail, sent, hf, hc⟩
    obtain ⟨b, -, hb⟩ := (Fifo.ringInvariant (hp.overrun n) (hl.overrun n).toFifoLaws).run _ _ hf
    exact .step hkept hc hb rfl
  hwsync w := by
    rintro ⟨hkept, n, pos, avail, sent, hf, hc⟩
    obtain ⟨b, -, hb⟩ := (Fifo.ringInvariant (hp.overrun n) (hl.overrun n).toFifoLaws).hwsync _ _ hf
    exact .step hkept hc hb (timesPrepared_cons rfl _)
  sync w s flags hs := by
    rintro ⟨hkept, n, pos, avail, sent, hf, hc⟩
    obtain ⟨-, -, b, -, hb⟩ := (Fifo.ringInvariant (hp.overrun n) (hl.overrun n).toFifoLaws).sync _ _ _ flags hs hf
    exact .step hkept hc hb (timesPrepared_cons rfl _)
  errno w e := by
    rintro ⟨hkept, n, pos, avail, sent, hf, hc⟩
    exact .step hkept hc ⟨hf.same, hf.queue, hf.agrees, hf.fault, rfl⟩ rfl
  poll w t := by
    rintro ⟨hkept, n, pos, avail, sent, hf, hc⟩
    have hmoves := (hl.overrun n).pollMoves t w.dev (hf.hwPtr_lt (hp.overrun n))
    obtain ⟨b, -, hb⟩ := hf.hwStep (hp.overrun n) (exec (opsPoll ops t) w).2 hmoves rfl hf.same rfl rfl
    exact .step hkept hc hb (timesPrepared_cons rfl _)
  start w := by
    rintro ⟨hkept, n, pos, avail, sent, hf, hc⟩
    have hmoves := (hl.overrun n).cmdMoves .start w.dev nofun (hf.hwPtr_lt (hp.overrun n))
    obtain ⟨b, -, hb⟩ := hf.hwStep (hp.overrun n) (exec (ioctl ops .start) w).2 hmoves rfl hf.same rfl rfl
    exact .step hkept hc hb (timesPrepared_cons rfl _)

/-- The ring just emptied: all that went through it is what the hardware has seen. -/
theorem Queue.emptied {p : Pcm} {d : σ} (heq : (ops.status d).hwPtr = (ops.control d).applPtr)
    (hlt : (ops.control d).applPtr < p.boundary) :
    Queue ops trail p (ops.control d).applPtr.toNat (trail d) [] p.lead d := by
  have hmod := Nat.mod_eq_of_lt (UInt64.lt_iff_toNat_lt.1 hlt)
  refine ⟨⟨hmod.symm, ⟨_, rfl, by rw [heq, hmod]⟩, ?_⟩, fun hout => ?_, fun hin => ?_, Nat.zero_le _, window_zero _⟩
  · unfold Pcm.lead
    split
    · exact Nat.zero_le _
    · exact le_rfl
  · simp [Pcm.lead, hout]
  · simp [Pcm.lead, hin]

/-- The stream was prepared: what was queued for playback may be missing, or what was recorded and not read. -/
theorem Carried.prepared {sent' : List UInt8} (h : Carried trail w₀ bytes sent w)
    (ht : timesPrepared w'.trace = timesPrepared w.trace + 1)
    (hout : w₀.pcm.isIn = false → sent'.Sublist sent) (hin : w₀.pcm.isIn = true → sent.Sublist sent') :
    Carried trail w₀ bytes sent' w' where
  since := by have := h.since; omega
  playback hdir := (hout hdir).trans (h.playback hdir)
  capture hdir := (h.capture hdir).trans (hin hdir)
  all heq := by have := h.since; omega

/-- What the hardware has seen when the stream is prepared, against what went through the ring. -/
theorem Queue.dropped {p : Pcm} {pos avail : Nat} {d : σ} (h : Queue ops trail p pos sent [] avail d) :
    (p.isIn = false → (trail d).Sublist sent) ∧ (p.isIn = true → sent.Sublist (trail d)) := by
  constructor
  · intro hout
    rw [h.playback hout]
    exact List.sublist_append_left ..
  · intro hin
    rw [h.capture hin]
    exact List.sublist_append_left ..

/-- Reading the pointer back from the emptied ring. -/
theorem pcmSyncPtr_emptied {p : Pcm} (hl : StreamLaws ops trail p) (hp : ByteSized p) (hsame : p.Same w.pcm)
    (heq : (ops.status w.dev).hwPtr = (ops.control w.dev).applPtr) (hlt : (ops.control w.dev).applPtr < p.boundary)
    (hfault : w.fault = false) :
    ∃ pos avail, Fifo ops trail p pos (trail w.dev) [] w.user avail
        (exec (pcmSyncPtr ops { appl := true, availMin := true }) w).2 ∧
      timesPrepared (exec (pcmSyncPtr ops { appl := true, availMin := true }) w).2.trace = timesPrepared w.trace := by
  have hempty : Queue ops trail p (ops.control w.dev).applPtr.toNat (trail w.dev) [] p.lead w.dev :=
    .emptied heq hlt
  unfold pcmSyncPtr
  cases hs : w.pcm.syncPtr with
  | none =>
    simp only [exec_bind, exec_get, hs, Bool.false_eq_true, if_false, exec_pure]
    exact ⟨_, _, ⟨hsame, hempty, .of_mapped hs, hfault, rfl⟩, trivial⟩
  | some s =>
    obtain ⟨hret, hfresh⟩ := hl.accepts { s with flags := { appl := true, availMin := true } } w.dev
    obtain ⟨d', hstep, hst, hbuf, htr⟩ :=
      hl.syncMoves { s with flags := { appl := true, availMin := true } } w.dev (heq ▸ hlt)
    obtain ⟨hctl, hcopy⟩ := hl.syncPtr _ _ hret
    obtain ⟨b, -, hq⟩ := hempty.hwStep hp.toRingSized hp.frame hstep
    simp only [exec_bind, exec_get, hs, exec_ite, exec_ioctlSyncPtr, exec_pure]
    rw [if_neg (not_lt.2 hret)]
    refine ⟨_, b, ⟨hsame.trans ⟨_, w.pcm.error, rfl⟩, hq.congr hst ?_ hbuf htr, fun s' hs' => ?_, hfault, rfl⟩,
      timesPrepared_cons rfl _⟩
    · rw [hstep.control]
      exact congrArg SndPcmMmapControl.applPtr hctl
    · rw [← Option.some.inj hs']
      exact congrArg SndPcmMmapControl.applPtr hcopy.symm

/-- `PREPARE` and the reading of the pointer behind it: what was queued is dropped. -/
theorem Filling.prepare (hl : StreamLaws ops trail w₀.pcm) (hp : ByteSized w₀.pcm) (bytes : List UInt8)
    (user : UserBuf) (moved : Nat) : KeepsPcm (Filling ops trail w₀ bytes user moved) (pcmPrepare ops) := by
  have hwait := Filling.wait hl hp bytes user moved
  rintro w ⟨hkept, n, pos, avail, sent, hf, hc⟩
  have hlt := hf.hwPtr_lt (hp.overrun n)
  have hcount : timesPrepared (.cmd .prepare (ops.cmd .prepare w.dev).1.ret :: w.trace) = timesPrepared w.trace + 1 :=
    List.countP_cons_of_pos rfl
  unfold pcmPrepare
  simp only [exec_bind, exec_ioctl, exec_ite, exec_get]
  by_cases hret : (ops.cmd .prepare w.dev).1.ret < 0
  · rw [if_pos hret]
    obtain ⟨b, -, hb⟩ := hf.hwStep (hp.overrun n) (exec (ioctl ops .prepare) w).2
      ((hl.overrun n).prepareRefused w.dev hlt hret) rfl hf.same rfl rfl
    refine hwait.error _ _ ⟨hkept, n, pos, b, sent, hb, ?_⟩
    exact hc.prepared hcount (fun _ => .refl _) fun _ => .refl _
  · rw [if_neg hret]
    obtain ⟨⟨d', hstep, htrail⟩, heq, hbound⟩ := (hl.overrun n).prepareEmpties w.dev hlt (not_lt.1 hret)
    obtain ⟨b, -, hq⟩ := hf.queue.hwStep (hp.overrun n).toRingSized hp.frame hstep
    obtain ⟨hout, hin⟩ := hq.dropped
    obtain ⟨pos', avail', hf', ht⟩ := pcmSyncPtr_emptied (w := (exec (ioctl ops .prepare) w).2) (hl.overrun n)
      (hp.overrun n) hf.same heq hbound hf.fault
    rw [exec_ioctl] at hf' ht
    have huser := hf'.user
    refine ⟨by rw [exec_pure, huser]; exact hkept, n, pos', avail', _, by rw [exec_pure, huser]; exact hf', ?_⟩
    rw [exec_pure, huser]
    refine hc.prepared (ht.trans hcount) (fun hdir => ?_) fun hdir => ?_
    · rw [World.push_dev, World.answered_dev, htrail]
      exact hout hdir
    · rw [World.push_dev, World.answered_dev, htrail]
      exact hin hdir

/-- Starting may prepare the stream first. -/
theorem Filling.start (hl : StreamLaws ops trail w₀.pcm) (hp : ByteSized w₀.pcm) (bytes : List UInt8)
    (user : UserBuf) (moved : Nat) : KeepsPcm (Filling ops trail w₀ bytes user moved) (pcmStart ops) := by
  have hwait := Filling.wait hl hp bytes user moved
  refine Triple.bind hwait.pcmState fun _ => Triple.ite (fun _ => ?_) fun _ => hwait.pcmStartPrepared
  exact Triple.bind (Filling.prepare hl hp bytes user moved) fun _ =>
    Triple.ite (fun _ => KeepsPcm.pure _) fun _ => hwait.pcmStartPrepared

theorem Filling.startIfReached (hl : StreamLaws ops trail w₀.pcm) (hp : ByteSized w₀.pcm) (bytes : List UInt8)
    (user : UserBuf) (moved : Nat) (isPlayback : Bool) (state : PcmState) (avail : UInt32) :
    KeepsPcm (Filling ops trail w₀ bytes user moved) (startIfReached ops isPlayback state avail) :=
  Triple.bind KeepsPcm.get fun _ => Triple.ite
    (fun _ => Triple.bind (Filling.start hl hp bytes user moved) fun _ => KeepsPcm.pure _) fun _ => KeepsPcm.pure _

theorem Filling.startCapture (hl : StreamLaws ops trail w₀.pcm) (hp : ByteSized w₀.pcm) (bytes : List UInt8)
    (user : UserBuf) (moved : Nat) (state : PcmState) (frames : UInt32) :
    KeepsPcm (Filling ops trail w₀ bytes user moved) (startCapture ops state frames) :=
  Triple.bind KeepsPcm.get fun _ => Triple.ite
    (fun _ => Triple.bind (Filling.start hl hp bytes user moved) fun _ => KeepsPcm.pure _) fun _ => KeepsPcm.pure _

/-- An overrun is counted. -/
theorem Filling.xruns {user : UserBuf} {moved : Nat} (h : Filling ops trail w₀ bytes user moved w) :
    Filling ops trail w₀ bytes user moved (w.setPcm { w.pcm with xruns := CInt.wrapInt (w.pcm.xruns + 1) }) := by
  obtain ⟨hkept, n, pos, avail, sent, hf, hc⟩ := h
  obtain ⟨s, e, hpcm⟩ := hf.same
  have hsame : (w₀.pcm.overrun (CInt.wrapInt (w.pcm.xruns + 1))).Same
    { w.pcm with xruns := CInt.wrapInt (w.pcm.xruns + 1) } :=
    ⟨s, e, by rw [hpcm]; rfl⟩
  obtain ⟨happl, hhw, hle⟩ := hf.queue.positions
  have hqueue : Queue ops trail (w₀.pcm.overrun (CInt.wrapInt (w.pcm.xruns + 1))) pos sent [] avail w.dev :=
    ⟨⟨happl, hhw, hle⟩, hf.queue.playback, hf.queue.capture, hf.queue.ahead, hf.queue.holds⟩
  exact ⟨hkept, CInt.wrapInt (w.pcm.xruns + 1), pos, avail, sent, ⟨hsame, hqueue, hf.agrees, hf.fault, rfl⟩,
    ⟨hc.since, hc.playback, hc.capture, hc.all⟩⟩

/-- After an overrun the stream is prepared anew, where that is not forbidden. -/
theorem Filling.restarts (hl : StreamLaws ops trail w₀.pcm) (hp : ByteSized w₀.pcm) (bytes : List UInt8)
    (user : UserBuf) (moved : Nat) : KeepsPcm (Filling ops trail w₀ bytes user moved) (pcmRestarts ops) := by
  have hrest : KeepsPcm (Filling ops trail w₀ bytes user moved) (do
      if (← MonadState.get : World σ).pcm.isNorestart then return false else return (← pcmPrepare ops) = 0 :
        PcmM σ Bool) :=
    Triple.bind KeepsPcm.get fun _ => Triple.ite (fun _ => KeepsPcm.pure _) fun _ =>
      Triple.bind (Filling.prepare hl hp bytes user moved) fun _ => KeepsPcm.pure _
  have hxruns : KeepsPcm (Filling ops trail w₀ bytes user moved)
      (modifyPcm (σ := σ) fun p => { p with xruns := CInt.wrapInt (p.xruns + 1) }) := fun _ => Filling.xruns
  refine Triple.bind KeepsPcm.get fun _ => Triple.ite (fun _ => Triple.bind hxruns fun _ => ?_) fun _ => ?_
  · exact Triple.ite (fun _ => hrest) fun _ => KeepsPcm.pure _
  · exact Triple.ite (fun _ => hrest) fun _ => KeepsPcm.pure _

/-! ## Transfers -/

/-- The stream plays from the caller's buffer. -/
structure PlaysFrom (user : UserBuf) (w : World σ) : Prop where
  out : w.pcm.isIn = false
  user : w.user = user

theorem PlaysFrom.wait (ops : PcmOps σ) (user : UserBuf) : WaitInvariant ops (PlaysFrom user) where
  error _ _ h := ⟨h.out, h.user⟩
  run _ h := ⟨h.out, h.user⟩
  hwsync _ h := ⟨h.out, h.user⟩
  sync _ _ _ _ h := ⟨h.out, h.user⟩
  errno _ _ h := ⟨h.out, h.user⟩
  poll _ _ h := ⟨h.out, h.user⟩
  start _ h := ⟨h.out, h.user⟩

theorem PlaysFrom.record (user : UserBuf) (c : PcmCall) : KeepsPcm (PlaysFrom user) (record (σ := σ) c) :=
  fun _ h => ⟨h.out, h.user⟩

theorem PlaysFrom.copy (user : UserBuf) (pcmOffset srcOffset frames : UInt32) :
    KeepsPcm (PlaysFrom user) (pcmAreasCopy ops pcmOffset srcOffset frames) := by
  refine Triple.bind KeepsPcm.get fun _ => Triple.bind (PlaysFrom.record user _) fun _ => ?_
  refine Triple.ite (fun _ => ?_) fun _ => Triple.modify fun _ h => ⟨h.out, h.user⟩
  intro w h
  have hout := h.out
  simp only [ringCopy, exec_modify, hout, Bool.false_eq_true, if_false]
  exact ⟨hout, h.user⟩

theorem PlaysFrom.commit (hl : ControlLaws ops) (user : UserBuf) (frames : UInt32) :
    KeepsPcm (PlaysFrom user) (pcmMmapCommit ops frames) := by
  have hforward : KeepsPcm (PlaysFrom user) (pcmMmapApplForward ops (CInt.ofUInt frames)) := by
    intro w h
    obtain ⟨-, ⟨s, hpcm⟩, huser, -⟩ := pcmMmapApplForward_effect hl (CInt.ofUInt frames) w
    exact ⟨by rw [hpcm]; exact h.out, huser.trans h.user⟩
  refine Triple.bind hforward fun _ => Triple.bind ((PlaysFrom.wait ops user).pcmSyncPtr _) fun _ => ?_
  exact Triple.bind (PlaysFrom.record user _) fun _ => KeepsPcm.pure _

/-- Playback only reads the caller's buffer. -/
theorem PlaysFrom.loop (hl : ControlLaws ops) (user : UserBuf) : ∀ (fuel : Nat) (offset size count : UInt32),
    KeepsPcm (PlaysFrom user) (transferAreasLoop ops fuel offset size count)
  | 0, _, _, _ => KeepsPcm.pure _
  | fuel + 1, offset, size, count => by
    have hwait := PlaysFrom.wait ops user
    refine Triple.bind hwait.pcmMmapAvail fun _ => Triple.ite (fun _ => ?_) fun _ => KeepsPcm.pure _
    refine Triple.bind (hwait.pcmMmapBegin _) fun _ => Triple.bind (PlaysFrom.copy user _ _ _) fun _ => ?_
    refine Triple.bind (PlaysFrom.commit hl user _) fun _ => Triple.ite (fun _ => ?_) fun _ => ?_
    · exact Triple.bind (hwait.oops _ _) fun _ => KeepsPcm.pure _
    · exact PlaysFrom.loop hl user fuel _ _ _

theorem PlaysFrom.areas (hl : ControlLaws ops) (user : UserBuf) (fuel : Nat) (offset size : UInt32) :
    KeepsPcm (PlaysFrom user) (pcmMmapTransferAreas ops fuel offset size) :=
  Triple.bind (PlaysFrom.record user _) fun _ => PlaysFrom.loop hl user fuel offset size 0

/-- A transfer between the caller's buffer and the ring goes on where the bytes before it end. -/
theorem Filling.areas (hl : StreamLaws ops trail w₀.pcm) (hp : ByteSized w₀.pcm) {user : UserBuf}
    {offset frames : UInt32} (hint : Fifo.OffsetsFit w₀.pcm offset frames)
    (hfit : (offset.toNat + frames.toNat) * w₀.pcm.frameBytes ≤ user.size) (fuel : Nat) :
    Triple (Filling ops trail w₀ bytes user (offset.toNat * w₀.pcm.frameBytes))
      (pcmMmapTransferAreas ops fuel offset frames) fun res w => ∀ r, res = some r →
        ∃ t : UInt32, r = CInt.ofUInt t ∧ t.toNat ≤ frames.toNat ∧
          Filling ops trail w₀ bytes user ((offset.toNat + t.toNat) * w₀.pcm.frameBytes) w := by
  rintro w ⟨hkept, n, pos, avail, sent, hf, hc⟩ r hr
  have hcount : timesPrepared w.trace ≤
      timesPrepared (exec (pcmMmapTransferAreas ops fuel offset frames) w).2.trace := by
    have hkeeps : PcmInvariant ops fun w' => timesPrepared w.trace ≤ timesPrepared w'.trace :=
      .ofTrace (P := fun l => timesPrepared w.trace ≤ timesPrepared l) fun c l h => h.trans (timesPrepared_le_cons c l)
    exact hkeeps.pcmMmapTransferAreas fuel offset frames w le_rfl
  have hnote : Fifo ops trail (w₀.pcm.overrun n) pos sent [] w.user avail (w.push .areas) :=
    ⟨hf.same, hf.queue, hf.agrees, hf.fault, rfl⟩
  have hloop := @Fifo.transferAreasLoop _ _ _ _ (hp.overrun n) (hl.overrun n).toFifoLaws fuel _ _ _ _ _ offset frames 0
    hnote hint (by rw [hkept.size]; exact hfit)
  change (exec (transferAreasLoop ops fuel offset frames 0) (w.push .areas)).1 = some r at hr
  rw [hr] at hloop
  rcases hloop with ⟨hnone, -⟩ | ⟨t, hres, hmoved, ht⟩
  · cases hnone
  · rw [UInt32.zero_add] at hres
    obtain ⟨pos', user', avail', husize, hbytes, hf'⟩ := hmoved
    refine ⟨t, Option.some.inj hres, ht, ?_⟩
    change Fifo ops trail (w₀.pcm.overrun n) pos' (sent ++ stretch user'.byte (offset.toNat * w₀.pcm.frameBytes)
      (t.toNat * w₀.pcm.frameBytes)) [] user' avail' (exec (pcmMmapTransferAreas ops fuel offset frames) w).2 at hf'
    have huser := hf'.user
    have hbefore : stretch w.user.byte 0 (offset.toNat * w₀.pcm.frameBytes) =
        stretch user'.byte 0 (offset.toNat * w₀.pcm.frameBytes) := by
      refine stretch_congr fun i hi => ?_
      rw [Nat.zero_add]
      exact (hbytes i hi).symm
    have hall : bytes ++ stretch user'.byte 0 ((offset.toNat + t.toNat) * w₀.pcm.frameBytes) =
        bytes ++ stretch w.user.byte 0 (offset.toNat * w₀.pcm.frameBytes) ++
          stretch user'.byte (offset.toNat * w₀.pcm.frameBytes) (t.toNat * w₀.pcm.frameBytes) := by
      rw [hbefore, List.append_assoc, Nat.add_mul, stretch_add, Nat.zero_add]
    have hplayed : w₀.pcm.isIn = false → user' = user := by
      intro hout
      have hin : w.pcm.isIn = false := by
        obtain ⟨s, e, hpcm⟩ := hf.same
        rw [hpcm]
        exact hout
      have hplays := PlaysFrom.areas hl.toControlLaws user fuel offset frames w ⟨hin, hkept.played hout⟩
      exact huser.symm.trans hplays.user
    refine ⟨by rw [huser]; exact ⟨husize.trans hkept.size, hplayed⟩, n, pos', avail', _, by rwa [huser], ?_⟩
    rw [huser, hall]
    refine ⟨hc.since.trans hcount, fun hdir => ?_, fun hdir => ?_, fun heq => ?_⟩
    · rw [← List.append_assoc]
      exact (hc.playback hdir).append_right _
    · rw [← List.append_assoc]
      exact (hc.capture hdir).append_right _
    · have hsince := hc.since
      rw [hc.all (by omega)]
      simp only [List.append_assoc]

/-- What a part of a transfer that may end early leaves: the offset it ends at, and all before it moved. -/
def MovedTo (ops : PcmOps σ) (trail : σ → List UInt8) (w₀ : World σ) (bytes : List UInt8) (user : UserBuf) (total : Nat)
    (res : Option UInt32) (w : World σ) : Prop :=
  ∀ userOffset, res = some userOffset →
    userOffset.toNat ≤ total ∧ Filling ops trail w₀ bytes user (userOffset.toNat * w₀.pcm.frameBytes) w

/-- The loop of a transfer. -/
theorem Filling.loop (hl : StreamLaws ops trail w₀.pcm) (hp : ByteSized w₀.pcm) {user : UserBuf} (isPlayback : Bool)
    (state : PcmState) : ∀ (fuel : Nat) (userOffset frames : UInt32), Fifo.OffsetsFit w₀.pcm userOffset frames →
      (userOffset.toNat + frames.toNat) * w₀.pcm.frameBytes ≤ user.size →
      userOffset.toNat + frames.toNat ≤ CInt.intMax →
      Triple (Filling ops trail w₀ bytes user (userOffset.toNat * w₀.pcm.frameBytes))
        (mmapTransferLoop ops isPlayback state fuel userOffset frames)
        (MovedTo ops trail w₀ bytes user (userOffset.toNat + frames.toNat))
  | 0, _, _, _, _, _ => Triple.pure _ fun _ _ _ h => nomatch h
  | fuel + 1, userOffset, frames, hint, hfit, hmax => by
    have hwait := Filling.wait hl hp bytes user (userOffset.toNat * w₀.pcm.frameBytes)
    have hstop : Triple (Filling ops trail w₀ bytes user (userOffset.toNat * w₀.pcm.frameBytes))
        (pure (some userOffset)) (MovedTo ops trail w₀ bytes user (userOffset.toNat + frames.toNat)) := by
      refine Triple.pure _ fun w hw _ h => ?_
      cases h
      exact ⟨Nat.le_add_right .., hw⟩
    refine Triple.ite (fun _ => hstop) fun _ => Triple.bind hwait.pcmMmapAvail fun avail => ?_
    refine Triple.bind (hwait.waitForRoom fuel _) fun r => ?_
    rcases r with _ | _ | _
    · exact Triple.pure _ fun _ _ _ h => nomatch h
    · exact hstop
    refine Triple.bind (Filling.areas hl hp hint hfit fuel) fun r => ?_
    cases r with
    | none => exact Triple.pure _ fun _ _ _ h => nomatch h
    | some transferred =>
      rintro w hw
      obtain ⟨t, htransferred, ht, hfilled⟩ := hw transferred rfl
      have hadd : (userOffset + t).toNat = userOffset.toNat + t.toNat := by
        unfold CInt.intMax at hmax
        rw [UInt32.toNat_add, Nat.mod_eq_of_lt (by omega)]
      have hrest : (frames - t).toNat = frames.toNat - t.toNat :=
        UInt32.toNat_sub_of_le _ _ (UInt32.le_iff_toNat_le.2 ht)
      have htotal : (userOffset + t).toNat + (frames - t).toNat = userOffset.toNat + frames.toNat := by omega
      have hneg : ¬ transferred < 0 := by
        rw [htransferred, CInt.ofUInt_of_le (by omega)]
        exact not_lt.2 (Int.natCast_nonneg _)
      have hmoved : CInt.toUInt transferred = t := by rw [htransferred, CInt.toUInt_ofUInt]
      rw [← hadd] at hfilled
      simp only [if_neg hneg, hmoved]
      refine Triple.bind (Filling.startIfReached hl hp bytes user _ isPlayback state _) (fun goesOn => ?_) w hfilled
      refine Triple.ite (fun _ => ?_) fun _ => Triple.pure _ fun w hw _ h => ?_
      · rw [← htotal]
        refine Filling.loop hl hp isPlayback state fuel _ _ (fun i hi => ?_) ?_ ?_
        · rw [hadd, Nat.add_assoc]
          exact hint _ (by omega)
        · rwa [htotal]
        · rwa [htotal]
      · cases h
        exact ⟨by omega, hw⟩

/-- What a call leaves that is to move `frames`: those that it reports are moved, and none where it fails. -/
def RingReported (ops : PcmOps σ) (trail : σ → List UInt8) (w₀ : World σ) (bytes : List UInt8) (user : UserBuf)
    (frames : UInt32) (res : Option Int) (w : World σ) : Prop :=
  ∀ n, res = some n → n ≤ frames.toNat ∧ Filling ops trail w₀ bytes user (n.toNat * w₀.pcm.frameBytes) w

/-- A call that fails has moved nothing. -/
theorem RingReported.failed {user : UserBuf} {frames : UInt32} {e : Int} (he : e ≤ 0)
    (h : Filling ops trail w₀ bytes user 0 w) : RingReported ops trail w₀ bytes user frames (some e) w := by
  intro n hn
  rw [← Option.some.inj hn, Int.toNat_of_nonpos he, Nat.zero_mul]
  exact ⟨he.trans (Int.natCast_nonneg _), h⟩

theorem RingReported.of_neg {user : UserBuf} {frames : UInt32} {n : Int} (hn : n < 0)
    (h : RingReported ops trail w₀ bytes user frames (some n) w) : Filling ops trail w₀ bytes user 0 w := by
  obtain ⟨-, hfilled⟩ := h n rfl
  rwa [Int.toNat_of_nonpos hn.le, Nat.zero_mul] at hfilled

/-- What the loop moved is what the transfer reports. -/
theorem MovedTo.ringReported {user : UserBuf} {frames : UInt32} (hmax : frames.toNat ≤ CInt.intMax)
    {res : Option UInt32} (h : MovedTo ops trail w₀ bytes user frames.toNat res w) :
    RingReported ops trail w₀ bytes user frames (res.map transferResult) w := by
  cases res with
  | none => exact fun _ hn => nomatch hn
  | some userOffset =>
    obtain ⟨hle, hfilled⟩ := h userOffset rfl
    rw [Option.map_some]
    unfold transferResult
    by_cases hzero : userOffset = 0
    · rw [if_neg (not_not.2 hzero)]
      rw [hzero, UInt32.toNat_zero, Nat.zero_mul] at hfilled
      exact .failed (by decide) hfilled
    · rw [if_pos hzero, CInt.ofUInt_of_le (hle.trans hmax)]
      intro n hn
      rw [← Option.some.inj hn, Int.toNat_natCast]
      exact ⟨Int.ofNat_le.2 hle, hfilled⟩

section

variable (hl : StreamLaws ops trail w₀.pcm) (hp : ByteSized w₀.pcm) {user : UserBuf} {frames : UInt32}
  (hint : Fifo.OffsetsFit w₀.pcm 0 frames) (hfit : frames.toNat * w₀.pcm.frameBytes ≤ user.size)

include hl hp hint hfit

theorem Filling.mmapTransfer (hmax : frames.toNat ≤ CInt.intMax) (fuel : Nat) :
    Triple (Filling ops trail w₀ bytes user 0) (pcmMmapTransfer ops fuel frames)
      (RingReported ops trail w₀ bytes user frames) := by
  have hwait := Filling.wait hl hp bytes user 0
  refine Triple.ite (fun _ => Triple.pure _ fun _ h => .failed le_rfl h) fun _ => ?_
  refine Triple.bind (hwait.pcmSyncPtr _) fun _ => Triple.ite (fun _ => ?_) fun _ => ?_
  · exact Triple.pure _ fun _ h => .failed (by decide) h
  refine Triple.bind hwait.mmapStatus fun status => ?_
  refine Triple.bind (Filling.startCapture hl hp bytes user 0 _ frames) fun goesOn =>
    Triple.ite (fun _ => ?_) fun _ => ?_
  · refine Triple.bind KeepsPcm.get fun w => ?_
    have hloop : Triple (Filling ops trail w₀ bytes user ((0 : UInt32).toNat * w₀.pcm.frameBytes))
        (mmapTransferLoop ops (!w.pcm.isIn) status.state fuel 0 frames)
        (MovedTo ops trail w₀ bytes user ((0 : UInt32).toNat + frames.toNat)) :=
      Filling.loop hl hp _ _ fuel 0 frames hint (by rwa [UInt32.toNat_zero, Nat.zero_add])
        (by rwa [UInt32.toNat_zero, Nat.zero_add])
    rw [UInt32.toNat_zero, Nat.zero_mul, Nat.zero_add] at hloop
    exact Triple.bind hloop fun res => Triple.pure _ fun _ h => h.ringReported hmax
  · exact Triple.pure _ fun _ h => .failed (by decide) h

/-- The tries of a transfer: one that fails has moved nothing, so that the next one starts over. -/
theorem Filling.transferAgain (hmmap : w₀.pcm.isMmap = true) (hmax : frames.toNat ≤ CInt.intMax) :
    ∀ fuel, Triple (Filling ops trail w₀ bytes user 0) (pcmTransferAgain ops fuel frames)
      (RingReported ops trail w₀ bytes user frames)
  | 0 => Triple.pure _ fun _ _ _ hn => nomatch hn
  | fuel + 1 => by
    have hwait := Filling.wait hl hp bytes user 0
    have honce : Triple (Filling ops trail w₀ bytes user 0) (pcmTransferOnce ops fuel frames)
        (RingReported ops trail w₀ bytes user frames) := by
      refine Triple.get_bind fun t => Triple.ite (fun _ => ?_) fun hrw => ?_
      · exact (Filling.mmapTransfer hl hp hint hfit hmax fuel).pre fun _ h => h.1
      · rintro _ ⟨⟨-, n, pos, avail, sent, hf, -⟩, rfl⟩
        obtain ⟨s, e, hpcm⟩ := hf.same
        rw [hpcm] at hrw
        exact absurd hmmap hrw
    refine Triple.bind honce fun res => ?_
    cases res with
    | none => exact Triple.pure _ fun _ _ _ hn => nomatch hn
    | some n =>
      refine Triple.ite (fun hneg => ?_) fun _ => Triple.pure _ fun _ h => h
      refine Triple.pre (P := Filling ops trail w₀ bytes user 0) ?_ fun _ h => h.of_neg hneg
      refine Triple.bind KeepsPcm.get fun _ => Triple.ite (fun _ => ?_) fun _ => ?_
      · refine Triple.bind (Filling.restarts hl hp bytes user 0) fun _ => Triple.ite (fun _ => ?_) fun _ => ?_
        · exact Filling.transferAgain hmmap hmax fuel
        · exact Triple.pure _ fun _ h => .failed (by decide) h
      · refine Triple.bind KeepsPcm.get fun _ => Triple.ite (fun _ => ?_) fun _ => ?_
        · exact Triple.pure _ fun _ h => .failed (by decide) h
        · exact fun w h => .failed (show (-1 : Int) ≤ 0 by decide) (hwait.oops _ _ w h)

theorem Filling.genericTransfer (hmmap : w₀.pcm.isMmap = true) (fuel : Nat) :
    Triple (Filling ops trail w₀ bytes user 0) (pcmGenericTransfer ops fuel frames)
      (RingReported ops trail w₀ bytes user frames) := by
  refine Triple.ite (fun _ => Triple.pure _ fun _ h => .failed (by decide) h) fun hmax => ?_
  have hagain : Triple (Filling ops trail w₀ bytes user 0) (pcmTransferAgain ops fuel frames)
      (RingReported ops trail w₀ bytes user frames) := Filling.transferAgain hl hp hint hfit hmmap (not_lt.1 hmax) fuel
  refine Triple.bind (Filling.wait hl hp bytes user 0).pcmState fun _ => Triple.ite (fun _ => ?_) fun _ => hagain
  refine Triple.bind (Filling.prepare hl hp bytes user 0) fun _ => Triple.ite (fun _ => ?_) fun _ => hagain
  exact Triple.pure _ fun _ h => .failed (by decide) h

theorem Filling.writei (hmmap : w₀.pcm.isMmap = true) (fuel : Nat) :
    Triple (Filling ops trail w₀ bytes user 0) (pcmWritei ops fuel frames)
      (RingReported ops trail w₀ bytes user frames) :=
  Triple.bind KeepsPcm.get fun _ => Triple.ite (fun _ => Triple.pure _ fun _ h => .failed (by decide) h) fun _ =>
    Filling.genericTransfer hl hp hint hfit hmmap fuel

theorem Filling.readi (hmmap : w₀.pcm.isMmap = true) (fuel : Nat) :
    Triple (Filling ops trail w₀ bytes user 0) (pcmReadi ops fuel frames)
      (RingReported ops trail w₀ bytes user frames) :=
  Triple.bind KeepsPcm.get fun _ => Triple.ite (fun _ => Filling.genericTransfer hl hp hint hfit hmmap fuel) fun _ =>
    Triple.pure _ fun _ h => .failed (by decide) h

end

/-! ## Calls in between -/

/-- A command that does not prepare the stream. -/
theorem Filling.cmd (hl : StreamLaws ops trail w₀.pcm) (hp : ByteSized w₀.pcm) (bytes : List UInt8) (user : UserBuf)
    (moved : Nat) {c : PcmCmd} (hc : c ≠ .prepare) :
    KeepsPcm (Filling ops trail w₀ bytes user moved) (ioctl ops c) := by
  rintro w ⟨hkept, n, pos, avail, sent, hf, hcarried⟩
  have hmoves := (hl.overrun n).cmdMoves c w.dev hc (hf.hwPtr_lt (hp.overrun n))
  obtain ⟨b, -, hb⟩ := hf.hwStep (hp.overrun n) (exec (ioctl ops c) w).2 hmoves rfl hf.same rfl rfl
  refine .step hkept hcarried hb (timesPrepared_cons ?_ _)
  cases c with
  | prepare => exact absurd rfl hc
  | start | drop | drain | hwsync | unlink => rfl

/-- The calls that move nothing between the caller and the ring. -/
inductive StreamCall
  | prepare
  | start
  | stop
  | drain
  | state
  | wait (fuel : Nat) (timeout : Int)
  | mmapAvail
  | mmapBegin (frames : UInt32)
  | availUpdate
  | getHwPtr

/-- The call, without its result. -/
def StreamCall.call (ops : PcmOps σ) : StreamCall → PcmM σ Unit
  | .prepare => do let _ ← pcmPrepare ops
  | .start => do let _ ← pcmStart ops
  | .stop => do let _ ← pcmStop ops
  | .drain => do let _ ← pcmDrain ops
  | .state => do let _ ← pcmState ops
  | .wait fuel timeout => do let _ ← pcmWait ops fuel timeout
  | .mmapAvail => do let _ ← pcmMmapAvail ops
  | .mmapBegin frames => do let _ ← pcmMmapBegin ops frames
  | .availUpdate => do let _ ← pcmAvailUpdate ops
  | .getHwPtr => do let _ ← pcmMmapGetHwPtr ops

theorem Filling.call (hl : StreamLaws ops trail w₀.pcm) (hp : ByteSized w₀.pcm) (bytes : List UInt8) (user : UserBuf)
    (moved : Nat) (c : StreamCall) : KeepsPcm (Filling ops trail w₀ bytes user moved) (c.call ops) := by
  have hwait := Filling.wait hl hp bytes user moved
  cases c with
  | prepare => exact Triple.bind (Filling.prepare hl hp bytes user moved) fun _ => KeepsPcm.pure _
  | start => exact Triple.bind (Filling.start hl hp bytes user moved) fun _ => KeepsPcm.pure _
  | stop =>
    refine Triple.bind (Triple.bind (Filling.cmd hl hp bytes user moved nofun) fun _ => ?_) fun _ => KeepsPcm.pure _
    exact Triple.ite (fun _ => Triple.bind KeepsPcm.get fun _ => hwait.oops _ _) fun _ => KeepsPcm.pure _
  | drain =>
    refine Triple.bind (Triple.bind KeepsPcm.get fun _ => Triple.ite (fun _ => KeepsPcm.pure _) fun _ => ?_)
      fun _ => KeepsPcm.pure _
    refine Triple.bind (Filling.cmd hl hp bytes user moved nofun) fun _ => ?_
    exact Triple.ite (fun _ => Triple.bind KeepsPcm.get fun _ => hwait.oops _ _) fun _ => KeepsPcm.pure _
  | state => exact Triple.bind hwait.pcmState fun _ => KeepsPcm.pure _
  | wait fuel timeout => exact Triple.bind (hwait.pcmWait timeout fuel) fun _ => KeepsPcm.pure _
  | mmapAvail => exact Triple.bind hwait.pcmMmapAvail fun _ => KeepsPcm.pure _
  | mmapBegin frames => exact Triple.bind (hwait.pcmMmapBegin frames) fun _ => KeepsPcm.pure _
  | availUpdate => exact Triple.bind hwait.pcmAvailUpdate fun _ => KeepsPcm.pure _
  | getHwPtr => exact Triple.bind hwait.pcmMmapGetHwPtr fun _ => KeepsPcm.pure _

/-! ## Runs -/

variable (ops trail) in
/-- Calls on a mapped stream, and the hardware between them; `bytes` are what the calls have reported as written or
read. The caller hands each transfer a buffer that has its bytes. -/
inductive MappedRun (w₀ : World σ) : List UInt8 → World σ → Prop
  | start : MappedRun w₀ [] w₀
  | hardware {bytes : List UInt8} {w : World σ} (h : MappedRun w₀ bytes w) {d : σ}
      (hd : HwStep ops trail w₀.pcm w.dev d) : MappedRun w₀ bytes (w.setDev d)
  | call {bytes : List UInt8} {w : World σ} (h : MappedRun w₀ bytes w) (c : StreamCall) :
      MappedRun w₀ bytes (exec (c.call ops) w).2
  | write {bytes : List UInt8} {w : World σ} (h : MappedRun w₀ bytes w) (user : UserBuf) {fuel : Nat} {frames : UInt32}
      (hint : Fifo.OffsetsFit w₀.pcm 0 frames) (hfit : frames.toNat * w₀.pcm.frameBytes ≤ user.size) {n : Int}
      {w' : World σ} (hr : exec (pcmWritei ops fuel frames) { w with user } = (some n, w')) :
      MappedRun w₀ (bytes ++ stretch user.byte 0 (n.toNat * w₀.pcm.frameBytes)) w'
  | read {bytes : List UInt8} {w : World σ} (h : MappedRun w₀ bytes w) (user : UserBuf) {fuel : Nat} {frames : UInt32}
      (hint : Fifo.OffsetsFit w₀.pcm 0 frames) (hfit : frames.toNat * w₀.pcm.frameBytes ≤ user.size) {n : Int}
      {w' : World σ} (hr : exec (pcmReadi ops fuel frames) { w with user } = (some n, w')) :
      MappedRun w₀ (bytes ++ stretch w'.user.byte 0 (n.toNat * w₀.pcm.frameBytes)) w'

/-- What the ring holds between the hardware and the application: what is queued, or what is recorded and not read. -/
def World.inRing (ops : PcmOps σ) (p : Pcm) (w : World σ) : List UInt8 :=
  let limit := hwLimit p (ops.status w.dev).hwPtr (ops.control w.dev).applPtr
  if p.isIn then
    window p.size (ops.buffer w.dev) ((ops.control w.dev).applPtr.toNat * p.frameBytes)
      ((p.bufferSize.toNat - limit) * p.frameBytes)
  else window p.size (ops.buffer w.dev) ((ops.status w.dev).hwPtr.toNat * p.frameBytes) (limit * p.frameBytes)

variable (ops trail) in
/-- What was written is what was played, and then what is queued; what was recorded is what was read, and then what is
not read yet. Where the stream was prepared anew, some of what was written was not played, or some of what was
recorded not read; what is left is in order. -/
structure Streamed (w₀ : World σ) (bytes : List UInt8) (w : World σ) : Prop where
  noFault : w.fault = false
  playback : w₀.pcm.isIn = false → (trail w.dev ++ w.inRing ops w₀.pcm).Sublist (trail w₀.dev ++ bytes)
  capture : w₀.pcm.isIn = true → (trail w₀.dev ++ bytes ++ w.inRing ops w₀.pcm).Sublist (trail w.dev)
  played : timesPrepared w.trace = timesPrepared w₀.trace → w₀.pcm.isIn = false →
    trail w.dev ++ w.inRing ops w₀.pcm = trail w₀.dev ++ bytes
  recorded : timesPrepared w.trace = timesPrepared w₀.trace → w₀.pcm.isIn = true →
    trail w.dev = trail w₀.dev ++ bytes ++ w.inRing ops w₀.pcm

theorem Fifo.inRing {p : Pcm} (hp : ByteSized p) {pos avail : Nat} {user : UserBuf}
    (h : Fifo ops trail p pos sent [] user avail w) :
    (p.isIn = false → trail w.dev ++ w.inRing ops p = sent) ∧
      (p.isIn = true → trail w.dev = sent ++ w.inRing ops p) := by
  obtain ⟨hw, hhw, hptr⟩ := h.queue.positions.hw
  have hle := h.queue.positions.le
  unfold World.inRing
  simp only [h.queue.positions.hwLimit_eq hp.toRingSized]
  constructor
  · intro hout
    simp only [Pcm.lead, hout, Bool.false_eq_true, if_false] at hhw ⊢
    have hstart : pos + avail - p.bufferSize.toNat = hw := by omega
    rw [hptr, window_start _ (frameStart_mod hp.toRingSized hw), ← hstart]
    exact (h.queue.playback hout).symm
  · intro hin
    have havail : p.bufferSize.toNat - (p.bufferSize.toNat - avail) = avail := by omega
    rw [if_pos hin, havail, h.queue.positions.appl, window_start _ (frameStart_mod hp.toRingSized pos)]
    exact h.queue.capture hin

theorem Carries.streamed (hp : ByteSized w₀.pcm) (h : Carries ops trail w₀ bytes w) :
    Streamed ops trail w₀ bytes w := by
  obtain ⟨n, pos, avail, sent, hf, hc⟩ := h
  obtain ⟨hout, hin⟩ := hf.inRing (hp.overrun n)
  change (w₀.pcm.isIn = false → trail w.dev ++ w.inRing ops w₀.pcm = sent) at hout
  change (w₀.pcm.isIn = true → trail w.dev = sent ++ w.inRing ops w₀.pcm) at hin
  refine ⟨hf.fault, fun hdir => ?_, fun hdir => ?_, fun heq hdir => ?_, fun heq hdir => ?_⟩
  · rw [hout hdir]
    exact hc.playback hdir
  · rw [hin hdir]
    exact (hc.capture hdir).append_right _
  · rw [hout hdir, hc.all heq]
  · rw [hin hdir, hc.all heq]

/-- Between two calls any buffer may be handed over. -/
theorem Carries.filling (h : Carries ops trail w₀ bytes w) (user : UserBuf) :
    Filling ops trail w₀ bytes user 0 { w with user } := by
  obtain ⟨n, pos, avail, sent, hf, hc⟩ := h
  refine ⟨⟨rfl, fun _ => rfl⟩, n, pos, avail, sent, ⟨hf.same, hf.queue, hf.agrees, hf.fault, rfl⟩, ?_⟩
  have hnone : bytes ++ stretch user.byte 0 0 = bytes := List.append_nil _
  rw [hnone]
  exact ⟨hc.since, hc.playback, hc.capture, hc.all⟩

theorem Filling.carries {user : UserBuf} (h : Filling ops trail w₀ bytes user 0 w) : Carries ops trail w₀ bytes w := by
  have hnone : bytes ++ stretch w.user.byte 0 0 = bytes := List.append_nil _
  rw [← hnone]
  exact h.2

theorem FifoStart.carries (trail : σ → List UInt8) (hs : FifoStart ops w) : Carries ops trail w [] w := by
  obtain ⟨avail, hf⟩ := hs.fifo trail
  refine ⟨w.pcm.xruns, _, avail, _, hf, le_rfl, fun _ => ?_, fun _ => ?_, fun _ => (List.append_nil _).symm⟩
  · rw [List.append_nil]
  · rw [List.append_nil]

theorem MappedRun.carries (hl : StreamLaws ops trail w₀.pcm) (hs : FifoStart ops w₀) (hmmap : w₀.pcm.isMmap = true)
    (h : MappedRun ops trail w₀ bytes w) : Carries ops trail w₀ bytes w := by
  have hp := hs.sized
  induction h with
  | start => exact hs.carries trail
  | hardware h hd ih =>
    obtain ⟨n, pos, avail, sent, hf, hc⟩ := ih
    obtain ⟨b, -, hb⟩ := hf.hwStep (hp.overrun n) (World.setDev _ _) (hd.overrun n) rfl hf.same rfl rfl
    exact ⟨n, pos, b, sent, hb, hc.since, hc.playback, hc.capture, hc.all⟩
  | @call bytes w h c ih => exact (Filling.call hl hp bytes w.user 0 c w (ih.filling w.user)).carries
  | @write bytes w h user fuel frames hint hfit n w' hr ih =>
    have hwrite := Filling.writei hl hp hint hfit hmmap fuel _ (ih.filling user)
    rw [hr] at hwrite
    obtain ⟨-, hkept, hcarries⟩ := hwrite n rfl
    cases hdir : w₀.pcm.isIn with
    | false => rwa [hkept.played hdir] at hcarries
    | true =>
      -- a capture stream refuses to write
      obtain ⟨m, pos, avail, sent, hf, hc⟩ := ih
      obtain ⟨s, e, hpcm⟩ := hf.same
      have hin : w.pcm.isIn = true := by
        rw [hpcm]
        exact hdir
      simp only [pcmWritei, exec_bind, exec_get, hin, if_true, exec_pure] at hr
      obtain ⟨hn, -⟩ := Prod.mk.inj hr
      have hzero : n.toNat = 0 := by
        rw [← Option.some.inj hn]
        decide
      rw [hzero, Nat.zero_mul] at hcarries ⊢
      exact hcarries
  | @read bytes w h user fuel frames hint hfit n w' hr ih =>
    have hread := Filling.readi hl hp hint hfit hmmap fuel _ (ih.filling user)
    rw [hr] at hread
    obtain ⟨-, -, hcarries⟩ := hread n rfl
    exact hcarries

/-- However the calls of a mapped stream, its restarts and the hardware interleave, what is written is what is played,
and what is recorded is what is read; only preparing the stream drops bytes. -/
theorem mappedRun_streamed (hl : StreamLaws ops trail w₀.pcm) (hs : FifoStart ops w₀) (hmmap : w₀.pcm.isMmap = true)
    (h : MappedRun ops trail w₀ bytes w) : Streamed ops trail w₀ bytes w :=
  (h.carries hl hs hmmap).streamed hs.sized

end

/-! ## On the kernel -/

/-- A kernel whose hardware moves between the calls only. -/
theorem Kernel.willing_streamLaws {p : Pcm} (hp : RingSized p) : StreamLaws Kernel.willing Kernel.trail p :=
  { Kernel.willing_fifoLaws p with
    cmdMoves := fun c d hc hd => by
      have hstill : HwStep Kernel.willing Kernel.trail p d d := .refl hd
      obtain ⟨k, hk, hptr, htrail, hkept⟩ := hstill.moves
      cases c with
      | prepare => exact absurd rfl hc
      | start | drop | drain | hwsync | unlink => exact ⟨rfl, k, hk, hptr, htrail, hkept⟩
    pollMoves := fun _ _ hd => .refl hd
    prepareRefused := fun _ _ hret => absurd hret (lt_irrefl (0 : Int))
    prepareEmpties := fun d hd _ => by
      refine ⟨⟨d, .refl hd, rfl⟩, rfl, UInt64.lt_iff_toNat_lt.2 ?_⟩
      exact hp.boundary_pos }

/-- Frames of a buffer written. -/
def mappedWrite (frames : UInt32) (user : UserBuf) (w : World Kernel) : Option Int × World Kernel :=
  exec (pcmWritei Kernel.willing 6 frames) { w with user }

theorem mappedWrite_run {w : World Kernel} {bytes : List UInt8}
    (h : MappedRun Kernel.willing Kernel.trail ringEnd bytes w) (frames : UInt32) (user : UserBuf)
    (hint : Fifo.OffsetsFit ringEnd.pcm 0 frames) (hfit : frames.toNat * 4 ≤ user.size) {n : Int}
    (hr : (mappedWrite frames user w).1 = some n) :
    MappedRun Kernel.willing Kernel.trail ringEnd (bytes ++ stretch user.byte 0 (n.toNat * 4))
      (mappedWrite frames user w).2 :=
  h.write user hint hfit (Prod.ext hr rfl)

/-- Of three frames written the hardware has played one. -/
def onePlayed : World Kernel :=
  let w := (mappedWrite 3 ringEnd.user ringEnd).2
  w.setDev (w.dev.played ringEnd.pcm 1)

/-- The stream is prepared anew. -/
def preparedAnew : World Kernel := (exec (StreamCall.prepare.call Kernel.willing) onePlayed).2

/-- Three frames are written and one of them is played; behind a restart two more are queued. The two between are
dropped. -/
theorem mappedRun_streamed_restarted : Streamed Kernel.willing Kernel.trail ringEnd
    ([0, 1, 2, 3, 4, 5, 6, 7, 8, 9, 10, 11] ++ [0, 1, 2, 3, 4, 5, 6, 7])
    (mappedWrite 2 ringEnd.user preparedAnew).2 := by
  have hfirst := mappedWrite_run .start 3 ringEnd.user (by decide) (by decide) (n := 3) (by decide +kernel)
  have hplayed := hfirst.hardware (Kernel.hwStep_played ringEnd_start.sized.toRingSized (k := 1) (by decide +kernel))
  have hlast := mappedWrite_run (hplayed.call .prepare) 2 ringEnd.user (by decide) (by decide) (n := 2)
    (by decide +kernel)
  exact mappedRun_streamed (Kernel.willing_streamLaws ringEnd_start.sized.toRingSized) ringEnd_start (by decide) hlast

end Tinyalsa
