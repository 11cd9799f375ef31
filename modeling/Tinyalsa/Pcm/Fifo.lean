/-
The ring as a queue of bytes between the application and the hardware. The hardware moves on whenever
it likes, by frames that are its to play or to record; what it played or recorded so far is its trail.
-/
import Tinyalsa.Lib.RingBuffer
import Tinyalsa.Pcm.Config
import Tinyalsa.Pcm.Ring

namespace Tinyalsa

open Hoare RingBuffer

/-! ## The hardware -/

/-- The bytes of a frame. -/
def Pcm.frameBytes (p : Pcm) : Nat := p.config.frameBytes

/-- The bytes of the ring. -/
def Pcm.size (p : Pcm) : Nat := p.bufferSize.toNat * p.frameBytes

section

variable {σ : Type} (ops : PcmOps σ) (trail : σ → List UInt8)

/-- The hardware moves on by some frames. It plays them from the ring, or records them into it: its trail
grows by what the ring then holds there, and no other byte of the ring changes. -/
structure HwStep (p : Pcm) (d d' : σ) : Prop where
  control : ops.control d' = ops.control d
  moves : ∃ k, k ≤ hwLimit p (ops.status d).hwPtr (ops.control d).applPtr ∧
    (ops.status d').hwPtr.toNat = ((ops.status d).hwPtr.toNat + k) % p.boundary.toNat ∧
    trail d' = trail d ++
      window p.size (ops.buffer d') ((ops.status d).hwPtr.toNat * p.frameBytes) (k * p.frameBytes) ∧
    ∀ i, i < p.size →
      (p.isIn → ∀ t, t < k * p.frameBytes → ((ops.status d).hwPtr.toNat * p.frameBytes + t) % p.size ≠ i) →
      ops.buffer d' i = ops.buffer d i

/-- How a backend treats the ring: the hardware may move on whenever the library looks, and otherwise only
the library's own stores change it. `SYNC_PTR` succeeds. -/
structure FifoLaws (p : Pcm) : Prop extends ControlLaws ops where
  accepts : ∀ s d, 0 ≤ (ops.syncPtr s d).1.ret ∧ (ops.syncPtr s d).2.1.status = ops.status (ops.syncPtr s d).2.2
  syncMoves : ∀ s d, (ops.status d).hwPtr < p.boundary → ∃ d', HwStep ops trail p d d' ∧
    ops.status (ops.syncPtr s d).2.2 = ops.status d' ∧ ops.buffer (ops.syncPtr s d).2.2 = ops.buffer d' ∧
    trail (ops.syncPtr s d).2.2 = trail d'
  hwsyncMoves : ∀ d, (ops.status d).hwPtr < p.boundary → HwStep ops trail p d (ops.cmd .hwsync d).2
  runMoves : ∀ d, (ops.status d).hwPtr < p.boundary → HwStep ops trail p d (ops.run d)
  setControlKeeps : ∀ c d, ops.status (ops.setControl c d) = ops.status d ∧
    ops.buffer (ops.setControl c d) = ops.buffer d ∧ trail (ops.setControl c d) = trail d
  setBufferStores : ∀ b d, ops.status (ops.setBuffer b d) = ops.status d ∧
    ops.buffer (ops.setBuffer b d) = b ∧ trail (ops.setBuffer b d) = trail d

/-! ## The queue -/

/-- The device at a moment when the application is at `pos`, with `avail` frames ahead of it whose first
bytes are `held`, and `sent` is all that went through the ring on its side. -/
structure Queue (p : Pcm) (pos : Nat) (sent held : List UInt8) (avail : Nat) (d : σ) : Prop where
  positions : Positions p (ops.status d).hwPtr (ops.control d).applPtr pos avail
  playback : p.isIn = false → sent = trail d ++ window p.size (ops.buffer d)
    ((pos + avail - p.bufferSize.toNat) * p.frameBytes) ((p.bufferSize.toNat - avail) * p.frameBytes)
  capture : p.isIn = true → trail d = sent ++ window p.size (ops.buffer d) (pos * p.frameBytes) (avail * p.frameBytes)
  ahead : held.length ≤ avail * p.frameBytes
  holds : window p.size (ops.buffer d) (pos * p.frameBytes) held.length = held

variable {ops trail}

/-- A position's first byte, before and after wrapping at the boundary. -/
theorem frameStart_mod {p : Pcm} (hp : RingSized p) (pos : Nat) :
    pos % p.boundary.toNat * p.frameBytes % p.size = pos * p.frameBytes % p.size := by
  unfold Pcm.size
  rw [Nat.mul_mod_mul_right, Nat.mul_mod_mul_right, Nat.mod_mod_of_dvd _ hp.divides]

theorem frameStart_slot (p : Pcm) (pos : Nat) :
    pos * p.frameBytes % p.size = pos % p.bufferSize.toNat * p.frameBytes := Nat.mul_mod_mul_right _ _ _

/-- Frames that follow each other do so in bytes. -/
theorem window_frames (p : Pcm) (slots : Nat → UInt8) (pos a b : Nat) :
    window p.size slots (pos * p.frameBytes) ((a + b) * p.frameBytes) =
      window p.size slots (pos * p.frameBytes) (a * p.frameBytes) ++
        window p.size slots ((pos + a) * p.frameBytes) (b * p.frameBytes) := by
  rw [Nat.add_mul, window_add, ← Nat.add_mul]

theorem HwStep.refl {p : Pcm} {d : σ} (hd : (ops.status d).hwPtr < p.boundary) : HwStep ops trail p d d where
  control := rfl
  moves := ⟨0, Nat.zero_le _, by rw [Nat.add_zero, Nat.mod_eq_of_lt (UInt64.lt_iff_toNat_lt.1 hd)], by simp,
    fun _ _ _ => rfl⟩

namespace Queue

variable {p : Pcm} {pos avail : Nat} {sent held : List UInt8} {d d' : σ}

/-- Only the pointers, the ring and the trail matter. -/
theorem congr (h : Queue ops trail p pos sent held avail d) (hs : ops.status d' = ops.status d)
    (hc : (ops.control d').applPtr = (ops.control d).applPtr) (hb : ops.buffer d' = ops.buffer d)
    (ht : trail d' = trail d) : Queue ops trail p pos sent held avail d' where
  positions := by rw [hs, hc]; exact h.positions
  playback := by rw [hb, ht]; exact h.playback
  capture := by rw [hb, ht]; exact h.capture
  ahead := h.ahead
  holds := by rw [hb]; exact h.holds

/-- The hardware keeps the queue in order. -/
theorem hwStep (hp : RingSized p) (hframe : 0 < p.frameBytes) (h : Queue ops trail p pos sent held avail d)
    (hstep : HwStep ops trail p d d') : ∃ b, avail ≤ b ∧ Queue ops trail p pos sent held b d' := by
  obtain ⟨k, hk, hptr, htrail, hkept⟩ := hstep.moves
  have hpos := h.positions.hwMove hp hk hptr
  have hle := hpos.le
  have hsize : 0 < p.size := Nat.mul_pos hp.nonempty hframe
  obtain ⟨hw, hhw, hhwPtr⟩ := h.positions.hw
  have hstart : (ops.status d).hwPtr.toNat * p.frameBytes % p.size = hw * p.frameBytes % p.size := by
    rw [hhwPtr, frameStart_mod hp]
  have hplay : p.isIn = false → ∀ lo len, window p.size (ops.buffer d') lo len =
    window p.size (ops.buffer d) lo len := by
    intro hout lo len
    exact window_congr fun i _ => hkept _ (Nat.mod_lt _ hsize) fun hin => absurd hin (by rw [hout]; decide)
  have hrec : p.isIn = true → hw = pos + avail ∧
      window p.size (ops.buffer d') (pos * p.frameBytes) (avail * p.frameBytes) =
      window p.size (ops.buffer d) (pos * p.frameBytes) (avail * p.frameBytes) := by
    intro hin
    simp only [Pcm.lead, hin, if_true, Nat.add_zero] at hhw
    have hturn := Nat.mul_le_mul_right p.frameBytes hle
    rw [Nat.add_mul] at hturn
    have hend : hw * p.frameBytes = pos * p.frameBytes + avail * p.frameBytes := by rw [hhw, Nat.add_mul]
    refine ⟨hhw, window_outside hend hturn fun i hi hout => ?_⟩
    refine hkept i hi fun _ t ht heq => hout t ht ?_
    rw [Nat.add_mod, ← hstart, ← Nat.add_mod, heq]
  have hahead : window p.size (ops.buffer d') (pos * p.frameBytes) (avail * p.frameBytes) =
      window p.size (ops.buffer d) (pos * p.frameBytes) (avail * p.frameBytes) := by
    cases hdir : p.isIn with
    | false => exact hplay hdir _ _
    | true => exact (hrec hdir).2
  refine ⟨avail + k, Nat.le_add_right _ _, ⟨by rw [hstep.control]; exact hpos, fun hout => ?_, fun hin => ?_, ?_, ?_⟩⟩
  · simp only [Pcm.lead, hout, Bool.false_eq_true, if_false] at hhw
    have hold : pos + avail - p.bufferSize.toNat = hw := by omega
    have hnew : pos + (avail + k) - p.bufferSize.toNat = hw + k := by omega
    have hlen : p.bufferSize.toNat - avail = k + (p.bufferSize.toNat - (avail + k)) := by omega
    rw [htrail, hnew, hplay hout, hplay hout, window_start _ hstart, List.append_assoc, ← window_frames, ← hlen, ← hold]
    exact h.playback hout
  · rw [htrail, h.capture hin, window_frames, hahead, ← (hrec hin).1, window_start _ hstart, List.append_assoc]
  · exact h.ahead.trans (Nat.mul_le_mul_right _ (Nat.le_add_right _ _))
  · rw [← take_window _ h.ahead, hahead, take_window _ h.ahead, h.holds]

/-- The bytes in the slots the application is at can be held: they are what the stream has there. -/
theorem read (h : Queue ops trail p pos sent held avail d) {n : Nat} (hn : n ≤ avail)
    (hwrap : pos % p.bufferSize.toNat + n ≤ p.bufferSize.toNat) :
    Queue ops trail p pos sent
      (stretch (ops.buffer d) (pos % p.bufferSize.toNat * p.frameBytes) (n * p.frameBytes)) avail d where
  positions := h.positions
  playback := h.playback
  capture := h.capture
  ahead := by
    rw [length_stretch]
    exact Nat.mul_le_mul_right _ hn
  holds := by
    have hfit := Nat.mul_le_mul_right p.frameBytes hwrap
    rw [Nat.add_mul, ← frameStart_slot] at hfit
    rw [length_stretch, ← frameStart_slot, window_eq_stretch _ hfit]

/-- Playback: the application stores frames into the slots it is at. -/
theorem write (hl : FifoLaws ops trail p) (hout : p.isIn = false) (h : Queue ops trail p pos sent held avail d)
    {n : Nat} (hn : n ≤ avail) (hwrap : pos % p.bufferSize.toNat + n ≤ p.bufferSize.toNat) (bytes : Nat → UInt8) :
    Queue ops trail p pos sent (stretch bytes 0 (n * p.frameBytes)) avail
      (ops.setBuffer (store (ops.buffer d) (pos % p.bufferSize.toNat * p.frameBytes) (n * p.frameBytes) bytes) d) := by
  obtain ⟨hs, hb, ht⟩ := hl.setBufferStores
    (store (ops.buffer d) (pos % p.bufferSize.toNat * p.frameBytes) (n * p.frameBytes) bytes) d
  have hle := h.positions.le
  obtain ⟨hw, hhw, -⟩ := h.positions.hw
  simp only [Pcm.lead, hout, Bool.false_eq_true, if_false] at hhw
  have hfit := Nat.mul_le_mul_right p.frameBytes hwrap
  rw [Nat.add_mul, ← frameStart_slot] at hfit
  refine ⟨by rw [hs, hl.setBuffer]; exact h.positions, fun _ => ?_, fun hin =>
    absurd hin (by rw [hout]; decide), ?_, ?_⟩
  -- what is queued ends where the store begins, and the ring has room for both
  · have hend : pos * p.frameBytes =
        (pos + avail - p.bufferSize.toNat) * p.frameBytes + (p.bufferSize.toNat - avail) * p.frameBytes := by
      rw [← Nat.add_mul]
      congr 1
      omega
    have hturn : (p.bufferSize.toNat - avail) * p.frameBytes + n * p.frameBytes ≤ p.size := by
      rw [← Nat.add_mul]
      exact Nat.mul_le_mul_right _ (by omega)
    rw [ht, hb, ← frameStart_slot, window_store _ _ hend hturn]
    exact h.playback hout
  · rw [length_stretch]
    exact Nat.mul_le_mul_right _ hn
  · rw [length_stretch, hb, ← frameStart_slot, window_eq_stretch _ hfit, stretch_store]

/-- The application moves its pointer past frames it holds: they are sent. -/
theorem forward (hp : RingSized p) (h : Queue ops trail p pos sent held avail d) {n : UInt32}
    (hn : n.toNat ≤ avail) (hheld : n.toNat * p.frameBytes ≤ held.length) (hmax : n.toNat ≤ CInt.intMax)
    (hs : ops.status d' = ops.status d) (hb : ops.buffer d' = ops.buffer d) (ht : trail d' = trail d)
    (hc : (ops.control d').applPtr = applForward p.boundary (ops.control d).applPtr (CInt.ofUInt n)) :
    Queue ops trail p (pos + n.toNat) (sent ++ held.take (n.toNat * p.frameBytes)) [] (avail - n.toNat) d' := by
  have hle := h.positions.le
  obtain ⟨hw, hhw, -⟩ := h.positions.hw
  have htake : held.take (n.toNat * p.frameBytes) =
      window p.size (ops.buffer d) (pos * p.frameBytes) (n.toNat * p.frameBytes) := by
    rw [← take_window _ hheld, h.holds]
  refine ⟨by rw [hs, hc]; exact h.positions.forward hp hn hmax, fun hout => ?_, fun hin => ?_, Nat.zero_le _,
    window_zero _⟩
  · simp only [Pcm.lead, hout, Bool.false_eq_true, if_false] at hhw
    have hstart : pos + n.toNat + (avail - n.toNat) - p.bufferSize.toNat = pos + avail - p.bufferSize.toNat := by omega
    have hend : pos + avail - p.bufferSize.toNat + (p.bufferSize.toNat - avail) = pos := by omega
    have hlen : p.bufferSize.toNat - (avail - n.toNat) = p.bufferSize.toNat - avail + n.toNat := by omega
    rw [ht, hb, hstart, hlen, window_frames, hend, htake, h.playback hout, List.append_assoc]
  · have hlen : avail = n.toNat + (avail - n.toNat) := by omega
    rw [ht, hb, h.capture hin, htake, List.append_assoc, ← window_frames, ← hlen]

end Queue

/-! ## The library -/

/-- A ring whose bytes an `int` can count. -/
structure ByteSized (p : Pcm) : Prop extends RingSized p where
  frame : 0 < p.frameBytes
  bytes : p.size ≤ CInt.intMax

theorem ByteSized.frames_le {p : Pcm} (hp : ByteSized p) {n : Nat} (hn : n ≤ p.bufferSize.toNat) :
    n * p.frameBytes ≤ CInt.intMax ∧ n ≤ CInt.intMax := by
  have hbytes : n * p.frameBytes ≤ CInt.intMax := (Nat.mul_le_mul_right _ hn).trans hp.bytes
  exact ⟨hbytes, (Nat.le_mul_of_pos_right n hp.frame).trans hbytes⟩

/-- `pcm_frames_to_bytes` as an `int` is the exact product just where an `int` holds that. -/
theorem ofUInt_pcmFramesToBytes_iff (p : Pcm) (n : UInt32) :
    CInt.ofUInt (pcmFramesToBytes p n) = ((n.toNat * p.frameBytes : Nat) : Int) ↔
      n.toNat * p.frameBytes ≤ CInt.intMax := by
  have hbytes := toNat_pcmFramesToBytes p n
  change _ = n.toNat * p.frameBytes % 2 ^ 32 at hbytes
  constructor
  · intro h
    unfold CInt.ofUInt CInt.wrapInt at h
    unfold CInt.intMax
    omega
  · intro h
    rw [Nat.mod_eq_of_lt (h.trans_lt (by decide))] at hbytes
    rw [CInt.ofUInt_of_le (by rw [hbytes]; exact h), hbytes]

theorem Pcm.Same.ofUInt_pcmFramesToBytes {p q : Pcm} (h : p.Same q) {n : UInt32}
    (hn : n.toNat * p.frameBytes ≤ CInt.intMax) :
    CInt.ofUInt (pcmFramesToBytes q n) = ((n.toNat * p.frameBytes : Nat) : Int) := by
  obtain ⟨s, e, rfl⟩ := h
  exact (ofUInt_pcmFramesToBytes_iff _ n).2 hn

theorem Pcm.Same.ringBytes {p q : Pcm} (hp : ByteSized p) (h : p.Same q) : q.ringBytes = p.size := by
  obtain ⟨s, e, rfl⟩ := h
  have hbytes := toNat_pcmFramesToBytes { p with syncPtr := s, error := e } p.bufferSize
  change _ = p.size % 2 ^ 32 at hbytes
  rwa [Nat.mod_eq_of_lt (hp.bytes.trans_lt (by decide))] at hbytes

theorem ptrAgrees_iff (w : World σ) : PtrAgrees ops w ↔ applPtrOf ops w = (ops.control w.dev).applPtr := by
  unfold PtrAgrees applPtrOf
  cases hs : w.pcm.syncPtr with
  | none => exact iff_of_true (fun s h => absurd h (Option.some_ne_none s).symm) rfl
  | some s => exact ⟨fun h => (h s rfl).symm, fun h s' hs' => Option.some.inj hs' ▸ h.symm⟩

variable (ops trail) in
/-- The world between two calls, or within one: both sides know the same pointer, and no access went out of
bounds. -/
structure Fifo (p : Pcm) (pos : Nat) (sent held : List UInt8) (user : UserBuf) (avail : Nat) (w : World σ) : Prop where
  same : p.Same w.pcm
  queue : Queue ops trail p pos sent held avail w.dev
  agrees : PtrAgrees ops w
  fault : w.fault = false
  user : w.user = user

/-- A copy, as a store into the destination. -/
theorem copyBytes_eq_store (dst src : Nat → UInt8) (dstOff srcOff n : Nat) :
    copyBytes dst dstOff src srcOff n = store dst dstOff n fun i => src (srcOff + i) := rfl

theorem stretch_copyBytes (dst src : Nat → UInt8) (dstOff srcOff n : Nat) :
    stretch (copyBytes dst dstOff src srcOff n) dstOff n = stretch src srcOff n := by
  rw [copyBytes_eq_store, stretch_store, stretch_shift]

namespace Fifo

variable {p : Pcm} {pos avail : Nat} {sent held : List UInt8} {user : UserBuf} {w : World σ}

theorem hwPtr_lt (hp : ByteSized p) (h : Fifo ops trail p pos sent held user avail w) :
    (ops.status w.dev).hwPtr < p.boundary :=
  UInt64.lt_iff_toNat_lt.2 (h.queue.positions.gap hp.toRingSized).1

/-- The hardware moves on while the library looks. -/
theorem hwStep (hp : ByteSized p) (h : Fifo ops trail p pos sent held user avail w) (w' : World σ)
    (hstep : HwStep ops trail p w.dev w'.dev) (hpcm : w'.pcm.syncPtr = w.pcm.syncPtr) (hsame : p.Same w'.pcm)
    (hfault : w'.fault = w.fault) (huser : w'.user = w.user) :
    ∃ b, avail ≤ b ∧ Fifo ops trail p pos sent held user b w' := by
  obtain ⟨b, hb, hq⟩ := h.queue.hwStep hp.toRingSized hp.frame hstep
  exact ⟨b, hb, hsame, hq, h.agrees.congr hpcm hstep.control, hfault.trans h.fault, huser.trans h.user⟩

theorem sync (hp : ByteSized p) (hl : FifoLaws ops trail p) (h : Fifo ops trail p pos sent held user avail w)
    {s : SndPcmSyncPtr} (flags : SyncFlags) (hs : w.pcm.syncPtr = some s) :
    StatusFresh ops (exec (ioctlSyncPtr ops { s with flags }) w).2 ∧
      ∃ b, avail ≤ b ∧ Fifo ops trail p pos sent held user b (exec (ioctlSyncPtr ops { s with flags }) w).2 := by
  obtain ⟨hret, hfresh⟩ := hl.accepts { s with flags } w.dev
  obtain ⟨d', hstep, hst, hbuf, htr⟩ := hl.syncMoves { s with flags } w.dev (h.hwPtr_lt hp)
  obtain ⟨b, hb, hq⟩ := h.queue.hwStep hp.toRingSized hp.frame hstep
  obtain ⟨happl, hagr⟩ := h.agrees.sync hl.toControlLaws hs flags
  have hctl : (ops.control (exec (ioctlSyncPtr ops { s with flags }) w).2.dev).applPtr = (ops.control d').applPtr := by
    rw [hstep.control, ← (ptrAgrees_iff _).1 hagr, ← (ptrAgrees_iff _).1 h.agrees, happl]
  have hsame := h.same.trans ⟨some (ops.syncPtr { s with flags } w.dev).2.1, w.pcm.error, rfl⟩
  rw [exec_ioctlSyncPtr] at hagr hctl ⊢
  refine ⟨fun s' hs' => ?_, b, hb, hsame, hq.congr hst hctl hbuf htr, hagr, h.fault, h.user⟩
  rw [← Option.some.inj hs']
  exact hfresh

/-- Reading and synchronising the pointers keeps the queue in order. -/
theorem ringInvariant (hp : ByteSized p) (hl : FifoLaws ops trail p) :
    RingInvariant ops p pos (Fifo ops trail p pos sent held user) where
  handle _ _ h := h.same
  positions a w h := by
    rw [(ptrAgrees_iff w).1 h.agrees]
    exact h.queue.positions
  error a w e h := ⟨h.same.trans ⟨_, e, rfl⟩, h.queue, h.agrees, h.fault, h.user⟩
  run a w h := h.hwStep hp _ (hl.runMoves w.dev (h.hwPtr_lt hp)) rfl h.same rfl rfl
  hwsync a w h := h.hwStep hp _ (hl.hwsyncMoves w.dev (h.hwPtr_lt hp)) rfl h.same rfl rfl
  sync a w s flags hs h := ⟨(hl.accepts _ _).1, h.sync hp hl flags hs⟩

/-- The pointer moved on and pushed to the kernel. The hardware may have moved before. -/
theorem forward (hp : ByteSized p) (hl : FifoLaws ops trail p) (h : Fifo ops trail p pos sent held user avail w)
    {n : UInt32} (hn : n.toNat ≤ avail) (hheld : n.toNat * p.frameBytes ≤ held.length) :
    let r := exec (pcmSyncPtr ops {}) (exec (pcmMmapApplForward ops (CInt.ofUInt n)) w).2
    r.1 = 0 ∧ ∃ b, avail - n.toNat ≤ b ∧
      Fifo ops trail p (pos + n.toNat) (sent ++ held.take (n.toNat * p.frameBytes)) [] user b r.2 := by
  generalize h₁ : (exec (pcmMmapApplForward ops (CInt.ofUInt n)) w).2 = w₁
  generalize h₂ : exec (pcmSyncPtr ops {}) w₁ = rw₂
  obtain ⟨r, w₂⟩ := rw₂
  have hmax := (hp.frames_le (hn.trans h.queue.positions.le)).2
  have hboundary : w.pcm.boundary = p.boundary := by
    obtain ⟨s, e, hpcm⟩ := h.same
    rw [hpcm]
  obtain ⟨happl₁, ⟨s₁, hpcm₁⟩, huser₁, hfault₁, hcase⟩ :=
    pcmMmapApplForward_effect hl.toControlLaws (CInt.ofUInt n) w
  rw [h₁] at happl₁ hpcm₁ huser₁ hfault₁ hcase
  rw [hboundary, (ptrAgrees_iff w).1 h.agrees] at happl₁
  have hsame₁ : p.Same w₁.pcm := h.same.trans ⟨s₁, w.pcm.error, hpcm₁⟩
  -- once the pointer is the kernel's, the frames are sent from where the hardware left the queue
  have hdone : ∀ d, ops.control d = ops.control w.dev → (∃ b, avail ≤ b ∧ Queue ops trail p pos sent held b d) →
      p.Same w₂.pcm → PtrAgrees ops w₂ → applPtrOf ops w₂ = applPtrOf ops w₁ → w₂.user = w₁.user → w₂.fault = w₁.fault →
      ops.status w₂.dev = ops.status d → ops.buffer w₂.dev = ops.buffer d → trail w₂.dev = trail d →
      ∃ b, avail - n.toNat ≤ b ∧
        Fifo ops trail p (pos + n.toNat) (sent ++ held.take (n.toNat * p.frameBytes)) [] user b w₂ := by
    rintro d hctl ⟨b, hb, hq⟩ hsame hagr happl huser hfault hst hbuf htr
    refine ⟨b - n.toNat, Nat.sub_le_sub_right hb _, hsame, ?_, hagr, hfault.trans (hfault₁.trans h.fault),
      huser.trans (huser₁.trans h.user)⟩
    refine hq.forward hp.toRingSized (hn.trans hb) hheld hmax hst hbuf htr ?_
    rw [hctl, ← (ptrAgrees_iff w₂).1 hagr, happl, happl₁]
  unfold pcmSyncPtr at h₂
  rcases hcase with ⟨-, hne, hdev⟩ | ⟨-, hnone, c, hdev⟩
  · obtain ⟨s, hs⟩ := Option.ne_none_iff_exists'.1 hne
    obtain ⟨hret, -⟩ := hl.accepts { s with flags := {} } w₁.dev
    obtain ⟨hctl, hnew⟩ := hl.syncPtr _ _ hret
    obtain ⟨d, hstep, hst, hbuf, htr⟩ := hl.syncMoves { s with flags := {} } w₁.dev (by rw [hdev]; exact h.hwPtr_lt hp)
    simp only [exec_bind, exec_get, hs, exec_ite, exec_ioctlSyncPtr, exec_oops, exec_pure] at h₂
    rw [if_neg (not_lt.2 hret)] at h₂
    obtain ⟨rfl, rfl⟩ := Prod.mk.inj h₂
    rw [hdev] at hstep
    refine ⟨rfl, hdone d hstep.control (h.queue.hwStep hp.toRingSized hp.frame hstep)
      (hsame₁.trans ⟨some _, w₁.pcm.error, rfl⟩) (fun s' hs' => ?_) ?_ rfl rfl hst hbuf htr⟩
    · rw [← Option.some.inj hs']
      exact congrArg SndPcmMmapControl.applPtr hnew.symm
    · rw [applPtrOf, applPtrOf, hs]
      exact congrArg SndPcmMmapControl.applPtr (hnew.trans hctl)
  · simp only [exec_bind, exec_get, hnone, exec_pure, Bool.false_eq_true, if_false] at h₂
    obtain ⟨rfl, rfl⟩ := Prod.mk.inj h₂
    have hctl : ops.control (ops.run (ops.run w.dev)) = ops.control w.dev := by rw [hl.run, hl.run]
    obtain ⟨hst, hbuf, htr⟩ := hl.setControlKeeps c (ops.run (ops.run w.dev))
    rw [← hdev] at hst hbuf htr
    refine ⟨rfl, hdone _ hctl ?_ hsame₁ (PtrAgrees.of_mapped hnone) rfl rfl rfl hst hbuf htr⟩
    -- the library looked twice, and the hardware may have moved on each time
    obtain ⟨b, hb, hq⟩ := h.queue.hwStep hp.toRingSized hp.frame (hl.runMoves w.dev (h.hwPtr_lt hp))
    obtain ⟨c, hc, hq⟩ := hq.hwStep hp.toRingSized hp.frame
      (hl.runMoves _ (UInt64.lt_iff_toNat_lt.2 (hq.positions.gap hp.toRingSized).1))
    exact ⟨c, hb.trans hc, hq⟩

/-- `pcm_mmap_commit` sends the first frames that are held. -/
theorem pcmMmapCommit (hp : ByteSized p) (hl : FifoLaws ops trail p) (h : Fifo ops trail p pos sent held user avail w)
    {n : UInt32} (hn : n.toNat ≤ avail) (hheld : n.toNat * p.frameBytes ≤ held.length) :
    (exec (pcmMmapCommit ops n) w).1 = CInt.ofUInt n ∧ ∃ b, avail - n.toNat ≤ b ∧
      Fifo ops trail p (pos + n.toNat) (sent ++ held.take (n.toNat * p.frameBytes)) [] user b
        (exec (pcmMmapCommit ops n) w).2 := by
  obtain ⟨hret, b, hb, hsame, hq, hagr, hfault, huser⟩ := h.forward hp hl hn hheld
  simp only [Tinyalsa.pcmMmapCommit, exec_bind, exec_record, exec_pure]
  rw [if_neg (not_not.2 hret)]
  exact ⟨rfl, b, hb, hsame, hq, hagr, hfault, huser⟩

/-- `pcm_areas_copy` stays in bounds, and what it copied is held. -/
theorem pcmAreasCopy (hp : ByteSized p) (hl : FifoLaws ops trail p) (h : Fifo ops trail p pos sent held user avail w)
    {pcmOffset : UInt32} (srcOffset n : UInt32) (hoff : pcmOffset.toNat = pos % p.bufferSize.toNat)
    (hn : n.toNat ≤ avail) (hwrap : pos % p.bufferSize.toNat + n.toNat ≤ p.bufferSize.toNat)
    (hint : srcOffset.toNat * p.frameBytes ≤ CInt.intMax)
    (hfit : (srcOffset.toNat + n.toNat) * p.frameBytes ≤ user.size) :
    ∃ b user', avail ≤ b ∧ user'.size = user.size ∧
      (∀ i, i < srcOffset.toNat * p.frameBytes → user'.byte i = user.byte i) ∧
      Fifo ops trail p pos sent (stretch user'.byte (srcOffset.toNat * p.frameBytes) (n.toNat * p.frameBytes)) user' b
        (exec (pcmAreasCopy ops pcmOffset srcOffset n) w).2 := by
  have hle := h.queue.positions.le
  have hsize := h.same.ofUInt_pcmFramesToBytes (hp.frames_le (hn.trans hle)).1
  have hdst := h.same.ofUInt_pcmFramesToBytes (n := pcmOffset) (hp.frames_le (by omega)).1
  have hsrc := h.same.ofUInt_pcmFramesToBytes hint
  have hring := Nat.mul_le_mul_right p.frameBytes hwrap
  rw [Nat.add_mul, ← hoff] at hring
  rw [Nat.add_mul] at hfit
  obtain ⟨b, hb, hsame, hq, hagr, hfault, huser⟩ := h.hwStep hp (w.setDev (ops.run w.dev))
    (hl.runMoves w.dev (h.hwPtr_lt hp)) rfl h.same rfl rfl
  simp only [Tinyalsa.pcmAreasCopy, exec_bind, exec_get, exec_record, exec_ite, exec_modify, hsize, hdst, hsrc,
    h.same.ringBytes hp, h.user]
  have hbounds : InBounds p.size ↑(pcmOffset.toNat * p.frameBytes) ↑(n.toNat * p.frameBytes) ∧
      InBounds user.size ↑(srcOffset.toNat * p.frameBytes) ↑(n.toNat * p.frameBytes) :=
    ⟨⟨Int.natCast_nonneg _, Int.natCast_nonneg _, by exact_mod_cast hring⟩,
      ⟨Int.natCast_nonneg _, Int.natCast_nonneg _, by exact_mod_cast hfit⟩⟩
  have hin : w.pcm.isIn = p.isIn := (h.same.pcmMmapAvail 0 0).2.2
  rw [if_pos hbounds, ringCopy, exec_modify]
  simp only [World.push_pcm, World.push_dev, World.push_user, World.push_fault, Int.toNat_natCast, h.user, hin]
  cases hdir : p.isIn with
  | true =>
    rw [if_pos rfl]
    refine ⟨b, { user with byte := copyBytes user.byte _ (ops.buffer (ops.run w.dev)) _ _ }, hb, rfl, fun i hi => ?_,
      hsame, ?_, hagr, hfault, rfl⟩
    · exact if_neg fun hc => absurd hi (not_lt.2 hc.1)
    · rw [stretch_copyBytes, hoff]
      exact hq.read (hn.trans hb) hwrap
  | false =>
    rw [if_neg (by decide)]
    refine ⟨b, user, hb, rfl, fun _ _ => rfl, hsame, ?_, hagr.congr rfl (hl.setBuffer _ _), hfault, rfl⟩
    rw [hoff, ← stretch_shift]
    exact hq.write hl hdir (hn.trans hb) hwrap fun i => user.byte (srcOffset.toNat * p.frameBytes + i)

variable (ops trail) in
/-- A transfer moved `t` frames at `offset` of the caller's buffer through the ring, and nothing before them
changed. -/
def Moved (p : Pcm) (sent : List UInt8) (user : UserBuf) (offset t : Nat) (w : World σ) : Prop :=
  ∃ (pos : Nat) (user' : UserBuf) (avail : Nat), user'.size = user.size ∧
    (∀ i, i < offset * p.frameBytes → user'.byte i = user.byte i) ∧
    Fifo ops trail p pos (sent ++ stretch user'.byte (offset * p.frameBytes) (t * p.frameBytes)) [] user' avail w

theorem Moved.nil (h : Fifo ops trail p pos sent [] user avail w) (offset : Nat) :
    Moved ops trail p sent user offset 0 w := by
  refine ⟨pos, user, avail, rfl, fun _ _ => rfl, ?_⟩
  rw [Nat.zero_mul, stretch_zero, List.append_nil]
  exact h

/-- A transfer after another. -/
theorem Moved.trans {user' : UserBuf} {offset n t : Nat} (hsize : user'.size = user.size)
    (hbytes : ∀ i, i < offset * p.frameBytes → user'.byte i = user.byte i)
    (h : Moved ops trail p (sent ++ stretch user'.byte (offset * p.frameBytes) (n * p.frameBytes)) user'
      (offset + n) t w) :
    Moved ops trail p sent user offset (n + t) w := by
  obtain ⟨pos', user'', avail', hsize', hbytes', hfifo⟩ := h
  rw [Nat.add_mul] at hbytes' hfifo
  have hsame : stretch user'.byte (offset * p.frameBytes) (n * p.frameBytes) =
      stretch user''.byte (offset * p.frameBytes) (n * p.frameBytes) :=
    stretch_congr fun i hi => (hbytes' _ (Nat.add_lt_add_left hi _)).symm
  refine ⟨pos', user'', avail', hsize'.trans hsize, fun i hi => ?_, ?_⟩
  · exact (hbytes' i (Nat.lt_add_right _ hi)).trans (hbytes i hi)
  · rw [Nat.add_mul, stretch_add, ← List.append_assoc, ← hsame]
    exact hfifo

/-- A pass of `pcm_mmap_transfer_areas` on a ring with frames available. -/
theorem pass (hp : ByteSized p) (hl : FifoLaws ops trail p) (h : Fifo ops trail p pos sent [] user avail w)
    (havail : avail ≠ 0) {offset size : UInt32} (hsize : size ≠ 0) (hint : offset.toNat * p.frameBytes ≤ CInt.intMax)
    (hfit : (offset.toNat + size.toNat) * p.frameBytes ≤ user.size) :
    ∃ n : UInt32, 0 < n.toNat ∧ n.toNat ≤ size.toNat ∧ n.toNat ≤ CInt.intMax ∧
      (exec (pcmMmapBegin ops size) w).1.2 = n ∧
      let w₁ := (exec (pcmMmapBegin ops size) w).2
      let w₂ := (exec (Tinyalsa.pcmAreasCopy ops (exec (pcmMmapBegin ops size) w).1.1 offset n) w₁).2
      (exec (Tinyalsa.pcmMmapCommit ops n) w₂).1 = CInt.ofUInt n ∧
      ∃ (user' : UserBuf) (b : Nat), user'.size = user.size ∧
      (∀ i, i < offset.toNat * p.frameBytes → user'.byte i = user.byte i) ∧
        Fifo ops trail p (pos + n.toNat)
          (sent ++ stretch user'.byte (offset.toNat * p.frameBytes) (n.toNat * p.frameBytes)) [] user' b
          (exec (Tinyalsa.pcmMmapCommit ops n) w₂).2 := by
  obtain ⟨b, c, hab, hbc, h₁, hoff, hgrant⟩ := (ringInvariant hp hl).pcmMmapBegin hp.toRingSized avail size w h
  generalize hr : exec (pcmMmapBegin ops size) w = r at *
  obtain ⟨⟨pcmOffset, n⟩, w₁⟩ := r
  dsimp only at *
  have hslot := Nat.mod_lt pos hp.nonempty
  have hpos : 0 < size.toNat := Nat.pos_of_ne_zero fun hz => hsize (UInt32.toNat_inj.1 hz)
  have hle := h₁.queue.positions.le
  obtain ⟨d, user', hcd, husize, hbytes, h₂⟩ := h₁.pcmAreasCopy hp hl offset n hoff (by omega)
    (by omega) hint ((Nat.mul_le_mul_right _ (by omega)).trans hfit)
  obtain ⟨hret, e, -, h₃⟩ := h₂.pcmMmapCommit hp hl (n := n) (by omega) (length_stretch _ _ _).ge
  rw [List.take_of_length_le (length_stretch _ _ _).le] at h₃
  exact ⟨n, by omega, by omega, (hp.frames_le (by omega)).2, rfl, hret, user', e, husize, hbytes, h₃⟩

/-- Every frame of a transfer starts where an `int` reaches. -/
def OffsetsFit (p : Pcm) (offset size : UInt32) : Prop :=
  ∀ i, i < size.toNat → (offset.toNat + i) * p.frameBytes ≤ CInt.intMax

instance (p : Pcm) (offset size : UInt32) : Decidable (OffsetsFit p offset size) :=
  inferInstanceAs (Decidable (∀ i, i < size.toNat → (offset.toNat + i) * p.frameBytes ≤ CInt.intMax))

/-- The loop of `pcm_mmap_transfer_areas` ends after as many passes as there are frames, at the latest, and
returns the frames it moved. -/
theorem transferAreasLoop (hp : ByteSized p) (hl : FifoLaws ops trail p) {fuel : Nat} :
    ∀ {pos avail : Nat} {sent : List UInt8}
    {user : UserBuf} {w : World σ} (offset size count : UInt32), Fifo ops trail p pos sent [] user avail w →
    OffsetsFit p offset size → (offset.toNat + size.toNat) * p.frameBytes ≤ user.size →
    ((exec (transferAreasLoop ops fuel offset size count) w).1 = none ∧ fuel ≤ size.toNat) ∨
    ∃ t : UInt32, (exec (transferAreasLoop ops fuel offset size count) w).1 = some (CInt.ofUInt (count + t)) ∧
      Moved ops trail p sent user offset.toNat t.toNat (exec (transferAreasLoop ops fuel offset size count) w).2 ∧
      t.toNat ≤ size.toNat := by
  induction fuel with
  | zero => exact fun _ _ _ _ _ _ => .inl ⟨rfl, Nat.zero_le _⟩
  | succ fuel ih =>
    intro pos avail sent user w offset size count h hint hfit
    obtain ⟨b, c, -, hbc, hb, hret, h₁⟩ := (ringInvariant hp hl).pcmMmapAvail hp.toRingSized avail w h
    have hgo : (exec (pcmMmapAvail ops) w).1 ≠ 0 ↔ b ≠ 0 := by
      rw [hret]
      exact not_congr (CInt.wrapInt_eq_zero (hb.trans_lt p.bufferSize.toNat_lt))
    simp only [Tinyalsa.transferAreasLoop, exec_bind, exec_ite, exec_pure, exec_oops]
    split
    · rename_i hcond
      obtain ⟨hgone, hsize⟩ := hcond
      have hpos : 0 < size.toNat := Nat.pos_of_ne_zero fun hz => hsize (UInt32.toNat_inj.1 hz)
      have hc : c ≠ 0 := by have := hgo.1 hgone; omega
      obtain ⟨n, hn, hle, hmax, hgrant, hcommit, user', d, husize, hbytes, h₂⟩ :=
        h₁.pass hp hl hc hsize (hint 0 hpos) hfit
      rw [hgrant, hcommit, CInt.ofUInt_of_le hmax, if_neg (not_lt.2 (Int.natCast_nonneg _)), CInt.toUInt_toNat]
      -- the next pass starts where this one ended
      have hlast := hint (size.toNat - 1) (Nat.sub_lt hpos Nat.one_pos)
      have hoffset : offset.toNat + (size.toNat - 1) ≤ CInt.intMax := (Nat.le_mul_of_pos_right _ hp.frame).trans hlast
      have hnext : (offset + n).toNat = offset.toNat + n.toNat := by
        rw [UInt32.toNat_add, Nat.mod_eq_of_lt]
        unfold CInt.intMax at hoffset
        omega
      have hrest : (size - n).toNat = size.toNat - n.toNat := UInt32.toNat_sub_of_le _ _ (UInt32.le_iff_toNat_le.2 hle)
      have hint' : OffsetsFit p (offset + n) (size - n) := by
        intro i hi
        rw [hnext, Nat.add_assoc]
        exact hint _ (by omega)
      have hfit' : ((offset + n).toNat + (size - n).toNat) * p.frameBytes ≤ user'.size := by
        rw [hnext, hrest, husize]
        exact (Nat.mul_le_mul_right _ (by omega)).trans hfit
      rcases ih (offset + n) (size - n) (count + n) h₂ hint' hfit' with ⟨hres, hfuel⟩ | ⟨t, hres, hmoved, ht⟩
      · exact .inl ⟨hres, by omega⟩
      have hsum : (n + t).toNat = n.toNat + t.toNat := by
        rw [UInt32.toNat_add, Nat.mod_eq_of_lt]
        have := size.toNat_lt
        omega
      refine .inr ⟨n + t, by rw [hres, UInt32.add_assoc], ?_, by omega⟩
      rw [hnext] at hmoved
      rw [hsum]
      exact .trans husize hbytes hmoved
    · exact .inr ⟨0, by rw [UInt32.add_zero], .nil h₁ _, Nat.zero_le _⟩

/-- `pcm_mmap_transfer_areas` returns the frames it moved. -/
theorem pcmMmapTransferAreas (hp : ByteSized p) (hl : FifoLaws ops trail p) (fuel : Nat) {offset size : UInt32}
    (h : Fifo ops trail p pos sent [] user avail w) (hint : OffsetsFit p offset size)
    (hfit : (offset.toNat + size.toNat) * p.frameBytes ≤ user.size) :
    ((exec (pcmMmapTransferAreas ops fuel offset size) w).1 = none ∧ fuel ≤ size.toNat) ∨
    ∃ t : UInt32, (exec (pcmMmapTransferAreas ops fuel offset size) w).1 = some (CInt.ofUInt t) ∧
      Moved ops trail p sent user offset.toNat t.toNat (exec (pcmMmapTransferAreas ops fuel offset size) w).2 := by
  have hnote : Fifo ops trail p pos sent [] user avail (w.push .areas) := ⟨h.same, h.queue, h.agrees, h.fault, h.user⟩
  simp only [Tinyalsa.pcmMmapTransferAreas, exec_bind, exec_record]
  rcases transferAreasLoop hp hl offset size 0 hnote hint hfit with hnone | ⟨t, hres, hmoved, -⟩
  · exact .inl hnone
  · rw [UInt32.zero_add] at hres
    exact .inr ⟨t, hres, hmoved⟩

end Fifo

/-! ## Runs -/

/-- Where an application is that uses the ring itself: between two grants, granted a region, or done with
some frames of it, whose bytes these are. -/
inductive Grant
  | none
  | granted (offset frames : UInt32)
  | accessed (frames : UInt32) (bytes : List UInt8)

variable (ops trail) in
/-- Runs on a stream, from the world `w₀` on: the transfers made, and the bytes that were copied in, or that
the user received. The hardware moves on between any two steps. -/
inductive FifoRun (w₀ : World σ) : List (UInt32 × UInt32) → List UInt8 → Grant → World σ → Prop
  | start : FifoRun w₀ [] [] .none w₀
  | hardware {calls : List (UInt32 × UInt32)} {bytes : List UInt8} {g : Grant} {w : World σ}
      (h : FifoRun w₀ calls bytes g w) {d : σ} (hd : HwStep ops trail w₀.pcm w.dev d) :
      FifoRun w₀ calls bytes g (w.setDev d)
  | begin {calls : List (UInt32 × UInt32)} {bytes : List UInt8} {w : World σ} (h : FifoRun w₀ calls bytes .none w)
      (frames : UInt32) :
      FifoRun w₀ calls bytes (.granted (exec (pcmMmapBegin ops frames) w).1.1 (exec (pcmMmapBegin ops frames) w).1.2)
        (exec (pcmMmapBegin ops frames) w).2
  /-- The application stores frames in the granted region. -/
  | write {calls : List (UInt32 × UInt32)} {bytes : List UInt8} {w : World σ} {offset frames : UInt32}
      (h : FifoRun w₀ calls bytes (.granted offset frames) w) (hout : w₀.pcm.isIn = false) {n : UInt32}
        (hn : n ≤ frames) (src : Nat → UInt8) :
      FifoRun w₀ calls bytes (.accessed n (stretch src 0 (n.toNat * w₀.pcm.frameBytes)))
        (w.setDev (ops.setBuffer (copyBytes (ops.buffer w.dev) (offset.toNat * w₀.pcm.frameBytes) src 0
          (n.toNat * w₀.pcm.frameBytes)) w.dev))
  /-- The application reads frames from the granted region. -/
  | read {calls : List (UInt32 × UInt32)} {bytes : List UInt8} {w : World σ} {offset frames : UInt32}
      (h : FifoRun w₀ calls bytes (.granted offset frames) w) (hin : w₀.pcm.isIn = true) {n : UInt32}
        (hn : n ≤ frames) :
      FifoRun w₀ calls bytes
        (.accessed n (stretch (ops.buffer w.dev) (offset.toNat * w₀.pcm.frameBytes) (n.toNat * w₀.pcm.frameBytes))) w
  | commit {calls : List (UInt32 × UInt32)} {bytes held : List UInt8} {w : World σ} {frames : UInt32}
      (h : FifoRun w₀ calls bytes (.accessed frames held) w) {n : UInt32} (hn : n ≤ frames) :
      FifoRun w₀ calls (bytes ++ held.take (n.toNat * w₀.pcm.frameBytes)) .none (exec (pcmMmapCommit ops n) w).2
  /-- A transfer between the ring and a buffer that has the bytes. -/
  | areas {calls : List (UInt32 × UInt32)} {bytes : List UInt8} {w : World σ} (h : FifoRun w₀ calls bytes .none w)
      (user : UserBuf) {fuel : Nat} {offset size : UInt32}
      (hfit : (offset.toNat + size.toNat) * w₀.pcm.frameBytes ≤ user.size) {r : Int} {w' : World σ}
      (hr : exec (pcmMmapTransferAreas ops fuel offset size) { w with user } = (some r, w')) :
      FifoRun w₀ ((offset, size) :: calls)
        (bytes ++ stretch w'.user.byte (offset.toNat * w₀.pcm.frameBytes) ((CInt.toUInt r).toNat * w₀.pcm.frameBytes))
        .none w'

variable (ops) in
/-- The hardware and the library start on an empty ring. -/
structure FifoStart (w : World σ) : Prop where
  sized : ByteSized w.pcm
  empty : (ops.status w.dev).hwPtr = (ops.control w.dev).applPtr
  below : (ops.control w.dev).applPtr < w.pcm.boundary
  agrees : PtrAgrees ops w
  fault : w.fault = false

variable (ops trail) in
/-- Nothing is lost, duplicated, reordered or overwritten: what was copied in is what the hardware played, and
then what is queued; what the hardware recorded is what the user received, and then what is still to be read. -/
structure Lossless (w₀ : World σ) (bytes : List UInt8) (g : Grant) (w : World σ) : Prop where
  applPtr : applPtrOf ops w < w₀.pcm.boundary
  noFault : w.fault = false
  granted : ∀ offset n, g = .granted offset n → offset.toNat + n.toNat ≤ w₀.pcm.bufferSize.toNat
  playback : w₀.pcm.isIn = false → trail w₀.dev ++ bytes = trail w.dev ++
    window w₀.pcm.size (ops.buffer w.dev) ((ops.status w.dev).hwPtr.toNat * w₀.pcm.frameBytes)
      (hwLimit w₀.pcm (ops.status w.dev).hwPtr (ops.control w.dev).applPtr * w₀.pcm.frameBytes)
  capture : w₀.pcm.isIn = true → trail w.dev = trail w₀.dev ++ bytes ++
    window w₀.pcm.size (ops.buffer w.dev) ((ops.control w.dev).applPtr.toNat * w₀.pcm.frameBytes)
      ((w₀.pcm.bufferSize.toNat - hwLimit w₀.pcm (ops.status w.dev).hwPtr (ops.control w.dev).applPtr) *
        w₀.pcm.frameBytes)
  /-- The next transfer ends. -/
  ends : g = .none → ∀ user offset size, Fifo.OffsetsFit w₀.pcm offset size →
    (offset.toNat + size.toNat) * w₀.pcm.frameBytes ≤ user.size → ∀ fuel, size.toNat < fuel →
    ∃ r, (exec (pcmMmapTransferAreas ops fuel offset size) { w with user }).1 = some r

/-- What is held for a grant. -/
def Grant.Held (p : Pcm) (pos : Nat) (held : List UInt8) (avail : Nat) : Grant → Prop
  | .none => held = []
  | .granted offset n => held = [] ∧ offset.toNat = pos % p.bufferSize.toNat ∧ n.toNat ≤ avail ∧
    offset.toNat + n.toNat ≤ p.bufferSize.toNat
  | .accessed n bytes => held = bytes ∧ n.toNat ≤ avail ∧ bytes.length = n.toNat * p.frameBytes

theorem Grant.Held.mono {p : Pcm} {pos a b : Nat} {held : List UInt8} {g : Grant} (h : g.Held p pos held a)
    (hab : a ≤ b) :
    g.Held p pos held b := by
  cases g with
  | none => exact h
  | granted offset n => exact ⟨h.1, h.2.1, h.2.2.1.trans hab, h.2.2.2⟩
  | accessed n bytes => exact ⟨h.1, h.2.1.trans hab, h.2.2⟩

theorem FifoStart.fifo (trail : σ → List UInt8) {w : World σ} (hs : FifoStart ops w) : ∃ avail,
    Fifo ops trail w.pcm (ops.control w.dev).applPtr.toNat (trail w.dev) [] w.user avail w := by
  have hlt := UInt64.lt_iff_toNat_lt.1 hs.below
  have hmod := Nat.mod_eq_of_lt hlt
  refine ⟨w.pcm.lead, .refl _, ⟨⟨hmod.symm, ⟨_, rfl, ?_⟩, ?_⟩, fun hout => ?_, fun hin => ?_, Nat.zero_le _,
    window_zero _⟩, hs.agrees, hs.fault, rfl⟩
  · rw [hs.empty, hmod]
  · unfold Pcm.lead
    split
    · exact Nat.zero_le _
    · exact le_rfl
  · simp [Pcm.lead, hout]
  · simp [Pcm.lead, hin]

/-- Every run keeps the queue in order, as long as `int` offsets reach the frames of its transfers. -/
theorem FifoRun.fifo {w₀ w : World σ} (hl : FifoLaws ops trail w₀.pcm) (hs : FifoStart ops w₀)
    {calls : List (UInt32 × UInt32)} {bytes : List UInt8} {g : Grant} (h : FifoRun ops trail w₀ calls bytes g w)
    (hc : ∀ c ∈ calls, Fifo.OffsetsFit w₀.pcm c.1 c.2) : ∃ pos held user avail,
    Fifo ops trail w₀.pcm pos (trail w₀.dev ++ bytes) held user avail w ∧ g.Held w₀.pcm pos held avail := by
  have hp := hs.sized
  induction h with
  | start =>
    obtain ⟨avail, hf⟩ := hs.fifo trail
    exact ⟨_, _, _, avail, by rwa [List.append_nil], rfl⟩
  | hardware h hd ih =>
    -- the other side only makes room
    obtain ⟨pos, held, user, a, hf, hg⟩ := ih hc
    obtain ⟨b, hab, hf'⟩ := hf.hwStep hp (World.setDev _ _) hd rfl hf.same rfl rfl
    exact ⟨pos, held, user, b, hf', hg.mono hab⟩
  | begin h frames ih =>
    obtain ⟨pos, held, user, a, hf, rfl⟩ := ih hc
    obtain ⟨b, c, -, hbc, hf', hoff, hgrant⟩ := (Fifo.ringInvariant hp hl).pcmMmapBegin hp.toRingSized a frames _ hf
    have hslot := Nat.mod_lt pos hp.nonempty
    exact ⟨pos, [], user, c, hf', rfl, hoff, by omega, by omega⟩
  | write h hout hn src ih =>
    obtain ⟨pos, held, user, a, hf, -, hoff, hle, hwrap⟩ := ih hc
    have hn := UInt32.le_iff_toNat_le.1 hn
    refine ⟨pos, _, user, a, ⟨hf.same, ?_, hf.agrees.congr rfl (hl.setBuffer _ _), hf.fault, hf.user⟩, rfl,
      hn.trans hle, length_stretch _ _ _⟩
    rw [copyBytes_eq_store, hoff]
    simp only [Nat.zero_add]
    exact hf.queue.write hl hout (hn.trans hle) (by omega) src
  | read h hin hn ih =>
    obtain ⟨pos, held, user, a, hf, -, hoff, hle, hwrap⟩ := ih hc
    have hn := UInt32.le_iff_toNat_le.1 hn
    refine ⟨pos, _, user, a, ⟨hf.same, ?_, hf.agrees, hf.fault, hf.user⟩, rfl, hn.trans hle, length_stretch _ _ _⟩
    rw [hoff]
    exact hf.queue.read (hn.trans hle) (by omega)
  | commit h hn ih =>
    obtain ⟨pos, held, user, a, hf, rfl, hle, hlen⟩ := ih hc
    have hn := UInt32.le_iff_toNat_le.1 hn
    obtain ⟨-, b, -, hf'⟩ := hf.pcmMmapCommit hp hl (hn.trans hle) (by rw [hlen]; exact Nat.mul_le_mul_right _ hn)
    rw [List.append_assoc] at hf'
    exact ⟨_, [], user, b, hf', rfl⟩
  | @areas calls bytes w h user fuel offset size hfit r w' hr ih =>
    obtain ⟨hint, hc⟩ := List.forall_mem_cons.1 hc
    obtain ⟨pos, held, user₀, a, hf, rfl⟩ := ih hc
    have hnew : Fifo ops trail w₀.pcm pos (trail w₀.dev ++ bytes) [] user a { w with user } :=
      ⟨hf.same, hf.queue, hf.agrees, hf.fault, rfl⟩
    have htransfer := hnew.pcmMmapTransferAreas hp hl fuel hint hfit
    rw [hr] at htransfer
    rcases htransfer with ⟨hnone, -⟩ | ⟨t, hres, pos', user', b, -, -, hf'⟩
    · exact absurd hnone (Option.some_ne_none r)
    · have hr : r = CInt.ofUInt t := Option.some.inj hres
      rw [← hf'.user, List.append_assoc] at hf'
      rw [hr, CInt.toUInt_ofUInt]
      exact ⟨pos', [], w'.user, b, hf', rfl⟩

theorem Fifo.lossless {w₀ w : World σ} (hp : ByteSized w₀.pcm) (hl : FifoLaws ops trail w₀.pcm)
    {bytes held : List UInt8} {g : Grant} {pos avail : Nat} {user : UserBuf}
    (h : Fifo ops trail w₀.pcm pos (trail w₀.dev ++ bytes) held user avail w) (hg : g.Held w₀.pcm pos held avail) :
    Lossless ops trail w₀ bytes g w where
  applPtr := by
    rw [(ptrAgrees_iff w).1 h.agrees, UInt64.lt_iff_toNat_lt]
    exact (h.queue.positions.gap hp.toRingSized).2.1
  noFault := h.fault
  granted offset n hgrant := by
    rw [hgrant] at hg
    exact hg.2.2.2
  playback hout := by
    obtain ⟨hw, hhw, hptr⟩ := h.queue.positions.hw
    simp only [Pcm.lead, hout, Bool.false_eq_true, if_false] at hhw
    have hstart : pos + avail - w₀.pcm.bufferSize.toNat = hw := by omega
    rw [h.queue.positions.hwLimit_eq hp.toRingSized, hptr, window_start _ (frameStart_mod hp.toRingSized hw), ← hstart]
    exact h.queue.playback hout
  capture hin := by
    have hle := h.queue.positions.le
    have havail : w₀.pcm.bufferSize.toNat - (w₀.pcm.bufferSize.toNat - avail) = avail := by omega
    rw [h.queue.positions.hwLimit_eq hp.toRingSized, havail, h.queue.positions.appl,
      window_start _ (frameStart_mod hp.toRingSized pos)]
    exact h.queue.capture hin
  ends hnone user offset size hint hfit fuel hfuel := by
    rw [hnone] at hg
    have hnew : Fifo ops trail w₀.pcm pos (trail w₀.dev ++ bytes) [] user avail { w with user } :=
      ⟨h.same, hg ▸ h.queue, h.agrees, h.fault, rfl⟩
    rcases hnew.pcmMmapTransferAreas hp hl fuel hint hfit with ⟨-, hle⟩ | ⟨t, hres, -⟩
    · exact absurd hle (not_le.2 hfuel)
    · exact ⟨_, hres⟩

/-- The ring is a lossless queue in every run whose transfers stay within the bytes that an `int` counts. -/
theorem fifoRun_lossless {w₀ w : World σ} (hl : FifoLaws ops trail w₀.pcm) (hs : FifoStart ops w₀)
    {calls : List (UInt32 × UInt32)} {bytes : List UInt8} {g : Grant} (h : FifoRun ops trail w₀ calls bytes g w)
    (hc : ∀ c ∈ calls, Fifo.OffsetsFit w₀.pcm c.1 c.2) : Lossless ops trail w₀ bytes g w := by
  obtain ⟨pos, held, user, avail, hf, hg⟩ := h.fifo hl hs hc
  exact hf.lossless hs.sized hl hg

end

/-! ## On the kernel -/

/-- A kernel whose hardware moves between the calls only. -/
theorem Kernel.willing_fifoLaws (p : Pcm) : FifoLaws Kernel.willing Kernel.trail p :=
  { Kernel.willing_controlLaws with
    accepts := fun _ _ => ⟨le_rfl, rfl⟩
    syncMoves := fun _ d hd => ⟨d, .refl hd, rfl, rfl, rfl⟩
    hwsyncMoves := fun _ hd => .refl hd
    runMoves := fun _ hd => .refl hd
    setControlKeeps := fun _ _ => ⟨rfl, rfl, rfl⟩
    setBufferStores := fun _ _ => ⟨rfl, rfl, rfl⟩ }

/-- The kernel once its hardware has played `k` frames. -/
def Kernel.played (p : Pcm) (k : Nat) (d : Kernel) : Kernel := { d with
  status := { d.status with hwPtr := UInt64.ofNat ((d.status.hwPtr.toNat + k) % p.boundary.toNat) }
  trail := d.trail ++ window p.size d.buffer (d.status.hwPtr.toNat * p.frameBytes) (k * p.frameBytes) }

theorem Kernel.hwStep_played {p : Pcm} (hp : RingSized p) {k : Nat} {d : Kernel}
    (hk : k ≤ hwLimit p d.status.hwPtr d.control.applPtr) : HwStep Kernel.willing Kernel.trail p d (d.played p k) where
  control := rfl
  moves := by
    have hlt := (Nat.mod_lt (d.status.hwPtr.toNat + k) hp.boundary_pos).trans p.boundary.toNat_lt
    exact ⟨k, hk, (UInt64.toNat_ofNat' ..).trans (Nat.mod_eq_of_lt hlt), rfl, fun _ _ _ => rfl⟩

/-- An empty ring of four frames, two before both its end and the boundary. -/
def ringEnd : World Kernel where
  pcm := { quadRing with syncPtr := some { control := ⟨14, 2⟩ } }
  dev := { status := { state := .running, hwPtr := 14 }, control := ⟨14, 2⟩ }
  user := ⟨12, fun i => UInt8.ofNat i⟩

theorem ringEnd_start : FifoStart Kernel.willing ringEnd where
  sized := { quadRing_sized with frame := by decide, bytes := by decide }
  empty := rfl
  below := by decide
  agrees := by
    intro s hs
    rw [← Option.some.inj hs]
    rfl
  fault := rfl

/-- A transfer of frames of the caller's buffer. -/
def ringEndAfter (offset size : UInt32) (user : UserBuf) : Option Int × World Kernel :=
  exec (pcmMmapTransferAreas Kernel.willing (size.toNat + 1) offset size) { ringEnd with user }

theorem ringEndAfter_run (offset size : UInt32) (user : UserBuf) (hfit : (offset.toNat + size.toNat) * 4 ≤ user.size)
    {r : Int} (hr : (ringEndAfter offset size user).1 = some r) :
    FifoRun Kernel.willing Kernel.trail ringEnd [(offset, size)]
      ([] ++ stretch (ringEndAfter offset size user).2.user.byte (offset.toNat * 4) ((CInt.toUInt r).toNat * 4)) .none
      (ringEndAfter offset size user).2 :=
  .areas .start user hfit (Prod.ext hr rfl)

/-- Three frames go around the end, and the hardware plays two of them. -/
theorem fifoRun_lossless_ringEnd : Lossless Kernel.willing Kernel.trail ringEnd ((List.range 12).map UInt8.ofNat) .none
    ((ringEndAfter 0 3 ringEnd.user).2.setDev ((ringEndAfter 0 3 ringEnd.user).2.dev.played ringEnd.pcm 2)) := by
  have hrun := ringEndAfter_run 0 3 ringEnd.user (by decide) (r := 3) (by decide +kernel)
  have hbytes : [] ++ stretch (ringEndAfter 0 3 ringEnd.user).2.user.byte ((0 : UInt32).toNat * 4)
      ((CInt.toUInt 3).toNat * 4) = (List.range 12).map UInt8.ofNat := by decide +kernel
  rw [hbytes] at hrun
  have hplayed := hrun.hardware (Kernel.hwStep_played ringEnd_start.sized.toRingSized (k := 2) (by decide +kernel))
  refine fifoRun_lossless (Kernel.willing_fifoLaws _) ringEnd_start hplayed fun c hc => ?_
  rw [List.mem_singleton.1 hc]
  decide

/-- The frame at byte `2 ^ 31` of the caller's buffer: its offset is a negative `int`, and the ring does not
get it. -/
theorem fifoRun_lossless_not : ∃ w, FifoStart Kernel.willing ringEnd ∧
    FifoRun Kernel.willing Kernel.trail ringEnd [(2 ^ 29, 1)] [7, 7, 7, 7] .none w ∧ w.fault = true ∧
    ¬ Lossless Kernel.willing Kernel.trail ringEnd [7, 7, 7, 7] .none w := by
  have hrun := ringEndAfter_run (2 ^ 29) 1 ⟨2 ^ 31 + 4, fun _ => 7⟩ (by decide) (r := 1) (by decide +kernel)
  have hbytes : [] ++ stretch (ringEndAfter (2 ^ 29) 1 ⟨2 ^ 31 + 4, fun _ => 7⟩).2.user.byte
    ((2 ^ 29 : UInt32).toNat * 4) ((CInt.toUInt 1).toNat * 4) = [7, 7, 7, 7] := by decide +kernel
  rw [hbytes] at hrun
  refine ⟨_, ringEnd_start, hrun, by decide +kernel, fun h => ?_⟩
  -- the slot that is queued still holds what it held before
  exact absurd (h.playback (by decide)) (by decide +kernel)

end Tinyalsa
