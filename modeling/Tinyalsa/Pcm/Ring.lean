/-
The pointers of a ring. The hardware and the application pointer run modulo the boundary, the slots of
the ring modulo its size; both are read here as positions in one unbounded stream of frames.
-/
import Tinyalsa.Pcm.Frame
import Tinyalsa.Pcm.Kernel

namespace Tinyalsa

open Hoare

/-! ## Sizes -/

/-- The sizes the kernel gives a ring: its boundary is a multiple of it that a `long` can pass by a whole
ring. -/
structure RingSized (pcm : Pcm) : Prop where
  nonempty : 0 < pcm.bufferSize.toNat
  divides : pcm.bufferSize.toNat ∣ pcm.boundary.toNat
  twice : 2 * pcm.bufferSize.toNat ≤ pcm.boundary.toNat
  fits : pcm.boundary.toNat + pcm.bufferSize.toNat ≤ CInt.longMax

theorem RingSized.boundary_pos {p : Pcm} (hp : RingSized p) : 0 < p.boundary.toNat :=
  Nat.lt_of_lt_of_le (Nat.mul_pos Nat.two_pos hp.nonempty) hp.twice

/-- The slot of a pointer. -/
theorem toNat_ringOffset {p : Pcm} (hp : RingSized p) {applPtr : UInt64} {pos : Nat}
    (h : applPtr.toNat = pos % p.boundary.toNat) :
    (applPtr % p.bufferSize.toUInt64).toUInt32.toNat = pos % p.bufferSize.toNat := by
  have hlt := Nat.mod_lt (pos % p.boundary.toNat) hp.nonempty
  have := p.bufferSize.toNat_lt
  rw [UInt64.toNat_toUInt32, UInt64.toNat_mod, UInt32.toNat_toUInt64, h, Nat.mod_eq_of_lt (by omega),
    Nat.mod_mod_of_dvd _ hp.divides]

theorem toNat_grantFrames {bufferSize offset : UInt32} (h : offset.toNat ≤ bufferSize.toNat) (avail frames : UInt32) :
    (grantFrames bufferSize offset avail frames).toNat =
      min (min frames.toNat (min avail.toNat bufferSize.toNat)) (bufferSize.toNat - offset.toNat) := by
  simp only [grantFrames, CInt.toNat_clamp]
  rw [UInt32.toNat_sub_of_le _ _ (UInt32.le_iff_toNat_le.2 h)]

/-- A move by at most a ring's frames is one modulo the boundary. -/
theorem toNat_applForward {p : Pcm} (hp : RingSized p) {applPtr : UInt64} {pos : Nat}
    (hptr : applPtr.toNat = pos % p.boundary.toNat) {n : UInt32} (hn : n.toNat ≤ p.bufferSize.toNat)
    (hmax : n.toNat ≤ CInt.intMax) :
    (applForward p.boundary applPtr (CInt.ofUInt n)).toNat = (pos + n.toNat) % p.boundary.toNat := by
  have htwice := hp.twice
  have hfits := hp.fits
  have hlt := Nat.mod_lt pos hp.boundary_pos
  unfold CInt.longMax at hfits
  have hsum : (applPtr + n.toUInt64).toNat = applPtr.toNat + n.toNat := by
    rw [UInt64.toNat_add, UInt32.toNat_toUInt64, Nat.mod_eq_of_lt (by omega)]
  rw [← Nat.mod_add_mod, ← hptr]
  unfold applForward
  simp only [CInt.toULong_ofUInt hmax]
  split <;> rename_i h <;> rw [ge_iff_le, UInt64.le_iff_toNat_le, hsum] at h
  · rw [UInt64.toNat_sub_of_le _ _ (by rwa [UInt64.le_iff_toNat_le, hsum]), hsum, Nat.mod_eq_sub_mod h,
      Nat.mod_eq_of_lt (by omega)]
  · rw [hsum, Nat.mod_eq_of_lt (by omega)]

/-! ## Positions -/

/-- How far the application may be ahead of the hardware. -/
def Pcm.lead (p : Pcm) : Nat := if p.isIn then 0 else p.bufferSize.toNat

/-- The frames by which the hardware may move on: those queued for playback, the space left for capture. -/
def hwLimit (p : Pcm) (hwPtr applPtr : UInt64) : Nat :=
  if p.isIn then p.bufferSize.toNat - (hwPtr.toNat + p.boundary.toNat - applPtr.toNat) % p.boundary.toNat
  else (applPtr.toNat + p.boundary.toNat - hwPtr.toNat) % p.boundary.toNat

/-- Two pointers as positions in one stream: the application is at `pos`, and the next `avail` frames are
its to write or to read. -/
structure Positions (p : Pcm) (hwPtr applPtr : UInt64) (pos avail : Nat) : Prop where
  appl : applPtr.toNat = pos % p.boundary.toNat
  hw : ∃ h, h + p.lead = pos + avail ∧ hwPtr.toNat = h % p.boundary.toNat
  le : avail ≤ p.bufferSize.toNat

/-- Numbers below twice the modulus that agree modulo it. -/
theorem eq_of_mod_eq {b u v : Nat} (hu : u < 2 * b) (hv : v < 2 * b) (h : u % b = v % b) :
    u = v ∨ u = v + b ∨ v = u + b := by
  have hcases : ∀ x, x < 2 * b → x % b = x ∧ x < b ∨ x % b + b = x := by
    intro x hx
    rcases Nat.lt_or_ge x b with hlt | hge
    · exact .inl ⟨Nat.mod_eq_of_lt hlt, hlt⟩
    · rw [Nat.mod_eq_sub_mod hge, Nat.mod_eq_of_lt (by omega)]
      omega
  rcases hcases u hu with ⟨hu', -⟩ | hu' <;> rcases hcases v hv with ⟨hv', -⟩ | hv' <;> omega

namespace Positions

variable {p : Pcm} {hwPtr applPtr : UInt64} {pos avail : Nat} (h : Positions p hwPtr applPtr pos avail)
    (hp : RingSized p)

include h hp

/-- The pointers differ by what is available, up to one turn of the boundary. -/
theorem gap : hwPtr.toNat < p.boundary.toNat ∧ applPtr.toNat < p.boundary.toNat ∧
    (hwPtr.toNat + p.lead = applPtr.toNat + avail ∨ hwPtr.toNat + p.lead = applPtr.toNat + avail + p.boundary.toNat ∨
      applPtr.toNat + avail = hwPtr.toNat + p.lead + p.boundary.toNat) := by
  obtain ⟨hw, hpos, hptr⟩ := h.hw
  have hx := Nat.mod_lt hw hp.boundary_pos
  have hy := Nat.mod_lt pos hp.boundary_pos
  have htwice := hp.twice
  have hle := h.le
  have hlead : p.lead ≤ p.bufferSize.toNat := by unfold Pcm.lead; split <;> omega
  refine ⟨by omega, by rw [h.appl]; exact hy, eq_of_mod_eq (by omega) (by rw [h.appl]; omega) ?_⟩
  rw [hptr, h.appl, Nat.mod_add_mod, Nat.mod_add_mod, hpos]

/-- `pcm_mmap_playback_avail` and `pcm_mmap_capture_avail` compute what is available. -/
theorem pcmMmapAvail_eq :
    (if p.isIn then pcmMmapCaptureAvail p hwPtr applPtr else pcmMmapPlaybackAvail p hwPtr applPtr) = avail := by
  obtain ⟨hx, hy, hgap⟩ := h.gap hp
  have htwice := hp.twice
  have hfits := hp.fits
  have hne := hp.nonempty
  have hle := h.le
  unfold CInt.longMax at hfits
  unfold Pcm.lead at hgap
  split
  · rename_i hin
    rw [if_pos hin] at hgap
    unfold pcmMmapCaptureAvail
    rw [CInt.wrapLong_of_fits (by omega) (by omega)]
    dsimp only
    split
    · rw [CInt.wrapLong_of_fits (by omega) (by omega)]; omega
    · omega
  · rename_i hout
    rw [if_neg hout] at hgap
    unfold pcmMmapPlaybackAvail
    rw [CInt.wrapLong_of_fits (by omega) (by omega)]
    dsimp only
    split
    · rw [CInt.wrapLong_of_fits (by omega) (by omega)]; omega
    split
    · rw [CInt.wrapLong_of_fits (by omega) (by omega)]; omega
    · omega

theorem hwLimit_eq : hwLimit p hwPtr applPtr = p.bufferSize.toNat - avail := by
  obtain ⟨hx, hy, hgap⟩ := h.gap hp
  have htwice := hp.twice
  have hne := hp.nonempty
  have hle := h.le
  have hmod : ∀ n r, r < p.boundary.toNat → n = r ∨ n = r + p.boundary.toNat → n % p.boundary.toNat = r := by
    rintro n r hr (rfl | rfl)
    · exact Nat.mod_eq_of_lt hr
    · rw [Nat.add_mod_right, Nat.mod_eq_of_lt hr]
  unfold hwLimit
  unfold Pcm.lead at hgap
  split
  · rename_i hin
    rw [if_pos hin] at hgap
    rw [hmod _ avail (by omega) (by omega)]
  · rename_i hout
    rw [if_neg hout] at hgap
    exact hmod _ _ (by omega) (by omega)

/-- The application takes `n` of its frames. -/
theorem forward {n : UInt32} (hn : n.toNat ≤ avail) (hmax : n.toNat ≤ CInt.intMax) :
    Positions p hwPtr (applForward p.boundary applPtr (CInt.ofUInt n)) (pos + n.toNat) (avail - n.toNat) where
  appl := toNat_applForward hp h.appl (hn.trans h.le) hmax
  hw := by
    obtain ⟨hw, hpos, hptr⟩ := h.hw
    exact ⟨hw, by omega, hptr⟩
  le := (Nat.sub_le _ _).trans h.le

/-- The hardware moves on by `k` frames. -/
theorem hwMove {hwPtr' : UInt64} {k : Nat} (hk : k ≤ hwLimit p hwPtr applPtr)
    (hmove : hwPtr'.toNat = (hwPtr.toNat + k) % p.boundary.toNat) : Positions p hwPtr' applPtr pos (avail + k) where
  appl := h.appl
  hw := by
    obtain ⟨hw, hpos, hptr⟩ := h.hw
    exact ⟨hw + k, by omega, by rw [hmove, hptr, Nat.mod_add_mod]⟩
  le := by
    have hle := h.le
    rw [h.hwLimit_eq hp] at hk
    omega

end Positions

/-! ## The application pointer -/

section

variable {σ : Type} (ops : PcmOps σ)

/-- The flags of a transfer's first `SYNC_PTR`. -/
abbrev entryFlags : SyncFlags := { hwsync := true, appl := true, availMin := true }

/-- `pcm->mmap_control->appl_ptr`. -/
def applPtrOf (w : World σ) : UInt64 := ((w.pcm.syncPtr.map (·.control)).getD (ops.control w.dev)).applPtr

/-- The pointer is what the library reads. -/
theorem mmapControl_applPtr (w : World σ) :
    (exec (mmapControl ops) w).1.applPtr = applPtrOf ops (exec (mmapControl ops) w).2 := by
  unfold mmapControl applPtrOf
  cases hs : w.pcm.syncPtr with
  | none => simp [hs]
  | some s => simp [hs]

variable {ops}

/-- Moving the pointer touches the library's copy of the block where there is one, and the kernel's block
where it is mapped. -/
theorem pcmMmapApplForward_effect (hl : ControlLaws ops) (frames : Int) (w : World σ) :
    applPtrOf ops (exec (pcmMmapApplForward ops frames) w).2 = applForward w.pcm.boundary (applPtrOf ops w) frames ∧
      (∃ s, (exec (pcmMmapApplForward ops frames) w).2.pcm = { w.pcm with syncPtr := s }) ∧
      (exec (pcmMmapApplForward ops frames) w).2.user = w.user ∧
      (exec (pcmMmapApplForward ops frames) w).2.fault = w.fault ∧
      (w.pcm.syncPtr ≠ none ∧ (exec (pcmMmapApplForward ops frames) w).2.pcm.syncPtr ≠ none ∧
          (exec (pcmMmapApplForward ops frames) w).2.dev = w.dev ∨
        w.pcm.syncPtr = none ∧ (exec (pcmMmapApplForward ops frames) w).2.pcm.syncPtr = none ∧
          ∃ c, (exec (pcmMmapApplForward ops frames) w).2.dev = ops.setControl c (ops.run (ops.run w.dev))) := by
  unfold pcmMmapApplForward mmapControl setApplPtr
  cases hs : w.pcm.syncPtr with
  | none =>
    simp only [exec_bind, exec_get, hs, exec_modify, exec_pure, exec_record, World.setDev_pcm, World.setDev_dev]
    refine ⟨?_, ⟨none, ?_⟩, rfl, rfl, .inr ⟨trivial, hs, _, rfl⟩⟩
    · simp [applPtrOf, hs, hl.setControl, hl.run]
    · rw [← hs]; rfl
  | some s =>
    simp only [exec_bind, exec_get, hs, exec_modifyPcm, exec_pure, exec_record]
    refine ⟨?_, ⟨some _, rfl⟩, rfl, rfl, .inl ⟨Option.some_ne_none s, Option.some_ne_none _, rfl⟩⟩
    simp [applPtrOf, hs]

/-- The handle but for its copy of the pointers and its error. -/
def Pcm.Same (p q : Pcm) : Prop := ∃ s e, q = { p with syncPtr := s, error := e }

theorem Pcm.Same.refl (p : Pcm) : p.Same p := ⟨p.syncPtr, p.error, rfl⟩

theorem Pcm.Same.trans {p q r : Pcm} (h : p.Same q) (h' : q.Same r) : p.Same r := by
  obtain ⟨s, e, rfl⟩ := h
  obtain ⟨s', e', rfl⟩ := h'
  exact ⟨s', e', rfl⟩

/-- The kernel knows of the library's pointer. -/
def PtrAgrees (ops : PcmOps σ) (w : World σ) : Prop :=
  ∀ s, w.pcm.syncPtr = some s → (ops.control w.dev).applPtr = s.control.applPtr

theorem PtrAgrees.of_mapped {w : World σ} (h : w.pcm.syncPtr = none) : PtrAgrees ops w := by
  intro s hs
  rw [h] at hs
  cases hs

theorem PtrAgrees.congr {w w' : World σ} (h : PtrAgrees ops w) (hs : w'.pcm.syncPtr = w.pcm.syncPtr)
    (hc : ops.control w'.dev = ops.control w.dev) : PtrAgrees ops w' := by
  intro s hs'
  rw [hc]
  exact h s (hs.symm.trans hs')

/-- Where both know the same pointer, `SYNC_PTR` changes it for neither, whatever its flags and its outcome. -/
theorem PtrAgrees.sync (hl : ControlLaws ops) {w : World σ} (h : PtrAgrees ops w) {s : SndPcmSyncPtr}
    (hs : w.pcm.syncPtr = some s) (flags : SyncFlags) :
    applPtrOf ops (exec (ioctlSyncPtr ops { s with flags }) w).2 = applPtrOf ops w ∧
      PtrAgrees ops (exec (ioctlSyncPtr ops { s with flags }) w).2 := by
  rw [exec_ioctlSyncPtr]
  have hagr := h s hs
  have hptr : applPtrOf ops w = s.control.applPtr := by rw [applPtrOf, hs]; rfl
  rcases lt_or_ge (ops.syncPtr { s with flags } w.dev).1.ret 0 with hneg | hpos
  · obtain ⟨hctl, hkept⟩ := hl.syncPtrFails _ _ hneg
    refine ⟨?_, fun s' hs' => ?_⟩
    · rw [hptr]
      exact congrArg (·.control.applPtr) hkept
    · rw [← Option.some.inj hs']
      simpa [hctl, hkept] using hagr
  · obtain ⟨hctl, hnew⟩ := hl.syncPtr _ _ hpos
    have hsame : (ops.control (ops.syncPtr { s with flags } w.dev).2.2).applPtr = s.control.applPtr := by
      rw [hctl]
      by_cases ha : flags.appl
      · simpa [exchanged, ha] using hagr
      · simp [exchanged, ha]
    refine ⟨?_, fun s' hs' => ?_⟩
    · rw [hptr, ← hsame, ← hnew]
      rfl
    · rw [← Option.some.inj hs']
      exact congrArg SndPcmMmapControl.applPtr hnew.symm

/-- `SYNC_PTR` without flags keeps the library's pointer; once accepted, it is the kernel's. -/
theorem pcmSyncPtr_push (hl : ControlLaws ops) (w : World σ) :
    (w.pcm.syncPtr = none ∧ exec (pcmSyncPtr ops {}) w = (0, w)) ∨
    ∃ s, (exec (pcmSyncPtr ops {}) w).2.dev = (ops.syncPtr s w.dev).2.2 ∧
      (∃ b a, (exec (pcmSyncPtr ops {}) w).2.trace = .syncPtr {} (ops.syncPtr s w.dev).1.ret b a :: w.trace) ∧
      w.pcm.Same (exec (pcmSyncPtr ops {}) w).2.pcm ∧
      applPtrOf ops (exec (pcmSyncPtr ops {}) w).2 = applPtrOf ops w ∧
      ((ops.syncPtr s w.dev).1.ret < 0 ∧ (exec (pcmSyncPtr ops {}) w).1 = -1 ∨
        0 ≤ (ops.syncPtr s w.dev).1.ret ∧ (exec (pcmSyncPtr ops {}) w).1 = 0 ∧
          PtrAgrees ops (exec (pcmSyncPtr ops {}) w).2) := by
  unfold pcmSyncPtr
  cases hs : w.pcm.syncPtr with
  | none =>
    simp only [exec_bind, exec_get, hs, Bool.false_eq_true, if_false, exec_pure]
    exact .inl ⟨trivial, trivial⟩
  | some s =>
    have hptr : applPtrOf ops w = s.control.applPtr := by rw [applPtrOf, hs]; rfl
    simp only [exec_bind, exec_get, hs, exec_ite, exec_ioctlSyncPtr, exec_oops, exec_pure]
    refine .inr ⟨{ s with flags := {} }, ?_⟩
    split
    · rename_i hneg
      obtain ⟨-, hkept⟩ := hl.syncPtrFails _ _ hneg
      refine ⟨rfl, ⟨_, _, rfl⟩, ⟨some _, _, rfl⟩, ?_, .inl ⟨hneg, rfl⟩⟩
      rw [hptr]
      exact congrArg (·.control.applPtr) hkept
    · rename_i hpos
      obtain ⟨hctl, hnew⟩ := hl.syncPtr _ _ (not_lt.1 hpos)
      refine ⟨rfl, ⟨_, _, rfl⟩, ⟨some _, _, rfl⟩, ?_, .inr ⟨not_lt.1 hpos, rfl, fun s' hs' => ?_⟩⟩
      · rw [hptr]
        exact (congrArg SndPcmMmapControl.applPtr hnew).trans (congrArg SndPcmMmapControl.applPtr hctl)
      · rw [← Option.some.inj hs']
        exact congrArg SndPcmMmapControl.applPtr hnew.symm

/-! ## Invariants of a ring -/

theorem Pcm.Same.pcmMmapAvail {p q : Pcm} (h : p.Same q) (hwPtr applPtr : UInt64) :
    pcmMmapCaptureAvail q hwPtr applPtr = pcmMmapCaptureAvail p hwPtr applPtr ∧
      pcmMmapPlaybackAvail q hwPtr applPtr = pcmMmapPlaybackAvail p hwPtr applPtr ∧ q.isIn = p.isIn := by
  obtain ⟨s, e, rfl⟩ := h
  simp only [pcmMmapCaptureAvail, pcmMmapPlaybackAvail, Pcm.isIn, and_self]

/-- The library's copy of the status, if it has one, is the kernel's. -/
def StatusFresh (ops : PcmOps σ) (w : World σ) : Prop := ∀ s, w.pcm.syncPtr = some s → s.status = ops.status w.dev

/-- Properties of the world, one for each number of available frames, that reading and synchronising the
pointers keeps. The hardware may make more available meanwhile. -/
structure RingInvariant (ops : PcmOps σ) (p : Pcm) (pos : Nat) (I : Nat → World σ → Prop) : Prop where
  handle : ∀ a w, I a w → p.Same w.pcm
  positions : ∀ a w, I a w → Positions p (ops.status w.dev).hwPtr (applPtrOf ops w) pos a
  error : ∀ a w e, I a w → I a (w.setPcm { w.pcm with error := e })
  run : ∀ a w, I a w → ∃ b, a ≤ b ∧ I b (w.setDev (ops.run w.dev))
  hwsync : ∀ a w, I a w → ∃ b, a ≤ b ∧ I b (exec (ioctl ops .hwsync) w).2
  sync : ∀ a w s flags, w.pcm.syncPtr = some s → I a w → 0 ≤ (ops.syncPtr { s with flags } w.dev).1.ret ∧
    StatusFresh ops (exec (ioctlSyncPtr ops { s with flags }) w).2 ∧
    ∃ b, a ≤ b ∧ I b (exec (ioctlSyncPtr ops { s with flags }) w).2

namespace RingInvariant

variable {p : Pcm} {pos : Nat} {I : Nat → World σ → Prop} (h : RingInvariant ops p pos I)

include h

theorem pcmSyncPtr (flags : SyncFlags) (a : Nat) :
    Triple (I a) (pcmSyncPtr ops flags) fun _ w => ∃ b, a ≤ b ∧ I b w ∧ StatusFresh ops w := by
  intro w hw
  unfold Tinyalsa.pcmSyncPtr
  cases hs : w.pcm.syncPtr with
  | none =>
    have hfresh : ∀ w' : World σ, w'.pcm.syncPtr = w.pcm.syncPtr → StatusFresh ops w' := by
      intro w' hw' s hs'
      rw [hw', hs] at hs'
      cases hs'
    obtain ⟨b, hb, hI⟩ := h.hwsync a w hw
    simp only [exec_bind, exec_get, hs, exec_ite, exec_pure]
    split
    · split
      · exact ⟨b, hb, h.error b _ _ hI, hfresh _ rfl⟩
      · exact ⟨b, hb, hI, hfresh _ rfl⟩
    · exact ⟨a, le_rfl, hw, hfresh _ rfl⟩
  | some s =>
    obtain ⟨hret, hfresh, b, hb, hI⟩ := h.sync a w s flags hs hw
    simp only [exec_bind, exec_get, hs, exec_ite, exec_pure]
    rw [if_neg (by rw [exec_ioctlSyncPtr]; exact not_lt.2 hret)]
    exact ⟨b, hb, hI, hfresh⟩

/-- The hardware pointer read last is behind the hardware at most. -/
theorem mmapStatus (a : Nat) : Triple (fun w => ∃ b, a ≤ b ∧ I b w ∧ StatusFresh ops w) (mmapStatus ops)
    fun st w => ∃ b c, a ≤ b ∧ b ≤ c ∧ Positions p st.hwPtr (applPtrOf ops w) pos b ∧ I c w := by
  rintro w ⟨b, hb, hI, hfresh⟩
  unfold Tinyalsa.mmapStatus
  cases hs : w.pcm.syncPtr with
  | none =>
    obtain ⟨c, hc, hI'⟩ := h.run b w hI
    simp only [exec_bind, exec_get, hs, exec_modify, exec_pure]
    exact ⟨c, c, hb.trans hc, le_rfl, h.positions c _ hI', hI'⟩
  | some s =>
    simp only [exec_bind, exec_get, hs, exec_pure]
    refine ⟨b, b, hb, le_rfl, ?_, hI⟩
    rw [hfresh s hs]
    exact h.positions b w hI

theorem mmapControl (a : Nat) :
    Triple (I a) (mmapControl ops) fun c w => ∃ b, a ≤ b ∧ I b w ∧ c.applPtr.toNat = pos % p.boundary.toNat := by
  intro w hw
  obtain ⟨b, hb, hI⟩ : ∃ b, a ≤ b ∧ I b (exec (Tinyalsa.mmapControl ops) w).2 := by
    unfold Tinyalsa.mmapControl
    cases hs : w.pcm.syncPtr with
    | none =>
      simp only [exec_bind, exec_get, hs, exec_modify, exec_pure]
      exact h.run a w hw
    | some s =>
      simp only [exec_bind, exec_get, hs, exec_pure]
      exact ⟨a, le_rfl, hw⟩
  refine ⟨b, hb, hI, ?_⟩
  rw [mmapControl_applPtr]
  exact (h.positions b _ hI).appl

/-- `pcm_mmap_avail` answers what was available at some time during the call. -/
theorem pcmMmapAvail (hp : RingSized p) (a : Nat) : Triple (I a) (pcmMmapAvail ops)
    fun r w => ∃ b c, a ≤ b ∧ b ≤ c ∧ b ≤ p.bufferSize.toNat ∧ r = CInt.wrapInt b ∧ I c w := by
  refine Triple.bind (h.pcmSyncPtr _ a) fun _ => Triple.bind (h.mmapStatus a) fun st => ?_
  rintro w ⟨b, c, hab, hbc, hpos, hI⟩
  obtain ⟨d, hcd, hI', happl⟩ := h.mmapControl c w hI
  have hpos' : Positions p st.hwPtr (exec (Tinyalsa.mmapControl ops) w).1.applPtr pos b := ⟨happl, hpos.hw, hpos.le⟩
  have heq := hpos'.pcmMmapAvail_eq hp
  obtain ⟨hcapture, hplayback, hin⟩ := (h.handle d _ hI').pcmMmapAvail st.hwPtr
    (exec (Tinyalsa.mmapControl ops) w).1.applPtr
  refine ⟨b, d, hab, hbc.trans hcd, hpos.le, ?_, ?_⟩
  · simp only [exec_bind, exec_get, exec_ite, exec_pure, hin, hcapture, hplayback]
    by_cases hdir : p.isIn = true
    · rw [if_pos hdir] at heq ⊢
      simp only [heq]
    · rw [if_neg hdir] at heq ⊢
      simp only [heq]
  · simp only [exec_bind, exec_get, exec_ite, exec_pure]
    split
    · exact hI'
    · exact hI'

/-- `pcm_mmap_begin` grants a region at the application's slot, within what is available. -/
theorem pcmMmapBegin (hp : RingSized p) (a : Nat) (n : UInt32) : Triple (I a) (pcmMmapBegin ops n) fun r w =>
    ∃ b c, a ≤ b ∧ b ≤ c ∧ I c w ∧ r.1.toNat = pos % p.bufferSize.toNat ∧
      r.2.toNat = min (min n.toNat b) (p.bufferSize.toNat - pos % p.bufferSize.toNat) := by
  intro w hw
  obtain ⟨b, hab, hI, happl⟩ := h.mmapControl a w hw
  obtain ⟨c, d, hbc, hcd, hle, hret, hI'⟩ := h.pcmMmapAvail hp b _ hI
  have hsize : (exec (Tinyalsa.mmapControl ops) w).2.pcm.bufferSize = p.bufferSize := by
    obtain ⟨s, e, hpcm⟩ := h.handle b _ hI
    rw [hpcm]
  have hoff := toNat_ringOffset hp happl
  have hlt := Nat.mod_lt pos hp.nonempty
  have havail := CInt.toNat_toUInt_wrapInt (hle.trans_lt p.bufferSize.toNat_lt)
  simp only [Tinyalsa.pcmMmapBegin, exec_bind, exec_get, exec_pure, hsize, hret]
  refine ⟨c, d, hab.trans hbc, hcd, hI', hoff, ?_⟩
  rw [toNat_grantFrames (hoff.trans_lt hlt).le, hoff, havail, Nat.min_eq_left hle]

end RingInvariant

end

/-! ## On the kernel -/

/-- A mapped stereo stream over a ring of four frames, without control pages. -/
def quadRing : Pcm where
  fd := 3
  flags := pcmMmap
  bufferSize := 4
  boundary := 16
  config :=
    { channels := 2
      rate := 48000
      periodSize := 2
      periodCount := 2
      format := .s16Le
      startThreshold := 4
      stopThreshold := 4
      silenceThreshold := 0
      silenceSize := 0
      availMin := 2 }
  syncPtr := some {}

theorem quadRing_sized : RingSized quadRing where
  nonempty := by decide
  divides := by decide
  twice := by decide
  fits := by decide

/-- The stream prepared and empty, both pointers in the middle of the ring. The kernel answers the next
`SYNC_PTR`s as given. -/
def halfway (answers : List (Option Int)) : World Kernel where
  pcm := quadRing
  dev := { status := { state := .prepared, hwPtr := 2 }, control := ⟨2, 2⟩, answers }
  user := ⟨16, fun i => UInt8.ofNat i⟩

end Tinyalsa
