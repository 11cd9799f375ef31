/-
tinycap on a handle: `capture_sample` with the reads of the library under its loop. The rounds are those of
the plain loop, and what is written to the file is what the device gave.
-/
import Tinyalsa.Pcm.Delivery
import Tinyalsa.Utils.Tinycap

namespace Tinyalsa.Tinycap

open Hoare ByteMemory CInt

/-! ## The loop -/

/-- The variables of `capture_sample`. -/
structure Captured where
  totalFramesRead : UInt32 := 0
  file : ByteFile
  /-- The rounds of the loop, which the source does not keep. -/
  rounds : List Round := []

section

variable {σ : Type} (ops : PcmOps σ) (fuel : Nat)

/-- The loop of `capture_sample`: a round for each number of bytes there is room for in the file, up to the `SIGINT`.
`none` where a read has not ended. -/
def captureOn (rate captureTime bytesPerFrame : UInt32) : List Nat → Captured → PcmM σ (Option Captured)
  | [], st => return some st
  | room :: rooms, st => do
    match ← pcmReadi ops fuel (← get).pcm.bufferSize with
    | none => return none
    | some frames =>
      let buffer := (← get).user.byte
      let framesRead := toUInt frames
      let bytes := min room (bytesPerFrame.toNat * framesRead.toNat)
      let st := { totalFramesRead := st.totalFramesRead + framesRead
                  file := st.file.write buffer bytes
                  rounds := st.rounds ++ [⟨frames, buffer, room⟩] }
      if bytes / bytesPerFrame.toNat ≠ framesRead.toNat then return some st
      else if st.totalFramesRead / rate ≥ captureTime then return some st
      else captureOn rate captureTime bytesPerFrame rooms st

/-- `capture_sample` behind `pcm_open`, for a buffer that was allocated. -/
def captureSampleOn (o : Options) (rooms : List Nat) (file : ByteFile) : PcmM σ (Option Captured) := do
  let bytesPerFrame := pcmFramesToBytes (← get).pcm 1
  captureOn ops fuel o.rate o.captureTime bytesPerFrame rooms { file }

/-- The file of `main`, for a format that is supported. -/
def mainOn (o : Options) (format : PcmFormat) (rooms : List Nat) : PcmM σ (Option (Captured × ByteFile)) := do
  match ← captureSampleOn ops fuel o rooms (ByteFile.seek {} sizeofWavHeader) with
  | none => return none
  | some st =>
    return some (st, (st.file.seek 0).writeFields (finalHeader o format st.totalFramesRead).fields)

end

/-! ## What is in the file -/

/-- The bytes that the device gave in a round. -/
def Round.given (frameBytes : Nat) (r : Round) : List UInt8 := (List.range (r.frames.toNat * frameBytes)).map r.buffer

/-- The bytes between two positions of a file. -/
def span (file : ByteFile) (first last : Nat) : List UInt8 :=
  (List.range (last - first)).map fun i => file.bytes (first + i)

/-- What is written behind a span lengthens it. -/
theorem span_write {file : ByteFile} {first : Nat} (h : first ≤ file.pos) (src : Memory) (n : Nat) :
    span (file.write src n) first (file.write src n).pos = span file first file.pos ++ (List.range n).map src := by
  obtain ⟨k, hk⟩ := Nat.exists_eq_add_of_le h
  have hpos : (file.write src n).pos - first = k + n := by
    show file.pos + n - first = _
    omega
  have hlen : file.pos - first = k := by omega
  unfold span
  rw [hpos, hlen, List.range_add, List.map_append, List.map_map]
  congr 1
  · refine List.map_congr_left fun i hi => ?_
    have hlt := List.mem_range.1 hi
    show copy file.bytes file.pos src 0 n (first + i) = _
    unfold copy
    rw [if_neg (by omega)]
  · refine List.map_congr_left fun i hi => ?_
    have hcopy := @copy_of_mem file.bytes file.pos src 0 n i (List.mem_range.1 hi)
    rw [Nat.zero_add, hk, Nat.add_assoc] at hcopy
    rw [← hcopy]
    show copy file.bytes file.pos src 0 n (first + (k + i)) = _
    rw [hk]

section

variable {σ : Type} {ops : PcmOps σ} {w₀ w : World (Heard σ)} {rate captureTime : UInt32} {file : ByteFile}
  {st : Captured}

/-- The rounds of the handle make the plain loop what it is: `rest` is what it would go on with. -/
def Follows (rate captureTime bytesPerFrame : UInt32) (file : ByteFile) (st : Captured) : Prop :=
  ∀ rest, captureLoop rate captureTime bytesPerFrame (st.rounds ++ rest) 0 file =
    captureLoop rate captureTime bytesPerFrame rest st.totalFramesRead st.file

/-- Between the rounds: the device has given what the rounds have, and it is in the file where nothing was disturbed. -/
structure Gives (frameBytes : UInt32) (w₀ : World (Heard σ)) (file : ByteFile) (st : Captured) (w : World (Heard σ)) :
    Prop where
  heard : w.dev.bytes = w₀.dev.bytes ++ st.rounds.flatMap (Round.given frameBytes.toNat)
  flags : w.pcm.flags = w₀.pcm.flags
  config : w.pcm.config = w₀.pcm.config
  pos : file.pos ≤ st.file.pos
  written : Undisturbed frameBytes st.rounds →
    span st.file file.pos st.file.pos = st.rounds.flatMap (Round.given frameBytes.toNat)

/-- What the loop leaves. -/
structure CapturedFrom (rate captureTime frameBytes : UInt32) (w₀ : World (Heard σ)) (file : ByteFile) (st : Captured)
    (w : World (Heard σ)) : Prop where
  gives : Gives frameBytes w₀ file st w
  loop : captureLoop rate captureTime frameBytes st.rounds 0 file = (st.totalFramesRead, st.file)

/-- Before the first round. -/
theorem Gives.start (frameBytes : UInt32) (w : World (Heard σ)) (file : ByteFile) :
    Gives frameBytes w file { file } w := by
  refine ⟨(List.append_nil _).symm, rfl, rfl, le_rfl, fun _ => ?_⟩
  show span file file.pos file.pos = []
  unfold span
  rw [Nat.sub_self]
  rfl

theorem Follows.ends {bytesPerFrame : UInt32} (h : Follows rate captureTime bytesPerFrame file st) :
    captureLoop rate captureTime bytesPerFrame st.rounds 0 file = (st.totalFramesRead, st.file) := by
  have hnil := h []
  rwa [List.append_nil] at hnil

/-- A read that reports its frames has filled the buffer with them. -/
theorem Gives.round {frameBytes : UInt32} {frames : UInt32} {n : Int} {w' : World (Heard σ)} (room : Nat)
    (h : Gives frameBytes w₀ file st w) (hread : Reported ops frameBytes.toNat w frames (some n) w') :
    Gives frameBytes w₀ file
      { totalFramesRead := st.totalFramesRead + toUInt n
        file := st.file.write w'.user.byte (min room (frameBytes.toNat * (toUInt n).toNat))
        rounds := st.rounds ++ [⟨n, w'.user.byte, room⟩] } w' := by
  have hmoves := hread.moves
  have hgiven : Round.given frameBytes.toNat ⟨n, w'.user.byte, room⟩ = w'.user.bytes (n.toNat * frameBytes.toNat) := rfl
  refine ⟨?_, hmoves.flags.trans h.flags, hmoves.config.trans h.config, h.pos.trans (Nat.le_add_right ..),
    fun hund => ?_⟩
  · rw [hmoves.bytes, h.heard, List.flatMap_append, List.flatMap_singleton, hgiven, List.append_assoc]
    rfl
  · have hbefore := h.written fun r hr => hund r (List.mem_append_left _ hr)
    obtain ⟨hpos, hint, hroom⟩ := hund _ (List.mem_append_right _ (List.mem_singleton_self _))
    change 0 ≤ n at hpos
    change n < 2 ^ 31 at hint
    have hframes : (toUInt n).toNat = n.toNat := by
      rw [toNat_toUInt, Int.emod_eq_of_lt hpos (by omega)]
    have hbytes : min room (frameBytes.toNat * (toUInt n).toNat) = n.toNat * frameBytes.toNat := by
      rw [hframes, min_eq_right hroom, Nat.mul_comm]
    dsimp only
    rw [hbytes, span_write h.pos, hbefore, List.flatMap_append, List.flatMap_singleton]
    rfl

/-- The loop makes the rounds of the plain loop out of what the reads return. -/
theorem captureOn_captured (hops : Transfers ops) (hrw : w₀.pcm.isMmap = false) (fuel : Nat) {frameBytes : UInt32} :
    ∀ (rooms : List Nat) (st : Captured), Follows rate captureTime frameBytes file st →
      Triple (Gives frameBytes w₀ file st)
        (captureOn (hearing frameBytes.toNat ops) fuel rate captureTime frameBytes rooms st)
        fun res w => ∀ st', res = some st' → CapturedFrom rate captureTime frameBytes w₀ file st' w
  | [], st, hfollows => Triple.pure _ fun w hw _ h => by
    cases h
    exact ⟨hw, hfollows.ends⟩
  | room :: rooms, st, hfollows => by
    intro w hw
    have hisMmap : w.pcm.isMmap = false := by unfold Pcm.isMmap at hrw ⊢; rw [hw.flags]; exact hrw
    have hread := pcmReadi_moves hops hisMmap fuel w.pcm.bufferSize w (.refl frameBytes.toNat w)
    unfold captureOn
    simp only [exec_bind, exec_get]
    revert hread
    generalize exec (pcmReadi _ _ _) _ = run
    obtain ⟨res, w'⟩ := run
    intro hread
    cases res with
    | none => rintro _ ⟨⟩
    | some n =>
      have hgives := hw.round room hread
      have hstep : ∀ rest,
          captureLoop rate captureTime frameBytes ((st.rounds ++ [⟨n, w'.user.byte, room⟩]) ++ rest) 0 file =
            captureLoop rate captureTime frameBytes (⟨n, w'.user.byte, room⟩ :: rest) st.totalFramesRead st.file := by
        intro rest
        rw [List.append_assoc]
        exact hfollows _
      simp only [exec_bind, exec_get]
      by_cases hshort : min room (frameBytes.toNat * (toUInt n).toNat) / frameBytes.toNat ≠ (toUInt n).toNat
      · rw [if_pos hshort]
        rintro _ ⟨⟩
        refine ⟨hgives, ?_⟩
        have hend := hstep []
        rw [List.append_nil] at hend
        rw [hend]
        exact if_pos hshort
      rw [if_neg hshort]
      by_cases htime : (st.totalFramesRead + toUInt n) / rate ≥ captureTime
      · rw [if_pos htime]
        rintro _ ⟨⟩
        refine ⟨hgives, ?_⟩
        have hend := hstep []
        rw [List.append_nil] at hend
        rw [hend]
        exact (if_neg hshort).trans (if_pos htime)
      · rw [if_neg htime]
        refine captureOn_captured hops hrw fuel rooms _ (fun rest => ?_) w' hgives
        rw [hstep]
        exact (if_neg hshort).trans (if_neg htime)

/-- Whatever the device gives: the loop on a handle is the plain loop over what the reads return, the device has given
what the rounds have, and where no read fails and the file has room the file has all of it and nothing else. -/
theorem captureSampleOn_captured (hops : Transfers ops) (hrw : w.pcm.isMmap = false) (fuel : Nat) {o : Options}
    {rooms : List Nat}
    (hrun : (exec (captureSampleOn (hearing (pcmFramesToBytes w.pcm 1).toNat ops) fuel o rooms file) w).1 = some st) :
    CapturedFrom o.rate o.captureTime (pcmFramesToBytes w.pcm 1) w file st
      (exec (captureSampleOn (hearing (pcmFramesToBytes w.pcm 1).toNat ops) fuel o rooms file) w).2 := by
  exact captureOn_captured hops hrw fuel rooms { file } (fun _ => rfl) w (.start ..) st hrun

end

/-- A device that gives all frames it is asked for. -/
def givingOps : PcmOps Unit :=
  { refiningOps id with
    xfer := fun write n user d => (⟨0, none⟩, n.toNat, if write then user else { user with byte := Nat.toUInt8 }, d) }

theorem givingOps_transfers : Transfers givingOps where
  moved _ n _ _ _ := ⟨Int.natCast_nonneg n.toNat, le_rfl⟩
  kept _ _ _ := rfl

/-- 16-bit stereo captured into a buffer of four frames. -/
def stereoCapture : World (Heard Unit) :=
  { pcm := { openedPcm (captureConfig {} 2 .s16Le) with flags := pcmIn, bufferSize := 4 }
    dev := ⟨(), []⟩
    user := ⟨16, fun _ => 0⟩ }

/-- Two buffers are captured. -/
theorem captureSampleOn_captured_two :
    ∃ st, (exec (captureSampleOn (hearing (pcmFramesToBytes stereoCapture.pcm 1).toNat givingOps) 2 {} [16, 16] {})
        stereoCapture).1 = some st ∧
      CapturedFrom 48000 0xFFFFFFFF (pcmFramesToBytes stereoCapture.pcm 1) stereoCapture {} st
        (exec (captureSampleOn (hearing (pcmFramesToBytes stereoCapture.pcm 1).toNat givingOps) 2 {} [16, 16] {})
          stereoCapture).2 := by
  have hsome : (exec (captureSampleOn (hearing (pcmFramesToBytes stereoCapture.pcm 1).toNat givingOps) 2 {} [16, 16] {})
      stereoCapture).1.isSome := by decide +kernel
  obtain ⟨st, hrun⟩ := Option.isSome_iff_exists.1 hsome
  exact ⟨st, hrun, captureSampleOn_captured givingOps_transfers rfl 2 hrun⟩

end Tinyalsa.Tinycap
