/-
Does the header of a capture tell what is in the file: the requests to `fwrite`, the frames that
`capture_sample` returns and the sizes that `main` makes of them, whatever the reads and writes come to.
-/
import Tinyalsa.Utils.Tinycap

namespace Tinyalsa.Tinycap

open CInt

/-! ## The rounds of the loop -/

/-- The frames `fwrite` is asked for. -/
def Round.asked (r : Round) : UInt32 := toUInt r.frames

/-- The bytes that get into the file. -/
def Round.written (bytesPerFrame : UInt32) (r : Round) : Nat := min r.room (bytesPerFrame.toNat * r.asked.toNat)

/-- What `fwrite` returns: the frames that were written whole. -/
def Round.whole (bytesPerFrame : UInt32) (r : Round) : Nat := r.written bytesPerFrame / bytesPerFrame.toNat

/-- The rounds the loop gets to see. -/
def seen (rate captureTime bytesPerFrame : UInt32) : List Round → UInt32 → List Round
  | [], _ => []
  | r :: rounds, total =>
    if r.whole bytesPerFrame ≠ r.asked.toNat then [r]
    else if (total + r.asked) / rate ≥ captureTime then [r]
    else r :: seen rate captureTime bytesPerFrame rounds (total + r.asked)

section

variable {rate captureTime bytesPerFrame : UInt32}

/-- A round of the loop. -/
theorem captureLoop_cons (r : Round) (rounds : List Round) (total : UInt32) (file : ByteFile) :
    captureLoop rate captureTime bytesPerFrame (r :: rounds) total file =
      if r.whole bytesPerFrame ≠ r.asked.toNat then (total + r.asked, file.write r.buffer (r.written bytesPerFrame))
      else if (total + r.asked) / rate ≥ captureTime then
        (total + r.asked, file.write r.buffer (r.written bytesPerFrame))
      else captureLoop rate captureTime bytesPerFrame rounds (total + r.asked)
        (file.write r.buffer (r.written bytesPerFrame)) := rfl

/-- The loop counts what it asks for, and writes what there is room for. -/
theorem captureLoop_seen : ∀ (rounds : List Round) (total : UInt32) (file : ByteFile),
    let r := captureLoop rate captureTime bytesPerFrame rounds total file
    let s := seen rate captureTime bytesPerFrame rounds total
    r.1.toNat = (total.toNat + (s.map (·.asked.toNat)).sum) % 2 ^ 32 ∧
      r.2.pos = file.pos + (s.map (Round.written bytesPerFrame)).sum
  | [], total, file => ⟨(Nat.mod_eq_of_lt total.toNat_lt).symm, rfl⟩
  | r :: rounds, total, file => by
    have htotal : (total + r.asked).toNat = (total.toNat + r.asked.toNat) % 2 ^ 32 := UInt32.toNat_add ..
    have hlast : (total + r.asked).toNat = (total.toNat + ([r].map (·.asked.toNat)).sum) % 2 ^ 32 := htotal
    obtain ⟨hcount, hpos⟩ := captureLoop_seen rounds (total + r.asked)
      (file.write r.buffer (r.written bytesPerFrame))
    rw [captureLoop_cons]
    unfold seen
    dsimp only
    split
    · exact ⟨hlast, rfl⟩
    split
    · exact ⟨hlast, rfl⟩
    · constructor
      · rw [hcount, htotal, Nat.mod_add_mod, List.map_cons, List.sum_cons, Nat.add_assoc]
      · rw [hpos, List.map_cons, List.sum_cons, ← Nat.add_assoc]
        rfl

theorem Round.whole_le (bytesPerFrame : UInt32) (r : Round) : r.whole bytesPerFrame ≤ r.asked.toNat := by
  rcases Nat.eq_zero_or_pos bytesPerFrame.toNat with hz | hpos
  · rw [whole, hz, Nat.div_zero]
    exact Nat.zero_le _
  · refine (Nat.div_le_div_right (min_le_right ..)).trans ?_
    rw [Nat.mul_div_cancel_left _ hpos]

/-- Behind a round that was written whole there are as many frames more. -/
theorem Round.written_add_div {r : Round} (h : r.whole bytesPerFrame = r.asked.toNat) (n : Nat) :
    (r.written bytesPerFrame + n) / bytesPerFrame.toNat = r.asked.toNat + n / bytesPerFrame.toNat := by
  rcases Nat.eq_zero_or_pos bytesPerFrame.toNat with hz | hpos
  · rw [← h, whole, hz, Nat.div_zero, Nat.div_zero, Nat.div_zero]
  · have hle : r.written bytesPerFrame ≤ bytesPerFrame.toNat * r.asked.toNat := min_le_right ..
    have hge : bytesPerFrame.toNat * r.asked.toNat ≤ r.written bytesPerFrame := by
      rw [← h]
      exact Nat.mul_div_le ..
    rw [le_antisymm hle hge, Nat.mul_add_div hpos]

/-- All rounds but the last are written whole: of what is asked for no more than a round is missing. -/
theorem seen_missing : ∀ (rounds : List Round) (total : UInt32),
    let s := seen rate captureTime bytesPerFrame rounds total
    ∃ missing < 2 ^ 32, (s.map (·.asked.toNat)).sum =
        (s.map (Round.written bytesPerFrame)).sum / bytesPerFrame.toNat + missing ∧
      (missing = 0 ↔ ∀ r ∈ s, r.whole bytesPerFrame = r.asked.toNat)
  | [], _ => ⟨0, by decide, (Nat.zero_div _).symm, iff_of_true rfl fun _ hr => absurd hr List.not_mem_nil⟩
  | r :: rounds, total => by
    have hone : ∃ missing < 2 ^ 32, ([r].map (·.asked.toNat)).sum =
        ([r].map (Round.written bytesPerFrame)).sum / bytesPerFrame.toNat + missing ∧
        (missing = 0 ↔ ∀ r' ∈ [r], r'.whole bytesPerFrame = r'.asked.toNat) := by
      have hle := r.whole_le bytesPerFrame
      have hlt := r.asked.toNat_lt
      refine ⟨r.asked.toNat - r.whole bytesPerFrame, by omega, ?_, ?_⟩
      · exact (Nat.add_sub_cancel' hle).symm
      · rw [List.forall_mem_singleton]
        omega
    unfold seen
    split
    · exact hone
    split
    · exact hone
    · rename_i hwhole _
      rw [not_not] at hwhole
      obtain ⟨missing, hlt, hsum, hiff⟩ := seen_missing rounds (total + r.asked)
      refine ⟨missing, hlt, ?_, ?_⟩
      · rw [List.map_cons, List.sum_cons, List.map_cons, List.sum_cons, Round.written_add_div hwhole, hsum,
          Nat.add_assoc]
      · rw [List.forall_mem_cons, and_iff_right hwhole]
        exact hiff

end

/-! ## Devices -/

/-- A device that is ready: its buffer, and the rounds it gives. A read asks for no more frames than an `int` holds. -/
structure Device (config : PcmConfig) where
  bufferSize : UInt32
  rounds : List Round
  bufferSize_lt : bufferSize.toNat < 2 ^ 31
  bytes_lt : bufferSize.toNat * (bytesPerFrame config).toNat < 2 ^ 32
  frames : ∀ r ∈ rounds, -2 ^ 31 ≤ r.frames ∧ r.frames ≤ bufferSize.toNat

/-- `size`, the bytes of the buffer: `pcm_frames_to_bytes(pcm, pcm_get_buffer_size(pcm))`. -/
def Device.size {config : PcmConfig} (d : Device config) : UInt32 :=
  d.bufferSize * config.channels * (pcmFormatToBits config.format >>> 3)

theorem Device.toNat_size {config : PcmConfig} (d : Device config) :
    d.size.toNat = d.bufferSize.toNat * (bytesPerFrame config).toNat := by
  have hsize : d.size = d.bufferSize * bytesPerFrame config := by
    unfold size bytesPerFrame
    rw [UInt32.one_mul, UInt32.mul_assoc]
  rw [hsize, UInt32.toNat_mul, Nat.mod_eq_of_lt d.bytes_lt]

/-- A read that fails asks for more than there is in the buffer, and no other does. -/
theorem Device.asked_le_iff {config : PcmConfig} {d : Device config} {r : Round} (hr : r ∈ d.rounds) :
    r.asked.toNat ≤ d.bufferSize.toNat ↔ 0 ≤ r.frames := by
  obtain ⟨hlow, hhigh⟩ := d.frames r hr
  have hlt := d.bufferSize_lt
  have hasked : r.asked.toNat = (r.frames % 2 ^ 32).toNat := toNat_toUInt _
  omega

/-- The devices that can be opened. -/
abbrev Devices := UInt32 → UInt32 → UInt32 → (config : PcmConfig) → Option (Device config)

def Devices.openDevice (devices : Devices) : OpenDevice := fun card device flags config =>
  (devices card device flags config).map Device.rounds

/-! ## The capture of main -/

section

variable (devices : Devices) (o : Options) (format : PcmFormat)

/-- The configuration `main` captures with. -/
def mainConfig : PcmConfig := captureConfig o (header o format).numChannels.toUInt32 format

/-- The device `main` captures from. -/
def mainDevice : Option (Device (mainConfig o format)) :=
  devices o.card o.device (if o.useMmap then pcmIn ||| pcmMmap else pcmIn) (mainConfig o format)

/-- The rounds of the capture. -/
def mainSeen : List Round :=
  match mainDevice devices o format with
  | none => []
  | some d => seen o.rate o.captureTime (bytesPerFrame (mainConfig o format)) d.rounds 0

/-- The whole frames behind the header of the file. -/
def wholeFrames : Nat :=
  ((capture devices.openDevice o format).2.pos - sizeofWavHeader) / (bytesPerFrame (mainConfig o format)).toNat

/-- `fwrite` is never asked for more frames, or bytes, than the buffer has. -/
def RequestsFit : Prop := ∀ d, mainDevice devices o format = some d → ∀ r ∈ mainSeen devices o format,
  r.asked.toNat ≤ d.bufferSize.toNat ∧ r.asked.toNat * (bytesPerFrame (mainConfig o format)).toNat ≤ d.size.toNat

/-- The number of frames and the sizes that follow from it fit in 32 bits. -/
structure SizesFit : Prop where
  frames : wholeFrames devices o format < 2 ^ 32
  sizes : wholeFrames devices o format * (header o format).blockAlign.toNat + 36 < 2 ^ 32

/-- The capture returns the frames that are in the file, and the header has their sizes. -/
structure Tells : Prop where
  frames : (capture devices.openDevice o format).1.toNat = wholeFrames devices o format
  dataSz : (finalHeader o format (capture devices.openDevice o format).1).dataSz.toNat =
    wholeFrames devices o format * (header o format).blockAlign.toNat
  riffSz : (finalHeader o format (capture devices.openDevice o format).1).riffSz.toNat =
    (finalHeader o format (capture devices.openDevice o format).1).dataSz.toNat + 36

end

section

variable {devices : Devices} {o : Options} {format : PcmFormat}

theorem mem_rounds_of_mem_seen {rate captureTime bytesPerFrame : UInt32} {r : Round} : ∀ {rounds : List Round}
    {total : UInt32}, r ∈ seen rate captureTime bytesPerFrame rounds total → r ∈ rounds
  | r' :: rounds, total, hr => by
    have hhead : r ∈ [r'] → r ∈ r' :: rounds := fun h => List.mem_singleton.1 h ▸ List.mem_cons_self
    unfold seen at hr
    split at hr
    · exact hhead hr
    split at hr
    · exact hhead hr
    · rcases List.mem_cons.1 hr with rfl | hr
      · exact List.mem_cons_self
      · exact List.mem_cons_of_mem _ (mem_rounds_of_mem_seen hr)

/-- The requests fit the buffer as long as no read fails. -/
theorem requestsFit_iff : RequestsFit devices o format ↔ ∀ r ∈ mainSeen devices o format, 0 ≤ r.frames := by
  unfold RequestsFit mainSeen
  cases hdev : mainDevice devices o format with
  | none => exact iff_of_true (fun d hd => by cases hd) fun r hr => absurd hr List.not_mem_nil
  | some d =>
    have hasked : ∀ r ∈ seen o.rate o.captureTime (bytesPerFrame (mainConfig o format)) d.rounds 0,
        (r.asked.toNat ≤ d.bufferSize.toNat ↔ 0 ≤ r.frames) :=
      fun r hr => Device.asked_le_iff (mem_rounds_of_mem_seen hr)
    constructor
    · intro h r hr
      exact (hasked r hr).1 (h d rfl r hr).1
    · rintro h _ ⟨⟩ r hr
      have hle := (hasked r hr).2 (h r hr)
      exact ⟨hle, d.toNat_size ▸ Nat.mul_le_mul_right _ hle⟩

/-- The capture counts what it asks for, and the file has what was written. -/
theorem capture_seen (devices : Devices) (o : Options) (format : PcmFormat) :
    let r := capture devices.openDevice o format
    r.1.toNat = ((mainSeen devices o format).map (·.asked.toNat)).sum % 2 ^ 32 ∧
      r.2.pos = sizeofWavHeader +
        ((mainSeen devices o format).map (Round.written (bytesPerFrame (mainConfig o format)))).sum := by
  have hcap : capture devices.openDevice o format = match mainDevice devices o format with
      | none => (0, ByteFile.seek {} sizeofWavHeader)
      | some d => captureLoop o.rate o.captureTime (bytesPerFrame (mainConfig o format)) d.rounds 0
        (ByteFile.seek {} sizeofWavHeader) := by
    unfold capture captureSample Devices.openDevice mainDevice mainConfig
    dsimp only
    cases devices _ _ _ _ <;> rfl
  unfold mainSeen
  rw [hcap]
  cases mainDevice devices o format with
  | none => exact ⟨rfl, rfl⟩
  | some d =>
    obtain ⟨hcount, hpos⟩ := @captureLoop_seen o.rate o.captureTime (bytesPerFrame (mainConfig o format)) d.rounds 0
      (ByteFile.seek {} sizeofWavHeader)
    rw [UInt32.toNat_zero, Nat.zero_add] at hcount
    exact ⟨hcount, hpos⟩

/-- Of the frames that are counted those are missing in the file that a last, short write left out. -/
theorem mainSeen_missing (devices : Devices) (o : Options) (format : PcmFormat) :
    ∃ missing < 2 ^ 32, (capture devices.openDevice o format).1.toNat =
        (wholeFrames devices o format + missing) % 2 ^ 32 ∧
      (missing = 0 ↔ ∀ r ∈ mainSeen devices o format,
        r.whole (bytesPerFrame (mainConfig o format)) = r.asked.toNat) := by
  obtain ⟨hcount, hpos⟩ := capture_seen devices o format
  have hmissing : ∃ missing < 2 ^ 32, ((mainSeen devices o format).map (·.asked.toNat)).sum =
      ((mainSeen devices o format).map (Round.written (bytesPerFrame (mainConfig o format)))).sum /
        (bytesPerFrame (mainConfig o format)).toNat + missing ∧
      (missing = 0 ↔ ∀ r ∈ mainSeen devices o format,
        r.whole (bytesPerFrame (mainConfig o format)) = r.asked.toNat) := by
    unfold mainSeen
    cases mainDevice devices o format with
    | none => exact @seen_missing 0 0 _ [] 0
    | some d => exact seen_missing d.rounds 0
  obtain ⟨missing, hlt, hsum, hiff⟩ := hmissing
  refine ⟨missing, hlt, ?_, hiff⟩
  rw [hcount, hsum, wholeFrames, hpos, Nat.add_sub_cancel_left]

theorem riffSz_finalHeader (o : Options) (format : PcmFormat) (frames : UInt32) :
    (finalHeader o format frames).riffSz = (finalHeader o format frames).dataSz + 36 := by
  show (finalHeader o format frames).dataSz + sizeofWavHeader.toUInt32 - 8 = _
  rw [show sizeofWavHeader.toUInt32 = 36 + 8 from rfl, ← UInt32.add_assoc, UInt32.add_sub_cancel]

/-- The header tells what is in the file as long as no write is short. -/
theorem tells_iff (hfit : SizesFit devices o format) :
    Tells devices o format ↔
      ∀ r ∈ mainSeen devices o format, r.whole (bytesPerFrame (mainConfig o format)) = r.asked.toNat := by
  obtain ⟨hframes, hsizes⟩ := hfit
  obtain ⟨missing, hlt, hcount, hiff⟩ := mainSeen_missing devices o format
  rw [← hiff]
  constructor
  · intro h
    have := h.frames
    omega
  · rintro rfl
    have hequal : (capture devices.openDevice o format).1.toNat = wholeFrames devices o format := by
      rw [hcount, Nat.add_zero, Nat.mod_eq_of_lt hframes]
    have hdata : (finalHeader o format (capture devices.openDevice o format).1).dataSz.toNat =
        wholeFrames devices o format * (header o format).blockAlign.toNat := by
      show ((capture devices.openDevice o format).1 * (header o format).blockAlign.toUInt32).toNat = _
      rw [UInt32.toNat_mul, hequal, UInt16.toNat_toUInt32, Nat.mod_eq_of_lt (Nat.lt_of_add_right_lt hsizes)]
    refine ⟨hequal, hdata, ?_⟩
    rw [riffSz_finalHeader, UInt32.toNat_add, hdata]
    exact Nat.mod_eq_of_lt hsizes

end

/-! ## What the header tells -/

/-- A device with a buffer of four frames of four bytes, and one round. -/
def fourFrames (frames : Int) (room : Nat) (h : -2 ^ 31 ≤ frames ∧ frames ≤ 4) : Devices :=
  fun _ _ _ config => if hconfig : bytesPerFrame config = 4 then
    some {
      bufferSize := 4
      rounds := [{ frames, buffer := fun _ => 0, room }]
      bufferSize_lt := by decide
      bytes_lt := by rw [hconfig]; decide
      frames := by
        rintro r hr
        obtain rfl := List.mem_singleton.1 hr
        exact h }
  else none

end Tinyalsa.Tinycap
