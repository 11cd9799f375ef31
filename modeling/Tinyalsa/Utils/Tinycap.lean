/-
tinycap: the capture loop, and the header it writes in front of the samples when their number is known.
-/
import Tinyalsa.Lib.ByteFile
import Tinyalsa.Lib.CInt
import Tinyalsa.Pcm.Handle

namespace Tinyalsa.Tinycap

open ByteMemory CInt

/-! ## The header -/

def idRiff : UInt32 := 0x46464952
def idWave : UInt32 := 0x45564157
def idFmt : UInt32 := 0x20746d66
def idData : UInt32 := 0x61746164
def formatPcm : UInt16 := 1

/-- `struct wav_header`. -/
structure WavHeader where
  riffId : UInt32 := idRiff
  riffSz : UInt32 := 0
  riffFmt : UInt32 := idWave
  fmtId : UInt32 := idFmt
  fmtSz : UInt32 := 16
  audioFormat : UInt16 := formatPcm
  numChannels : UInt16
  sampleRate : UInt32
  byteRate : UInt32
  blockAlign : UInt16
  bitsPerSample : UInt16
  dataId : UInt32 := idData
  dataSz : UInt32 := 0

/-- `sizeof(struct wav_header)`. -/
def sizeofWavHeader : Nat := 44

/-- The bytes of a header: the widths of its fields and their values. There is no padding. -/
def WavHeader.fields (h : WavHeader) : List (Nat × Nat) :=
  [(4, h.riffId.toNat), (4, h.riffSz.toNat), (4, h.riffFmt.toNat), (4, h.fmtId.toNat), (4, h.fmtSz.toNat),
    (2, h.audioFormat.toNat), (2, h.numChannels.toNat), (4, h.sampleRate.toNat), (4, h.byteRate.toNat),
    (2, h.blockAlign.toNat), (2, h.bitsPerSample.toNat), (4, h.dataId.toNat), (4, h.dataSz.toNat)]

theorem fieldsSize_header (h : WavHeader) : fieldsSize h.fields = sizeofWavHeader := rfl

/-! ## Capturing -/

/-- A round of the capture loop: what `pcm_readi` returns and leaves in the buffer, and the bytes there is
room for in the file. -/
structure Round where
  frames : Int
  buffer : Memory
  room : Nat

/-- The options of tinycap. -/
structure Options where
  card : UInt32 := 0
  device : UInt32 := 0
  channels : UInt32 := 2
  rate : UInt32 := 48000
  bits : UInt32 := 16
  periodSize : UInt32 := 1024
  periodCount : UInt32 := 4
  captureTime : UInt32 := 0xFFFFFFFF
  useMmap : Bool := false

/-- `pcm_open(card, device, flags, config)`: the rounds a device that is ready gives, up to the `SIGINT`. -/
abbrev OpenDevice := UInt32 → UInt32 → UInt32 → PcmConfig → Option (List Round)

/-- The loop of `capture_sample`; without rounds, `capturing` was reset by the signal. -/
def captureLoop (rate captureTime bytesPerFrame : UInt32) : List Round → UInt32 → ByteFile → UInt32 × ByteFile
  | [], total, file => (total, file)
  | r :: rounds, total, file =>
    let framesRead := toUInt r.frames
    let total := total + framesRead
    let bytes := min r.room (bytesPerFrame.toNat * framesRead.toNat)
    let file := file.write r.buffer bytes
    -- `fwrite` returns the frames that were written whole
    if bytes / bytesPerFrame.toNat ≠ framesRead.toNat then (total, file)
    else if total / rate ≥ captureTime then (total, file)
    else captureLoop rate captureTime bytesPerFrame rounds total file

/-- The configuration a capture asks for. -/
def captureConfig (o : Options) (channels : UInt32) (format : PcmFormat) : PcmConfig where
  channels
  rate := o.rate
  periodSize := o.periodSize
  periodCount := o.periodCount
  format
  startThreshold := 0
  stopThreshold := 0
  silenceThreshold := 0
  silenceSize := 0
  availMin := 0

/-- `pcm_frames_to_bytes(pcm, 1)`. -/
def bytesPerFrame (config : PcmConfig) : UInt32 :=
  (1 : UInt32) * config.channels * (pcmFormatToBits config.format >>> 3)

/-- `capture_sample`: the frames it returns, and the file behind it. -/
def captureSample (openDevice : OpenDevice) (o : Options) (file : ByteFile) (channels : UInt32) (format : PcmFormat) :
    UInt32 × ByteFile :=
  let config := captureConfig o channels format
  let flags := if o.useMmap then pcmIn ||| pcmMmap else pcmIn
  match openDevice o.card o.device flags config with
  | none => (0, file)
  | some rounds => captureLoop o.rate o.captureTime (bytesPerFrame config) rounds 0 file

/-! ## main -/

/-- The format for a number of bits, if it is supported. -/
def bitsToFormat (bits : UInt32) : Option PcmFormat :=
  if bits = 32 then some .s32Le
  else if bits = 24 then some .s24Le
  else if bits = 16 then some .s16Le
  else none

/-- The header as it is set up before capturing. -/
def header (o : Options) (format : PcmFormat) : WavHeader :=
  let bitsPerSample := (pcmFormatToBits format).toUInt16
  { numChannels := o.channels.toUInt16
    sampleRate := o.rate
    bitsPerSample
    byteRate := (bitsPerSample / 8).toUInt32 * o.channels * o.rate
    blockAlign := (o.channels * (bitsPerSample / 8).toUInt32).toUInt16 }

/-- The header with its sizes. -/
def finalHeader (o : Options) (format : PcmFormat) (frames : UInt32) : WavHeader :=
  let h := header o format
  let dataSz := frames * h.blockAlign.toUInt32
  { h with dataSz, riffSz := dataSz + sizeofWavHeader.toUInt32 - 8 }

/-- The capture of `main` into a new file, behind the room for the header: the frames, and the file. -/
def capture (openDevice : OpenDevice) (o : Options) (format : PcmFormat) : UInt32 × ByteFile :=
  captureSample openDevice o (ByteFile.seek {} sizeofWavHeader) (header o format).numChannels.toUInt32 format

/-- The file of `main`, if the number of bits is supported. -/
def main (openDevice : OpenDevice) (o : Options) : Option ByteFile := do
  let format ← bitsToFormat o.bits
  let (frames, file) := capture openDevice o format
  return (file.seek 0).writeFields (finalHeader o format frames).fields

/-! ## What is captured -/

/-- No read of the device fails, and all it reads fits in the file. -/
def Undisturbed (bytesPerFrame : UInt32) (rounds : List Round) : Prop :=
  ∀ r ∈ rounds, 0 ≤ r.frames ∧ r.frames < 2 ^ 31 ∧ bytesPerFrame.toNat * r.frames.toNat ≤ r.room

/-- The loop counts the frames it writes, modulo `2 ^ 32`. -/
theorem captureLoop_spec {rate captureTime bytesPerFrame : UInt32} {start : Nat} : ∀ {rounds : List Round}
    (total : UInt32) {file : ByteFile}, Undisturbed bytesPerFrame rounds → file.pos ≤ max file.size start →
    let r := captureLoop rate captureTime bytesPerFrame rounds total file
    ∃ n, r.1.toNat = (total.toNat + n) % 2 ^ 32 ∧ r.2.pos = file.pos + bytesPerFrame.toNat * n ∧
      r.2.pos ≤ max r.2.size start
  | [], total, file, _, hin => ⟨0, (Nat.mod_eq_of_lt total.toNat_lt).symm, rfl, hin⟩
  | r :: rounds, total, file, h, hin => by
    obtain ⟨hpos, hint, hroom⟩ := h r List.mem_cons_self
    have hread : (toUInt r.frames).toNat = r.frames.toNat := by
      rw [toNat_toUInt, Int.emod_eq_of_lt hpos (by omega)]
    have hbytes : min r.room (bytesPerFrame.toNat * (toUInt r.frames).toNat) =
        bytesPerFrame.toNat * r.frames.toNat := by
      rw [hread, min_eq_right hroom]
    have htotal : (total + toUInt r.frames).toNat = (total.toNat + r.frames.toNat) % 2 ^ 32 := by
      rw [UInt32.toNat_add, hread]
    unfold captureLoop
    dsimp only
    rw [hbytes]
    generalize hfile : file.write r.buffer (bytesPerFrame.toNat * r.frames.toNat) = file'
    have hpos' : file'.pos = file.pos + bytesPerFrame.toNat * r.frames.toNat := by
      rw [← hfile]
      rfl
    have hin' : file'.pos ≤ max file'.size start := by
      rw [← hfile]
      exact ByteFile.write_within _ hin
    split
    · exact ⟨_, htotal, hpos', hin'⟩
    split
    · exact ⟨_, htotal, hpos', hin'⟩
    obtain ⟨n, hn, hend, hle⟩ := captureLoop_spec (total + toUInt r.frames)
      (fun r' hr' => h r' (List.mem_cons_of_mem _ hr')) hin'
    refine ⟨r.frames.toNat + n, ?_, ?_, hle⟩
    · rw [hn, htotal, Nat.mod_add_mod, Nat.add_assoc]
    · rw [hend, hpos', Nat.mul_add, Nat.add_assoc]

/-- The bytes of a frame of what `main` captures. -/
def frameBytes (o : Options) (format : PcmFormat) : Nat := (captureConfig o o.channels format).frameBytes

/-- What `main` captures, whatever device it opens, is not disturbed. -/
def CapturesWhole (openDevice : OpenDevice) : Prop :=
  ∀ card device flags config rounds, openDevice card device flags config = some rounds →
    Undisturbed (bytesPerFrame config) rounds

section

variable {openDevice : OpenDevice} {o : Options} {format : PcmFormat}

theorem toNat_sampleBytes (hf : bitsToFormat o.bits = some format) :
    (pcmFormatToBits format >>> 3).toNat = (pcmFormatToBits format).toNat / 8 ∧
      ((pcmFormatToBits format).toUInt16 / 8).toUInt32 = pcmFormatToBits format >>> 3 ∧
      (pcmFormatToBits format).toNat / 8 ≤ 4 := by
  unfold bitsToFormat at hf
  split at hf
  · obtain rfl := Option.some.inj hf
    decide
  split at hf
  · obtain rfl := Option.some.inj hf
    decide
  split at hf
  · obtain rfl := Option.some.inj hf
    decide
  · cases hf

theorem toNat_bytesPerFrame (hf : bitsToFormat o.bits = some format) (hch : o.channels.toNat < 2 ^ 16) :
    (bytesPerFrame (captureConfig o o.channels format)).toNat = frameBytes o format := by
  obtain ⟨hbytes, -, hle⟩ := toNat_sampleBytes hf
  have hprod : o.channels.toNat * ((pcmFormatToBits format).toNat / 8) < 2 ^ 32 :=
    (Nat.mul_le_mul_left _ hle).trans_lt (by omega)
  unfold bytesPerFrame captureConfig
  dsimp only
  rw [UInt32.one_mul, UInt32.toNat_mul, hbytes, Nat.mod_eq_of_lt hprod]
  rfl

theorem numChannels_header (format : PcmFormat) (hch : o.channels.toNat < 2 ^ 16) :
    (header o format).numChannels.toUInt32 = o.channels := by
  refine UInt32.toNat_inj.1 ?_
  show o.channels.toUInt16.toUInt32.toNat = _
  rw [UInt16.toNat_toUInt32, UInt32.toNat_toUInt16, Nat.mod_eq_of_lt hch]

theorem blockAlign_header (hf : bitsToFormat o.bits = some format) (hch : o.channels.toNat < 2 ^ 16) :
    (header o format).blockAlign.toNat = frameBytes o format % 2 ^ 16 := by
  obtain ⟨-, hsample, -⟩ := toNat_sampleBytes hf
  show (o.channels * ((pcmFormatToBits format).toUInt16 / 8).toUInt32).toUInt16.toNat = _
  rw [hsample, UInt32.toNat_toUInt16, ← toNat_bytesPerFrame hf hch]
  unfold bytesPerFrame captureConfig
  dsimp only
  rw [UInt32.one_mul]

/-- No device is opened, or its rounds are captured. -/
theorem capture_cases (format : PcmFormat) (hch : o.channels.toNat < 2 ^ 16) (hwhole : CapturesWhole openDevice) :
    capture openDevice o format = (0, ByteFile.seek {} sizeofWavHeader) ∨
    ∃ rounds, Undisturbed (bytesPerFrame (captureConfig o o.channels format)) rounds ∧
      capture openDevice o format = captureLoop o.rate o.captureTime (bytesPerFrame (captureConfig o o.channels format))
        rounds 0 (ByteFile.seek {} sizeofWavHeader) := by
  unfold capture captureSample
  rw [numChannels_header format hch]
  dsimp only
  cases hopen : openDevice o.card o.device (if o.useMmap then pcmIn ||| pcmMmap else pcmIn)
    (captureConfig o o.channels format) with
  | none => exact .inl rfl
  | some rounds => exact .inr ⟨rounds, hwhole _ _ _ _ _ hopen, rfl⟩

/-- What is captured are as many whole frames as are counted, where their bytes fit 32 bits. -/
theorem capture_spec (hf : bitsToFormat o.bits = some format) (hch : o.channels.toNat < 2 ^ 16)
    (hwhole : CapturesWhole openDevice) (hfit : (capture openDevice o format).2.pos < sizeofWavHeader + 2 ^ 32) :
    let r := capture openDevice o format
    r.2.pos = sizeofWavHeader + frameBytes o format * r.1.toNat ∧ r.2.pos ≤ max r.2.size sizeofWavHeader := by
  have hin : (ByteFile.seek {} sizeofWavHeader).pos ≤ max (ByteFile.seek {} sizeofWavHeader).size sizeofWavHeader :=
    le_max_right ..
  rcases capture_cases format hch hwhole with hcap | ⟨rounds, hund, hcap⟩ <;> rw [hcap] at hfit ⊢
  · refine ⟨?_, hin⟩
    rw [UInt32.toNat_zero, Nat.mul_zero]
    rfl
  · obtain ⟨n, hn, hend, hle⟩ := captureLoop_spec 0 hund hin
    refine ⟨?_, hle⟩
    rw [hend, toNat_bytesPerFrame hf hch] at hfit ⊢
    rw [hn]
    change sizeofWavHeader + _ = _
    rw [Nat.add_left_cancel_iff]
    rcases Nat.eq_zero_or_pos (frameBytes o format) with hz | hpos
    · rw [hz, Nat.zero_mul, Nat.zero_mul]
    · -- the frames are no more than their bytes
      have hle : n ≤ frameBytes o format * n := Nat.le_mul_of_pos_left n hpos
      have hlt : n < 2 ^ 32 := hle.trans_lt (Nat.add_lt_add_iff_left.1 hfit)
      rw [show (0 : UInt32).toNat = 0 from rfl, Nat.zero_add, Nat.mod_eq_of_lt hlt]

end

end Tinyalsa.Tinycap
