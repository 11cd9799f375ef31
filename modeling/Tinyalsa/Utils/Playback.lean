/-
What tinycap writes, tinyplay reads: the header of the one through the parser of the other.
-/
import Tinyalsa.Utils.Tinycap
import Tinyalsa.Utils.Tinyplay

namespace Tinyalsa

open ByteMemory Tinycap Tinyplay

/-! ## The header, read back -/

/-- The widths of the header's fields. -/
def headerWidths : List Nat := [4, 4, 4, 4, 4, 2, 2, 4, 4, 2, 2, 4, 4]

section

variable (m : Memory) (h : WavHeader)

/-- The place of a field depends on the widths before it only. -/
theorem fieldsSize_take (i : Nat) : fieldsSize (h.fields.take i) = (headerWidths.take i).sum := by
  unfold fieldsSize
  rw [List.map_take]
  rfl

/-- A 32-bit field of a header is read where it was written. -/
theorem load32_field (i a : Nat) (ha : (headerWidths.take i).sum = a) (hi : i < h.fields.length) {x : UInt32}
    (hx : h.fields[i] = (4, x.toNat)) : load32 (storeFields m 0 h.fields) a = x := by
  have hload := load_storeFields (m := m) (a := 0) hi
  rw [hx, Nat.zero_add, fieldsSize_take, ha] at hload
  unfold load32
  rw [hload]
  show (x.toNat % 2 ^ 32).toUInt32 = x
  rw [Nat.mod_eq_of_lt x.toNat_lt]
  exact UInt32.ofNat_toNat

theorem load16_field (i a : Nat) (ha : (headerWidths.take i).sum = a) (hi : i < h.fields.length) {x : UInt16}
    (hx : h.fields[i] = (2, x.toNat)) : load16 (storeFields m 0 h.fields) a = x := by
  have hload := load_storeFields (m := m) (a := 0) hi
  rw [hx, Nat.zero_add, fieldsSize_take, ha] at hload
  unfold load16
  rw [hload]
  show (x.toNat % 2 ^ 16).toUInt16 = x
  rw [Nat.mod_eq_of_lt x.toNat_lt]
  exact UInt16.ofNat_toNat

theorem load_riffWaveHeader :
    RiffWaveHeader.load (storeFields m 0 h.fields) 0 =
    { riffId := h.riffId, riffSz := h.riffSz, waveId := h.riffFmt } := by
  have hid : load32 (storeFields m 0 h.fields) 0 = h.riffId :=
    load32_field m h 0 0 (by decide) (show 0 < 13 by decide) rfl
  have hsz : load32 (storeFields m 0 h.fields) 4 = h.riffSz :=
    load32_field m h 1 4 (by decide) (show 1 < 13 by decide) rfl
  have hwave : load32 (storeFields m 0 h.fields) 8 = h.riffFmt :=
    load32_field m h 2 8 (by decide) (show 2 < 13 by decide) rfl
  unfold RiffWaveHeader.load
  rw [hid, Nat.zero_add, Nat.zero_add, hsz, hwave]

theorem load_fmtHeader :
    ChunkHeader.load (storeFields m 0 h.fields) 12 = { id := h.fmtId, sz := h.fmtSz } := by
  have hid : load32 (storeFields m 0 h.fields) 12 = h.fmtId :=
    load32_field m h 3 12 (by decide) (show 3 < 13 by decide) rfl
  have hsz : load32 (storeFields m 0 h.fields) 16 = h.fmtSz :=
    load32_field m h 4 16 (by decide) (show 4 < 13 by decide) rfl
  unfold ChunkHeader.load
  rw [hid, hsz]

theorem load_chunkFmt :
    ChunkFmt.load (storeFields m 0 h.fields) 20 =
      { audioFormat := h.audioFormat, numChannels := h.numChannels, sampleRate := h.sampleRate, byteRate := h.byteRate
        blockAlign := h.blockAlign, bitsPerSample := h.bitsPerSample } := by
  have hformat : load16 (storeFields m 0 h.fields) 20 = h.audioFormat :=
    load16_field m h 5 20 (by decide) (show 5 < 13 by decide) rfl
  have hchannels : load16 (storeFields m 0 h.fields) 22 = h.numChannels :=
    load16_field m h 6 22 (by decide) (show 6 < 13 by decide) rfl
  have hrate : load32 (storeFields m 0 h.fields) 24 = h.sampleRate :=
    load32_field m h 7 24 (by decide) (show 7 < 13 by decide) rfl
  have hbytes : load32 (storeFields m 0 h.fields) 28 = h.byteRate :=
    load32_field m h 8 28 (by decide) (show 8 < 13 by decide) rfl
  have halign : load16 (storeFields m 0 h.fields) 32 = h.blockAlign :=
    load16_field m h 9 32 (by decide) (show 9 < 13 by decide) rfl
  have hbits : load16 (storeFields m 0 h.fields) 34 = h.bitsPerSample :=
    load16_field m h 10 34 (by decide) (show 10 < 13 by decide) rfl
  unfold ChunkFmt.load
  rw [hformat, hchannels, hrate, hbytes, halign, hbits]

theorem load_dataHeader :
    ChunkHeader.load (storeFields m 0 h.fields) 36 = { id := h.dataId, sz := h.dataSz } := by
  have hid : load32 (storeFields m 0 h.fields) 36 = h.dataId :=
    load32_field m h 11 36 (by decide) (show 11 < 13 by decide) rfl
  have hsz : load32 (storeFields m 0 h.fields) 40 = h.dataSz :=
    load32_field m h 12 40 (by decide) (show 12 < 13 by decide) rfl
  unfold ChunkHeader.load
  rw [hid, hsz]

end

/-! ## The file, parsed -/

section

variable {m : Memory} {h : WavHeader} {file : ByteFile}

/-- The identifiers and the format size of a header are those the parser looks for, and its samples are no floats. -/
structure IsWave (h : WavHeader) : Prop where
  riff : h.riffId = Tinyplay.idRiff
  wave : h.riffFmt = Tinyplay.idWave
  fmt : h.fmtId = Tinyplay.idFmt
  fmtSz : h.fmtSz.toNat = sizeofChunkFmt
  data : h.dataId = Tinyplay.idData
  pcm : h.audioFormat ≠ waveFormatIeeeFloat

/-- A file that starts with a header. -/
structure StartsWith (h : WavHeader) (file : ByteFile) : Prop where
  bytes : ∃ m, file.bytes = storeFields m 0 h.fields
  size : sizeofWavHeader ≤ file.size
  pos : file.pos = 0

/-- What the parser knows of a header. -/
def parsedCtx (ctx : Ctx) (h : WavHeader) (file : ByteFile) : Ctx where
  waveHeader := { riffId := h.riffId, riffSz := h.riffSz, waveId := h.riffFmt }
  chunkHeader := { id := h.dataId, sz := h.dataSz }
  chunkFmt := { audioFormat := h.audioFormat, numChannels := h.numChannels, sampleRate := h.sampleRate
                byteRate := h.byteRate, blockAlign := h.blockAlign, bitsPerSample := h.bitsPerSample }
  file := file.seek sizeofWavHeader
  fileSize := ctx.fileSize

/-- The parser gets through the header and stops at the first byte behind it. -/
theorem parseWaveFile_written (hw : IsWave h) (hf : StartsWith h file) (ctx : Ctx) (filename : String) :
    parseWaveFile { ctx with file } filename = pure (parsedCtx ctx h file) := by
  obtain ⟨⟨m, hbytes⟩, hsize, hpos⟩ := hf
  obtain ⟨bytes, size, pos⟩ := file
  dsimp only at hbytes hsize hpos
  subst hbytes hpos
  obtain ⟨fuel, rfl⟩ := Nat.exists_eq_add_of_le' hsize
  have hread : ∀ a n, a + n ≤ sizeofWavHeader →
      ByteFile.read ⟨storeFields m 0 h.fields, fuel + sizeofWavHeader, a⟩ n =
        (true, ⟨storeFields m 0 h.fields, fuel + sizeofWavHeader, a + n⟩) :=
    fun a n han => ByteFile.read_of_le (han.trans (Nat.le_add_left ..))
  unfold parseWaveFile
  dsimp only
  rw [hread 0 sizeofRiffWaveHeader (by decide)]
  dsimp only
  rw [load_riffWaveHeader, if_neg (not_or.2 ⟨not_not.2 hw.riff, not_not.2 hw.wave⟩)]
  -- two rounds: the format chunk, which is as long as the parser's, and the data chunk
  rw [show fuel + sizeofWavHeader + 1 = fuel + 43 + 1 + 1 from rfl]
  unfold parseChunks
  dsimp only
  rw [hread (0 + sizeofRiffWaveHeader) sizeofChunkHeader (by decide)]
  dsimp only
  rw [show 0 + sizeofRiffWaveHeader = 12 from rfl, load_fmtHeader, if_pos hw.fmt,
    hread (12 + sizeofChunkHeader) sizeofChunkFmt (by decide)]
  dsimp only
  rw [if_neg (by rw [hw.fmtSz]; exact lt_irrefl _)]
  unfold parseChunks
  dsimp only
  rw [hread (12 + sizeofChunkHeader + sizeofChunkFmt) sizeofChunkHeader (by decide)]
  dsimp only
  rw [show 12 + sizeofChunkHeader + sizeofChunkFmt = 36 from rfl, load_dataHeader,
    if_neg (fun heq => absurd (hw.data.symm.trans heq) (by decide)), if_pos hw.data,
    show 12 + sizeofChunkHeader = 20 from rfl, load_chunkFmt]
  rfl

/-- The configuration of a player for the header of a file. -/
def playConfig (cmd : Cmd) (h : WavHeader) : PcmConfig :=
  { cmd.config with
    channels := h.numChannels.toUInt32
    rate := h.sampleRate
    format := signedPcmBitsToFormat h.bitsPerSample.toUInt32 }

/-- The PCM is opened, or not. -/
def openPcm (pcmOpen : PcmOpen) (cmd : Cmd) (ctx : Ctx) (config : PcmConfig) : PlayM (Ctx × PcmConfig) :=
  match pcmOpen cmd.card cmd.device cmd.flags config with
  | .ok _ => pure (ctx, config)
  | .error e => throw (.pcmNotOpened cmd.card cmd.device e)

/-- The file a player reads, by its name. -/
def Tinyplay.Files.source (files : Files) (filename : String) : Option ByteFile :=
  if filename = "-" then files.stdin else files.fopen filename

theorem ctxInit_written (hw : IsWave h) (hf : StartsWith h file) {files : Files} (pcmOpen : PcmOpen) (ctx : Ctx)
    {cmd : Cmd} {filename : String} (hname : cmd.filename = some filename) (hsource : files.source filename = some file)
    (htype : isWaveFile cmd.filetype)
    (hbits : signedPcmBitsToFormat h.bitsPerSample.toUInt32 ≠ .invalid) :
    ctxInit files pcmOpen ctx cmd =
      openPcm pcmOpen cmd { parsedCtx ctx h file with fileSize := h.dataSz.toUInt64 } (playConfig cmd h) := by
  have hseek : file.seek 0 = file := by
    unfold ByteFile.seek
    rw [← hf.pos]
  have hparse : ∀ ctx : Ctx, parseWaveFile { ctx with file } filename = pure (parsedCtx ctx h file) :=
    fun ctx => parseWaveFile_written hw hf ctx filename
  unfold ctxInit
  rw [hname]
  dsimp only
  unfold Files.source at hsource
  split at hsource
  · rename_i hdash
    rw [if_pos hdash, hsource]
    dsimp only
    rw [pure_bind, if_pos htype, hparse ctx, pure_bind, pure_bind]
    unfold parsedCtx
    dsimp only
    rw [decide_eq_false hw.pcm, if_neg Bool.false_ne_true, if_neg (fun hinv => hbits hinv.2)]
    rfl
  · rename_i hdash
    rw [if_neg hdash, hsource]
    dsimp only
    rw [pure_bind, if_pos htype, hseek, hparse { ctx with fileSize := file.size.toUInt64 }, pure_bind, pure_bind]
    unfold parsedCtx
    dsimp only
    rw [decide_eq_false hw.pcm, if_neg Bool.false_ne_true, if_neg (fun hinv => hbits hinv.2)]
    rfl

end

/-! ## Captured and played -/

section

variable {openDevice : OpenDevice} {o : Options} {format : PcmFormat} {file : ByteFile}

/-- A file is played as it was captured. `captured` is the file before the header was written. -/
structure ReadsBack (o : Options) (format : PcmFormat) (captured file : ByteFile) : Prop where
  /-- The parser stops at the first byte that was captured. -/
  parsed : ∀ (ctx : Ctx) (filename : String), ∃ ctx',
    parseWaveFile { ctx with file := file.seek 0 } filename = pure ctx' ∧
    ctx'.file.pos = sizeofWavHeader ∧ captured.pos ≤ ctx'.file.size ∧
    ∀ i, sizeofWavHeader ≤ i → i < captured.pos → ctx'.file.bytes i = captured.bytes i
  /-- The PCM is opened with the channels, the rate and the format of the capture, to play as many bytes. -/
  configured : ∀ (files : Files) (pcmOpen : PcmOpen) (ctx : Ctx) (cmd : Cmd) (filename : String),
    cmd.filename = some filename → files.source filename = some (file.seek 0) → isWaveFile cmd.filetype →
    ∃ ctx', ctx'.fileSize.toNat = captured.pos - sizeofWavHeader ∧
      ctxInit files pcmOpen ctx cmd =
        openPcm pcmOpen cmd ctx' { cmd.config with channels := o.channels, rate := o.rate, format }

theorem main_eq (hf : bitsToFormat o.bits = some format) : main openDevice o =
    some (((capture openDevice o format).2.seek 0).writeFields
      (finalHeader o format (capture openDevice o format).1).fields) := by
  unfold main
  rw [hf]
  rfl

theorem isWave_finalHeader (o : Options) (format : PcmFormat) (frames : UInt32) :
    IsWave (finalHeader o format frames) :=
  ⟨rfl, rfl, rfl, rfl, rfl, show formatPcm ≠ waveFormatIeeeFloat by decide⟩

/-- The file of `main` is the captured one with the header's bytes at its start. -/
theorem main_file (hf : bitsToFormat o.bits = some format) (hmain : main openDevice o = some file) :
    file.bytes = storeFields (capture openDevice o format).2.bytes 0
        (finalHeader o format (capture openDevice o format).1).fields ∧
      file.size = max (capture openDevice o format).2.size sizeofWavHeader := by
  rw [main_eq hf, Option.some.injEq] at hmain
  generalize finalHeader o format (capture openDevice o format).1 = h at hmain ⊢
  subst hmain
  unfold ByteFile.writeFields ByteFile.seek
  dsimp only
  rw [fieldsSize_header, Nat.zero_add]
  exact ⟨rfl, rfl⟩

/-- The file of `main` starts with its header. -/
theorem startsWith_main (hf : bitsToFormat o.bits = some format) (hmain : main openDevice o = some file) :
    StartsWith (finalHeader o format (capture openDevice o format).1) (file.seek 0) := by
  obtain ⟨hbytes, hsize⟩ := main_file hf hmain
  refine ⟨⟨_, hbytes⟩, ?_, rfl⟩
  show sizeofWavHeader ≤ file.size
  rw [hsize]
  exact le_max_right ..

/-- The bits of the header stand for the format of the capture, except for 24 bits. -/
theorem signedPcmBitsToFormat_header (hf : bitsToFormat o.bits = some format) (frames : UInt32) :
    signedPcmBitsToFormat (finalHeader o format frames).bitsPerSample.toUInt32 ≠ .invalid ∧
      (signedPcmBitsToFormat (finalHeader o format frames).bitsPerSample.toUInt32 = format ↔ o.bits ≠ 24) := by
  show signedPcmBitsToFormat (pcmFormatToBits format).toUInt16.toUInt32 ≠ .invalid ∧
    (signedPcmBitsToFormat (pcmFormatToBits format).toUInt16.toUInt32 = format ↔ o.bits ≠ 24)
  unfold bitsToFormat at hf
  split at hf
  · rename_i hbits
    obtain rfl := Option.some.inj hf
    rw [hbits]
    decide
  split at hf
  · rename_i hbits
    obtain rfl := Option.some.inj hf
    rw [hbits]
    decide
  split at hf
  · rename_i hbits
    obtain rfl := Option.some.inj hf
    rw [hbits]
    decide
  · cases hf

/-- The data size of the header is the number of captured bytes, just where the frame size fits its field or there
are no frames. -/
theorem dataSz_iff {frames : UInt32} (hf : bitsToFormat o.bits = some format) (hch : o.channels.toNat < 2 ^ 16)
    (hfit : frameBytes o format * frames.toNat < 2 ^ 32) :
    (finalHeader o format frames).dataSz.toUInt64.toNat = frameBytes o format * frames.toNat ↔
      frames = 0 ∨ frameBytes o format < 2 ^ 16 := by
  have hsz : (finalHeader o format frames).dataSz.toUInt64.toNat =
      frameBytes o format % 2 ^ 16 * frames.toNat := by
    have hle : frameBytes o format % 2 ^ 16 * frames.toNat ≤ frameBytes o format * frames.toNat :=
      Nat.mul_le_mul_right _ (Nat.mod_le _ _)
    show (frames * (header o format).blockAlign.toUInt32).toUInt64.toNat = _
    rw [UInt32.toNat_toUInt64, UInt32.toNat_mul, UInt16.toNat_toUInt32, blockAlign_header hf hch, Nat.mul_comm,
      Nat.mod_eq_of_lt (hle.trans_lt hfit)]
  rw [hsz]
  constructor
  · intro heq
    rcases Nat.eq_zero_or_pos frames.toNat with hz | hpos
    · exact .inl (UInt32.toNat_inj.1 hz)
    · exact .inr ((Nat.eq_of_mul_eq_mul_right hpos heq) ▸ Nat.mod_lt _ (by decide))
  · rintro (rfl | hlt)
    · rfl
    · rw [Nat.mod_eq_of_lt hlt]

/-- A player for the file, whatever PCM it opens. -/
def anyCmd : Cmd where
  filename := some "a.wav"
  filetype := some "wav"
  card := 0
  device := 0
  flags := 0
  config := captureConfig {} 2 .s16Le
  bits := 16
  isFloat := false

/-- The format the player derives from the header is the one of the capture, and the data size is its bytes. -/
theorem ReadsBack.header (hf : bitsToFormat o.bits = some format) (hmain : main openDevice o = some file)
    {captured : ByteFile} (h : ReadsBack o format captured file) :
    let header := finalHeader o format (capture openDevice o format).1
    signedPcmBitsToFormat header.bitsPerSample.toUInt32 = format ∧
      header.dataSz.toUInt64.toNat = captured.pos - sizeofWavHeader := by
  obtain ⟨ctx', hfile, hinit⟩ :=
    h.configured ⟨none, fun _ => some (file.seek 0)⟩ (fun _ _ _ _ => .ok ()) {} anyCmd "a.wav" rfl rfl rfl
  rw [ctxInit_written (isWave_finalHeader ..) (startsWith_main hf hmain) (fun _ _ _ _ => .ok ()) {} rfl rfl rfl
    (signedPcmBitsToFormat_header hf _).1] at hinit
  have hpair := Except.ok.inj (Option.some.inj hinit)
  rw [Prod.mk.injEq] at hpair
  obtain ⟨hctx, hconfig⟩ := hpair
  refine ⟨congrArg PcmConfig.format hconfig, ?_⟩
  rw [← hfile, ← hctx]

/-- What tinycap wrote, tinyplay reads, just where the samples are not of 24 bits, and where nothing was captured or
the bytes of a frame fit the header's 16 bits. -/
theorem readsBack_iff (hf : bitsToFormat o.bits = some format) (hmain : main openDevice o = some file)
    (hch : o.channels.toNat < 2 ^ 16) (hwhole : CapturesWhole openDevice)
    (hfit : (capture openDevice o format).2.pos < sizeofWavHeader + 2 ^ 32) :
    ReadsBack o format (capture openDevice o format).2 file ↔
      o.bits ≠ 24 ∧ ((capture openDevice o format).1 = 0 ∨ frameBytes o format < 2 ^ 16) := by
  obtain ⟨hpos, hin⟩ := capture_spec hf hch hwhole hfit
  have hwave := isWave_finalHeader o format (capture openDevice o format).1
  have hstart := startsWith_main hf hmain
  obtain ⟨hfilebytes, hfilesize⟩ := main_file hf hmain
  obtain ⟨hvalid, hformat⟩ := signedPcmBitsToFormat_header hf (capture openDevice o format).1
  have hbytes : frameBytes o format * (capture openDevice o format).1.toNat < 2 ^ 32 := by
    rw [hpos] at hfit
    exact Nat.add_lt_add_iff_left.1 hfit
  have hsize := dataSz_iff hf hch hbytes
  have hsub : (capture openDevice o format).2.pos - sizeofWavHeader =
      frameBytes o format * (capture openDevice o format).1.toNat := by
    rw [hpos, Nat.add_sub_cancel_left]
  -- the bytes come back in any case: the header decides over the format and the size
  constructor
  · intro h
    obtain ⟨hsame, hdata⟩ := h.header hf hmain
    exact ⟨hformat.1 hsame, hsize.1 (hdata.trans hsub)⟩
  · rintro ⟨hbits, hdata⟩
    constructor
    · intro ctx filename
      refine ⟨_, parseWaveFile_written hwave hstart ctx filename, rfl, ?_, fun i hi _ => ?_⟩
      · show _ ≤ file.size
        rw [hfilesize]
        exact hin
      · show file.bytes i = _
        rw [hfilebytes]
        refine storeFields_of_le ?_
        rw [fieldsSize_header, Nat.zero_add]
        exact hi
    · intro files pcmOpen ctx cmd filename hname hsource htype
      have hchannels : (finalHeader o format (capture openDevice o format).1).numChannels.toUInt32 = o.channels :=
        numChannels_header format hch
      have hconfig : playConfig cmd (finalHeader o format (capture openDevice o format).1) =
          { cmd.config with channels := o.channels, rate := o.rate, format } := by
        unfold playConfig
        rw [hformat.2 hbits, hchannels]
        rfl
      rw [← hconfig, hsub]
      exact ⟨_, hsize.2 hdata, ctxInit_written hwave hstart pcmOpen ctx hname hsource htype hvalid⟩

end

/-- A device that captures one frame of zeros. -/
def oneFrame : OpenDevice := fun _ _ _ _ => some [⟨1, fun _ => 0, 2 ^ 32⟩]

theorem capturesWhole_oneFrame : CapturesWhole oneFrame := by
  intro card device flags config rounds hopen r hr
  obtain rfl := Option.some.inj hopen
  obtain rfl := List.mem_singleton.1 hr
  have hlt := (bytesPerFrame config).toNat_lt
  refine ⟨by decide, by decide, ?_⟩
  show (bytesPerFrame config).toNat * 1 ≤ 2 ^ 32
  omega

/-- A frame of 16 bits. -/
theorem readsBack_oneFrame : ReadsBack {} .s16Le (capture oneFrame {} .s16Le).2 ((main oneFrame {}).getD {}) :=
  (readsBack_iff rfl rfl (by decide) capturesWhole_oneFrame (by decide)).2 ⟨by decide, .inr (by decide)⟩

/-- A frame of 24 bits, each sample in four bytes, is played as one of 32 bits. -/
theorem not_readsBack_oneFrame : (main oneFrame { bits := 24 }).isSome ∧
    ¬ ReadsBack { bits := 24 } .s24Le (capture oneFrame { bits := 24 } .s24Le).2
      ((main oneFrame { bits := 24 }).getD {}) := by
  refine ⟨rfl, fun h => ?_⟩
  have hmain : main oneFrame { bits := 24 } = some ((main oneFrame { bits := 24 }).getD {}) := rfl
  exact absurd (h.header rfl hmain).1 (by decide)

end Tinyalsa
