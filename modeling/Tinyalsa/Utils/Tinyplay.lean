/-
tinyplay: reading the header of a file (`parse_wave_file`), and the configuration the PCM is opened with
(`ctx_init`).
-/
import Tinyalsa.Lib.ByteFile
import Tinyalsa.Pcm.Params

namespace Tinyalsa.Tinyplay

open ByteMemory

/-! ## Wave files -/

def idRiff : UInt32 := 0x46464952
def idWave : UInt32 := 0x45564157
def idFmt : UInt32 := 0x20746d66
def idData : UInt32 := 0x61746164
def waveFormatIeeeFloat : UInt16 := 0x0003

/-- `struct riff_wave_header`. -/
structure RiffWaveHeader where
  riffId : UInt32 := 0
  riffSz : UInt32 := 0
  waveId : UInt32 := 0

/-- `struct chunk_header`. -/
structure ChunkHeader where
  id : UInt32 := 0
  sz : UInt32 := 0
  deriving DecidableEq

/-- `struct chunk_fmt`. -/
structure ChunkFmt where
  audioFormat : UInt16 := 0
  numChannels : UInt16 := 0
  sampleRate : UInt32 := 0
  byteRate : UInt32 := 0
  blockAlign : UInt16 := 0
  bitsPerSample : UInt16 := 0

def load16 (m : Memory) (a : Nat) : UInt16 := (load m a 2).toUInt16

def load32 (m : Memory) (a : Nat) : UInt32 := (load m a 4).toUInt32

def sizeofRiffWaveHeader : Nat := 12
def sizeofChunkHeader : Nat := 8
def sizeofChunkFmt : Nat := 16

def RiffWaveHeader.load (m : Memory) (a : Nat) : RiffWaveHeader where
  riffId := load32 m a
  riffSz := load32 m (a + 4)
  waveId := load32 m (a + 8)

def ChunkHeader.load (m : Memory) (a : Nat) : ChunkHeader where
  id := load32 m a
  sz := load32 m (a + 4)

def ChunkFmt.load (m : Memory) (a : Nat) : ChunkFmt where
  audioFormat := load16 m a
  numChannels := load16 m (a + 2)
  sampleRate := load32 m (a + 4)
  byteRate := load32 m (a + 8)
  blockAlign := load16 m (a + 12)
  bitsPerSample := load16 m (a + 14)

/-- `struct ctx`, without the PCM it opens. -/
structure Ctx where
  waveHeader : RiffWaveHeader := {}
  chunkHeader : ChunkHeader := {}
  chunkFmt : ChunkFmt := {}
  file : ByteFile := {}
  fileSize : UInt64 := 0

/-- Why a file is not played. -/
inductive PlayError
  | noFilename
  | seekOnNull
  | notOpened (filename : String)
  | noRiffHeader (filename : String)
  | notRiff (filename : String)
  | noDataChunk (filename : String)
  | incompleteFormat (filename : String)
  | badBits (bits : UInt32)
  | pcmNotOpened (card device : UInt32) (error : String)
  deriving DecidableEq, Repr

/-- What is printed to `stderr`. -/
def PlayError.message : PlayError → String
  | .noFilename => "filename not specified"
  | .seekOnNull => ""
  | .notOpened filename => s!"failed to open '{filename}'"
  | .noRiffHeader filename => s!"error: '{filename}' does not contain a riff/wave header"
  | .notRiff filename => s!"error: '{filename}' is not a riff/wave file"
  | .noDataChunk filename => s!"error: '{filename}' does not contain a data chunk"
  | .incompleteFormat filename => s!"error: '{filename}' has incomplete format chunk"
  | .badBits bits => s!"bit count '{bits}' not supported"
  | .pcmNotOpened card device error => s!"failed to open for pcm {card},{device}. {error}"

/-- A result or an error; `none`, where a loop ran out of fuel. -/
abbrev PlayM := ExceptT PlayError Option

/-- The loop over the chunks of `parse_wave_file`. -/
def parseChunks (filename : String) : Nat → Ctx → PlayM Ctx
  | 0, _ => ExceptT.mk none
  | fuel + 1, ctx =>
    match ctx.file.read sizeofChunkHeader with
    | (false, _) => throw (.noDataChunk filename)
    | (true, file) =>
      let ctx := { ctx with file, chunkHeader := .load ctx.file.bytes ctx.file.pos }
      if ctx.chunkHeader.id = idFmt then
        match ctx.file.read sizeofChunkFmt with
        | (false, _) => throw (.incompleteFormat filename)
        | (true, file) =>
          let ctx := { ctx with file, chunkFmt := .load ctx.file.bytes ctx.file.pos }
          -- a larger format header: the rest is skipped
          if ctx.chunkHeader.sz.toNat > sizeofChunkFmt then
            parseChunks filename fuel { ctx with file := ctx.file.skip (ctx.chunkHeader.sz.toNat - sizeofChunkFmt) }
          else parseChunks filename fuel ctx
      else if ctx.chunkHeader.id = idData then return ctx
      else parseChunks filename fuel { ctx with file := ctx.file.skip ctx.chunkHeader.sz.toNat }

/-- `parse_wave_file`. Each round reads at least a chunk header, so there are at most as many as there are bytes. -/
def parseWaveFile (ctx : Ctx) (filename : String) : PlayM Ctx :=
  match ctx.file.read sizeofRiffWaveHeader with
  | (false, _) => throw (.noRiffHeader filename)
  | (true, file) =>
    let ctx := { ctx with file, waveHeader := .load ctx.file.bytes ctx.file.pos }
    if ctx.waveHeader.riffId ≠ idRiff ∨ ctx.waveHeader.waveId ≠ idWave then throw (.notRiff filename)
    else parseChunks filename (ctx.file.size + 1) ctx

/-- Reading chunks ends with the bytes of the file. -/
theorem parseChunks_ends (filename : String) : ∀ {fuel : Nat} {ctx : Ctx}, ctx.file.size - ctx.file.pos < fuel →
    (parseChunks filename fuel ctx).run ≠ none
  | fuel + 1, ctx, hfuel => by
    unfold parseChunks
    rcases ctx.file.read_cases sizeofChunkHeader with ⟨hle, hread⟩ | ⟨-, f', hread⟩ <;> rw [hread] <;> dsimp only
    case inr => rintro ⟨⟩
    -- wherever the loop goes on, it is behind the chunk header
    have hnext : ∀ {next : Ctx}, next.file.size = ctx.file.size → ctx.file.pos + sizeofChunkHeader ≤ next.file.pos →
        (parseChunks filename fuel next).run ≠ none := by
      intro next hsize hpos
      refine parseChunks_ends filename ?_
      unfold sizeofChunkHeader at hle hpos
      omega
    split
    · rcases (ctx.file.skip sizeofChunkHeader).read_cases sizeofChunkFmt with ⟨-, hfmt⟩ | ⟨-, f', hfmt⟩ <;>
        rw [hfmt] <;> dsimp only
      case inr => rintro ⟨⟩
      split
      · exact hnext rfl (by unfold ByteFile.skip; dsimp only; omega)
      · exact hnext rfl (Nat.le_add_right _ _)
    · split
      · rintro ⟨⟩
      · exact hnext rfl (Nat.le_add_right _ _)

theorem parseWaveFile_ends (ctx : Ctx) (filename : String) : (parseWaveFile ctx filename).run ≠ none := by
  unfold parseWaveFile
  rcases ctx.file.read_cases sizeofRiffWaveHeader with ⟨-, hread⟩ | ⟨-, f', hread⟩ <;> rw [hread] <;> dsimp only
  case inr => rintro ⟨⟩
  split
  · rintro ⟨⟩
  · exact parseChunks_ends filename (Nat.lt_succ_of_le (Nat.sub_le ..))

/-! ## Opening the PCM -/

/-- `struct cmd`. -/
structure Cmd where
  filename : Option String
  filetype : Option String
  card : UInt32
  device : UInt32
  flags : UInt32
  config : PcmConfig
  bits : UInt32
  isFloat : Bool

def isWaveFile (filetype : Option String) : Bool := filetype = some "wav"

def signedPcmBitsToFormat (bits : UInt32) : PcmFormat :=
  if bits = 8 then .s8
  else if bits = 16 then .s16Le
  else if bits = 24 then .s24_3Le
  else if bits = 32 then .s32Le
  else .invalid

/-- The files there are. -/
structure Files where
  stdin : Option ByteFile
  fopen : String → Option ByteFile

/-- `pcm_open`, with the error of a PCM that is not ready. -/
abbrev PcmOpen := UInt32 → UInt32 → UInt32 → PcmConfig → Except String Unit

/-- `ctx_init`: the context, and the configuration the PCM is opened with. -/
def ctxInit (files : Files) (pcmOpen : PcmOpen) (ctx : Ctx) (cmd : Cmd) : PlayM (Ctx × PcmConfig) := do
  match cmd.filename with
  | none => throw .noFilename
  | some filename =>
    let ctx ←
      if filename = "-" then
        match files.stdin with
        | none => throw (.notOpened filename)
        | some file => pure { ctx with file }
      else
        match files.fopen filename with
        | none => throw .seekOnNull
        | some file => pure { ctx with file := file.seek 0, fileSize := file.size.toUInt64 }
    let (ctx, config, bits, isFloat) ←
      if isWaveFile cmd.filetype then
        let ctx ← parseWaveFile ctx filename
        let config := { cmd.config with
          channels := ctx.chunkFmt.numChannels.toUInt32, rate := ctx.chunkFmt.sampleRate }
        pure ({ ctx with fileSize := ctx.chunkHeader.sz.toUInt64 }, config, ctx.chunkFmt.bitsPerSample.toUInt32,
          decide (ctx.chunkFmt.audioFormat = waveFormatIeeeFloat))
      else pure (ctx, cmd.config, cmd.bits, cmd.isFloat)
    let format := if isFloat then .floatLe else signedPcmBitsToFormat bits
    if !isFloat ∧ format = .invalid then throw (.badBits bits)
    else
      let config := { config with format }
      match pcmOpen cmd.card cmd.device cmd.flags config with
      | .ok _ => return (ctx, config)
      | .error e => throw (.pcmNotOpened cmd.card cmd.device e)

end Tinyalsa.Tinyplay
