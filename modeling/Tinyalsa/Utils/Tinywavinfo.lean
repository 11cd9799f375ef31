/-
tinywavinfo: the loop over the chunks of a file, which looks for its data beside that of tinyplay, and the
files it does not come to an end with.
-/
import Tinyalsa.Lib.Loop
import Tinyalsa.Utils.WaveChunks

namespace Tinyalsa.Tinywavinfo

open ByteMemory Tiling Tinyplay

/-! ## Reading -/

/-- The fields of `struct riff_wave_header`. -/
def riffWaveHeaderFields (h : RiffWaveHeader) : List (Nat × Nat) :=
  [(4, h.riffId.toNat), (4, h.riffSz.toNat), (4, h.waveId.toNat)]

/-- The fields of `struct chunk_header`. -/
def chunkHeaderFields (h : ChunkHeader) : List (Nat × Nat) := [(4, h.id.toNat), (4, h.sz.toNat)]

/-- The fields of `struct chunk_fmt`. -/
def chunkFmtFields (h : ChunkFmt) : List (Nat × Nat) :=
  [(2, h.audioFormat.toNat), (2, h.numChannels.toNat), (4, h.sampleRate.toNat), (4, h.byteRate.toNat),
    (2, h.blockAlign.toNat), (2, h.bitsPerSample.toNat)]

/-- `xfread` of an object, given by its fields, from a file without read errors. At the end of the file the bytes
there are go over those of the object, and nobody is told. -/
def xfread (f : ByteFile) (fields : List (Nat × Nat)) : Memory × ByteFile :=
  let n := fieldsSize fields
  (copy (storeFields (fun _ => 0) 0 fields) 0 f.bytes f.pos (min n (f.size - f.pos)), (f.read n).2)

/-! ## main -/

/-- The local variables of `main`. -/
structure Locals where
  riffWaveHeader : RiffWaveHeader := {}
  chunkHeader : ChunkHeader := {}
  chunkFmt : ChunkFmt := {}
  file : ByteFile := {}

/-- A round of the loop over the chunks: it goes on, or there are no more chunks. -/
def chunkRound (s : Locals) : Locals ⊕ Locals :=
  let (header, file) := xfread s.file (chunkHeaderFields s.chunkHeader)
  let s := { s with file, chunkHeader := .load header 0 }
  if s.chunkHeader.id = idFmt then
    let (fmt, file) := xfread s.file (chunkFmtFields s.chunkFmt)
    let s := { s with file, chunkFmt := .load fmt 0 }
    -- a larger format header: the rest is skipped
    if s.chunkHeader.sz.toNat > sizeofChunkFmt then
      .inl { s with file := s.file.skip (s.chunkHeader.sz.toNat - sizeofChunkFmt) }
    else .inl s
  -- stop looking for chunks
  else if s.chunkHeader.id = idData then .inr s
  -- unknown chunk
  else .inl { s with file := s.file.skip s.chunkHeader.sz.toNat }

/-- The file's first header is read. -/
def readRiff (s : Locals) : Locals :=
  let (header, file) := xfread s.file (riffWaveHeaderFields s.riffWaveHeader)
  { s with file, riffWaveHeader := .load header 0 }

def Locals.isRiffWave (s : Locals) : Bool := s.riffWaveHeader.riffId = idRiff && s.riffWaveHeader.waveId = idWave

/-- `main` up to where the file is analysed, within so many rounds: `some none` for a file that is not a wave
file. The variables start with what is on the stack. -/
def main (fuel : Nat) (stack : Locals) : Option (Option Locals) :=
  let s := readRiff stack
  if s.isRiffWave then (Loop.run chunkRound fuel s).map some else some none

/-! ## A header, read -/

section

variable {file : ByteFile} {c : ChunkHeader} {p : Nat}

/-- The header that is in the variable when the loop has read at `p`. -/
def headerBehind (file : ByteFile) (p : Nat) (c : ChunkHeader) : ChunkHeader :=
  .load (copy (storeFields (fun _ => 0) 0 (chunkHeaderFields c)) 0 file.bytes p
    (min sizeofChunkHeader (file.size - p))) 0

/-- A whole header is read as it is. -/
theorem headerBehind_of_le (h : p + sizeofChunkHeader ≤ file.size) : headerBehind file p c = .load file.bytes p := by
  have hmin : min sizeofChunkHeader (file.size - p) = 8 := min_eq_left (Nat.le_sub_of_add_le' h)
  have hload : ∀ a, a + 4 ≤ 8 → load32 (copy (storeFields (fun _ => 0) 0 (chunkHeaderFields c)) 0 file.bytes p 8) a =
      load32 file.bytes (p + a) := by
    intro a ha
    unfold load32
    refine congrArg Nat.toUInt32 (load_congr fun i hi => ?_)
    have hcopy : copy (storeFields (fun _ => 0) 0 (chunkHeaderFields c)) 0 file.bytes p 8 (0 + (a + i)) =
        file.bytes (p + (a + i)) := copy_of_mem (by omega)
    rwa [Nat.zero_add, ← Nat.add_assoc p] at hcopy
  unfold headerBehind ChunkHeader.load
  rw [hmin, hload 0 (by decide), hload (0 + 4) (by decide)]
  rfl

/-- At the end of the file the variable is left as it is. -/
theorem headerBehind_of_end (h : file.size ≤ p) : headerBehind file p c = c := by
  have hid : load32 (storeFields (fun _ => 0) 0 (chunkHeaderFields c)) 0 = c.id := by
    show (load (store (store (fun _ => 0) 0 4 c.id.toNat) 4 4 c.sz.toNat) 0 4).toUInt32 = c.id
    rw [load_store_disjoint (b := 0) (v := 4) (.inl (by decide)), load_store_of_lt _ _ c.id.toNat_lt]
    exact UInt32.ofNat_toNat
  have hsz : load32 (storeFields (fun _ => 0) 0 (chunkHeaderFields c)) 4 = c.sz := by
    show (load (store (store (fun _ => 0) 0 4 c.id.toNat) 4 4 c.sz.toNat) 4 4).toUInt32 = c.sz
    rw [load_store_of_lt _ _ c.sz.toNat_lt]
    exact UInt32.ofNat_toNat
  unfold headerBehind ChunkHeader.load
  rw [Nat.sub_eq_zero_of_le h, Nat.min_zero, copy_zero, hid, hsz]

/-! ## The files the loop ends with -/

/-- The bytes of a chunk that the loop gets over. -/
def chunkScanned (c : ChunkHeader) : Nat :=
  sizeofChunkHeader + if c.id = idFmt then max sizeofChunkFmt c.sz.toNat else c.sz.toNat

/-- A whole header that starts at `p`. -/
def WholeHeaderAt (file : ByteFile) (p : Nat) (c : ChunkHeader) : Prop :=
  p + sizeofChunkHeader ≤ file.size ∧ HeaderAt file.bytes p c

/-- Behind a row of chunks with whole headers the header of data is read. The last one in the file may be cut short:
what is missing of it is in the variable from the one before. -/
def MeetsData (file : ByteFile) (stale : ChunkHeader) (p : Nat) : Prop :=
  ∃ cs q, Tiles (WholeHeaderAt file) chunkScanned p cs q ∧ (headerBehind file q (cs.getLastD stale)).id = idData

/-- At the end of the file there is no row any more. -/
theorem meetsData_of_end (h : file.size ≤ p) : MeetsData file c p ↔ c.id = idData := by
  constructor
  · rintro ⟨cs, q, hcs, hid⟩
    cases hcs with
    | nil =>
      rw [headerBehind_of_end h] at hid
      exact hid
    | cons head _ =>
      have hle := head.1
      unfold sizeofChunkHeader at hle
      omega
  · intro hid
    refine ⟨[], p, .nil p, ?_⟩
    rw [headerBehind_of_end h]
    exact hid

/-- A row that starts with a whole header goes on behind its chunk. -/
theorem meetsData_of_le (h : p + sizeofChunkHeader ≤ file.size) (hid : (ChunkHeader.load file.bytes p).id ≠ idData) :
    MeetsData file c p ↔
      MeetsData file (.load file.bytes p) (p + chunkScanned (.load file.bytes p)) := by
  constructor
  · rintro ⟨cs, q, hcs, hdata⟩
    cases hcs with
    | nil =>
      rw [headerBehind_of_le h] at hdata
      exact absurd hdata hid
    | @cons _ _ c' cs head tail =>
      obtain ⟨-, rfl⟩ := head
      refine ⟨cs, q, tail, ?_⟩
      rwa [List.getLastD_cons] at hdata
  · rintro ⟨cs, q, hcs, hdata⟩
    refine ⟨_ :: cs, q, .cons ⟨h, rfl⟩ hcs, ?_⟩
    rwa [List.getLastD_cons]

/-! ## The loop -/

variable {s s' : Locals}

/-- The header that the next round reads. -/
def Locals.next (s : Locals) : ChunkHeader := headerBehind s.file s.file.pos s.chunkHeader

/-- What a round that goes on leaves: the header that was read, and the file behind its chunk, or at its end. -/
structure GoesOn (s s' : Locals) : Prop where
  not_data : s.next.id ≠ idData
  header : s'.chunkHeader = s.next
  bytes : s'.file.bytes = s.file.bytes
  size : s'.file.size = s.file.size
  pos : s'.file.pos = s.file.pos + chunkScanned s.next ∨
    s.file.size ≤ s'.file.pos ∧ s.file.size ≤ s.file.pos + chunkScanned s.next

theorem fieldsSize_chunkHeaderFields (c : ChunkHeader) : fieldsSize (chunkHeaderFields c) = sizeofChunkHeader := rfl

/-- Where the file is behind the header that a round reads. -/
def Locals.behindHeader (s : Locals) : Nat := s.file.pos + min sizeofChunkHeader (s.file.size - s.file.pos)

/-- A round, with the header that it reads. -/
theorem chunkRound_eq (s : Locals) :
    ∃ fmt, chunkRound s =
      let behind := s.file.seek s.behindHeader
      if s.next.id = idFmt then
        let file := behind.skip (min sizeofChunkFmt (s.file.size - s.behindHeader))
        .inl { s with
          chunkHeader := s.next
          chunkFmt := fmt
          file := if s.next.sz.toNat > sizeofChunkFmt then file.skip (s.next.sz.toNat - sizeofChunkFmt) else file }
      else if s.next.id = idData then .inr { s with chunkHeader := s.next, file := behind }
      else .inl { s with chunkHeader := s.next, file := behind.skip s.next.sz.toNat } := by
  unfold chunkRound xfread Locals.next headerBehind Locals.behindHeader
  rw [fieldsSize_chunkHeaderFields]
  dsimp only
  generalize ChunkHeader.load _ 0 = header
  by_cases hfmt : header.id = idFmt
  · rw [if_pos hfmt]
    by_cases hsz : header.sz.toNat > sizeofChunkFmt
    · rw [if_pos hsz]
      exact ⟨_, by rw [if_pos hfmt, if_pos hsz]; rfl⟩
    · rw [if_neg hsz]
      exact ⟨_, by rw [if_pos hfmt, if_neg hsz]; rfl⟩
  · rw [if_neg hfmt]
    exact ⟨s.chunkFmt, by rw [if_neg hfmt]; rfl⟩

theorem chunkRound_data (hid : s.next.id = idData) : ∃ s', chunkRound s = .inr s' := by
  have hfmt : s.next.id ≠ idFmt := by
    rw [hid]
    decide
  obtain ⟨fmt, hround⟩ := chunkRound_eq s
  rw [hround]
  dsimp only
  rw [if_neg hfmt, if_pos hid]
  exact ⟨_, rfl⟩

theorem chunkRound_skip (hfmt : s.next.id ≠ idFmt) (hid : s.next.id ≠ idData) :
    ∃ s', chunkRound s = .inl s' ∧ GoesOn s s' := by
  obtain ⟨fmt, hround⟩ := chunkRound_eq s
  rw [hround]
  dsimp only
  rw [if_neg hfmt, if_neg hid]
  refine ⟨_, rfl, hid, by simp, by simp, by simp, ?_⟩
  have hscanned : chunkScanned s.next = sizeofChunkHeader + s.next.sz.toNat := by
    rw [chunkScanned, if_neg hfmt]
  simp only [ByteFile.skip_pos, ByteFile.seek_pos]
  unfold Locals.behindHeader
  rw [hscanned]
  omega

theorem chunkRound_fmt (hfmt : s.next.id = idFmt) : ∃ s', chunkRound s = .inl s' ∧ GoesOn s s' := by
  have hid : s.next.id ≠ idData := by
    rw [hfmt]
    decide
  have hscanned : chunkScanned s.next = sizeofChunkHeader + max sizeofChunkFmt s.next.sz.toNat := by
    rw [chunkScanned, if_pos hfmt]
  obtain ⟨fmt, hround⟩ := chunkRound_eq s
  rw [hround]
  dsimp only
  rw [if_pos hfmt]
  have hpos : ∀ skipped, skipped = s.next.sz.toNat - sizeofChunkFmt →
      s.behindHeader + min sizeofChunkFmt (s.file.size - s.behindHeader) + skipped = s.file.pos + chunkScanned s.next ∨
      s.file.size ≤ s.behindHeader + min sizeofChunkFmt (s.file.size - s.behindHeader) + skipped ∧
        s.file.size ≤ s.file.pos + chunkScanned s.next := by
    rintro _ rfl
    unfold Locals.behindHeader
    rw [hscanned]
    omega
  by_cases hsz : s.next.sz.toNat > sizeofChunkFmt
  · rw [if_pos hsz]
    exact ⟨_, rfl, hid, by simp, by simp, by simp, by simpa using hpos _ rfl⟩
  · rw [if_neg hsz]
    exact ⟨_, rfl, hid, by simp, by simp, by simp, by simpa using hpos 0 (by omega)⟩

/-- A round leaves with the header of data, or goes on. -/
theorem chunkRound_cases (s : Locals) :
    (s.next.id = idData ∧ ∃ s', chunkRound s = .inr s') ∨ ∃ s', chunkRound s = .inl s' ∧ GoesOn s s' := by
  by_cases hid : s.next.id = idData
  · exact .inl ⟨hid, chunkRound_data hid⟩
  by_cases hfmt : s.next.id = idFmt
  · exact .inr (chunkRound_fmt hfmt)
  · exact .inr (chunkRound_skip hfmt hid)

theorem meetsData_of_next (hid : s.next.id = idData) : MeetsData s.file s.chunkHeader s.file.pos :=
  ⟨[], s.file.pos, .nil _, hid⟩

/-- A round that goes on changes nothing about what is met. -/
theorem GoesOn.meetsData_iff (h : GoesOn s s') :
    MeetsData s.file s.chunkHeader s.file.pos ↔ MeetsData s'.file s'.chunkHeader s'.file.pos := by
  have hfile : ∀ c p, MeetsData s'.file c p ↔ MeetsData s.file c p := by
    intro c p
    unfold MeetsData WholeHeaderAt headerBehind
    rw [h.bytes, h.size]
  rw [hfile, h.header]
  by_cases hle : s.file.pos + sizeofChunkHeader ≤ s.file.size
  · have hnext : s.next = .load s.file.bytes s.file.pos := headerBehind_of_le hle
    rw [meetsData_of_le hle (hnext ▸ h.not_data), ← hnext]
    rcases h.pos with hpos | ⟨hpos, hend⟩
    · rw [hpos]
    · rw [meetsData_of_end hend, meetsData_of_end hpos]
  · -- the last header is cut short
    have hpos : s.file.size ≤ s'.file.pos := by
      have hscanned : sizeofChunkHeader ≤ chunkScanned s.next := Nat.le_add_right ..
      rcases h.pos with hpos | hpos <;> omega
    rw [meetsData_of_end hpos]
    refine iff_of_false ?_ h.not_data
    rintro ⟨cs, q, hcs, hid⟩
    cases hcs with
    | nil => exact h.not_data hid
    | cons head _ => exact hle head.1

/-- The loop ends with the files in which it meets data. -/
theorem ends_chunkRound_iff (s : Locals) :
    Loop.Ends chunkRound s ↔ MeetsData s.file s.chunkHeader s.file.pos := by
  constructor
  · intro h
    refine h.backwards (P := fun s => MeetsData s.file s.chunkHeader s.file.pos)
      (fun s r hr => ?_) fun s s' hs' h' => ?_
    · rcases chunkRound_cases s with ⟨hid, -⟩ | ⟨s', hs', -⟩
      · exact meetsData_of_next hid
      · rw [hr] at hs'
        cases hs'
    · rcases chunkRound_cases s with ⟨-, r, hr⟩ | ⟨s'', hs'', hon⟩
      · rw [hs'] at hr
        cases hr
      · obtain rfl := Sum.inl.inj (hs'.symm.trans hs'')
        exact hon.meetsData_iff.2 h'
  · -- every round that goes on comes nearer to the end of the file, where the header does not change any more
    generalize hn : s.file.size - s.file.pos = n
    induction n using Nat.strongRecOn generalizing s with
    | ind n ih =>
      intro h
      rcases chunkRound_cases s with ⟨-, r, hr⟩ | ⟨s', hs', hon⟩
      · exact Loop.ends_of_inr hr
      have h' := hon.meetsData_iff.1 h
      rw [Loop.ends_iff_of_inl hs']
      by_cases hend : s.file.size ≤ s.file.pos
      · rw [meetsData_of_end hend] at h
        have hnext : s.next = s.chunkHeader := headerBehind_of_end hend
        exact absurd h (hnext ▸ hon.not_data)
      · refine ih (s'.file.size - s'.file.pos) ?_ s' rfl h'
        have hscanned : sizeofChunkHeader ≤ chunkScanned s.next := Nat.le_add_right ..
        have hsize := hon.size
        unfold sizeofChunkHeader at hscanned
        rcases hon.pos with hpos | hpos <;> omega

end

/-! ## The scanners -/

theorem main_ends_iff (stack : Locals) :
    (∃ fuel, main fuel stack ≠ none) ↔ ((readRiff stack).isRiffWave → Loop.Ends chunkRound (readRiff stack)) := by
  unfold main Loop.Ends
  generalize readRiff stack = s
  by_cases hs : s.isRiffWave <;> simp [hs]

/-- The scanner of tinyplay ends with every file. That of tinywavinfo ends with a wave file in which it meets data,
and with no other. -/
theorem scanners_end_iff (ctx : Ctx) (filename : String) (stack : Locals) :
    (parseWaveFile ctx filename).run ≠ none ∧
    ((∃ fuel, main fuel stack ≠ none) ↔
      ((readRiff stack).isRiffWave → MeetsData (readRiff stack).file stack.chunkHeader (readRiff stack).file.pos)) := by
  refine ⟨parseWaveFile_ends ctx filename, ?_⟩
  rw [main_ends_iff, ends_chunkRound_iff]
  rfl

/-- A file that ends behind its format. -/
def formatOnly : Locals where
  file := fileOf formatBytes

/-- The scanner of tinywavinfo does not end with a file that has no data. -/
theorem not_scanners_end : ¬∀ stack : Locals, ∃ fuel, main fuel stack ≠ none := by
  intro h
  have hends := (main_ends_iff formatOnly).1 (h formatOnly) (by decide)
  rw [ends_chunkRound_iff, meetsData_of_le (by decide) (by decide), meetsData_of_end (by decide)] at hends
  exact absurd hends (by decide)

end Tinyalsa.Tinywavinfo
