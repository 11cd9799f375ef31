/-
The chunks of a wave file: what `parse_wave_file` finds in any layout of them, and the pad bytes it does not
skip.
-/
import Tinyalsa.Lib.Tiles
import Tinyalsa.Utils.Tinyplay

namespace Tinyalsa.Tinyplay

open ByteMemory Tiling

/-! ## Layouts -/

/-- The bytes a chunk takes in a file: its header, its body, and the pad byte of an odd body. -/
def ChunkHeader.padded (c : ChunkHeader) : Nat := sizeofChunkHeader + c.sz.toNat + c.sz.toNat % 2

/-- The bytes of a chunk the parser gets over. -/
def ChunkHeader.skipped (c : ChunkHeader) : Nat := sizeofChunkHeader + c.sz.toNat

/-- The chunk that starts at `p`. -/
def HeaderAt (m : Memory) (p : Nat) (c : ChunkHeader) : Prop := ChunkHeader.load m p = c

instance (m : Memory) (p : Nat) (c : ChunkHeader) : Decidable (HeaderAt m p c) :=
  inferInstanceAs (Decidable (ChunkHeader.load m p = c))

/-- A chunk that may stand before the data: a format has the fields that are read. -/
structure ChunkHeader.Ordinary (c : ChunkHeader) : Prop where
  not_data : c.id ≠ idData
  format : c.id = idFmt → sizeofChunkFmt ≤ c.sz.toNat

/-- A file that starts with a RIFF/WAVE header. -/
structure IsRiffWave (file : ByteFile) : Prop where
  pos : file.pos = 0
  riff : load32 file.bytes 0 = idRiff
  wave : load32 file.bytes 8 = idWave

/-- A well-formed file: the last format before the data, and the chunks around it. -/
structure WaveFile where
  file : ByteFile
  before : List ChunkHeader
  fmtAt : Nat
  fmt : ChunkHeader
  between : List ChunkHeader
  dataAt : Nat
  data : ChunkHeader
  header : IsRiffWave file
  laid : Tiles (HeaderAt file.bytes) ChunkHeader.padded sizeofRiffWaveHeader before fmtAt
  fmt_laid : HeaderAt file.bytes fmtAt fmt
  between_laid : Tiles (HeaderAt file.bytes) ChunkHeader.padded (fmtAt + fmt.padded) between dataAt
  data_laid : HeaderAt file.bytes dataAt data
  inside : dataAt + sizeofChunkHeader ≤ file.size
  fmt_id : fmt.id = idFmt
  data_id : data.id = idData
  ordinary : ∀ c ∈ before ++ fmt :: between, c.Ordinary
  last_fmt : ∀ c ∈ between, c.id ≠ idFmt

/-- A file of whole chunks, none of them with data. -/
structure DatalessFile where
  file : ByteFile
  chunks : List ChunkHeader
  header : IsRiffWave file
  laid : Tiles (HeaderAt file.bytes) ChunkHeader.padded sizeofRiffWaveHeader chunks file.size
  ordinary : ∀ c ∈ chunks, c.Ordinary

namespace WaveFile

variable (w : WaveFile)

/-- The chunks before the data. -/
def chunks : List ChunkHeader := w.before ++ w.fmt :: w.between

/-- What the parser is to find: the format, the size of the data, and the first byte of it. -/
structure Found (ctx : Ctx) : Prop where
  fmt : ctx.chunkFmt = .load w.file.bytes (w.fmtAt + sizeofChunkHeader)
  sz : ctx.chunkHeader.sz = w.data.sz
  file : ctx.file = w.file.seek (w.dataAt + sizeofChunkHeader)

/-- The file is parsed as what it is. -/
def Accepted (ctx : Ctx) (filename : String) : Prop :=
  ∃ ctx', (parseWaveFile { ctx with file := w.file } filename).run = some (.ok ctx') ∧ w.Found ctx'

theorem chunks_laid : Tiles (HeaderAt w.file.bytes) ChunkHeader.padded sizeofRiffWaveHeader w.chunks w.dataAt :=
  Tiles.append_iff.2 ⟨w.fmtAt, w.laid, .cons w.fmt_laid w.between_laid⟩

end WaveFile

/-- The parser returns an error. -/
def Refused (file : ByteFile) (ctx : Ctx) (filename : String) : Prop :=
  ∃ e, (parseWaveFile { ctx with file } filename).run = some (.error e)

/-- Chunks of even size have no pad byte. -/
theorem tiles_skipped {m : Memory} {p q : Nat} {cs : List ChunkHeader}
    (h : Tiles (HeaderAt m) ChunkHeader.padded p cs q)
    (heven : ∀ c ∈ cs, Even c.sz.toNat) : Tiles (HeaderAt m) ChunkHeader.skipped p cs q := by
  refine h.congr_len fun c hc => ?_
  unfold ChunkHeader.skipped ChunkHeader.padded
  rw [Nat.even_iff.1 (heven c hc), Nat.add_zero]

/-! ## The loop over the chunks -/

section

variable {ctx ctx' : Ctx} {filename : String} {c : ChunkHeader} {fuel : Nat}

theorem skip_skip (file : ByteFile) (m n : Nat) : (file.skip m).skip n = file.skip (m + n) := by
  unfold ByteFile.skip
  rw [Nat.add_assoc]

/-- A chunk that is neither format nor data is skipped. -/
theorem parseChunks_skip (hc : HeaderAt ctx.file.bytes ctx.file.pos c)
    (hle : ctx.file.pos + sizeofChunkHeader ≤ ctx.file.size) (hfmt : c.id ≠ idFmt) (hdata : c.id ≠ idData) :
    parseChunks filename (fuel + 1) ctx =
      parseChunks filename fuel { ctx with chunkHeader := c, file := ctx.file.skip c.skipped } := by
  subst hc
  conv_lhs => unfold parseChunks
  rw [ByteFile.read_of_le hle]
  dsimp only
  rw [if_neg hfmt, if_neg hdata, skip_skip]
  rfl

/-- Of a format the fields are read, and the rest is skipped. -/
theorem parseChunks_fmt (hc : HeaderAt ctx.file.bytes ctx.file.pos c)
    (hle : ctx.file.pos + sizeofChunkHeader + sizeofChunkFmt ≤ ctx.file.size) (hfmt : c.id = idFmt)
    (hsz : sizeofChunkFmt ≤ c.sz.toNat) :
    parseChunks filename (fuel + 1) ctx =
      parseChunks filename fuel { ctx with
        chunkHeader := c
        chunkFmt := .load ctx.file.bytes (ctx.file.pos + sizeofChunkHeader)
        file := ctx.file.skip c.skipped } := by
  subst hc
  conv_lhs => unfold parseChunks
  rw [ByteFile.read_of_le (Nat.le_of_add_right_le hle)]
  dsimp only
  rw [if_pos hfmt, ByteFile.read_of_le (f := ctx.file.skip sizeofChunkHeader) hle]
  dsimp only
  have hskipped : sizeofChunkHeader + sizeofChunkFmt +
      ((ChunkHeader.load ctx.file.bytes ctx.file.pos).sz.toNat - sizeofChunkFmt) =
      (ChunkHeader.load ctx.file.bytes ctx.file.pos).skipped := by
    unfold ChunkHeader.skipped
    omega
  rw [skip_skip, skip_skip, hskipped]
  split
  · rfl
  · rename_i hlarger
    rw [ChunkHeader.skipped, le_antisymm (not_lt.1 hlarger) hsz]
    rfl

/-- The header of the data ends the loop. -/
theorem parseChunks_data (hc : HeaderAt ctx.file.bytes ctx.file.pos c)
    (hle : ctx.file.pos + sizeofChunkHeader ≤ ctx.file.size) (hdata : c.id = idData) :
    parseChunks filename (fuel + 1) ctx =
      pure { ctx with chunkHeader := c, file := ctx.file.skip sizeofChunkHeader } := by
  subst hc
  unfold parseChunks
  rw [ByteFile.read_of_le hle]
  dsimp only
  rw [if_neg (by rw [hdata]; decide), if_pos hdata]

/-- The loop does not find data where there is no room for another header. -/
theorem parseChunks_end (hlt : ctx.file.size < ctx.file.pos + sizeofChunkHeader) :
    parseChunks filename (fuel + 1) ctx = throw (.noDataChunk filename) := by
  unfold parseChunks
  rcases ctx.file.read_cases sizeofChunkHeader with ⟨hle, -⟩ | ⟨-, f', hread⟩
  · exact absurd hle (not_le.2 hlt)
  · rw [hread]

/-- Where the loop ends well, it has come to the header of data. -/
theorem parseChunks_found : ∀ {fuel : Nat} {ctx : Ctx}, (parseChunks filename fuel ctx).run = some (.ok ctx') →
    ∃ p, ctx.file.pos ≤ p ∧ p + sizeofChunkHeader ≤ ctx.file.size ∧ load32 ctx.file.bytes p = idData ∧
      ctx'.file = ctx.file.seek (p + sizeofChunkHeader)
  | 0, _, hrun => by cases hrun
  | fuel + 1, ctx, hrun => by
    unfold parseChunks at hrun
    rcases ctx.file.read_cases sizeofChunkHeader with ⟨hle, hread⟩ | ⟨-, f', hread⟩ <;> rw [hread] at hrun <;>
      dsimp only at hrun
    case inr => cases hrun
    -- what is found from further on in the file is found from here
    have hnext : ∀ {next : Ctx}, (parseChunks filename fuel next).run = some (.ok ctx') →
        next.file.bytes = ctx.file.bytes → next.file.size = ctx.file.size → ctx.file.pos ≤ next.file.pos →
        ∃ p, ctx.file.pos ≤ p ∧ p + sizeofChunkHeader ≤ ctx.file.size ∧ load32 ctx.file.bytes p = idData ∧
          ctx'.file = ctx.file.seek (p + sizeofChunkHeader) := by
      intro next hrun hbytes hsize hpos
      obtain ⟨p, hp, hin, hdata, hfile⟩ := parseChunks_found hrun
      refine ⟨p, hpos.trans hp, hsize ▸ hin, hbytes ▸ hdata, ?_⟩
      rw [hfile, ByteFile.seek, ByteFile.seek, hbytes, hsize]
    split at hrun
    · rcases (ctx.file.skip sizeofChunkHeader).read_cases sizeofChunkFmt with ⟨-, hfmt⟩ | ⟨-, f', hfmt⟩ <;>
        rw [hfmt] at hrun <;> dsimp only at hrun
      case inr => cases hrun
      rw [skip_skip] at hrun
      split at hrun
      · rw [skip_skip] at hrun
        exact hnext hrun rfl rfl (Nat.le_add_right ..)
      · exact hnext hrun rfl rfl (Nat.le_add_right ..)
    split at hrun
    · rename_i hdata
      obtain rfl := Except.ok.inj (Option.some.inj hrun)
      exact ⟨ctx.file.pos, le_rfl, hle, hdata, rfl⟩
    · rw [skip_skip] at hrun
      exact hnext hrun rfl rfl (Nat.le_add_right ..)

end

/-! ## Over a layout -/

/-- A call of the loop that has come to `p`, with a format as `P` has it. -/
structure ComeTo (r : PlayM Ctx) (file : ByteFile) (filename : String) (P : ChunkFmt → Prop) (p fuel : Nat)
    (ctx : Ctx) :
    Prop where
  eq : r = parseChunks filename fuel ctx
  fuel : file.size - p < fuel
  file : ctx.file = file.seek p
  fmt : P ctx.chunkFmt

/-- The loop comes to `p`. -/
def Reaches (r : PlayM Ctx) (file : ByteFile) (filename : String) (P : ChunkFmt → Prop) (p : Nat) : Prop :=
  ∃ fuel ctx, ComeTo r file filename P p fuel ctx

/-- The format behind a chunk. -/
def formatBehind (m : Memory) (p : Nat) (c : ChunkHeader) (fmt : ChunkFmt) : ChunkFmt :=
  if c.id = idFmt then .load m (p + sizeofChunkHeader) else fmt

section

variable {r : PlayM Ctx} {file : ByteFile} {filename : String} {P Q : ChunkFmt → Prop} {c : ChunkHeader}
  {cs : List ChunkHeader} {p q : Nat}

theorem Reaches.mono (h : Reaches r file filename P p) (hpq : ∀ fmt, P fmt → Q fmt) : Reaches r file filename Q p := by
  obtain ⟨fuel, ctx, h⟩ := h
  exact ⟨fuel, ctx, h.eq, h.fuel, h.file, hpq _ h.fmt⟩

/-- From the start of a chunk without data the loop comes to the end of its body. -/
theorem Reaches.over (h : Reaches r file filename P p) (hc : HeaderAt file.bytes p c)
    (hle : p + sizeofChunkHeader ≤ file.size) (hdata : c.id ≠ idData)
    (hfmt : c.id = idFmt → sizeofChunkFmt ≤ c.sz.toNat ∧ p + c.skipped ≤ file.size) :
    Reaches r file filename (fun fmt => ∃ fmt', P fmt' ∧ fmt = formatBehind file.bytes p c fmt') (p + c.skipped) := by
  obtain ⟨fuel, ctx, h⟩ := h
  obtain ⟨fuel, rfl⟩ := Nat.exists_eq_add_one_of_ne_zero (Nat.ne_zero_of_lt h.fuel)
  obtain ⟨heq, hfuel, hfile, hP⟩ := h
  obtain ⟨wave, header, fmt, f, size⟩ := ctx
  dsimp only at hfile hP
  subst hfile
  have hskipped : c.skipped = sizeofChunkHeader + c.sz.toNat := rfl
  have hrest : file.size - (p + c.skipped) < fuel := by
    unfold sizeofChunkHeader at hskipped hle
    omega
  by_cases hid : c.id = idFmt
  · obtain ⟨hsz, hend⟩ := hfmt hid
    refine ⟨fuel, _, heq.trans (parseChunks_fmt hc ?_ hid hsz), hrest, rfl, ⟨fmt, hP, ?_⟩⟩
    · show p + sizeofChunkHeader + sizeofChunkFmt ≤ file.size
      omega
    · unfold formatBehind
      rw [if_pos hid]
      rfl
  · refine ⟨fuel, _, heq.trans (parseChunks_skip hc hle hid hdata), hrest, rfl, ⟨fmt, hP, ?_⟩⟩
    unfold formatBehind
    rw [if_neg hid]

theorem Reaches.ordinary (h : Reaches r file filename P p) (hc : HeaderAt file.bytes p c) (ho : c.Ordinary)
    (hle : p + c.skipped ≤ file.size) :
    Reaches r file filename (fun fmt => ∃ fmt', P fmt' ∧ fmt = formatBehind file.bytes p c fmt') (p + c.skipped) :=
  h.over hc ((Nat.add_le_add_left (Nat.le_add_right ..) p).trans hle) ho.not_data fun hid => ⟨ho.format hid, hle⟩

/-- Over chunks of even size the loop comes from the start of the first to the end of the last. -/
theorem Reaches.tiles (h : Reaches r file filename P p) (hlaid : Tiles (HeaderAt file.bytes) ChunkHeader.padded p cs q)
    (heven : ∀ c ∈ cs, Even c.sz.toNat) (ho : ∀ c ∈ cs, c.Ordinary) (hle : q ≤ file.size)
    (hkeep : ∀ p c fmt, c ∈ cs → P fmt → P (formatBehind file.bytes p c fmt)) : Reaches r file filename P q := by
  refine (tiles_skipped hlaid heven).invariant (I := Reaches r file filename P) (fun p c hc hat hend h => ?_) h
  refine (h.ordinary hat (ho c hc) (hend.trans hle)).mono ?_
  rintro _ ⟨fmt, hfmt, rfl⟩
  exact hkeep p c fmt hc hfmt

/-- Where only the last of the chunks may be odd, the loop comes to the end of its body. -/
theorem Reaches.tiles_last {last : ChunkHeader} (h : Reaches r file filename (fun _ => True) p)
    (hlaid : Tiles (HeaderAt file.bytes) ChunkHeader.padded p (cs ++ [last]) q) (heven : ∀ c ∈ cs, Even c.sz.toNat)
    (ho : ∀ c ∈ cs ++ [last], c.Ordinary) (hle : q ≤ file.size) :
    ∃ e, Reaches r file filename (fun _ => True) e ∧ e + last.sz.toNat % 2 = q := by
  obtain ⟨s, hcs, hlast⟩ := Tiles.append_iff.1 hlaid
  obtain - | ⟨hat, hnil⟩ := hlast
  obtain rfl := hnil.eq_of_nil
  have hend : s + last.skipped + last.sz.toNat % 2 = s + last.padded := Nat.add_assoc ..
  have hs : Reaches r file filename (fun _ => True) s :=
    h.tiles hcs heven (fun c hc => ho c (List.mem_append_left _ hc)) (by omega) fun _ _ _ _ _ => trivial
  refine ⟨s + last.skipped, ?_, hend⟩
  exact (hs.ordinary hat (ho last (List.mem_append_right _ List.mem_cons_self)) (by omega)).mono fun _ _ => trivial

/-- At the header of data the loop ends. -/
theorem Reaches.at_data (h : Reaches r file filename P p) (hc : HeaderAt file.bytes p c)
    (hle : p + sizeofChunkHeader ≤ file.size) (hdata : c.id = idData) :
    ∃ ctx, r.run = some (.ok ctx) ∧ P ctx.chunkFmt ∧ ctx.chunkHeader = c ∧
      ctx.file = file.seek (p + sizeofChunkHeader) := by
  obtain ⟨fuel, ctx, heq, hfuel, hfile, hP⟩ := h
  obtain ⟨fuel, rfl⟩ := Nat.exists_eq_add_one_of_ne_zero (Nat.ne_zero_of_lt hfuel)
  obtain ⟨wave, header, fmt, f, size⟩ := ctx
  dsimp only at hfile hP
  subst hfile heq
  rw [parseChunks_data hc hle hdata]
  exact ⟨_, rfl, hP, rfl, rfl⟩

/-- At the end of the file the loop fails. -/
theorem Reaches.at_end (h : Reaches r file filename P p) (hlt : file.size < p + sizeofChunkHeader) :
    ∃ e, r.run = some (.error e) := by
  obtain ⟨fuel, ctx, heq, hfuel, hfile, -⟩ := h
  obtain ⟨fuel, rfl⟩ := Nat.exists_eq_add_one_of_ne_zero (Nat.ne_zero_of_lt hfuel)
  rw [heq, parseChunks_end (by rw [hfile]; exact hlt)]
  exact ⟨_, rfl⟩

/-- The data that is found is not before where the loop has come to. -/
theorem Reaches.found {ctx : Ctx} (h : Reaches r file filename P p) (hrun : r.run = some (.ok ctx)) :
    p + sizeofChunkHeader ≤ ctx.file.pos := by
  obtain ⟨fuel, ctx, heq, -, hfile, -⟩ := h
  rw [heq] at hrun
  obtain ⟨d, hd, -, -, hend⟩ := parseChunks_found hrun
  rw [hfile] at hd
  rw [hend]
  exact Nat.add_le_add_right hd _

theorem toNat_load32 (m : Memory) (a : Nat) : (load32 m a).toNat = load m a 4 := by
  unfold load32
  exact UInt32.toNat_ofNat_of_lt' (load_lt m a 4)

/-- One byte before the header of data there is neither a format nor data, and a size of at least `'a'`. -/
theorem load32_before_data {m : Memory} (hdata : load32 m (p + 1) = idData) :
    load32 m p ≠ idFmt ∧ load32 m p ≠ idData ∧ 97 ≤ (load32 m (p + 4)).toNat := by
  have hload : load m (p + 1) 4 = 0x61746164 := by
    rw [← toNat_load32, hdata]
    rfl
  rw [← UInt32.toNat_inj.ne, ← UInt32.toNat_inj.ne, toNat_load32, toNat_load32]
  show _ ≠ 0x20746d66 ∧ _ ≠ 0x61746164 ∧ _
  have h0 := (m p).toNat_lt
  have h1 := (m (p + 1)).toNat_lt
  have h2 := (m (p + 2)).toNat_lt
  have h3 := (m (p + 3)).toNat_lt
  have h4 := (m (p + 4)).toNat_lt
  simp only [load, Nat.add_assoc, Nat.reduceAdd] at hload ⊢
  omega

/-- A byte before the data the loop is lost: what it finds is behind the data. -/
theorem Reaches.before_data (h : Reaches r file filename P p) (hdata : load32 file.bytes (p + 1) = idData)
    (hle : p + 1 + sizeofChunkHeader ≤ file.size) {ctx : Ctx} (hrun : r.run = some (.ok ctx)) :
    p + 1 + sizeofChunkHeader < ctx.file.pos := by
  obtain ⟨hfmt, hid, hsz⟩ := load32_before_data hdata
  have hover := h.over (c := .load file.bytes p) rfl (by omega) hid fun hfmt' => absurd hfmt' hfmt
  have hfound := hover.found hrun
  change p + (sizeofChunkHeader + (load32 file.bytes (p + 4)).toNat) + sizeofChunkHeader ≤ _ at hfound
  omega

end

/-! ## Files, parsed -/

section

variable {ctx : Ctx} {filename : String}

/-- Behind the header of a file the loop starts. -/
theorem reaches_start (ctx : Ctx) (filename : String) {file : ByteFile} (h : IsRiffWave file)
    (hsize : sizeofRiffWaveHeader ≤ file.size) :
    Reaches (parseWaveFile { ctx with file } filename) file filename (fun _ => True) sizeofRiffWaveHeader := by
  obtain ⟨hpos, hriff, hwave⟩ := h
  obtain ⟨bytes, size, pos⟩ := file
  dsimp only at hpos hriff hwave hsize
  subst hpos
  have hle : (⟨bytes, size, 0⟩ : ByteFile).pos + sizeofRiffWaveHeader ≤ size := (Nat.zero_add _).trans_le hsize
  unfold parseWaveFile
  rw [ByteFile.read_of_le hle]
  dsimp only
  have hheader : ¬((RiffWaveHeader.load bytes 0).riffId ≠ idRiff ∨ (RiffWaveHeader.load bytes 0).waveId ≠ idWave) :=
    not_or.2 ⟨not_not.2 hriff, not_not.2 hwave⟩
  rw [if_neg hheader]
  refine ⟨_, _, rfl, Nat.lt_succ_of_le (Nat.sub_le ..), ?_, trivial⟩
  unfold ByteFile.skip ByteFile.seek
  rw [Nat.zero_add]

namespace WaveFile

variable {w : WaveFile}

theorem ordinary_chunks : ∀ c ∈ w.chunks, c.Ordinary := w.ordinary

theorem dataAt_le : w.dataAt ≤ w.file.size := Nat.le_of_add_right_le w.inside

theorem reaches_start (w : WaveFile) (ctx : Ctx) (filename : String) :
    Reaches (parseWaveFile { ctx with file := w.file } filename) w.file filename (fun _ => True) sizeofRiffWaveHeader :=
  Tinyplay.reaches_start ctx filename w.header (w.chunks_laid.le.trans w.dataAt_le)

/-- A file with chunks of even size before the data is accepted. -/
theorem accepted (heven : ∀ c ∈ w.chunks, Even c.sz.toNat) : w.Accepted ctx filename := by
  have hbefore : ∀ c ∈ w.before, c ∈ w.chunks := fun c hc => List.mem_append_left _ hc
  have hfmt : w.fmt ∈ w.chunks := List.mem_append_right _ List.mem_cons_self
  have hbetween : ∀ c ∈ w.between, c ∈ w.chunks := fun c hc => List.mem_append_right _ (List.mem_cons_of_mem _ hc)
  have hfmtEnd : w.fmtAt + w.fmt.padded ≤ w.file.size := w.between_laid.le.trans w.dataAt_le
  have hskipped : w.fmt.skipped = w.fmt.padded := by
    unfold ChunkHeader.skipped ChunkHeader.padded
    rw [Nat.even_iff.1 (heven _ hfmt), Nat.add_zero]
  have hatFmt := (w.reaches_start ctx filename).tiles w.laid (fun c hc => heven c (hbefore c hc))
    (fun c hc => w.ordinary c (hbefore c hc)) (Nat.le_of_add_right_le hfmtEnd) fun _ _ _ _ _ => trivial
  have hbehind := hatFmt.ordinary w.fmt_laid (w.ordinary _ hfmt) (hskipped ▸ hfmtEnd)
  rw [hskipped] at hbehind
  -- from here on the format is the one that was read
  have hread := hbehind.mono (Q := (· = .load w.file.bytes (w.fmtAt + sizeofChunkHeader))) fun fmt => by
    rintro ⟨_, -, rfl⟩
    exact if_pos w.fmt_id
  have hatData := hread.tiles w.between_laid (fun c hc => heven c (hbetween c hc))
    (fun c hc => w.ordinary c (hbetween c hc)) w.dataAt_le fun p c fmt hc hfmt => (if_neg (w.last_fmt c hc)).trans hfmt
  obtain ⟨ctx', hrun, hload, hheader, hfile⟩ := hatData.at_data w.data_laid w.inside w.data_id
  exact ⟨ctx', hrun, hload, congrArg ChunkHeader.sz hheader, hfile⟩

/-- A file where the last chunk before the data has a pad byte is not. -/
theorem not_accepted {init : List ChunkHeader} {last : ChunkHeader} (hchunks : w.chunks = init ++ [last])
    (heven : ∀ c ∈ init, Even c.sz.toNat) (hodd : ¬Even last.sz.toNat) : ¬w.Accepted ctx filename := by
  rintro ⟨ctx', hrun, -, -, hfile⟩
  obtain ⟨e, hreach, hend⟩ := (w.reaches_start ctx filename).tiles_last (hchunks ▸ w.chunks_laid) heven
    (hchunks ▸ w.ordinary_chunks) w.dataAt_le
  rw [Nat.not_even_iff.1 hodd] at hend
  have hdata : load32 w.file.bytes (e + 1) = idData := by
    rw [hend, ← w.data_id, ← w.data_laid]
    rfl
  have hlt := hreach.before_data hdata (hend ▸ w.inside) hrun
  rw [hend, hfile] at hlt
  exact lt_irrefl _ hlt

end WaveFile

/-- A file of chunks without data is refused. -/
theorem DatalessFile.refused (d : DatalessFile) (heven : ∀ c ∈ d.chunks.dropLast, Even c.sz.toNat) :
    Refused d.file ctx filename := by
  have hstart := reaches_start ctx filename d.header d.laid.le
  obtain hnil | ⟨init, last, hchunks⟩ := List.eq_nil_or_concat' d.chunks
  · have hlaid := d.laid
    rw [hnil] at hlaid
    exact hstart.at_end (hlaid.eq_of_nil ▸ Nat.lt_add_of_pos_right (by decide))
  · rw [hchunks, List.dropLast_concat] at heven
    obtain ⟨e, hreach, hend⟩ := hstart.tiles_last (hchunks ▸ d.laid) heven
      (fun c hc => d.ordinary c (hchunks ▸ hc)) le_rfl
    refine hreach.at_end ?_
    unfold sizeofChunkHeader
    omega

/-- A file that has no header of data anywhere is refused, whatever it is. -/
theorem refused_of_no_data {file : ByteFile}
    (h : ∀ p, p + sizeofChunkHeader ≤ file.size → load32 file.bytes p ≠ idData) : Refused file ctx filename := by
  cases hrun : (parseWaveFile { ctx with file } filename).run with
  | none => exact absurd hrun (parseWaveFile_ends _ _)
  | some r =>
    cases r with
    | error e => exact ⟨e, hrun⟩
    | ok ctx' =>
      unfold parseWaveFile at hrun
      rcases file.read_cases sizeofRiffWaveHeader with ⟨-, hread⟩ | ⟨-, f', hread⟩ <;> rw [hread] at hrun <;>
        dsimp only at hrun
      case inr => cases hrun
      split at hrun
      · cases hrun
      · obtain ⟨p, -, hin, hdata, -⟩ := parseChunks_found hrun
        exact absurd hdata (h p hin)

end

/-! ## What is accepted -/

/-- A wave file is parsed as what it is where the chunks before its data have even sizes. Where the last of them
alone may be odd, this is exactly when it is. Files without data are refused, those of whole chunks as long as
no chunk but the last has a pad byte. -/
theorem parseWaveFile_accepts (ctx : Ctx) (filename : String) :
    (∀ w : WaveFile, (∀ c ∈ w.chunks, Even c.sz.toNat) → w.Accepted ctx filename) ∧
    (∀ w : WaveFile, (∀ c ∈ w.chunks.dropLast, Even c.sz.toNat) →
      (w.Accepted ctx filename ↔ ∀ c ∈ w.chunks, Even c.sz.toNat)) ∧
    (∀ d : DatalessFile, (∀ c ∈ d.chunks.dropLast, Even c.sz.toNat) → Refused d.file ctx filename) ∧
    ∀ file : ByteFile, (∀ p, p + sizeofChunkHeader ≤ file.size → load32 file.bytes p ≠ idData) →
      Refused file ctx filename := by
  refine ⟨fun w heven => w.accepted heven, fun w heven => ⟨fun hacc => ?_, w.accepted⟩, fun d heven => d.refused heven,
    fun file h => refused_of_no_data h⟩
  obtain hnil | ⟨init, last, hchunks⟩ := List.eq_nil_or_concat' w.chunks
  · rw [hnil]
    rintro c ⟨⟩
  · rw [hchunks, List.dropLast_concat] at heven
    rw [hchunks]
    intro c hc
    rcases List.mem_append.1 hc with hinit | hlast
    · exact heven c hinit
    · obtain rfl := List.mem_singleton.1 hlast
      by_contra hodd
      exact w.not_accepted hchunks heven hodd hacc

/-! ## Files with a list before the data -/

/-- A file of bytes. -/
def fileOf (bytes : List UInt8) : ByteFile where
  bytes := fun i => bytes.getD i 0
  size := bytes.length

/-- `RIFF` and a format chunk: two channels of 16 bits at 48 kHz. -/
def formatBytes : List UInt8 :=
  [82, 73, 70, 70, 46, 0, 0, 0, 87, 65, 86, 69, 102, 109, 116, 32, 16, 0, 0, 0, 1, 0, 2, 0, 128, 187, 0, 0,
    0, 238, 2, 0, 4, 0, 16, 0]

def idList : UInt32 := 0x5453494c

/-- A file with `LIST`, of one or of two bytes, between its format and its data. -/
def listFile (n : UInt8) : ByteFile :=
  fileOf (formatBytes ++ [76, 73, 83, 84, n, 0, 0, 0, 0, 0, 100, 97, 116, 97, 4, 0, 0, 0, 1, 2, 3, 4])

/-- The layout of the file, where the list with its pad byte has two bytes. -/
def listWave (n : UInt8) (hfmt : HeaderAt (listFile n).bytes 12 ⟨idFmt, 16⟩)
    (hlist : HeaderAt (listFile n).bytes 36 ⟨idList, n.toUInt32⟩) (hdata : HeaderAt (listFile n).bytes 46 ⟨idData, 4⟩)
    (hheader : IsRiffWave (listFile n)) (hpadded : (⟨idList, n.toUInt32⟩ : ChunkHeader).padded = 10) : WaveFile where
  file := listFile n
  before := []
  fmtAt := 12
  fmt := ⟨idFmt, 16⟩
  between := [⟨idList, n.toUInt32⟩]
  dataAt := 46
  data := ⟨idData, 4⟩
  header := hheader
  laid := .nil 12
  fmt_laid := hfmt
  between_laid := .cons hlist (by rw [hpadded]; exact .nil 46)
  data_laid := hdata
  inside := show 46 + sizeofChunkHeader ≤ 58 by decide
  fmt_id := rfl
  data_id := rfl
  ordinary := by
    rintro c (- | ⟨-, - | ⟨-, ⟨⟩⟩⟩)
    · exact ⟨by decide, fun _ => by decide⟩
    · exact ⟨show idList ≠ idData by decide, fun h => absurd h (show idList ≠ idFmt by decide)⟩
  last_fmt := by
    rintro c (- | ⟨-, ⟨⟩⟩)
    exact show idList ≠ idFmt by decide

def evenList : WaveFile := listWave 2 (by decide) (by decide) (by decide) ⟨rfl, by decide, by decide⟩ (by decide)

def oddList : WaveFile := listWave 1 (by decide) (by decide) (by decide) ⟨rfl, by decide, by decide⟩ (by decide)

/-- The file that ends behind its format. -/
def formatFile : DatalessFile where
  file := fileOf formatBytes
  chunks := [⟨idFmt, 16⟩]
  header := ⟨rfl, by decide, by decide⟩
  laid := .cons (by decide) (.nil 36)
  ordinary := by
    rintro c (- | ⟨-, ⟨⟩⟩)
    exact ⟨by decide, fun _ => by decide⟩

theorem parseWaveFile_accepts_list :
    evenList.Accepted {} "a.wav" ∧ (oddList.Accepted {} "a.wav" ↔ ∀ c ∈ oddList.chunks, Even c.sz.toNat) ∧
      Refused formatFile.file {} "a.wav" ∧ Refused {} {} "a.wav" := by
  obtain ⟨hacc, hiff, hdataless, hnone⟩ := parseWaveFile_accepts {} "a.wav"
  refine ⟨hacc evenList (by decide), hiff oddList (by decide), hdataless formatFile (by decide),
    hnone {} fun p hle => ?_⟩
  exact absurd hle (Nat.not_succ_le_zero _)

/-- The parser refuses a well-formed file, which has a list of one byte before its data. -/
theorem not_accepted_oddList :
    Refused oddList.file {} "a.wav" ∧ ¬∀ (w : WaveFile) (ctx : Ctx) (filename : String), w.Accepted ctx filename := by
  refine ⟨⟨.noDataChunk "a.wav", rfl⟩, fun h => ?_⟩
  have hchunks : oddList.chunks = [⟨idFmt, 16⟩] ++ [⟨idList, 1⟩] := rfl
  exact oddList.not_accepted hchunks (by decide) (by decide) (h oddList {} "a.wav")

-- a chunk behind the pad byte may bring the loop back to where a chunk starts
example : (parseWaveFile { file := fileOf (formatBytes ++ [76, 73, 83, 84, 1, 0, 0, 0, 0, 0, 97, 98, 99, 1, 0, 0, 0, 0,
    100, 97, 116, 97, 4, 0, 0, 0, 1, 2, 3, 4]) } "a.wav").run.map (·.toOption.map (·.file.pos)) = some (some 62) := by
  decide

end Tinyalsa.Tinyplay
