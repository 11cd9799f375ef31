/-
The loop of tinyplay (`play_sample`): which frames of the file the PCM gets, and whether the bytes that are reported
as played and as remaining are those of the data, whatever the reads and writes come to.
-/
import Tinyalsa.Pcm.Handle
import Tinyalsa.Utils.Tinyplay

namespace Tinyalsa.Tinyplay

/-! ## The loop -/

/-- What a round of the loop meets. -/
structure Round where
  /-- The bytes that `fread` gets, as far as it is asked for them and the file has them. -/
  got : Nat
  /-- The frames that the PCM accepts, as far as it is given them; also where the call fails then. -/
  accepted : Nat
  /-- `pcm_writei` returns an error. -/
  error : Bool := false
  /-- `close`, at the end of the round. -/
  close : Bool := false

/-- The variables of the loop. `accepted` are the places in the file of the frames that the PCM accepted; ghost. -/
structure PlayState where
  file : ByteFile
  remainingDataSize : UInt64
  playedDataSize : UInt64 := 0
  accepted : List Nat := []

/-- The bytes of a frame, as the conversions compute them: `channels * (pcm_format_to_bits(format) >> 3)`. -/
def frameSize (pcm : Pcm) : UInt32 := pcm.config.channels * (pcmFormatToBits pcm.config.format >>> 3)

/-- Frames in a row, from a place in the file. -/
def framesFrom (frameBytes place n : Nat) : List Nat := (List.range n).map fun i => place + i * frameBytes

section

variable (pcm : Pcm) (isStdinSource : Bool) (bufferSize : UInt64)

/-- A round of the loop, and `num_read`; or where a failed write ends the loop. What is read is at the start of the
buffer, and so are the frames that are written. -/
def playRound (r : Round) (st : PlayState) : Except PlayState (PlayState × Nat) :=
  let readSize := if st.remainingDataSize > bufferSize then bufferSize else st.remainingDataSize
  let numRead := min r.got (min readSize.toNat (st.file.size - st.file.pos))
  let file := st.file.skip numRead
  if numRead > 0 then
    let frames := pcmBytesToFrames pcm numRead.toUInt32
    let taken := min r.accepted frames.toNat
    let accepted := st.accepted ++ framesFrom (frameSize pcm).toNat st.file.pos taken
    let writtenFrames : Int := if r.error then -1 else taken
    if writtenFrames < 0 then .error { st with file, accepted }
    else
      let remainingDataSize :=
        if !isStdinSource then st.remainingDataSize - numRead.toUInt64 else st.remainingDataSize
      let playedDataSize := st.playedDataSize + (pcmFramesToBytes pcm taken.toUInt32).toUInt64
      .ok ({ file, remainingDataSize, playedDataSize, accepted }, numRead)
  else .ok ({ st with file }, numRead)

/-- The loop: how it ends, and the states in which its condition is met or not. -/
def playLoop : List Round → PlayState → PlayState × List PlayState
  | [], st => (st, [])
  | r :: rounds, st =>
    match playRound pcm isStdinSource bufferSize r st with
    | .error st => (st, [])
    | .ok (st, numRead) =>
      if !r.close && numRead > 0 && st.remainingDataSize > 0 then
        let (final, heads) := playLoop rounds st
        (final, st :: heads)
      else (st, [st])

/-- `play_sample`, for a PCM that there is: what it returns, how the loop ends and the states at its condition. The
buffer is allocated or not. -/
def playSample (ctx : Ctx) (alloc : Bool) (rounds : List Round) : Int × PlayState × List PlayState :=
  let st : PlayState :=
    { file := ctx.file, remainingDataSize := if isStdinSource then 0xFFFFFFFFFFFFFFFF else ctx.fileSize }
  let bufferSize := (pcmFramesToBytes pcm pcm.config.periodSize).toUInt64
  if !alloc then (-1, st, [])
  else (0, playLoop pcm isStdinSource bufferSize rounds st)

end

/-! ## What is to be played -/

/-- The bytes of the data that the file has. -/
def Ctx.dataBytes (ctx : Ctx) : Nat := min ctx.fileSize.toNat (ctx.file.size - ctx.file.pos)

section

variable (pcm : Pcm) (ctx : Ctx)

/-- The bytes that are played and those that remain are the data, but for a frame that the end of the data cuts. -/
def CountsData (st : PlayState) : Prop :=
  st.playedDataSize.toNat + st.remainingDataSize.toNat = ctx.fileSize.toNat ∨
    st.file.pos = ctx.file.pos + ctx.dataBytes ∧ 0 < ctx.dataBytes % (frameSize pcm).toNat ∧
      st.playedDataSize.toNat + st.remainingDataSize.toNat + ctx.dataBytes % (frameSize pcm).toNat =
        ctx.fileSize.toNat

/-- A run of the loop plays each frame of the data once. -/
structure PlaysOnce (run : PlayState × List PlayState) : Prop where
  /-- The frames that the PCM accepted are the first whole frames of the data. -/
  inOrder : ∃ n, n * (frameSize pcm).toNat ≤ ctx.dataBytes ∧
    run.1.accepted = framesFrom (frameSize pcm).toNat ctx.file.pos n
  counts : ∀ st ∈ run.2, CountsData pcm ctx st

/-- The bytes that a round reads, behind the first `place` bytes of the data. -/
def Round.reads (r : Round) (place : Nat) : Nat :=
  min r.got (min (min (ctx.fileSize.toNat - place) (pcmFramesToBytes pcm pcm.config.periodSize).toNat)
    (ctx.file.size - ctx.file.pos - place))

/-- Each round up to an error accepts the frames that it reads, and reads whole frames or up to the end of the data. -/
def TakesFrames : List Round → Nat → Prop
  | [], _ => True
  | r :: rounds, place =>
    let n := r.reads pcm ctx place
    n = 0 ∨ r.error = true ∨
      n / (frameSize pcm).toNat ≤ r.accepted ∧ ((frameSize pcm).toNat ∣ n ∨ place + n = ctx.dataBytes) ∧
        (r.close = false → place + n < ctx.fileSize.toNat → TakesFrames rounds (place + n))

end

/-! ## Frames and bytes -/

section

variable {pcm : Pcm}

theorem toNat_pcmBytesToFrames (bytes : UInt32) :
    (pcmBytesToFrames pcm bytes).toNat = bytes.toNat / (frameSize pcm).toNat := UInt32.toNat_div ..

theorem toNat_pcmFramesToBytes_of_lt {frames : UInt32} (h : frames.toNat * (frameSize pcm).toNat < 2 ^ 32) :
    (pcmFramesToBytes pcm frames).toNat = frames.toNat * (frameSize pcm).toNat := by
  unfold pcmFramesToBytes
  rw [UInt32.mul_assoc, UInt32.toNat_mul]
  exact Nat.mod_eq_of_lt h

theorem framesFrom_append (frameBytes place n k : Nat) :
    framesFrom frameBytes place n ++ framesFrom frameBytes (place + n * frameBytes) k =
      framesFrom frameBytes place (n + k) := by
  unfold framesFrom
  rw [List.range_add, List.map_append, List.map_map]
  congr 1
  refine List.map_congr_left fun i _ => ?_
  show place + n * frameBytes + i * frameBytes = place + (n + i) * frameBytes
  ring

end

/-! ## A round -/

/-- The loop is behind the first `place` bytes of the data. -/
structure Behind (ctx : Ctx) (place : Nat) (st : PlayState) : Prop where
  pos : st.file.pos = ctx.file.pos + place
  size : st.file.size = ctx.file.size
  remaining : st.remainingDataSize.toNat + place = ctx.fileSize.toNat
  le : place ≤ ctx.dataBytes

/-- What was read so far was played so far, frame by frame. -/
structure InStep (pcm : Pcm) (ctx : Ctx) (place : Nat) (st : PlayState) : Prop extends Behind ctx place st where
  played : st.playedDataSize.toNat = place
  frames : ∃ n, n * (frameSize pcm).toNat = place ∧
    st.accepted = framesFrom (frameSize pcm).toNat ctx.file.pos n

section

variable {pcm : Pcm} {ctx : Ctx} {place : Nat} {st : PlayState} {r : Round}

theorem reads_le (h : place ≤ ctx.dataBytes) : place + r.reads pcm ctx place ≤ ctx.dataBytes := by
  unfold Ctx.dataBytes at h ⊢
  unfold Round.reads
  omega

theorem reads_lt (r : Round) (place : Nat) : r.reads pcm ctx place < 2 ^ 32 := by
  have hlt := (pcmFramesToBytes pcm pcm.config.periodSize).toNat_lt
  unfold Round.reads
  omega

/-- At the end of the data there is nothing to read. -/
theorem reads_end : r.reads pcm ctx ctx.dataBytes = 0 := by
  unfold Round.reads Ctx.dataBytes
  omega

theorem Behind.numRead (h : Behind ctx place st) :
    let bufferSize := (pcmFramesToBytes pcm pcm.config.periodSize).toUInt64
    min r.got (min (if st.remainingDataSize > bufferSize then bufferSize else st.remainingDataSize).toNat
      (st.file.size - st.file.pos)) = r.reads pcm ctx place := by
  obtain ⟨hpos, hsize, hremaining, -⟩ := h
  intro bufferSize
  have hread : (if st.remainingDataSize > bufferSize then bufferSize else st.remainingDataSize).toNat =
      min (ctx.fileSize.toNat - place) (pcmFramesToBytes pcm pcm.config.periodSize).toNat := by
    rw [← UInt32.toNat_toUInt64 (pcmFramesToBytes pcm pcm.config.periodSize)]
    change _ = min _ bufferSize.toNat
    split
    · rename_i hgt
      rw [gt_iff_lt, UInt64.lt_iff_toNat_lt] at hgt
      omega
    · rename_i hle
      rw [gt_iff_lt, UInt64.lt_iff_toNat_lt] at hle
      omega
  unfold Round.reads
  rw [hread, hpos, hsize, Nat.sub_sub]

/-- A round that reads nothing changes nothing. -/
theorem playRound_nothing (h : Behind ctx place st) (hn : r.reads pcm ctx place = 0) :
    playRound pcm false (pcmFramesToBytes pcm pcm.config.periodSize).toUInt64 r st = .ok (st, 0) := by
  unfold playRound
  dsimp only
  rw [h.numRead, hn]
  rfl

/-- A round whose write fails. -/
theorem playRound_error (h : Behind ctx place st) (hn : 0 < r.reads pcm ctx place) (he : r.error = true) :
    ∃ st', playRound pcm false (pcmFramesToBytes pcm pcm.config.periodSize).toUInt64 r st = .error st' ∧
      st'.accepted = st.accepted ++ framesFrom (frameSize pcm).toNat (ctx.file.pos + place)
        (min r.accepted (r.reads pcm ctx place / (frameSize pcm).toNat)) := by
  have hread : (r.reads pcm ctx place).toUInt32.toNat = r.reads pcm ctx place :=
    UInt32.toNat_ofNat_of_lt' (reads_lt r place)
  unfold playRound
  dsimp only
  rw [h.numRead, if_pos hn, he, if_pos rfl, if_pos (by decide), h.pos, toNat_pcmBytesToFrames, hread]
  exact ⟨_, rfl, rfl⟩

/-- A round whose write does not fail: what was read is taken off, and what was accepted is added. -/
theorem playRound_ok (h : InStep pcm ctx place st) (hn : 0 < r.reads pcm ctx place) (he : r.error = false) :
    ∃ st', playRound pcm false (pcmFramesToBytes pcm pcm.config.periodSize).toUInt64 r st =
        .ok (st', r.reads pcm ctx place) ∧ Behind ctx (place + r.reads pcm ctx place) st' ∧
      st'.playedDataSize.toNat =
        place + min r.accepted (r.reads pcm ctx place / (frameSize pcm).toNat) * (frameSize pcm).toNat ∧
      st'.accepted = st.accepted ++ framesFrom (frameSize pcm).toNat (ctx.file.pos + place)
        (min r.accepted (r.reads pcm ctx place / (frameSize pcm).toNat)) := by
  have hlt : r.reads pcm ctx place < 2 ^ 32 := reads_lt r place
  have hle : place + r.reads pcm ctx place ≤ ctx.dataBytes := reads_le h.le
  have hdata : ctx.dataBytes ≤ ctx.fileSize.toNat := min_le_left ..
  have hsize := ctx.fileSize.toNat_lt
  have hnumRead := @Behind.numRead pcm _ _ _ r h.toBehind
  generalize r.reads pcm ctx place = n at *
  have hread : n.toUInt32.toNat = n := UInt32.toNat_ofNat_of_lt' hlt
  -- the frames that are taken are not more than were read
  have htaken : min r.accepted (n / (frameSize pcm).toNat) * (frameSize pcm).toNat ≤ n :=
    (Nat.mul_le_mul_right _ (min_le_right ..)).trans (Nat.div_mul_le_self ..)
  have htakenLt : min r.accepted (n / (frameSize pcm).toNat) < 2 ^ 32 :=
    ((min_le_right ..).trans (Nat.div_le_self ..)).trans_lt hlt
  have htakenNat : (min r.accepted (n / (frameSize pcm).toNat)).toUInt32.toNat =
      min r.accepted (n / (frameSize pcm).toNat) := UInt32.toNat_ofNat_of_lt' htakenLt
  unfold playRound
  dsimp only at hnumRead ⊢
  rw [hnumRead, if_pos hn, he, if_neg Bool.false_ne_true, if_neg (not_lt.2 (Int.natCast_nonneg _)), h.pos,
    toNat_pcmBytesToFrames, hread]
  refine ⟨_, rfl, ⟨?_, h.size, ?_, hle⟩, ?_, rfl⟩
  · show st.file.pos + n = _
    rw [h.pos, Nat.add_assoc]
  · have hremaining := h.remaining
    show (st.remainingDataSize - n.toUInt64).toNat + _ = _
    have hn64 : n.toUInt64.toNat = n := UInt64.toNat_ofNat_of_lt' (by change n < 2 ^ 64; omega)
    rw [UInt64.toNat_sub_of_le _ _ (by rw [UInt64.le_iff_toNat_le]; omega), hn64]
    omega
  · show (st.playedDataSize + _).toNat = _
    generalize min r.accepted (n / (frameSize pcm).toNat) = taken at *
    rw [UInt64.toNat_add, h.played, UInt32.toNat_toUInt64, toNat_pcmFramesToBytes_of_lt (by rw [htakenNat]; omega),
      htakenNat]
    exact Nat.mod_eq_of_lt (by omega)

end

/-! ## The run -/

section

variable {pcm : Pcm} {ctx : Ctx}

/-- Behind a round, the counters are right just when all frames were taken and only the end of the data cuts one. -/
theorem countsData_iff {place n accepted : Nat} {st : PlayState} (hf : 0 < (frameSize pcm).toNat)
    (hplace : (frameSize pcm).toNat ∣ place) (h : Behind ctx (place + n) st)
    (hplayed : st.playedDataSize.toNat = place + min accepted (n / (frameSize pcm).toNat) * (frameSize pcm).toNat) :
    CountsData pcm ctx st ↔
      n / (frameSize pcm).toNat ≤ accepted ∧ ((frameSize pcm).toNat ∣ n ∨ place + n = ctx.dataBytes) := by
  obtain ⟨hpos, -, hremaining, -⟩ := h
  unfold CountsData
  rw [hpos, hplayed, Nat.add_assoc, Nat.add_left_cancel_iff]
  generalize (frameSize pcm).toNat = f at *
  have hsplit : n / f * f + n % f = n := by
    rw [Nat.mul_comm]
    exact Nat.div_add_mod n f
  have hmod := Nat.mod_lt n hf
  have hdvd : f ∣ n ↔ n % f = 0 := Nat.dvd_iff_mod_eq_zero
  have hrest : place + n = ctx.dataBytes → ctx.dataBytes % f = n % f := by
    intro hend
    rw [← hend, Nat.add_mod, Nat.mod_eq_zero_of_dvd hplace, Nat.zero_add, Nat.mod_mod]
  rcases le_or_gt (n / f) accepted with hall | hshort
  · rw [min_eq_right hall, hdvd, and_iff_right hall]
    constructor
    · rintro (heq | ⟨hend, -, -⟩)
      · exact .inl (by omega)
      · exact .inr hend
    · intro hcut
      by_cases hzero : n % f = 0
      · exact .inl (by omega)
      · have hend := hcut.resolve_left hzero
        rw [hrest hend]
        exact .inr ⟨hend, Nat.pos_of_ne_zero hzero, by omega⟩
  · -- a frame that was not taken is missing
    have hmissing : (accepted + 1) * f ≤ n / f * f := Nat.mul_le_mul_right _ hshort
    rw [Nat.succ_mul] at hmissing
    rw [min_eq_left hshort.le]
    refine iff_of_false ?_ fun h => absurd h.1 (not_le.2 hshort)
    rintro (heq | ⟨hend, -, heq⟩)
    · omega
    · rw [hrest hend] at heq
      omega

/-- At the end of the data the loop ends, as it is. -/
theorem playLoop_end {st : PlayState} (h : Behind ctx ctx.dataBytes st) (rounds : List Round) :
    (playLoop pcm false (pcmFramesToBytes pcm pcm.config.periodSize).toUInt64 rounds st).1 = st ∧
      ∀ head ∈ (playLoop pcm false (pcmFramesToBytes pcm pcm.config.periodSize).toUInt64 rounds st).2, head = st := by
  cases rounds with
  | nil => exact ⟨rfl, fun _ hhead => (List.not_mem_nil hhead).elim⟩
  | cons r rounds =>
    unfold playLoop
    rw [playRound_nothing h reads_end]
    simp

theorem takesFrames_end (rounds : List Round) : TakesFrames pcm ctx rounds ctx.dataBytes := by
  cases rounds with
  | nil => trivial
  | cons r rounds => exact .inl reads_end

/-- A round that read something goes on unless the signal came or nothing remains. -/
theorem continues_iff {place n : Nat} {st : PlayState} (h : Behind ctx (place + n) st) (hn : 0 < n) (close : Bool) :
    (!close && decide (n > 0) && decide (st.remainingDataSize > 0)) = true ↔
      close = false ∧ place + n < ctx.fileSize.toNat := by
  have hremaining := h.remaining
  have hgt : st.remainingDataSize > 0 ↔ 0 < st.remainingDataSize.toNat := UInt64.lt_iff_toNat_lt
  simp only [Bool.and_eq_true, Bool.not_eq_true', decide_eq_true_eq, hgt]
  constructor
  · rintro ⟨⟨hclose, -⟩, hmore⟩
    exact ⟨hclose, by omega⟩
  · rintro ⟨hclose, hlt⟩
    exact ⟨⟨hclose, hn⟩, by omega⟩

theorem playsOnce_cons {st head : PlayState} {heads : List PlayState} :
    PlaysOnce pcm ctx (st, head :: heads) ↔ CountsData pcm ctx head ∧ PlaysOnce pcm ctx (st, heads) := by
  constructor
  · rintro ⟨horder, hcounts⟩
    obtain ⟨hhead, hheads⟩ := List.forall_mem_cons.1 hcounts
    exact ⟨hhead, horder, hheads⟩
  · rintro ⟨hhead, horder, hheads⟩
    exact ⟨horder, List.forall_mem_cons.2 ⟨hhead, hheads⟩⟩

/-- From where everything is in step, each frame is played once just when the rounds to come take their frames. -/
theorem playLoop_iff (hf : 0 < (frameSize pcm).toNat) : ∀ (rounds : List Round) (place : Nat) (st : PlayState),
    InStep pcm ctx place st →
    (PlaysOnce pcm ctx (playLoop pcm false (pcmFramesToBytes pcm pcm.config.periodSize).toUInt64 rounds st) ↔
      TakesFrames pcm ctx rounds place)
  | [], place, st, h => by
    obtain ⟨n, hn, haccepted⟩ := h.frames
    exact iff_of_true ⟨⟨n, hn ▸ h.le, haccepted⟩, fun _ hhead => (List.not_mem_nil hhead).elim⟩ trivial
  | r :: rounds, place, st, h => by
    obtain ⟨k, hk, haccepted⟩ := h.frames
    have hle : place + r.reads pcm ctx place ≤ ctx.dataBytes := reads_le h.le
    have hplace : (frameSize pcm).toNat ∣ place := ⟨k, by rw [← hk, Nat.mul_comm]⟩
    -- what is accepted follows the frames before it, whatever is accepted
    have hnext : st.accepted ++ framesFrom (frameSize pcm).toNat (ctx.file.pos + place)
        (min r.accepted (r.reads pcm ctx place / (frameSize pcm).toNat)) = framesFrom (frameSize pcm).toNat ctx.file.pos
          (k + min r.accepted (r.reads pcm ctx place / (frameSize pcm).toNat)) := by
      rw [haccepted, ← hk, framesFrom_append]
    have htaken : (k + min r.accepted (r.reads pcm ctx place / (frameSize pcm).toNat)) * (frameSize pcm).toNat ≤
        place + r.reads pcm ctx place := by
      rw [Nat.add_mul, hk]
      exact Nat.add_le_add_left ((Nat.mul_le_mul_right _ (min_le_right ..)).trans (Nat.div_mul_le_self ..)) _
    unfold TakesFrames playLoop
    dsimp only
    rcases Nat.eq_zero_or_pos (r.reads pcm ctx place) with hzero | hpos
    · -- nothing is read: the loop ends as it is
      rw [playRound_nothing h.toBehind hzero]
      refine iff_of_true ⟨⟨k, hk ▸ h.le, ?_⟩, ?_⟩ (.inl hzero)
      · simpa using haccepted
      · have hcounts : CountsData pcm ctx st := .inl (by rw [h.played, Nat.add_comm]; exact h.remaining)
        simpa using hcounts
    cases he : r.error
    · obtain ⟨st', hround, hbehind, hplayed, haccepted'⟩ := playRound_ok h hpos he
      have hcounts := countsData_iff hf hplace hbehind hplayed
      rw [hnext] at haccepted'
      rw [hround]
      dsimp only
      -- behind a round that took its frames everything is in step, or nothing is left
      have hrest (hall : r.reads pcm ctx place / (frameSize pcm).toNat ≤ r.accepted)
          (hcut : (frameSize pcm).toNat ∣ r.reads pcm ctx place ∨ place + r.reads pcm ctx place = ctx.dataBytes) :
          PlaysOnce pcm ctx (playLoop pcm false (pcmFramesToBytes pcm pcm.config.periodSize).toUInt64 rounds st') ↔
            TakesFrames pcm ctx rounds (place + r.reads pcm ctx place) := by
        by_cases hdvd : (frameSize pcm).toNat ∣ r.reads pcm ctx place
        · refine playLoop_iff hf rounds _ st' ⟨hbehind, ?_, _, ?_, haccepted'⟩
          · rw [hplayed, min_eq_right hall, Nat.div_mul_cancel hdvd]
          · rw [min_eq_right hall, Nat.add_mul, hk, Nat.div_mul_cancel hdvd]
        · have hend := hcut.resolve_left hdvd
          have hcounted := hcounts.2 ⟨hall, hcut⟩
          rw [hend] at hbehind ⊢
          obtain ⟨hfinal, hheads⟩ := @playLoop_end pcm _ _ hbehind rounds
          refine iff_of_true ⟨⟨_, htaken.trans hle, ?_⟩, fun head hhead => ?_⟩ (takesFrames_end rounds)
          · rw [hfinal]
            exact haccepted'
          · rw [hheads head hhead]
            exact hcounted
      by_cases hc : (!r.close && decide (r.reads pcm ctx place > 0) && decide (st'.remainingDataSize > 0)) = true
      · rw [if_pos hc, playsOnce_cons, hcounts]
        obtain ⟨hclose, hlt⟩ := (continues_iff hbehind hpos _).1 hc
        constructor
        · rintro ⟨⟨hall, hcut⟩, hplays⟩
          exact .inr (.inr ⟨hall, hcut, fun _ _ => (hrest hall hcut).1 hplays⟩)
        · rintro (hzero | herror | ⟨hall, hcut, hthen⟩)
          · omega
          · cases herror
          · exact ⟨⟨hall, hcut⟩, (hrest hall hcut).2 (hthen hclose hlt)⟩
      · rw [if_neg hc, playsOnce_cons, hcounts]
        constructor
        · rintro ⟨⟨hall, hcut⟩, -⟩
          exact .inr (.inr ⟨hall, hcut, fun hclose hlt => absurd ((continues_iff hbehind hpos _).2 ⟨hclose, hlt⟩) hc⟩)
        · rintro (hzero | herror | ⟨hall, hcut, -⟩)
          · omega
          · cases herror
          · exact ⟨⟨hall, hcut⟩, ⟨_, htaken.trans hle, haccepted'⟩, fun _ hhead => (List.not_mem_nil hhead).elim⟩
    · -- a failed write ends the loop
      obtain ⟨st', hround, haccepted'⟩ := playRound_error h.toBehind hpos he
      rw [hround]
      exact iff_of_true ⟨⟨_, htaken.trans hle, haccepted'.trans hnext⟩, fun _ hhead => (List.not_mem_nil hhead).elim⟩
        (.inr (.inl rfl))

/-- The frames of a file are played once each, in order, and the counters are right throughout, just when each round
takes the frames that it reads. -/
theorem playsOnce_iff (hf : 0 < (frameSize pcm).toNat) (alloc : Bool) (rounds : List Round) :
    PlaysOnce pcm ctx (playSample pcm false ctx alloc rounds).2 ↔ (alloc = true → TakesFrames pcm ctx rounds 0) := by
  have hstart : InStep pcm ctx 0 { file := ctx.file, remainingDataSize := ctx.fileSize } :=
    ⟨⟨rfl, rfl, rfl, Nat.zero_le _⟩, rfl, 0, Nat.zero_mul _, rfl⟩
  cases alloc
  · exact iff_of_true ⟨⟨0, by rw [Nat.zero_mul]; exact Nat.zero_le _, rfl⟩,
      fun _ hhead => (List.not_mem_nil hhead).elim⟩ fun h => absurd h Bool.false_ne_true
  · exact (playLoop_iff hf rounds 0 _ hstart).trans ⟨fun h _ => h, fun h => h rfl⟩

/-- Where a period's bytes fit, full reads and writes take all frames. -/
theorem takesFrames_of_full (hfit : pcm.config.periodSize.toNat * (frameSize pcm).toNat < 2 ^ 32) :
    ∀ (rounds : List Round) (place : Nat),
      (∀ r ∈ rounds, ctx.fileSize.toNat ≤ r.got ∧ ctx.fileSize.toNat ≤ r.accepted) → TakesFrames pcm ctx rounds place
  | [], _, _ => trivial
  | r :: rounds, place, hfull => by
    obtain ⟨hgot, haccepted⟩ := hfull r List.mem_cons_self
    have hbuffer := toNat_pcmFramesToBytes_of_lt hfit
    have hreads : r.reads pcm ctx place ≤ ctx.fileSize.toNat := by
      unfold Round.reads
      omega
    rcases Nat.eq_zero_or_pos (r.reads pcm ctx place) with hzero | hpos
    · exact .inl hzero
    refine .inr (.inr ⟨(Nat.div_le_self ..).trans (hreads.trans haccepted), ?_, fun _ _ =>
      takesFrames_of_full hfit rounds _ fun r' hr' => hfull r' (List.mem_cons_of_mem _ hr')⟩)
    -- a whole period, or what is left of the data
    unfold Round.reads at hpos hreads ⊢
    unfold Ctx.dataBytes
    rw [hbuffer] at hpos hreads ⊢
    by_cases hperiod : pcm.config.periodSize.toNat * (frameSize pcm).toNat ≤
        min (ctx.fileSize.toNat - place) (ctx.file.size - ctx.file.pos - place)
    · left
      refine ⟨pcm.config.periodSize.toNat, ?_⟩
      rw [Nat.mul_comm (frameSize pcm).toNat]
      omega
    · right
      omega

end

/-- 16-bit stereoPcm in periods of 4 frames. -/
def stereoPcm : Pcm where
  fd := 3
  flags := 0
  bufferSize := 16
  boundary := 0x4000000000000000
  config :=
    { channels := 2, rate := 48000, periodSize := 4, periodCount := 4, format := .s16Le, startThreshold := 4
      stopThreshold := 16, silenceThreshold := 16, silenceSize := 0, availMin := 4 }

/-- A file of 8 frames. -/
def eightFrames : Ctx where
  file := { size := 32 }
  fileSize := 32

/-- Two rounds that take a period each. -/
theorem playsOnce_stereo :
    PlaysOnce stereoPcm eightFrames
      (playSample stereoPcm false eightFrames true [⟨16, 4, false, false⟩, ⟨16, 4, false, false⟩]).2 :=
  (playsOnce_iff (by decide) true _).2 fun _ =>
    .inr (.inr ⟨by decide, by decide, fun _ _ => .inr (.inr ⟨by decide, by decide, fun _ _ => trivial⟩)⟩)

/-- Of the first period two frames are accepted, and the other two are never played. -/
theorem not_playsOnce_stereo :
    ¬ PlaysOnce stereoPcm eightFrames
      (playSample stereoPcm false eightFrames true [⟨16, 2, false, false⟩, ⟨16, 4, false, false⟩]).2 := by
  rintro ⟨⟨n, -, horder⟩, -⟩
  have haccepted : (playSample stereoPcm false eightFrames true
      [⟨16, 2, false, false⟩, ⟨16, 4, false, false⟩]).2.1.accepted = [0, 4, 16, 20, 24, 28] := by decide
  rw [haccepted] at horder
  have hlength : n = 6 := by
    have hlengths := congrArg List.length horder
    unfold framesFrom at hlengths
    rw [List.length_map, List.length_range] at hlengths
    exact hlengths.symm
  rw [hlength] at horder
  revert horder
  decide

end Tinyalsa.Tinyplay
