/-
tinyplay on a handle: `play_sample` with the writes of the library under its loop. What the device hears are
frames of the file, and all of its data where the device takes what it is given.
-/
import Tinyalsa.Pcm.Delivery
import Tinyalsa.Utils.PlaySample

namespace Tinyalsa.Tinyplay

open Hoare ByteMemory

/-! ## The loop -/

/-- What a round of the loop finds outside the handle: the bytes that `fread` gets, as far as it is asked for them and
the file has them; and `close`, at its end. -/
structure Feed where
  got : Nat
  close : Bool := false

/-- The round that a write makes by what it returns. -/
def Feed.round (f : Feed) (writtenFrames : Int) : Round :=
  { got := f.got, accepted := writtenFrames.toNat, error := writtenFrames < 0, close := f.close }

/-- `fread` of `n` bytes to the start of the buffer. -/
def freadBuffer (file : ByteFile) (n : Nat) (user : UserBuf) : UserBuf :=
  { user with byte := copy user.byte 0 file.bytes file.pos n }

/-- `buffer_size`. -/
def bufferBytes (pcm : Pcm) : UInt64 := (pcmFramesToBytes pcm pcm.config.periodSize).toUInt64

theorem bufferBytes_lt (pcm : Pcm) : (bufferBytes pcm).toNat < 2 ^ 32 := by
  unfold bufferBytes
  rw [UInt32.toNat_toUInt64]
  exact UInt32.toNat_lt _

/-- `num_read` in a round that `fread` gets `got` bytes in. -/
def numRead (bufferSize : UInt64) (got : Nat) (st : PlayState) : Nat :=
  let readSize := if st.remainingDataSize > bufferSize then bufferSize else st.remainingDataSize
  min got (min readSize.toNat (st.file.size - st.file.pos))

section

variable {σ : Type} (ops : PcmOps σ) (fuel : Nat)

/-- The write of a round. -/
def writeRead (numRead : Nat) : PcmM σ (Option Int) := do
  if numRead > 0 then pcmWritei ops fuel (pcmBytesToFrames (← get).pcm numRead.toUInt32) else return some 0

/-- The loop of `play_sample`: whether a failed write ends it, and how; `none` where it has not ended. -/
def playOn (isStdinSource : Bool) (bufferSize : UInt64) : List Feed → PlayState → PcmM σ (Option (Bool × PlayState))
  | [], _ => return none
  | f :: feeds, st => do
    modify fun w => { w with user := freadBuffer st.file (numRead bufferSize f.got st) w.user }
    match ← writeRead ops fuel (numRead bufferSize f.got st) with
    | none => return none
    | some writtenFrames =>
      match playRound (← get).pcm isStdinSource bufferSize (f.round writtenFrames) st with
      | .error st => return some (true, st)
      | .ok (st, numRead) =>
        if !f.close && numRead > 0 && st.remainingDataSize > 0 then playOn isStdinSource bufferSize feeds st
        else return some (false, st)

/-- `play_sample` up to what it prints, for a buffer that was allocated. -/
def playSampleOn (isStdinSource : Bool) (ctx : Ctx) (feeds : List Feed) : PcmM σ (Option (Bool × PlayState)) := do
  let bufferSize := bufferBytes (← get).pcm
  let remainingDataSize := if isStdinSource then 0xFFFFFFFFFFFFFFFF else ctx.fileSize
  match ← playOn ops fuel isStdinSource bufferSize feeds { file := ctx.file, remainingDataSize } with
  | none => return none
  | some played =>
    match ← pcmWait ops fuel (-1) with
    | none => return none
    | some _ => return some played

end

/-! ## What the device hears -/

/-- The bytes of a frame of the file. -/
def frameAt (bytes : Memory) (frameBytes place : Nat) : List UInt8 :=
  (List.range frameBytes).map fun i => bytes (place + i)

/-- The frames in a row are the bytes in a row. -/
theorem flatMap_framesFrom (bytes : Memory) (frameBytes place n : Nat) :
    (framesFrom frameBytes place n).flatMap (frameAt bytes frameBytes) =
      (List.range (n * frameBytes)).map fun i => bytes (place + i) := by
  induction n with
  | zero => rw [Nat.zero_mul]; rfl
  | succ n ih =>
    have hlast : framesFrom frameBytes (place + n * frameBytes) 1 = [place + n * frameBytes] := by simp [framesFrom]
    rw [← framesFrom_append, List.flatMap_append, ih, hlast, List.flatMap_singleton, Nat.succ_mul, List.range_add,
      List.map_append, List.map_map]
    congr 1
    refine List.map_congr_left fun i _ => ?_
    simp only [Function.comp_apply]
    rw [Nat.add_assoc]

section

variable {σ : Type} {ops : PcmOps σ} {frameBytes : Nat} {w₀ w : World (Heard σ)} {st : PlayState}

/-- The device has heard the frames that the loop counts as accepted. -/
structure Hears (frameBytes : Nat) (bytes : Memory) (w₀ : World (Heard σ)) (st : PlayState) (w : World (Heard σ)) :
    Prop where
  heard : w.dev.bytes = w₀.dev.bytes ++ st.accepted.flatMap (frameAt bytes frameBytes)
  flags : w.pcm.flags = w₀.pcm.flags
  config : w.pcm.config = w₀.pcm.config
  file : st.file.bytes = bytes

/-- `n` is what a write of `frames` may return. -/
structure Writes (ops : PcmOps σ) (frames : Nat) (n : Int) : Prop where
  le : n ≤ frames
  whole : MovesWhole ops → n < 0 ∨ n = frames

/-- The round depends on the configuration of the handle only. -/
theorem playRound_config {p p' : Pcm} (h : p.config = p'.config) (isStdinSource : Bool) (bufferSize : UInt64)
    (r : Round)
    (st : PlayState) : playRound p isStdinSource bufferSize r st = playRound p' isStdinSource bufferSize r st := by
  unfold playRound pcmBytesToFrames pcmFramesToBytes frameSize
  rw [h]

theorem bytes_freadBuffer (file : ByteFile) (user : UserBuf) {n k : Nat} (h : k ≤ n) :
    (freadBuffer file n user).bytes k = (List.range k).map fun i => file.bytes (file.pos + i) := by
  refine List.map_congr_left fun i hi => ?_
  have hlt : i < n := (List.mem_range.1 hi).trans_le h
  have hcopy := @copy_of_mem user.byte 0 file.bytes file.pos n i hlt
  rwa [Nat.zero_add] at hcopy

/-- The frames of a call are those at the start of what was read. -/
theorem writeRead_hears (hops : Transfers ops) (hrw : w₀.pcm.isMmap = false) (hout : w₀.pcm.isIn = false) (fuel : Nat)
    {bytes : Memory} {numRead : Nat} (hnum : numRead < 2 ^ 32) (user : UserBuf) :
    Triple (fun w => Hears (frameSize w₀.pcm).toNat bytes w₀ st w ∧ w.user = freadBuffer st.file numRead user)
      (writeRead (hearing (frameSize w₀.pcm).toNat ops) fuel numRead)
      fun res w => ∀ n, res = some n → Writes ops (numRead / (frameSize w₀.pcm).toNat) n ∧
        Hears (frameSize w₀.pcm).toNat bytes w₀
          { st with accepted := st.accepted ++ framesFrom (frameSize w₀.pcm).toNat st.file.pos n.toNat } w := by
  rintro w ⟨h, huser⟩
  unfold writeRead
  by_cases hpos : numRead > 0
  · rw [if_pos hpos]
    have hframes : (pcmBytesToFrames w.pcm numRead.toUInt32).toNat = numRead / (frameSize w₀.pcm).toNat := by
      have hsize : frameSize w.pcm = frameSize w₀.pcm := by unfold frameSize; rw [h.config]
      have hread : numRead.toUInt32.toNat = numRead := UInt32.toNat_ofNat_of_lt' hnum
      rw [toNat_pcmBytesToFrames, hsize, hread]
    have hisIn : w.pcm.isIn = false := by unfold Pcm.isIn at hout ⊢; rw [h.flags]; exact hout
    have hisMmap : w.pcm.isMmap = false := by unfold Pcm.isMmap at hrw ⊢; rw [h.flags]; exact hrw
    intro n hn
    have hreported := pcmWritei_moves hops hisMmap fuel (pcmBytesToFrames w.pcm numRead.toUInt32) w
      (.refl (frameSize w₀.pcm).toNat w)
    simp only [exec_bind, exec_get] at hn ⊢
    rw [hn] at hreported
    have hle : n ≤ (numRead / (frameSize w₀.pcm).toNat : Nat) := hframes ▸ hreported.le hops
    have hmoves := hreported.moves
    refine ⟨⟨hle, fun hwhole => ?_⟩, ?_, hmoves.flags.trans h.flags, hmoves.config.trans h.config, h.file⟩
    · rcases hreported.transfer with hneg | ⟨write, user, d, hret, heq⟩
      · exact .inl hneg
      · rw [hwhole write _ user d hret, hframes] at heq
        exact .inr (Option.some.inj heq)
    have htaken : n.toNat * (frameSize w₀.pcm).toNat ≤ numRead :=
      (Nat.mul_le_mul_right _ (by omega)).trans (Nat.div_mul_le_self ..)
    rw [hmoves.bytes, h.heard, hmoves.user hisIn, huser]
    simp only [Option.getD_some]
    rw [bytes_freadBuffer _ _ htaken, List.flatMap_append, flatMap_framesFrom, ← h.file, List.append_assoc]
  · rw [if_neg hpos]
    rintro _ ⟨⟩
    have hzero : numRead = 0 := Nat.eq_zero_of_not_pos hpos
    refine ⟨⟨Int.natCast_nonneg _, fun _ => .inr (by rw [hzero, Nat.zero_div]; rfl)⟩, ?_, h.flags, h.config, h.file⟩
    simpa [framesFrom] using h.heard

/-! ## A round -/

theorem numRead_le (bufferSize : UInt64) (got : Nat) (st : PlayState) :
    numRead bufferSize got st ≤ got ∧ numRead bufferSize got st ≤ bufferSize.toNat ∧
      numRead bufferSize got st ≤ st.remainingDataSize.toNat ∧
      numRead bufferSize got st ≤ st.file.size - st.file.pos := by
  unfold numRead
  dsimp only
  split
  · rename_i hgt
    have hlt := UInt64.lt_iff_toNat_lt.1 hgt
    omega
  · rename_i hle
    have hle := UInt64.le_iff_toNat_le.1 (UInt64.not_lt.1 hle)
    omega

/-- The frames that a round accepts follow those before it, from where the file stood. -/
theorem playRound_accepted {pcm : Pcm} {isStdinSource : Bool} {bufferSize : UInt64} {r : Round} {st' : PlayState}
    (hbuffer : bufferSize.toNat < 2 ^ 32)
    (h : playRound pcm isStdinSource bufferSize r st = .error st' ∨
      ∃ n, playRound pcm isStdinSource bufferSize r st = .ok (st', n)) :
    st'.accepted = st.accepted ++ framesFrom (frameSize pcm).toNat st.file.pos
        (min r.accepted (numRead bufferSize r.got st / (frameSize pcm).toNat)) ∧
      st'.file = st.file.skip (numRead bufferSize r.got st) := by
  have hlt : numRead bufferSize r.got st < 2 ^ 32 := (numRead_le ..).2.1.trans_lt hbuffer
  have hframes : (pcmBytesToFrames pcm (numRead bufferSize r.got st).toUInt32).toNat =
      numRead bufferSize r.got st / (frameSize pcm).toNat := by
    have hread : (numRead bufferSize r.got st).toUInt32.toNat = numRead bufferSize r.got st :=
      UInt32.toNat_ofNat_of_lt' hlt
    rw [toNat_pcmBytesToFrames, hread]
  rw [← hframes]
  by_cases hpos : numRead bufferSize r.got st > 0
  · unfold playRound at h
    unfold numRead at hpos ⊢
    dsimp only at h hpos ⊢
    rw [if_pos hpos] at h
    split at h <;> rcases h with h | ⟨n, h⟩ <;> cases h <;> exact ⟨rfl, rfl⟩
  · have hzero : numRead bufferSize r.got st = 0 := Nat.eq_zero_of_not_pos hpos
    have hnone : framesFrom (frameSize pcm).toNat st.file.pos (min r.accepted 0) = [] := by simp [framesFrom]
    have hround : playRound pcm isStdinSource bufferSize r st =
        .ok ({ st with file := st.file.skip (numRead bufferSize r.got st) }, numRead bufferSize r.got st) := by
      unfold playRound
      exact if_neg hpos
    rw [hround] at h
    rcases h with h | ⟨n, h⟩ <;> cases h
    rw [hframes, hzero, Nat.zero_div, hnone, List.append_nil]
    exact ⟨rfl, rfl⟩

/-- The rule of the loop: `K` holds where a round begins, and `E` where the loop ends. -/
theorem playOn_rule (hops : Transfers ops) (hrw : w₀.pcm.isMmap = false) (hout : w₀.pcm.isIn = false) (fuel : Nat)
    {bytes : Memory} {isStdinSource : Bool} {bufferSize : UInt64} (hbuffer : bufferSize.toNat < 2 ^ 32)
    {K : PlayState → Prop} {E : Bool → PlayState → Prop} {feeds : List Feed}
    (hround : ∀ f ∈ feeds, ∀ st n, K st → Writes ops (numRead bufferSize f.got st / (frameSize w₀.pcm).toNat) n →
      match playRound w₀.pcm isStdinSource bufferSize (f.round n) st with
      | .error st' => E true st'
      | .ok (st', numRead) =>
        if (!f.close && numRead > 0 && st'.remainingDataSize > 0) = true then K st' else E false st') :
    ∀ rest ⊆ feeds, ∀ st, Triple (fun w => K st ∧ Hears (frameSize w₀.pcm).toNat bytes w₀ st w)
      (playOn (hearing (frameSize w₀.pcm).toNat ops) fuel isStdinSource bufferSize rest st)
      fun res w => ∀ failed st', res = some (failed, st') →
        E failed st' ∧ Hears (frameSize w₀.pcm).toNat bytes w₀ st' w
  | [], _, _ => Triple.pure _ fun _ _ _ _ h => nomatch h
  | f :: rest, hsub, st => by
    have hlt : numRead bufferSize f.got st < 2 ^ 32 := (numRead_le ..).2.1.trans_lt hbuffer
    rintro w ⟨hk, hw⟩
    unfold playOn
    simp only [exec_bind, exec_modify]
    have hread : Hears (frameSize w₀.pcm).toNat bytes w₀ st
        { w with user := freadBuffer st.file (numRead bufferSize f.got st) w.user } :=
      ⟨hw.heard, hw.flags, hw.config, hw.file⟩
    have hwrite := writeRead_hears hops hrw hout fuel hlt w.user _ ⟨hread, rfl⟩
    revert hwrite
    generalize exec (writeRead _ _ _) _ = run
    obtain ⟨res, w'⟩ := run
    rintro hwrite
    cases res with
    | none => rintro _ _ ⟨⟩
    | some n =>
      obtain ⟨hwrites, hheard⟩ := hwrite n rfl
      have hr := hround f (hsub List.mem_cons_self) st n hk hwrites
      simp only [exec_bind, exec_get]
      rw [playRound_config hheard.config]
      -- what the device has heard, in the state behind the round
      have hafter : ∀ st', (playRound w₀.pcm isStdinSource bufferSize (f.round n) st = .error st' ∨
          ∃ m, playRound w₀.pcm isStdinSource bufferSize (f.round n) st = .ok (st', m)) →
          Hears (frameSize w₀.pcm).toNat bytes w₀ st' w' := by
        intro st' h
        obtain ⟨haccepted, hfile⟩ := playRound_accepted hbuffer h
        have hmin : min n.toNat (numRead bufferSize f.got st / (frameSize w₀.pcm).toNat) = n.toNat :=
          min_eq_left (Int.toNat_le.2 hwrites.le)
        refine ⟨?_, hheard.flags, hheard.config, by rw [hfile]; exact hw.file⟩
        rw [haccepted]
        show w'.dev.bytes = _ ++ List.flatMap _ (_ ++ framesFrom _ _ (min n.toNat _))
        rw [show (f.round n).got = f.got from rfl, hmin]
        exact hheard.heard
      change ∀ failed st', (exec (match playRound w₀.pcm isStdinSource bufferSize (f.round n) st with
        | .error st => _
        | .ok (st, numRead) => _) w').1 = _ → _
      cases hround' : playRound w₀.pcm isStdinSource bufferSize (f.round n) st with
      | error st' =>
        rw [hround'] at hr
        rintro _ _ ⟨⟩
        exact ⟨hr, hafter st' (.inl hround')⟩
      | ok result =>
        obtain ⟨st', m⟩ := result
        rw [hround'] at hr
        dsimp only at hr ⊢
        by_cases hc : (!f.close && decide (m > 0) && decide (st'.remainingDataSize > 0)) = true
        · rw [if_pos hc] at hr ⊢
          exact playOn_rule hops hrw hout fuel hbuffer hround rest (fun _ h => hsub (List.mem_cons_of_mem _ h)) st' w'
            ⟨hr, hafter st' (.inr ⟨m, hround'⟩)⟩
        · rw [if_neg hc] at hr ⊢
          rintro _ _ ⟨⟩
          exact ⟨hr, hafter st' (.inr ⟨m, hround'⟩)⟩

theorem playSampleOn_rule (hops : Transfers ops) (hrw : w₀.pcm.isMmap = false) (hout : w₀.pcm.isIn = false) (fuel : Nat)
    {ctx : Ctx} {feeds : List Feed} {K : PlayState → Prop} {E : Bool → PlayState → Prop}
    (hstart : K { file := ctx.file, remainingDataSize := ctx.fileSize })
    (hround : ∀ f ∈ feeds, ∀ st n, K st →
      Writes ops (numRead (bufferBytes w₀.pcm) f.got st / (frameSize w₀.pcm).toNat) n →
      match playRound w₀.pcm false (bufferBytes w₀.pcm) (f.round n) st with
      | .error st' => E true st'
      | .ok (st', numRead) =>
        if (!f.close && numRead > 0 && st'.remainingDataSize > 0) = true then K st' else E false st')
    {failed : Bool} {st : PlayState}
    (hrun : (exec (playSampleOn (hearing (frameSize w₀.pcm).toNat ops) fuel false ctx feeds) w₀).1 =
      some (failed, st)) :
    E failed st ∧ (exec (playSampleOn (hearing (frameSize w₀.pcm).toNat ops) fuel false ctx feeds) w₀).2.dev.bytes =
      w₀.dev.bytes ++ st.accepted.flatMap (frameAt ctx.file.bytes (frameSize w₀.pcm).toNat) := by
  have hbuffer := bufferBytes_lt w₀.pcm
  have hheard : Hears (frameSize w₀.pcm).toNat ctx.file.bytes w₀
      { file := ctx.file, remainingDataSize := ctx.fileSize } w₀ := ⟨by simp, rfl, rfl, rfl⟩
  have hloop := playOn_rule hops hrw hout fuel hbuffer hround feeds (List.Subset.refl _) _ w₀ ⟨hstart, hheard⟩
  unfold playSampleOn at hrun ⊢
  simp only [exec_bind, exec_get, Bool.false_eq_true, if_false] at hrun ⊢
  revert hrun hloop
  generalize exec (playOn _ _ _ _ _ _) _ = run
  obtain ⟨res, w'⟩ := run
  intro hloop hrun
  cases res with
  | none => cases hrun
  | some played =>
    have hwait := (moves_wait (frameSize w₀.pcm).toNat ops w' 0).pcmWait (-1) fuel w' (.refl _ w')
    simp only [exec_bind] at hrun ⊢
    revert hwait hrun
    generalize exec (pcmWait _ _ _) _ = waited
    obtain ⟨res, w''⟩ := waited
    intro hwait hrun
    cases res with
    | none => cases hrun
    | some _ =>
      cases hrun
      obtain ⟨hend, hheard⟩ := hloop failed st rfl
      refine ⟨hend, ?_⟩
      have hbytes := hwait.bytes
      rw [Nat.zero_mul, UserBuf.bytes_zero, List.append_nil] at hbytes
      exact hbytes.trans hheard.heard

/-! ## Any device -/

/-- Places of frames that follow one another between `first` and `last`. -/
structure InOrder (frameBytes first last : Nat) (places : List Nat) : Prop where
  ordered : places.Pairwise fun p q => p + frameBytes ≤ q
  inside : ∀ p ∈ places, first ≤ p ∧ p + frameBytes ≤ last

theorem InOrder.mono {frameBytes first last last' : Nat} {places : List Nat} (h : InOrder frameBytes first last places)
    (hle : last ≤ last') : InOrder frameBytes first last' places :=
  ⟨h.ordered, fun p hp => ⟨(h.inside p hp).1, (h.inside p hp).2.trans hle⟩⟩

theorem InOrder.append {frameBytes first last n k : Nat} {places : List Nat} (h : InOrder frameBytes first last places)
    (hlast : first ≤ last) (hk : k * frameBytes ≤ n) :
    InOrder frameBytes first (last + n) (places ++ framesFrom frameBytes last k) := by
  have hnew : ∀ q ∈ framesFrom frameBytes last k, last ≤ q ∧ q + frameBytes ≤ last + n := by
    intro q hq
    obtain ⟨i, hi, rfl⟩ := List.mem_map.1 hq
    have hle : (i + 1) * frameBytes ≤ k * frameBytes := Nat.mul_le_mul_right _ (List.mem_range.1 hi)
    rw [Nat.succ_mul] at hle
    omega
  refine ⟨List.pairwise_append.2 ⟨h.ordered, ?_, fun p hp q hq => (h.inside p hp).2.trans (hnew q hq).1⟩,
    fun p hp => ?_⟩
  · refine List.pairwise_map.2 (List.pairwise_lt_range.imp fun {i j} hij => ?_)
    have hle : (i + 1) * frameBytes ≤ j * frameBytes := Nat.mul_le_mul_right _ hij
    rw [Nat.succ_mul] at hle
    omega
  · rcases List.mem_append.1 hp with hp | hp
    · have := h.inside p hp
      omega
    · have := hnew p hp
      omega

/-- What a round has read is taken off what remains of a file. -/
theorem playRound_remaining {pcm : Pcm} {bufferSize : UInt64} {r : Round} {st' : PlayState} {n : Nat}
    (h : playRound pcm false bufferSize r st = .ok (st', n)) :
    n = numRead bufferSize r.got st ∧ st'.remainingDataSize.toNat + n = st.remainingDataSize.toNat := by
  obtain ⟨-, -, hle, -⟩ := numRead_le bufferSize r.got st
  by_cases hpos : numRead bufferSize r.got st > 0
  · have hround : ∃ file played accepted, playRound pcm false bufferSize r st =
        (if (if r.error then (-1 : Int) else (min r.accepted
            (pcmBytesToFrames pcm (numRead bufferSize r.got st).toUInt32).toNat : Nat)) < 0
          then .error { st with file, accepted }
          else .ok (⟨file, st.remainingDataSize - (numRead bufferSize r.got st).toUInt64, played, accepted⟩,
            numRead bufferSize r.got st)) := by
      unfold playRound
      exact ⟨_, _, _, if_pos hpos⟩
    obtain ⟨file, played, accepted, hround⟩ := hround
    rw [hround] at h
    split at h
    · cases h
    · cases h
      have hsize := st.remainingDataSize.toNat_lt
      have hn64 : (numRead bufferSize r.got st).toUInt64.toNat = numRead bufferSize r.got st :=
        UInt64.toNat_ofNat_of_lt' (by change _ < 2 ^ 64; omega)
      refine ⟨rfl, ?_⟩
      show (st.remainingDataSize - _).toNat + _ = _
      rw [UInt64.toNat_sub_of_le _ _ (by rw [UInt64.le_iff_toNat_le]; omega), hn64]
      omega
  · have hround : playRound pcm false bufferSize r st =
        .ok ({ st with file := st.file.skip (numRead bufferSize r.got st) }, numRead bufferSize r.got st) := by
      unfold playRound
      exact if_neg hpos
    rw [hround] at h
    cases h
    exact ⟨rfl, by show st.remainingDataSize.toNat + _ = _; omega⟩

/-- Whatever the device takes and the file gives: what the device hears are whole frames of the data, each at most once
and in their order. -/
theorem playSampleOn_frames (hops : Transfers ops) (hrw : w₀.pcm.isMmap = false) (hout : w₀.pcm.isIn = false)
    (fuel : Nat) {ctx : Ctx} {feeds : List Feed} {failed : Bool} {st : PlayState}
    (hrun : (exec (playSampleOn (hearing (frameSize w₀.pcm).toNat ops) fuel false ctx feeds) w₀).1 =
      some (failed, st)) :
    InOrder (frameSize w₀.pcm).toNat ctx.file.pos (ctx.file.pos + ctx.dataBytes) st.accepted ∧
      (exec (playSampleOn (hearing (frameSize w₀.pcm).toNat ops) fuel false ctx feeds) w₀).2.dev.bytes =
        w₀.dev.bytes ++ st.accepted.flatMap (frameAt ctx.file.bytes (frameSize w₀.pcm).toNat) := by
  refine playSampleOn_rule (K := fun st => ∃ place, Behind ctx place st ∧
      InOrder (frameSize w₀.pcm).toNat ctx.file.pos (ctx.file.pos + place) st.accepted)
    (E := fun _ st => InOrder (frameSize w₀.pcm).toNat ctx.file.pos (ctx.file.pos + ctx.dataBytes) st.accepted)
    hops hrw hout fuel ⟨0, ⟨rfl, rfl, rfl, Nat.zero_le _⟩, .nil, fun _ h => (List.not_mem_nil h).elim⟩ ?_ hrun
  rintro f - st n ⟨place, hbehind, horder⟩ -
  obtain ⟨hpos, hsize, hremaining, hle⟩ := hbehind
  have hbuffer := bufferBytes_lt w₀.pcm
  obtain ⟨-, -, hmR, hmS⟩ := numRead_le (bufferBytes w₀.pcm) f.got st
  have hrest : place + numRead (bufferBytes w₀.pcm) f.got st ≤ ctx.dataBytes := by
    unfold Ctx.dataBytes at hle ⊢
    omega
  -- the frames that are accepted lie in what was read
  have hnext : ∀ {st'}, (playRound w₀.pcm false (bufferBytes w₀.pcm) (f.round n) st = .error st' ∨
      ∃ m, playRound w₀.pcm false (bufferBytes w₀.pcm) (f.round n) st = .ok (st', m)) →
      InOrder (frameSize w₀.pcm).toNat ctx.file.pos
        (ctx.file.pos + (place + numRead (bufferBytes w₀.pcm) f.got st))
        st'.accepted := by
    intro st' h
    obtain ⟨haccepted, -⟩ := playRound_accepted hbuffer h
    rw [haccepted, hpos, ← Nat.add_assoc]
    exact horder.append (Nat.le_add_right ..) ((Nat.mul_le_mul_right _ (min_le_right ..)).trans
      (Nat.div_mul_le_self ..))
  cases hround : playRound w₀.pcm false (bufferBytes w₀.pcm) (f.round n) st with
  | error st' => exact (hnext (.inl hround)).mono (Nat.add_le_add_left hrest _)
  | ok result =>
    obtain ⟨st', m⟩ := result
    obtain ⟨rfl, hremaining'⟩ := playRound_remaining hround
    obtain ⟨-, hfile⟩ := playRound_accepted hbuffer (.inr ⟨_, hround⟩)
    have horder' := hnext (.inr ⟨_, hround⟩)
    dsimp only
    split
    · refine ⟨_, ⟨?_, ?_, ?_, hrest⟩, horder'⟩
      · rw [hfile, ByteFile.skip_pos, hpos, Nat.add_assoc]
        rfl
      · rw [hfile, ByteFile.skip_size, hsize]
      · change st'.remainingDataSize.toNat + numRead _ f.got st = _ at hremaining'
        omega
    · exact horder'.mono (Nat.add_le_add_left hrest _)

/-! ## A device that takes what it is given -/

/-- The first `n` frames of the data were accepted. -/
def Accepted (p : Pcm) (ctx : Ctx) (n : Nat) (st : PlayState) : Prop :=
  n * (frameSize p).toNat ≤ ctx.dataBytes ∧ st.accepted = framesFrom (frameSize p).toNat ctx.file.pos n

/-- Between the rounds: everything read was played, or the end of the data cut the last frame. -/
inductive Playing (p : Pcm) (ctx : Ctx) (st : PlayState) : Prop
  | inStep {place : Nat} (h : InStep p ctx place st)
  | cut (behind : Behind ctx ctx.dataBytes st) (accepted : Accepted p ctx (ctx.dataBytes / (frameSize p).toNat) st)

/-- The end of the loop: a failed write, a signal, or all of the data was accepted. -/
def PlayEnds (p : Pcm) (ctx : Ctx) (feeds : List Feed) (failed : Bool) (st : PlayState) : Prop :=
  ∃ n, Accepted p ctx n st ∧
    (failed = false → (∀ f ∈ feeds, f.close = false) → n = ctx.dataBytes / (frameSize p).toNat)

/-- A full read gets a whole period, or what is left of the data. -/
theorem reads_full {p : Pcm} {ctx : Ctx} {r : Round} {place : Nat}
    (hfit : p.config.periodSize.toNat * (frameSize p).toNat < 2 ^ 32)
    (hgot : ctx.fileSize.toNat ≤ r.got) (hle : place ≤ ctx.dataBytes) :
    r.reads p ctx place = min (p.config.periodSize.toNat * (frameSize p).toNat) (ctx.dataBytes - place) := by
  unfold Round.reads Ctx.dataBytes at *
  rw [toNat_pcmFramesToBytes_of_lt hfit]
  omega

/-- A round on a device that takes what it is given. -/
theorem playRound_takes (hf : 0 < (frameSize w₀.pcm).toNat) (hperiod : 0 < w₀.pcm.config.periodSize.toNat)
    (hfit : w₀.pcm.config.periodSize.toNat * (frameSize w₀.pcm).toNat < 2 ^ 32) {ctx : Ctx}
    {feeds : List Feed} {f : Feed}
    (hfeed : f ∈ feeds) (hgot : ctx.fileSize.toNat ≤ f.got) (hplaying : Playing w₀.pcm ctx st) {n : Int}
    (hn : n < 0 ∨ n = (numRead (bufferBytes w₀.pcm) f.got st / (frameSize w₀.pcm).toNat : Nat)) :
    match playRound w₀.pcm false (bufferBytes w₀.pcm) (f.round n) st with
    | .error st' => PlayEnds w₀.pcm ctx feeds true st'
    | .ok (st', numRead) =>
      if (!f.close && numRead > 0 && st'.remainingDataSize > 0) = true then Playing w₀.pcm ctx st'
      else PlayEnds w₀.pcm ctx feeds false st' := by
  cases hplaying with
  | cut hbehind haccepted =>
    have hround := @playRound_nothing w₀.pcm _ _ _ (f.round n) hbehind reads_end
    unfold bufferBytes
    rw [hround]
    have hstop : (!f.close && decide (0 > 0) && decide (st.remainingDataSize > 0)) = false := by simp
    dsimp only
    rw [if_neg (by rw [hstop]; exact Bool.false_ne_true)]
    exact ⟨_, haccepted, fun _ _ => rfl⟩
  | @inStep place h =>
    obtain ⟨k, hk, haccepted⟩ := h.frames
    have hreads := reads_full (r := f.round n) hfit hgot h.le
    have hnum : numRead (bufferBytes w₀.pcm) f.got st = (f.round n).reads w₀.pcm ctx place :=
      @Behind.numRead w₀.pcm _ _ _ (f.round n) h.toBehind
    have hle : place + (f.round n).reads w₀.pcm ctx place ≤ ctx.dataBytes := reads_le h.le
    rw [hnum] at hn
    have hk' : k * (frameSize w₀.pcm).toNat ≤ ctx.dataBytes := hk ▸ h.le
    rcases Nat.eq_zero_or_pos ((f.round n).reads w₀.pcm ctx place) with hzero | hpos
    · -- nothing is left to read
      have hround := @playRound_nothing w₀.pcm _ _ _ (f.round n) h.toBehind hzero
      have hplace : place = ctx.dataBytes := by
        have := Nat.mul_pos hperiod hf
        have := h.le
        omega
      unfold bufferBytes
      rw [hround]
      have hstop : (!f.close && decide (0 > 0) && decide (st.remainingDataSize > 0)) = false := by simp
      dsimp only
      rw [if_neg (by rw [hstop]; exact Bool.false_ne_true)]
      exact ⟨k, ⟨hk', haccepted⟩, fun _ _ => by rw [← hplace, ← hk, Nat.mul_div_cancel _ hf]⟩
    rcases hn with hneg | hall
    · -- the write fails
      obtain ⟨st', hround, haccepted'⟩ := @playRound_error w₀.pcm _ _ _ (f.round n) h.toBehind hpos
        (decide_eq_true hneg)
      have hnone : (f.round n).accepted = 0 := Int.toNat_of_nonpos hneg.le
      unfold bufferBytes
      rw [hround]
      refine ⟨k, ⟨hk', ?_⟩, nofun⟩
      rw [haccepted', haccepted, hnone, Nat.zero_min]
      simp [framesFrom]
    · obtain ⟨st', hround, hbehind, hplayed, haccepted'⟩ := @playRound_ok w₀.pcm _ _ _ (f.round n) h hpos
        (decide_eq_false (not_lt.2 (hall ▸ Int.natCast_nonneg _)))
      have htaken : min (f.round n).accepted ((f.round n).reads w₀.pcm ctx place / (frameSize w₀.pcm).toNat) =
          (f.round n).reads w₀.pcm ctx place / (frameSize w₀.pcm).toNat :=
        min_eq_right (congrArg Int.toNat hall).ge
      rw [htaken] at hplayed haccepted'
      have hfrom : ctx.file.pos + place = ctx.file.pos + k * (frameSize w₀.pcm).toNat := by rw [hk]
      rw [haccepted, hfrom, framesFrom_append] at haccepted'
      have hnext : (k + (f.round n).reads w₀.pcm ctx place / (frameSize w₀.pcm).toNat) * (frameSize w₀.pcm).toNat ≤
          place + (f.round n).reads w₀.pcm ctx place := by
        rw [Nat.add_mul, hk]
        exact Nat.add_le_add_left (Nat.div_mul_le_self ..) _
      have hwhole : place + (f.round n).reads w₀.pcm ctx place = ctx.dataBytes →
          k + (f.round n).reads w₀.pcm ctx place / (frameSize w₀.pcm).toNat =
            ctx.dataBytes / (frameSize w₀.pcm).toNat := by
        have hdiv : ∀ m, (place + m) / (frameSize w₀.pcm).toNat = k + m / (frameSize w₀.pcm).toNat := by
          intro m
          rw [← hk, Nat.mul_comm k, Nat.mul_add_div hf]
        intro hend
        rw [← hend, hdiv]
      unfold bufferBytes
      rw [hround]
      dsimp only
      by_cases hc : (!f.close && decide ((f.round n).reads w₀.pcm ctx place > 0) &&
          decide (st'.remainingDataSize > 0)) = true
      · rw [if_pos hc]
        by_cases hdvd : (frameSize w₀.pcm).toNat ∣ (f.round n).reads w₀.pcm ctx place
        · refine .inStep ⟨hbehind, ?_, _, ?_, haccepted'⟩
          · rw [hplayed, Nat.div_mul_cancel hdvd]
          · rw [Nat.add_mul, hk, Nat.div_mul_cancel hdvd]
        · -- less than a period was read: the data is at its end
          have hend : place + (f.round n).reads w₀.pcm ctx place = ctx.dataBytes := by
            have hne : (f.round n).reads w₀.pcm ctx place ≠ w₀.pcm.config.periodSize.toNat * (frameSize w₀.pcm).toNat :=
              fun heq => hdvd ⟨_, by rw [heq, Nat.mul_comm]⟩
            omega
          rw [hend] at hbehind
          rw [hwhole hend] at haccepted'
          exact .cut hbehind ⟨Nat.div_mul_le_self .., haccepted'⟩
      · rw [if_neg hc]
        refine ⟨_, ⟨hnext.trans hle, haccepted'⟩, fun _ hclose => hwhole ?_⟩
        have hnot := mt (continues_iff hbehind hpos f.close).2 hc
        have hdata : ctx.dataBytes ≤ ctx.fileSize.toNat := min_le_left ..
        have hmore := not_and.1 hnot (hclose f hfeed)
        omega

/-- How the loop ends on a device that takes what it is given, for a file that is read to its end. -/
theorem playSampleOn_playEnds (hops : Transfers ops) (hwhole : MovesWhole ops) (hrw : w₀.pcm.isMmap = false)
    (hout : w₀.pcm.isIn = false) (hf : 0 < (frameSize w₀.pcm).toNat) (hperiod : 0 < w₀.pcm.config.periodSize.toNat)
    (hfit : w₀.pcm.config.periodSize.toNat * (frameSize w₀.pcm).toNat < 2 ^ 32) (fuel : Nat) {ctx : Ctx}
    {feeds : List Feed} (hgot : ∀ f ∈ feeds, ctx.fileSize.toNat ≤ f.got) {failed : Bool} {st : PlayState}
    (hrun : (exec (playSampleOn (hearing (frameSize w₀.pcm).toNat ops) fuel false ctx feeds) w₀).1 =
      some (failed, st)) :
    PlayEnds w₀.pcm ctx feeds failed st ∧
      (exec (playSampleOn (hearing (frameSize w₀.pcm).toNat ops) fuel false ctx feeds) w₀).2.dev.bytes =
        w₀.dev.bytes ++ st.accepted.flatMap (frameAt ctx.file.bytes (frameSize w₀.pcm).toNat) := by
  have hstart : InStep w₀.pcm ctx 0 { file := ctx.file, remainingDataSize := ctx.fileSize } :=
    ⟨⟨rfl, rfl, rfl, Nat.zero_le _⟩, rfl, 0, Nat.zero_mul _, rfl⟩
  refine playSampleOn_rule (K := Playing w₀.pcm ctx) (E := PlayEnds w₀.pcm ctx feeds) hops hrw hout fuel
    (.inStep hstart) (fun f hfeed st n hk hwrites => ?_) hrun
  exact playRound_takes hf hperiod hfit hfeed (hgot f hfeed) hk (hwrites.whole hwhole)

/-- On a device that takes what it is given, and for a file that is read to its end: what the device hears is the data
from its first byte on, up to a failed write or the signal, and else all whole frames of it. -/
theorem playSampleOn_data (hops : Transfers ops) (hwhole : MovesWhole ops) (hrw : w₀.pcm.isMmap = false)
    (hout : w₀.pcm.isIn = false) (hf : 0 < (frameSize w₀.pcm).toNat) (hperiod : 0 < w₀.pcm.config.periodSize.toNat)
    (hfit : w₀.pcm.config.periodSize.toNat * (frameSize w₀.pcm).toNat < 2 ^ 32) (fuel : Nat) {ctx : Ctx}
    {feeds : List Feed} (hgot : ∀ f ∈ feeds, ctx.fileSize.toNat ≤ f.got) {failed : Bool} {st : PlayState}
    (hrun : (exec (playSampleOn (hearing (frameSize w₀.pcm).toNat ops) fuel false ctx feeds) w₀).1 =
      some (failed, st)) :
    ∃ n, n * (frameSize w₀.pcm).toNat ≤ ctx.dataBytes ∧
      (exec (playSampleOn (hearing (frameSize w₀.pcm).toNat ops) fuel false ctx feeds) w₀).2.dev.bytes =
        w₀.dev.bytes ++ (List.range (n * (frameSize w₀.pcm).toNat)).map (fun i => ctx.file.bytes (ctx.file.pos + i)) ∧
      (failed = false → (∀ f ∈ feeds, f.close = false) → n = ctx.dataBytes / (frameSize w₀.pcm).toNat) := by
  obtain ⟨⟨n, ⟨hle, haccepted⟩, hall⟩, hheard⟩ :=
    playSampleOn_playEnds hops hwhole hrw hout hf hperiod hfit fuel hgot hrun
  exact ⟨n, hle, by rw [hheard, haccepted, flatMap_framesFrom], hall⟩

end

/-- A device that takes all it is given and is always ready. -/
def readyOps : PcmOps Unit := { refiningOps id with poll := fun _ d => (⟨1, none⟩, { pollOut := true }, d) }

def stereoStream : World (Heard Unit) := { pcm := stereoPcm, dev := ⟨(), []⟩, user := ⟨16, fun _ => 0⟩ }

theorem readyOps_transfers : Transfers readyOps where
  moved _ n _ _ _ := ⟨Int.natCast_nonneg n.toNat, le_rfl⟩
  kept _ _ _ := rfl

/-- The eight frames are written in two periods. -/
theorem playSampleOn_frames_eight :
    ∃ failed st, (exec (playSampleOn (hearing (frameSize stereoStream.pcm).toNat readyOps) 2 false eightFrames
        [⟨32, false⟩, ⟨32, false⟩]) stereoStream).1 = some (failed, st) ∧
      InOrder (frameSize stereoStream.pcm).toNat eightFrames.file.pos (eightFrames.file.pos + eightFrames.dataBytes)
        st.accepted ∧
      (exec (playSampleOn (hearing (frameSize stereoStream.pcm).toNat readyOps) 2 false eightFrames
        [⟨32, false⟩, ⟨32, false⟩]) stereoStream).2.dev.bytes =
          stereoStream.dev.bytes ++
            st.accepted.flatMap (frameAt eightFrames.file.bytes (frameSize stereoStream.pcm).toNat) := by
  have hsome : (exec (playSampleOn (hearing (frameSize stereoStream.pcm).toNat readyOps) 2 false eightFrames
      [⟨32, false⟩, ⟨32, false⟩]) stereoStream).1.isSome := by decide +kernel
  obtain ⟨⟨failed, st⟩, hrun⟩ := Option.isSome_iff_exists.1 hsome
  exact ⟨failed, st, hrun, playSampleOn_frames readyOps_transfers rfl rfl 2 hrun⟩

/-- The eight frames are heard in two periods. -/
theorem playSampleOn_data_eight :
    ∃ failed st, (exec (playSampleOn (hearing (frameSize stereoStream.pcm).toNat readyOps) 2 false eightFrames
        [⟨32, false⟩, ⟨32, false⟩]) stereoStream).1 = some (failed, st) ∧
      ∃ n, n * (frameSize stereoStream.pcm).toNat ≤ eightFrames.dataBytes ∧
        (exec (playSampleOn (hearing (frameSize stereoStream.pcm).toNat readyOps) 2 false eightFrames
          [⟨32, false⟩, ⟨32, false⟩]) stereoStream).2.dev.bytes =
          stereoStream.dev.bytes ++ (List.range (n * (frameSize stereoStream.pcm).toNat)).map
            (fun i => eightFrames.file.bytes (eightFrames.file.pos + i)) ∧
        (failed = false → (∀ f ∈ [(⟨32, false⟩ : Feed), ⟨32, false⟩], f.close = false) →
          n = eightFrames.dataBytes / (frameSize stereoStream.pcm).toNat) := by
  have hsome : (exec (playSampleOn (hearing (frameSize stereoStream.pcm).toNat readyOps) 2 false eightFrames
      [⟨32, false⟩, ⟨32, false⟩]) stereoStream).1.isSome := by decide +kernel
  obtain ⟨⟨failed, st⟩, hrun⟩ := Option.isSome_iff_exists.1 hsome
  exact ⟨failed, st, hrun, playSampleOn_data readyOps_transfers (fun _ _ _ _ _ => rfl) rfl rfl (by decide) (by decide)
    (by decide) 2 (by decide) hrun⟩

end Tinyalsa.Tinyplay
