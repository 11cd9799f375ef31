/-
The wait loop of a stream (`pcm_wait`), alone and in a pass of `pcm_mmap_transfer`: what it makes of each outcome of
its polls, of signals among them.
-/
import Tinyalsa.Pcm.Kernel
import Tinyalsa.Pcm.Transfer

namespace Tinyalsa

open Hoare

/-! ## Outcomes of polls -/

/-- What a poll comes to. -/
inductive PollOutcome
  | interrupted | spurious | timeout | ready | error | failed
  deriving DecidableEq, Repr

/-- The outcome ends a wait. -/
def PollOutcome.decisive : PollOutcome → Bool
  | .interrupted | .spurious => false
  | _ => true

section

variable {σ : Type} (ops : PcmOps σ) (timeout : Int)

def afterPoll (w : World σ) : World σ := (exec (opsPoll ops timeout) w).2

/-- The outcome of a poll from `w`. -/
def pollOutcome (w : World σ) : PollOutcome :=
  let (err, revents) := (exec (opsPoll ops timeout) w).1
  if err < 0 then if (afterPoll ops timeout w).errno = eIntr then .interrupted else .failed
  else if err = 0 then .timeout
  else if revents.pollErr || revents.pollNval then .error
  else if revents.pollIn || revents.pollOut then .ready
  else .spurious

/-- The world behind polls in a row. -/
def polled : Nat → World σ → World σ
  | 0, w => w
  | n + 1, w => polled n (afterPoll ops timeout w)

/-- What a wait is to return for a decisive poll from `w`. -/
def verdict (w : World σ) : Int :=
  match pollOutcome ops timeout w with
  | .ready => 1
  | .timeout => 0
  | .error => pollError (exec (pcmState ops) (afterPoll ops timeout w)).1
  | _ => -(afterPoll ops timeout w).errno

/-- Of the polls from `w`, the one behind `n` others is the first decisive one. -/
structure FirstDecisive (n : Nat) (w : World σ) : Prop where
  before : ∀ i, i < n → (pollOutcome ops timeout (polled ops timeout i w)).decisive = false
  decisive : (pollOutcome ops timeout (polled ops timeout n w)).decisive = true

/-- A poll that fails sets `errno`. -/
def PollSetsErrno : Prop :=
  ∀ d, (ops.poll timeout d).1.ret < 0 → ∃ e, 0 < e ∧ (ops.poll timeout d).1.errno = some e

/-- A wait from `w` goes on up to the decisive poll behind `n` others, and so does the wait of a transfer. -/
structure SurvivesSignals (n : Nat) (w : World σ) : Prop where
  waits : ∀ fuel, n < fuel →
    (exec (pcmWait ops fuel timeout) w).1 = some (verdict ops timeout (polled ops timeout n w))
  ready : verdict ops timeout (polled ops timeout n w) = 1 ↔ pollOutcome ops timeout (polled ops timeout n w) = .ready
  timedOut : verdict ops timeout (polled ops timeout n w) = 0 ↔
    pollOutcome ops timeout (polled ops timeout n w) = .timeout
  negative : verdict ops timeout (polled ops timeout n w) < 0 ↔
    pollOutcome ops timeout (polled ops timeout n w) = .error ∨
      pollOutcome ops timeout (polled ops timeout n w) = .failed
  /-- A pass of a blocking transfer without room goes on unless the decisive poll says otherwise. -/
  transfers : timeout = -1 → w.pcm.isNonblock = false → ∀ fuel, n < fuel →
    (exec (waitForRoom ops fuel 0) w).1 = some (decide (0 ≤ verdict ops timeout (polled ops timeout n w))) ∧
      (verdict ops timeout (polled ops timeout n w) < 0 →
        (exec (waitForRoom ops fuel 0) w).2.errno = -verdict ops timeout (polled ops timeout n w))

/-- No signal comes before the decisive poll, and `errno` does not hide its error. -/
structure Unsignalled (n : Nat) (w : World σ) : Prop where
  noSignal : ∀ i, i < n → pollOutcome ops timeout (polled ops timeout i w) ≠ .interrupted
  errno : pollOutcome ops timeout (polled ops timeout n w) = .error →
    (afterPoll ops timeout (polled ops timeout n w)).errno ≠ -eIntr

end

/-! ## A poll of the loop -/

section

variable {σ : Type} {ops : PcmOps σ} {timeout : Int} {w : World σ}

/-- A pass of the loop. -/
theorem exec_pcmWait_succ (fuel : Nat) :
    (exec (pcmWait ops (fuel + 1) timeout) w).1 =
      if (exec (opsPoll ops timeout) w).1.1 < 0 then some (-(afterPoll ops timeout w).errno)
      else if (exec (opsPoll ops timeout) w).1.1 = 0 then some 0
      else if (afterPoll ops timeout w).errno ≠ -eIntr ∧
          ((exec (opsPoll ops timeout) w).1.2.pollErr || (exec (opsPoll ops timeout) w).1.2.pollNval) then
        some (pollError (exec (pcmState ops) (afterPoll ops timeout w)).1)
      else if (exec (opsPoll ops timeout) w).1.2.pollIn || (exec (opsPoll ops timeout) w).1.2.pollOut then some 1
      else (exec (pcmWait ops fuel timeout) (afterPoll ops timeout w)).1 := by
  rw [pcmWait, exec_bind]
  simp only [exec_ite, exec_bind, exec_get, exec_pure]
  unfold afterPoll
  repeat' split
  all_goals rfl

/-- The outcome of a poll that has failed. -/
theorem pollOutcome_of_neg (h : (exec (opsPoll ops timeout) w).1.1 < 0) :
    pollOutcome ops timeout w =
      if (afterPoll ops timeout w).errno = eIntr then .interrupted else .failed := if_pos h

/-- The outcome of a poll that has not. -/
theorem pollOutcome_of_nonneg (h : ¬ (exec (opsPoll ops timeout) w).1.1 < 0) :
    pollOutcome ops timeout w =
      if (exec (opsPoll ops timeout) w).1.1 = 0 then .timeout
      else if (exec (opsPoll ops timeout) w).1.2.pollErr || (exec (opsPoll ops timeout) w).1.2.pollNval then .error
      else if (exec (opsPoll ops timeout) w).1.2.pollIn || (exec (opsPoll ops timeout) w).1.2.pollOut then .ready
      else .spurious := if_neg h

/-- What a pass of the loop makes of the outcome of its poll, where `errno` does not hide an error. -/
theorem exec_pcmWait_outcome (fuel : Nat)
    (herrno : pollOutcome ops timeout w = .error → (afterPoll ops timeout w).errno ≠ -eIntr) :
    (exec (pcmWait ops (fuel + 1) timeout) w).1 =
      match pollOutcome ops timeout w with
      | .interrupted => some (-eIntr)
      | .spurious => (exec (pcmWait ops fuel timeout) (afterPoll ops timeout w)).1
      | _ => some (verdict ops timeout w) := by
  rw [exec_pcmWait_succ]
  unfold verdict
  by_cases hneg : (exec (opsPoll ops timeout) w).1.1 < 0
  · rw [if_pos hneg, pollOutcome_of_neg hneg]
    by_cases hintr : (afterPoll ops timeout w).errno = eIntr
    · rw [if_pos hintr, hintr]
    · rw [if_neg hintr]
  rw [if_neg hneg]
  rw [pollOutcome_of_nonneg hneg] at herrno ⊢
  by_cases hzero : (exec (opsPoll ops timeout) w).1.1 = 0
  · rw [if_pos hzero, if_pos hzero]
  rw [if_neg hzero] at herrno
  rw [if_neg hzero, if_neg hzero]
  by_cases herr : ((exec (opsPoll ops timeout) w).1.2.pollErr || (exec (opsPoll ops timeout) w).1.2.pollNval) = true
  · rw [if_pos herr] at herrno
    rw [if_pos ⟨herrno rfl, herr⟩, if_pos herr]
  rw [if_neg fun h => herr h.2, if_neg herr]
  split <;> rfl

/-- A signal ends the wait. -/
theorem exec_pcmWait_interrupted (fuel : Nat) (h : pollOutcome ops timeout w = .interrupted) :
    (exec (pcmWait ops (fuel + 1) timeout) w).1 = some (-eIntr) := by
  rw [exec_pcmWait_outcome fuel fun he => (nomatch h.symm.trans he), h]

/-- An error that `errno` hides is not seen. -/
theorem exec_pcmWait_hidden (h : pollOutcome ops timeout w = .error)
    (herrno : (afterPoll ops timeout w).errno = -eIntr) :
    (exec (pcmWait ops 1 timeout) w).1 = some 1 ∨ (exec (pcmWait ops 1 timeout) w).1 = none := by
  have hneg : ¬ (exec (opsPoll ops timeout) w).1.1 < 0 := by
    intro hneg
    rw [pollOutcome_of_neg hneg] at h
    split at h <;> cases h
  have hzero : (exec (opsPoll ops timeout) w).1.1 ≠ 0 := by
    intro hzero
    rw [pollOutcome_of_nonneg hneg, if_pos hzero] at h
    cases h
  rw [exec_pcmWait_succ, if_neg hneg, if_neg hzero, if_neg fun h => h.1 herrno]
  split
  · exact .inl rfl
  · exact .inr rfl

end

/-! ## What is returned -/

section

variable {σ : Type} {ops : PcmOps σ} {timeout : Int} {w : World σ}

/-- The codes of the stream's states are negative, and none is that of a signal. -/
theorem pollError_neg (state : Int) : pollError state < 0 ∧ pollError state ≠ -eIntr := by
  unfold pollError
  repeat' split
  all_goals decide

/-- A poll that fails leaves what it failed with. -/
theorem PollSetsErrno.errno_pos (hpoll : PollSetsErrno ops timeout) (h : (exec (opsPoll ops timeout) w).1.1 < 0) :
    0 < (afterPoll ops timeout w).errno := by
  obtain ⟨e, he, hset⟩ := hpoll w.dev h
  have herrno : (afterPoll ops timeout w).errno = (ops.poll timeout w.dev).1.errno.getD w.errno := rfl
  rw [herrno, hset]
  exact he

theorem pollOutcome_failed (h : pollOutcome ops timeout w = .failed) :
    (exec (opsPoll ops timeout) w).1.1 < 0 ∧ (afterPoll ops timeout w).errno ≠ eIntr := by
  by_cases hneg : (exec (opsPoll ops timeout) w).1.1 < 0
  · refine ⟨hneg, fun hintr => ?_⟩
    rw [pollOutcome_of_neg hneg, if_pos hintr] at h
    cases h
  · rw [pollOutcome_of_nonneg hneg] at h
    repeat' split at h
    all_goals cases h

/-- The verdict of a decisive poll by its outcome. -/
theorem verdict_cases (hpoll : PollSetsErrno ops timeout) (h : (pollOutcome ops timeout w).decisive = true) :
    pollOutcome ops timeout w = .ready ∧ verdict ops timeout w = 1 ∨
    pollOutcome ops timeout w = .timeout ∧ verdict ops timeout w = 0 ∨
    (pollOutcome ops timeout w = .error ∨ pollOutcome ops timeout w = .failed) ∧
      verdict ops timeout w < 0 ∧ verdict ops timeout w ≠ -eIntr := by
  unfold verdict
  cases ho : pollOutcome ops timeout w <;> rw [ho] at h
  case ready => exact .inl ⟨rfl, rfl⟩
  case timeout => exact .inr (.inl ⟨rfl, rfl⟩)
  case error => exact .inr (.inr ⟨.inl rfl, pollError_neg _⟩)
  case failed =>
    obtain ⟨hneg, hne⟩ := pollOutcome_failed ho
    have hpos := hpoll.errno_pos hneg
    refine .inr (.inr ⟨.inr rfl, ?_, ?_⟩) <;> dsimp only <;> omega
  all_goals cases h

end

/-- The verdict tells readiness, a timeout and errors apart. -/
theorem verdict_iff (hpoll : PollSetsErrno ops timeout) (h : (pollOutcome ops timeout w).decisive = true) :
    (verdict ops timeout w = 1 ↔ pollOutcome ops timeout w = .ready) ∧
    (verdict ops timeout w = 0 ↔ pollOutcome ops timeout w = .timeout) ∧
    (verdict ops timeout w < 0 ↔ pollOutcome ops timeout w = .error ∨ pollOutcome ops timeout w = .failed) := by
  rcases verdict_cases hpoll h with ⟨ho, hv⟩ | ⟨ho, hv⟩ | ⟨ho, hv, -⟩
  · rw [ho, hv]
    decide
  · rw [ho, hv]
    decide
  · refine ⟨iff_of_false (by omega) fun hready => ?_, iff_of_false (by omega) fun htimeout => ?_, iff_of_true hv ho⟩
    · rw [hready] at ho
      exact absurd ho (by decide)
    · rw [htimeout] at ho
      exact absurd ho (by decide)

/-! ## Waits -/

section

variable {σ : Type} {ops : PcmOps σ} {timeout : Int}

theorem FirstDecisive.tail {n : Nat} {w : World σ} (h : FirstDecisive ops timeout (n + 1) w) :
    FirstDecisive ops timeout n (afterPoll ops timeout w) :=
  ⟨fun i hi => h.before (i + 1) (Nat.succ_lt_succ hi), h.decisive⟩

theorem unsignalled_succ {n : Nat} {w : World σ} :
    Unsignalled ops timeout (n + 1) w ↔
      pollOutcome ops timeout w ≠ .interrupted ∧ Unsignalled ops timeout n (afterPoll ops timeout w) := by
  constructor
  · rintro ⟨hsignal, herrno⟩
    exact ⟨hsignal 0 (Nat.succ_pos n), fun i hi => hsignal (i + 1) (Nat.succ_lt_succ hi), herrno⟩
  · rintro ⟨hfirst, hsignal, herrno⟩
    refine ⟨fun i hi => ?_, herrno⟩
    cases i with
    | zero => exact hfirst
    | succ i => exact hsignal i (Nat.lt_of_succ_lt_succ hi)

/-- A decisive poll is seen just when `errno` does not hide its error. -/
theorem pcmWait_decisive_iff {w : World σ} (h : (pollOutcome ops timeout w).decisive = true) :
    (∀ fuel, 0 < fuel → (exec (pcmWait ops fuel timeout) w).1 = some (verdict ops timeout w)) ↔
      Unsignalled ops timeout 0 w := by
  constructor
  · intro hwaits
    refine ⟨fun i hi => absurd hi (Nat.not_lt_zero i), fun herror hhidden => ?_⟩
    change pollOutcome ops timeout w = .error at herror
    have hreturns := hwaits 1 Nat.one_pos
    have hneg : verdict ops timeout w < 0 := by
      unfold verdict
      rw [herror]
      exact (pollError_neg _).1
    rcases exec_pcmWait_hidden herror hhidden with hone | hnone
    · rw [hone] at hreturns
      exact absurd (Option.some.inj hreturns ▸ hneg) (by decide)
    · rw [hnone] at hreturns
      cases hreturns
  · rintro ⟨-, herrno⟩ fuel hfuel
    change pollOutcome ops timeout w = .error → (afterPoll ops timeout w).errno ≠ -eIntr at herrno
    obtain ⟨fuel, rfl⟩ := Nat.exists_eq_succ_of_ne_zero hfuel.ne'
    rw [Nat.succ_eq_add_one, exec_pcmWait_outcome fuel herrno]
    cases ho : pollOutcome ops timeout w <;> rw [ho] at h
    case interrupted => cases h
    case spurious => cases h

/-- A wait goes on up to the decisive poll just when no signal comes before it and `errno` does not hide its error. -/
theorem pcmWait_iff (hpoll : PollSetsErrno ops timeout) : ∀ (n : Nat) (w : World σ), FirstDecisive ops timeout n w →
    ((∀ fuel, n < fuel →
      (exec (pcmWait ops fuel timeout) w).1 = some (verdict ops timeout (polled ops timeout n w))) ↔
        Unsignalled ops timeout n w)
  | 0, w, h => pcmWait_decisive_iff h.decisive
  | n + 1, w, h => by
    have hfirst : (pollOutcome ops timeout w).decisive = false := h.before 0 (Nat.succ_pos n)
    rw [unsignalled_succ, ← pcmWait_iff hpoll n _ h.tail]
    by_cases hintr : pollOutcome ops timeout w = .interrupted
    · -- the signal's code is not that of a decisive poll
      refine iff_of_false (fun hwaits => ?_) fun h => h.1 hintr
      have hcode := (exec_pcmWait_interrupted (n + 1) hintr).symm.trans (hwaits (n + 2) (Nat.lt_succ_self _))
      have hverdict : -eIntr = verdict ops timeout (polled ops timeout (n + 1) w) := Option.some.inj hcode
      rcases verdict_cases hpoll h.decisive with ⟨-, hone⟩ | ⟨-, hzero⟩ | ⟨-, -, hne⟩
      · exact absurd (hverdict.trans hone) (by decide)
      · exact absurd (hverdict.trans hzero) (by decide)
      · exact hne hverdict.symm
    · have hspurious : pollOutcome ops timeout w = .spurious := by
        cases ho : pollOutcome ops timeout w <;> rw [ho] at hfirst
        case interrupted => exact absurd ho hintr
        all_goals cases hfirst
      have hstep : ∀ fuel, (exec (pcmWait ops (fuel + 1) timeout) w).1 =
          (exec (pcmWait ops fuel timeout) (afterPoll ops timeout w)).1 := by
        intro fuel
        rw [exec_pcmWait_outcome fuel fun he => (nomatch hspurious.symm.trans he), hspurious]
      rw [and_iff_right hintr]
      constructor
      · intro hwaits fuel hfuel
        rw [← hstep]
        exact hwaits (fuel + 1) (Nat.succ_lt_succ hfuel)
      · intro hwaits fuel hfuel
        obtain ⟨fuel, rfl⟩ := Nat.exists_eq_succ_of_ne_zero (Nat.zero_lt_of_lt hfuel).ne'
        rw [Nat.succ_eq_add_one, hstep]
        exact hwaits fuel (Nat.lt_of_succ_lt_succ hfuel)

/-- The wait of a pass of a blocking transfer, by what `pcm_wait` returns. -/
theorem exec_waitForRoom {fuel : Nat} {w : World σ} {err : Int} (hblock : w.pcm.isNonblock = false)
    (h : (exec (pcmWait ops fuel (-1)) w).1 = some err) :
    (exec (waitForRoom ops fuel 0) w).1 = some (decide (0 ≤ err)) ∧
      (err < 0 → (exec (waitForRoom ops fuel 0) w).2.errno = -err) := by
  unfold waitForRoom
  simp only [if_true, exec_bind, exec_get, exec_ite, hblock, Bool.false_eq_true, if_false, h]
  by_cases hneg : err < 0
  · rw [if_pos hneg, decide_eq_false (not_le.2 hneg)]
    exact ⟨rfl, fun _ => rfl⟩
  · rw [if_neg hneg, decide_eq_true (not_lt.1 hneg)]
    exact ⟨rfl, fun h => absurd h hneg⟩

/-- Waits and transfers go on up to the decisive poll just when no signal comes before it and `errno` does not hide its
error. -/
theorem survivesSignals_iff {n : Nat} {w : World σ} (hpoll : PollSetsErrno ops timeout)
    (h : FirstDecisive ops timeout n w) : SurvivesSignals ops timeout n w ↔ Unsignalled ops timeout n w := by
  rw [← pcmWait_iff hpoll n w h]
  constructor
  · exact fun hs => hs.waits
  · intro hwaits
    obtain ⟨hready, htimedOut, hnegative⟩ := verdict_iff hpoll h.decisive
    refine ⟨hwaits, hready, htimedOut, hnegative, ?_⟩
    rintro rfl hblock fuel hfuel
    exact exec_waitForRoom hblock (hwaits fuel hfuel)

end

/-! ## A signal -/

/-- A blocking stream whose buffer is full. -/
def fullBuffer : World Kernel where
  pcm :=
    { fd := 3, flags := pcmMmap, bufferSize := 4, boundary := 0x4000000000000000
      config :=
        { channels := 2, rate := 48000, periodSize := 2, periodCount := 2, format := .s16Le, startThreshold := 4
          stopThreshold := 4, silenceThreshold := 4, silenceSize := 0, availMin := 2 } }
  dev := { status := { state := .running }, control := { applPtr := 4 }, pages := true }
  user := { size := 16, byte := fun _ => 0 }

/-- A playback stream whose first poll finds nothing, while the buffer is played. -/
def spuriousOps : PcmOps Kernel :=
  { Kernel.ops with
    poll := fun _ k =>
      if k.status.hwPtr = 0 then (⟨1, none⟩, {}, { k with status := { k.status with hwPtr := 4 } })
      else (⟨1, none⟩, { pollOut := true }, k) }

theorem survivesSignals_fullBuffer : SurvivesSignals spuriousOps (-1) 1 fullBuffer := by
  have hpoll : PollSetsErrno spuriousOps (-1) := by
    intro k hneg
    change (if k.status.hwPtr = 0 then _ else _ : Reply × PollEvents × Kernel).1.ret < 0 at hneg
    split at hneg <;> cases hneg
  refine (survivesSignals_iff hpoll ⟨by decide, by decide⟩).2 ⟨by decide, fun herror => ?_⟩
  exact absurd herror (by decide)

/-- A playback stream whose first poll is interrupted by a signal, while the buffer is played. -/
def signalledOps : PcmOps Kernel :=
  { Kernel.ops with
    poll := fun _ k =>
      if k.status.hwPtr = 0 then
        (⟨-1, some eIntr⟩, {}, { k with status := { k.status with hwPtr := 4 } })
      else (⟨1, none⟩, { pollOut := true }, k) }

/-- The signal is what `pcm_wait` returns and what ends the transfer, although the buffer is played by then. -/
theorem not_survivesSignals_fullBuffer :
    FirstDecisive signalledOps (-1) 1 fullBuffer ∧ ¬ SurvivesSignals signalledOps (-1) 1 fullBuffer ∧
      (exec (pcmMmapTransfer signalledOps 9 4) fullBuffer).1 = some (-1) ∧
      (exec (pcmMmapTransfer signalledOps 9 4) fullBuffer).2.errno = eIntr := by
  refine ⟨⟨by decide, by decide⟩, fun h => ?_, by decide, by decide⟩
  have hwait := h.waits 2 (by decide)
  revert hwait
  decide

end Tinyalsa
