/-
The restarts of `pcm_writei` and `pcm_readi`. A call is a list of transfer attempts; what ends each of
them, in its result and in `errno`, decides whether the stream is prepared and tried again.
-/
import Tinyalsa.Pcm.Copies
import Tinyalsa.Pcm.Underrun

namespace Tinyalsa

open Hoare KeepsPcm

/-! ## Attempts -/

/-- A transfer attempt: where it started, what it returned and what it left. -/
structure Attempt (σ : Type) where
  start : World σ
  result : Int
  stop : World σ

/-- What a `PREPARE` among the calls returned. -/
def PcmCall.prepared : PcmCall → Option Int
  | .cmd .prepare ret => some ret
  | _ => none

/-- A call that belongs to an attempt: any but `PREPARE` and a `SYNC_PTR` without the hardware. -/
def PcmCall.ofAttempt : PcmCall → Bool
  | .cmd .prepare _ => false
  | .syncPtr flags _ _ _ => flags.hwsync
  | _ => true

section

variable {σ : Type} (ops : PcmOps σ) (frames : UInt32)

/-- From `w` to `w'` there is no attempt, and the `PREPARE`s on the way returned `rets`, the last one first. -/
def Between (w w' : World σ) (rets : List Int) : Prop :=
  ∃ calls, w'.trace = calls ++ w.trace ∧ (∀ c ∈ calls, c.ofAttempt = false) ∧ calls.filterMap PcmCall.prepared = rets

namespace Attempt

variable (a : Attempt σ)

/-- The attempt is one of `pcm_generic_transfer`, with all of the caller's frames. -/
def Runs : Prop := ∃ fuel, exec (pcmTransferOnce ops fuel frames) a.start = (some a.result, a.stop)

/-- The attempt failed with `EPIPE`. -/
def Xrun : Prop := a.result < 0 ∧ a.stop.errno = ePipe

instance : Decidable a.Xrun := inferInstanceAs (Decidable (a.result < 0 ∧ a.stop.errno = ePipe))

/-- The attempt failed with `EPIPE` or `ESTRPIPE`. -/
def Interrupted : Prop := a.result < 0 ∧ (a.stop.errno = ePipe ∨ a.stop.errno = eStrPipe)

/-- The attempt is offered the whole buffer from its first frame: the kernel in one call, or the ring
through copies that take the frames in order. -/
def Whole : Prop :=
  if a.start.pcm.isMmap then
    ∃ calls, a.stop.trace = calls ++ a.start.trace ∧ SourcesInOrder calls ∧ movedFrames calls ≤ frames.toNat ∧
      (frames ≠ 0 → ∃ c ∈ calls, c.ofAttempt)
  else ∃ ret result, a.stop.trace = .xfer frames ret result :: a.start.trace

/-- How the call goes on from the end of an attempt to `w`, where there is one more attempt (`again`) or the
call returns: an interrupted one is followed by one `PREPARE`, and by one more attempt just if that succeeds. -/
structure Leads (restarts : Prop) (w : World σ) (again : Prop) : Prop where
  prepares : a.Interrupted ∧ restarts → ∃ ret, Between a.stop w [ret] ∧ (again ↔ 0 ≤ ret)
  ends : ¬ (a.Interrupted ∧ restarts) → Between a.stop w [] ∧ ¬ again

end Attempt

/-- Each attempt leads to the next, and the last to `w`. -/
def EachLeads (restarts : Prop) (w : World σ) : List (Attempt σ) → Prop
  | [] => True
  | a :: rest => a.Leads restarts ((rest.head?.map Attempt.start).getD w) (rest ≠ []) ∧ EachLeads restarts w rest

/-- A call from `w` to `w'` that returns `r` consists of these attempts. -/
structure Recovery (w : World σ) (attempts : List (Attempt σ)) (r : Int) (w' : World σ) : Prop where
  runs : ∀ a ∈ attempts, a.Runs ops frames
  whole : ∀ a ∈ attempts, a.Whole frames
  starts : ∃ rets, Between w ((attempts.head?.map Attempt.start).getD w') rets
  leads : EachLeads (¬ w.pcm.isNorestart) w' attempts
  xruns : CInt.fitsInt w.pcm.xruns → w.pcm.xruns + (attempts.countP fun a => a.Xrun) ≤ CInt.intMax →
    w'.pcm.xruns = w.pcm.xruns + attempts.countP fun a => a.Xrun
  returns : 0 ≤ r → (∃ a, attempts.getLast? = some a ∧ a.result = r) ∧ r ≤ frames.toNat

/-- The kernel's result does not exceed the frames offered. -/
def ResultBounded : Prop :=
  ∀ b n u d, (ops.xfer b n u d).1.ret = 0 → -2 ^ 31 ≤ (ops.xfer b n u d).2.1 ∧ (ops.xfer b n u d).2.1 ≤ n.toNat

end

section

variable {σ : Type} {ops : PcmOps σ} {frames : UInt32} {w w₁ w₂ : World σ}

/-! ## Between attempts -/

theorem Between.refl (h : w₁.trace = w.trace) : Between w w₁ [] := ⟨[], h, by simp, rfl⟩

theorem Between.trans {rets rets' : List Int} (h : Between w w₁ rets) (h' : Between w₁ w₂ rets') :
    Between w w₂ (rets' ++ rets) := by
  obtain ⟨calls, ht, hc, hr⟩ := h
  obtain ⟨calls', ht', hc', hr'⟩ := h'
  refine ⟨calls' ++ calls, by rw [ht', ht, List.append_assoc], fun c hmem => ?_, by rw [List.filterMap_append, hr, hr']⟩
  rcases List.mem_append.1 hmem with hmem | hmem
  · exact hc' c hmem
  · exact hc c hmem

theorem statusFlags_hwsync : ({ appl := true, availMin := true } : SyncFlags).hwsync = false := rfl

/-- A synchronisation without the hardware. -/
theorem pcmSyncPtr_between (ops : PcmOps σ) {flags : SyncFlags} (hf : flags.hwsync = false) (w : World σ) :
    Between w (exec (pcmSyncPtr ops flags) w).2 [] ∧ w.pcm.Same (exec (pcmSyncPtr ops flags) w).2.pcm := by
  unfold pcmSyncPtr
  cases hs : w.pcm.syncPtr with
  | none =>
    simp only [exec_bind, exec_get, hs, hf]
    exact ⟨.refl rfl, .refl _⟩
  | some s =>
    have hsync : ∀ ret b a, Between w (w.push (.syncPtr flags ret b a)) [] := fun ret b a =>
      ⟨[.syncPtr flags ret b a], rfl, by simpa [PcmCall.ofAttempt] using hf, rfl⟩
    simp only [exec_bind, exec_get, hs, exec_ite, exec_ioctlSyncPtr, exec_oops, exec_pure]
    split
    · exact ⟨hsync _ _ _, ⟨_, _, rfl⟩⟩
    · exact ⟨hsync _ _ _, ⟨_, w.pcm.error, rfl⟩⟩

/-- `pcm_prepare` issues one `PREPARE`, and succeeds just if that does. -/
theorem pcmPrepare_between (ops : PcmOps σ) (w : World σ) : ∃ ret, Between w (exec (pcmPrepare ops) w).2 [ret] ∧
    ((exec (pcmPrepare ops) w).1 = 0 ↔ 0 ≤ ret) ∧ w.pcm.Same (exec (pcmPrepare ops) w).2.pcm := by
  have hprepare : ∀ w' : World σ, w'.trace = .cmd .prepare (ops.cmd .prepare w.dev).1.ret :: w.trace →
      Between w w' [(ops.cmd .prepare w.dev).1.ret] := fun w' ht => ⟨[_], ht, by simp [PcmCall.ofAttempt], rfl⟩
  refine ⟨(ops.cmd .prepare w.dev).1.ret, ?_⟩
  simp only [pcmPrepare, exec_bind, exec_ite, exec_ioctl]
  split
  · rename_i hneg
    simp only [exec_get, exec_oops]
    exact ⟨hprepare _ rfl, ⟨fun h => absurd h (by decide), fun h => absurd hneg (not_lt.2 h)⟩, ⟨w.pcm.syncPtr, _, rfl⟩⟩
  · rename_i hpos
    obtain ⟨hsync, hsame⟩ := pcmSyncPtr_between ops statusFlags_hwsync
      (exec (ioctl ops .prepare) w).2
    exact ⟨(hprepare _ rfl).trans hsync, ⟨fun _ => not_lt.1 hpos, fun _ => rfl⟩, hsame⟩

theorem pcmState_between (ops : PcmOps σ) (w : World σ) :
    Between w (exec (pcmState ops) w).2 [] ∧ w.pcm.Same (exec (pcmState ops) w).2.pcm := by
  obtain ⟨hsync, hsame⟩ := pcmSyncPtr_between ops statusFlags_hwsync w
  simp only [pcmState, exec_bind, exec_ite, exec_pure]
  split
  · exact ⟨hsync, hsame⟩
  · generalize (exec (pcmSyncPtr ops _) w).2 = w₁ at hsync hsame ⊢
    unfold mmapStatus
    cases hs : w₁.pcm.syncPtr with
    | none =>
      simp only [exec_bind, exec_get, hs, exec_modify, exec_pure]
      exact ⟨hsync, hsame⟩
    | some s =>
      simp only [exec_bind, exec_get, hs, exec_pure]
      exact ⟨hsync, hsame⟩

/-! ## An attempt -/

theorem pcmRwTransfer_le (hb : ResultBounded ops) (frames : UInt32) (w : World σ) :
    (exec (pcmRwTransfer ops frames) w).1 ≤ frames.toNat := by
  obtain h := hb (!w.pcm.isIn) frames w.user w.dev
  simp only [pcmRwTransfer, exec_bind, exec_get, exec_set, exec_record, exec_pure]
  split
  · rename_i hret
    obtain ⟨hlo, hhi⟩ := h hret
    generalize (ops.xfer (!w.pcm.isIn) frames w.user w.dev).2.1 = x at hlo hhi
    unfold CInt.wrapInt
    omega
  · omega

/-- A mapped attempt makes calls of its own. -/
theorem pcmMmapTransfer_owns (ops : PcmOps σ) (hne : frames ≠ 0) (fuel : Nat) (w : World σ) :
    ∃ calls, (exec (pcmMmapTransfer ops fuel frames) w).2.trace = calls ++ w.trace ∧ ∃ c ∈ calls, c.ofAttempt := by
  have hkeep : PcmInvariant ops fun w' => ∃ calls, w'.trace = calls ++ w.trace ∧ ∃ c ∈ calls, c.ofAttempt :=
    .ofTrace (P := fun l => ∃ calls, l = calls ++ w.trace ∧ ∃ c ∈ calls, c.ofAttempt)
      fun c l ⟨calls, ht, d, hd, ho⟩ => ⟨c :: calls, by rw [ht]; rfl, d, List.mem_cons_of_mem _ hd, ho⟩
  have hsync : Triple (fun w' => w' = w) (pcmSyncPtr ops { hwsync := true, appl := true, availMin := true }) fun _ w' =>
      ∃ calls, w'.trace = calls ++ w.trace ∧ ∃ c ∈ calls, c.ofAttempt := by
    intro w' hw'
    rw [hw']
    unfold pcmSyncPtr
    cases hs : w.pcm.syncPtr with
    | none =>
      have hcall : ∀ ret, ∃ calls, .cmd .hwsync ret :: w.trace = calls ++ w.trace ∧ ∃ c ∈ calls, c.ofAttempt :=
        fun ret => ⟨[.cmd .hwsync ret], rfl, _, List.mem_cons_self, rfl⟩
      simp only [exec_bind, exec_get, hs, if_true, exec_ite, exec_ioctl, exec_oops, exec_pure]
      split
      · exact hcall _
      · exact hcall _
    | some s =>
      have hcall : ∀ ret b a, ∃ calls, .syncPtr { hwsync := true, appl := true, availMin := true } ret b a :: w.trace =
          calls ++ w.trace ∧ ∃ c ∈ calls, c.ofAttempt := fun ret b a => ⟨[_], rfl, _, List.mem_cons_self, rfl⟩
      simp only [exec_bind, exec_get, hs, exec_ite, exec_ioctlSyncPtr, exec_oops, exec_pure]
      split
      · exact hcall _ _ _
      · exact hcall _ _ _
  have htransfer : Triple (fun w' => w' = w) (pcmMmapTransfer ops fuel frames) fun _ w' =>
      ∃ calls, w'.trace = calls ++ w.trace ∧ ∃ c ∈ calls, c.ofAttempt := by
    refine Triple.ite (fun h => absurd h hne) fun _ => Triple.bind hsync fun _ =>
      Triple.ite (fun _ => pure _) fun _ => ?_
    refine Triple.bind hkeep.wait.mmapStatus fun _ => Triple.bind (hkeep.startCapture _ _) fun _ => ?_
    exact Triple.ite (fun _ => Triple.bind get fun _ => Triple.bind (hkeep.mmapTransferLoop _ _ fuel _ _) fun _ =>
      pure _) fun _ => pure _
  exact htransfer w rfl

/-- An attempt leaves the counter alone, is offered the whole buffer, and returns no more than that. -/
theorem Attempt.Runs.spec (hmax : frames.toNat ≤ CInt.intMax) {a : Attempt σ} (h : a.Runs ops frames) :
    a.Whole frames ∧ a.stop.pcm.flags = a.start.pcm.flags ∧ a.stop.pcm.xruns = a.start.pcm.xruns ∧
      (ResultBounded ops → a.result ≤ frames.toNat) := by
  obtain ⟨fuel, heq⟩ := h
  obtain ⟨start, result, stop⟩ := a
  unfold Attempt.Whole
  simp only [pcmTransferOnce, exec_bind, exec_get, exec_ite] at heq ⊢
  split at heq
  · rename_i hmap
    have hcopies : Triple (Copying start.pcm start.trace frames.toNat 0) (pcmMmapTransfer ops fuel frames) _ :=
      Copying.pcmMmapTransfer fuel hmax
    obtain ⟨moved, hle, hcopy, hres⟩ := hcopies start (Copying.start _ start)
    have howns : frames ≠ 0 → _ := fun hne => pcmMmapTransfer_owns ops hne fuel start
    rw [heq] at hcopy hres howns
    obtain ⟨s, e, hsame⟩ := hcopy.same
    obtain ⟨calls, ht, hsrc, -, hm⟩ := hcopy.copies
    refine ⟨?_, by rw [hsame], by rw [hsame], fun _ => (hres result rfl).trans (by exact_mod_cast hle)⟩
    rw [if_pos hmap]
    refine ⟨calls, ht, hsrc, hm.trans_le hle, fun hne => ?_⟩
    obtain ⟨calls', ht', hown⟩ := howns hne
    rwa [List.append_cancel_right (ht.symm.trans ht')]
  · rename_i hmap
    have hle : ResultBounded ops → _ := fun hb => pcmRwTransfer_le hb frames start
    simp only [exec_pure, Prod.mk.injEq, Option.some.injEq] at heq
    obtain ⟨rfl, rfl⟩ := heq
    refine ⟨?_, rfl, rfl, hle⟩
    rw [if_neg hmap]
    exact ⟨_, _, rfl⟩

/-! ## The loop -/

/-- The world in which a failed attempt is counted. -/
def counted (w : World σ) : World σ :=
  if w.errno = ePipe then w.setPcm { w.pcm with xruns := CInt.wrapInt (w.pcm.xruns + 1) } else w

theorem counted_eq (w : World σ) : (counted w).trace = w.trace ∧ (counted w).pcm.flags = w.pcm.flags ∧
    (counted w).pcm.xruns = if w.errno = ePipe then CInt.wrapInt (w.pcm.xruns + 1) else w.pcm.xruns := by
  unfold counted
  split
  · exact ⟨rfl, rfl, rfl⟩
  · exact ⟨rfl, rfl, rfl⟩

theorem exec_pcmRestarts (ops : PcmOps σ) {w : World σ} (he : w.errno = ePipe ∨ w.errno = eStrPipe) :
    exec (pcmRestarts ops) w = if (counted w).pcm.isNorestart then (false, counted w)
      else ((exec (pcmPrepare ops) (counted w)).1 = 0, (exec (pcmPrepare ops) (counted w)).2) := by
  rcases he with he | he
  · simp only [pcmRestarts, counted, exec_bind, exec_get, he, if_true, exec_modifyPcm, true_or, exec_ite, exec_pure]
  · simp only [pcmRestarts, counted, exec_bind, exec_get, he, if_true, or_true, exec_ite, exec_pure,
      show eStrPipe ≠ ePipe by decide, if_false]

/-- After an interrupted attempt: it is counted, and the stream is prepared once unless it is not to be
restarted. -/
theorem pcmRestarts_between (ops : PcmOps σ) {w : World σ} (he : w.errno = ePipe ∨ w.errno = eStrPipe) :
    (exec (pcmRestarts ops) w).2.pcm.flags = w.pcm.flags ∧
      (exec (pcmRestarts ops) w).2.pcm.xruns =
        (if w.errno = ePipe then CInt.wrapInt (w.pcm.xruns + 1) else w.pcm.xruns) ∧
      (w.pcm.isNorestart → (exec (pcmRestarts ops) w).1 = false ∧ Between w (exec (pcmRestarts ops) w).2 []) ∧
      (¬ w.pcm.isNorestart →
        ∃ ret, Between w (exec (pcmRestarts ops) w).2 [ret] ∧ ((exec (pcmRestarts ops) w).1 = true ↔ 0 ≤ ret)) := by
  obtain ⟨htrace, hflags, hxruns⟩ := counted_eq w
  have hnr : (counted w).pcm.isNorestart = w.pcm.isNorestart := by unfold Pcm.isNorestart; rw [hflags]
  rw [exec_pcmRestarts ops he, hnr]
  split
  · rename_i h
    exact ⟨hflags, hxruns, fun _ => ⟨rfl, .refl htrace⟩, fun hno => absurd h hno⟩
  · rename_i h
    obtain ⟨ret, hbetween, hret, s, e, hsame⟩ := pcmPrepare_between ops (counted w)
    refine ⟨by rw [hsame]; exact hflags, by rw [hsame]; exact hxruns, fun hyes => absurd hyes h, fun _ => ⟨ret, ?_, ?_⟩⟩
    · exact (Between.refl htrace).trans hbetween
    · rw [decide_eq_true_iff]
      exact hret

/-- Below its bound the counter counts. -/
theorem wrapInt_succ {x : Int} (hfits : CInt.fitsInt x) (hle : x + 1 ≤ CInt.intMax) : CInt.wrapInt (x + 1) = x + 1 := by
  have hmax : (CInt.intMax : Int) = 2 ^ 31 - 1 := rfl
  rw [CInt.fitsInt_iff] at hfits
  exact CInt.wrapInt_of_fits (by omega) (by omega)

section

variable {a a' : Attempt σ} {rest : List (Attempt σ)} {r ret : Int} (hmax : frames.toNat ≤ CInt.intMax)
  (hruns : a.Runs ops frames)

include hmax hruns

/-- The attempt is the last one. -/
theorem Recovery.last (hb : ResultBounded ops) (hleads : a.Leads (¬ a.start.pcm.isNorestart) w₁ False)
    (hcount : w₁.pcm.xruns = if a.Xrun then CInt.wrapInt (a.stop.pcm.xruns + 1) else a.stop.pcm.xruns)
    (hret : 0 ≤ r → a.result = r) :
    Recovery ops frames a.start [a] r w₁ := by
  obtain ⟨hwhole, -, hxruns, hle⟩ := hruns.spec hmax
  refine ⟨by simpa using hruns, by simpa using hwhole, ⟨[], .refl rfl⟩, ⟨by simpa using hleads, trivial⟩,
    fun hfits hle => ?_, fun hpos => ?_⟩
  · rw [hcount, hxruns]
    by_cases hx : a.Xrun
    · rw [List.countP_cons_of_pos (by simpa using hx), List.countP_nil] at hle ⊢
      rw [if_pos hx]
      exact wrapInt_succ hfits hle
    · rw [List.countP_cons_of_neg (by simpa using hx), List.countP_nil, if_neg hx]
      exact (add_zero _).symm
  · exact ⟨⟨a, rfl, hret hpos⟩, hret hpos ▸ hle hb⟩

/-- The attempt is interrupted, and behind a `PREPARE` that succeeds there are more. -/
theorem Recovery.cons (h : Recovery ops frames w₁ (a' :: rest) r w₂) (hstart : a'.start = w₁)
    (hint : a.Interrupted ∧ ¬ a.start.pcm.isNorestart) (hbetween : Between a.stop w₁ [ret]) (hret : 0 ≤ ret)
    (hflags : w₁.pcm.flags = a.stop.pcm.flags)
    (hcount : w₁.pcm.xruns = if a.Xrun then CInt.wrapInt (a.stop.pcm.xruns + 1) else a.stop.pcm.xruns) :
    Recovery ops frames a.start (a :: a' :: rest) r w₂ := by
  obtain ⟨hwhole, hsame, hxruns, -⟩ := hruns.spec hmax
  rw [hxruns] at hcount
  have hnr : w₁.pcm.isNorestart = a.start.pcm.isNorestart := by
    unfold Pcm.isNorestart
    rw [hflags, hsame]
  refine ⟨List.forall_mem_cons.2 ⟨hruns, h.runs⟩, List.forall_mem_cons.2 ⟨hwhole, h.whole⟩, ⟨[], .refl rfl⟩,
    ⟨⟨fun _ => ⟨ret, ?_, ?_⟩, fun hnot => absurd hint hnot⟩, ?_⟩, fun hfits hle => ?_, ?_⟩
  · rw [List.head?_cons, Option.map_some, Option.getD_some, hstart]
    exact hbetween
  · exact ⟨fun _ => hret, fun _ => List.cons_ne_nil _ _⟩
  · rw [← hnr]
    exact h.leads
  · by_cases hx : a.Xrun
    · rw [List.countP_cons_of_pos (by simpa using hx), Nat.cast_succ] at hle ⊢
      -- the counter holds this overrun, and those of the rest after it
      rw [if_pos hx, wrapInt_succ hfits (by omega)] at hcount
      have hfits' : CInt.fitsInt w₁.pcm.xruns := by
        rw [hcount, CInt.fitsInt_iff]
        rw [CInt.fitsInt_iff] at hfits
        have hmax : (CInt.intMax : Int) = 2 ^ 31 - 1 := rfl
        omega
      rw [h.xruns hfits' (by omega), hcount]
      omega
    · rw [List.countP_cons_of_neg (by simpa using hx)] at hle ⊢
      rw [if_neg hx] at hcount
      rw [h.xruns (hcount ▸ hfits) (hcount ▸ hle), hcount]
  · rw [List.getLast?_cons_cons]
    exact h.returns

end

/-- The attempts from `again` on. -/
theorem pcmTransferAgain_recovery (hmax : frames.toNat ≤ CInt.intMax) (hb : ResultBounded ops) :
    ∀ (fuel : Nat) (w : World σ) {r : Int},
    (exec (pcmTransferAgain ops fuel frames) w).1 = some r → ∃ a rest, a.start = w ∧
      Recovery ops frames w (a :: rest) r (exec (pcmTransferAgain ops fuel frames) w).2
  | 0, _, _, hr => by cases hr
  | fuel + 1, w, r, hr => by
    rw [pcmTransferAgain, exec_bind] at hr ⊢
    cases hres : (exec (pcmTransferOnce ops fuel frames) w).1 with
    | none =>
      rw [hres] at hr
      cases hr
    | some res =>
      rw [hres] at hr
      let a : Attempt σ := ⟨w, res, (exec (pcmTransferOnce ops fuel frames) w).2⟩
      have hruns : a.Runs ops frames := ⟨fuel, Prod.ext hres rfl⟩
      obtain ⟨-, hflags, -, -⟩ := hruns.spec hmax
      have hnr : a.stop.pcm.isNorestart = w.pcm.isNorestart := by unfold Pcm.isNorestart; rw [hflags]
      have hends : ∀ w' : World σ, ¬ a.Interrupted → w'.trace = a.stop.trace → a.Leads (¬ w.pcm.isNorestart) w' False :=
        fun w' hno ht => ⟨fun h => absurd h.1 hno, fun _ => ⟨.refl ht, id⟩⟩
      by_cases hneg : res < 0
      · simp only [hneg, if_true, exec_bind, exec_get] at hr ⊢
        by_cases he : a.stop.errno = ePipe ∨ a.stop.errno = eStrPipe
        · have hint : a.Interrupted := ⟨hneg, he⟩
          have hxrun : a.Xrun ↔ a.stop.errno = ePipe := and_iff_right hneg
          obtain ⟨hflags', hxruns', hno, hyes⟩ := pcmRestarts_between ops he
          simp only [← hxrun] at hxruns'
          rw [hnr] at hno hyes
          rw [if_pos he, exec_bind] at hr ⊢
          cases hgo : (exec (pcmRestarts ops) a.stop).1 with
          | false =>
            rw [hgo] at hr hno hyes
            rw [show (exec (pcmTransferOnce ops fuel frames) w).2 = a.stop from rfl, hgo] at *
            obtain rfl := Option.some.inj hr
            refine ⟨a, [], rfl, .last hmax hruns hb ⟨fun h => ?_, fun h => ?_⟩ hxruns' fun h => absurd h (by decide)⟩
            · obtain ⟨ret, hbetween, hret⟩ := hyes h.2
              exact ⟨ret, hbetween, ⟨False.elim, fun h => absurd (hret.2 h) (by decide)⟩⟩
            · exact ⟨(hno (by_contra fun hnot => h ⟨hint, hnot⟩)).2, id⟩
          | true =>
            rw [hgo] at hr hno hyes
            rw [show (exec (pcmTransferOnce ops fuel frames) w).2 = a.stop from rfl, hgo] at *
            have hrestarts : ¬ w.pcm.isNorestart := fun h => absurd (hno h).1 (by decide)
            obtain ⟨ret, hbetween, hret⟩ := hyes hrestarts
            obtain ⟨a', rest, hstart, hrec⟩ := pcmTransferAgain_recovery hmax hb fuel _ hr
            exact ⟨a, a' :: rest, rfl,
              hrec.cons hmax hruns hstart ⟨hint, hrestarts⟩ hbetween (hret.1 rfl) hflags' hxruns'⟩
        · have hint : ¬ a.Interrupted := fun h => he h.2
          have hxrun : ¬ a.Xrun := fun h => he (.inl h.2)
          have hdone : ∀ w' : World σ, w'.trace = a.stop.trace → w'.pcm.xruns = a.stop.pcm.xruns → r = -1 →
              ∃ b rest, b.start = w ∧ Recovery ops frames w (b :: rest) r w' := fun w' ht hx hr =>
            ⟨a, [], rfl, .last hmax hruns hb (hends w' hint ht) (by rw [hx, if_neg hxrun])
              fun hpos => absurd hpos (by rw [hr]; decide)⟩
          rw [if_neg he] at hr ⊢
          simp only [exec_bind, exec_get, exec_ite, exec_pure, exec_oops] at hr ⊢
          split at hr
          · rename_i hagain
            rw [if_pos hagain]
            exact hdone _ rfl rfl (Option.some.inj hr).symm
          · rename_i hagain
            rw [if_neg hagain]
            exact hdone _ rfl rfl (Option.some.inj hr).symm
      · simp only [hneg, if_false, exec_pure] at hr ⊢
        refine ⟨a, [], rfl, .last hmax hruns hb (hends _ (fun h => hneg h.1) rfl) ?_ fun _ => Option.some.inj hr⟩
        rw [if_neg fun h => hneg h.1]

theorem Recovery.none {rets : List Int} {r : Int} (h : Between w w₁ rets) (hx : w₁.pcm.xruns = w.pcm.xruns)
    (hneg : r < 0) :
    Recovery ops frames w [] r w₁ where
  runs := by simp
  whole := by simp
  starts := ⟨rets, h⟩
  leads := trivial
  xruns _ _ := by simpa using hx
  returns hpos := absurd hneg (not_lt.2 hpos)

/-- The attempts of a loop that starts later. -/
theorem Recovery.after {rets : List Int} {r : Int} {a : Attempt σ} {rest : List (Attempt σ)}
    (hrec : Recovery ops frames w₁ (a :: rest) r w₂) (hstart : a.start = w₁) (h : Between w w₁ rets)
    (hsame : w.pcm.Same w₁.pcm) :
    Recovery ops frames w (a :: rest) r w₂ where
  runs := hrec.runs
  whole := hrec.whole
  starts := ⟨rets, by rw [List.head?_cons, Option.map_some, Option.getD_some, hstart]; exact h⟩
  leads := by
    obtain ⟨s, e, hpcm⟩ := hsame
    have hleads := hrec.leads
    rw [hpcm] at hleads
    exact hleads
  xruns := by
    obtain ⟨s, e, hpcm⟩ := hsame
    have hxruns := hrec.xruns
    rw [hpcm] at hxruns
    exact hxruns
  returns := hrec.returns

theorem pcmGenericTransfer_recovery (hb : ResultBounded ops) (fuel : Nat) {w : World σ} {r : Int}
    (hr : (exec (pcmGenericTransfer ops fuel frames) w).1 = some r) :
    ∃ attempts, Recovery ops frames w attempts r (exec (pcmGenericTransfer ops fuel frames) w).2 := by
  unfold pcmGenericTransfer at hr ⊢
  by_cases hmax : frames.toNat > CInt.intMax
  · rw [if_pos hmax] at hr ⊢
    obtain rfl := Option.some.inj hr
    exact ⟨[], .none (.refl rfl) rfl (by decide)⟩
  · rw [if_neg hmax, exec_bind] at hr ⊢
    obtain ⟨hstate, hsame⟩ := pcmState_between ops w
    generalize (exec (pcmState ops) w).2 = w₁ at hr hstate hsame ⊢
    by_cases hsetup : (exec (pcmState ops) w).1 = PcmState.setup.code
    · rw [if_pos hsetup, exec_bind] at hr ⊢
      obtain ⟨ret, hprepare, -, hsame'⟩ := pcmPrepare_between ops w₁
      have hbetween := hstate.trans hprepare
      by_cases hfail : (exec (pcmPrepare ops) w₁).1 ≠ 0
      · rw [if_pos hfail] at hr ⊢
        obtain rfl := Option.some.inj hr
        obtain ⟨s, e, hpcm⟩ := hsame.trans hsame'
        exact ⟨[], .none hbetween (by simp only [exec_pure]; rw [hpcm]) (by decide)⟩
      · rw [if_neg hfail] at hr ⊢
        obtain ⟨a, rest, hstart, hrec⟩ := pcmTransferAgain_recovery (not_lt.1 hmax) hb fuel _ hr
        exact ⟨a :: rest, hrec.after hstart hbetween (hsame.trans hsame')⟩
    · rw [if_neg hsetup] at hr ⊢
      obtain ⟨a, rest, hstart, hrec⟩ := pcmTransferAgain_recovery (not_lt.1 hmax) hb fuel _ hr
      exact ⟨a :: rest, hrec.after hstart hstate hsame⟩

/-- A call of `pcm_writei` or `pcm_readi` that returns consists of attempts, each of them offered the whole
buffer. Every overrun is counted once, as far as the counter goes, and answered by one `PREPARE` and one more
attempt. -/
theorem pcmTransfer_recovery (hb : ResultBounded ops) (api : RwApi) (fuel : Nat) {w : World σ} {r : Int}
    (hr : (exec (api.call ops fuel frames) w).1 = some r) :
    ∃ attempts, Recovery ops frames w attempts r (exec (api.call ops fuel frames) w).2 := by
  have hrefused : r = -eInval → ∃ attempts, Recovery ops frames w attempts r w := fun h =>
    ⟨[], .none (.refl rfl) rfl (by rw [h]; decide)⟩
  cases api with
  | writei =>
    by_cases hin : w.pcm.isIn
    · simp only [RwApi.call, pcmWritei, exec_bind, exec_get, hin, if_true, exec_pure] at hr ⊢
      exact hrefused (Option.some.inj hr).symm
    · simp only [RwApi.call, pcmWritei, exec_bind, exec_get, hin, Bool.false_eq_true, if_false] at hr ⊢
      exact pcmGenericTransfer_recovery hb fuel hr
  | readi =>
    by_cases hin : w.pcm.isIn
    · simp only [RwApi.call, pcmReadi, exec_bind, exec_get, hin, if_true] at hr ⊢
      exact pcmGenericTransfer_recovery hb fuel hr
    · simp only [RwApi.call, pcmReadi, exec_bind, exec_get, hin, Bool.false_eq_true, if_false, exec_pure] at hr ⊢
      exact hrefused (Option.some.inj hr).symm

end

theorem resultBounded_stoppingOps : ResultBounded stoppingOps := by
  intro b n u k
  simp only [stoppingOps]
  split
  · exact fun h => absurd h (show (-1 : Int) ≠ 0 by decide)
  · exact fun _ => ⟨show (-2 ^ 31 : Int) ≤ n.toNat by omega, le_rfl⟩

/-- A stream in an underrun that is restarted, after so many before. -/
def restartedWorld (xruns : Int) : World Kernel :=
  { underrunWorld .xrun with pcm := { (underrunWorld .xrun).pcm with flags := 0, xruns } }

/-- And one with a mapped ring of eight frames. -/
def mappedUnderrun : World Kernel :=
  { underrunWorld .xrun with
    pcm := { (underrunWorld .xrun).pcm with flags := pcmMmap, bufferSize := 8, boundary := 1024 }
    user := ⟨16, fun _ => 0⟩ }

/-- Writes into an underrun, by a read/write stream and by a mapped one: prepared and tried again. -/
theorem pcmTransfer_recovery_underrun :
    (∃ attempts, Recovery stoppingOps 4 (restartedWorld 0) attempts 4
        (exec (RwApi.call stoppingOps 2 4 .writei) (restartedWorld 0)).2) ∧
      (∃ attempts, Recovery stoppingOps 4 mappedUnderrun attempts 4
        (exec (RwApi.call stoppingOps 12 4 .writei) mappedUnderrun).2) ∧
      (exec (RwApi.call stoppingOps 2 4 .writei) (restartedWorld 0)).2.pcm.xruns = 1 ∧
      (exec (RwApi.call stoppingOps 12 4 .writei) mappedUnderrun).2.pcm.xruns = 1 :=
  ⟨pcmTransfer_recovery resultBounded_stoppingOps .writei 2 (by decide +kernel),
    pcmTransfer_recovery resultBounded_stoppingOps .writei 12 (by decide +kernel), by decide +kernel, by decide +kernel⟩

/-- An underrun too many for the counter. -/
theorem pcmTransfer_recovery_wraps :
    (exec (RwApi.call stoppingOps 2 4 .writei) (restartedWorld CInt.intMax)).1 = some 4 ∧
      ∀ attempts : List (Attempt Kernel),
        (exec (RwApi.call stoppingOps 2 4 .writei) (restartedWorld CInt.intMax)).2.pcm.xruns ≠
          (restartedWorld CInt.intMax).pcm.xruns + attempts.countP fun a => a.Xrun := by
  refine ⟨by decide +kernel, fun attempts h => ?_⟩
  have hwrapped : (exec (RwApi.call stoppingOps 2 4 .writei) (restartedWorld CInt.intMax)).2.pcm.xruns = -2 ^ 31 := by
    decide +kernel
  have hbefore : (restartedWorld CInt.intMax).pcm.xruns = 2 ^ 31 - 1 := rfl
  rw [hwrapped, hbefore] at h
  omega

end Tinyalsa
