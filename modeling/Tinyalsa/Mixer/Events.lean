/-
Waiting for the events of a mixer and reading them (`mixer_wait_event`, `mixer_read_event`,
`mixer_consume_event`). A group counts the waits that found it readable, and a read trusts that
count; the backends here have numbers of pending events, which events arrive at on their own.
-/
import Tinyalsa.Lib.Run
import Tinyalsa.Mixer.Group

namespace Tinyalsa

open Hoare Run

/-! ## The functions -/

/-- What waiting and reading use of a mixer: `grp` holds the `event_cnt` of the groups that are not
`NULL`. The descriptor is that of the hardware group. -/
structure EventMixer where
  fd : Int
  eventfd : Int
  grp : GrpKind → Option UInt32
  hardware : 0 ≤ fd ↔ (grp .hw).isSome

/-- `reads` is the reads issued, with the events that were pending at each. Ghost. -/
structure EventWorld where
  mixer : EventMixer
  pending : GrpKind → Nat
  errno : Int := 0
  reads : List (GrpKind × Nat) := []

abbrev EventM := StateM EventWorld

/-- What a `poll` meets beside the pending events: a signal, and descriptors in error. -/
structure PollAnswer where
  interrupted : Option Int := none
  inError : GrpKind → Bool := fun _ => false

/-- Changes the `event_cnt` of a group. -/
def setEventCnt (k : GrpKind) (f : UInt32 → UInt32) : EventM Unit := modify fun w => { w with
  mixer := { w.mixer with
    grp := Function.update w.mixer.grp k ((w.mixer.grp k).map f)
    hardware := by
      cases k with
      | hw => rw [Function.update_self, Option.isSome_map]; exact w.mixer.hardware
      | plug => rw [Function.update_of_ne (by decide)]; exact w.mixer.hardware } }

/-- The descriptors of `mixer_wait_event`: that of the hardware, and the `eventfd` of the plugin. -/
def pollFds (m : EventMixer) : List GrpKind :=
  (if m.fd ≥ 0 then [.hw] else []) ++ if (m.grp .plug).isSome ∧ m.eventfd ≠ -1 then [.plug] else []

/-- `pfd[i].revents` is not 0. -/
def PollAnswer.reports (a : PollAnswer) (w : EventWorld) (k : GrpKind) : Bool := a.inError k || 0 < w.pending k

/-- The loop over the descriptors from the `i`-th on; `none` where it comes to its end. -/
def scanPollFds (a : PollAnswer) : Nat → List GrpKind → EventM (Option Int)
  | _, [] => return none
  | i, k :: rest => do
    if a.inError k then return some (-eIo)
    else if 0 < (← get).pending k then
      if i = 0 ∧ (← get).mixer.fd ≥ 0 then setEventCnt .hw (· + 1) else setEventCnt .plug (· + 1)
      return some 1
    else scanPollFds a (i + 1) rest

/-- The loop of `mixer_wait_event`, with what each `poll` meets. -/
def waitLoop (answers : Nat → PollAnswer) (fds : List GrpKind) : Nat → EventM (Option Int)
  | 0 => return none
  | fuel + 1 => do
    match (answers fuel).interrupted with
    | some e => return some (-e)
    | none =>
      let w ← get
      if fds.countP ((answers fuel).reports w) = 0 then return some 0
      else
        match ← scanPollFds (answers fuel) 0 fds with
        | some ret => return some ret
        | none => waitLoop answers fds fuel

/-- `mixer_wait_event`. `memory` says whether its allocation succeeds. -/
def mixerWaitEvent (memory : Bool) (answers : Nat → PollAnswer) (fuel : Nat) : EventM (Option Int) := do
  let fds := pollFds (← get).mixer
  if !memory then return some (-eNoMem)
  else if fds = [] then return some 0
  else waitLoop answers fds fuel

/-- `sizeof(struct mixer_ctl_event)`, which mirrors `struct snd_ctl_event`. -/
def sizeofEvent : Int := 72

/-- `grp->ops->read_event(grp->data, &ev, sizeof(ev))`: a hardware read with no event pending blocks, one
of the plugin returns 0. -/
def opsReadEvent (k : GrpKind) (fails : Option Int) : EventM (Option Int) := do
  let w ← get
  let reads := (k, w.pending k) :: w.reads
  match fails, w.pending k with
  | some errno, _ =>
    set { w with errno, reads }
    return some (-1)
  | none, n + 1 =>
    set { w with pending := Function.update w.pending k n, reads }
    return some sizeofEvent
  | none, 0 =>
    set { w with reads }
    return if k = .hw then none else some 0

/-- The group that `mixer_read_event` reads: the plugin's before the hardware's. -/
def readGrp (m : EventMixer) : Option GrpKind :=
  if (m.grp .plug).any (0 < ·) then some .plug
  else if (m.grp .hw).any (0 < ·) then some .hw
  else none

/-- `mixer_read_event`; `none` where it blocks. -/
def mixerReadEvent (fails : Option Int) : EventM (Option Int) := do
  match readGrp (← get).mixer with
  | none => return some 0
  | some k =>
    setEventCnt k (· - 1)
    match ← opsReadEvent k fails with
    | none => return none
    | some bytes =>
      if bytes < 0 then return some (-(← get).errno)
      else if bytes = sizeofEvent then return some 1
      else return some 0

/-- `mixer_consume_event`. -/
def mixerConsumeEvent (fails : Option Int) : EventM (Option Int) := mixerReadEvent fails

/-! ## Runs -/

/-- An event arrives, or a function is called. -/
inductive EventAction
  | arrive (k : GrpKind)
  | wait (memory : Bool) (answers : Nat → PollAnswer) (fuel : Nat)
  | read (fails : Option Int)
  | consume (fails : Option Int)

/-- What the action returns, and the world after it. -/
def EventAction.run : EventAction → EventM (Option Int)
  | .arrive k => do
    modify fun w => { w with pending := Function.update w.pending k (w.pending k + 1) }
    return some 0
  | .wait memory answers fuel => mixerWaitEvent memory answers (fuel + 1)
  | .read fails => mixerReadEvent fails
  | .consume fails => mixerConsumeEvent fails

def eventStep (w : EventWorld) (a : EventAction) : EventWorld := (exec a.run w).2

/-- The actions that read. -/
def EventAction.isRead : EventAction → Bool
  | .read _ | .consume _ => true
  | _ => false

/-- No group counts more waits than it has events pending. -/
def CountsFit (w : EventWorld) : Prop := ∀ k cnt, w.mixer.grp k = some cnt → cnt.toNat ≤ w.pending k

/-- Every read was issued with an event pending, and no count exceeds the pending events. -/
structure EventsSound (w : EventWorld) : Prop where
  reads : ∀ r ∈ w.reads, 0 < r.2
  counts : CountsFit w

/-- The action ends in a sound state, and does not read where nothing is pending. -/
structure ReadsPending (w : EventWorld) (a : EventAction) : Prop where
  sound : EventsSound (eventStep w a)
  empty : a.isRead → (∀ k, (w.mixer.grp k).isSome → w.pending k = 0) →
    (exec a.run w).1 = some 0 ∧ (eventStep w a).reads = w.reads

/-- The group whose readiness a wait reports: that of the first descriptor with something to report. -/
def EventAction.waitsFor (w : EventWorld) : EventAction → Option GrpKind
  | .wait memory answers fuel =>
    if memory ∧ (answers fuel).interrupted = none then
      ((pollFds w.mixer).find? ((answers fuel).reports w)).filter fun k => !(answers fuel).inError k
    else none
  | _ => none

/-- The group that a wait reports has fewer waits counted than events pending, or its count wraps to 0. -/
def WaitCounted (w : EventWorld) (a : EventAction) : Prop :=
  ∀ k cnt, a.waitsFor w = some k → w.mixer.grp k = some cnt → (cnt + 1).toNat ≤ w.pending k

section

variable {w : EventWorld} {k : GrpKind} {a : EventAction}

theorem exec_setEventCnt_grp (k : GrpKind) (f : UInt32 → UInt32) (w : EventWorld) :
    (exec (setEventCnt k f) w).2.mixer.grp = Function.update w.mixer.grp k ((w.mixer.grp k).map f) ∧
      (exec (setEventCnt k f) w).2.pending = w.pending ∧ (exec (setEventCnt k f) w).2.reads = w.reads :=
  ⟨rfl, rfl, rfl⟩

/-- A scan ends at the first descriptor with something to report, and counts its group. -/
theorem scanPollFds_spec (a : PollAnswer) (w : EventWorld) : ∀ (i : Nat) (fds : List GrpKind),
    (∀ k, fds.head? = some k → (k = .hw ↔ i = 0 ∧ w.mixer.fd ≥ 0)) → (∀ k ∈ fds.tail, k = .plug) →
    exec (scanPollFds a i fds) w =
      match fds.find? (a.reports w) with
      | none => (none, w)
      | some k => if a.inError k then (some (-eIo), w) else (some 1, (exec (setEventCnt k (· + 1)) w).2)
  | _, [], _, _ => rfl
  | i, k :: rest, hhead, htail => by
    unfold scanPollFds
    rw [List.find?_cons]
    by_cases herr : a.inError k
    · simp [herr, PollAnswer.reports]
    · by_cases hpend : 0 < w.pending k
      · have hbranch := hhead k rfl
        cases k with
        | hw =>
          have hfirst := hbranch.1 rfl
          simp [herr, hpend, PollAnswer.reports, hfirst]
        | plug =>
          have hfirst : ¬ (i = 0 ∧ w.mixer.fd ≥ 0) := fun h => absurd (hbranch.2 h) (by decide)
          simp [herr, hpend, PollAnswer.reports, hfirst]
      · have hrest : ∀ k', rest.head? = some k' → (k' = .hw ↔ i + 1 = 0 ∧ w.mixer.fd ≥ 0) := by
          intro k' hk'
          rw [htail k' (List.mem_of_mem_head? hk')]
          exact iff_of_false nofun fun h => Nat.succ_ne_zero i h.1
        have hnext := scanPollFds_spec a w (i + 1) rest hrest fun k' hk' => htail k' (List.mem_of_mem_tail hk')
        simpa [herr, hpend, PollAnswer.reports] using hnext

/-- A hardware descriptor is the first one, and there is none without a hardware group. -/
theorem pollFds_order (m : EventMixer) :
    (∀ k, (pollFds m).head? = some k → (k = .hw ↔ (0 : Nat) = 0 ∧ m.fd ≥ 0)) ∧ ∀ k ∈ (pollFds m).tail, k = .plug := by
  unfold pollFds
  by_cases hfd : m.fd ≥ 0 <;> by_cases hplug : (m.grp .plug).isSome ∧ m.eventfd ≠ -1 <;> simp [hfd, hplug]

/-- One pass decides a wait: it leaves the world alone, or counts the group it reports. -/
theorem waitLoop_spec (answers : Nat → PollAnswer) (fuel : Nat) (hint : (answers fuel).interrupted = none) :
    (exec (waitLoop answers (pollFds w.mixer) (fuel + 1)) w).2 =
      match ((pollFds w.mixer).find? ((answers fuel).reports w)).filter fun k => !(answers fuel).inError k with
      | none => w
      | some k => (exec (setEventCnt k (· + 1)) w).2 := by
  obtain ⟨hhead, htail⟩ := pollFds_order w.mixer
  have hscan := scanPollFds_spec (answers fuel) w 0 (pollFds w.mixer) hhead htail
  unfold waitLoop
  simp only [hint, exec_bind, exec_get]
  cases hfind : (pollFds w.mixer).find? ((answers fuel).reports w) with
  | none =>
    rw [if_pos (List.countP_eq_zero.2 fun k hk => List.find?_eq_none.1 hfind k hk)]
    rfl
  | some k =>
    have hpos : (pollFds w.mixer).countP ((answers fuel).reports w) ≠ 0 := fun hzero =>
      List.countP_eq_zero.1 hzero k (List.mem_of_find?_eq_some hfind) (List.find?_some hfind)
    rw [hfind] at hscan
    rw [if_neg hpos, exec_bind, hscan]
    by_cases herr : (answers fuel).inError k
    · simp [herr, Option.filter_some]
    · simp [herr, Option.filter_some]

theorem eventStep_wait (w : EventWorld) (memory : Bool) (answers : Nat → PollAnswer) (fuel : Nat) :
    eventStep w (.wait memory answers fuel) =
      match (EventAction.wait memory answers fuel).waitsFor w with
      | none => w
      | some k => (exec (setEventCnt k (· + 1)) w).2 := by
  unfold eventStep EventAction.run mixerWaitEvent EventAction.waitsFor
  simp only [exec_bind, exec_get]
  cases memory with
  | false => simp
  | true =>
    by_cases hnil : pollFds w.mixer = []
    · simp [hnil]
    · cases hint : (answers fuel).interrupted with
      | some e => simp [hint, hnil, waitLoop]
      | none =>
        have hloop := waitLoop_spec (w := w) answers fuel hint
        simpa [hnil] using hloop

/-- What a read does to the counts and the pending events. -/
structure ReadStep (k : GrpKind) (w w' : EventWorld) : Prop where
  left : ∃ left, w.pending k ≤ left + 1 ∧ w'.pending = Function.update w.pending k left
  counts : w'.mixer.grp = Function.update w.mixer.grp k ((w.mixer.grp k).map (· - 1))
  reads : w'.reads = (k, w.pending k) :: w.reads

theorem mixerReadEvent_none (fails : Option Int) (h : readGrp w.mixer = none) :
    exec (mixerReadEvent fails) w = (some 0, w) := by
  simp only [mixerReadEvent, exec_bind, exec_get, h]
  rfl

theorem mixerReadEvent_some (fails : Option Int) (h : readGrp w.mixer = some k) :
    ReadStep k w (exec (mixerReadEvent fails) w).2 := by
  have hbackend : ReadStep k w (exec (opsReadEvent k fails) (exec (setEventCnt k (· - 1)) w).2).2 := by
    unfold opsReadEvent
    have hpend : (exec (setEventCnt k (· - 1)) w).2.pending k = w.pending k := rfl
    cases fails with
    | some e => exact ⟨⟨w.pending k, Nat.le_succ _, (Function.update_eq_self k w.pending).symm⟩, rfl, rfl⟩
    | none =>
      cases hk : w.pending k with
      | zero =>
        simp only [exec_bind, exec_get, hpend, hk]
        exact ⟨⟨0, by omega, by rw [← hk]; exact (Function.update_eq_self k w.pending).symm⟩, rfl, by rw [hk]; rfl⟩
      | succ n =>
        simp only [exec_bind, exec_get, hpend, hk]
        exact ⟨⟨n, by omega, rfl⟩, rfl, by rw [hk]; rfl⟩
  have hend : (exec (mixerReadEvent fails) w).2 =
      (exec (opsReadEvent k fails) (exec (setEventCnt k (· - 1)) w).2).2 := by
    simp only [mixerReadEvent, exec_bind, exec_get, h]
    generalize exec (opsReadEvent k fails) (exec (setEventCnt k (· - 1)) w).2 = r
    obtain ⟨bytes, w'⟩ := r
    cases bytes with
    | none => rfl
    | some bytes =>
      simp only [exec_ite, exec_bind, exec_get, exec_pure]
      split
      · rfl
      · split <;> rfl
  rw [hend]
  exact hbackend

/-- A read is of a group that counts a wait. -/
theorem readGrp_counts {m : EventMixer} (h : readGrp m = some k) : ∃ cnt, m.grp k = some cnt ∧ 0 < cnt.toNat := by
  unfold readGrp at h
  have hany : ∀ o : Option UInt32, o.any (0 < ·) → ∃ cnt, o = some cnt ∧ 0 < cnt.toNat := by
    rintro (_ | cnt) ho
    · cases ho
    · exact ⟨cnt, rfl, UInt32.lt_iff_toNat_lt.1 (of_decide_eq_true ho)⟩
  split at h
  · rename_i hv
    obtain rfl := Option.some.inj h
    exact hany _ hv
  · split at h
    · rename_i hh
      obtain rfl := Option.some.inj h
      exact hany _ hh
    · cases h

theorem ReadStep.sound {w' : EventWorld} (h : ReadStep k w w') (hs : EventsSound w) {cnt : UInt32}
    (hk : w.mixer.grp k = some cnt) (hpos : 0 < cnt.toNat) : EventsSound w' := by
  obtain ⟨left, hleft, hpend⟩ := h.left
  have hfit := hs.counts k cnt hk
  refine ⟨fun r hr => ?_, fun k' cnt' hk' => ?_⟩
  · rw [h.reads] at hr
    rcases List.mem_cons.1 hr with rfl | hr
    · exact hpos.trans_le hfit
    · exact hs.reads r hr
  · rw [h.counts] at hk'
    rw [hpend]
    rcases eq_or_ne k' k with rfl | hne
    · rw [Function.update_self, hk] at hk'
      obtain rfl := Option.some.inj hk'
      have hsub : (cnt - 1).toNat = cnt.toNat - 1 := UInt32.toNat_sub_of_le _ _ (UInt32.le_iff_toNat_le.2 hpos)
      rw [Function.update_self]
      show (cnt - 1).toNat ≤ left
      omega
    · rw [Function.update_of_ne hne] at hk' ⊢
      exact hs.counts k' cnt' hk'

/-- A read in a sound state ends in one, and reads only what has an event pending. -/
theorem EventsSound.read (hs : EventsSound w) (fails : Option Int) :
    EventsSound (exec (mixerReadEvent fails) w).2 ∧
      ((∀ k, (w.mixer.grp k).isSome → w.pending k = 0) →
        (exec (mixerReadEvent fails) w).1 = some 0 ∧ (exec (mixerReadEvent fails) w).2.reads = w.reads) := by
  cases hgrp : readGrp w.mixer with
  | none =>
    rw [mixerReadEvent_none fails hgrp]
    exact ⟨hs, fun _ => ⟨rfl, rfl⟩⟩
  | some k =>
    obtain ⟨cnt, hk, hpos⟩ := readGrp_counts hgrp
    refine ⟨(mixerReadEvent_some fails hgrp).sound hs hk hpos, fun hempty => ?_⟩
    have hfit := hs.counts k cnt hk
    have hzero := hempty k (by rw [hk]; rfl)
    omega

theorem EventsSound.arrive (hs : EventsSound w) (k : GrpKind) : EventsSound (eventStep w (.arrive k)) := by
  refine ⟨hs.reads, fun k' cnt hk' => ?_⟩
  have hfit := hs.counts k' cnt hk'
  show cnt.toNat ≤ Function.update w.pending k (w.pending k + 1) k'
  rcases eq_or_ne k' k with rfl | hne
  · rw [Function.update_self]
    omega
  · rw [Function.update_of_ne hne]
    exact hfit

/-- Counting a wait is sound just when the count still fits. -/
theorem EventsSound.counted_iff (hs : EventsSound w) (k : GrpKind) :
    EventsSound (exec (setEventCnt k (· + 1)) w).2 ↔
      ∀ cnt, w.mixer.grp k = some cnt → (cnt + 1).toNat ≤ w.pending k := by
  obtain ⟨hgrp, hpend, hreads⟩ := exec_setEventCnt_grp k (· + 1) w
  constructor
  · intro h cnt hk
    have hfit := h.counts k (cnt + 1) (by rw [hgrp, Function.update_self, hk]; rfl)
    rwa [hpend] at hfit
  · refine fun h => ⟨by rw [hreads]; exact hs.reads, fun k' cnt' hk' => ?_⟩
    rw [hgrp] at hk'
    rw [hpend]
    rcases eq_or_ne k' k with rfl | hne
    · rw [Function.update_self] at hk'
      obtain ⟨cnt, hk, rfl⟩ := Option.map_eq_some_iff.1 hk'
      exact h cnt hk
    · rw [Function.update_of_ne hne] at hk'
      exact hs.counts k' cnt' hk'

/-- From a sound state on, an action reads soundly just when a wait among them is covered. -/
theorem EventsSound.readsPending_iff (hs : EventsSound w) (a : EventAction) : ReadsPending w a ↔ WaitCounted w a := by
  cases a with
  | arrive k => exact iff_of_true ⟨hs.arrive k, nofun⟩ nofun
  | read fails => exact iff_of_true ⟨(hs.read fails).1, fun _ => (hs.read fails).2⟩ nofun
  | consume fails => exact iff_of_true ⟨(hs.read fails).1, fun _ => (hs.read fails).2⟩ nofun
  | wait memory answers fuel =>
    have hstep := eventStep_wait w memory answers fuel
    unfold WaitCounted
    cases hfor : (EventAction.wait memory answers fuel).waitsFor w with
    | none =>
      rw [hfor] at hstep
      exact iff_of_true ⟨hstep ▸ hs, nofun⟩ nofun
    | some k =>
      rw [hfor] at hstep
      constructor
      · rintro ⟨hsound, -⟩ k' cnt hk' hcnt
        obtain rfl := Option.some.inj hk'
        rw [hstep] at hsound
        exact (hs.counted_iff k).1 hsound cnt hcnt
      · intro h
        refine ⟨?_, nofun⟩
        rw [hstep]
        exact (hs.counted_iff k).2 fun cnt => h k cnt rfl

/-- Nothing is counted and nothing read yet. -/
structure EventWorld.Opened (w : EventWorld) : Prop where
  counts : ∀ k cnt, w.mixer.grp k = some cnt → cnt = 0
  reads : w.reads = []

theorem EventWorld.Opened.sound (h : w.Opened) : EventsSound w := by
  refine ⟨by rw [h.reads]; exact nofun, fun k cnt hk => ?_⟩
  rw [h.counts k cnt hk]
  exact Nat.zero_le _

/-- Along a run from an opened mixer no read meets a group without a pending event, and no count exceeds
the pending events, just when every wait that reports a group has an event of it to count. -/
theorem eventRun_readsPending_iff (hw : w.Opened) (acts : List EventAction) :
    Along eventStep ReadsPending w acts ↔ Along eventStep WaitCounted w acts :=
  along_iff (fun _ a hs ha => ((EventsSound.readsPending_iff hs a).2 ha).sound)
    (fun _ a hs => EventsSound.readsPending_iff hs a) hw.sound

end

/-- A mixer with both groups, just opened. -/
def openedEvents : EventWorld where
  mixer := { fd := 3, eventfd := 4, grp := fun _ => some 0, hardware := by decide }
  pending := fun _ => 0

/-- A wait that meets nothing but the pending events. -/
def plainWait : EventAction := .wait true (fun _ => {}) 0

theorem openedEvents_opened : openedEvents.Opened :=
  ⟨fun _ _ h => (Option.some.inj h).symm, rfl⟩

theorem waitCounted_of {w : EventWorld} {a : EventAction} (k : GrpKind) (cnt : UInt32) (hk : a.waitsFor w = some k)
    (hcnt : w.mixer.grp k = some cnt) (h : (cnt + 1).toNat ≤ w.pending k) : WaitCounted w a := by
  intro k' cnt' hk' hcnt'
  obtain rfl := Option.some.inj (hk.symm.trans hk')
  obtain rfl := Option.some.inj (hcnt.symm.trans hcnt')
  exact h

/-- Waits and reads in turn. -/
theorem eventRun_readsPending_inTurn :
    Along eventStep ReadsPending openedEvents
      [.arrive .hw, plainWait, .read none, .arrive .plug, plainWait, .consume none] := by
  rw [eventRun_readsPending_iff openedEvents_opened]
  simp only [along_cons]
  refine ⟨nofun, ?_, nofun, nofun, ?_, nofun, .nil⟩
  · exact waitCounted_of .hw 0 (by decide) (by decide) (by decide)
  · exact waitCounted_of .plug 0 (by decide) (by decide) (by decide)

/-- Two waits find the same hardware event; the second read then blocks. -/
theorem eventRun_readsPending_not :
    (exec (EventAction.read none).run
      ([.arrive .hw, plainWait, plainWait, .read none].foldl eventStep openedEvents)).1 = none ∧
      ¬ Along eventStep ReadsPending openedEvents [.arrive .hw, plainWait, plainWait, .read none, .read none] := by
  refine ⟨by decide, fun h => ?_⟩
  have hsound := (h [.arrive .hw, plainWait] plainWait [.read none, .read none] rfl).sound
  exact absurd (hsound.counts .hw 2 (by decide)) (by decide)

end Tinyalsa
