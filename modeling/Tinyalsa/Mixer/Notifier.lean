/-
The events of a mixer plugin: a counter under a mutex and an `eventfd` that follows it. Notifier
callbacks of the plugin and the calls of an application run interleaved; a section under the mutex and
a read or write of the `eventfd` are one step each.
-/
import Tinyalsa.Lib.CInt
import Tinyalsa.Lib.Run

namespace Tinyalsa

open Run

/-! ## Steps -/

/-- The functions with a loop of `eventfd_read`s. -/
inductive PlugEventCall
  | readEvent | unsubscribe | close
  deriving DecidableEq, Repr

/-- Where the application is in a call of the plugin's operations. -/
inductive PlugEventPc
  | idle
  /-- `ops->read_event` has returned this many events. -/
  | took (readCnt : UInt32)
  /-- `ops->subscribe_events(plugin, NULL)` has returned. -/
  | unsubscribing
  | closing
  /-- In the loop of a call, with that many `eventfd_read`s left. -/
  | reads (left : UInt32) (call : PlugEventCall)
  | closed
  deriving DecidableEq, Repr

/-- The counter has been read for the last time. -/
def PlugEventPc.closes : PlugEventPc → Bool
  | .reads _ .close | .closed => true
  | _ => false

/-- The events that were returned and are still on the counter. -/
def PlugEventPc.taken : PlugEventPc → Nat
  | .took readCnt => readCnt.toNat
  | _ => 0

/-- The reads that are left. -/
def PlugEventPc.left : PlugEventPc → Nat
  | .reads left _ => left.toNat
  | _ => 0

/-- `struct mixer_plugin` as its events use it, with the state of those who do: `inFlight` callbacks have
left the mutex and are about to write. The rest is ghost: the events notified, returned and drained in
all, and for each drain the reads it set out to make and the notifications it found pending. -/
structure PlugEvents where
  eventCnt : Int := 0
  subscribed : Int := 0
  eventfd : Nat := 0
  inFlight : Nat := 0
  pc : PlugEventPc := .idle
  notified : Nat := 0
  returned : Nat := 0
  drained : Nat := 0
  drains : List (Nat × Int) := []

/-- The notifications that neither a read nor an unsubscription has accounted for. -/
def PlugEvents.pending (p : PlugEvents) : Int := p.notified - p.returned - p.drained

/-- `result / sizeof(struct snd_ctl_event)`. -/
def readCount (result : Int) : UInt32 := (result.toNat / 72).toUInt32

/-- The section of `mixer_plug_notifier_cb`. -/
def notifierSection (p : PlugEvents) : PlugEvents :=
  { p with eventCnt := CInt.wrapInt (p.eventCnt + 1), inFlight := p.inFlight + 1, notified := p.notified + 1 }

/-- The `eventfd_write` of `mixer_plug_notifier_cb`. -/
def notifierWrite (p : PlugEvents) : PlugEvents :=
  match p.inFlight with
  | 0 => p
  | n + 1 => { p with inFlight := n, eventfd := p.eventfd + 1 }

/-- The section of `mixer_plug_read_event`. -/
def readEventSection (readCnt : UInt32) (p : PlugEvents) : PlugEvents :=
  { p with eventCnt := CInt.wrapInt (p.eventCnt - readCnt.toNat), pc := .reads readCnt .readEvent }

/-- The section of `mixer_plug_subscribe_events`. -/
def unsubscribeSection (p : PlugEvents) : PlugEvents :=
  let count := CInt.toUInt p.eventCnt
  { p with
    eventCnt := 0
    pc := .reads count .unsubscribe
    drained := p.drained + count.toNat
    drains := (count.toNat, p.pending) :: p.drains }

/-- The section of `mixer_plug_close`. -/
def closeSection (p : PlugEvents) : PlugEvents :=
  let count := CInt.toUInt p.eventCnt
  { p with pc := .reads count .close, drains := (count.toNat, p.pending) :: p.drains }

/-- What follows the loop of a call. -/
def finishCall (call : PlugEventCall) (p : PlugEvents) : PlugEvents :=
  match call with
  | .readEvent => { p with pc := .idle }
  | .unsubscribe => { p with subscribed := 0, pc := .idle }
  | .close => { p with pc := .closed }

/-- A pass of the loop of `eventfd_read`s; it waits for a positive value. -/
def eventfdRead (left : UInt32) (call : PlugEventCall) (p : PlugEvents) : PlugEvents :=
  if left = 0 then finishCall call p
  else
    match p.eventfd with
    | 0 => p
    | n + 1 => { p with eventfd := n, pc := .reads (left - 1) call }

/-- `mixer_plug_subscribe_events` up to its section. -/
def subscribeEvents (subscribe : Int) (p : PlugEvents) : PlugEvents :=
  if subscribe < 0 ∨ subscribe > 1 then p
  else if subscribe ≠ 0 ∧ p.subscribed = 0 then { p with subscribed := subscribe }
  else if p.subscribed ≠ 0 ∧ subscribe = 0 then { p with pc := .unsubscribing }
  else { p with subscribed := subscribe }

/-- The steps of the callbacks and of the application. -/
inductive PlugEventAction
  | notify
  | write
  /-- `mixer_plug_read_event` is called, and the plugin returns so many bytes. -/
  | readEvent (result : Int)
  | subscribe (subscribe : Int)
  | close
  /-- The application's call goes on. -/
  | resume
  deriving DecidableEq, Repr

/-- A step that is not enabled changes nothing. -/
def plugEventStep (p : PlugEvents) : PlugEventAction → PlugEvents
  | .notify => if p.pc.closes then p else notifierSection p
  | .write => notifierWrite p
  | .readEvent result =>
    if p.pc = .idle ∧ result > 0 then
      { p with pc := .took (readCount result), returned := p.returned + (readCount result).toNat }
    else p
  | .subscribe subscribe => if p.pc = .idle then subscribeEvents subscribe p else p
  | .close => if p.pc = .idle then { p with pc := .closing } else p
  | .resume =>
    match p.pc with
    | .idle | .closed => p
    | .took readCnt => readEventSection readCnt p
    | .unsubscribing => unsubscribeSection p
    | .closing => closeSection p
    | .reads left call => eventfdRead left call p

/-! ## Counter and semaphore in step -/

/-- The counter and the semaphore are in step. -/
structure InStep (p : PlugEvents) : Prop where
  counter : 0 ≤ p.eventCnt
  /-- No call is in progress. -/
  quiet : p.pc = .idle → p.inFlight = 0 → (p.eventfd : Int) = p.eventCnt
  /-- The writes that are under way suffice for the reads that are left. -/
  fed : ∀ left call, p.pc = .reads left call → left.toNat ≤ p.eventfd + p.inFlight
  drains : ∀ d ∈ p.drains, (d.1 : Int) = d.2

/-- The section of a read finds its events notified, and neither returned nor drained before; a callback
finds the counter below its maximum. -/
def EventsCovered (p : PlugEvents) : PlugEventAction → Prop
  | .notify => p.pc.closes = false → p.eventCnt < CInt.intMax
  | .resume => ∀ readCnt, p.pc = .took readCnt → p.returned + p.drained ≤ p.notified
  | _ => True

/-- The counter shows what is pending; the semaphore lags behind it by the writes under way, and is ahead
by the reads left. -/
structure PlugEventsInv (p : PlugEvents) : Prop where
  nonneg : 0 ≤ p.eventCnt
  fits : p.eventCnt ≤ CInt.intMax
  counter : p.pc.closes = false → p.eventCnt = p.pending + p.pc.taken
  semaphore : (p.eventfd + p.inFlight : Int) = (if p.pc.closes then 0 else p.eventCnt) + p.pc.left
  drains : ∀ d ∈ p.drains, (d.1 : Int) = d.2

section

variable {p : PlugEvents}

/-- Outside the loop of a call, and before the last section, the semaphore will follow the counter. -/
theorem PlugEventsInv.follows (h : PlugEventsInv p) (hcloses : p.pc.closes = false) (hleft : p.pc.left = 0) :
    (p.eventfd + p.inFlight : Int) = p.eventCnt := by
  have hsem := h.semaphore
  rw [hcloses, hleft] at hsem
  simpa using hsem

theorem PlugEventsInv.counter_took (h : PlugEventsInv p) {readCnt : UInt32} (hpc : p.pc = .took readCnt) :
    p.eventCnt = p.pending + readCnt.toNat := by
  have hcounter := h.counter (by rw [hpc]; rfl)
  rw [hpc] at hcounter
  exact hcounter

theorem PlugEventsInv.inStep (h : PlugEventsInv p) : InStep p := by
  have hnonneg := h.nonneg
  refine ⟨hnonneg, fun hpc hin => ?_, fun left call hpc => ?_, h.drains⟩
  · have hsem := h.follows (by rw [hpc]; rfl) (by rw [hpc]; rfl)
    omega
  · have hsem := h.semaphore
    rw [hpc, PlugEventPc.left] at hsem
    split at hsem <;> omega

theorem PlugEventsInv.notify (h : PlugEventsInv p) (hpc : p.pc.closes = false) (hlt : p.eventCnt < CInt.intMax) :
    PlugEventsInv (notifierSection p) := by
  obtain ⟨hnonneg, hfits, hcounter, hsem, hdrains⟩ := h
  have hmax : (CInt.intMax : Int) = 2 ^ 31 - 1 := rfl
  have hcnt : (notifierSection p).eventCnt = p.eventCnt + 1 := CInt.wrapInt_of_fits (by omega) (by omega)
  have hpend : (notifierSection p).pending = p.pending + 1 := by
    unfold PlugEvents.pending notifierSection
    push_cast
    omega
  have hflight : (notifierSection p).inFlight = p.inFlight + 1 := rfl
  have hcounter := hcounter hpc
  rw [hpc] at hsem
  refine ⟨by omega, by omega, fun _ => ?_, ?_, hdrains⟩
  · show (notifierSection p).eventCnt = (notifierSection p).pending + p.pc.taken
    omega
  · show (p.eventfd + (notifierSection p).inFlight : Int) =
      (if p.pc.closes then 0 else (notifierSection p).eventCnt) + p.pc.left
    rw [hpc, hflight, hcnt]
    push_cast
    simp only [Bool.false_eq_true, if_false] at hsem ⊢
    omega

theorem PlugEventsInv.write (h : PlugEventsInv p) : PlugEventsInv (notifierWrite p) := by
  unfold notifierWrite
  cases hin : p.inFlight with
  | zero => exact h
  | succ n =>
    have hsem := h.semaphore
    refine ⟨h.nonneg, h.fits, h.counter, ?_, h.drains⟩
    rw [hin] at hsem
    push_cast at hsem ⊢
    omega

/-- A call that starts at rest only moves. -/
theorem PlugEventsInv.call (h : PlugEventsInv p) (hpc : p.pc = .idle) {pc : PlugEventPc} (hcloses : pc.closes = false)
    (hleft : pc.left = 0) (returned : Nat) (hret : returned = p.returned + pc.taken) (subscribed : Int) :
    PlugEventsInv { p with pc, returned, subscribed } := by
  have hsem := h.semaphore
  have hcounter := h.counter (by rw [hpc]; rfl)
  rw [hpc] at hsem hcounter
  refine ⟨h.nonneg, h.fits, fun _ => ?_, ?_, h.drains⟩
  · show p.eventCnt = (p.notified - returned - p.drained : Int) + pc.taken
    rw [hcounter, hret, PlugEvents.pending]
    push_cast
    simp only [PlugEventPc.taken]
    omega
  · show (p.eventfd + p.inFlight : Int) = (if pc.closes then 0 else p.eventCnt) + pc.left
    rw [hcloses, hleft]
    exact hsem

theorem PlugEventsInv.readSection (h : PlugEventsInv p) {readCnt : UInt32} (hpc : p.pc = .took readCnt)
    (hcov : p.returned + p.drained ≤ p.notified) : PlugEventsInv (readEventSection readCnt p) := by
  have hsem := h.follows (by rw [hpc]; rfl) (by rw [hpc]; rfl)
  have hcounter := h.counter_took hpc
  have hfits := h.fits
  have hmax : (CInt.intMax : Int) = 2 ^ 31 - 1 := rfl
  have hpend : 0 ≤ p.pending := by
    unfold PlugEvents.pending
    omega
  have hcnt : (readEventSection readCnt p).eventCnt = p.pending := by
    show CInt.wrapInt (p.eventCnt - readCnt.toNat) = _
    rw [CInt.wrapInt_of_fits (by omega) (by omega)]
    omega
  refine ⟨by omega, by omega, fun _ => ?_, ?_, h.drains⟩
  · show (readEventSection readCnt p).eventCnt = p.pending + (0 : Nat)
    omega
  · show (p.eventfd + p.inFlight : Int) = (readEventSection readCnt p).eventCnt + readCnt.toNat
    omega

/-- A section that drains sets out to read what is pending. -/
theorem PlugEventsInv.count (h : PlugEventsInv p) (hpc : p.pc = .unsubscribing ∨ p.pc = .closing) :
    ((CInt.toUInt p.eventCnt).toNat : Int) = p.eventCnt ∧ p.eventCnt = p.pending ∧
      (p.eventfd + p.inFlight : Int) = p.eventCnt := by
  have hnonneg := h.nonneg
  have hfits := h.fits
  have hmax : (CInt.intMax : Int) = 2 ^ 31 - 1 := rfl
  have hcloses : p.pc.closes = false := by rcases hpc with hpc | hpc <;> rw [hpc] <;> rfl
  have htaken : p.pc.taken = 0 := by rcases hpc with hpc | hpc <;> rw [hpc] <;> rfl
  have hleft : p.pc.left = 0 := by rcases hpc with hpc | hpc <;> rw [hpc] <;> rfl
  refine ⟨?_, ?_, h.follows hcloses hleft⟩
  · rw [CInt.toNat_toUInt]
    omega
  · rw [h.counter hcloses, htaken, Int.natCast_zero, Int.add_zero]

theorem PlugEventsInv.unsubscribeSection (h : PlugEventsInv p) (hpc : p.pc = .unsubscribing) :
    PlugEventsInv (unsubscribeSection p) := by
  obtain ⟨hcount, hpend, hsem⟩ := h.count (.inl hpc)
  refine ⟨le_rfl, Int.natCast_nonneg _, fun _ => ?_, ?_, fun d hd => ?_⟩
  · show (0 : Int) = (p.notified - p.returned - (p.drained + (CInt.toUInt p.eventCnt).toNat : Nat) : Int) + (0 : Nat)
    unfold PlugEvents.pending at hpend
    push_cast
    omega
  · show (p.eventfd + p.inFlight : Int) = 0 + ((CInt.toUInt p.eventCnt).toNat : Int)
    omega
  · rcases List.mem_cons.1 hd with rfl | hd
    · exact hcount.trans hpend
    · exact h.drains d hd

theorem PlugEventsInv.closeSection (h : PlugEventsInv p) (hpc : p.pc = .closing) : PlugEventsInv (closeSection p) := by
  obtain ⟨hcount, hpend, hsem⟩ := h.count (.inr hpc)
  refine ⟨h.nonneg, h.fits, nofun, ?_, fun d hd => ?_⟩
  · show (p.eventfd + p.inFlight : Int) = 0 + ((CInt.toUInt p.eventCnt).toNat : Int)
    omega
  · rcases List.mem_cons.1 hd with rfl | hd
    · exact hcount.trans hpend
    · exact h.drains d hd

theorem PlugEventsInv.finish (h : PlugEventsInv p) {call : PlugEventCall} (hpc : p.pc = .reads 0 call) :
    PlugEventsInv (finishCall call p) := by
  have hsem := h.semaphore
  rw [hpc] at hsem
  cases call with
  | close => exact ⟨h.nonneg, h.fits, nofun, hsem, h.drains⟩
  | _ =>
    have hcounter := h.counter (by rw [hpc]; rfl)
    rw [hpc] at hcounter
    exact ⟨h.nonneg, h.fits, fun _ => hcounter, hsem, h.drains⟩

theorem PlugEventsInv.eventfdRead (h : PlugEventsInv p) {left : UInt32} {call : PlugEventCall}
    (hpc : p.pc = .reads left call) : PlugEventsInv (eventfdRead left call p) := by
  unfold Tinyalsa.eventfdRead
  split
  · rename_i hz
    exact h.finish (hz ▸ hpc)
  · rename_i hne
    cases hfd : p.eventfd with
    | zero => exact h
    | succ n =>
      have hsem := h.semaphore
      have hpos : 1 ≤ left.toNat := Nat.one_le_iff_ne_zero.2 fun h0 => hne (UInt32.toNat_inj.1 h0)
      have hsub : (left - 1).toNat = left.toNat - 1 := UInt32.toNat_sub_of_le _ _ (UInt32.le_iff_toNat_le.2 hpos)
      have hcloses : PlugEventPc.closes (.reads (left - 1) call) = PlugEventPc.closes (.reads left call) := by
        cases call <;> rfl
      rw [hpc, hfd] at hsem
      refine ⟨h.nonneg, h.fits, fun hc => ?_, ?_, h.drains⟩
      · have hcounter := h.counter (by rw [hpc, ← hcloses]; exact hc)
        rw [hpc] at hcounter
        exact hcounter
      · show (n + p.inFlight : Int) = (if PlugEventPc.closes (.reads (left - 1) call) then 0 else p.eventCnt) +
          ((left - 1).toNat : Int)
        rw [hcloses]
        simp only [PlugEventPc.left] at hsem
        push_cast at hsem
        omega

theorem PlugEventsInv.subscribe (h : PlugEventsInv p) (hpc : p.pc = .idle) (subscribe : Int) :
    PlugEventsInv (subscribeEvents subscribe p) := by
  unfold subscribeEvents
  have hmoved : ∀ subscribed, PlugEventsInv { p with subscribed } := fun subscribed => by
    have hcall : PlugEventsInv { p with pc := .idle, returned := p.returned, subscribed } :=
      h.call hpc rfl rfl p.returned rfl subscribed
    rwa [← hpc] at hcall
  split
  · exact h
  · split
    · exact hmoved _
    · split
      · exact h.call hpc rfl rfl p.returned rfl p.subscribed
      · exact hmoved _

/-- Every step keeps the invariant, where the events of a read are covered. -/
theorem PlugEventsInv.step (h : PlugEventsInv p) (a : PlugEventAction) (hcov : EventsCovered p a) :
    PlugEventsInv (plugEventStep p a) := by
  unfold plugEventStep
  cases a with
  | notify =>
    simp only
    split
    · exact h
    · rename_i hopen
      exact h.notify (Bool.eq_false_iff.2 hopen) (hcov (Bool.eq_false_iff.2 hopen))
  | write => exact h.write
  | readEvent result =>
    simp only
    split
    · rename_i hcall
      exact h.call hcall.1 rfl rfl _ rfl p.subscribed
    · exact h
  | subscribe subscribe =>
    simp only
    split
    · rename_i hpc
      exact h.subscribe hpc subscribe
    · exact h
  | close =>
    simp only
    split
    · rename_i hpc
      exact h.call hpc rfl rfl p.returned rfl p.subscribed
    · exact h
  | resume =>
    cases hpc : p.pc with
    | idle => exact h
    | closed => exact h
    | took readCnt => exact h.readSection hpc (hcov readCnt hpc)
    | unsubscribing => exact h.unsubscribeSection hpc
    | closing => exact h.closeSection hpc
    | reads left call => exact h.eventfdRead hpc

/-- A section that takes more events than are pending leaves more reads than there will be writes. -/
theorem PlugEventsInv.overdrawn (h : PlugEventsInv p) {readCnt : UInt32} (hpc : p.pc = .took readCnt)
    (hnot : ¬ p.returned + p.drained ≤ p.notified) : ¬ InStep (readEventSection readCnt p) := by
  intro hs
  have hsem := h.follows (by rw [hpc]; rfl) (by rw [hpc]; rfl)
  have hcounter := h.counter_took hpc
  have hfed := hs.fed readCnt .readEvent rfl
  have hpend : p.pending < 0 := by
    unfold PlugEvents.pending
    omega
  have hfed : readCnt.toNat ≤ p.eventfd + p.inFlight := hfed
  omega

/-- A callback that finds the counter at its maximum makes it negative. -/
theorem PlugEventsInv.overflown (h : PlugEventsInv p) (hnot : ¬ p.eventCnt < CInt.intMax) :
    ¬ InStep (notifierSection p) := by
  intro hs
  have hnonneg : 0 ≤ CInt.wrapInt (p.eventCnt + 1) := hs.counter
  have hmax : p.eventCnt = CInt.intMax := le_antisymm h.fits (not_lt.1 hnot)
  rw [hmax] at hnonneg
  exact absurd hnonneg (by decide)

theorem PlugEventsInv.inStep_iff (h : PlugEventsInv p) (a : PlugEventAction) :
    InStep (plugEventStep p a) ↔ EventsCovered p a := by
  refine ⟨fun hs => ?_, fun hcov => (h.step a hcov).inStep⟩
  cases a with
  | notify =>
    intro hopen
    by_contra hnot
    rw [plugEventStep, if_neg (Bool.eq_false_iff.1 hopen)] at hs
    exact h.overflown hnot hs
  | resume =>
    intro readCnt hpc
    by_contra hnot
    rw [plugEventStep, hpc] at hs
    exact h.overdrawn hpc hnot hs
  | _ => trivial

/-- A plugin that was just opened. -/
theorem plugEventsInv_opened : PlugEventsInv {} where
  nonneg := le_rfl
  fits := Int.natCast_nonneg _
  counter := fun _ => rfl
  semaphore := rfl
  drains := nofun

/-- Counter and semaphore stay in step along a run just when the section of every read finds its events
notified and neither returned nor drained before, and no callback finds the counter at its maximum. -/
theorem plugEventRun_inStep_iff (acts : List PlugEventAction) :
    Along plugEventStep (fun p a => InStep (plugEventStep p a)) {} acts ↔ Along plugEventStep EventsCovered {} acts :=
  along_iff (fun _ a h hcov => h.step a hcov) (fun _ a h => h.inStep_iff a) plugEventsInv_opened

end

/-- An event is notified and drained by an unsubscription, and then the plugin returns it. -/
def drainedThenRead : List PlugEventAction :=
  [.subscribe 1, .notify, .write, .subscribe 0, .resume, .resume, .resume, .readEvent 72, .resume]

/-- The plugin returns no more events than it has notified, but the counter becomes negative and the read
waits for a write that nobody will make. -/
theorem plugEventRun_inStep_not :
    Along plugEventStep (fun p a => (plugEventStep p a).returned ≤ (plugEventStep p a).notified) {} drainedThenRead ∧
      ¬ Along plugEventStep (fun p a => InStep (plugEventStep p a)) {} drainedThenRead := by
  constructor
  · unfold drainedThenRead
    simp only [along_cons]
    exact ⟨by decide, by decide, by decide, by decide, by decide, by decide, by decide, by decide, by decide, .nil⟩
  · intro h
    have hs := h (drainedThenRead.take 8) .resume [] rfl
    exact absurd hs.counter (by decide)

end Tinyalsa
