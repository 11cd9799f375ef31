/-
The calls a plugin sees over any sequence of commands. The state field is the image of the history of
its callbacks, so each guard says something about that history: which callback succeeded last, and
whether the plugin was configured at all.
-/
import Tinyalsa.Plugin.Ioctl

namespace Tinyalsa

/-! ## Histories -/

namespace PlugCall

/-- The callback succeeded. -/
def ok : PlugCall → Bool
  | .hwParams _ ret => ret = 0
  | .callback _ ret => ret = 0
  | .mmap addr => addr.isMapped

/-- An `hw_params` that succeeded. -/
def configures : PlugCall → Bool
  | .hwParams _ ret => ret = 0
  | _ => false

/-- Where a callback takes the stream. -/
def target : PlugCall → Option PcmPlugState
  | .hwParams _ _ => some .setup
  | .callback .prepare _ => some .prepared
  | .callback .start _ => some .running
  | .callback .drop _ => some .setup
  | _ => none

/-- The state after a callback. -/
def moved (c : PlugCall) (s : PcmPlugState) : PcmPlugState := if c.ok then c.target.getD s else s

/-- The callbacks that need a configured plugin. -/
def isUse : PlugCall → Bool
  | .hwParams _ _ => false
  | .callback c _ => c ≠ .ioctl ∧ c ≠ .poll
  | .mmap _ => true

end PlugCall

/-- The state a history, newest first, leaves an opened plugin in. -/
def plugStateOf : List PlugCall → PcmPlugState := List.foldr PlugCall.moved .opened

/-- The last successful callback of a history that moves the stream. -/
def lastChange (calls : List PlugCall) : Option PlugCall := calls.find? fun c => c.ok && c.target.isSome

/-- The history has an `hw_params` that succeeded. -/
def isConfigured (calls : List PlugCall) : Bool := calls.any PlugCall.configures

/-- Every callback of a history was invoked on one of which `Q` holds. -/
def EveryCall (Q : PlugCall → List PlugCall → Prop) (calls : List PlugCall) : Prop :=
  ∀ newer c older, calls = newer ++ c :: older → Q c older

theorem EveryCall.nil {Q : PlugCall → List PlugCall → Prop} : EveryCall Q [] :=
  fun newer c older h => by simp at h

theorem EveryCall.cons {Q : PlugCall → List PlugCall → Prop} {c : PlugCall} {calls : List PlugCall}
    (h : EveryCall Q calls) (hc : Q c calls) : EveryCall Q (c :: calls) := by
  intro newer c' older heq
  cases newer with
  | nil =>
    obtain ⟨rfl, rfl⟩ := List.cons.inj heq
    exact hc
  | cons _ newer => exact h newer c' older (List.cons.inj heq).2

theorem plugStateOf_cons (c : PlugCall) (calls : List PlugCall) :
    plugStateOf (c :: calls) = c.moved (plugStateOf calls) := rfl

theorem isConfigured_cons (c : PlugCall) (calls : List PlugCall) :
    isConfigured (c :: calls) = (c.configures || isConfigured calls) := rfl

/-- The state is that of the last change. -/
theorem plugStateOf_eq (calls : List PlugCall) :
    plugStateOf calls = ((lastChange calls).bind PlugCall.target).getD .opened := by
  induction calls with
  | nil => rfl
  | cons c calls ih =>
    rw [plugStateOf_cons, ih, PlugCall.moved, lastChange, lastChange, List.find?_cons]
    cases hok : c.ok with
    | false => simp
    | true => cases ht : c.target <;> simp [ht]

theorem lastChange_spec {calls : List PlugCall} {c : PlugCall} (h : lastChange calls = some c) :
    c.ok = true ∧ ∃ newer older, calls = newer ++ c :: older ∧ ∀ c' ∈ newer, c'.ok → c'.target = none := by
  obtain ⟨hc, newer, older, rfl, hnew⟩ := List.find?_eq_some_iff_append.1 h
  simp only [Bool.and_eq_true] at hc
  refine ⟨hc.1, newer, older, rfl, fun c' hc' hok => ?_⟩
  simpa [hok] using hnew c' hc'

/-- What configures a plugin takes it out of the open state, and nothing takes it back. -/
theorem PlugCall.moved_configures {c : PlugCall} (h : c.configures) (s : PcmPlugState) : c.moved s = .setup := by
  cases c with
  | hwParams p ret =>
    have hret : ret = 0 := by simpa [configures] using h
    simp [moved, ok, target, hret]
  | _ => cases h

theorem PlugCall.moved_ne_opened (c : PlugCall) {s : PcmPlugState} (h : s ≠ .opened) : c.moved s ≠ .opened := by
  unfold moved
  split
  · cases c with
    | callback c ret => cases c <;> simp [target, h]
    | _ => simp [target, h]
  · exact h

theorem plugStateOf_configured {calls : List PlugCall} (h : isConfigured calls) : plugStateOf calls ≠ .opened := by
  induction calls with
  | nil => cases h
  | cons c calls ih =>
    rw [isConfigured_cons, Bool.or_eq_true] at h
    rw [plugStateOf_cons]
    rcases h with h | h
    · rw [c.moved_configures h]
      decide
    · exact c.moved_ne_opened (ih h)

/-! ## Commands -/

namespace PcmPlugCmd

/-- The states a command's guard lets through. -/
def admits : PcmPlugCmd → PcmPlugState → Bool
  | .hwParams _, s => s = .opened
  | .swParams _, s | .prepare, s => s = .setup
  | .syncPtr _, s | .ttstamp _, s => s ≠ .opened
  | .start, s => s = .prepared
  | .drain, s => s = .running
  | .writeiFrames _, s | .readiFrames _, s => s = .prepared ∨ s = .running
  | .drop, _ | .info _, _ | .hwRefine _, _ | .extra _ _, _ => true

/-- The callback behind a command. -/
def Invokes : PcmPlugCmd → PlugCall → Prop
  | .hwParams _, c => ∃ p ret, c = .hwParams p ret
  | .swParams _, c => ∃ ret, c = .callback .swParams ret
  | .syncPtr _, c => ∃ ret, c = .callback .syncPtr ret
  | .ttstamp _, c => ∃ ret, c = .callback .ttstamp ret
  | .prepare, c => ∃ ret, c = .callback .prepare ret
  | .start, c => ∃ ret, c = .callback .start ret
  | .drain, c => ∃ ret, c = .callback .drain ret
  | .drop, c => ∃ ret, c = .callback .drop ret
  | .writeiFrames _, c => ∃ ret, c = .callback .writeiFrames ret
  | .readiFrames _, c => ∃ ret, c = .callback .readiFrames ret
  | .extra _ _, c => ∃ ret, c = .callback .ioctl ret
  | .info _, _ | .hwRefine _, _ => False

end PcmPlugCmd

/-- The plugin after its history grew by a callback. -/
structure Grown {π : Type} (plugin : PcmPlugin π) (c : PlugCall) (plugin' : PcmPlugin π) : Prop where
  calls : plugin'.calls = c :: plugin.calls
  state : plugin'.state = c.moved plugin.state

section

variable {π : Type} {ops : PcmPluginOps π} {plugin : PcmPlugin π}

theorem plugCall_grown {α : Type} {c : PlugCallback} {f : π → Int × α × π}
    (hc : ∀ ret, (PlugCall.callback c ret).target = none) :
    Grown plugin (.callback c (f plugin.priv).1) (plugCall c f plugin).2.2 :=
  ⟨rfl, by simp [plugCall, PcmPlugin.called, PlugCall.moved, hc]⟩

theorem plugMove_grown {c : PlugCallback} {f : π → Int × π} {target : PcmPlugState}
    (hc : ∀ ret, (PlugCall.callback c ret).target = some target) :
    Grown plugin (.callback c (f plugin.priv).1) (plugMove c f target plugin).2 :=
  ⟨rfl, by simp [plugMove, PlugCall.moved, PlugCall.ok, hc]⟩

/-- What a command does: its guard refuses it, or it invokes its callback once, or it has none. -/
theorem pcmPlugIoctl_cases {d d' : PcmPlugData π} {c c' : PcmPlugCmd} {ret : Int}
    (h : pcmPlugIoctl ops d c = some (ret, c', d')) :
    c.admits d.plugin.state = false ∧ ret = -eBadFd ∧ c' = c ∧ d' = d ∨
      c.admits d.plugin.state = true ∧ (∃ call, c.Invokes call ∧ Grown d.plugin call d'.plugin) ∨
      c.admits d.plugin.state = true ∧ (∀ call, ¬ c.Invokes call) ∧ d' = d := by
  cases c with
  | info i =>
    -- answered without the plugin, in any state
    obtain ⟨r, -, hr⟩ := Option.map_eq_some_iff.1 h
    obtain ⟨-, -, rfl⟩ := hr
    exact .inr (.inr ⟨rfl, fun _ h => h, rfl⟩)
  | hwRefine p =>
    obtain ⟨r, -, hr⟩ := Option.map_eq_some_iff.1 h
    obtain ⟨-, -, rfl⟩ := hr
    exact .inr (.inr ⟨rfl, fun _ h => h, rfl⟩)
  | hwParams p =>
    obtain ⟨⟨r, p', plugin'⟩, hr, heq⟩ := Option.map_eq_some_iff.1 h
    obtain ⟨rfl, rfl, rfl⟩ := heq
    by_cases hs : d.plugin.state = .opened
    · rw [pcmPlugHparams_handed ops p hs] at hr
      obtain ⟨handed, -, hr⟩ := Option.map_eq_some_iff.1 hr
      obtain ⟨rfl, rfl, rfl⟩ := hr
      exact .inr (.inl ⟨by simp [PcmPlugCmd.admits, hs], _, ⟨_, _, rfl⟩, rfl,
        by simp [PlugCall.moved, PlugCall.ok, PlugCall.target]⟩)
    · rw [pcmPlugHparams_closed ops p hs] at hr
      obtain ⟨rfl, rfl, rfl⟩ := hr
      exact .inl ⟨by simp [PcmPlugCmd.admits, hs], rfl, rfl, rfl⟩
  | swParams p =>
    simp only [pcmPlugIoctl, pcmPlugSparams, PcmPlugCmd.admits] at h ⊢
    split at h <;> rename_i hs <;> obtain ⟨rfl, rfl, rfl⟩ := h
    · exact .inl ⟨by simp [hs], rfl, rfl, rfl⟩
    · exact .inr (.inl ⟨by simpa using hs, _, ⟨_, rfl⟩, plugCall_grown fun _ => rfl⟩)
  | syncPtr s =>
    simp only [pcmPlugIoctl, pcmPlugSyncPtr, PcmPlugCmd.admits] at h ⊢
    split at h <;> rename_i hs
    · have hgrown := @plugCall_grown _ d.plugin _ .syncPtr (ops.syncPtr s) fun _ => rfl
      have hadmits : decide (d.plugin.state ≠ .opened) = true := by
        cases hd : d.plugin.state <;> simp_all [PcmPlugState.code]
      split at h <;> obtain ⟨rfl, rfl, rfl⟩ := h <;> exact .inr (.inl ⟨hadmits, _, ⟨_, rfl⟩, hgrown⟩)
    · obtain ⟨rfl, rfl, rfl⟩ := h
      exact .inl ⟨by cases hd : d.plugin.state <;> simp_all [PcmPlugState.code], rfl, rfl, rfl⟩
  | ttstamp t =>
    simp only [pcmPlugIoctl, pcmPlugTtstamp, PcmPlugCmd.admits] at h ⊢
    split at h <;> rename_i hs <;> obtain ⟨rfl, rfl, rfl⟩ := h
    · exact .inl ⟨by cases hd : d.plugin.state <;> simp_all [PcmPlugState.code], rfl, rfl, rfl⟩
    · exact .inr (.inl ⟨by cases hd : d.plugin.state <;> simp_all [PcmPlugState.code], _, ⟨_, rfl⟩,
        plugCall_grown fun _ => rfl⟩)
  | prepare =>
    simp only [pcmPlugIoctl, pcmPlugPrepare, PcmPlugCmd.admits] at h ⊢
    split at h <;> rename_i hs <;> obtain ⟨rfl, rfl, rfl⟩ := h
    · exact .inl ⟨by simp [hs], rfl, rfl, rfl⟩
    · exact .inr (.inl ⟨by simpa using hs, _, ⟨_, rfl⟩, plugMove_grown fun _ => rfl⟩)
  | start =>
    simp only [pcmPlugIoctl, pcmPlugStart, PcmPlugCmd.admits] at h ⊢
    split at h <;> rename_i hs <;> obtain ⟨rfl, rfl, rfl⟩ := h
    · exact .inl ⟨by simp [hs], rfl, rfl, rfl⟩
    · exact .inr (.inl ⟨by simpa using hs, _, ⟨_, rfl⟩, plugMove_grown fun _ => rfl⟩)
  | drain =>
    simp only [pcmPlugIoctl, pcmPlugDrain, PcmPlugCmd.admits] at h ⊢
    split at h <;> rename_i hs <;> obtain ⟨rfl, rfl, rfl⟩ := h
    · exact .inl ⟨by simp [hs], rfl, rfl, rfl⟩
    · exact .inr (.inl ⟨by simpa using hs, _, ⟨_, rfl⟩, rfl,
        by simp [PcmPlugin.called, PlugCall.moved, PlugCall.target]⟩)
  | drop =>
    -- passed on in any state
    obtain ⟨rfl, rfl, rfl⟩ := h
    exact .inr (.inl ⟨rfl, _, ⟨_, rfl⟩, plugMove_grown fun _ => rfl⟩)
  | writeiFrames x =>
    simp only [pcmPlugIoctl, pcmPlugWriteiFrames, PcmPlugCmd.admits] at h ⊢
    split at h <;> rename_i hs <;> obtain ⟨rfl, rfl, rfl⟩ := h
    · exact .inl ⟨by simp [hs], rfl, rfl, rfl⟩
    · exact .inr (.inl ⟨by simpa [or_iff_not_imp_left] using hs, _, ⟨_, rfl⟩, plugCall_grown fun _ => rfl⟩)
  | readiFrames x =>
    simp only [pcmPlugIoctl, pcmPlugReadiFrames, PcmPlugCmd.admits] at h ⊢
    split at h <;> rename_i hs <;> obtain ⟨rfl, rfl, rfl⟩ := h
    · exact .inl ⟨by simp [hs], rfl, rfl, rfl⟩
    · exact .inr (.inl ⟨by simpa [or_iff_not_imp_left] using hs, _, ⟨_, rfl⟩, plugCall_grown fun _ => rfl⟩)
  | extra cmd arg =>
    obtain ⟨rfl, rfl, rfl⟩ := h
    exact .inr (.inl ⟨rfl, _, ⟨_, rfl⟩, plugCall_grown fun _ => rfl⟩)

/-! ## Runs -/

/-- An entry point of the backend. -/
inductive PlugEntry
  | ioctl (c : PcmPlugCmd)
  | mmap (offset : MmapOffset) (length : Nat)
  | munmap (addr : MapAddr) (length : Nat)

/-- What an entry point returns. -/
inductive PlugAnswer
  | int (ret : Int)
  | addr (a : MapAddr)
  deriving DecidableEq

/-- The answer of a guard. -/
def PlugAnswer.Refuses : PlugAnswer → Prop
  | .int ret => ret = -eBadFd
  | .addr a => a = .addr 0

namespace PlugEntry

/-- The entry points that need a configured plugin. -/
def isUse : PlugEntry → Bool
  | .ioctl (.info _) | .ioctl (.hwRefine _) | .ioctl (.hwParams _) | .ioctl (.extra _ _) => false
  | _ => true

/-- The states an entry point's guard lets through. -/
def admits : PlugEntry → PcmPlugState → Bool
  | .ioctl c, s => c.admits s
  | .mmap _ _, s | .munmap _ _, s => s = .setup

/-- The callback behind an entry point. -/
def Invokes : PlugEntry → PlugCall → Prop
  | .ioctl c, call => c.Invokes call
  | .mmap _ _, call => ∃ a, call = .mmap a
  | .munmap _ _, call => ∃ ret, call = .callback .munmap ret

/-- Every guard but the one `DROP` lacks keeps an open plugin from being used. -/
theorem admits_opened {e : PlugEntry} (hu : e.isUse) (hd : e ≠ .ioctl .drop) : e.admits .opened = false := by
  cases e with
  | ioctl c => cases c <;> first | rfl | exact absurd rfl hd | cases hu
  | _ => rfl

theorem Invokes.isUse {e : PlugEntry} {call : PlugCall} (h : e.Invokes call) : call.isUse = e.isUse := by
  cases e with
  | ioctl c =>
    cases c with
    | info => cases h
    | hwRefine => cases h
    | hwParams => obtain ⟨_, _, rfl⟩ := h; rfl
    | _ => obtain ⟨_, rfl⟩ := h; rfl
  | _ => obtain ⟨_, rfl⟩ := h; rfl

end PlugEntry

variable (ops)

/-- One call of an entry point. -/
def plugStep (d : PcmPlugData π) : PlugEntry → Option (PlugAnswer × PcmPlugData π)
  | .ioctl c => (pcmPlugIoctl ops d c).map fun r => (.int r.1, r.2.2)
  | .mmap offset length => some (.addr (pcmPlugMmap ops d.plugin offset length).1,
      { d with plugin := (pcmPlugMmap ops d.plugin offset length).2 })
  | .munmap addr length => some (.int (pcmPlugMunmap ops d.plugin addr length).1,
      { d with plugin := (pcmPlugMunmap ops d.plugin addr length).2 })

/-- A sequence of calls; `none` where one of them traps. -/
def plugRun (d : PcmPlugData π) (es : List PlugEntry) : Option (PcmPlugData π) :=
  es.foldlM (fun d e => (plugStep ops d e).map (·.2)) d

variable {ops} {d₀ d d' : PcmPlugData π} {e : PlugEntry} {es : List PlugEntry} {ans : PlugAnswer}

/-- What an entry point does: its guard refuses it, or it invokes its callback once, or it has none. -/
theorem plugStep_cases (h : plugStep ops d e = some (ans, d')) :
    e.admits d.plugin.state = false ∧ ans.Refuses ∧ d' = d ∨
      e.admits d.plugin.state = true ∧ (∃ call, e.Invokes call ∧ Grown d.plugin call d'.plugin) ∨
      e.admits d.plugin.state = true ∧ (∀ call, ¬ e.Invokes call) ∧ d' = d := by
  cases e with
  | ioctl c =>
    obtain ⟨⟨ret, c', d''⟩, hr, heq⟩ := Option.map_eq_some_iff.1 h
    obtain ⟨rfl, rfl⟩ := heq
    rcases pcmPlugIoctl_cases hr with ⟨ha, hret, -, hd⟩ | hrest
    · exact .inl ⟨ha, hret, hd⟩
    · exact .inr hrest
  | mmap offset length =>
    simp only [plugStep, pcmPlugMmap, PlugEntry.admits] at h ⊢
    split at h <;> rename_i hs <;> obtain ⟨rfl, rfl⟩ := h
    · exact .inl ⟨by simp [hs], rfl, rfl⟩
    · exact .inr (.inl ⟨by simpa using hs, _, ⟨_, rfl⟩, rfl,
        by simp [PcmPlugin.called, PlugCall.moved, PlugCall.target]⟩)
  | munmap addr length =>
    simp only [plugStep, pcmPlugMunmap, PlugEntry.admits] at h ⊢
    split at h <;> rename_i hs <;> obtain ⟨rfl, rfl⟩ := h
    · exact .inl ⟨by simp [hs], rfl, rfl⟩
    · exact .inr (.inl ⟨by simpa using hs, _, ⟨_, rfl⟩, rfl,
        by simp [PcmPlugin.called, PlugCall.moved, PlugCall.target]⟩)

theorem plugRun_concat (d₀ : PcmPlugData π) (es : List PlugEntry) (e : PlugEntry) :
    plugRun ops d₀ (es ++ [e]) = (plugRun ops d₀ es).bind fun d => (plugStep ops d e).map (·.2) := by
  simp [plugRun, List.foldlM_append]

/-- A run with one more call. -/
theorem plugRun_concat_some (h : plugRun ops d₀ (es ++ [e]) = some d') :
    ∃ d ans, plugRun ops d₀ es = some d ∧ plugStep ops d e = some (ans, d') := by
  rw [plugRun_concat, Option.bind_eq_some_iff] at h
  obtain ⟨d, hd, hs⟩ := h
  obtain ⟨⟨ans, d''⟩, hs', rfl⟩ := Option.map_eq_some_iff.1 hs
  exact ⟨d, ans, hd, hs'⟩

/-- What every call keeps holds along a run. -/
theorem plugRun_keeps {P : PcmPlugData π → Prop} (h₀ : P d₀)
    (hstep : ∀ d e ans d', P d → plugStep ops d e = some (ans, d') → P d') :
    ∀ {es d}, plugRun ops d₀ es = some d → P d := by
  intro es
  induction es using List.reverseRecOn with
  | nil =>
    rintro d ⟨⟩
    exact h₀
  | append_singleton es e ih =>
    intro d' h
    obtain ⟨d, ans, hd, hs⟩ := plugRun_concat_some h
    exact hstep d e ans d' (ih hd) hs

/-- A plugin that `pcm_plug_open` has just opened. -/
structure PcmPlugData.Fresh (d : PcmPlugData π) : Prop where
  state : d.plugin.state = .opened
  calls : d.plugin.calls = []

/-- The state field encodes the history. -/
theorem plugRun_state (h₀ : d₀.Fresh) (h : plugRun ops d₀ es = some d) :
    d.plugin.state = plugStateOf d.plugin.calls := by
  refine plugRun_keeps (P := fun d => d.plugin.state = plugStateOf d.plugin.calls) ?_ ?_ h
  · rw [h₀.state, h₀.calls]
    rfl
  · intro d e ans d' hd hs
    rcases plugStep_cases hs with ⟨-, -, rfl⟩ | ⟨-, call, -, hg⟩ | ⟨-, -, rfl⟩
    · exact hd
    · rw [hg.state, hg.calls, plugStateOf_cons, hd]
    · exact hd

/-! ## Configured first -/

/-- A plugin is configured before it is used: no callback but `hw_params` goes before the first that
succeeds, and until then what needs a configured plugin is refused and leaves it as it was. -/
structure ConfiguredFirst (ops : PcmPluginOps π) (d₀ : PcmPlugData π) (es : List PlugEntry) : Prop where
  callbacks : ∀ d, plugRun ops d₀ es = some d → EveryCall (fun c older => c.isUse → isConfigured older) d.plugin.calls
  refused : ∀ before e after d ans d', es = before ++ e :: after → plugRun ops d₀ before = some d →
    ¬ isConfigured d.plugin.calls → e.isUse → plugStep ops d e = some (ans, d') →
    ans.Refuses ∧ d' = d ∧ d'.plugin.state = .opened

/-- No `DROP` finds the plugin in its open state. -/
def DropsLate (ops : PcmPluginOps π) (d₀ : PcmPlugData π) (es : List PlugEntry) : Prop :=
  ∀ before after d, es = before ++ .ioctl .drop :: after → plugRun ops d₀ before = some d → d.plugin.state ≠ .opened

/-- A callback that is no use of the plugin configures it or leaves its state alone. -/
theorem PlugCall.moved_of_not_isUse {c : PlugCall} (h : c.isUse = false) (s : PcmPlugState) :
    c.configures = true ∨ c.moved s = s := by
  cases c with
  | hwParams p ret =>
    by_cases hret : ret = 0
    · exact .inl (by simp [configures, hret])
    · exact .inr (by simp [moved, ok, hret])
  | callback c ret => cases c <;> simp [isUse] at h <;> exact .inr (by simp [moved, target])
  | mmap a => cases h

theorem DropsLate.init (h : DropsLate ops d₀ (es ++ [e])) : DropsLate ops d₀ es :=
  fun before after d hes => h before (after ++ [e]) d (by simp [hes])

/-- Without an early `DROP`, a plugin past its open state is configured, and was when it was first used. -/
theorem plugRun_configured (h₀ : d₀.Fresh) (hdrop : DropsLate ops d₀ es) (h : plugRun ops d₀ es = some d) :
    (d.plugin.state ≠ .opened → isConfigured d.plugin.calls) ∧
      EveryCall (fun c older => c.isUse → isConfigured older) d.plugin.calls := by
  induction es using List.reverseRecOn generalizing d with
  | nil =>
    obtain rfl : d₀ = d := Option.some.inj h
    exact ⟨fun hs => absurd h₀.state hs, h₀.calls ▸ .nil⟩
  | append_singleton es e ih =>
    obtain ⟨b, ans, hb, hs⟩ := plugRun_concat_some h
    obtain ⟨hconf, huse⟩ := ih hdrop.init hb
    rcases plugStep_cases hs with ⟨-, -, rfl⟩ | ⟨hadm, call, hinv, hg⟩ | ⟨-, -, rfl⟩
    · exact ⟨hconf, huse⟩
    · -- a use finds the plugin past its open state: by its guard, or because no `DROP` is early
      have hpast : call.isUse → isConfigured b.plugin.calls := fun hu => hconf fun hopen => by
        by_cases hd : e = .ioctl .drop
        · exact hdrop es [] b (by rw [hd]) hb hopen
        · rw [hinv.isUse] at hu
          rw [hopen, PlugEntry.admits_opened hu hd] at hadm
          cases hadm
      rw [hg.calls]
      refine ⟨fun hne => ?_, huse.cons hpast⟩
      rw [isConfigured_cons, Bool.or_eq_true]
      cases hu : call.isUse with
      | true => exact .inr (hpast hu)
      | false =>
        rcases call.moved_of_not_isUse hu b.plugin.state with hc | hc
        · exact .inl hc
        · exact .inr (hconf (by rwa [hg.state, hc] at hne))
    · exact ⟨hconf, huse⟩

/-- A plugin is configured before it is used in just the runs where no `DROP` finds it open. -/
theorem plugRun_configuredFirst_iff (h₀ : d₀.Fresh) : ConfiguredFirst ops d₀ es ↔ DropsLate ops d₀ es := by
  constructor
  · intro h before after d hes hd hopen
    have hnot : ¬ isConfigured d.plugin.calls := fun hc =>
      plugStateOf_configured hc ((plugRun_state h₀ hd).symm.trans hopen)
    obtain ⟨-, hsame, -⟩ := h.refused before (.ioctl .drop) after d _ _ hes hd hnot rfl rfl
    have hcalls := congrArg (fun d => d.plugin.calls) hsame
    exact absurd hcalls (List.cons_ne_self _ _)
  · intro hdrop
    refine ⟨fun d hd => (plugRun_configured h₀ hdrop hd).2, ?_⟩
    intro before e after d ans d' hes hd hnot hu hs
    have hlate : DropsLate ops d₀ before := fun b a x hb => hdrop b (a ++ e :: after) x (by simp [hes, hb])
    have hopen : d.plugin.state = .opened := by
      by_contra hne
      exact hnot ((plugRun_configured h₀ hlate hd).1 hne)
    have hne : e ≠ .ioctl .drop := fun he => hdrop before after d (by rw [hes, he]) hd hopen
    rcases plugStep_cases hs with ⟨-, hans, rfl⟩ | ⟨hadm, -⟩ | ⟨hadm, -⟩
    · exact ⟨hans, rfl, hopen⟩
    all_goals
      rw [hopen, PlugEntry.admits_opened hu hne] at hadm
      cases hadm

/-- A stereo plugin just opened. -/
def stereoPlug : PcmPlugData Unit := ⟨0, 0, 0, none, ⟨stereoConstraints, (), .opened, []⟩⟩

theorem stereoPlug_fresh : stereoPlug.Fresh := ⟨rfl, rfl⟩

/-- A plugin stopped once it is configured. -/
theorem plugRun_configuredFirst_stopped :
    ConfiguredFirst acceptingOps stereoPlug [.ioctl (.hwParams (rateRequest 48000)), .ioctl .drop] := by
  refine (plugRun_configuredFirst_iff stereoPlug_fresh).2 ?_
  intro before after d hes hd hopen
  rcases before with _ | ⟨e, _ | ⟨e', before⟩⟩
  · simp at hes
  · obtain ⟨rfl, -⟩ := List.cons.inj hes
    have hstate : (plugRun acceptingOps stereoPlug [.ioctl (.hwParams (rateRequest 48000))]).map (·.plugin.state) =
        some .setup := by decide +kernel
    rw [hd, Option.map_some, hopen] at hstate
    cases hstate
  · simp at hes

/-- An open plugin is started: `DROP` takes it to `SETUP`, and the guards of the rest let it through. -/
theorem plugRun_configuredFirst_not :
    ¬ ConfiguredFirst acceptingOps stereoPlug [.ioctl .drop, .ioctl .prepare, .ioctl .start] ∧
      (plugRun acceptingOps stereoPlug [.ioctl .drop, .ioctl .prepare, .ioctl .start]).map
        (fun d => (d.plugin.state, isConfigured d.plugin.calls)) = some (.running, false) := by
  refine ⟨fun h => ?_, by decide +kernel⟩
  obtain ⟨-, hsame, -⟩ := h.refused [] (.ioctl .drop) _ stereoPlug _ _ rfl rfl (by decide) rfl rfl
  have hcalls : [PlugCall.callback .drop 0] = [] := congrArg (fun d => d.plugin.calls) hsame
  cases hcalls

/-! ## The transfer protocol -/

/-- What must have gone before a callback of a transfer. -/
def TransferAllowed : PlugCall → List PlugCall → Prop
  | .callback .prepare _, older =>
    (∃ p, lastChange older = some (.hwParams p 0)) ∨ lastChange older = some (.callback .drop 0)
  | .callback .start _, older => lastChange older = some (.callback .prepare 0)
  | .callback .drain _, older => lastChange older = some (.callback .start 0)
  | .callback .writeiFrames _, older | .callback .readiFrames _, older =>
    ∃ since before, older = since ++ .callback .prepare 0 :: before ∧ .callback .drop 0 ∉ since
  | _, _ => True

/-- What one command does to a plugin: a failing callback leaves the state as it was, `SYNC_PTR` writes back
the image of the state, and what a guard rejects invokes nothing and changes nothing. -/
structure CommandHeld (d : PcmPlugData π) (c : PcmPlugCmd) (ret : Int) (c' : PcmPlugCmd) (d' : PcmPlugData π) :
    Prop where
  failing : ∀ call, d'.plugin.calls = call :: d.plugin.calls → call.ok = false → d'.plugin.state = d.plugin.state
  status : ∀ s, c' = .syncPtr s → ret = 0 → s.status.state = convertPluginToPcmState d'.plugin.state
  rejected : c.admits d.plugin.state = false → ret = -eBadFd ∧ c' = c ∧ d' = d

section

variable {calls : List PlugCall}

theorem lastChange_of_state {s : PcmPlugState} (h : plugStateOf calls = s) (hs : s ≠ .opened) :
    ∃ c, lastChange calls = some c ∧ c.ok = true ∧ c.target = some s := by
  rw [plugStateOf_eq] at h
  cases hc : lastChange calls with
  | none => exact absurd h.symm (by simpa [hc] using hs)
  | some c =>
    refine ⟨c, rfl, (lastChange_spec hc).1, ?_⟩
    cases ht : c.target with
    | none => exact absurd h.symm (by simpa [hc, ht] using hs)
    | some t => rw [← h, hc]; simp [ht]

theorem lastChange_setup (h : plugStateOf calls = .setup) :
    (∃ p, lastChange calls = some (.hwParams p 0)) ∨ lastChange calls = some (.callback .drop 0) := by
  obtain ⟨c, hc, hok, ht⟩ := lastChange_of_state h (by decide)
  cases c with
  | hwParams p ret =>
    obtain rfl : ret = 0 := by simpa [PlugCall.ok] using hok
    exact .inl ⟨p, hc⟩
  | callback c ret =>
    obtain rfl : ret = 0 := by simpa [PlugCall.ok] using hok
    cases c <;> first | exact .inr hc | simp [PlugCall.target] at ht
  | mmap a => simp [PlugCall.target] at ht

theorem lastChange_prepared (h : plugStateOf calls = .prepared) : lastChange calls = some (.callback .prepare 0) := by
  obtain ⟨c, hc, hok, ht⟩ := lastChange_of_state h (by decide)
  cases c with
  | callback c ret =>
    obtain rfl : ret = 0 := by simpa [PlugCall.ok] using hok
    cases c <;> first | exact hc | simp [PlugCall.target] at ht
  | _ => simp [PlugCall.target] at ht

theorem lastChange_running (h : plugStateOf calls = .running) : lastChange calls = some (.callback .start 0) := by
  obtain ⟨c, hc, hok, ht⟩ := lastChange_of_state h (by decide)
  cases c with
  | callback c ret =>
    obtain rfl : ret = 0 := by simpa [PlugCall.ok] using hok
    cases c <;> first | exact hc | simp [PlugCall.target] at ht
  | _ => simp [PlugCall.target] at ht

/-- What a prepared stream has gone through. -/
theorem prepared_since (h : lastChange calls = some (.callback .prepare 0)) :
    ∃ since before, calls = since ++ .callback .prepare 0 :: before ∧ .callback .drop 0 ∉ since := by
  obtain ⟨-, since, before, rfl, hsince⟩ := lastChange_spec h
  exact ⟨since, before, rfl, fun hmem => by simpa [PlugCall.target] using hsince _ hmem rfl⟩

theorem transfer_since (hall : EveryCall TransferAllowed calls)
    (h : plugStateOf calls = .prepared ∨ plugStateOf calls = .running) :
    ∃ since before, calls = since ++ .callback .prepare 0 :: before ∧ .callback .drop 0 ∉ since := by
  rcases h with h | h
  · exact prepared_since (lastChange_prepared h)
  · -- a running stream was prepared before it was started
    obtain ⟨-, newer, older, rfl, hnewer⟩ := lastChange_spec (lastChange_running h)
    have hstart : lastChange older = some (.callback .prepare 0) := hall newer _ older rfl
    obtain ⟨since, before, rfl, hsince⟩ := prepared_since hstart
    refine ⟨newer ++ .callback .start 0 :: since, before, by simp, fun hmem => ?_⟩
    rcases List.mem_append.1 hmem with hmem | hmem
    · simpa [PlugCall.target] using hnewer _ hmem rfl
    · simp [hsince] at hmem

/-- A guard that lets a command through finds the history its callback needs. -/
theorem transferAllowed_of_admits (hall : EveryCall TransferAllowed calls) {call : PlugCall}
    (ha : e.admits (plugStateOf calls) = true) (hinv : e.Invokes call) : TransferAllowed call calls := by
  cases e with
  | ioctl c =>
    cases c with
    | info => cases hinv
    | hwRefine => cases hinv
    | hwParams =>
      obtain ⟨_, _, rfl⟩ := hinv
      trivial
    | prepare =>
      obtain ⟨_, rfl⟩ := hinv
      exact lastChange_setup (by simpa [PlugEntry.admits, PcmPlugCmd.admits] using ha)
    | start =>
      obtain ⟨_, rfl⟩ := hinv
      exact lastChange_prepared (by simpa [PlugEntry.admits, PcmPlugCmd.admits] using ha)
    | drain =>
      obtain ⟨_, rfl⟩ := hinv
      exact lastChange_running (by simpa [PlugEntry.admits, PcmPlugCmd.admits] using ha)
    | writeiFrames x =>
      obtain ⟨_, rfl⟩ := hinv
      exact transfer_since hall (by simpa [PlugEntry.admits, PcmPlugCmd.admits] using ha)
    | readiFrames x =>
      obtain ⟨_, rfl⟩ := hinv
      exact transfer_since hall (by simpa [PlugEntry.admits, PcmPlugCmd.admits] using ha)
    | _ =>
      obtain ⟨_, rfl⟩ := hinv
      trivial
  | _ =>
    obtain ⟨_, rfl⟩ := hinv
    trivial

end

/-- The callbacks of every run follow the transfer protocol. -/
theorem plugRun_transferAllowed (h₀ : d₀.Fresh) (h : plugRun ops d₀ es = some d) :
    EveryCall TransferAllowed d.plugin.calls := by
  induction es using List.reverseRecOn generalizing d with
  | nil =>
    obtain rfl : d₀ = d := Option.some.inj h
    exact h₀.calls ▸ .nil
  | append_singleton es e ih =>
    obtain ⟨b, ans, hb, hs⟩ := plugRun_concat_some h
    rcases plugStep_cases hs with ⟨-, -, rfl⟩ | ⟨ha, call, hinv, hg⟩ | ⟨-, -, rfl⟩
    · exact ih hb
    · rw [hg.calls]
      rw [plugRun_state h₀ hb] at ha
      exact (ih hb).cons (transferAllowed_of_admits (ih hb) ha hinv)
    · exact ih hb

theorem pcmPlugSyncPtr_status {s s' : SndPcmSyncPtr} {plugin' : PcmPlugin π}
    (h : pcmPlugSyncPtr ops plugin s = (0, s', plugin')) : s'.status.state = convertPluginToPcmState plugin'.state := by
  simp only [pcmPlugSyncPtr] at h
  split at h
  · split at h <;> rename_i hret
    · obtain ⟨rfl, rfl⟩ := Prod.mk.inj (Prod.mk.inj h).2
      rfl
    · exact absurd (Prod.mk.inj h).1 hret
  · exact absurd (Prod.mk.inj h).1 (by decide)

/-- A command writes back to its own argument. -/
theorem pcmPlugIoctl_syncPtr {c : PcmPlugCmd} {ret : Int} {s' : SndPcmSyncPtr}
    (h : pcmPlugIoctl ops d c = some (ret, .syncPtr s', d')) :
    ∃ s, pcmPlugSyncPtr ops d.plugin s = (ret, s', d'.plugin) := by
  cases c with
  | syncPtr s =>
    obtain ⟨rfl, rfl, rfl⟩ := h
    exact ⟨s, rfl⟩
  | info => obtain ⟨_, -, hr⟩ := Option.map_eq_some_iff.1 h; cases hr
  | hwRefine => obtain ⟨_, -, hr⟩ := Option.map_eq_some_iff.1 h; cases hr
  | hwParams => obtain ⟨_, -, hr⟩ := Option.map_eq_some_iff.1 h; cases hr
  | _ => cases h

theorem pcmPlugIoctl_held {c c' : PcmPlugCmd} {ret : Int} (h : pcmPlugIoctl ops d c = some (ret, c', d')) :
    CommandHeld d c ret c' d' := by
  have hstatus : ∀ s, c' = .syncPtr s → ret = 0 → s.status.state = convertPluginToPcmState d'.plugin.state := by
    rintro s rfl rfl
    obtain ⟨s₀, hs⟩ := pcmPlugIoctl_syncPtr h
    exact pcmPlugSyncPtr_status hs
  rcases pcmPlugIoctl_cases h with ⟨-, hret, hc, rfl⟩ | ⟨ha, call, -, hg⟩ | ⟨ha, -, rfl⟩
  · exact ⟨fun _ _ _ => rfl, hstatus, fun _ => ⟨hret, hc, rfl⟩⟩
  · refine ⟨fun call' heq hok => ?_, hstatus, fun hr => absurd (ha.symm.trans hr) (by decide)⟩
    rw [hg.calls] at heq
    obtain rfl := (List.cons.inj heq).1
    simp [hg.state, PlugCall.moved, hok]
  · exact ⟨fun _ _ _ => rfl, hstatus, fun hr => absurd (ha.symm.trans hr) (by decide)⟩

/-- The transfer protocol a plugin sees: over every run its callbacks come in order, and every command from
there on is held to its guard. -/
theorem plugRun_protocol (h₀ : d₀.Fresh) (h : plugRun ops d₀ es = some d) :
    EveryCall TransferAllowed d.plugin.calls ∧
      ∀ c ret c' d', pcmPlugIoctl ops d c = some (ret, c', d') → CommandHeld d c ret c' d' :=
  ⟨plugRun_transferAllowed h₀ h, fun _ _ _ _ => pcmPlugIoctl_held⟩

end

/-- A stream configured, started, drained and stopped. -/
def playCommands : List PlugEntry :=
  [.ioctl (.hwParams (rateRequest 48000)), .ioctl .prepare, .ioctl .start, .ioctl .drain, .ioctl .drop]

theorem plugRun_protocol_played :
    ∃ d, plugRun acceptingOps stereoPlug playCommands = some d ∧ d.plugin.calls.length = 5 ∧
      EveryCall TransferAllowed d.plugin.calls := by
  have hrun : (plugRun acceptingOps stereoPlug playCommands).map (fun d => d.plugin.calls.length) = some 5 := by
    decide +kernel
  obtain ⟨d, hd, hlen⟩ := Option.map_eq_some_iff.1 hrun
  exact ⟨d, hd, hlen, (plugRun_protocol stereoPlug_fresh hd).1⟩

end Tinyalsa
