/-
What each step of opening a stream acquires and gives back, and when a whole attempt is sound: only opened
backends are used, `open` tells whether it completed, and what the caller is not given is released.
-/
import Tinyalsa.Pcm.Open

namespace Tinyalsa

open Hoare

section

variable {σ : Type} (a : OpenAnswers) (card device flags : UInt32)

/-! ## What an attempt owes -/

/-- Every step of `pcm_hw_open` succeeds. -/
structure HwCompletes : Prop where
  memory : a.callocHwData
  opens : 0 ≤ a.openHw (hwPath card device flags)
  blocking : flags &&& pcmNonblock = 0 → a.setBlocking

/-- Every step of `pcm_plug_open` succeeds. -/
structure PlugCompletes (node : Option SndNode) : Prop where
  memory : a.callocPlugData
  name : ∃ soName, sndUtilsGetStr node "so-name" = (0, some soName) ∧ a.dlopenPlugin (some soName)
  symbol : a.dlsymPlugin
  opens : a.openPlugin = 0

/-- `ops->open` completes. -/
def Completes (node : Option SndNode) : Backend → Prop
  | .hw => HwCompletes a card device flags
  | .plug => PlugCompletes a node

/-- What is held, given what has happened. -/
def held : List OpenEvent → List Resource
  | [] => []
  | .acquired r :: l => r :: held l
  | .released r :: l => (held l).erase r
  | _ :: l => held l

/-- An event after what happened before: only what is held is released, `open` reports success just when
it completes, the other functions get the data of an `open` that completed, and nothing unset is read. -/
def OpenEvent.Sound (before : List OpenEvent) : OpenEvent → Prop
  | .acquired _ => True
  | .released r => r ∈ held before
  | .opened b node rc => 0 ≤ rc ↔ Completes a card device flags node b
  | .used b data => ∃ node, data = some ⟨b, node⟩ ∧ Completes a card device flags node b
  | .unset => False

def LogSound : List OpenEvent → Prop
  | [] => True
  | e :: l => e.Sound a card device flags l ∧ LogSound l

/-- An attempt is sound when its events are, and what is still held is what the caller keeps. -/
def OpenSound (keeps : Resource → Bool) (w : OpenWorld σ) : Prop :=
  LogSound a card device flags w.log ∧ ∀ r ∈ held w.log, keeps r = true

/-- The functions that open a backend. -/
inductive OpenApi
  | open (config : Option PcmConfig)
  | paramsGet
  | plugOpen (node : Option SndNode)

/-- The call, and which resources its caller keeps: those of a handle it was given, or `params`. -/
def OpenApi.call (ops : Backend → PcmOps σ) : OpenApi → OpenM σ (Resource → Bool)
  | .open config => do
    let handle ← pcmOpen a card device flags ops config
    return fun _ => handle.isSome
  | .paramsGet => do
    let params ← pcmParamsGet a card device flags
    return fun r => params.isSome && r = .params
  | .plugOpen node => do
    let rc ← opsOpen a card device flags .plug node
    return fun _ => 0 ≤ rc

/-- The card definition has a node for the device. -/
def NodeOpens : Prop := a.callocNode ∧ a.dlopenParser ∧ a.dlsymParser ∧ a.openCard card ∧ a.getPcm device

/-- What `snd_utils_open_pcm` returns when it does. -/
def openedNode (a : OpenAnswers) : Option SndNode := some { getInt := a.getInt, getStr := a.getStr }

/-- A step of `pcm_plug_open` fails with a negative answer. -/
def PlugRefuses (node : Option SndNode) : Prop :=
  ¬ a.callocPlugData ∨ (sndUtilsGetStr node "so-name").1 < 0 ∨
    a.openPlugin < 0 ∧ a.dlsymPlugin ∧
      ∃ soName, sndUtilsGetStr node "so-name" = (0, some soName) ∧ a.dlopenPlugin (some soName)

/-- The attempts that come to a sound end: where the plugin's `open` is reached, it completes or fails with a
negative answer; and `pcm_params_get` must not fail once it has the node. -/
def Copes : OpenApi → Prop
  | .open _ => a.callocPcm → ¬ HwCompletes a card device flags → NodeOpens a card device →
      sndUtilsGetNodeType (openedNode a) = sndNodeTypePlugin →
      PlugCompletes a (openedNode a) ∨ PlugRefuses a (openedNode a)
  | .paramsGet => ¬ HwCompletes a card device flags → NodeOpens a card device →
      sndUtilsGetNodeType (openedNode a) = sndNodeTypePlugin ∧ PlugCompletes a (openedNode a)
  | .plugOpen node => PlugCompletes a node ∨ PlugRefuses a node

end

/-! ## What each step does -/

section

variable {σ : Type} {a : OpenAnswers} {card device flags : UInt32}

/-- The events so far are sound, and this is what is stored and held. -/
def Holds (a : OpenAnswers) (card device flags : UInt32) (data : Option BackendData) (rs : List Resource)
    (w : OpenWorld σ) : Prop :=
  w.data = data ∧ LogSound a card device flags w.log ∧ held w.log = rs

variable {data : Option BackendData} {rs : List Resource} {b : Backend} {node : Option SndNode}

theorem note_holds {e : OpenEvent} {rs' : List Resource}
    (he : ∀ l, held l = rs → e.Sound a card device flags l ∧ held (e :: l) = rs') :
    Triple (Holds (σ := σ) a card device flags data rs) (note e) fun _ => Holds a card device flags data rs' := by
  rintro w ⟨hd, hs, hr⟩
  obtain ⟨hsound, hheld⟩ := he w.log hr
  exact ⟨hd, ⟨hsound, hs⟩, hheld⟩

theorem acquire_holds (r : Resource) : Triple (Holds (σ := σ) a card device flags data rs) (acquire r) fun _ =>
    Holds a card device flags data (r :: rs) :=
  note_holds fun l hl => ⟨trivial, by rw [held, hl]⟩

theorem release_holds {r : Resource} (hr : r ∈ rs) : Triple (Holds (σ := σ) a card device flags data rs) (release r)
    fun _ => Holds a card device flags data (rs.erase r) :=
  note_holds fun l hl => ⟨show r ∈ held l by rw [hl]; exact hr, by rw [held, hl]⟩

theorem release_head (r : Resource) : Triple (Holds (σ := σ) a card device flags data (r :: rs)) (release r)
    fun _ => Holds a card device flags data rs := by
  intro w hw
  have h := release_holds List.mem_cons_self w hw
  rwa [List.erase_cons_head] at h

theorem badOops_holds (e : PcmError) : Triple (Holds (σ := σ) a card device flags data rs) (badOops e) fun _ =>
    Holds a card device flags data rs := fun _ hw => hw

theorem get_holds : Triple (Holds (σ := σ) a card device flags data rs) get fun _ =>
    Holds a card device flags data rs :=
  fun _ hw => hw

theorem onStream_holds {α : Type} (m : PcmM σ α) : Triple (Holds (σ := σ) a card device flags data rs) (onStream m)
    fun _ => Holds a card device flags data rs := fun _ hw => hw

theorem storeData_holds : Triple (Holds (σ := σ) a card device flags data rs) (storeData b node) fun _ =>
    Holds a card device flags (some ⟨b, node⟩) rs := fun _ hw => ⟨rfl, hw.2⟩

theorem pcmHwOpen_spec : Triple (Holds (σ := σ) a card device flags data rs) (pcmHwOpen a card device flags node)
    fun rc w => HwCompletes a card device flags ∧ 0 ≤ rc ∧
        Holds a card device flags (some ⟨.hw, node⟩) (.hwFd :: .hwData :: rs) w ∨
      ¬ HwCompletes a card device flags ∧ rc < 0 ∧ Holds a card device flags data rs w := by
  refine Triple.ite (fun hm => Triple.pure _ fun w hw => .inr ⟨fun h => ?_, by decide, hw⟩) fun hm => ?_
  · simp [h.memory] at hm
  refine Triple.bind (acquire_holds _) fun _ => Triple.ite (fun hfd => ?_) fun hfd => ?_
  · refine Triple.bind (release_head _) fun _ => Triple.pure _ fun w hw => .inr ⟨fun h => ?_, hfd, hw⟩
    exact absurd h.opens (by omega)
  refine Triple.bind (acquire_holds _) fun _ => Triple.ite (fun hb => ?_) fun hb => ?_
  · refine Triple.bind (release_head _) fun _ => Triple.bind (release_head _) fun _ =>
      Triple.pure _ fun w hw => .inr ⟨fun h => ?_, by decide, hw⟩
    simp [h.blocking hb.1] at hb
  · refine Triple.bind storeData_holds fun _ => Triple.pure _ fun w hw =>
      .inl ⟨⟨by simpa using hm, by omega, fun h => ?_⟩, by omega, hw⟩
    simpa [h] using hb

/-- What is unsound stays so. -/
theorem unsound_invariant (a : OpenAnswers) (card device flags : UInt32) :
    OpenInvariant fun w : OpenWorld σ => ¬ LogSound a card device flags w.log where
  event _ _ hw h := hw h.2
  data _ _ hw := hw
  badPcm _ _ hw := hw

theorem pcmPlugOpen_spec : Triple (Holds (σ := σ) a card device flags data rs) (pcmPlugOpen a node)
    fun rc w => PlugCompletes a node ∧ 0 ≤ rc ∧
        Holds a card device flags (some ⟨.plug, node⟩) (.plugin :: .pluginLib :: .plugData :: rs) w ∨
      ¬ PlugCompletes a node ∧ (PlugRefuses a node ∧ rc < 0 ∧ Holds a card device flags data rs w ∨
        ¬ PlugRefuses a node ∧ (0 ≤ rc ∨ ¬ LogSound a card device flags w.log)) := by
  refine Triple.ite (fun hm => Triple.pure _ fun w hw => .inr ⟨fun h => ?_, .inl ⟨?_, by decide, hw⟩⟩) fun hm => ?_
  · simp [h.memory] at hm
  · exact .inl (by simpa using hm)
  have hmem : a.callocPlugData := by simpa using hm
  refine Triple.bind (acquire_holds _) fun _ => ?_
  obtain ⟨rc, soName, hstr⟩ : ∃ rc soName, sndUtilsGetStr node "so-name" = (rc, soName) := ⟨_, _, rfl⟩
  rw [hstr]
  refine Triple.ite (fun hrc => ?_) fun hrc => ?_
  · -- the node names no library: the result of the lookup is returned
    refine Triple.bind (release_head _) fun _ => Triple.pure _ fun w hw => .inr ⟨fun h => ?_, ?_⟩
    · obtain ⟨name, hname, -⟩ := h.name
      rw [hstr] at hname
      cases hname
      exact hrc rfl
    rcases lt_or_ge rc 0 with hneg | hpos
    · exact .inl ⟨.inr (.inl (by rw [hstr]; exact hneg)), hneg, hw⟩
    · refine .inr ⟨?_, .inl hpos⟩
      rintro (h | h | ⟨-, -, name, hname, -⟩)
      · exact h hmem
      · rw [hstr] at h
        exact absurd h (by simpa using hpos)
      · rw [hstr] at hname
        cases hname
        exact hrc rfl
  obtain rfl : rc = 0 := by omega
  have hname : ∀ name, sndUtilsGetStr node "so-name" = (0, some name) → soName = some name := by
    intro name h
    rw [hstr] at h
    cases h
    rfl
  cases soName with
  | none =>
    -- the lookup succeeds without a name, and `NULL` is read: from there on the log is unsound
    refine Triple.post (Q := fun _ w => ¬ LogSound a card device flags w.log) ?_ fun rc w hw =>
      .inr ⟨?_, .inr ⟨?_, .inr hw⟩⟩
    · have hread : Triple (Holds (σ := σ) a card device flags data (.plugData :: rs)) (readName none)
          fun _ w => ¬ LogSound a card device flags w.log := fun _ _ h => h.1
      have hbad := unsound_invariant (σ := σ) a card device flags
      refine Triple.bind hread fun _ =>
        Triple.ite (fun _ => Triple.bind (hbad.note _) fun _ => KeepsOpen.pure _) fun _ => ?_
      refine Triple.bind (hbad.note _) fun _ => Triple.ite (fun _ => ?_) fun _ => Triple.ite (fun _ => ?_) fun _ => ?_
      · exact Triple.bind (hbad.note _) fun _ => Triple.bind (hbad.note _) fun _ => KeepsOpen.pure _
      · exact Triple.bind (hbad.note _) fun _ => Triple.bind (hbad.note _) fun _ => KeepsOpen.pure _
      · exact Triple.bind (hbad.note _) fun _ => Triple.bind (hbad.storeData node _) fun _ => KeepsOpen.pure _
    · rintro ⟨-, ⟨name, h, -⟩, -, -⟩
      cases hname name h
    · rintro (h | h | ⟨-, -, name, h, -⟩)
      · exact h hmem
      · rw [hstr] at h
        exact absurd h (lt_irrefl 0)
      · cases hname name h
  | some name =>
    have hread : Triple (Holds (σ := σ) a card device flags data (.plugData :: rs))
      (readName (some name)) fun name' w =>
        Holds a card device flags data (.plugData :: rs) w ∧ name' = some name := fun w hw => ⟨hw, rfl⟩
    have hrefuses : PlugRefuses a node → a.openPlugin < 0 ∧ a.dlsymPlugin ∧ a.dlopenPlugin (some name) := by
      rintro (h | h | ⟨hopen, hsym, name', h, hlib⟩)
      · exact absurd hmem h
      · rw [hstr] at h
        exact absurd h (lt_irrefl 0)
      · rw [hname name' h]
        exact ⟨hopen, hsym, hlib⟩
    have hcompletes : PlugCompletes a node → a.dlopenPlugin (some name) ∧ a.dlsymPlugin ∧ a.openPlugin = 0 := by
      rintro ⟨-, ⟨name', h, hlib⟩, hsym, hopen⟩
      rw [hname name' h]
      exact ⟨hlib, hsym, hopen⟩
    refine Triple.bind hread fun name' => Triple.assume fun hn => ?_
    subst hn
    refine Triple.ite (fun hlib => ?_) fun hlib => Triple.bind (acquire_holds _) fun _ => ?_
    · -- the library does not load; what is returned is still the 0 of the lookup
      refine Triple.bind (release_head _) fun _ => Triple.pure _ fun w hw =>
        .inr ⟨fun h => ?_, .inr ⟨fun h => ?_, .inl le_rfl⟩⟩
      · simp [hcompletes h] at hlib
      · simp [hrefuses h] at hlib
    have hlib : a.dlopenPlugin (some name) := by simpa using hlib
    refine Triple.ite (fun hsym => ?_) fun hsym => Triple.ite (fun hopen => ?_) fun hopen => ?_
    · -- the library lacks the symbol: 0 again
      refine Triple.bind (release_head _) fun _ => Triple.bind (release_head _) fun _ => Triple.pure _ fun w hw =>
        .inr ⟨fun h => ?_, .inr ⟨fun h => ?_, .inl le_rfl⟩⟩
      · simp [hcompletes h] at hsym
      · simp [hrefuses h] at hsym
    · refine Triple.bind (release_head _) fun _ => Triple.bind (release_head _) fun _ => Triple.pure _ fun w hw =>
        .inr ⟨fun h => hopen (hcompletes h).2.2, ?_⟩
      rcases lt_or_ge a.openPlugin 0 with hneg | hpos
      · exact .inl ⟨.inr (.inr ⟨hneg, by simpa using hsym, name, hstr, hlib⟩), hneg, hw⟩
      · exact .inr ⟨fun h => absurd (hrefuses h).1 (not_lt.2 hpos), .inl hpos⟩
    · exact Triple.bind (acquire_holds _) fun _ => Triple.bind storeData_holds fun _ => Triple.pure _ fun w hw =>
        .inl ⟨⟨hmem, ⟨name, hstr, hlib⟩, by simpa using hsym, by simpa using hopen⟩, le_rfl, hw⟩

theorem opsOpen_hw : Triple (Holds (σ := σ) a card device flags data rs) (opsOpen a card device flags .hw node)
    fun rc w => HwCompletes a card device flags ∧ 0 ≤ rc ∧
        Holds a card device flags (some ⟨.hw, node⟩) (.hwFd :: .hwData :: rs) w ∨
      ¬ HwCompletes a card device flags ∧ rc < 0 ∧ Holds a card device flags data rs w := by
  refine Triple.bind pcmHwOpen_spec fun rc w hw => ?_
  rcases hw with ⟨hc, hrc, hd, hs, hr⟩ | ⟨hc, hrc, hd, hs, hr⟩
  · exact .inl ⟨hc, hrc, hd, ⟨iff_of_true hrc hc, hs⟩, hr⟩
  · exact .inr ⟨hc, hrc, hd, ⟨iff_of_false (not_le.2 hrc) hc, hs⟩, hr⟩

theorem opsOpen_plug : Triple (Holds (σ := σ) a card device flags data rs) (opsOpen a card device flags .plug node)
    fun rc w => PlugCompletes a node ∧ 0 ≤ rc ∧
        Holds a card device flags (some ⟨.plug, node⟩) (.plugin :: .pluginLib :: .plugData :: rs) w ∨
      ¬ PlugCompletes a node ∧ (PlugRefuses a node ∧ rc < 0 ∧ Holds a card device flags data rs w ∨
        ¬ PlugRefuses a node ∧ ¬ LogSound a card device flags w.log) := by
  refine Triple.bind pcmPlugOpen_spec fun rc w hw => ?_
  rcases hw with ⟨hc, hrc, hd, hs, hr⟩ | ⟨hc, ⟨hf, hrc, hd, hs, hr⟩ | ⟨hf, hbad⟩⟩
  · exact .inl ⟨hc, hrc, hd, ⟨iff_of_true hrc hc, hs⟩, hr⟩
  · exact .inr ⟨hc, .inl ⟨hf, hrc, hd, ⟨iff_of_false (not_le.2 hrc) hc, hs⟩, hr⟩⟩
  · refine .inr ⟨hc, .inr ⟨hf, fun h => ?_⟩⟩
    rcases hbad with hrc | hbad
    · exact hc (h.1.1 hrc)
    · exact hbad h.2

/-! ## Nodes and data -/

/-- What an opened node holds. -/
def nodeResources : Option SndNode → List Resource
  | none => []
  | some n => (if n.cardNode then [.cardNode] else []) ++ (if n.dlHdl then [.parserLib] else []) ++ [.sndNode]

/-- What the data of a backend holds. -/
def dataResources : Backend → List Resource
  | .hw => [.hwFd, .hwData]
  | .plug => [.plugin, .pluginLib, .plugData]

theorem sndUtilsOpenPcm_spec : Triple (Holds (σ := σ) a card device flags data rs) (sndUtilsOpenPcm a card device)
    fun node w => NodeOpens a card device ∧ node = openedNode a ∧
        Holds a card device flags data (nodeResources (openedNode a) ++ rs) w ∨
      ¬ NodeOpens a card device ∧ node = none ∧ Holds a card device flags data rs w := by
  refine Triple.ite (fun hm => Triple.pure _ fun w hw => .inr ⟨fun h => ?_, rfl, hw⟩) fun hm =>
    Triple.bind (acquire_holds _) fun _ => Triple.ite (fun hl => ?_) fun hl => ?_
  · simp [h.1] at hm
  · refine Triple.bind (release_head _) fun _ => Triple.pure _ fun w hw => .inr ⟨fun h => ?_, rfl, hw⟩
    simp [h.2.1] at hl
  refine Triple.bind (acquire_holds _) fun _ => Triple.ite (fun hs => ?_) fun hs => ?_
  · refine Triple.bind (release_head _) fun _ => Triple.bind (release_head _) fun _ =>
      Triple.pure _ fun w hw => .inr ⟨fun h => ?_, rfl, hw⟩
    simp [h.2.2.1, h.2.2.2.1] at hs
  refine Triple.bind (acquire_holds _) fun _ => Triple.ite (fun hp => ?_) fun hp => ?_
  · refine Triple.bind (release_head _) fun _ => Triple.bind (release_head _) fun _ =>
      Triple.bind (release_head _) fun _ => Triple.pure _ fun w hw => .inr ⟨fun h => ?_, rfl, hw⟩
    simp [h.2.2.2.2] at hp
  · refine Triple.pure _ fun w hw => .inl ⟨?_, rfl, hw⟩
    simp only [Bool.not_eq_true', Bool.not_eq_false, Bool.or_eq_true, not_or] at hm hl hs hp
    exact ⟨hm, hl, hs.1, hs.2, hp⟩

/-- A release among other resources. -/
theorem release_between {r : Resource} {pre post : List Resource} (hr : r ∉ pre) :
    Triple (Holds (σ := σ) a card device flags data (pre ++ r :: post)) (release r) fun _ =>
      Holds a card device flags data (pre ++ post) := by
  intro w hw
  have h := release_holds (show r ∈ pre ++ r :: post by simp) w hw
  rwa [List.erase_append_right _ hr, List.erase_cons_head] at h

theorem releaseIf_between (set : Bool) {r : Resource} {pre post : List Resource} (hr : r ∉ pre) :
    Triple (Holds (σ := σ) a card device flags data (pre ++ ((if set then [r] else []) ++ post)))
    (releaseIf set r) fun _ =>
      Holds a card device flags data (pre ++ post) := by
  cases set with
  | false => exact Triple.pure _ fun w hw => hw
  | true => exact release_between hr

theorem sndUtilsCloseDevNode_spec {pre post : List Resource} (hc : .cardNode ∉ pre) (hl : .parserLib ∉ pre)
    (hn : .sndNode ∉ pre) :
    Triple (Holds (σ := σ) a card device flags data (pre ++ (nodeResources node ++ post))) (sndUtilsCloseDevNode node)
      fun _ => Holds a card device flags data (pre ++ post) := by
  cases node with
  | none => exact Triple.pure _ fun w hw => hw
  | some n =>
    rw [nodeResources, List.append_assoc, List.append_assoc]
    exact Triple.bind (releaseIf_between _ hc) fun _ => Triple.bind (releaseIf_between _ hl) fun _ => release_between hn

theorem useData_spec (hc : Completes a card device flags node b) :
    Triple (Holds (σ := σ) a card device flags (some ⟨b, node⟩) rs) (useData b) fun _ =>
      Holds a card device flags (some ⟨b, node⟩) rs := by
  rintro w ⟨hd, hs, hr⟩
  exact ⟨hd, ⟨⟨node, hd, hc⟩, hs⟩, hr⟩

theorem opsClose_spec (pre post : List Resource) (hc : Completes a card device flags node b)
    (h : ∀ r ∈ dataResources b, r ∉ pre) :
    Triple (Holds (σ := σ) a card device flags (some ⟨b, node⟩) (pre ++ (dataResources b ++ post)))
    (opsClose b) fun _ =>
      Holds a card device flags (some ⟨b, node⟩) (pre ++ post) := by
  refine Triple.bind (useData_spec hc) fun _ => Triple.get_bind fun t => ?_
  rintro w ⟨hw, rfl⟩
  rw [hw.1]
  cases b with
  | hw => exact Triple.bind (release_between (h _ (by decide))) (fun _ => release_between (h _ (by decide))) w hw
  | plug =>
    exact Triple.bind (release_between (h _ (by decide))) (fun _ => Triple.bind (release_between (h _ (by decide)))
      fun _ => release_between (h _ (by decide))) w hw

theorem failCloseDevNode_spec : Triple (Holds (σ := σ) a card device flags data (nodeResources node ++ [.pcm]))
    (failCloseDevNode node) fun handle w => handle = none ∧ Holds a card device flags data [] w := by
  have hclose : Triple (Holds (σ := σ) a card device flags data ([] ++ (nodeResources node ++ [.pcm])))
      (sndUtilsCloseDevNode node) fun _ => Holds a card device flags data ([] ++ [.pcm]) :=
    sndUtilsCloseDevNode_spec (by simp) (by simp) (by simp)
  exact Triple.bind hclose fun _ => Triple.bind (release_head _) fun _ => Triple.pure _ fun w hw => ⟨rfl, hw⟩

/-! ## The entry points, step by step -/

/-- What a handle holds. -/
def PcmBackend.resources (h : PcmBackend) : List Resource := dataResources h.ops ++ (nodeResources h.sndNode ++ [.pcm])

/-- What a sound `pcm_open` leaves: a failed one holds nothing. -/
def OpenEnds (a : OpenAnswers) (card device flags : UInt32) : Option PcmBackend → OpenWorld σ → Prop
  | none, w => ∃ data, Holds a card device flags data [] w
  | some h, w => Completes a card device flags h.sndNode h.ops ∧
      Holds a card device flags (some ⟨h.ops, h.sndNode⟩) h.resources w

theorem failCloseDevNode_ends : Triple (Holds (σ := σ) a card device flags data (nodeResources node ++ [.pcm]))
    (failCloseDevNode node) (OpenEnds a card device flags) := by
  refine failCloseDevNode_spec.post ?_
  rintro _ w ⟨rfl, hw⟩
  exact ⟨data, hw⟩

theorem pcmOpenOn_spec (ops : Backend → PcmOps σ) (config : Option PcmConfig) {fd : Int} (hfd : 0 ≤ fd)
    (hc : Completes a card device flags node b) :
    Triple (Holds a card device flags (some ⟨b, node⟩) (dataResources b ++ (nodeResources node ++ [.pcm])))
      (pcmOpenOn a card device flags ops config b node fd) (OpenEnds a card device flags) := by
  refine Triple.ite (fun h => absurd hfd (not_le.2 h)) fun _ => Triple.bind (useData_spec hc) fun _ =>
    Triple.bind (onStream_holds _) fun r => ?_
  cases r with
  | none => exact Triple.pure _ fun w hw => ⟨hc, hw⟩
  | some error =>
    refine Triple.bind (badOops_holds _) fun _ => Triple.bind (opsClose_spec [] _ hc (by simp)) fun _ => ?_
    exact failCloseDevNode_ends

theorem unsound_pcmOpenOn (ops : Backend → PcmOps σ) (config : Option PcmConfig) (fd : Int) :
    KeepsOpen (fun w => ¬ LogSound a card device flags w.log) (pcmOpenOn a card device flags ops config b node fd) := by
  have hbad := unsound_invariant (σ := σ) a card device flags
  have hstream : ∀ {α : Type} (m : PcmM σ α), KeepsOpen (fun w => ¬ LogSound a card device flags w.log) (onStream m) :=
    fun _ _ hw => hw
  refine Triple.ite (fun _ => ?_) fun _ => Triple.bind (hbad.useData b) fun _ => Triple.bind (hstream _) fun r => ?_
  · exact Triple.bind KeepsOpen.get fun _ => Triple.bind (hbad.badOops _) fun _ => hbad.failCloseDevNode node
  cases r with
  | none => exact KeepsOpen.pure _
  | some error =>
    exact Triple.bind (hbad.badOops _) fun _ => Triple.bind (hbad.opsClose b) fun _ => hbad.failCloseDevNode node

/-- The plugin's turn in `pcm_open`. -/
theorem pcmOpen_plug (ops : Backend → PcmOps σ) (config : Option PcmConfig) :
    Triple (Holds a card device flags none (nodeResources node ++ [.pcm]))
      (do
        let fd ← opsOpen a card device flags .plug node
        pcmOpenOn a card device flags ops config .plug node fd)
      fun handle w => (PlugCompletes a node ∨ PlugRefuses a node) ∧ OpenEnds a card device flags handle w ∨
        ¬ (PlugCompletes a node ∨ PlugRefuses a node) ∧ ¬ LogSound a card device flags w.log := by
  refine Triple.bind opsOpen_plug fun fd w hw => ?_
  rcases hw with ⟨hc, hfd, hw⟩ | ⟨hc, ⟨hf, hneg, hw⟩ | ⟨hf, hw⟩⟩
  · exact .inl ⟨.inl hc, pcmOpenOn_spec (b := .plug) ops config hfd hc w hw⟩
  · refine .inl ⟨.inr hf, ?_⟩
    rw [pcmOpenOn, if_pos hneg]
    exact Triple.bind get_holds (fun _ => Triple.bind (badOops_holds _) fun _ => failCloseDevNode_ends) w hw
  · exact .inr ⟨not_or.2 ⟨hc, hf⟩, unsound_pcmOpenOn ops config fd w hw⟩

/-- The node that either function looks up once the hardware's turn is over. -/
theorem sndUtilsOpenPcm_after {fd : Int} (hfd : fd < 0) : Triple
    (fun w => HwCompletes a card device flags ∧ 0 ≤ fd ∧
        Holds (σ := σ) a card device flags (some ⟨.hw, none⟩) (.hwFd :: .hwData :: rs) w ∨
      ¬ HwCompletes a card device flags ∧ fd < 0 ∧ Holds a card device flags none rs w)
    (sndUtilsOpenPcm a card device) fun node w => ¬ HwCompletes a card device flags ∧
      (NodeOpens a card device ∧ node = openedNode a ∨ ¬ NodeOpens a card device ∧ node = none) ∧
        Holds a card device flags none (nodeResources node ++ rs) w := by
  intro w hw
  rcases hw with ⟨-, hpos, -⟩ | ⟨hc, -, hw⟩
  · exact absurd hfd (not_lt.2 hpos)
  rcases sndUtilsOpenPcm_spec w hw with ⟨hn, hnode, hw⟩ | ⟨hn, hnode, hw⟩
  · exact ⟨hc, .inl ⟨hn, hnode⟩, by rw [hnode]; exact hw⟩
  · exact ⟨hc, .inr ⟨hn, hnode⟩, by rw [hnode]; exact hw⟩

theorem pcmOpen_spec (ops : Backend → PcmOps σ) (config : Option PcmConfig) :
    Triple (Holds a card device flags none []) (pcmOpen a card device flags ops config) fun handle w =>
      Copes a card device flags (.open config) ∧ OpenEnds a card device flags handle w ∨
        ¬ Copes a card device flags (.open config) ∧ ¬ LogSound a card device flags w.log := by
  refine Triple.ite (fun hm => ?_) fun hm => ?_
  · refine Triple.bind (badOops_holds _) fun _ => Triple.pure _ fun w hw => .inl ⟨fun h => ?_, none, hw⟩
    simp [h] at hm
  have hmem : a.callocPcm := by simpa using hm
  refine Triple.bind (acquire_holds _) fun _ => Triple.bind (onStream_holds _) fun _ =>
    Triple.bind opsOpen_hw fun fd => ?_
  refine Triple.ite (fun hfd => Triple.bind (sndUtilsOpenPcm_after hfd) fun node => ?_) fun hfd w hw => ?_
  · refine Triple.ite (fun htype w hw => ?_) fun htype w hw => ?_
    · obtain ⟨hc, hn, hw⟩ := hw
      refine .inl ⟨fun _ _ hopens hplug => ?_, Triple.bind (badOops_holds _) (fun _ => failCloseDevNode_ends) w hw⟩
      rcases hn with ⟨-, rfl⟩ | ⟨hn, -⟩
      · exact absurd hplug (by simpa [openedNode] using htype)
      · exact absurd hopens hn
    · obtain ⟨hc, ⟨hopens, rfl⟩ | ⟨-, rfl⟩, hw⟩ := hw
      · have hplug : sndUtilsGetNodeType (openedNode a) = sndNodeTypePlugin := by simpa [openedNode] using htype
        rcases pcmOpen_plug ops config w hw with ⟨hp, hends⟩ | ⟨hp, hbad⟩
        · exact .inl ⟨fun _ _ _ _ => hp, hends⟩
        · exact .inr ⟨fun h => hp (h hmem hc hopens hplug), hbad⟩
      · simp at htype
  · rcases hw with ⟨hc, -, hw⟩ | ⟨-, hneg, -⟩
    · exact .inl ⟨fun _ h => absurd hc h, pcmOpenOn_spec (b := .hw) ops config (not_lt.1 hfd) hc w hw⟩
    · exact absurd hneg hfd

/-- What a sound `pcm_params_get` leaves. -/
def ParamsEnd (a : OpenAnswers) (card device flags : UInt32) (params : Option SndPcmHwParams) (w : OpenWorld σ) :
    Prop :=
  OpenSound a card device flags (fun r => params.isSome && r = .params) w

/-- Every end of `pcm_params_get` closes the node and the backend. -/
theorem closeBoth_spec {α : Type} (x : α) (pre : List Resource) (hpre : ∀ r ∈ pre, r = .params)
    (hc : Completes a card device flags node b) :
    Triple (Holds (σ := σ) a card device flags (some ⟨b, node⟩)
    (pre ++ (dataResources b ++ (nodeResources node ++ []))))
      (do
        sndUtilsCloseDevNode node
        opsClose b
        return x)
      fun y w => y = x ∧ Holds a card device flags (some ⟨b, node⟩) pre w := by
  have hmem : ∀ r ∈ pre ++ dataResources b, r = .params ∨ r ∈ dataResources b := fun r hr =>
    (List.mem_append.1 hr).imp_left (hpre r)
  have hdata : ∀ r ∈ [Resource.cardNode, .parserLib, .sndNode], r ∉ dataResources b := by cases b <;> decide
  have hnode : ∀ r ∈ [Resource.cardNode, .parserLib, .sndNode], r ∉ pre ++ dataResources b := by
    intro r hr hb
    rcases hmem r hb with rfl | hb
    · simp at hr
    · exact hdata r hr hb
  rw [← List.append_assoc]
  refine Triple.bind (sndUtilsCloseDevNode_spec (hnode _ (by decide)) (hnode _ (by decide)) (hnode _ (by decide)))
    fun _ => ?_
  rw [List.append_assoc]
  refine Triple.bind (opsClose_spec _ _ hc fun r hr hp => ?_) fun _ => Triple.pure _ fun w hw => ⟨rfl, ?_⟩
  · rw [hpre r hp] at hr
    revert hr
    cases b <;> decide
  · rwa [List.append_nil] at hw

theorem pcmParamsGetOn_spec {fd : Int} (hfd : 0 ≤ fd) (hc : Completes a card device flags node b) :
    Triple (Holds (σ := σ) a card device flags (some ⟨b, node⟩) (dataResources b ++ (nodeResources node ++ [])))
      (pcmParamsGetOn a b node fd) (ParamsEnd a card device flags) := by
  have hnone : ∀ (params : Option SndPcmHwParams) (w : OpenWorld σ),
      params = none ∧ Holds a card device flags (some ⟨b, node⟩) [] w → ParamsEnd a card device flags params w :=
    fun _ w hw => ⟨hw.2.2.1, by rw [hw.2.2.2]; exact fun _ hr => absurd hr List.not_mem_nil⟩
  refine Triple.ite (fun h => absurd h (not_lt.2 hfd)) fun _ => Triple.ite (fun _ => ?_) fun _ => ?_
  · exact (closeBoth_spec none [] (by simp) hc).post hnone
  refine Triple.bind (acquire_holds _) fun _ => Triple.bind (useData_spec hc) fun _ =>
    Triple.ite (fun _ => ?_) fun _ => ?_
  · exact Triple.bind (release_head _) fun _ => (closeBoth_spec none [] (by simp) hc).post hnone
  · refine (closeBoth_spec _ [.params] (by simp) hc).post ?_
    rintro _ w ⟨rfl, -, hs, hr⟩
    refine ⟨hs, fun r hmem => ?_⟩
    rw [hr] at hmem
    simpa using hmem

theorem unsound_pcmParamsGetOn (fd : Int) :
    KeepsOpen (fun w : OpenWorld σ => ¬ LogSound a card device flags w.log) (pcmParamsGetOn a b node fd) := by
  have hbad := unsound_invariant (σ := σ) a card device flags
  have hclose : ∀ params : Option SndPcmHwParams,
    KeepsOpen (fun w : OpenWorld σ => ¬ LogSound a card device flags w.log) (do
      sndUtilsCloseDevNode node
      opsClose b
      return params) := fun _ => Triple.bind (hbad.closeDevNode node) fun _ => Triple.bind (hbad.opsClose b) fun _ =>
        KeepsOpen.pure _
  refine Triple.ite (fun _ => KeepsOpen.pure _) fun _ => Triple.ite (fun _ => hclose _) fun _ => ?_
  refine Triple.bind (hbad.note _) fun _ => Triple.bind (hbad.useData b) fun _ =>
    Triple.ite (fun _ => ?_) fun _ => hclose _
  exact Triple.bind (hbad.note _) fun _ => hclose _

/-- A node that `pcm_params_get` has not closed is lost. -/
theorem paramsEnd_node {w : OpenWorld σ} (hw : Holds a card device flags none (nodeResources (openedNode a) ++ []) w) :
    ¬ ParamsEnd a card device flags none w := by
  intro h
  have hmem : Resource.sndNode ∈ held w.log := by
    rw [hw.2.2]
    exact (show Resource.sndNode ∈ [.cardNode, .parserLib, .sndNode] by decide)
  have hkept := h.2 .sndNode hmem
  simp at hkept

/-- The plugin's turn in `pcm_params_get`. -/
theorem pcmParamsGet_plug : Triple (Holds (σ := σ) a card device flags none (nodeResources (openedNode a) ++ []))
    (do
      let fd ← opsOpen a card device flags .plug (openedNode a)
      pcmParamsGetOn a .plug (openedNode a) fd)
    fun params w => PlugCompletes a (openedNode a) ↔ ParamsEnd a card device flags params w := by
  refine Triple.bind opsOpen_plug fun fd w hw => ?_
  rcases hw with ⟨hc, hfd, hw⟩ | ⟨hc, ⟨-, hneg, hw⟩ | ⟨-, hw⟩⟩
  · exact iff_of_true hc (pcmParamsGetOn_spec (b := .plug) hfd hc w hw)
  · refine iff_of_false hc ?_
    rw [pcmParamsGetOn, if_pos hneg]
    exact paramsEnd_node hw
  · exact iff_of_false hc fun h => unsound_pcmParamsGetOn fd w hw h.1

theorem pcmParamsGet_spec : Triple (Holds (σ := σ) a card device flags none []) (pcmParamsGet a card device flags)
    fun params w => Copes a card device flags .paramsGet ↔ ParamsEnd a card device flags params w := by
  refine Triple.bind opsOpen_hw fun fd => ?_
  refine Triple.ite (fun hfd => Triple.bind (sndUtilsOpenPcm_after hfd) fun node => ?_) fun hfd w hw => ?_
  · refine Triple.ite (fun htype => Triple.pure _ fun w hw => ?_) fun htype w hw => ?_
    · obtain ⟨hc, ⟨hopens, rfl⟩ | ⟨hn, rfl⟩, hw⟩ := hw
      · refine iff_of_false (fun h => ?_) (paramsEnd_node hw)
        exact absurd (h hc hopens).1 (by simpa [openedNode] using htype)
      · refine iff_of_true (fun _ h => absurd h hn) ⟨hw.2.1, fun r hr => ?_⟩
        rw [hw.2.2] at hr
        cases hr
    · obtain ⟨hc, ⟨hopens, rfl⟩ | ⟨-, rfl⟩, hw⟩ := hw
      · have hplug : sndUtilsGetNodeType (openedNode a) = sndNodeTypePlugin := by simpa [openedNode] using htype
        exact Iff.trans ⟨fun h => (h hc hopens).2, fun h _ _ => ⟨hplug, h⟩⟩ (pcmParamsGet_plug w hw)
      · simp at htype
  · rcases hw with ⟨hc, -, hw⟩ | ⟨-, hneg, -⟩
    · exact iff_of_true (fun h => absurd hc h) (pcmParamsGetOn_spec (b := .hw) (not_lt.1 hfd) hc w hw)
    · exact absurd hneg hfd

/-- `pcm_close` gives back what `pcm_open` left with the handle. -/
theorem pcmClose_spec (ops : Backend → PcmOps σ) {h : PcmBackend} (hc : Completes a card device flags h.sndNode h.ops) :
    Triple (Holds a card device flags (some ⟨h.ops, h.sndNode⟩) h.resources) (pcmClose ops (some h)) fun _ =>
      Holds a card device flags (some ⟨h.ops, h.sndNode⟩) [] := by
  have hdata : ∀ r ∈ [Resource.cardNode, .parserLib, .sndNode], r ∉ dataResources h.ops := by cases h.ops <;> decide
  refine Triple.bind (onStream_holds _) fun _ => Triple.bind (sndUtilsCloseDevNode_spec (hdata _ (by decide))
    (hdata _ (by decide)) (hdata _ (by decide))) fun _ => ?_
  refine Triple.bind (opsClose_spec [] _ hc (by simp)) fun _ => Triple.bind (onStream_holds _) fun _ => ?_
  exact Triple.bind (release_head _) fun _ => Triple.pure _ fun _ hw => hw

/-! ## Whole attempts -/

/-- An attempt on a new stream. -/
def openRun (a : OpenAnswers) (card device flags : UInt32) (ops : Backend → PcmOps σ) (stream : World σ) (c : OpenApi) :
    (Resource → Bool) × OpenWorld σ :=
  exec (c.call a card device flags ops) { stream }

theorem openRun_start (stream : World σ) : Holds a card device flags none [] ({ stream } : OpenWorld σ) :=
  ⟨rfl, trivial, rfl⟩

/-- An attempt uses only backends that opened, tells whether they did, and forgets nothing, just when its
answers are ones the code copes with. -/
theorem openRun_sound_iff (a : OpenAnswers) (card device flags : UInt32) (ops : Backend → PcmOps σ) (stream : World σ)
    (c : OpenApi) :
    OpenSound a card device flags (openRun a card device flags ops stream c).1
    (openRun a card device flags ops stream c).2 ↔
      Copes a card device flags c := by
  cases c with
  | «open» config =>
    rcases pcmOpen_spec ops config _ (openRun_start stream) with ⟨hc, hends⟩ | ⟨hc, hbad⟩
    · refine iff_of_true ?_ hc
      change OpenSound a card device flags
        (fun _ => (exec (pcmOpen a card device flags ops config) { stream }).1.isSome)
        (exec (pcmOpen a card device flags ops config) { stream }).2
      cases h : (exec (pcmOpen a card device flags ops config) { stream }).1 with
      | none =>
        rw [h] at hends
        obtain ⟨data, -, hs, hr⟩ := hends
        exact ⟨hs, by rw [hr]; exact fun _ hr => absurd hr List.not_mem_nil⟩
      | some handle =>
        rw [h] at hends
        exact ⟨hends.2.2.1, fun _ _ => rfl⟩
    · exact iff_of_false (fun h => hbad h.1) hc
  | paramsGet => exact (pcmParamsGet_spec _ (openRun_start stream)).symm
  | plugOpen node =>
    rcases opsOpen_plug _ (openRun_start stream) with ⟨hc, hrc, -, hs, -⟩ | ⟨hc, ⟨hf, -, -, hs, hr⟩ | ⟨hf, hbad⟩⟩
    · exact iff_of_true ⟨hs, fun _ _ => decide_eq_true hrc⟩ (.inl hc)
    · refine iff_of_true ⟨hs, fun r hmem => ?_⟩ (.inr hf)
      exact absurd (hr ▸ hmem) List.not_mem_nil
    · exact iff_of_false (fun h => hbad h.1) (not_or.2 ⟨hc, hf⟩)

/-- A handle is given back whole, whatever its stream did in between. -/
theorem pcmClose_held (ops : Backend → PcmOps σ) (stream stream' : World σ) {config : Option PcmConfig}
    (hc : Copes a card device flags (.open config)) {h : PcmBackend}
    (hopen : (exec (pcmOpen a card device flags ops config) { stream }).1 = some h) :
    held (exec (pcmClose ops (some h)) { (exec (pcmOpen a card device flags ops config) { stream }).2 with
      stream := stream' }).2.log = [] := by
  rcases pcmOpen_spec ops config _ (openRun_start stream) with ⟨-, hends⟩ | ⟨hnot, -⟩
  · rw [hopen] at hends
    have hheld : Holds a card device flags (some ⟨h.ops, h.sndNode⟩) h.resources
      { (exec (pcmOpen a card device flags ops config) { stream }).2 with stream := stream' } := hends.2
    exact (pcmClose_spec ops hends.1 _ hheld).2.2
  · exact absurd hc hnot

/-- A card whose definition names a plugin library that cannot be loaded. -/
def noLibrary : OpenAnswers where
  openHw := fun _ => -1
  openCard := fun _ => true
  getPcm := fun _ => true
  getInt := fun _ => (0, some sndNodeTypePlugin)
  getStr := fun _ => (0, some "libplug.so".toUTF8.toList)
  dlopenPlugin := fun _ => false
  hwRefine := fun p => (⟨0, none⟩, p)

/-- A function of `ops` was called without data. -/
def OpenEvent.onNothing : OpenEvent → Bool
  | .used _ none => true
  | _ => false

/-- `pcm_plug_open` reports success without the library, and `pcm_open` passes on a `NULL` data. -/
theorem openRun_sound_not :
    (openRun noLibrary 0 0 0 (fun _ => refiningOps id) (idleWorld (openedPcm stereoConfig))
        (.open none)).2.log.any OpenEvent.onNothing ∧
      ¬ OpenSound noLibrary 0 0 0
        (openRun noLibrary 0 0 0 (fun _ => refiningOps id) (idleWorld (openedPcm stereoConfig)) (.open none)).1
        (openRun noLibrary 0 0 0 (fun _ => refiningOps id) (idleWorld (openedPcm stereoConfig)) (.open none)).2 := by
  refine ⟨by decide +kernel, fun h => ?_⟩
  rcases pcmOpen_spec (fun _ => refiningOps id) none _ (openRun_start (idleWorld (openedPcm stereoConfig)))
    with ⟨hc, -⟩ | ⟨-, hbad⟩
  · have hneg : ¬ HwCompletes noLibrary 0 0 0 := fun h => absurd h.opens (by decide)
    rcases hc rfl hneg ⟨rfl, rfl, rfl, rfl, rfl⟩ rfl with hp | hp
    · obtain ⟨name, -, hlib⟩ := hp.name
      cases hlib
    · revert hp
      simp [PlugRefuses, noLibrary, sndUtilsGetStr, openedNode]
  · exact hbad h.1

end

end Tinyalsa
