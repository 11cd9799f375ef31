/-
Opening and closing a mixer's plugin (`mixer_plugin.c` over `snd_card_plugin.c`): what every attempt takes and gives
back. The parser of the card definition and the plugin's library answer as they like.
-/
import Tinyalsa.Lib.Ledger
import Tinyalsa.Mixer.Group

namespace Tinyalsa

open Hoare Ledger

/-! ## The plugin of a card -/

/-- What is allocated, opened or loaded for the plugin of a mixer. -/
inductive MixerResource
  | plugData | sndNode | parserLib | cardNode | pluginLib | plugin | eventfd
  deriving DecidableEq, Repr

/-- `struct snd_node`. -/
structure MixerNode where
  self : Nat
  dlHdl : Nat
  cardNode : Nat
  deriving DecidableEq, Repr

/-- `struct mixer_plug_data`, with the `eventfd` of its plugin where there is one. -/
structure MixerPlugData where
  self : Nat
  card : UInt32
  mixerNode : MixerNode
  dlHdl : Nat
  plugin : Nat
  eventfd : Option Nat
  deriving DecidableEq, Repr

/-- The answers to one attempt: `true` where a pointer or a descriptor came back. -/
structure MixerPlugAnswers where
  callocPlugData : Bool := true
  callocNode : Bool := true
  dlopenParser : Bool := true
  dlsymParser : Bool := true
  openCard : UInt32 → Bool := fun _ => true
  getMixer : Bool := true
  /-- What the lookup of `"so-name"` returns, and what it stores, if it does. -/
  soName : Int × Option CString
  dlopenPlugin : Option CString → Bool := fun _ => true
  dlsymPlugin : Bool := true
  openPlugin : UInt32 → Int := fun _ => 0
  eventfd : Bool := true

abbrev LedgerM := StateM (Ledger MixerResource)

/-! ## Opening and closing -/

section

variable (a : MixerPlugAnswers) (card : UInt32)

/-- `snd_utils_open_mixer`. -/
def sndUtilsOpenMixer : LedgerM (Option MixerNode) := do
  if !a.callocNode then return none
  else
    let self ← Ledger.acquire .sndNode
    if !a.dlopenParser then
      Ledger.release .sndNode self
      return none
    else
      let dlHdl ← Ledger.acquire .parserLib
      if !a.dlsymParser || !a.openCard card then
        Ledger.release .parserLib dlHdl
        Ledger.release .sndNode self
        return none
      else
        let cardNode ← Ledger.acquire .cardNode
        if !a.getMixer then
          Ledger.release .cardNode cardNode
          Ledger.release .parserLib dlHdl
          Ledger.release .sndNode self
          return none
        else return some { self, dlHdl, cardNode }

/-- `snd_utils_close_dev_node`. -/
def MixerNode.sndUtilsCloseDevNode (n : MixerNode) : LedgerM Unit := do
  Ledger.release .cardNode n.cardNode
  Ledger.release .parserLib n.dlHdl
  Ledger.release .sndNode n.self

/-- The label `err_get_mixer_node` of `mixer_plugin_open`. -/
def errGetMixerNode (self : Nat) : LedgerM (Int × Option MixerPlugData) := do
  Ledger.release .plugData self
  return (-1, none)

/-- The labels `err_dlopen` and `err_get_lib_name`. -/
def errGetLibName (self : Nat) (node : MixerNode) : LedgerM (Int × Option MixerPlugData) := do
  node.sndUtilsCloseDevNode
  errGetMixerNode self

/-- The label `err_ops`. -/
def errOps (self : Nat) (node : MixerNode) (dlHdl : Nat) : LedgerM (Int × Option MixerPlugData) := do
  Ledger.release .pluginLib dlHdl
  errGetLibName self node

/-- `eventfd(0, EFD_SEMAPHORE)`. -/
def newEventfd : LedgerM (Option Nat) := do
  if a.eventfd then
    let n ← Ledger.acquire .eventfd
    return some n
  else return none

/-- `mixer_plugin_open`: what it returns, and what it stores in `*data`. -/
def mixerPluginOpen : LedgerM (Int × Option MixerPlugData) := do
  if !a.callocPlugData then return (-eNoMem, none)
  else
    let self ← Ledger.acquire .plugData
    match ← sndUtilsOpenMixer a card with
    | none => errGetMixerNode self
    | some mixerNode =>
      if a.soName.1 ≠ 0 then errGetLibName self mixerNode
      else if !a.dlopenPlugin a.soName.2 then errGetLibName self mixerNode
      else
        let dlHdl ← Ledger.acquire .pluginLib
        if !a.dlsymPlugin then errOps self mixerNode dlHdl
        else if a.openPlugin card ≠ 0 then errOps self mixerNode dlHdl
        else
          let plugin ← Ledger.acquire .plugin
          let eventfd ← newEventfd a
          return (0, some { self, card, mixerNode, dlHdl, plugin, eventfd })

/-- `mixer_plug_close`, but for its reads of the `eventfd`. -/
def mixerPlugClose (d : MixerPlugData) : LedgerM Unit := do
  Ledger.release .plugin d.plugin
  Ledger.release .pluginLib d.dlHdl
  Ledger.release .plugData d.self

end

/-! ## What an attempt takes and gives back -/

/-- What an opened node holds. -/
def MixerNode.items (n : MixerNode) : Multiset (Item MixerResource) :=
  {⟨.cardNode, n.cardNode⟩, ⟨.parserLib, n.dlHdl⟩, ⟨.sndNode, n.self⟩}

/-- What an opened plugin holds until it is closed. -/
def MixerPlugData.inUse (d : MixerPlugData) : Multiset (Item MixerResource) :=
  {⟨.plugin, d.plugin⟩, ⟨.pluginLib, d.dlHdl⟩, ⟨.plugData, d.self⟩}

/-- The descriptor of an opened plugin. -/
def eventfdItems : Option Nat → Multiset (Item MixerResource)
  | none => 0
  | some n => {⟨.eventfd, n⟩}

/-- What an opened plugin holds and no function gives back. -/
def MixerPlugData.left (d : MixerPlugData) : Multiset (Item MixerResource) := d.mixerNode.items + eventfdItems d.eventfd

section

variable {a : MixerPlugAnswers} {card : UInt32} {P : Multiset (Item MixerResource)} {self dlHdl : Nat}
  {node : MixerNode}

theorem MixerNode.items_add : node.items + P =
    ⟨.cardNode, node.cardNode⟩ ::ₘ ⟨.parserLib, node.dlHdl⟩ ::ₘ ⟨.sndNode, node.self⟩ ::ₘ P := by
  simp only [items, Multiset.insert_eq_cons, Multiset.cons_add, Multiset.singleton_add]

theorem MixerPlugData.inUse_add (d : MixerPlugData) : d.inUse + P =
    ⟨.plugin, d.plugin⟩ ::ₘ ⟨.pluginLib, d.dlHdl⟩ ::ₘ ⟨.plugData, d.self⟩ ::ₘ P := by
  simp only [inUse, Multiset.insert_eq_cons, Multiset.cons_add, Multiset.singleton_add]

theorem sndUtilsOpenMixer_spec : Triple (Holds P) (sndUtilsOpenMixer a card) fun node l =>
    match node with
    | none => Holds P l
    | some n => Holds (n.items + P) l := by
  have hrel : ∀ {Q R : Multiset (Item MixerResource)} (k : MixerResource) (n : Nat), Q = ⟨k, n⟩ ::ₘ R →
      Triple (Holds Q) (Ledger.release k n) fun _ => Holds R := fun _ _ h => release_spec h
  refine Triple.ite (fun _ => Triple.pure _ fun _ h => h) fun _ => Triple.bind (acquire_spec _) fun self => ?_
  refine Triple.ite (fun _ => ?_) fun _ => Triple.bind (acquire_spec _) fun dlHdl => ?_
  · exact Triple.bind (hrel _ _ rfl) fun _ => Triple.pure _ fun _ h => h
  refine Triple.ite (fun _ => ?_) fun _ => Triple.bind (acquire_spec _) fun cardNode => ?_
  · exact Triple.bind (hrel _ _ rfl) fun _ => Triple.bind (hrel _ _ rfl) fun _ => Triple.pure _ fun _ h => h
  refine Triple.ite (fun _ => ?_) fun _ => Triple.pure _ fun l h => ?_
  rotate_left
  · dsimp only
    rwa [MixerNode.items_add]
  exact Triple.bind (hrel _ _ rfl) fun _ => Triple.bind (hrel _ _ rfl) fun _ => Triple.bind (hrel _ _ rfl) fun _ =>
    Triple.pure _ fun _ h => h

theorem closeDevNode_spec : Triple (Holds (node.items + P)) node.sndUtilsCloseDevNode fun _ => Holds P :=
  Triple.bind (release_spec MixerNode.items_add) fun _ => Triple.bind (release_spec rfl) fun _ => release_spec rfl

/-- An attempt that fails at a label leaves what was held before it. -/
def Abandons (P : Multiset (Item MixerResource)) (r : Int × Option MixerPlugData) (l : Ledger MixerResource) : Prop :=
  r.1 < 0 ∧ r.2 = none ∧ Holds P l

theorem errGetMixerNode_spec : Triple (Holds (⟨.plugData, self⟩ ::ₘ P)) (errGetMixerNode self) (Abandons P) :=
  Triple.bind (release_spec rfl) fun _ => Triple.pure _ fun _ h => ⟨by decide, rfl, h⟩

theorem errGetLibName_spec : Triple (Holds (node.items + ⟨.plugData, self⟩ ::ₘ P)) (errGetLibName self node)
    (Abandons P) :=
  Triple.bind closeDevNode_spec fun _ => errGetMixerNode_spec

theorem errOps_spec : Triple (Holds (⟨.pluginLib, dlHdl⟩ ::ₘ (node.items + ⟨.plugData, self⟩ ::ₘ P)))
    (errOps self node dlHdl) (Abandons P) :=
  Triple.bind (release_spec rfl) fun _ => errGetLibName_spec

theorem newEventfd_spec : Triple (Holds P) (newEventfd a) fun n => Holds (eventfdItems n + P) :=
  Triple.ite (fun _ => Triple.bind (acquire_spec _) fun _ => Triple.pure _ fun _ h => h) fun _ =>
    Triple.pure _ fun _ h => (zero_add P).symm ▸ h

/-- An attempt leaves nothing behind where it fails, and otherwise holds what the plugin's data says. -/
theorem mixerPluginOpen_spec : Triple (Holds P) (mixerPluginOpen a card) fun r l =>
    Abandons P r l ∨ ∃ d, r = (0, some d) ∧ Holds (d.inUse + d.left + P) l := by
  refine Triple.ite (fun _ => Triple.pure _ fun _ h => .inl ⟨by decide, rfl, h⟩) fun _ => ?_
  refine Triple.bind (acquire_spec _) fun self => Triple.bind sndUtilsOpenMixer_spec fun node => ?_
  cases node with
  | none => exact errGetMixerNode_spec.post fun _ _ h => .inl h
  | some node =>
    refine Triple.ite (fun _ => errGetLibName_spec.post fun _ _ h => .inl h) fun _ => ?_
    refine Triple.ite (fun _ => errGetLibName_spec.post fun _ _ h => .inl h) fun _ => ?_
    refine Triple.bind (acquire_spec _) fun dlHdl => ?_
    refine Triple.ite (fun _ => errOps_spec.post fun _ _ h => .inl h) fun _ => ?_
    refine Triple.ite (fun _ => errOps_spec.post fun _ _ h => .inl h) fun _ => ?_
    refine Triple.bind (acquire_spec _) fun plugin => Triple.bind newEventfd_spec fun eventfd => ?_
    refine Triple.pure _ fun l h => .inr ⟨_, rfl, ?_⟩
    convert h using 1
    unfold MixerPlugData.inUse MixerPlugData.left
    simp only [Multiset.insert_eq_cons, ← Multiset.singleton_add]
    abel

/-- Closing gives back what was in use, and nothing else. -/
theorem mixerPlugClose_spec (d : MixerPlugData) : Triple (Holds (d.inUse + P)) (mixerPlugClose d) fun _ => Holds P :=
  Triple.bind (release_spec d.inUse_add) fun _ => Triple.bind (release_spec rfl) fun _ => release_spec rfl

end

/-! ## The plugin as the device of a mixer -/

/-- The device of a mixer's plugin group. `table` is what the plugin's controls run on, `data` what `mixer_plugin_open`
stored last, and `answers` are those of the attempts to come. The rest is ghost: the plugins that were opened and those
not closed since. -/
structure PlugDevice (π : Type) where
  table : π
  answers : Nat → MixerPlugAnswers
  ledger : Ledger MixerResource := {}
  data : Option MixerPlugData := none
  opened : Multiset MixerPlugData := 0
  inUse : Multiset MixerPlugData := 0

section

variable {π : Type}

/-- `mixer_plugin_open`. -/
def PlugDevice.open (ops : MixerOps π) (card : UInt32) (d : PlugDevice π) : Int × PlugDevice π :=
  let (r, ledger) := exec (mixerPluginOpen (d.answers 0) card) d.ledger
  let d := { d with ledger, answers := fun i => d.answers (i + 1) }
  match r.2 with
  | none => (r.1, d)
  | some data =>
    (r.1, { d with
      table := (ops.openDev d.table).2
      data := some data
      opened := data ::ₘ d.opened
      inUse := data ::ₘ d.inUse })

/-- `mixer_plug_close`, on the data stored last; a second time it gives the same things back once more. -/
def PlugDevice.close (ops : MixerOps π) (d : PlugDevice π) : PlugDevice π :=
  match d.data with
  | none => d
  | some data =>
    { d with
      ledger := (exec (mixerPlugClose data) d.ledger).2
      table := ops.closeDev d.table
      inUse := d.inUse.erase data }

/-- The operations of a plugin that is opened and closed like this. -/
def plugDeviceOps (ops : MixerOps π) (card : UInt32) : MixerOps (PlugDevice π) where
  openDev := PlugDevice.open ops card
  closeDev := PlugDevice.close ops
  cardInfo := fun d => ((ops.cardInfo d.table).1, { d with table := (ops.cardInfo d.table).2 })
  elemList := fun elist d =>
    let (ret, elist, table) := ops.elemList elist d.table
    (ret, elist, { d with table })
  elemInfo := fun einfo d =>
    let (ret, einfo, table) := ops.elemInfo einfo d.table
    (ret, einfo, { d with table })

/-- The ledger holds what is in use, and what was left of every plugin that was opened. -/
def PlugDevice.Accounted (d : PlugDevice π) : Prop :=
  Holds ((d.inUse.map MixerPlugData.inUse).sum + (d.opened.map MixerPlugData.left).sum) d.ledger

variable {ops : MixerOps π} {card : UInt32} {d : PlugDevice π}

/-- Opening either fails and changes nothing that is held, or adds one plugin. -/
theorem PlugDevice.Accounted.open (h : d.Accounted) : (PlugDevice.open ops card d).2.Accounted ∧
    ((PlugDevice.open ops card d).1 < 0 ∧ (PlugDevice.open ops card d).2.inUse = d.inUse ∨
      (PlugDevice.open ops card d).1 = 0 ∧ ∃ data, (PlugDevice.open ops card d).2.data = some data ∧
        (PlugDevice.open ops card d).2.inUse = data ::ₘ d.inUse) := by
  have hspec := @mixerPluginOpen_spec (d.answers 0) card _ d.ledger h
  unfold PlugDevice.open
  generalize exec (mixerPluginOpen (d.answers 0) card) d.ledger = out at hspec ⊢
  obtain ⟨⟨ret, stored⟩, ledger⟩ := out
  rcases hspec with ⟨hneg, hnone, hholds⟩ | ⟨data, hr, hholds⟩
  · obtain rfl : stored = none := hnone
    exact ⟨hholds, .inl ⟨hneg, rfl⟩⟩
  · obtain ⟨rfl, rfl⟩ : ret = 0 ∧ stored = some data := Prod.mk.inj hr
    refine ⟨?_, .inr ⟨rfl, data, rfl, rfl⟩⟩
    unfold Accounted
    convert hholds using 1
    simp only [Multiset.map_cons, Multiset.sum_cons]
    abel

/-- Closing a plugin in use gives back what it uses. -/
theorem PlugDevice.Accounted.close (h : d.Accounted) {data : MixerPlugData} (hdata : d.data = some data)
    (hmem : data ∈ d.inUse) : (d.close ops).Accounted ∧ (d.close ops).inUse = d.inUse.erase data := by
  have hsum : (d.inUse.map MixerPlugData.inUse).sum =
      data.inUse + ((d.inUse.erase data).map MixerPlugData.inUse).sum := by
    rw [← Multiset.sum_cons, ← Multiset.map_cons, Multiset.cons_erase hmem]
  unfold Accounted at h
  rw [hsum, add_assoc] at h
  unfold PlugDevice.close
  rw [hdata]
  exact ⟨mixerPlugClose_spec data d.ledger h, rfl⟩

/-- Closing it once more gives back what is no longer held. -/
theorem PlugDevice.Accounted.close_close (h : d.Accounted) {data : MixerPlugData} (hdata : d.data = some data) :
    ((d.close ops).close ops).ledger.sound = false := by
  have hgone : (⟨.plugin, data.plugin⟩ : Item MixerResource) ∉ (d.close ops).ledger.held := by
    have hnodup : d.ledger.held.Nodup := List.Nodup.of_map _ h.nodup
    unfold PlugDevice.close
    rw [hdata]
    exact fun hin => hnodup.not_mem_erase (List.mem_of_mem_erase (List.mem_of_mem_erase hin))
  have hdata' : (d.close ops).data = some data := by
    unfold PlugDevice.close
    rw [hdata]
  rw [PlugDevice.close, hdata']
  show (((d.close ops).ledger.sound && decide _) && _ && _) = false
  rw [decide_eq_false hgone, Bool.and_false, Bool.false_and, Bool.false_and]

end

end Tinyalsa
