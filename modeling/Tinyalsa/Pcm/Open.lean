/-
Opening a stream: the backends that `pcm_open` and `pcm_params_get` try in turn, and what each gives back
when a later step fails. The system, the card parser and the plugin library answer as they like.
-/
import Tinyalsa.Pcm.Frame
import Tinyalsa.Plugin.Node

namespace Tinyalsa

open Hoare

/-! ## The stream of a new handle -/

/-- `PCM_MONOTONIC`. -/
def pcmMonotonic : UInt32 := 0x00000008

/-- `pcm->flags & PCM_MONOTONIC`. -/
def Pcm.isMonotonic (pcm : Pcm) : Bool := pcm.flags &&& pcmMonotonic != 0

/-- `SNDRV_PCM_TSTAMP_TYPE_MONOTONIC`. -/
def tstampTypeMonotonic : Int := 1

section

variable {σ : Type} (ops : PcmOps σ)

/-- `pcm->ops->ioctl(pcm->data, SNDRV_PCM_IOCTL_INFO, &info)`. -/
def ioctlInfo : PcmM σ (Int × UInt32) := do
  let w ← get
  let (r, subdevice, dev) := ops.info w.dev
  set (w.answered r.errno dev)
  record (.info r.ret)
  return (r.ret, subdevice)

/-- `pcm->ops->ioctl(pcm->data, SNDRV_PCM_IOCTL_TTSTAMP, &arg)`. -/
def ioctlTtstamp (arg : Int) : PcmM σ Int := do
  let w ← get
  let (r, _, dev) := ops.ttstamp arg w.dev
  set (w.answered r.errno dev)
  record (.ttstamp r.ret)
  return r.ret

/-- One of the two pages of `pcm_hw_munmap_status`. -/
def munmapPage (addr : MapAddr) : PcmM σ Unit := do
  if addr ≠ .addr 0 then
    let _ ← opsMunmap ops addr pageSize
    return ()
  else return ()

/-- `pcm_hw_munmap_status`. -/
def pcmHwMunmapStatus : PcmM σ Unit := do
  let pcm := (← get).pcm
  if pcm.syncPtr.isSome then modifyPcm fun p => { p with syncPtr := none }
  else
    munmapPage ops pcm.mmapStatus
    munmapPage ops pcm.mmapControl
    modifyPcm fun p => { p with mmapStatus := .addr 0, mmapControl := .addr 0 }

/-- `pcm->ops->munmap(pcm->data, pcm->mmap_buffer, pcm_frames_to_bytes(pcm, pcm->buffer_size))`. -/
def munmapBuffer : PcmM σ Int := do
  let pcm := (← get).pcm
  opsMunmap ops pcm.mmapBuffer (mmapLength pcm).toNat

/-- The label `fail` of `pcm_open`, and the error left in `bad_pcm`. -/
def pcmOpenFail (text : String) : PcmM σ (Option PcmError) := do
  let errno := (← get).errno
  pcmHwMunmapStatus ops
  if (← get).pcm.isMmap then
    let _ ← munmapBuffer ops
    return some ⟨text, errno⟩
  else return some ⟨text, errno⟩

/-- The end of `pcm_open`. -/
def pcmOpenTtstamp : PcmM σ (Option PcmError) := do
  if (← get).pcm.isMonotonic then
    if (← ioctlTtstamp ops tstampTypeMonotonic) < 0 then pcmOpenFail ops "cannot set timestamp type"
    else
      modifyPcm fun p => { p with xruns := 0 }
      return none
  else
    modifyPcm fun p => { p with xruns := 0 }
    return none

/-- `pcm_open` from `INFO` on: `none` when the handle is ready, otherwise the error left in `bad_pcm`. -/
def pcmSetUp (memory : Bool) (config : Option PcmConfig) : PcmM σ (Option PcmError) := do
  let (ret, subdevice) ← ioctlInfo ops
  if ret ≠ 0 then return some ⟨"cannot get info", (← get).errno⟩
  else
    modifyPcm fun p => { p with subdevice }
    if (← pcmSetConfig ops config) ≠ 0 then return some (← get).pcm.error
    else if (← pcmHwMmapStatus ops memory) < 0 then pcmOpenFail ops "mmap status failed"
    else pcmOpenTtstamp ops

/-- `pcm_close` up to the backend's own `close`. -/
def pcmTearDown : PcmM σ Unit := do
  pcmHwMunmapStatus ops
  if (← get).pcm.isMmap then
    let _ ← pcmStop ops
    let _ ← munmapBuffer ops
    return ()
  else return ()

end

/-! ## Backends -/

/-- `struct pcm_hw_data` or `struct pcm_plug_data`, as the backend's `open` stores it. -/
structure BackendData where
  backend : Backend
  node : Option SndNode

/-- `ops` and `snd_node` of a handle. -/
structure PcmBackend where
  ops : Backend
  sndNode : Option SndNode

/-- What is allocated, opened or loaded on the way. -/
inductive Resource
  | pcm | hwData | hwFd | sndNode | parserLib | cardNode | plugData | pluginLib | plugin | params
  deriving DecidableEq, Repr

/-- What happens while a stream is opened. -/
inductive OpenEvent
  | acquired (r : Resource)
  | released (r : Resource)
  /-- `ops->open` returned. -/
  | opened (b : Backend) (node : Option SndNode) (rc : Int)
  /-- Another function of `ops` was called, with this `data`. -/
  | used (b : Backend) (data : Option BackendData)
  /-- A pointer was read that nothing was stored in. -/
  | unset

/-- The answers to one attempt: `true` where a pointer came back. -/
structure OpenAnswers where
  callocPcm : Bool := true
  callocHwData : Bool := true
  openHw : String → Int
  /-- `fcntl(fd, F_SETFL, ...)` succeeded. -/
  setBlocking : Bool := true
  callocNode : Bool := true
  dlopenParser : Bool := true
  dlsymParser : Bool := true
  openCard : UInt32 → Bool
  getPcm : UInt32 → Bool
  /-- What a lookup returns, and what it writes, if it does. -/
  getInt : String → Int × Option Int
  getStr : String → Int × Option (List UInt8)
  callocPlugData : Bool := true
  dlopenPlugin : Option (List UInt8) → Bool
  dlsymPlugin : Bool := true
  openPlugin : Int := 0
  callocSyncPtr : Bool := true
  callocParams : Bool := true
  hwRefine : SndPcmHwParams → Reply × SndPcmHwParams

/-- What opening runs on. `data` is what the caller's `&data` holds; `log` is what has happened, newest
first (ghost). -/
structure OpenWorld (σ : Type) where
  stream : World σ
  data : Option BackendData := none
  badPcm : PcmError := {}
  log : List OpenEvent := []

abbrev OpenM (σ : Type) := StateM (OpenWorld σ)

section

variable {σ : Type}

def note (e : OpenEvent) : OpenM σ Unit := modify fun w => { w with log := e :: w.log }

def acquire (r : Resource) : OpenM σ Unit := note (.acquired r)

def release (r : Resource) : OpenM σ Unit := note (.released r)

/-- `if (p) release(p)`. -/
def releaseIf (set : Bool) (r : Resource) : OpenM σ Unit := if set then release r else return ()

/-- `*data = ...`. -/
def storeData (b : Backend) (node : Option SndNode) : OpenM σ Unit := modify fun w => { w with data := some ⟨b, node⟩ }

/-- `oops(&bad_pcm, ...)`. -/
def badOops (e : PcmError) : OpenM σ Unit := modify fun w => { w with badPcm := e }

/-- A part of a function that only uses the opened stream. -/
def onStream {α : Type} (m : PcmM σ α) : OpenM σ α := do
  let w ← get
  let (a, stream) := exec m w.stream
  set { w with stream }
  return a

variable (a : OpenAnswers) (card device flags : UInt32)

/-- The file of a device. -/
def hwPath : String :=
  let direction := if flags &&& pcmIn != 0 then "c" else "p"
  s!"/dev/snd/pcmC{card.toNat}D{device.toNat}{direction}"

/-- `pcm_hw_open`. -/
def pcmHwOpen (node : Option SndNode) : OpenM σ Int := do
  if !a.callocHwData then return -eNoMem
  else
    acquire .hwData
    let fd := a.openHw (hwPath card device flags)
    if fd < 0 then
      release .hwData
      return fd
    else
      acquire .hwFd
      if flags &&& pcmNonblock = 0 ∧ !a.setBlocking then
        release .hwFd
        release .hwData
        return -eNoDev
      else
        storeData .hw node
        return fd

/-- `snd_utils_open_pcm`. -/
def sndUtilsOpenPcm : OpenM σ (Option SndNode) := do
  if !a.callocNode then return none
  else
    acquire .sndNode
    if !a.dlopenParser then
      release .sndNode
      return none
    else
      acquire .parserLib
      if !a.dlsymParser || !a.openCard card then
        release .parserLib
        release .sndNode
        return none
      else
        acquire .cardNode
        if !a.getPcm device then
          release .cardNode
          release .parserLib
          release .sndNode
          return none
        else return some { getInt := a.getInt, getStr := a.getStr }

/-- `snd_utils_close_dev_node`. -/
def sndUtilsCloseDevNode : Option SndNode → OpenM σ Unit
  | none => return ()
  | some n => do
    releaseIf n.cardNode .cardNode
    releaseIf n.dlHdl .parserLib
    release .sndNode

/-- `so_name` as `dlopen` reads it. -/
def readName (name : Option (List UInt8)) : OpenM σ (Option (List UInt8)) := do
  if name.isNone then
    note .unset
    return name
  else return name

/-- `pcm_plug_open`. -/
def pcmPlugOpen (node : Option SndNode) : OpenM σ Int := do
  if !a.callocPlugData then return -eNoMem
  else
    acquire .plugData
    let (rc, soName) := sndUtilsGetStr node "so-name"
    if rc ≠ 0 then
      release .plugData
      return rc
    else if !a.dlopenPlugin (← readName soName) then
      release .plugData
      return rc
    else
      acquire .pluginLib
      if !a.dlsymPlugin then
        release .pluginLib
        release .plugData
        return rc
      else if a.openPlugin ≠ 0 then
        release .pluginLib
        release .plugData
        return a.openPlugin
      else
        acquire .plugin
        storeData .plug node
        return 0

/-- `ops->open(card, device, flags, &data, node)`. -/
def opsOpen (b : Backend) (node : Option SndNode) : OpenM σ Int := do
  let rc ← match b with
    | .hw => pcmHwOpen a card device flags node
    | .plug => pcmPlugOpen a node
  note (.opened b node rc)
  return rc

/-- Passes `data` to a function of `ops`. -/
def useData (b : Backend) : OpenM σ Unit := do note (.used b (← get).data)

/-- `ops->close(data)`. -/
def opsClose (b : Backend) : OpenM σ Unit := do
  useData b
  match (← get).data with
  | some ⟨.hw, _⟩ =>
    release .hwFd
    release .hwData
  | some ⟨.plug, _⟩ =>
    release .plugin
    release .pluginLib
    release .plugData
  | none => return ()

/-! ## The entry points -/

/-- The label `fail_close_dev_node` of `pcm_open`. -/
def failCloseDevNode (node : Option SndNode) : OpenM σ (Option PcmBackend) := do
  sndUtilsCloseDevNode node
  release .pcm
  return none

/-- `pcm_open` once a backend has answered `fd`. -/
def pcmOpenOn (ops : Backend → PcmOps σ) (config : Option PcmConfig) (b : Backend) (node : Option SndNode) (fd : Int) :
    OpenM σ (Option PcmBackend) := do
  if fd < 0 then
    badOops ⟨s!"cannot open device ({device.toNat}) for card ({card.toNat})", (← get).stream.errno⟩
    failCloseDevNode node
  else
    useData b
    match ← onStream (do
        modifyPcm fun p => { p with fd, flags }
        pcmSetUp (ops b) a.callocSyncPtr config) with
    | none => return some ⟨b, node⟩
    | some error =>
      badOops error
      opsClose b
      failCloseDevNode node

/-- `struct pcm` after `calloc`. -/
def callocedPcm : Pcm where
  fd := 0
  flags := 0
  bufferSize := 0
  boundary := 0
  config := ⟨0, 0, 0, 0, .s16Le, 0, 0, 0, 0, 0⟩

/-- `pcm_open`: the handle it returns, or `none` for `&bad_pcm`. -/
def pcmOpen (ops : Backend → PcmOps σ) (config : Option PcmConfig) : OpenM σ (Option PcmBackend) := do
  if !a.callocPcm then
    badOops ⟨"can't allocate PCM object", eNoMem⟩
    return none
  else
    acquire .pcm
    onStream (modifyPcm fun _ => callocedPcm)
    -- Default to hw_ops, attemp plugin open only if hw (/dev/snd/pcm*) open fails
    let fd ← opsOpen a card device flags .hw none
    if fd < 0 then
      let node ← sndUtilsOpenPcm a card device
      if node.isNone ∨ sndUtilsGetNodeType node ≠ sndNodeTypePlugin then
        badOops ⟨s!"no device (hw/plugin) for card({card.toNat}), device({device.toNat})", eNoDev⟩
        failCloseDevNode node
      else
        let fd ← opsOpen a card device flags .plug node
        pcmOpenOn a card device flags ops config .plug node fd
    else pcmOpenOn a card device flags ops config .hw none fd

/-- `pcm_close`. -/
def pcmClose (ops : Backend → PcmOps σ) : Option PcmBackend → OpenM σ Int
  | none => return 0
  | some h => do
    onStream (pcmTearDown (ops h.ops))
    sndUtilsCloseDevNode h.sndNode
    opsClose h.ops
    onStream (modifyPcm fun p => { p with bufferSize := 0, fd := -1 })
    release .pcm
    return 0

/-- `pcm_params_get` once a backend has answered `fd`. -/
def pcmParamsGetOn (b : Backend) (node : Option SndNode) (fd : Int) : OpenM σ (Option SndPcmHwParams) := do
  if fd < 0 then return none
  else if !a.callocParams then
    sndUtilsCloseDevNode node
    opsClose b
    return none
  else
    acquire .params
    useData b
    let (r, params) := a.hwRefine paramInit
    if r.ret ≠ 0 then
      release .params
      sndUtilsCloseDevNode node
      opsClose b
      return none
    else
      sndUtilsCloseDevNode node
      opsClose b
      return some params

/-- `pcm_params_get`. -/
def pcmParamsGet : OpenM σ (Option SndPcmHwParams) := do
  let fd ← opsOpen a card device flags .hw none
  if fd < 0 then
    let node ← sndUtilsOpenPcm a card device
    if node.isNone ∨ sndUtilsGetNodeType node ≠ sndNodeTypePlugin then return none
    else
      let fd ← opsOpen a card device flags .plug node
      pcmParamsGetOn a .plug node fd
  else pcmParamsGetOn a .hw none fd

end

/-! ## What every step keeps -/

section

variable {σ : Type} {I : OpenWorld σ → Prop}

abbrev KeepsOpen {α : Type} (I : OpenWorld σ → Prop) (m : OpenM σ α) : Prop := Triple I m fun _ => I

theorem KeepsOpen.pure {α : Type} (x : α) : KeepsOpen I (Pure.pure x : OpenM σ α) := Triple.pure x fun _ hw => hw

theorem KeepsOpen.get : KeepsOpen I (MonadState.get : OpenM σ (OpenWorld σ)) := fun _ hw => hw

/-- A property that no event ends, whatever is stored. -/
structure OpenInvariant (I : OpenWorld σ → Prop) : Prop where
  event : ∀ w e, I w → I { w with log := e :: w.log }
  data : ∀ w data, I w → I { w with data }
  badPcm : ∀ w badPcm, I w → I { w with badPcm }

open KeepsOpen

namespace OpenInvariant

variable (h : OpenInvariant I) {a : OpenAnswers} {card device flags : UInt32} (node : Option SndNode)

include h

theorem note (e : OpenEvent) : KeepsOpen I (note e) := fun w hw => h.event w e hw

theorem storeData (b : Backend) : KeepsOpen I (storeData b node) := fun w hw => h.data w _ hw

theorem badOops (e : PcmError) : KeepsOpen I (badOops e) := fun w hw => h.badPcm w e hw

theorem pcmHwOpen : KeepsOpen I (pcmHwOpen a card device flags node) := by
  refine Triple.ite (fun _ => pure _) fun _ => Triple.bind (h.note _) fun _ => Triple.ite (fun _ => ?_) fun _ =>
    Triple.bind (h.note _) fun _ => Triple.ite (fun _ => ?_) fun _ => ?_
  · exact Triple.bind (h.note _) fun _ => pure _
  · exact Triple.bind (h.note _) fun _ => Triple.bind (h.note _) fun _ => pure _
  · exact Triple.bind (h.storeData node _) fun _ => pure _

theorem readName (name : Option (List UInt8)) : KeepsOpen I (readName name) :=
  Triple.ite (fun _ => Triple.bind (h.note _) fun _ => pure _) fun _ => pure _

theorem pcmPlugOpen : KeepsOpen I (pcmPlugOpen a node) := by
  have hfail : ∀ r : Int, KeepsOpen I (do
      release .pluginLib
      release .plugData
      return r) := fun _ => Triple.bind (h.note _) fun _ => Triple.bind (h.note _) fun _ => pure _
  refine Triple.ite (fun _ => pure _) fun _ => Triple.bind (h.note _) fun _ => ?_
  refine Triple.ite (fun _ => Triple.bind (h.note _) fun _ => pure _) fun _ => ?_
  refine Triple.bind (h.readName _) fun _ => Triple.ite (fun _ => ?_) fun _ => Triple.bind (h.note _) fun _ => ?_
  · exact Triple.bind (h.note _) fun _ => pure _
  refine Triple.ite (fun _ => hfail _) fun _ => Triple.ite (fun _ => hfail _) fun _ => ?_
  exact Triple.bind (h.note _) fun _ => Triple.bind (h.storeData node _) fun _ => pure _

theorem opsOpen (b : Backend) : KeepsOpen I (opsOpen a card device flags b node) := by
  cases b with
  | hw => exact Triple.bind (h.pcmHwOpen node) fun _ => Triple.bind (h.note _) fun _ => pure _
  | plug => exact Triple.bind (h.pcmPlugOpen node) fun _ => Triple.bind (h.note _) fun _ => pure _

theorem sndUtilsOpenPcm : KeepsOpen I (sndUtilsOpenPcm a card device) := by
  refine Triple.ite (fun _ => pure _) fun _ => Triple.bind (h.note _) fun _ => Triple.ite (fun _ => ?_) fun _ =>
    Triple.bind (h.note _) fun _ => Triple.ite (fun _ => ?_) fun _ =>
      Triple.bind (h.note _) fun _ => Triple.ite (fun _ => ?_) fun _ => pure _
  · exact Triple.bind (h.note _) fun _ => pure _
  · exact Triple.bind (h.note _) fun _ => Triple.bind (h.note _) fun _ => pure _
  · exact Triple.bind (h.note _) fun _ => Triple.bind (h.note _) fun _ => Triple.bind (h.note _) fun _ => pure _

theorem releaseIf (set : Bool) (r : Resource) : KeepsOpen I (releaseIf set r) :=
  Triple.ite (fun _ => h.note _) fun _ => pure _

theorem closeDevNode : KeepsOpen I (sndUtilsCloseDevNode node) := by
  cases node with
  | none => exact pure _
  | some n => exact Triple.bind (h.releaseIf _ _) fun _ => Triple.bind (h.releaseIf _ _) fun _ => h.note _

theorem useData (b : Backend) : KeepsOpen I (useData b) := fun w hw => h.event w _ hw

theorem opsClose (b : Backend) : KeepsOpen I (opsClose b) := by
  refine Triple.bind (h.useData b) fun _ => Triple.bind get fun w => ?_
  rcases w.data with _ | ⟨_ | _, _⟩
  · exact pure _
  · exact Triple.bind (h.note _) fun _ => h.note _
  · exact Triple.bind (h.note _) fun _ => Triple.bind (h.note _) fun _ => h.note _

theorem failCloseDevNode : KeepsOpen I (failCloseDevNode node) :=
  Triple.bind (h.closeDevNode node) fun _ => Triple.bind (h.note _) fun _ => pure _

end OpenInvariant

end

end Tinyalsa
