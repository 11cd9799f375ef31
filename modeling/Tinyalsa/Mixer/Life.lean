/-
The life of a mixer: opening its hardware and its plugin group, scanning for new controls, closing.
The groups live on a heap that remembers what was freed, so that a use after free is a fault, and
the log counts what was opened, closed, allocated and freed. The backends are arbitrary.
-/
import Tinyalsa.Mixer.Group

namespace Tinyalsa

open Hoare

/-! ## The mixer -/

/-- `struct mixer`. -/
structure Mixer where
  fd : Int := 0
  hGrp : Addr := 0
  vGrp : Addr := 0
  totalCount : UInt32 := 0
  isCardInfoRetrieved : Bool := false
  deriving DecidableEq, Repr

/-- What the library did to its backends and its groups. Ghost. -/
inductive MixEvent
  | opened (k : GrpKind)
  | closed (k : GrpKind)
  | grpAlloc (a : Addr)
  | grpFree (a : Addr)
  /-- The outcome of the allocation in `mixer_hw_open`. -/
  | hwData (ok : Bool)
  | cardInfo (k : GrpKind) (ret : Int)
  | scan (k : GrpKind) (c : ScanCall)
  deriving DecidableEq, Repr

/-- A step between the opening of a device and the end of its group's set-up failed. -/
def MixEvent.setupFails : MixEvent → Bool
  | .hwData ok => !ok
  | .cardInfo _ ret => ret < 0
  | .scan _ c => c.fails
  | _ => false

/-- The backends of a card: `η` is its kernel device, `π` its plugin. -/
structure MixBackends (η π : Type) where
  hw : MixerOps η
  plug : MixerOps π

/-- What the functions of a mixer run on. `heap` holds the live groups, `next` is the next fresh
address, `self` the address of the mixer; `fault` records an access to a freed group or a second
close of a backend. -/
structure MixWorld (η π : Type) where
  hw : η
  plug : π
  alloc : Nat → Bool
  mixer : Mixer := {}
  self : Addr := 0
  heap : Addr → Option MixerCtlGroup := fun _ => none
  next : Addr := 1
  isOpen : GrpKind → Bool := fun _ => false
  fault : Bool := false
  log : List MixEvent := []

abbrev MixM (η π : Type) := StateM (MixWorld η π)

section

variable {η π : Type}

/-- Adds an event to the log. -/
def logMix (e : MixEvent) : MixM η π Unit := modify fun w => { w with log := e :: w.log }

/-- `mixer->... = ...`. -/
def modifyMixer (f : Mixer → Mixer) : MixM η π Unit := modify fun w => { w with mixer := f w.mixer }

/-- The outcome of an allocation. -/
def mixAlloc : MixM η π Bool := do
  let w ← get
  set { w with alloc := fun i => w.alloc (i + 1) }
  return w.alloc 0

/-- `calloc(1, sizeof(*grp))`. -/
def callocGrp (k : GrpKind) : MixM η π Addr := do
  if ← mixAlloc then
    let w ← get
    set { w with heap := Function.update w.heap w.next (some { kind := k }), next := w.next + 1 }
    logMix (.grpAlloc w.next)
    return w.next
  else return 0

/-- `*grp`. -/
def derefGrp (a : Addr) : MixM η π MixerCtlGroup := do
  match (← get).heap a with
  | some g => return g
  | none =>
    modify fun w => { w with fault := true }
    return { kind := .hw }

/-- `free(grp)`. -/
def freeGrp (a : Addr) : MixM η π Unit := do
  let _ ← derefGrp a
  modify fun w => { w with heap := Function.update w.heap a none }
  logMix (.grpFree a)

variable (b : MixBackends η π)

/-- Opens the device of a backend. -/
def openDev (k : GrpKind) : MixM η π Int := do
  let w ← get
  let (ret, w) : Int × MixWorld η π := match k with
    | .hw => ((b.hw.openDev w.hw).1, { w with hw := (b.hw.openDev w.hw).2 })
    | .plug => ((b.plug.openDev w.plug).1, { w with plug := (b.plug.openDev w.plug).2 })
  set w
  if ret < 0 then return ret
  else
    modify fun w => { w with isOpen := Function.update w.isOpen k true }
    logMix (.opened k)
    return ret

/-- `ops->close(data)`. -/
def closeDev (k : GrpKind) : MixM η π Unit := do
  modify fun w => match k with
    | .hw => { w with hw := b.hw.closeDev w.hw }
    | .plug => { w with plug := b.plug.closeDev w.plug }
  modify fun w => { w with fault := w.fault || !w.isOpen k, isOpen := Function.update w.isOpen k false }
  logMix (.closed k)

/-- `grp->ops->ioctl(data, SNDRV_CTL_IOCTL_CARD_INFO, &mixer->card_info)`. -/
def ioctlCardInfo (k : GrpKind) : MixM η π Int := do
  let w ← get
  let (ret, w) : Int × MixWorld η π := match k with
    | .hw => ((b.hw.cardInfo w.hw).1, { w with hw := (b.hw.cardInfo w.hw).2 })
    | .plug => ((b.plug.cardInfo w.plug).1, { w with plug := (b.plug.cardInfo w.plug).2 })
  set w
  logMix (.cardInfo k ret)
  return ret

/-- What a scan of a group starts from. -/
def scanState {δ : Type} (dev : δ) (g : MixerCtlGroup) (w : MixWorld η π) : ScanState δ where
  dev
  alloc := w.alloc
  grp := g
  totalCount := w.mixer.totalCount

/-- The mixer after a scan of the group at `a`. -/
def scanned {δ : Type} (k : GrpKind) (a : Addr) (s : ScanState δ) (w : MixWorld η π) : MixWorld η π :=
  { w with
    alloc := s.alloc
    mixer := { w.mixer with totalCount := s.totalCount }
    heap := Function.update w.heap a (some s.grp)
    log := s.calls.map (.scan k) ++ w.log }

/-- `add_controls(mixer, grp)`. -/
def addControlsTo (a : Addr) : MixM η π Int := do
  let g ← derefGrp a
  let w ← get
  match g.kind with
  | .hw =>
    let (ret, s) := exec (addControls b.hw w.self a) (scanState w.hw g w)
    set { scanned .hw a s w with hw := s.dev }
    return ret
  | .plug =>
    let (ret, s) := exec (addControls b.plug w.self a) (scanState w.plug g w)
    set { scanned .plug a s w with plug := s.dev }
    return ret

/-! ## Opening -/

/-- `mixer_hw_open`. -/
def mixerHwOpen : MixM η π Int := do
  let fd ← openDev b .hw
  if fd < 0 then return fd
  else
    let ok ← mixAlloc
    logMix (.hwData ok)
    if ok then return fd else return -1

/-- `err_card_info` of `mixer_grp_open`. -/
def mixerGrpAbandon (k : GrpKind) (a : Addr) (ret : Int) : MixM η π Int := do
  closeDev b k
  freeGrp a
  return ret

/-- The scan of `mixer_grp_open`. -/
def mixerGrpFill (k : GrpKind) (a : Addr) : MixM η π Int := do
  let ret ← addControlsTo b a
  if ret < 0 then mixerGrpAbandon b k a ret else return 0

/-- `mixer_grp_open` once the backend is open and the group published. -/
def mixerGrpSetup (k : GrpKind) (a : Addr) : MixM η π Int := do
  if !(← get).mixer.isCardInfoRetrieved then
    let ret ← ioctlCardInfo b k
    if ret < 0 then mixerGrpAbandon b k a ret
    else
      modifyMixer fun m => { m with isCardInfoRetrieved := true }
      mixerGrpFill b k a
  else mixerGrpFill b k a

/-- `mixer_grp_open`. -/
def mixerGrpOpen (k : GrpKind) : MixM η π Int := do
  let grp ← callocGrp k
  if grp = 0 then return -eNoMem
  else
    match k with
    | .hw =>
      modifyMixer fun m => { m with fd := -1 }
      let fd ← mixerHwOpen b
      if fd < 0 then
        freeGrp grp
        return fd
      else
        modifyMixer fun m => { m with fd, hGrp := grp }
        mixerGrpSetup b .hw grp
    | .plug =>
      let ret ← openDev b .plug
      if ret < 0 then
        freeGrp grp
        return ret
      else
        modifyMixer fun m => { m with vGrp := grp }
        mixerGrpSetup b .plug grp

/-! ## Closing -/

/-- `mixer_grp_close`. -/
def mixerGrpClose (a : Addr) : MixM η π Unit := do
  if a = 0 then return ()
  else
    freeGrp a
    modifyMixer fun m => { m with isCardInfoRetrieved := false }

/-- `grp->ops->close(grp->data)`. -/
def closeGrpDev (a : Addr) : MixM η π Unit := do
  let g ← derefGrp a
  closeDev b g.kind

/-- `mixer_close`. -/
def mixerClose : MixM η π Unit := do
  let m := (← get).mixer
  if m.fd ≥ 0 ∧ m.hGrp ≠ 0 then closeGrpDev b m.hGrp
  mixerGrpClose m.hGrp
  if m.vGrp ≠ 0 then closeGrpDev b m.vGrp
  mixerGrpClose m.vGrp

/-- `mixer_open`: whether it returns a mixer. -/
def mixerOpen : MixM η π Bool := do
  if ← mixAlloc then
    modify fun w => { w with mixer := {}, self := w.next, next := w.next + 1 }
    let hStatus ← mixerGrpOpen b .hw
    let vStatus ← mixerGrpOpen b .plug
    -- both hw and virtual should fail for mixer_open to fail
    if hStatus < 0 ∧ vStatus < 0 then
      mixerClose b
      return false
    else return true
  else return false

/-- The scan of a group, where the mixer has it. -/
def rescanGrp (a : Addr) : MixM η π Int :=
  if a ≠ 0 then addControlsTo b a else pure 0

/-- `mixer_add_new_ctls`. -/
def mixerAddNewCtls : MixM η π Int := do
  let m := (← get).mixer
  let rc1 ← rescanGrp b m.hGrp
  let rc2 ← rescanGrp b m.vGrp
  if rc1 < 0 then return rc1
  else if rc2 < 0 then return rc2
  else return 0

end

end Tinyalsa
