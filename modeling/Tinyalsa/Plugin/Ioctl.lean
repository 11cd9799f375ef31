/-
The commands of a PCM plugin (`pcm_plug_ioctl`, `pcm_plug_mmap`, `pcm_plug_munmap`): each guards the
plugin's state by hand, passes its argument to a callback and, for the four callbacks that move the
stream, stores the state the callback's success leads to.
-/
import Tinyalsa.Plugin.Node
import Tinyalsa.Plugin.Params

namespace Tinyalsa

/-! ## Callbacks and guards -/

/-- `SNDRV_PCM_STREAM_*`. -/
def streamPlayback : Int := 0
def streamCapture : Int := 1

/-- What `pcm_plug_info` writes of `struct snd_pcm_info`. -/
structure SndPcmInfo where
  stream : Int := 0
  card : UInt32 := 0
  device : UInt32 := 0
  id : List UInt8 := []
  name : List UInt8 := []
  subname : List UInt8 := []
  subdevicesCount : UInt32 := 0
  deriving DecidableEq

/-- `struct pcm_plug_data`. -/
structure PcmPlugData (π : Type) where
  card : UInt32
  device : UInt32
  flags : UInt32
  devNode : Option SndNode
  plugin : PcmPlugin π

/-- `PCM_PLUG_STATE_*` as a number. -/
def PcmPlugState.code : PcmPlugState → Nat
  | .opened => 0
  | .setup => 1
  | .prepared => 2
  | .running => 3

/-- `convert_plugin_to_pcm_state`. -/
def convertPluginToPcmState : PcmPlugState → PcmState
  | .setup => .setup
  | .running => .running
  | .prepared => .prepared
  | .opened => .opened

section

variable {π : Type}

/-- The plugin after a callback. -/
def PcmPlugin.called (plugin : PcmPlugin π) (c : PlugCall) (priv : π) : PcmPlugin π :=
  { plugin with priv, calls := c :: plugin.calls }

/-- Invokes a callback. -/
def plugCall {α : Type} (c : PlugCallback) (f : π → Int × α × π) (plugin : PcmPlugin π) : Int × α × PcmPlugin π :=
  let (rc, a, priv) := f plugin.priv
  (rc, a, plugin.called (.callback c rc) priv)

/-- Invokes a callback whose success moves the stream. -/
def plugMove (c : PlugCallback) (f : π → Int × π) (target : PcmPlugState) (plugin : PcmPlugin π) : Int × PcmPlugin π :=
  let (rc, priv) := f plugin.priv
  (rc, { plugin.called (.callback c rc) priv with state := if rc = 0 then target else plugin.state })

variable (ops : PcmPluginOps π) (plugin : PcmPlugin π)

/-- `pcm_plug_sparams`. -/
def pcmPlugSparams (params : SndPcmSwParams) : Int × SndPcmSwParams × PcmPlugin π :=
  if plugin.state ≠ .setup then (-eBadFd, params, plugin) else plugCall .swParams (ops.swParams params) plugin

/-- `pcm_plug_sync_ptr`. -/
def pcmPlugSyncPtr (syncPtr : SndPcmSyncPtr) : Int × SndPcmSyncPtr × PcmPlugin π :=
  if plugin.state.code ≥ PcmPlugState.setup.code then
    let (ret, s, plugin') := plugCall .syncPtr (ops.syncPtr syncPtr) plugin
    if ret = 0 then
      (ret, { s with status := { s.status with state := convertPluginToPcmState plugin'.state } }, plugin')
    else (ret, s, plugin')
  else (-eBadFd, syncPtr, plugin)

/-- `pcm_plug_writei_frames`. -/
def pcmPlugWriteiFrames (x : SndXferi) : Int × SndXferi × PcmPlugin π :=
  if plugin.state ≠ .prepared ∧ plugin.state ≠ .running then (-eBadFd, x, plugin)
  else plugCall .writeiFrames (ops.writeiFrames x) plugin

/-- `pcm_plug_readi_frames`. -/
def pcmPlugReadiFrames (x : SndXferi) : Int × SndXferi × PcmPlugin π :=
  if plugin.state ≠ .prepared ∧ plugin.state ≠ .running then (-eBadFd, x, plugin)
  else plugCall .readiFrames (ops.readiFrames x) plugin

/-- `pcm_plug_ttstamp`. -/
def pcmPlugTtstamp (tstamp : Int) : Int × Int × PcmPlugin π :=
  if plugin.state.code < PcmPlugState.setup.code then (-eBadFd, tstamp, plugin)
  else plugCall .ttstamp (ops.ttstamp tstamp) plugin

/-- `pcm_plug_prepare`. -/
def pcmPlugPrepare : Int × PcmPlugin π :=
  if plugin.state ≠ .setup then (-eBadFd, plugin) else plugMove .prepare ops.prepare .prepared plugin

/-- `pcm_plug_start`. -/
def pcmPlugStart : Int × PcmPlugin π :=
  if plugin.state ≠ .prepared then (-eBadFd, plugin) else plugMove .start ops.start .running plugin

/-- `pcm_plug_drop`: no guard. -/
def pcmPlugDrop : Int × PcmPlugin π := plugMove .drop ops.drop .setup plugin

/-- `pcm_plug_drain`. -/
def pcmPlugDrain : Int × PcmPlugin π :=
  if plugin.state ≠ .running then (-eBadFd, plugin)
  else
    let (rc, priv) := ops.drain plugin.priv
    (rc, plugin.called (.callback .drain rc) priv)

/-- `pcm_plug_mmap`: a refusal is `NULL`. -/
def pcmPlugMmap (offset : MmapOffset) (length : Nat) : MapAddr × PcmPlugin π :=
  if plugin.state ≠ .setup then (.addr 0, plugin)
  else
    let (addr, priv) := ops.mmap offset length plugin.priv
    (addr, plugin.called (.mmap addr) priv)

/-- `pcm_plug_munmap`. -/
def pcmPlugMunmap (addr : MapAddr) (length : Nat) : Int × PcmPlugin π :=
  if plugin.state ≠ .setup then (-eBadFd, plugin)
  else
    let (rc, priv) := ops.munmap addr length plugin.priv
    (rc, plugin.called (.callback .munmap rc) priv)

/-- `pcm_plug_info`; `none` where it reads a name that the lookup did not write. -/
def pcmPlugInfo (d : PcmPlugData π) : Option (Int × SndPcmInfo) :=
  let capture := d.flags &&& pcmIn != 0
  let (ret, val) := sndUtilsGetInt d.devNode (if capture then "capture" else "playback") (-1)
  if ret ≠ 0 ∨ val = 0 then some (-eInval, {})
  else
    let info : SndPcmInfo :=
      { stream := if capture then streamCapture else streamPlayback, card := d.card, device := d.device }
    match sndUtilsGetStr d.devNode "name" with
    | (0, none) => none
    | (0, some name) =>
      some (0, { info with id := name.take 63, name := name.take 79, subname := name.take 31, subdevicesCount := 1 })
    | (ret, _) => some (ret, info)

/-! ## The ioctl -/

/-- A command of `pcm_plug_ioctl` with its argument. -/
inductive PcmPlugCmd
  | info (info : SndPcmInfo)
  | ttstamp (tstamp : Int)
  | hwRefine (params : SndPcmHwParams)
  | hwParams (params : SndPcmHwParams)
  | swParams (params : SndPcmSwParams)
  | syncPtr (syncPtr : SndPcmSyncPtr)
  | prepare
  | start
  | drain
  | drop
  | writeiFrames (x : SndXferi)
  | readiFrames (x : SndXferi)
  | extra (cmd : PcmExtraCmd) (arg : Int)

/-- `pcm_plug_ioctl`: the result, and the command with what it leaves in its argument. `none` is the
trap of a division by zero, or of a name that was never written. -/
def pcmPlugIoctl (d : PcmPlugData π) : PcmPlugCmd → Option (Int × PcmPlugCmd × PcmPlugData π)
  | .info _ => (pcmPlugInfo d).map fun (ret, info) => (ret, .info info, d)
  | .ttstamp t =>
    let (ret, t, plugin) := pcmPlugTtstamp ops d.plugin t
    some (ret, .ttstamp t, { d with plugin })
  | .hwRefine p => (pcmPlugHrefine d.plugin.constraints p).map fun (ret, p) => (ret, .hwRefine p, d)
  | .hwParams p =>
    (pcmPlugHparams ops p d.plugin).map fun (ret, p, plugin) => (ret, .hwParams p, { d with plugin })
  | .swParams p =>
    let (ret, p, plugin) := pcmPlugSparams ops d.plugin p
    some (ret, .swParams p, { d with plugin })
  | .syncPtr s =>
    let (ret, s, plugin) := pcmPlugSyncPtr ops d.plugin s
    some (ret, .syncPtr s, { d with plugin })
  | .prepare =>
    let (ret, plugin) := pcmPlugPrepare ops d.plugin
    some (ret, .prepare, { d with plugin })
  | .start =>
    let (ret, plugin) := pcmPlugStart ops d.plugin
    some (ret, .start, { d with plugin })
  | .drain =>
    let (ret, plugin) := pcmPlugDrain ops d.plugin
    some (ret, .drain, { d with plugin })
  | .drop =>
    let (ret, plugin) := pcmPlugDrop ops d.plugin
    some (ret, .drop, { d with plugin })
  | .writeiFrames x =>
    let (ret, x, plugin) := pcmPlugWriteiFrames ops d.plugin x
    some (ret, .writeiFrames x, { d with plugin })
  | .readiFrames x =>
    let (ret, x, plugin) := pcmPlugReadiFrames ops d.plugin x
    some (ret, .readiFrames x, { d with plugin })
  | .extra cmd arg =>
    let (ret, arg, plugin) := plugCall .ioctl (ops.ioctl cmd arg) d.plugin
    some (ret, .extra cmd arg, { d with plugin })

end

end Tinyalsa
