/-
The plugin as a backend of pcm.c (`plug_ops`): every call of a handle goes through `pcm_plug_ioctl`
and its siblings.
-/
import Tinyalsa.Plugin.Ioctl

namespace Tinyalsa

/-- The memory that a plugin's `mmap` callback maps, and what the plugin does on its own. -/
structure PlugMemory (π : Type) where
  run : π → π
  status : π → SndPcmMmapStatus
  control : π → SndPcmMmapControl
  setControl : SndPcmMmapControl → π → π
  buffer : π → Nat → UInt8
  setBuffer : (Nat → UInt8) → π → π

/-- The device behind a plugin's handle. `trapped`: a command did not come back. -/
structure PlugDev (π : Type) where
  data : PcmPlugData π
  trapped : Bool := false

section

variable {π : Type} (ops : PcmPluginOps π)

/-- `pcm_plug_ioctl` on the device. The answer of a command that traps stands for nothing. -/
def PlugDev.ioctl (c : PcmPlugCmd) (d : PlugDev π) : Int × PcmPlugCmd × PlugDev π :=
  match pcmPlugIoctl ops d.data c with
  | some (ret, c', data) => (ret, c', { d with data })
  | none => (-1, c, { d with trapped := true })

/-- `pcm_plug_ioctl` with a command that carries no argument. -/
def PlugDev.cmd (c : PcmPlugCmd) (d : PlugDev π) : Reply × PlugDev π :=
  (⟨(d.ioctl ops c).1, none⟩, (d.ioctl ops c).2.2)

/-- `&params` after a command. -/
def PcmPlugCmd.hwArg (p : SndPcmHwParams) : PcmPlugCmd → SndPcmHwParams
  | .hwParams p' => p'
  | _ => p

def PcmPlugCmd.swArg (p : SndPcmSwParams) : PcmPlugCmd → SndPcmSwParams
  | .swParams p' => p'
  | _ => p

def PcmPlugCmd.syncArg (s : SndPcmSyncPtr) : PcmPlugCmd → SndPcmSyncPtr
  | .syncPtr s' => s'
  | _ => s

def PcmPlugCmd.xferArg (x : SndXferi) : PcmPlugCmd → SndXferi
  | .writeiFrames x' | .readiFrames x' => x'
  | _ => x

def PcmPlugCmd.wordArg (arg : Int) : PcmPlugCmd → Int
  | .extra _ arg' | .ttstamp arg' => arg'
  | _ => arg

/-- The command behind each ioctl without an argument. -/
def plugCmd : PcmCmd → PcmPlugCmd
  | .hwsync => .extra .hwsync 0
  | .prepare => .prepare
  | .start => .start
  | .drain => .drain
  | .drop => .drop
  | .unlink => .extra .unlink 0

/-- `plug_ops`. None of its functions writes `errno`. -/
def plugOps (mem : PlugMemory π) : PcmOps (PlugDev π) where
  hwParams p d :=
    let (ret, c, d') := d.ioctl ops (.hwParams p)
    (⟨ret, none⟩, c.hwArg p, d')
  swParams p d :=
    let (ret, c, d') := d.ioctl ops (.swParams p)
    (⟨ret, none⟩, c.swArg p, d')
  syncPtr s d :=
    let (ret, c, d') := d.ioctl ops (.syncPtr s)
    (⟨ret, none⟩, c.syncArg s, d')
  cmd c d := d.cmd ops (plugCmd c)
  xfer write frames user d :=
    let x : SndXferi := { buf := user, frames := frames.toUInt64 }
    let (ret, c, d') := d.ioctl ops (if write then .writeiFrames x else .readiFrames x)
    (⟨ret, none⟩, (c.xferArg x).result, (c.xferArg x).buf, d')
  link fd d := d.cmd ops (.extra .link fd)
  delay arg d :=
    let (ret, c, d') := d.ioctl ops (.extra .delay arg)
    (⟨ret, none⟩, c.wordArg arg, d')
  info d := ((d.cmd ops (.info {})).1, 0, (d.cmd ops (.info {})).2)
  ttstamp t d :=
    let (ret, c, d') := d.ioctl ops (.ttstamp t)
    (⟨ret, none⟩, c.wordArg t, d')
  poll timeout d :=
    let (ret, events, plugin) := plugCall .poll (ops.poll timeout) d.data.plugin
    (⟨ret, none⟩, events, { d with data := { d.data with plugin } })
  mmap offset length d :=
    let (addr, plugin) := pcmPlugMmap ops d.data.plugin offset length
    (addr, none, { d with data := { d.data with plugin } })
  munmap addr length d :=
    let (ret, plugin) := pcmPlugMunmap ops d.data.plugin addr length
    (⟨ret, none⟩, { d with data := { d.data with plugin } })
  run d := { d with data := { d.data with plugin := { d.data.plugin with priv := mem.run d.data.plugin.priv } } }
  status d := mem.status d.data.plugin.priv
  control d := mem.control d.data.plugin.priv
  setControl c d :=
    { d with data := { d.data with plugin := { d.data.plugin with priv := mem.setControl c d.data.plugin.priv } } }
  buffer d := mem.buffer d.data.plugin.priv
  setBuffer b d :=
    { d with data := { d.data with plugin := { d.data.plugin with priv := mem.setBuffer b d.data.plugin.priv } } }

end

/-- A plugin without memory of its own. -/
def noMemory : PlugMemory Unit where
  run := id
  status _ := {}
  control _ := {}
  setControl _ := id
  buffer _ _ := 0
  setBuffer _ := id

end Tinyalsa
