/-
The PCM handle and the backend behind it. A library call runs on a `World`: the handle
(`struct pcm`), the device that `pcm->ops` reaches, `errno` and the caller's sample buffer. The
backend is arbitrary: it answers each ioctl as it likes, and moves on its own before every access
to what it shares with the library (the status page, the control page, the sample buffer).
-/
import Tinyalsa.Lib.Hoare
import Tinyalsa.Pcm.Params

namespace Tinyalsa

open Hoare

/-! ## Streams -/

/-- `PCM_STATE_*`. -/
inductive PcmState
  | opened | setup | prepared | running | xrun | draining | paused | suspended | disconnected
  deriving DecidableEq, Repr

/-- The number of a state, as `pcm_state` returns it. -/
def PcmState.code : PcmState → Int
  | .opened => 0
  | .setup => 1
  | .prepared => 2
  | .running => 3
  | .xrun => 4
  | .draining => 5
  | .paused => 6
  | .suspended => 7
  | .disconnected => 8

@[simp] theorem PcmState.code_inj {s t : PcmState} : s.code = t.code ↔ s = t := by
  cases s <;> cases t <;> decide

/-- `struct timespec`. -/
structure Timespec where
  sec : Int := 0
  nsec : Int := 0
  deriving DecidableEq, Repr

/-- `struct snd_pcm_mmap_status`. -/
structure SndPcmMmapStatus where
  state : PcmState := .opened
  hwPtr : UInt64 := 0
  tstamp : Timespec := {}
  deriving DecidableEq, Repr

/-- `struct snd_pcm_mmap_control`. -/
structure SndPcmMmapControl where
  applPtr : UInt64 := 0
  availMin : UInt64 := 0
  deriving DecidableEq, Repr

/-- `SNDRV_PCM_SYNC_PTR_*`. -/
structure SyncFlags where
  hwsync : Bool := false
  appl : Bool := false
  availMin : Bool := false
  deriving DecidableEq, Repr

/-- `struct snd_pcm_sync_ptr`. -/
structure SndPcmSyncPtr where
  flags : SyncFlags := {}
  status : SndPcmMmapStatus := {}
  control : SndPcmMmapControl := {}
  deriving DecidableEq, Repr

/-! ## The backend -/

/-- What a backend call returns, and the `errno` it leaves (`none`: as it was). -/
structure Reply where
  ret : Int
  errno : Option Int := none
  deriving DecidableEq, Repr

/-- What `mmap` returns: `MAP_FAILED` or an address (0 is `NULL`). -/
inductive MapAddr
  | mapFailed
  | addr (a : Nat)
  deriving DecidableEq, Repr

/-- What a mapping shows: the sample buffer, or one of `SNDRV_PCM_MMAP_OFFSET_*`. -/
inductive MmapOffset
  | data | status | control
  deriving DecidableEq, Repr

/-- Neither `MAP_FAILED` nor `NULL`. -/
def MapAddr.isMapped : MapAddr → Bool
  | .mapFailed => false
  | .addr a => a ≠ 0

/-- `if (p == MAP_FAILED) p = NULL`. -/
def MapAddr.orNull : MapAddr → MapAddr
  | .mapFailed => .addr 0
  | a => a

/-- The ioctls without an argument. -/
inductive PcmCmd
  | hwsync | prepare | start | drain | drop | unlink
  deriving DecidableEq, Repr

/-- `revents` of `struct pollfd`. -/
structure PollEvents where
  pollIn : Bool := false
  pollOut : Bool := false
  pollErr : Bool := false
  pollNval : Bool := false
  deriving DecidableEq, Repr

/-- A buffer of the caller: its bytes and how many there are. -/
structure UserBuf where
  size : Nat
  byte : Nat → UInt8

/-- `struct pcm_ops` with the memory a backend shares. `σ` is the device behind `void *data`. -/
structure PcmOps (σ : Type) where
  hwParams : SndPcmHwParams → σ → Reply × SndPcmHwParams × σ
  swParams : SndPcmSwParams → σ → Reply × SndPcmSwParams × σ
  syncPtr : SndPcmSyncPtr → σ → Reply × SndPcmSyncPtr × σ
  cmd : PcmCmd → σ → Reply × σ
  /-- `WRITEI_FRAMES` (`true`) and `READI_FRAMES`: the frames offered, and the result stored. -/
  xfer : Bool → UInt32 → UserBuf → σ → Reply × Int × UserBuf × σ
  link : Int → σ → Reply × σ
  delay : Int → σ → Reply × Int × σ
  /-- The subdevice is what pcm.c reads of `struct snd_pcm_info`. -/
  info : σ → Reply × UInt32 × σ
  ttstamp : Int → σ → Reply × Int × σ
  poll : Int → σ → Reply × PollEvents × σ
  mmap : MmapOffset → Nat → σ → MapAddr × Option Int × σ
  munmap : MapAddr → Nat → σ → Reply × σ
  /-- What the device does on its own before the library's next access to shared memory. -/
  run : σ → σ
  status : σ → SndPcmMmapStatus
  control : σ → SndPcmMmapControl
  setControl : SndPcmMmapControl → σ → σ
  buffer : σ → Nat → UInt8
  setBuffer : (Nat → UInt8) → σ → σ

/-- `hw_ops` and `plug_ops`. -/
inductive Backend
  | hw | plug
  deriving DecidableEq, Repr

/-! ## The handle -/

/-- `PCM_IN`. -/
def pcmIn : UInt32 := 0x10000000
/-- `PCM_MMAP`. -/
def pcmMmap : UInt32 := 0x00000001
/-- `PCM_NOIRQ`. -/
def pcmNoirq : UInt32 := 0x00000002
/-- `PCM_NORESTART`. -/
def pcmNorestart : UInt32 := 0x00000004
/-- `PCM_NONBLOCK`. -/
def pcmNonblock : UInt32 := 0x00000010

/-- `pcm->error` as `oops` leaves it: the formatted text and the errno whose `strerror` follows it
(0 for none). -/
structure PcmError where
  text : String := ""
  errno : Int := 0
  deriving DecidableEq, Repr

/-- `struct pcm`. A `NULL` `sync_ptr` means that status and control are mapped pages; otherwise the two
pointers lie inside it, and the addresses here stay `NULL`. What is stored in `xruns` is wrapped to an `int`. -/
structure Pcm where
  fd : Int
  flags : UInt32
  xruns : Int := 0
  bufferSize : UInt32
  boundary : UInt64
  error : PcmError := {}
  config : PcmConfig
  syncPtr : Option SndPcmSyncPtr := none
  mmapStatus : MapAddr := .addr 0
  mmapControl : MapAddr := .addr 0
  mmapBuffer : MapAddr := .addr 0
  noirqFramesPerMsec : UInt32 := 0
  pcmDelay : Int := 0
  subdevice : UInt32 := 0
  deriving DecidableEq, Repr

namespace Pcm

variable (pcm : Pcm)

/-- `pcm->flags & PCM_IN`. -/
def isIn : Bool := pcm.flags &&& pcmIn != 0
/-- `pcm->flags & PCM_MMAP`. -/
def isMmap : Bool := pcm.flags &&& pcmMmap != 0
/-- `pcm->flags & PCM_NOIRQ`. -/
def isNoirq : Bool := pcm.flags &&& pcmNoirq != 0
/-- `pcm->flags & PCM_NORESTART`. -/
def isNorestart : Bool := pcm.flags &&& pcmNorestart != 0
/-- `pcm->flags & PCM_NONBLOCK`. -/
def isNonblock : Bool := pcm.flags &&& pcmNonblock != 0

end Pcm

/-- `pcm_frames_to_bytes`. -/
def pcmFramesToBytes (pcm : Pcm) (frames : UInt32) : UInt32 :=
  frames * pcm.config.channels * (pcmFormatToBits pcm.config.format >>> 3)

/-- `pcm_bytes_to_frames`. -/
def pcmBytesToFrames (pcm : Pcm) (bytes : UInt32) : UInt32 :=
  bytes / (pcm.config.channels * (pcmFormatToBits pcm.config.format >>> 3))

/-! ## Library calls -/

/-- What the library did, as the properties below speak about it. Ghost: no function reads it. -/
inductive PcmCall
  | hwParams (params : SndPcmHwParams) (ret : Int)
  | swParams (params : SndPcmSwParams) (ret : Int)
  | mmap (offset : MmapOffset) (length : Nat)
  | cmd (c : PcmCmd) (ret : Int)
  | link (fd ret : Int)
  | delay (ret : Int)
  | info (ret : Int)
  | ttstamp (ret : Int)
  | munmap (addr : MapAddr) (length : Nat) (ret : Int)
  /-- A `SYNC_PTR` with the device's control block before and after it. -/
  | syncPtr (flags : SyncFlags) (ret : Int) (before after : SndPcmMmapControl)
  | poll (ret : Int)
  | xfer (frames : UInt32) (ret result : Int)
  /-- `pcm_mmap_transfer_areas` was entered. -/
  | areas
  /-- `pcm_areas_copy` moved frames between the ring and the caller's buffer. -/
  | copy (pcmOffset srcOffset frames : UInt32)
  /-- `pcm_mmap_appl_forward` moved the application pointer of a ring with this boundary. -/
  | forward (frames : Int) (boundary : UInt64)
  /-- `pcm_mmap_commit` returned. -/
  | commit (frames : UInt32) (ret : Int)
  deriving DecidableEq

/-- What a library call runs on. `fault` records an access outside a buffer; `trace` is the
calls made, newest first. Both are ghost. -/
structure World (σ : Type) where
  pcm : Pcm
  dev : σ
  errno : Int := 0
  user : UserBuf
  fault : Bool := false
  trace : List PcmCall := []

abbrev PcmM (σ : Type) := StateM (World σ)

namespace World

variable {σ : Type} (w : World σ)

/-- The world with another handle. -/
def setPcm (pcm : Pcm) : World σ := { w with pcm }

/-- The world with another device. -/
def setDev (dev : σ) : World σ := { w with dev }

/-- The world with a call added to the trace. -/
def push (c : PcmCall) : World σ := { w with trace := c :: w.trace }

/-- The world after a backend call: the device, and the `errno` it left. -/
def answered (errno : Option Int) (dev : σ) : World σ := { w with dev, errno := errno.getD w.errno }

variable (pcm : Pcm) (dev : σ) (c : PcmCall) (e : Option Int)

@[simp] theorem setPcm_pcm : (w.setPcm pcm).pcm = pcm := rfl
@[simp] theorem setPcm_dev : (w.setPcm pcm).dev = w.dev := rfl
@[simp] theorem setPcm_errno : (w.setPcm pcm).errno = w.errno := rfl
@[simp] theorem setPcm_user : (w.setPcm pcm).user = w.user := rfl
@[simp] theorem setPcm_fault : (w.setPcm pcm).fault = w.fault := rfl
@[simp] theorem setPcm_trace : (w.setPcm pcm).trace = w.trace := rfl
@[simp] theorem setDev_pcm : (w.setDev dev).pcm = w.pcm := rfl
@[simp] theorem setDev_dev : (w.setDev dev).dev = dev := rfl
@[simp] theorem setDev_errno : (w.setDev dev).errno = w.errno := rfl
@[simp] theorem setDev_user : (w.setDev dev).user = w.user := rfl
@[simp] theorem setDev_fault : (w.setDev dev).fault = w.fault := rfl
@[simp] theorem setDev_trace : (w.setDev dev).trace = w.trace := rfl
@[simp] theorem push_pcm : (w.push c).pcm = w.pcm := rfl
@[simp] theorem push_dev : (w.push c).dev = w.dev := rfl
@[simp] theorem push_errno : (w.push c).errno = w.errno := rfl
@[simp] theorem push_user : (w.push c).user = w.user := rfl
@[simp] theorem push_fault : (w.push c).fault = w.fault := rfl
@[simp] theorem push_trace : (w.push c).trace = c :: w.trace := rfl
@[simp] theorem answered_pcm : (w.answered e dev).pcm = w.pcm := rfl
@[simp] theorem answered_dev : (w.answered e dev).dev = dev := rfl
@[simp] theorem answered_errno : (w.answered e dev).errno = e.getD w.errno := rfl
@[simp] theorem answered_user : (w.answered e dev).user = w.user := rfl
@[simp] theorem answered_fault : (w.answered e dev).fault = w.fault := rfl
@[simp] theorem answered_trace : (w.answered e dev).trace = w.trace := rfl

end World

section

variable {σ : Type} (ops : PcmOps σ)

/-- Adds a call to the trace. -/
def record (c : PcmCall) : PcmM σ Unit := modify (·.push c)

/-- `pcm->... = ...`. -/
def modifyPcm (f : Pcm → Pcm) : PcmM σ Unit := modify fun w => w.setPcm (f w.pcm)

/-- `oops`. -/
def oops (e : Int) (text : String) : PcmM σ Int := do
  modifyPcm fun p => { p with error := ⟨text, e⟩ }
  return -1

/-- `pcm->ops->ioctl(pcm->data, cmd)`. -/
def ioctl (c : PcmCmd) : PcmM σ Int := do
  let w ← get
  let (r, dev) := ops.cmd c w.dev
  set (w.answered r.errno dev)
  record (.cmd c r.ret)
  return r.ret

/-- `pcm->ops->ioctl(pcm->data, SNDRV_PCM_IOCTL_SYNC_PTR, pcm->sync_ptr)`. -/
def ioctlSyncPtr (s : SndPcmSyncPtr) : PcmM σ Int := do
  let w ← get
  let (r, s', dev) := ops.syncPtr s w.dev
  set (w.answered r.errno dev)
  modifyPcm fun p => { p with syncPtr := some s' }
  record (.syncPtr s.flags r.ret (ops.control w.dev) (ops.control dev))
  return r.ret

@[simp] theorem exec_record (c : PcmCall) (w : World σ) : exec (record c) w = ((), w.push c) := (rfl)

@[simp] theorem exec_modifyPcm (f : Pcm → Pcm) (w : World σ) :
    exec (modifyPcm f) w = ((), w.setPcm (f w.pcm)) := (rfl)

@[simp] theorem exec_oops (e : Int) (text : String) (w : World σ) :
    exec (oops e text) w = (-1, w.setPcm { w.pcm with error := ⟨text, e⟩ }) := (rfl)

@[simp] theorem exec_ioctl (c : PcmCmd) (w : World σ) :
    exec (ioctl ops c) w =
      ((ops.cmd c w.dev).1.ret,
        (w.answered (ops.cmd c w.dev).1.errno (ops.cmd c w.dev).2).push (.cmd c (ops.cmd c w.dev).1.ret)) := (rfl)

@[simp] theorem exec_ioctlSyncPtr (s : SndPcmSyncPtr) (w : World σ) :
    exec (ioctlSyncPtr ops s) w =
      ((ops.syncPtr s w.dev).1.ret,
        ((w.answered (ops.syncPtr s w.dev).1.errno (ops.syncPtr s w.dev).2.2).setPcm
          { w.pcm with syncPtr := some (ops.syncPtr s w.dev).2.1 }).push
          (.syncPtr s.flags (ops.syncPtr s w.dev).1.ret (ops.control w.dev)
            (ops.control (ops.syncPtr s w.dev).2.2))) := (rfl)

/-- `pcm_sync_ptr`. -/
def pcmSyncPtr (flags : SyncFlags) : PcmM σ Int := do
  match (← get).pcm.syncPtr with
  | none =>
    if flags.hwsync then
      if (← ioctl ops .hwsync) = -1 then oops (← get).errno "failed to sync hardware pointer" else return 0
    else return 0
  | some s =>
    if (← ioctlSyncPtr ops { s with flags }) < 0 then oops (← get).errno "failed to sync mmap ptr"
    else return 0

/-- `*pcm->mmap_status`. -/
def mmapStatus : PcmM σ SndPcmMmapStatus := do
  match (← get).pcm.syncPtr with
  | none =>
    modify fun w => w.setDev (ops.run w.dev)
    return ops.status (← get).dev
  | some s => return s.status

/-- `*pcm->mmap_control`. -/
def mmapControl : PcmM σ SndPcmMmapControl := do
  match (← get).pcm.syncPtr with
  | none =>
    modify fun w => w.setDev (ops.run w.dev)
    return ops.control (← get).dev
  | some s => return s.control

/-- `pcm->mmap_control->appl_ptr = appl_ptr`. -/
def setApplPtr (applPtr : UInt64) : PcmM σ Unit := do
  match (← get).pcm.syncPtr with
  | none =>
    modify fun w =>
      let dev := ops.run w.dev
      w.setDev (ops.setControl { ops.control dev with applPtr } dev)
  | some s => modifyPcm fun p => { p with syncPtr := some { s with control := { s.control with applPtr } } }

/-- `pcm_state`. -/
def pcmState : PcmM σ Int := do
  -- Update the state only. Do not sync HW sync.
  let err ← pcmSyncPtr ops { appl := true, availMin := true }
  if err < 0 then return err
  else return (← mmapStatus ops).state.code

/-- `pcm_is_ready`. -/
def pcmIsReady (pcm : Pcm) : Bool := pcm.fd ≥ 0

/-- `pcm_prepare`. -/
def pcmPrepare : PcmM σ Int := do
  if (← ioctl ops .prepare) < 0 then oops (← get).errno "cannot prepare channel"
  else
    -- get appl_ptr and avail_min from kernel
    let _ ← pcmSyncPtr ops { appl := true, availMin := true }
    return 0

/-- The last step of `pcm_start`: `START` unless the stream runs already. -/
def pcmStartStream : PcmM σ Int := do
  if (← mmapStatus ops).state ≠ .running then
    if (← ioctl ops .start) < 0 then oops (← get).errno "cannot start channel" else return 0
  else return 0

/-- `pcm_start` once the stream is past `SETUP`. -/
def pcmStartPrepared : PcmM σ Int := do
  -- set appl_ptr and avail_min in kernel
  if (← pcmSyncPtr ops {}) < 0 then return -1
  else pcmStartStream ops

/-- `pcm_start`. -/
def pcmStart : PcmM σ Int := do
  if (← pcmState ops) = PcmState.setup.code then
    if (← pcmPrepare ops) ≠ 0 then return -1
    else pcmStartPrepared ops
  else pcmStartPrepared ops

/-- `pcm_drain`. -/
def pcmDrain : PcmM σ Int := do
  if !pcmIsReady (← get).pcm then return -1
  else if (← ioctl ops .drain) < 0 then oops (← get).errno "cannot drain channel"
  else return 0

/-- `pcm_stop`. -/
def pcmStop : PcmM σ Int := do
  if (← ioctl ops .drop) < 0 then oops (← get).errno "cannot stop channel" else return 0

end

end Tinyalsa
