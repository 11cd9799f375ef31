/-
Reading and writing frames (`pcm_writei`, `pcm_readi`): the wait loop, the transfer loop of a
memory-mapped stream and the restarts around it. The loops carry a fuel and answer `none` where
they have not ended within it.
-/
import Tinyalsa.Pcm.Mmap

namespace Tinyalsa

open Hoare

section

variable {σ : Type} (ops : PcmOps σ)

/-- `pcm_avail_update`. -/
def pcmAvailUpdate : PcmM σ Int := do
  let _ ← pcmSyncPtr ops { appl := true, availMin := true }
  pcmMmapAvail ops

/-! ## Waiting -/

def setErrno (e : Int) : PcmM σ Unit := modify fun w => { w with errno := e }

/-- `pcm->ops->poll(pcm->data, &pfd, 1, timeout)`. -/
def opsPoll (timeout : Int) : PcmM σ (Int × PollEvents) := do
  let w ← get
  let (r, revents, dev) := ops.poll timeout w.dev
  set (w.answered r.errno dev)
  record (.poll r.ret)
  return (r.ret, revents)

/-- The `switch` over the state in `pcm_wait`. -/
def pollError (state : Int) : Int :=
  if state = PcmState.xrun.code then -ePipe
  else if state = PcmState.suspended.code then -eStrPipe
  else if state = PcmState.disconnected.code then -eNoDev
  else -eIo

/-- `pcm_wait`. -/
def pcmWait : Nat → Int → PcmM σ (Option Int)
  | 0, _ => return none
  | fuel + 1, timeout => do
    -- let's wait for avail or timeout
    let (err, revents) ← opsPoll ops timeout
    if err < 0 then return some (-(← get).errno)
    else if err = 0 then return some 0
    -- have we been interrupted?
    else if (← get).errno ≠ -eIntr ∧ (revents.pollErr || revents.pollNval) then
      return some (pollError (← pcmState ops))
    -- poll again if fd not ready for IO
    else if revents.pollIn || revents.pollOut then return some 1
    else pcmWait fuel timeout

/-! ## The mapped transfer -/

/-- `pcm->buffer_size - avail >= pcm->config.start_threshold`. -/
def reachesThreshold (pcm : Pcm) (avail : UInt32) : Bool :=
  (pcm.bufferSize - avail).toUInt64 ≥ pcm.config.startThreshold

/-- The wait of a pass of `pcm_mmap_transfer`: whether the pass goes on. -/
def waitForRoom (fuel : Nat) (avail : UInt32) : PcmM σ (Option Bool) := do
  if avail = 0 then
    if (← get).pcm.isNonblock then
      setErrno eAgain
      return some false
    else
      -- wait for interrupt
      match ← pcmWait ops fuel (-1) with
      | none => return none
      | some err =>
        if err < 0 then
          setErrno (-err)
          return some false
        else return some true
  else return some true

/-- Starts playback if written >= start_threshold: whether the loop goes on. -/
def startIfReached (isPlayback : Bool) (state : PcmState) (avail : UInt32) : PcmM σ Bool := do
  if isPlayback && state = .prepared && reachesThreshold (← get).pcm avail then
    return !((← pcmStart ops) < 0)
  else return true

/-- The loop of `pcm_mmap_transfer`, with its `user_offset` and `frames`; the user offset it ends with. -/
def mmapTransferLoop (isPlayback : Bool) (state : PcmState) : Nat → UInt32 → UInt32 → PcmM σ (Option UInt32)
  | 0, _, _ => return none
  | fuel + 1, userOffset, frames => do
    if frames = 0 then return some userOffset
    else
      let avail := CInt.toUInt (← pcmMmapAvail ops)
      match ← waitForRoom ops fuel avail with
      | none => return none
      | some false => return some userOffset
      | some true =>
        match ← pcmMmapTransferAreas ops fuel userOffset frames with
        | none => return none
        | some transferred =>
          if transferred < 0 then return some userOffset
          else if ← startIfReached ops isPlayback state avail then
            mmapTransferLoop isPlayback state fuel (userOffset + CInt.toUInt transferred)
              (frames - CInt.toUInt transferred)
          else return some (userOffset + CInt.toUInt transferred)

/-- What `pcm_mmap_transfer` returns for the offset its loop ended with. -/
def transferResult (userOffset : UInt32) : Int := if userOffset ≠ 0 then CInt.ofUInt userOffset else -1

/-- Another thread may start capture: a read of at least the threshold starts it here. -/
def startCapture (state : PcmState) (frames : UInt32) : PcmM σ Bool := do
  let pcm := (← get).pcm
  if pcm.isIn && state = .prepared && frames.toUInt64 ≥ pcm.config.startThreshold then return !((← pcmStart ops) < 0)
  else return true

/-- `pcm_mmap_transfer`. -/
def pcmMmapTransfer (fuel : Nat) (frames : UInt32) : PcmM σ (Option Int) := do
  if frames = 0 then return some 0
  -- update hardware pointer and get state
  else if (← pcmSyncPtr ops { hwsync := true, appl := true, availMin := true }) = -1 then return some (-1)
  else
    let state := (← mmapStatus ops).state
    if ← startCapture ops state frames then
      let isPlayback := !(← get).pcm.isIn
      return (← mmapTransferLoop ops isPlayback state fuel 0 frames).map transferResult
    else return some (-1)

/-! ## Reads and writes -/

/-- `pcm_rw_transfer`. -/
def pcmRwTransfer (frames : UInt32) : PcmM σ Int := do
  let w ← get
  let (r, result, user, dev) := ops.xfer (!w.pcm.isIn) frames w.user w.dev
  set { w.answered r.errno dev with user }
  record (.xfer frames r.ret result)
  return if r.ret = 0 then CInt.wrapInt result else -1

/-- One try of `pcm_generic_transfer`. -/
def pcmTransferOnce (fuel : Nat) (frames : UInt32) : PcmM σ (Option Int) := do
  if (← get).pcm.isMmap then pcmMmapTransfer ops fuel frames else return some (← pcmRwTransfer ops frames)

/-- Counts an overrun; whether the failed try may be repeated after a restart. -/
def pcmRestarts : PcmM σ Bool := do
  let e := (← get).errno
  if e = ePipe then modifyPcm fun p => { p with xruns := CInt.wrapInt (p.xruns + 1) }
  if e = ePipe ∨ e = eStrPipe then
    if (← get).pcm.isNorestart then return false else return (← pcmPrepare ops) = 0
  else return false

/-- The part of `pcm_generic_transfer` after its label `again`. -/
def pcmTransferAgain : Nat → UInt32 → PcmM σ (Option Int)
  | 0, _ => return none
  | fuel + 1, frames => do
    match ← pcmTransferOnce ops fuel frames with
    | none => return none
    | some res =>
      if res < 0 then
        let e := (← get).errno
        if e = ePipe ∨ e = eStrPipe then
          if ← pcmRestarts ops then pcmTransferAgain fuel frames else return some (-1)
        else if e = eAgain ∧ (← get).pcm.isNonblock then return some (-1)
        else return some (← oops e "cannot read/write stream data")
      else return some res

/-- `pcm_generic_transfer`. -/
def pcmGenericTransfer (fuel : Nat) (frames : UInt32) : PcmM σ (Option Int) := do
  if frames.toNat > CInt.intMax then return some (-eInval)
  else if (← pcmState ops) = PcmState.setup.code then
    if (← pcmPrepare ops) ≠ 0 then return some (-1) else pcmTransferAgain ops fuel frames
  else pcmTransferAgain ops fuel frames

/-- `pcm_writei`. -/
def pcmWritei (fuel : Nat) (frames : UInt32) : PcmM σ (Option Int) := do
  if (← get).pcm.isIn then return some (-eInval) else pcmGenericTransfer ops fuel frames

/-- `pcm_readi`. -/
def pcmReadi (fuel : Nat) (frames : UInt32) : PcmM σ (Option Int) := do
  if (← get).pcm.isIn then pcmGenericTransfer ops fuel frames else return some (-eInval)

/-- `pcm_mmap_get_hw_ptr`: the result, and the pointer and time stamp it stores. -/
def pcmMmapGetHwPtr : PcmM σ (Int × Option UInt32 × Option Timespec) := do
  if !pcmIsReady (← get).pcm then return (← oops (← get).errno "pcm_is_ready failed", none, none)
  else if (← pcmSyncPtr ops { hwsync := true }) < 0 then
    return (← oops (← get).errno "pcm_sync_ptr failed", none, none)
  else
    let state := (← mmapStatus ops).state
    if state ≠ .running ∧ state ≠ .draining then
      return (← oops eNoSys ("invalid stream state " ++ toString state.code), none, none)
    else
      let tstamp := (← mmapStatus ops).tstamp
      if tstamp.sec = 0 ∧ tstamp.nsec = 0 then
        return (← oops (← get).errno "invalid time stamp", none, some tstamp)
      else return (0, some (← mmapStatus ops).hwPtr.toUInt32, some tstamp)

end

end Tinyalsa
