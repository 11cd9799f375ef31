/-
The ring buffer of a memory-mapped stream (`pcm_mmap_avail`, `pcm_mmap_begin`, `pcm_mmap_commit`,
`pcm_mmap_transfer_areas`). The arithmetic is that of the C types: `long` for what is available,
`unsigned long` for the application pointer, `int` for byte offsets.
-/
import Tinyalsa.Pcm.Handle

namespace Tinyalsa

open Hoare

/-! ## Available frames -/

/-- `pcm_mmap_playback_avail`. -/
def pcmMmapPlaybackAvail (pcm : Pcm) (hwPtr applPtr : UInt64) : Int :=
  let avail := CInt.wrapLong (hwPtr.toNat + pcm.bufferSize.toNat - applPtr.toNat)
  if avail < 0 then CInt.wrapLong (avail + pcm.boundary.toNat)
  else if avail ≥ pcm.boundary.toNat then CInt.wrapLong (avail - pcm.boundary.toNat)
  else avail

/-- `pcm_mmap_capture_avail`. -/
def pcmMmapCaptureAvail (pcm : Pcm) (hwPtr applPtr : UInt64) : Int :=
  let avail := CInt.wrapLong (hwPtr.toNat - applPtr.toNat)
  if avail < 0 then CInt.wrapLong (avail + pcm.boundary.toNat) else avail

section

variable {σ : Type} (ops : PcmOps σ)

/-- What the pointers say is available, once they are synchronised. -/
def pcmAvailNow : PcmM σ Int := do
  let hwPtr := (← mmapStatus ops).hwPtr
  let applPtr := (← mmapControl ops).applPtr
  let pcm := (← get).pcm
  if pcm.isIn then return CInt.wrapInt (pcmMmapCaptureAvail pcm hwPtr applPtr)
  else return CInt.wrapInt (pcmMmapPlaybackAvail pcm hwPtr applPtr)

/-- `pcm_mmap_avail`. -/
def pcmMmapAvail : PcmM σ Int := do
  let _ ← pcmSyncPtr ops { hwsync := true }
  pcmAvailNow ops

/-! ## The application pointer -/

/-- Where `pcm_mmap_appl_forward` moves an application pointer. -/
def applForward (boundary applPtr : UInt64) (frames : Int) : UInt64 :=
  let applPtr := applPtr + CInt.toULong frames
  -- check for boundary wrap
  if applPtr ≥ boundary then applPtr - boundary else applPtr

/-- `pcm_mmap_appl_forward`. -/
def pcmMmapApplForward (frames : Int) : PcmM σ Unit := do
  let applPtr := (← mmapControl ops).applPtr
  let boundary := (← get).pcm.boundary
  setApplPtr ops (applForward boundary applPtr frames)
  record (.forward frames boundary)

/-- The frames `pcm_mmap_begin` grants. -/
def grantFrames (bufferSize offset avail frames : UInt32) : UInt32 :=
  let avail := if avail > bufferSize then bufferSize else avail
  let continuous := bufferSize - offset
  -- we can only copy frames if they are available and continuous
  let copyFrames := if frames > avail then avail else frames
  if copyFrames > continuous then continuous else copyFrames

/-- `pcm_mmap_begin`: the offset and the frames it grants. -/
def pcmMmapBegin (frames : UInt32) : PcmM σ (UInt32 × UInt32) := do
  -- the application offset in frames
  let applPtr := (← mmapControl ops).applPtr
  let bufferSize := (← get).pcm.bufferSize
  let offset := (applPtr % bufferSize.toUInt64).toUInt32
  let avail := CInt.toUInt (← pcmMmapAvail ops)
  return (offset, grantFrames bufferSize offset avail frames)

/-- `pcm_mmap_commit`. -/
def pcmMmapCommit (frames : UInt32) : PcmM σ Int := do
  -- update the application pointer in userspace and kernel
  pcmMmapApplForward ops (CInt.ofUInt frames)
  let ret ← pcmSyncPtr ops {}
  let ret := if ret ≠ 0 then ret else CInt.ofUInt frames
  record (.commit frames ret)
  return ret

/-! ## Copying -/

/-- The bytes of the ring. -/
def Pcm.ringBytes (pcm : Pcm) : Nat := (pcmFramesToBytes pcm pcm.bufferSize).toNat

/-- `memcpy(dst + dstOff, src + srcOff, size)`, as what the destination holds afterwards. -/
def copyBytes (dst : Nat → UInt8) (dstOff : Nat) (src : Nat → UInt8) (srcOff size : Nat) : Nat → UInt8 :=
  fun i => if dstOff ≤ i ∧ i < dstOff + size then src (srcOff + (i - dstOff)) else dst i

/-- The byte range lies in a buffer of this length. -/
def InBounds (length : Nat) (off size : Int) : Prop := 0 ≤ off ∧ 0 ≤ size ∧ off + size ≤ length

instance (length : Nat) (off size : Int) : Decidable (InBounds length off size) :=
  inferInstanceAs (Decidable (0 ≤ off ∧ 0 ≤ size ∧ off + size ≤ length))

/-- The two directions of the `memcpy` in `pcm_areas_copy`. -/
def ringCopy (pcmOff srcOff size : Nat) : PcmM σ Unit := modify fun w =>
  let dev := ops.run w.dev
  if w.pcm.isIn then
    { w with dev, user := { w.user with byte := copyBytes w.user.byte srcOff (ops.buffer dev) pcmOff size } }
  else { w with dev := ops.setBuffer (copyBytes (ops.buffer dev) pcmOff w.user.byte srcOff size) dev }

/-- `pcm_areas_copy`. A range outside the ring or the caller's buffer is a fault. -/
def pcmAreasCopy (pcmOffset srcOffset frames : UInt32) : PcmM σ Unit := do
  let w ← get
  let sizeBytes := CInt.ofUInt (pcmFramesToBytes w.pcm frames)
  let pcmOffsetBytes := CInt.ofUInt (pcmFramesToBytes w.pcm pcmOffset)
  let srcOffsetBytes := CInt.ofUInt (pcmFramesToBytes w.pcm srcOffset)
  record (.copy pcmOffset srcOffset frames)
  if InBounds w.pcm.ringBytes pcmOffsetBytes sizeBytes ∧ InBounds w.user.size srcOffsetBytes sizeBytes then
    ringCopy ops pcmOffsetBytes.toNat srcOffsetBytes.toNat sizeBytes.toNat
  else modify fun w => { w with fault := true }

/-- The loop of `pcm_mmap_transfer_areas`; `none` where it has not ended within `fuel` passes. -/
def transferAreasLoop : Nat → UInt32 → UInt32 → UInt32 → PcmM σ (Option Int)
  | 0, _, _, _ => return none
  | fuel + 1, offset, size, count => do
    if (← pcmMmapAvail ops) ≠ 0 ∧ size ≠ 0 then
      let (pcmOffset, frames) ← pcmMmapBegin ops size
      pcmAreasCopy ops pcmOffset offset frames
      let commit ← pcmMmapCommit ops frames
      if commit < 0 then
        let _ ← oops commit ("failed to commit " ++ toString (CInt.ofUInt frames) ++ " frames\n")
        return some commit
      else
        transferAreasLoop fuel (offset + CInt.toUInt commit) (size - CInt.toUInt commit) (count + CInt.toUInt commit)
    else return some (CInt.ofUInt count)

/-- `pcm_mmap_transfer_areas`. -/
def pcmMmapTransferAreas (fuel : Nat) (offset size : UInt32) : PcmM σ (Option Int) := do
  record .areas
  transferAreasLoop ops fuel offset size 0

end

end Tinyalsa
