/-
The parameter records of the PCM interface: sample formats, `struct pcm_config`, the masks and
intervals of `struct snd_pcm_hw_params`, `struct snd_pcm_sw_params`, and the accessors through
which pcm.c reads and writes them.
-/
import Tinyalsa.Errno
import Tinyalsa.Lib.CInt
import Mathlib.Data.Fintype.Basic
import Mathlib.Data.Fintype.Pi
import Mathlib.Logic.Function.Basic

namespace Tinyalsa

/-! ## Formats and configurations -/

/-- `enum pcm_format`. -/
inductive PcmFormat
  | invalid | s16Le | s32Le | s8 | s24Le | s24_3Le | s16Be | s24Be | s24_3Be | s32Be | floatLe | floatBe
  | max
  deriving DecidableEq, Repr

/-- `pcm_format_to_bits`. -/
def pcmFormatToBits : PcmFormat → UInt32
  | .s32Le | .s32Be | .s24Le | .s24Be | .floatLe | .floatBe => 32
  | .s24_3Le | .s24_3Be => 24
  | .s8 => 8
  | .s16Le | .s16Be | .invalid | .max => 16

/-- `pcm_format_to_alsa`: the index of `SNDRV_PCM_FORMAT_*`. -/
def pcmFormatToAlsa : PcmFormat → UInt32
  | .s8 => 0
  | .s16Le | .invalid | .max => 2
  | .s16Be => 3
  | .s24Le => 6
  | .s24Be => 7
  | .s32Le => 10
  | .s32Be => 11
  | .floatLe => 14
  | .floatBe => 15
  | .s24_3Le => 32
  | .s24_3Be => 33

/-- `struct pcm_config`. -/
structure PcmConfig where
  channels : UInt32
  rate : UInt32
  periodSize : UInt32
  periodCount : UInt32
  format : PcmFormat
  startThreshold : UInt64
  stopThreshold : UInt64
  silenceThreshold : UInt64
  silenceSize : UInt64
  availMin : UInt64
  deriving DecidableEq, Repr

/-- The bytes of one frame: `channels * (pcm_format_to_bits(format) >> 3)`, as an exact number. -/
def PcmConfig.frameBytes (c : PcmConfig) : Nat := c.channels.toNat * ((pcmFormatToBits c.format).toNat / 8)

/-! ## Hardware parameters -/

/-- The mask parameters, `SNDRV_PCM_HW_PARAM_FIRST_MASK` to `LAST_MASK`. -/
inductive MaskParam
  | access | format | subformat
  deriving DecidableEq, Repr

/-- The interval parameters, `SNDRV_PCM_HW_PARAM_FIRST_INTERVAL` to `LAST_INTERVAL`. -/
inductive IntervalParam
  | sampleBits | frameBits | channels | rate | periodTime | periodSize | periodBytes | periods
  | bufferTime | bufferSize | bufferBytes | tickTime
  deriving DecidableEq, Repr

instance : Fintype MaskParam where
  elems := {.access, .format, .subformat}
  complete := by rintro ⟨⟩ <;> decide

instance : Fintype IntervalParam where
  elems := {.sampleBits, .frameBits, .channels, .rate, .periodTime, .periodSize, .periodBytes, .periods,
    .bufferTime, .bufferSize, .bufferBytes, .tickTime}
  complete := by rintro ⟨⟩ <;> decide

/-- `SNDRV_PCM_HW_PARAM_*` of a mask. -/
def MaskParam.index : MaskParam → Nat
  | .access => 0
  | .format => 1
  | .subformat => 2

/-- `SNDRV_PCM_HW_PARAM_*` of an interval. -/
def IntervalParam.index : IntervalParam → Nat
  | .sampleBits => 8
  | .frameBits => 9
  | .channels => 10
  | .rate => 11
  | .periodTime => 12
  | .periodSize => 13
  | .periodBytes => 14
  | .periods => 15
  | .bufferTime => 16
  | .bufferSize => 17
  | .bufferBytes => 18
  | .tickTime => 19

/-- A mask has a first word. -/
instance maskWords_neZero : NeZero 8 := ⟨by decide⟩

/-- `struct snd_mask`: `SNDRV_MASK_MAX` bits in words of 32. -/
structure SndMask where
  bits : Fin 8 → UInt32 := fun _ => 0
  deriving DecidableEq

/-- Bit `i` of a mask. -/
def SndMask.test (m : SndMask) (i : Nat) : Bool :=
  if h : i / 32 < 8 then (m.bits ⟨i / 32, h⟩).toNat.testBit (i % 32) else false

/-- `struct snd_interval`. -/
structure SndInterval where
  min : UInt32 := 0
  max : UInt32 := 0
  openmin : Bool := false
  openmax : Bool := false
  integer : Bool := false
  deriving DecidableEq

/-- The numbers of an interval. -/
def SndInterval.Contains (i : SndInterval) (x : Nat) : Prop :=
  (if i.openmin then i.min.toNat < x else i.min.toNat ≤ x) ∧
    (if i.openmax then x < i.max.toNat else x ≤ i.max.toNat)

instance (i : SndInterval) (x : Nat) : Decidable (i.Contains x) := by unfold SndInterval.Contains; infer_instance

/-- `struct snd_pcm_hw_params`. -/
structure SndPcmHwParams where
  flags : UInt32 := 0
  masks : MaskParam → SndMask := fun _ => {}
  intervals : IntervalParam → SndInterval := fun _ => {}
  rmask : UInt32 := 0
  cmask : UInt32 := 0
  info : UInt32 := 0
  deriving DecidableEq

/-- `SNDRV_PCM_ACCESS_MMAP_INTERLEAVED`. -/
def accessMmapInterleaved : UInt32 := 0

/-- `SNDRV_PCM_ACCESS_RW_INTERLEAVED`. -/
def accessRwInterleaved : UInt32 := 3

/-- `SNDRV_PCM_HW_PARAMS_NO_PERIOD_WAKEUP`. -/
def hwParamsNoPeriodWakeup : UInt32 := (1 : UInt32) <<< 2

namespace SndPcmHwParams

variable (p : SndPcmHwParams)

/-- Replaces one mask. -/
def setMask (n : MaskParam) (m : SndMask) : SndPcmHwParams := { p with masks := Function.update p.masks n m }

/-- Replaces one interval. -/
def setInterval (n : IntervalParam) (i : SndInterval) : SndPcmHwParams :=
  { p with intervals := Function.update p.intervals n i }

end SndPcmHwParams

/-- `param_set_mask`. -/
def paramSetMask (p : SndPcmHwParams) (n : MaskParam) (bit : UInt32) : SndPcmHwParams :=
  if bit ≥ 256 then p
  else
    let m := (p.masks n).bits
    let m := Function.update m 0 0
    let m := Function.update m 1 0
    let word : Fin 8 := Fin.ofNat 8 (bit >>> 5).toNat
    p.setMask n { bits := Function.update m word (m word ||| (1 <<< (bit &&& 31))) }

/-- `param_set_min`. -/
def paramSetMin (p : SndPcmHwParams) (n : IntervalParam) (val : UInt32) : SndPcmHwParams :=
  p.setInterval n { p.intervals n with min := val }

/-- `param_get_min`. -/
def paramGetMin (p : SndPcmHwParams) (n : IntervalParam) : UInt32 := (p.intervals n).min

/-- `param_get_max`. -/
def paramGetMax (p : SndPcmHwParams) (n : IntervalParam) : UInt32 := (p.intervals n).max

/-- `param_set_int`. -/
def paramSetInt (p : SndPcmHwParams) (n : IntervalParam) (val : UInt32) : SndPcmHwParams :=
  p.setInterval n { p.intervals n with min := val, max := val, integer := true }

/-- `param_get_int`. -/
def paramGetInt (p : SndPcmHwParams) (n : IntervalParam) : UInt32 :=
  if (p.intervals n).integer then (p.intervals n).max else 0

/-- `param_init`. -/
def paramInit : SndPcmHwParams where
  masks := fun _ => { bits := fun w => if w.val < 2 then 0xffffffff else 0 }
  intervals := fun _ => { min := 0, max := 0xffffffff }
  rmask := 0xffffffff
  info := 0xffffffff

/-! ## Software parameters -/

/-- `struct snd_pcm_sw_params`. -/
structure SndPcmSwParams where
  tstampMode : Int := 0
  periodStep : UInt32 := 0
  sleepMin : UInt32 := 0
  availMin : UInt64 := 0
  xferAlign : UInt64 := 0
  startThreshold : UInt64 := 0
  stopThreshold : UInt64 := 0
  silenceThreshold : UInt64 := 0
  silenceSize : UInt64 := 0
  boundary : UInt64 := 0
  deriving DecidableEq, Repr

/-- `SNDRV_PCM_TSTAMP_ENABLE`. -/
def tstampEnable : Int := 1

end Tinyalsa
