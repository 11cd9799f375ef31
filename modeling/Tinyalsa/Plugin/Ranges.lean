/-
The ranges `pcm_plug_get_params` derives: which configurations of a plugin they admit, with the products of
`unsigned int` as they wrap.
-/
import Tinyalsa.Plugin.Params

namespace Tinyalsa

/-! ## Configurations -/

/-- A configuration of a plugin: the sample width in bits, the channels, the bytes of a period and the periods. -/
structure PlugConfig where
  bits : Nat
  channels : Nat
  periodBytes : Nat
  periods : Nat

namespace PlugConfig

variable (x : PlugConfig)

/-- The bits of a frame. -/
def frameBits : Nat := x.bits * x.channels

/-- The frames of a period. -/
def periodSize : Nat := 8 * x.periodBytes / x.frameBits

/-- The bytes of the buffer. -/
def bufferBytes : Nat := x.periodBytes * x.periods

/-- The frames of the buffer. -/
def bufferSize : Nat := 8 * (x.periodBytes * x.periods) / x.frameBits

/-- The value of a parameter in a configuration. -/
def value : IntervalParam → Option Nat
  | .sampleBits => some x.bits
  | .channels => some x.channels
  | .periodBytes => some x.periodBytes
  | .periods => some x.periods
  | .frameBits => some x.frameBits
  | .periodSize => some x.periodSize
  | .bufferBytes => some x.bufferBytes
  | .bufferSize => some x.bufferSize
  | _ => none

/-- The constraints admit a configuration: its values are in the registered ranges, and a period is a whole
number of frames. -/
structure Admissible (c : PcmPluginHwConstraints) : Prop where
  bits : c.bitWidth.Contains x.bits
  channels : c.channels.Contains x.channels
  periodBytes : c.periodBytes.Contains x.periodBytes
  periods : c.periods.Contains x.periods
  wholeFrames : x.frameBits ∣ 8 * x.periodBytes

/-- The advertised ranges are ranges, and hold the values of a configuration. -/
def Advertised (c : PcmPluginHwConstraints) : Prop :=
  ∃ params, pcmPlugGetParams c {} = some (0, params) ∧
    (∀ n v, x.value n = some v → (params.intervals n).Contains v) ∧
    ∀ n, (params.intervals n).min ≤ (params.intervals n).max

end PlugConfig

/-! ## The advertised intervals -/

section

variable (c : PcmPluginHwConstraints)

/-- The bits of the smallest frame. -/
def smallestFrame : Nat := c.bitWidth.min.toNat * c.channels.min.toNat

/-- The least and the greatest number of an advertised interval. -/
def advertisedBounds : IntervalParam → Nat × Nat
  | .sampleBits => (c.bitWidth.min.toNat, c.bitWidth.max.toNat)
  | .channels => (c.channels.min.toNat, c.channels.max.toNat)
  | .rate => (c.rate.min.toNat, c.rate.max.toNat)
  | .periodBytes => (c.periodBytes.min.toNat, c.periodBytes.max.toNat)
  | .periods => (c.periods.min.toNat, c.periods.max.toNat)
  | .frameBits => (smallestFrame c % 2 ^ 32, c.bitWidth.max.toNat * c.channels.max.toNat % 2 ^ 32)
  | .periodSize => (8 * c.periodBytes.min.toNat % 2 ^ 32 / (smallestFrame c % 2 ^ 32),
      8 * c.periodBytes.max.toNat % 2 ^ 32 / (smallestFrame c % 2 ^ 32))
  | .bufferBytes => (c.periodBytes.min.toNat * c.periods.min.toNat % 2 ^ 32,
      c.periodBytes.max.toNat * c.periods.max.toNat % 2 ^ 32)
  | .bufferSize => (8 * (c.periodBytes.min.toNat * c.periods.min.toNat) % 2 ^ 32 / (smallestFrame c % 2 ^ 32),
      8 * (c.periodBytes.max.toNat * c.periods.max.toNat) % 2 ^ 32 / (smallestFrame c % 2 ^ 32))
  | _ => (0, 0)

theorem toNat_bytesToFrames (size : UInt32) {frameBits : UInt32} (h : frameBits ≠ 0) :
    ∃ frames, pcmPlugBytesToFrames size frameBits = some frames ∧
      frames.toNat = 8 * size.toNat % 2 ^ 32 / frameBits.toNat := by
  unfold pcmPlugBytesToFrames
  rw [if_neg h]
  refine ⟨_, rfl, ?_⟩
  rw [UInt32.toNat_div, UInt32.toNat_mul, Nat.mul_comm]
  rfl

/-- Getting the ranges traps when the bits of the smallest frame wrap to zero. -/
theorem pcmPlugGetParams_trap (h : c.bitWidth.min * c.channels.min = 0) : pcmPlugGetParams c {} = none := by
  simp [pcmPlugGetParams, pcmPlugBytesToFrames, h]

/-- The intervals that are advertised are closed, with the bounds as computed. -/
theorem pcmPlugGetParams_bounds (h : c.bitWidth.min * c.channels.min ≠ 0) :
    ∃ params, pcmPlugGetParams c {} = some (0, params) ∧ ∀ n,
      ((params.intervals n).openmin = false ∧ (params.intervals n).openmax = false) ∧
      ((params.intervals n).min.toNat, (params.intervals n).max.toNat) = advertisedBounds c n := by
  obtain ⟨pmin, hpmin, hpmin'⟩ := toNat_bytesToFrames c.periodBytes.min h
  obtain ⟨pmax, hpmax, hpmax'⟩ := toNat_bytesToFrames c.periodBytes.max h
  obtain ⟨bmin, hbmin, hbmin'⟩ := toNat_bytesToFrames (c.periodBytes.min * c.periods.min) h
  obtain ⟨bmax, hbmax, hbmax'⟩ := toNat_bytesToFrames (c.periodBytes.max * c.periods.max) h
  simp only [UInt32.toNat_mul, Nat.mul_mod_mod] at hpmin' hpmax' hbmin' hbmax'
  simp only [pcmPlugGetParams, hpmin, hpmax, hbmin, hbmax, Option.bind_eq_bind, Option.bind_some, Option.pure_def]
  refine ⟨_, rfl, fun n => ⟨?_, ?_⟩⟩
  · cases n <;> exact ⟨rfl, rfl⟩
  · cases n <;> simp [pcmPlugSetInterval, pcmPlugCopyParams, pcmPlugSetMask, SndPcmHwParams.setInterval,
      SndPcmHwParams.setMask, advertisedBounds, smallestFrame, *]

end

/-! ## The configurations that are advertised -/

/-- The greatest bounds, as the products wrap, reach the values of a configuration. -/
structure RoomAbove (c : PcmPluginHwConstraints) (x : PlugConfig) : Prop where
  frameBits : x.frameBits ≤ c.bitWidth.max.toNat * c.channels.max.toNat % 2 ^ 32
  periodSize : x.periodSize * smallestFrame c ≤ 8 * c.periodBytes.max.toNat % 2 ^ 32
  bufferBytes : x.bufferBytes ≤ c.periodBytes.max.toNat * c.periods.max.toNat % 2 ^ 32
  bufferSize : x.bufferSize * smallestFrame c ≤ 8 * (c.periodBytes.max.toNat * c.periods.max.toNat) % 2 ^ 32

/-- The shortest period and buffer, counted in frames of the smallest size, are no longer than those of a
configuration in its own frames. -/
structure RoomBelow (c : PcmPluginHwConstraints) (x : PlugConfig) : Prop where
  periodSize : 8 * c.periodBytes.min.toNat % 2 ^ 32 < (x.periodSize + 1) * smallestFrame c
  bufferSize : 8 * (c.periodBytes.min.toNat * c.periods.min.toNat) % 2 ^ 32 < (x.bufferSize + 1) * smallestFrame c

section

variable {c : PcmPluginHwConstraints} {x : PlugConfig}

/-- The sizes of a configuration lie between those of the smallest and the largest. -/
theorem PlugConfig.Admissible.frameBits (hx : x.Admissible c) :
    smallestFrame c ≤ x.frameBits ∧ x.frameBits ≤ c.bitWidth.max.toNat * c.channels.max.toNat :=
  ⟨Nat.mul_le_mul hx.bits.1 hx.channels.1, Nat.mul_le_mul hx.bits.2 hx.channels.2⟩

theorem PlugConfig.Admissible.bufferBytes (hx : x.Admissible c) :
    c.periodBytes.min.toNat * c.periods.min.toNat ≤ x.bufferBytes ∧
      x.bufferBytes ≤ c.periodBytes.max.toNat * c.periods.max.toNat :=
  ⟨Nat.mul_le_mul hx.periodBytes.1 hx.periods.1, Nat.mul_le_mul hx.periodBytes.2 hx.periods.2⟩

theorem smallestFrame_pos (hc : ∀ n v, c.range n = some v → 0 < v.min ∧ v.min ≤ v.max) : 0 < smallestFrame c := by
  have hbits := (hc .sampleBits _ rfl).1
  have hchannels := (hc .channels _ rfl).1
  rw [UInt32.lt_iff_toNat_lt] at hbits hchannels
  exact Nat.mul_pos hbits hchannels

/-- A bound that is a quotient by the smallest frame, against a number of frames. -/
theorem advertised_sizes_iff (hpos : 0 < smallestFrame c) (lo hi size : Nat) :
    lo / smallestFrame c ≤ size ∧ size ≤ hi / smallestFrame c ↔
      lo < (size + 1) * smallestFrame c ∧ size * smallestFrame c ≤ hi := by
  rw [← Nat.lt_succ_iff, Nat.div_lt_iff_lt_mul hpos, Nat.le_div_iff_mul_le hpos]

/-- Where no product wraps, there is room above every configuration. -/
theorem roomAbove_of_unwrapped (hx : x.Admissible c) (hframe : c.bitWidth.max.toNat * c.channels.max.toNat < 2 ^ 32)
    (hperiod : 8 * c.periodBytes.max.toNat < 2 ^ 32)
    (hbuffer : 8 * (c.periodBytes.max.toNat * c.periods.max.toNat) < 2 ^ 32) : RoomAbove c x := by
  have hbytes := hx.bufferBytes.2
  refine ⟨?_, ?_, ?_, ?_⟩
  · rw [Nat.mod_eq_of_lt hframe]
    exact hx.frameBits.2
  · rw [Nat.mod_eq_of_lt hperiod]
    calc x.periodSize * smallestFrame c
        ≤ x.periodSize * x.frameBits := Nat.mul_le_mul_left _ hx.frameBits.1
      _ ≤ 8 * x.periodBytes := Nat.div_mul_le_self _ _
      _ ≤ 8 * c.periodBytes.max.toNat := Nat.mul_le_mul_left _ hx.periodBytes.2
  · rw [Nat.mod_eq_of_lt (by omega)]
    exact hbytes
  · rw [Nat.mod_eq_of_lt hbuffer]
    calc x.bufferSize * smallestFrame c
        ≤ x.bufferSize * x.frameBits := Nat.mul_le_mul_left _ hx.frameBits.1
      _ ≤ 8 * (x.periodBytes * x.periods) := Nat.div_mul_le_self _ _
      _ ≤ 8 * (c.periodBytes.max.toNat * c.periods.max.toNat) := Nat.mul_le_mul_left _ hbytes

/-- There is room below a configuration of the smallest frames. -/
theorem roomBelow_of_smallest (hx : x.Admissible c) (hpos : 0 < smallestFrame c) (h : x.frameBits = smallestFrame c) :
    RoomBelow c x := by
  have hlt : ∀ least own : Nat, least ≤ own → least % 2 ^ 32 < (own / x.frameBits + 1) * smallestFrame c := by
    intro least own hle
    rw [h]
    calc least % 2 ^ 32 ≤ own := (Nat.mod_le _ _).trans hle
      _ < (own / smallestFrame c + 1) * smallestFrame c := by
        rw [Nat.mul_comm]
        exact Nat.lt_mul_div_succ own hpos
  exact ⟨hlt _ _ (Nat.mul_le_mul_left _ hx.periodBytes.1), hlt _ _ (Nat.mul_le_mul_left _ hx.bufferBytes.1)⟩

/-- What is advertised, in terms of the bounds. -/
theorem advertised_iff_bounds (h : c.bitWidth.min * c.channels.min ≠ 0) :
    x.Advertised c ↔
      (∀ n v, x.value n = some v → (advertisedBounds c n).1 ≤ v ∧ v ≤ (advertisedBounds c n).2) ∧
        ∀ n, (advertisedBounds c n).1 ≤ (advertisedBounds c n).2 := by
  obtain ⟨params, hget, hbounds⟩ := pcmPlugGetParams_bounds c h
  have hcontains : ∀ n v, (params.intervals n).Contains v ↔
      (advertisedBounds c n).1 ≤ v ∧ v ≤ (advertisedBounds c n).2 := by
    intro n v
    obtain ⟨⟨hmin, hmax⟩, heq⟩ := hbounds n
    rw [← heq, SndInterval.Contains, hmin, hmax]
    exact Iff.rfl
  have hrange : ∀ n, (params.intervals n).min ≤ (params.intervals n).max ↔
      (advertisedBounds c n).1 ≤ (advertisedBounds c n).2 := by
    intro n
    rw [← (hbounds n).2, UInt32.le_iff_toNat_le]
  constructor
  · rintro ⟨params', hget', hvalues, hranges⟩
    rw [hget] at hget'
    obtain rfl : params = params' := (Prod.mk.inj (Option.some.inj hget')).2
    exact ⟨fun n v hv => (hcontains n v).1 (hvalues n v hv), fun n => (hrange n).1 (hranges n)⟩
  · rintro ⟨hvalues, hranges⟩
    exact ⟨params, hget, fun n v hv => (hcontains n v).2 (hvalues n v hv), fun n => (hrange n).2 (hranges n)⟩

/-- The advertised ranges hold an admissible configuration just when there is room below and above. -/
theorem advertised_iff (hc : ∀ n v, c.range n = some v → 0 < v.min ∧ v.min ≤ v.max) (hx : x.Admissible c) :
    x.Advertised c ↔ RoomBelow c x ∧ RoomAbove c x := by
  have hpos := smallestFrame_pos hc
  have hproduct : (c.bitWidth.min * c.channels.min).toNat = smallestFrame c % 2 ^ 32 := UInt32.toNat_mul _ _
  have hsmallest := hx.frameBits.1
  constructor
  · intro h
    have hne : c.bitWidth.min * c.channels.min ≠ 0 := by
      intro h0
      obtain ⟨params, hget, -⟩ := h
      rw [pcmPlugGetParams_trap c h0] at hget
      cases hget
    obtain ⟨hvalues, -⟩ := (advertised_iff_bounds hne).1 h
    have hframe : x.frameBits ≤ c.bitWidth.max.toNat * c.channels.max.toNat % 2 ^ 32 := (hvalues .frameBits _ rfl).2
    -- the smallest frame does not wrap, since this one does not
    have hunwrapped : smallestFrame c % 2 ^ 32 = smallestFrame c := by
      refine Nat.mod_eq_of_lt ?_
      have := Nat.mod_lt (c.bitWidth.max.toNat * c.channels.max.toNat) (Nat.two_pow_pos 32)
      omega
    have hperiod := hvalues .periodSize _ rfl
    have hbuffer := hvalues .bufferSize _ rfl
    simp only [advertisedBounds, hunwrapped, advertised_sizes_iff hpos] at hperiod hbuffer
    exact ⟨⟨hperiod.1, hbuffer.1⟩, hframe, hperiod.2, (hvalues .bufferBytes _ rfl).2, hbuffer.2⟩
  · rintro ⟨hbelow, habove⟩
    have hunwrapped : smallestFrame c % 2 ^ 32 = smallestFrame c := by
      refine Nat.mod_eq_of_lt ?_
      have := Nat.mod_lt (c.bitWidth.max.toNat * c.channels.max.toNat) (Nat.two_pow_pos 32)
      have := habove.frameBits
      omega
    have hne : c.bitWidth.min * c.channels.min ≠ 0 := by
      intro h0
      rw [h0, hunwrapped] at hproduct
      exact absurd hproduct.symm hpos.ne'
    have hvalues : ∀ n v, x.value n = some v → (advertisedBounds c n).1 ≤ v ∧ v ≤ (advertisedBounds c n).2 := by
      intro n v hv
      cases n <;> simp only [PlugConfig.value, reduceCtorEq, Option.some.injEq] at hv <;> subst hv <;>
        simp only [advertisedBounds, hunwrapped, advertised_sizes_iff hpos]
      · exact hx.bits
      · exact ⟨hsmallest, habove.frameBits⟩
      · exact hx.channels
      · exact ⟨hbelow.periodSize, habove.periodSize⟩
      · exact hx.periodBytes
      · exact hx.periods
      · exact ⟨hbelow.bufferSize, habove.bufferSize⟩
      · exact ⟨(Nat.mod_le _ _).trans hx.bufferBytes.1, habove.bufferBytes⟩
    refine (advertised_iff_bounds hne).2 ⟨hvalues, fun n => ?_⟩
    cases hv : x.value n with
    | some v => exact (hvalues n v hv).1.trans (hvalues n v hv).2
    | none =>
      cases n <;> simp only [PlugConfig.value, reduceCtorEq] at hv
      · exact UInt32.le_iff_toNat_le.1 (hc .rate _ rfl).2
      all_goals exact le_rfl

/-- In 16-bit stereo with periods of 512 frames. -/
theorem advertised_stereo : (PlugConfig.mk 16 2 2048 2).Advertised stereoConstraints :=
  (advertised_iff stereoConstraints_wf.ranges ⟨by decide, by decide, by decide, by decide, by decide⟩).2
    ⟨⟨by decide, by decide⟩, ⟨by decide, by decide, by decide, by decide⟩⟩

/-- The shortest period of the widest frames is below the advertised range. -/
theorem not_advertised_stereo :
    (∀ n v, stereoConstraints.range n = some v → 0 < v.min ∧ v.min ≤ v.max) ∧
      (PlugConfig.mk 16 2 1024 2).Admissible stereoConstraints ∧
      ¬ (PlugConfig.mk 16 2 1024 2).Advertised stereoConstraints := by
  refine ⟨stereoConstraints_wf.ranges, ⟨by decide, by decide, by decide, by decide, by decide⟩, ?_⟩
  rintro ⟨params, hget, hvalues, -⟩
  have hmin : (pcmPlugGetParams stereoConstraints {}).map (fun r => (r.2.intervals .periodSize).min) = some 512 := by
    decide
  have hopen : (pcmPlugGetParams stereoConstraints {}).map (fun r => (r.2.intervals .periodSize).openmin) =
    some false := by
    decide
  rw [hget, Option.map_some, Option.some.injEq] at hmin hopen
  have hsize := (hvalues .periodSize 256 (by decide)).1
  rw [hopen] at hsize
  simp only [Bool.false_eq_true, if_false] at hsize
  have h512 : (params.intervals .periodSize).min.toNat = 512 := congrArg UInt32.toNat hmin
  omega

end

end Tinyalsa
