/-
The formats of a plugin: what `pcm_params_format_test` tells a client of them, against the format mask that the plugin
is handed for a configuration.
-/
import Tinyalsa.Pcm.Config
import Tinyalsa.Pcm.ParamsText
import Tinyalsa.Plugin.Refine

namespace Tinyalsa

/-! ## Testing a format -/

/-- `pcm_params_format_test`; without parameters it dereferences NULL, unless the format is not recognized. -/
def pcmParamsFormatTest (params : Option SndPcmHwParams) (format : PcmFormat) : Option Bool :=
  let alsaFormat := pcmFormatToAlsa format
  -- caution: format not recognized is equivalent to S16_LE
  if alsaFormat = pcmFormatToAlsa .s16Le ∧ format ≠ .s16Le then some false
  else (pcmParamsGetMask params .format).map fun m => pcmMaskTest m alsaFormat

/-- The formats that `pcm_format_to_alsa` has a case for. -/
def PcmFormat.recognized (format : PcmFormat) : Bool := format ≠ .invalid ∧ format ≠ .max

/-- The plugin registers a format, by its bit. -/
def PcmPluginHwConstraints.registers (c : PcmPluginHwConstraints) (format : PcmFormat) : Bool :=
  c.format.toNat.testBit (pcmFormatToAlsa format).toNat

/-- What a client is told of the formats of a plugin, and what the plugin is asked for. -/
structure FormatsTold {π : Type} (ops : PcmPluginOps π) (plugin : PcmPlugin π) : Prop where
  /-- Of the parameters that `HW_REFINE` answers `pcm_params_get` with, the test admits what the plugin registers. -/
  told : ∀ params, pcmPlugHrefine plugin.constraints paramInit = some (0, params) → ∀ format,
    pcmParamsFormatTest (some params) format = some (format.recognized && plugin.constraints.registers format)
  /-- The plugin is asked for every configuration: with the format alone, or with none where it does not register it. -/
  handed : plugin.state = .opened → ∀ pcm config rc params plugin',
    pcmPlugHparams ops (hwRequest pcm config) plugin = some (rc, params, plugin') →
    ∃ handed, plugin'.calls = .hwParams handed rc :: plugin.calls ∧ ∀ i, (handed.masks .format).test i =
      (i = (pcmFormatToAlsa config.format).toNat && plugin.constraints.registers config.format)

/-! ## Masks -/

/-- The word of a bit. -/
theorem toNat_shiftRight_five (bit : UInt32) : (bit >>> 5).toNat = bit.toNat / 32 := by
  rw [UInt32.toNat_shiftRight, Nat.shiftRight_eq_div_pow]
  rfl

/-- The place of a bit in its word. -/
theorem toNat_and_thirtyOne (bit : UInt32) : (bit &&& 31).toNat = bit.toNat % 32 := by
  rw [UInt32.toNat_and]
  exact Nat.and_two_pow_sub_one_eq_mod bit.toNat 5

/-- The test of a bit, as the code does it. -/
theorem pcmMaskTest_eq (m : SndMask) (index : UInt32) : pcmMaskTest m index = m.test index.toNat := by
  have helement := toNat_shiftRight_five index
  have hbit := toNat_and_thirtyOne index
  have htest : ∀ x : UInt32, decide ((x >>> (index &&& 31)) &&& 1 ≠ 0) = x.toNat.testBit (index.toNat % 32) := by
    intro x
    have hlt : index.toNat % 32 < 32 := Nat.mod_lt _ (by decide)
    rw [Nat.testBit, ← hbit, Bool.eq_iff_iff, decide_eq_true_iff, bne_iff_ne, ne_eq, ne_eq, ← UInt32.toNat_inj,
      UInt32.toNat_and, UInt32.toNat_shiftRight, hbit, Nat.mod_eq_of_lt hlt, Nat.and_comm]
    rfl
  unfold pcmMaskTest SndMask.test
  by_cases h : index.toNat / 32 < 8
  · have hfin : (⟨(index >>> 5).toNat, by rwa [helement]⟩ : Fin 8) = ⟨index.toNat / 32, h⟩ := Fin.ext helement
    rw [dif_pos (by rwa [helement]), dif_pos h, hfin, htest]
  · rw [dif_neg (by rwa [helement]), dif_neg h]

theorem PcmFormat.alsa_lt (format : PcmFormat) : (pcmFormatToAlsa format).toNat < 64 := by
  cases format <;> decide

section

variable {c : PcmPluginHwConstraints} {req con : SndMask} {p q : SndPcmHwParams} {i : Nat}

theorem refineMask_test (hi : i < 64) : (refineMask req con).test i = (req.test i && con.test i) := by
  have hword : i / 32 < 8 := by omega
  unfold SndMask.test
  rw [dif_pos hword, dif_pos hword, dif_pos hword, refineMask_word (show i / 32 < 2 by omega), UInt32.toNat_and,
    Nat.testBit_and]

theorem refineMask_test_ge (hi : 64 ≤ i) : (refineMask req con).test i = req.test i := by
  unfold SndMask.test refineMask
  split
  · rename_i h
    have h0 : (⟨i / 32, h⟩ : Fin 8) ≠ 0 := fun he => by
      have := congrArg Fin.val he
      simp only [Fin.val_zero] at this
      omega
    have h1 : (⟨i / 32, h⟩ : Fin 8) ≠ 1 := fun he => by
      have := congrArg Fin.val he
      simp only [Fin.val_one] at this
      omega
    dsimp only
    rw [Function.update_of_ne h1, Function.update_of_ne h0]
  · rfl

theorem pcmPlugGetParams_words {rc : Int} (h : pcmPlugGetParams c {} = some (rc, p)) :
    (p.masks .format).bits 0 = (c.format &&& 0xFFFFFFFF).toUInt32 ∧
      (p.masks .format).bits 1 = ((c.format >>> 32) &&& 0xFFFFFFFF).toUInt32 := by
  simp only [pcmPlugGetParams, Option.bind_eq_bind, Option.bind_eq_some_iff, Option.pure_def, Option.some.injEq,
    Prod.mk.injEq] at h
  obtain ⟨_, -, _, -, _, -, _, -, rfl, rfl⟩ := h
  simp [pcmPlugCopyParams, pcmPlugSetMask]

/-- The format mask of a plugin has the registered bits. -/
theorem pcmPlugGetParams_format {rc : Int} (h : pcmPlugGetParams c {} = some (rc, p)) (hi : i < 64) :
    (p.masks .format).test i = c.format.toNat.testBit i := by
  obtain ⟨h0, h1⟩ := pcmPlugGetParams_words h
  have hmask : ∀ n : Nat, n &&& 0xFFFFFFFF = n % 2 ^ 32 := fun n => Nat.and_two_pow_sub_one_eq_mod n 32
  have hlow : ((p.masks .format).bits 0).toNat = c.format.toNat % 2 ^ 32 := by
    rw [h0, UInt64.toNat_toUInt32, UInt64.toNat_and]
    exact (congrArg (· % 2 ^ 32) (hmask _)).trans (Nat.mod_mod _ _)
  have hhigh : ((p.masks .format).bits 1).toNat = c.format.toNat / 2 ^ 32 := by
    have hlt : c.format.toNat / 2 ^ 32 < 2 ^ 32 := Nat.div_lt_of_lt_mul c.format.toNat_lt
    rw [h1, UInt64.toNat_toUInt32, UInt64.toNat_and, UInt64.toNat_shiftRight, Nat.shiftRight_eq_div_pow]
    refine (congrArg (· % 2 ^ 32) (hmask _)).trans ?_
    rw [Nat.mod_mod]
    exact Nat.mod_eq_of_lt hlt
  have hcases : i / 32 = 0 ∨ i / 32 = 1 := by omega
  unfold SndMask.test
  rw [dif_pos (show i / 32 < 8 by omega)]
  rcases hcases with hword | hword
  · have hfin : (⟨i / 32, by omega⟩ : Fin 8) = 0 := Fin.ext hword
    rw [hfin, hlow, Nat.testBit_mod_two_pow]
    simp [Nat.mod_eq_of_lt (show i < 32 by omega), show i < 32 by omega]
  · have hfin : (⟨i / 32, by omega⟩ : Fin 8) = 1 := Fin.ext hword
    rw [hfin, hhigh, Nat.testBit_div_two_pow]
    congr 1
    omega

/-- A refined request has the formats that were requested and registered. -/
theorem pcmPlugHrefine_format {rc : Int} (hreq : requestedBit p MaskParam.format.index)
    (h : pcmPlugHrefine c p = some (rc, q)) : (q.masks .format).test i =
      ((p.masks .format).test i && (64 ≤ i || c.format.toNat.testBit i)) := by
  simp only [pcmPlugHrefine, Option.bind_eq_bind, Option.bind_eq_some_iff] at h
  obtain ⟨⟨rc', con⟩, hcon, h⟩ := h
  obtain ⟨rfl, -⟩ := pcmPlugGetParams_subformat hcon
  simp only [ne_eq, not_true_eq_false, if_false, Option.pure_def, Option.some.injEq] at h
  have hmask := (pcmPlugHwParamsRefine_spec p con).1 .format
  rw [if_pos hreq, h] at hmask
  rw [hmask]
  by_cases hi : i < 64
  · rw [refineMask_test hi, pcmPlugGetParams_format hcon hi]
    rw [decide_eq_false (show ¬ 64 ≤ i by omega), Bool.false_or]
  · rw [refineMask_test_ge (by omega), decide_eq_true (show 64 ≤ i by omega), Bool.true_or, Bool.and_true]

end

/-- A mask that one bit was set in, below the first 64. -/
theorem paramSetMask_test (p : SndPcmHwParams) (n : MaskParam) {bit : UInt32} (hbit : bit.toNat < 64)
    (hclear : ∀ w : Fin 8, 2 ≤ w.val → (p.masks n).bits w = 0) (i : Nat) :
    ((paramSetMask p n bit).masks n).test i = decide (i = bit.toNat) := by
  have hword : (Fin.ofNat 8 (bit >>> 5).toNat).val = bit.toNat / 32 := by
    rw [Fin.val_ofNat, toNat_shiftRight_five]
    omega
  have hval : ((1 : UInt32) <<< (bit &&& 31)).toNat = 2 ^ (bit.toNat % 32) := by
    have hlt : bit.toNat % 32 < 32 := Nat.mod_lt _ (by decide)
    rw [UInt32.toNat_shiftLeft, toNat_and_thirtyOne, Nat.mod_eq_of_lt hlt, UInt32.toNat_one, Nat.one_shiftLeft]
    exact Nat.mod_eq_of_lt (Nat.pow_lt_pow_right (by decide) hlt)
  -- the first two words are cleared before the bit is set, and the others are clear
  have hbits : ∀ w : Fin 8, ((paramSetMask p n bit).masks n).bits w =
      if w.val = bit.toNat / 32 then 1 <<< (bit &&& 31) else 0 := by
    intro w
    have hcleared : ∀ w, Function.update (Function.update (p.masks n).bits 0 0) 1 0 w = 0 := by
      intro w
      by_cases h1 : w = 1
      · rw [h1, Function.update_self]
      by_cases h0 : w = 0
      · rw [Function.update_of_ne h1, h0, Function.update_self]
      rw [Function.update_of_ne h1, Function.update_of_ne h0]
      exact hclear w (by omega)
    have hsmall : ¬ bit ≥ 256 := fun hge => absurd (UInt32.le_iff_toNat_le.1 hge) (by
      simp only [UInt32.reduceToNat]
      omega)
    unfold paramSetMask
    rw [if_neg hsmall, setMask_masks, Function.update_self]
    dsimp only
    by_cases hw : w = Fin.ofNat 8 (bit >>> 5).toNat
    · rw [hw, Function.update_self, hcleared, UInt32.zero_or, if_pos hword]
    · rw [Function.update_of_ne hw, hcleared, if_neg fun h => hw (Fin.ext (h.trans hword.symm))]
  unfold SndMask.test
  by_cases hi : i / 32 = bit.toNat / 32
  · rw [dif_pos (by omega), hbits, if_pos hi, hval, Nat.testBit_two_pow]
    exact decide_eq_decide.2 (by omega)
  · have hne : i ≠ bit.toNat := fun he => hi (by rw [he])
    rw [decide_eq_false hne]
    split
    · rw [hbits, if_neg hi]
      exact Nat.zero_testBit _
    · rfl

/-- The format mask of a request. -/
theorem hwRequest_format (pcm : Pcm) (config : PcmConfig) (i : Nat) :
    ((hwRequest pcm config).masks .format).test i = decide (i = (pcmFormatToAlsa config.format).toNat) := by
  have haccess : ∀ (p : SndPcmHwParams) bit, (paramSetMask p .access bit).masks .format = p.masks .format := by
    intro p bit
    unfold paramSetMask
    split
    · rfl
    · rw [setMask_masks]
      exact Function.update_of_ne (by decide) _ _
  have hmasks : (hwRequest pcm config).masks .format =
      (paramSetMask paramInit .format (pcmFormatToAlsa config.format)).masks .format := by
    unfold hwRequest
    rw [haccess]
    split <;> rfl
  rw [hmasks]
  exact paramSetMask_test _ _ config.format.alsa_lt (fun w hw => if_neg (by omega)) i

/-- The formats without a case are those that are taken for `S16_LE`. -/
theorem PcmFormat.recognized_eq (format : PcmFormat) :
    format.recognized = !decide (pcmFormatToAlsa format = pcmFormatToAlsa .s16Le ∧ format ≠ .s16Le) := by
  cases format <;> decide

/-- What the test of a format comes to. -/
theorem pcmParamsFormatTest_eq (params : SndPcmHwParams) (format : PcmFormat) :
    pcmParamsFormatTest (some params) format =
      some (format.recognized && (params.masks .format).test (pcmFormatToAlsa format).toNat) := by
  unfold pcmParamsFormatTest
  rw [format.recognized_eq, ← pcmMaskTest_eq]
  dsimp only
  split <;> rename_i hunknown
  · rw [decide_eq_true hunknown]
    rfl
  · rw [decide_eq_false hunknown]
    rfl

/-- Every client that asks for all formats is answered with those that are registered. -/
theorem pcmPlugHrefine_paramInit {c : PcmPluginHwConstraints} {params : SndPcmHwParams}
    (h : pcmPlugHrefine c paramInit = some (0, params)) {i : Nat} (hi : i < 64) :
    (params.masks .format).test i = c.format.toNat.testBit i := by
  have hfull : ∀ i < 64, (paramInit.masks .format).test i = true := by decide
  rw [pcmPlugHrefine_format (by decide) h, hfull i hi, decide_eq_false (Nat.not_le.2 hi), Bool.true_and, Bool.false_or]

end Tinyalsa
