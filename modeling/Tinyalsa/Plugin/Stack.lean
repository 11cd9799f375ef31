/-
The whole library on a plugin: what the plugin sees of `pcm_open`, of any calls on the handle and of
`pcm_close`. What each function of the backend keeps holds over the life of a handle, so the guards of
the plugin layer are promises to the plugin, whatever the library's caller does.
-/
import Tinyalsa.Pcm.Errors
import Tinyalsa.Pcm.Open
import Tinyalsa.Pcm.Timestamp
import Tinyalsa.Plugin.Protocol

namespace Tinyalsa

open Hoare

/-! ## The life of a handle -/

section

variable {σ : Type} (ops : PcmOps σ)

/-- A call on an opened handle. -/
inductive HandleCall
  | api (c : PcmApi)
  | operation (op : PcmOperation)
  | wait (fuel : Nat) (timeout : Int)
  | getHtimestamp (fuel : Nat) (avail : UInt32) (tstamp : Timespec)

/-- The call, without its result. -/
def HandleCall.call : HandleCall → PcmM σ Unit
  | .api c => c.call ops
  | .operation op => do let _ ← op.call ops
  | .wait fuel timeout => do let _ ← pcmWait ops fuel timeout
  | .getHtimestamp fuel avail tstamp => do let _ ← pcmGetHtimestamp ops fuel avail tstamp

/-- What may happen before a call: the device acts on its own, and the caller fills its buffer. -/
def beforeCall (user : UserBuf) (w : World σ) : World σ := { w.setDev (ops.run w.dev) with user }

/-- Any calls on a handle, one after the other. -/
inductive HandleRun (w : World σ) : World σ → Prop
  | start : HandleRun w w
  | call {w' : World σ} (h : HandleRun w w') (user : UserBuf) (c : HandleCall) :
      HandleRun w (exec (c.call ops) (beforeCall ops user w')).2

/-- The states of a handle: `pcm_open` fails; or it hands the handle out, calls are made on it, and it is closed. -/
inductive HandleLife (memory : Bool) (config : Option PcmConfig) (w : World σ) : World σ → Prop
  | failed (h : (exec (pcmSetUp ops memory config) w).1.isSome) :
      HandleLife memory config w (exec (pcmSetUp ops memory config) w).2
  | used {w' : World σ} (h : (exec (pcmSetUp ops memory config) w).1 = none)
      (hrun : HandleRun ops (exec (pcmSetUp ops memory config) w).2 w') : HandleLife memory config w w'
  | closed {w' : World σ} (h : (exec (pcmSetUp ops memory config) w).1 = none)
      (hrun : HandleRun ops (exec (pcmSetUp ops memory config) w).2 w') (user : UserBuf) :
      HandleLife memory config w (exec (pcmTearDown ops) (beforeCall ops user w')).2

/-! ## What the backend keeps -/

/-- A property of the device that each function of the backend keeps. -/
structure DevInvariant (P : σ → Prop) : Prop where
  hwParams : ∀ p d, P d → P (ops.hwParams p d).2.2
  swParams : ∀ p d, P d → P (ops.swParams p d).2.2
  syncPtr : ∀ s d, P d → P (ops.syncPtr s d).2.2
  cmd : ∀ c d, P d → P (ops.cmd c d).2
  xfer : ∀ write n user d, P d → P (ops.xfer write n user d).2.2.2
  link : ∀ fd d, P d → P (ops.link fd d).2
  delay : ∀ t d, P d → P (ops.delay t d).2.2
  info : ∀ d, P d → P (ops.info d).2.2
  ttstamp : ∀ t d, P d → P (ops.ttstamp t d).2.2
  poll : ∀ t d, P d → P (ops.poll t d).2.2
  mmap : ∀ offset n d, P d → P (ops.mmap offset n d).2.2
  munmap : ∀ addr n d, P d → P (ops.munmap addr n d).2
  run : ∀ d, P d → P (ops.run d)
  setControl : ∀ c d, P d → P (ops.setControl c d)
  setBuffer : ∀ b d, P d → P (ops.setBuffer b d)

end

namespace DevInvariant

open KeepsPcm

variable {σ : Type} {ops : PcmOps σ} {P : σ → Prop}

theorem oops (e : Int) (text : String) : KeepsPcm (fun w => P w.dev) (oops (σ := σ) e text) := fun _ hw => hw

theorem modifyPcm (f : Pcm → Pcm) : KeepsPcm (fun w => P w.dev) (modifyPcm (σ := σ) f) := fun _ hw => hw

variable (h : DevInvariant ops P)

include h

/-- It is kept by every primitive of the library. -/
theorem pcmInvariant : PcmInvariant ops fun w => P w.dev where
  handle _ _ _ hw := hw
  caller _ _ _ _ hw := hw
  run w hw := h.run w.dev hw
  setBuffer w b hw := h.setBuffer b w.dev hw
  cmd w c hw := h.cmd c w.dev hw
  sync w s flags _ hw := h.syncPtr { s with flags } w.dev hw
  forward w frames hw := by
    unfold pcmMmapApplForward mmapControl setApplPtr
    cases hs : w.pcm.syncPtr with
    | none => simpa [hs] using h.setControl _ _ (h.run _ (h.run _ hw))
    | some s => simpa [hs] using hw
  hwParams w p hw := h.hwParams p w.dev hw
  swParams w p hw := h.swParams p w.dev hw
  mmap w offset n hw := h.mmap offset n w.dev hw
  poll w t hw := h.poll t w.dev hw
  rwTransfer w n hw := h.xfer (!w.pcm.isIn) n w.user w.dev hw
  mark _ _ _ hw := hw

theorem ioctl (c : PcmCmd) : KeepsPcm (fun w => P w.dev) (ioctl ops c) := fun w hw => h.cmd c w.dev hw

theorem opsMmap (offset : MmapOffset) (n : Nat) : KeepsPcm (fun w => P w.dev) (opsMmap ops offset n) :=
  fun w hw => h.mmap offset n w.dev hw

theorem opsMunmap (addr : MapAddr) (n : Nat) : KeepsPcm (fun w => P w.dev) (opsMunmap ops addr n) :=
  fun w hw => h.munmap addr n w.dev hw

/-! ### Calls -/

theorem pcmLink (fd : Int) : KeepsPcm (fun w => P w.dev) (pcmLink ops fd) := by
  have hioctl : KeepsPcm (fun w => P w.dev) (ioctlLink ops fd) := fun w hw => h.link fd w.dev hw
  exact Triple.bind hioctl fun _ => Triple.ite (fun _ => Triple.bind get fun _ => oops _ _) fun _ => pure _

theorem pcmUnlink : KeepsPcm (fun w => P w.dev) (pcmUnlink ops) :=
  Triple.bind (h.ioctl _) fun _ => Triple.ite (fun _ => Triple.bind get fun _ => oops _ _) fun _ => pure _

theorem pcmGetDelay : KeepsPcm (fun w => P w.dev) (pcmGetDelay ops) := by
  have hioctl : KeepsPcm (fun w => P w.dev) (ioctlDelay ops) := fun w hw => h.delay w.pcm.pcmDelay w.dev hw
  exact Triple.bind hioctl fun _ => Triple.ite (fun _ => pure _) fun _ => Triple.bind get fun _ => pure _

theorem pcmDrain : KeepsPcm (fun w => P w.dev) (pcmDrain ops) :=
  Triple.bind get fun _ => Triple.ite (fun _ => pure _) fun _ => Triple.bind (h.ioctl _) fun _ =>
    Triple.ite (fun _ => Triple.bind get fun _ => oops _ _) fun _ => pure _

theorem operation (op : PcmOperation) : KeepsPcm (fun w => P w.dev) (op.call ops) := by
  cases op with
  | setConfig config => exact h.pcmInvariant.pcmSetConfig config
  | prepare => exact h.pcmInvariant.pcmPrepare
  | start => exact h.pcmInvariant.pcmStart
  | drain => exact h.pcmDrain
  | stop => exact h.pcmInvariant.pcmStop
  | link fd => exact h.pcmLink fd
  | unlink => exact h.pcmUnlink
  | getDelay => exact h.pcmGetDelay
  | state => exact h.pcmInvariant.wait.pcmState
  | mmapCommit frames => exact h.pcmInvariant.pcmMmapCommit frames

theorem htimestampAgain : ∀ fuel checking avail tstamp,
    KeepsPcm (fun w => P w.dev) (htimestampAgain ops fuel checking avail tstamp)
  | 0, _, _, _ => pure _
  | fuel + 1, checking, avail, tstamp => by
    refine Triple.bind h.pcmInvariant.wait.pcmAvailUpdate fun tmp => Triple.ite (fun _ => pure _) fun _ => ?_
    refine Triple.ite (fun _ => pure _) fun _ => Triple.bind h.pcmInvariant.wait.mmapStatus fun _ => ?_
    refine Triple.bind h.pcmInvariant.wait.mmapStatus fun _ => Triple.bind get fun _ =>
      Triple.ite (fun _ => ?_) fun _ => ?_
    · exact htimestampAgain fuel _ _ _
    · exact pure _

theorem call (c : HandleCall) : KeepsPcm (fun w => P w.dev) (c.call ops) := by
  cases c with
  | api c => exact h.pcmInvariant.call c fun config _ => h.pcmInvariant.pcmSetConfig config
  | operation op => exact Triple.bind (h.operation op) fun _ => pure _
  | wait fuel timeout => exact Triple.bind (h.pcmInvariant.wait.pcmWait timeout fuel) fun _ => pure _
  | getHtimestamp fuel avail tstamp =>
    refine Triple.bind (Triple.bind get fun _ => Triple.ite (fun _ => ?_) fun _ => ?_) fun _ => pure _
    · exact pure _
    · exact h.htimestampAgain fuel _ _ _

theorem handleRun {w w' : World σ} (hrun : HandleRun ops w w') (hw : P w.dev) : P w'.dev := by
  induction hrun with
  | start => exact hw
  | call _ user c ih => exact h.call c (beforeCall ops user _) (h.run _ ih)

/-! ### Opening and closing -/

theorem pcmHwMmapStatus (memory : Bool) : KeepsPcm (fun w => P w.dev) (pcmHwMmapStatus ops memory) := by
  have hcalloc : KeepsPcm (fun w => P w.dev) (pcmCallocSyncPtr (σ := σ) memory) :=
    Triple.ite (fun _ => Triple.bind (modifyPcm _) fun _ => pure _) fun _ => pure _
  refine Triple.bind get fun _ => Triple.ite (fun _ => pure _) fun _ => Triple.bind (h.opsMmap _ _) fun _ => ?_
  refine Triple.bind (modifyPcm _) fun _ => Triple.ite (fun _ => hcalloc) fun _ => ?_
  refine Triple.bind (h.opsMmap _ _) fun _ => Triple.bind (modifyPcm _) fun _ =>
    Triple.ite (fun _ => ?_) fun _ => pure _
  exact Triple.bind (h.opsMunmap _ _) fun _ => Triple.bind (modifyPcm _) fun _ => hcalloc

theorem pcmHwMunmapStatus : KeepsPcm (fun w => P w.dev) (pcmHwMunmapStatus ops) := by
  have hpage : ∀ addr, KeepsPcm (fun w => P w.dev) (munmapPage ops addr) := fun _ =>
    Triple.ite (fun _ => Triple.bind (h.opsMunmap _ _) fun _ => pure _) fun _ => pure _
  refine Triple.bind get fun _ => Triple.ite (fun _ => modifyPcm _) fun _ => ?_
  exact Triple.bind (hpage _) fun _ => Triple.bind (hpage _) fun _ => modifyPcm _

theorem munmapBuffer : KeepsPcm (fun w => P w.dev) (munmapBuffer ops) :=
  Triple.bind get fun _ => h.opsMunmap _ _

theorem pcmOpenFail (text : String) : KeepsPcm (fun w => P w.dev) (pcmOpenFail ops text) := by
  refine Triple.bind get fun _ => Triple.bind h.pcmHwMunmapStatus fun _ => Triple.bind get fun _ => ?_
  exact Triple.ite (fun _ => Triple.bind h.munmapBuffer fun _ => pure _) fun _ => pure _

theorem pcmOpenTtstamp : KeepsPcm (fun w => P w.dev) (pcmOpenTtstamp ops) := by
  have hioctl : KeepsPcm (fun w => P w.dev) (ioctlTtstamp ops tstampTypeMonotonic) := fun w hw => h.ttstamp _ w.dev hw
  refine Triple.bind get fun _ => Triple.ite (fun _ => Triple.bind hioctl fun _ => ?_) fun _ => ?_
  · exact Triple.ite (fun _ => h.pcmOpenFail _) fun _ => Triple.bind (modifyPcm _) fun _ => pure _
  · exact Triple.bind (modifyPcm _) fun _ => pure _

/-- `pcm_open` once the stream is configured. -/
theorem pcmOpenConfigured (memory : Bool) : KeepsPcm (fun w => P w.dev) (do
    if (← Tinyalsa.pcmHwMmapStatus ops memory) < 0 then Tinyalsa.pcmOpenFail ops "mmap status failed"
    else Tinyalsa.pcmOpenTtstamp ops) :=
  Triple.bind (h.pcmHwMmapStatus memory) fun _ => Triple.ite (fun _ => h.pcmOpenFail _) fun _ => h.pcmOpenTtstamp

theorem pcmSetUp (memory : Bool) (config : Option PcmConfig) :
    KeepsPcm (fun w => P w.dev) (pcmSetUp ops memory config) := by
  have hioctl : KeepsPcm (fun w => P w.dev) (ioctlInfo ops) := fun w hw => h.info w.dev hw
  refine Triple.bind hioctl fun _ => Triple.ite (fun _ => Triple.bind get fun _ => pure _) fun _ => ?_
  refine Triple.bind (modifyPcm _) fun _ => Triple.bind (h.pcmInvariant.pcmSetConfig config) fun _ => ?_
  exact Triple.ite (fun _ => Triple.bind get fun _ => pure _) fun _ => h.pcmOpenConfigured memory

theorem pcmTearDown : KeepsPcm (fun w => P w.dev) (pcmTearDown ops) := by
  refine Triple.bind h.pcmHwMunmapStatus fun _ => Triple.bind get fun _ => Triple.ite (fun _ => ?_) fun _ => pure _
  exact Triple.bind h.pcmInvariant.pcmStop fun _ => Triple.bind h.munmapBuffer fun _ => pure _

/-- What holds of an opened device holds over the life of the handle. -/
theorem handleLife {memory : Bool} {config : Option PcmConfig} {w w' : World σ}
    (hlife : HandleLife ops memory config w w') (hw : P w.dev) : P w'.dev := by
  have hopened := h.pcmSetUp memory config w hw
  cases hlife with
  | failed _ => exact hopened
  | used _ hrun => exact h.handleRun hrun hopened
  | closed _ hrun user => exact h.pcmTearDown (beforeCall ops user _) (h.run _ (h.handleRun hrun hopened))

end DevInvariant

/-! ## What the backend does to the plugin -/

section

variable {π : Type} {ops : PcmPluginOps π} {mem : PlugMemory π}

/-- One call of a function of `plug_ops`: the plugin is left alone, or an entry point invokes its callback, or the
plugin is polled. -/
inductive PlugServes (plugin plugin' : PcmPlugin π) : Prop
  | quiet (calls : plugin'.calls = plugin.calls) (state : plugin'.state = plugin.state)
  | invokes {e : PlugEntry} {call : PlugCall} (admits : e.admits plugin.state = true) (invokes : e.Invokes call)
      (grown : Grown plugin call plugin')
  | polls {ret : Int} (grown : Grown plugin (.callback .poll ret) plugin')

theorem plugStep_plugServes {d d' : PcmPlugData π} {e : PlugEntry} {ans : PlugAnswer}
    (h : plugStep ops d e = some (ans, d')) : PlugServes d.plugin d'.plugin := by
  rcases plugStep_cases h with ⟨-, -, rfl⟩ | ⟨hadm, call, hinv, hg⟩ | ⟨-, -, rfl⟩
  · exact .quiet rfl rfl
  · exact .invokes hadm hinv hg
  · exact .quiet rfl rfl

theorem PlugDev.ioctl_plugServes (c : PcmPlugCmd) (d : PlugDev π) :
    PlugServes d.data.plugin (d.ioctl ops c).2.2.data.plugin := by
  unfold PlugDev.ioctl
  cases hr : pcmPlugIoctl ops d.data c with
  | none => exact .quiet rfl rfl
  | some r =>
    have hstep : plugStep ops d.data (.ioctl c) = some (.int r.1, r.2.2) := by rw [plugStep, hr]; rfl
    exact plugStep_plugServes hstep

/-- What a call of the plugin layer keeps, every function of `plug_ops` keeps. -/
theorem plugOps_invariant {P : PcmPlugin π → Prop}
    (hP : ∀ {plugin plugin'}, P plugin → PlugServes plugin plugin' → P plugin') :
    DevInvariant (plugOps ops mem) fun d => P d.data.plugin where
  hwParams p d hd := hP hd (d.ioctl_plugServes (.hwParams p))
  swParams p d hd := hP hd (d.ioctl_plugServes (.swParams p))
  syncPtr s d hd := hP hd (d.ioctl_plugServes (.syncPtr s))
  cmd _ d hd := hP hd (d.ioctl_plugServes _)
  xfer _ _ _ d hd := hP hd (d.ioctl_plugServes _)
  link _ d hd := hP hd (d.ioctl_plugServes _)
  delay t d hd := hP hd (d.ioctl_plugServes (.extra .delay t))
  info _ hd := hP hd (PlugDev.ioctl_plugServes _ _)
  ttstamp t d hd := hP hd (d.ioctl_plugServes (.ttstamp t))
  poll _ _ hd := hP hd (.polls (plugCall_grown fun _ => rfl))
  mmap offset n d hd := hP hd (plugStep_plugServes (e := .mmap offset n) (d := d.data) rfl)
  munmap addr n d hd := hP hd (plugStep_plugServes (e := .munmap addr n) (d := d.data) rfl)
  run _ hd := hP hd (.quiet rfl rfl)
  setControl _ _ hd := hP hd (.quiet rfl rfl)
  setBuffer _ _ hd := hP hd (.quiet rfl rfl)

/-! ## The history of the plugin -/

/-- The state field is that of the history, and its transfers came in order. -/
structure PcmPlugin.Ordered (plugin : PcmPlugin π) : Prop where
  state : plugin.state = plugStateOf plugin.calls
  transfers : EveryCall TransferAllowed plugin.calls

/-- Each use of the plugin came after its configuration. -/
def PcmPlugin.UsedConfigured (plugin : PcmPlugin π) : Prop :=
  EveryCall (fun c older => c.isUse → isConfigured older) plugin.calls

/-- The plugin is configured, and was before it was used. -/
structure PcmPlugin.Configured (plugin : PcmPlugin π) : Prop where
  configured : isConfigured plugin.calls
  used : plugin.UsedConfigured

theorem PlugServes.ordered {plugin plugin' : PcmPlugin π} (h : plugin.Ordered) (hs : PlugServes plugin plugin') :
    plugin'.Ordered := by
  cases hs with
  | quiet calls state => exact ⟨by rw [state, calls, h.state], calls ▸ h.transfers⟩
  | invokes hadm hinv hg =>
    refine ⟨by rw [hg.state, hg.calls, plugStateOf_cons, h.state], ?_⟩
    rw [hg.calls]
    exact h.transfers.cons (transferAllowed_of_admits h.transfers (h.state ▸ hadm) hinv)
  | polls hg =>
    refine ⟨by rw [hg.state, hg.calls, plugStateOf_cons, h.state], ?_⟩
    rw [hg.calls]
    exact h.transfers.cons trivial

/-- A configured plugin takes any callback. -/
theorem PlugServes.configured {plugin plugin' : PcmPlugin π} (h : plugin.Configured) (hs : PlugServes plugin plugin') :
    plugin'.Configured := by
  have hgrown : ∀ {call}, Grown plugin call plugin' → plugin'.Configured := by
    intro call hg
    refine ⟨by rw [hg.calls, isConfigured_cons, h.configured, Bool.or_true], ?_⟩
    unfold PcmPlugin.UsedConfigured
    rw [hg.calls]
    exact h.used.cons fun _ => h.configured
  cases hs with
  | quiet calls _ => exact ⟨calls ▸ h.configured, by unfold PcmPlugin.UsedConfigured; rw [calls]; exact h.used⟩
  | invokes _ _ hg => exact hgrown hg
  | polls hg => exact hgrown hg

/-! ## Configured by `pcm_open` -/

/-- The plugin was just opened, and something has failed before: the open of the hardware. -/
def JustOpened (w : World (PlugDev π)) : Prop := w.dev.data.Fresh ∧ w.errno ≠ 0

theorem usedConfigured_nil {plugin : PcmPlugin π} (h : plugin.calls = []) : plugin.UsedConfigured := by
  unfold PcmPlugin.UsedConfigured
  rw [h]
  exact .nil

theorem PlugDev.ioctl_info (d : PlugDev π) (info : SndPcmInfo) : (d.ioctl ops (.info info)).2.2.data = d.data := by
  unfold PlugDev.ioctl pcmPlugIoctl
  cases pcmPlugInfo d.data <;> rfl

/-- A fresh plugin is configured just where `HW_PARAMS` returns 0. -/
theorem PlugDev.ioctl_hwParams {d : PlugDev π} (h : d.data.Fresh) (p : SndPcmHwParams) :
    (d.ioctl ops (.hwParams p)).1 ≠ 0 ∧ (d.ioctl ops (.hwParams p)).2.2.data.plugin.UsedConfigured ∨
      (d.ioctl ops (.hwParams p)).1 = 0 ∧ (d.ioctl ops (.hwParams p)).2.2.data.plugin.Configured := by
  unfold PlugDev.ioctl pcmPlugIoctl
  dsimp only
  rw [pcmPlugHparams_handed ops p h.state]
  cases pcmPlugHanded d.data.plugin.constraints p with
  | none => exact .inl ⟨show (-1 : Int) ≠ 0 by decide, usedConfigured_nil h.calls⟩
  | some handed =>
    have hused : ∀ call : PlugCall, call.isUse = false →
        EveryCall (fun c older => c.isUse → isConfigured older) (call :: d.data.plugin.calls) := by
      intro call hcall
      rw [h.calls]
      exact EveryCall.nil.cons fun hu => absurd hu (by simp [hcall])
    by_cases hret : (ops.hwParams handed d.data.plugin.priv).1 = 0
    · exact .inr ⟨hret, by simp [isConfigured, PlugCall.configures, hret], hused _ rfl⟩
    · exact .inl ⟨hret, hused _ rfl⟩

/-- `pcm_set_config` returns 0 only for a plugin that is configured. -/
theorem pcmSetConfig_configured (config : Option PcmConfig) :
    Triple JustOpened (pcmSetConfig (plugOps ops mem) config) fun r w =>
      r ≠ 0 ∧ w.dev.data.plugin.UsedConfigured ∨ w.dev.data.plugin.Configured := by
  have hinv : DevInvariant (plugOps ops mem) fun d => d.data.plugin.Configured :=
    plugOps_invariant PlugServes.configured
  have hmodify : ∀ f, KeepsPcm (σ := PlugDev π) JustOpened (modifyPcm f) := fun _ _ hw => hw
  have hhw : Triple JustOpened (pcmSetHwConfig (plugOps ops mem) config) fun r w =>
      r ≠ 0 ∧ w.dev.data.plugin.UsedConfigured ∨ w.dev.data.plugin.Configured := by
    have hioctl : ∀ p, Triple JustOpened (ioctlHwParams (plugOps ops mem) p) fun r w => w.errno ≠ 0 ∧
        (r.1 ≠ 0 ∧ w.dev.data.plugin.UsedConfigured ∨ r.1 = 0 ∧ w.dev.data.plugin.Configured) :=
      fun p w hw => ⟨hw.2, PlugDev.ioctl_hwParams hw.1 p⟩
    refine Triple.bind KeepsPcm.get fun _ => Triple.bind (hioctl _) fun r => Triple.ite (fun hret => ?_) fun hret => ?_
    · -- the error returned is `errno`, which some earlier failure has set
      rintro w ⟨herrno, ⟨-, hused⟩ | ⟨hzero, -⟩⟩
      · exact .inl ⟨neg_ne_zero.2 herrno, hused⟩
      · exact absurd hzero hret
    · have hzero : r.1 = 0 := not_not.1 hret
      have hstore : KeepsPcm (σ := PlugDev π) (fun w => w.dev.data.plugin.Configured)
          (modifyPcm (storeRefined config r.2)) := fun _ hw => hw
      have hbuffer := Triple.bind hstore fun _ => hinv.pcmInvariant.pcmSetBuffer config
      refine hbuffer.mono ?_ fun _ _ hw => .inr hw
      rintro w ⟨-, ⟨hne, -⟩ | ⟨-, hw⟩⟩
      · exact absurd hzero hne
      · exact hw
  refine Triple.bind (hmodify _) fun _ => Triple.bind KeepsPcm.get fun _ => Triple.ite (fun _ => ?_) fun _ => hhw
  refine Triple.ite (fun _ => ?_) fun _ => Triple.bind (hmodify _) fun _ => hhw
  have hoops : KeepsPcm (σ := PlugDev π) JustOpened (oops eInval "noirq only currently supported with mmap().") :=
    fun _ hw => hw
  exact Triple.bind hoops fun _ => Triple.pure _ fun w hw => .inl ⟨by decide, usedConfigured_nil hw.1.calls⟩

/-- `pcm_open` hands out a plugin only configured, and has not used it before. -/
theorem pcmSetUp_configured (memory : Bool) (config : Option PcmConfig) :
    Triple JustOpened (pcmSetUp (plugOps ops mem) memory config) fun r w =>
      w.dev.data.plugin.UsedConfigured ∧ (r = none → w.dev.data.plugin.Configured) := by
  have hinv : DevInvariant (plugOps ops mem) fun d => d.data.plugin.Configured :=
    plugOps_invariant PlugServes.configured
  have hinfo : Triple JustOpened (ioctlInfo (plugOps ops mem)) fun _ => JustOpened := by
    rintro w ⟨hfresh, herrno⟩
    refine ⟨?_, herrno⟩
    show ((w.dev.ioctl ops (.info {})).2.2).data.Fresh
    rwa [PlugDev.ioctl_info]
  have hmodify : ∀ f, KeepsPcm (σ := PlugDev π) JustOpened (modifyPcm f) := fun _ _ hw => hw
  refine Triple.bind hinfo fun r => Triple.ite (fun _ => ?_) fun _ => ?_
  · exact Triple.bind KeepsPcm.get fun _ => Triple.pure _ fun w hw => ⟨usedConfigured_nil hw.1.calls, nofun⟩
  refine Triple.bind (hmodify _) fun _ => Triple.bind (pcmSetConfig_configured config) fun r => ?_
  refine Triple.ite (fun _ => Triple.bind KeepsPcm.get fun _ => Triple.pure _ fun w hw => ⟨?_, nofun⟩) fun hret => ?_
  · rcases hw with ⟨-, hused⟩ | hconf
    · exact hused
    · exact hconf.used
  · refine (hinv.pcmOpenConfigured memory).mono ?_ fun _ _ hw => ⟨hw.used, fun _ => hw⟩
    rintro w (⟨hne, -⟩ | hconf)
    · exact absurd (not_not.1 hret) hne
    · exact hconf

/-! ## The protocol over the life of a handle -/

/-- Whatever is done with a handle on a plugin, from `pcm_open` to `pcm_close`: the state that the library keeps is the
one that the plugin's callbacks have led to, transfers come in order, and, if `errno` tells of the hardware that could
not be opened, the plugin is configured before it is used. -/
theorem handleLife_protocol {memory : Bool} {config : Option PcmConfig} {w w' : World (PlugDev π)}
    (hfresh : w.dev.data.Fresh) (hlife : HandleLife (plugOps ops mem) memory config w w') :
    w'.dev.data.plugin.Ordered ∧ (w.errno ≠ 0 → w'.dev.data.plugin.UsedConfigured) := by
  have hordered : DevInvariant (plugOps ops mem) fun d => d.data.plugin.Ordered := plugOps_invariant PlugServes.ordered
  have hconf : DevInvariant (plugOps ops mem) fun d => d.data.plugin.Configured :=
    plugOps_invariant PlugServes.configured
  have hstart : w.dev.data.plugin.Ordered := by
    refine ⟨by rw [hfresh.state, hfresh.calls]; rfl, ?_⟩
    rw [hfresh.calls]
    exact .nil
  refine ⟨hordered.handleLife hlife hstart, fun herrno => ?_⟩
  obtain ⟨hused, hopened⟩ := pcmSetUp_configured memory config w ⟨hfresh, herrno⟩
  cases hlife with
  | failed _ => exact hused
  | used h hrun => exact (hconf.handleRun hrun (hopened h)).used
  | closed h hrun user =>
    have hdev := hconf.run _ (hconf.handleRun hrun (hopened h))
    exact (hconf.pcmTearDown (beforeCall (plugOps ops mem) user _) hdev).used

end

/-- A handle on the stereo plugin whose definition has a name. -/
def namedWorld (errno : Int) : World (PlugDev Unit) :=
  let node : SndNode := { getInt := fun _ => (0, some 1), getStr := fun _ => (0, some [112]) }
  { stereoWorld errno with dev := { data := { stereoPlug with devNode := some node } } }

/-- The plugin is opened, configured and stopped. -/
theorem handleLife_protocol_stopped :
    ∃ w', HandleLife (plugOps acceptingOps noMemory) true (some stereoConfig) (namedWorld eNoDev) w' ∧
      w'.dev.data.plugin.Ordered ∧ ((namedWorld eNoDev).errno ≠ 0 → w'.dev.data.plugin.UsedConfigured) := by
  have hopen : (exec (pcmSetUp (plugOps acceptingOps noMemory) true (some stereoConfig)) (namedWorld eNoDev)).1 =
      none := by decide +kernel
  have hlife := HandleLife.used hopen (.call .start ⟨0, fun _ => 0⟩ (.operation .stop))
  exact ⟨_, hlife, handleLife_protocol ⟨rfl, rfl⟩ hlife⟩

/-- With `errno` at 0, a plugin that refuses its parameters is handed out all the same, and stopped unconfigured. -/
theorem handleLife_unconfigured :
    ∃ w', HandleLife (plugOps refusingOps noMemory) true (some stereoConfig) (namedWorld 0) w' ∧
      ¬ w'.dev.data.plugin.UsedConfigured := by
  have hopen : (exec (pcmSetUp (plugOps refusingOps noMemory) true (some stereoConfig)) (namedWorld 0)).1 = none := by
    decide +kernel
  refine ⟨_, .used hopen (.call .start ⟨0, fun _ => 0⟩ (.operation .stop)), fun h => ?_⟩
  have hcalls : (exec (HandleCall.call (plugOps refusingOps noMemory) (.operation .stop))
        (beforeCall (plugOps refusingOps noMemory) ⟨0, fun _ => 0⟩
          (exec (pcmSetUp (plugOps refusingOps noMemory) true (some stereoConfig))
            (namedWorld 0)).2)).2.dev.data.plugin.calls.map
      (fun c => (c.isUse, c.configures)) = [(true, false), (false, false)] := by decide +kernel
  obtain ⟨c, older, hc, hfirst, hrest⟩ := List.map_eq_cons_iff.1 hcalls
  have hnot := h [] c older hc (congrArg Prod.fst hfirst)
  unfold isConfigured at hnot
  obtain ⟨c', hmem, hconf⟩ := List.any_eq_true.1 hnot
  have hfalse : (c'.isUse, c'.configures) ∈ [(false, false)] := hrest ▸ List.mem_map_of_mem hmem
  simp [hconf] at hfalse

end Tinyalsa
