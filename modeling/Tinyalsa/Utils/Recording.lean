/-
From one device to another: what tinycap records, tinyplay plays. The device that is played to hears what the one that
was captured from gave.
-/
import Tinyalsa.Utils.CaptureStream
import Tinyalsa.Utils.Playback
import Tinyalsa.Utils.PlayStream

namespace Tinyalsa

open Hoare ByteMemory Tinycap Tinyplay

section

variable {σ : Type} {ops : PcmOps σ} {w : World (Heard σ)} {o : Options} {format : PcmFormat} {st : Captured}
  {file : ByteFile}

/-- A file with a header written over its start. -/
theorem startsWith_header (h : WavHeader) (captured : ByteFile) :
    StartsWith h (((captured.seek 0).writeFields h.fields).seek 0) := by
  refine ⟨⟨captured.bytes, rfl⟩, ?_, rfl⟩
  show sizeofWavHeader ≤ max captured.size (0 + fieldsSize h.fields)
  rw [fieldsSize_header, Nat.zero_add]
  exact le_max_right ..

/-- A handle with the configuration of the capture has its frames. -/
theorem pcmFramesToBytes_one {p : Pcm} (hch : p.config.channels = o.channels) (hfmt : p.config.format = format) :
    pcmFramesToBytes p 1 = bytesPerFrame (captureConfig o o.channels format) := by
  unfold pcmFramesToBytes
  rw [hch, hfmt]
  rfl

/-- A recording: a run of tinycap on a handle with its configuration that no failed read and no full disk disturbs, and
whose bytes the header can tell. -/
structure Records (ops : PcmOps σ) (w : World (Heard σ)) (o : Options) (format : PcmFormat) (st : Captured)
    (file : ByteFile) (w' : World (Heard σ)) : Prop where
  ready : Transfers ops ∧ w.pcm.isMmap = false ∧ w.pcm.config.channels = o.channels ∧ w.pcm.config.format = format
  bits : bitsToFormat o.bits = some format ∧ o.bits ≠ 24
  frame : 0 < frameBytes o format ∧ frameBytes o format < 2 ^ 16
  run : ∃ fuel rooms, exec (mainOn (hearing (pcmFramesToBytes w.pcm 1).toNat ops) fuel o format rooms) w =
    (some (st, file), w')
  undisturbed : Undisturbed (pcmFramesToBytes w.pcm 1) st.rounds
  fits : st.file.pos < sizeofWavHeader + 2 ^ 32

/-- What tinyplay finds in a file: the format of the frames, and the bytes of the data. -/
structure Finds (o : Options) (format : PcmFormat) (data : List UInt8) (ctx : Ctx) (config : PcmConfig) : Prop where
  channels : config.channels = o.channels
  format : config.format = format
  rate : config.rate = o.rate
  size : ctx.dataBytes = data.length
  bytes : span ctx.file ctx.file.pos (ctx.file.pos + data.length) = data

theorem length_span (file : ByteFile) (first last : Nat) : (span file first last).length = last - first := by
  unfold span
  rw [List.length_map, List.length_range]

/-- The channels of a frame that fits the header fit it too. -/
theorem channels_lt (h : 0 < frameBytes o format ∧ frameBytes o format < 2 ^ 16) : o.channels.toNat < 2 ^ 16 := by
  obtain ⟨hpos, hlt⟩ := h
  have hsample : 0 < (pcmFormatToBits format).toNat / 8 := Nat.pos_of_mul_pos_left hpos
  exact (Nat.le_mul_of_pos_right _ hsample).trans_lt hlt

/-- What a recording leaves: as many bytes as the header will say, and in the file just those that the device gave. -/
theorem Records.captured {w' : World (Heard σ)} (h : Records ops w o format st file w') :
    let data := st.rounds.flatMap (Round.given (frameBytes o format))
    data.length = frameBytes o format * st.totalFramesRead.toNat ∧
      span st.file sizeofWavHeader st.file.pos = data ∧ st.file.pos ≤ max st.file.size sizeofWavHeader ∧
      file = (st.file.seek 0).writeFields (finalHeader o format st.totalFramesRead).fields ∧
      w'.dev.bytes = w.dev.bytes ++ data := by
  obtain ⟨⟨hops, hrw, hch, hfmt⟩, ⟨hbits, -⟩, hframe, ⟨fuel, rooms, hrun⟩, hund, hfits⟩ := h
  have hbpf : (pcmFramesToBytes w.pcm 1).toNat = frameBytes o format := by
    rw [pcmFramesToBytes_one hch hfmt]
    exact toNat_bytesPerFrame hbits (channels_lt hframe)
  have hcaptured := @captureOn_captured _ ops w o.rate o.captureTime (ByteFile.seek {} sizeofWavHeader) hops hrw fuel _
    rooms _ (fun _ => rfl) w (.start (pcmFramesToBytes w.pcm 1) ..)
  unfold mainOn captureSampleOn at hrun
  simp only [exec_bind, exec_get] at hrun
  revert hrun hcaptured
  generalize exec (captureOn _ _ _ _ _ _ _) _ = run
  obtain ⟨res, w''⟩ := run
  intro hcaptured hrun
  cases res with
  | none => cases hrun
  | some st' =>
    cases hrun
    obtain ⟨hgives, hloop⟩ := hcaptured _ rfl
    have hwritten := hgives.written hund
    have hheard := hgives.heard
    rw [hbpf] at hwritten hheard
    obtain ⟨n, hn, hend, hle⟩ := @captureLoop_spec o.rate o.captureTime _ sizeofWavHeader _ 0
      (ByteFile.seek {} sizeofWavHeader) hund (le_max_right ..)
    rw [hloop] at hn hend hle
    change st.totalFramesRead.toNat = (0 + n) % 2 ^ 32 at hn
    change st.file.pos = sizeofWavHeader + _ at hend
    rw [hbpf] at hend
    -- the frames are no more than their bytes
    have hlt : n < 2 ^ 32 := by
      have hmul : n ≤ frameBytes o format * n := Nat.le_mul_of_pos_left n hframe.1
      omega
    rw [Nat.zero_add, Nat.mod_eq_of_lt hlt] at hn
    refine ⟨?_, hwritten, hle, rfl, hheard⟩
    rw [← hwritten, length_span, hend, hn]
    exact Nat.add_sub_cancel_left ..

/-- What tinyplay finds in a recording. -/
theorem Records.found {w' : World (Heard σ)} (h : Records ops w o format st file w') {files : Files} {pcmOpen : PcmOpen}
    {ctx ctx' : Ctx} {cmd : Cmd} {filename : String} {config : PcmConfig} (hname : cmd.filename = some filename)
    (hsource : files.source filename = some (file.seek 0)) (htype : isWaveFile cmd.filetype)
    (hinit : ctxInit files pcmOpen ctx cmd = pure (ctx', config)) :
    Finds o format (st.rounds.flatMap (Round.given (frameBytes o format))) ctx' config := by
  obtain ⟨hlen, hspan, hle, hfile, -⟩ := h.captured
  obtain ⟨hbits, hne⟩ := h.bits
  have hchannels := channels_lt h.frame
  have hvalid := (signedPcmBitsToFormat_header hbits st.totalFramesRead).1
  have hstart := startsWith_header (finalHeader o format st.totalFramesRead) st.file
  rw [← hfile] at hstart
  rw [ctxInit_written (isWave_finalHeader o format st.totalFramesRead) hstart pcmOpen ctx hname hsource htype hvalid]
    at hinit
  have hpair : ({ parsedCtx ctx (finalHeader o format st.totalFramesRead) (file.seek 0) with
      fileSize := (finalHeader o format st.totalFramesRead).dataSz.toUInt64 } : Ctx) = ctx' ∧
      playConfig cmd (finalHeader o format st.totalFramesRead) = config := by
    unfold openPcm at hinit
    split at hinit
    · exact Prod.mk.inj (Except.ok.inj (Option.some.inj hinit))
    · cases Option.some.inj hinit
  obtain ⟨rfl, rfl⟩ := hpair
  have hbytes : frameBytes o format * st.totalFramesRead.toNat < 2 ^ 32 := by
    have hfits := h.fits
    have hsub := congrArg List.length hspan
    rw [length_span, hlen] at hsub
    omega
  have hsize := (dataSz_iff hbits hchannels hbytes).2 (.inr h.frame.2)
  have hfilebytes : file.bytes = storeFields st.file.bytes 0 (finalHeader o format st.totalFramesRead).fields := by
    rw [hfile]
    rfl
  have hfilesize : file.size = max st.file.size sizeofWavHeader := by
    rw [hfile]
    show max st.file.size (0 + fieldsSize (finalHeader o format st.totalFramesRead).fields) = _
    rw [fieldsSize_header, Nat.zero_add]
  have hend : sizeofWavHeader + frameBytes o format * st.totalFramesRead.toNat ≤ file.size := by
    have hsub := congrArg List.length hspan
    rw [length_span, hlen] at hsub
    rw [hfilesize]
    omega
  refine ⟨numChannels_header format hchannels, (signedPcmBitsToFormat_header hbits _).2.2 hne, rfl, ?_, ?_⟩
  · show min (finalHeader o format st.totalFramesRead).dataSz.toUInt64.toNat (file.size - sizeofWavHeader) = _
    rw [hsize, hlen]
    omega
  · -- behind the header the bytes are those that were captured
    show span (file.seek sizeofWavHeader) sizeofWavHeader (sizeofWavHeader + _) = _
    rw [← hspan, length_span]
    unfold span
    rw [Nat.add_sub_cancel_left]
    refine List.map_congr_left fun i _ => ?_
    show file.bytes (sizeofWavHeader + i) = _
    rw [hfilebytes]
    refine storeFields_of_le ?_
    rw [fieldsSize_header, Nat.zero_add]
    exact Nat.le_add_right ..

end

section

variable {σ τ : Type} {ops : PcmOps σ} {ops' : PcmOps τ} {w w₁ : World (Heard σ)} {w₀ : World (Heard τ)} {o : Options}
  {format : PcmFormat} {captured : Captured} {file : ByteFile}

/-- What one device gives another hears: tinyplay opens the PCM for a recording as it was captured, and a handle with
this configuration, without a failed write or a signal, has the playing device hear all that the capturing one gave. -/
theorem recording_heard (hrecords : Records ops w o format captured file w₁) {files : Files} {pcmOpen : PcmOpen}
    {ctx ctx' : Ctx} {cmd : Cmd} {filename : String} {config : PcmConfig} (hname : cmd.filename = some filename)
    (hfile : filename ≠ "-") (hsource : files.source filename = some (file.seek 0)) (htype : isWaveFile cmd.filetype)
    (hinit : ctxInit files pcmOpen ctx cmd = pure (ctx', config)) (hops : Transfers ops') (hwhole : MovesWhole ops')
    (hrw : w₀.pcm.isMmap = false) (hout : w₀.pcm.isIn = false)
    (hconfig : w₀.pcm.config.channels = config.channels ∧ w₀.pcm.config.format = config.format)
    (hperiod : 0 < w₀.pcm.config.periodSize.toNat)
    (hfit : w₀.pcm.config.periodSize.toNat * frameBytes o format < 2 ^ 32) (fuel : Nat) {feeds : List Feed}
    (hfeeds : ∀ f ∈ feeds, ctx'.fileSize.toNat ≤ f.got ∧ f.close = false) {played : PlayState}
    (hrun : (exec (playSampleOn (hearing (frameSize w₀.pcm).toNat ops') fuel (filename = "-") ctx' feeds) w₀).1 =
      some (false, played)) :
    (config.channels = o.channels ∧ config.rate = o.rate ∧ config.format = format) ∧
    ∃ data, w₁.dev.bytes = w.dev.bytes ++ data ∧
      (exec (playSampleOn (hearing (frameSize w₀.pcm).toNat ops') fuel (filename = "-") ctx' feeds) w₀).2.dev.bytes =
        w₀.dev.bytes ++ data := by
  obtain ⟨hlen, -, -, -, hgave⟩ := hrecords.captured
  have hfinds := hrecords.found hname hsource htype hinit
  refine ⟨⟨hfinds.channels, hfinds.rate, hfinds.format⟩, _, hgave, ?_⟩
  rw [decide_eq_false hfile] at hrun ⊢
  have hsize : (frameSize w₀.pcm).toNat = frameBytes o format := by
    rw [← toNat_bytesPerFrame hrecords.bits.1 (channels_lt hrecords.frame)]
    unfold frameSize bytesPerFrame captureConfig
    rw [hconfig.1, hconfig.2, hfinds.channels, hfinds.format, UInt32.one_mul]
  obtain ⟨⟨n, ⟨-, haccepted⟩, hall⟩, hheard⟩ := playSampleOn_playEnds hops hwhole hrw hout (hsize ▸ hrecords.frame.1)
    hperiod (hsize ▸ hfit) fuel (fun f hf => (hfeeds f hf).1) hrun
  have hn : n * (frameSize w₀.pcm).toNat = (captured.rounds.flatMap (Round.given (frameBytes o format))).length := by
    rw [hall rfl fun f hf => (hfeeds f hf).2, hfinds.size, hsize, hlen]
    exact Nat.div_mul_cancel (Nat.dvd_mul_right ..)
  rw [hheard, haccepted, flatMap_framesFrom, hn]
  have hbytes := hfinds.bytes
  unfold span at hbytes
  rw [Nat.add_sub_cancel_left] at hbytes
  rw [hbytes]

end

/-- Two buffers are captured. -/
def twoBuffers : Option (Captured × ByteFile) × World (Heard Unit) :=
  exec (mainOn (hearing (pcmFramesToBytes stereoCapture.pcm 1).toNat givingOps) 2 {} .s16Le [16, 16]) stereoCapture

theorem twoBuffers_isSome : twoBuffers.1.isSome := by decide +kernel

def twoBuffersFile : Captured × ByteFile := twoBuffers.1.get twoBuffers_isSome

theorem twoBuffers_records :
    Records givingOps stereoCapture {} .s16Le twoBuffersFile.1 twoBuffersFile.2 twoBuffers.2 where
  ready := ⟨givingOps_transfers, rfl, rfl, rfl⟩
  bits := ⟨rfl, by decide⟩
  frame := by decide
  run := ⟨2, [16, 16], Prod.ext (Option.some_get twoBuffers_isSome).symm rfl⟩
  undisturbed := by unfold Undisturbed; decide +kernel
  fits := by decide +kernel

/-- What the player finds in their file. -/
def twoBuffersCtx : Ctx :=
  { parsedCtx {} (finalHeader {} .s16Le twoBuffersFile.1.totalFramesRead) (twoBuffersFile.2.seek 0) with
    fileSize := (finalHeader {} .s16Le twoBuffersFile.1.totalFramesRead).dataSz.toUInt64 }

/-- They are played in two periods. -/
theorem recording_heard_two :
    ∃ played data,
      (exec (playSampleOn (hearing (frameSize stereoStream.pcm).toNat readyOps) 2 ("a.wav" = "-") twoBuffersCtx
        [⟨32, false⟩, ⟨32, false⟩]) stereoStream).1 = some (false, played) ∧
      twoBuffers.2.dev.bytes = stereoCapture.dev.bytes ++ data ∧
      (exec (playSampleOn (hearing (frameSize stereoStream.pcm).toNat readyOps) 2 ("a.wav" = "-") twoBuffersCtx
        [⟨32, false⟩, ⟨32, false⟩]) stereoStream).2.dev.bytes = stereoStream.dev.bytes ++ data := by
  have hplayed : (exec (playSampleOn (hearing (frameSize stereoStream.pcm).toNat readyOps) 2
    ("a.wav" = "-") twoBuffersCtx
      [⟨32, false⟩, ⟨32, false⟩]) stereoStream).1.map Prod.fst = some false := by decide +kernel
  obtain ⟨⟨failed, played⟩, hrun, hfailed⟩ := Option.map_eq_some_iff.1 hplayed
  obtain rfl : failed = false := hfailed
  have hstart := startsWith_header (finalHeader {} .s16Le twoBuffersFile.1.totalFramesRead) twoBuffersFile.1.file
  have hinit := @ctxInit_written _ _ (isWave_finalHeader {} .s16Le twoBuffersFile.1.totalFramesRead) hstart
    ⟨none, fun _ => some (twoBuffersFile.2.seek 0)⟩ (fun _ _ _ _ => .ok ()) {} anyCmd "a.wav" rfl rfl rfl
    (signedPcmBitsToFormat_header rfl _).1
  obtain ⟨-, data, hgave, hheard⟩ := recording_heard twoBuffers_records rfl (by decide) rfl rfl hinit readyOps_transfers
    (fun _ _ _ _ _ => rfl) rfl rfl ⟨by decide, by decide⟩ (by decide) (by decide) 2 (by decide) hrun
  exact ⟨played, data, hrun, hgave, hheard⟩

end Tinyalsa
