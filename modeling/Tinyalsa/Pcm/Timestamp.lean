/-
`pcm_get_htimestamp`. The driver publishes a hardware pointer and its time stamp together; on a mapped status
page the library reads them word by word, and tries again until the available frames have not changed.
-/
import Tinyalsa.Pcm.Distance

namespace Tinyalsa

open Hoare

section

variable {σ : Type} (ops : PcmOps σ)

/-- The part of `pcm_get_htimestamp` after its label `again`: what it returns, and what is stored in `*avail`
and `*tstamp` then. -/
def htimestampAgain : Nat → Bool → UInt32 → Timespec → PcmM σ (Option (Int × UInt32 × Timespec))
  | 0, _, _, _ => return none
  | fuel + 1, checking, avail, tstamp => do
    let tmp ← pcmAvailUpdate ops
    if tmp < 0 then return some (tmp, avail, tstamp)
    else if checking ∧ CInt.toUInt tmp = avail then return some (0, avail, tstamp)
    else
      -- the two words of a time stamp are read one after the other
      let sec := (← mmapStatus ops).tstamp.sec
      let nsec := (← mmapStatus ops).tstamp.nsec
      -- when status is mmapped, get avail again to ensure a valid time stamp
      if (← get).pcm.syncPtr.isNone then htimestampAgain fuel true (CInt.toUInt tmp) ⟨sec, nsec⟩
      else return some (0, CInt.toUInt tmp, ⟨sec, nsec⟩)

/-- `pcm_get_htimestamp`, on what `*avail` and `*tstamp` hold at first. -/
def pcmGetHtimestamp (fuel : Nat) (avail : UInt32) (tstamp : Timespec) : PcmM σ (Option (Int × UInt32 × Timespec)) := do
  if !pcmIsReady (← get).pcm then return some (-1, avail, tstamp) else htimestampAgain ops fuel false avail tstamp

/-! ## What the driver publishes -/

/-- A record of the driver. It has moved its pointer by `moved` frames since the call began. -/
structure HwRecord where
  moved : Nat
  hwPtr : UInt64
  tstamp : Timespec

/-- A driver that publishes records and shows the last one. `published` is what it has published, newest first;
the hardware moves strictly forward, and the application's pointer is not the driver's. -/
structure HwPublishes (published : σ → List HwRecord) : Prop where
  shows : ∀ d, ∃ r, (published d).head? = some r ∧ (ops.status d).hwPtr = r.hwPtr ∧ (ops.status d).tstamp = r.tstamp
  forward : ∀ d, (published d).Pairwise fun newer older => older.moved < newer.moved
  run : ∀ d, published d <:+ published (ops.run d) ∧ (ops.control (ops.run d)).applPtr = (ops.control d).applPtr
  hwsync : ∀ d, published d <:+ published (ops.cmd .hwsync d).2 ∧
    (ops.control (ops.cmd .hwsync d).2).applPtr = (ops.control d).applPtr

/-- The record lies on a stream whose hardware was at `start` when the call began, less than a boundary and
`2 ^ 31` frames further, and what it makes available fits an `int`. -/
structure HwRecord.OnTrack (p : Pcm) (start applPtr : UInt64) (r : HwRecord) : Prop where
  hwPtr : r.hwPtr.toNat = (start.toNat + r.moved) % p.boundary.toNat
  moved : r.moved < min p.boundary.toNat (2 ^ 31)
  avail : p.distance r.hwPtr applPtr ≤ CInt.intMax

end

/-! ## Reading the status page -/

section

variable {σ : Type} {ops : PcmOps σ} {published : σ → List HwRecord} {p : Pcm} {applPtr : UInt64} {w : World σ}

/-- The handle has the pages mapped, and the application's pointer is at rest. -/
structure Mapped (ops : PcmOps σ) (p : Pcm) (applPtr : UInt64) (w : World σ) : Prop where
  same : p.Same w.pcm
  pages : w.pcm.syncPtr = none
  applPtr : (ops.control w.dev).applPtr = applPtr

/-- The record was shown at some time between `w` and `w'`. -/
structure ShownBetween (published : σ → List HwRecord) (w w' : World σ) (r : HwRecord) : Prop where
  member : r ∈ published w'.dev
  newer : ∀ older ∈ published w.dev, older.moved ≤ r.moved
  grows : published w.dev <:+ published w'.dev

theorem ShownBetween.trans {w₁ w₂ : World σ} {r r' : HwRecord} (h : ShownBetween published w w₁ r)
    (h' : ShownBetween published w₁ w₂ r') : ShownBetween published w w₂ r' :=
  ⟨h'.member, fun older ho => h'.newer older (h.grows.subset ho), h.grows.trans h'.grows⟩

/-- The record shown after a step. -/
theorem HwPublishes.shown (hpub : HwPublishes ops published) {w' : World σ}
    (hgrow : published w.dev <:+ published w'.dev) :
    ∃ r, ShownBetween published w w' r ∧ (ops.status w'.dev).hwPtr = r.hwPtr ∧
      (ops.status w'.dev).tstamp = r.tstamp := by
  obtain ⟨r, hhead, hhw, hts⟩ := hpub.shows w'.dev
  obtain ⟨rest, hrest⟩ := List.head?_eq_some_iff.1 hhead
  have hmem : r ∈ published w'.dev := by rw [hrest]; exact List.mem_cons_self
  refine ⟨r, ⟨hmem, fun older ho => ?_, hgrow⟩, hhw, hts⟩
  have hforward := hpub.forward w'.dev
  have ho' := hgrow.subset ho
  rw [hrest] at hforward ho'
  rcases List.mem_cons.1 ho' with rfl | ho'
  · exact le_rfl
  · exact ((List.pairwise_cons.1 hforward).1 older ho').le

theorem HwPublishes.mmapStatus (hpub : HwPublishes ops published) (h : Mapped ops p applPtr w) :
    Mapped ops p applPtr (exec (mmapStatus ops) w).2 ∧ ∃ r, ShownBetween published w (exec (mmapStatus ops) w).2 r ∧
      (exec (mmapStatus ops) w).1.hwPtr = r.hwPtr ∧ (exec (mmapStatus ops) w).1.tstamp = r.tstamp := by
  obtain ⟨hgrow, happl⟩ := hpub.run w.dev
  simp only [Tinyalsa.mmapStatus, exec_bind, exec_get, h.pages, exec_modify, exec_pure]
  exact ⟨⟨h.same, h.pages, happl.trans h.applPtr⟩, hpub.shown hgrow⟩

theorem HwPublishes.mmapControl (hpub : HwPublishes ops published) (h : Mapped ops p applPtr w) :
    Mapped ops p applPtr (exec (mmapControl ops) w).2 ∧ published w.dev <:+ published (exec (mmapControl ops) w).2.dev ∧
      (exec (mmapControl ops) w).1.applPtr = applPtr := by
  obtain ⟨hgrow, happl⟩ := hpub.run w.dev
  simp only [Tinyalsa.mmapControl, exec_bind, exec_get, h.pages, exec_modify, exec_pure]
  exact ⟨⟨h.same, h.pages, happl.trans h.applPtr⟩, hgrow, happl.trans h.applPtr⟩

theorem HwPublishes.pcmSyncPtr (hpub : HwPublishes ops published) (h : Mapped ops p applPtr w) (flags : SyncFlags) :
    Mapped ops p applPtr (exec (pcmSyncPtr ops flags) w).2 ∧
      published w.dev <:+ published (exec (pcmSyncPtr ops flags) w).2.dev := by
  obtain ⟨hgrow, happl⟩ := hpub.hwsync w.dev
  simp only [Tinyalsa.pcmSyncPtr, exec_bind, exec_get, h.pages, exec_ite, exec_ioctl, exec_oops, exec_pure]
  split
  · split
    · exact ⟨⟨h.same.trans ⟨w.pcm.syncPtr, _, rfl⟩, h.pages, happl.trans h.applPtr⟩, hgrow⟩
    · exact ⟨⟨h.same, h.pages, happl.trans h.applPtr⟩, hgrow⟩
  · exact ⟨h, List.suffix_refl _⟩

/-- `pcm_avail_update` answers for a record it has been shown. -/
theorem HwPublishes.pcmAvailUpdate (hpub : HwPublishes ops published) (h : Mapped ops p applPtr w) :
    Mapped ops p applPtr (exec (pcmAvailUpdate ops) w).2 ∧
      ∃ r, ShownBetween published w (exec (pcmAvailUpdate ops) w).2 r ∧
        (exec (pcmAvailUpdate ops) w).1 = CInt.wrapInt
          (if p.isIn then pcmMmapCaptureAvail p r.hwPtr applPtr else pcmMmapPlaybackAvail p r.hwPtr applPtr) := by
  obtain ⟨h₁, hgrow₁⟩ := hpub.pcmSyncPtr h { appl := true, availMin := true }
  rw [Tinyalsa.pcmAvailUpdate, exec_bind]
  generalize (exec (Tinyalsa.pcmSyncPtr ops _) w).2 = w₁ at h₁ hgrow₁ ⊢
  obtain ⟨h₂, hgrow₂⟩ := hpub.pcmSyncPtr h₁ { hwsync := true }
  obtain ⟨h₃, r, hshown, hhw, -⟩ := hpub.mmapStatus h₂
  obtain ⟨h₄, hgrow₄, happl⟩ := hpub.mmapControl h₃
  have hptr : availPointers ops w₁ = (r.hwPtr, applPtr) := Prod.ext hhw happl
  have hend : (exec (pcmMmapAvail ops) w₁).2 = (exec (Tinyalsa.mmapControl ops)
      (exec (Tinyalsa.mmapStatus ops) (exec (Tinyalsa.pcmSyncPtr ops { hwsync := true }) w₁).2).2).2 := by
    simp only [pcmMmapAvail, pcmAvailNow, exec_bind, exec_get, exec_ite, exec_pure]
    split
    · rfl
    · rfl
  rw [pcmMmapAvail_ret h₁.same hptr, hend]
  refine ⟨h₄, r, ⟨hgrow₄.subset hshown.member, fun older ho => ?_, ?_⟩, rfl⟩
  · exact hshown.newer older (hgrow₂.subset (hgrow₁.subset ho))
  · exact hgrow₁.trans (hgrow₂.trans (hshown.grows.trans hgrow₄))

/-! ## The loop -/

/-- What is stored when the loop checks: what a record made available, and the words of two time stamps shown
after it. -/
def Stored (published : σ → List HwRecord) (p : Pcm) (applPtr : UInt64) (avail : UInt32) (tstamp : Timespec)
    (w : World σ) : Prop :=
  ∃ a ∈ published w.dev, ∃ b ∈ published w.dev, ∃ c ∈ published w.dev, a.moved ≤ b.moved ∧ b.moved ≤ c.moved ∧
    avail = CInt.toUInt (CInt.wrapInt
    (if p.isIn then pcmMmapCaptureAvail p a.hwPtr applPtr else pcmMmapPlaybackAvail p a.hwPtr applPtr)) ∧
    tstamp = ⟨b.tstamp.sec, c.tstamp.nsec⟩

/-- What a record makes available, computed and as the library stores it. -/
theorem HwRecord.OnTrack.stored (hp : BoundarySized p) (happl : applPtr < p.boundary) {start : UInt64} {r : HwRecord}
    (h : r.OnTrack p start applPtr) :
    (CInt.toUInt (CInt.wrapInt
      (if p.isIn then pcmMmapCaptureAvail p r.hwPtr applPtr else pcmMmapPlaybackAvail p r.hwPtr applPtr))).toNat =
      p.distance r.hwPtr applPtr := by
  have hpos : 0 < p.boundary.toNat := by
    have := hp.nonempty
    have := hp.twice
    omega
  have hhw : r.hwPtr < p.boundary := by
    rw [UInt64.lt_iff_toNat_lt, h.hwPtr]
    exact Nat.mod_lt _ hpos
  rw [pcmMmapAvail_distance hp hhw happl]
  exact CInt.toNat_toUInt_wrapInt (h.avail.trans_lt (by decide))

/-- A published record is known by how far the hardware had moved. -/
theorem HwPublishes.eq_of_moved (hpub : HwPublishes ops published) {d : σ} {r r' : HwRecord} (hr : r ∈ published d)
    (hr' : r' ∈ published d) (h : r.moved = r'.moved) : r = r' := by
  have hnodup : ((published d).map HwRecord.moved).Nodup := by
    rw [List.Nodup, List.pairwise_map]
    exact (hpub.forward d).imp fun hlt => (Nat.ne_of_lt hlt).symm
  exact List.inj_on_of_nodup_map hnodup hr hr' h

/-- Two published records that make the same number of frames available are one. -/
theorem HwRecord.OnTrack.eq (hpub : HwPublishes ops published) {start : UInt64} {d : σ} {r r' : HwRecord}
    (hr : r ∈ published d) (hr' : r' ∈ published d) (h : r.OnTrack p start applPtr) (h' : r'.OnTrack p start applPtr)
    (heq : p.distance r.hwPtr applPtr = p.distance r'.hwPtr applPtr) : r = r' := by
  have hlt := h.moved.trans_le (min_le_left _ _)
  have hlt' := h'.moved.trans_le (min_le_left _ _)
  have hpos : 0 < p.boundary.toNat := by omega
  have hmod : (r.hwPtr.toNat : Int) ≡ r'.hwPtr.toNat [ZMOD p.boundary.toNat] := by
    have hdist := congrArg (Nat.cast (R := Int)) heq
    rw [(Pcm.distance_lt hpos _ _).1, (Pcm.distance_lt hpos _ _).1] at hdist
    have hsum : (r.hwPtr.toNat + (p.lead - applPtr.toNat) : Int) ≡
        r'.hwPtr.toNat + (p.lead - applPtr.toNat) [ZMOD p.boundary.toNat] := by
      rw [← add_sub_assoc, ← add_sub_assoc]
      exact hdist
    exact Int.ModEq.add_right_cancel' _ hsum
  have hmoved : start.toNat + r.moved ≡ start.toNat + r'.moved [MOD p.boundary.toNat] := by
    have hmod' := (Int.natCast_modEq_iff).1 hmod
    rw [h.hwPtr, h'.hwPtr] at hmod'
    exact ((Nat.mod_modEq _ _).symm.trans hmod').trans (Nat.mod_modEq _ _)
  exact hpub.eq_of_moved hr hr' (Nat.ModEq.eq_of_lt_of_lt (Nat.ModEq.add_left_cancel' _ hmoved) hlt hlt')

/-- Where the loop succeeds, what it has stored is of one record. -/
theorem htimestampAgain_consistent (hpub : HwPublishes ops published) (hp : BoundarySized p)
    (happl : applPtr < p.boundary)
    (start : UInt64) : ∀ (fuel : Nat) (checking : Bool) (avail : UInt32) (tstamp : Timespec) (w : World σ) {a : UInt32}
    {t : Timespec},
    Mapped ops p applPtr w → (checking → Stored published p applPtr avail tstamp w) →
    (exec (htimestampAgain ops fuel checking avail tstamp) w).1 = some (0, a, t) →
    (∀ r ∈ published (exec (htimestampAgain ops fuel checking avail tstamp) w).2.dev, r.OnTrack p start applPtr) →
    ∃ r, ShownBetween published w (exec (htimestampAgain ops fuel checking avail tstamp) w).2 r ∧
      a.toNat = p.distance r.hwPtr applPtr ∧ t = r.tstamp
  | 0, _, _, _, _, _, _, _, _, hr, _ => by cases hr
  | fuel + 1, checking, avail, tstamp, w, a, t, hw, hstored, hr, htrack => by
    obtain ⟨h₁, r, hshown, htmp⟩ := hpub.pcmAvailUpdate hw
    rw [htimestampAgain, exec_bind] at hr htrack ⊢
    generalize (exec (pcmAvailUpdate ops) w).2 = w₁ at *
    generalize (exec (pcmAvailUpdate ops) w).1 = tmp at *
    by_cases hneg : tmp < 0
    · rw [if_pos hneg] at hr
      obtain ⟨hzero, -⟩ := Prod.mk.inj (Option.some.inj hr)
      exact absurd hzero hneg.ne
    rw [if_neg hneg] at hr htrack ⊢
    by_cases hsame : checking ∧ CInt.toUInt tmp = avail
    · rw [if_pos hsame] at hr htrack ⊢
      obtain ⟨-, hstore⟩ := Prod.mk.inj (Option.some.inj hr)
      obtain ⟨rfl, rfl⟩ := Prod.mk.inj hstore
      obtain ⟨r₁, hr₁, r₂, hr₂, r₃, hr₃, hle₁, hle₂, havail, hts⟩ := hstored hsame.1
      have hmem : ∀ r ∈ published w.dev, r ∈ published w₁.dev := fun r h => hshown.grows.subset h
      have ht := htrack r hshown.member
      have ht₁ := htrack r₁ (hmem r₁ hr₁)
      have hdist : p.distance r₁.hwPtr applPtr = p.distance r.hwPtr applPtr := by
        rw [← ht₁.stored hp happl, ← ht.stored hp happl, ← havail, ← htmp, hsame.2]
      obtain rfl := HwRecord.OnTrack.eq hpub (hmem r₁ hr₁) hshown.member ht₁ ht hdist
      -- nothing was published between the first read and the last
      have hle := hshown.newer r₃ hr₃
      obtain rfl := hpub.eq_of_moved (hmem r₂ hr₂) (hmem r₁ hr₁) (by omega)
      obtain rfl := hpub.eq_of_moved (hmem r₃ hr₃) (hmem r₂ hr₂) (by omega)
      exact ⟨r₃, hshown, by rw [havail]; exact ht₁.stored hp happl, hts⟩
    · rw [if_neg hsame, exec_bind] at hr htrack ⊢
      obtain ⟨h₂, b, hb, -, hsec⟩ := hpub.mmapStatus h₁
      generalize (exec (mmapStatus ops) w₁).2 = w₂ at *
      rw [exec_bind] at hr htrack ⊢
      obtain ⟨h₃, c, hc, -, hnsec⟩ := hpub.mmapStatus h₂
      generalize (exec (mmapStatus ops) w₂).2 = w₃ at *
      simp only [exec_bind, exec_get, h₃.pages, Option.isNone_none, if_true] at hr htrack ⊢
      have hgrow := hb.grows.trans hc.grows
      have hnext : Stored published p applPtr (CInt.toUInt tmp)
          ⟨(exec (mmapStatus ops) w₁).1.tstamp.sec, (exec (mmapStatus ops) w₂).1.tstamp.nsec⟩ w₃ := ?_
      · obtain ⟨r', hr', hstore⟩ :=
          htimestampAgain_consistent hpub hp happl start fuel true _ _ w₃ h₃ (fun _ => hnext) hr htrack
        exact ⟨r', ((hshown.trans hb).trans hc).trans hr', hstore⟩
      refine ⟨r, hgrow.subset hshown.member, b, hc.grows.subset hb.member, c, hc.member, ?_, ?_, ?_, ?_⟩
      · exact hb.newer r hshown.member
      · exact hc.newer b hb.member
      · rw [htmp]
      · rw [hsec, hnsec]

/-- On a handle with a mapped status page, `pcm_get_htimestamp` returns the frames that were available and the
time stamp that was shown for one and the same record, whatever is published between its reads. -/
theorem pcmGetHtimestamp_consistent (hpub : HwPublishes ops published) (hp : BoundarySized w.pcm)
    (hpages : w.pcm.syncPtr = none)
    (happl : (ops.control w.dev).applPtr < w.pcm.boundary) (start : UInt64) (fuel : Nat) (avail : UInt32)
      (tstamp : Timespec)
    {a : UInt32} {t : Timespec} (hr : (exec (pcmGetHtimestamp ops fuel avail tstamp) w).1 = some (0, a, t))
    (htrack : ∀ r ∈ published (exec (pcmGetHtimestamp ops fuel avail tstamp) w).2.dev,
      r.OnTrack w.pcm start (ops.control w.dev).applPtr) :
    ∃ r, ShownBetween published w (exec (pcmGetHtimestamp ops fuel avail tstamp) w).2 r ∧
      a.toNat = w.pcm.distance r.hwPtr (ops.control w.dev).applPtr ∧ t = r.tstamp := by
  unfold pcmGetHtimestamp at hr htrack ⊢
  rw [exec_bind, exec_get] at hr htrack ⊢
  by_cases hready : (!pcmIsReady w.pcm) = true
  · rw [if_pos hready] at hr
    obtain ⟨hzero, -⟩ := Prod.mk.inj (Option.some.inj hr)
    exact absurd hzero (by decide)
  · rw [if_neg hready] at hr htrack ⊢
    exact htimestampAgain_consistent hpub hp happl start fuel false avail tstamp w ⟨.refl _, hpages, rfl⟩
      (fun h => absurd h (by decide)) hr htrack

end

/-! ## A driver -/

/-- The hardware moves by one frame before each of the first accesses, and is stamped with its position. -/
def tickingOps : PcmOps Kernel :=
  { Kernel.ops with
    run := fun k => { k with status :=
      { k.status with hwPtr := if k.status.hwPtr < 5 then k.status.hwPtr + 1 else k.status.hwPtr } }
    status := fun k => { k.status with tstamp := ⟨k.status.hwPtr.toNat, 10 * k.status.hwPtr.toNat⟩ } }

/-- The record of a position. -/
def tick (n : Nat) : HwRecord := ⟨n, UInt64.ofNat n, ⟨n, 10 * n⟩⟩

/-- The records up to the present one. -/
def ticks (k : Kernel) : List HwRecord := ((List.range (k.status.hwPtr.toNat + 1)).map tick).reverse

theorem tickingOps_publishes : HwPublishes tickingOps ticks where
  shows k := by
    refine ⟨tick k.status.hwPtr.toNat, ?_, ?_, rfl⟩
    · rw [ticks, List.range_succ, List.map_append, List.reverse_append]
      rfl
    · exact (UInt64.ofNat_toNat).symm
  forward k := by
    rw [ticks, List.pairwise_reverse, List.pairwise_map]
    exact List.pairwise_lt_range
  run k := by
    refine ⟨?_, rfl⟩
    by_cases hlt : k.status.hwPtr < 5
    · have hnat : k.status.hwPtr.toNat < 5 := UInt64.lt_iff_toNat_lt.1 hlt
      have hnext : (tickingOps.run k).status.hwPtr.toNat = k.status.hwPtr.toNat + 1 := by
        simp only [tickingOps, hlt, if_true]
        rw [UInt64.toNat_add]
        exact Nat.mod_eq_of_lt (by change k.status.hwPtr.toNat + 1 < _; omega)
      rw [ticks, ticks, hnext, List.range_succ (n := k.status.hwPtr.toNat + 1), List.map_append, List.reverse_append]
      exact List.suffix_append _ _
    · have hsame : (tickingOps.run k).status.hwPtr = k.status.hwPtr := by simp only [tickingOps, hlt, if_false]
      rw [ticks, ticks, hsame]
  hwsync k := ⟨List.suffix_refl _, rfl⟩

theorem pcmGetHtimestamp_consistent_ticking :
    (exec (pcmGetHtimestamp tickingOps 5 0 {}) freeWorld).1 = some (0, 5, ⟨5, 50⟩) ∧
      ∃ r, ShownBetween ticks freeWorld (exec (pcmGetHtimestamp tickingOps 5 0 {}) freeWorld).2 r ∧
        (5 : UInt32).toNat = freeWorld.pcm.distance r.hwPtr (tickingOps.control freeWorld.dev).applPtr ∧
        ⟨5, 50⟩ = r.tstamp := by
  have hrun : (exec (pcmGetHtimestamp tickingOps 5 0 {}) freeWorld).1 = some (0, 5, ⟨5, 50⟩) := by decide +kernel
  refine ⟨hrun, ?_⟩
  refine pcmGetHtimestamp_consistent tickingOps_publishes ⟨by decide, by decide, by decide⟩ rfl
    (by decide) 0 5 0 {} hrun ?_
  have hend : (exec (pcmGetHtimestamp tickingOps 5 0 {}) freeWorld).2.dev.status.hwPtr.toNat = 5 := by decide +kernel
  intro r hr
  rw [ticks, hend, List.mem_reverse] at hr
  obtain ⟨n, hn, rfl⟩ := List.mem_map.1 hr
  have hn := List.mem_range.1 hn
  interval_cases n
  all_goals exact ⟨by decide +kernel, by decide +kernel, by decide +kernel⟩

end Tinyalsa
