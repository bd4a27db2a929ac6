import Mathlib.Algebra.Order.Ring.Int
import MediaAgent.Library.RoundedDivision
import MediaAgent.Recorder

/-!
# The timestamps of a recording

The packets of one file, as `writePacketInternal` hands them to the muxer. They are counted from the first timestamp,
which `start_pts_us_` holds; as -1 stands for "not yet known", a negative one is forgotten again.
-/

namespace MediaAgent
open RoundedDivision

/-- `av_rescale_q`: exact scaling, rounded to the nearest integer. -/
def avRescaleQ (a : Int) (bq cq : Int × Int) : Int := roundDiv (a * (bq.1 * cq.2)) (bq.2 * cq.1)

def PositiveTimeBase (timeBase : Int × Int) : Prop := 0 < timeBase.1 ∧ 0 < timeBase.2

instance (timeBase : Int × Int) : Decidable (PositiveTimeBase timeBase) := inferInstanceAs (Decidable (_ ∧ _))

/-- The time `ts` in units of `bq` is less than half a unit of `cq` below zero. -/
def NotBelow (ts : Int) (bq cq : Int × Int) : Prop := -(bq.2 * cq.1) < 2 * (ts * (bq.1 * cq.2))

instance (ts : Int) (bq cq : Int × Int) : Decidable (NotBelow ts bq cq) :=
  inferInstanceAs (Decidable (_ < _))

/-- The timestamp that a packet is counted by: its dts, or its pts if it has none. -/
def AVPacket.firstTs (packet : AVPacket) : Int := if packet.dts = avNoptsValue then packet.pts else packet.dts

def trackOf (states : List OutputStreamState) (packet : AVPacket) : Option OutputStreamState :=
  states.find? (·.spec.inputStreamIndex == packet.streamIndex)

/-- The packets are written one after the other. -/
def Recorder.writePackets (rescale : Int → Int × Int → Int × Int → Int) (r : Recorder) (packets : List AVPacket) :
    Recorder :=
  packets.foldl (fun r packet => (r.writePacketInternal rescale packet {}).2) r

/-- Within a track decoding times do not decrease, and no packet is shown before it is decoded. -/
structure Ordered (packets : List AVPacket) : Prop where
  dts : packets.Pairwise fun p q => p.streamIndex = q.streamIndex →
    p.dts ≠ avNoptsValue → q.dts ≠ avNoptsValue → p.dts ≤ q.dts
  pts : ∀ p ∈ packets, p.pts ≠ avNoptsValue → p.dts ≠ avNoptsValue → p.dts ≤ p.pts

lemma Ordered.sublist {packets packets' : List AVPacket} (h : Ordered packets) (hsub : packets'.Sublist packets) :
    Ordered packets' :=
  ⟨h.dts.sublist hsub, fun p hp => h.pts p (hsub.subset hp)⟩

/-- What a muxer expects: no negative timestamp, the order within a track and between dts and pts is kept, and the
first packet with a timestamp is at zero. -/
structure Recording.WellTimed (file : Recording) : Prop where
  pts_nonneg : ∀ w ∈ file, w.source.pts ≠ avNoptsValue → 0 ≤ w.muxed.pts
  dts_nonneg : ∀ w ∈ file, w.source.dts ≠ avNoptsValue → 0 ≤ w.muxed.dts
  dts : file.Pairwise fun v w => v.source.streamIndex = w.source.streamIndex →
    v.source.dts ≠ avNoptsValue → w.source.dts ≠ avNoptsValue → v.muxed.dts ≤ w.muxed.dts
  pts : ∀ w ∈ file, w.source.pts ≠ avNoptsValue → w.source.dts ≠ avNoptsValue → w.muxed.dts ≤ w.muxed.pts
  first : ∀ w ∈ file.find? (·.source.firstTs != avNoptsValue),
    if w.source.dts = avNoptsValue then w.muxed.pts = 0 else w.muxed.dts = 0

/-- The packet does not set a start that is kept: it has no track or no timestamp, or lies before zero. -/
def beforeZero (states : List OutputStreamState) (packet : AVPacket) : Bool :=
  match trackOf states packet with
  | none => true
  | some state =>
    packet.firstTs == avNoptsValue || !decide (NotBelow packet.firstTs state.spec.timeBase avTimeBaseQ)

/-- The packets that are written before the first one at zero or later are so close to zero that they are at zero
in the time base of the muxer. -/
def StartsAtZero (states : List OutputStreamState) (packets : List AVPacket) : Prop :=
  ∀ packet ∈ packets.takeWhile (beforeZero states), ∀ state ∈ trackOf states packet,
    packet.firstTs ≠ avNoptsValue → NotBelow packet.firstTs state.spec.timeBase state.timeBase

/-! ## Rescaling -/

section rescale

variable {a b : Int} {bq cq : Int × Int}

lemma avRescaleQ_zero (hb : PositiveTimeBase bq) (hc : PositiveTimeBase cq) : avRescaleQ 0 bq cq = 0 := by
  rw [avRescaleQ, zero_mul]
  exact roundDiv_zero (mul_pos hb.2 hc.1)

lemma avRescaleQ_nonneg_iff (hb : PositiveTimeBase bq) (hc : PositiveTimeBase cq) :
    0 ≤ avRescaleQ a bq cq ↔ NotBelow a bq cq :=
  roundDiv_nonneg_iff (mul_pos hb.2 hc.1)

lemma avRescaleQ_mono (hb : PositiveTimeBase bq) (hc : PositiveTimeBase cq) (h : a ≤ b) :
    avRescaleQ a bq cq ≤ avRescaleQ b bq cq :=
  roundDiv_mono (mul_pos hb.2 hc.1) (mul_le_mul_of_nonneg_right h (mul_pos hb.1 hc.2).le)

lemma avRescaleQ_nonneg (hb : PositiveTimeBase bq) (hc : PositiveTimeBase cq) (h : 0 ≤ a) :
    0 ≤ avRescaleQ a bq cq := by
  rw [← avRescaleQ_zero hb hc]
  exact avRescaleQ_mono hb hc h

lemma avRescaleQ_nonpos (hb : PositiveTimeBase bq) (hc : PositiveTimeBase cq) (h : a ≤ 0) :
    avRescaleQ a bq cq ≤ 0 := by
  rw [← avRescaleQ_zero hb hc]
  exact avRescaleQ_mono hb hc h

end rescale

lemma positive_avTimeBaseQ : PositiveTimeBase avTimeBaseQ := ⟨by decide, by decide⟩

/-! ## One packet -/

/-- The time bases of a track and of its output. -/
structure OutputStreamState.Positive (state : OutputStreamState) : Prop where
  spec : PositiveTimeBase state.spec.timeBase
  muxer : PositiveTimeBase state.timeBase

namespace Recorder

/-- A timestamp of a packet that is handed to the muxer. -/
def muxedTs (state : OutputStreamState) (startPtsUs ts : Int) : Int :=
  if ts = avNoptsValue then ts
  else if 0 ≤ startPtsUs then
    avRescaleQ (max 0 (avRescaleQ ts state.spec.timeBase avTimeBaseQ - startPtsUs)) avTimeBaseQ state.timeBase
  else avRescaleQ ts state.spec.timeBase state.timeBase

variable {state : OutputStreamState} {startPtsUs : Int}

lemma muxPacket_ts (packet : AVPacket) :
    (muxPacket avRescaleQ state startPtsUs packet).pts = muxedTs state startPtsUs packet.pts ∧
      (muxPacket avRescaleQ state startPtsUs packet).dts = muxedTs state startPtsUs packet.dts := by
  have hduration : ∀ (muxed : AVPacket) (duration : Int),
      (if 0 < muxed.duration then { muxed with duration := duration } else muxed).pts = muxed.pts ∧
        (if 0 < muxed.duration then { muxed with duration := duration } else muxed).dts = muxed.dts := by
    intro muxed duration
    split <;> exact ⟨rfl, rfl⟩
  unfold muxPacket muxedTs
  dsimp only
  rw [(hduration _ _).1, (hduration _ _).2]
  by_cases hstart : 0 ≤ startPtsUs
  · simp only [if_pos hstart]
    exact ⟨rfl, rfl⟩
  · simp only [if_neg hstart]
    exact ⟨rfl, rfl⟩

lemma muxedTs_mono (h : state.Positive) {ts ts' : Int} (hts : ts ≠ avNoptsValue) (hts' : ts' ≠ avNoptsValue)
    (hle : ts ≤ ts') : muxedTs state startPtsUs ts ≤ muxedTs state startPtsUs ts' := by
  rw [muxedTs, if_neg hts, muxedTs, if_neg hts']
  by_cases hstart : 0 ≤ startPtsUs
  · rw [if_pos hstart, if_pos hstart]
    have hus := avRescaleQ_mono h.spec positive_avTimeBaseQ hle
    exact avRescaleQ_mono positive_avTimeBaseQ h.muxer (max_le_max le_rfl (by omega))
  · rw [if_neg hstart, if_neg hstart]
    exact avRescaleQ_mono h.spec h.muxer hle

/-- Counted from a start, no timestamp is negative. -/
lemma muxedTs_nonneg (h : state.Positive) (hstart : 0 ≤ startPtsUs) {ts : Int} (hts : ts ≠ avNoptsValue) :
    0 ≤ muxedTs state startPtsUs ts := by
  rw [muxedTs, if_neg hts, if_pos hstart]
  exact avRescaleQ_nonneg positive_avTimeBaseQ h.muxer (le_max_left _ _)

/-- The timestamp that sets the start is at zero. -/
lemma muxedTs_start (h : state.Positive) {ts : Int} (hts : ts ≠ avNoptsValue)
    (hstart : 0 ≤ avRescaleQ ts state.spec.timeBase avTimeBaseQ) :
    muxedTs state (avRescaleQ ts state.spec.timeBase avTimeBaseQ) ts = 0 := by
  rw [muxedTs, if_neg hts, if_pos hstart, sub_self, max_self]
  exact avRescaleQ_zero positive_avTimeBaseQ h.muxer

/-- The packet that is handed to the muxer, if there is a track for it. -/
def handed (states : List OutputStreamState) (startPtsUs : Int) (packet : AVPacket) : Option WrittenPacket :=
  (trackOf states packet).map fun state => ⟨packet, muxPacket avRescaleQ state startPtsUs packet⟩

/-- The packets of a file, from a given start on. -/
def muxAll (states : List OutputStreamState) : Int → List AVPacket → Recording
  | _, [] => []
  | startPtsUs, packet :: packets =>
    match trackOf states packet with
    | none => muxAll states startPtsUs packets
    | some state =>
      let startPtsUs := nextStartPtsUs avRescaleQ state startPtsUs packet
      ⟨packet, muxPacket avRescaleQ state startPtsUs packet⟩ :: muxAll states startPtsUs packets

lemma writePackets_open {r : Recorder} {file : Recording} (hopen : r.fmtCtx = some file) (packets : List AVPacket) :
    (r.writePackets avRescaleQ packets).fmtCtx = some (file ++ muxAll r.streamStates r.startPtsUs packets) := by
  induction packets generalizing r file with
  | nil => rw [muxAll, List.append_nil, writePackets, List.foldl_nil, hopen]
  | cons packet packets ih =>
    have hfold : r.writePackets avRescaleQ (packet :: packets) =
        (r.writePacketInternal avRescaleQ packet {}).2.writePackets avRescaleQ packets := rfl
    rw [hfold, muxAll]
    cases htrack : trackOf r.streamStates packet with
    | none =>
      have hwrite : r.writePacketInternal avRescaleQ packet {} = (false, r) := by
        rw [trackOf] at htrack
        simp only [writePacketInternal, hopen, htrack]
      rw [hwrite]
      exact ih hopen
    | some state =>
      have hwrite : r.writePacketInternal avRescaleQ packet {} = (true, { r with
          startPtsUs := nextStartPtsUs avRescaleQ state r.startPtsUs packet
          fmtCtx := some (file ++ [⟨packet, muxPacket avRescaleQ state
            (nextStartPtsUs avRescaleQ state r.startPtsUs packet) packet⟩]) }) := by
        rw [trackOf] at htrack
        simp only [writePacketInternal, hopen, htrack]
        rfl
      rw [hwrite, ih (r := { r with
        startPtsUs := nextStartPtsUs avRescaleQ state r.startPtsUs packet
        fmtCtx := _ }) rfl, List.append_assoc]
      rfl

variable {states : List OutputStreamState} {startPtsUs : Int}

/-- A start is kept once it is known. -/
lemma muxAll_started (hstart : 0 ≤ startPtsUs) (packets : List AVPacket) :
    muxAll states startPtsUs packets = packets.filterMap (handed states startPtsUs) := by
  induction packets with
  | nil => rfl
  | cons packet packets ih =>
    rw [muxAll, List.filterMap_cons, handed]
    cases trackOf states packet with
    | none => exact ih
    | some state =>
      have hnext : nextStartPtsUs avRescaleQ state startPtsUs packet = startPtsUs := by
        rw [nextStartPtsUs]
        exact if_neg fun h => absurd h.1 (not_lt.mpr hstart)
      simp only [hnext, ih, Option.map_some]

/-- Without a start a packet is rescaled as it is. -/
lemma muxPacket_negative {state : OutputStreamState} (hstart : startPtsUs < 0) (packet : AVPacket) :
    muxPacket avRescaleQ state startPtsUs packet = muxPacket avRescaleQ state (-1) packet := by
  unfold muxPacket
  dsimp only
  rw [if_neg (not_le.mpr hstart), if_neg (show ¬(0 : Int) ≤ -1 by decide)]

lemma nextStartPtsUs_eq (state : OutputStreamState) (packet : AVPacket) :
    nextStartPtsUs avRescaleQ state startPtsUs packet =
      if startPtsUs < 0 ∧ packet.firstTs ≠ avNoptsValue then
        avRescaleQ packet.firstTs state.spec.timeBase avTimeBaseQ
      else startPtsUs := rfl

/-- What stands before zero leaves the start unknown. -/
lemma nextStartPtsUs_negative {state : OutputStreamState} (h : state.Positive) (hstart : startPtsUs < 0)
    {packet : AVPacket} (htrack : trackOf states packet = some state) (hbefore : beforeZero states packet = true) :
    nextStartPtsUs avRescaleQ state startPtsUs packet < 0 := by
  rw [beforeZero, htrack] at hbefore
  simp only [Bool.or_eq_true, beq_iff_eq, Bool.not_eq_true', decide_eq_false_iff_not] at hbefore
  rw [nextStartPtsUs_eq]
  by_cases hset : startPtsUs < 0 ∧ packet.firstTs ≠ avNoptsValue
  · rw [if_pos hset, ← not_le, avRescaleQ_nonneg_iff h.spec positive_avTimeBaseQ]
    exact hbefore.resolve_left hset.2
  · rw [if_neg hset]
    exact hstart

/-- The packet that is not before zero has a track, and sets the start. -/
lemma nextStartPtsUs_zero (hpos : ∀ state ∈ states, state.Positive) (hstart : startPtsUs < 0) {packet : AVPacket}
    (hbefore : ¬beforeZero states packet = true) : ∃ state, trackOf states packet = some state ∧
      packet.firstTs ≠ avNoptsValue ∧ 0 ≤ avRescaleQ packet.firstTs state.spec.timeBase avTimeBaseQ ∧
      nextStartPtsUs avRescaleQ state startPtsUs packet =
        avRescaleQ packet.firstTs state.spec.timeBase avTimeBaseQ := by
  rw [beforeZero] at hbefore
  cases htrack : trackOf states packet with
  | none => simp [htrack] at hbefore
  | some state =>
    simp only [htrack, Bool.or_eq_true, beq_iff_eq, Bool.not_eq_true', decide_eq_false_iff_not, not_or,
      not_not] at hbefore
    have hstate := hpos state (List.mem_of_find?_eq_some htrack)
    refine ⟨state, rfl, hbefore.1, (avRescaleQ_nonneg_iff hstate.spec positive_avTimeBaseQ).mpr hbefore.2, ?_⟩
    rw [nextStartPtsUs_eq, if_pos ⟨hstart, hbefore.1⟩]

/-- The packets of a file: those before zero are handed over without a start, and the others from the start that the
first of them sets. -/
lemma muxAll_eq (hpos : ∀ state ∈ states, state.Positive) (hstart : startPtsUs < 0) (packets : List AVPacket) :
    ∃ start rest, packets = packets.takeWhile (beforeZero states) ++ rest ∧ 0 ≤ start ∧
      muxAll states startPtsUs packets = (packets.takeWhile (beforeZero states)).filterMap (handed states (-1)) ++
        rest.filterMap (handed states start) ∧
      ∀ packet ∈ rest.head?, ∃ state, trackOf states packet = some state ∧ packet.firstTs ≠ avNoptsValue ∧
        start = avRescaleQ packet.firstTs state.spec.timeBase avTimeBaseQ := by
  induction packets generalizing startPtsUs with
  | nil => exact ⟨0, [], rfl, le_rfl, rfl, by simp⟩
  | cons packet packets ih =>
    by_cases hbefore : beforeZero states packet = true
    · rw [List.takeWhile_cons_of_pos hbefore]
      cases htrack : trackOf states packet with
      | none =>
        obtain ⟨start, rest, hsplit, hzero, hmux, hfirst⟩ := ih hstart
        refine ⟨start, rest, ?_, hzero, ?_, hfirst⟩
        · rw [List.cons_append, ← hsplit]
        · rw [List.filterMap_cons, handed, htrack, muxAll, htrack]
          exact hmux
      | some state =>
        have hstate := hpos state (List.mem_of_find?_eq_some htrack)
        have hnext := nextStartPtsUs_negative hstate hstart htrack hbefore
        obtain ⟨start, rest, hsplit, hzero, hmux, hfirst⟩ := ih hnext
        refine ⟨start, rest, ?_, hzero, ?_, hfirst⟩
        · rw [List.cons_append, ← hsplit]
        · rw [List.filterMap_cons, handed, htrack, muxAll, htrack, Option.map_some]
          dsimp only
          rw [hmux, muxPacket_negative hnext, List.cons_append]
    · obtain ⟨state, htrack, htimed, hzero, hnext⟩ := nextStartPtsUs_zero hpos hstart hbefore
      rw [List.takeWhile_cons_of_neg hbefore]
      refine ⟨_, packet :: packets, rfl, hzero, ?_, ?_⟩
      · rw [muxAll, htrack, List.filterMap_nil, List.nil_append, List.filterMap_cons, handed, htrack, Option.map_some]
        dsimp only
        rw [hnext, muxAll_started hzero]
      · intro first hfirst
        obtain rfl := Option.some.inj hfirst
        exact ⟨state, htrack, htimed, rfl⟩

/-! ## The packets of one file -/

/-- The timestamps of a written packet, where the start of its file is `startPtsUs`. -/
structure HandedOver (states : List OutputStreamState) (startPtsUs : Int) (w : WrittenPacket)
    (state : OutputStreamState) : Prop where
  track : trackOf states w.source = some state
  pts : w.muxed.pts = muxedTs state startPtsUs w.source.pts
  dts : w.muxed.dts = muxedTs state startPtsUs w.source.dts

lemma handed_eq_some {packet : AVPacket} {w : WrittenPacket} (h : handed states startPtsUs packet = some w) :
    w.source = packet ∧ ∃ state, HandedOver states startPtsUs w state := by
  obtain ⟨state, htrack, rfl⟩ := Option.map_eq_some_iff.mp h
  exact ⟨rfl, state, htrack, (muxPacket_ts packet).1, (muxPacket_ts packet).2⟩

lemma exists_handed {packet : AVPacket} {state : OutputStreamState} (h : trackOf states packet = some state)
    (startPtsUs : Int) : ∃ w, handed states startPtsUs packet = some w ∧ w.source = packet ∧
      HandedOver states startPtsUs w state := by
  refine ⟨⟨packet, muxPacket avRescaleQ state startPtsUs packet⟩, ?_, rfl, h, (muxPacket_ts packet).1,
    (muxPacket_ts packet).2⟩
  rw [handed, h, Option.map_some]

lemma mem_filterMap_handed {packets : List AVPacket} {w : WrittenPacket}
    (h : w ∈ packets.filterMap (handed states startPtsUs)) :
    w.source ∈ packets ∧ ∃ state, HandedOver states startPtsUs w state := by
  obtain ⟨packet, hmem, hw⟩ := List.mem_filterMap.mp h
  obtain ⟨rfl, hstate⟩ := handed_eq_some hw
  exact ⟨hmem, hstate⟩

lemma trackOf_congr {p q : AVPacket} (h : p.streamIndex = q.streamIndex) : trackOf states p = trackOf states q := by
  rw [trackOf, trackOf, h]

/-- The timestamp by which a packet is counted, in the written packet. -/
lemma HandedOver.first {w : WrittenPacket} {state : OutputStreamState} (h : HandedOver states startPtsUs w state) :
    muxedTs state startPtsUs w.source.firstTs = if w.source.dts = avNoptsValue then w.muxed.pts else w.muxed.dts := by
  rw [AVPacket.firstTs, h.pts, h.dts]
  split <;> rfl

lemma firstTs_ne_of_dts {packet : AVPacket} (h : packet.dts ≠ avNoptsValue) :
    packet.firstTs = packet.dts ∧ packet.firstTs ≠ avNoptsValue := by
  rw [AVPacket.firstTs, if_neg h]
  exact ⟨rfl, h⟩

lemma firstTs_of_no_dts {packet : AVPacket} (h : packet.dts = avNoptsValue) : packet.firstTs = packet.pts := by
  rw [AVPacket.firstTs, if_pos h]

variable (hpos : ∀ state ∈ states, state.Positive)
include hpos

/-- Packets that are counted from the same start keep the order within each track. -/
lemma pairwise_handed {packets : List AVPacket} (h : Ordered packets) :
    (packets.filterMap (handed states startPtsUs)).Pairwise fun v w => v.source.streamIndex = w.source.streamIndex →
      v.source.dts ≠ avNoptsValue → w.source.dts ≠ avNoptsValue → v.muxed.dts ≤ w.muxed.dts := by
  rw [List.pairwise_filterMap]
  refine h.dts.imp fun {p q} hle v hv w hw hindex hvdts hwdts => ?_
  obtain ⟨rfl, state, hv⟩ := handed_eq_some hv
  obtain ⟨rfl, state', hw⟩ := handed_eq_some hw
  have hsame : state' = state := by
    have htrack := hw.track
    rw [← trackOf_congr hindex, hv.track] at htrack
    exact (Option.some.inj htrack).symm
  rw [hv.dts, hw.dts, hsame]
  exact muxedTs_mono (hpos state (List.mem_of_find?_eq_some hv.track)) hvdts hwdts (hle hindex hvdts hwdts)

lemma pts_handed {packets : List AVPacket} (h : Ordered packets) {w : WrittenPacket}
    (hw : w ∈ packets.filterMap (handed states startPtsUs)) (hpts : w.source.pts ≠ avNoptsValue)
    (hdts : w.source.dts ≠ avNoptsValue) : w.muxed.dts ≤ w.muxed.pts := by
  obtain ⟨hmem, state, hstate⟩ := mem_filterMap_handed hw
  rw [hstate.pts, hstate.dts]
  exact muxedTs_mono (hpos state (List.mem_of_find?_eq_some hstate.track)) hdts hpts (h.pts _ hmem hpts hdts)

/-- A packet before zero is handed over with the timestamp zero or a negative one. -/
lemma muxedTs_before {packet : AVPacket} {state : OutputStreamState} (htrack : trackOf states packet = some state)
    (hbefore : beforeZero states packet = true) (htimed : packet.firstTs ≠ avNoptsValue) :
    muxedTs state (-1) packet.firstTs = avRescaleQ packet.firstTs state.spec.timeBase state.timeBase ∧
      muxedTs state (-1) packet.firstTs ≤ 0 := by
  have hstate := hpos state (List.mem_of_find?_eq_some htrack)
  have hmux : muxedTs state (-1) packet.firstTs =
      avRescaleQ packet.firstTs state.spec.timeBase state.timeBase := by
    rw [muxedTs, if_neg htimed, if_neg (by decide)]
  refine ⟨hmux, ?_⟩
  have hneg : packet.firstTs ≤ 0 := by
    by_contra hge
    rw [beforeZero, htrack] at hbefore
    simp only [Bool.or_eq_true, beq_iff_eq, Bool.not_eq_true', decide_eq_false_iff_not] at hbefore
    refine hbefore.resolve_left htimed ?_
    rw [← avRescaleQ_nonneg_iff hstate.spec positive_avTimeBaseQ]
    exact avRescaleQ_nonneg hstate.spec positive_avTimeBaseQ (by omega)
  rw [hmux]
  exact avRescaleQ_nonpos hstate.spec hstate.muxer hneg

/-- The timestamps of a packet that is counted from zero. -/
structure AtZero (w : WrittenPacket) : Prop where
  first : w.source.firstTs ≠ avNoptsValue → if w.source.dts = avNoptsValue then w.muxed.pts = 0 else w.muxed.dts = 0
  pts_nonneg : w.source.pts ≠ avNoptsValue → 0 ≤ w.muxed.pts
  dts_nonneg : w.source.dts ≠ avNoptsValue → w.muxed.dts = 0

/-- Where the packets before zero are close to it, the muxer gets zero for them. -/
lemma atZero_of_startsAtZero {packets : List AVPacket} (hordered : Ordered packets)
    (h : StartsAtZero states packets) {w : WrittenPacket}
    (hw : w ∈ (packets.takeWhile (beforeZero states)).filterMap (handed states (-1))) : AtZero w := by
  obtain ⟨hmem, state, hstate⟩ := mem_filterMap_handed hw
  have hpositive := hpos state (List.mem_of_find?_eq_some hstate.track)
  have hbefore := List.all_eq_true.mp List.all_takeWhile w.source hmem
  have hfirst : w.source.firstTs ≠ avNoptsValue →
      (if w.source.dts = avNoptsValue then w.muxed.pts else w.muxed.dts) = 0 := by
    intro htimed
    obtain ⟨hmux, hle⟩ := muxedTs_before hpos hstate.track hbefore htimed
    have hge := (avRescaleQ_nonneg_iff hpositive.spec hpositive.muxer).mpr
      (h w.source hmem state hstate.track htimed)
    rw [← hstate.first]
    omega
  have hdts : w.source.dts ≠ avNoptsValue → w.muxed.dts = 0 := by
    intro hdts
    have hzero := hfirst (firstTs_ne_of_dts hdts).2
    rwa [if_neg hdts] at hzero
  refine ⟨fun htimed => ?_, fun hpts => ?_, hdts⟩
  · have hzero := hfirst htimed
    by_cases hnone : w.source.dts = avNoptsValue
    · rwa [if_pos hnone] at hzero ⊢
    · rwa [if_neg hnone] at hzero ⊢
  · by_cases hnone : w.source.dts = avNoptsValue
    · have hzero := hfirst (by rwa [firstTs_of_no_dts hnone])
      rw [if_pos hnone] at hzero
      exact hzero.ge
    · rw [← hdts hnone]
      have hall : w ∈ packets.filterMap (handed states (-1)) :=
        List.mem_filterMap.mpr ((List.mem_filterMap.mp hw).imp fun p hp =>
          ⟨(List.takeWhile_prefix _).subset hp.1, hp.2⟩)
      exact pts_handed hpos hordered hall hpts hnone

/-- Counted from a start that is known, no timestamp is negative. -/
lemma nonneg_handed (hstart : 0 ≤ startPtsUs) {packets : List AVPacket} {w : WrittenPacket}
    (hw : w ∈ packets.filterMap (handed states startPtsUs)) :
    (w.source.pts ≠ avNoptsValue → 0 ≤ w.muxed.pts) ∧ (w.source.dts ≠ avNoptsValue → 0 ≤ w.muxed.dts) := by
  obtain ⟨-, state, hstate⟩ := mem_filterMap_handed hw
  have hpositive := hpos state (List.mem_of_find?_eq_some hstate.track)
  rw [hstate.pts, hstate.dts]
  exact ⟨muxedTs_nonneg hpositive hstart, muxedTs_nonneg hpositive hstart⟩

/-- The packet that sets the start is at zero. -/
lemma first_handed {packets : List AVPacket} {start : Int} (hstart : 0 ≤ start)
    (hhead : ∀ packet ∈ packets.head?, ∃ state, trackOf states packet = some state ∧ packet.firstTs ≠ avNoptsValue ∧
      start = avRescaleQ packet.firstTs state.spec.timeBase avTimeBaseQ) :
    ∀ w ∈ (packets.filterMap (handed states start)).find? (·.source.firstTs != avNoptsValue),
      if w.source.dts = avNoptsValue then w.muxed.pts = 0 else w.muxed.dts = 0 := by
  cases packets with
  | nil => simp
  | cons packet packets =>
    intro w hw
    obtain ⟨state, htrack, htimed, rfl⟩ := hhead packet rfl
    obtain ⟨w', hw', rfl, hstate⟩ := exists_handed htrack
      (avRescaleQ packet.firstTs state.spec.timeBase avTimeBaseQ)
    rw [List.filterMap_cons_some hw', List.find?_cons_of_pos (by simpa using htimed)] at hw
    obtain rfl := Option.some.inj hw
    have hzero := muxedTs_start (hpos state (List.mem_of_find?_eq_some htrack)) htimed hstart
    rw [hstate.first] at hzero
    by_cases hnone : w'.source.dts = avNoptsValue
    · rwa [if_pos hnone] at hzero ⊢
    · rwa [if_neg hnone] at hzero ⊢

lemma wellTimed_of_startsAtZero {packets : List AVPacket} (hordered : Ordered packets)
    (h : StartsAtZero states packets) : (muxAll states (-1) packets).WellTimed := by
  obtain ⟨start, rest, hsplit, hstart, hmux, hfirst⟩ := muxAll_eq hpos (show (-1 : Int) < 0 by decide) packets
  have hzero : ∀ w ∈ (packets.takeWhile (beforeZero states)).filterMap (handed states (-1)), AtZero w :=
    fun w hw => atZero_of_startsAtZero hpos hordered h hw
  have hnonneg : ∀ w ∈ rest.filterMap (handed states start), _ := fun w hw => nonneg_handed hpos hstart hw
  have hbefore : Ordered (packets.takeWhile (beforeZero states)) := hordered.sublist (List.takeWhile_sublist _)
  have hrest : Ordered rest := by
    rw [hsplit] at hordered
    exact hordered.sublist (List.sublist_append_right _ _)
  rw [hmux]
  refine ⟨?_, ?_, ?_, ?_, ?_⟩
  · intro w hw hpts
    rcases List.mem_append.mp hw with hw | hw
    · exact (hzero w hw).pts_nonneg hpts
    · exact (hnonneg w hw).1 hpts
  · intro w hw hdts
    rcases List.mem_append.mp hw with hw | hw
    · exact ((hzero w hw).dts_nonneg hdts).ge
    · exact (hnonneg w hw).2 hdts
  · refine List.pairwise_append.mpr ⟨pairwise_handed hpos hbefore, pairwise_handed hpos hrest, ?_⟩
    intro v hv w hw _ hvdts hwdts
    rw [(hzero v hv).dts_nonneg hvdts]
    exact (hnonneg w hw).2 hwdts
  · intro w hw hpts hdts
    rcases List.mem_append.mp hw with hw | hw
    · exact pts_handed hpos hbefore hw hpts hdts
    · exact pts_handed hpos hrest hw hpts hdts
  · intro w hw
    rw [List.find?_append, Option.mem_def, Option.or_eq_some_iff] at hw
    rcases hw with hw | ⟨-, hw⟩
    · exact (hzero w (List.mem_of_find?_eq_some hw)).first (by simpa using List.find?_some hw)
    · exact first_handed hpos hstart hfirst w hw

lemma startsAtZero_of_wellTimed {packets : List AVPacket} (h : (muxAll states (-1) packets).WellTimed) :
    StartsAtZero states packets := by
  obtain ⟨start, rest, -, -, hmux, -⟩ := muxAll_eq hpos (show (-1 : Int) < 0 by decide) packets
  intro packet hmem state htrack htimed
  have hpositive := hpos state (List.mem_of_find?_eq_some htrack)
  have hbefore := List.all_eq_true.mp List.all_takeWhile packet hmem
  obtain ⟨w, hw, rfl, hstate⟩ := exists_handed htrack (-1)
  have hfile : w ∈ muxAll states (-1) packets := by
    rw [hmux]
    exact List.mem_append_left _ (List.mem_filterMap.mpr ⟨w.source, hmem, hw⟩)
  rw [← avRescaleQ_nonneg_iff hpositive.spec hpositive.muxer, ← (muxedTs_before hpos htrack hbefore htimed).1,
    hstate.first]
  by_cases hnone : w.source.dts = avNoptsValue
  · rw [if_pos hnone]
    exact h.pts_nonneg w hfile (by rwa [← firstTs_of_no_dts hnone])
  · rw [if_neg hnone]
    exact h.dts_nonneg w hfile hnone

omit hpos in
lemma sources_muxAll (packets : List AVPacket) : Recording.sources (muxAll states startPtsUs packets) =
    packets.filter fun packet => (trackOf states packet).isSome := by
  induction packets generalizing startPtsUs with
  | nil => rfl
  | cons packet packets ih =>
    rw [muxAll]
    cases htrack : trackOf states packet with
    | none => rw [List.filter_cons_of_neg (by simp [htrack]), ih]
    | some state =>
      rw [List.filter_cons_of_pos (by simp [htrack]), ← ih]
      rfl

omit hpos in
lemma positive_buildOutputStreamMap {specs : List RtspStreamSpec} {timeBases : Nat → Int × Int}
    (hspecs : ∀ spec ∈ specs, PositiveTimeBase spec.timeBase) (hmuxer : ∀ i, PositiveTimeBase (timeBases i)) :
    ∀ state ∈ buildOutputStreamMap specs timeBases, state.Positive := by
  intro state hstate
  obtain ⟨i, hi, rfl⟩ := List.mem_mapIdx.mp hstate
  exact ⟨hspecs _ (List.getElem_mem hi), hmuxer i⟩

end Recorder

/-- The timestamps of one file are as a muxer expects them exactly if the packets that are written before the first
one at zero or later are at zero in the time base of the muxer. -/
theorem wellTimed_iff (r : Recorder) (timeBases : Nat → Int × Int) (packets : List AVPacket)
    (hspecs : ∀ spec ∈ r.streamSpecs, PositiveTimeBase spec.timeBase) (hmuxer : ∀ i, PositiveTimeBase (timeBases i))
    (hordered : Ordered packets) :
    ∃ file, ((r.openRecording (some timeBases)).2.writePackets avRescaleQ packets).fmtCtx = some file ∧
      file.sources = packets.filter (fun packet =>
        (trackOf (buildOutputStreamMap r.streamSpecs timeBases) packet).isSome) ∧
      (file.WellTimed ↔ StartsAtZero (buildOutputStreamMap r.streamSpecs timeBases) packets) := by
  have hpos := Recorder.positive_buildOutputStreamMap hspecs hmuxer
  have hfile := Recorder.writePackets_open (r := (r.openRecording (some timeBases)).2) rfl packets
  refine ⟨_, hfile, Recorder.sources_muxAll packets, ?_⟩
  exact ⟨Recorder.startsAtZero_of_wellTimed hpos, Recorder.wellTimed_of_startsAtZero hpos hordered⟩

/-- A video track of 90 kHz. -/
def videoSpec : RtspStreamSpec := { timeBase := (1, 90000), inputStreamIndex := 0 }

def videoPacket (pts dts : Int) : AVPacket := { data := [0], streamIndex := 0, pts := pts, dts := dts }

/-- A first packet a third of a millisecond before zero, in a file that counts milliseconds. -/
theorem wellTimed_nearZero : ∃ file : Recording,
    (((({ streamSpecs := [videoSpec] } : Recorder).openRecording (some fun _ => (1, 1000))).2.writePackets avRescaleQ
      [videoPacket (-30) (-30), videoPacket 7170 3570]).fmtCtx = some file) ∧ file.WellTimed := by
  obtain ⟨file, hfile, -, hiff⟩ := wellTimed_iff { streamSpecs := [videoSpec] } (fun _ => (1, 1000))
    [videoPacket (-30) (-30), videoPacket 7170 3570] (by decide) (fun _ => ⟨by decide, by decide⟩)
    ⟨by decide, by decide⟩
  refine ⟨file, hfile, hiff.mpr ?_⟩
  unfold StartsAtZero
  decide

theorem not_wellTimed_negative : ¬∀ (r : Recorder) timeBases packets file,
    (∀ spec ∈ r.streamSpecs, PositiveTimeBase spec.timeBase) → (∀ i, PositiveTimeBase (timeBases i)) →
    Ordered packets → ((r.openRecording (some timeBases)).2.writePackets avRescaleQ packets).fmtCtx = some file →
      file.WellTimed := by
  intro h
  have hfile := Recorder.writePackets_open
    (r := (({ streamSpecs := [videoSpec] } : Recorder).openRecording (some fun _ => (1, 90000))).2) rfl
    [videoPacket (-3600) (-3600)]
  have hwell := h _ (fun _ => (1, 90000)) _ _ (by decide) (fun _ => ⟨by decide, by decide⟩)
    ⟨by decide, by decide⟩ hfile
  have hnonneg := hwell.dts_nonneg _ List.mem_cons_self (by decide)
  revert hnonneg
  decide

end MediaAgent
