import MediaAgent.PullLoop

/-!
# Every queued packet gets its frame

The ledger of the ids that still need a frame, over runs of the pull loop. The publisher lets a
video packet through only with its frame, so an id that still needs one has its packet in the
queue; when a connection is closed with such ids pending, their packets stay in the queue for good.
-/

namespace MediaAgent
open Transition TreeMaps

/-! ## The queue and the ids that still need a frame -/

/-- A video packet whose frame is in the buffer. -/
def Framed (b : StreamBuffer) (packet : EncodedPacket) : Prop :=
  packet.mediaType = .video ∧ (0 ≤ packet.frameId → ∃ d, b.decodedAt packet.frameId = some d)

/-- A packet id that no packet in the queue, and no later one, has. -/
def Behind (b : StreamBuffer) (nextFrameId : Int) (packet : EncodedPacket) : Prop :=
  packet.frameId < nextFrameId ∧ ∀ i ∈ videoIds b.packets, packet.frameId < i

namespace Ledger

/-- The video packets are queued in the order of their ids; an id that still needs a frame has its
packet in the queue and no frame; a video packet is let through only with its frame. -/
structure Inv (l : Ledger) : Prop where
  count : l.publish.buffer.videoPacketCount =
    l.publish.buffer.packets.countP (·.mediaType == .video)
  nonneg : 0 ≤ l.nextFrameId ∧ ∀ i ∈ videoIds l.publish.buffer.packets, 0 ≤ i
  ids : (videoIds l.publish.buffer.packets).Pairwise (· < ·)
  below : ∀ i ∈ videoIds l.publish.buffer.packets, i < l.nextFrameId
  ordered : l.unsettled.Pairwise (· < ·)
  queued : ∀ i ∈ l.unsettled, i ∈ videoIds l.publish.buffer.packets
  unframed : ∀ i ∈ l.unsettled, l.publish.buffer.decodedAt i = none
  framed : ∀ k d, l.publish.buffer.decodedAt k = some d → k < l.nextFrameId
  pc : PcHolds l.publish.buffer.packets (Framed l.publish.buffer)
    (Behind l.publish.buffer l.nextFrameId) l.publish.pc

/-- Every video packet in the queue has its frame or still needs one. -/
def Covered (l : Ledger) : Prop :=
  ∀ i ∈ videoIds l.publish.buffer.packets,
    (∃ d, l.publish.buffer.decodedAt i = some d) ∨ i ∈ l.unsettled

variable {l : Ledger}

/-- Dropping the ids that still need a frame. -/
lemma Inv.drop (h : Inv l) : Inv { l with unsettled := [] } := by
  refine ⟨h.count, h.nonneg, h.ids, h.below, .nil, ?_, ?_, h.framed, h.pc⟩
  · simp
  · simp

/-- A buffer with the same queue and the same frames. -/
lemma Inv.congr (h : Inv l) {b : StreamBuffer} (hpackets : b.packets = l.publish.buffer.packets)
    (hcount : b.videoPacketCount = l.publish.buffer.videoPacketCount)
    (hframes : ∀ k, b.decodedAt k = l.publish.buffer.decodedAt k) :
    Inv { l with publish := { l.publish with buffer := b } } := by
  refine ⟨?_, ?_, ?_, ?_, h.ordered, ?_, fun i hi => (hframes i).trans (h.unframed i hi),
    fun k d hk => h.framed k d ((hframes k).symm.trans hk), ?_⟩
  · dsimp only
    rw [hcount, hpackets]
    exact h.count
  · simpa only [hpackets] using h.nonneg
  · simpa only [hpackets] using h.ids
  · simpa only [hpackets] using h.below
  · simpa only [hpackets] using h.queued
  · refine h.pc.mono (by simp [hpackets]) (fun p hp => ⟨hp.1, fun h0 => ?_⟩) (fun p hp => ⟨hp.1, ?_⟩)
    · obtain ⟨d, hd⟩ := hp.2 h0
      exact ⟨d, (hframes _).trans hd⟩
    · simpa only [hpackets] using hp.2

lemma Covered.congr (h : Covered l) {b : StreamBuffer} (hpackets : b.packets = l.publish.buffer.packets)
    (hframes : ∀ k, b.decodedAt k = l.publish.buffer.decodedAt k) :
    Covered { l with publish := { l.publish with buffer := b } } := by
  intro i hi
  dsimp only at hi ⊢
  rw [hpackets] at hi
  simpa only [hframes] using h i hi

/-- The publisher's side of the invariant: the readiness check has seen the frame, and the packets
behind a popped one have larger ids. -/
lemma Inv.publish_pc (h : Inv l) (c : TakeContext) :
    PcHolds (l.publish.publish c).buffer.packets (Framed (l.publish.publish c).buffer)
      (Behind (l.publish.publish c).buffer l.nextFrameId) (l.publish.publish c).pc := by
  refine PcHolds.publish Framed (fun b p => Behind b l.nextFrameId p) h.pc
    (fun hw p rest _ hp hv => ?_) (fun p hp => ?_) (fun p rest hp hf _ => ?_)
  · refine ⟨hv, fun h0 => ?_⟩
    obtain ⟨d, hd, -⟩ := (cleared_of_waitForPublishable h.count hw hp hv).reserved h0
    exact ⟨d, hd⟩
  · exact ⟨hp.1, fun h0 => by simpa [StreamBuffer.decodedAt] using hp.2 h0⟩
  · have hids := h.ids
    have hbelow := h.below
    rw [hp, videoIds_cons, if_pos hf.1] at hids hbelow
    rw [Behind, popPacket_cons hp]
    exact ⟨hbelow _ (List.mem_cons_self ..), (List.pairwise_cons.mp hids).1⟩

/-- The publisher takes no video packet away that has no frame. -/
lemma Inv.publish_queue (h : Inv l) (c : TakeContext) {i : Int}
    (hi : i ∈ videoIds l.publish.buffer.packets) (hn : l.publish.buffer.decodedAt i = none) :
    i ∈ videoIds (l.publish.publish c).buffer.packets := by
  rcases videoIds_publish h.pc c with hsame | ⟨p, -, -, hf, hpop⟩
  · rw [hsame]
    exact hi
  · have h0 := h.nonneg.2 i hi
    rw [hpop] at hi
    rcases List.mem_cons.mp hi with rfl | hi
    · obtain ⟨d, hd⟩ := hf.2 h0
      rw [hn] at hd
      cases hd
    · exact hi

lemma Inv.publish (h : Inv l) (c : TakeContext) : Inv { l with publish := l.publish.publish c } := by
  have hsub := videoIds_publish_sublist h.pc c
  exact ⟨publish_count c h.count, ⟨h.nonneg.1, fun i hi => h.nonneg.2 i (hsub.subset hi)⟩,
    h.ids.sublist hsub, fun i hi => h.below i (hsub.subset hi), h.ordered,
    fun i hi => h.publish_queue c (h.queued i hi) (h.unframed i hi),
    fun i hi => publish_decodedAt_none (h.unframed i hi),
    fun k d hk => h.framed k d (publish_decodedAt hk), h.publish_pc c⟩

/-- A released frame belongs to no packet in the queue. -/
lemma Covered.publish (hc : Covered l) (h : Inv l) (c : TakeContext) :
    Covered { l with publish := l.publish.publish c } := by
  intro i hi
  refine (hc i ((videoIds_publish_sublist h.pc c).subset hi)).imp_left fun hframe => ?_
  dsimp only at hi ⊢
  rw [publish_decodedAt_eq fun p he => ?_]
  · exact hframe
  · have hpc := h.pc
    rw [he] at hpc
    have hlt := hpc.2.2.2 i ((videoIds_publish_sublist h.pc c).subset hi)
    omega

/-- A packet is enqueued: its id, if it is a video packet, is the next one. -/
lemma Inv.enqueuePacket_pc (h : Inv l) {packet : EncodedPacket} {n : Int} (hn : l.nextFrameId ≤ n)
    (hids : ∀ i ∈ videoIds (l.publish.enqueuePacket packet).buffer.packets,
      i ∈ videoIds l.publish.buffer.packets ∨ l.nextFrameId ≤ i) :
    PcHolds (l.publish.enqueuePacket packet).buffer.packets
      (Framed (l.publish.enqueuePacket packet).buffer) (Behind (l.publish.enqueuePacket packet).buffer n)
      (l.publish.enqueuePacket packet).pc := by
  have hgrows := Grows.of_enqueuePacket l.publish.buffer packet
  refine h.pc.mono hgrows.packets (fun p hp => ⟨hp.1, fun h0 => ?_⟩) (fun p hp => ⟨?_, fun i hi => ?_⟩)
  · obtain ⟨d, hd⟩ := hp.2 h0
    exact ⟨d, hgrows.decoded _ _ hd⟩
  · exact Int.lt_of_lt_of_le hp.1 hn
  · rcases hids i hi with hi | hle
    · exact hp.2 i hi
    · exact Int.lt_of_lt_of_le hp.1 hle

/-- A video packet is enqueued under the next frame id, and that id needs a frame. -/
lemma Inv.video (h : Inv l) {packet : EncodedPacket} (hvideo : packet.mediaType = .video)
    (hid : packet.frameId = l.nextFrameId) (hopen : l.publish.buffer.stopped = false) :
    Inv ⟨l.publish.enqueuePacket packet, l.nextFrameId + 1, l.unsettled ++ [l.nextFrameId]⟩ := by
  have hqueue : videoIds (l.publish.enqueuePacket packet).buffer.packets =
      videoIds l.publish.buffer.packets ++ [l.nextFrameId] := by
    rw [videoIds_enqueuePacket, if_pos ⟨hopen, hvideo⟩, hid]
  have hframes := decodedAt_enqueuePacket l.publish.buffer packet
  have hnext : l.nextFrameId < l.nextFrameId + 1 := by omega
  have hbelow : ∀ {i : Int}, i < l.nextFrameId → i < l.nextFrameId + 1 := fun hi => by omega
  have hmem : ∀ i ∈ videoIds (l.publish.enqueuePacket packet).buffer.packets,
      i ∈ videoIds l.publish.buffer.packets ∨ i = l.nextFrameId := by
    intro i hi
    rw [hqueue] at hi
    simpa using hi
  refine ⟨enqueuePacket_count packet h.count, ⟨Int.le_of_lt (Int.lt_of_le_of_lt h.nonneg.1 hnext),
    fun i hi => ?_⟩, ?_, fun i hi => ?_, ?_, fun i hi => ?_, fun i hi => (hframes i).trans ?_,
    fun k d hk => hbelow (h.framed k d ((hframes k).symm.trans hk)),
    h.enqueuePacket_pc (Int.le_of_lt hnext) fun i hi => (hmem i hi).imp_right fun he => Int.le_of_eq he.symm⟩
  · rcases hmem i hi with hi | rfl
    · exact h.nonneg.2 i hi
    · exact h.nonneg.1
  · rw [hqueue]
    exact List.pairwise_append.mpr ⟨h.ids, List.pairwise_singleton _ _, by simpa using h.below⟩
  · rcases hmem i hi with hi | rfl
    · exact hbelow (h.below i hi)
    · exact hnext
  · refine List.pairwise_append.mpr ⟨h.ordered, List.pairwise_singleton _ _, fun i hi j hj => ?_⟩
    rw [List.mem_singleton.mp hj]
    exact h.below i (h.queued i hi)
  · rw [hqueue]
    rcases List.mem_append.mp hi with hi | hi
    · exact List.mem_append_left _ (h.queued i hi)
    · exact List.mem_append_right _ hi
  · rcases List.mem_append.mp hi with hi | hi
    · exact h.unframed i hi
    · rw [List.mem_singleton.mp hi, Option.eq_none_iff_forall_ne_some]
      exact fun d hd => Int.lt_irrefl _ (h.framed _ d hd)

lemma Covered.video (hc : Covered l) {packet : EncodedPacket} (hvideo : packet.mediaType = .video)
    (hid : packet.frameId = l.nextFrameId) (hopen : l.publish.buffer.stopped = false) :
    Covered ⟨l.publish.enqueuePacket packet, l.nextFrameId + 1, l.unsettled ++ [l.nextFrameId]⟩ := by
  intro i hi
  dsimp only at hi ⊢
  rw [videoIds_enqueuePacket, if_pos ⟨hopen, hvideo⟩, hid] at hi
  rcases List.mem_append.mp hi with hi | hi
  · rcases hc i hi with ⟨d, hd⟩ | hneeds
    · exact .inl ⟨d, (decodedAt_enqueuePacket l.publish.buffer packet i).trans hd⟩
    · exact .inr (List.mem_append_left _ hneeds)
  · exact .inr (List.mem_append_right _ hi)

lemma videoIds_enqueueAudio {s : PublishState} {packet : EncodedPacket} (haudio : packet.mediaType ≠ .video) :
    videoIds (s.enqueuePacket packet).buffer.packets = videoIds s.buffer.packets := by
  rw [videoIds_enqueuePacket, if_neg fun hc => haudio hc.2]

lemma Inv.audio (h : Inv l) {packet : EncodedPacket} (haudio : packet.mediaType ≠ .video) :
    Inv { l with publish := l.publish.enqueuePacket packet } := by
  have hqueue := videoIds_enqueueAudio (s := l.publish) haudio
  have hframes := decodedAt_enqueuePacket l.publish.buffer packet
  refine ⟨enqueuePacket_count packet h.count, ⟨h.nonneg.1, hqueue ▸ h.nonneg.2⟩, hqueue ▸ h.ids,
    hqueue ▸ h.below, h.ordered, hqueue ▸ h.queued, fun i hi => (hframes i).trans (h.unframed i hi),
    fun k d hk => h.framed k d ((hframes k).symm.trans hk),
    h.enqueuePacket_pc (Int.le_refl _) fun i hi => .inl (hqueue ▸ hi)⟩

lemma Covered.audio (hc : Covered l) {packet : EncodedPacket} (haudio : packet.mediaType ≠ .video) :
    Covered { l with publish := l.publish.enqueuePacket packet } := by
  intro i hi
  dsimp only at hi ⊢
  rw [videoIds_enqueueAudio haudio] at hi
  rcases hc i hi with ⟨d, hd⟩ | hneeds
  · exact .inl ⟨d, (decodedAt_enqueuePacket l.publish.buffer packet i).trans hd⟩
  · exact .inr hneeds

/-- The first id that needs a frame gets it. -/
lemma Inv.frame {s : PublishState} {n : Int} {f : FrameBundle} {rest : List Int}
    (h : Inv ⟨s, n, f.frameId :: rest⟩) (hopen : s.buffer.stopped = false) :
    Inv ⟨s.enqueueFrame f, n, rest⟩ := by
  have hgrows : Grows s.buffer (s.enqueueFrame f).buffer :=
    Grows.of_enqueueFrame (h.unframed _ (List.mem_cons_self ..))
  have hqueue : (s.enqueueFrame f).buffer.packets = s.buffer.packets := by
    simp [PublishState.enqueueFrame, StreamBuffer.enqueueFrame, hopen]
  have hcount : (s.enqueueFrame f).buffer.videoPacketCount = s.buffer.videoPacketCount := by
    simp [PublishState.enqueueFrame, StreamBuffer.enqueueFrame, hopen]
  have hframes : ∀ k, (s.enqueueFrame f).buffer.decodedAt k =
      if f.frameId = k then some f.decodedImage.isSome else s.buffer.decodedAt k := by
    intro k
    refine (decodedAt_enqueueFrame s.buffer f k).trans ?_
    simp [hopen]
  obtain ⟨hfirst, hrest⟩ := List.pairwise_cons.mp h.ordered
  refine ⟨?_, ⟨h.nonneg.1, ?_⟩, ?_, ?_, hrest, fun i hi => ?_, fun i hi => ?_, fun k d hk => ?_, ?_⟩
  · rw [hcount, hqueue]
    exact h.count
  · simpa only [hqueue] using h.nonneg.2
  · simpa only [hqueue] using h.ids
  · simpa only [hqueue] using h.below
  · rw [hqueue]
    exact h.queued i (List.mem_cons_of_mem _ hi)
  · rw [hframes, if_neg (Int.ne_of_lt (hfirst i hi))]
    exact h.unframed i (List.mem_cons_of_mem _ hi)
  · rw [hframes] at hk
    split at hk
    · subst k
      exact h.below _ (h.queued _ (List.mem_cons_self ..))
    · exact h.framed k d hk
  · refine h.pc.mono hgrows.packets (fun p hp => ⟨hp.1, fun h0 => ?_⟩) (fun p hp => ⟨hp.1, ?_⟩)
    · obtain ⟨d, hd⟩ := hp.2 h0
      exact ⟨d, hgrows.decoded _ _ hd⟩
    · rw [hqueue]
      exact hp.2

lemma Covered.frame {s : PublishState} {n : Int} {f : FrameBundle} {rest : List Int}
    (hc : Covered ⟨s, n, f.frameId :: rest⟩) (hopen : s.buffer.stopped = false) :
    Covered ⟨s.enqueueFrame f, n, rest⟩ := by
  have hqueue : (s.enqueueFrame f).buffer.packets = s.buffer.packets := by
    simp [PublishState.enqueueFrame, StreamBuffer.enqueueFrame, hopen]
  intro i hi
  dsimp only at hi ⊢
  rw [hqueue] at hi
  have hframe : (s.enqueueFrame f).buffer.decodedAt i =
      if f.frameId = i then some f.decodedImage.isSome else s.buffer.decodedAt i := by
    refine (decodedAt_enqueueFrame s.buffer f i).trans ?_
    simp [hopen]
  rw [hframe]
  split
  · exact .inl ⟨_, rfl⟩
  · rename_i hne
    refine (hc i hi).imp_right fun hneeds => ?_
    exact (List.mem_cons.mp hneeds).resolve_left (Ne.symm hne)

/-- One step keeps the invariant, and keeps every queued packet covered. -/
lemma Step.keeps {l l' : Ledger} (hs : Step l l') (h : Inv l) : Inv l' ∧ (Covered l → Covered l') := by
  cases hs with
  | silent => exact ⟨h, id⟩
  | worker l c =>
    exact ⟨h.congr (by simp) (by simp) (by simp), fun hc => hc.congr (by simp) (by simp)⟩
  | publish l c => exact ⟨h.publish c, fun hc => hc.publish h c⟩
  | video l packet hvideo hid hopen =>
    exact ⟨h.video hvideo hid hopen, fun hc => hc.video hvideo hid hopen⟩
  | audio l packet haudio => exact ⟨h.audio haudio, fun hc => hc.audio haudio⟩
  | frame s n f rest hopen => exact ⟨h.frame hopen, fun hc => hc.frame hopen⟩
  | stop => exact ⟨h.congr rfl rfl fun _ => rfl, fun hc => hc.congr rfl fun _ => rfl⟩

end Ledger

/-- A queued id that has no frame and that the puller has forgotten. -/
structure Ledger.Lost (l : Ledger) (i : Int) : Prop where
  queued : i ∈ videoIds l.publish.buffer.packets
  unframed : l.publish.buffer.decodedAt i = none
  forgotten : i ∉ l.unsettled

/-- The gate never opens for a lost packet, and no later frame is for it. -/
lemma Ledger.Step.lost {l l' : Ledger} (hs : Step l l') (h : Inv l) {i : Int} (hl : l.Lost i) : l'.Lost i := by
  cases hs with
  | silent => exact hl
  | worker l c => exact ⟨by simpa using hl.queued, by simpa using hl.unframed, hl.forgotten⟩
  | publish l c =>
    exact ⟨h.publish_queue c hl.queued hl.unframed, publish_decodedAt_none hl.unframed, hl.forgotten⟩
  | video l packet hvideo hid hopen =>
    refine ⟨?_, (decodedAt_enqueuePacket _ packet i).trans hl.unframed, fun hmem => ?_⟩
    · rw [videoIds_enqueuePacket, if_pos ⟨hopen, hvideo⟩]
      exact List.mem_append_left _ hl.queued
    · rcases List.mem_append.mp hmem with hmem | hmem
      · exact hl.forgotten hmem
      · exact Int.ne_of_lt (h.below i hl.queued) (List.mem_singleton.mp hmem)
  | audio l packet haudio =>
    refine ⟨?_, (decodedAt_enqueuePacket _ packet i).trans hl.unframed, hl.forgotten⟩
    dsimp only
    rw [videoIds_enqueueAudio haudio]
    exact hl.queued
  | frame s n f rest hopen =>
    have hne : ¬f.frameId = i := fun he => hl.forgotten (he ▸ List.mem_cons_self ..)
    refine ⟨?_, ?_, fun hmem => hl.forgotten (List.mem_cons_of_mem _ hmem)⟩
    · simpa [PublishState.enqueueFrame, StreamBuffer.enqueueFrame, hopen] using hl.queued
    · refine (decodedAt_enqueueFrame s.buffer f i).trans ?_
      rw [if_neg fun hc => hne hc.2]
      exact hl.unframed
  | stop => exact ⟨hl.queued, hl.unframed, hl.forgotten⟩

/-! ## Runs -/

lemma wf_inv_reachable {cfg : StreamConfig} {s : PullState} (h : (pullSystem cfg).Reachable s) :
    s.Wf ∧ s.ledger.Inv := by
  apply h.invariant
  · refine ⟨⟨fun _ => rfl, fun hs => by cases hs⟩, rfl, ⟨Int.le_refl _, fun i hi => ?_⟩, .nil,
      fun i hi => ?_, .nil, fun i hi => ?_, fun i hi => ?_, fun k d hk => ?_, trivial⟩
    · cases hi
    · cases hi
    · cases hi
    · cases hi
    · simp [PullState.ledger, pullSystem, StreamBuffer.decodedAt] at hk
  · rintro t a u ⟨hwf, hinv⟩ - hn
    obtain ⟨hwf', hstep, hclose⟩ := hwf.next hn
    refine ⟨hwf', ?_⟩
    cases hguard : closesEmpty t a with
    | true => exact ((hstep hguard).keeps hinv).1
    | false =>
      obtain ⟨-, -, hledger⟩ := hclose hguard
      rw [hledger]
      exact hinv.drop

lemma covered_reachableWhen {cfg : StreamConfig} {s : PullState}
    (h : (pullSystem cfg).ReachableWhen (fun s a => closesEmpty s a = true) s) : s.ledger.Covered := by
  apply h.invariant_of fun t ht => wf_inv_reachable (Machine.ReachableWhen.reachable ht)
  · intro i hi
    cases hi
  · rintro t a u ⟨hwf, hinv⟩ hc hguard hn
    exact (((hwf.next hn).2.1 hguard).keeps hinv).2 hc

lemma PullState.covered_iff {s : PullState} (h : s.AtBoundary) : s.Covered ↔ s.ledger.Covered := by
  have hids := unsettled_boundary h
  have hpending : ∀ i, i ∈ s.puller.pendingIds ↔
      ∃ entry ∈ s.puller.pendingVideoFrames, entry.frameId = i := by
    intro i
    simp [RTSPPuller.pendingIds]
  have hframe := s.publish.buffer.present_iff_decodedAt
  simp only [PullState.Covered, Ledger.Covered, ledger, hids, hpending, ← hframe, mem_videoIds]
  constructor
  · rintro hc _ ⟨packet, hmem, hv, rfl⟩
    exact hc packet hmem hv
  · exact fun hc packet hmem hv => hc _ ⟨packet, hmem, hv, rfl⟩

/-- While every connection is closed with no frame pending, a video packet in the queue has its
frame or is pending whenever the pull loop is at the head of a loop; the first close with frames
pending leaves packets that have neither. -/
theorem covered_of_closesEmpty (cfg : StreamConfig) :
    (∀ s, (pullSystem cfg).ReachableWhen (fun s a => closesEmpty s a = true) s →
      s.AtBoundary → s.Covered) ∧
      ∀ s a t, (pullSystem cfg).Reachable s → (pullSystem cfg).next s a = some t →
        ¬closesEmpty s a = true → t.AtBoundary ∧ ¬t.Covered := by
  refine ⟨fun s h hb => (PullState.covered_iff hb).mpr (covered_reachableWhen h),
    fun s a t h hn hguard => ?_⟩
  obtain ⟨hwf, hinv⟩ := wf_inv_reachable h
  obtain ⟨hpc, hsome, hledger⟩ := (hwf.next hn).2.2 (Bool.eq_false_iff.mpr hguard)
  have hb : t.AtBoundary := .inl hpc
  refine ⟨hb, fun hc => ?_⟩
  rw [PullState.covered_iff hb, hledger] at hc
  obtain ⟨i, rest, hi⟩ := List.exists_cons_of_ne_nil hsome
  have hmem : i ∈ s.unsettled := by
    rw [hi]
    exact List.mem_cons_self ..
  rcases hc i (hinv.queued i hmem) with ⟨d, hd⟩ | hneeds
  · exact absurd ((hinv.unframed i hmem).symm.trans hd) (by simp)
  · cases hneeds

/-- A connection to a source with one H.264 stream. -/
def openH264 : PullAction := .openStream { fmtCtx := some { streams := [{ codecId := 27 }] } }

/-- A video packet, and what the decoder returns for it. -/
def readVideo (pts : Int) (decodedFrames : List MppFrame) : PullAction :=
  .readFrame (.packet { data := [], streamIndex := 0, pts := pts } true 0 0 decodedFrames)

/-- One connection that ends with its only frame decoded, and a second one whose first packet has
not been decoded yet. -/
theorem covered_of_closesEmpty_secondConnection :
    ∃ s, (pullSystem { reconnectIntervalS := 1 }).ReachableWhen (fun s a => closesEmpty s a = true) s ∧
      s.publish.buffer.packets.map (·.frameId) = [0, 1] ∧
      s.puller.pendingVideoFrames.map (·.frameId) = [1] ∧ s.Covered := by
  obtain ⟨s, hs, hp⟩ := Machine.reachableWhen_of_exec_any (pullSystem { reconnectIntervalS := 1 }) closesEmpty
    [openH264, readVideo 0 [{ pts := 0 }], .enqueueFrame, .enqueueFrame, .readFrame .error, openH264,
      readVideo 5 [], .enqueueFrame]
    (fun s => decide (s.pc = .reading ∧ s.publish.buffer.packets.map EncodedPacket.frameId = [0, 1] ∧
      s.puller.pendingVideoFrames.map PendingVideoFrameMeta.frameId = [1])) (by decide)
  obtain ⟨hpc, hpackets, hpending⟩ := of_decide_eq_true hp
  exact ⟨s, hs, hpackets, hpending, (covered_of_closesEmpty _).1 s hs (.inr hpc)⟩

/-- A connection that ends before the decoder returns its first frame leaves a packet without one. -/
theorem not_covered_after_disconnect :
    ∃ s, (pullSystem { reconnectIntervalS := 1 }).Reachable s ∧ s.AtBoundary ∧ ¬s.Covered := by
  obtain ⟨s, hs, hp⟩ := Machine.reachable_of_exec_any (pullSystem { reconnectIntervalS := 1 })
    [openH264, readVideo 0 [], .enqueueFrame, .readFrame .error]
    (fun s => decide (s.pc = .opening ∧ s.publish.buffer.packets.map EncodedPacket.frameId = [0] ∧
      s.publish.buffer.packets.map EncodedPacket.mediaType = [.video] ∧
      s.publish.buffer.decodedAt 0 = none ∧ s.puller.pendingVideoFrames = [])) (by decide)
  obtain ⟨hpc, hids, htypes, hframe, hpending⟩ := of_decide_eq_true hp
  refine ⟨s, hs, .inl hpc, fun hc => ?_⟩
  obtain ⟨packet, rest, hpackets⟩ := List.exists_cons_of_ne_nil
    (show s.publish.buffer.packets ≠ [] from fun he => by simp [he] at hids)
  rw [hpackets, List.map_cons] at hids htypes
  have hid : packet.frameId = 0 := (List.cons.inj hids).1
  have hmem : packet ∈ s.publish.buffer.packets := hpackets ▸ List.mem_cons_self ..
  rcases hc packet hmem (List.cons.inj htypes).1 with ⟨f, hf⟩ | ⟨entry, he, -⟩
  · rw [hid] at hf
    simp [StreamBuffer.decodedAt, hf] at hframe
  · rw [hpending] at he
    cases he

/-- A video packet that is neither framed nor pending stays in the queue for good. -/
theorem uncovered_stays {cfg : StreamConfig} {s : PullState} (h : (pullSystem cfg).Reachable s)
    (hb : s.AtBoundary) {packet : EncodedPacket} (hmem : packet ∈ s.publish.buffer.packets)
    (hv : packet.mediaType = .video) (hframe : s.publish.buffer.frames[packet.frameId]? = none)
    (hpending : packet.frameId ∉ s.puller.pendingIds) {t : PullState} (ht : (pullSystem cfg).Runs s t) :
    packet.frameId ∈ videoIds t.publish.buffer.packets := by
  have hids : s.unsettled = s.puller.pendingIds := PullState.unsettled_boundary hb
  have hlost : s.ledger.Lost packet.frameId := by
    refine ⟨mem_videoIds.mpr ⟨packet, hmem, hv, rfl⟩, Option.map_eq_none_iff.mpr hframe, ?_⟩
    rw [← hids] at hpending
    exact hpending
  have hstays : t.ledger.Lost packet.frameId := by
    apply ht.invariant_of (fun u hu => wf_inv_reachable (h.trans hu)) hlost
    rintro u a v ⟨hwf, hinv⟩ hl - hn
    obtain ⟨-, hstep, hclose⟩ := hwf.next hn
    cases hguard : closesEmpty u a with
    | true => exact (hstep hguard).lost hinv hl
    | false =>
      obtain ⟨-, -, hledger⟩ := hclose hguard
      rw [hledger]
      exact ⟨hl.queued, hl.unframed, by simp⟩
  exact hstays.queued

end MediaAgent
