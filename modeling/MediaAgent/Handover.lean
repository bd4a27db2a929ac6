import MediaAgent.FrameLedger

/-!
# What is handed to the publisher

The puller accepts packets and frames in the order of their ids, so it drives the buffer as
`publishSystem` asks. Over its runs the packets that are handed to the publisher are the accepted
ones, in order and each once, and a video packet is handed over with the codec of its own frame.
-/

namespace MediaAgent
open Transition TreeMaps

/-! ## The puller drives the buffer in the order of its ids -/

/-- The ids of accepted packets, of accepted frames and of frames to come are in order. -/
structure Ledger.Ordered (l : Ledger) : Prop where
  packets : ∀ i ∈ l.publish.acceptedVideoIds, 0 ≤ i ∧ i < l.nextFrameId
  next : 0 ≤ l.nextFrameId
  unsettled : l.unsettled.Pairwise (· < ·)
  coming : ∀ j ∈ l.unsettled, j < l.nextFrameId
  frames : l.publish.acceptedFrames.Pairwise (· < ·)
  known : ∀ i ∈ l.publish.acceptedFrames, i < l.nextFrameId
  later : ∀ i ∈ l.publish.acceptedFrames, ∀ j ∈ l.unsettled, i < j

namespace Ledger

variable {l l' : Ledger}

lemma Ordered.drop (h : Ordered l) : Ordered { l with unsettled := [] } :=
  ⟨h.packets, h.next, .nil, by simp, h.frames, h.known, by simp⟩

/-- A call that accepts nothing. -/
lemma Ordered.congr (h : Ordered l) {s : PublishState}
    (hpackets : s.acceptedPackets = l.publish.acceptedPackets)
    (hframes : s.acceptedFrames = l.publish.acceptedFrames) : Ordered { l with publish := s } := by
  have hids : s.acceptedVideoIds = l.publish.acceptedVideoIds := by
    simp [PublishState.acceptedVideoIds, hpackets]
  refine ⟨?_, h.next, h.unsettled, h.coming, ?_, ?_, ?_⟩
  · simpa only [hids] using h.packets
  · simpa only [hframes] using h.frames
  · simpa only [hframes] using h.known
  · simpa only [hframes] using h.later

lemma Ordered.video (h : Ordered l) {packet : EncodedPacket} (hid : packet.frameId = l.nextFrameId) :
    Ordered ⟨l.publish.enqueuePacket packet, l.nextFrameId + 1, l.unsettled ++ [l.nextFrameId]⟩ := by
  have hnext := h.next
  refine ⟨fun i hi => ?_, by dsimp only; omega, ?_, fun j hj => ?_, h.frames, fun i hi => ?_,
    fun i hi j hj => ?_⟩
  · dsimp only at hi ⊢
    rw [acceptedVideoIds_enqueuePacket, hid] at hi
    split at hi
    · rcases List.mem_append.mp hi with hi | hi
      · have := h.packets i hi
        omega
      · rw [List.mem_singleton.mp hi]
        omega
    · have := h.packets i hi
      omega
  · exact List.pairwise_append.mpr ⟨h.unsettled, List.pairwise_singleton _ _, by simpa using h.coming⟩
  · dsimp only at hj ⊢
    rcases List.mem_append.mp hj with hj | hj
    · have := h.coming j hj
      omega
    · rw [List.mem_singleton.mp hj]
      omega
  · have := h.known i hi
    dsimp only
    omega
  · rcases List.mem_append.mp hj with hj | hj
    · exact h.later i hi j hj
    · rw [List.mem_singleton.mp hj]
      exact h.known i hi

lemma Ordered.audio (h : Ordered l) {packet : EncodedPacket} (haudio : packet.mediaType ≠ .video) :
    Ordered { l with publish := l.publish.enqueuePacket packet } := by
  have hids : (l.publish.enqueuePacket packet).acceptedVideoIds = l.publish.acceptedVideoIds := by
    rw [acceptedVideoIds_enqueuePacket, if_neg fun hc => haudio hc.2]
  refine ⟨?_, h.next, h.unsettled, h.coming, h.frames, h.known, h.later⟩
  simpa only [hids] using h.packets

lemma acceptedFrames_enqueueFrame (s : PublishState) (f : FrameBundle) :
    (s.enqueueFrame f).acceptedFrames =
      if s.buffer.stopped then s.acceptedFrames else s.acceptedFrames ++ [f.frameId] := by
  rcases s.buffer.enqueueFrame_cases f with ⟨hs, he⟩ | ⟨hs, he⟩ <;>
    simp [PublishState.enqueueFrame, he, hs]

lemma Ordered.frame {s : PublishState} {n : Int} {f : FrameBundle} {rest : List Int}
    (h : Ordered ⟨s, n, f.frameId :: rest⟩) (hopen : s.buffer.stopped = false) :
    Ordered ⟨s.enqueueFrame f, n, rest⟩ := by
  have hfirst : f.frameId ∈ f.frameId :: rest := List.mem_cons_self ..
  have haccepted : (s.enqueueFrame f).acceptedFrames = s.acceptedFrames ++ [f.frameId] := by
    rw [acceptedFrames_enqueueFrame, hopen]
    rfl
  obtain ⟨hbefore, hrest⟩ := List.pairwise_cons.mp h.unsettled
  refine ⟨h.packets, h.next, hrest, fun j hj => h.coming j (List.mem_cons_of_mem _ hj), ?_,
    fun i hi => ?_, fun i hi j hj => ?_⟩
  · rw [haccepted]
    refine List.pairwise_append.mpr ⟨h.frames, List.pairwise_singleton _ _, fun i hi j hj => ?_⟩
    rw [List.mem_singleton.mp hj]
    exact h.later i hi _ hfirst
  · rw [haccepted] at hi
    rcases List.mem_append.mp hi with hi | hi
    · exact h.known i hi
    · exact List.mem_singleton.mp hi ▸ h.coming _ hfirst
  · rw [haccepted] at hi
    rcases List.mem_append.mp hi with hi | hi
    · exact h.later i hi j (List.mem_cons_of_mem _ hj)
    · exact List.mem_singleton.mp hi ▸ hbefore j hj

/-- One step keeps the order, and is a step of `publishSystem` or leaves it alone. -/
lemma Step.ordered (hs : Step l l') (h : Ordered l) :
    Ordered l' ∧ (l'.publish = l.publish ∨ ∃ b, publishSystem.next l.publish b = some l'.publish) := by
  cases hs with
  | silent => exact ⟨h, .inl rfl⟩
  | worker l c => exact ⟨h.congr rfl rfl, .inr ⟨.worker c, rfl⟩⟩
  | publish l c =>
    obtain ⟨hpackets, hframes⟩ := publish_accepted l.publish c
    exact ⟨h.congr hpackets hframes, .inr ⟨.publish c, rfl⟩⟩
  | video l packet hvideo hid hopen =>
    refine ⟨h.video hid, .inr ⟨.enqueuePacket packet, if_pos fun _ i hi => ?_⟩⟩
    rw [hid]
    exact (h.packets i hi).2
  | audio l packet haudio =>
    exact ⟨h.audio haudio, .inr ⟨.enqueuePacket packet, if_pos fun hv => absurd hv haudio⟩⟩
  | frame s n f rest hopen =>
    exact ⟨h.frame hopen, .inr ⟨.enqueueFrame f, if_pos fun i hi => h.later i hi _ (List.mem_cons_self ..)⟩⟩
  | stop => exact ⟨h.congr rfl rfl, .inr ⟨.stop, rfl⟩⟩

end Ledger

lemma ordered_reachable {cfg : StreamConfig} {s : PullState} (h : (pullSystem cfg).Reachable s) :
    s.ledger.Ordered := by
  apply h.invariant_of fun t ht => wf_inv_reachable ht
  · refine ⟨?_, Int.le_refl _, .nil, ?_, .nil, ?_, ?_⟩ <;> intro i hi <;> cases hi
  · rintro t a u ⟨hwf, -⟩ hord - hn
    obtain ⟨-, hstep, hclose⟩ := hwf.next hn
    cases hguard : closesEmpty t a with
    | true => exact ((hstep hguard).ordered hord).1
    | false =>
      obtain ⟨-, -, hledger⟩ := hclose hguard
      rw [hledger]
      exact hord.drop

/-- The buffer, the publisher and the puller of one stream, without what the puller keeps for
itself. -/
def pullProjection (cfg : StreamConfig) : Machine.Projection (pullSystem cfg) publishSystem where
  state s := s.publish
  init := rfl
  step s a t hs hn := by
    obtain ⟨hwf, -⟩ := wf_inv_reachable hs
    obtain ⟨-, hstep, hclose⟩ := hwf.next hn
    cases hguard : closesEmpty s a with
    | true => exact ((hstep hguard).ordered (ordered_reachable hs)).2
    | false =>
      obtain ⟨-, -, hledger⟩ := hclose hguard
      exact .inl (congrArg Ledger.publish hledger)

/-! ## The history of accepted frames -/

/-- The bundle that a step hands to `enqueueFrame` and that is accepted. -/
def PullState.acceptedBundle (s : PullState) : PullAction → List FrameBundle
  | .enqueueFrame =>
    match s.pc with
    | .publishing (bundle :: _) => if s.publish.buffer.stopped then [] else [bundle]
    | _ => []
  | _ => []

/-- The puller, its buffer and the buffer's users, with the bundles accepted so far. -/
structure HandoverState where
  pull : PullState
  bundles : List FrameBundle := []

def handoverSystem (cfg : StreamConfig) : Machine HandoverState PullAction where
  init := { pull := (pullSystem cfg).init }
  next s a := ((pullSystem cfg).next s.pull a).map fun t => ⟨t, s.bundles ++ s.pull.acceptedBundle a⟩

def handoverProjection (cfg : StreamConfig) :
    Machine.Projection (handoverSystem cfg) (pullSystem cfg) where
  state s := s.pull
  init := rfl
  step s a t _ hn := by
    obtain ⟨u, hu, rfl⟩ := Option.map_eq_some_iff.mp hn
    exact .inr ⟨a, hu⟩

/-- The bundle as the puller made it: only the inference state changes in the buffer. -/
def FrameBundle.source (f : FrameBundle) : FrameBundle := { f with inferState := .idle }

lemma seiCodecTypeFromFrame_source {f g : FrameBundle} (h : f.source = g.source) :
    seiCodecTypeFromFrame (some f) = seiCodecTypeFromFrame (some g) := by
  have hcoding : f.source.sourceCoding = g.source.sourceCoding := by rw [h]
  simp only [FrameBundle.source] at hcoding
  simp [seiCodecTypeFromFrame, hcoding]

lemma source_setInferState (frames : FrameMap) (id k : Int) (state : InferState) :
    ((setInferState frames id state)[k]?).map FrameBundle.source =
      (frames[k]?).map FrameBundle.source := by
  rw [lookup_setInferState]
  split
  · rw [Option.map_map]
    rfl
  · rfl

lemma source_giveUp (selected k : Int) (order : List Int) (f : FrameBundle) :
    (giveUp selected k order f).source = f.source := by
  unfold giveUp
  split <;> rfl

/-- The workers change the inference states and nothing else of a frame. -/
lemma WorkerCall.apply_source (c : WorkerCall) (b : StreamBuffer) (k : Int) :
    ((c.apply b).frames[k]?).map FrameBundle.source = (b.frames[k]?).map FrameBundle.source := by
  cases c with
  | selectFrameForInference =>
    rcases b.selectFrameForInference_cases with ⟨h, -⟩ | ⟨id, f, -, -, h⟩
    · simp [apply, h]
    · rw [apply, h, ← source_setInferState b.frames id k .selected, lookup_markOthersDone,
        Option.map_map]
      congr 1
      funext g
      exact source_giveUp id k b.frameOrder g
  | markInferenceRunning id => exact source_setInferState b.frames id k _
  | markInferenceDone r => exact source_setInferState b.frames r.frameId k _
  | clearInferenceSelection id st => exact source_setInferState b.frames id k st
  | updateCachedInferenceResult r =>
    simp only [apply, StreamBuffer.updateCachedInferenceResult]
    split <;> rfl

/-! ## Packets are handed over in order, with the codec of their frame -/

/-- `f` is the frame of the packet, as it was accepted. -/
def OwnBundle (bundles : List FrameBundle) (packet : EncodedPacket) (f : FrameBundle) : Prop :=
  ∃ g ∈ bundles, g.frameId = packet.frameId ∧ f.source = g.source

/-- The codec handed over with a video packet is that of its own frame. -/
def OwnCodec (bundles : List FrameBundle) (packet : EncodedPacket) (codecType : Option SeiCodecType) :
    Prop :=
  packet.mediaType = .video → 0 ≤ packet.frameId →
    ∃ g ∈ bundles, g.frameId = packet.frameId ∧ codecType = some (seiCodecTypeFromFrame (some g))

/-- The queued packets that have not been handed over: all but a packet about to be popped. -/
def PublishState.remaining (s : PublishState) : List EncodedPacket :=
  match s.pc with
  | .popping _ => s.buffer.packets.tail
  | _ => s.buffer.packets

structure HandoverInv (s : PublishState) (bundles : List FrameBundle) : Prop where
  ids : bundles.map FrameBundle.frameId = s.acceptedFrames
  stored : ∀ (k : Int) (f : FrameBundle), s.buffer.frames[k]? = some f →
    ∃ g ∈ bundles, g.frameId = k ∧ f.source = g.source
  order : s.handedOver.map Prod.fst ++ s.remaining = s.acceptedPackets
  taking : ∀ p codecType, s.pc = .taking p codecType → OwnCodec bundles p (some codecType)
  writing : ∀ p codecType, s.pc = .writing p codecType → OwnCodec bundles p codecType
  handed : ∀ p codecType, (p, codecType) ∈ s.handedOver → OwnCodec bundles p codecType

lemma OwnCodec.mono {bundles bundles' : List FrameBundle} {packet : EncodedPacket}
    {codecType : Option SeiCodecType} (h : OwnCodec bundles packet codecType)
    (hb : ∀ g ∈ bundles, g ∈ bundles') : OwnCodec bundles' packet codecType := by
  intro hv h0
  obtain ⟨g, hg, hgc⟩ := h hv h0
  exact ⟨g, hb g hg, hgc⟩

namespace HandoverInv

variable {s : PublishState} {bundles : List FrameBundle}

/-- A buffer with the same queue whose frames have the same source. -/
lemma congr (h : HandoverInv s bundles) {b : StreamBuffer} (hpackets : b.packets = s.buffer.packets)
    (hframes : ∀ k : Int, (b.frames[k]?).map FrameBundle.source =
      (s.buffer.frames[k]?).map FrameBundle.source) :
    HandoverInv { s with buffer := b } bundles := by
  refine ⟨h.ids, fun k f hf => ?_, ?_, h.taking, h.writing, h.handed⟩
  · have hsource := hframes k
    dsimp only at hf
    rw [hf] at hsource
    obtain ⟨f', hf', he⟩ := Option.map_eq_some_iff.mp hsource.symm
    obtain ⟨g, hg, hid, hfg⟩ := h.stored k f' hf'
    exact ⟨g, hg, hid, he.symm.trans hfg⟩
  · rw [← h.order]
    simp only [PublishState.remaining, hpackets]

/-- A packet that is accepted joins the packets to be handed over. The packet in front is there
whenever `publishLoop` is about to pop. -/
lemma enqueuePacket (h : HandoverInv s bundles) (hpop : ∀ p, s.pc = .popping p → s.buffer.packets ≠ [])
    (packet : EncodedPacket) : HandoverInv (s.enqueuePacket packet) bundles := by
  rcases s.buffer.enqueuePacket_cases packet with ⟨-, he⟩ | ⟨-, he⟩
  · simpa [PublishState.enqueuePacket, he] using h
  · have hremaining : (s.enqueuePacket packet).remaining = s.remaining ++ [packet] := by
      simp only [PublishState.remaining, PublishState.enqueuePacket, he]
      cases hpc : s.pc with
      | popping p => exact List.tail_append_of_ne_nil (hpop p hpc)
      | _ => rfl
    refine ⟨h.ids, ?_, ?_, h.taking, h.writing, h.handed⟩
    · simpa [PublishState.enqueuePacket, he] using h.stored
    · rw [hremaining, ← List.append_assoc]
      simp only [PublishState.enqueuePacket, he, ite_true]
      rw [h.order]

/-- The history is that of `enqueueFrame`. -/
lemma enqueueFrame (h : HandoverInv s bundles) (f : FrameBundle) :
    HandoverInv (s.enqueueFrame f) (bundles ++ if s.buffer.stopped then [] else [f]) := by
  rcases s.buffer.enqueueFrame_cases f with ⟨hs, he⟩ | ⟨hs, he⟩
  · simpa [PublishState.enqueueFrame, he, hs] using h
  · simp only [PublishState.enqueueFrame, he, hs, ite_true, Bool.false_eq_true, ite_false]
    have hmem : ∀ g ∈ bundles, g ∈ bundles ++ [f] := fun g hg => List.mem_append_left _ hg
    refine ⟨by simp [h.ids], fun k g hg => ?_, h.order, fun p c hpc => (h.taking p c hpc).mono hmem,
      fun p c hpc => (h.writing p c hpc).mono hmem, fun p c hpc => (h.handed p c hpc).mono hmem⟩
    dsimp only at hg
    rw [lookup_insert] at hg
    split at hg
    · cases hg
      exact ⟨f, List.mem_append_right _ (List.mem_singleton.mpr rfl), ‹_›, rfl⟩
    · obtain ⟨g', hg', hid, he'⟩ := h.stored k g hg
      exact ⟨g', hmem g' hg', hid, he'⟩

/-- The frame of the packet that `publishLoop` looks up is there, and is the accepted one. -/
lemma own_of_finding (h : HandoverInv s bundles) (hr : ReserveInv s) {p : EncodedPacket}
    (hpc : s.pc = .finding p) (h0 : 0 ≤ p.frameId) :
    ∃ f, s.buffer.findFrame p.frameId = some f ∧ OwnBundle bundles p f := by
  have hfront := hr.pc
  rw [hpc] at hfront
  obtain ⟨hv, rest, -, hcleared⟩ := hfront
  obtain ⟨d, hd, -⟩ := (hcleared hv).reserved h0
  obtain ⟨f, hf, -⟩ := StreamBuffer.decodedAt_eq_some.mp hd
  exact ⟨f, hf, h.stored _ f hf⟩

/-- A step that only moves `publishLoop` on, not to a place where it holds a codec. -/
lemma move (h : HandoverInv s bundles) {pc : PublishPc} (hfrom : ∀ p, s.pc ≠ .popping p)
    (hto : ∀ p, pc ≠ .popping p) (htaking : ∀ p c, pc ≠ .taking p c)
    (hwriting : ∀ p c, pc = .writing p c → OwnCodec bundles p c) :
    HandoverInv { s with pc := pc } bundles := by
  have hremaining : PublishState.remaining { s with pc := pc } = s.remaining := by
    unfold PublishState.remaining
    cases hs : s.pc with
    | popping p => exact absurd hs (hfrom p)
    | _ =>
      cases pc with
      | popping p => exact absurd rfl (hto p)
      | _ => rfl
  refine ⟨h.ids, h.stored, ?_, fun p c hc => absurd hc (htaking p c), hwriting, h.handed⟩
  rw [hremaining]
  exact h.order

/-- One step of `publishLoop`: the front packet is looked up, handed over and popped. -/
lemma publish (h : HandoverInv s bundles) (hr : ReserveInv s) (c : TakeContext) :
    HandoverInv (s.publish c) bundles := by
  have hfront := hr.pc
  unfold PublishState.publish
  cases hpc : s.pc with
  | waiting =>
    dsimp only
    split
    · exact h.move (by simp [hpc]) (by simp) (by simp) (by simp)
    · exact h
  | peeking =>
    dsimp only
    split
    · exact h.move (by simp [hpc]) (by simp) (by simp) (by simp)
    · split
      · exact h.move (by simp [hpc]) (by simp) (by simp) (by simp)
      · rename_i p _ haudio
        refine h.move (by simp [hpc]) (by simp) (by simp) fun q d hq hv => ?_
        cases hq
        exact absurd hv haudio
  | finding p =>
    refine ⟨h.ids, h.stored, ?_, fun q d hq _ h0 => ?_, by simp, h.handed⟩
    · simpa [PublishState.remaining, hpc] using h.order
    · cases hq
      obtain ⟨f, hf, g, hg, hid, hsource⟩ := h.own_of_finding hr hpc h0
      exact ⟨g, hg, hid, by rw [hf, seiCodecTypeFromFrame_source hsource]⟩
  | taking p codecType =>
    refine ⟨h.ids, by simpa using h.stored, ?_, by simp, fun q d hq => ?_, h.handed⟩
    · simpa [PublishState.remaining, hpc] using h.order
    · cases hq
      exact h.taking p codecType hpc
  | writing p codecType =>
    rw [hpc] at hfront
    obtain ⟨rest, hp, -⟩ := hfront
    refine ⟨h.ids, h.stored, ?_, by simp, by simp, fun q d hq => ?_⟩
    · simpa [PublishState.remaining, hpc, hp] using h.order
    · rcases List.mem_append.mp hq with hq | hq
      · exact h.handed q d hq
      · cases List.mem_singleton.mp hq
        exact h.writing p codecType hpc
  | popping p =>
    rw [hpc] at hfront
    obtain ⟨rest, hp, -⟩ := hfront
    have hframes : s.buffer.popPacket.frames = s.buffer.frames := by simp [StreamBuffer.popPacket, hp]
    have horder : s.handedOver.map Prod.fst ++ rest = s.acceptedPackets := by
      simpa [PublishState.remaining, hpc, hp] using h.order
    dsimp only
    split
    · refine ⟨h.ids, by simpa only [hframes] using h.stored, ?_, by simp, by simp, h.handed⟩
      simpa only [PublishState.remaining, popPacket_cons hp] using horder
    · refine ⟨h.ids, by simpa only [hframes] using h.stored, ?_, by simp, by simp, h.handed⟩
      simpa only [PublishState.remaining, popPacket_cons hp] using horder
  | releasing p =>
    refine ⟨h.ids, fun k f hf => ?_, ?_, by simp, by simp, h.handed⟩
    · simp only [StreamBuffer.releaseFrame, lookup_erase] at hf
      split at hf
      · cases hf
      · exact h.stored k f hf
    · simpa [PublishState.remaining, hpc, StreamBuffer.releaseFrame] using h.order

end HandoverInv

/-- A turn of the read loop makes at most one call to the buffer. -/
lemma PullState.readFrame_publish (s : PullState) (answer : ReadAnswer) :
    (s.readFrame answer).publish = s.publish ∨
      ∃ packet, (s.readFrame answer).publish = s.publish.enqueuePacket packet := by
  unfold PullState.readFrame
  split
  · exact .inl rfl
  · cases answer with
    | error => exact .inl rfl
    | packet pkt cloned rescaled nowMonoMs decodedFrames =>
      dsimp only
      split
      · exact .inl rfl
      · split
        · exact .inr ⟨_, rfl⟩
        · split
          · exact .inr ⟨_, rfl⟩
          · exact .inl rfl

lemma PullState.openStream_publish (s : PullState) (answer : OpenAnswer) :
    (s.openStream answer).publish = s.publish := by
  unfold PullState.openStream
  split
  · rfl
  · dsimp only
    split
    · rfl
    · split <;> rfl

/-- One step of the system keeps the hand-over in order. -/
lemma HandoverInv.next {cfg : StreamConfig} {s t : HandoverState} {a : PullAction}
    (h : HandoverInv s.pull.publish s.bundles) (hr : ReserveInv s.pull.publish)
    (hn : (handoverSystem cfg).next s a = some t) : HandoverInv t.pull.publish t.bundles := by
  have hpop : ∀ p, s.pull.publish.pc = .popping p → s.pull.publish.buffer.packets ≠ [] := by
    intro p hpc
    have hfront := hr.pc
    rw [hpc] at hfront
    obtain ⟨rest, hp, -⟩ := hfront
    simp [hp]
  obtain ⟨u, hu, rfl⟩ := Option.map_eq_some_iff.mp hn
  cases a with
  | openStream answer =>
    obtain ⟨-, rfl⟩ := pullSystem_openStream hu
    simpa [PullState.acceptedBundle, PullState.openStream_publish] using h
  | readFrame answer =>
    obtain ⟨-, rfl⟩ := pullSystem_readFrame hu
    simp only [PullState.acceptedBundle, List.append_nil]
    rcases s.pull.readFrame_publish answer with he | ⟨packet, he⟩
    · rw [he]
      exact h
    · rw [he]
      exact h.enqueuePacket hpop packet
  | enqueueFrame =>
    obtain ⟨bundles, hpc, rfl⟩ := pullSystem_enqueueFrame hu
    cases bundles with
    | nil => simpa [PullState.acceptedBundle, PullState.enqueueFrame, hpc] using h
    | cons bundle bundles =>
      simpa only [PullState.acceptedBundle, PullState.enqueueFrame, hpc] using h.enqueueFrame bundle
  | requestStop =>
    cases hu
    simpa [PullState.acceptedBundle] using h
  | worker c =>
    cases hu
    simp only [PullState.acceptedBundle, List.append_nil]
    exact h.congr (by simp) (c.apply_source s.pull.publish.buffer)
  | publish c =>
    cases hu
    simp only [PullState.acceptedBundle, List.append_nil]
    exact h.publish hr c
  | stopBuffer =>
    obtain ⟨-, rfl⟩ := pullSystem_stopBuffer hu
    simp only [PullState.acceptedBundle, List.append_nil]
    exact h.congr rfl fun _ => rfl

lemma handoverInv_reachable {cfg : StreamConfig} {s : HandoverState}
    (h : (handoverSystem cfg).Reachable s) : HandoverInv s.pull.publish s.bundles := by
  apply h.invariant_of (J := fun t => ReserveInv t.pull.publish) fun t ht => ?_
  · refine ⟨rfl, ?_, rfl, ?_, ?_, ?_⟩
    · intro k f hf
      simp [handoverSystem, pullSystem] at hf
    · intro p c hc
      cases hc
    · intro p c hc
      cases hc
    · intro p c hc
      cases hc
  · intro t a u hr ht _ hn
    exact ht.next hr hn
  · exact reserveInv_reachable ((pullProjection cfg).reachable ((handoverProjection cfg).reachable ht))

/-- The packets handed to the publisher are a prefix of the accepted ones. Every packet that is
looked up has its own frame in the buffer, and every video packet is handed over with the codec of
the one bundle that was accepted under its id. -/
theorem handed_over_in_order {cfg : StreamConfig} {s : HandoverState}
    (h : (handoverSystem cfg).Reachable s) :
    s.pull.publish.handedOver.map Prod.fst <+: s.pull.publish.acceptedPackets ∧
    (∀ p, s.pull.publish.pc = .finding p →
      ∃ f, s.pull.publish.buffer.findFrame p.frameId = some f ∧ OwnBundle s.bundles p f) ∧
    (∀ p codecType, (p, codecType) ∈ s.pull.publish.handedOver → p.mediaType = .video →
      ∃ g ∈ s.bundles, g.frameId = p.frameId ∧ codecType = some (seiCodecTypeFromFrame (some g))) ∧
    (s.bundles.map FrameBundle.frameId).Nodup := by
  have hinv := handoverInv_reachable h
  have hpull : (pullSystem cfg).Reachable s.pull := (handoverProjection cfg).reachable h
  have hreserve : ReserveInv s.pull.publish := reserveInv_reachable ((pullProjection cfg).reachable hpull)
  have hord : s.pull.ledger.Ordered := ordered_reachable hpull
  have hnonneg : ∀ p ∈ s.pull.publish.acceptedPackets, p.mediaType = .video → 0 ≤ p.frameId :=
    fun p hp hv => (hord.packets _ (mem_videoIds.mpr ⟨p, hp, hv, rfl⟩)).1
  refine ⟨⟨_, hinv.order⟩, fun p hpc => ?_, fun p codecType hp hv => ?_, ?_⟩
  · have hfront := hreserve.pc
    rw [hpc] at hfront
    obtain ⟨hv, rest, hpackets, -⟩ := hfront
    have haccepted : p ∈ s.pull.publish.acceptedPackets := by
      rw [← hinv.order]
      simp [PublishState.remaining, hpc, hpackets]
    exact hinv.own_of_finding hreserve hpc (hnonneg p haccepted hv)
  · have haccepted : p ∈ s.pull.publish.acceptedPackets := by
      rw [← hinv.order]
      exact List.mem_append_left _ (List.mem_map_of_mem hp)
    exact hinv.handed p codecType hp hv (hnonneg p haccepted hv)
  · rw [hinv.ids]
    exact hord.frames.imp Int.ne_of_lt

/-- Two video packets of an H.265 stream, of which the first is handed over. -/
theorem handed_over_in_order_h265 :
    ∃ s, (handoverSystem {}).Reachable s ∧
      s.pull.publish.handedOver.map (fun e => (e.1.frameId, e.2)) = [(0, some .h265)] ∧
      s.pull.publish.handedOver.map Prod.fst <+: s.pull.publish.acceptedPackets := by
  obtain ⟨s, hs, hp⟩ := Machine.reachable_of_exec_any (handoverSystem {})
    [.openStream { fmtCtx := some { streams := [{ codecId := 173 }] } },
      readVideo 0 [{ pts := 0 }], .enqueueFrame, .enqueueFrame,
      readVideo 1 [{ pts := 1 }], .enqueueFrame, .enqueueFrame,
      .publish {}, .publish {}, .publish {}, .publish {}, .publish {}]
    (fun s => decide (s.pull.publish.handedOver.map (fun e => (e.1.frameId, e.2)) = [(0, some .h265)]))
    (by decide)
  exact ⟨s, hs, of_decide_eq_true hp, (handed_over_in_order hs).1⟩

end MediaAgent
