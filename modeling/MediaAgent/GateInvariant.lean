import MediaAgent.InferenceGate

/-!
# Publishing spares the frame being inferred

The invariant of the gate system: the queue, the frames and the task are kept in step by every
call of the puller, the workers and the publish loop. It follows that a packet is popped and a
frame released only when inference is not working on it or on something older.
-/

namespace MediaAgent
open Transition TreeMaps

/-! ## The queue and the frames -/

/-- The queued video packets have increasing ids; an accepted packet that has left the queue had
its frame; and every frame belongs to a queued packet or to the one being released. -/
structure QueueOk (s : PublishState) : Prop where
  ids : (videoIds s.buffer.packets).Pairwise (· < ·)
  nonneg : ∀ i ∈ s.acceptedVideoIds, 0 ≤ i
  queued : ∀ i ∈ videoIds s.buffer.packets, i ∈ s.acceptedVideoIds
  framed : ∀ i ∈ s.acceptedVideoIds, i ∈ videoIds s.buffer.packets ∨ i ∈ s.acceptedFrames
  older : ∀ k d, s.buffer.decodedAt k = some d →
    k ∈ videoIds s.buffer.packets ∨ ∃ p, s.pc = .releasing p ∧ p.frameId = k

lemma QueueOk.worker {s : PublishState} (h : QueueOk s) (c : WorkerCall) :
    QueueOk { s with buffer := c.apply s.buffer } := by
  have hp : (c.apply s.buffer).packets = s.buffer.packets := WorkerCall.apply_packets c _
  refine ⟨hp ▸ h.ids, h.nonneg, fun i hi => h.queued i (hp ▸ hi), fun i hi => ?_, fun k d hk => ?_⟩
  · rw [hp]
    exact h.framed i hi
  · rw [hp]
    exact h.older k d (by simpa using hk)

lemma QueueOk.enqueuePacket {s : PublishState} (h : QueueOk s) {p : EncodedPacket}
    (hp : p.mediaType = .video → 0 ≤ p.frameId ∧ ∀ i ∈ s.acceptedVideoIds, i < p.frameId) :
    QueueOk (s.enqueuePacket p) := by
  have hqueue := videoIds_enqueuePacket s p
  have haccepted := acceptedVideoIds_enqueuePacket s p
  have hframes : (s.enqueuePacket p).acceptedFrames = s.acceptedFrames := rfl
  have holder : ∀ k d, (s.enqueuePacket p).buffer.decodedAt k = some d →
      k ∈ videoIds s.buffer.packets ∨ ∃ q, s.pc = .releasing q ∧ q.frameId = k :=
    fun k d hk => h.older k d ((decodedAt_enqueuePacket _ p k).symm.trans hk)
  by_cases hnew : s.buffer.stopped = false ∧ p.mediaType = .video
  · rw [if_pos hnew] at hqueue haccepted
    obtain ⟨h0, hmax⟩ := hp hnew.2
    have hmax' : ∀ i ∈ videoIds s.buffer.packets, i < p.frameId := fun i hi => hmax i (h.queued i hi)
    refine ⟨?_, fun i hi => ?_, fun i hi => ?_, fun i hi => ?_, fun k d hk => ?_⟩
    · rw [hqueue]
      exact List.pairwise_append.mpr ⟨h.ids, List.pairwise_singleton _ _, by simpa using hmax'⟩
    · rw [haccepted] at hi
      rcases List.mem_append.mp hi with hi | hi
      · exact h.nonneg i hi
      · rw [List.mem_singleton.mp hi]
        exact h0
    · rw [hqueue] at hi
      rw [haccepted]
      rcases List.mem_append.mp hi with hi | hi
      · exact List.mem_append_left _ (h.queued i hi)
      · exact List.mem_append_right _ hi
    · rw [haccepted] at hi
      rw [hqueue, hframes]
      rcases List.mem_append.mp hi with hi | hi
      · exact (h.framed i hi).imp_left (List.mem_append_left _)
      · exact .inl (List.mem_append_right _ hi)
    · rw [hqueue]
      exact (holder k d hk).imp_left (List.mem_append_left _)
  · rw [if_neg hnew] at hqueue haccepted
    refine ⟨hqueue ▸ h.ids, haccepted ▸ h.nonneg, ?_, ?_, fun k d hk => hqueue ▸ holder k d hk⟩
    · rw [hqueue, haccepted]
      exact h.queued
    · rw [hqueue, haccepted, hframes]
      exact h.framed

/-- A frame that is enqueued belongs to a packet that is still in the queue. -/
lemma QueueOk.frame_queued {s : PublishState} (h : QueueOk s) {f : FrameBundle}
    (hid : f.frameId ∈ s.acceptedVideoIds) (hnew : ∀ i ∈ s.acceptedFrames, i < f.frameId) :
    f.frameId ∈ videoIds s.buffer.packets := by
  rcases h.framed f.frameId hid with hq | hf
  · exact hq
  · exact absurd (hnew _ hf) (Int.lt_irrefl _)

lemma QueueOk.enqueueFrame {s : PublishState} (h : QueueOk s) {f : FrameBundle}
    (hid : f.frameId ∈ s.acceptedVideoIds) (hnew : ∀ i ∈ s.acceptedFrames, i < f.frameId) :
    QueueOk (s.enqueueFrame f) := by
  have hq := h.frame_queued hid hnew
  rcases s.buffer.enqueueFrame_cases f with ⟨-, he⟩ | ⟨hs, he⟩
  · simpa only [PublishState.enqueueFrame, he, Bool.false_eq_true, ite_false] using h
  · have hpackets : (s.enqueueFrame f).buffer.packets = s.buffer.packets := by
      simp [PublishState.enqueueFrame, he]
    have hframes : (s.enqueueFrame f).acceptedFrames = s.acceptedFrames ++ [f.frameId] := by
      simp [PublishState.enqueueFrame, he]
    refine ⟨hpackets ▸ h.ids, h.nonneg, hpackets ▸ h.queued, fun i hi => ?_, fun k d hk => ?_⟩
    · rw [hpackets, hframes]
      exact (h.framed i hi).imp_right (List.mem_append_left _)
    · rw [hpackets]
      replace hk : (s.buffer.enqueueFrame (some f)).2.decodedAt k = some d := hk
      rw [decodedAt_enqueueFrame] at hk
      split at hk
      · rename_i he
        rw [← he.2]
        exact .inl hq
      · exact h.older k d hk

/-- A popped video packet had its frame; a released frame is gone. -/
lemma QueueOk.publish {s : PublishState} (h : QueueOk s) (hknown : ReserveInv s)
    (hpc : PcHolds s.buffer.packets (GateCleared s.buffer) (GateCleared s.buffer) s.pc)
    (c : TakeContext) : QueueOk (s.publish c) := by
  obtain ⟨hpackets, hframes⟩ := publish_accepted s c
  have hids : (s.publish c).acceptedVideoIds = s.acceptedVideoIds := by
    simp [PublishState.acceptedVideoIds, hpackets]
  have hqueue := videoIds_publish hpc c
  have hsub := videoIds_publish_sublist hpc c
  refine ⟨h.ids.sublist hsub, hids ▸ h.nonneg, fun i hi => ?_, fun i hi => ?_, fun k d hk => ?_⟩
  · rw [hids]
    exact h.queued i (hsub.subset hi)
  · rw [hids] at hi
    rw [hframes]
    rcases h.framed i hi with hq | hf
    · rcases hqueue with hsame | ⟨p, -, -, hc, hpop⟩
      · exact .inl (hsame ▸ hq)
      · rw [hpop] at hq
        rcases List.mem_cons.mp hq with rfl | hq
        · obtain ⟨d, hd, -⟩ := hc.reserve
          exact .inr (hknown.known _ d hd)
        · exact .inl hq
    · exact .inr hf
  · rcases h.older k d (publish_decodedAt hk) with hq | ⟨p, he, rfl⟩
    · rcases hqueue with hsame | ⟨p, he, hv, -, hpop⟩
      · exact .inl (hsame ▸ hq)
      · have hfirst : p.frameId ∈ videoIds s.buffer.packets := by
          rw [hpop]
          exact List.mem_cons_self ..
        have h0 := h.nonneg _ (h.queued _ hfirst)
        rw [hpop] at hq
        rcases List.mem_cons.mp hq with rfl | hq
        · -- the frame of the popped packet is the next to be released
          exact .inr ⟨p, by simp [PublishState.publish, he, hv, h0], rfl⟩
        · exact .inl hq
    · simp [PublishState.publish, he, StreamBuffer.decodedAt_releaseFrame] at hk

/-! ## The invariant of the gate -/

structure GateInv (s : GateState) : Prop where
  frames : FramesOk s.base.buffer
  task : ∀ id ph, s.task = some (id, ph) →
    ∃ f, s.base.buffer.frames[id]? = some f ∧ f.inferState = ph.state
  queue : QueueOk s.base
  pc : PcHolds s.base.buffer.packets (GateCleared s.base.buffer) (GateCleared s.base.buffer) s.base.pc

/-- A worker's call keeps the invariant if it keeps the frames in order, answers to the task
and leaves the packet that was let through below every frame being inferred. -/
lemma GateInv.call {s : GateState} (h : GateInv s) (c : WorkerCall) (task : Option (Int × TaskPhase))
    (hframes : FramesOk (c.apply s.base.buffer))
    (htask : ∀ id ph, task = some (id, ph) →
      ∃ f, (c.apply s.base.buffer).frames[id]? = some f ∧ f.inferState = ph.state)
    (hclear : ∀ p, GateCleared s.base.buffer p → GateCleared (c.apply s.base.buffer) p) :
    GateInv (s.call c task) :=
  ⟨hframes, htask, h.queue.worker c, h.pc.mono (by simp [GateState.call]) hclear hclear⟩

lemma GateInv.key_nonneg {s : GateState} (h : GateInv s) {k : Int} {f : FrameBundle}
    (hf : s.base.buffer.frames[k]? = some f) : 0 ≤ k := by
  rcases h.queue.older k _ (StreamBuffer.decodedAt_eq_some.mpr ⟨f, hf, rfl⟩) with hq | ⟨p, hp, rfl⟩
  · exact h.queue.nonneg k (h.queue.queued k hq)
  · have hpc := h.pc
    rw [hp] at hpc
    exact hpc.2.1

lemma GateInv.select {s : GateState} (h : GateInv s) :
    GateInv (s.call .selectFrameForInference
      (s.base.buffer.selectFrameForInference.1.map fun f => (f.frameId, .selected))) := by
  rcases s.base.buffer.selectFrameForInference_cases with ⟨hs, -⟩ | ⟨id, f, hn, hsel, hb⟩
  · have happly : WorkerCall.selectFrameForInference.apply s.base.buffer = s.base.buffer := by
      simp [WorkerCall.apply, hs]
    refine h.call _ _ (by rw [happly]; exact h.frames) (fun id ph ht => ?_)
      (fun p hp => by rw [happly]; exact hp)
    simp [hs] at ht
  · have hr : Restated s.base.buffer (WorkerCall.selectFrameForInference.apply s.base.buffer)
        (selectAt id) := by
      rw [WorkerCall.apply, hb]
      exact Restated.select h.frames id
    refine h.call _ _ (h.frames.select hn hr) (fun id' ph ht => ?_) (fun p hp => ?_)
    · simp only [hsel, Option.map_some, Option.some.injEq, Prod.mk.injEq] at ht
      obtain ⟨hid, rfl⟩ := ht
      rw [h.frames.keyed id f hn.lookup] at hid
      subst id'
      exact ⟨{ f with inferState := .selected }, by simp [hr.lookup, hn.lookup, selectAt], rfl⟩
    · refine hp.restate hr (fun k g hg hi => ?_)
      rw [isInferring_selectAt hi]
      exact hp.lt_newestIdle h.frames hn

lemma TaskPhase.isInferring_state (ph : TaskPhase) : isInferring ph.state = true := by
  cases ph <;> rfl

/-- The task's frame is above the packet that was let through. -/
lemma GateInv.below_task {s : GateState} (h : GateInv s) {id : Int} {ph : TaskPhase}
    (ht : s.task = some (id, ph)) {p : EncodedPacket} (hp : GateCleared s.base.buffer p) :
    p.frameId < id := by
  obtain ⟨f, hf, hst⟩ := h.task id ph ht
  exact hp.below id f hf (by rw [hst, ph.isInferring_state])

lemma GateInv.run {s : GateState} (h : GateInv s) {id : Int} (ht : s.task = some (id, .selected)) :
    GateInv (s.call (.markInferenceRunning id) (some (id, .running))) := by
  have hr : Restated s.base.buffer ((WorkerCall.markInferenceRunning id).apply s.base.buffer)
      (setAt id .running) := Restated.setInferState _ id .running
  obtain ⟨f, hf, hst⟩ := h.task id _ ht
  refine h.call _ _ (h.frames.mark hr (by decide) ⟨f, hf, by rw [hst]; rfl⟩) (fun id' ph he => ?_)
    (fun p hp => hp.restate hr (fun k g hg hi => ?_))
  · cases he
    exact ⟨{ f with inferState := .running }, by simp [hr.lookup, hf, setAt], rfl⟩
  · unfold setAt at hi
    split at hi
    · rename_i hid
      rw [← hid]
      exact h.below_task ht hp
    · exact hp.below k g hg hi

/-- Ending the task, with a result for its frame or by dropping it. -/
lemma GateInv.finish {s : GateState} (h : GateInv s) {c : WorkerCall} (id : Int) (st : InferState)
    (hr : Restated s.base.buffer (c.apply s.base.buffer) (setAt id st))
    (hst : isInferring st = false) (hidle : st ≠ .idle)
    (hid : ∀ f, s.base.buffer.frames[id]? = some f → f.inferState ≠ .idle) :
    GateInv (s.call c none) :=
  h.call c none (h.frames.finish hr hst hidle hid) (fun id ph he => by cases he)
    (fun p hp => hp.restate hr
      (fun k g hg hi => hp.below k g hg (isInferring_setAt_done hst hi).2))

lemma GateInv.task_not_idle {s : GateState} (h : GateInv s) {id : Int} {ph : TaskPhase}
    (ht : s.task = some (id, ph)) :
    ∀ f, s.base.buffer.frames[id]? = some f → f.inferState ≠ .idle := by
  intro f hf
  obtain ⟨f', hf', hst⟩ := h.task id ph ht
  rw [hf'] at hf
  cases hf
  rw [hst]
  cases ph <;> decide

lemma FramesOk.enqueueFrame {b : StreamBuffer} (h : FramesOk b) {f : FrameBundle}
    (hidle : f.inferState = .idle)
    (hnew : ∀ (k : Int) (g : FrameBundle), b.frames[k]? = some g → k < f.frameId) :
    FramesOk (b.enqueueFrame (some f)).2 := by
  have hlookup := fun (k : Int) (g : FrameBundle) =>
    StreamBuffer.lookup_enqueueFrame (b := b) (f := f) (g := g) (k := k)
  rcases b.enqueueFrame_cases f with ⟨-, he⟩ | ⟨-, he⟩ <;> rw [he] at hlookup ⊢
  · exact h
  · have hbusy : isInferring f.inferState = false := by rw [hidle]; rfl
    refine ⟨fun k g hg => ?_, ?_, fun k => ?_, fun j k g g' hjk hg hg' hi => ?_,
      fun k g hg hi => ?_, fun j k g g' hg hg' hi hi' => ?_⟩
    · rcases hlookup k g hg with ⟨rfl, rfl⟩ | hg
      · rfl
      · exact h.keyed k g hg
    · refine List.pairwise_append.mpr ⟨h.ordered, List.pairwise_singleton _ _, fun k hk j hj => ?_⟩
      obtain ⟨g, hg⟩ := (h.listed k).mp hk
      rw [List.mem_singleton.mp hj]
      exact hnew k g hg
    · rw [List.mem_append, h.listed, List.mem_singleton, lookup_insert]
      by_cases hk : f.frameId = k
      · simp [hk]
      · simp [hk, Ne.symm hk]
    · rcases hlookup k g' hg' with ⟨-, rfl⟩ | hold'
      · exact hidle
      · rcases hlookup j g hg with ⟨rfl, -⟩ | hold
        · have hlt := hnew k g' hold'
          omega
        · exact h.idleSuffix j k g g' hjk hold hold' hi
    · rcases hlookup k g hg with ⟨-, rfl⟩ | hold
      · rw [hbusy] at hi
        cases hi
      · exact h.decoded k g hold hi
    · rcases hlookup j g hg with ⟨-, rfl⟩ | hold
      · rw [hbusy] at hi
        cases hi
      · rcases hlookup k g' hg' with ⟨-, rfl⟩ | hold'
        · rw [hbusy] at hi'
          cases hi'
        · exact h.unique j k g g' hold hold' hi hi'

lemma FramesOk.releaseFrame {b : StreamBuffer} (h : FramesOk b) (id : Int) :
    FramesOk (b.releaseFrame id) := by
  have hlookup : ∀ (k : Int) (g : FrameBundle), (b.frames.erase id)[k]? = some g →
      id ≠ k ∧ b.frames[k]? = some g := by
    intro k g hg
    rw [lookup_erase] at hg
    split at hg
    · cases hg
    · exact ⟨‹_›, hg⟩
  refine ⟨fun k g hg => h.keyed k g (hlookup k g hg).2, h.ordered.filter _, fun k => ?_,
    fun j k g g' hjk hg hg' => h.idleSuffix j k g g' hjk (hlookup j g hg).2 (hlookup k g' hg').2,
    fun k g hg => h.decoded k g (hlookup k g hg).2,
    fun j k g g' hg hg' => h.unique j k g g' (hlookup j g hg).2 (hlookup k g' hg').2⟩
  simp only [StreamBuffer.releaseFrame, List.mem_filter, h.listed, lookup_erase]
  by_cases hk : id = k
  · simp [hk]
  · simp [hk, Ne.symm hk]

lemma popPacket_frames (b : StreamBuffer) :
    b.popPacket.frames = b.frames ∧ b.popPacket.frameOrder = b.frameOrder := by
  unfold StreamBuffer.popPacket
  split <;> exact ⟨rfl, rfl⟩

lemma FramesOk.congr {b b' : StreamBuffer} (h : FramesOk b) (hf : b'.frames = b.frames)
    (ho : b'.frameOrder = b.frameOrder) : FramesOk b' :=
  h.restate (τ := fun _ st => st) ⟨ho, fun k => by simp [hf]⟩ h.idleSuffix h.decoded h.unique

lemma GateCleared.congr {b b' : StreamBuffer} {p : EncodedPacket} (h : GateCleared b p)
    (hf : b'.frames = b.frames) : GateCleared b' p := by
  have hd : b'.decodedAt = b.decodedAt := by
    funext k
    simp [StreamBuffer.decodedAt, hf]
  exact ⟨by simpa only [Reserved, hd] using h.reserve, hf ▸ h.oldest, hf ▸ h.below⟩

/-- Gate 1 compares with the first frame being inferred, which is the only one. -/
lemma FramesOk.gate_below {b : StreamBuffer} (h : FramesOk b) {p : EncodedPacket}
    (hopen : b.GatesOpen p) {k : Int} {f : FrameBundle} (hf : b.frames[k]? = some f)
    (hi : isInferring f.inferState = true) : p.frameId < k := by
  have hlisted := (h.listed k).mpr ⟨f, hf⟩
  cases hinf : b.inferringFrameIdLocked with
  | none =>
    have hbusy := StreamBuffer.inferringFrameIdLocked_eq_none hinf hlisted hf (h.decoded k f hf hi)
    rw [hi] at hbusy
    cases hbusy
  | some id =>
    obtain ⟨g, hg, -, hgi⟩ := StreamBuffer.inferringFrameIdLocked_eq_some hinf
    rw [h.unique k id f g hf hg hi hgi]
    exact (hopen.inferring id hinf).2

/-- The readiness check clears a video packet at the front. -/
lemma GateInv.cleared {s : GateState} (h : GateInv s) (hreserve : ReserveInv s.base)
    (hw : s.base.buffer.waitForPublishable kMinVideoWatermark = true) {p : EncodedPacket}
    {rest : List EncodedPacket} (hpc : s.base.pc = .waiting)
    (hp : s.base.buffer.packets = p :: rest) (hv : p.mediaType = .video) :
    GateCleared s.base.buffer p := by
  have hids := h.queue.ids
  rw [hp, videoIds_cons, if_pos hv] at hids
  have hmem : p.frameId ∈ videoIds s.base.buffer.packets := by
    rw [hp, videoIds_cons, if_pos hv]
    exact List.mem_cons_self ..
  have h0 := h.queue.nonneg _ (h.queue.queued _ hmem)
  refine ⟨(cleared_of_waitForPublishable hreserve.count hw hp hv).reserved h0, fun k f hf => ?_,
    fun k f hf hi => ?_⟩
  · rcases h.queue.older k _ (StreamBuffer.decodedAt_eq_some.mpr ⟨f, hf, rfl⟩) with hq | ⟨q, hq, -⟩
    · rw [hp, videoIds_cons, if_pos hv] at hq
      rcases List.mem_cons.mp hq with rfl | hq
      · exact Int.le_refl _
      · exact Int.le_of_lt ((List.pairwise_cons.mp hids).1 k hq)
    · rw [hpc] at hq
      cases hq
  · obtain ⟨-, front, rest', hp', hgates⟩ := StreamBuffer.waitForPublishable_one hw
    rw [hp] at hp'
    cases hp'
    have hpos : s.base.buffer.videoPacketCount ≠ 0 := by simp [hreserve.count, hp, hv]
    exact h.frames.gate_below (hgates hpos hv) hf hi

lemma GateInv.publish {s : GateState} (h : GateInv s) (hreserve : ReserveInv s.base)
    (c : TakeContext) : GateInv { s with base := s.base.publish c } := by
  obtain ⟨hpopf, hpopo⟩ := popPacket_frames s.base.buffer
  refine ⟨?_, fun id ph ht => ?_, h.queue.publish hreserve h.pc c, ?_⟩
  · rcases publish_cases s.base c with ⟨cache, hb, -⟩ | ⟨p, -, hb, -⟩ | ⟨p, -, hb, -⟩
    · exact h.frames.congr (by rw [hb]) (by rw [hb])
    · exact h.frames.congr (by rw [hb, hpopf]) (by rw [hb, hpopo])
    · dsimp only
      rw [hb]
      exact h.frames.releaseFrame p.frameId
  · obtain ⟨f, hf, hst⟩ := h.task id ph ht
    rcases publish_cases s.base c with ⟨cache, hb, -⟩ | ⟨p, -, hb, -⟩ | ⟨p, hpc, hb, -⟩
    · exact ⟨f, by rw [hb]; exact hf, hst⟩
    · exact ⟨f, by rw [hb, hpopf]; exact hf, hst⟩
    · have hrel := h.pc
      rw [hpc] at hrel
      have hlt := h.below_task ht hrel.2.2
      refine ⟨f, ?_, hst⟩
      rw [hb, StreamBuffer.releaseFrame, lookup_erase, if_neg (by omega), hf]
  · exact PcHolds.publish GateCleared GateCleared h.pc
      (fun hw p rest hpc hp hv => h.cleared hreserve hw hpc hp hv)
      (fun p hc => hc.congr (by simp)) (fun p rest _ hc _ => hc.congr hpopf)

lemma GateInv.enqueueFrame {s : GateState} (h : GateInv s) (hreserve : ReserveInv s.base)
    {f : FrameBundle} (hidle : f.inferState = .idle) (hid : f.frameId ∈ s.base.acceptedVideoIds)
    (hnew : ∀ i ∈ s.base.acceptedFrames, i < f.frameId) :
    GateInv { s with base := s.base.enqueueFrame f } := by
  have hkeys : ∀ (k : Int) (g : FrameBundle), s.base.buffer.frames[k]? = some g → k < f.frameId :=
    fun k g hg => hnew k (hreserve.known k _ (StreamBuffer.decodedAt_eq_some.mpr ⟨g, hg, rfl⟩))
  have hgrows := Grows.of_enqueueFrame (hreserve.unknown hnew)
  have hclear : ∀ p, GateCleared s.base.buffer p →
      GateCleared (s.base.buffer.enqueueFrame (some f)).2 p := by
    intro p hp
    obtain ⟨d, hd, -⟩ := hp.reserve
    have hlt := hnew _ (hreserve.known _ d hd)
    refine ⟨hp.reserve.grows hgrows, fun k g hg => ?_, fun k g hg hi => ?_⟩
    · rcases StreamBuffer.lookup_enqueueFrame hg with ⟨rfl, -⟩ | hold
      · exact Int.le_of_lt hlt
      · exact hp.oldest k g hold
    · rcases StreamBuffer.lookup_enqueueFrame hg with ⟨rfl, -⟩ | hold
      · exact hlt
      · exact hp.below k g hold hi
  refine ⟨h.frames.enqueueFrame hidle hkeys, fun id ph ht => ?_, h.queue.enqueueFrame hid hnew,
    h.pc.mono hgrows.packets hclear hclear⟩
  obtain ⟨g, hg, hst⟩ := h.task id ph ht
  have hlt := hkeys id g hg
  refine ⟨g, ?_, hst⟩
  rcases s.base.buffer.enqueueFrame_cases f with ⟨-, he⟩ | ⟨-, he⟩
  · simpa only [PublishState.enqueueFrame, he] using hg
  · simp only [PublishState.enqueueFrame, he, lookup_insert, if_neg (show ¬f.frameId = id by omega)]
    exact hg

lemma GateInv.enqueuePacket {s : GateState} (h : GateInv s) {p : EncodedPacket}
    (hp : p.mediaType = .video → 0 ≤ p.frameId ∧ ∀ i ∈ s.base.acceptedVideoIds, i < p.frameId) :
    GateInv { s with base := s.base.enqueuePacket p } := by
  have hframes : (s.base.buffer.enqueuePacket (some p)).2.frames = s.base.buffer.frames ∧
      (s.base.buffer.enqueuePacket (some p)).2.frameOrder = s.base.buffer.frameOrder := by
    rcases s.base.buffer.enqueuePacket_cases p with ⟨-, he⟩ | ⟨-, he⟩ <;> rw [he] <;>
      exact ⟨rfl, rfl⟩
  have hclear : ∀ q, GateCleared s.base.buffer q →
      GateCleared (s.base.buffer.enqueuePacket (some p)).2 q := fun q hq => hq.congr hframes.1
  refine ⟨h.frames.congr hframes.1 hframes.2, fun id ph ht => ?_, h.queue.enqueuePacket hp,
    h.pc.mono (Grows.of_enqueuePacket _ p).packets hclear hclear⟩
  obtain ⟨f, hf, hst⟩ := h.task id ph ht
  exact ⟨f, hframes.1 ▸ hf, hst⟩

/-- The gate system is the publish system with a discipline on the workers. -/
def gateProjection : Machine.Projection gateSystem publishSystem where
  state := GateState.base
  init := rfl
  step s a t _ hn := by
    cases a with
    | enqueuePacket p =>
      obtain ⟨hp, rfl⟩ := gateSystem_enqueuePacket hn
      exact .inr ⟨.enqueuePacket p, if_pos fun hv => (hp hv).2⟩
    | enqueueFrame f =>
      obtain ⟨-, -, hnew, rfl⟩ := gateSystem_enqueueFrame hn
      exact .inr ⟨.enqueueFrame f, if_pos hnew⟩
    | selectFrameForInference =>
      obtain ⟨-, rfl⟩ := gateSystem_selectFrameForInference hn
      exact .inr ⟨.worker .selectFrameForInference, rfl⟩
    | markInferenceRunning =>
      obtain ⟨id, -, rfl⟩ := gateSystem_markInferenceRunning hn
      exact .inr ⟨.worker (.markInferenceRunning id), rfl⟩
    | markInferenceDone r =>
      obtain ⟨id, -, -, rfl⟩ := gateSystem_markInferenceDone hn
      exact .inr ⟨.worker (.markInferenceDone r), rfl⟩
    | clearInferenceSelection =>
      obtain ⟨id, -, rfl⟩ := gateSystem_clearInferenceSelection hn
      exact .inr ⟨.worker (.clearInferenceSelection id .dropped), rfl⟩
    | updateCachedInferenceResult r =>
      cases hn
      exact .inr ⟨.worker (.updateCachedInferenceResult r), rfl⟩
    | publish c =>
      cases hn
      exact .inr ⟨.publish c, rfl⟩
    | stop =>
      cases hn
      exact .inr ⟨.stop, rfl⟩

lemma GateInv.init : GateInv {} := by
  refine ⟨⟨?_, .nil, ?_, ?_, ?_, ?_⟩, ?_, ⟨.nil, ?_, ?_, ?_, ?_⟩, trivial⟩ <;>
    simp [StreamBuffer.decodedAt, videoIds, PublishState.acceptedVideoIds]

theorem gateInv_reachable {s : GateState} (h : gateSystem.Reachable s) : GateInv s := by
  apply h.invariant_of (fun t ht => reserveInv_reachable (gateProjection.reachable ht))
  · exact GateInv.init
  · intro s a t hreserve hs _ hn
    replace hreserve : ReserveInv s.base := hreserve
    cases a with
    | enqueuePacket p =>
      obtain ⟨hp, rfl⟩ := gateSystem_enqueuePacket hn
      exact hs.enqueuePacket hp
    | enqueueFrame f =>
      obtain ⟨hidle, hid, hnew, rfl⟩ := gateSystem_enqueueFrame hn
      exact hs.enqueueFrame hreserve hidle hid hnew
    | selectFrameForInference =>
      obtain ⟨-, rfl⟩ := gateSystem_selectFrameForInference hn
      exact hs.select
    | markInferenceRunning =>
      obtain ⟨id, ht, rfl⟩ := gateSystem_markInferenceRunning hn
      exact hs.run ht
    | markInferenceDone r =>
      obtain ⟨id, ht, hid, rfl⟩ := gateSystem_markInferenceDone hn
      refine hs.finish r.frameId .done (Restated.setInferState _ _ _) rfl (by decide) ?_
      rcases hid with rfl | hneg
      · exact hs.task_not_idle ht
      · intro f hf
        have := hs.key_nonneg hf
        omega
    | clearInferenceSelection =>
      obtain ⟨id, ht, rfl⟩ := gateSystem_clearInferenceSelection hn
      exact hs.finish id .dropped (Restated.setInferState _ _ _) rfl (by decide) (hs.task_not_idle ht)
    | updateCachedInferenceResult r =>
      cases hn
      have hb : ((WorkerCall.updateCachedInferenceResult r).apply s.base.buffer).frames =
            s.base.buffer.frames ∧
          ((WorkerCall.updateCachedInferenceResult r).apply s.base.buffer).frameOrder =
            s.base.buffer.frameOrder := by
        simp only [WorkerCall.apply, StreamBuffer.updateCachedInferenceResult]
        split <;> exact ⟨rfl, rfl⟩
      refine hs.call _ _ (hs.frames.congr hb.1 hb.2) (fun id ph ht => ?_) (fun p hp => hp.congr hb.1)
      rw [hb.1]
      exact hs.task id ph ht
    | publish c =>
      cases hn
      exact hs.publish hreserve c
    | stop =>
      cases hn
      exact ⟨hs.frames.congr rfl rfl, hs.task, ⟨hs.queue.ids, hs.queue.nonneg, hs.queue.queued,
        hs.queue.framed, hs.queue.older⟩, hs.pc.mono List.prefix_rfl (fun _ hp => hp.congr rfl)
        (fun _ hp => hp.congr rfl)⟩

/-- In every reachable state, the video packet that `popPacket` removes is older than every frame
being inferred, and the frame that `releaseFrame` removes is not being inferred. -/
theorem publish_spares_inference {s : GateState} (h : gateSystem.Reachable s) :
    (∀ p front rest, s.base.pc = .popping p → s.base.buffer.packets = front :: rest →
      front.mediaType = .video → ∀ (k : Int) (f : FrameBundle), s.base.buffer.frames[k]? = some f →
      isInferring f.inferState = true → front.frameId < f.frameId) ∧
    (∀ p (f : FrameBundle), s.base.pc = .releasing p →
      s.base.buffer.frames[p.frameId]? = some f → isInferring f.inferState = false) := by
  have hs := gateInv_reachable h
  have hpc := hs.pc
  refine ⟨fun p front rest hpop hp hv k f hf hi => ?_, fun p f hrel hf => ?_⟩
  · rw [hpop] at hpc
    obtain ⟨rest', hp', hc⟩ := hpc
    rw [hp] at hp'
    cases hp'
    rw [hs.frames.keyed k f hf]
    exact (hc hv).below k f hf hi
  · rw [hrel] at hpc
    by_contra hi
    exact Int.lt_irrefl _ (hpc.2.2.below _ f hf (by simpa using hi))

/-- A selection that lands between the readiness check and the pop. -/
def lateSelectionRun : List GateAction :=
  [.enqueuePacket { frameId := 0 }, .enqueuePacket { frameId := 1 },
    .enqueueFrame { frameId := 0, decodedImage := some {} },
    .enqueueFrame { frameId := 1, decodedImage := some {} },
    .publish {}, .publish {}, .publish {}, .selectFrameForInference, .markInferenceRunning,
    .publish {}, .publish {}]

theorem publish_spares_inference_lateSelectionRun :
    ∃ s, gateSystem.Reachable s ∧ s.base.pc = .popping { frameId := 0 } ∧
      s.task = some (1, .running) ∧ ∀ (k : Int) (f : FrameBundle), s.base.buffer.frames[k]? = some f →
        isInferring f.inferState = true → 0 < f.frameId := by
  obtain ⟨s, hs, hp⟩ := Machine.reachable_of_exec_any gateSystem lateSelectionRun
    (fun s => s.base.pc == .popping { frameId := 0 } && s.task == some (1, .running) &&
      s.base.buffer.packets == [{ frameId := 0 }, { frameId := 1 }]) (by decide)
  simp only [Bool.and_eq_true, beq_iff_eq] at hp
  obtain ⟨⟨hpc, htask⟩, hpackets⟩ := hp
  exact ⟨s, hs, hpc, htask, (publish_spares_inference hs).1 _ _ _ hpc hpackets rfl⟩

end MediaAgent
