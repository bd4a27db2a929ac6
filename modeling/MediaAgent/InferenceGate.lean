import MediaAgent.PublishLoop

/-!
# The inference gate

The readiness check of `waitForPublishable` is made in one critical section and acted on in
later ones, so a selection can land in between. With at most one outstanding inference task
it cannot pick the packet that was let through: the frames that are still idle are the
newest ones, no frame older than the front packet is left, and the check keeps a second
decoded frame in reserve.
-/

namespace MediaAgent
open Transition TreeMaps

/-- How far the worker that holds the outstanding task has come. -/
inductive TaskPhase
  | selected
  | running
  deriving DecidableEq, Repr

def TaskPhase.state : TaskPhase → InferState
  | selected => .selected
  | running => .running

/-- The publish system with the frame id of the one outstanding inference task. -/
structure GateState where
  base : PublishState := {}
  task : Option (Int × TaskPhase) := none

inductive GateAction
  | enqueuePacket (packet : EncodedPacket)
  | enqueueFrame (frame : FrameBundle)
  | selectFrameForInference
  | markInferenceRunning
  | markInferenceDone (result : FrameInferenceResult)
  | clearInferenceSelection
  | updateCachedInferenceResult (result : FrameInferenceResult)
  | publish (context : TakeContext)
  | stop

/-- A call of an inference worker on the buffer of the state. -/
def GateState.call (s : GateState) (c : WorkerCall) (task : Option (Int × TaskPhase)) : GateState :=
  { base := { s.base with buffer := c.apply s.base.buffer }, task := task }

/-- The puller enqueues each video packet under a new, larger, non-negative frame id and later,
in the order of the ids, at most one fresh frame for it. A worker selects a frame when no task
is outstanding, marks it running, and ends the task with a result or by dropping it. The result
of a failed inference carries the frame id -1. -/
def gateSystem : Machine GateState GateAction where
  init := {}
  next s
    | .enqueuePacket p =>
      if p.mediaType = .video → 0 ≤ p.frameId ∧ ∀ i ∈ s.base.acceptedVideoIds, i < p.frameId then
        some { s with base := s.base.enqueuePacket p }
      else none
    | .enqueueFrame f =>
      if f.inferState = .idle ∧ f.frameId ∈ s.base.acceptedVideoIds ∧
          ∀ i ∈ s.base.acceptedFrames, i < f.frameId then
        some { s with base := s.base.enqueueFrame f }
      else none
    | .selectFrameForInference =>
      match s.task with
      | none => some (s.call .selectFrameForInference
          (s.base.buffer.selectFrameForInference.1.map fun f => (f.frameId, .selected)))
      | some _ => none
    | .markInferenceRunning =>
      match s.task with
      | some (id, .selected) => some (s.call (.markInferenceRunning id) (some (id, .running)))
      | _ => none
    | .markInferenceDone r =>
      match s.task with
      | some (id, .running) =>
        if r.frameId = id ∨ r.frameId < 0 then some (s.call (.markInferenceDone r) none) else none
      | _ => none
    | .clearInferenceSelection =>
      match s.task with
      | some (id, .running) => some (s.call (.clearInferenceSelection id .dropped) none)
      | _ => none
    | .updateCachedInferenceResult r => some (s.call (.updateCachedInferenceResult r) s.task)
    | .publish c => some { s with base := s.base.publish c }
    | .stop => some { s with base := { s.base with buffer := s.base.buffer.stop } }

/-! ## What a step does -/

section steps

variable {s t : GateState}

lemma gateSystem_enqueuePacket {p : EncodedPacket} (hn : gateSystem.next s (.enqueuePacket p) = some t) :
    (p.mediaType = .video → 0 ≤ p.frameId ∧ ∀ i ∈ s.base.acceptedVideoIds, i < p.frameId) ∧
      t = { s with base := s.base.enqueuePacket p } := by
  obtain ⟨hp, he⟩ := Option.ite_none_right_eq_some.mp hn
  exact ⟨hp, (Option.some.inj he).symm⟩

lemma gateSystem_enqueueFrame {f : FrameBundle} (hn : gateSystem.next s (.enqueueFrame f) = some t) :
    f.inferState = .idle ∧ f.frameId ∈ s.base.acceptedVideoIds ∧
      (∀ i ∈ s.base.acceptedFrames, i < f.frameId) ∧ t = { s with base := s.base.enqueueFrame f } := by
  obtain ⟨⟨hidle, hid, hnew⟩, he⟩ := Option.ite_none_right_eq_some.mp hn
  exact ⟨hidle, hid, hnew, (Option.some.inj he).symm⟩

lemma gateSystem_selectFrameForInference (hn : gateSystem.next s .selectFrameForInference = some t) :
    s.task = none ∧ t = s.call .selectFrameForInference
      (s.base.buffer.selectFrameForInference.1.map fun f => (f.frameId, .selected)) := by
  dsimp only [gateSystem] at hn
  split at hn
  · exact ⟨‹_›, (Option.some.inj hn).symm⟩
  · cases hn

lemma gateSystem_markInferenceRunning (hn : gateSystem.next s .markInferenceRunning = some t) :
    ∃ id, s.task = some (id, .selected) ∧
      t = s.call (.markInferenceRunning id) (some (id, .running)) := by
  dsimp only [gateSystem] at hn
  split at hn
  · exact ⟨_, ‹_›, (Option.some.inj hn).symm⟩
  · cases hn

lemma gateSystem_markInferenceDone {r : FrameInferenceResult}
    (hn : gateSystem.next s (.markInferenceDone r) = some t) :
    ∃ id, s.task = some (id, .running) ∧ (r.frameId = id ∨ r.frameId < 0) ∧
      t = s.call (.markInferenceDone r) none := by
  dsimp only [gateSystem] at hn
  split at hn
  · obtain ⟨hid, he⟩ := Option.ite_none_right_eq_some.mp hn
    exact ⟨_, ‹_›, hid, (Option.some.inj he).symm⟩
  · cases hn

lemma gateSystem_clearInferenceSelection (hn : gateSystem.next s .clearInferenceSelection = some t) :
    ∃ id, s.task = some (id, .running) ∧ t = s.call (.clearInferenceSelection id .dropped) none := by
  dsimp only [gateSystem] at hn
  split at hn
  · exact ⟨_, ‹_›, (Option.some.inj hn).symm⟩
  · cases hn

end steps

/-! ## The frames of the buffer -/

/-- The frames are stored under their own ids, in increasing order; the idle ones are the
newest; at most one is being inferred, and it has a picture. -/
structure FramesOk (b : StreamBuffer) : Prop where
  keyed : ∀ (k : Int) (f : FrameBundle), b.frames[k]? = some f → f.frameId = k
  ordered : b.frameOrder.Pairwise (· < ·)
  listed : ∀ k, k ∈ b.frameOrder ↔ ∃ f, b.frames[k]? = some f
  idleSuffix : ∀ (j k : Int) (f g : FrameBundle), j < k → b.frames[j]? = some f → b.frames[k]? = some g →
    f.inferState = .idle → g.inferState = .idle
  decoded : ∀ (k : Int) (f : FrameBundle), b.frames[k]? = some f → isInferring f.inferState = true →
    f.decodedImage.isSome = true
  unique : ∀ (j k : Int) (f g : FrameBundle), b.frames[j]? = some f → b.frames[k]? = some g →
    isInferring f.inferState = true → isInferring g.inferState = true → j = k

/-- `b'` is `b` with the frames' inference states changed by `τ`. -/
structure Restated (b b' : StreamBuffer) (τ : Int → InferState → InferState) : Prop where
  frameOrder : b'.frameOrder = b.frameOrder
  lookup : ∀ k : Int, b'.frames[k]? =
    (b.frames[k]?).map (fun f : FrameBundle => { f with inferState := τ k f.inferState })

lemma Restated.frame {b b' : StreamBuffer} {τ : Int → InferState → InferState}
    (h : Restated b b' τ) {k : Int} {f : FrameBundle} (hf : b'.frames[k]? = some f) :
    ∃ g, b.frames[k]? = some g ∧ f = { g with inferState := τ k g.inferState } := by
  rw [h.lookup, Option.map_eq_some_iff] at hf
  obtain ⟨g, hg, rfl⟩ := hf
  exact ⟨g, hg, rfl⟩

/-- A change of states keeps the frames in order if it idles no frame, moves the idle frames
as a suffix and infers at most one frame, which has a picture. -/
lemma FramesOk.restate {b b' : StreamBuffer} {τ : Int → InferState → InferState}
    (h : FramesOk b) (hr : Restated b b' τ)
    (hidle : ∀ (j k : Int) (f g : FrameBundle), j < k → b.frames[j]? = some f → b.frames[k]? = some g →
      τ j f.inferState = .idle → τ k g.inferState = .idle)
    (hdec : ∀ (k : Int) (f : FrameBundle), b.frames[k]? = some f → isInferring (τ k f.inferState) = true →
      f.decodedImage.isSome = true)
    (huniq : ∀ (j k : Int) (f g : FrameBundle), b.frames[j]? = some f → b.frames[k]? = some g →
      isInferring (τ j f.inferState) = true → isInferring (τ k g.inferState) = true → j = k) :
    FramesOk b' := by
  refine ⟨fun k f hf => ?_, hr.frameOrder ▸ h.ordered, fun k => ?_, ?_, fun k f hf => ?_, ?_⟩
  · obtain ⟨g, hg, rfl⟩ := hr.frame hf
    exact h.keyed k g hg
  · rw [hr.frameOrder, h.listed, hr.lookup]
    simp
  · intro j k f g hjk hf hg
    obtain ⟨f', hf', rfl⟩ := hr.frame hf
    obtain ⟨g', hg', rfl⟩ := hr.frame hg
    exact hidle j k f' g' hjk hf' hg'
  · obtain ⟨g, hg, rfl⟩ := hr.frame hf
    exact hdec k g hg
  · intro j k f g hf hg
    obtain ⟨f', hf', rfl⟩ := hr.frame hf
    obtain ⟨g', hg', rfl⟩ := hr.frame hg
    exact huniq j k f' g' hf' hg'

/-- One frame's state is set. -/
def setAt (id : Int) (st : InferState) (k : Int) (s : InferState) : InferState :=
  if id = k then st else s

lemma Restated.setInferState (b : StreamBuffer) (id : Int) (st : InferState) :
    Restated b { b with frames := MediaAgent.setInferState b.frames id st } (setAt id st) := by
  refine ⟨rfl, fun k => ?_⟩
  dsimp only
  rw [lookup_setInferState]
  by_cases hk : id = k
  · simp [setAt, hk]
  · simp [setAt, hk]

/-- The states after a selection: one frame is selected, the others are finished. -/
def selectAt (id : Int) (k : Int) (s : InferState) : InferState :=
  if k = id then .selected else if isInferenceTerminal s then s else .done

lemma Restated.select {b : StreamBuffer} (h : FramesOk b) (id : Int) :
    Restated b { b with frames :=
        StreamBuffer.markOthersDone id (MediaAgent.setInferState b.frames id .selected) b.frameOrder }
      (selectAt id) := by
  refine ⟨rfl, fun k => ?_⟩
  dsimp only
  rw [lookup_markOthersDone, lookup_setInferState]
  cases hf : b.frames[k]? with
  | none => simp
  | some f =>
    have hmem : k ∈ b.frameOrder := (h.listed k).mpr ⟨f, hf⟩
    by_cases hk : id = k
    · subst k
      simp [giveUp, selectAt]
    · by_cases ht : isInferenceTerminal f.inferState = true
      · simp [giveUp, selectAt, hk, Ne.symm hk, ht]
      · simp [giveUp, selectAt, hk, Ne.symm hk, hmem, ht]

lemma Restated.decodedAt {b b' : StreamBuffer} {τ : Int → InferState → InferState}
    (h : Restated b b' τ) (k : Int) : b'.decodedAt k = b.decodedAt k := by
  simp only [StreamBuffer.decodedAt, h.lookup, Option.map_map]
  rfl

lemma isInferring_setAt_done {id k : Int} {st s : InferState} (hst : isInferring st = false)
    (h : isInferring (setAt id st k s) = true) : id ≠ k ∧ isInferring s = true := by
  unfold setAt at h
  split at h
  · rw [hst] at h
    cases h
  · exact ⟨‹_›, h⟩

/-- Finishing a frame that is not idle keeps the frames in order. -/
lemma FramesOk.finish {b b' : StreamBuffer} {id : Int} {st : InferState} (h : FramesOk b)
    (hr : Restated b b' (setAt id st)) (hst : isInferring st = false) (hidle : st ≠ .idle)
    (hid : ∀ f, b.frames[id]? = some f → f.inferState ≠ .idle) : FramesOk b' := by
  refine h.restate hr ?_ (fun k f hf hi => ?_) (fun j k f g hf hg hi hi' => ?_)
  · intro j k f g hjk hf hg hj
    unfold setAt at hj ⊢
    split at hj
    · exact absurd hj hidle
    · split
      · subst id
        exact absurd (h.idleSuffix j k f g hjk hf hg hj) (hid g hg)
      · exact h.idleSuffix j k f g hjk hf hg hj
  · exact h.decoded k f hf (isInferring_setAt_done hst hi).2
  · exact h.unique j k f g hf hg (isInferring_setAt_done hst hi).2 (isInferring_setAt_done hst hi').2

/-- Setting the frame that is being inferred to another inferring state keeps the frames in order. -/
lemma FramesOk.mark {b b' : StreamBuffer} {id : Int} {st : InferState} (h : FramesOk b)
    (hr : Restated b b' (setAt id st)) (hst : st ≠ .idle)
    (hid : ∃ f, b.frames[id]? = some f ∧ isInferring f.inferState = true) : FramesOk b' := by
  obtain ⟨f₀, hf₀, hi₀⟩ := hid
  have hinf : ∀ k f, b.frames[k]? = some f → isInferring (setAt id st k f.inferState) = true →
      isInferring f.inferState = true := by
    intro k f hf hi
    unfold setAt at hi
    split at hi
    · subst k
      rw [hf₀] at hf
      cases hf
      exact hi₀
    · exact hi
  refine h.restate hr ?_ (fun k f hf hi => h.decoded k f hf (hinf k f hf hi))
    (fun j k f g hf hg hi hi' => h.unique j k f g hf hg (hinf j f hf hi) (hinf k g hg hi'))
  intro j k f g hjk hf hg hj
  unfold setAt at hj ⊢
  split at hj
  · exact absurd hj hst
  · have hgi := h.idleSuffix j k f g hjk hf hg hj
    split
    · subst id
      rw [hf₀] at hg
      cases hg
      rw [hgi] at hi₀
      cases hi₀
    · exact hgi

lemma selectAt_ne_idle {id k : Int} {s : InferState} : selectAt id k s ≠ .idle := by
  unfold selectAt
  cases s <;> simp [isInferenceTerminal] <;> split <;> simp

lemma isInferring_selectAt {id k : Int} {s : InferState}
    (h : isInferring (selectAt id k s) = true) : k = id := by
  by_contra hk
  cases s <;> simp [selectAt, hk, isInferenceTerminal, isInferring] at h

/-- After a selection no frame is idle and only the selected one is being inferred. -/
lemma FramesOk.select {b b' : StreamBuffer} {id : Int} {f : FrameBundle} (h : FramesOk b)
    (hn : b.NewestIdle id f) (hr : Restated b b' (selectAt id)) : FramesOk b' := by
  refine h.restate hr (fun j k f g hjk hf hg hj => absurd hj selectAt_ne_idle)
    (fun k g hg hi => ?_) (fun j k f g hf hg hi hi' => ?_)
  · have hk := isInferring_selectAt hi
    subst k
    have hl := hn.lookup
    rw [hg] at hl
    cases hl
    exact hn.candidate.1
  · rw [isInferring_selectAt hi, isInferring_selectAt hi']

/-! ## The packet that was let through -/

/-- What is known of a video packet from the readiness check to the release of its frame. -/
structure GateCleared (b : StreamBuffer) (p : EncodedPacket) : Prop where
  reserve : Reserved b p.frameId
  oldest : ∀ (k : Int) (f : FrameBundle), b.frames[k]? = some f → p.frameId ≤ k
  below : ∀ (k : Int) (f : FrameBundle), b.frames[k]? = some f → isInferring f.inferState = true →
    p.frameId < k

lemma GateCleared.restate {b b' : StreamBuffer} {τ : Int → InferState → InferState}
    {p : EncodedPacket} (h : GateCleared b p) (hr : Restated b b' τ)
    (hτ : ∀ (k : Int) (f : FrameBundle), b.frames[k]? = some f →
      isInferring (τ k f.inferState) = true → p.frameId < k) : GateCleared b' p := by
  refine ⟨?_, fun k f hf => ?_, fun k f hf hi => ?_⟩
  · obtain ⟨d, hd, hother⟩ := h.reserve
    exact ⟨d, (hr.decodedAt _).trans hd, fun ht => by simpa only [hr.decodedAt] using hother ht⟩
  · obtain ⟨g, hg, -⟩ := hr.frame hf
    exact h.oldest k g hg
  · obtain ⟨g, hg, rfl⟩ := hr.frame hf
    exact hτ k g hg hi

/-- A selection never picks the packet that was let through: if its frame were the newest idle
decoded one, the decoded frame in reserve would be newer, hence idle too. -/
lemma GateCleared.lt_newestIdle {b : StreamBuffer} {p : EncodedPacket} {id : Int} {f : FrameBundle}
    (h : GateCleared b p) (hok : FramesOk b) (hn : b.NewestIdle id f) : p.frameId < id := by
  by_contra hge
  have hle := h.oldest id f hn.lookup
  obtain rfl : id = p.frameId := by omega
  obtain ⟨d, hd, hother⟩ := h.reserve
  obtain ⟨f', hf', himg⟩ := StreamBuffer.decodedAt_eq_some.mp hd
  have hff : f' = f := Option.some.inj (hf'.symm.trans hn.lookup)
  subst f'
  obtain ⟨k, hk, hdk⟩ := hother (himg.symm.trans hn.candidate.1)
  obtain ⟨g, hg, hgd⟩ := StreamBuffer.decodedAt_eq_some.mp hdk
  have hkle := h.oldest k g hg
  have hlt : p.frameId < k := by omega
  have hgi := hok.idleSuffix _ k f g hlt hn.lookup hg hn.candidate.2
  obtain ⟨older, newer, horder, hnewer⟩ := hn.newest
  have hmem : k ∈ b.frameOrder := (hok.listed k).mpr ⟨g, hg⟩
  have hsorted := hok.ordered
  rw [horder] at hmem hsorted
  have hsplit := List.pairwise_append.mp hsorted
  rcases List.mem_append.mp hmem with hold | hrest
  · have hkp := hsplit.2.2 k hold p.frameId (List.mem_cons_self ..)
    omega
  · rcases List.mem_cons.mp hrest with he | hnew
    · exact hk he
    · exact hnewer k hnew g hg ⟨hgd, hgi⟩

end MediaAgent
