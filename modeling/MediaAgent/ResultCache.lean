import MediaAgent.GateInvariant

/-!
# Handing a result to its own frame

`Pipeline::inferLoop` ends a successful inference with two separately locked calls,
`markInferenceDone` and then `updateCachedInferenceResult`. The first one opens the publish
gate for the frame, so `publishLoop` can ask for the frame's result before the second one has
stored it. Apart from that window a result always reaches the cache before the publish loop asks.
-/

namespace MediaAgent
open Transition TreeMaps

/-- The gate system with one inference worker: the result it has announced by
`markInferenceDone` and not stored yet, and the frame ids that `publishLoop` has asked for. -/
structure CacheState where
  gate : GateState := {}
  pending : Option FrameInferenceResult := none
  askedFor : List Int := []

/-- `publishLoop` calls `takeCachedInferenceResult` for a packet in the `taking` phase. -/
def CacheState.publish (s : CacheState) (g : GateState) : CacheState :=
  { s with
    gate := g
    askedFor := match s.gate.base.pc with
      | .taking p _ => s.askedFor ++ [p.frameId]
      | _ => s.askedFor }

/-- A result is announced only when none is pending, and the pending one is the next to be
stored. All other calls are those of the gate system. -/
def cacheSystem : Machine CacheState GateAction where
  init := {}
  next s a :=
    match a with
    | .selectFrameForInference =>
      if s.pending = none then (gateSystem.next s.gate a).map fun g => { s with gate := g } else none
    | .markInferenceDone r =>
      (gateSystem.next s.gate a).map fun g => { s with gate := g, pending := some r }
    | .updateCachedInferenceResult r =>
      if s.pending = some r then
        (gateSystem.next s.gate a).map fun g => { s with gate := g, pending := none }
      else none
    | .publish _ => (gateSystem.next s.gate a).map s.publish
    | _ => (gateSystem.next s.gate a).map fun g => { s with gate := g }

/-- The frame of the running task has not been asked for; a successful result that is still to
be stored has not been asked for, and its frame is still in the buffer. -/
def ResultInTime (s : CacheState) : Prop :=
  (∀ id ph, s.gate.task = some (id, ph) → id ∉ s.askedFor) ∧
  (∀ r, s.pending = some r → 0 ≤ r.frameId →
    r.frameId ∉ s.askedFor ∧ ∃ f, s.gate.base.buffer.frames[r.frameId]? = some f)

/-- The readiness check does not let the packet of a frame through while the frame's result has
been announced and not stored. -/
def gateShutWhilePending (s : CacheState) (a : GateAction) : Bool :=
  match a, s.gate.base.pc, s.pending, s.gate.base.buffer.packets with
  | .publish _, .waiting, some r, p :: _ =>
    !(p.mediaType == .video && p.frameId == r.frameId &&
      s.gate.base.buffer.waitForPublishable kMinVideoWatermark)
  | _, _, _, _ => true

abbrev GateShutWhilePending (s : CacheState) (a : GateAction) : Prop :=
  gateShutWhilePending s a = true

lemma gateShutWhilePending_publish {s : CacheState} {c : TakeContext} {r : FrameInferenceResult}
    {p : EncodedPacket} {rest : List EncodedPacket} (hpc : s.gate.base.pc = .waiting)
    (hr : s.pending = some r) (hp : s.gate.base.buffer.packets = p :: rest) :
    gateShutWhilePending s (.publish c) = false ↔ p.mediaType = .video ∧ p.frameId = r.frameId ∧
      s.gate.base.buffer.waitForPublishable kMinVideoWatermark = true := by
  simp [gateShutWhilePending, hpc, hr, hp, and_assoc]

def cacheProjection : Machine.Projection cacheSystem gateSystem where
  state := CacheState.gate
  init := rfl
  step s a t _ hn := by
    have hmap : ∀ (f : GateState → CacheState), (∀ g, (f g).gate = g) →
        (gateSystem.next s.gate a).map f = some t → gateSystem.next s.gate a = some t.gate := by
      intro f hf h
      obtain ⟨g, hg, rfl⟩ := Option.map_eq_some_iff.mp h
      rw [hf, hg]
    refine .inr ⟨a, ?_⟩
    simp only [cacheSystem] at hn
    split at hn
    · split at hn
      · exact hmap _ (fun _ => rfl) hn
      · cases hn
    · exact hmap _ (fun _ => rfl) hn
    · split at hn
      · exact hmap _ (fun _ => rfl) hn
      · cases hn
    · exact hmap _ (fun _ => rfl) hn
    · exact hmap _ (fun _ => rfl) hn

/-- The id of the packet whose result `publishLoop` has asked for and whose frame it is still
to release. -/
def PublishPc.askedId : PublishPc → Option Int
  | .writing p _ | .popping p | .releasing p => if p.mediaType = .video then some p.frameId else none
  | _ => none

structure CacheInv (s : CacheState) : Prop where
  inTime : ResultInTime s
  idle : s.pending.isSome = true → s.gate.task = none
  asked : ∀ i ∈ s.askedFor, i ∈ s.gate.base.acceptedFrames ∧
    ∀ d, s.gate.base.buffer.decodedAt i = some d → s.gate.base.pc.askedId = some i
  apart : PcHolds s.gate.base.buffer.packets (fun p => ∀ r, s.pending = some r → r.frameId ≠ p.frameId)
    (fun p => ∀ r, s.pending = some r → r.frameId ≠ p.frameId) s.gate.base.pc

/-- A worker's call moves no frame, so only the task and the pending result matter. -/
lemma CacheInv.call {s : CacheState} (h : CacheInv s) (c : WorkerCall)
    (task : Option (Int × TaskPhase)) (pending : Option FrameInferenceResult)
    (hidle : pending.isSome = true → task = none)
    (htask : ∀ id ph, task = some (id, ph) → id ∉ s.askedFor)
    (hpending : ∀ r, pending = some r → 0 ≤ r.frameId →
      r.frameId ∉ s.askedFor ∧ ∃ f, s.gate.base.buffer.frames[r.frameId]? = some f)
    (hapart : PcHolds s.gate.base.buffer.packets (fun p => ∀ r, pending = some r → r.frameId ≠ p.frameId)
      (fun p => ∀ r, pending = some r → r.frameId ≠ p.frameId) s.gate.base.pc) :
    CacheInv { s with gate := s.gate.call c task, pending := pending } := by
  refine ⟨⟨htask, fun r hr h0 => ?_⟩, hidle, fun i hi => ?_, ?_⟩
  · obtain ⟨hasked, hf⟩ := hpending r hr h0
    refine ⟨hasked, ?_⟩
    rw [StreamBuffer.present_iff_decodedAt] at hf ⊢
    simpa [GateState.call] using hf
  · obtain ⟨haccepted, hd⟩ := h.asked i hi
    exact ⟨haccepted, fun d hk => hd d (by simpa [GateState.call] using hk)⟩
  · exact hapart.mono (by simp [GateState.call]) (fun _ h => h) (fun _ h => h)

/-- Forgetting the pending result, or never having had one, keeps the loop apart from it. -/
lemma pcHolds_none {packets : List EncodedPacket} {front released : EncodedPacket → Prop}
    {pc : PublishPc} (h : PcHolds packets front released pc) :
    PcHolds packets (fun p => ∀ r : FrameInferenceResult, none = some r → r.frameId ≠ p.frameId)
      (fun p => ∀ r : FrameInferenceResult, none = some r → r.frameId ≠ p.frameId) pc :=
  h.mono List.prefix_rfl (fun _ _ r hr => by cases hr) (fun _ _ r hr => by cases hr)

/-- A frame that may be selected has not been asked for. -/
lemma CacheInv.select_not_asked {s : CacheState} (h : CacheInv s) (hg : GateInv s.gate) {id : Int}
    {f : FrameBundle} (hn : s.gate.base.buffer.NewestIdle id f) : id ∉ s.askedFor := by
  intro hasked
  have hd := (h.asked id hasked).2 _ (StreamBuffer.decodedAt_eq_some.mpr ⟨f, hn.lookup, rfl⟩)
  have hpc := hg.pc
  have hlt : ∀ p : EncodedPacket, GateCleared s.gate.base.buffer p → p.frameId ≠ id := by
    intro p hp he
    have := hp.lt_newestIdle hg.frames hn
    omega
  cases he : s.gate.base.pc with
  | waiting => simp [he, PublishPc.askedId] at hd
  | peeking => simp [he, PublishPc.askedId] at hd
  | finding p => simp [he, PublishPc.askedId] at hd
  | taking p codecType => simp [he, PublishPc.askedId] at hd
  | writing p codecType =>
    simp only [he, PublishPc.askedId, Option.ite_none_right_eq_some, Option.some.injEq] at hd
    rw [he] at hpc
    obtain ⟨rest, -, hc⟩ := hpc
    exact hlt p (hc hd.1) hd.2
  | popping p =>
    simp only [he, PublishPc.askedId, Option.ite_none_right_eq_some, Option.some.injEq] at hd
    rw [he] at hpc
    obtain ⟨rest, -, hc⟩ := hpc
    exact hlt p (hc hd.1) hd.2
  | releasing p =>
    simp only [he, PublishPc.askedId, Option.ite_none_right_eq_some, Option.some.injEq] at hd
    rw [he] at hpc
    exact hlt p hpc.2.2 hd.2

lemma CacheInv.select {s : CacheState} (h : CacheInv s) (hg : GateInv s.gate)
    (hp : s.pending = none) :
    CacheInv { s with
      gate := s.gate.call .selectFrameForInference
        (s.gate.base.buffer.selectFrameForInference.1.map fun f => (f.frameId, .selected)) } := by
  refine h.call _ _ s.pending (fun hs => ?_) (fun id ph ht => ?_) h.inTime.2 h.apart
  · rw [hp] at hs
    cases hs
  · rcases s.gate.base.buffer.selectFrameForInference_cases with ⟨hs, -⟩ | ⟨id', f, hn, hsel, -⟩
    · simp [hs] at ht
    · simp only [hsel, Option.map_some, Option.some.injEq, Prod.mk.injEq] at ht
      rw [← ht.1, hg.frames.keyed id' f hn.lookup]
      exact h.select_not_asked hg hn

/-- The announced result is for the task's frame, which is above the packet let through. -/
lemma CacheInv.markDone {s : CacheState} (h : CacheInv s) (hg : GateInv s.gate) {id : Int}
    {r : FrameInferenceResult} (ht : s.gate.task = some (id, .running))
    (hid : r.frameId = id ∨ r.frameId < 0) :
    CacheInv { s with gate := s.gate.call (.markInferenceDone r) none, pending := some r } := by
  obtain ⟨f, hf, -⟩ := hg.task id _ ht
  have hid0 := hg.key_nonneg hf
  have happart : ∀ p, (0 ≤ p.frameId ∧ GateCleared s.gate.base.buffer p) →
      ∀ r', some r = some r' → r'.frameId ≠ p.frameId := by
    rintro p ⟨h0, hp⟩ r' he
    cases he
    have := hg.below_task ht hp
    omega
  refine h.call _ none (some r) (fun _ => rfl) (fun id ph he => by cases he) (fun r' he h0 => ?_) ?_
  · cases he
    have he : r.frameId = id := by omega
    rw [he]
    exact ⟨h.inTime.1 id _ ht, f, hf⟩
  · refine hg.pc.mono List.prefix_rfl (fun p hp => happart p ⟨?_, hp⟩) (fun p hp => happart p ⟨?_, hp⟩)
    all_goals
      obtain ⟨d, hd, -⟩ := hp.reserve
      obtain ⟨g, hgf, -⟩ := StreamBuffer.decodedAt_eq_some.mp hd
      exact hg.key_nonneg hgf

/-! ## The publish loop -/

/-- The readiness check lets no packet of a pending result through, and the other calls of
`publishLoop` keep it so. -/
lemma CacheInv.publish_apart {s : CacheState} (h : CacheInv s) {c : TakeContext}
    (hgate : GateShutWhilePending s (.publish c)) :
    PcHolds (s.gate.base.publish c).buffer.packets
      (fun p => ∀ r, s.pending = some r → r.frameId ≠ p.frameId)
      (fun p => ∀ r, s.pending = some r → r.frameId ≠ p.frameId) (s.gate.base.publish c).pc := by
  refine PcHolds.publish (fun _ p => ∀ r, s.pending = some r → r.frameId ≠ p.frameId)
    (fun _ p => ∀ r, s.pending = some r → r.frameId ≠ p.frameId) h.apart
    (fun hw p rest hpc hp hv r hr he => ?_) (fun p hp => hp) (fun p rest _ hp _ => hp)
  have hopen := (gateShutWhilePending_publish (c := c) hpc hr hp).mpr ⟨hv, he.symm, hw⟩
  rw [hgate] at hopen
  cases hopen

/-- The frame of the packet that is asked for is neither the task's nor that of a pending
result. -/
lemma CacheInv.publish_inTime {s : CacheState} (h : CacheInv s) (hg : GateInv s.gate)
    (c : TakeContext) :
    ResultInTime (s.publish { s.gate with base := s.gate.base.publish c }) := by
  have hpc := hg.pc
  have hapart := h.apart
  have hnew : ∀ i, i ∉ s.askedFor →
      (∀ p codecType, s.gate.base.pc = .taking p codecType → i ≠ p.frameId) →
      i ∉ (s.publish { s.gate with base := s.gate.base.publish c }).askedFor := by
    intro i hi hp
    simp only [CacheState.publish]
    split
    · rename_i p codecType he
      simp only [List.mem_append, List.mem_singleton, not_or]
      exact ⟨hi, hp p codecType he⟩
    · exact hi
  refine ⟨fun id ph ht => hnew id (h.inTime.1 id ph ht) fun p codecType he => ?_, fun r hr h0 => ?_⟩
  · rw [he] at hpc
    obtain ⟨hv, -, -, hc⟩ := hpc
    have := hg.below_task ht (hc hv)
    omega
  · obtain ⟨hasked, hf⟩ := h.inTime.2 r hr h0
    refine ⟨hnew _ hasked fun p codecType he => ?_, ?_⟩
    · rw [he] at hapart
      obtain ⟨hv, -, -, hc⟩ := hapart
      exact hc hv r hr
    · rw [StreamBuffer.present_iff_decodedAt] at hf ⊢
      simp only [CacheState.publish]
      rw [publish_decodedAt_eq fun p he => ?_]
      · exact hf
      · rw [he] at hapart
        exact Ne.symm (hapart.2.2 r hr)

/-- Once asked for, a frame is gone or about to be released. -/
lemma CacheInv.publish_asked {s : CacheState} (h : CacheInv s) (hg : GateInv s.gate)
    (hreserve : ReserveInv s.gate.base) (c : TakeContext) :
    ∀ i ∈ (s.publish { s.gate with base := s.gate.base.publish c }).askedFor,
      i ∈ (s.gate.base.publish c).acceptedFrames ∧
      ∀ d, (s.gate.base.publish c).buffer.decodedAt i = some d →
        (s.gate.base.publish c).pc.askedId = some i := by
  have hpc := hg.pc
  have hold : ∀ i ∈ s.askedFor, ∀ d, (s.gate.base.publish c).buffer.decodedAt i = some d →
      s.gate.base.pc.askedId = some i := fun i hi d hd => (h.asked i hi).2 d (publish_decodedAt hd)
  rw [(publish_accepted _ _).2]
  simp only [CacheState.publish]
  cases he : s.gate.base.pc with
  | taking p codecType =>
    rw [he] at hpc
    obtain ⟨hv, rest, -, hc⟩ := hpc
    intro i hi
    simp only [he, PublishState.publish, PublishPc.askedId] at hold ⊢
    rcases List.mem_append.mp hi with hi | hi
    · exact ⟨(h.asked i hi).1, fun d hd => absurd (hold i hi d hd) (by simp)⟩
    · rw [List.mem_singleton.mp hi]
      obtain ⟨d, hd, -⟩ := (hc hv).reserve
      exact ⟨hreserve.known _ d hd, fun _ _ => by simp [hv]⟩
  | popping p =>
    rw [he] at hpc
    obtain ⟨rest, -, hc⟩ := hpc
    intro i hi
    refine ⟨(h.asked i hi).1, fun d hd => ?_⟩
    have hid := hold i hi d hd
    simp only [he, PublishPc.askedId, Option.ite_none_right_eq_some, Option.some.injEq] at hid
    obtain ⟨d', hd', -⟩ := (hc hid.1).reserve
    obtain ⟨f, hf, -⟩ := StreamBuffer.decodedAt_eq_some.mp hd'
    obtain ⟨hv, rfl⟩ := hid
    simp [PublishState.publish, he, PublishPc.askedId, hv, hg.key_nonneg hf]
  | releasing p =>
    intro i hi
    refine ⟨(h.asked i hi).1, fun d hd => ?_⟩
    have hid := hold i hi d hd
    simp only [he, PublishPc.askedId, Option.ite_none_right_eq_some, Option.some.injEq] at hid
    simp [PublishState.publish, he, StreamBuffer.decodedAt_releaseFrame, hid.2] at hd
  | writing p codecType =>
    intro i hi
    refine ⟨(h.asked i hi).1, fun d hd => ?_⟩
    have hid := hold i hi d hd
    simpa [PublishState.publish, he, PublishPc.askedId] using hid
  | _ =>
    intro i hi
    refine ⟨(h.asked i hi).1, fun d hd => ?_⟩
    have hid := hold i hi d hd
    simp [he, PublishPc.askedId] at hid

lemma CacheInv.publish {s : CacheState} (h : CacheInv s) (hg : GateInv s.gate)
    (hreserve : ReserveInv s.gate.base) {c : TakeContext}
    (hgate : GateShutWhilePending s (.publish c)) :
    CacheInv (s.publish { s.gate with base := s.gate.base.publish c }) :=
  ⟨h.publish_inTime hg c, h.idle, h.publish_asked hg hreserve c, h.publish_apart hgate⟩

/-! ## The puller -/

lemma CacheInv.enqueuePacket {s : CacheState} (h : CacheInv s) (p : EncodedPacket) :
    CacheInv { s with gate := { s.gate with base := s.gate.base.enqueuePacket p } } := by
  refine ⟨⟨h.inTime.1, fun r hr h0 => ?_⟩, h.idle, fun i hi => ⟨(h.asked i hi).1, fun d hd => ?_⟩,
    h.apart.mono (Grows.of_enqueuePacket _ p).packets (fun _ hp => hp) (fun _ hp => hp)⟩
  · obtain ⟨hasked, hf⟩ := h.inTime.2 r hr h0
    refine ⟨hasked, ?_⟩
    rw [StreamBuffer.present_iff_decodedAt] at hf ⊢
    obtain ⟨d, hd⟩ := hf
    exact ⟨d, (decodedAt_enqueuePacket _ p _).trans hd⟩
  · exact (h.asked i hi).2 d ((decodedAt_enqueuePacket _ p i).symm.trans hd)

/-- A new frame has not been asked for: its id is larger than that of every accepted frame. -/
lemma CacheInv.enqueueFrame {s : CacheState} (h : CacheInv s) (hreserve : ReserveInv s.gate.base)
    {f : FrameBundle} (hnew : ∀ i ∈ s.gate.base.acceptedFrames, i < f.frameId) :
    CacheInv { s with gate := { s.gate with base := s.gate.base.enqueueFrame f } } := by
  have hgrows := Grows.of_enqueueFrame (hreserve.unknown hnew)
  refine ⟨⟨h.inTime.1, fun r hr h0 => ?_⟩, h.idle, fun i hi => ?_,
    h.apart.mono hgrows.packets (fun _ hp => hp) (fun _ hp => hp)⟩
  · obtain ⟨hasked, hf⟩ := h.inTime.2 r hr h0
    refine ⟨hasked, ?_⟩
    rw [StreamBuffer.present_iff_decodedAt] at hf ⊢
    obtain ⟨d, hd⟩ := hf
    exact ⟨d, hgrows.decoded _ d hd⟩
  · obtain ⟨haccepted, hd⟩ := h.asked i hi
    have hne : f.frameId ≠ i := by
      have := hnew i haccepted
      omega
    refine ⟨?_, fun d hk => hd d ?_⟩
    · simp only [PublishState.enqueueFrame]
      split
      · exact List.mem_append_left _ haccepted
      · exact haccepted
    · simpa [PublishState.enqueueFrame, decodedAt_enqueueFrame, hne] using hk

/-! ## Runs -/

lemma CacheInv.init : CacheInv {} := by
  refine ⟨⟨?_, ?_⟩, ?_, ?_, trivial⟩ <;> simp

/-- In a run that keeps the gate shut while a result is pending, results arrive in time. -/
theorem cacheInv_reachable {s : CacheState} (h : cacheSystem.ReachableWhen GateShutWhilePending s) :
    CacheInv s := by
  apply h.invariant_of (J := fun s => GateInv s.gate ∧ ReserveInv s.gate.base)
  · intro t ht
    have hgate := cacheProjection.reachable (Machine.ReachableWhen.reachable ht)
    exact ⟨gateInv_reachable hgate, reserveInv_reachable (gateProjection.reachable hgate)⟩
  · exact CacheInv.init
  · rintro s a t ⟨hg, hreserve⟩ hs hguard hn
    cases a with
    | enqueuePacket p =>
      obtain ⟨g, hg', rfl⟩ := Option.map_eq_some_iff.mp hn
      obtain ⟨-, rfl⟩ := gateSystem_enqueuePacket hg'
      exact hs.enqueuePacket p
    | enqueueFrame f =>
      obtain ⟨g, hg', rfl⟩ := Option.map_eq_some_iff.mp hn
      obtain ⟨-, -, hnew, rfl⟩ := gateSystem_enqueueFrame hg'
      exact hs.enqueueFrame hreserve hnew
    | selectFrameForInference =>
      obtain ⟨hp, hn⟩ := Option.ite_none_right_eq_some.mp hn
      obtain ⟨g, hg', rfl⟩ := Option.map_eq_some_iff.mp hn
      obtain ⟨-, rfl⟩ := gateSystem_selectFrameForInference hg'
      exact hs.select hg hp
    | markInferenceRunning =>
      obtain ⟨g, hg', rfl⟩ := Option.map_eq_some_iff.mp hn
      obtain ⟨id, ht, rfl⟩ := gateSystem_markInferenceRunning hg'
      refine hs.call _ _ s.pending (fun hp => ?_) (fun id' ph he => ?_) hs.inTime.2 hs.apart
      · rw [hs.idle hp] at ht
        cases ht
      · cases he
        exact hs.inTime.1 _ _ ht
    | markInferenceDone r =>
      obtain ⟨g, hg', rfl⟩ := Option.map_eq_some_iff.mp hn
      obtain ⟨id, ht, hid, rfl⟩ := gateSystem_markInferenceDone hg'
      exact hs.markDone hg ht hid
    | clearInferenceSelection =>
      obtain ⟨g, hg', rfl⟩ := Option.map_eq_some_iff.mp hn
      obtain ⟨id, -, rfl⟩ := gateSystem_clearInferenceSelection hg'
      exact hs.call _ none s.pending (fun _ => rfl) (fun id ph he => by cases he) hs.inTime.2 hs.apart
    | updateCachedInferenceResult r =>
      obtain ⟨-, hn⟩ := Option.ite_none_right_eq_some.mp hn
      obtain ⟨g, hg', rfl⟩ := Option.map_eq_some_iff.mp hn
      cases hg'
      exact hs.call _ _ none (fun he => by cases he) hs.inTime.1 (fun r' he => by cases he)
        (pcHolds_none hs.apart)
    | publish c =>
      cases hn
      exact hs.publish hg hreserve hguard
    | stop =>
      cases hn
      exact ⟨hs.inTime, hs.idle, hs.asked, hs.apart⟩

/-- A step outside the guard is the readiness check letting the packet through. -/
lemma of_gate_open {s : CacheState} {a : GateAction} (h : ¬GateShutWhilePending s a) :
    ∃ c r p rest, a = .publish c ∧ s.gate.base.pc = .waiting ∧ s.pending = some r ∧
      s.gate.base.buffer.packets = p :: rest ∧ p.mediaType = .video ∧ p.frameId = r.frameId ∧
      s.gate.base.buffer.waitForPublishable kMinVideoWatermark = true := by
  unfold GateShutWhilePending gateShutWhilePending at h
  split at h
  · rename_i c r p rest hpc hr hp
    simp only [Bool.not_eq_true', Bool.not_eq_false, Bool.and_eq_true, beq_iff_eq] at h
    exact ⟨c, r, p, rest, rfl, hpc, hr, hp, h.1.1, h.1.2, h.2⟩
  · exact absurd rfl h

/-- Once the readiness check has let the packet through, three more calls of `publishLoop` ask
for the result that is still to be stored. -/
lemma lost_of_gate_open {s : CacheState} {a : GateAction} (hs : cacheSystem.Reachable s)
    (h : ¬GateShutWhilePending s a) : ∃ t, cacheSystem.Runs s t ∧ ¬ResultInTime t := by
  obtain ⟨c, r, p, rest, rfl, hpc, hr, hp, hv, he, hw⟩ := of_gate_open h
  have hg := gateInv_reachable (cacheProjection.reachable hs)
  have hq : p.frameId ∈ videoIds s.gate.base.buffer.packets := by
    rw [hp, videoIds_cons, if_pos hv]
    exact List.mem_cons_self ..
  have h0 := hg.queue.nonneg _ (hg.queue.queued _ hq)
  have hrun : (cacheSystem.exec s [.publish c, .publish c, .publish c, .publish c]).any
      (fun t => t.pending == some r && t.askedFor.contains p.frameId) = true := by
    simp [Machine.exec, cacheSystem, gateSystem, CacheState.publish, PublishState.publish, hpc, hw, hp,
      StreamBuffer.peekPacket, hv, hr]
  obtain ⟨t, ht, hlost⟩ := (Option.any_eq_true _ _).mp hrun
  simp only [Bool.and_eq_true, beq_iff_eq, List.contains_iff_mem] at hlost
  refine ⟨t, Machine.runs_of_exec ht, fun hin => ?_⟩
  exact (hin.2 r hlost.1 (he ▸ h0)).1 (he ▸ hlost.2)

/-- `publishLoop` asks for no result too early in every run that keeps the gate shut while a
result is pending, and a step that opens it leads to a result that is lost to its frame. -/
theorem result_in_time_of_gate_shut (s : CacheState) :
    (cacheSystem.ReachableWhen GateShutWhilePending s → ResultInTime s) ∧
    (∀ a, cacheSystem.Reachable s → ¬GateShutWhilePending s a →
      ∃ t, cacheSystem.Runs s t ∧ ¬ResultInTime t) :=
  ⟨fun h => (cacheInv_reachable h).inTime, fun _ hs h => lost_of_gate_open hs h⟩

/-- Frame 0 is inferred while frame 1 arrives. -/
def inferredFrameRun : List GateAction :=
  [.enqueuePacket { frameId := 0 }, .enqueueFrame { frameId := 0, decodedImage := some {} },
    .selectFrameForInference, .markInferenceRunning,
    .enqueuePacket { frameId := 1 }, .enqueueFrame { frameId := 1, decodedImage := some {} },
    .markInferenceDone { frameId := 0 }]

theorem result_in_time_of_gate_shut_storedRun :
    ∃ s, cacheSystem.ReachableWhen GateShutWhilePending s ∧ s.askedFor = [0] ∧ ResultInTime s := by
  obtain ⟨s, hs, hp⟩ := Machine.reachableWhen_of_exec_any cacheSystem gateShutWhilePending
    (inferredFrameRun ++ [.updateCachedInferenceResult { frameId := 0 }, .publish {}, .publish {},
      .publish {}, .publish {}, .selectFrameForInference])
    (fun s => s.askedFor == [0]) (by decide)
  exact ⟨s, hs, by simpa using hp, (result_in_time_of_gate_shut s).1 hs⟩

/-- `publishLoop` runs between `markInferenceDone` and `updateCachedInferenceResult`: the result
of frame 0 is stored after the packet of frame 0 has asked for it and its frame is released. -/
theorem result_stored_after_release :
    ∃ s t, cacheSystem.Reachable s ∧ s.askedFor = [0] ∧ s.pending = some { frameId := 0 } ∧
      ¬ResultInTime s ∧ cacheSystem.Runs s t ∧ t.pending = none ∧
      t.gate.base.buffer.decodedAt 0 = none ∧
      t.gate.base.buffer.cachedInferenceResults[(0 : Int)]? = some { frameId := 0 } := by
  obtain ⟨s, hs, hp⟩ := Machine.reachable_of_exec_any cacheSystem
    (inferredFrameRun ++ [.publish {}, .publish {}, .publish {}, .publish {}])
    (fun s => s.askedFor == [0] && s.pending == some { frameId := 0 } &&
      (cacheSystem.exec s [.publish {}, .publish {}, .publish {},
        .updateCachedInferenceResult { frameId := 0 }]).any fun t => t.pending == none &&
          t.gate.base.buffer.decodedAt 0 == none &&
          t.gate.base.buffer.cachedInferenceResults[(0 : Int)]? == some { frameId := 0 }) (by decide)
  simp only [Bool.and_eq_true, beq_iff_eq, Option.any_eq_true] at hp
  obtain ⟨⟨hasked, hpending⟩, t, ht, ⟨hdone, hgone⟩, hstored⟩ := hp
  refine ⟨s, t, hs, hasked, hpending, fun hin => ?_, Machine.runs_of_exec ht, hdone, hgone, hstored⟩
  exact (hin.2 _ hpending (by decide)).1 (by simp [hasked])

end MediaAgent
