import MediaAgent.Library.Transition
import MediaAgent.StreamBuffer

/-!
# The publish loop and its environment

`Pipeline::publishLoop` as a program counter between its buffer calls, interleaved with a
puller that enqueues packets and frames and with inference workers that may make any of
their calls at any time. The two reserves of the readiness check, one video packet and one
decoded frame, are proved here because they need nothing from the workers.
-/

namespace MediaAgent
open Transition TreeMaps

def kMinVideoWatermark : Nat := 1

def seiCodecTypeFromFrame (frame : Option FrameBundle) : SeiCodecType :=
  match frame with
  | some f => if f.sourceCoding = .hevc then .h265 else .h264
  | none => .h264

/-- Where `publishLoop` stands; the packet is the one returned by `peekPacket`. -/
inductive PublishPc
  | waiting
  | peeking
  | finding (packet : EncodedPacket)
  | taking (packet : EncodedPacket) (codecType : SeiCodecType)
  | writing (packet : EncodedPacket) (codecType : Option SeiCodecType)
  | popping (packet : EncodedPacket)
  | releasing (packet : EncodedPacket)
  deriving DecidableEq, Repr

/-- The buffer, the publish loop, and the history of accepted and published items. -/
structure PublishState where
  buffer : StreamBuffer := {}
  pc : PublishPc := .waiting
  acceptedPackets : List EncodedPacket := []
  acceptedFrames : List Int := []
  handedOver : List (EncodedPacket × Option SeiCodecType) := []

/-- The buffer calls that inference workers make. -/
inductive WorkerCall
  | selectFrameForInference
  | markInferenceRunning (frameId : Int)
  | markInferenceDone (result : FrameInferenceResult)
  | clearInferenceSelection (frameId : Int) (state : InferState)
  | updateCachedInferenceResult (result : FrameInferenceResult)

def WorkerCall.apply (c : WorkerCall) (b : StreamBuffer) : StreamBuffer :=
  match c with
  | selectFrameForInference => b.selectFrameForInference.2
  | markInferenceRunning id => b.markInferenceRunning id
  | markInferenceDone r => b.markInferenceDone r
  | clearInferenceSelection id st => b.clearInferenceSelection id st
  | updateCachedInferenceResult r => b.updateCachedInferenceResult r

/-- The frame ids of the video packets of a list. -/
def videoIds (packets : List EncodedPacket) : List Int :=
  (packets.filter (·.mediaType == .video)).map (·.frameId)

lemma videoIds_cons (p : EncodedPacket) (rest : List EncodedPacket) :
    videoIds (p :: rest) =
      if p.mediaType = .video then p.frameId :: videoIds rest else videoIds rest := by
  by_cases hv : p.mediaType = .video <;> simp [videoIds, hv]

lemma videoIds_append_singleton (packets : List EncodedPacket) (p : EncodedPacket) :
    videoIds (packets ++ [p]) =
      if p.mediaType = .video then videoIds packets ++ [p.frameId] else videoIds packets := by
  by_cases hv : p.mediaType = .video <;> simp [videoIds, hv]

lemma mem_videoIds {packets : List EncodedPacket} {i : Int} :
    i ∈ videoIds packets ↔ ∃ packet ∈ packets, packet.mediaType = .video ∧ packet.frameId = i := by
  simp [videoIds, and_assoc]

/-- The clock and the hash order that a `takeCachedInferenceResult` call meets. -/
structure TakeContext where
  visit : Traversal (Int × FrameInferenceResult) := .sorted _
  nowMonoMs : Int := 0

namespace PublishState

def enqueuePacket (s : PublishState) (p : EncodedPacket) : PublishState :=
  let (accepted, b) := s.buffer.enqueuePacket (some p)
  { s with
    buffer := b
    acceptedPackets := if accepted then s.acceptedPackets ++ [p] else s.acceptedPackets }

def enqueueFrame (s : PublishState) (f : FrameBundle) : PublishState :=
  let (accepted, b) := s.buffer.enqueueFrame (some f)
  { s with
    buffer := b
    acceptedFrames := if accepted then s.acceptedFrames ++ [f.frameId] else s.acceptedFrames }

/-- The next buffer call of `publishLoop`. A `waitForPublishable` that times out returns to
the loop head. What `inject`, `writePacket` and `appendPacket` return changes nothing. -/
def publish (s : PublishState) (c : TakeContext) : PublishState :=
  match s.pc with
  | .waiting =>
    if s.buffer.waitForPublishable kMinVideoWatermark then { s with pc := .peeking } else s
  | .peeking =>
    match s.buffer.peekPacket with
    | none => { s with pc := .waiting }
    | some p =>
      if p.mediaType = .video then { s with pc := .finding p } else { s with pc := .writing p none }
  | .finding p =>
    { s with pc := .taking p (seiCodecTypeFromFrame (s.buffer.findFrame p.frameId)) }
  | .taking p codecType =>
    { s with
      buffer := (s.buffer.takeCachedInferenceResult c.visit p.frameId p.pts c.nowMonoMs).2
      pc := .writing p (some codecType) }
  | .writing p codecType =>
    { s with handedOver := s.handedOver ++ [(p, codecType)], pc := .popping p }
  | .popping p =>
    { s with
      buffer := s.buffer.popPacket
      pc := if p.mediaType = .video ∧ 0 ≤ p.frameId then .releasing p else .waiting }
  | .releasing p => { s with buffer := s.buffer.releaseFrame p.frameId, pc := .waiting }

def acceptedVideoIds (s : PublishState) : List Int := videoIds s.acceptedPackets

end PublishState

inductive PublishAction
  | enqueuePacket (packet : EncodedPacket)
  | enqueueFrame (frame : FrameBundle)
  | worker (call : WorkerCall)
  | publish (context : TakeContext)
  | stop

/-- The system of one buffer. The puller enqueues video packets with increasing frame ids
and frames with increasing frame ids; nothing else is asked of it. -/
def publishSystem : Machine PublishState PublishAction where
  init := {}
  next s
    | .enqueuePacket p =>
      if p.mediaType = .video → ∀ i ∈ s.acceptedVideoIds, i < p.frameId then
        some (s.enqueuePacket p)
      else none
    | .enqueueFrame f =>
      if ∀ i ∈ s.acceptedFrames, i < f.frameId then some (s.enqueueFrame f) else none
    | .worker c => some { s with buffer := c.apply s.buffer }
    | .publish c => some (s.publish c)
    | .stop => some { s with buffer := s.buffer.stop }

/-! ## What the workers cannot change -/

namespace WorkerCall

variable (c : WorkerCall) (b : StreamBuffer)

/-- A worker changes the frames and the cached results. -/
lemma apply_eq : ∃ frames results, c.apply b =
    { b with frames := frames, cachedInferenceResults := results } := by
  cases c with
  | selectFrameForInference =>
    rcases b.selectFrameForInference_cases with ⟨h, -⟩ | ⟨id, f, -, -, h⟩
    · exact ⟨b.frames, b.cachedInferenceResults, by simp [apply, h]⟩
    · exact ⟨_, b.cachedInferenceResults, h⟩
  | updateCachedInferenceResult r =>
    simp only [apply, StreamBuffer.updateCachedInferenceResult]
    split
    · exact ⟨b.frames, b.cachedInferenceResults, rfl⟩
    · exact ⟨b.frames, _, rfl⟩
  | _ => exact ⟨_, b.cachedInferenceResults, rfl⟩

@[simp] lemma apply_packets : (c.apply b).packets = b.packets := by
  obtain ⟨frames, results, h⟩ := c.apply_eq b
  rw [h]

@[simp] lemma apply_videoPacketCount : (c.apply b).videoPacketCount = b.videoPacketCount := by
  obtain ⟨frames, results, h⟩ := c.apply_eq b
  rw [h]

lemma decodedAt_setInferState (id k : Int) (st : InferState) :
    StreamBuffer.decodedAt { b with frames := setInferState b.frames id st } k = b.decodedAt k := by
  simp only [StreamBuffer.decodedAt, lookup_setInferState]
  split
  · simp only [Option.map_map]
    rfl
  · rfl

lemma giveUp_decodedImage (selected k : Int) (order : List Int) (f : FrameBundle) :
    (giveUp selected k order f).decodedImage = f.decodedImage := by
  unfold giveUp
  split <;> rfl

@[simp] lemma apply_decodedAt (k : Int) : (c.apply b).decodedAt k = b.decodedAt k := by
  cases c with
  | selectFrameForInference =>
    rcases b.selectFrameForInference_cases with ⟨h, -⟩ | ⟨id, f, -, -, h⟩
    · simp [apply, h]
    · rw [apply, h, ← decodedAt_setInferState b id k .selected]
      simp only [StreamBuffer.decodedAt, lookup_markOthersDone, Option.map_map]
      congr 1
      funext g
      simp [giveUp_decodedImage]
  | markInferenceRunning id => exact decodedAt_setInferState b id k _
  | markInferenceDone r => exact decodedAt_setInferState b r.frameId k _
  | clearInferenceSelection id st => exact decodedAt_setInferState b id k st
  | updateCachedInferenceResult r =>
    simp only [apply, StreamBuffer.updateCachedInferenceResult]
    split <;> rfl

end WorkerCall

/-! ## What the publish loop knows between its calls -/

/-- The packet that `publishLoop` has let through is at the front until it is popped, and `front`
holds of it if it is a video packet; `released` holds of a popped packet whose frame is still
to be released. -/
def PcHolds (packets : List EncodedPacket) (front released : EncodedPacket → Prop) :
    PublishPc → Prop
  | .waiting => True
  | .peeking => ∃ p rest, packets = p :: rest ∧ (p.mediaType = .video → front p)
  | .finding p | .taking p _ =>
    p.mediaType = .video ∧ ∃ rest, packets = p :: rest ∧ (p.mediaType = .video → front p)
  | .writing p _ | .popping p =>
    ∃ rest, packets = p :: rest ∧ (p.mediaType = .video → front p)
  | .releasing p => p.mediaType = .video ∧ 0 ≤ p.frameId ∧ released p

lemma PcHolds.mono {packets packets' : List EncodedPacket}
    {front front' released released' : EncodedPacket → Prop} {pc : PublishPc}
    (h : PcHolds packets front released pc) (hp : packets <+: packets')
    (hf : ∀ p, front p → front' p) (hr : ∀ p, released p → released' p) :
    PcHolds packets' front' released' pc := by
  obtain ⟨more, rfl⟩ := hp
  have hfront : ∀ p : EncodedPacket,
      (∃ rest, packets = p :: rest ∧ (p.mediaType = .video → front p)) →
        ∃ rest, packets ++ more = p :: rest ∧ (p.mediaType = .video → front' p) := by
    rintro p ⟨rest, rfl, hc⟩
    exact ⟨rest ++ more, rfl, fun hv => hf p (hc hv)⟩
  cases pc with
  | waiting => trivial
  | peeking =>
    obtain ⟨p, hp⟩ := h
    exact ⟨p, hfront p hp⟩
  | finding p => exact ⟨h.1, hfront p h.2⟩
  | taking p codecType => exact ⟨h.1, hfront p h.2⟩
  | writing p codecType => exact hfront p h
  | popping p => exact hfront p h
  | releasing p => exact ⟨h.1, h.2.1, hr p h.2.2⟩

lemma popPacket_cons {b : StreamBuffer} {p : EncodedPacket} {rest : List EncodedPacket}
    (h : b.packets = p :: rest) : b.popPacket.packets = rest := by
  simp [StreamBuffer.popPacket, h]

/-! ## Queued and accepted ids -/

lemma videoIds_enqueuePacket (s : PublishState) (p : EncodedPacket) :
    videoIds (s.enqueuePacket p).buffer.packets =
      if s.buffer.stopped = false ∧ p.mediaType = .video then videoIds s.buffer.packets ++ [p.frameId]
      else videoIds s.buffer.packets := by
  rcases s.buffer.enqueuePacket_cases p with ⟨hs, he⟩ | ⟨hs, he⟩
  · simp [PublishState.enqueuePacket, he, hs]
  · simp [PublishState.enqueuePacket, he, hs, videoIds_append_singleton]

lemma acceptedVideoIds_enqueuePacket (s : PublishState) (p : EncodedPacket) :
    (s.enqueuePacket p).acceptedVideoIds =
      if s.buffer.stopped = false ∧ p.mediaType = .video then s.acceptedVideoIds ++ [p.frameId]
      else s.acceptedVideoIds := by
  rcases s.buffer.enqueuePacket_cases p with ⟨hs, he⟩ | ⟨hs, he⟩
  · simp [PublishState.enqueuePacket, PublishState.acceptedVideoIds, he, hs]
  · simp [PublishState.enqueuePacket, PublishState.acceptedVideoIds, he, hs, videoIds_append_singleton]

/-- The video count follows the queue when a packet is enqueued. -/
lemma enqueuePacket_count {s : PublishState} (p : EncodedPacket)
    (h : s.buffer.videoPacketCount = s.buffer.packets.countP (·.mediaType == .video)) :
    (s.enqueuePacket p).buffer.videoPacketCount =
      (s.enqueuePacket p).buffer.packets.countP (·.mediaType == .video) := by
  rcases s.buffer.enqueuePacket_cases p with ⟨-, he⟩ | ⟨-, he⟩
  · simpa only [PublishState.enqueuePacket, he] using h
  · by_cases hv : p.mediaType = .video <;> simp [PublishState.enqueuePacket, he, hv, h]

/-- All that one step of `publishLoop` can do to the buffer: pop a packet, release a frame, or
take something from the cache. -/
lemma publish_cases (s : PublishState) (c : TakeContext) :
    (∃ cache, (s.publish c).buffer = { s.buffer with cachedInferenceResults := cache } ∧
      ∀ p, s.pc ≠ .releasing p ∧ (s.publish c).pc ≠ .releasing p) ∨
    (∃ p, s.pc = .popping p ∧ (s.publish c).buffer = s.buffer.popPacket ∧
      (s.publish c).pc =
        if p.mediaType = .video ∧ 0 ≤ p.frameId then .releasing p else .waiting) ∨
    (∃ p, s.pc = .releasing p ∧ (s.publish c).buffer = s.buffer.releaseFrame p.frameId ∧
      (s.publish c).pc = .waiting) := by
  unfold PublishState.publish
  cases he : s.pc with
  | waiting =>
    refine .inl ⟨s.buffer.cachedInferenceResults, ?_⟩
    dsimp only
    split <;> simp [he]
  | peeking =>
    refine .inl ⟨s.buffer.cachedInferenceResults, ?_⟩
    dsimp only
    split
    · simp
    · split <;> simp
  | finding p => exact .inl ⟨s.buffer.cachedInferenceResults, by simp⟩
  | taking p codecType => exact .inl ⟨_, StreamBuffer.takeCachedInferenceResult_eq .., by simp⟩
  | writing p codecType => exact .inl ⟨s.buffer.cachedInferenceResults, by simp⟩
  | popping p => exact .inr (.inl ⟨p, rfl, rfl, rfl⟩)
  | releasing p => exact .inr (.inr ⟨p, rfl, rfl, rfl⟩)

/-- The history of accepted items is the puller's. -/
lemma publish_accepted (s : PublishState) (c : TakeContext) :
    (s.publish c).acceptedPackets = s.acceptedPackets ∧
      (s.publish c).acceptedFrames = s.acceptedFrames := by
  unfold PublishState.publish
  cases s.pc with
  | waiting =>
    dsimp only
    split <;> exact ⟨rfl, rfl⟩
  | peeking =>
    dsimp only
    split
    · exact ⟨rfl, rfl⟩
    · split <;> exact ⟨rfl, rfl⟩
  | _ => exact ⟨rfl, rfl⟩

/-- A step of `publishLoop` leaves the video packets as they are or pops the one in front, for
which `front` holds. -/
lemma videoIds_publish {s : PublishState} {front released : EncodedPacket → Prop}
    (h : PcHolds s.buffer.packets front released s.pc) (c : TakeContext) :
    videoIds (s.publish c).buffer.packets = videoIds s.buffer.packets ∨
      ∃ p, s.pc = .popping p ∧ p.mediaType = .video ∧ front p ∧
        videoIds s.buffer.packets = p.frameId :: videoIds (s.publish c).buffer.packets := by
  rcases publish_cases s c with ⟨cache, hb, -⟩ | ⟨p, he, hb, -⟩ | ⟨p, -, hb, -⟩
  · rw [hb]
    exact .inl rfl
  · rw [he] at h
    obtain ⟨rest, hp, hf⟩ := h
    rw [hb, popPacket_cons hp, hp, videoIds_cons]
    by_cases hv : p.mediaType = .video
    · exact .inr ⟨p, he, hv, hf hv, if_pos hv⟩
    · exact .inl (if_neg hv).symm
  · rw [hb]
    exact .inl rfl

lemma videoIds_publish_sublist {s : PublishState} {front released : EncodedPacket → Prop}
    (h : PcHolds s.buffer.packets front released s.pc) (c : TakeContext) :
    (videoIds (s.publish c).buffer.packets).Sublist (videoIds s.buffer.packets) := by
  rcases videoIds_publish h c with hsame | ⟨p, -, -, -, hpop⟩
  · exact hsame ▸ .refl _
  · rw [hpop]
    exact List.sublist_cons_self _ _

/-- One step of `publishLoop`: the readiness check establishes `front`, the cached result is
taken without losing it, and the pop turns it into `released`. -/
theorem PcHolds.publish (front released : StreamBuffer → EncodedPacket → Prop) {s : PublishState}
    {c : TakeContext}
    (h : PcHolds s.buffer.packets (front s.buffer) (released s.buffer) s.pc)
    (hwait : s.buffer.waitForPublishable kMinVideoWatermark = true → ∀ p rest,
      s.pc = .waiting → s.buffer.packets = p :: rest → p.mediaType = .video → front s.buffer p)
    (htake : ∀ p, front s.buffer p → front
      (s.buffer.takeCachedInferenceResult c.visit p.frameId p.pts c.nowMonoMs).2 p)
    (hpop : ∀ p rest, s.buffer.packets = p :: rest → front s.buffer p →
      0 ≤ p.frameId → released s.buffer.popPacket p) :
    PcHolds (s.publish c).buffer.packets (front (s.publish c).buffer)
      (released (s.publish c).buffer) (s.publish c).pc := by
  unfold PublishState.publish
  cases he : s.pc with
  | waiting =>
    dsimp only
    split
    · rename_i hready
      obtain ⟨-, p, rest, hp, -⟩ := StreamBuffer.waitForPublishable_one hready
      exact ⟨p, rest, hp, fun hv => hwait hready p rest he hp hv⟩
    · rw [he]
      trivial
  | peeking =>
    rw [he] at h
    obtain ⟨p, rest, hp, hc⟩ := h
    simp only [StreamBuffer.peekPacket, hp, List.head?_cons]
    split
    · exact ⟨‹_›, rest, hp, hc⟩
    · exact ⟨rest, hp, hc⟩
  | finding p =>
    rw [he] at h
    exact h
  | taking p codecType =>
    rw [he] at h
    obtain ⟨-, rest, hp, hc⟩ := h
    exact ⟨rest, by simpa using hp, fun hv => htake p (hc hv)⟩
  | writing p codecType =>
    rw [he] at h
    exact h
  | popping p =>
    rw [he] at h
    obtain ⟨rest, hp, hc⟩ := h
    dsimp only
    split
    · rename_i hv
      exact ⟨hv.1, hv.2, hpop p rest hp (hc hv.1) hv.2⟩
    · trivial
  | releasing p => trivial

/-! ## The two reserves -/

/-- The frame is in the buffer, and is not its only decoded frame. -/
def Reserved (b : StreamBuffer) (id : Int) : Prop :=
  ∃ d, b.decodedAt id = some d ∧ (d = true → ∃ k, k ≠ id ∧ b.decodedAt k = some true)

/-- What the readiness check established for the video packet it let pass. -/
structure Cleared (b : StreamBuffer) (p : EncodedPacket) : Prop where
  surplus : 1 < b.videoPacketCount
  reserved : 0 ≤ p.frameId → Reserved b p.frameId

/-- The buffer after calls of the puller and the workers. -/
structure Grows (b b' : StreamBuffer) : Prop where
  packets : b.packets <+: b'.packets
  surplus : b.videoPacketCount ≤ b'.videoPacketCount
  decoded : ∀ k d, b.decodedAt k = some d → b'.decodedAt k = some d

structure ReserveInv (s : PublishState) : Prop where
  count : s.buffer.videoPacketCount = s.buffer.packets.countP (·.mediaType == .video)
  known : ∀ k d, s.buffer.decodedAt k = some d → k ∈ s.acceptedFrames
  pc : PcHolds s.buffer.packets (Cleared s.buffer) (fun p => Reserved s.buffer p.frameId) s.pc

/-- No frame is stored under an id above the accepted ones. -/
lemma ReserveInv.unknown {s : PublishState} (h : ReserveInv s) {k : Int}
    (hk : ∀ i ∈ s.acceptedFrames, i < k) : s.buffer.decodedAt k = none := by
  rw [Option.eq_none_iff_forall_ne_some]
  intro d hd
  exact Int.lt_irrefl _ (hk _ (h.known _ _ hd))

lemma Reserved.grows {b b' : StreamBuffer} {id : Int} (h : Reserved b id) (hg : Grows b b') :
    Reserved b' id := by
  obtain ⟨d, hd, hother⟩ := h
  refine ⟨d, hg.decoded _ _ hd, fun ht => ?_⟩
  obtain ⟨k, hk, hdk⟩ := hother ht
  exact ⟨k, hk, hg.decoded _ _ hdk⟩

lemma Cleared.grows {b b' : StreamBuffer} {p : EncodedPacket} (h : Cleared b p) (hg : Grows b b') :
    Cleared b' p :=
  ⟨Nat.lt_of_lt_of_le h.surplus hg.surplus, fun h0 => (h.reserved h0).grows hg⟩

lemma ReserveInv.pc_grows {s : PublishState} (h : ReserveInv s) {b : StreamBuffer}
    (hg : Grows s.buffer b) :
    PcHolds b.packets (Cleared b) (fun p => Reserved b p.frameId) s.pc :=
  h.pc.mono hg.packets (fun _ hc => hc.grows hg) (fun _ hr => hr.grows hg)

lemma Grows.of_worker (c : WorkerCall) (b : StreamBuffer) : Grows b (c.apply b) :=
  ⟨by simp, by simp, fun k d h => by simpa using h⟩

lemma Grows.of_enqueuePacket (b : StreamBuffer) (p : EncodedPacket) :
    Grows b (b.enqueuePacket (some p)).2 := by
  rcases b.enqueuePacket_cases p with ⟨-, h⟩ | ⟨-, h⟩ <;> rw [h]
  · exact ⟨List.prefix_rfl, Nat.le_refl _, fun _ _ h => h⟩
  · refine ⟨List.prefix_append _ _, ?_, fun _ _ h => h⟩
    dsimp only
    split <;> omega

lemma decodedAt_enqueuePacket (b : StreamBuffer) (p : EncodedPacket) (k : Int) :
    (b.enqueuePacket (some p)).2.decodedAt k = b.decodedAt k := by
  rcases b.enqueuePacket_cases p with ⟨-, h⟩ | ⟨-, h⟩ <;> rw [h]
  rfl

lemma decodedAt_enqueueFrame (b : StreamBuffer) (f : FrameBundle) (k : Int) :
    (b.enqueueFrame (some f)).2.decodedAt k =
      if b.stopped = false ∧ f.frameId = k then some f.decodedImage.isSome else b.decodedAt k := by
  rcases b.enqueueFrame_cases f with ⟨hs, h⟩ | ⟨hs, h⟩ <;> rw [h]
  · simp [hs]
  · simp only [hs, true_and, StreamBuffer.decodedAt, lookup_insert]
    split <;> rfl

/-- A frame that is enqueued under a new id hides no older frame. -/
lemma Grows.of_enqueueFrame {b : StreamBuffer} {f : FrameBundle}
    (hnew : b.decodedAt f.frameId = none) : Grows b (b.enqueueFrame (some f)).2 := by
  have hold : ∀ k d, b.decodedAt k = some d → (b.enqueueFrame (some f)).2.decodedAt k = some d := by
    intro k d h
    rw [decodedAt_enqueueFrame, if_neg, h]
    rintro ⟨-, rfl⟩
    rw [hnew] at h
    cases h
  refine ⟨?_, ?_, hold⟩
  · rcases b.enqueueFrame_cases f with ⟨-, h⟩ | ⟨-, h⟩ <;> simp [h]
  · rcases b.enqueueFrame_cases f with ⟨-, h⟩ | ⟨-, h⟩ <;> simp [h]

/-- The readiness check clears a video packet at the front. -/
lemma cleared_of_waitForPublishable {b : StreamBuffer}
    (hcount : b.videoPacketCount = b.packets.countP (·.mediaType == .video))
    (h : b.waitForPublishable kMinVideoWatermark = true) {p : EncodedPacket}
    {rest : List EncodedPacket} (hp : b.packets = p :: rest) (hv : p.mediaType = .video) :
    Cleared b p := by
  obtain ⟨-, front, rest', hp', hgates⟩ := StreamBuffer.waitForPublishable_one h
  rw [hp] at hp'
  cases hp'
  have hpos : b.videoPacketCount ≠ 0 := by simp [hcount, hp, hv]
  have hopen := hgates hpos hv
  refine ⟨hopen.watermark, fun h0 => ?_⟩
  obtain ⟨f, hf⟩ := hopen.present h0
  refine ⟨f.decodedImage.isSome, StreamBuffer.decodedAt_eq_some.mpr ⟨f, hf, rfl⟩, fun hd => ?_⟩
  obtain ⟨k, hk, hdk⟩ :=
    (StreamBuffer.hasDecodedFrameLocked_iff_decodedAt _ _).mp (hopen.reserve h0 f hf hd)
  exact ⟨k, fun he => hk (by rw [he]), hdk⟩

lemma popPacket_count {b : StreamBuffer}
    (h : b.videoPacketCount = b.packets.countP (·.mediaType == .video)) :
    b.popPacket.videoPacketCount = b.popPacket.packets.countP (·.mediaType == .video) := by
  unfold StreamBuffer.popPacket
  cases hp : b.packets with
  | nil => simpa [hp] using h
  | cons p rest =>
    rw [hp, List.countP_cons] at h
    by_cases hv : p.mediaType = .video
    · simp only [hv, BEq.rfl, ite_true] at h
      have hpos : b.videoPacketCount > 0 := by omega
      simp only [hv, hpos, and_self, ite_true]
      omega
    · simp only [hv, beq_iff_eq, ite_false, Nat.add_zero] at h
      simp only [hv, false_and, ite_false]
      exact h

@[simp] lemma decodedAt_popPacket (b : StreamBuffer) (k : Int) :
    b.popPacket.decodedAt k = b.decodedAt k := by
  unfold StreamBuffer.popPacket
  split <;> rfl

lemma Grows.of_take (b : StreamBuffer) (visit : Traversal (Int × FrameInferenceResult))
    (id pts now : Int) : Grows b (b.takeCachedInferenceResult visit id pts now).2 :=
  ⟨by simp, by simp, fun k d h => by simpa [StreamBuffer.decodedAt] using h⟩

/-- A step of `publishLoop` only loses frames. -/
lemma publish_decodedAt {s : PublishState} {c : TakeContext} {k : Int} {d : Bool}
    (h : (s.publish c).buffer.decodedAt k = some d) : s.buffer.decodedAt k = some d := by
  rcases publish_cases s c with ⟨cache, hb, -⟩ | ⟨p, -, hb, -⟩ | ⟨p, -, hb, -⟩ <;> rw [hb] at h
  · exact h
  · simpa using h
  · rw [StreamBuffer.decodedAt_releaseFrame] at h
    split at h
    · cases h
    · exact h

lemma publish_decodedAt_none {s : PublishState} {c : TakeContext} {k : Int}
    (h : s.buffer.decodedAt k = none) : (s.publish c).buffer.decodedAt k = none := by
  rw [Option.eq_none_iff_forall_ne_some]
  intro d hd
  rw [publish_decodedAt hd] at h
  cases h

/-- A step of `publishLoop` removes only the frame it releases. -/
lemma publish_decodedAt_eq {s : PublishState} {c : TakeContext} {k : Int}
    (hk : ∀ p, s.pc = .releasing p → p.frameId ≠ k) :
    (s.publish c).buffer.decodedAt k = s.buffer.decodedAt k := by
  rcases publish_cases s c with ⟨cache, hb, -⟩ | ⟨p, -, hb, -⟩ | ⟨p, hp, hb, -⟩ <;> rw [hb]
  · rfl
  · simp
  · rw [StreamBuffer.decodedAt_releaseFrame, if_neg (hk p hp)]

/-- The video count follows the queue through every step of `publishLoop`. -/
lemma publish_count {s : PublishState} (c : TakeContext)
    (h : s.buffer.videoPacketCount = s.buffer.packets.countP (·.mediaType == .video)) :
    (s.publish c).buffer.videoPacketCount =
      (s.publish c).buffer.packets.countP (·.mediaType == .video) := by
  rcases publish_cases s c with ⟨cache, hb, -⟩ | ⟨p, -, hb, -⟩ | ⟨p, -, hb, -⟩ <;> rw [hb]
  · exact h
  · exact popPacket_count h
  · exact h

/-- One step of `publishLoop` keeps the reserves. -/
lemma ReserveInv.publish {s : PublishState} (h : ReserveInv s) (c : TakeContext) :
    ReserveInv (s.publish c) := by
  refine ⟨publish_count c h.count, fun k d hk => ?_, ?_⟩
  · rw [(publish_accepted s c).2]
    exact h.known k d (publish_decodedAt hk)
  · refine PcHolds.publish Cleared (fun b p => Reserved b p.frameId) h.pc
      (fun hw p rest _ hp hv => ?_) (fun p hc => ?_) (fun p rest _ hc h0 => ?_)
    · exact cleared_of_waitForPublishable h.count hw hp hv
    · exact hc.grows (Grows.of_take _ _ _ _ _)
    · obtain ⟨d, hd, hother⟩ := hc.reserved h0
      exact ⟨d, by simpa using hd, fun ht => by simpa using hother ht⟩

lemma ReserveInv.enqueueFrame {s : PublishState} (h : ReserveInv s) {f : FrameBundle}
    (hf : ∀ i ∈ s.acceptedFrames, i < f.frameId) : ReserveInv (s.enqueueFrame f) := by
  refine ⟨?_, fun k d hk => ?_, h.pc_grows (Grows.of_enqueueFrame (h.unknown hf))⟩
  · rcases s.buffer.enqueueFrame_cases f with ⟨-, he⟩ | ⟨-, he⟩ <;>
      simpa only [PublishState.enqueueFrame, he] using h.count
  · replace hk : (s.buffer.enqueueFrame (some f)).2.decodedAt k = some d := hk
    rw [decodedAt_enqueueFrame] at hk
    rcases s.buffer.enqueueFrame_cases f with ⟨hs, he⟩ | ⟨hs, he⟩
    · simp only [hs, Bool.true_eq_false, false_and, ite_false] at hk
      simpa [PublishState.enqueueFrame, he] using h.known k d hk
    · simp only [hs, true_and] at hk
      simp only [PublishState.enqueueFrame, he, ite_true, List.mem_append, List.mem_singleton]
      split at hk
      · rename_i hid
        exact .inr hid.symm
      · exact .inl (h.known k d hk)

lemma ReserveInv.enqueuePacket {s : PublishState} (h : ReserveInv s) (p : EncodedPacket) :
    ReserveInv (s.enqueuePacket p) :=
  ⟨enqueuePacket_count p h.count, fun k d hk => h.known k d ((decodedAt_enqueuePacket _ p k).symm.trans hk),
    h.pc_grows (Grows.of_enqueuePacket _ p)⟩

/-- Every reachable state keeps the reserves, whatever the workers call. -/
theorem reserveInv_reachable {s : PublishState} (h : publishSystem.Reachable s) :
    ReserveInv s := by
  apply h.invariant
  · exact ⟨rfl, fun k d hk => by simp [publishSystem, StreamBuffer.decodedAt] at hk, trivial⟩
  · intro s a t hs _ hn
    cases a with
    | enqueuePacket p =>
      simp only [publishSystem, Option.ite_none_right_eq_some, Option.some.injEq] at hn
      rw [← hn.2]
      exact hs.enqueuePacket p
    | enqueueFrame f =>
      simp only [publishSystem, Option.ite_none_right_eq_some, Option.some.injEq] at hn
      rw [← hn.2]
      exact hs.enqueueFrame hn.1
    | worker c =>
      cases hn
      exact ⟨by simpa using hs.count, fun k d hk => hs.known k d (by simpa using hk),
        hs.pc_grows (Grows.of_worker c s.buffer)⟩
    | publish c =>
      cases hn
      exact hs.publish c
    | stop =>
      cases hn
      exact ⟨hs.count, hs.known, hs.pc_grows ⟨List.prefix_rfl, Nat.le_refl _, fun _ _ h => h⟩⟩

/-- A buffer call or a step of `publishLoop` never takes the last decoded frame away. -/
lemma decoded_kept {s t : PublishState} {a : PublishAction} (h : ReserveInv s)
    (hn : publishSystem.next s a = some t) (hd : ∃ k, s.buffer.decodedAt k = some true) :
    ∃ k, t.buffer.decodedAt k = some true := by
  obtain ⟨k, hk⟩ := hd
  cases a with
  | enqueuePacket p =>
    simp only [publishSystem, Option.ite_none_right_eq_some, Option.some.injEq] at hn
    rw [← hn.2]
    exact ⟨k, (decodedAt_enqueuePacket _ p k).trans hk⟩
  | enqueueFrame f =>
    simp only [publishSystem, Option.ite_none_right_eq_some, Option.some.injEq] at hn
    rw [← hn.2]
    exact ⟨k, (Grows.of_enqueueFrame (h.unknown hn.1)).decoded k true hk⟩
  | worker c =>
    cases hn
    exact ⟨k, by simpa using hk⟩
  | stop =>
    cases hn
    exact ⟨k, hk⟩
  | publish c =>
    cases hn
    rcases publish_cases s c with ⟨cache, hb, -⟩ | ⟨p, -, hb, -⟩ | ⟨p, hpc, hb, -⟩ <;> rw [hb]
    · exact ⟨k, hk⟩
    · exact ⟨k, by simpa using hk⟩
    · have hreserved := h.pc
      rw [hpc] at hreserved
      obtain ⟨-, -, d, hd, hother⟩ := hreserved
      by_cases hkp : p.frameId = k
      · -- the released frame is the decoded one: the reserve names another
        subst k
        rw [hk] at hd
        cases hd
        obtain ⟨j, hj, hdj⟩ := hother rfl
        exact ⟨j, by rw [StreamBuffer.decodedAt_releaseFrame, if_neg (Ne.symm hj), hdj]⟩
      · exact ⟨k, by rw [StreamBuffer.decodedAt_releaseFrame, if_neg hkp, hk]⟩

lemma hasDecodedFrameLocked_none_iff (b : StreamBuffer) :
    b.hasDecodedFrameLocked none = true ↔ ∃ k, b.decodedAt k = some true := by
  simp [StreamBuffer.hasDecodedFrameLocked_iff_decodedAt]

/-- Popping a video packet leaves another one in the queue, and a buffer that holds a decoded
frame holds one in every later state. -/
theorem publish_keeps_reserves {s : PublishState} (h : publishSystem.Reachable s) :
    (∀ c p front rest, s.pc = .popping p → s.buffer.packets = front :: rest →
      front.mediaType = .video → ∃ q ∈ (s.publish c).buffer.packets, q.mediaType = .video) ∧
    (∀ t, publishSystem.Runs s t → s.buffer.hasDecodedFrameLocked none = true →
      t.buffer.hasDecodedFrameLocked none = true) := by
  have hs := reserveInv_reachable h
  refine ⟨fun c p front rest hpc hp hv => ?_, fun t ht hd => ?_⟩
  · have hinv := hs.pc
    rw [hpc] at hinv
    obtain ⟨rest', hp', hc⟩ := hinv
    rw [hp] at hp'
    cases hp'
    have hsurplus := (hc hv).surplus
    rw [hs.count, hp, List.countP_cons] at hsurplus
    simp only [hv, BEq.rfl, ite_true] at hsurplus
    obtain ⟨q, hq, hqv⟩ := List.countP_pos_iff.mp (show 0 < rest.countP (·.mediaType == .video) by omega)
    refine ⟨q, ?_, by simpa using hqv⟩
    simp only [PublishState.publish, hpc, popPacket_cons hp]
    exact hq
  · rw [hasDecodedFrameLocked_none_iff] at hd ⊢
    apply ht.invariant_of (fun u hu => reserveInv_reachable (h.trans hu)) hd
    intro u a v hu hd _ hn
    exact decoded_kept hu hn hd

/-- Two decoded frames, the newer one selected, and the older one about to be popped. -/
def twoFrameRun : List PublishAction :=
  [.enqueuePacket { frameId := 0 }, .enqueuePacket { frameId := 1 },
    .enqueueFrame { frameId := 0, decodedImage := some {} },
    .enqueueFrame { frameId := 1, decodedImage := some {} },
    .worker .selectFrameForInference,
    .publish {}, .publish {}, .publish {}, .publish {}, .publish {}]

theorem publish_keeps_reserves_twoFrameRun :
    ∃ s, publishSystem.Reachable s ∧ s.pc = .popping { frameId := 0 } ∧
      (∃ q ∈ (s.publish {}).buffer.packets, q.mediaType = .video) ∧
      (s.publish {}).buffer.hasDecodedFrameLocked none = true := by
  obtain ⟨s, hs, hp⟩ := Machine.reachable_of_exec_any publishSystem twoFrameRun
    (fun s => s.pc == .popping { frameId := 0 } &&
      s.buffer.packets == [{ frameId := 0 }, { frameId := 1 }] &&
      s.buffer.hasDecodedFrameLocked none) (by decide)
  simp only [Bool.and_eq_true, beq_iff_eq] at hp
  obtain ⟨⟨hpc, hpackets⟩, hd⟩ := hp
  have hreserves := publish_keeps_reserves hs
  exact ⟨s, hs, hpc, hreserves.1 {} _ _ _ hpc hpackets rfl,
    hreserves.2 _ (Machine.Runs.next (a := .publish {}) .refl rfl) hd⟩

end MediaAgent
