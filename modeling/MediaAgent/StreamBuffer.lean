import MediaAgent.StreamTypes

/-!
# The stream buffer

`pipeline/StreamBuffer.cpp`, one function for each public call. Every call holds the
buffer's mutex from start to end, so a call is one atomic step; `waitForPublishable`
returns the value of its predicate at the moment it returns. Log lines, the condition
variable and the stream's name are left out.
-/

namespace MediaAgent
open Std TreeMaps

def kPtsClockHz : Int := 90000
def kCachedInferenceMatchWindowMs : Int := 100
def kCachedInferenceMatchWindowPts : Int := (kPtsClockHz * kCachedInferenceMatchWindowMs) / 1000

abbrev FrameMap := TreeMap Int FrameBundle
abbrev ResultMap := TreeMap Int FrameInferenceResult

structure StreamBuffer where
  packets : List EncodedPacket := []
  frames : FrameMap := ∅
  frameOrder : List Int := []
  cachedInferenceResults : ResultMap := ∅
  videoPacketCount : Nat := 0
  stopped : Bool := false

def isInferenceTerminal (s : InferState) : Bool := s == .done || s == .dropped

def isInferring (s : InferState) : Bool := s == .selected || s == .running

/-- `frames_[id]->infer_state = state`, when the frame is there. -/
def setInferState (frames : FrameMap) (id : Int) (state : InferState) : FrameMap :=
  match frames[id]? with
  | none => frames
  | some f => frames.insert id { f with inferState := state }

namespace StreamBuffer

def enqueuePacket (b : StreamBuffer) (packet : Option EncodedPacket) : Bool × StreamBuffer :=
  match packet with
  | none => (false, b)
  | some p =>
    if b.stopped then (false, b)
    else (true, { b with
      videoPacketCount := if p.mediaType = .video then b.videoPacketCount + 1 else b.videoPacketCount
      packets := b.packets ++ [p] })

def enqueueFrame (b : StreamBuffer) (frame : Option FrameBundle) : Bool × StreamBuffer :=
  match frame with
  | none => (false, b)
  | some f =>
    if b.stopped then (false, b)
    else (true, { b with
      frames := b.frames.insert f.frameId f
      frameOrder := b.frameOrder ++ [f.frameId] })

/-- The first loop of `selectFrameForInference`: the newest idle frame with a picture. -/
def newestIdleFrame (b : StreamBuffer) : Option (Int × FrameBundle) :=
  b.frameOrder.reverse.findSome? fun id =>
    match b.frames[id]? with
    | none => none
    | some f =>
      if f.decodedImage.isNone then none
      else if f.inferState = .idle then some (id, f) else none

/-- The second loop of `selectFrameForInference`: every other frame that is not finished is
given up. The frame pointers are compared by their key, which is the same since a key of
`frames_` has one frame. -/
def markOthersDone (selected : Int) (frames : FrameMap) (order : List Int) : FrameMap :=
  order.foldl (fun frames id =>
    match frames[id]? with
    | none => frames
    | some f =>
      if id = selected then frames
      else if isInferenceTerminal f.inferState then frames
      else frames.insert id { f with inferState := .done }) frames

def selectFrameForInference (b : StreamBuffer) : Option FrameBundle × StreamBuffer :=
  match b.newestIdleFrame with
  | none => (none, b)
  | some (id, f) =>
    (some { f with inferState := .selected },
      { b with frames := markOthersDone id (setInferState b.frames id .selected) b.frameOrder })

def markInferenceRunning (b : StreamBuffer) (frameId : Int) : StreamBuffer :=
  { b with frames := setInferState b.frames frameId .running }

def markInferenceDone (b : StreamBuffer) (result : FrameInferenceResult) : StreamBuffer :=
  { b with frames := setInferState b.frames result.frameId .done }

def clearInferenceSelection (b : StreamBuffer) (frameId : Int) (state : InferState) : StreamBuffer :=
  { b with frames := setInferState b.frames frameId state }

def hasDecodedFrameLocked (b : StreamBuffer) (excludedFrameId : Option Int) : Bool :=
  b.frames.toList.any fun (id, f) => excludedFrameId != some id && f.decodedImage.isSome

def inferringFrameIdLocked (b : StreamBuffer) : Option Int :=
  b.frameOrder.find? fun id =>
    match b.frames[id]? with
    | none => false
    | some f => f.decodedImage.isSome && isInferring f.inferState

/-- Gates 1 to 4 for a video packet at the front of the queue. -/
def videoGatesOpen (b : StreamBuffer) (front : EncodedPacket) (minVideoWatermark : Nat) : Bool :=
  let blocked := match b.inferringFrameIdLocked with
    | some id => decide (front.frameId < 0 ∨ front.frameId ≥ id)
    | none => false
  if blocked then false
  else if 0 ≤ front.frameId then
    match b.frames[front.frameId]? with
    | none => false
    | some f =>
      if f.decodedImage.isSome && !b.hasDecodedFrameLocked (some front.frameId) then false
      else decide (b.videoPacketCount > minVideoWatermark)
  else decide (b.videoPacketCount > minVideoWatermark)

def canPublishLocked (b : StreamBuffer) (minVideoWatermark : Nat) : Bool :=
  match b.packets with
  | [] => false
  | front :: _ =>
    if minVideoWatermark = 0 then true
    else if b.videoPacketCount = 0 then true
    else if front.mediaType = .audio then true
    else b.videoGatesOpen front minVideoWatermark

def waitForPublishable (b : StreamBuffer) (minVideoWatermark : Nat) : Bool :=
  !b.stopped && b.canPublishLocked minVideoWatermark

def peekPacket (b : StreamBuffer) : Option EncodedPacket := b.packets.head?

def popPacket (b : StreamBuffer) : StreamBuffer :=
  match b.packets with
  | [] => b
  | front :: rest => { b with
      videoPacketCount :=
        if front.mediaType = .video ∧ b.videoPacketCount > 0 then b.videoPacketCount - 1
        else b.videoPacketCount
      packets := rest }

def findFrame (b : StreamBuffer) (frameId : Int) : Option FrameBundle := b.frames[frameId]?

def releaseFrame (b : StreamBuffer) (frameId : Int) : StreamBuffer :=
  { b with
    frames := b.frames.erase frameId
    frameOrder := b.frameOrder.filter (· != frameId)
    cachedInferenceResults := b.cachedInferenceResults.erase frameId }

def updateCachedInferenceResult (b : StreamBuffer) (result : FrameInferenceResult) : StreamBuffer :=
  if result.frameId < 0 then b
  else { b with
    cachedInferenceResults := b.cachedInferenceResults.insert result.frameId result }

def purgeExpiredCachedInferenceResultsLocked (b : StreamBuffer) (nowMonoMs : Int) : StreamBuffer :=
  { b with
    cachedInferenceResults :=
      b.cachedInferenceResults.filter fun _ r => !decide (r.expireAtMonoMs < nowMonoMs) }

/-- The matching loop of `takeCachedInferenceResult`: the first entry of least distance. -/
def nearestByPts (pts : Int) (entries : List (Int × FrameInferenceResult)) :
    Option (Int × FrameInferenceResult) :=
  (entries.foldl (fun (best : Option (Int × FrameInferenceResult) × Int) e =>
    if e.2.pts < 0 then best
    else
      let ptsDiff := if e.2.pts ≥ pts then e.2.pts - pts else pts - e.2.pts
      if ptsDiff ≤ kCachedInferenceMatchWindowPts ∧ ptsDiff < best.2 then (some e, ptsDiff)
      else best) (none, kCachedInferenceMatchWindowPts + 1)).1

/-- `takeCachedInferenceResult`; `visit` is the order in which the cache is traversed. -/
def takeCachedInferenceResult (b : StreamBuffer)
    (visit : Traversal (Int × FrameInferenceResult)) (frameId pts nowMonoMs : Int) :
    Option FrameInferenceResult × StreamBuffer :=
  let b := b.purgeExpiredCachedInferenceResultsLocked nowMonoMs
  let matchedIt :=
    if pts ≥ 0 then nearestByPts pts (visit.order b.cachedInferenceResults.toList) else none
  let matchedIt := match matchedIt with
    | some e => some e
    | none =>
      if frameId ≥ 0 then (b.cachedInferenceResults[frameId]?).map fun r => (frameId, r) else none
  match matchedIt with
  | none => (none, b)
  | some (id, r) =>
    (some r, { b with cachedInferenceResults := b.cachedInferenceResults.erase id })

def stop (b : StreamBuffer) : StreamBuffer := { b with stopped := true }

end StreamBuffer

/-! ## Frame states -/

/-- A frame that `selectFrameForInference` may pick. -/
def FrameBundle.isCandidate (f : FrameBundle) : Prop :=
  f.decodedImage.isSome = true ∧ f.inferState = .idle

lemma lookup_setInferState (frames : FrameMap) (id k : Int) (state : InferState) :
    (setInferState frames id state)[k]? =
      if id = k then (frames[k]?).map (fun f => { f with inferState := state }) else frames[k]? := by
  unfold setInferState
  cases h : frames[id]? with
  | none =>
    by_cases hk : id = k
    · subst k
      simp [h]
    · simp [hk]
  | some f =>
    rw [lookup_insert]
    by_cases hk : id = k
    · subst k
      simp [h]
    · simp [hk]

/-- Each frame is one from before, in the new state or in its own. -/
lemma setInferState_cases {frames : FrameMap} {id k : Int} {state : InferState} {f : FrameBundle}
    (hf : (setInferState frames id state)[k]? = some f) :
    ∃ g : FrameBundle, frames[k]? = some g ∧ (f = { g with inferState := state } ∨ f = g) := by
  rw [lookup_setInferState] at hf
  split at hf
  · obtain ⟨g, hg, rfl⟩ := Option.map_eq_some_iff.mp hf
    exact ⟨g, hg, .inl rfl⟩
  · exact ⟨f, hf, .inr rfl⟩

/-- What giving up the other frames does to one of them. -/
def giveUp (selected k : Int) (order : List Int) (f : FrameBundle) : FrameBundle :=
  if k ∈ order ∧ k ≠ selected ∧ isInferenceTerminal f.inferState = false then
    { f with inferState := .done }
  else f

lemma lookup_markOthersDone (selected k : Int) (frames : FrameMap) (order : List Int) :
    (StreamBuffer.markOthersDone selected frames order)[k]? =
      (frames[k]?).map (giveUp selected k order) := by
  induction order generalizing frames with
  | nil =>
    have hid : giveUp selected k [] = id := by
      funext f
      simp [giveUp]
    simp [StreamBuffer.markOthersDone, hid]
  | cons id order ih =>
    have hstep : StreamBuffer.markOthersDone selected frames (id :: order) =
        StreamBuffer.markOthersDone selected (match frames[id]? with
          | none => frames
          | some f =>
            if id = selected then frames
            else if isInferenceTerminal f.inferState then frames
            else frames.insert id { f with inferState := .done }) order := rfl
    rw [hstep, ih]
    by_cases hk : id = k
    · subst k
      cases h : frames[id]? with
      | none => simp [h]
      | some f =>
        by_cases hs : id = selected
        · subst selected
          simp [giveUp, h]
        · by_cases ht : isInferenceTerminal f.inferState = true
          · simp [hs, ht, giveUp, h]
          · have hd : isInferenceTerminal .done = true := rfl
            simp [hs, ht, giveUp, hd]
    · have hmem : ∀ f, giveUp selected k (id :: order) f = giveUp selected k order f := by
        intro f
        simp [giveUp, Ne.symm hk]
      simp only [funext hmem]
      congr 1
      cases h : frames[id]? with
      | none => rfl
      | some f =>
        dsimp only
        split
        · rfl
        · split
          · rfl
          · simp [lookup_insert, hk]

namespace StreamBuffer

/-- A packet is refused once the buffer is stopped, and appended otherwise. -/
lemma enqueuePacket_cases (b : StreamBuffer) (p : EncodedPacket) :
    (b.stopped = true ∧ b.enqueuePacket (some p) = (false, b)) ∨
    (b.stopped = false ∧ b.enqueuePacket (some p) = (true, { b with
      videoPacketCount := if p.mediaType = .video then b.videoPacketCount + 1 else b.videoPacketCount
      packets := b.packets ++ [p] })) := by
  cases hs : b.stopped with
  | true => simp [enqueuePacket, hs]
  | false => simp [enqueuePacket, hs]

/-- A frame is refused once the buffer is stopped, and stored under its id otherwise. -/
lemma enqueueFrame_cases (b : StreamBuffer) (f : FrameBundle) :
    (b.stopped = true ∧ b.enqueueFrame (some f) = (false, b)) ∨
    (b.stopped = false ∧ b.enqueueFrame (some f) = (true, { b with
      frames := b.frames.insert f.frameId f
      frameOrder := b.frameOrder ++ [f.frameId] })) := by
  cases hs : b.stopped with
  | true => simp [enqueueFrame, hs]
  | false => simp [enqueueFrame, hs]

/-- A frame of the buffer after `enqueueFrame` is the new one or was there before. -/
lemma lookup_enqueueFrame {b : StreamBuffer} {f g : FrameBundle} {k : Int}
    (h : (b.enqueueFrame (some f)).2.frames[k]? = some g) :
    (k = f.frameId ∧ g = f) ∨ b.frames[k]? = some g := by
  rcases b.enqueueFrame_cases f with ⟨-, he⟩ | ⟨-, he⟩ <;> rw [he] at h
  · exact .inr h
  · rw [lookup_insert] at h
    split at h
    · cases h
      exact .inl ⟨Eq.symm ‹_›, rfl⟩
    · exact .inr h

/-- `id` is the newest entry of the frame order whose frame is a candidate. -/
structure NewestIdle (b : StreamBuffer) (id : Int) (f : FrameBundle) : Prop where
  lookup : b.frames[id]? = some f
  candidate : f.isCandidate
  newest : ∃ older newer, b.frameOrder = older ++ id :: newer ∧
    ∀ k ∈ newer, ∀ g, b.frames[k]? = some g → ¬g.isCandidate

lemma newestIdleFrame_eq_some {b : StreamBuffer} {id : Int} {f : FrameBundle}
    (h : b.newestIdleFrame = some (id, f)) : b.NewestIdle id f := by
  unfold newestIdleFrame at h
  obtain ⟨newer, k, older, hrev, hk, hnewer⟩ := List.findSome?_eq_some_iff.mp h
  cases hf : b.frames[k]? with
  | none => simp [hf] at hk
  | some g =>
    simp only [hf] at hk
    split at hk
    · cases hk
    · rename_i himg
      split at hk
      · rename_i hidle
        cases hk
        refine ⟨hf, ⟨by simpa [Option.isSome_iff_ne_none] using himg, hidle⟩, older.reverse,
          newer.reverse, ?_, ?_⟩
        · rw [← List.reverse_inj, hrev]
          simp
        · intro k hk g hg hc
          have hn := hnewer k (List.mem_reverse.mp hk)
          have himg' : g.decodedImage.isNone = false := by simpa using hc.1
          simp only [hg, himg', Bool.false_eq_true, ite_false, hc.2, ite_true, reduceCtorEq] at hn
      · cases hk

lemma newestIdleFrame_eq_none {b : StreamBuffer} (h : b.newestIdleFrame = none) :
    ∀ k ∈ b.frameOrder, ∀ g, b.frames[k]? = some g → ¬g.isCandidate := by
  intro k hk g hg hc
  have hn := List.findSome?_eq_none_iff.mp h k (List.mem_reverse.mpr hk)
  have himg : g.decodedImage.isNone = false := by simpa using hc.1
  simp only [hg, himg, Bool.false_eq_true, ite_false, hc.2, ite_true, reduceCtorEq] at hn

/-- What a successful selection does: the newest candidate is selected and every other
unfinished frame of the order is given up. -/
lemma selectFrameForInference_cases (b : StreamBuffer) :
    (b.selectFrameForInference = (none, b) ∧
      ∀ k ∈ b.frameOrder, ∀ g, b.frames[k]? = some g → ¬g.isCandidate) ∨
    ∃ id f, b.NewestIdle id f ∧
      b.selectFrameForInference.1 = some { f with inferState := .selected } ∧
      b.selectFrameForInference.2 =
        { b with frames := markOthersDone id (setInferState b.frames id .selected) b.frameOrder } := by
  unfold selectFrameForInference
  cases h : b.newestIdleFrame with
  | none => exact .inl ⟨rfl, newestIdleFrame_eq_none h⟩
  | some p =>
    obtain ⟨id, f⟩ := p
    exact .inr ⟨id, f, newestIdleFrame_eq_some h, rfl, rfl⟩

lemma hasDecodedFrameLocked_iff (b : StreamBuffer) (excluded : Option Int) :
    b.hasDecodedFrameLocked excluded = true ↔
      ∃ k f, b.frames[k]? = some f ∧ excluded ≠ some k ∧ f.decodedImage.isSome = true := by
  unfold hasDecodedFrameLocked
  rw [any_toList_iff]
  simp

lemma inferringFrameIdLocked_eq_none {b : StreamBuffer} (h : b.inferringFrameIdLocked = none)
    {k : Int} (hk : k ∈ b.frameOrder) {f : FrameBundle} (hf : b.frames[k]? = some f)
    (hd : f.decodedImage.isSome = true) : isInferring f.inferState = false := by
  have hn := List.find?_eq_none.mp h k hk
  simpa [hf, hd] using hn

lemma inferringFrameIdLocked_eq_some {b : StreamBuffer} {k : Int}
    (h : b.inferringFrameIdLocked = some k) :
    ∃ f, b.frames[k]? = some f ∧ f.decodedImage.isSome = true ∧ isInferring f.inferState = true := by
  have hp := List.find?_some h
  cases hf : b.frames[k]? with
  | none => simp [hf] at hp
  | some f =>
    refine ⟨f, rfl, ?_⟩
    simpa [hf] using hp

/-- What an open gate says about a video packet at the front of the queue. -/
structure GatesOpen (b : StreamBuffer) (front : EncodedPacket) : Prop where
  inferring : ∀ id, b.inferringFrameIdLocked = some id → 0 ≤ front.frameId ∧ front.frameId < id
  present : 0 ≤ front.frameId → ∃ f, b.frames[front.frameId]? = some f
  reserve : 0 ≤ front.frameId → ∀ f, b.frames[front.frameId]? = some f →
    f.decodedImage.isSome = true → b.hasDecodedFrameLocked (some front.frameId) = true
  watermark : 1 < b.videoPacketCount

lemma videoGatesOpen_one {b : StreamBuffer} {front : EncodedPacket}
    (h : b.videoGatesOpen front 1 = true) : b.GatesOpen front := by
  unfold videoGatesOpen at h
  have hfree : ∀ id, b.inferringFrameIdLocked = some id →
      0 ≤ front.frameId ∧ front.frameId < id := by
    intro id hid
    by_contra hc
    have hb : front.frameId < 0 ∨ front.frameId ≥ id := by omega
    simp [hid, hb] at h
  have hopen : (match b.inferringFrameIdLocked with
      | some id => decide (front.frameId < 0 ∨ front.frameId ≥ id)
      | none => false) = false := by
    split
    · rename_i id hid
      obtain ⟨h0, hlt⟩ := hfree id hid
      simp only [decide_eq_false_iff_not]
      omega
    · rfl
  simp only [hopen, Bool.false_eq_true, ite_false] at h
  by_cases h0 : 0 ≤ front.frameId
  · simp only [h0, ite_true] at h
    cases hf : b.frames[front.frameId]? with
    | none => simp [hf] at h
    | some f =>
      simp only [hf] at h
      split at h
      · cases h
      · rename_i hres
        refine ⟨hfree, fun _ => ⟨f, hf⟩, fun _ g hg hd => ?_, by simpa using h⟩
        rw [hf] at hg
        cases hg
        simpa [hd] using hres
  · simp only [h0, ite_false, decide_eq_true_eq] at h
    exact ⟨hfree, fun h => absurd h h0, fun h => absurd h h0, h⟩

/-- The readiness check at watermark one: the front packet is audio, or the queue has no
video packet at all, or the front is a video packet and all its gates are open. -/
lemma waitForPublishable_one {b : StreamBuffer} (h : b.waitForPublishable 1 = true) :
    b.stopped = false ∧ ∃ front rest, b.packets = front :: rest ∧
      (b.videoPacketCount ≠ 0 → front.mediaType = .video → b.GatesOpen front) := by
  unfold waitForPublishable canPublishLocked at h
  rw [Bool.and_eq_true] at h
  refine ⟨by simpa using h.1, ?_⟩
  cases hp : b.packets with
  | nil => simp [hp] at h
  | cons front rest =>
    refine ⟨front, rest, rfl, fun hcount hvideo => videoGatesOpen_one ?_⟩
    simpa [hp, hcount, hvideo] using h.2

/-- Whether the frame of an id is there, and if so whether it has a picture. -/
def decodedAt (b : StreamBuffer) (id : Int) : Option Bool :=
  (b.frames[id]?).map (·.decodedImage.isSome)

lemma decodedAt_eq_some {b : StreamBuffer} {id : Int} {d : Bool} :
    b.decodedAt id = some d ↔ ∃ f, b.frames[id]? = some f ∧ f.decodedImage.isSome = d := by
  simp [decodedAt]

lemma present_iff_decodedAt (b : StreamBuffer) (id : Int) :
    (∃ f, b.frames[id]? = some f) ↔ ∃ d, b.decodedAt id = some d := by
  simp only [decodedAt_eq_some]
  constructor
  · rintro ⟨f, hf⟩
    exact ⟨_, f, hf, rfl⟩
  · rintro ⟨_, f, hf, -⟩
    exact ⟨f, hf⟩

lemma hasDecodedFrameLocked_iff_decodedAt (b : StreamBuffer) (excluded : Option Int) :
    b.hasDecodedFrameLocked excluded = true ↔
      ∃ k, excluded ≠ some k ∧ b.decodedAt k = some true := by
  rw [hasDecodedFrameLocked_iff]
  constructor
  · rintro ⟨k, f, hf, hk, hd⟩
    exact ⟨k, hk, decodedAt_eq_some.mpr ⟨f, hf, hd⟩⟩
  · rintro ⟨k, hk, hd⟩
    obtain ⟨f, hf, hd⟩ := decodedAt_eq_some.mp hd
    exact ⟨k, f, hf, hk, hd⟩

lemma decodedAt_releaseFrame (b : StreamBuffer) (id k : Int) :
    (b.releaseFrame id).decodedAt k = if id = k then none else b.decodedAt k := by
  simp only [decodedAt, releaseFrame, lookup_erase]
  split <;> rfl

/-- The entries that have not expired stay. -/
lemma lookup_purge (b : StreamBuffer) (now id : Int) (r : FrameInferenceResult) :
    (b.purgeExpiredCachedInferenceResultsLocked now).cachedInferenceResults[id]? = some r ↔
      b.cachedInferenceResults[id]? = some r ∧ now ≤ r.expireAtMonoMs := by
  unfold purgeExpiredCachedInferenceResultsLocked
  rw [TreeMap.getElem?_filter', Option.filter_eq_some_iff]
  simp

section take

variable (b : StreamBuffer) (visit : Traversal (Int × FrameInferenceResult)) (id pts now : Int)

/-- Taking a cached result changes the cache and nothing else. -/
lemma takeCachedInferenceResult_eq :
    (b.takeCachedInferenceResult visit id pts now).2 =
      { b with cachedInferenceResults :=
        (b.takeCachedInferenceResult visit id pts now).2.cachedInferenceResults } := by
  unfold takeCachedInferenceResult
  dsimp only
  split <;> rfl

@[simp] lemma takeCachedInferenceResult_packets :
    (b.takeCachedInferenceResult visit id pts now).2.packets = b.packets := by
  rw [takeCachedInferenceResult_eq]

@[simp] lemma takeCachedInferenceResult_frames :
    (b.takeCachedInferenceResult visit id pts now).2.frames = b.frames := by
  rw [takeCachedInferenceResult_eq]

@[simp] lemma takeCachedInferenceResult_frameOrder :
    (b.takeCachedInferenceResult visit id pts now).2.frameOrder = b.frameOrder := by
  rw [takeCachedInferenceResult_eq]

@[simp] lemma takeCachedInferenceResult_videoPacketCount :
    (b.takeCachedInferenceResult visit id pts now).2.videoPacketCount = b.videoPacketCount := by
  rw [takeCachedInferenceResult_eq]

@[simp] lemma takeCachedInferenceResult_stopped :
    (b.takeCachedInferenceResult visit id pts now).2.stopped = b.stopped := by
  rw [takeCachedInferenceResult_eq]

/-- What is in the cache afterwards was there before. -/
lemma lookup_takeCachedInferenceResult {b : StreamBuffer} {k : Int} {r : FrameInferenceResult}
    (h : (b.takeCachedInferenceResult visit id pts now).2.cachedInferenceResults[k]? = some r) :
    b.cachedInferenceResults[k]? = some r := by
  have hpurged : (b.purgeExpiredCachedInferenceResultsLocked now).cachedInferenceResults[k]? = some r := by
    unfold takeCachedInferenceResult at h
    dsimp only at h
    split at h
    · exact h
    · rw [lookup_erase] at h
      split at h
      · cases h
      · exact h
  exact ((lookup_purge b now k r).mp hpurged).1

end take

end StreamBuffer

end MediaAgent
