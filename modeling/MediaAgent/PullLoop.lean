import MediaAgent.PublishLoop
import MediaAgent.RTSPPuller

/-!
# The pull loop

`RTSPPuller::pullLoop` as a program counter between its buffer calls, on one buffer with
`publishLoop` and inference workers. The pull thread alone uses the pending frames, so
`publishDecodedFrames` is computed at once and its `enqueueFrame` calls are made one by one.
A video packet in the queue has its frame or is pending as long as no connection is closed with
frames pending; `closeStream` drops them without the placeholders that
`takePendingVideoFrameMeta` would enqueue.
-/

namespace MediaAgent
open Transition TreeMaps

/-- Where `pullLoop` stands: at the head of its outer loop, at the head of the read loop, inside
`publishDecodedFrames` with the bundles still to be enqueued, or returned. -/
inductive PullPc
  | opening
  | reading
  | publishing (bundles : List FrameBundle)
  | exited
  deriving DecidableEq

/-- What one turn of the read loop gets: an error of `av_read_frame`, or a packet, whether it can
be cloned, its timestamp in milliseconds, the time, and the decoder's output for it. -/
inductive ReadAnswer
  | error
  | packet (pkt : AVPacket) (cloned : Bool) (rescaled nowMonoMs : Int) (decodedFrames : List MppFrame)

structure PullState where
  publish : PublishState := {}
  puller : RTSPPuller := {}
  pc : PullPc := .opening
  stopFlag : Bool := false

namespace PullState

def closeStream (s : PullState) : PullState := { s with puller := s.puller.closeStream, pc := .opening }

/-- One turn of the outer loop up to the read loop. -/
def openStream (s : PullState) (answer : OpenAnswer) : PullState :=
  if s.stopFlag then { s with pc := .exited }
  else
    let (opened, puller) := s.puller.openStream answer
    if opened then { s with puller := puller, pc := .reading }
    else if puller.cfg.reconnectIntervalS ≤ 0 then { s with puller := puller, pc := .exited }
    else { s with puller := puller, pc := .opening }

/-- One turn of the read loop, up to the first `enqueueFrame`. -/
def readFrame (s : PullState) (answer : ReadAnswer) : PullState :=
  if s.stopFlag then s.closeStream
  else match answer with
  | .error => s.closeStream
  | .packet pkt cloned rescaled nowMonoMs decodedFrames =>
    if !cloned then s
    else
      let encoded := s.puller.encodedPacket pkt rescaled nowMonoMs
      if pkt.streamIndex = s.puller.videoStreamIdx then
        let encoded := { encoded with mediaType := .video, frameId := s.puller.nextFrameId }
        let (puller, bundles) := (s.puller.pushPending pkt encoded).publishDecodedFrames decodedFrames
        { s with publish := s.publish.enqueuePacket encoded, puller := puller, pc := .publishing bundles }
      else if pkt.streamIndex = s.puller.audioStreamIdx then
        { s with publish := s.publish.enqueuePacket { encoded with mediaType := .audio } }
      else s

/-- The next `enqueueFrame` of `publishDecodedFrames`. -/
def enqueueFrame (s : PullState) : List FrameBundle → PullState
  | [] => { s with pc := .reading }
  | bundle :: bundles => { s with publish := s.publish.enqueueFrame bundle, pc := .publishing bundles }

end PullState

inductive PullAction
  | openStream (answer : OpenAnswer)
  | readFrame (answer : ReadAnswer)
  | enqueueFrame
  | requestStop
  | worker (call : WorkerCall)
  | publish (context : TakeContext)
  | stopBuffer

/-- The puller of a stream, its buffer and the buffer's users. `stopStream` stops the buffer after
it has joined the pull thread; the `closeStream` in between finds the connection closed. -/
def pullSystem (cfg : StreamConfig) : Machine PullState PullAction where
  init := { puller := { cfg := cfg } }
  next s
    | .openStream answer =>
      match s.pc with
      | .opening => some (s.openStream answer)
      | _ => none
    | .readFrame answer =>
      match s.pc with
      | .reading => some (s.readFrame answer)
      | _ => none
    | .enqueueFrame =>
      match s.pc with
      | .publishing bundles => some (s.enqueueFrame bundles)
      | _ => none
    | .requestStop => some { s with stopFlag := true }
    | .worker c => some { s with publish := { s.publish with buffer := c.apply s.publish.buffer } }
    | .publish c => some { s with publish := s.publish.publish c }
    | .stopBuffer =>
      match s.pc with
      | .exited => some { s with publish := { s.publish with buffer := s.publish.buffer.stop } }
      | _ => none

section steps

variable {cfg : StreamConfig} {s t : PullState}

lemma pullSystem_openStream {answer : OpenAnswer}
    (hn : (pullSystem cfg).next s (.openStream answer) = some t) :
    s.pc = .opening ∧ t = s.openStream answer := by
  dsimp only [pullSystem] at hn
  split at hn
  · exact ⟨‹_›, (Option.some.inj hn).symm⟩
  · cases hn

lemma pullSystem_readFrame {answer : ReadAnswer}
    (hn : (pullSystem cfg).next s (.readFrame answer) = some t) :
    s.pc = .reading ∧ t = s.readFrame answer := by
  dsimp only [pullSystem] at hn
  split at hn
  · exact ⟨‹_›, (Option.some.inj hn).symm⟩
  · cases hn

lemma pullSystem_enqueueFrame (hn : (pullSystem cfg).next s .enqueueFrame = some t) :
    ∃ bundles, s.pc = .publishing bundles ∧ t = s.enqueueFrame bundles := by
  dsimp only [pullSystem] at hn
  split at hn
  · exact ⟨_, ‹_›, (Option.some.inj hn).symm⟩
  · cases hn

lemma pullSystem_stopBuffer (hn : (pullSystem cfg).next s .stopBuffer = some t) :
    s.pc = .exited ∧
      t = { s with publish := { s.publish with buffer := s.publish.buffer.stop } } := by
  dsimp only [pullSystem] at hn
  split at hn
  · exact ⟨‹_›, (Option.some.inj hn).symm⟩
  · cases hn

end steps

/-- The pull loop is at the head of one of its two loops. -/
def PullState.AtBoundary (s : PullState) : Prop := s.pc = .opening ∨ s.pc = .reading

/-- Every video packet in the queue has its frame in `frames_` or is pending. -/
def PullState.Covered (s : PullState) : Prop :=
  ∀ packet ∈ s.publish.buffer.packets, packet.mediaType = .video →
    (∃ f, s.publish.buffer.frames[packet.frameId]? = some f) ∨
      ∃ entry ∈ s.puller.pendingVideoFrames, entry.frameId = packet.frameId

/-- The turn of the read loop ends in `closeStream`. -/
def PullState.closes (s : PullState) (answer : ReadAnswer) : Bool :=
  s.stopFlag || match answer with
    | .error => true
    | .packet .. => false

/-- A step that closes the connection does so with no frame pending. -/
def closesEmpty (s : PullState) : PullAction → Bool
  | .readFrame answer => !s.closes answer || s.puller.pendingVideoFrames.isEmpty
  | _ => true

/-! ## The ids that still need a frame -/

/-- The ids of the bundles on their way and of the entries that are pending. -/
def PullState.unsettled (s : PullState) : List Int :=
  (match s.pc with
    | .publishing bundles => bundles.map (·.frameId)
    | _ => []) ++ s.puller.pendingIds

/-- The buffer and its publisher, the next frame id, and the ids that still need a frame. -/
structure Ledger where
  publish : PublishState
  nextFrameId : Int
  unsettled : List Int

def PullState.ledger (s : PullState) : Ledger := ⟨s.publish, s.puller.nextFrameId, s.unsettled⟩

/-- What a step other than a close with frames pending does to the ledger. -/
inductive Ledger.Step : Ledger → Ledger → Prop
  | silent (l : Ledger) : Step l l
  | worker (l : Ledger) (c : WorkerCall) :
    Step l { l with publish := { l.publish with buffer := c.apply l.publish.buffer } }
  | publish (l : Ledger) (c : TakeContext) : Step l { l with publish := l.publish.publish c }
  | video (l : Ledger) (packet : EncodedPacket) (hvideo : packet.mediaType = .video)
    (hid : packet.frameId = l.nextFrameId) (hopen : l.publish.buffer.stopped = false) :
    Step l ⟨l.publish.enqueuePacket packet, l.nextFrameId + 1, l.unsettled ++ [l.nextFrameId]⟩
  | audio (l : Ledger) (packet : EncodedPacket) (haudio : packet.mediaType ≠ .video) :
    Step l { l with publish := l.publish.enqueuePacket packet }
  | frame (s : PublishState) (n : Int) (f : FrameBundle) (rest : List Int)
    (hopen : s.buffer.stopped = false) : Step ⟨s, n, f.frameId :: rest⟩ ⟨s.enqueueFrame f, n, rest⟩
  | stop (l : Ledger) :
    Step l { l with publish := { l.publish with buffer := l.publish.buffer.stop } }

/-- Nothing is pending outside a connection, and the buffer is stopped after the pull loop. -/
structure PullState.Wf (s : PullState) : Prop where
  closed : s.pc = .opening ∨ s.pc = .exited → s.puller.pendingIds = []
  stopped : s.publish.buffer.stopped = true → s.pc = .exited

namespace WorkerCall

@[simp] lemma apply_stopped (c : WorkerCall) (b : StreamBuffer) : (c.apply b).stopped = b.stopped := by
  obtain ⟨frames, results, h⟩ := c.apply_eq b
  rw [h]

end WorkerCall

namespace PublishState

lemma publish_stopped (s : PublishState) (c : TakeContext) :
    (s.publish c).buffer.stopped = s.buffer.stopped := by
  rcases publish_cases s c with ⟨cache, hb, -⟩ | ⟨p, -, hb, -⟩ | ⟨p, -, hb, -⟩ <;> rw [hb]
  · unfold StreamBuffer.popPacket
    split <;> rfl
  · rfl

lemma enqueuePacket_stopped (s : PublishState) (packet : EncodedPacket) :
    (s.enqueuePacket packet).buffer.stopped = s.buffer.stopped := by
  rcases s.buffer.enqueuePacket_cases packet with ⟨-, h⟩ | ⟨-, h⟩ <;> simp [enqueuePacket, h]

lemma enqueueFrame_stopped (s : PublishState) (f : FrameBundle) :
    (s.enqueueFrame f).buffer.stopped = s.buffer.stopped := by
  rcases s.buffer.enqueueFrame_cases f with ⟨-, h⟩ | ⟨-, h⟩ <;> simp [enqueueFrame, h]

end PublishState

namespace PullState

lemma Wf.open_of_pc {s : PullState} (h : s.Wf) (hpc : s.pc ≠ .exited) :
    s.publish.buffer.stopped = false :=
  Bool.eq_false_iff.mpr fun hs => hpc (h.stopped hs)

/-- Closing keeps the buffer and the next frame id, and leaves nothing pending. -/
lemma Wf.closeStream {s : PullState} (h : s.Wf) (hpc : s.pc ≠ .exited) :
    s.closeStream.Wf ∧ s.closeStream.ledger = { s.ledger with unsettled := [] } := by
  refine ⟨⟨fun _ => rfl, fun hs => ?_⟩, rfl⟩
  exact absurd (h.stopped hs) hpc

/-- At the heads of the loops the ids that need a frame are those of the pending frames. -/
lemma unsettled_boundary {s : PullState} (h : s.AtBoundary) : s.unsettled = s.puller.pendingIds := by
  rcases h with hpc | hpc <;> simp [unsettled, hpc]

/-- A turn of the outer loop finds nothing pending and leaves nothing pending. -/
lemma Wf.openStream {s : PullState} (h : s.Wf) (hpc : s.pc = .opening) (answer : OpenAnswer) :
    (s.openStream answer).Wf ∧ (s.openStream answer).ledger = s.ledger := by
  have hopen : s.publish.buffer.stopped ≠ true := by
    rw [h.open_of_pc (by simp [hpc])]
    exact Bool.false_ne_true
  have hnone := h.closed (.inl hpc)
  have hnone' := RTSPPuller.openStream_pendingIds hnone answer
  have hnext := s.puller.openStream_nextFrameId answer
  have hbefore : s.ledger = ⟨s.publish, s.puller.nextFrameId, []⟩ := by
    simp [ledger, unsettled, hpc, hnone]
  rw [hbefore]
  unfold PullState.openStream
  split
  · exact ⟨⟨fun _ => hnone, fun _ => rfl⟩, by simp [ledger, unsettled, hnone]⟩
  · dsimp only
    split
    · exact ⟨⟨fun _ => hnone', fun hs => absurd hs hopen⟩, by simp [ledger, unsettled, hnext, hnone']⟩
    · split
      · exact ⟨⟨fun _ => hnone', fun hs => absurd hs hopen⟩, by simp [ledger, unsettled, hnext, hnone']⟩
      · exact ⟨⟨fun _ => hnone', fun hs => absurd hs hopen⟩, by simp [ledger, unsettled, hnext, hnone']⟩

lemma readFrame_of_closes {s : PullState} {answer : ReadAnswer} (h : s.closes answer = true) :
    s.readFrame answer = s.closeStream := by
  unfold PullState.readFrame
  cases hstop : s.stopFlag with
  | true => rfl
  | false =>
    cases answer with
    | error => rfl
    | packet => simp [closes, hstop] at h

/-- A turn of the read loop that does not close the connection. -/
lemma Wf.readFrame {s : PullState} (h : s.Wf) (hpc : s.pc = .reading) {answer : ReadAnswer}
    (hstay : s.closes answer = false) :
    (s.readFrame answer).Wf ∧ Ledger.Step s.ledger (s.readFrame answer).ledger := by
  have hopen := h.open_of_pc (by simp [hpc])
  simp only [closes, Bool.or_eq_false_iff] at hstay
  unfold PullState.readFrame
  rw [hstay.1]
  cases answer with
  | error => cases hstay.2
  | packet pkt cloned rescaled nowMonoMs decodedFrames =>
    cases cloned with
    | false => exact ⟨h, .silent _⟩
    | true =>
      simp only [Bool.not_true, Bool.false_eq_true, ite_false]
      split
      · -- the new packet is pending before the decoder's output is matched
        generalize hencoded : { s.puller.encodedPacket pkt rescaled nowMonoMs with
          mediaType := .video, frameId := s.puller.nextFrameId } = encoded
        obtain ⟨hids, hnext⟩ := (s.puller.pushPending pkt encoded).publishDecodedFrames_ids decodedFrames
        refine ⟨⟨fun hc => ?_, fun hs => ?_⟩, ?_⟩
        · rcases hc with hc | hc <;> cases hc
        · rw [PublishState.enqueuePacket_stopped, hopen] at hs
          cases hs
        · have hvideo : encoded.mediaType = .video := by rw [← hencoded]
          have hid : encoded.frameId = s.ledger.nextFrameId := by rw [← hencoded]; rfl
          have hstep := Ledger.Step.video s.ledger encoded hvideo hid hopen
          have hunsettled : s.ledger.unsettled = s.puller.pendingIds := unsettled_boundary (.inr hpc)
          have hpushed : (s.puller.pushPending pkt encoded).pendingIds =
              s.puller.pendingIds ++ [s.puller.nextFrameId] := by
            simp [RTSPPuller.pushPending, RTSPPuller.pendingIds]
          rw [hunsettled] at hstep
          rw [hpushed] at hids
          simp only [ledger, unsettled]
          rw [hids, hnext]
          exact hstep
      · split
        · refine ⟨⟨fun hc => ?_, fun hs => ?_⟩, ?_⟩
          · rcases hc with hc | hc <;> rw [hpc] at hc <;> cases hc
          · rw [PublishState.enqueuePacket_stopped, hopen] at hs
            cases hs
          · exact .audio s.ledger _ (by simp)
        · exact ⟨h, .silent _⟩

lemma Wf.enqueueFrame {s : PullState} (h : s.Wf) {bundles : List FrameBundle}
    (hpc : s.pc = .publishing bundles) :
    (s.enqueueFrame bundles).Wf ∧ Ledger.Step s.ledger (s.enqueueFrame bundles).ledger := by
  have hopen := h.open_of_pc (by simp [hpc])
  cases bundles with
  | nil =>
    have hsame : (s.enqueueFrame []).ledger = s.ledger := by simp [PullState.enqueueFrame, ledger, unsettled, hpc]
    rw [hsame]
    refine ⟨⟨fun hc => ?_, fun hs => ?_⟩, .silent _⟩
    · rcases hc with hc | hc <;> cases hc
    · exact absurd (h.stopped hs) (by simp [hpc])
  | cons bundle bundles =>
    refine ⟨⟨fun hc => ?_, fun hs => ?_⟩, ?_⟩
    · rcases hc with hc | hc <;> cases hc
    · simp only [PullState.enqueueFrame, PublishState.enqueueFrame_stopped, hopen] at hs
      cases hs
    · have hbefore : s.ledger = ⟨s.publish, s.puller.nextFrameId,
          bundle.frameId :: (bundles.map (·.frameId) ++ s.puller.pendingIds)⟩ := by
        simp [ledger, unsettled, hpc]
      rw [hbefore]
      exact .frame s.publish s.puller.nextFrameId bundle _ hopen

/-- Every step of the system is a step of the ledger, except for a close with frames pending,
which drops their ids. -/
theorem Wf.next {s t : PullState} {cfg : StreamConfig} {a : PullAction} (h : s.Wf)
    (hn : (pullSystem cfg).next s a = some t) :
    t.Wf ∧ (closesEmpty s a = true → Ledger.Step s.ledger t.ledger) ∧
      (closesEmpty s a = false →
        t.pc = .opening ∧ s.unsettled ≠ [] ∧ t.ledger = { s.ledger with unsettled := [] }) := by
  cases a with
  | openStream answer =>
    obtain ⟨hpc, rfl⟩ := pullSystem_openStream hn
    obtain ⟨hwf, hsame⟩ := h.openStream hpc answer
    exact ⟨hwf, fun _ => hsame ▸ .silent _, fun hc => by cases hc⟩
  | readFrame answer =>
    obtain ⟨hpc, rfl⟩ := pullSystem_readFrame hn
    cases hcloses : s.closes answer with
    | false =>
      obtain ⟨hwf, hstep⟩ := h.readFrame hpc hcloses
      exact ⟨hwf, fun _ => hstep, fun hc => by simp [closesEmpty, hcloses] at hc⟩
    | true =>
      obtain ⟨hwf, hledger⟩ := h.closeStream (by simp [hpc])
      rw [readFrame_of_closes hcloses]
      refine ⟨hwf, fun hc => ?_, fun hc => ⟨rfl, ?_, hledger⟩⟩
      · have hnone : s.ledger.unsettled = [] := by
          simpa [ledger, unsettled_boundary (.inr hpc), RTSPPuller.pendingIds, closesEmpty, hcloses] using hc
        rw [hledger, ← hnone]
        exact .silent _
      · simpa [unsettled_boundary (.inr hpc), RTSPPuller.pendingIds, closesEmpty, hcloses] using hc
  | enqueueFrame =>
    obtain ⟨bundles, hpc, rfl⟩ := pullSystem_enqueueFrame hn
    obtain ⟨hwf, hstep⟩ := h.enqueueFrame hpc
    exact ⟨hwf, fun _ => hstep, fun hc => by cases hc⟩
  | requestStop =>
    cases hn
    exact ⟨⟨h.closed, h.stopped⟩, fun _ => .silent _, fun hc => by cases hc⟩
  | worker c =>
    cases hn
    exact ⟨⟨h.closed, fun hs => h.stopped (by simpa using hs)⟩, fun _ => .worker s.ledger c,
      fun hc => by cases hc⟩
  | publish c =>
    cases hn
    exact ⟨⟨h.closed, fun hs => h.stopped ((s.publish.publish_stopped c) ▸ hs)⟩,
      fun _ => .publish s.ledger c, fun hc => by cases hc⟩
  | stopBuffer =>
    obtain ⟨hpc, rfl⟩ := pullSystem_stopBuffer hn
    exact ⟨⟨h.closed, fun _ => hpc⟩, fun _ => .stop s.ledger, fun hc => by cases hc⟩

end PullState

end MediaAgent
