import Mathlib.Data.List.Flatten
import Mathlib.Data.List.Induction
import MediaAgent.FrameLedger

/-!
# The alignment of frames and packets

What the puller reads and what it hands to `enqueueFrame`, connection by connection. The bundles of a
connection carry the ids of its video packets, in order and without a gap, from the first packet on; the
picture of a frame that the decoder returns is in the bundle of the packet that the frame belongs to at that
time, and no other bundle has one.
-/

namespace MediaAgent
open Transition

/-- The ids from one on. -/
def idRun (first : Int) (n : Nat) : List Int := (List.range n).map fun i => first + Int.ofNat i

lemma idRun_succ (first : Int) (n : Nat) : idRun first (n + 1) = idRun first n ++ [first + Int.ofNat n] := by
  rw [idRun, List.range_succ, List.map_append]
  rfl

/-! ## The matching rule -/

/-- The entry at a position is the oldest one with the timestamp of the frame. -/
def OldestWith (timestamp : PendingVideoFrameMeta → Int) (value : Int) (pending : List PendingVideoFrameMeta)
    (i : Nat) : Prop :=
  value ≠ avNoptsValue ∧ (pending[i]?).map timestamp = some value ∧
    ∀ j < i, (pending[j]?).map timestamp ≠ some value

/-- No entry has the timestamp of the frame, or the frame has none. -/
def NoneWith (timestamp : PendingVideoFrameMeta → Int) (value : Int) (pending : List PendingVideoFrameMeta) : Prop :=
  value ≠ avNoptsValue → ∀ entry ∈ pending, timestamp entry ≠ value

/-- The position of the pending packet that a frame belongs to: the oldest with its pts, else the oldest with
its dts, else, when the frame has neither timestamp, the oldest of all. -/
inductive BelongsTo (pending : List PendingVideoFrameMeta) (frame : MppFrame) (i : Nat) : Prop
  | pts (h : OldestWith (·.pts) frame.pts pending i)
  | dts (hpts : NoneWith (·.pts) frame.pts pending) (h : OldestWith (·.dts) frame.dts pending i)
  | oldest (hpts : frame.pts = avNoptsValue) (hdts : frame.dts = avNoptsValue) (hi : i = 0) (hne : pending ≠ [])

/-- One turn of the loop of `publishDecodedFrames`: the entries in front of the one that the frame belongs to are
enqueued without a picture, that one is enqueued with the frame's picture, and the rest stays; nothing is
enqueued for a frame that belongs to none. -/
structure Aligned (p : RTSPPuller) (bundles : List FrameBundle) (frame : MppFrame) : Prop where
  hit : ∀ i, BelongsTo p.pendingVideoFrames frame i → ∃ entry, p.pendingVideoFrames[i]? = some entry ∧
    (RTSPPuller.publishDecodedFrame (p, bundles) frame).1.pendingVideoFrames = p.pendingVideoFrames.drop (i + 1) ∧
    (RTSPPuller.publishDecodedFrame (p, bundles) frame).2 =
      bundles ++ (p.pendingVideoFrames.take i).map (fun entry => p.pendingFrame entry none) ++
        [p.pendingFrame entry frame.image]
  miss : (∀ i, ¬BelongsTo p.pendingVideoFrames frame i) →
    RTSPPuller.publishDecodedFrame (p, bundles) frame = (p, bundles)

lemma findPending_eq_some {timestamp : PendingVideoFrameMeta → Int} {value : Int}
    {pending : List PendingVideoFrameMeta} {i : Nat} :
    findPending timestamp value pending = some i ↔ OldestWith timestamp value pending i := by
  unfold findPending OldestWith
  by_cases hset : value = avNoptsValue
  · simp [hset]
  · rw [if_neg hset, List.findIdx?_eq_some_iff_getElem]
    constructor
    · rintro ⟨hlt, hhit, hbefore⟩
      refine ⟨hset, ?_, fun j hj => ?_⟩
      · rw [List.getElem?_eq_getElem hlt, Option.map_some, beq_iff_eq.mp hhit]
      · rw [List.getElem?_eq_getElem (hj.trans hlt), Option.map_some]
        simpa using hbefore j hj
    · rintro ⟨-, hhit, hbefore⟩
      obtain ⟨entry, hentry, hvalue⟩ := Option.map_eq_some_iff.mp hhit
      obtain ⟨hlt, rfl⟩ := List.getElem?_eq_some_iff.mp hentry
      refine ⟨hlt, beq_iff_eq.mpr hvalue, fun j hj => ?_⟩
      have hne := hbefore j hj
      rw [List.getElem?_eq_getElem (hj.trans hlt), Option.map_some] at hne
      simpa using hne

lemma findPending_eq_none {timestamp : PendingVideoFrameMeta → Int} {value : Int}
    {pending : List PendingVideoFrameMeta} :
    findPending timestamp value pending = none ↔ NoneWith timestamp value pending := by
  unfold findPending NoneWith
  by_cases hset : value = avNoptsValue
  · simp [hset]
  · rw [if_neg hset, List.findIdx?_eq_none_iff]
    simp [hset]

/-- A frame belongs to the entry that the search finds, or to the first one when it has no timestamp. -/
lemma belongsTo_iff {pending : List PendingVideoFrameMeta} {frame : MppFrame} {i : Nat} :
    BelongsTo pending frame i ↔
      (findPending (·.pts) frame.pts pending).or (findPending (·.dts) frame.dts pending) = some i ∨
        (frame.pts = avNoptsValue ∧ frame.dts = avNoptsValue ∧ i = 0 ∧ pending ≠ []) := by
  rw [Option.or_eq_some_iff, findPending_eq_some, findPending_eq_some, findPending_eq_none]
  constructor
  · intro h
    cases h with
    | pts h => exact .inl (.inl h)
    | dts hpts h => exact .inl (.inr ⟨hpts, h⟩)
    | oldest hpts hdts hi hne => exact .inr ⟨hpts, hdts, hi, hne⟩
  · rintro ((h | ⟨hpts, h⟩) | ⟨hpts, hdts, hi, hne⟩)
    · exact .pts h
    · exact .dts hpts h
    · exact .oldest hpts hdts hi hne

/-- What is taken for a frame that belongs to an entry. -/
lemma take_of_belongsTo {pending : List PendingVideoFrameMeta} {frame : MppFrame} {i : Nat}
    (h : BelongsTo pending frame i) : ∃ entry, pending[i]? = some entry ∧
      takePendingVideoFrameMeta pending frame =
        { taken := some entry, placeholders := pending.take i, pending := pending.drop (i + 1) } := by
  cases pending with
  | nil =>
    cases h with
    | pts h => cases h.2.1
    | dts _ h => cases h.2.1
    | oldest _ _ _ hne => exact absurd rfl hne
  | cons front rest =>
    unfold takePendingVideoFrameMeta
    rcases belongsTo_iff.mp h with hfound | ⟨hpts, hdts, rfl, -⟩
    · have hlt : i < (front :: rest).length := by
        rcases Option.or_eq_some_iff.mp hfound with hi | ⟨-, hi⟩
        · exact findPending_lt hi
        · exact findPending_lt hi
      refine ⟨(front :: rest)[i], List.getElem?_eq_getElem hlt, ?_⟩
      simp only [hfound]
      rw [List.getElem?_eq_getElem hlt]
    · exact ⟨front, rfl, by simp [findPending, hpts, hdts]⟩

/-- Nothing is taken for a frame that belongs to no entry. -/
lemma take_of_not_belongsTo {pending : List PendingVideoFrameMeta} {frame : MppFrame}
    (h : ∀ i, ¬BelongsTo pending frame i) :
    takePendingVideoFrameMeta pending frame = { pending := pending } := by
  cases pending with
  | nil => rfl
  | cons front rest =>
    have hnone : (findPending (·.pts) frame.pts (front :: rest)).or
        (findPending (·.dts) frame.dts (front :: rest)) = none := by
      rw [Option.eq_none_iff_forall_ne_some]
      exact fun i hi => h i (belongsTo_iff.mpr (.inl hi))
    have hset : ¬(frame.pts = avNoptsValue ∧ frame.dts = avNoptsValue) :=
      fun hunset => h 0 (.oldest hunset.1 hunset.2 rfl (by simp))
    unfold takePendingVideoFrameMeta
    simp only [hnone]
    rw [if_neg hset]

lemma aligned (p : RTSPPuller) (bundles : List FrameBundle) (frame : MppFrame) : Aligned p bundles frame := by
  constructor
  · intro i h
    obtain ⟨entry, hentry, htake⟩ := take_of_belongsTo h
    refine ⟨entry, hentry, ?_⟩
    simp only [RTSPPuller.publishDecodedFrame, htake]
    exact ⟨trivial, trivial⟩
  · intro h
    simp only [RTSPPuller.publishDecodedFrame, take_of_not_belongsTo h]
    simp

lemma OldestWith.unique {timestamp : PendingVideoFrameMeta → Int} {value : Int} {pending : List PendingVideoFrameMeta}
    {i j : Nat} (hi : OldestWith timestamp value pending i) (hj : OldestWith timestamp value pending j) : i = j :=
  Option.some.inj ((findPending_eq_some.mpr hi).symm.trans (findPending_eq_some.mpr hj))

lemma OldestWith.not_noneWith {timestamp : PendingVideoFrameMeta → Int} {value : Int}
    {pending : List PendingVideoFrameMeta} {i : Nat} (h : OldestWith timestamp value pending i) :
    ¬NoneWith timestamp value pending := by
  intro hnone
  have hfound := findPending_eq_some.mpr h
  rw [findPending_eq_none.mpr hnone] at hfound
  cases hfound

/-- A frame belongs to one entry at most. -/
lemma BelongsTo.unique {pending : List PendingVideoFrameMeta} {frame : MppFrame} {i j : Nat}
    (hi : BelongsTo pending frame i) (hj : BelongsTo pending frame j) : i = j := by
  cases hi with
  | pts hi =>
    cases hj with
    | pts hj => exact hi.unique hj
    | dts hnone _ => exact absurd hnone hi.not_noneWith
    | oldest hunset _ _ _ => exact absurd hunset hi.1
  | dts hnone hi =>
    cases hj with
    | pts hj => exact absurd hnone hj.not_noneWith
    | dts _ hj => exact hi.unique hj
    | oldest _ hunset _ _ => exact absurd hunset hi.1
  | oldest hpts hdts hi _ =>
    cases hj with
    | pts hj => exact absurd hpts hj.1
    | dts _ hj => exact absurd hdts hj.1
    | oldest _ _ hj _ => exact hi.trans hj.symm

/-! ## What comes of the events of a connection -/

/-- A video packet is read, or the decoder returns a frame. -/
inductive ConnectionEvent
  | read (packet : EncodedPacket)
  | decoded (frame : MppFrame)
  deriving DecidableEq, Repr

def ConnectionEvent.packet? : ConnectionEvent → Option EncodedPacket
  | .read packet => some packet
  | .decoded _ => none

/-- The entry of `pending_video_frames_` for a packet. -/
def pendingMeta (packet : EncodedPacket) : PendingVideoFrameMeta where
  frameId := packet.frameId
  pts := packet.pts
  dts := packet.dts
  duration := packet.duration
  timestampMs := packet.timestampMs
  isKeyframe := packet.isKeyframe

/-- The id and the picture of a bundle. -/
def FrameBundle.pictured (bundle : FrameBundle) : Int × Option DmaImage := (bundle.frameId, bundle.decodedImage)

/-- From the entries of `pending` on, the events enqueue these ids with these pictures, in this order, and leave the
entries of `rest` pending. A packet that is read is pending. A frame that belongs to a pending packet takes it
and all before it out of the pending ones: its picture goes to that packet, and those before it have none. -/
inductive Enqueues : List PendingVideoFrameMeta → List ConnectionEvent → List (Int × Option DmaImage) →
    List PendingVideoFrameMeta → Prop
  | nil (pending : List PendingVideoFrameMeta) : Enqueues pending [] [] pending
  | read {pending rest : List PendingVideoFrameMeta} {packet : EncodedPacket} {events : List ConnectionEvent}
    {enqueued : List (Int × Option DmaImage)} (h : Enqueues (pending ++ [pendingMeta packet]) events enqueued rest) :
    Enqueues pending (.read packet :: events) enqueued rest
  | hit {pending rest : List PendingVideoFrameMeta} {frame : MppFrame} {events : List ConnectionEvent}
    {enqueued : List (Int × Option DmaImage)} {i : Nat} {entry : PendingVideoFrameMeta}
    (hi : BelongsTo pending frame i) (hentry : pending[i]? = some entry)
    (h : Enqueues (pending.drop (i + 1)) events enqueued rest) :
    Enqueues pending (.decoded frame :: events)
      ((pending.take i).map (fun entry => (entry.frameId, none)) ++ (entry.frameId, frame.image) :: enqueued) rest
  | miss {pending rest : List PendingVideoFrameMeta} {frame : MppFrame} {events : List ConnectionEvent}
    {enqueued : List (Int × Option DmaImage)} (hmiss : ∀ i, ¬BelongsTo pending frame i)
    (h : Enqueues pending events enqueued rest) : Enqueues pending (.decoded frame :: events) enqueued rest

namespace Enqueues

variable {pending rest rest' : List PendingVideoFrameMeta} {events events' : List ConnectionEvent}
  {enqueued enqueued' : List (Int × Option DmaImage)}

lemma append (h : Enqueues pending events enqueued rest) (h' : Enqueues rest events' enqueued' rest') :
    Enqueues pending (events ++ events') (enqueued ++ enqueued') rest' := by
  induction h with
  | nil => exact h'
  | read _ ih => exact .read (ih h')
  | hit hi hentry _ ih =>
    rw [List.append_assoc, List.cons_append]
    exact .hit hi hentry (ih h')
  | miss hmiss _ ih => exact .miss hmiss (ih h')

lemma split (h : Enqueues pending (events ++ events') enqueued rest) :
    ∃ before between after, Enqueues pending events before between ∧ Enqueues between events' after rest ∧
      enqueued = before ++ after := by
  induction events generalizing pending enqueued with
  | nil => exact ⟨[], pending, enqueued, .nil pending, h, rfl⟩
  | cons event events ih =>
    cases h with
    | read h =>
      obtain ⟨before, between, after, hbefore, hafter, rfl⟩ := ih h
      exact ⟨before, between, after, .read hbefore, hafter, rfl⟩
    | hit hi hentry h =>
      obtain ⟨before, between, after, hbefore, hafter, rfl⟩ := ih h
      exact ⟨_, between, after, .hit hi hentry hbefore, hafter, by rw [List.append_assoc, List.cons_append]⟩
    | miss hmiss h =>
      obtain ⟨before, between, after, hbefore, hafter, rfl⟩ := ih h
      exact ⟨before, between, after, .miss hmiss hbefore, hafter, rfl⟩

lemma rest_unique (h : Enqueues pending events enqueued rest) (h' : Enqueues pending events enqueued' rest') :
    rest = rest' := by
  induction h generalizing enqueued' with
  | nil =>
    cases h'
    rfl
  | read _ ih =>
    cases h' with
    | read h' => exact ih h'
  | hit hi _ _ ih =>
    cases h' with
    | hit hi' _ h' =>
      obtain rfl := hi.unique hi'
      exact ih h'
    | miss hmiss _ => exact absurd hi (hmiss _)
  | miss hmiss _ ih =>
    cases h' with
    | hit hi' _ _ => exact absurd hi' (hmiss _)
    | miss _ h' => exact ih h'

/-- Every picture that is enqueued is the one of a frame that the decoder returned. -/
lemma images (h : Enqueues pending events enqueued rest) {id : Int} {image : DmaImage}
    (hmem : (id, some image) ∈ enqueued) : ∃ frame, .decoded frame ∈ events ∧ frame.image = some image := by
  induction h with
  | nil => cases hmem
  | read _ ih =>
    obtain ⟨frame, hframe, himage⟩ := ih hmem
    exact ⟨frame, List.mem_cons_of_mem _ hframe, himage⟩
  | hit _ _ _ ih =>
    rw [List.mem_append, List.mem_map, List.mem_cons] at hmem
    rcases hmem with ⟨_, _, hskipped⟩ | htaken | hlater
    · cases hskipped
    · exact ⟨_, List.mem_cons_self .., (Prod.mk.inj htaken).2.symm⟩
    · obtain ⟨frame, hframe, himage⟩ := ih hlater
      exact ⟨frame, List.mem_cons_of_mem _ hframe, himage⟩
  | miss _ _ ih =>
    obtain ⟨frame, hframe, himage⟩ := ih hmem
    exact ⟨frame, List.mem_cons_of_mem _ hframe, himage⟩

/-- The loop of `publishDecodedFrames`. -/
lemma publishDecodedFrames (p : RTSPPuller) (frames : List MppFrame) :
    Enqueues p.pendingVideoFrames (frames.map .decoded) ((p.publishDecodedFrames frames).2.map (·.pictured))
      (p.publishDecodedFrames frames).1.pendingVideoFrames := by
  induction frames using List.reverseRecOn with
  | nil => exact .nil _
  | append_singleton frames frame ih =>
    unfold RTSPPuller.publishDecodedFrames at ih ⊢
    rw [List.foldl_append, List.foldl_cons, List.foldl_nil, List.map_append]
    generalize frames.foldl RTSPPuller.publishDecodedFrame (p, []) = acc at ih ⊢
    obtain ⟨q, bundles⟩ := acc
    by_cases hfound : ∃ i, BelongsTo q.pendingVideoFrames frame i
    · obtain ⟨i, hi⟩ := hfound
      obtain ⟨entry, hentry, hrest, hbundles⟩ := (aligned q bundles frame).hit i hi
      rw [hrest, hbundles, List.append_assoc, List.map_append]
      apply ih.append
      have hlast := Enqueues.hit hi hentry (.nil _)
      rw [List.map_append, List.map_map]
      exact hlast
    · have hmiss := not_exists.mp hfound
      rw [(aligned q bundles frame).miss hmiss, ← List.append_nil (bundles.map _)]
      exact ih.append (.miss hmiss (.nil _))

end Enqueues

/-! ## The connections of a run -/

/-- The packets that a connection has read and the frames that its decoder has returned, and the bundles that it has
handed to `enqueueFrame`; an empty one stands before the first connection. -/
structure Connection where
  events : List ConnectionEvent := []
  bundles : List FrameBundle := []

namespace Connection

def packets (c : Connection) : List EncodedPacket := c.events.filterMap ConnectionEvent.packet?

def packetIds (c : Connection) : List Int := c.packets.map (·.frameId)

def bundleIds (c : Connection) : List Int := c.bundles.map (·.frameId)

/-- The ids that were handed to `enqueueFrame`, with their pictures. -/
def handed (c : Connection) : List (Int × Option DmaImage) := c.bundles.map (·.pictured)

/-- Whenever the decoder returned a frame that belonged to one of the packets pending then, the bundle of this packet
has the picture of the frame. -/
def DeliversEach (c : Connection) : Prop :=
  ∀ before frame after, c.events = before ++ .decoded frame :: after →
    ∀ enqueued pending, Enqueues [] before enqueued pending →
      ∀ i entry, BelongsTo pending frame i → pending[i]? = some entry →
        ∃ bundle ∈ c.bundles, bundle.frameId = entry.frameId ∧ bundle.decodedImage = frame.image

end Connection

/-- The video packet that a turn of the read loop accepts, and the decoder's output for it. -/
def PullState.videoPacket (s : PullState) : ReadAnswer → Option (EncodedPacket × List MppFrame)
  | .error => none
  | .packet pkt cloned rescaled nowMonoMs decodedFrames =>
    if s.stopFlag = false ∧ cloned = true ∧ pkt.streamIndex = s.puller.videoStreamIdx then
      some ({ s.puller.encodedPacket pkt rescaled nowMonoMs with
        mediaType := .video, frameId := s.puller.nextFrameId }, decodedFrames)
    else none

/-- The bundle that a step hands to `enqueueFrame`. -/
def PullState.handedBundle (s : PullState) : Option FrameBundle :=
  match s.pc with
  | .publishing (bundle :: _) => some bundle
  | _ => none

/-- The puller, with the connections that it has closed and the one that it has opened last. -/
structure AlignmentState where
  pull : PullState
  past : List Connection := []
  current : Connection := {}

namespace AlignmentState

def connections (s : AlignmentState) : List Connection := s.past ++ [s.current]

/-- The connections for whose frames the loop of `publishDecodedFrames` is over. -/
def finished (s : AlignmentState) : List Connection :=
  match s.pull.pc with
  | .publishing _ => s.past
  | _ => s.connections

/-- What a step that leaves the puller in `t` adds to the record. -/
def record (s : AlignmentState) (t : PullState) : PullAction → AlignmentState
  | .openStream _ => if t.pc = .reading then { s with past := s.connections, current := {} } else s
  | .readFrame answer =>
    match s.pull.videoPacket answer with
    | some (packet, decodedFrames) =>
      { s with current := { s.current with
          events := s.current.events ++ .read packet :: decodedFrames.map .decoded } }
    | none => s
  | .enqueueFrame =>
    { s with current := { s.current with bundles := s.current.bundles ++ s.pull.handedBundle.toList } }
  | _ => s

end AlignmentState

def alignmentSystem (cfg : StreamConfig) : Machine AlignmentState PullAction where
  init := { pull := (pullSystem cfg).init }
  next s a := ((pullSystem cfg).next s.pull a).map fun t => { s.record t a with pull := t }

def alignmentProjection (cfg : StreamConfig) : Machine.Projection (alignmentSystem cfg) (pullSystem cfg) where
  state s := s.pull
  init := rfl
  step s a t _ hn := by
    obtain ⟨u, hu, rfl⟩ := Option.map_eq_some_iff.mp hn
    exact .inr ⟨a, hu⟩

/-! ## The record in order -/

/-- The bundles of `publishDecodedFrames` that are still to be enqueued. -/
def PullState.coming (s : PullState) : List FrameBundle :=
  match s.pc with
  | .publishing bundles => bundles
  | _ => []

/-- The packets of a connection have consecutive ids and its bundles have the first of these. -/
structure Connection.Aligned (c : Connection) (first : Int) : Prop where
  packets : c.packetIds = idRun first c.packets.length
  bundles : c.bundleIds <+: c.packetIds

/-- Every closed connection is aligned and has enqueued what its events lead to, and so is the last one with what is
still to be enqueued. -/
structure AlignmentInv (s : AlignmentState) : Prop where
  all : ∃ n, s.connections.flatMap (·.packetIds) = idRun 0 n ∧ s.pull.puller.nextFrameId = Int.ofNat n
  past : ∀ c ∈ s.past, (∃ first, c.Aligned first) ∧ ∃ rest, Enqueues [] c.events c.handed rest
  current : ∃ first, s.current.Aligned first ∧
    s.pull.puller.nextFrameId = first + Int.ofNat s.current.packets.length
  settled : s.pull.pc ≠ .opening → s.pull.pc ≠ .exited →
    s.current.bundleIds ++ s.pull.unsettled = s.current.packetIds
  enqueues : ∃ rest, Enqueues [] s.current.events (s.current.handed ++ s.pull.coming.map (·.pictured)) rest ∧
    (s.pull.pc ≠ .opening → s.pull.pc ≠ .exited → s.pull.puller.pendingVideoFrames = rest)

/-- A turn of the read loop that accepts a video packet. -/
lemma readFrame_video {s : PullState} {answer : ReadAnswer} {packet : EncodedPacket} {frames : List MppFrame}
    (h : s.videoPacket answer = some (packet, frames)) : packet.frameId = s.puller.nextFrameId ∧
      ∃ pkt, (s.puller.pushPending pkt packet).pendingVideoFrames =
          s.puller.pendingVideoFrames ++ [pendingMeta packet] ∧
        s.readFrame answer = { s with
        publish := s.publish.enqueuePacket packet
        puller := ((s.puller.pushPending pkt packet).publishDecodedFrames frames).1
        pc := .publishing ((s.puller.pushPending pkt packet).publishDecodedFrames frames).2 } := by
  cases answer with
  | error => cases h
  | packet pkt cloned rescaled nowMonoMs decodedFrames =>
    simp only [PullState.videoPacket, Option.ite_none_right_eq_some, Option.some.injEq, Prod.mk.injEq] at h
    obtain ⟨⟨hstop, hcloned, hvideo⟩, rfl, rfl⟩ := h
    refine ⟨rfl, pkt, rfl, ?_⟩
    simp [PullState.readFrame, hstop, hcloned, hvideo]

/-- A turn that accepts none closes the connection or leaves the puller as it is. -/
lemma readFrame_other {s : PullState} {answer : ReadAnswer} (h : s.videoPacket answer = none) :
    s.readFrame answer = s.closeStream ∨
      (s.readFrame answer).puller = s.puller ∧ (s.readFrame answer).pc = s.pc := by
  unfold PullState.readFrame
  by_cases hstop : s.stopFlag = true
  · exact .inl (if_pos hstop)
  · rw [if_neg hstop]
    cases answer with
    | error => exact .inl rfl
    | packet pkt cloned rescaled nowMonoMs decodedFrames =>
      right
      cases cloned with
      | false => exact ⟨rfl, rfl⟩
      | true =>
        have hnot : pkt.streamIndex ≠ s.puller.videoStreamIdx := by
          intro hvideo
          simp [PullState.videoPacket, hstop, hvideo] at h
        simp only [Bool.not_true, Bool.false_eq_true, ite_false, if_neg hnot]
        split <;> exact ⟨rfl, rfl⟩

/-- Where a turn of the outer loop ends. -/
lemma openStream_pc (s : PullState) (answer : OpenAnswer) : (s.openStream answer).pc = .opening ∨
    (s.openStream answer).pc = .reading ∨ (s.openStream answer).pc = .exited := by
  unfold PullState.openStream
  split
  · exact .inr (.inr rfl)
  · dsimp only
    split
    · exact .inr (.inl rfl)
    · split
      · exact .inr (.inr rfl)
      · exact .inl rfl

namespace AlignmentInv

variable {s : AlignmentState}

/-- A step that leaves the pull loop and its puller alone. -/
lemma congr (h : AlignmentInv s) {t : PullState} (hpuller : t.puller = s.pull.puller) (hpc : t.pc = s.pull.pc) :
    AlignmentInv { s with pull := t } := by
  have hunsettled : t.unsettled = s.pull.unsettled := by rw [PullState.unsettled, PullState.unsettled, hpuller, hpc]
  have hcoming : t.coming = s.pull.coming := by rw [PullState.coming, PullState.coming, hpc]
  refine ⟨?_, h.past, ?_, ?_, ?_⟩
  · rw [hpuller]
    exact h.all
  · simpa only [hpuller] using h.current
  · simpa only [hpc, hunsettled] using h.settled
  · simpa only [hpc, hpuller, hcoming] using h.enqueues

/-- A step that leaves the pull loop outside a connection. -/
lemma outside (h : AlignmentInv s) {t : PullState} (hnext : t.puller.nextFrameId = s.pull.puller.nextFrameId)
    (hcoming : s.pull.coming = []) (hpc : t.pc = .opening ∨ t.pc = .exited) : AlignmentInv { s with pull := t } := by
  have hcoming' : t.coming = s.pull.coming := by
    rw [hcoming, PullState.coming]
    rcases hpc with hpc | hpc <;> rw [hpc]
  obtain ⟨rest, hrest, -⟩ := h.enqueues
  refine ⟨?_, h.past, ?_, fun hopen hexit => ?_, rest, ?_, fun hopen hexit => ?_⟩
  · rw [hnext]
    exact h.all
  · simpa only [hnext] using h.current
  · exact (hpc.elim hopen hexit).elim
  · rw [hcoming']
    exact hrest
  · exact (hpc.elim hopen hexit).elim

/-- A connection is opened: nothing is pending, and its first packet will have the next frame id. -/
lemma opened (h : AlignmentInv s) {t : PullState} (hledger : t.ledger = s.pull.ledger) (hcoming : s.pull.coming = [])
    (hnone : t.puller.pendingVideoFrames = []) (hpc : t.pc = .reading) :
    AlignmentInv { pull := t, past := s.connections } := by
  have hnext : t.puller.nextFrameId = s.pull.puller.nextFrameId := congrArg Ledger.nextFrameId hledger
  obtain ⟨n, hall, hn⟩ := h.all
  obtain ⟨first, hcurrent, -⟩ := h.current
  obtain ⟨rest, hrest, -⟩ := h.enqueues
  rw [hcoming, List.map_nil, List.append_nil] at hrest
  have hcoming' : t.coming = [] := by rw [PullState.coming, hpc]
  refine ⟨⟨n, ?_, hnext.trans hn⟩, fun c hc => ?_, ⟨t.puller.nextFrameId, ⟨rfl, List.prefix_rfl⟩, ?_⟩,
    fun _ _ => ?_, [], ?_, fun _ _ => hnone⟩
  · rw [AlignmentState.connections, List.flatMap_append, hall]
    exact List.append_nil _
  · rcases List.mem_append.mp hc with hc | hc
    · exact h.past c hc
    · rw [List.mem_singleton.mp hc]
      exact ⟨⟨first, hcurrent⟩, rest, hrest⟩
  · exact (Int.add_zero _).symm
  · rw [PullState.unsettled_boundary (.inr hpc), RTSPPuller.pendingIds, hnone]
    rfl
  · rw [hcoming']
    exact .nil []

/-- A video packet is read: it has the next frame id, and the bundles that its frames complete are on their way. -/
lemma video (h : AlignmentInv s) (hpc : s.pull.pc = .reading) {t : PullState} {packet : EncodedPacket}
    {frames : List MppFrame} {bundles : List FrameBundle} (hid : packet.frameId = s.pull.puller.nextFrameId)
    (hnext : t.puller.nextFrameId = s.pull.puller.nextFrameId + 1) (hpc' : t.pc = .publishing bundles)
    (hids : t.unsettled = s.pull.unsettled ++ [packet.frameId])
    (hbundles : Enqueues (s.pull.puller.pendingVideoFrames ++ [pendingMeta packet]) (frames.map .decoded)
      (bundles.map (·.pictured)) t.puller.pendingVideoFrames) :
    AlignmentInv { s with pull := t, current := { s.current with
      events := s.current.events ++ .read packet :: frames.map .decoded } } := by
  obtain ⟨n, hall, hn⟩ := h.all
  obtain ⟨first, hcurrent, hfirst⟩ := h.current
  obtain ⟨rest, hrest, hpending⟩ := h.enqueues
  have hpackets : ∀ c : Connection, c.events = s.current.events ++ .read packet :: frames.map .decoded →
      c.packets = s.current.packets ++ [packet] := by
    intro c hc
    have hframes : (frames.map ConnectionEvent.decoded).filterMap ConnectionEvent.packet? = [] := by
      simp [ConnectionEvent.packet?]
    rw [Connection.packets, hc, List.filterMap_append, List.filterMap_cons, hframes]
    rfl
  have hpacketIds : ∀ c : Connection, c.events = s.current.events ++ .read packet :: frames.map .decoded →
      c.packetIds = s.current.packetIds ++ [packet.frameId] := by
    intro c hc
    rw [Connection.packetIds, hpackets c hc, List.map_append]
    rfl
  have hnew : Connection.packets { s.current with
      events := s.current.events ++ .read packet :: frames.map .decoded } = s.current.packets ++ [packet] :=
    hpackets _ rfl
  have hsettled := h.settled (by simp [hpc]) (by simp [hpc])
  have hcoming : s.pull.coming = [] := by rw [PullState.coming, hpc]
  have hcoming' : t.coming = bundles := by rw [PullState.coming, hpc']
  refine ⟨⟨n + 1, ?_, ?_⟩, h.past, ⟨first, ⟨?_, ?_⟩, ?_⟩, fun _ _ => ?_, t.puller.pendingVideoFrames, ?_,
    fun _ _ => rfl⟩
  · rw [idRun_succ, ← hall, AlignmentState.connections, AlignmentState.connections, List.flatMap_append,
      List.flatMap_append, List.flatMap_singleton, List.flatMap_singleton, List.append_assoc]
    rw [hpacketIds _ rfl, hid, hn, Int.zero_add]
  · rw [hnext, hn]
    rfl
  · rw [hpacketIds _ rfl, hpackets _ rfl, List.length_append, List.length_singleton, idRun_succ, ← hcurrent.packets,
      hid, hfirst]
  · rw [hpacketIds _ rfl]
    exact hcurrent.bundles.trans (List.prefix_append _ _)
  · rw [hnext, hfirst, hnew, List.length_append, List.length_singleton, Int.add_assoc]
    rfl
  · rw [hpacketIds _ rfl, ← hsettled, List.append_assoc]
    exact congrArg (s.current.bundleIds ++ ·) hids
  · rw [hcoming, List.map_nil, List.append_nil, ← hpending (by simp [hpc]) (by simp [hpc])] at hrest
    rw [hcoming']
    exact hrest.append (.read hbundles)

/-- The next bundle is handed over. -/
lemma handed (h : AlignmentInv s) {bundles : List FrameBundle} (hpc : s.pull.pc = .publishing bundles) :
    AlignmentInv { s with
      pull := s.pull.enqueueFrame bundles
      current := { s.current with bundles := s.current.bundles ++ s.pull.handedBundle.toList } } := by
  have hsettled := h.settled (by simp [hpc]) (by simp [hpc])
  obtain ⟨rest, hrest, hpending⟩ := h.enqueues
  have hpending := hpending (by simp [hpc]) (by simp [hpc])
  have hcoming : s.pull.coming = bundles := by rw [PullState.coming, hpc]
  rw [hcoming] at hrest
  cases bundles with
  | nil =>
    have hnone : s.pull.handedBundle.toList = [] := by simp [PullState.handedBundle, hpc]
    rw [hnone, List.append_nil]
    refine ⟨h.all, h.past, h.current, fun _ _ => ?_, rest, hrest, fun _ _ => hpending⟩
    simpa [PullState.enqueueFrame, PullState.unsettled, hpc] using hsettled
  | cons bundle bundles =>
    have hone : s.pull.handedBundle.toList = [bundle] := by simp [PullState.handedBundle, hpc]
    rw [hone]
    obtain ⟨first, hcurrent, hfirst⟩ := h.current
    have hsettled' : (s.current.bundles ++ [bundle]).map (·.frameId) ++
        (s.pull.enqueueFrame (bundle :: bundles)).unsettled = s.current.packetIds := by
      rw [← hsettled]
      simp [PullState.enqueueFrame, PullState.unsettled, hpc, Connection.bundleIds]
    have hall : (s.past ++ [{ s.current with bundles := s.current.bundles ++ [bundle] }]).flatMap
        Connection.packetIds = s.connections.flatMap Connection.packetIds := by
      simp [AlignmentState.connections, Connection.packetIds, Connection.packets]
    refine ⟨?_, h.past, ⟨first, ⟨hcurrent.packets, ⟨_, hsettled'⟩⟩, hfirst⟩, fun _ _ => hsettled', rest, ?_,
      fun _ _ => hpending⟩
    · obtain ⟨n, hn⟩ := h.all
      exact ⟨n, hall.trans hn.1, hn.2⟩
    · simpa [Connection.handed, PullState.enqueueFrame, PullState.coming] using hrest

/-- A turn of the outer loop opens a connection, or leaves the puller outside of one. -/
lemma openStream (h : AlignmentInv s) (hwf : s.pull.Wf) (hpc : s.pull.pc = .opening) (answer : OpenAnswer) :
    AlignmentInv { s.record (s.pull.openStream answer) (.openStream answer) with
      pull := s.pull.openStream answer } := by
  obtain ⟨-, hledger⟩ := PullState.Wf.openStream hwf hpc answer
  have hcoming : s.pull.coming = [] := by rw [PullState.coming, hpc]
  unfold AlignmentState.record
  dsimp only
  split
  · rename_i hpc'
    refine h.opened hledger hcoming ?_ hpc'
    have hids := congrArg Ledger.unsettled hledger
    dsimp only [PullState.ledger] at hids
    rw [PullState.unsettled_boundary (.inr hpc'), PullState.unsettled_boundary (.inl hpc),
      hwf.closed (.inl hpc)] at hids
    exact List.map_eq_nil_iff.mp hids
  · rename_i hpc'
    refine h.outside (congrArg Ledger.nextFrameId hledger) hcoming ?_
    rcases openStream_pc s.pull answer with hp | hp | hp
    · exact .inl hp
    · exact absurd hp hpc'
    · exact .inr hp

/-- A turn of the read loop reads a video packet, closes the connection or passes over what it read. -/
lemma readFrame (h : AlignmentInv s) (hpc : s.pull.pc = .reading) (answer : ReadAnswer) :
    AlignmentInv { s.record (s.pull.readFrame answer) (.readFrame answer) with pull := s.pull.readFrame answer } := by
  unfold AlignmentState.record
  dsimp only
  cases hread : s.pull.videoPacket answer with
  | some video =>
    obtain ⟨packet, frames⟩ := video
    obtain ⟨hid, pkt, hpush, heq⟩ := readFrame_video hread
    obtain ⟨hids, hnext⟩ := (s.pull.puller.pushPending pkt packet).publishDecodedFrames_ids frames
    rw [heq]
    refine h.video hpc hid hnext rfl ?_ ?_
    · rw [PullState.unsettled_boundary (.inr hpc), hid]
      refine hids.trans ?_
      simp [RTSPPuller.pushPending, RTSPPuller.pendingIds]
    · rw [← hpush]
      exact .publishDecodedFrames _ frames
  | none =>
    dsimp only
    rcases readFrame_other hread with hclose | ⟨hpuller, hpc'⟩
    · rw [hclose]
      exact h.outside rfl (by rw [PullState.coming, hpc]) (.inl rfl)
    · exact h.congr hpuller hpc'

end AlignmentInv

lemma alignmentInv_reachable {cfg : StreamConfig} {s : AlignmentState} (h : (alignmentSystem cfg).Reachable s) :
    AlignmentInv s := by
  apply h.invariant_of fun t ht => wf_inv_reachable ((alignmentProjection cfg).reachable ht)
  · refine ⟨⟨0, rfl, rfl⟩, fun c hc => ?_, ⟨0, ⟨rfl, List.prefix_rfl⟩, rfl⟩, fun hopen => absurd rfl hopen, [],
      .nil [], fun hopen => absurd rfl hopen⟩
    cases hc
  · rintro s a u ⟨(hwf : s.pull.Wf), -⟩ hinv - hn
    obtain ⟨t, ht, rfl⟩ := Option.map_eq_some_iff.mp hn
    cases a with
    | openStream answer =>
      obtain ⟨hpc, rfl⟩ := pullSystem_openStream ht
      exact hinv.openStream hwf hpc answer
    | readFrame answer =>
      obtain ⟨hpc, rfl⟩ := pullSystem_readFrame ht
      exact hinv.readFrame hpc answer
    | enqueueFrame =>
      obtain ⟨bundles, hpc, rfl⟩ := pullSystem_enqueueFrame ht
      exact hinv.handed hpc
    | requestStop =>
      cases ht
      exact hinv.congr rfl rfl
    | worker c =>
      cases ht
      exact hinv.congr rfl rfl
    | publish c =>
      cases ht
      exact hinv.congr rfl rfl
    | stopBuffer =>
      obtain ⟨-, rfl⟩ := pullSystem_stopBuffer ht
      exact hinv.congr rfl rfl

/-! ## The alignment of a run -/

/-- The ids handed to `enqueueFrame` increase over the whole run, and none of them is in the buffer then; the
bundles of a connection have the ids of its first packets, which are consecutive. The ids and pictures that a
connection has handed over are the first that its events lead to, and all of them once `publishDecodedFrames` is
over; then the picture of every frame is with the packet that the frame belonged to. -/
structure AlignmentState.InOrder (s : AlignmentState) : Prop where
  increasing : (s.connections.flatMap (·.bundleIds)).Pairwise (· < ·)
  fresh : ∀ bundle ∈ s.pull.handedBundle, s.pull.publish.buffer.decodedAt bundle.frameId = none
  gapFree : ∀ c ∈ s.connections, ∃ first, c.packetIds = idRun first c.packets.length ∧
    c.bundleIds = idRun first c.bundles.length ∧ c.bundles.length ≤ c.packets.length
  images : ∀ c ∈ s.connections, ∀ bundle ∈ c.bundles, ∀ image, bundle.decodedImage = some image →
    ∃ frame, .decoded frame ∈ c.events ∧ frame.image = some image
  enqueues : ∀ c ∈ s.connections, ∃ enqueued rest, Enqueues [] c.events enqueued rest ∧ c.handed <+: enqueued ∧
    (c ∈ s.finished → c.handed = enqueued)
  delivers : ∀ c ∈ s.finished, c.DeliversEach

lemma idRun_pairwise (first : Int) (n : Nat) : (idRun first n).Pairwise (· < ·) := by
  rw [idRun, List.pairwise_map]
  refine List.pairwise_lt_range.imp fun {i j} hlt => ?_
  simp only [Int.ofNat_eq_natCast]
  omega

lemma idRun_of_prefix {ids : List Int} {first : Int} {n : Nat} (h : ids <+: idRun first n) :
    ids = idRun first ids.length := by
  have hlen : ids.length ≤ n := by simpa [idRun] using h.length_le
  rw [List.prefix_iff_eq_take.mp h]
  simp [idRun, ← List.map_take, List.take_range, Nat.min_eq_left hlen]

namespace AlignmentInv

variable {s : AlignmentState}

lemma aligned (h : AlignmentInv s) : ∀ c ∈ s.connections, ∃ first, c.Aligned first := by
  intro c hc
  rcases List.mem_append.mp hc with hc | hc
  · exact (h.past c hc).1
  · obtain ⟨first, hcurrent, -⟩ := h.current
    rw [List.mem_singleton.mp hc]
    exact ⟨first, hcurrent⟩

lemma handed_prefix (h : AlignmentInv s) : ∀ c ∈ s.connections, ∃ enqueued rest,
    Enqueues [] c.events enqueued rest ∧ c.handed <+: enqueued := by
  intro c hc
  rcases List.mem_append.mp hc with hc | hc
  · obtain ⟨-, rest, hrest⟩ := h.past c hc
    exact ⟨_, rest, hrest, List.prefix_rfl⟩
  · obtain ⟨rest, hrest, -⟩ := h.enqueues
    rw [List.mem_singleton.mp hc]
    exact ⟨_, rest, hrest, List.prefix_append _ _⟩

lemma handed_all (h : AlignmentInv s) : ∀ c ∈ s.finished, ∃ rest, Enqueues [] c.events c.handed rest := by
  intro c hc
  unfold AlignmentState.finished at hc
  split at hc
  · exact (h.past c hc).2
  · rename_i hpc
    rcases List.mem_append.mp hc with hc | hc
    · exact (h.past c hc).2
    · obtain ⟨rest, hrest, -⟩ := h.enqueues
      have hcoming : s.pull.coming = [] := by
        unfold PullState.coming
        split
        · exact absurd ‹_› (hpc _)
        · rfl
      rw [hcoming, List.map_nil, List.append_nil] at hrest
      rw [List.mem_singleton.mp hc]
      exact ⟨rest, hrest⟩

end AlignmentInv

lemma Connection.exists_bundle {c : Connection} {id : Int} {image : Option DmaImage} (h : (id, image) ∈ c.handed) :
    ∃ bundle ∈ c.bundles, bundle.frameId = id ∧ bundle.decodedImage = image := by
  obtain ⟨bundle, hmem, heq⟩ := List.mem_map.mp h
  exact ⟨bundle, hmem, congrArg Prod.fst heq, congrArg Prod.snd heq⟩

lemma Connection.deliversEach {c : Connection} {rest : List PendingVideoFrameMeta}
    (h : Enqueues [] c.events c.handed rest) : c.DeliversEach := by
  intro before frame after hevents enqueued pending hbefore i entry hi hentry
  rw [hevents] at h
  obtain ⟨handed, between, later, hfirst, hsecond, hsplit⟩ := h.split
  obtain rfl := hfirst.rest_unique hbefore
  apply Connection.exists_bundle
  rw [hsplit, List.mem_append]
  right
  cases hsecond with
  | hit hi' hentry' _ =>
    obtain rfl := hi.unique hi'
    obtain rfl := Option.some.inj (hentry.symm.trans hentry')
    simp
  | miss hmiss _ => exact absurd hi (hmiss i)

/-- In every run the bundles are handed over in the order of the ids, connection by connection those of its first
video packets, and the picture of every frame that the decoder returns goes to the packet that it belongs to. -/
theorem frames_aligned (cfg : StreamConfig) {s : AlignmentState} (h : (alignmentSystem cfg).Reachable s) :
    s.InOrder := by
  have hinv := alignmentInv_reachable h
  have hledger : s.pull.ledger.Inv := (wf_inv_reachable ((alignmentProjection cfg).reachable h)).2
  refine ⟨?_, fun bundle hmem => ?_, fun c hc => ?_, fun c hc bundle hmem image himage => ?_, fun c hc => ?_,
    fun c hc => ?_⟩
  · obtain ⟨n, hall, -⟩ := hinv.all
    have hsub : (s.connections.flatMap (·.bundleIds)).Sublist (s.connections.flatMap (·.packetIds)) := by
      refine List.Sublist.flatMap_right _ fun c hc => ?_
      obtain ⟨first, hc⟩ := hinv.aligned c hc
      exact hc.bundles.sublist
    rw [hall] at hsub
    exact (idRun_pairwise 0 n).sublist hsub
  · refine hledger.unframed _ ?_
    unfold PullState.handedBundle at hmem
    split at hmem
    · rename_i hpc
      cases hmem
      simp [PullState.ledger, PullState.unsettled, hpc]
    · cases hmem
  · obtain ⟨first, hc⟩ := hinv.aligned c hc
    have hprefix := hc.bundles
    have hlen := hprefix.length_le
    rw [hc.packets] at hprefix
    have hrun := idRun_of_prefix hprefix
    simp only [Connection.bundleIds, Connection.packetIds, List.length_map] at hlen hrun
    exact ⟨first, hc.packets, hrun, hlen⟩
  · obtain ⟨enqueued, rest, henqueues, hhanded⟩ := hinv.handed_prefix c hc
    apply henqueues.images
    exact hhanded.subset (List.mem_map.mpr ⟨bundle, hmem, Prod.ext rfl himage⟩)
  · by_cases hfinished : c ∈ s.finished
    · obtain ⟨rest, hrest⟩ := hinv.handed_all c hfinished
      exact ⟨_, rest, hrest, List.prefix_rfl, fun _ => rfl⟩
    · obtain ⟨enqueued, rest, henqueues, hhanded⟩ := hinv.handed_prefix c hc
      exact ⟨enqueued, rest, henqueues, hhanded, fun hmem => absurd hmem hfinished⟩
  · obtain ⟨rest, hrest⟩ := hinv.handed_all c hc
    exact Connection.deliversEach hrest

/-- A frame that matches the second packet, one that matches none, and a reconnect with a packet pending. -/
theorem frames_aligned_reconnect :
    ∃ s, (alignmentSystem { reconnectIntervalS := 1 }).Reachable s ∧
      s.connections.map Connection.packetIds = [[], [0, 1, 2], [3]] ∧
      s.finished.map Connection.handed = [[], [(0, none), (1, some { fd := 5 })], [(3, some { fd := 7 })]] ∧
      s.InOrder := by
  obtain ⟨s, hs, hp⟩ := Machine.reachable_of_exec_any (alignmentSystem { reconnectIntervalS := 1 })
    [openH264, readVideo 40 [], .enqueueFrame,
      readVideo 0 [{ pts := 0, image := some { fd := 5 } }, { pts := 7, image := some { fd := 6 } }], .enqueueFrame,
      .enqueueFrame, .enqueueFrame, readVideo 80 [], .enqueueFrame, .readFrame .error, openH264,
      readVideo 0 [{ image := some { fd := 7 } }], .enqueueFrame, .enqueueFrame]
    (fun s => decide (s.connections.map Connection.packetIds = [[], [0, 1, 2], [3]] ∧ s.finished.map Connection.handed =
      [[], [(0, none), (1, some { fd := 5 })], [(3, some { fd := 7 })]])) (by decide)
  obtain ⟨hpackets, hhanded⟩ := of_decide_eq_true hp
  exact ⟨s, hs, hpackets, hhanded, frames_aligned _ hs⟩

end MediaAgent
