import Mathlib.Data.List.Basic
import Mathlib.Data.List.Nodup
import MediaAgent.FrameAlignment
import MediaAgent.Handover

/-!
# Decoded frames out of order

What a connection submits to the decoder and what the decoder returns, in one sequence of events. When a frame
is matched, the entries in front of its own are enqueued without a picture and are no longer pending; so a frame
that comes after the frame of a later packet finds its own packet gone.
-/

namespace MediaAgent
open Transition

/-! ## What the decoder returns -/

/-- A frame that the decoder returns, and the frame id it is matched with; none if it is discarded as unmatched. -/
structure ReturnedFrame where
  frame : MppFrame
  takenFor : Option Int
  deriving DecidableEq, Repr

/-- A video packet is submitted to the decoder, or a frame is taken from it. -/
inductive DecoderEvent
  | submitted (packet : EncodedPacket)
  | returned (r : ReturnedFrame)
  deriving DecidableEq, Repr

def DecoderEvent.packet? : DecoderEvent → Option EncodedPacket
  | .submitted packet => some packet
  | .returned _ => none

def DecoderEvent.frame? : DecoderEvent → Option ReturnedFrame
  | .submitted _ => none
  | .returned r => some r

def submittedIn (events : List DecoderEvent) : List EncodedPacket := events.filterMap DecoderEvent.packet?

def returnedIn (events : List DecoderEvent) : List ReturnedFrame := events.filterMap DecoderEvent.frame?

@[simp] lemma submittedIn_submitted (events : List DecoderEvent) (packet : EncodedPacket) :
    submittedIn (events ++ [.submitted packet]) = submittedIn events ++ [packet] := by
  simp [submittedIn, DecoderEvent.packet?]

@[simp] lemma submittedIn_returned (events : List DecoderEvent) (r : ReturnedFrame) :
    submittedIn (events ++ [.returned r]) = submittedIn events := by
  simp [submittedIn, DecoderEvent.packet?]

@[simp] lemma returnedIn_submitted (events : List DecoderEvent) (packet : EncodedPacket) :
    returnedIn (events ++ [.submitted packet]) = returnedIn events := by
  simp [returnedIn, DecoderEvent.frame?]

@[simp] lemma returnedIn_returned (events : List DecoderEvent) (r : ReturnedFrame) :
    returnedIn (events ++ [.returned r]) = returnedIn events ++ [r] := by
  simp [returnedIn, DecoderEvent.frame?]

/-- The packets have pairwise distinct valid pts, and the decoder returns a frame for a packet after it has been
submitted, with its pts, and at most once. -/
inductive ReturnsEach : List DecoderEvent → Prop
  | nil : ReturnsEach []
  | submitted {events : List DecoderEvent} {packet : EncodedPacket} (h : ReturnsEach events)
    (valid : packet.pts ≠ avNoptsValue) (fresh : packet.pts ∉ (submittedIn events).map (·.pts)) :
    ReturnsEach (events ++ [.submitted packet])
  | returned {events : List DecoderEvent} {r : ReturnedFrame} (h : ReturnsEach events)
    (known : r.frame.pts ∈ (submittedIn events).map (·.pts))
    (once : r.frame.pts ∉ (returnedIn events).map (·.frame.pts)) : ReturnsEach (events ++ [.returned r])

/-- The place of a frame's packet among the packets, in the order of submission. -/
def position (packets : List EncodedPacket) (r : ReturnedFrame) : Nat :=
  (packets.map (·.pts)).idxOf r.frame.pts

/-- The decoder returns the frames in the order in which their packets were submitted. -/
def InSubmissionOrder (packets : List EncodedPacket) (frames : List ReturnedFrame) : Prop :=
  frames.Pairwise fun r r' => position packets r < position packets r'

/-- A frame has the dts of its packet, and no two packets have the same dts. -/
def KeepsDts (packets : List EncodedPacket) (frames : List ReturnedFrame) : Prop :=
  (∀ packet ∈ packets, ∀ r ∈ frames, packet.pts = r.frame.pts → r.frame.dts = packet.dts) ∧
    packets.Pairwise fun packet packet' => packet.dts = packet'.dts → packet.dts = avNoptsValue

/-- The frame is matched with its own packet. -/
def TakesOwn (packets : List EncodedPacket) (r : ReturnedFrame) : Prop :=
  ∃ packet ∈ packets, packet.pts = r.frame.pts ∧ r.takenFor = some packet.frameId

/-! ## The connections of a run -/

/-- The events of a connection, and the bundles that its `enqueueFrame` calls have put into the buffer; an empty one
stands before the first connection. -/
structure DecodedConnection where
  events : List DecoderEvent := []
  bundles : List FrameBundle := []

/-- The frame is matched with its own packet, and its image has been enqueued under the packet's frame id. -/
def DecodedConnection.Delivers (c : DecodedConnection) (r : ReturnedFrame) : Prop :=
  ∃ packet ∈ submittedIn c.events, packet.pts = r.frame.pts ∧ r.takenFor = some packet.frameId ∧
    ∃ bundle ∈ c.bundles, bundle.frameId = packet.frameId ∧ bundle.decodedImage = r.frame.image

/-- What `takePendingVideoFrameMeta` answers for a frame. -/
def RTSPPuller.matched (p : RTSPPuller) (frame : MppFrame) : ReturnedFrame :=
  ⟨frame, (takePendingVideoFrameMeta p.pendingVideoFrames frame).taken.map (·.frameId)⟩

/-- The events of a `publishDecodedFrames`. -/
def RTSPPuller.returnedEvents (p : RTSPPuller) : List MppFrame → List DecoderEvent
  | [] => []
  | frame :: frames => .returned (p.matched frame) :: (publishDecodedFrame (p, []) frame).1.returnedEvents frames

/-- The events of a turn of the read loop. -/
def PullState.decoderEvents (s : PullState) (answer : ReadAnswer) : List DecoderEvent :=
  match s.videoPacket answer, answer with
  | some (packet, frames), .packet pkt .. =>
    .submitted packet :: (s.puller.pushPending pkt packet).returnedEvents frames
  | _, _ => []

/-- The puller, with the connections that it has closed and the one that it has opened last. -/
structure DecodeState where
  pull : PullState
  past : List DecodedConnection := []
  current : DecodedConnection := {}

namespace DecodeState

/-- The connections for whose frames the loop of `publishDecodedFrames` is over. -/
def finished (s : DecodeState) : List DecodedConnection :=
  match s.pull.pc with
  | .publishing _ => s.past
  | _ => s.past ++ [s.current]

/-- What a step that leaves the puller in `t` adds to the record. -/
def record (s : DecodeState) (t : PullState) : PullAction → DecodeState
  | .openStream _ => if t.pc = .reading then { s with past := s.past ++ [s.current], current := {} } else s
  | .readFrame answer =>
    { s with current := { s.current with events := s.current.events ++ s.pull.decoderEvents answer } }
  | .enqueueFrame =>
    { s with current := { s.current with bundles := s.current.bundles ++ s.pull.acceptedBundle .enqueueFrame } }
  | _ => s

end DecodeState

def decodeSystem (cfg : StreamConfig) : Machine DecodeState PullAction where
  init := { pull := (pullSystem cfg).init }
  next s a := ((pullSystem cfg).next s.pull a).map fun t => { s.record t a with pull := t }

def decodeProjection (cfg : StreamConfig) : Machine.Projection (decodeSystem cfg) (pullSystem cfg) where
  state s := s.pull
  init := rfl
  step s a t _ hn := by
    obtain ⟨u, hu, rfl⟩ := Option.map_eq_some_iff.mp hn
    exact .inr ⟨a, hu⟩

/-! ## How far the pending packets are used up -/

/-- The packets before the frontier are no longer pending. The frontier has passed every frame that was returned,
and as long as no frame was matched with a packet of another it stands right behind one of them. -/
structure Frontier (packets : List EncodedPacket) (frames : List ReturnedFrame) (k : Nat) : Prop where
  known : ∀ r ∈ frames, r.frame.pts ∈ packets.map (·.pts)
  behind : ∀ r ∈ frames, position packets r < k
  exact : KeepsDts packets frames ∨ (∀ r ∈ frames, TakesOwn packets r) →
    k = 0 ∨ ∃ r ∈ frames, position packets r + 1 = k
  all : (∀ r ∈ frames, TakesOwn packets r) ↔ InSubmissionOrder packets frames
  each : KeepsDts packets frames → ∀ before r after, frames = before ++ r :: after →
    ((∀ r' ∈ before, position packets r' < position packets r) → TakesOwn packets r) ∧
      ((∃ r' ∈ before, position packets r < position packets r') → r.takenFor = none)

/-- What a frame that is returned does to the frontier: its packet is still pending and is taken, or its packet is
not pending any more. -/
inductive Advance (packets : List EncodedPacket) (r : ReturnedFrame) (k k' : Nat) : Prop
  | own (hle : k ≤ position packets r) (hk : k' = position packets r + 1) (hown : TakesOwn packets r)
  | gone (hlt : position packets r < k) (hk : k ≤ k') (hnot : ¬TakesOwn packets r)
    (hdts : KeepsDts packets [r] → r.takenFor = none ∧ k' = k)

section packets

variable {packets : List EncodedPacket} {frames : List ReturnedFrame} {r : ReturnedFrame} {k k' : Nat}

lemma KeepsDts.left {after : List ReturnedFrame} (h : KeepsDts packets (frames ++ after)) :
    KeepsDts packets frames :=
  ⟨fun packet hp r hr => h.1 packet hp r (List.mem_append_left _ hr), h.2⟩

lemma KeepsDts.right {after : List ReturnedFrame} (h : KeepsDts packets (frames ++ after)) :
    KeepsDts packets after :=
  ⟨fun packet hp r hr => h.1 packet hp r (List.mem_append_right _ hr), h.2⟩

lemma KeepsDts.earlier {packet : EncodedPacket} (h : KeepsDts (packets ++ [packet]) frames) :
    KeepsDts packets frames :=
  ⟨fun packet hp => h.1 packet (List.mem_append_left _ hp), (List.pairwise_append.mp h.2).1⟩

/-- The next packet does not move the packets of the frames that were returned. -/
lemma position_append {packet : EncodedPacket} (hknown : r.frame.pts ∈ packets.map (·.pts)) :
    position (packets ++ [packet]) r = position packets r := by
  unfold position
  rw [List.map_append, List.idxOf_append_of_mem hknown]

lemma takesOwn_append {packet : EncodedPacket} (hknown : r.frame.pts ∈ packets.map (·.pts))
    (hfresh : packet.pts ∉ packets.map (·.pts)) :
    TakesOwn (packets ++ [packet]) r ↔ TakesOwn packets r := by
  constructor
  · rintro ⟨own, hmem, hpts, htaken⟩
    rcases List.mem_append.mp hmem with hmem | hmem
    · exact ⟨own, hmem, hpts, htaken⟩
    · rw [List.mem_singleton.mp hmem] at hpts
      rw [hpts] at hfresh
      exact absurd hknown hfresh
  · rintro ⟨own, hmem, hpts, htaken⟩
    exact ⟨own, List.mem_append_left _ hmem, hpts, htaken⟩

namespace Frontier

/-- A packet is submitted: it is pending behind the others. -/
lemma submitted (h : Frontier packets frames k) {packet : EncodedPacket} (hfresh : packet.pts ∉ packets.map (·.pts)) :
    Frontier (packets ++ [packet]) frames k := by
  have hposition : ∀ r ∈ frames, position (packets ++ [packet]) r = position packets r :=
    fun r hr => position_append (h.known r hr)
  have hown : ∀ r ∈ frames, TakesOwn (packets ++ [packet]) r ↔ TakesOwn packets r :=
    fun r hr => takesOwn_append (h.known r hr) hfresh
  have hall : (∀ r ∈ frames, TakesOwn (packets ++ [packet]) r) ↔ ∀ r ∈ frames, TakesOwn packets r :=
    forall₂_congr hown
  refine ⟨fun r hr => ?_, fun r hr => ?_, fun hkeeps => ?_, ?_, fun hdts before r after hsplit => ?_⟩
  · rw [List.map_append]
    exact List.mem_append_left _ (h.known r hr)
  · rw [hposition r hr]
    exact h.behind r hr
  · rw [hall] at hkeeps
    rcases h.exact (hkeeps.imp_left KeepsDts.earlier) with hk | ⟨r, hr, hk⟩
    · exact .inl hk
    · exact .inr ⟨r, hr, by rw [hposition r hr, hk]⟩
  · rw [hall, h.all]
    unfold InSubmissionOrder
    refine List.Pairwise.iff_of_mem fun {r r'} hr hr' => ?_
    rw [hposition r hr, hposition r' hr']
  · have hr : r ∈ frames := by
      rw [hsplit]
      simp
    have hbefore : ∀ r' ∈ before, position (packets ++ [packet]) r' = position packets r' := by
      intro r' hr'
      apply hposition
      rw [hsplit]
      exact List.mem_append_left _ hr'
    obtain ⟨hahead, hovertaken⟩ := h.each hdts.earlier before r after hsplit
    rw [hposition r hr, hown r hr]
    refine ⟨fun hlt => hahead fun r' hr' => ?_, fun ⟨r', hr', hlt⟩ => hovertaken ⟨r', hr', ?_⟩⟩
    · rw [← hbefore r' hr']
      exact hlt r' hr'
    · rw [← hbefore r' hr']
      exact hlt

/-- Where the frontier is exact, a packet is pending if no frame of it or of a later one was returned. -/
lemma le_position (h : Frontier packets frames k) (hkeeps : KeepsDts packets frames ∨ ∀ r ∈ frames, TakesOwn packets r)
    (hahead : ∀ r' ∈ frames, position packets r' < position packets r) : k ≤ position packets r := by
  rcases h.exact hkeeps with hk | ⟨r', hr', hk⟩
  · omega
  · have hlt := hahead r' hr'
    omega

/-- A frame is returned. -/
lemma returned (h : Frontier packets frames k) (hknown : r.frame.pts ∈ packets.map (·.pts))
    (ha : Advance packets r k k') : Frontier packets (frames ++ [r]) k' := by
  have hmono : k ≤ k' := by
    cases ha with
    | own hle hk _ => omega
    | gone _ hk _ _ => exact hk
  have hpassed : position packets r < k' := by
    cases ha with
    | own _ hk _ => omega
    | gone hlt _ _ _ => omega
  refine ⟨fun r' hr' => ?_, fun r' hr' => ?_, fun hkeeps => ?_, ?_, fun hdts before r' after hsplit => ?_⟩
  · rcases List.mem_append.mp hr' with hr' | hr'
    · exact h.known r' hr'
    · rwa [List.mem_singleton.mp hr']
  · rcases List.mem_append.mp hr' with hr' | hr'
    · have hlt := h.behind r' hr'
      omega
    · rwa [List.mem_singleton.mp hr']
  · cases ha with
    | own _ hk _ => exact .inr ⟨r, by simp, hk.symm⟩
    | gone _ _ hnot hdts =>
      rcases hkeeps with hkeeps | hkeeps
      · rw [(hdts hkeeps.right).2]
        rcases h.exact (.inl hkeeps.left) with hk | ⟨r', hr', hk⟩
        · exact .inl hk
        · exact .inr ⟨r', List.mem_append_left _ hr', hk⟩
      · exact absurd (hkeeps r (by simp)) hnot
  · have hsnoc : InSubmissionOrder packets (frames ++ [r]) ↔ InSubmissionOrder packets frames ∧
        ∀ r' ∈ frames, position packets r' < position packets r := by
      simp [InSubmissionOrder, List.pairwise_append]
    rw [hsnoc, List.forall_mem_append, List.forall_mem_singleton, h.all]
    refine and_congr_right fun horder => ⟨fun hown r' hr' => ?_, fun hahead => ?_⟩
    · cases ha with
      | own hle _ _ => exact (h.behind r' hr').trans_le hle
      | gone _ _ hnot _ => exact absurd hown hnot
    · have hle := h.le_position (.inr (h.all.mpr horder)) hahead
      cases ha with
      | own _ _ hown => exact hown
      | gone hlt _ _ _ => omega
  · -- the frame in question is the new one or an earlier one
    rcases List.eq_nil_or_concat after with rfl | ⟨after', last, rfl⟩
    · obtain ⟨rfl, hlast⟩ := List.append_inj' hsplit rfl
      cases hlast
      refine ⟨fun hahead => ?_, fun ⟨r', hr', hlt⟩ => ?_⟩
      · have hle := h.le_position (.inl hdts.left) hahead
        cases ha with
        | own _ _ hown => exact hown
        | gone hlt _ _ _ => omega
      · have hbehind := h.behind r' hr'
        cases ha with
        | own hle _ _ => omega
        | gone _ _ _ hnone => exact (hnone hdts.right).1
    · rw [List.concat_eq_append, ← List.cons_append, ← List.append_assoc] at hsplit
      exact h.each hdts.left before r' after' (List.append_inj' hsplit rfl).1

end Frontier

end packets

/-! ## What a frame is matched with -/

/-- The packets have pairwise distinct valid pts. -/
structure DistinctPts (packets : List EncodedPacket) : Prop where
  valid : ∀ packet ∈ packets, packet.pts ≠ avNoptsValue
  nodup : (packets.map (·.pts)).Nodup

section matching

variable {packets : List EncodedPacket} {r : ReturnedFrame} {k : Nat}

lemma exists_at_position (hknown : r.frame.pts ∈ packets.map (·.pts)) :
    ∃ packet, packets[position packets r]? = some packet ∧ packet.pts = r.frame.pts := by
  have hlt : position packets r < (packets.map (·.pts)).length := List.idxOf_lt_length_of_mem hknown
  have hget : (packets.map (·.pts))[position packets r] = r.frame.pts := List.getElem_idxOf hlt
  rw [List.length_map] at hlt
  rw [List.getElem_map] at hget
  exact ⟨packets[position packets r], List.getElem?_eq_getElem hlt, hget⟩

lemma position_eq (h : DistinctPts packets) {packet : EncodedPacket} {n : Nat}
    (hn : packets[n]? = some packet) (hpts : packet.pts = r.frame.pts) : position packets r = n := by
  obtain ⟨hlt, rfl⟩ := List.getElem?_eq_some_iff.mp hn
  have hindex := h.nodup.idxOf_getElem n (by rwa [List.length_map])
  rw [List.getElem_map, hpts] at hindex
  exact hindex

/-- An entry that is pending stands for the packet as far behind the frontier. -/
lemma pending_at {pending : List PendingVideoFrameMeta} (hpending : pending = (packets.drop k).map pendingMeta)
    (i : Nat) : pending[i]? = (packets[k + i]?).map pendingMeta := by
  rw [hpending, List.getElem?_map, List.getElem?_drop]

/-- A frame whose packet is pending belongs to its entry. -/
lemma belongsTo_position {pending : List PendingVideoFrameMeta}
    (hpending : pending = (packets.drop k).map pendingMeta) (hdistinct : DistinctPts packets)
    (hknown : r.frame.pts ∈ packets.map (·.pts)) (hle : k ≤ position packets r) :
    BelongsTo pending r.frame (position packets r - k) := by
  obtain ⟨own, hown, hpts⟩ := exists_at_position hknown
  have hat : k + (position packets r - k) = position packets r := Nat.add_sub_cancel' hle
  refine .pts ⟨?_, ?_, fun j hj hsame => ?_⟩
  · rw [← hpts]
    exact hdistinct.valid own (List.mem_of_getElem? hown)
  · rw [pending_at hpending, hat, hown]
    exact congrArg some hpts
  · rw [pending_at hpending, Option.map_map] at hsame
    obtain ⟨packet, hpacket, hsame⟩ := Option.map_eq_some_iff.mp hsame
    have hposition := position_eq hdistinct hpacket hsame
    omega

/-- A frame whose packet is not pending any more, and that has its dts, belongs to no entry. -/
lemma not_belongsTo_gone {pending : List PendingVideoFrameMeta}
    (hpending : pending = (packets.drop k).map pendingMeta) (hdistinct : DistinctPts packets)
    (hknown : r.frame.pts ∈ packets.map (·.pts)) (hlt : position packets r < k) (hdts : KeepsDts packets [r])
    (i : Nat) : ¬BelongsTo pending r.frame i := by
  obtain ⟨own, hown, hpts⟩ := exists_at_position hknown
  have hmem := List.mem_of_getElem? hown
  intro h
  cases h with
  | pts h =>
    have hsame := h.2.1
    rw [pending_at hpending, Option.map_map] at hsame
    obtain ⟨packet, hpacket, hsame⟩ := Option.map_eq_some_iff.mp hsame
    have hposition := position_eq hdistinct hpacket hsame
    omega
  | dts _ h =>
    have hsame := h.2.1
    rw [pending_at hpending, Option.map_map] at hsame
    obtain ⟨packet, hpacket, hsame⟩ := Option.map_eq_some_iff.mp hsame
    have hframe : r.frame.dts = own.dts := hdts.1 own hmem r (by simp) hpts
    obtain ⟨hown', rfl⟩ := List.getElem?_eq_some_iff.mp hown
    obtain ⟨hpacket', rfl⟩ := List.getElem?_eq_some_iff.mp hpacket
    have hunset := List.pairwise_iff_getElem.mp hdts.2 _ _ hown' hpacket' (by omega) (hframe.symm.trans hsame.symm)
    exact h.1 (hframe.trans hunset)
  | oldest hunset _ _ _ =>
    rw [← hpts] at hunset
    exact hdistinct.valid own hmem hunset

/-- The ids that are given out increase, so a packet behind the frontier has another id than one before it. -/
lemma not_takesOwn (hdistinct : DistinctPts packets) (hids : packets.Pairwise fun a b => a.frameId < b.frameId)
    {packet : EncodedPacket} {n : Nat} (hpacket : packets[n]? = some packet) (hlt : position packets r < n)
    (htaken : r.takenFor = some packet.frameId) : ¬TakesOwn packets r := by
  rintro ⟨own, hmem, hpts, hsame⟩
  obtain ⟨m, hm⟩ := List.mem_iff_getElem?.mp hmem
  have hposition := position_eq hdistinct hm hpts
  have hid : packet.frameId = own.frameId := Option.some.inj (htaken.symm.trans hsame)
  obtain ⟨hm', rfl⟩ := List.getElem?_eq_some_iff.mp hm
  obtain ⟨hn', rfl⟩ := List.getElem?_eq_some_iff.mp hpacket
  have hless := List.pairwise_iff_getElem.mp hids m n hm' hn' (by omega)
  omega

/-- One turn of the loop of `publishDecodedFrames` advances the frontier. -/
lemma exists_advance {p : RTSPPuller} (hk : k ≤ packets.length)
    (hpending : p.pendingVideoFrames = (packets.drop k).map pendingMeta)
    (hids : packets.Pairwise fun a b => a.frameId < b.frameId) (bundles : List FrameBundle) (frame : MppFrame) :
    ∃ k' ≤ packets.length,
      (RTSPPuller.publishDecodedFrame (p, bundles) frame).1.pendingVideoFrames = (packets.drop k').map pendingMeta ∧
      (DistinctPts packets → frame.pts ∈ packets.map (·.pts) → Advance packets (p.matched frame) k k') := by
  by_cases hfound : ∃ i, BelongsTo p.pendingVideoFrames frame i
  · obtain ⟨i, hi⟩ := hfound
    obtain ⟨entry, hentry, htake⟩ := take_of_belongsTo hi
    obtain ⟨-, -, hrest, -⟩ := (aligned p bundles frame).hit i hi
    rw [pending_at hpending] at hentry
    obtain ⟨packet, hpacket, rfl⟩ := Option.map_eq_some_iff.mp hentry
    have htaken : (p.matched frame).takenFor = some packet.frameId := by
      rw [RTSPPuller.matched, htake]
      rfl
    have hlength : k + i < packets.length := (List.getElem?_eq_some_iff.mp hpacket).1
    refine ⟨k + (i + 1), by omega, ?_, fun hdistinct hknown => ?_⟩
    · rw [hrest, hpending, ← List.map_drop, List.drop_drop]
    · have hknown' : (p.matched frame).frame.pts ∈ packets.map (·.pts) := hknown
      obtain ⟨own, hown, hpts⟩ := exists_at_position hknown'
      by_cases hle : k ≤ position packets (p.matched frame)
      · have hsame := hi.unique (belongsTo_position hpending hdistinct hknown' hle)
        have hat : k + i = position packets (p.matched frame) := by omega
        rw [hat] at hpacket
        obtain rfl := Option.some.inj (hown.symm.trans hpacket)
        exact .own hle (by omega) ⟨own, List.mem_of_getElem? hown, hpts, htaken⟩
      · have hlt : position packets (p.matched frame) < k := by omega
        refine .gone hlt (by omega) (not_takesOwn hdistinct hids hpacket (by omega) htaken) fun hdts => ?_
        exact absurd hi (not_belongsTo_gone hpending hdistinct hknown' hlt hdts i)
  · have hnone := not_exists.mp hfound
    have htaken : (p.matched frame).takenFor = none := by
      rw [RTSPPuller.matched, take_of_not_belongsTo hnone]
      rfl
    refine ⟨k, hk, ?_, fun hdistinct hknown => ?_⟩
    · rw [(aligned p bundles frame).miss hnone]
      exact hpending
    · have hknown' : (p.matched frame).frame.pts ∈ packets.map (·.pts) := hknown
      by_cases hle : k ≤ position packets (p.matched frame)
      · exact absurd (belongsTo_position hpending hdistinct hknown' hle) (hnone _)
      · refine .gone (by omega) (Nat.le_refl k) (fun ⟨own, _, _, hown⟩ => ?_) fun _ => ⟨htaken, rfl⟩
        rw [htaken] at hown
        cases hown

end matching

/-! ## One connection -/

namespace ReturnsEach

variable {events : List DecoderEvent}

lemma of_submitted {packet : EncodedPacket} (h : ReturnsEach (events ++ [.submitted packet])) :
    ReturnsEach events ∧ packet.pts ∉ (submittedIn events).map (·.pts) := by
  generalize he : events ++ [DecoderEvent.submitted packet] = all at h
  cases h with
  | nil => simp at he
  | submitted h _ fresh =>
    obtain ⟨rfl, hlast⟩ := List.append_inj' he rfl
    cases hlast
    exact ⟨h, fresh⟩
  | returned =>
    obtain ⟨-, hlast⟩ := List.append_inj' he rfl
    cases hlast

lemma of_returned {r : ReturnedFrame} (h : ReturnsEach (events ++ [.returned r])) :
    ReturnsEach events ∧ r.frame.pts ∈ (submittedIn events).map (·.pts) := by
  generalize he : events ++ [DecoderEvent.returned r] = all at h
  cases h with
  | nil => simp at he
  | submitted =>
    obtain ⟨-, hlast⟩ := List.append_inj' he rfl
    cases hlast
  | returned h known _ =>
    obtain ⟨rfl, hlast⟩ := List.append_inj' he rfl
    cases hlast
    exact ⟨h, known⟩

lemma distinct (h : ReturnsEach events) : DistinctPts (submittedIn events) := by
  induction h with
  | nil => exact ⟨by simp [submittedIn], by simp [submittedIn]⟩
  | submitted _ valid fresh ih =>
    rw [submittedIn_submitted]
    constructor
    · simpa [or_imp, forall_and] using ⟨ih.valid, valid⟩
    · rw [List.map_append]
      exact List.nodup_append_comm.mp (List.nodup_cons.mpr ⟨fresh, ih.nodup⟩)
  | returned _ _ _ ih =>
    rw [submittedIn_returned]
    exact ih

end ReturnsEach

/-- The pending entries stand for the packets from a frontier on, and what a frame is matched with has been
enqueued with its image. -/
structure Decoding (events : List DecoderEvent) (p : RTSPPuller) (sent : List FrameBundle) : Prop where
  ids : (submittedIn events).Pairwise fun a b => a.frameId < b.frameId
  next : ∀ packet ∈ submittedIn events, packet.frameId < p.nextFrameId
  sent : ∀ r ∈ returnedIn events, ∀ id, r.takenFor = some id →
    ∃ bundle ∈ sent, bundle.frameId = id ∧ bundle.decodedImage = r.frame.image
  frontier : ∃ k ≤ (submittedIn events).length,
    p.pendingVideoFrames = ((submittedIn events).drop k).map pendingMeta ∧
      (ReturnsEach events → Frontier (submittedIn events) (returnedIn events) k)

lemma RTSPPuller.publishDecodedFrame_bundles (p : RTSPPuller) (bundles : List FrameBundle) (frame : MppFrame) :
    publishDecodedFrame (p, bundles) frame =
      ((publishDecodedFrame (p, []) frame).1, bundles ++ (publishDecodedFrame (p, []) frame).2) := by
  unfold publishDecodedFrame
  dsimp only
  split <;> simp

lemma RTSPPuller.foldl_publishDecodedFrame (p : RTSPPuller) (bundles : List FrameBundle) (frames : List MppFrame) :
    frames.foldl publishDecodedFrame (p, bundles) =
      ((p.publishDecodedFrames frames).1, bundles ++ (p.publishDecodedFrames frames).2) := by
  unfold publishDecodedFrames
  induction frames using List.reverseRecOn with
  | nil => simp
  | append_singleton frames frame ih =>
    rw [List.foldl_append, List.foldl_append, ih]
    generalize frames.foldl publishDecodedFrame (p, []) = acc
    simp only [List.foldl_cons, List.foldl_nil]
    rw [publishDecodedFrame_bundles acc.1 (bundles ++ acc.2), publishDecodedFrame_bundles acc.1 acc.2,
      List.append_assoc]

namespace Decoding

variable {events : List DecoderEvent} {p : RTSPPuller} {sent : List FrameBundle}

lemma opened (hnone : p.pendingVideoFrames = []) : Decoding [] p [] := by
  refine ⟨.nil, fun packet hmem => ?_, fun r hr => ?_, 0, Nat.le_refl 0, hnone, fun _ => ?_⟩
  · cases hmem
  · cases hr
  · refine ⟨fun r hr => ?_, fun r hr => ?_, fun _ => .inl rfl, ?_, fun _ before r after hsplit => ?_⟩
    · cases hr
    · cases hr
    · exact ⟨fun _ => .nil, fun _ r hr => by cases hr⟩
    · simp [returnedIn] at hsplit

/-- A video packet is pushed and submitted. -/
lemma submitted (h : Decoding events p sent) {pkt : AVPacket} {packet : EncodedPacket}
    (hpush : (p.pushPending pkt packet).pendingVideoFrames = p.pendingVideoFrames ++ [pendingMeta packet])
    (hid : packet.frameId = p.nextFrameId) :
    Decoding (events ++ [.submitted packet]) (p.pushPending pkt packet) sent := by
  have hnext : (p.pushPending pkt packet).nextFrameId = p.nextFrameId + 1 := rfl
  refine ⟨?_, fun other hmem => ?_, ?_, ?_⟩
  · rw [submittedIn_submitted, List.pairwise_append]
    refine ⟨h.ids, List.pairwise_singleton .., fun other hmem new hnew => ?_⟩
    rw [List.mem_singleton.mp hnew, hid]
    exact h.next other hmem
  · rw [submittedIn_submitted] at hmem
    rw [hnext]
    rcases List.mem_append.mp hmem with hmem | hmem
    · have hlt := h.next other hmem
      omega
    · rw [List.mem_singleton.mp hmem]
      omega
  · rw [returnedIn_submitted]
    exact h.sent
  · obtain ⟨k, hk, hpending, hfrontier⟩ := h.frontier
    rw [submittedIn_submitted, returnedIn_submitted]
    refine ⟨k, ?_, ?_, fun hreturns => ?_⟩
    · rw [List.length_append]
      omega
    · rw [hpush, hpending, List.drop_append_of_le_length hk, List.map_append]
      rfl
    · obtain ⟨hreturns, hfresh⟩ := hreturns.of_submitted
      exact (hfrontier hreturns).submitted hfresh

/-- A frame is returned and matched. -/
lemma returned (h : Decoding events p sent) (frame : MppFrame) :
    Decoding (events ++ [.returned (p.matched frame)]) (RTSPPuller.publishDecodedFrame (p, sent) frame).1
      (RTSPPuller.publishDecodedFrame (p, sent) frame).2 := by
  obtain ⟨k, hk, hpending, hfrontier⟩ := h.frontier
  obtain ⟨k', hk', hpending', hadvance⟩ := exists_advance hk hpending h.ids sent frame
  refine ⟨?_, fun packet hmem => ?_, fun r hr id htaken => ?_, k', ?_, ?_, fun hreturns => ?_⟩
  · rw [submittedIn_returned]
    exact h.ids
  · rw [submittedIn_returned] at hmem
    rw [(RTSPPuller.publishDecodedFrame_ids (p, sent) frame).2]
    exact h.next packet hmem
  · have hold : ∀ bundle ∈ sent, bundle ∈ (RTSPPuller.publishDecodedFrame (p, sent) frame).2 := by
      intro bundle hmem
      rw [RTSPPuller.publishDecodedFrame_bundles]
      exact List.mem_append_left _ hmem
    rw [returnedIn_returned] at hr
    rcases List.mem_append.mp hr with hr | hr
    · obtain ⟨bundle, hmem, hbundle⟩ := h.sent r hr id htaken
      exact ⟨bundle, hold bundle hmem, hbundle⟩
    · rw [List.mem_singleton.mp hr] at htaken ⊢
      by_cases hfound : ∃ i, BelongsTo p.pendingVideoFrames frame i
      · obtain ⟨i, hi⟩ := hfound
        obtain ⟨entry, hentry, htake⟩ := take_of_belongsTo hi
        obtain ⟨entry', hentry', -, hbundles⟩ := (aligned p sent frame).hit i hi
        obtain rfl := Option.some.inj (hentry.symm.trans hentry')
        have hid : entry.frameId = id := by
          rw [RTSPPuller.matched, htake] at htaken
          exact Option.some.inj htaken
        rw [hbundles]
        exact ⟨p.pendingFrame entry frame.image, by simp, hid, rfl⟩
      · rw [RTSPPuller.matched, take_of_not_belongsTo (not_exists.mp hfound)] at htaken
        cases htaken
  · rw [submittedIn_returned]
    exact hk'
  · rw [submittedIn_returned]
    exact hpending'
  · obtain ⟨hreturns, hknown⟩ := hreturns.of_returned
    rw [submittedIn_returned, returnedIn_returned]
    exact (hfrontier hreturns).returned hknown (hadvance hreturns.distinct hknown)

/-- The loop of `publishDecodedFrames`. -/
lemma returnedAll (h : Decoding events p sent) (frames : List MppFrame) :
    Decoding (events ++ p.returnedEvents frames) (p.publishDecodedFrames frames).1
      (sent ++ (p.publishDecodedFrames frames).2) := by
  have hfold : Decoding (events ++ p.returnedEvents frames) (frames.foldl RTSPPuller.publishDecodedFrame (p, sent)).1
      (frames.foldl RTSPPuller.publishDecodedFrame (p, sent)).2 := by
    induction frames generalizing events p sent with
    | nil =>
      rw [RTSPPuller.returnedEvents, List.append_nil]
      exact h
    | cons frame frames ih =>
      have hnext := ih (h.returned frame)
      rw [List.append_assoc, List.singleton_append] at hnext
      rw [RTSPPuller.publishDecodedFrame_bundles p sent] at hnext
      rw [RTSPPuller.returnedEvents, List.foldl_cons, RTSPPuller.publishDecodedFrame_bundles p sent]
      exact hnext
  rw [RTSPPuller.foldl_publishDecodedFrame] at hfold
  exact hfold

end Decoding

/-! ## The runs of the puller -/

/-- What a turn of the read loop submits and returns. -/
lemma decoderEvents_cases (s : PullState) (answer : ReadAnswer) :
    (s.videoPacket answer = none ∧ s.decoderEvents answer = []) ∨
      ∃ pkt packet frames, packet.frameId = s.puller.nextFrameId ∧
        (s.puller.pushPending pkt packet).pendingVideoFrames = s.puller.pendingVideoFrames ++ [pendingMeta packet] ∧
        s.decoderEvents answer = .submitted packet :: (s.puller.pushPending pkt packet).returnedEvents frames ∧
        s.readFrame answer = { s with
          publish := s.publish.enqueuePacket packet
          puller := ((s.puller.pushPending pkt packet).publishDecodedFrames frames).1
          pc := .publishing ((s.puller.pushPending pkt packet).publishDecodedFrames frames).2 } := by
  cases hread : s.videoPacket answer with
  | none =>
    refine .inl ⟨rfl, ?_⟩
    unfold PullState.decoderEvents
    rw [hread]
  | some video =>
    obtain ⟨packet, frames⟩ := video
    right
    cases answer with
    | error => cases hread
    | packet pkt cloned rescaled nowMonoMs decodedFrames =>
      have hevents : s.decoderEvents (.packet pkt cloned rescaled nowMonoMs decodedFrames) =
          .submitted packet :: (s.puller.pushPending pkt packet).returnedEvents frames := by
        unfold PullState.decoderEvents
        rw [hread]
      simp only [PullState.videoPacket, Option.ite_none_right_eq_some, Option.some.injEq, Prod.mk.injEq] at hread
      obtain ⟨⟨hstop, hcloned, hvideo⟩, rfl, rfl⟩ := hread
      refine ⟨pkt, _, decodedFrames, rfl, rfl, hevents, ?_⟩
      simp [PullState.readFrame, hstop, hcloned, hvideo]

/-- Every closed connection has all that its frames were matched with in its bundles; the one that is open has what
is still to be enqueued besides. -/
structure DecodeInv (s : DecodeState) : Prop where
  past : ∀ c ∈ s.past, ∃ p, Decoding c.events p c.bundles
  current : ∃ p, Decoding s.current.events p (s.current.bundles ++ s.pull.coming) ∧
    (s.pull.pc ≠ .opening → s.pull.pc ≠ .exited → s.pull.puller = p)

namespace DecodeInv

variable {s : DecodeState}

/-- A step that leaves the events and the bundles alone, and the puller if a connection is open. -/
lemma congr (h : DecodeInv s) {t : PullState} (hcoming : t.coming = s.pull.coming)
    (hpuller : t.pc ≠ .opening → t.pc ≠ .exited →
      s.pull.pc ≠ .opening ∧ s.pull.pc ≠ .exited ∧ t.puller = s.pull.puller) :
    DecodeInv { s with pull := t } := by
  obtain ⟨p, hp, hsame⟩ := h.current
  refine ⟨h.past, p, ?_, fun hopen hexit => ?_⟩
  · rw [hcoming]
    exact hp
  · obtain ⟨hopen', hexit', he⟩ := hpuller hopen hexit
    rw [he]
    exact hsame hopen' hexit'

/-- A connection is opened with nothing pending. -/
lemma opened (h : DecodeInv s) {t : PullState} (hcoming : s.pull.coming = []) (hnone : t.puller.pendingVideoFrames = [])
    (hpc : t.pc = .reading) : DecodeInv { pull := t, past := s.past ++ [s.current], current := {} } := by
  obtain ⟨p, hp, -⟩ := h.current
  refine ⟨fun c hc => ?_, t.puller, ?_, fun _ _ => rfl⟩
  · rcases List.mem_append.mp hc with hc | hc
    · exact h.past c hc
    · rw [hcoming, List.append_nil] at hp
      rw [List.mem_singleton.mp hc]
      exact ⟨p, hp⟩
  · have hcoming' : t.coming = [] := by rw [PullState.coming, hpc]
    rw [hcoming']
    exact .opened hnone

/-- A turn of the read loop. -/
lemma read (h : DecodeInv s) (hpc : s.pull.pc = .reading) (answer : ReadAnswer) :
    DecodeInv { s with
      pull := s.pull.readFrame answer
      current := { s.current with events := s.current.events ++ s.pull.decoderEvents answer } } := by
  obtain ⟨p, hp, hsame⟩ := h.current
  have hcoming : s.pull.coming = [] := by rw [PullState.coming, hpc]
  rcases decoderEvents_cases s.pull answer with ⟨hnone, hevents⟩ | ⟨pkt, packet, frames, hid, hpush, hevents, hread⟩
  · rw [hevents, List.append_nil]
    rcases readFrame_other hnone with hclose | ⟨hpuller, hpc'⟩
    · rw [hclose]
      exact h.congr hcoming.symm fun hopen => absurd rfl hopen
    · refine h.congr ?_ fun _ _ => ⟨by simp [hpc], by simp [hpc], hpuller⟩
      rw [PullState.coming, PullState.coming, hpc']
  · obtain rfl := hsame (by simp [hpc]) (by simp [hpc])
    rw [hcoming, List.append_nil] at hp
    have hnext := (hp.submitted hpush hid).returnedAll frames
    rw [List.append_assoc, List.singleton_append, ← hevents] at hnext
    rw [hread]
    exact ⟨h.past, _, hnext, fun _ _ => rfl⟩

/-- The next bundle is enqueued; the buffer of a stream that is pulled accepts it. -/
lemma enqueued (h : DecodeInv s) {bundles : List FrameBundle} (hpc : s.pull.pc = .publishing bundles)
    (hopen : s.pull.publish.buffer.stopped = false) :
    DecodeInv { s with
      pull := s.pull.enqueueFrame bundles
      current := { s.current with bundles := s.current.bundles ++ s.pull.acceptedBundle .enqueueFrame } } := by
  obtain ⟨p, hp, hsame⟩ := h.current
  have hpuller := hsame (by simp [hpc]) (by simp [hpc])
  have hcoming : s.pull.coming = bundles := by rw [PullState.coming, hpc]
  refine ⟨h.past, p, ?_, fun _ _ => ?_⟩
  · have hmove : s.pull.acceptedBundle .enqueueFrame ++ (s.pull.enqueueFrame bundles).coming = bundles := by
      cases bundles with
      | nil => simp [PullState.acceptedBundle, PullState.enqueueFrame, PullState.coming, hpc]
      | cons bundle bundles =>
        simp [PullState.acceptedBundle, PullState.enqueueFrame, PullState.coming, hpc, hopen]
    rw [hcoming] at hp
    rw [List.append_assoc, hmove]
    exact hp
  · cases bundles with
    | nil => exact hpuller
    | cons => exact hpuller

end DecodeInv

lemma decodeInv_reachable {cfg : StreamConfig} {s : DecodeState} (h : (decodeSystem cfg).Reachable s) : DecodeInv s := by
  apply h.invariant_of fun t ht => wf_inv_reachable ((decodeProjection cfg).reachable ht)
  · refine ⟨fun c hc => ?_, (pullSystem cfg).init.puller, .opened rfl, fun _ _ => rfl⟩
    cases hc
  · rintro s a u ⟨(hwf : s.pull.Wf), -⟩ hinv - hn
    obtain ⟨t, ht, rfl⟩ := Option.map_eq_some_iff.mp hn
    cases a with
    | openStream answer =>
      obtain ⟨hpc, rfl⟩ := pullSystem_openStream ht
      have hcoming : s.pull.coming = [] := by rw [PullState.coming, hpc]
      unfold DecodeState.record
      dsimp only
      split
      · rename_i hpc'
        refine hinv.opened hcoming ?_ hpc'
        have hledger := congrArg Ledger.unsettled (PullState.Wf.openStream hwf hpc answer).2
        dsimp only [PullState.ledger] at hledger
        rw [PullState.unsettled_boundary (.inr hpc'), PullState.unsettled_boundary (.inl hpc),
          hwf.closed (.inl hpc)] at hledger
        exact List.map_eq_nil_iff.mp hledger
      · rename_i hpc'
        rcases openStream_pc s.pull answer with hp | hp | hp
        · refine hinv.congr ?_ fun hopen => absurd hp hopen
          rw [hcoming, PullState.coming, hp]
        · exact absurd hp hpc'
        · refine hinv.congr ?_ fun _ hexit => absurd hp hexit
          rw [hcoming, PullState.coming, hp]
    | readFrame answer =>
      obtain ⟨hpc, rfl⟩ := pullSystem_readFrame ht
      exact hinv.read hpc answer
    | enqueueFrame =>
      obtain ⟨bundles, hpc, rfl⟩ := pullSystem_enqueueFrame ht
      exact hinv.enqueued hpc (PullState.Wf.open_of_pc hwf (by simp [hpc]))
    | requestStop =>
      cases ht
      exact hinv.congr rfl fun hopen hexit => ⟨hopen, hexit, rfl⟩
    | worker c =>
      cases ht
      exact hinv.congr rfl fun hopen hexit => ⟨hopen, hexit, rfl⟩
    | publish c =>
      cases ht
      exact hinv.congr rfl fun hopen hexit => ⟨hopen, hexit, rfl⟩
    | stopBuffer =>
      obtain ⟨-, rfl⟩ := pullSystem_stopBuffer ht
      exact hinv.congr rfl fun hopen hexit => ⟨hopen, hexit, rfl⟩

/-! ## Which frames keep their images -/

lemma DecodeInv.decoding {s : DecodeState} (h : DecodeInv s) {c : DecodedConnection} (hc : c ∈ s.finished) :
    ∃ p, Decoding c.events p c.bundles := by
  unfold DecodeState.finished at hc
  split at hc
  · exact h.past c hc
  · rename_i hpc
    rcases List.mem_append.mp hc with hc | hc
    · exact h.past c hc
    · obtain ⟨p, hp, -⟩ := h.current
      have hcoming : s.pull.coming = [] := by
        unfold PullState.coming
        split
        · exact absurd ‹_› (hpc _)
        · rfl
      rw [hcoming, List.append_nil] at hp
      rw [List.mem_singleton.mp hc]
      exact ⟨p, hp⟩

lemma Decoding.delivers_iff {c : DecodedConnection} {p : RTSPPuller} (h : Decoding c.events p c.bundles)
    {r : ReturnedFrame} (hr : r ∈ returnedIn c.events) : c.Delivers r ↔ TakesOwn (submittedIn c.events) r := by
  constructor
  · rintro ⟨packet, hmem, hpts, htaken, -⟩
    exact ⟨packet, hmem, hpts, htaken⟩
  · rintro ⟨packet, hmem, hpts, htaken⟩
    exact ⟨packet, hmem, hpts, htaken, h.sent r hr packet.frameId htaken⟩

/-- In every run and for every connection whose packets have distinct valid pts and whose frames come once each:
all frames are enqueued with their images under the ids of their packets exactly if they come in the order of
submission. If the frames keep the dts of their packets besides, then a frame that no frame of a later packet has
overtaken is enqueued so, and one that has been overtaken is discarded as unmatched. -/
theorem frames_delivered_iff (cfg : StreamConfig) {s : DecodeState} (h : (decodeSystem cfg).Reachable s)
    {c : DecodedConnection} (hc : c ∈ s.finished) (hreturns : ReturnsEach c.events) :
    ((∀ r ∈ returnedIn c.events, c.Delivers r) ↔
      InSubmissionOrder (submittedIn c.events) (returnedIn c.events)) ∧
    (KeepsDts (submittedIn c.events) (returnedIn c.events) →
      ∀ before r after, returnedIn c.events = before ++ r :: after →
        ((∀ r' ∈ before, position (submittedIn c.events) r' < position (submittedIn c.events) r) → c.Delivers r) ∧
        ((∃ r' ∈ before, position (submittedIn c.events) r < position (submittedIn c.events) r') →
          r.takenFor = none)) := by
  obtain ⟨p, hp⟩ := (decodeInv_reachable h).decoding hc
  obtain ⟨k, -, -, hfrontier⟩ := hp.frontier
  have hf := hfrontier hreturns
  refine ⟨?_, fun hdts before r after hsplit => ?_⟩
  · rw [← hf.all]
    exact forall₂_congr fun r hr => hp.delivers_iff hr
  · obtain ⟨hahead, hovertaken⟩ := hf.each hdts before r after hsplit
    have hr : r ∈ returnedIn c.events := by
      rw [hsplit]
      simp
    exact ⟨fun hlt => (hp.delivers_iff hr).mpr (hahead hlt), hovertaken⟩

/-- The event of a packet of `readVideo`. -/
def submittedVideo (pts frameId : Int) : DecoderEvent :=
  .submitted
    { packet := some { data := [], streamIndex := 0, pts := pts }
      streamIndex := 0
      pts := pts
      dts := avNoptsValue
      frameId := frameId }

/-- A decoded frame that can be told from the others by its descriptor. -/
def decodedVideo (pts fd : Int) : MppFrame := { pts := pts, image := some { fd := fd } }

/-- Two frames that come in order, the second one two packets late. -/
theorem frames_delivered_iff_late :
    ∃ s, (decodeSystem {}).Reachable s ∧ ∃ c ∈ s.finished,
      c.events = [submittedVideo 0 0, submittedVideo 40 1, .returned ⟨decodedVideo 0 5, some 0⟩,
        submittedVideo 80 2, .returned ⟨decodedVideo 40 6, some 1⟩] ∧
      ∀ r ∈ returnedIn c.events, c.Delivers r := by
  obtain ⟨s, hs, hp⟩ := Machine.reachable_of_exec_any (decodeSystem {})
    [openH264, readVideo 0 [], .enqueueFrame, readVideo 40 [decodedVideo 0 5], .enqueueFrame, .enqueueFrame,
      readVideo 80 [decodedVideo 40 6], .enqueueFrame, .enqueueFrame]
    (fun s => decide (∃ c ∈ s.finished, c.events = [submittedVideo 0 0, submittedVideo 40 1,
      .returned ⟨decodedVideo 0 5, some 0⟩, submittedVideo 80 2, .returned ⟨decodedVideo 40 6, some 1⟩])) (by decide)
  obtain ⟨c, hc, hevents⟩ := of_decide_eq_true hp
  have hreturns : ReturnsEach ([] ++ [submittedVideo 0 0] ++ [submittedVideo 40 1] ++
      [.returned ⟨decodedVideo 0 5, some 0⟩] ++ [submittedVideo 80 2] ++ [.returned ⟨decodedVideo 40 6, some 1⟩]) :=
    ((((ReturnsEach.nil.submitted (by decide) (by decide)).submitted (by decide) (by decide)).returned
      (by decide) (by decide)).submitted (by decide) (by decide)).returned (by decide) (by decide)
  refine ⟨s, hs, c, hc, hevents, ?_⟩
  refine (frames_delivered_iff {} hs hc ?_).1.mpr ?_
  · rw [hevents]
    exact hreturns
  · rw [hevents]
    unfold InSubmissionOrder
    decide

/-- A key frame, a P frame and two B frames, returned in the order of display: the P frame is returned last, is
discarded as unmatched, and no bundle has its image. -/
theorem not_delivered_in_displayOrder :
    ∃ s, (decodeSystem {}).Reachable s ∧ ∃ c ∈ s.finished, ReturnsEach c.events ∧
      (submittedIn c.events).map (·.pts) = [0, 120, 40, 80] ∧
      (returnedIn c.events).map (·.frame) = [decodedVideo 0 5, decodedVideo 40 6, decodedVideo 80 7, decodedVideo 120 8] ∧
      (∃ r ∈ returnedIn c.events, r.takenFor = none) ∧
      ∀ bundle ∈ c.bundles, bundle.decodedImage ≠ (decodedVideo 120 8).image := by
  obtain ⟨s, hs, hp⟩ := Machine.reachable_of_exec_any (decodeSystem {})
    [openH264, readVideo 0 [decodedVideo 0 5], .enqueueFrame, .enqueueFrame, readVideo 120 [], .enqueueFrame,
      readVideo 40 [decodedVideo 40 6], .enqueueFrame, .enqueueFrame, .enqueueFrame,
      readVideo 80 [decodedVideo 80 7, decodedVideo 120 8], .enqueueFrame, .enqueueFrame]
    (fun s => decide (∃ c ∈ s.finished, c.events = [submittedVideo 0 0, .returned ⟨decodedVideo 0 5, some 0⟩,
      submittedVideo 120 1, submittedVideo 40 2, .returned ⟨decodedVideo 40 6, some 2⟩, submittedVideo 80 3,
      .returned ⟨decodedVideo 80 7, some 3⟩, .returned ⟨decodedVideo 120 8, none⟩] ∧
      ∀ bundle ∈ c.bundles, bundle.decodedImage ≠ (decodedVideo 120 8).image)) (by decide)
  obtain ⟨c, hc, hevents, himages⟩ := of_decide_eq_true hp
  have hreturns : ReturnsEach ([] ++ [submittedVideo 0 0] ++ [.returned ⟨decodedVideo 0 5, some 0⟩] ++
      [submittedVideo 120 1] ++ [submittedVideo 40 2] ++ [.returned ⟨decodedVideo 40 6, some 2⟩] ++
      [submittedVideo 80 3] ++ [.returned ⟨decodedVideo 80 7, some 3⟩] ++ [.returned ⟨decodedVideo 120 8, none⟩]) :=
    (((((((ReturnsEach.nil.submitted (by decide) (by decide)).returned (by decide) (by decide)).submitted
      (by decide) (by decide)).submitted (by decide) (by decide)).returned (by decide) (by decide)).submitted
      (by decide) (by decide)).returned (by decide) (by decide)).returned (by decide) (by decide)
  refine ⟨s, hs, c, hc, ?_, ?_, ?_, ?_, himages⟩
  · rw [hevents]
    exact hreturns
  · rw [hevents]
    decide
  · rw [hevents]
    decide
  · rw [hevents]
    decide

end MediaAgent
