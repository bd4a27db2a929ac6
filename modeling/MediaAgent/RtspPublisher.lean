import MediaAgent.Recorder

/-!
# The publisher

`stream/RtspPublisher.cpp`. Every public call holds the mutex from start to end. What libav answers is an argument:
whether the output can be opened (the context, its tracks, the connection and the header), and whether a packet is
referenced and written. The log lines are left out.
-/

namespace MediaAgent

/-- The publisher, with the packets that the muxer has taken. -/
structure RtspPublisher where
  streamId : Bytes := []
  outputUrl : Bytes := []
  inputStreams : List RtspStreamSpec := []
  streams : List OutputStreamState := []
  formatContext : Bool := false
  configured : Bool := false
  delivered : List WrittenPacket := []

/-- One call of `writePacket`: the first write, the reopening with the time bases of the muxer unless it fails, and
the write after it. -/
structure PublishCall where
  packet : AVPacket
  first : WriteAnswer := {}
  reopened : Option (Nat → Int × Int) := none
  second : WriteAnswer := {}

namespace RtspPublisher

def closeLocked (p : RtspPublisher) : RtspPublisher :=
  { p with formatContext := false, streams := [], configured := false }

def openLocked (p : RtspPublisher) (timeBases : Option (Nat → Int × Int)) : Bool × RtspPublisher :=
  if p.outputUrl = [] ∨ p.inputStreams = [] then (false, p)
  else
    match timeBases with
    | none => (false, p)
    | some timeBases =>
      (true, { p with
        formatContext := true
        streams := buildOutputStreamMap p.inputStreams timeBases
        configured := true })

def configure (p : RtspPublisher) (streamId outputUrl : Bytes) (inputStreams : List RtspStreamSpec)
    (timeBases : Option (Nat → Int × Int)) : Bool × RtspPublisher :=
  let p := { p.closeLocked with streamId := streamId, outputUrl := outputUrl, inputStreams := inputStreams }
  if p.outputUrl = [] ∨ p.inputStreams = [] then (false, p) else p.openLocked timeBases

def close (p : RtspPublisher) : RtspPublisher :=
  { p.closeLocked with outputUrl := [], inputStreams := [] }

def writePacketLocked (rescale : Int → Int × Int → Int × Int → Int) (p : RtspPublisher) (packet : AVPacket)
    (answer : WriteAnswer) : Bool × RtspPublisher :=
  match p.streams.find? (·.spec.inputStreamIndex == packet.streamIndex) with
  | none => (false, p)
  | some state =>
    if !answer.cloned then (false, p)
    else
      let muxPacket := { packet with streamIndex := Int.ofNat state.index }
      let muxPacket := Recorder.packetRescaleTs rescale muxPacket state.spec.timeBase state.timeBase
      if !answer.written then (false, p)
      else (true, { p with delivered := p.delivered ++ [⟨packet, muxPacket⟩] })

def writePacket (rescale : Int → Int × Int → Int × Int → Int) (p : RtspPublisher) (call : PublishCall) :
    Bool × RtspPublisher :=
  if !p.configured || !p.formatContext then (false, p)
  else
    let (written, p) := p.writePacketLocked rescale call.packet call.first
    if written then (true, p)
    else
      let (opened, p) := p.closeLocked.openLocked call.reopened
      if !opened then (false, p) else p.writePacketLocked rescale call.packet call.second

/-- The publisher after a history of calls. -/
def writePackets (rescale : Int → Int × Int → Int × Int → Int) (p : RtspPublisher) (history : List PublishCall) :
    RtspPublisher :=
  history.foldl (fun p call => (p.writePacket rescale call).2) p

/-- The output is open with a track for each spec. -/
structure Open (p : RtspPublisher) (specs : List RtspStreamSpec) : Prop where
  configured : p.configured = true
  formatContext : p.formatContext = true
  outputUrl : p.outputUrl ≠ []
  specs_ne : specs ≠ []
  inputStreams : p.inputStreams = specs
  streams : p.streams.map (·.spec) = specs

end RtspPublisher

/-- The packet has a track, and the muxer takes it. -/
def PublishCall.Taken (call : PublishCall) (specs : List RtspStreamSpec) (answer : WriteAnswer) : Prop :=
  HasTrack specs call.packet ∧ answer.cloned = true ∧ answer.written = true

/-- A packet of a configured track is accepted and delivered if the output can be opened again and written. -/
def RtspPublisher.Recovers (rescale : Int → Int × Int → Int × Int → Int) (p : RtspPublisher)
    (specs : List RtspStreamSpec) : Prop :=
  ∀ call : PublishCall, call.reopened.isSome = true → call.Taken specs call.second →
    (p.writePacket rescale call).1 = true ∧
    ∃ w : WrittenPacket, w.source = call.packet ∧ w.Kept ∧
      (p.writePacket rescale call).2.delivered = p.delivered ++ [w]

namespace RtspPublisher

variable (rescale : Int → Int × Int → Int × Int → Int) {p : RtspPublisher} {specs : List RtspStreamSpec}

lemma find?_track_isSome {streams : List OutputStreamState} {packet : AVPacket}
    (h : streams.map (·.spec) = specs) :
    (streams.find? (·.spec.inputStreamIndex == packet.streamIndex)).isSome = true ↔ HasTrack specs packet := by
  rw [List.find?_isSome, ← h, HasTrack]
  constructor
  · rintro ⟨state, hstate, hindex⟩
    exact ⟨state.spec, List.mem_map_of_mem hstate, beq_iff_eq.mp hindex⟩
  · rintro ⟨spec, hspec, hindex⟩
    obtain ⟨state, hstate, rfl⟩ := List.mem_map.mp hspec
    exact ⟨state, hstate, beq_iff_eq.mpr hindex⟩

lemma writePacketLocked_taken (h : p.streams.map (·.spec) = specs) {call : PublishCall} {answer : WriteAnswer}
    (htaken : call.Taken specs answer) : ∃ w : WrittenPacket, w.source = call.packet ∧ w.Kept ∧
      p.writePacketLocked rescale call.packet answer = (true, { p with delivered := p.delivered ++ [w] }) := by
  obtain ⟨htrack, hcloned, hwritten⟩ := htaken
  obtain ⟨state, hstate⟩ := Option.isSome_iff_exists.mp ((find?_track_isSome h).mpr htrack)
  unfold writePacketLocked
  rw [hstate]
  dsimp only
  rw [hcloned, hwritten]
  exact ⟨_, rfl, ⟨rfl, rfl⟩, rfl⟩

lemma writePacketLocked_not_taken (h : p.streams.map (·.spec) = specs) {call : PublishCall} {answer : WriteAnswer}
    (htaken : ¬call.Taken specs answer) : p.writePacketLocked rescale call.packet answer = (false, p) := by
  unfold writePacketLocked
  cases hfind : p.streams.find? (·.spec.inputStreamIndex == call.packet.streamIndex) with
  | none => rfl
  | some state =>
    have htrack : HasTrack specs call.packet := (find?_track_isSome h).mp (by rw [hfind]; rfl)
    dsimp only
    by_cases hcloned : answer.cloned = true
    · have hwritten : answer.written = false := Bool.eq_false_iff.mpr fun hw => htaken ⟨htrack, hcloned, hw⟩
      rw [hcloned, hwritten]
      rfl
    · rw [Bool.eq_false_iff.mpr hcloned]
      rfl

/-- The output that `writePacket` opens after a failed write. -/
def reopen (p : RtspPublisher) (timeBases : Nat → Int × Int) : RtspPublisher :=
  { p with
    formatContext := true
    streams := buildOutputStreamMap p.inputStreams timeBases
    configured := true }

lemma Open.reopen (h : p.Open specs) (timeBases : Nat → Int × Int) : (p.reopen timeBases).Open specs where
  configured := rfl
  formatContext := rfl
  outputUrl := h.outputUrl
  specs_ne := h.specs_ne
  inputStreams := h.inputStreams
  streams := by rw [RtspPublisher.reopen, Recorder.buildOutputStreamMap_spec, h.inputStreams]

lemma Open.closeLocked_ne (h : p.Open specs) :
    ¬(p.closeLocked.outputUrl = [] ∨ p.closeLocked.inputStreams = []) := by
  rintro (hurl | hspecs)
  · exact h.outputUrl hurl
  · exact h.specs_ne (h.inputStreams.symm.trans hspecs)

lemma Open.not_closed (h : p.Open specs) : ¬(!p.configured || !p.formatContext) = true := by
  rw [h.configured, h.formatContext]
  decide

lemma writePacket_taken (h : p.Open specs) {call : PublishCall} (htaken : call.Taken specs call.first) :
    ∃ w : WrittenPacket, w.source = call.packet ∧ w.Kept ∧
      p.writePacket rescale call = (true, { p with delivered := p.delivered ++ [w] }) := by
  obtain ⟨w, hsource, hkept, hwrite⟩ := writePacketLocked_taken rescale h.streams htaken
  refine ⟨w, hsource, hkept, ?_⟩
  rw [writePacket, if_neg h.not_closed, hwrite]
  rfl

/-- `writePacket` after the first write has failed: the output is closed and opened again. -/
lemma writePacket_not_taken (h : p.Open specs) {call : PublishCall} (htaken : ¬call.Taken specs call.first) :
    p.writePacket rescale call =
      match call.reopened with
      | none => (false, p.closeLocked)
      | some timeBases => (p.reopen timeBases).writePacketLocked rescale call.packet call.second := by
  rw [writePacket, if_neg h.not_closed, writePacketLocked_not_taken rescale h.streams htaken]
  unfold openLocked
  dsimp only
  rw [if_neg h.closeLocked_ne]
  cases call.reopened with
  | none => rfl
  | some timeBases => rfl

/-- The state that `writePacket` leaves behind when it cannot open the output again. -/
lemma writePacket_closed (h : p.Open specs) {call : PublishCall} (htaken : ¬call.Taken specs call.first)
    (hreopened : call.reopened = none) : p.writePacket rescale call = (false, p.closeLocked) := by
  rw [writePacket_not_taken rescale h htaken, hreopened]

lemma writePacket_reopened (h : p.Open specs) {call : PublishCall} (htaken : ¬call.Taken specs call.first)
    {timeBases : Nat → Int × Int} (hreopened : call.reopened = some timeBases) :
    p.writePacket rescale call = (p.reopen timeBases).writePacketLocked rescale call.packet call.second := by
  rw [writePacket_not_taken rescale h htaken, hreopened]

lemma Open.delivered (h : p.Open specs) (written : List WrittenPacket) :
    Open { p with delivered := written } specs :=
  ⟨h.configured, h.formatContext, h.outputUrl, h.specs_ne, h.inputStreams, h.streams⟩

/-- A second write that fails leaves the output open. -/
lemma Open.writePacketLocked (h : p.Open specs) (call : PublishCall) (answer : WriteAnswer) :
    (p.writePacketLocked rescale call.packet answer).2.Open specs := by
  by_cases htaken : call.Taken specs answer
  · obtain ⟨w, -, -, hwrite⟩ := writePacketLocked_taken rescale h.streams htaken
    rw [hwrite]
    exact h.delivered _
  · rw [writePacketLocked_not_taken rescale h.streams htaken]
    exact h

lemma Open.writePacket (h : p.Open specs) {call : PublishCall}
    (hcall : call.Taken specs call.first ∨ call.reopened.isSome = true) :
    (p.writePacket rescale call).2.Open specs := by
  by_cases htaken : call.Taken specs call.first
  · obtain ⟨w, -, -, hwrite⟩ := writePacket_taken rescale h htaken
    rw [hwrite]
    exact h.delivered _
  · obtain ⟨timeBases, hreopened⟩ := Option.isSome_iff_exists.mp (hcall.resolve_left htaken)
    rw [writePacket_reopened rescale h htaken hreopened]
    exact (h.reopen timeBases).writePacketLocked rescale call call.second

lemma Open.recovers (h : p.Open specs) : p.Recovers rescale specs := by
  intro call hreopened hsecond
  by_cases htaken : call.Taken specs call.first
  · obtain ⟨w, hsource, hkept, hwrite⟩ := writePacket_taken rescale h htaken
    rw [hwrite]
    exact ⟨rfl, w, hsource, hkept, rfl⟩
  · obtain ⟨timeBases, hsome⟩ := Option.isSome_iff_exists.mp hreopened
    obtain ⟨w, hsource, hkept, hwrite⟩ := writePacketLocked_taken rescale (h.reopen timeBases).streams hsecond
    rw [writePacket_reopened rescale h htaken hsome, hwrite]
    exact ⟨rfl, w, hsource, hkept, rfl⟩

/-- A publisher that is not configured refuses every packet and stays as it is. -/
lemma writePacket_not_configured (h : p.configured = false) (call : PublishCall) :
    p.writePacket rescale call = (false, p) := by
  unfold writePacket
  rw [h]
  rfl

lemma writePackets_not_configured (h : p.configured = false) (history : List PublishCall) :
    p.writePackets rescale history = p := by
  induction history with
  | nil => rfl
  | cons call history ih =>
    unfold writePackets at ih ⊢
    rw [List.foldl_cons, writePacket_not_configured rescale h, ih]

lemma not_recovers (h : p.configured = false) (hne : specs ≠ []) : ¬p.Recovers rescale specs := by
  intro hrecovers
  obtain ⟨spec, hspec⟩ := List.exists_mem_of_ne_nil specs hne
  let call : PublishCall :=
    { packet := { data := [], streamIndex := spec.inputStreamIndex }, reopened := some fun _ => (1, 1000) }
  have haccepted := (hrecovers call rfl ⟨⟨spec, hspec, rfl⟩, rfl, rfl⟩).1
  rw [writePacket_not_configured rescale h] at haccepted
  exact Bool.false_ne_true haccepted

/-- The output stays open through a history of calls none of which fails to write and to reopen. The first call that
does ends it. -/
lemma Open.writePackets (h : p.Open specs) (history : List PublishCall) :
    ((∀ call ∈ history, call.Taken specs call.first ∨ call.reopened.isSome = true) ∧
        (p.writePackets rescale history).Open specs) ∨
      ((∃ call ∈ history, ¬(call.Taken specs call.first ∨ call.reopened.isSome = true)) ∧
        (p.writePackets rescale history).configured = false) := by
  induction history generalizing p with
  | nil => exact .inl ⟨by simp, h⟩
  | cons call history ih =>
    by_cases hcall : call.Taken specs call.first ∨ call.reopened.isSome = true
    · rcases ih (h.writePacket rescale hcall) with ⟨hall, hopen⟩ | ⟨⟨bad, hmem, hbad⟩, hclosed⟩
      · exact .inl ⟨List.forall_mem_cons.mpr ⟨hcall, hall⟩, hopen⟩
      · exact .inr ⟨⟨bad, List.mem_cons_of_mem call hmem, hbad⟩, hclosed⟩
    · right
      refine ⟨⟨call, List.mem_cons_self, hcall⟩, ?_⟩
      obtain ⟨htaken, hreopened⟩ := not_or.mp hcall
      have hclosed := writePacket_closed rescale h htaken (Option.not_isSome_iff_eq_none.mp hreopened)
      have hrest := writePackets_not_configured rescale (p := p.closeLocked) rfl history
      unfold RtspPublisher.writePackets at hrest ⊢
      rw [List.foldl_cons, hclosed, hrest]
      rfl

lemma configure_open {streamId outputUrl : Bytes} {timeBases : Option (Nat → Int × Int)} {p₀ : RtspPublisher}
    (h : p₀.configure streamId outputUrl specs timeBases = (true, p)) : p.Open specs := by
  unfold configure at h
  dsimp only at h
  by_cases hempty : outputUrl = [] ∨ specs = []
  · rw [if_pos hempty] at h
    cases h
  · rw [if_neg hempty] at h
    unfold openLocked at h
    rw [if_neg hempty] at h
    cases timeBases with
    | none => cases h
    | some timeBases =>
      obtain ⟨hurl, hspecs⟩ := not_or.mp hempty
      cases h
      exact ⟨rfl, rfl, hurl, hspecs, rfl, Recorder.buildOutputStreamMap_spec specs timeBases⟩

/-- A configured publisher recovers after a history of calls exactly if in none of them the first write fails and the
output cannot be opened again. -/
theorem recovers_iff {p₀ : RtspPublisher} {streamId outputUrl : Bytes} {timeBases : Option (Nat → Int × Int)}
    (h : p₀.configure streamId outputUrl specs timeBases = (true, p)) (history : List PublishCall) :
    (p.writePackets rescale history).Recovers rescale specs ↔
      ∀ call ∈ history, call.Taken specs call.first ∨ call.reopened.isSome = true := by
  have hopen := configure_open h
  rcases hopen.writePackets rescale history with ⟨hall, hstill⟩ | ⟨⟨call, hmem, hcall⟩, hclosed⟩
  · exact iff_of_true (hstill.recovers rescale) hall
  · exact iff_of_false (not_recovers rescale hclosed hopen.specs_ne) fun hall => hcall (hall call hmem)

/-- A publisher with one video track. -/
def oneTrack : RtspPublisher :=
  (({} : RtspPublisher).configure [0x63] [0x75] [{ inputStreamIndex := 0 }] (some fun _ => (1, 90000))).2

/-- A packet of the track whose write fails, with the answer to the reopening. -/
def failedCall (reopened : Option (Nat → Int × Int)) : PublishCall :=
  { packet := { data := [0], streamIndex := 0 }, first := { written := false }, reopened := reopened }

theorem recovers_oneTrack :
    (oneTrack.writePackets (fun ts _ _ => ts) [failedCall (some fun _ => (1, 1000))]).Recovers (fun ts _ _ => ts)
      [{ inputStreamIndex := 0 }] := by
  have hconfigure : configure {} [0x63] [0x75] [{ inputStreamIndex := 0 }] (some fun _ => (1, 90000)) =
      (true, oneTrack) := rfl
  refine (recovers_iff (fun ts _ _ => ts) hconfigure [failedCall (some fun _ => (1, 1000))]).mpr ?_
  intro call hcall
  obtain rfl := List.mem_singleton.mp hcall
  exact .inr rfl

theorem not_recovers_failedCall :
    ¬∀ rescale (p₀ p : RtspPublisher) streamId outputUrl specs timeBases history,
      p₀.configure streamId outputUrl specs timeBases = (true, p) →
        (p.writePackets rescale history).Recovers rescale specs := by
  intro h
  have hrecovers := h (fun ts _ _ => ts) {} oneTrack [0x63] [0x75] [{ inputStreamIndex := 0 }]
    (some fun _ => (1, 90000)) [failedCall none] rfl
  have haccepted := (hrecovers { failedCall none with first := {}, reopened := some fun _ => (1, 90000) } rfl
    ⟨⟨_, List.mem_cons_self, rfl⟩, rfl, rfl⟩).1
  revert haccepted
  decide

end RtspPublisher

end MediaAgent
