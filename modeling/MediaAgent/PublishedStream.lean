import MediaAgent.Handover
import MediaAgent.Recorder
import MediaAgent.RecordingNames
import MediaAgent.ResultMatching
import MediaAgent.SeiInject

/-!
# The published stream

The message that `pipeline/Utils.cpp` builds for a packet, and the packets that `publishLoop` writes: those of the puller,
each with the message of its result in front. A receiver splits a packet into its NAL units and reads the messages.
-/

namespace MediaAgent
open ByteReader NalUnits Transition TreeMaps

def kOsdAlignLeft : UInt8 := 0
def kOsdAlignRight : UInt8 := 2
def kMspAnchorTopLeft : UInt8 := 0
def kMspAnchorBottomRight : UInt8 := 3

/-- The text of the local time, as `%Y-%m-%d %H:%M:%S`. -/
def makeOsdTimeText (t : Tm) : Bytes :=
  decimal t.year ++ [0x2D] ++ twoDigits t.mon ++ [0x2D] ++ twoDigits t.mday ++ [0x20] ++ twoDigits t.hour ++ [0x3A] ++
    twoDigits t.min ++ [0x3A] ++ twoDigits t.sec

def topLeftTime (now : Tm) : SeiTextOsdItem where
  flags := kOsdAlignLeft ||| ((1 : UInt8) <<< 2) ||| ((0 : UInt8) <<< 3) ||| (kMspAnchorTopLeft <<< 4)
  style := 0
  x := ⟨0x3CA3D70A⟩
  y := ⟨0x3D23D70A⟩
  width := ⟨0x3E8F5C29⟩
  height := ⟨0x3D4CCCCD⟩
  text := makeOsdTimeText now
  textColor := 0xFFFFFFFF
  bgColor := 0x00000000

def bottomRightLocation : SeiTextOsdItem where
  flags := kOsdAlignRight ||| ((1 : UInt8) <<< 2) ||| ((0 : UInt8) <<< 3) ||| (kMspAnchorBottomRight <<< 4)
  style := 0
  x := ⟨0x3F7AE148⟩
  y := ⟨0x3F733333⟩
  width := ⟨0⟩
  height := ⟨0⟩
  text := "Chengdu\n高新\n软件园".toUTF8.toList
  textColor := 0xFFFFFFFF
  bgColor := 0x00000000

/-- `buildSeiMessageContext`, without the fields that the injector does not read. -/
def buildSeiMessageContext (now : Tm) (bboxItems : List DetectionObject) : SeiMessageContext where
  bboxItems := bboxItems
  textOsdItems := [topLeftTime now, bottomRightLocation]

def videoNalLengthSizeFromSpecs (specs : List RtspStreamSpec) : Int :=
  match specs.find? (·.mediaType = .video) with
  | none => 0
  | some spec =>
    if spec.codecId = 27 then parseNalLengthSizeFromExtradata .h264 spec.extradata
    else if spec.codecId = 173 then parseNalLengthSizeFromExtradata .h265 spec.extradata
    else 0

/-- What a turn of `publishLoop` meets when it injects: the local time, the specs that the puller gave when it last
opened the stream, and the answers of libavcodec. -/
structure InjectAnswers where
  osdTime : Tm
  specs : List RtspStreamSpec := []
  av : AvAnswers := {}

/-- `video_nal_length_size` of the stream, which is 0 before the puller has opened it. -/
def InjectAnswers.videoNalLengthSize (answers : InjectAnswers) : Int := videoNalLengthSizeFromSpecs answers.specs

/-- A packet that is handed to the publisher and the recorder, and how it came about. -/
structure FinalPacket where
  source : EncodedPacket
  codecType : Option SeiCodecType
  taken : Option FrameInferenceResult
  takenAtMonoMs : Int
  answers : InjectAnswers
  finalPacket : Option AVPacket

/-- The stream with the results that were ever cached, the one that was taken last, and the packets written. -/
structure StreamState where
  hand : HandoverState
  results : List FrameInferenceResult := []
  taken : Option FrameInferenceResult := none
  takenAtMonoMs : Int := 0
  written : List FinalPacket := []

def FinalPacket.message (w : FinalPacket) : SeiMessageContext :=
  buildSeiMessageContext w.answers.osdTime ((w.taken.map (·.objects)).getD [])

section
variable (q : Quantizers)

/-- `final_packet`: what `inject` gives, or the source. -/
def StreamState.finalPacket (s : StreamState) (p : EncodedPacket) (codecType : Option SeiCodecType)
    (answers : InjectAnswers) : FinalPacket :=
  let w : FinalPacket := ⟨p, codecType, s.taken, s.takenAtMonoMs, answers, none⟩
  { w with
    finalPacket := match codecType with
      | some codecType => (inject q answers.av p codecType answers.videoNalLengthSize w.message).2.or p.packet
      | none => p.packet }

/-- The step of `publishLoop`, with the packet that it writes. -/
def StreamState.publish (s : StreamState) (c : TakeContext) (answers : InjectAnswers) : StreamState :=
  match s.hand.pull.publish.pc with
  | .taking p _ =>
    { s with
      taken := (s.hand.pull.publish.buffer.takeCachedInferenceResult c.visit p.frameId p.pts c.nowMonoMs).1
      takenAtMonoMs := c.nowMonoMs }
  | .writing p codecType => { s with written := s.written ++ [s.finalPacket q p codecType answers] }
  | _ => s

def StreamState.after (s : StreamState) (answers : InjectAnswers) : PullAction → StreamState
  | .worker (.updateCachedInferenceResult r) => { s with results := s.results ++ [r] }
  | .publish c => s.publish q c answers
  | _ => s

/-- The puller of a stream, its buffer, the workers and `publishLoop`, with the packets that it writes. -/
def streamSystem (cfg : StreamConfig) : Machine StreamState (PullAction × InjectAnswers) where
  init := { hand := (handoverSystem cfg).init }
  next s a := ((handoverSystem cfg).next s.hand a.1).map fun hand => { s.after q a.2 a.1 with hand := hand }

end

/-! ## The receiver -/

/-- The MSP message of a NAL unit, if it is one. -/
def mspOfUnit (codecType : SeiCodecType) (unit : Bytes) : Option Msp :=
  match readSeiNal codecType unit with
  | none => none
  | some (message, _) =>
    if message.payloadType = 5 then
      match mspUserData.run message.payload with
      | some (m, []) => some m
      | _ => none
    else none

inductive Framing
  | annexB
  | lengths (n : Nat)

namespace Framing

def units : Framing → Bytes → Option (List Bytes)
  | annexB, data => some (annexBUnits data)
  | lengths n, data => lengthPrefixedUnits n data

/-- The packet is framed so, and looks so to the injector. -/
def Fits (framing : Framing) (nalLengthSize : Int) (data : Bytes) : Prop :=
  match framing with
  | annexB => StartsWithStartCode data ∧ 4 ≤ data.length
  | lengths n => nalLengthSize = n ∧ 0 < n ∧ isAnnexB data = false ∧
      ∃ units : List Bytes, (∀ u ∈ units, u.length < 256 ^ n) ∧ data = units.flatMap (lengthPrefixed n)

/-- The length of a unit fits the framing. -/
def Holds (framing : Framing) (unit : Bytes) : Prop :=
  match framing with
  | annexB => True
  | lengths n => unit.length < 256 ^ n

end Framing

/-- The message that stands for a context. -/
def mspOf (q : Quantizers) (c : SeiMessageContext) : Msp :=
  let items := (c.bboxItems.map (bboxItem q) ++ c.textOsdItems.map (textOsdItem q)).take 255
  ⟨1, 0, 0, UInt8.ofNat items.length, items⟩

lemma readSeiNal_seiNalUnit (q : Quantizers) (codecType : SeiCodecType) (c : SeiMessageContext) :
    readSeiNal codecType (seiNalUnit q codecType c) =
      some (⟨5, (buildMspV1UserDataPayload q c).length, buildMspV1UserDataPayload q c⟩, [0x80]) := by
  cases codecType with
  | h264 => exact readSeiNal_buildSeiNal _ fun _ => rfl
  | h265 => exact readSeiNal_buildSeiNal _ fun _ => rfl

lemma mspOfUnit_seiNalUnit (q : Quantizers) (codecType : SeiCodecType) (c : SeiMessageContext) :
    mspOfUnit codecType (seiNalUnit q codecType c) = some (mspOf q c) := by
  have hdrawn : (c.bboxItems.map (bboxItem q) ++ c.textOsdItems.map (textOsdItem q)).take 255 =
      (drawnItems q c).map Prod.snd := by
    simp [drawnItems, List.map_take, Function.comp_def]
  rw [mspOfUnit, readSeiNal_seiNalUnit]
  dsimp only
  rw [if_pos rfl, mspUserData_run, mspOf, hdrawn, List.length_map]

/-! ## One packet -/

lemma videoNalLengthSizeFromSpecs_le (specs : List RtspStreamSpec) : videoNalLengthSizeFromSpecs specs ≤ 4 := by
  have hparsed : ∀ codecType extradata, parseNalLengthSizeFromExtradata codecType extradata ≤ 4 := by
    intro codecType extradata
    rcases parseNalLengthSizeFromExtradata_range codecType extradata with hnone | ⟨n, hn, -, hle⟩
    · omega
    · omega
  unfold videoNalLengthSizeFromSpecs
  split
  · decide
  · split
    · exact hparsed _ _
    · split
      · exact hparsed _ _
      · decide

/-- The units of the packet stay, and the SEI NAL unit comes before them if the output packet could be made. -/
lemma inject_units (q : Quantizers) (answers : AvAnswers) {sourcePacket : EncodedPacket} {packet : AVPacket}
    (codecType : SeiCodecType) {specs : List RtspStreamSpec} {context : SeiMessageContext}
    (hp : sourcePacket.packet = some packet) (hitems : context.hasItems = true) {framing : Framing}
    (hfits : framing.Fits (videoNalLengthSizeFromSpecs specs) packet.data) :
    ∃ out units, (inject q answers sourcePacket codecType (videoNalLengthSizeFromSpecs specs) context).2 = some out ∧
      framing.units packet.data = some units ∧
      (out = packet ∧ (packet.data = [] ∨ answers.allocated = false ∨ answers.propsCopied = false ∨
          ¬framing.Holds (seiNalUnit q codecType context)) ∨
        framing.units out.data = some (seiNalUnit q codecType context :: units) ∧
          packet = { out with data := packet.data }) := by
  have hsei := isSeiNal_seiNalUnit q codecType context
  cases framing with
  | annexB =>
    obtain ⟨hstart, hsize⟩ := hfits
    have hannexB : isAnnexB packet.data = true := (isAnnexB_iff _).mpr ⟨hsize, hstart⟩
    have hdata : packet.data ≠ [] := fun he => by
      rw [he] at hsize
      cases hsize
    rw [inject_eq q answers codecType _ hp hdata hitems]
    simp only [hannexB, if_true]
    have hne : ¬(toAnnexBNal (seiNalUnit q codecType context)).isEmpty = true := by simp [toAnnexBNal, kAnnexBStartCode]
    split
    · rename_i hfail
      exact ⟨packet, _, rfl, rfl, .inl ⟨rfl, .inr ((hfail.resolve_left hne).imp id .inl)⟩⟩
    · exact ⟨_, _, rfl, rfl, .inr ⟨congrArg some (annexBUnits_insert hsei.clean hsei.last (by decide) hstart), rfl⟩⟩
  | lengths n =>
    obtain ⟨hsize, hpos, hannexB, units, hunits, hdata⟩ := hfits
    have hn : 1 ≤ n ∧ n ≤ 4 := by
      have hle := videoNalLengthSizeFromSpecs_le specs
      omega
    rw [hsize]
    have hsource : lengthPrefixedUnits n packet.data = some units := by
      rw [hdata]
      exact lengthPrefixedUnits_flatMap hn.1 _ hunits
    by_cases hne : packet.data = []
    · exact ⟨packet, units, by simp [inject, hp, hne], hsource, .inl ⟨rfl, .inl hne⟩⟩
    · rw [inject_eq q answers codecType n hp hne hitems]
      simp only [hannexB, Bool.false_eq_true, if_false]
      rw [toLengthPrefixedNal_eq hn]
      by_cases hholds : (seiNalUnit q codecType context).length < 256 ^ n
      · rw [if_pos hholds]
        have hfull : ¬(lengthPrefixed n (seiNalUnit q codecType context)).isEmpty = true := by
          intro he
          have hlength := hsei.length
          rw [(List.append_eq_nil_iff.mp (List.isEmpty_iff.mp he)).2] at hlength
          cases hlength
        split
        · rename_i hfail
          exact ⟨packet, units, rfl, hsource, .inl ⟨rfl, .inr ((hfail.resolve_left hfull).imp id .inl)⟩⟩
        · refine ⟨_, units, rfl, hsource, .inr ⟨?_, rfl⟩⟩
          dsimp only [Framing.units]
          rw [hdata, ← List.flatMap_cons]
          refine lengthPrefixedUnits_flatMap hn.1 _ fun u hu => ?_
          rcases List.mem_cons.mp hu with rfl | hu
          · exact hholds
          · exact hunits u hu
      · rw [if_neg hholds, if_pos (.inl rfl)]
        exact ⟨packet, units, rfl, hsource, .inl ⟨rfl, .inr (.inr (.inr hholds))⟩⟩

/-- A receiver gets the units of the source, and before them the message, unless the output packet could not be made. -/
def FinalPacket.Delivered (q : Quantizers) (w : FinalPacket) (codecType : SeiCodecType) : Prop :=
  ∀ packet framing, w.source.packet = some packet → Framing.Fits framing w.answers.videoNalLengthSize packet.data →
    ∃ out units, w.finalPacket = some out ∧ framing.units packet.data = some units ∧
      (out = packet ∧ (packet.data = [] ∨ w.answers.av.allocated = false ∨ w.answers.av.propsCopied = false ∨
          ¬framing.Holds (seiNalUnit q codecType w.message)) ∨
        ∃ sei, framing.units out.data = some (sei :: units) ∧ mspOfUnit codecType sei = some (mspOf q w.message) ∧
          packet = { out with data := packet.data })

lemma StreamState.finalPacket_delivered (q : Quantizers) (s : StreamState) (p : EncodedPacket)
    (codecType : SeiCodecType) (answers : InjectAnswers) :
    (s.finalPacket q p (some codecType) answers).Delivered q codecType := by
  intro packet framing hp hfits
  obtain ⟨out, units, hout, hunits, hcase⟩ := inject_units q answers.av codecType hp
    (show (s.finalPacket q p (some codecType) answers).message.hasItems = true by
      simp [FinalPacket.message, buildSeiMessageContext, SeiMessageContext.hasItems]) hfits
  refine ⟨out, units, ?_, hunits, hcase.imp id fun ⟨hsei, hsame⟩ => ⟨_, hsei, mspOfUnit_seiNalUnit q codecType _, hsame⟩⟩
  exact congrArg (fun o : Option AVPacket => o.or p.packet) hout

/-! ## All packets -/

/-- The result was cached, had not expired when it was taken, and is that of the packet's time or frame. -/
structure MatchesPacket (results : List FrameInferenceResult) (p : EncodedPacket) (now : Int) (r : FrameInferenceResult) :
    Prop where
  cached : r ∈ results
  live : now ≤ r.expireAtMonoMs
  near : 0 ≤ r.pts ∧ 0 ≤ p.pts ∧ |r.pts - p.pts| ≤ kCachedInferenceMatchWindowPts ∨ r.frameId = p.frameId

lemma MatchesPacket.mono {results : List FrameInferenceResult} {p : EncodedPacket} {now : Int} {r : FrameInferenceResult}
    (h : MatchesPacket results p now r) (more : List FrameInferenceResult) : MatchesPacket (results ++ more) p now r :=
  ⟨List.mem_append_left _ h.cached, h.live, h.near⟩

/-- What is cached is a result that was stored under its frame id. -/
def CachedFrom (results : List FrameInferenceResult) (b : StreamBuffer) : Prop :=
  ∀ (k : Int) r, b.cachedInferenceResults[k]? = some r → r ∈ results ∧ r.frameId = k

lemma suits_of_take {results : List FrameInferenceResult} {b : StreamBuffer} (h : CachedFrom results b)
    (p : EncodedPacket) (c : TakeContext) {r : FrameInferenceResult}
    (hr : (b.takeCachedInferenceResult c.visit p.frameId p.pts c.nowMonoMs).1 = some r) :
    MatchesPacket results p c.nowMonoMs r := by
  obtain ⟨chosen, hchosen, hanswer, -⟩ := takesChosen b c.visit p.frameId p.pts c.nowMonoMs
  rw [hanswer] at hr
  cases hchosen with
  | nearest hmatch =>
    cases hr
    exact ⟨(h _ _ hmatch.cached).1, hmatch.live, .inl ⟨hmatch.stamped, hmatch.asked, hmatch.near⟩⟩
  | stored hnone hid hstored hlive =>
    cases hr
    obtain ⟨hmem, hframe⟩ := h _ _ hstored
    exact ⟨hmem, hlive, .inr hframe⟩
  | nothing => cases hr

lemma CachedFrom.worker {results : List FrameInferenceResult} {b : StreamBuffer} (h : CachedFrom results b)
    (c : WorkerCall) :
    CachedFrom (match c with | .updateCachedInferenceResult r => results ++ [r] | _ => results) (c.apply b) := by
  cases c with
  | selectFrameForInference =>
    rcases b.selectFrameForInference_cases with ⟨hsame, -⟩ | ⟨id, f, -, -, hsame⟩
    · simpa only [WorkerCall.apply, hsame] using h
    · rw [WorkerCall.apply, hsame]
      exact h
  | markInferenceRunning id => exact h
  | markInferenceDone r => exact h
  | clearInferenceSelection id st => exact h
  | updateCachedInferenceResult r =>
    have hmono : CachedFrom (results ++ [r]) b := fun k r' hr' =>
      ⟨List.mem_append_left _ (h k r' hr').1, (h k r' hr').2⟩
    simp only [WorkerCall.apply, StreamBuffer.updateCachedInferenceResult]
    split
    · exact hmono
    · intro k r' hr'
      rw [lookup_insert] at hr'
      split at hr'
      · rename_i hk
        cases hr'
        exact ⟨List.mem_append_right _ (List.mem_singleton.mpr rfl), hk⟩
      · exact hmono k r' hr'

lemma CachedFrom.publish {results : List FrameInferenceResult} {s : PublishState} (h : CachedFrom results s.buffer)
    (c : TakeContext) : CachedFrom results (s.publish c).buffer := by
  unfold PublishState.publish
  cases hpc : s.pc with
  | waiting =>
    dsimp only
    split <;> exact h
  | peeking =>
    dsimp only
    split
    · exact h
    · split <;> exact h
  | finding p => exact h
  | taking p codecType => exact fun k r hr => h k r (StreamBuffer.lookup_takeCachedInferenceResult _ _ _ _ hr)
  | writing p codecType => exact h
  | popping p =>
    dsimp only
    unfold StreamBuffer.popPacket
    split <;> exact h
  | releasing p =>
    intro k r hr
    simp only [StreamBuffer.releaseFrame, lookup_erase] at hr
    split at hr
    · cases hr
    · exact h k r hr

lemma enqueuePacket_same (s : PublishState) (p : EncodedPacket) :
    (s.enqueuePacket p).pc = s.pc ∧ (s.enqueuePacket p).handedOver = s.handedOver ∧
      (s.enqueuePacket p).buffer.cachedInferenceResults = s.buffer.cachedInferenceResults := by
  rcases s.buffer.enqueuePacket_cases p with ⟨-, he⟩ | ⟨-, he⟩ <;>
    simp [PublishState.enqueuePacket, he]

lemma enqueueFrame_same (s : PublishState) (f : FrameBundle) :
    (s.enqueueFrame f).pc = s.pc ∧ (s.enqueueFrame f).handedOver = s.handedOver ∧
      (s.enqueueFrame f).buffer.cachedInferenceResults = s.buffer.cachedInferenceResults := by
  rcases s.buffer.enqueueFrame_cases f with ⟨-, he⟩ | ⟨-, he⟩ <;>
    simp [PublishState.enqueueFrame, he]

/-- The puller does not touch the cache, nor `publishLoop`. -/
lemma handover_puller {cfg : StreamConfig} {s t : HandoverState} {a : PullAction}
    (hn : (handoverSystem cfg).next s a = some t) (hworker : ∀ c, a ≠ .worker c) (hpublish : ∀ c, a ≠ .publish c) :
    t.pull.publish.pc = s.pull.publish.pc ∧ t.pull.publish.handedOver = s.pull.publish.handedOver ∧
      t.pull.publish.buffer.cachedInferenceResults = s.pull.publish.buffer.cachedInferenceResults := by
  obtain ⟨u, hu, rfl⟩ := Option.map_eq_some_iff.mp hn
  cases a with
  | openStream answer =>
    obtain ⟨-, rfl⟩ := pullSystem_openStream hu
    rw [PullState.openStream_publish]
    exact ⟨rfl, rfl, rfl⟩
  | readFrame answer =>
    obtain ⟨-, rfl⟩ := pullSystem_readFrame hu
    rcases s.pull.readFrame_publish answer with he | ⟨packet, he⟩
    · rw [he]
      exact ⟨rfl, rfl, rfl⟩
    · rw [he]
      exact enqueuePacket_same _ packet
  | enqueueFrame =>
    obtain ⟨bundles, -, rfl⟩ := pullSystem_enqueueFrame hu
    cases bundles with
    | nil => exact ⟨rfl, rfl, rfl⟩
    | cons bundle bundles => exact enqueueFrame_same _ bundle
  | requestStop =>
    cases hu
    exact ⟨rfl, rfl, rfl⟩
  | worker c => exact absurd rfl (hworker c)
  | publish c => exact absurd rfl (hpublish c)
  | stopBuffer =>
    obtain ⟨-, rfl⟩ := pullSystem_stopBuffer hu
    exact ⟨rfl, rfl, rfl⟩

/-- What holds of a packet that has been written. -/
structure FinalPacket.Ok (q : Quantizers) (results : List FrameInferenceResult) (w : FinalPacket) : Prop where
  audio : w.codecType = none → w.finalPacket = w.source.packet
  video : ∀ codecType, w.codecType = some codecType → w.source.mediaType = .video ∧ w.Delivered q codecType ∧
    ∀ r ∈ w.taken, MatchesPacket results w.source w.takenAtMonoMs r

lemma FinalPacket.Ok.mono {q : Quantizers} {results : List FrameInferenceResult} {w : FinalPacket}
    (h : w.Ok q results) (more : List FrameInferenceResult) : w.Ok q (results ++ more) := by
  refine ⟨h.audio, fun codecType hcodec => ?_⟩
  obtain ⟨hvideo, hdelivered, hsuits⟩ := h.video codecType hcodec
  exact ⟨hvideo, hdelivered, fun r hr => (hsuits r hr).mono more⟩

structure StreamInv (q : Quantizers) (s : StreamState) : Prop where
  cached : CachedFrom s.results s.hand.pull.publish.buffer
  handed : s.written.map (fun w => (w.source, w.codecType)) = s.hand.pull.publish.handedOver
  writing : ∀ p codecType, s.hand.pull.publish.pc = .writing p (some codecType) →
    p.mediaType = .video ∧ ∀ r ∈ s.taken, MatchesPacket s.results p s.takenAtMonoMs r
  written : ∀ w ∈ s.written, w.Ok q s.results

section steps

variable {q : Quantizers} {cfg : StreamConfig} {s : StreamState}

/-- A worker's call adds to the history. -/
lemma StreamInv.worker (h : StreamInv q s) (c : WorkerCall) {hand : HandoverState}
    (hhand : hand.pull.publish =
      { s.hand.pull.publish with buffer := c.apply s.hand.pull.publish.buffer }) (answers : InjectAnswers) :
    StreamInv q { s.after q answers (.worker c) with hand := hand } := by
  have hcached := h.cached.worker c
  cases c with
  | updateCachedInferenceResult r =>
    refine ⟨?_, ?_, fun p codecType hpc => ?_, fun w hw => (h.written w hw).mono _⟩
    · rw [hhand]
      exact hcached
    · rw [hhand]
      exact h.handed
    · rw [hhand] at hpc
      obtain ⟨hvideo, hsuits⟩ := h.writing p codecType hpc
      exact ⟨hvideo, fun r hr => (hsuits r hr).mono _⟩
  | _ =>
    refine ⟨?_, ?_, ?_, h.written⟩
    · rw [hhand]
      exact hcached
    · rw [hhand]
      exact h.handed
    · rw [hhand]
      exact h.writing

lemma publish_same {s : PublishState} (c : TakeContext) (htaking : ∀ p codecType, s.pc ≠ .taking p codecType)
    (hwriting : ∀ p codecType, s.pc ≠ .writing p codecType) :
    (s.publish c).handedOver = s.handedOver ∧ ∀ p codecType, (s.publish c).pc ≠ .writing p (some codecType) := by
  unfold PublishState.publish
  cases hpc : s.pc with
  | waiting =>
    dsimp only
    split
    · simp
    · simp [hpc]
  | peeking =>
    dsimp only
    split
    · simp
    · split <;> simp
  | finding p => simp
  | taking p codecType => exact absurd hpc (htaking p codecType)
  | writing p codecType => exact absurd hpc (hwriting p codecType)
  | popping p =>
    dsimp only
    split <;> simp
  | releasing p => simp

/-- A step of `publishLoop`: it takes a result, it writes a packet, or it does neither. -/
lemma StreamInv.publish (h : StreamInv q s) (hr : ReserveInv s.hand.pull.publish) (c : TakeContext)
    (answers : InjectAnswers) {hand : HandoverState}
    (hhand : hand.pull.publish = s.hand.pull.publish.publish c) :
    StreamInv q { s.publish q c answers with hand := hand } := by
  have hcached := h.cached.publish c
  rw [← hhand] at hcached
  have hfront := hr.pc
  unfold StreamState.publish
  cases hpc : s.hand.pull.publish.pc with
  | taking p codecType =>
    rw [hpc] at hfront
    rw [PublishState.publish, hpc] at hhand
    refine ⟨hcached, ?_, fun p' codecType' hpc' => ?_, h.written⟩
    · rw [hhand]
      exact h.handed
    · rw [hhand] at hpc'
      cases hpc'
      exact ⟨hfront.1, fun r hr => suits_of_take h.cached p c hr⟩
  | writing p codecType =>
    rw [PublishState.publish, hpc] at hhand
    refine ⟨hcached, ?_, fun p' codecType' hpc' => ?_, fun w hw => ?_⟩
    · rw [hhand]
      simp only [List.map_append, h.handed]
      rfl
    · rw [hhand] at hpc'
      cases hpc'
    · rcases List.mem_append.mp hw with hw | hw
      · exact h.written w hw
      · rw [List.mem_singleton.mp hw]
        cases codecType with
        | none => exact ⟨fun _ => rfl, fun codecType hcodec => by cases hcodec⟩
        | some codecType =>
          obtain ⟨hvideo, hsuits⟩ := h.writing p codecType hpc
          refine ⟨fun hnone => (Option.some_ne_none _ hnone).elim, fun codecType' hcodec => ?_⟩
          cases hcodec
          exact ⟨hvideo, s.finalPacket_delivered q p codecType answers, hsuits⟩
  | _ =>
    obtain ⟨hhanded, hwriting⟩ := publish_same c (s := s.hand.pull.publish) (by simp [hpc]) (by simp [hpc])
    rw [← hhand] at hhanded hwriting
    exact ⟨hcached, h.handed.trans hhanded.symm, fun p codecType hpc' => absurd hpc' (hwriting p codecType), h.written⟩

lemma StreamInv.next (h : StreamInv q s) (hr : ReserveInv s.hand.pull.publish) {a : PullAction × InjectAnswers}
    {t : StreamState} (hn : (streamSystem q cfg).next s a = some t) : StreamInv q t := by
  obtain ⟨hand, hhand, rfl⟩ := Option.map_eq_some_iff.mp hn
  obtain ⟨a, answers⟩ := a
  have hother : (∀ c, a ≠ .worker c) → (∀ c, a ≠ .publish c) → StreamInv q { s with hand := hand } := by
    intro hworker hpublish
    obtain ⟨hpc, hhanded, hcache⟩ := handover_puller hhand hworker hpublish
    refine ⟨fun k r hk => ?_, h.handed.trans hhanded.symm, fun p codecType hp => ?_, h.written⟩
    · rw [hcache] at hk
      exact h.cached k r hk
    · rw [hpc] at hp
      exact h.writing p codecType hp
  cases a with
  | worker c =>
    cases hhand
    exact h.worker c rfl answers
  | publish c =>
    cases hhand
    exact h.publish hr c answers rfl
  | _ => exact hother (fun c hc => by cases hc) fun c hc => by cases hc

/-- The stream without the packets that are written. -/
def streamProjection (q : Quantizers) (cfg : StreamConfig) :
    Machine.Projection (streamSystem q cfg) (handoverSystem cfg) where
  state s := s.hand
  init := rfl
  step s a t _ hn := by
    obtain ⟨hand, hhand, rfl⟩ := Option.map_eq_some_iff.mp hn
    exact .inr ⟨a.1, hhand⟩

lemma streamInv_reachable (h : (streamSystem q cfg).Reachable s) : StreamInv q s := by
  apply h.invariant_of (J := fun t => ReserveInv t.hand.pull.publish) fun t ht => ?_
  · refine ⟨fun k r hk => ?_, rfl, fun p codecType hp => ?_, fun w hw => ?_⟩
    · simp [streamSystem, handoverSystem, pullSystem] at hk
    · cases hp
    · cases hw
  · intro t a u hr ht _ hn
    exact ht.next hr hn
  · exact reserveInv_reachable ((pullProjection cfg).reachable ((handoverProjection cfg).reachable
      ((streamProjection q cfg).reachable ht)))

/-- What is written is what the puller has accepted, in order and each once. A receiver gets the units of each packet,
and with a video packet the message of the result that was taken for it, in the codec of its own frame. -/
theorem stream_delivered (h : (streamSystem q cfg).Reachable s) :
    s.written.map FinalPacket.source <+: s.hand.pull.publish.acceptedPackets ∧
      ∀ w ∈ s.written,
        (w.source.mediaType ≠ .video → w.finalPacket = w.source.packet) ∧
        (w.source.mediaType = .video → ∃ g ∈ s.hand.bundles, g.frameId = w.source.frameId ∧
          w.Delivered q (seiCodecTypeFromFrame (some g)) ∧
            ∀ r ∈ w.taken, MatchesPacket s.results w.source w.takenAtMonoMs r) := by
  have hinv := streamInv_reachable h
  have hhand : (handoverSystem cfg).Reachable s.hand := (streamProjection q cfg).reachable h
  have hpull : (pullSystem cfg).Reachable s.hand.pull := (handoverProjection cfg).reachable hhand
  have hover := handoverInv_reachable hhand
  have hord : s.hand.pull.ledger.Ordered := ordered_reachable hpull
  have hsource : s.written.map FinalPacket.source = s.hand.pull.publish.handedOver.map Prod.fst := by
    rw [← hinv.handed, List.map_map]
    rfl
  have hinitial : s.written.map FinalPacket.source <+: s.hand.pull.publish.acceptedPackets :=
    ⟨_, by rw [hsource, hover.order]⟩
  refine ⟨hinitial, fun w hw => ⟨fun haudio => ?_, fun hvideo => ?_⟩⟩
  · refine (hinv.written w hw).audio (Option.eq_none_iff_forall_ne_some.mpr fun codecType hcodec => ?_)
    exact haudio ((hinv.written w hw).video codecType hcodec).1
  · have haccepted : w.source ∈ s.hand.pull.publish.acceptedPackets := hinitial.subset (List.mem_map_of_mem hw)
    have hnonneg : 0 ≤ w.source.frameId := (hord.packets _ (mem_videoIds.mpr ⟨_, haccepted, hvideo, rfl⟩)).1
    have hhanded : (w.source, w.codecType) ∈ s.hand.pull.publish.handedOver := by
      rw [← hinv.handed]
      exact List.mem_map_of_mem hw
    obtain ⟨g, hg, hid, hcodec⟩ := hover.handed _ _ hhanded hvideo hnonneg
    obtain ⟨-, hdelivered, hsuits⟩ := (hinv.written w hw).video _ hcodec
    exact ⟨g, hg, hid, hdelivered, hsuits⟩

end steps

def leapSecond : Tm := ⟨1998, Fin.last 12, Fin.last 31, Fin.last 23, Fin.last 59, Fin.last 60⟩

def keyPacket : AVPacket := { data := [0, 0, 1, 0x65, 0x88, 0], streamIndex := 0, pts := 0 }

def carResult : FrameInferenceResult where
  frameId := 0
  pts := 0
  objects := [{ className := [0x63, 0x61, 0x72] }]
  expireAtMonoMs := 10

/-- A key frame is pulled and decoded, its result is cached, and the packet is written with it. -/
def keyPacketRun : List (PullAction × InjectAnswers) :=
  [.openStream { fmtCtx := some { streams := [{ codecId := 173 }] } },
    .readFrame (.packet keyPacket true 0 0 [{ pts := 0 }]), .enqueueFrame, .enqueueFrame,
    .readFrame (.packet { keyPacket with pts := 1 } true 0 0 [{ pts := 1 }]), .enqueueFrame, .enqueueFrame,
    .worker (.updateCachedInferenceResult carResult),
    .publish {}, .publish {}, .publish {}, .publish {}, .publish {}].map fun a => (a, { osdTime := leapSecond })

theorem stream_delivered_keyPacket : ∃ s w, (streamSystem zeroQuantizers {}).Reachable s ∧ s.written = [w] ∧
    w.taken = some carResult ∧ w.source.packet = some keyPacket ∧
    ∃ g ∈ s.hand.bundles, w.Delivered zeroQuantizers (seiCodecTypeFromFrame (some g)) := by
  obtain ⟨s, hs, hp⟩ := Machine.reachable_of_exec_any (streamSystem zeroQuantizers {}) keyPacketRun
    (fun s => decide (s.written.map (fun w => (w.taken, w.source.mediaType, w.source.packet)) =
      [(some carResult, .video, some keyPacket)])) (by decide +kernel)
  obtain ⟨w, hw⟩ : ∃ w, s.written = [w] := by
    have hlength := congrArg List.length (of_decide_eq_true hp)
    rw [List.length_map] at hlength
    exact List.length_eq_one_iff.mp hlength
  have hw' := of_decide_eq_true hp
  rw [hw, List.map_singleton, List.singleton_inj, Prod.mk.injEq, Prod.mk.injEq] at hw'
  obtain ⟨htaken, hvideo, hpacket⟩ := hw'
  obtain ⟨g, hg, -, hdelivered, -⟩ := ((stream_delivered hs).2 w (by rw [hw]; exact List.mem_singleton_self w)).2 hvideo
  exact ⟨s, w, hs, hw, htaken, hpacket, g, hg, hdelivered⟩

end MediaAgent
