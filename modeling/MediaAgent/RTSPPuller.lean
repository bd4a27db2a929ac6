import MediaAgent.ConfigTypes

/-!
# The RTSP puller

`stream/RTSPPuller.cpp`: the connection, the queue of pending video frames and their match with
the decoder's output. What libav and the decoder answer are arguments. The notification of the
scheduler, the specs for the publisher, the statistics and the log lines are left out.
-/

namespace MediaAgent

/-- The part of an `AVStream` that the puller reads; `fps` is what `fpsFromStream` makes of its
frame rates. -/
structure AVStream where
  codecId : Int := 0
  width : Int := 0
  height : Int := 0
  bitRate : Int := 0
  fps : Int := 25
  timeBase : Int × Int := (0, 0)
  deriving DecidableEq, Repr

structure AVFormatContext where
  streams : List AVStream := []
  bitRate : Int := 0
  deriving DecidableEq, Repr

def AVFormatContext.stream (ctx : AVFormatContext) (index : Int) : AVStream :=
  ctx.streams.getD index.toNat {}

/-- A decoded frame; the image is there when the frame has a buffer. -/
structure MppFrame where
  pts : Int := avNoptsValue
  dts : Int := avNoptsValue
  image : Option DmaImage := some {}
  deriving DecidableEq, Repr

def avCodecIdToMppCoding (codecId : Int) : MppCodingType :=
  if codecId = 27 then .avc
  else if codecId = 173 then .hevc
  else if codecId = 139 then .vp8
  else if codecId = 167 then .vp9
  else .unused

/-- `toMillis`, where `rescaled` is the answer of `av_rescale_q`. -/
def toMillis (value : Int) (timeBase : Int × Int) (rescaled : Int) : Int :=
  if value = avNoptsValue ∨ timeBase.1 ≤ 0 ∨ timeBase.2 ≤ 0 then 0 else rescaled

structure PendingVideoFrameMeta where
  frameId : Int := -1
  pts : Int := -1
  dts : Int := -1
  duration : Int := 0
  timestampMs : Int := 0
  isKeyframe : Bool := false
  deriving DecidableEq, Repr

structure RTSPPuller where
  cfg : StreamConfig := {}
  fmtCtx : Option AVFormatContext := none
  videoStreamIdx : Int := -1
  audioStreamIdx : Int := -1
  srcW : Int := 0
  srcH : Int := 0
  srcCoding : MppCodingType := .unused
  srcFps : Int := 25
  srcBitrate : Int := 0
  pendingVideoFrames : List PendingVideoFrameMeta := []
  nextFrameId : Int := 0
  totalFrames : Nat := 0

/-- The answers to `openStream`: the context unless it cannot be allocated, opened or probed, the
results of `av_find_best_stream`, and whether the decoder can be initialised. -/
structure OpenAnswer where
  fmtCtx : Option AVFormatContext := some {}
  videoStreamIdx : Int := 0
  audioStreamIdx : Int := -1
  decoderReady : Bool := true

/-- What `takePendingVideoFrameMeta` returns, the entries it enqueues as placeholders, and the
entries it leaves. -/
structure TakenPending where
  taken : Option PendingVideoFrameMeta := none
  placeholders : List PendingVideoFrameMeta := []
  pending : List PendingVideoFrameMeta
  deriving DecidableEq, Repr

/-- The first entry with a timestamp of the frame, if the frame has one. -/
def findPending (timestamp : PendingVideoFrameMeta → Int) (value : Int)
    (pending : List PendingVideoFrameMeta) : Option Nat :=
  if value = avNoptsValue then none else pending.findIdx? fun entry => timestamp entry == value

def takePendingVideoFrameMeta (pending : List PendingVideoFrameMeta) (frame : MppFrame) : TakenPending :=
  match pending with
  | [] => { pending := [] }
  | front :: rest =>
    let matchIt := (findPending (·.pts) frame.pts pending).or (findPending (·.dts) frame.dts pending)
    match matchIt with
    | none =>
      if frame.pts = avNoptsValue ∧ frame.dts = avNoptsValue then { taken := some front, pending := rest }
      else { pending := pending }
    | some i =>
      { taken := pending[i]?, placeholders := pending.take i, pending := pending.drop (i + 1) }

namespace RTSPPuller

def closeStream (p : RTSPPuller) : RTSPPuller :=
  { p with
    pendingVideoFrames := []
    fmtCtx := none
    videoStreamIdx := -1
    audioStreamIdx := -1
    srcCoding := .unused
    srcFps := 25
    srcBitrate := 0 }

def openStream (p : RTSPPuller) (answer : OpenAnswer) : Bool × RTSPPuller :=
  match answer.fmtCtx with
  | none => (false, p)
  | some ctx =>
    if answer.videoStreamIdx < 0 then (false, { p with videoStreamIdx := answer.videoStreamIdx })
    else
      let stream := ctx.stream answer.videoStreamIdx
      let p := { p with
        fmtCtx := some ctx
        videoStreamIdx := answer.videoStreamIdx
        audioStreamIdx := if answer.audioStreamIdx < 0 then -1 else answer.audioStreamIdx
        srcW := stream.width
        srcH := stream.height
        srcFps := stream.fps
        srcBitrate :=
          -- static_cast<int> of an int64_t
          if stream.bitRate > 0 then (Int32.ofInt stream.bitRate).toInt
          else if ctx.bitRate > 0 then (Int32.ofInt ctx.bitRate).toInt
          else 0
        srcCoding := avCodecIdToMppCoding stream.codecId }
      if p.srcCoding = .unused then (false, { p with fmtCtx := none })
      else if !answer.decoderReady then (false, { p with fmtCtx := none })
      else (true, { p with pendingVideoFrames := [] })

/-- The packet that `pullLoop` builds before it looks at the kind of its stream. -/
def encodedPacket (p : RTSPPuller) (pkt : AVPacket) (rescaled nowMonoMs : Int) : EncodedPacket where
  packet := some pkt
  streamIndex := pkt.streamIndex
  pts := pkt.pts
  dts := pkt.dts
  duration := pkt.duration
  timestampMs := toMillis pkt.pts ((p.fmtCtx.getD {}).stream pkt.streamIndex).timeBase rescaled
  isKeyframe := pkt.flagKey
  enqueueMonoMs := nowMonoMs

/-- `pending_video_frames_.push_back` and `++next_frame_id_`. -/
def pushPending (p : RTSPPuller) (pkt : AVPacket) (packet : EncodedPacket) : RTSPPuller :=
  { p with
    pendingVideoFrames := p.pendingVideoFrames ++
      [{ frameId := p.nextFrameId
         pts := pkt.pts
         dts := pkt.dts
         duration := pkt.duration
         timestampMs := packet.timestampMs
         isKeyframe := packet.isKeyframe }]
    nextFrameId := p.nextFrameId + 1 }

/-- The bundle that `enqueuePendingFrame` enqueues. -/
def pendingFrame (p : RTSPPuller) (entry : PendingVideoFrameMeta) (image : Option DmaImage) : FrameBundle where
  streamId := p.cfg.streamId
  frameId := entry.frameId
  pts := entry.pts
  dts := entry.dts
  duration := entry.duration
  timestampMs := entry.timestampMs
  isKeyframe := entry.isKeyframe
  width := p.srcW
  height := p.srcH
  sourceFps := p.srcFps
  sourceBitrate := p.srcBitrate
  sourceCoding := p.srcCoding
  sourceCodecId :=
    match p.fmtCtx with
    | some ctx => if 0 ≤ p.videoStreamIdx then (ctx.stream p.videoStreamIdx).codecId else 0
    | none => 0
  decodedImage := image

/-- One turn of the loop of `publishDecodedFrames`, with the bundles enqueued so far. -/
def publishDecodedFrame (acc : RTSPPuller × List FrameBundle) (frame : MppFrame) :
    RTSPPuller × List FrameBundle :=
  let p := acc.1
  let found := takePendingVideoFrameMeta p.pendingVideoFrames frame
  let placeholders := found.placeholders.map fun entry => p.pendingFrame entry none
  match found.taken with
  | none => ({ p with pendingVideoFrames := found.pending }, acc.2 ++ placeholders)
  | some entry =>
    ({ p with pendingVideoFrames := found.pending, totalFrames := p.totalFrames + 1 },
      acc.2 ++ placeholders ++ [p.pendingFrame entry frame.image])

/-- The puller afterwards, and the bundles in the order in which they are enqueued. -/
def publishDecodedFrames (p : RTSPPuller) (decodedFrames : List MppFrame) : RTSPPuller × List FrameBundle :=
  decodedFrames.foldl publishDecodedFrame (p, [])

/-- The frame ids of the pending video frames. -/
def pendingIds (p : RTSPPuller) : List Int := p.pendingVideoFrames.map (·.frameId)

end RTSPPuller

/-! ## Nothing pending is lost between packets -/

lemma findPending_lt {timestamp : PendingVideoFrameMeta → Int} {value : Int}
    {pending : List PendingVideoFrameMeta} {i : Nat} (h : findPending timestamp value pending = some i) :
    i < pending.length := by
  unfold findPending at h
  split at h
  · cases h
  · exact (List.findIdx?_eq_some_iff_getElem.mp h).1

/-- The placeholders, the entry taken and the entries left are the pending entries, in order. -/
lemma takePendingVideoFrameMeta_eq (pending : List PendingVideoFrameMeta) (frame : MppFrame) :
    (takePendingVideoFrameMeta pending frame).placeholders ++
        ((takePendingVideoFrameMeta pending frame).taken.toList ++
          (takePendingVideoFrameMeta pending frame).pending) = pending := by
  cases pending with
  | nil => rfl
  | cons front rest =>
    unfold takePendingVideoFrameMeta
    dsimp only
    split
    · split <;> rfl
    · rename_i i hi
      have hlt : i < (front :: rest).length := by
        rcases Option.or_eq_some_iff.mp hi with hpts | ⟨-, hdts⟩
        · exact findPending_lt hpts
        · exact findPending_lt hdts
      rw [List.getElem?_eq_getElem hlt, Option.toList_some, List.singleton_append,
        ← List.drop_eq_getElem_cons hlt, List.take_append_drop]

namespace RTSPPuller

lemma publishDecodedFrame_ids (acc : RTSPPuller × List FrameBundle) (frame : MppFrame) :
    (publishDecodedFrame acc frame).2.map (·.frameId) ++ (publishDecodedFrame acc frame).1.pendingIds =
        acc.2.map (·.frameId) ++ acc.1.pendingIds ∧
      (publishDecodedFrame acc frame).1.nextFrameId = acc.1.nextFrameId := by
  have hsplit := congrArg (List.map PendingVideoFrameMeta.frameId)
    (takePendingVideoFrameMeta_eq acc.1.pendingVideoFrames frame)
  cases htaken : (takePendingVideoFrameMeta acc.1.pendingVideoFrames frame).taken with
  | none =>
    simp only [publishDecodedFrame, pendingIds, htaken, and_true]
    rw [htaken] at hsplit
    rw [← hsplit]
    simp [pendingFrame, Function.comp_def]
  | some entry =>
    simp only [publishDecodedFrame, pendingIds, htaken, and_true]
    rw [htaken] at hsplit
    rw [← hsplit]
    simp [pendingFrame, Function.comp_def]

/-- The bundles that are enqueued and the entries that stay pending carry, in order, the ids that
were pending. -/
theorem publishDecodedFrames_ids (p : RTSPPuller) (decodedFrames : List MppFrame) :
    (p.publishDecodedFrames decodedFrames).2.map (·.frameId) ++
        (p.publishDecodedFrames decodedFrames).1.pendingIds = p.pendingIds ∧
      (p.publishDecodedFrames decodedFrames).1.nextFrameId = p.nextFrameId := by
  have hfold : ∀ (frames : List MppFrame) (acc : RTSPPuller × List FrameBundle),
      (frames.foldl publishDecodedFrame acc).2.map (·.frameId) ++
          (frames.foldl publishDecodedFrame acc).1.pendingIds = acc.2.map (·.frameId) ++ acc.1.pendingIds ∧
        (frames.foldl publishDecodedFrame acc).1.nextFrameId = acc.1.nextFrameId := by
    intro frames
    induction frames with
    | nil => exact fun acc => ⟨rfl, rfl⟩
    | cons frame frames ih =>
      intro acc
      obtain ⟨hids, hnext⟩ := publishDecodedFrame_ids acc frame
      obtain ⟨hids', hnext'⟩ := ih (publishDecodedFrame acc frame)
      exact ⟨hids'.trans hids, hnext'.trans hnext⟩
  exact hfold decodedFrames (p, [])

lemma openStream_nextFrameId (p : RTSPPuller) (answer : OpenAnswer) :
    (p.openStream answer).2.nextFrameId = p.nextFrameId := by
  unfold openStream
  split
  · rfl
  · split
    · rfl
    · dsimp only
      split
      · rfl
      · split <;> rfl

lemma openStream_pendingIds {p : RTSPPuller} (h : p.pendingIds = []) (answer : OpenAnswer) :
    (p.openStream answer).2.pendingIds = [] := by
  unfold openStream
  split
  · exact h
  · split
    · exact h
    · dsimp only
      split
      · exact h
      · split
        · exact h
        · rfl

end RTSPPuller

end MediaAgent
