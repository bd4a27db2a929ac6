import MediaAgent.Library.KeyGroups
import MediaAgent.Library.Transition
import MediaAgent.StreamTypes

/-!
# The recorder

`stream/Recorder.cpp`: the cache of the last group of pictures, and the files that an alarm opens. What libav
answers is an argument: whether a file can be opened, whether a packet is cloned and written, the time bases that the
muxer chooses, and `av_rescale_q`. The names of the files are left out.
-/

namespace MediaAgent
open Transition KeyGroups

/-- `RtspStreamSpec` with its `StreamCodecParams`. -/
structure RtspStreamSpec where
  codecId : Int := 0
  timeBase : Int × Int := (1, 1000)
  fps : Int := 25
  bitRate : Int := 0
  width : Int := 0
  height : Int := 0
  extradata : Bytes := []
  mediaType : MediaType := .video
  inputStreamIndex : Int := -1
  sampleRate : Int := 0
  channels : Int := 0
  deriving DecidableEq, Repr

def normalizedTimeBase (timeBase : Int × Int) : Int × Int :=
  if timeBase.1 ≤ 0 ∨ timeBase.2 ≤ 0 then (1, 1000) else timeBase

def sameStreamCodecParams (left right : RtspStreamSpec) : Bool :=
  left.codecId == right.codecId && left.timeBase.1 == right.timeBase.1 && left.timeBase.2 == right.timeBase.2 &&
    left.fps == right.fps && left.bitRate == right.bitRate && left.width == right.width &&
    left.height == right.height && left.extradata == right.extradata

def sameStreamSpecs (left right : List RtspStreamSpec) : Bool :=
  left.length == right.length && (left.zip right).all fun (lhs, rhs) =>
    !(lhs.mediaType != rhs.mediaType || lhs.inputStreamIndex != rhs.inputStreamIndex ||
      lhs.sampleRate != rhs.sampleRate || lhs.channels != rhs.channels || !sameStreamCodecParams lhs rhs)

/-- The track of an output file: its spec, its index and the time base that the muxer has given it. -/
structure OutputStreamState where
  spec : RtspStreamSpec
  index : Nat
  timeBase : Int × Int
  deriving DecidableEq, Repr

/-- The tracks in the order of the specs; of two with one input index the first is found. -/
def buildOutputStreamMap (specs : List RtspStreamSpec) (timeBases : Nat → Int × Int) : List OutputStreamState :=
  specs.mapIdx fun index spec => ⟨spec, index, timeBases index⟩

/-- A packet of a file, and the appended packet that it was made from. -/
structure WrittenPacket where
  source : AVPacket
  muxed : AVPacket
  deriving DecidableEq, Repr

abbrev Recording := List WrittenPacket

/-- The recorder, with the file that it is writing and those that it has finished. -/
structure Recorder where
  streamId : Bytes := []
  baseDir : Bytes := []
  streamSpecs : List RtspStreamSpec := []
  deadlineMs : Int := 0
  startPtsUs : Int := -1
  fmtCtx : Option Recording := none
  streamStates : List OutputStreamState := []
  gopCache : List AVPacket := []
  recordings : List Recording := []

/-- Whether a packet is cloned, and whether the muxer writes it. -/
structure WriteAnswer where
  cloned : Bool := true
  written : Bool := true

def kDefaultRecordDurationS : Int := 10

def avTimeBaseQ : Int × Int := (1, 1000000)

namespace Recorder

def isConfigured (r : Recorder) : Bool := !r.streamId.isEmpty && !r.baseDir.isEmpty

def close (r : Recorder) : Recorder :=
  match r.fmtCtx with
  | none => { r with deadlineMs := 0, startPtsUs := -1 }
  | some recording =>
    { r with
      fmtCtx := none
      recordings := r.recordings ++ [recording]
      streamStates := []
      deadlineMs := 0
      startPtsUs := -1 }

def closeExpired (r : Recorder) (nowMs : Int) : Recorder :=
  if r.fmtCtx.isSome ∧ 0 < r.deadlineMs ∧ r.deadlineMs ≤ nowMs then r.close else r

/-- The specs that `configure` keeps. -/
def normalizedSpecs (specs : List RtspStreamSpec) : List RtspStreamSpec :=
  specs.map fun spec =>
    { spec with
      timeBase := normalizedTimeBase spec.timeBase
      fps := if spec.mediaType = .video then if 0 < spec.fps then spec.fps else 25 else spec.fps }

def configure (r : Recorder) (streamId baseDir : Bytes) (specs : List RtspStreamSpec) : Bool × Recorder :=
  if streamId = [] ∨ baseDir = [] ∨ specs = [] then (false, r)
  else if !specs.any (·.mediaType == .video) then (false, r)
  else
    let normalized := normalizedSpecs specs
    let paramsChanged := r.streamId != streamId || r.baseDir != baseDir || !sameStreamSpecs r.streamSpecs normalized
    let r := if paramsChanged then { r.close with gopCache := [] } else r
    (true, { r with streamId := streamId, baseDir := baseDir, streamSpecs := normalized })

def isVideoPacket (specs : List RtspStreamSpec) (packet : AVPacket) : Bool :=
  match specs.find? (·.inputStreamIndex == packet.streamIndex) with
  | some spec => spec.mediaType == .video
  | none => false

def isKeyframe (specs : List RtspStreamSpec) (packet : AVPacket) : Bool :=
  isVideoPacket specs packet && packet.flagKey

def cachePacket (r : Recorder) (packet : AVPacket) (cloned : Bool) : Recorder :=
  let keyframe := isKeyframe r.streamSpecs packet
  let cache := if keyframe then [] else r.gopCache
  if cache.isEmpty && !keyframe then { r with gopCache := cache }
  else if !cloned then { r with gopCache := cache }
  else { r with gopCache := cache ++ [packet] }

/-- The timestamp of a written packet that is counted from the start of its file. -/
def offsetTs (rescale : Int → Int × Int → Int × Int → Int) (state : OutputStreamState) (startPtsUs ts : Int) : Int :=
  if ts = avNoptsValue then ts
  else rescale (max 0 (rescale ts state.spec.timeBase avTimeBaseQ - startPtsUs)) avTimeBaseQ state.timeBase

/-- `av_packet_rescale_ts`. -/
def packetRescaleTs (rescale : Int → Int × Int → Int × Int → Int) (packet : AVPacket) (src dst : Int × Int) :
    AVPacket :=
  { packet with
    pts := if packet.pts = avNoptsValue then packet.pts else rescale packet.pts src dst
    dts := if packet.dts = avNoptsValue then packet.dts else rescale packet.dts src dst
    duration := if 0 < packet.duration then rescale packet.duration src dst else packet.duration }

/-- The packet that is given to the muxer. A negative start counts as none. -/
def muxPacket (rescale : Int → Int × Int → Int × Int → Int) (state : OutputStreamState) (startPtsUs : Int)
    (packet : AVPacket) : AVPacket :=
  let muxed := { packet with streamIndex := Int.ofNat state.index }
  let muxed :=
    if 0 ≤ startPtsUs then
      { muxed with
        pts := offsetTs rescale state startPtsUs muxed.pts
        dts := offsetTs rescale state startPtsUs muxed.dts }
    else packetRescaleTs rescale muxed state.spec.timeBase state.timeBase
  if 0 < muxed.duration then
    { muxed with duration := rescale muxed.duration state.spec.timeBase state.timeBase }
  else muxed

/-- `start_pts_us_` once the packet is looked at: that of the first packet with a timestamp. -/
def nextStartPtsUs (rescale : Int → Int × Int → Int × Int → Int) (state : OutputStreamState) (startPtsUs : Int)
    (packet : AVPacket) : Int :=
  let firstTs := if packet.dts = avNoptsValue then packet.pts else packet.dts
  if startPtsUs < 0 ∧ firstTs ≠ avNoptsValue then rescale firstTs state.spec.timeBase avTimeBaseQ else startPtsUs

def writePacketInternal (rescale : Int → Int × Int → Int × Int → Int) (r : Recorder) (packet : AVPacket)
    (answer : WriteAnswer) : Bool × Recorder :=
  match r.fmtCtx with
  | none => (false, r)
  | some recording =>
    match r.streamStates.find? (·.spec.inputStreamIndex == packet.streamIndex) with
    | none => (false, r)
    | some state =>
      if !answer.cloned then (false, r)
      else
        let startPtsUs := nextStartPtsUs rescale state r.startPtsUs packet
        let r := { r with startPtsUs := startPtsUs }
        if !answer.written then (false, r)
        else (true, { r with fmtCtx := some (recording ++ [⟨packet, muxPacket rescale state startPtsUs packet⟩]) })

/-- The cached packets that are still to be written, and the answers for them. -/
def flushCachedGop (rescale : Int → Int × Int → Int × Int → Int) :
    Recorder → List AVPacket → List WriteAnswer → Bool × Recorder
  | r, [], _ => (true, r)
  | r, packet :: packets, answers =>
    let (ok, r) := r.writePacketInternal rescale packet (answers.headD {})
    if ok then flushCachedGop rescale r packets answers.tail else (false, r)

/-- `openRecording`, with the muxer's time bases unless the file cannot be opened. -/
def openRecording (r : Recorder) : Option (Nat → Int × Int) → Bool × Recorder
  | none => (false, r)
  | some timeBases =>
    (true, { r with
      fmtCtx := some []
      streamStates := buildOutputStreamMap r.streamSpecs timeBases
      startPtsUs := -1 })

def start (rescale : Int → Int × Int → Int × Int → Int) (r : Recorder) (timeBases : Option (Nat → Int × Int))
    (answers : List WriteAnswer) : Bool × Recorder :=
  if r.fmtCtx.isSome then (true, r)
  else if !r.isConfigured then (false, r)
  else
    let (opened, r) := r.openRecording timeBases
    if !opened then (false, r)
    else
      let (flushed, r) := flushCachedGop rescale r r.gopCache answers
      if !flushed then (false, r.close) else (true, r)

def requestRecording (rescale : Int → Int × Int → Int × Int → Int) (r : Recorder) (durationS nowMs : Int)
    (timeBases : Option (Nat → Int × Int)) (answers : List WriteAnswer) : Bool × Recorder :=
  if !r.isConfigured then (false, r)
  else
    let requestedDeadlineMs := nowMs + max durationS kDefaultRecordDurationS * 1000
    let r := { r with deadlineMs := max r.deadlineMs requestedDeadlineMs }
    if r.fmtCtx.isSome then (true, r) else r.start rescale timeBases answers

def appendPacket (rescale : Int → Int × Int → Int × Int → Int) (r : Recorder) (packet : AVPacket) (nowMs : Int)
    (cached : Bool) (answer : WriteAnswer) : Bool × Recorder :=
  if packet.data = [] then (false, r)
  else
    let r := (r.closeExpired nowMs).cachePacket packet cached
    if r.fmtCtx.isNone then (true, r)
    else
      let (written, r) := r.writePacketInternal rescale packet answer
      if !written then (false, r.close) else (true, r)

end Recorder

/-! ## What the operations do when nothing fails -/

lemma sameStreamSpecs_self (specs : List RtspStreamSpec) : sameStreamSpecs specs specs = true := by
  unfold sameStreamSpecs
  rw [beq_self_eq_true, Bool.true_and, List.zip_eq_zipWith, List.zipWith_self, List.all_map]
  simp [sameStreamCodecParams]

/-- A packet of a configured track. -/
def HasTrack (specs : List RtspStreamSpec) (packet : AVPacket) : Prop :=
  ∃ spec ∈ specs, spec.inputStreamIndex = packet.streamIndex

/-- A written packet has the data and the key flag of its source. -/
def WrittenPacket.Kept (w : WrittenPacket) : Prop :=
  w.muxed.data = w.source.data ∧ w.muxed.flagKey = w.source.flagKey

def Recording.sources (file : Recording) : List AVPacket := file.map (·.source)

namespace Recorder

variable (rescale : Int → Int × Int → Int × Int → Int) {r : Recorder}

/-- A configuration with the parameters that the recorder has changes nothing. -/
lemma configure_same {specs : List RtspStreamSpec} (h : r.streamSpecs = normalizedSpecs specs) :
    (r.configure r.streamId r.baseDir specs).2 = r := by
  unfold configure
  split
  · rfl
  · split
    · rfl
    · simp [h, sameStreamSpecs_self]
      rw [← h]

lemma muxPacket_kept (state : OutputStreamState) (startPtsUs : Int) (packet : AVPacket) :
    (⟨packet, muxPacket rescale state startPtsUs packet⟩ : WrittenPacket).Kept := by
  unfold WrittenPacket.Kept muxPacket
  dsimp only
  by_cases hstart : 0 ≤ startPtsUs
  · rw [if_pos hstart]
    split <;> exact ⟨rfl, rfl⟩
  · rw [if_neg hstart]
    generalize hmuxed : packetRescaleTs rescale _ _ _ = muxed
    have hkept : muxed.data = packet.data ∧ muxed.flagKey = packet.flagKey := by
      rw [← hmuxed]
      exact ⟨rfl, rfl⟩
    split <;> exact hkept

/-- A packet of a configured track is written at the end of the open file. -/
lemma writePacketInternal_open {file : Recording} (hopen : r.fmtCtx = some file)
    (htracks : r.streamStates.map (·.spec) = r.streamSpecs) {packet : AVPacket}
    (htrack : HasTrack r.streamSpecs packet) : ∃ startPtsUs written, written.source = packet ∧ written.Kept ∧
      r.writePacketInternal rescale packet {} =
        (true, { r with startPtsUs := startPtsUs, fmtCtx := some (file ++ [written]) }) := by
  have hsome : (r.streamStates.find? (·.spec.inputStreamIndex == packet.streamIndex)).isSome = true := by
    obtain ⟨spec, hspec, hindex⟩ := htrack
    rw [← htracks] at hspec
    obtain ⟨state, hstate, rfl⟩ := List.mem_map.mp hspec
    exact List.find?_isSome.mpr ⟨state, hstate, beq_iff_eq.mpr hindex⟩
  obtain ⟨state, hstate⟩ := Option.isSome_iff_exists.mp hsome
  have hkept := muxPacket_kept rescale state (nextStartPtsUs rescale state r.startPtsUs packet) packet
  refine ⟨nextStartPtsUs rescale state r.startPtsUs packet, _, rfl, hkept, ?_⟩
  simp only [writePacketInternal, hopen, hstate]
  rfl

/-- The cached packets are written one after the other. -/
lemma flushCachedGop_open {packets : List AVPacket} {file : Recording} (hopen : r.fmtCtx = some file)
    (htracks : r.streamStates.map (·.spec) = r.streamSpecs)
    (hpackets : ∀ packet ∈ packets, HasTrack r.streamSpecs packet) :
    ∃ startPtsUs written, written.map WrittenPacket.source = packets ∧ (∀ w ∈ written, w.Kept) ∧
      flushCachedGop rescale r packets [] =
        (true, { r with startPtsUs := startPtsUs, fmtCtx := some (file ++ written) }) := by
  induction packets generalizing r file with
  | nil => exact ⟨r.startPtsUs, [], rfl, by simp, by simp [flushCachedGop, ← hopen]⟩
  | cons packet packets ih =>
    obtain ⟨startPtsUs, written, hsource, hkept, hwrite⟩ :=
      writePacketInternal_open rescale hopen htracks (hpackets packet (List.mem_cons_self ..))
    obtain ⟨startPtsUs', rest, hsources, hkept', hflush⟩ :=
      ih (r := { r with startPtsUs := startPtsUs, fmtCtx := some (file ++ [written]) }) rfl htracks
        fun p hp => hpackets p (List.mem_cons_of_mem _ hp)
    refine ⟨startPtsUs', written :: rest, ?_, ?_, ?_⟩
    · rw [List.map_cons, hsource, hsources]
    · intro w hw
      rcases List.mem_cons.mp hw with rfl | hw
      · exact hkept
      · exact hkept' w hw
    · simp only [flushCachedGop, List.headD_nil, hwrite, List.tail_nil, if_true, hflush, List.append_assoc,
        List.singleton_append]

lemma buildOutputStreamMap_spec (specs : List RtspStreamSpec) (timeBases : Nat → Int × Int) :
    (buildOutputStreamMap specs timeBases).map (·.spec) = specs := by
  apply List.ext_getElem?
  intro i
  simp [buildOutputStreamMap, Function.comp_def]

/-- A new file starts with the cached packets. -/
lemma start_opened (hclosed : r.fmtCtx = none) (hconfigured : r.isConfigured = true)
    (hcache : ∀ packet ∈ r.gopCache, HasTrack r.streamSpecs packet) (timeBases : Nat → Int × Int) :
    ∃ startPtsUs file, Recording.sources file = r.gopCache ∧ (∀ w ∈ file, w.Kept) ∧
      r.start rescale (some timeBases) [] = (true, { r with
        startPtsUs := startPtsUs
        fmtCtx := some file
        streamStates := buildOutputStreamMap r.streamSpecs timeBases }) := by
  have hspecs := buildOutputStreamMap_spec r.streamSpecs timeBases
  obtain ⟨startPtsUs, file, hsources, hkept, hflush⟩ := flushCachedGop_open rescale
    (r := (r.openRecording (some timeBases)).2) rfl hspecs hcache
  refine ⟨startPtsUs, file, hsources, hkept, ?_⟩
  simp only [openRecording] at hflush
  simp [start, hclosed, hconfigured, openRecording, hflush]

/-- A request moves the deadline, and opens a file when none is open and one can be opened. -/
lemma requestRecording_cases (hcache : ∀ packet ∈ r.gopCache, HasTrack r.streamSpecs packet) (durationS nowMs : Int)
    (timeBases : Option (Nat → Int × Int)) : ∃ deadlineMs,
      (r.requestRecording rescale durationS nowMs timeBases []).2 = { r with deadlineMs := deadlineMs } ∨
      ∃ startPtsUs file states, Recording.sources file = r.gopCache ∧ (∀ w ∈ file, w.Kept) ∧
        states.map OutputStreamState.spec = r.streamSpecs ∧
        (r.requestRecording rescale durationS nowMs timeBases []).2 = { r with
          deadlineMs := deadlineMs, startPtsUs := startPtsUs, fmtCtx := some file, streamStates := states } := by
  unfold requestRecording
  by_cases hconfigured : r.isConfigured = true
  · simp only [hconfigured, Bool.not_true, Bool.false_eq_true, ite_false]
    generalize max r.deadlineMs _ = deadlineMs
    refine ⟨deadlineMs, ?_⟩
    by_cases hclosed : r.fmtCtx = none
    · rw [if_neg (by simp [hclosed])]
      cases timeBases with
      | none =>
        left
        unfold start
        rw [if_neg (by simp [hclosed])]
        split <;> rfl
      | some timeBases =>
        right
        obtain ⟨startPtsUs, file, hsources, hkept, hstart⟩ := start_opened rescale
          (r := { r with deadlineMs := deadlineMs }) hclosed hconfigured hcache timeBases
        rw [hstart]
        exact ⟨startPtsUs, file, _, hsources, hkept, buildOutputStreamMap_spec r.streamSpecs timeBases, rfl⟩
    · left
      rw [if_pos (Option.isSome_iff_ne_none.mpr hclosed)]
  · simp only [hconfigured, Bool.not_false, if_true]
    exact ⟨r.deadlineMs, .inl rfl⟩

lemma cachePacket_eq (packet : AVPacket) :
    r.cachePacket packet true = { r with
      gopCache := if isKeyframe r.streamSpecs packet then [packet]
        else if r.gopCache = [] then [] else r.gopCache ++ [packet] } := by
  unfold cachePacket
  cases isKeyframe r.streamSpecs packet with
  | true => rfl
  | false =>
    cases hcache : r.gopCache with
    | nil => rfl
    | cons first rest => rfl

end Recorder

end MediaAgent
