import MediaAgent.TrackerAdapter
import MediaAgent.Library.Transition
import Mathlib.Algebra.Order.Field.Rat
import Mathlib.Data.List.Sort

/-!
# The age of tracks

`ma_tracker_process` and `ByteTrackTracker.cpp`, below the tracking step of the detector. The tracker library is a
parameter: it counts the age of a track in calls. A run is a sequence of inferred frames, and the age that matters is
the number of these; a frame without objects makes no call.
-/

namespace MediaAgent
open Transition

/-- The arguments of the constructor of `camera::ByteTracker`. -/
structure ByteTrackerArgs where
  minThresh : F32
  highThresh : F32
  maxIouDistance : F32
  width : Int
  height : Int
  highThreshPerson : F32
  highThreshMotorbike : F32
  maxAge : Int
  nInit : Int
  deriving DecidableEq, Repr

/-- `camera::ByteTracker` with states in `β`; `process` gets the detections before `toByteTrackDetection` has scaled
them to the frame. The last three fields are observations: the calls since the last match of each track that is kept,
the age at which a track is deleted, and the number of tracks created so far, from which a new track has its serial. -/
structure ByteTracker (β : Type) where
  create : ByteTrackerArgs → β
  process : β → MaTrackerFrameDesc → List MaTrackerDetection → List TrackNode → β × List TrackNode
  live : β → Nat → Option Nat
  maxAge : β → Int
  born : β → Nat

structure TrackerHandleImpl (β : Type) where
  config : TrackerConfig
  tracker : Option β := none
  trackList : List TrackNode := []
  width : Int := 0
  height : Int := 0

def kDefaultMinThresh : F32 := ⟨0x3DCCCCCD⟩

def kDefaultHighThresh : F32 := ⟨0x3F000000⟩

def kDefaultHighThreshPerson : F32 := ⟨0x3ECCCCCD⟩

def kDefaultHighThreshMotorbike : F32 := ⟨0x3ECCCCCD⟩

def kDefaultMaxIouDistance : F32 := ⟨0x3F333333⟩

def kDefaultMaxAge : Int := 70

def kDefaultNInit : Int := 3

def resolveFloat (value fallback : F32) : F32 := if value.positive then value else fallback

def resolveInt (value fallback : Int) : Int := if 0 < value then value else fallback

/-- The arguments that `createTrackerIfNeeded` passes. -/
def byteTrackerArgs (config : TrackerConfig) (width height : Int) : ByteTrackerArgs where
  minThresh := resolveFloat config.minThresh kDefaultMinThresh
  highThresh := resolveFloat config.highThresh kDefaultHighThresh
  maxIouDistance := resolveFloat config.maxIouDistance kDefaultMaxIouDistance
  width := width
  height := height
  highThreshPerson := resolveFloat config.highThreshPerson kDefaultHighThreshPerson
  highThreshMotorbike := resolveFloat config.highThreshMotorbike kDefaultHighThreshMotorbike
  maxAge := resolveInt config.maxAge kDefaultMaxAge
  nInit := resolveInt config.nInit kDefaultNInit

def clearDeletedTracks (trackList : List TrackNode) : List TrackNode := trackList.filter (·.state ≠ .delete)

structure ByteTrackTracker (β : Type) where
  cfg : TrackerConfig
  handle : Option (TrackerHandleImpl β) := none

section
variable {β K : Type} [Field K] [LinearOrder K] (B : ByteTracker β) (iou : TrackIou K) (std : CandidateSort K)

def createTrackerIfNeeded (handle : TrackerHandleImpl β) (frameDesc : MaTrackerFrameDesc) : TrackerHandleImpl β :=
  if handle.tracker.isSome ∧ handle.width = frameDesc.width ∧ handle.height = frameDesc.height then handle
  else
    { handle with
      tracker := some (B.create (byteTrackerArgs handle.config frameDesc.width frameDesc.height))
      trackList := []
      width := frameDesc.width
      height := frameDesc.height }

/-- The outputs are `none` where the source returns -1. -/
def maTrackerProcess (handle : TrackerHandleImpl β) (frameDesc : MaTrackerFrameDesc)
    (detections : List MaTrackerDetection) : Option (List MaTrackerOutput) × TrackerHandleImpl β :=
  if frameDesc.width ≤ 0 ∨ frameDesc.height ≤ 0 then (none, handle)
  else if !handle.config.enabled then (some (initializeOutputs detections), handle)
  else
    let handle := createTrackerIfNeeded B handle frameDesc
    match handle.tracker with
    | none => (none, handle)
    | some tracker =>
      let r := B.process tracker frameDesc detections handle.trackList
      let trackList := clearDeletedTracks r.2
      (some (applyTrackMatches iou frameDesc trackList detections std (initializeOutputs detections)),
        { handle with tracker := some r.1, trackList := trackList })

def toNativeConfig (cfg : TrackerConfig) : TrackerConfig :=
  { cfg with trackerType := if cfg.trackerType = [] then "bytetrack".toUTF8.toList else cfg.trackerType }

def toDetection (object : DetectionObject) : MaTrackerDetection where
  x := object.bbox.cx
  y := object.bbox.cy
  width := object.bbox.width
  height := object.bbox.height
  confidence := object.confidence
  classId := object.classId.toInt32.toInt

def setObjectId (object : DetectionObject) (output : MaTrackerOutput) : DetectionObject :=
  if output.matched ≠ 0 ∧ 0 ≤ output.trackId then { object with objectId := UInt32.ofInt output.trackId } else object

namespace ByteTrackTracker

def init (t : ByteTrackTracker β) : Bool × ByteTrackTracker β :=
  match t.handle with
  | some _ => (true, t)
  | none => (true, { t with handle := some { config := toNativeConfig t.cfg } })

def track (t : ByteTrackTracker β) (frame : TrackFrame) (objects : List DetectionObject) :
    List DetectionObject × ByteTrackTracker β :=
  let t := t.init.2
  match t.handle with
  | none => (objects, t)
  | some handle =>
    if frame.width ≤ 0 ∨ frame.height ≤ 0 then (objects, t)
    else
      let frameDesc : MaTrackerFrameDesc :=
        { width := frame.width, height := frame.height, timestampMs := frame.timestampMs }
      let r := maTrackerProcess B iou std handle frameDesc (objects.map toDetection)
      let t := { t with handle := some r.2 }
      match r.1 with
      | none => (objects, t)
      | some outputs => (List.zipWith setObjectId objects outputs, t)

end ByteTrackTracker

/-- The trackers that `TrackerFactory` creates. -/
def byteTrackTrackers : ITracker (ByteTrackTracker β) where
  create cfg := { cfg := cfg }
  init := ByteTrackTracker.init
  track t frame objects _ := t.track B iou std frame objects

end

/-- The tracker of the library below a tracking step, with its list of tracks. -/
def TrackingPostprocessStep.native {β : Type} (step : TrackingPostprocessStep (ByteTrackTracker β)) :
    Option (β × List TrackNode) :=
  step.tracker.bind fun t => t.handle.bind fun handle => handle.tracker.map fun tracker => (tracker, handle.trackList)

/-! ## Runs of inferred frames -/

/-- A frame with what the model library answers for it. -/
structure InferredFrame where
  frame : FrameBundle := {}
  cfg : StreamConfig := {}
  context : AlgoDetectContext := {}
  rawResults : List ObjectResult := []

namespace InferredFrame

def output (a : InferredFrame) : FrameInferenceResult :=
  formatInferResultPostprocessStep a.frame a.context a.rawResults {}

def objects (a : InferredFrame) : List DetectionObject := a.output.objects

def frameDesc (a : InferredFrame) : MaTrackerFrameDesc where
  width := a.frame.width
  height := a.frame.height
  timestampMs := a.frame.timestampMs

end InferredFrame

/-- The tracking step between two frames. A track that has matched a detection has the number of frames `missed` since
then, and is `stale` once that has been more than the tracker's `max_age`. The ids of the tracks `given` went to
detections of the last frame. -/
structure TrackedFrames (β : Type) where
  step : TrackingPostprocessStep (ByteTrackTracker β) := {}
  missed : Nat → Option Nat := fun _ => none
  stale : Nat → Bool := fun _ => false
  given : List Nat := []

section
variable {β K : Type} [Field K] [LinearOrder K] (B : ByteTracker β) (iou : TrackIou K) (std : CandidateSort K)

/-- A track matches a detection in a call that leaves it with age 0. -/
def missedAfter (called : Option (β × List TrackNode)) (missed : Nat → Option Nat) (k : Nat) : Option Nat :=
  if called.any fun p => B.live p.1 k == some 0 then some 0 else (missed k).map (· + 1)

def staleAfter (maxAge : Int) (missed : Nat → Option Nat) (stale : Nat → Bool) (k : Nat) : Bool :=
  stale k || (missed k).any fun n : Nat => decide (maxAge < n)

/-- The tracks of the pairs that `applyTrackMatches` marks. -/
def givenSerials (frameDesc : MaTrackerFrameDesc) (trackList : List TrackNode) (detections : List MaTrackerDetection) :
    List Nat :=
  (chosenCandidates iou frameDesc trackList detections std).map fun c => (trackList.getD c.trackIndex {}).serial

def TrackedFrames.after (maxAge : Int) (s : TrackedFrames β) (a : InferredFrame)
    (step : TrackingPostprocessStep (ByteTrackTracker β)) : TrackedFrames β :=
  let called := if a.objects = [] then none else step.native
  let missed := missedAfter B called s.missed
  { step := step
    missed := missed
    stale := staleAfter maxAge missed s.stale
    given := match called with
      | none => []
      | some p => givenSerials iou std a.frameDesc p.2 (a.objects.map toDetection) }

/-- Frames of one size under one tracker configuration. -/
def trackedSystem (same : SameProtoMessage) (cfg : TrackerConfig) (width height : Int) :
    Machine (TrackedFrames β) InferredFrame where
  init := {}
  next s a :=
    if a.cfg.tracker = some cfg ∧ a.frame.width = width ∧ a.frame.height = height then
      let r := s.step.run (byteTrackTrackers B iou std) same a.frame a.cfg a.output
      some (s.after B iou std (resolveInt cfg.maxAge kDefaultMaxAge) a r.2)
    else none

end

/-- No detection gets the id of a track that has gone unmatched for more than `max_age` frames in a row. -/
def TrackedFrames.NoStaleId {β : Type} (s : TrackedFrames β) : Prop := ∀ k ∈ s.given, s.stale k = false

/-- When the frame has an object left, each track that the tracker holds has aged with every frame since its last match,
or has been matched less than `max_age` frames ago. -/
def TrackedFrames.AgedInTime {β : Type} (B : ByteTracker β) (cfg : TrackerConfig) (s : TrackedFrames β)
    (a : InferredFrame) : Prop :=
  a.objects ≠ [] → ∀ p : β × List TrackNode, s.step.native = some p → ∀ k age n, B.live p.1 k = some age →
    s.missed k = some n → n = age ∨ (n : Int) < resolveInt cfg.maxAge kDefaultMaxAge

/-- What the tracker library does. A call advances each track it holds by one: a track is matched, is left unmatched
below the maximal age, or is deleted; and what is not marked as deleted in the list of tracks is still held. -/
structure ByteTracker.Laws {β : Type} (B : ByteTracker β) : Prop where
  create_live : ∀ args k, B.live (B.create args) k = none
  create_born : ∀ args, B.born (B.create args) = 0
  create_maxAge : ∀ args, B.maxAge (B.create args) = args.maxAge
  maxAge : ∀ b frameDesc detections trackList,
    B.maxAge (B.process b frameDesc detections trackList).1 = B.maxAge b
  aged : ∀ b frameDesc detections trackList k age, B.live b k = some age →
    B.live (B.process b frameDesc detections trackList).1 k = some 0 ∨
    B.live (B.process b frameDesc detections trackList).1 k = some (age + 1) ∧ ((age + 1 : Nat) : Int) < B.maxAge b ∨
    B.live (B.process b frameDesc detections trackList).1 k = none
  created : ∀ b frameDesc detections trackList k, B.live b k = none →
    B.live (B.process b frameDesc detections trackList).1 k = none ∨
    B.born b ≤ k ∧ B.live (B.process b frameDesc detections trackList).1 k = some 0
  live_born : ∀ b k age, B.live b k = some age → k < B.born b
  born : ∀ b frameDesc detections trackList, B.born b ≤ B.born (B.process b frameDesc detections trackList).1
  listed : ∀ b frameDesc detections trackList, (∀ node ∈ trackList, (B.live b node.serial).isSome = true) →
    ∀ node ∈ (B.process b frameDesc detections trackList).2, node.state = .normal →
      (B.live (B.process b frameDesc detections trackList).1 node.serial).isSome = true

/-! ## What a frame does to the tracker of the library -/

/-- The tracker and its list after a call of `Process`. -/
def ByteTracker.turn {β : Type} (B : ByteTracker β) (frameDesc : MaTrackerFrameDesc)
    (detections : List MaTrackerDetection) (p : β × List TrackNode) : β × List TrackNode :=
  let r := B.process p.1 frameDesc detections p.2
  (r.1, clearDeletedTracks r.2)

section
variable {β K : Type} [Field K] [LinearOrder K] (B : ByteTracker β) (iou : TrackIou K) (std : CandidateSort K)

def TrackerHandleImpl.native (handle : TrackerHandleImpl β) : Option (β × List TrackNode) :=
  handle.tracker.map fun tracker => (tracker, handle.trackList)

/-- The handle belongs to the configuration, and its tracker to frames of the size. -/
structure TrackerHandleImpl.Fits (cfg : TrackerConfig) (width height : Int) (handle : TrackerHandleImpl β) : Prop where
  config : handle.config = toNativeConfig cfg
  size : handle.tracker.isSome = true → handle.width = width ∧ handle.height = height ∧ 0 < width ∧ 0 < height

/-- A tracker without tracks, as it is created for frames of the size. -/
def ByteTracker.fresh (cfg : TrackerConfig) (width height : Int) : β × List TrackNode :=
  (B.create (byteTrackerArgs cfg width height), [])

lemma createTrackerIfNeeded_eq {cfg : TrackerConfig} {width height : Int} {handle : TrackerHandleImpl β}
    (h : handle.Fits cfg width height) (timestampMs : Int) :
    createTrackerIfNeeded B handle ⟨width, height, timestampMs⟩ =
      { handle with
        tracker := some (handle.native.getD (B.fresh cfg width height)).1
        trackList := (handle.native.getD (B.fresh cfg width height)).2
        width := width
        height := height } := by
  obtain ⟨config, tracker, trackList, width', height'⟩ := handle
  cases tracker with
  | none =>
    have hconfig : config = toNativeConfig cfg := h.config
    subst hconfig
    rfl
  | some tracker =>
    obtain ⟨hwidth, hheight, -⟩ := h.size rfl
    rw [createTrackerIfNeeded, if_pos ⟨rfl, hwidth, hheight⟩]
    dsimp only at hwidth hheight
    subst hwidth hheight
    rfl

lemma maTrackerProcess_snd {cfg : TrackerConfig} (henabled : cfg.enabled = true) {width height : Int}
    (hsize : 0 < width ∧ 0 < height) {handle : TrackerHandleImpl β} (h : handle.Fits cfg width height)
    (timestampMs : Int) (detections : List MaTrackerDetection) :
    (maTrackerProcess B iou std handle ⟨width, height, timestampMs⟩ detections).2.Fits cfg width height ∧
      (maTrackerProcess B iou std handle ⟨width, height, timestampMs⟩ detections).2.native =
        some (B.turn ⟨width, height, timestampMs⟩ detections (handle.native.getD (B.fresh cfg width height))) := by
  have hconfig : handle.config.enabled = true := by rw [h.config]; exact henabled
  have hvalid : ¬(width ≤ 0 ∨ height ≤ 0) := by omega
  rw [maTrackerProcess, if_neg hvalid, if_neg (by rw [hconfig]; decide), createTrackerIfNeeded_eq B h]
  exact ⟨⟨h.config, fun _ => ⟨rfl, rfl, hsize⟩⟩, rfl⟩

/-- What a frame does to the tracker below: nothing as long as there is none, otherwise one call, the first one of a
tracker that has just been created. -/
def Turns (cfg : TrackerConfig) (frameDesc : MaTrackerFrameDesc) (detections : List MaTrackerDetection)
    (native native' : Option (β × List TrackNode)) : Prop :=
  native = none ∧ native' = none ∨
    native' = some (B.turn frameDesc detections (native.getD (B.fresh cfg frameDesc.width frameDesc.height)))

lemma track_turns {cfg : TrackerConfig} (henabled : cfg.enabled = true) (frame : TrackFrame) {t : ByteTrackTracker β}
    {handle : TrackerHandleImpl β} (ht : t.handle = some handle) (h : handle.Fits cfg frame.width frame.height)
    (objects : List DetectionObject) :
    ∃ handle', (t.track B iou std frame objects).2.handle = some handle' ∧
      handle'.Fits cfg frame.width frame.height ∧
      Turns B cfg ⟨frame.width, frame.height, frame.timestampMs⟩ (objects.map toDetection) handle.native
        handle'.native := by
  have hinit : t.init.2 = t := by rw [ByteTrackTracker.init, ht]
  rw [ByteTrackTracker.track, hinit, ht]
  dsimp only
  by_cases hsize : frame.width ≤ 0 ∨ frame.height ≤ 0
  · have hnone : handle.native = none := by
      cases htracker : handle.tracker with
      | none => rw [TrackerHandleImpl.native, htracker, Option.map_none]
      | some tracker =>
        obtain ⟨-, -, hpositive⟩ := h.size (by rw [htracker]; rfl)
        omega
    rw [if_pos hsize]
    exact ⟨handle, ht, h, .inl ⟨hnone, hnone⟩⟩
  · have hpositive : 0 < frame.width ∧ 0 < frame.height := by omega
    obtain ⟨hfits, hturn⟩ := maTrackerProcess_snd B iou std henabled hpositive h frame.timestampMs
      (objects.map toDetection)
    rw [if_neg hsize]
    refine ⟨_, ?_, hfits, .inr hturn⟩
    split <;> rfl

/-- The tracking step has a tracker for the configuration and frames of the size, or none. -/
structure StepFits (cfg : TrackerConfig) (width height : Int) (step : TrackingPostprocessStep (ByteTrackTracker β)) :
    Prop where
  config : step.trackerInitializedForConfig = true → step.activeTrackerConfig = cfg
  tracker : ∀ t, step.tracker = some t → step.trackerInitializedForConfig = true ∧ cfg.enabled = true ∧
    ∃ handle, t.handle = some handle ∧ handle.Fits cfg width height

lemma StepFits.tracker_eq_none {cfg : TrackerConfig} {width height : Int}
    {step : TrackingPostprocessStep (ByteTrackTracker β)} (h : StepFits cfg width height step)
    (hnot : ¬(step.trackerInitializedForConfig = true ∧ cfg.enabled = true)) : step.tracker = none := by
  by_contra hsome
  obtain ⟨t, ht⟩ := Option.ne_none_iff_exists'.mp hsome
  obtain ⟨hinitialized, henabled, -⟩ := h.tracker t ht
  exact hnot ⟨hinitialized, henabled⟩

lemma native_of_tracker_eq_none {step : TrackingPostprocessStep (ByteTrackTracker β)} (h : step.tracker = none) :
    step.native = none := by
  rw [TrackingPostprocessStep.native, h, Option.bind_none]

lemma native_of_handle {step : TrackingPostprocessStep (ByteTrackTracker β)} {t : ByteTrackTracker β}
    {handle : TrackerHandleImpl β} (h : step.tracker = some t) (ht : t.handle = some handle) :
    step.native = handle.native := by
  rw [TrackingPostprocessStep.native, h, Option.bind_some, ht, Option.bind_some, TrackerHandleImpl.native]

lemma ensureTrackerLocked_fits {same : SameProtoMessage} {cfg : TrackerConfig} (hsame : same.tracker cfg cfg = true)
    (henabled : cfg.enabled = true) {width height : Int} {step : TrackingPostprocessStep (ByteTrackTracker β)}
    (h : StepFits cfg width height step) :
    StepFits cfg width height (step.ensureTrackerLocked (byteTrackTrackers B iou std) same cfg) ∧
      (step.ensureTrackerLocked (byteTrackTrackers B iou std) same cfg).native = step.native := by
  cases hinitialized : step.trackerInitializedForConfig with
  | true =>
    have hkept : step.ensureTrackerLocked (byteTrackTrackers B iou std) same cfg = step := by
      rw [TrackingPostprocessStep.ensureTrackerLocked, h.config hinitialized, hinitialized, hsame]
      rfl
    rw [hkept]
    exact ⟨h, rfl⟩
  | false =>
    have hnone : step.tracker = none :=
      h.tracker_eq_none fun hboth => by cases hinitialized.symm.trans hboth.1
    rw [TrackingPostprocessStep.ensureTrackerLocked, hinitialized, native_of_tracker_eq_none hnone]
    rw [Bool.false_and, if_neg Bool.false_ne_true, createTracker, if_neg (by rw [henabled]; decide)]
    by_cases htype : cfg.trackerType = [] ∨ cfg.trackerType = "bytetrack".toUTF8.toList
    · rw [if_pos htype]
      refine ⟨⟨fun _ => rfl, fun t ht => ?_⟩, rfl⟩
      cases ht
      exact ⟨rfl, henabled, _, rfl, rfl, fun hsome => by cases hsome⟩
    · rw [if_neg htype]
      exact ⟨⟨fun _ => rfl, fun t ht => by cases ht⟩, rfl⟩

omit [Field K] [LinearOrder K] in
/-- A frame without objects makes no call. -/
lemma run_empty (trackers : ITracker (ByteTrackTracker β)) (same : SameProtoMessage)
    (step : TrackingPostprocessStep (ByteTrackTracker β)) (frame : FrameBundle) (streamCfg : StreamConfig)
    {output : FrameInferenceResult} (h : output.objects = []) :
    step.run trackers same frame streamCfg output = (output, step) := by
  rw [TrackingPostprocessStep.run, if_pos h]

/-- One tracking step on a frame with objects makes one call. -/
lemma run_turns {same : SameProtoMessage} {cfg : TrackerConfig} (hsame : same.tracker cfg cfg = true)
    {frame : FrameBundle} {step : TrackingPostprocessStep (ByteTrackTracker β)}
    (h : StepFits cfg frame.width frame.height step) {streamCfg : StreamConfig} (hcfg : streamCfg.tracker = some cfg)
    {output : FrameInferenceResult} (hobjects : output.objects ≠ []) :
    StepFits cfg frame.width frame.height (step.run (byteTrackTrackers B iou std) same frame streamCfg output).2 ∧
      Turns B cfg ⟨frame.width, frame.height, frame.timestampMs⟩ (output.objects.map toDetection) step.native
        (step.run (byteTrackTrackers B iou std) same frame streamCfg output).2.native := by
  rw [TrackingPostprocessStep.run, if_neg hobjects, hcfg]
  dsimp only
  by_cases henabled : cfg.enabled = true
  · obtain ⟨hfits, hnative⟩ := ensureTrackerLocked_fits B iou std hsame henabled h
    rw [if_neg (by rw [henabled]; decide), ← hnative]
    generalize step.ensureTrackerLocked (byteTrackTrackers B iou std) same cfg = ready at hfits
    cases htracker : ready.tracker with
    | none => exact ⟨hfits, .inl ⟨native_of_tracker_eq_none htracker, native_of_tracker_eq_none htracker⟩⟩
    | some t =>
      obtain ⟨hinitialized, -, handle, ht, hhandle⟩ := hfits.tracker t htracker
      obtain ⟨handle', ht', hhandle', hturns⟩ := track_turns B iou std henabled
        ⟨frame.streamId, frame.frameId, frame.timestampMs, frame.width, frame.height⟩ ht hhandle output.objects
      refine ⟨⟨hfits.config, fun t' htracker' => ?_⟩, ?_⟩
      · cases htracker'
        exact ⟨hinitialized, henabled, handle', ht', hhandle'⟩
      · rw [native_of_handle htracker ht, native_of_handle rfl ht']
        exact hturns
  · have hnone : step.tracker = none := h.tracker_eq_none fun hboth => henabled hboth.2
    rw [if_pos (by simpa using henabled)]
    refine ⟨⟨fun hinitialized => absurd hinitialized Bool.false_ne_true, fun t ht => by cases ht⟩, .inl ⟨?_, rfl⟩⟩
    exact native_of_tracker_eq_none hnone

end

/-! ## The ids that a frame's objects get -/

section
variable {β K : Type} [Field K] [LinearOrder K] (B : ByteTracker β) (iou : TrackIou K) (std : CandidateSort K)

lemma ofInt_toInt32 (x : UInt32) : UInt32.ofInt x.toInt32.toInt = x := by
  have hlt : x.toNat < 2 ^ 32 := x.toNat_lt
  have hbmod : x.toInt32.toInt = (x.toNat : Int).bmod (2 ^ 32) := BitVec.toInt_eq_toNat_bmod x.toBitVec
  have hmod : x.toInt32.toInt % 2 ^ 32 = x.toNat :=
    calc
      x.toInt32.toInt % 2 ^ 32 = (x.toNat : Int).bmod (2 ^ 32) % 2 ^ 32 := by rw [hbmod]
      _ = (x.toNat : Int) % 2 ^ 32 := Int.bmod_emod
      _ = x.toNat := by omega
  rw [UInt32.ofInt, hmod, Int.toNat_natCast, UInt32.ofNat_toNat]

lemma setObjectId_initialOutput (object : DetectionObject) (detection : MaTrackerDetection) :
    setObjectId object (initialOutput detection) = object :=
  if_neg fun h => h.1 rfl

lemma setObjectId_setTrack (object : DetectionObject) (output : MaTrackerOutput) (track : TrackNode) :
    setObjectId object (output.setTrack track) = object ∨
      setObjectId object (output.setTrack track) = { object with objectId := track.id } := by
  unfold setObjectId
  split
  · right
    rw [MaTrackerOutput.setTrack, ofInt_toInt32]
  · exact .inl rfl

/-- An object that is changed gets the id of a chosen track. -/
lemma mem_zipWith_setObjectId {frameDesc : MaTrackerFrameDesc} {trackList : List TrackNode}
    {objects : List DetectionObject} {object : DetectionObject}
    (h : object ∈ List.zipWith setObjectId objects
      (applyTrackMatches iou frameDesc trackList (objects.map toDetection) std
        (initializeOutputs (objects.map toDetection)))) :
    object ∈ objects ∨ ∃ node ∈ trackList,
      node.serial ∈ givenSerials iou std frameDesc trackList (objects.map toDetection) ∧ object.objectId = node.id := by
  obtain ⟨-, hmarks⟩ := marks_applyTrackMatches iou frameDesc trackList (objects.map toDetection) std
  obtain ⟨i, hi⟩ := List.getElem?_of_mem h
  obtain ⟨before, output, hbefore, houtput, rfl⟩ := List.getElem?_zipWith_eq_some.mp hi
  have hmem : before ∈ objects := List.mem_of_getElem? hbefore
  rcases hmarks i (toDetection before) (by rw [List.getElem?_map, hbefore, Option.map_some]) with
    ⟨c, hc, track, -, htrack, hset⟩ | ⟨-, hset⟩
  · cases houtput.symm.trans hset
    rcases setObjectId_setTrack before (initialOutput (toDetection before)) track with hsame | hgiven
    · rw [hsame]
      exact .inl hmem
    · refine .inr ⟨track, List.mem_of_getElem? htrack, List.mem_map.mpr ⟨c, hc, ?_⟩, by rw [hgiven]⟩
      rw [getD_track htrack]
  · cases houtput.symm.trans hset
    rw [setObjectId_initialOutput]
    exact .inl hmem

lemma zipWith_setObjectId_initial (objects : List DetectionObject) :
    List.zipWith setObjectId objects (initializeOutputs (objects.map toDetection)) = objects := by
  induction objects with
  | nil => rfl
  | cons object objects ih =>
    simp only [initializeOutputs, List.map_cons, List.zipWith_cons_cons] at ih ⊢
    rw [ih, setObjectId_initialOutput]

/-- The outputs of a call, if there are any: no matches, or those with the list that the call leaves. -/
lemma maTrackerProcess_fst (handle : TrackerHandleImpl β) (frameDesc : MaTrackerFrameDesc)
    (detections : List MaTrackerDetection) {outputs : List MaTrackerOutput}
    (h : (maTrackerProcess B iou std handle frameDesc detections).1 = some outputs) :
    outputs = initializeOutputs detections ∨
      ∃ p, (maTrackerProcess B iou std handle frameDesc detections).2.native = some p ∧
        outputs = applyTrackMatches iou frameDesc p.2 detections std (initializeOutputs detections) := by
  unfold maTrackerProcess at h ⊢
  by_cases hsize : frameDesc.width ≤ 0 ∨ frameDesc.height ≤ 0
  · rw [if_pos hsize] at h
    cases h
  · rw [if_neg hsize] at h ⊢
    by_cases hdisabled : (!handle.config.enabled) = true
    · rw [if_pos hdisabled] at h
      exact .inl (Option.some.inj h).symm
    · rw [if_neg hdisabled] at h ⊢
      dsimp only at h ⊢
      generalize createTrackerIfNeeded B handle frameDesc = ready at h ⊢
      cases htracker : ready.tracker with
      | none =>
        rw [htracker] at h
        cases h
      | some tracker =>
        rw [htracker] at h
        exact .inr ⟨_, rfl, (Option.some.inj h).symm⟩

lemma init_handle (t : ByteTrackTracker β) : ∃ handle, t.init.2.handle = some handle := by
  unfold ByteTrackTracker.init
  cases hhandle : t.handle with
  | none => exact ⟨_, rfl⟩
  | some handle => exact ⟨handle, hhandle⟩

lemma mem_track {t : ByteTrackTracker β} {frame : TrackFrame} {objects : List DetectionObject}
    {object : DetectionObject} (h : object ∈ (t.track B iou std frame objects).1) :
    object ∈ objects ∨ ∃ handle p, (t.track B iou std frame objects).2.handle = some handle ∧
      handle.native = some p ∧ ∃ node ∈ p.2,
        node.serial ∈ givenSerials iou std ⟨frame.width, frame.height, frame.timestampMs⟩ p.2
          (objects.map toDetection) ∧ object.objectId = node.id := by
  obtain ⟨handle, hhandle⟩ := init_handle t
  rw [ByteTrackTracker.track] at h ⊢
  dsimp only at h ⊢
  rw [hhandle] at h ⊢
  dsimp only at h ⊢
  by_cases hsize : frame.width ≤ 0 ∨ frame.height ≤ 0
  · rw [if_pos hsize] at h
    exact .inl h
  · rw [if_neg hsize] at h ⊢
    cases houtputs : (maTrackerProcess B iou std handle ⟨frame.width, frame.height, frame.timestampMs⟩
        (objects.map toDetection)).1 with
    | none =>
      rw [houtputs] at h
      exact .inl h
    | some outputs =>
      rw [houtputs] at h
      dsimp only at h
      rcases maTrackerProcess_fst B iou std handle _ _ houtputs with rfl | ⟨p, hp, rfl⟩
      · rw [zipWith_setObjectId_initial] at h
        exact .inl h
      · exact (mem_zipWith_setObjectId iou std h).imp id fun hgiven => ⟨_, p, rfl, hp, hgiven⟩

lemma mem_run {same : SameProtoMessage} {step : TrackingPostprocessStep (ByteTrackTracker β)} {frame : FrameBundle}
    {streamCfg : StreamConfig} {output : FrameInferenceResult} {object : DetectionObject}
    (h : object ∈ (step.run (byteTrackTrackers B iou std) same frame streamCfg output).1.objects) :
    object ∈ output.objects ∨ output.objects ≠ [] ∧
      ∃ p, (step.run (byteTrackTrackers B iou std) same frame streamCfg output).2.native = some p ∧
        ∃ node ∈ p.2, node.serial ∈ givenSerials iou std ⟨frame.width, frame.height, frame.timestampMs⟩ p.2
          (output.objects.map toDetection) ∧ object.objectId = node.id := by
  by_cases hobjects : output.objects = []
  · rw [run_empty _ _ _ _ _ hobjects] at h
    exact .inl h
  · rw [TrackingPostprocessStep.run, if_neg hobjects] at h ⊢
    cases hcfg : streamCfg.tracker with
    | none =>
      rw [hcfg] at h
      exact .inl h
    | some trackerCfg =>
      rw [hcfg] at h
      dsimp only at h ⊢
      by_cases hdisabled : (!trackerCfg.enabled) = true
      · rw [if_pos hdisabled] at h
        exact .inl h
      · rw [if_neg hdisabled] at h ⊢
        generalize step.ensureTrackerLocked (byteTrackTrackers B iou std) same trackerCfg = ready at h ⊢
        cases htracker : ready.tracker with
        | none =>
          rw [htracker] at h
          exact .inl h
        | some t =>
          rw [htracker] at h
          rcases mem_track B iou std h with hsame | ⟨handle, p, hhandle, hp, hgiven⟩
          · exact .inl hsame
          · exact .inr ⟨hobjects, p, (native_of_handle rfl hhandle).trans hp, hgiven⟩

/-- An object of a frame has the id 0 it was built with, or the id of a track that is `given`. -/
theorem objectId_given {same : SameProtoMessage} {cfg : TrackerConfig} {width height : Int} {s s' : TrackedFrames β}
    {a : InferredFrame} (hnext : (trackedSystem B iou std same cfg width height).next s a = some s')
    {object : DetectionObject}
    (h : object ∈ (s.step.run (byteTrackTrackers B iou std) same a.frame a.cfg a.output).1.objects) :
    object.objectId = 0 ∨ ∃ p, s'.step.native = some p ∧
      ∃ node ∈ p.2, node.serial ∈ s'.given ∧ object.objectId = node.id := by
  obtain ⟨-, hs'⟩ := Option.ite_none_right_eq_some.mp hnext
  cases hs'
  rcases mem_run B iou std h with hbuilt | ⟨hobjects, p, hp, hgiven⟩
  · left
    obtain ⟨item, -, rfl⟩ := List.mem_map.mp (List.mem_filter.mp hbuilt).1
    rfl
  · refine .inr ⟨p, hp, ?_⟩
    have hcalled : (if a.objects = [] then none else _) = some p := (if_neg hobjects).trans hp
    rw [TrackedFrames.after, hcalled]
    exact hgiven

end

/-! ## Ages and missed frames -/

section
variable {β K : Type} [Field K] [LinearOrder K] {B : ByteTracker β} {maxAge : Int} {p : β × List TrackNode}
  {missed : Nat → Option Nat} {stale : Nat → Bool}

/-- A track that is held is young in calls, though it may have missed more frames. If it is stale, it has missed too many,
and the serials of stale tracks are not used again. -/
structure AgeInv (B : ByteTracker β) (maxAge : Int) (p : β × List TrackNode) (missed : Nat → Option Nat)
    (stale : Nat → Bool) : Prop where
  limit : B.maxAge p.1 = maxAge
  counted : ∀ k age, B.live p.1 k = some age → ∃ n, missed k = some n
  young : ∀ k age, B.live p.1 k = some age → (age : Int) < maxAge
  seen : ∀ k n, missed k = some n → k < B.born p.1
  used : ∀ k, stale k = true → k < B.born p.1
  late : ∀ k age n, B.live p.1 k = some age → stale k = true → missed k = some n → maxAge < (n : Int)
  listed : ∀ node ∈ p.2, (B.live p.1 node.serial).isSome = true

lemma missedAfter_matched {k : Nat} (h : B.live p.1 k = some 0) : missedAfter B (some p) missed k = some 0 := by
  rw [missedAfter, if_pos (by rw [Option.any_some, h]; rfl)]

lemma missedAfter_unmatched {k : Nat} (h : B.live p.1 k ≠ some 0) :
    missedAfter B (some p) missed k = (missed k).map (· + 1) := by
  rw [missedAfter, if_neg (by rw [Option.any_some, beq_iff_eq]; exact h)]

/-- A track that becomes stale has just missed too many frames. -/
lemma staleAfter_cases {k : Nat} (h : staleAfter maxAge missed stale k = true) :
    stale k = true ∨ ∃ n, missed k = some n ∧ maxAge < (n : Int) := by
  rcases Bool.or_eq_true _ _ |>.mp h with hstale | hlate
  · exact .inl hstale
  · obtain ⟨n, hn, hlate⟩ := Option.any_eq_true _ _ |>.mp hlate
    exact .inr ⟨n, hn, of_decide_eq_true hlate⟩

lemma ageInv_fresh (hB : B.Laws) (cfg : TrackerConfig) (width height : Int) :
    AgeInv B (resolveInt cfg.maxAge kDefaultMaxAge) (B.fresh cfg width height) (fun _ => none) fun _ => false where
  limit := hB.create_maxAge _
  counted k age h := by cases (hB.create_live _ k).symm.trans h
  young k age h := by cases (hB.create_live _ k).symm.trans h
  seen k n h := by cases h
  used k h := by cases h
  late k age n h := by cases (hB.create_live _ k).symm.trans h
  listed node h := absurd h List.not_mem_nil

/-- A frame without a call: the tracks miss one more frame and do not age. -/
lemma AgeInv.skip (h : AgeInv B maxAge p missed stale) :
    AgeInv B maxAge p (missedAfter B none missed) (staleAfter maxAge (missedAfter B none missed) stale) := by
  have hseen : ∀ k n, missedAfter B none missed k = some n → k < B.born p.1 := by
    intro k n hn
    obtain ⟨m, hm, -⟩ := Option.map_eq_some_iff.mp hn
    exact h.seen k m hm
  refine ⟨h.limit, fun k age hlive => ?_, h.young, hseen, fun k hk => ?_, fun k age n hlive hk hn => ?_, h.listed⟩
  · obtain ⟨n, hn⟩ := h.counted k age hlive
    exact ⟨n + 1, by rw [missedAfter, Option.any_none, if_neg Bool.false_ne_true, hn]; rfl⟩
  · rcases staleAfter_cases hk with hstale | ⟨n, hn, -⟩
    · exact h.used k hstale
    · exact hseen k n hn
  · rcases staleAfter_cases hk with hstale | ⟨m, hm, hlate⟩
    · obtain ⟨m, hm, rfl⟩ := Option.map_eq_some_iff.mp hn
      have hlate := h.late k age m hlive hstale hm
      push_cast
      omega
    · cases hm.symm.trans hn
      exact hlate

/-- Whatever a call leaves held, it has missed at most `max_age` frames and has never been stale, when the tracks before it
had missed fewer. -/
lemma AgeInv.turn_live (hB : B.Laws) (hmax : 0 < maxAge) (h : AgeInv B maxAge p missed stale)
    (hintime : ∀ k age n, B.live p.1 k = some age → missed k = some n → (n : Int) < maxAge)
    (frameDesc : MaTrackerFrameDesc) (detections : List MaTrackerDetection) {k age : Nat}
    (hlive : B.live (B.turn frameDesc detections p).1 k = some age) :
    stale k = false ∧ (age : Int) < maxAge ∧
      ∃ n, missedAfter B (some (B.turn frameDesc detections p)) missed k = some n ∧ (n : Int) ≤ maxAge := by
  cases hbefore : B.live p.1 k with
  | none =>
    rcases hB.created p.1 frameDesc detections p.2 k hbefore with hnone | ⟨hborn, hnew⟩
    · cases hlive.symm.trans hnone
    · cases hlive.symm.trans hnew
      refine ⟨?_, hmax, 0, missedAfter_matched hlive, hmax.le⟩
      by_contra hstale
      have hused : k < B.born p.1 := h.used k (Bool.eq_true_of_not_eq_false hstale)
      omega
  | some before =>
    obtain ⟨n, hn⟩ := h.counted k before hbefore
    have hn' : (n : Int) < maxAge := hintime k before n hbefore hn
    have hstale : stale k = false := by
      by_contra hstale
      have hlate : maxAge < (n : Int) := h.late k before n hbefore (Bool.eq_true_of_not_eq_false hstale) hn
      omega
    by_cases hmatched : B.live (B.turn frameDesc detections p).1 k = some 0
    · cases hlive.symm.trans hmatched
      exact ⟨hstale, hmax, 0, missedAfter_matched hlive, hmax.le⟩
    · rcases hB.aged p.1 frameDesc detections p.2 k before hbefore with hzero | ⟨haged, hlt⟩ | hdeleted
      · exact absurd hzero hmatched
      · rw [h.limit] at hlt
        cases hlive.symm.trans haged
        refine ⟨hstale, hlt, n + 1, ?_, by push_cast; omega⟩
        rw [missedAfter_unmatched hmatched, hn]
        rfl
      · cases hlive.symm.trans hdeleted

/-- No track that a call leaves held is stale. -/
lemma AgeInv.turn_fresh (hB : B.Laws) (hmax : 0 < maxAge) (h : AgeInv B maxAge p missed stale)
    (hintime : ∀ k age n, B.live p.1 k = some age → missed k = some n → (n : Int) < maxAge)
    (frameDesc : MaTrackerFrameDesc) (detections : List MaTrackerDetection) (k age : Nat)
    (hlive : B.live (B.turn frameDesc detections p).1 k = some age) :
    staleAfter maxAge (missedAfter B (some (B.turn frameDesc detections p)) missed) stale k = false := by
  obtain ⟨hstale, -, n, hn, hle⟩ := h.turn_live hB hmax hintime frameDesc detections hlive
  by_contra hnot
  rcases staleAfter_cases (Bool.eq_true_of_not_eq_false hnot) with hold | ⟨m, hm, hlate⟩
  · cases hold.symm.trans hstale
  · cases hm.symm.trans hn
    omega

lemma AgeInv.turn (hB : B.Laws) (hmax : 0 < maxAge) (h : AgeInv B maxAge p missed stale)
    (hintime : ∀ k age n, B.live p.1 k = some age → missed k = some n → (n : Int) < maxAge)
    (frameDesc : MaTrackerFrameDesc) (detections : List MaTrackerDetection) :
    AgeInv B maxAge (B.turn frameDesc detections p)
      (missedAfter B (some (B.turn frameDesc detections p)) missed)
      (staleAfter maxAge (missedAfter B (some (B.turn frameDesc detections p)) missed) stale) := by
  have hborn : B.born p.1 ≤ B.born (B.turn frameDesc detections p).1 := hB.born p.1 frameDesc detections p.2
  have hseen : ∀ k n, missedAfter B (some (B.turn frameDesc detections p)) missed k = some n →
      k < B.born (B.turn frameDesc detections p).1 := by
    intro k n hn
    by_cases hmatched : B.live (B.turn frameDesc detections p).1 k = some 0
    · exact hB.live_born _ k 0 hmatched
    · rw [missedAfter_unmatched hmatched] at hn
      obtain ⟨m, hm, -⟩ := Option.map_eq_some_iff.mp hn
      exact lt_of_lt_of_le (h.seen k m hm) hborn
  refine ⟨(hB.maxAge p.1 frameDesc detections p.2).trans h.limit, fun k age hlive => ?_, fun k age hlive => ?_, hseen,
    fun k hk => ?_, fun k age n hlive hk => ?_, fun node hnode => ?_⟩
  · obtain ⟨-, -, n, hn, -⟩ := h.turn_live hB hmax hintime frameDesc detections hlive
    exact ⟨n, hn⟩
  · exact (h.turn_live hB hmax hintime frameDesc detections hlive).2.1
  · rcases staleAfter_cases hk with hstale | ⟨n, hn, -⟩
    · exact lt_of_lt_of_le (h.used k hstale) hborn
    · exact hseen k n hn
  · cases (h.turn_fresh hB hmax hintime frameDesc detections k age hlive).symm.trans hk
  · obtain ⟨hmem, hstate⟩ := List.mem_filter.mp hnode
    refine hB.listed p.1 frameDesc detections p.2 h.listed node hmem ?_
    cases hnormal : node.state with
    | normal => rfl
    | delete => simp [hnormal] at hstate

lemma mem_of_mem_givenSerials {iou : TrackIou K} {std : CandidateSort K} {frameDesc : MaTrackerFrameDesc}
    {trackList : List TrackNode} {detections : List MaTrackerDetection} {k : Nat}
    (h : k ∈ givenSerials iou std frameDesc trackList detections) : ∃ node ∈ trackList, node.serial = k := by
  obtain ⟨c, hc, hserial⟩ := List.mem_map.mp h
  obtain ⟨detection, track, hcandidate⟩ :=
    (stableMatching_chosenCandidates iou frameDesc trackList detections std).suitable c hc
  refine ⟨track, List.mem_of_getElem? hcandidate.trackAt, ?_⟩
  rw [← hserial, getD_track hcandidate.trackAt]

/-- The ids that are given come from tracks that are held, so from none that is stale. -/
lemma AgeInv.noStaleId (h : AgeInv B maxAge p missed stale)
    (hfresh : ∀ k age, B.live p.1 k = some age → stale k = false) {iou : TrackIou K} {std : CandidateSort K}
    {frameDesc : MaTrackerFrameDesc} {detections : List MaTrackerDetection} {k : Nat}
    (hk : k ∈ givenSerials iou std frameDesc p.2 detections) : stale k = false := by
  obtain ⟨node, hnode, rfl⟩ := mem_of_mem_givenSerials hk
  obtain ⟨age, hlive⟩ := Option.isSome_iff_exists.mp (h.listed node hnode)
  exact hfresh _ age hlive

/-- What the condition says of the tracker that the frame is tracked with. -/
lemma AgeInv.inTime {s : TrackedFrames β} {cfg : TrackerConfig} {a : InferredFrame} {fresh : β × List TrackNode}
    (h : AgeInv B (resolveInt cfg.maxAge kDefaultMaxAge) (s.step.native.getD fresh) s.missed s.stale)
    (hdead : ∀ k, B.live fresh.1 k = none) (hobjects : a.objects ≠ []) (hintime : s.AgedInTime B cfg a) (k age n : Nat)
    (hlive : B.live (s.step.native.getD fresh).1 k = some age) (hn : s.missed k = some n) :
    (n : Int) < resolveInt cfg.maxAge kDefaultMaxAge := by
  have hyoung := h.young k age hlive
  cases hnative : s.step.native with
  | none =>
    rw [hnative] at hlive
    cases (hdead k).symm.trans hlive
  | some p =>
    rw [hnative] at hlive
    rcases hintime hobjects p hnative k age n hlive hn with rfl | hlt
    · exact hyoung
    · exact hlt

end

/-! ## The runs whose tracks age in time -/

section
variable {β K : Type} [Field K] [LinearOrder K] {B : ByteTracker β} {iou : TrackIou K} {std : CandidateSort K}
  {same : SameProtoMessage} {cfg : TrackerConfig} {width height : Int}

lemma resolveInt_pos (value : Int) : 0 < resolveInt value kDefaultMaxAge := by
  unfold resolveInt
  split
  · assumption
  · decide

structure TrackingInv (B : ByteTracker β) (cfg : TrackerConfig) (width height : Int) (s : TrackedFrames β) : Prop where
  fits : StepFits cfg width height s.step
  ages : AgeInv B (resolveInt cfg.maxAge kDefaultMaxAge) (s.step.native.getD (B.fresh cfg width height)) s.missed s.stale
  noStaleId : s.NoStaleId

lemma trackingInv_init (hB : B.Laws) : TrackingInv B cfg width height {} where
  fits := ⟨fun h => absurd h Bool.false_ne_true, fun t h => by cases h⟩
  ages := ageInv_fresh hB cfg width height
  noStaleId k hk := absurd hk List.not_mem_nil

lemma TrackingInv.next (hB : B.Laws) (hsame : same.tracker cfg cfg = true) {s s' : TrackedFrames β}
    (h : TrackingInv B cfg width height s) {a : InferredFrame} (hintime : s.AgedInTime B cfg a)
    (hnext : (trackedSystem B iou std same cfg width height).next s a = some s') :
    TrackingInv B cfg width height s' := by
  obtain ⟨⟨hcfg, rfl, rfl⟩, hs'⟩ := Option.ite_none_right_eq_some.mp hnext
  cases hs'
  by_cases hobjects : a.objects = []
  · rw [run_empty _ _ _ _ _ hobjects, TrackedFrames.after, if_pos hobjects]
    exact ⟨h.fits, h.ages.skip, fun k hk => absurd hk List.not_mem_nil⟩
  · obtain ⟨hfits, hturns⟩ := run_turns B iou std hsame h.fits hcfg hobjects
    rw [TrackedFrames.after, if_neg hobjects]
    rcases hturns with ⟨hbefore, hafter⟩ | hafter
    · have hages := h.ages
      rw [hbefore] at hages
      refine ⟨hfits, ?_, ?_⟩
      · rw [hafter]
        exact hages.skip
      · rw [hafter]
        exact fun k hk => absurd hk List.not_mem_nil
    · have hintime' := h.ages.inTime (hB.create_live _) hobjects hintime
      have hages := h.ages.turn hB (resolveInt_pos _) hintime' ⟨a.frame.width, a.frame.height, a.frame.timestampMs⟩
        (a.objects.map toDetection)
      have hfresh := h.ages.turn_fresh hB (resolveInt_pos _) hintime'
        ⟨a.frame.width, a.frame.height, a.frame.timestampMs⟩ (a.objects.map toDetection)
      refine ⟨hfits, ?_, ?_⟩
      · rw [hafter]
        exact hages
      · rw [hafter]
        exact fun k hk => hages.noStaleId hfresh hk

/-- In a run where each frame with objects finds only tracks that have aged in time, no detection gets the id of a stale
track. -/
theorem noStaleId_of_agedInTime (hB : B.Laws) (hsame : same.tracker cfg cfg = true) {s : TrackedFrames β}
    (h : (trackedSystem B iou std same cfg width height).ReachableWhen (TrackedFrames.AgedInTime B cfg) s) :
    s.NoStaleId :=
  (h.invariant (I := TrackingInv B cfg width height) (trackingInv_init hB)
    fun _ _ _ hinv hintime hnext => hinv.next hB hsame hintime hnext).noStaleId

end

/-- A tracker that keeps one track, which any detection matches; `track` has its age and its number of detections. -/
structure OneTrack where
  args : ByteTrackerArgs
  track : Option (Nat × Nat) := none
  ended : Nat := 0

namespace OneTrack

def confirmed (b : OneTrack) (hits : Nat) : Bool := decide (1 < hits) && decide (b.args.nInit ≤ hits)

def process (b : OneTrack) (detections : List MaTrackerDetection) (trackList : List TrackNode) :
    OneTrack × List TrackNode :=
  match b.track, detections with
  | none, [] => (b, [])
  | none, _ :: _ => ({ b with track := some (0, 1) }, [])
  | some (_, hits), detection :: _ =>
    ({ b with track := some (0, hits + 1) },
      if b.confirmed (hits + 1) then [{ type := detection.classId, id := 1, serial := b.ended }] else [])
  | some (age, hits), [] =>
    if b.confirmed hits && decide (((age + 1 : Nat) : Int) < b.args.maxAge) then
      ({ b with track := some (age + 1, hits) }, if age < 3 then trackList else [])
    else ({ b with track := none, ended := b.ended + 1 }, [])

def live (b : OneTrack) (k : Nat) : Option Nat := if k = b.ended then b.track.map (·.1) else none

end OneTrack

def oneTracker : ByteTracker OneTrack where
  create args := { args := args }
  process b _ detections trackList := b.process detections trackList
  live := OneTrack.live
  maxAge b := b.args.maxAge
  born b := b.ended + b.track.isSome.toNat

lemma oneTracker_laws : oneTracker.Laws where
  create_live args k := by simp [oneTracker, OneTrack.live]
  create_born args := rfl
  create_maxAge args := rfl
  maxAge b frameDesc detections trackList := by
    simp only [oneTracker, OneTrack.process]
    split <;> try rfl
    split <;> rfl
  aged b frameDesc detections trackList k age h := by
    simp only [oneTracker, OneTrack.process, OneTrack.live] at h ⊢
    split <;> grind
  created b frameDesc detections trackList k h := by
    simp only [oneTracker, OneTrack.process, OneTrack.live] at h ⊢
    split <;> grind
  live_born b k age h := by
    simp only [oneTracker, OneTrack.live] at h ⊢
    split at h
    · cases htrack : b.track with
      | none => simp [htrack] at h
      | some t => simp; omega
    · cases h
  born b frameDesc detections trackList := by
    simp only [oneTracker, OneTrack.process]
    split <;> grind
  listed b frameDesc detections trackList hlisted node hnode hnormal := by
    simp only [oneTracker, OneTrack.process, OneTrack.live] at hlisted hnode ⊢
    split at hnode <;> grind

/-- The candidates by insertion. -/
def insertionCandidateSort : CandidateSort ℚ where
  sort := List.insertionSort fun lhs rhs => rhs.iou ≤ lhs.iou
  perm := List.perm_insertionSort _
  sorted candidates := by
    have : Std.Total fun lhs rhs : TrackerMatchCandidate ℚ => rhs.iou ≤ lhs.iou := ⟨fun lhs rhs => le_total _ _⟩
    have : IsTrans (TrackerMatchCandidate ℚ) fun lhs rhs => rhs.iou ≤ lhs.iou := ⟨fun _ _ _ h h' => le_trans h' h⟩
    exact List.pairwise_insertionSort _ candidates

def shortAge : TrackerConfig where
  enabled := true
  maxAge := 1
  nInit := 2

def longerAge : TrackerConfig := { shortAge with maxAge := 2 }

/-- A frame with one object, or with none. -/
def stillFrame (cfg : TrackerConfig) (detected : Bool) : InferredFrame where
  frame := { width := 100, height := 100 }
  cfg := { tracker := some cfg }
  rawResults :=
    if detected then
      [{ box := { cx := ⟨0x3F000000⟩, cy := ⟨0x3F000000⟩, width := ⟨0x3E800000⟩, height := ⟨0x3E800000⟩ }
         prop := ⟨0x3F400000⟩ }]
    else []

/-- The tracker of one track, where each detection overlaps it wholly. -/
abbrev oneTrackSystem (cfg : TrackerConfig) : Machine (TrackedFrames OneTrack) InferredFrame :=
  trackedSystem oneTracker (fun _ _ _ => (1 : ℚ)) insertionCandidateSort structuralEquality cfg 100 100

/-- Three frames with an object and one without: the id of the track is given to the last one. -/
theorem noStaleId_of_agedInTime_oneEmptyFrame : ∃ s,
    (oneTrackSystem longerAge).ReachableWhen (TrackedFrames.AgedInTime oneTracker longerAge) s ∧
      s.given = [0] ∧ s.NoStaleId := by
  obtain ⟨s, hs, hgiven⟩ := Machine.reachableWhen_of_exec_any (oneTrackSystem longerAge)
    (fun s _ => s.step.native.all fun p => (s.missed p.1.ended).all fun n => decide (n < 2))
    [stillFrame longerAge true, stillFrame longerAge true, stillFrame longerAge false, stillFrame longerAge true]
    (fun s => decide (s.given = [0])) (by decide +kernel)
  have hintime : (oneTrackSystem longerAge).ReachableWhen (TrackedFrames.AgedInTime oneTracker longerAge) s := by
    refine hs.mono fun t a ht _ p hp k age n hlive hn => .inr ?_
    obtain ⟨rfl, -⟩ := Option.ite_none_right_eq_some.mp hlive
    rw [hp, Option.all_some, hn] at ht
    exact Int.ofNat_lt.mpr (of_decide_eq_true ht)
  exact ⟨s, hintime, of_decide_eq_true hgiven, noStaleId_of_agedInTime oneTracker_laws rfl hintime⟩

/-- After two frames without objects the track is stale, but it has not aged, and the next object gets its id. -/
theorem not_noStaleId_twoEmptyFrames :
    oneTracker.Laws ∧ ∃ s, (oneTrackSystem shortAge).Reachable s ∧ ¬s.NoStaleId := by
  refine ⟨oneTracker_laws, ?_⟩
  obtain ⟨s, hs, hp⟩ := Machine.reachable_of_exec_any (oneTrackSystem shortAge)
    [stillFrame shortAge true, stillFrame shortAge true, stillFrame shortAge false, stillFrame shortAge false,
      stillFrame shortAge true]
    (fun s => s.given.any s.stale) (by decide +kernel)
  obtain ⟨k, hk, hstale⟩ := List.any_eq_true.mp hp
  exact ⟨s, hs, fun h => by cases hstale.symm.trans (h k hk)⟩

end MediaAgent
