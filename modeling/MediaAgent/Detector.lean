import MediaAgent.ConfigFilter

/-!
# The detector

`detector/AlgoDetector.cpp` with the steps of `AlgoDetectorWorkflow.cpp`, and `selectAlarmConfig`. The
model library and the trackers are parameters. The readings of the clock that one call of `detect`
makes are given with the call; the schedules are compared with one reading of the system clock.
-/

namespace MediaAgent
open Std TreeMaps

/-- `x > 0.0f` -/
def F32.positive (x : F32) : Bool := decide (0 < x.bits) && decide (x.bits ≤ 0x7F800000)

/-- `object_result`; its `rotated_rect` has the fields of a `Box`. -/
structure ObjectResult where
  box : Box := {}
  prop : F32 := ⟨0⟩
  classId : Int := 0
  className : Bytes := []
  deriving DecidableEq, Repr

/-- The model library. `init` tells whether a model can be loaded from a path; `infer` gets the model
that has been loaded, the image and the confidence threshold of the filters. -/
structure EdgeInfer where
  init : Bytes → Bool
  infer : Bytes → DmaImage → F32 → Option (List ObjectResult)

structure TrackFrame where
  streamId : Bytes := []
  frameId : Int := -1
  timestampMs : Int := 0
  width : Int := 0
  height : Int := 0
  deriving DecidableEq, Repr

/-- `ITracker` for trackers with states in `τ`. -/
structure ITracker (τ : Type) where
  create : TrackerConfig → τ
  init : τ → Bool × τ
  track : τ → TrackFrame → List DetectionObject → TrackerConfig → List DetectionObject × τ

structure DetectClock where
  systemNowMs : Int
  inferStartMonoMs : Int
  inferDoneMonoMs : Int
  dedupNowMonoMs : Int
  deriving DecidableEq, Repr

def kDetectionTtlMs : Int := 5000

def kDefaultAlarmDedupIntervalMs : Int := 5000

/-! ## The preprocess steps -/

structure AlgoDetectContext where
  activeAlgorithms : List AlgorithmConfig := []
  confidenceThreshold : F32 := ⟨0⟩
  alarmConfig : AlgorithmConfig := {}
  shouldInfer : Bool := false
  hasAlarmConfig : Bool := false
  deriving DecidableEq, Repr

def isAlgorithmActiveNow (systemNowMs : Int) (cfg : AlgorithmConfig) : Bool :=
  if cfg.startDate ≤ 0 ∧ cfg.endDate ≤ 0 then true
  else
    let nowS := systemNowMs.tdiv 1000
    if 0 < cfg.startDate ∧ nowS < cfg.startDate then false
    else if 0 < cfg.endDate ∧ cfg.endDate < nowS then false
    else true

def activeAlgorithmPreprocessStep (systemNowMs : Int) (cfg : StreamConfig) (context : AlgoDetectContext) :
    Bool × AlgoDetectContext :=
  let context := { context with activeAlgorithms := cfg.algorithms.filter (isAlgorithmActiveNow systemNowMs) }
  match context.activeAlgorithms with
  | [] => (false, { context with shouldInfer := false })
  | front :: _ => (true, { context with alarmConfig := front, hasAlarmConfig := true, shouldInfer := true })

def inferFilterPreprocessStep (context : AlgoDetectContext) : Bool × AlgoDetectContext :=
  if !context.hasAlarmConfig then (false, { context with shouldInfer := false })
  else (true, { context with confidenceThreshold := context.alarmConfig.threshold })

def runPreprocessSteps (systemNowMs : Int) (cfg : StreamConfig) : Bool × AlgoDetectContext :=
  let r := activeAlgorithmPreprocessStep systemNowMs cfg {}
  if !r.1 then r else inferFilterPreprocessStep r.2

/-! ## The postprocess steps -/

def hasDetectionTarget (target : DetectionObject) : Bool :=
  target.confidence.positive && target.bbox.width.positive && target.bbox.height.positive

def buildDetectionObject (item : ObjectResult) : DetectionObject where
  objectId := 0
  classId := UInt32.ofInt item.classId
  className := item.className
  confidence := item.prop
  bbox := item.box

def formatInferResultPostprocessStep (frame : FrameBundle) (context : AlgoDetectContext)
    (rawResults : List ObjectResult) (output : FrameInferenceResult) : FrameInferenceResult :=
  { output with
    streamId := frame.streamId
    frameId := frame.frameId
    pts := frame.pts
    algorithmId := if context.hasAlarmConfig then context.alarmConfig.algorithmId else []
    objects := (rawResults.map buildDetectionObject).filter hasDetectionTarget
    alarmObjects := [] }

/-- The state of a `TrackingPostprocessStep`. -/
structure TrackingPostprocessStep (τ : Type) where
  activeTrackerConfig : TrackerConfig := {}
  trackerInitializedForConfig : Bool := false
  tracker : Option τ := none

/-- `TrackerFactory::create` -/
def createTracker {τ : Type} (trackers : ITracker τ) (cfg : TrackerConfig) : Option τ :=
  if !cfg.enabled then none
  else if cfg.trackerType = [] ∨ cfg.trackerType = "bytetrack".toUTF8.toList then some (trackers.create cfg)
  else none

namespace TrackingPostprocessStep

variable {τ : Type}

def ensureTrackerLocked (trackers : ITracker τ) (same : SameProtoMessage) (step : TrackingPostprocessStep τ)
    (cfg : TrackerConfig) : TrackingPostprocessStep τ :=
  if step.trackerInitializedForConfig && same.tracker step.activeTrackerConfig cfg then step
  else
    let step := { step with activeTrackerConfig := cfg, trackerInitializedForConfig := true }
    match createTracker trackers cfg with
    | none => { step with tracker := none }
    | some tracker =>
      let r := trackers.init tracker
      if r.1 then { step with tracker := some r.2 } else { step with tracker := none }

def run (trackers : ITracker τ) (same : SameProtoMessage) (step : TrackingPostprocessStep τ)
    (frame : FrameBundle) (cfg : StreamConfig) (output : FrameInferenceResult) :
    FrameInferenceResult × TrackingPostprocessStep τ :=
  if output.objects = [] then (output, step)
  else
    match cfg.tracker with
    | none => (output, { activeTrackerConfig := {}, trackerInitializedForConfig := false, tracker := none })
    | some trackerCfg =>
      if !trackerCfg.enabled then
        (output, { activeTrackerConfig := {}, trackerInitializedForConfig := false, tracker := none })
      else
        let step := step.ensureTrackerLocked trackers same trackerCfg
        match step.tracker with
        | none => (output, step)
        | some tracker =>
          let trackFrame : TrackFrame :=
            { streamId := frame.streamId
              frameId := frame.frameId
              timestampMs := frame.timestampMs
              width := frame.width
              height := frame.height }
          let r := trackers.track tracker trackFrame output.objects trackerCfg
          ({ output with objects := r.1 }, { step with tracker := some r.2 })

end TrackingPostprocessStep

def getAlarmDedupWindowMs (cfg : StreamConfig) : Int :=
  if cfg.alarmDedupIntervalS ≤ 0 then kDefaultAlarmDedupIntervalMs else cfg.alarmDedupIntervalS * 1000

/-- The state of a `DeduplicateAlarmPostprocessStep`. -/
structure DeduplicateAlarmPostprocessStep where
  lastAlarmByObjectIdMonoMs : TreeMap UInt32 Int := ∅
  lastAlarmByClassIdMonoMs : TreeMap UInt32 Int := ∅

namespace DeduplicateAlarmPostprocessStep

def pruneExpiredEntries (step : DeduplicateAlarmPostprocessStep) (nowMonoMs dedupWindowMs : Int) :
    DeduplicateAlarmPostprocessStep :=
  let expiredBefore := nowMonoMs - dedupWindowMs
  { lastAlarmByObjectIdMonoMs := step.lastAlarmByObjectIdMonoMs.filter fun _ t => !decide (t ≤ expiredBefore)
    lastAlarmByClassIdMonoMs := step.lastAlarmByClassIdMonoMs.filter fun _ t => !decide (t ≤ expiredBefore) }

def shouldKeepObject (step : DeduplicateAlarmPostprocessStep) (cfg : StreamConfig) (object : DetectionObject)
    (nowMonoMs dedupWindowMs : Int) : Bool × DeduplicateAlarmPostprocessStep :=
  let trackerEnabled := match cfg.tracker with
    | none => false
    | some tracker => tracker.enabled
  let recent : Option Int → Bool
    | none => false
    | some t => decide (nowMonoMs - t < dedupWindowMs)
  if trackerEnabled && decide (0 < object.objectId) then
    if recent step.lastAlarmByObjectIdMonoMs[object.objectId]? then (false, step)
    else (true, { step with
      lastAlarmByObjectIdMonoMs := step.lastAlarmByObjectIdMonoMs.insert object.objectId nowMonoMs })
  else if recent step.lastAlarmByClassIdMonoMs[object.classId]? then (false, step)
  else (true, { step with
    lastAlarmByClassIdMonoMs := step.lastAlarmByClassIdMonoMs.insert object.classId nowMonoMs })

/-- The loop over the objects. -/
def filterObjects (cfg : StreamConfig) (nowMonoMs dedupWindowMs : Int) :
    DeduplicateAlarmPostprocessStep → List DetectionObject →
      List DetectionObject × DeduplicateAlarmPostprocessStep
  | step, [] => ([], step)
  | step, object :: objects =>
    let r := step.shouldKeepObject cfg object nowMonoMs dedupWindowMs
    let rest := filterObjects cfg nowMonoMs dedupWindowMs r.2 objects
    (if r.1 then object :: rest.1 else rest.1, rest.2)

def run (step : DeduplicateAlarmPostprocessStep) (cfg : StreamConfig) (steadyNowMs : Int)
    (output : FrameInferenceResult) : FrameInferenceResult × DeduplicateAlarmPostprocessStep :=
  if output.objects = [] then ({ output with alarmObjects := [] }, step)
  else
    let nowMonoMs := if 0 < output.inferDoneMonoMs then output.inferDoneMonoMs else steadyNowMs
    let dedupWindowMs := getAlarmDedupWindowMs cfg
    if dedupWindowMs ≤ 0 then ({ output with alarmObjects := output.objects }, step)
    else
      let r := filterObjects cfg nowMonoMs dedupWindowMs (step.pruneExpiredEntries nowMonoMs dedupWindowMs)
        output.objects
      ({ output with alarmObjects := r.1 }, r.2)

end DeduplicateAlarmPostprocessStep

/-! ## The detector -/

/-- `infer` is the path of the model that the detector's `EdgeInfer` has loaded. -/
structure AlgoDetector (τ : Type) where
  cfg : StreamConfig
  inited : Bool := false
  infer : Option Bytes := none
  tracking : TrackingPostprocessStep τ := {}
  deduplicate : DeduplicateAlarmPostprocessStep := {}

namespace AlgoDetector

variable {τ : Type}

def init (edge : EdgeInfer) (d : AlgoDetector τ) : Bool × AlgoDetector τ :=
  match (d.cfg.algorithms.map (·.modelPath)).filter (· ≠ []) with
  | [] => (false, d)
  | front :: _ =>
    if edge.init front then (true, { d with infer := some front, inited := true })
    else (false, { d with infer := none })

def runPostprocessSteps (trackers : ITracker τ) (same : SameProtoMessage) (d : AlgoDetector τ)
    (frame : FrameBundle) (cfg : StreamConfig) (context : AlgoDetectContext) (rawResults : List ObjectResult)
    (steadyNowMs : Int) (output : FrameInferenceResult) : FrameInferenceResult × AlgoDetector τ :=
  let output := formatInferResultPostprocessStep frame context rawResults output
  let tracked := d.tracking.run trackers same frame cfg output
  let deduplicated := d.deduplicate.run cfg steadyNowMs tracked.1
  (deduplicated.1, { d with tracking := tracked.2, deduplicate := deduplicated.2 })

def detect (edge : EdgeInfer) (trackers : ITracker τ) (same : SameProtoMessage) (d : AlgoDetector τ)
    (frame : FrameBundle) (cfg : StreamConfig) (clock : DetectClock) : FrameInferenceResult × AlgoDetector τ :=
  match d.inited, d.infer with
  | true, some model =>
    match frame.decodedImage with
    | none => ({}, d)
    | some image =>
      if image.fd < 0 then ({}, d)
      else
        let r := runPreprocessSteps clock.systemNowMs cfg
        if !r.1 || !r.2.shouldInfer then ({}, d)
        else
          match edge.infer model image r.2.confidenceThreshold with
          | none => ({ inferStartMonoMs := clock.inferStartMonoMs }, d)
          | some rawResults =>
            d.runPostprocessSteps trackers same frame cfg r.2 rawResults clock.dedupNowMonoMs
              { inferStartMonoMs := clock.inferStartMonoMs
                inferDoneMonoMs := clock.inferDoneMonoMs
                expireAtMonoMs := clock.inferDoneMonoMs + kDetectionTtlMs }
  | _, _ => ({}, d)

end AlgoDetector

/-- The algorithm that an alarm is reported for. -/
def selectAlarmConfig (streamConfig : StreamConfig) (algorithmId : Bytes) : AlgorithmConfig :=
  let matching :=
    if algorithmId ≠ [] then streamConfig.algorithms.find? fun a => a.algorithmId == algorithmId else none
  match matching with
  | some algorithm => algorithm
  | none => (streamConfig.algorithms.head?).getD {}

/-! ## What a detection returns -/

/-- The context of a detection that goes on: the first active algorithm, with its threshold. -/
lemma runPreprocessSteps_eq_true {systemNowMs : Int} {cfg : StreamConfig} {context : AlgoDetectContext}
    (h : runPreprocessSteps systemNowMs cfg = (true, context)) :
    context.shouldInfer = true ∧ context.hasAlarmConfig = true ∧
      context.confidenceThreshold = context.alarmConfig.threshold ∧
      ∃ rest, cfg.algorithms.filter (isAlgorithmActiveNow systemNowMs) = context.alarmConfig :: rest := by
  unfold runPreprocessSteps activeAlgorithmPreprocessStep at h
  dsimp only at h
  split at h
  · simp at h
  · rename_i front rest hactive
    simp only [inferFilterPreprocessStep, Bool.not_true, Bool.false_eq_true, if_false, Prod.mk.injEq,
      true_and] at h
    subst context
    exact ⟨rfl, rfl, rfl, rest, hactive⟩

/-- Two results for the same frame and algorithm. -/
structure SameOrigin (r r' : FrameInferenceResult) : Prop where
  streamId : r'.streamId = r.streamId
  frameId : r'.frameId = r.frameId
  pts : r'.pts = r.pts
  algorithmId : r'.algorithmId = r.algorithmId

lemma SameOrigin.refl (r : FrameInferenceResult) : SameOrigin r r := ⟨rfl, rfl, rfl, rfl⟩

lemma SameOrigin.trans {r r' r'' : FrameInferenceResult} (h : SameOrigin r r') (h' : SameOrigin r' r'') :
    SameOrigin r r'' :=
  ⟨h'.streamId.trans h.streamId, h'.frameId.trans h.frameId, h'.pts.trans h.pts,
    h'.algorithmId.trans h.algorithmId⟩

lemma sameOrigin_tracking {τ : Type} (trackers : ITracker τ) (same : SameProtoMessage)
    (step : TrackingPostprocessStep τ) (frame : FrameBundle) (cfg : StreamConfig) (output : FrameInferenceResult) :
    SameOrigin output (step.run trackers same frame cfg output).1 := by
  unfold TrackingPostprocessStep.run
  split
  · exact .refl output
  · split
    · exact .refl output
    · split
      · exact .refl output
      · dsimp only
        split
        · exact .refl output
        · exact ⟨rfl, rfl, rfl, rfl⟩

lemma sameOrigin_deduplicate (step : DeduplicateAlarmPostprocessStep) (cfg : StreamConfig) (steadyNowMs : Int)
    (output : FrameInferenceResult) : SameOrigin output (step.run cfg steadyNowMs output).1 := by
  unfold DeduplicateAlarmPostprocessStep.run
  split
  · exact ⟨rfl, rfl, rfl, rfl⟩
  · dsimp only
    split <;> exact ⟨rfl, rfl, rfl, rfl⟩

namespace AlgoDetector

variable {τ : Type} (edge : EdgeInfer) (trackers : ITracker τ) (same : SameProtoMessage) (d : AlgoDetector τ)
  (frame : FrameBundle) (cfg : StreamConfig) (clock : DetectClock)

/-- The call completes an inference, with the given context and raw results. -/
structure Completes (context : AlgoDetectContext) (rawResults : List ObjectResult) : Prop where
  inited : d.inited = true
  image : ∃ model image, d.infer = some model ∧ frame.decodedImage = some image ∧ 0 ≤ image.fd ∧
    edge.infer model image context.confidenceThreshold = some rawResults
  context : runPreprocessSteps clock.systemNowMs cfg = (true, context)

/-- The steps after `formatInferResultPostprocessStep` keep whose result it is. -/
lemma sameOrigin_runPostprocessSteps (context : AlgoDetectContext) (rawResults : List ObjectResult)
    (steadyNowMs : Int) (output : FrameInferenceResult) :
    SameOrigin (formatInferResultPostprocessStep frame context rawResults output)
      (d.runPostprocessSteps trackers same frame cfg context rawResults steadyNowMs output).1 :=
  (sameOrigin_tracking trackers same d.tracking frame cfg _).trans (sameOrigin_deduplicate d.deduplicate cfg _ _)

variable {edge d frame cfg clock}

/-- A completed inference is reported for the frame and the algorithm of the context. -/
lemma detect_of_completes {context : AlgoDetectContext} {rawResults : List ObjectResult}
    (h : d.Completes edge frame cfg clock context rawResults) :
    (d.detect edge trackers same frame cfg clock).1.frameId = frame.frameId ∧
      (d.detect edge trackers same frame cfg clock).1.algorithmId = context.alarmConfig.algorithmId := by
  obtain ⟨model, image, hmodel, himage, hfd, hresults⟩ := h.image
  obtain ⟨hinfer, hconfig, -⟩ := runPreprocessSteps_eq_true h.context
  have hdetect : d.detect edge trackers same frame cfg clock =
      d.runPostprocessSteps trackers same frame cfg context rawResults clock.dedupNowMonoMs
        { inferStartMonoMs := clock.inferStartMonoMs
          inferDoneMonoMs := clock.inferDoneMonoMs
          expireAtMonoMs := clock.inferDoneMonoMs + kDetectionTtlMs } := by
    simp only [detect, h.inited, hmodel, himage, if_neg (Int.not_lt.mpr hfd), h.context, hinfer, Bool.not_true,
      Bool.or_self, Bool.false_eq_true, if_false, hresults]
  have horigin := d.sameOrigin_runPostprocessSteps trackers same frame cfg context rawResults
    clock.dedupNowMonoMs
    { inferStartMonoMs := clock.inferStartMonoMs
      inferDoneMonoMs := clock.inferDoneMonoMs
      expireAtMonoMs := clock.inferDoneMonoMs + kDetectionTtlMs }
  rw [hdetect, horigin.frameId, horigin.algorithmId]
  simp [formatInferResultPostprocessStep, hconfig]

/-- A call that does not complete an inference returns early, with no frame id. -/
lemma detect_of_not_completes (h : ∀ context rawResults, ¬d.Completes edge frame cfg clock context rawResults) :
    (d.detect edge trackers same frame cfg clock).1.frameId = -1 := by
  unfold detect
  split
  · rename_i model hinited hmodel
    split
    · rfl
    · rename_i image himage
      split
      · rfl
      · rename_i hfd
        dsimp only
        split
        · rfl
        · rename_i hcontext
          split
          · rfl
          · rename_i rawResults hresults
            simp only [Bool.or_eq_true, Bool.not_eq_true', not_or, Bool.not_eq_false] at hcontext
            exact absurd ⟨hinited, ⟨model, image, hmodel, himage, Int.not_lt.mp hfd, hresults⟩,
              Prod.ext hcontext.1 rfl⟩ (h _ rawResults)
  · rfl

end AlgoDetector

end MediaAgent
