import MediaAgent.ConfigFilter
import MediaAgent.InferScheduler

/-!
# Applying configurations

`Pipeline::applyConfigBatch` with `buildStreamContext`, `updateStreamRuntime` and `stopStream`.
A `StreamContext` is known by the order in which it was built, and its buffer has the same
identity. `RTSPPuller::start` returns true, so every context that is built is returned. The
threads and outputs of a context, which these functions only start and close, are left out.
-/

namespace MediaAgent
open Std TreeMaps Transition

/-- The identity of a `shared_ptr<StreamContext>`. -/
abbrev ContextId := Nat

/-- The detector is there together with the configuration it was created from. -/
structure DetectorRuntimeEntry where
  config : StreamConfig
  detector : Option StreamConfig
  deriving DecidableEq, Repr

structure StreamContext where
  streamId : Bytes
  transportConfig : StreamConfig
  runtimeConfig : StreamConfig
  detectorRuntime : DetectorRuntimeEntry
  stopFlag : Bool := false
  deriving DecidableEq, Repr

/-- The contexts ever built, the map `streams_`, the scheduler, and the contexts that have been
passed to `stopStream`. -/
structure PipelineState where
  contexts : List StreamContext := []
  streams : TreeMap Bytes ContextId := ∅
  scheduler : RoundRobinInferScheduler := {}
  stopped : List ContextId := []

/-- `ready` tells whether a detector can be created and its `init` succeeds. -/
def makeDetector (ready : Bool) (config : StreamConfig) : Option StreamConfig :=
  if config.algorithms.length > 0 ∧ ready then some config else none

/-- The lists that `applyConfigBatch` collects while it holds the lock. -/
structure BatchPlan where
  contexts : List StreamContext
  streams : TreeMap Bytes ContextId
  streamsToStop : List ContextId := []
  streamsToStart : List StreamConfig := []
  runtimeUpdates : List (ContextId × StreamConfig) := []

/-- One turn of the loop over `streams_`. -/
def reviewStream (same : SameProtoMessage) (desiredStreams : TreeMap Bytes StreamConfig)
    (plan : BatchPlan) (entry : Bytes × ContextId) : BatchPlan :=
  match plan.contexts[entry.2]? with
  | none => plan
  | some stream =>
    match desiredStreams[entry.1]? with
    | none =>
      { plan with
        streamsToStop := plan.streamsToStop ++ [entry.2]
        streams := plan.streams.erase entry.1 }
    | some desired =>
      if !isSameTransportStreamConfig stream.transportConfig desired then
        { plan with
          streamsToStop := plan.streamsToStop ++ [entry.2]
          streams := plan.streams.erase entry.1
          streamsToStart := plan.streamsToStart ++ [desired] }
      else if !isSameRuntimeStreamConfig same stream.runtimeConfig desired then
        { plan with
          contexts := plan.contexts.set entry.2 { stream with runtimeConfig := desired }
          runtimeUpdates := plan.runtimeUpdates ++ [(entry.2, desired)] }
      else plan

/-- One turn of the loop over the desired streams. -/
def addMissingStream (plan : BatchPlan) (entry : Bytes × StreamConfig) : BatchPlan :=
  if plan.streams.contains entry.1 then plan
  else { plan with streamsToStart := plan.streamsToStart ++ [entry.2] }

namespace PipelineState

def stopStream (s : PipelineState) (id : ContextId) : PipelineState :=
  match s.contexts[id]? with
  | none => s
  | some stream =>
    { s with
      contexts := s.contexts.set id
        { stream with
          stopFlag := true
          detectorRuntime := { stream.detectorRuntime with detector := none } }
      scheduler := s.scheduler.removeStream stream.streamId
      stopped := s.stopped ++ [id] }

def buildStreamContext (s : PipelineState) (ready : ContextId → Bool) (config : StreamConfig) :
    ContextId × PipelineState :=
  let id := s.contexts.length
  let stream : StreamContext :=
    { streamId := config.streamId
      transportConfig := makeTransportStreamConfig config
      runtimeConfig := config
      detectorRuntime := { config := config, detector := makeDetector (ready id) config } }
  (id, { s with
    contexts := s.contexts ++ [stream]
    scheduler := s.scheduler.upsertStream stream.streamId stream.runtimeConfig (some id) })

def updateStreamRuntime (s : PipelineState) (same : SameProtoMessage) (ready : ContextId → Bool)
    (id : ContextId) (runtimeConfig : StreamConfig) : PipelineState :=
  match s.contexts[id]? with
  | none => s
  | some stream =>
    let detector :=
      if hasDetectorConfigChanged same stream.detectorRuntime.config runtimeConfig then
        makeDetector (ready id) runtimeConfig
      else stream.detectorRuntime.detector
    { s with
      contexts := s.contexts.set id
        { stream with detectorRuntime := { config := runtimeConfig, detector := detector } }
      scheduler := s.scheduler.upsertStream stream.streamId runtimeConfig (some id) }

/-- One turn of the loop over the streams to start. -/
def startStream (ready : ContextId → Bool) (s : PipelineState) (config : StreamConfig) : PipelineState :=
  let (id, s) := s.buildStreamContext ready config
  match s.contexts[id]? with
  | none => s
  | some stream =>
    if stream.stopFlag then s.stopStream id
    else { s with streams := s.streams.insert stream.streamId id }

def planBatch (s : PipelineState) (same : SameProtoMessage) (desiredStreams : TreeMap Bytes StreamConfig) :
    BatchPlan :=
  let plan := s.streams.toList.foldl (reviewStream same desiredStreams)
    { contexts := s.contexts, streams := s.streams }
  desiredStreams.toList.foldl addMissingStream plan

def applyConfigBatch (s : PipelineState) (same : SameProtoMessage) (ready : ContextId → Bool)
    (configs : TreeMap Int AgentConfig) : PipelineState :=
  let plan := s.planBatch same (buildMergedStreams configs)
  let s := { s with contexts := plan.contexts, streams := plan.streams }
  let s := plan.streamsToStop.foldl stopStream s
  let s := plan.runtimeUpdates.foldl (fun s update => s.updateStreamRuntime same ready update.1 update.2) s
  plan.streamsToStart.foldl (startStream ready) s

end PipelineState

/-- A call of `applyConfigBatch`, with the answers of the detectors it initialises. -/
structure ConfigBatch where
  configs : TreeMap Int AgentConfig
  ready : ContextId → Bool := fun _ => true

/-- The pipeline as its config thread drives it, with no stop requested by another thread. -/
def configSystem (same : SameProtoMessage) : Machine PipelineState ConfigBatch where
  init := {}
  next s batch := some (s.applyConfigBatch same batch.ready batch.configs)

/-- Every context that was built is the one registered for its stream or has been passed to
`stopStream`; so a stream has at most one that has not. -/
structure NoLeak (s : PipelineState) : Prop where
  accounted : ∀ (c : ContextId) (stream : StreamContext), s.contexts[c]? = some stream →
    s.streams[stream.streamId]? = some c ∨ c ∈ s.stopped
  unique : ∀ (c c' : ContextId) (stream stream' : StreamContext), s.contexts[c]? = some stream →
    s.contexts[c']? = some stream' → stream.streamId = stream'.streamId → c ∉ s.stopped →
    c' ∉ s.stopped → c = c'

/-- No registered stream is desired with another transport configuration. -/
def keepsTransports (s : PipelineState) (batch : ConfigBatch) : Bool :=
  s.streams.toList.all fun entry =>
    match s.contexts[entry.2]?, (buildMergedStreams batch.configs)[entry.1]? with
    | some stream, some desired => isSameTransportStreamConfig stream.transportConfig desired
    | _, _ => true

end MediaAgent
