import MediaAgent.ConfigTypes

/-!
# Merging configurations

`pipeline/ConfigFilter.cpp`: the views that decide what a change of configuration means, and the
merge of all agents' configurations into one for each stream. Log lines, and the source ids that
only they read, are left out. `MessageDifferencer::Equals` of protobuf is a parameter.
-/

namespace MediaAgent
open Std TreeMaps

/-- `isSameProtoMessage` at the two message types it is used for. -/
structure SameProtoMessage where
  algorithm : AlgorithmConfig → AlgorithmConfig → Bool
  tracker : TrackerConfig → TrackerConfig → Bool

def structuralEquality : SameProtoMessage := ⟨fun lhs rhs => lhs == rhs, fun lhs rhs => lhs == rhs⟩

structure TransportStreamConfigView where
  enabled : Bool
  streamId : Bytes
  rtspUrl : Bytes
  newRtspUrl : Bytes
  reconnectIntervalS : Int
  alarmSnapshotDir : Bytes
  alarmRecordDir : Bytes
  alarmRecordDurationS : Int
  deriving DecidableEq, Repr

structure DetectorConfigView where
  algorithms : List AlgorithmConfig

structure DetectorRuntimeConfigView where
  algorithms : List AlgorithmConfig
  alarmDedupIntervalS : Int
  hasTracker : Bool
  tracker : TrackerConfig

/-- The loop over the algorithms of two views. -/
def sameAlgorithms (same : SameProtoMessage) (lhs rhs : List AlgorithmConfig) : Bool :=
  lhs.length == rhs.length && (lhs.zip rhs).all fun a => same.algorithm a.1 a.2

def DetectorConfigView.same (same : SameProtoMessage) (lhs rhs : DetectorConfigView) : Bool :=
  sameAlgorithms same lhs.algorithms rhs.algorithms

def DetectorRuntimeConfigView.same (same : SameProtoMessage) (lhs rhs : DetectorRuntimeConfigView) : Bool :=
  if lhs.alarmDedupIntervalS ≠ rhs.alarmDedupIntervalS ∨ lhs.hasTracker ≠ rhs.hasTracker then false
  else if !sameAlgorithms same lhs.algorithms rhs.algorithms then false
  else if !lhs.hasTracker then true
  else same.tracker lhs.tracker rhs.tracker

def makeTransportStreamConfigView (config : StreamConfig) : TransportStreamConfigView where
  enabled := config.enabled
  streamId := config.streamId
  rtspUrl := config.rtspUrl
  newRtspUrl := config.newRtspUrl
  reconnectIntervalS := config.reconnectIntervalS
  alarmSnapshotDir := config.alarmSnapshotDir
  alarmRecordDir := config.alarmRecordDir
  alarmRecordDurationS := config.alarmRecordDurationS

def makeDetectorConfigView (config : StreamConfig) : DetectorConfigView := ⟨config.algorithms⟩

def makeDetectorRuntimeConfigView (config : StreamConfig) : DetectorRuntimeConfigView where
  algorithms := config.algorithms
  alarmDedupIntervalS := config.alarmDedupIntervalS
  hasTracker := config.tracker.isSome
  tracker := config.tracker.getD {}

def makeTransportStreamConfig (config : StreamConfig) : StreamConfig where
  enabled := config.enabled
  streamId := config.streamId
  rtspUrl := config.rtspUrl
  newRtspUrl := config.newRtspUrl
  reconnectIntervalS := config.reconnectIntervalS
  alarmSnapshotDir := config.alarmSnapshotDir
  alarmRecordDir := config.alarmRecordDir
  alarmRecordDurationS := config.alarmRecordDurationS
  alarmDedupIntervalS := config.alarmDedupIntervalS

def isSameTransportStreamConfig (lhs rhs : StreamConfig) : Bool :=
  makeTransportStreamConfigView lhs == makeTransportStreamConfigView rhs

def isSameRuntimeStreamConfig (same : SameProtoMessage) (lhs rhs : StreamConfig) : Bool :=
  isSameTransportStreamConfig lhs rhs &&
    (makeDetectorRuntimeConfigView lhs).same same (makeDetectorRuntimeConfigView rhs)

def hasDetectorConfigChanged (same : SameProtoMessage) (lhs rhs : StreamConfig) : Bool :=
  !(makeDetectorConfigView lhs).same same (makeDetectorConfigView rhs)

/-! ## The merge -/

structure StreamMergeState where
  baseConfig : StreamConfig := {}
  algorithms : List AlgorithmConfig := []
  algorithmIndexById : TreeMap Bytes Nat := ∅
  trackerConfig : Option TrackerConfig := none
  trackerDisableConfig : Option TrackerConfig := none
  trackerExplicitlyDisabled : Bool := false

/-- One turn of the loop of `mergeAlgorithms`. -/
def mergeAlgorithm (state : StreamMergeState) (algorithm : AlgorithmConfig) : StreamMergeState :=
  if algorithm.algorithmId.isEmpty then
    { state with algorithms := state.algorithms ++ [algorithm] }
  else
    match state.algorithmIndexById[algorithm.algorithmId]? with
    | none =>
      { state with
        algorithmIndexById := state.algorithmIndexById.insert algorithm.algorithmId state.algorithms.length
        algorithms := state.algorithms ++ [algorithm] }
    | some index => { state with algorithms := state.algorithms.set index algorithm }

def mergeAlgorithms (streamConfig : StreamConfig) (state : StreamMergeState) : StreamMergeState :=
  streamConfig.algorithms.foldl mergeAlgorithm state

def mergeTracker (streamConfig : StreamConfig) (state : StreamMergeState) : StreamMergeState :=
  match streamConfig.tracker with
  | none => state
  | some tracker =>
    if !tracker.enabled then
      { state with
        trackerExplicitlyDisabled := true
        trackerDisableConfig := some tracker
        trackerConfig := none }
    else
      { state with
        trackerExplicitlyDisabled := false
        trackerDisableConfig := none
        trackerConfig := some tracker }

def finalizeMergedStreamConfig (state : StreamMergeState) : StreamConfig :=
  { state.baseConfig with
    algorithms := state.algorithms
    tracker :=
      if state.trackerExplicitlyDisabled then
        match state.trackerDisableConfig with
        | some tracker => some tracker
        | none => some { enabled := false }
      else state.trackerConfig }

abbrev MergeStates := TreeMap Bytes StreamMergeState

/-- One turn of the inner loop of `buildMergedStreams`. -/
def mergeStream (states : MergeStates) (stream : StreamConfig) : MergeStates :=
  if !stream.enabled then states
  else if stream.streamId.isEmpty then states
  else if stream.rtspUrl.isEmpty then states
  else
    let state := states.getD stream.streamId {}
    let state := { state with baseConfig := makeTransportStreamConfig stream }
    let state := mergeAlgorithms stream state
    states.insert stream.streamId (mergeTracker stream state)

def mergeAgentConfig (states : MergeStates) (agentConfig : AgentConfig) : MergeStates :=
  agentConfig.streams.foldl mergeStream states

/-- The map `merged_states` after the loops over all configurations. -/
def mergedStates (configs : TreeMap Int AgentConfig) : MergeStates :=
  configs.toList.foldl (fun states config => mergeAgentConfig states config.2) ∅

def buildMergedStreams (configs : TreeMap Int AgentConfig) : TreeMap Bytes StreamConfig :=
  (mergedStates configs).map fun _ state => finalizeMergedStreamConfig state

/-! ## Ids -/

lemma mergeAlgorithms_baseConfig (streamConfig : StreamConfig) (state : StreamMergeState) :
    (mergeAlgorithms streamConfig state).baseConfig = state.baseConfig := by
  unfold mergeAlgorithms
  induction streamConfig.algorithms generalizing state with
  | nil => rfl
  | cons algorithm algorithms ih =>
    rw [List.foldl_cons, ih]
    unfold mergeAlgorithm
    split
    · rfl
    · split <;> rfl

lemma mergeTracker_baseConfig (streamConfig : StreamConfig) (state : StreamMergeState) :
    (mergeTracker streamConfig state).baseConfig = state.baseConfig := by
  unfold mergeTracker
  split
  · rfl
  · split <;> rfl

/-- A merge state is kept under the stream id of its base configuration. -/
def MergeStates.Keyed (states : MergeStates) : Prop :=
  ∀ (id : Bytes) (state : StreamMergeState), states[id]? = some state → state.baseConfig.streamId = id

lemma MergeStates.Keyed.mergeStream {states : MergeStates} (h : states.Keyed) (stream : StreamConfig) :
    (mergeStream states stream).Keyed := by
  intro id state hstate
  unfold MediaAgent.mergeStream at hstate
  split at hstate
  · exact h id state hstate
  · split at hstate
    · exact h id state hstate
    · split at hstate
      · exact h id state hstate
      · dsimp only at hstate
        rw [lookup_insert] at hstate
        split at hstate
        · cases hstate
          rw [mergeTracker_baseConfig, mergeAlgorithms_baseConfig]
          assumption
        · exact h id state hstate

lemma MergeStates.Keyed.mergeAgentConfig {states : MergeStates} (h : states.Keyed) (agentConfig : AgentConfig) :
    (mergeAgentConfig states agentConfig).Keyed := by
  unfold MediaAgent.mergeAgentConfig
  induction agentConfig.streams generalizing states with
  | nil => exact h
  | cons stream streams ih => exact ih (h.mergeStream stream)

lemma keyed_mergedStates (configs : TreeMap Int AgentConfig) : (mergedStates configs).Keyed := by
  have hfold : ∀ (agents : List (Int × AgentConfig)) (states : MergeStates), states.Keyed →
      MergeStates.Keyed (agents.foldl (fun states config => mergeAgentConfig states config.2) states) := by
    intro agents
    induction agents with
    | nil => exact fun states hs => hs
    | cons agent agents ih => exact fun states hs => ih _ (hs.mergeAgentConfig agent.2)
  exact hfold _ _ fun id state h => by simp at h

/-- The merged configuration of a stream carries the id of the stream. -/
theorem streamId_of_buildMergedStreams {configs : TreeMap Int AgentConfig} {id : Bytes} {config : StreamConfig}
    (h : (buildMergedStreams configs)[id]? = some config) : config.streamId = id := by
  unfold buildMergedStreams at h
  rw [TreeMap.getElem?_map] at h
  obtain ⟨state, hstate, rfl⟩ := Option.map_eq_some_iff.mp h
  exact keyed_mergedStates configs id state hstate

end MediaAgent
