import MediaAgent.StreamTypes

/-!
# Configuration messages

The protobuf messages of `media-agent.proto` and `types.proto` that configure streams. A
repeated field is a list, a message field that may be absent is an `Option`.
-/

namespace MediaAgent

structure Point2D where
  x : F32 := ⟨0⟩
  y : F32 := ⟨0⟩
  deriving DecidableEq, Repr

inductive RoiMode
  | unknown
  | include
  | exclude
  deriving DecidableEq, Repr

inductive RoiShape
  | rect (box : Box)
  | poly (points : List Point2D)
  deriving DecidableEq, Repr

structure RoiArea where
  enabled : Bool := false
  mode : RoiMode := .unknown
  shape : Option RoiShape := none
  deriving DecidableEq, Repr

structure AlgorithmConfig where
  algorithmId : Bytes := []
  modelPath : Bytes := []
  threshold : F32 := ⟨0⟩
  alarmLevel : Int := 0
  startDate : Int := 0
  endDate : Int := 0
  rois : List RoiArea := []
  deriving DecidableEq, Repr

structure TrackerConfig where
  enabled : Bool := false
  trackerType : Bytes := []
  minThresh : F32 := ⟨0⟩
  highThresh : F32 := ⟨0⟩
  maxIouDistance : F32 := ⟨0⟩
  highThreshPerson : F32 := ⟨0⟩
  highThreshMotorbike : F32 := ⟨0⟩
  maxAge : Int := 0
  nInit : Int := 0
  deriving DecidableEq, Repr

structure StreamConfig where
  enabled : Bool := false
  streamId : Bytes := []
  rtspUrl : Bytes := []
  newRtspUrl : Bytes := []
  reconnectIntervalS : Int := 0
  alarmSnapshotDir : Bytes := []
  alarmRecordDir : Bytes := []
  alarmRecordDurationS : Int := 0
  alarmDedupIntervalS : Int := 0
  algorithms : List AlgorithmConfig := []
  tracker : Option TrackerConfig := none
  deriving DecidableEq, Repr

structure AgentConfig where
  agentId : Bytes := []
  configId : Int := 0
  streams : List StreamConfig := []
  deriving DecidableEq, Repr

end MediaAgent
