import MediaAgent.Library.TreeMaps

/-!
# Packets, frames and inference results

The records of `pipeline/StreamTypes.h` and the protobuf messages they carry. A
`std::string` is its bytes, a shared pointer that may be null is an `Option`, and a `float`
is the bit pattern that is stored and compared: no arithmetic is done on it here.
-/

namespace MediaAgent

/-- The bytes of a `std::string` or of a `std::vector<uint8_t>`. -/
abbrev Bytes := List UInt8

/-- A `float`, as its 32 bits. -/
structure F32 where
  bits : UInt32
  deriving DecidableEq, Repr

inductive MediaType
  | video
  | audio
  deriving DecidableEq, Repr

inductive InferState
  | idle
  | selected
  | running
  | done
  | dropped
  deriving DecidableEq, Repr

/-- `AV_NOPTS_VALUE`, the timestamp of a packet or frame that has none. -/
def avNoptsValue : Int := -(2 ^ 63)

/-- The part of an `AVPacket` that this program reads or copies. -/
structure AVPacket where
  data : Bytes
  streamIndex : Int := -1
  pts : Int := avNoptsValue
  dts : Int := avNoptsValue
  duration : Int := 0
  flagKey : Bool := false
  deriving DecidableEq, Repr

structure EncodedPacket where
  mediaType : MediaType := .video
  packet : Option AVPacket := none
  streamIndex : Int := -1
  pts : Int := -1
  dts : Int := -1
  duration : Int := 0
  timestampMs : Int := 0
  isKeyframe : Bool := false
  frameId : Int := -1
  enqueueMonoMs : Int := 0
  deriving DecidableEq, Repr

/-- A decoded picture, without the pointers that keep its memory alive. -/
structure DmaImage where
  fd : Int := -1
  size : Nat := 0
  width : Int := 0
  height : Int := 0
  widthStride : Int := 0
  heightStride : Int := 0
  deriving DecidableEq, Repr

inductive MppCodingType
  | unused
  | avc
  | hevc
  | vp8
  | vp9
  deriving DecidableEq, Repr

structure FrameBundle where
  streamId : Bytes := []
  frameId : Int := -1
  pts : Int := -1
  dts : Int := -1
  duration : Int := 0
  timestampMs : Int := 0
  isKeyframe : Bool := false
  width : Int := 0
  height : Int := 0
  sourceFps : Int := 25
  sourceBitrate : Int := 0
  sourceCoding : MppCodingType := .unused
  sourceCodecId : Int := 0
  decodedImage : Option DmaImage := none
  inferState : InferState := .idle
  deriving DecidableEq, Repr

/-- The protobuf message `Box`. -/
structure Box where
  cx : F32 := ⟨0⟩
  cy : F32 := ⟨0⟩
  width : F32 := ⟨0⟩
  height : F32 := ⟨0⟩
  angle : F32 := ⟨0⟩
  deriving DecidableEq, Repr

/-- The protobuf message `DetectionObject`. -/
structure DetectionObject where
  objectId : UInt32 := 0
  classId : UInt32 := 0
  className : Bytes := []
  confidence : F32 := ⟨0⟩
  bbox : Box := {}
  deriving DecidableEq, Repr

structure FrameInferenceResult where
  streamId : Bytes := []
  frameId : Int := -1
  pts : Int := -1
  algorithmId : Bytes := []
  objects : List DetectionObject := []
  alarmObjects : List DetectionObject := []
  inferStartMonoMs : Int := 0
  inferDoneMonoMs : Int := 0
  expireAtMonoMs : Int := 0
  deriving DecidableEq, Repr

inductive SeiCodecType
  | h264
  | h265
  deriving DecidableEq, Repr

end MediaAgent
