import MediaAgent.TrackerAdapter

/-!
# Tracks of the tracker library

`kalman_filter/track.cpp` and `dataType.cpp` of the tracker library, with the switches that `track.h` and
`kalmanfilter.h` set. The numbers are those of an ordered field, and the Kalman filter is a parameter. What `Process`
never reads of a track, such as the trail of its boxes, is left out.
-/

namespace MediaAgent.Camera

/-- The four numbers of a `Bbox`; `x` and `y` are a corner, a centre or the middle of the lower edge. -/
structure Bbox (K : Type) where
  x : K
  y : K
  width : K
  height : K
  deriving DecidableEq, Repr

structure DetectionRow (K : Type) where
  tlwh : Bbox K
  confidence : K
  type : Int
  deriving DecidableEq, Repr

inductive TrackObjectType
  | motor
  | nonMotor
  | others
  deriving DecidableEq, Repr

def judgeObjectType (type : Int) : TrackObjectType :=
  if type < 3 then .motor
  else if 3 ≤ type ∧ type < 5 then .nonMotor
  else .others

inductive TrackState
  | tentative
  | confirmed
  | deleted
  deriving DecidableEq, Repr

/-- `KAL::KalmanFilter`, with a mean and a covariance in `S`; `position` is the first half of the mean, the centre and
the size of a box. -/
structure KalmanFilter (S K : Type) where
  initiate : Bbox K → S
  predict : S → S
  update : S → Bbox K → S
  position : S → Bbox K

/-- `serial`, which the source does not have, tells apart the tracks that get one id after another. -/
structure Track (S K : Type) where
  mean : S
  trackId : Int
  hits : Nat := 1
  timeSinceUpdate : Nat := 0
  state : TrackState := .tentative
  latestDetection : DetectionRow K
  lastestBboxTlwh : Bbox K
  nInit : Int
  maxAge : Int
  type : TrackObjectType
  serial : Nat
  deriving DecidableEq, Repr

/-- `TIME_SINCE_UPDATE` -/
def kTimeSinceUpdate : Nat := 4

section
variable {S K : Type} [Field K] [LinearOrder K]

namespace DetectionRow

def toCxcywh (row : DetectionRow K) : Bbox K :=
  { row.tlwh with x := row.tlwh.x + row.tlwh.width / 2, y := row.tlwh.y + row.tlwh.height / 2 }

def toCxymax (row : DetectionRow K) : Bbox K :=
  { row.tlwh with x := row.tlwh.x + row.tlwh.width / 2, y := row.tlwh.y + row.tlwh.height }

end DetectionRow

namespace Track

/-- The constructor. -/
def create (mean : S) (trackId nInit maxAge : Int) (detection : DetectionRow K) (serial : Nat) : Track S K where
  mean := mean
  trackId := trackId
  latestDetection := detection
  lastestBboxTlwh := detection.tlwh
  nInit := nInit
  maxAge := maxAge
  type := judgeObjectType detection.type
  serial := serial

variable (kf : KalmanFilter S K) (t : Track S K)

def toCxymax : Bbox K :=
  let b := kf.position t.mean
  { b with y := b.y + b.height / 2 }

def toTlwh : Bbox K :=
  let b := kf.position t.mean
  { b with x := b.x - b.width / 2, y := b.y - b.height / 2 }

/-- A track whose predicted box leaves the picture is deleted. -/
def predict : Track S K :=
  let t := { t with mean := kf.predict t.mean, timeSinceUpdate := t.timeSinceUpdate + 1 }
  let b := t.toCxymax kf
  if b.x ≤ 0 ∨ b.y ≤ 0 ∨ b.width ≤ 0 ∨ b.height ≤ 0 then { t with state := .deleted } else t

def update (detection : DetectionRow K) : Track S K :=
  let t :=
    { t with
      mean := kf.update t.mean detection.toCxcywh
      hits := t.hits + 1
      timeSinceUpdate := 0
      latestDetection := detection
      type := judgeObjectType detection.type }
  if t.state = .tentative ∧ t.nInit ≤ t.hits then { t with state := .confirmed } else t

def markMissed : Track S K :=
  if t.state = .tentative then { t with state := .deleted }
  else if t.maxAge ≤ t.timeSinceUpdate then { t with state := .deleted }
  else t

variable (store : K → F32)

/-- The box that `InitTrackNode` takes: the prediction, or the last detection if that is recent. -/
def newBbox : Bbox K :=
  if kTimeSinceUpdate ≤ t.timeSinceUpdate then t.toCxymax kf else t.latestDetection.toCxymax

/-- The node that `InitTrackNode` writes. -/
def initTrackNode (node : TrackNode) : TrackNode :=
  { node with
    id := UInt32.ofInt t.trackId
    type := t.latestDetection.type
    cx := store (t.newBbox kf).x
    ymax := store (t.newBbox kf).y
    width := store (t.newBbox kf).width
    height := store (t.newBbox kf).height
    serial := t.serial }

/-- The track after `InitTrackNode`. -/
def initedTrackNode : Track S K :=
  { t with
    lastestBboxTlwh := if kTimeSinceUpdate ≤ t.timeSinceUpdate then t.toTlwh kf else t.latestDetection.tlwh }

end Track

end

end MediaAgent.Camera
