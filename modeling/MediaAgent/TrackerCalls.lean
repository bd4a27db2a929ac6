import MediaAgent.TrackedList

/-!
# The tracker library behind its adapter

The boxes that `byteTrack/src/MediaAgentTracker.cpp` hands to the library and compares with its tracks, and the library
in the place of the parameter that `MediaAgent.TrackAgeing` takes for it. The values of the floats are given by a
function to the ordered field.
-/

namespace MediaAgent
open Assignment Camera Transition

section
variable {K : Type} [Field K] [LinearOrder K] (value : F32 → K)

structure NormalizedBox (K : Type) where
  left : K
  top : K
  width : K
  height : K

def clampUnit (x : K) : K := max 0 (min 1 x)

def clampCoord (x lower upper : K) : K := max lower (min x upper)

def normalizedIou (lhs rhs : NormalizedBox K) : K :=
  let interWidth := max 0 (min (lhs.left + lhs.width) (rhs.left + rhs.width) - max lhs.left rhs.left)
  let interHeight := max 0 (min (lhs.top + lhs.height) (rhs.top + rhs.height) - max lhs.top rhs.top)
  let interArea := interWidth * interHeight
  let unionArea := lhs.width * lhs.height + rhs.width * rhs.height - interArea
  if 0 < unionArea then interArea / unionArea else 0

def detectionToNormalizedBox (detection : MaTrackerDetection) : NormalizedBox K :=
  let width := clampUnit (value detection.width)
  let height := clampUnit (value detection.height)
  let left := clampUnit (clampUnit (value detection.x) - width / (2 : ℕ))
  let top := clampUnit (clampUnit (value detection.y) - height / (2 : ℕ))
  { left := left, top := top, width := max 0 (min width (1 - left)), height := max 0 (min height (1 - top)) }

def trackToNormalizedBox (track : TrackNode) (width height : Int) : NormalizedBox K :=
  let left := clampUnit ((value track.cx - value track.width / (2 : ℕ)) / width)
  let top := clampUnit ((value track.ymax - value track.height) / height)
  { left := left
    top := top
    width := max 0 (min (value track.width / width) (1 - left))
    height := max 0 (min (value track.height / height) (1 - top)) }

/-- The overlap that `applyTrackMatches` computes. -/
def nativeTrackIou : TrackIou K := fun frameDesc detection track =>
  normalizedIou (detectionToNormalizedBox value detection)
    (trackToNormalizedBox value track frameDesc.width frameDesc.height)

def toByteTrackDetection (frameDesc : MaTrackerFrameDesc) (detection : MaTrackerDetection) : DetectionRow K :=
  let frameWidth : K := frameDesc.width
  let frameHeight : K := frameDesc.height
  let width := max 1 (clampUnit (value detection.width) * frameWidth)
  let height := max 1 (clampUnit (value detection.height) * frameHeight)
  let left := clampCoord (clampUnit (value detection.x) * frameWidth - width / (2 : ℕ)) 0 (max 0 (frameWidth - 1))
  let top := clampCoord (clampUnit (value detection.y) * frameHeight - height / (2 : ℕ)) 0 (max 0 (frameHeight - 1))
  { tlwh :=
      { x := left
        y := top
        width := max 1 (min width (frameWidth - left))
        height := max 1 (min height (frameHeight - top)) }
    confidence := value detection.confidence
    type := detection.classId }

variable [IsStrictOrderedRing K]

/-- Whatever the detection, its box has an area. -/
lemma proper_toByteTrackDetection (frameDesc : MaTrackerFrameDesc) (detection : MaTrackerDetection) :
    (toByteTrackDetection value frameDesc detection).tlwh.Proper :=
  ⟨lt_of_lt_of_le one_pos (le_max_left _ _), lt_of_lt_of_le one_pos (le_max_left _ _)⟩

end

/-! ## The matchings of a run -/

section
variable {S K : Type} [Field K] [LinearOrder K] [IsStrictOrderedRing K] [Archimedean K] (kf : KalmanFilter S K)
  (store : K → F32) (value : F32 → K)

/-- The boxes that the next call may match are boxes with an area. -/
def ProperTracks (b : Camera.ByteTracker S K) : Prop :=
  ∀ t ∈ b.tracks, t.lastestBboxTlwh.Proper ∧ t.latestDetection.tlwh.Proper

lemma ProperTracks.process {b : Camera.ByteTracker S K} (h : ProperTracks b) (hb : TrackerInv b)
    {detections : List (DetectionRow K)} (hdetections : ∀ d ∈ detections, d.tlwh.Proper) (trackList : List TrackNode) :
    ProperTracks (b.process kf store detections trackList).1 := by
  obtain ⟨news, ⟨-, hcreated⟩, heq⟩ := b.process_eq kf store detections hb.nextIdx trackList
  have hkept : ∀ t ∈ keptTracks kf b detections news, t.lastestBboxTlwh.Proper ∧ t.latestDetection.tlwh.Proper := by
    intro t' ht'
    rcases List.mem_append.mp ht' with hold | hnew
    · obtain ⟨hmem, hlive⟩ := List.mem_filter.mp hold
      obtain ⟨t, ht, houtcome⟩ := exists_of_mem_outcomes kf hmem
      refine ⟨houtcome.box ▸ (h t ht).1, ?_⟩
      cases houtcome.turned (of_decide_eq_true hlive) with
      | matched detection hmem hage hhits hlatest => exact hlatest ▸ hdetections _ hmem
      | missed hconfirmed hage hmax hhits hlatest => exact hlatest ▸ (h t ht).2
    · obtain ⟨hmem, hbox, -⟩ := (hcreated t' hnew).detection
      exact ⟨hbox ▸ hdetections _ hmem, hdetections _ hmem⟩
  rw [heq]
  intro t ht
  obtain ⟨t', ht', rfl⟩ := List.mem_map.mp ht
  have hlisted : (ByteTracker.listedTrack kf t').lastestBboxTlwh = t'.lastestBboxTlwh ∨
      (ByteTracker.listedTrack kf t').lastestBboxTlwh = t'.latestDetection.tlwh := by
    unfold ByteTracker.listedTrack
    split
    · rename_i hcond
      exact .inr (if_neg hcond.2)
    · exact .inl rfl
  rw [(sameTrack_listedTrack kf t').2.2.2.2]
  refine ⟨?_, (hkept t' ht').2⟩
  rcases hlisted with hbox | hbox
  · exact hbox ▸ (hkept t' ht').1
  · exact hbox ▸ (hkept t' ht').2

/-- The calls that `ma_tracker_process` makes on one tracker. -/
def trackerCalls (b : Camera.ByteTracker S K) :
    Machine (Camera.ByteTracker S K × List TrackNode) (MaTrackerFrameDesc × List MaTrackerDetection) where
  init := (b, [])
  next s call := (trackedListSystem kf store b).next s (call.2.map (toByteTrackDetection value call.1))

/-- What the two matchings of a call come to: they divide tracks and detections, and each gains as much as any matching
of its candidates. -/
structure MatchedBest (p : Camera.ByteTracker S K) (detections : List (DetectionRow K)) : Prop where
  divided : ((p.matchDetections detections).matched.map Prod.fst ++
    (p.matchDetections detections).unmatchedTracks).Perm p.iouTrackCandidates
  once : ((p.matchDetections detections).matched.map Prod.snd).Nodup ∧
    ∀ j ∈ (p.matchDetections detections).unmatchedDetections,
      j ∉ (p.matchDetections detections).matched.map Prod.snd ∧ p.minThresh ≤ (detections.get j).confidence
  high : ∀ pairs, IsPairing p.iouTrackCandidates (p.detectionsHigh detections) pairs →
    total (gain p.maxIouDistance p.tracks detections) pairs ≤
      total (gain p.maxIouDistance p.tracks detections) (p.matchHigh detections).matched
  low : ∀ pairs,
    IsPairing ((p.matchHigh detections).unmatchedTracks.filter fun i => (p.tracks.get i).state = .confirmed)
        (p.detectionsLow detections) pairs →
      total (gain p.maxIouDistance p.tracks detections) pairs ≤
        total (gain p.maxIouDistance p.tracks detections) (p.matchLow detections).matched

lemma matchedBest_of_proper {p : Camera.ByteTracker S K} (hmax : 0 < p.maxIouDistance)
    (hp : ∀ t ∈ p.tracks, t.lastestBboxTlwh.Proper) {detections : List (DetectionRow K)}
    (hdetections : ∀ d ∈ detections, d.tlwh.Proper) : MatchedBest p detections := by
  have hperm := p.matchDetections_detections detections
  have hnodup := hperm.nodup_iff.mpr (List.nodup_finRange _)
  refine ⟨p.matchDetections_tracks detections, ⟨(List.nodup_append.mp hnodup).1, fun j hj => ⟨fun hmem => ?_, ?_⟩⟩,
    fun pairs hpairs => total_gain_le_matched hmax hp hdetections hpairs,
    fun pairs hpairs => total_gain_le_matched hmax hp hdetections hpairs⟩
  · exact (List.nodup_append.mp hnodup).2.2 j hmem j (List.mem_append_left _ hj) rfl
  · have hhigh := (doMinCostMatching_perm p.maxIouDistance p.tracks detections p.iouTrackCandidates
      (p.detectionsHigh detections)).2
    have hj' := hhigh.mem_iff.mp (List.mem_append_right _ hj)
    exact of_decide_eq_true (List.mem_filter.mp hj').2

variable {minThresh highThresh maxIouDistance highThreshPerson highThreshMotorbike : K} {maxAge nInit : Int}
  {b : Camera.ByteTracker S K}

/-- In every call of a run, whatever the detections, the two matchings are the best ones. -/
theorem matchedBest_of_reachable (hb : Camera.ByteTracker.create minThresh highThresh maxIouDistance highThreshPerson
    highThreshMotorbike maxAge nInit = some b) {s : Camera.ByteTracker S K × List TrackNode}
    (h : (trackerCalls kf store value b).Reachable s) (frameDesc : MaTrackerFrameDesc)
    (detections : List MaTrackerDetection) :
    MatchedBest (s.1.predict kf) (detections.map (toByteTrackDetection value frameDesc)) := by
  have hproper : ∀ (frameDesc : MaTrackerFrameDesc) (detections : List MaTrackerDetection),
      ∀ d ∈ detections.map (toByteTrackDetection value frameDesc), d.tlwh.Proper := by
    intro frameDesc detections d hd
    obtain ⟨detection, -, rfl⟩ := List.mem_map.mp hd
    exact proper_toByteTrackDetection value frameDesc detection
  obtain ⟨hinit, hnil⟩ := trackerInv_create hb
  obtain ⟨-, htracks, hlimit⟩ := h.invariant
    (I := fun s => TrackerInv s.1 ∧ ProperTracks s.1 ∧ s.1.maxIouDistance = b.maxIouDistance)
    ⟨hinit, fun t ht => absurd ht (by rw [show (trackerCalls kf store value b).init.1.tracks = [] from hnil]; simp), rfl⟩
    (by
      rintro t call u ⟨htracker, htracks, hlimit⟩ - hnext
      cases hnext
      have hd := hproper call.1 call.2
      obtain ⟨news, -, heq⟩ := t.1.process_eq kf store (call.2.map (toByteTrackDetection value call.1)) htracker.nextIdx t.2
      refine ⟨htracker.process kf store _ _, htracks.process kf store htracker hd _, ?_⟩
      rw [← hlimit]
      exact congrArg (fun r => r.1.maxIouDistance) heq)
  refine matchedBest_of_proper ?_ (fun t ht => ?_) (hproper frameDesc detections)
  · rw [show (s.1.predict kf).maxIouDistance = s.1.maxIouDistance from rfl, hlimit]
    exact maxIouDistance_pos_of_create hb
  · obtain ⟨t', ht', rfl⟩ := List.mem_map.mp ht
    rw [lastestBboxTlwh_predict]
    exact (htracks t' ht').1

end

/-- A detection of half a frame in its middle. -/
def middleDetection : MaTrackerDetection := ⟨⟨0⟩, ⟨0⟩, ⟨0⟩, ⟨0⟩, ⟨0⟩, 0⟩

def halfFrame : MaTrackerFrameDesc := ⟨640, 480, 0⟩

abbrev halfCalls := trackerCalls stillFilter (fun _ => ⟨0⟩) (fun _ => 1 / 2) stillTracker

/-- The second call has a track and a detection to match. -/
theorem matchedBest_of_reachable_secondCall : ∃ s, halfCalls.Reachable s ∧ s.1.tracks.length = 1 ∧
    MatchedBest (s.1.predict stillFilter) ([middleDetection].map (toByteTrackDetection (fun _ => 1 / 2) halfFrame)) := by
  have hcreate : Camera.ByteTracker.create (1 / 10) (1 / 2) (7 / 10) (2 / 5) (2 / 5) 70 2 = some stillTracker := by
    rw [Camera.ByteTracker.create, if_pos (by decide +kernel)]
    rfl
  obtain ⟨s, hreach, hs⟩ := halfCalls.reachable_of_exec_any [(halfFrame, [middleDetection])]
    (fun s => s.1.tracks.length == 1) (by decide +kernel)
  exact ⟨s, hreach, eq_of_beq hs, matchedBest_of_reachable stillFilter (fun _ => ⟨0⟩) (fun _ => 1 / 2) hcreate hreach
    halfFrame [middleDetection]⟩

end MediaAgent
