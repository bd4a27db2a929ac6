import MediaAgent.Detector
import MediaAgent.Library.GreedyMatching
import Mathlib.Algebra.Order.Field.Basic
import Mathlib.Data.List.GetD

/-!
# Matching detections to tracks

`applyTrackMatches` of `byteTrack/src/MediaAgentTracker.cpp`, which gives the ids of the tracks to the detections of a
frame. The overlap of a detection and a track is a parameter with values in an ordered field, and so is the order that
`std::sort` leaves the candidates in. What is marked is a stable matching.
-/

namespace MediaAgent
open GreedyMatching

structure MaTrackerFrameDesc where
  width : Int := 0
  height : Int := 0
  timestampMs : Int := 0
  deriving DecidableEq, Repr

structure MaTrackerDetection where
  x : F32 := ⟨0⟩
  y : F32 := ⟨0⟩
  width : F32 := ⟨0⟩
  height : F32 := ⟨0⟩
  confidence : F32 := ⟨0⟩
  classId : Int := 0
  deriving DecidableEq, Repr

structure MaTrackerOutput where
  x : F32 := ⟨0⟩
  y : F32 := ⟨0⟩
  width : F32 := ⟨0⟩
  height : F32 := ⟨0⟩
  confidence : F32 := ⟨0⟩
  classId : Int := 0
  trackId : Int := 0
  matched : Int := 0
  deriving DecidableEq, Repr

/-- `e_State` -/
inductive TrackNodeState
  | normal
  | delete
  deriving DecidableEq, Repr

/-- The part of a `TrackNode` that the adapter reads; the source has the box as the four numbers `cywh`. Ids are given
out again after a while: `serial`, which the source does not have, tells the tracks apart. -/
structure TrackNode where
  cx : F32 := ⟨0⟩
  ymax : F32 := ⟨0⟩
  width : F32 := ⟨0⟩
  height : F32 := ⟨0⟩
  type : Int := 0
  id : UInt32 := 0
  state : TrackNodeState := .normal
  serial : Nat := 0
  deriving DecidableEq, Repr

structure TrackerMatchCandidate (K : Type) where
  detectionIndex : Nat
  trackIndex : Nat
  iou : K

/-- `normalizedIou` of the boxes that a frame's detection and a track are turned into. -/
abbrev TrackIou (K : Type) := MaTrackerFrameDesc → MaTrackerDetection → TrackNode → K

/-- `std::sort` of the candidates by falling `iou`. -/
structure CandidateSort (K : Type) [LE K] where
  sort : List (TrackerMatchCandidate K) → List (TrackerMatchCandidate K)
  perm : ∀ candidates, (sort candidates).Perm candidates
  sorted : ∀ candidates, (sort candidates).Pairwise fun lhs rhs => rhs.iou ≤ lhs.iou

def initialOutput (detection : MaTrackerDetection) : MaTrackerOutput where
  x := detection.x
  y := detection.y
  width := detection.width
  height := detection.height
  confidence := detection.confidence
  classId := detection.classId
  trackId := -1
  matched := 0

def initializeOutputs (detections : List MaTrackerDetection) : List MaTrackerOutput := detections.map initialOutput

/-- The assignments to the output of a matched detection. -/
def MaTrackerOutput.setTrack (output : MaTrackerOutput) (track : TrackNode) : MaTrackerOutput :=
  { output with trackId := track.id.toInt32.toInt, matched := 1 }

/-- The variables of the loop over the sorted candidates. -/
structure TrackMatchState where
  detectionUsed : List Bool
  trackUsed : List Bool
  outputs : List MaTrackerOutput

def TrackMatchState.take {K : Type} (trackList : List TrackNode) (s : TrackMatchState)
    (candidate : TrackerMatchCandidate K) : TrackMatchState :=
  if s.detectionUsed.getD candidate.detectionIndex false || s.trackUsed.getD candidate.trackIndex false then s
  else
    { detectionUsed := s.detectionUsed.set candidate.detectionIndex true
      trackUsed := s.trackUsed.set candidate.trackIndex true
      outputs := s.outputs.modify candidate.detectionIndex fun output =>
        output.setTrack (trackList.getD candidate.trackIndex {}) }

section
variable {K : Type} [Field K] [LinearOrder K] (iou : TrackIou K) (frameDesc : MaTrackerFrameDesc)
  (trackList : List TrackNode) (detections : List MaTrackerDetection)

def kMatchIouThreshold : K := 3 / 10

/-- The candidates in the order of the two loops. -/
def matchCandidates : List (TrackerMatchCandidate K) :=
  trackList.zipIdx.flatMap fun t => detections.zipIdx.filterMap fun d =>
    if d.1.classId ≠ t.1.type then none
    else if kMatchIouThreshold ≤ iou frameDesc d.1 t.1 then some ⟨d.2, t.2, iou frameDesc d.1 t.1⟩
    else none

def applyTrackMatches (std : CandidateSort K) (outputs : List MaTrackerOutput) : List MaTrackerOutput :=
  if detections = [] ∨ trackList = [] then outputs
  else
    ((std.sort (matchCandidates iou frameDesc trackList detections)).foldl (TrackMatchState.take trackList)
      { detectionUsed := List.replicate detections.length false
        trackUsed := List.replicate trackList.length false
        outputs := outputs }).outputs

end

/-! ## What the outputs say -/

/-- The outputs have the ids of the tracks in `chosen`, and the other detections have none. -/
def Marks {K : Type} (trackList : List TrackNode) (detections : List MaTrackerDetection)
    (chosen : List (TrackerMatchCandidate K)) (outputs : List MaTrackerOutput) : Prop :=
  outputs.length = detections.length ∧
    ∀ (i : Nat) (detection : MaTrackerDetection), detections[i]? = some detection →
      (∃ c ∈ chosen, ∃ track : TrackNode, c.detectionIndex = i ∧ trackList[c.trackIndex]? = some track ∧
        outputs[i]? = some ((initialOutput detection).setTrack track)) ∨
      (∀ c ∈ chosen, c.detectionIndex ≠ i) ∧ outputs[i]? = some (initialOutput detection)

section
variable {K : Type} [Field K] [LinearOrder K] (iou : TrackIou K) (frameDesc : MaTrackerFrameDesc)
  (trackList : List TrackNode) (detections : List MaTrackerDetection)

/-- A detection and a track of its class that overlap enough. -/
structure IsCandidate (c : TrackerMatchCandidate K) (detection : MaTrackerDetection) (track : TrackNode) : Prop where
  detectionAt : detections[c.detectionIndex]? = some detection
  trackAt : trackList[c.trackIndex]? = some track
  sameClass : detection.classId = track.type
  iou : c.iou = iou frameDesc detection track
  threshold : (3 / 10 : K) ≤ c.iou

/-- `chosen` is a stable matching of the detections and the tracks. -/
structure StableMatching (chosen : List (TrackerMatchCandidate K)) : Prop where
  suitable : ∀ c ∈ chosen, ∃ detection track, IsCandidate iou frameDesc trackList detections c detection track
  matching : chosen.Pairwise fun c d => c.detectionIndex ≠ d.detectionIndex ∧ c.trackIndex ≠ d.trackIndex
  stable : ∀ c detection track, IsCandidate iou frameDesc trackList detections c detection track → c ∉ chosen →
    ∃ d ∈ chosen, (d.detectionIndex = c.detectionIndex ∨ d.trackIndex = c.trackIndex) ∧ c.iou ≤ d.iou

end

/-! ## The loop takes the greedy matching -/

/-- The flags of a loop that has used the indices `ends`. -/
def usedFlags (n : Nat) (ends : List Nat) : List Bool := (List.range n).map fun i => decide (i ∈ ends)

lemma usedFlags_nil (n : Nat) : usedFlags n [] = List.replicate n false := by
  simp [usedFlags, List.map_const']

lemma getD_track {trackList : List TrackNode} {i : Nat} {track : TrackNode} (h : trackList[i]? = some track) :
    trackList.getD i {} = track := by
  rw [List.getD_eq_getElem?_getD, h, Option.getD_some]

lemma getD_usedFlags {n i : Nat} (ends : List Nat) (h : i < n) :
    (usedFlags n ends).getD i false = decide (i ∈ ends) := by
  simp [usedFlags, List.getD_eq_getElem?_getD, h]

lemma set_usedFlags (n i : Nat) (ends : List Nat) : (usedFlags n ends).set i true = usedFlags n (ends ++ [i]) := by
  refine List.ext_getElem (by simp [usedFlags]) fun k _ _ => ?_
  rw [List.getElem_set]
  by_cases hk : i = k
  · simp [usedFlags, hk]
  · simp [usedFlags, hk, Ne.symm hk]

variable {K : Type} [Field K] [LinearOrder K] {iou : TrackIou K} {frameDesc : MaTrackerFrameDesc}
  {trackList : List TrackNode} {detections : List MaTrackerDetection}

lemma mem_matchCandidates {c : TrackerMatchCandidate K} :
    c ∈ matchCandidates iou frameDesc trackList detections ↔
      ∃ detection track, IsCandidate iou frameDesc trackList detections c detection track := by
  simp only [matchCandidates, List.mem_flatMap, List.mem_filterMap, Prod.exists, List.mk_mem_zipIdx_iff_getElem?]
  constructor
  · rintro ⟨track, j, htrack, detection, i, hdetection, hsome⟩
    split at hsome
    · cases hsome
    · rename_i hclass
      split at hsome
      · rename_i hiou
        cases hsome
        exact ⟨detection, track, hdetection, htrack, not_not.mp hclass, rfl, hiou⟩
      · cases hsome
  · rintro ⟨detection, track, h⟩
    refine ⟨track, c.trackIndex, h.trackAt, detection, c.detectionIndex, h.detectionAt, ?_⟩
    have hiou : kMatchIouThreshold ≤ iou frameDesc detection track := h.iou ▸ h.threshold
    rw [if_neg (not_not.mpr h.sameClass), if_pos hiou, ← h.iou]

/-- The candidates that the loop takes. -/
def chosenCandidates (iou : TrackIou K) (frameDesc : MaTrackerFrameDesc) (trackList : List TrackNode)
    (detections : List MaTrackerDetection) (std : CandidateSort K) : List (TrackerMatchCandidate K) :=
  greedy (·.detectionIndex) (·.trackIndex) (std.sort (matchCandidates iou frameDesc trackList detections))

omit [Field K] [LinearOrder K] in
lemma marks_append {chosen : List (TrackerMatchCandidate K)} {c : TrackerMatchCandidate K} {track : TrackNode}
    {outputs : List MaTrackerOutput} (h : Marks trackList detections chosen outputs)
    (hfree : ∀ d ∈ chosen, d.detectionIndex ≠ c.detectionIndex) (htrack : trackList[c.trackIndex]? = some track) :
    Marks trackList detections (chosen ++ [c]) (outputs.modify c.detectionIndex fun output => output.setTrack track) := by
  refine ⟨by rw [List.length_modify, h.1], fun i detection hi => ?_⟩
  by_cases hc : c.detectionIndex = i
  · have hnone : ∀ d ∈ chosen, d.detectionIndex ≠ i := fun d hd => hc ▸ hfree d hd
    have hfirst : outputs[i]? = some (initialOutput detection) := by
      rcases h.2 i detection hi with ⟨d, hd, _, hdi, _⟩ | ⟨_, hfirst⟩
      · exact absurd hdi (hnone d hd)
      · exact hfirst
    refine .inl ⟨c, by simp, track, hc, htrack, ?_⟩
    rw [hc, List.getElem?_modify_eq, hfirst]
    rfl
  · rw [List.getElem?_modify_ne _ _ hc]
    rcases h.2 i detection hi with ⟨d, hd, hmarked⟩ | ⟨hnone, hfirst⟩
    · exact .inl ⟨d, List.mem_append_left _ hd, hmarked⟩
    · refine .inr ⟨fun d hd => ?_, hfirst⟩
      rcases List.mem_append.mp hd with hd | hd
      · exact hnone d hd
      · exact List.mem_singleton.mp hd ▸ hc

/-- The state of the loop when it has taken `chosen`. -/
structure Taken (trackList : List TrackNode) (detections : List MaTrackerDetection)
    (chosen : List (TrackerMatchCandidate K)) (s : TrackMatchState) : Prop where
  detectionUsed : s.detectionUsed = usedFlags detections.length (chosen.map (·.detectionIndex))
  trackUsed : s.trackUsed = usedFlags trackList.length (chosen.map (·.trackIndex))
  marks : Marks trackList detections chosen s.outputs

/-- The flags of a candidate tell whether it clashes with one that has been taken. -/
lemma Taken.used_iff {chosen : List (TrackerMatchCandidate K)} {s : TrackMatchState}
    (h : Taken trackList detections chosen s) {c : TrackerMatchCandidate K} {detection : MaTrackerDetection}
    {track : TrackNode} (hc : IsCandidate iou frameDesc trackList detections c detection track) :
    (s.detectionUsed.getD c.detectionIndex false || s.trackUsed.getD c.trackIndex false) = true ↔
      ∃ d ∈ chosen, Clash (·.detectionIndex) (·.trackIndex) d c := by
  obtain ⟨hdetection, -⟩ := List.getElem?_eq_some_iff.mp hc.detectionAt
  obtain ⟨htrack, -⟩ := List.getElem?_eq_some_iff.mp hc.trackAt
  rw [h.detectionUsed, h.trackUsed, getD_usedFlags _ hdetection, getD_usedFlags _ htrack]
  simp only [Bool.or_eq_true, decide_eq_true_eq, List.mem_map, Clash]
  constructor
  · rintro (⟨d, hd, heq⟩ | ⟨d, hd, heq⟩)
    · exact ⟨d, hd, .inl heq⟩
    · exact ⟨d, hd, .inr heq⟩
  · rintro ⟨d, hd, heq | heq⟩
    · exact .inl ⟨d, hd, heq⟩
    · exact .inr ⟨d, hd, heq⟩

/-- One turn of the loop takes the candidate that the greedy matching chooses. -/
lemma Taken.take {chosen : List (TrackerMatchCandidate K)} {s : TrackMatchState}
    (h : Taken trackList detections chosen s) {c : TrackerMatchCandidate K} {detection : MaTrackerDetection}
    {track : TrackNode} (hc : IsCandidate iou frameDesc trackList detections c detection track) :
    Taken trackList detections (choose (·.detectionIndex) (·.trackIndex) chosen c) (s.take trackList c) := by
  by_cases hclash : ∃ d ∈ chosen, Clash (·.detectionIndex) (·.trackIndex) d c
  · rw [choose, if_pos hclash, TrackMatchState.take, if_pos ((h.used_iff hc).mpr hclash)]
    exact h
  · rw [choose, if_neg hclash, TrackMatchState.take, if_neg (mt (h.used_iff hc).mp hclash)]
    have hfree : ∀ d ∈ chosen, d.detectionIndex ≠ c.detectionIndex := fun d hd heq => hclash ⟨d, hd, .inl heq⟩
    refine ⟨?_, ?_, ?_⟩
    · rw [h.detectionUsed, set_usedFlags, List.map_append, List.map_singleton]
    · rw [h.trackUsed, set_usedFlags, List.map_append, List.map_singleton]
    · rw [getD_track hc.trackAt]
      exact marks_append h.marks hfree hc.trackAt

lemma taken_foldl {candidates chosen : List (TrackerMatchCandidate K)} {s : TrackMatchState}
    (hcandidates : ∀ c ∈ candidates, ∃ detection track,
      IsCandidate iou frameDesc trackList detections c detection track)
    (h : Taken trackList detections chosen s) :
    Taken trackList detections (candidates.foldl (choose (·.detectionIndex) (·.trackIndex)) chosen)
      (candidates.foldl (TrackMatchState.take trackList) s) := by
  induction candidates generalizing chosen s with
  | nil => exact h
  | cons c candidates ih =>
    obtain ⟨detection, track, hc⟩ := hcandidates c List.mem_cons_self
    exact ih (fun d hd => hcandidates d (List.mem_cons_of_mem c hd)) (h.take hc)

omit [Field K] [LinearOrder K] in
lemma marks_nil : Marks (K := K) trackList detections [] (initializeOutputs detections) := by
  refine ⟨List.length_map _, fun i detection hi => .inr ⟨fun c hc => absurd hc List.not_mem_nil, ?_⟩⟩
  rw [initializeOutputs, List.getElem?_map, hi, Option.map_some]

lemma mem_sort {std : CandidateSort K} {c : TrackerMatchCandidate K} :
    c ∈ std.sort (matchCandidates iou frameDesc trackList detections) ↔
      ∃ detection track, IsCandidate iou frameDesc trackList detections c detection track :=
  ((std.perm _).mem_iff).trans mem_matchCandidates

lemma matchCandidates_of_empty (h : detections = [] ∨ trackList = []) :
    matchCandidates iou frameDesc trackList detections = [] := by
  rcases h with rfl | rfl
  · simp [matchCandidates]
  · simp [matchCandidates]

/-- The outputs have the ids of the chosen tracks. -/
lemma marks_applyTrackMatches (iou : TrackIou K) (frameDesc : MaTrackerFrameDesc) (trackList : List TrackNode)
    (detections : List MaTrackerDetection) (std : CandidateSort K) :
    Marks trackList detections (chosenCandidates iou frameDesc trackList detections std)
      (applyTrackMatches iou frameDesc trackList detections std (initializeOutputs detections)) := by
  unfold applyTrackMatches
  split
  · rename_i hempty
    have hnone : chosenCandidates iou frameDesc trackList detections std = [] := by
      unfold chosenCandidates
      rw [matchCandidates_of_empty hempty, List.perm_nil.mp (std.perm [])]
      rfl
    rw [hnone]
    exact marks_nil
  · refine (taken_foldl (fun c hc => mem_sort.mp hc) ⟨?_, ?_, marks_nil⟩).marks
    · exact (usedFlags_nil _).symm
    · exact (usedFlags_nil _).symm

lemma stableMatching_chosenCandidates (iou : TrackIou K) (frameDesc : MaTrackerFrameDesc)
    (trackList : List TrackNode) (detections : List MaTrackerDetection) (std : CandidateSort K) :
    StableMatching iou frameDesc trackList detections
      (chosenCandidates iou frameDesc trackList detections std) where
  suitable _ hc := mem_sort.mp (mem_of_mem_greedy hc)
  matching := (pairwise_greedy _).imp fun h => not_or.mp h
  stable _ detection track hc hnot := stable_greedy (std.sorted _) (mem_sort.mpr ⟨detection, track, hc⟩) hnot

/-- What `applyTrackMatches` marks is a stable matching, whichever order `std::sort` gives to candidates that overlap
equally. -/
theorem applyTrackMatches_stable (iou : TrackIou K) (frameDesc : MaTrackerFrameDesc) (trackList : List TrackNode)
    (detections : List MaTrackerDetection) (std : CandidateSort K) :
    ∃ chosen : List (TrackerMatchCandidate K), StableMatching iou frameDesc trackList detections chosen ∧
      Marks trackList detections chosen
        (applyTrackMatches iou frameDesc trackList detections std (initializeOutputs detections)) :=
  ⟨_, stableMatching_chosenCandidates iou frameDesc trackList detections std,
    marks_applyTrackMatches iou frameDesc trackList detections std⟩

end MediaAgent
