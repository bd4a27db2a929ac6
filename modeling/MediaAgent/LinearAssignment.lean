import MediaAgent.Munkres
import MediaAgent.TrackStates

/-!
# Matching detections to tracks in the tracker library

`kalman_filter/linear_assignment.cpp`. The indices of tracks and detections are in range by their type; a float that
holds one of them is exact for lists of this size.
-/

namespace MediaAgent.Camera
open Assignment

/-- `s_MatchResult` for `m` tracks and `n` detections. -/
structure MatchResult (m n : ℕ) where
  matched : List (Fin m × Fin n)
  unmatchedTracks : List (Fin m)
  unmatchedDetections : List (Fin n)

section
variable {S K : Type} [Field K] [LinearOrder K]

def calculateIou (bbox candidate : Bbox K) : K :=
  let w := min (bbox.x + bbox.width) (candidate.x + candidate.width) - max bbox.x candidate.x
  let w := if w < 0 then 0 else w
  let h := min (bbox.y + bbox.height) (candidate.y + candidate.height) - max bbox.y candidate.y
  let h := if h < 0 then 0 else h
  w * h / (bbox.width * bbox.height + candidate.width * candidate.height - w * h)

/-- An entry of the cost matrix after the loop that puts the cost above the limit. -/
def gatedCost (maxDistance : K) (t : Track S K) (detection : DetectionRow K) : K :=
  let tmp := 1 - calculateIou t.lastestBboxTlwh detection.tlwh
  if t.type ≠ judgeObjectType detection.type then maxDistance + 1 / (100000 : ℕ)
  else if maxDistance < tmp then maxDistance + 1 / (100000 : ℕ)
  else tmp

variable [IsStrictOrderedRing K] [Archimedean K] (maxDistance : K) (tracks : List (Track S K))
  (detections : List (DetectionRow K)) (trackIndices : List (Fin tracks.length))
  (detectionIndices : List (Fin detections.length))

def costMatrix (row : Fin trackIndices.length) (col : Fin detectionIndices.length) : K :=
  gatedCost maxDistance (tracks.get (trackIndices.get row)) (detections.get (detectionIndices.get col))

def doMinCostMatching : MatchResult tracks.length detections.length :=
  if detectionIndices.length = 0 ∨ trackIndices.length = 0 then
    { matched := [], unmatchedTracks := trackIndices, unmatchedDetections := detectionIndices }
  else
    let cost := costMatrix maxDistance tracks detections trackIndices detectionIndices
    let indices := hungarianPairs cost
    let gated := indices.filter fun p => maxDistance < cost p.1 p.2
    { matched := (indices.filter fun p => ¬maxDistance < cost p.1 p.2).map fun p =>
        (trackIndices.get p.1, detectionIndices.get p.2)
      unmatchedTracks :=
        ((List.finRange trackIndices.length).filter fun row => row ∉ indices.map Prod.fst).map trackIndices.get ++
          gated.map fun p => trackIndices.get p.1
      unmatchedDetections :=
        ((List.finRange detectionIndices.length).filter fun col => col ∉ indices.map Prod.snd).map
            detectionIndices.get ++
          gated.map fun p => detectionIndices.get p.2 }

end

/-! ## The cost -/

section
variable {S K : Type} [Field K] [LinearOrder K] [IsStrictOrderedRing K]

/-- Sides of positive length. -/
def Bbox.Proper (b : Bbox K) : Prop := 0 < b.width ∧ 0 < b.height

/-- The length that two intervals have in common. -/
lemma overlap_bounds {x y v w : K} (hv : 0 < v) (hw : 0 < w) :
    let d := min (x + v) (y + w) - max x y
    0 ≤ (if d < 0 then 0 else d) ∧ (if d < 0 then 0 else d) ≤ v ∧ (if d < 0 then 0 else d) ≤ w := by
  dsimp only
  have h₁ : min (x + v) (y + w) - max x y ≤ v := by linarith [min_le_left (x + v) (y + w), le_max_left x y]
  have h₂ : min (x + v) (y + w) - max x y ≤ w := by linarith [min_le_right (x + v) (y + w), le_max_right x y]
  split
  · exact ⟨le_rfl, hv.le, hw.le⟩
  · exact ⟨by linarith, h₁, h₂⟩

lemma calculateIou_mem_unit {b c : Bbox K} (hb : b.Proper) (hc : c.Proper) :
    0 ≤ calculateIou b c ∧ calculateIou b c ≤ 1 := by
  obtain ⟨hw, hwb, hwc⟩ := overlap_bounds (x := b.x) (y := c.x) hb.1 hc.1
  obtain ⟨hh, hhb, hhc⟩ := overlap_bounds (x := b.y) (y := c.y) hb.2 hc.2
  simp only [calculateIou]
  set w := if min (b.x + b.width) (c.x + c.width) - max b.x c.x < 0 then 0
    else min (b.x + b.width) (c.x + c.width) - max b.x c.x
  set h := if min (b.y + b.height) (c.y + c.height) - max b.y c.y < 0 then 0
    else min (b.y + b.height) (c.y + c.height) - max b.y c.y
  have hinter : 0 ≤ w * h := mul_nonneg hw hh
  have hle : w * h ≤ b.width * b.height := mul_le_mul hwb hhb hh hb.1.le
  have hle' : w * h ≤ c.width * c.height := mul_le_mul hwc hhc hh hc.1.le
  have hpos : 0 < b.width * b.height := mul_pos hb.1 hb.2
  have hunion : 0 < b.width * b.height + c.width * c.height - w * h := by linarith
  exact ⟨div_nonneg hinter hunion.le, (div_le_one hunion).mpr (by linarith)⟩

variable {maxDistance : K}

lemma gatedCost_nonneg (hmax : 0 < maxDistance) {t : Track S K} {detection : DetectionRow K}
    (ht : t.lastestBboxTlwh.Proper) (hd : detection.tlwh.Proper) : 0 ≤ gatedCost maxDistance t detection := by
  have hiou := (calculateIou_mem_unit ht hd).2
  have hgate : 0 ≤ maxDistance + 1 / (100000 : ℕ) := by positivity
  simp only [gatedCost]
  split
  · exact hgate
  · split
    · exact hgate
    · linarith

lemma gatedCost_le (t : Track S K) (detection : DetectionRow K) :
    gatedCost maxDistance t detection ≤ maxDistance + 1 / (100000 : ℕ) := by
  have hgate : (0 : K) < 1 / (100000 : ℕ) := by positivity
  simp only [gatedCost]
  split
  · exact le_rfl
  · split
    · exact le_rfl
    · linarith

omit [IsStrictOrderedRing K] in
/-- What is above the limit has one and the same cost. -/
lemma gatedCost_eq_of_lt {t : Track S K} {detection : DetectionRow K} (h : maxDistance < gatedCost maxDistance t detection) :
    gatedCost maxDistance t detection = maxDistance + 1 / (100000 : ℕ) := by
  simp only [gatedCost] at h ⊢
  split
  · rfl
  · rename_i htype
    rw [if_neg htype] at h
    split
    · rfl
    · rename_i hle
      rw [if_neg hle] at h
      exact absurd h hle

/-- A pair within the limit is of one class and overlaps enough. -/
lemma of_gatedCost_le {t : Track S K} {detection : DetectionRow K} (h : ¬maxDistance < gatedCost maxDistance t detection) :
    t.type = judgeObjectType detection.type ∧ 1 - calculateIou t.lastestBboxTlwh detection.tlwh ≤ maxDistance := by
  have hgate : maxDistance < maxDistance + 1 / (100000 : ℕ) := lt_add_of_pos_right _ (by positivity)
  simp only [gatedCost] at h
  split at h
  · exact absurd hgate h
  · rename_i htype
    split at h
    · exact absurd hgate h
    · exact ⟨not_not.mp htype, not_lt.mp h⟩

end

/-! ## The matching -/

section
variable {S K : Type} [Field K] [LinearOrder K] [IsStrictOrderedRing K] [Archimedean K] {maxDistance : K}
  {tracks : List (Track S K)} {detections : List (DetectionRow K)} {trackIndices : List (Fin tracks.length)}
  {detectionIndices : List (Fin detections.length)}

/-- The loops and the conversion of the pairs, when neither list is empty. -/
lemma doMinCostMatching_of_ne (h : ¬(detectionIndices.length = 0 ∨ trackIndices.length = 0)) :
    let cost := costMatrix maxDistance tracks detections trackIndices detectionIndices
    let matched := (hungarianPairs cost).filter fun p => !decide (maxDistance < cost p.1 p.2)
    let gated := (hungarianPairs cost).filter fun p => decide (maxDistance < cost p.1 p.2)
    doMinCostMatching maxDistance tracks detections trackIndices detectionIndices =
      { matched := matched.map fun p => (trackIndices.get p.1, detectionIndices.get p.2)
        unmatchedTracks :=
          (((List.finRange trackIndices.length).filter fun row => row ∉ (hungarianPairs cost).map Prod.fst) ++
            gated.map Prod.fst).map trackIndices.get
        unmatchedDetections :=
          (((List.finRange detectionIndices.length).filter fun col => col ∉ (hungarianPairs cost).map Prod.snd) ++
            gated.map Prod.snd).map detectionIndices.get } := by
  dsimp only
  rw [doMinCostMatching, if_neg h]
  simp only [List.map_append, List.map_map, decide_not]
  rfl

/-- Each track of the list is matched or unmatched, and so is each detection. -/
lemma doMinCostMatching_perm (maxDistance : K) (tracks : List (Track S K)) (detections : List (DetectionRow K))
    (trackIndices : List (Fin tracks.length)) (detectionIndices : List (Fin detections.length)) :
    let r := doMinCostMatching maxDistance tracks detections trackIndices detectionIndices
    (r.matched.map Prod.fst ++ r.unmatchedTracks).Perm trackIndices ∧
      (r.matched.map Prod.snd ++ r.unmatchedDetections).Perm detectionIndices := by
  by_cases h : detectionIndices.length = 0 ∨ trackIndices.length = 0
  · rw [doMinCostMatching, if_pos h]
    exact ⟨.refl _, .refl _⟩
  · have hassignment := isAssignment_hungarianPairs (costMatrix maxDistance tracks detections trackIndices detectionIndices)
    rw [doMinCostMatching_of_ne h]
    constructor
    · have hsplit := (split_perm hassignment.rows (List.nodup_finRange _) (List.mem_finRange) fun p => decide
        (maxDistance < costMatrix maxDistance tracks detections trackIndices detectionIndices p.1 p.2)).map trackIndices.get
      rw [List.map_get_finRange, List.map_append, List.map_map] at hsplit
      rw [List.map_map]
      exact hsplit
    · have hsplit := (split_perm hassignment.cols (List.nodup_finRange _) (List.mem_finRange) fun p => decide
        (maxDistance < costMatrix maxDistance tracks detections trackIndices detectionIndices p.1 p.2)).map
          detectionIndices.get
      rw [List.map_get_finRange, List.map_append, List.map_map] at hsplit
      rw [List.map_map]
      exact hsplit

/-- Matched pairs are of one class, and within the limit. -/
lemma of_mem_matched {p : Fin tracks.length × Fin detections.length}
    (hp : p ∈ (doMinCostMatching maxDistance tracks detections trackIndices detectionIndices).matched) :
    (tracks.get p.1).type = judgeObjectType (detections.get p.2).type ∧
      1 - calculateIou (tracks.get p.1).lastestBboxTlwh (detections.get p.2).tlwh ≤ maxDistance := by
  by_cases h : detectionIndices.length = 0 ∨ trackIndices.length = 0
  · rw [doMinCostMatching, if_pos h] at hp
    cases hp
  · rw [doMinCostMatching_of_ne h] at hp
    obtain ⟨q, hq, rfl⟩ := List.mem_map.mp hp
    refine of_gatedCost_le fun hlt => ?_
    have hnot := (List.mem_filter.mp hq).2
    rw [Bool.not_eq_true', decide_eq_false_iff_not] at hnot
    exact hnot hlt

/-- What a pair of a track and a detection gains: nothing if it may not be matched. -/
def gain (maxDistance : K) (tracks : List (Track S K)) (detections : List (DetectionRow K)) (i : Fin tracks.length)
    (j : Fin detections.length) : K :=
  maxDistance + 1 / (100000 : ℕ) - gatedCost maxDistance (tracks.get i) (detections.get j)

/-- The pairs are a matching of the two lists. -/
structure IsPairing {m n : ℕ} (trackIndices : List (Fin m)) (detectionIndices : List (Fin n))
    (pairs : List (Fin m × Fin n)) : Prop where
  tracks : (pairs.map Prod.fst).Nodup
  detections : (pairs.map Prod.snd).Nodup
  mem : ∀ p ∈ pairs, p.1 ∈ trackIndices ∧ p.2 ∈ detectionIndices

omit [Field K] [LinearOrder K] [IsStrictOrderedRing K] [Archimedean K] in
/-- A matching of the lists as the positions in these. -/
lemma IsPairing.exists_positions {pairs : List (Fin tracks.length × Fin detections.length)}
    (h : IsPairing trackIndices detectionIndices pairs) :
    ∃ positions : List (Fin trackIndices.length × Fin detectionIndices.length),
      positions.map (fun p => (trackIndices.get p.1, detectionIndices.get p.2)) = pairs ∧
        (positions.map Prod.fst).Nodup ∧ (positions.map Prod.snd).Nodup := by
  have hrange : pairs ∈ Set.range (List.map fun p : Fin trackIndices.length × Fin detectionIndices.length =>
      (trackIndices.get p.1, detectionIndices.get p.2)) := by
    rw [Set.range_list_map]
    intro p hp
    obtain ⟨hi, hj⟩ := h.mem p hp
    obtain ⟨i, hi⟩ := List.mem_iff_get.mp hi
    obtain ⟨j, hj⟩ := List.mem_iff_get.mp hj
    exact ⟨(i, j), Prod.ext hi hj⟩
  obtain ⟨positions, rfl⟩ := hrange
  refine ⟨positions, rfl, ?_, ?_⟩
  · have hnodup := h.tracks
    rw [List.map_map] at hnodup
    refine List.Nodup.of_map trackIndices.get ?_
    rw [List.map_map]
    exact hnodup
  · have hnodup := h.detections
    rw [List.map_map] at hnodup
    refine List.Nodup.of_map detectionIndices.get ?_
    rw [List.map_map]
    exact hnodup

omit [LinearOrder K] [IsStrictOrderedRing K] [Archimedean K] in
lemma total_map {ρ κ ρ' κ' : Type} (f : ρ → ρ') (g : κ → κ') (cost : ρ' → κ' → K) (pairs : List (ρ × κ)) :
    total cost (pairs.map fun p => (f p.1, g p.2)) = total (fun i j => cost (f i) (g j)) pairs := by
  rw [total, total, List.map_map]
  rfl

/-- No matching of the tracks and detections gains more than the matched pairs. -/
lemma total_gain_le_matched (hmax : 0 < maxDistance) (htracks : ∀ t ∈ tracks, t.lastestBboxTlwh.Proper)
    (hdetections : ∀ d ∈ detections, d.tlwh.Proper) {pairs : List (Fin tracks.length × Fin detections.length)}
    (hpairs : IsPairing trackIndices detectionIndices pairs) :
    total (gain maxDistance tracks detections) pairs ≤ total (gain maxDistance tracks detections)
      (doMinCostMatching maxDistance tracks detections trackIndices detectionIndices).matched := by
  by_cases h : detectionIndices.length = 0 ∨ trackIndices.length = 0
  · have hnil : pairs = [] := by
      refine List.eq_nil_iff_forall_not_mem.mpr fun p hp => ?_
      obtain ⟨hi, hj⟩ := hpairs.mem p hp
      rcases h with h | h
      · rw [List.length_eq_zero_iff.mp h] at hj
        cases hj
      · rw [List.length_eq_zero_iff.mp h] at hi
        cases hi
    rw [hnil, doMinCostMatching, if_pos h]
  · let cost := costMatrix maxDistance tracks detections trackIndices detectionIndices
    have hcost : ∀ r c, 0 ≤ cost r c := fun r c =>
      gatedCost_nonneg hmax (htracks _ (List.get_mem _ _)) (hdetections _ (List.get_mem _ _))
    have hassignment := isAssignment_hungarianPairs cost
    obtain ⟨positions, rfl, hrows, hcols⟩ := hpairs.exists_positions
    have hgain := hassignment.gain_le (fun _ => total_hungarianPairs_le cost hcost)
      (fun i j => gatedCost_le _ _) hrows hcols
    rw [doMinCostMatching_of_ne h, total_map, total_map]
    refine hgain.trans_eq (total_filter_of_zero _ _ fun p _ hgated => ?_).symm
    rw [Bool.not_eq_false', decide_eq_true_eq] at hgated
    exact sub_eq_zero.mpr (gatedCost_eq_of_lt hgated).symm

/-- For boxes with an area, `DoMinCostMatching` divides the tracks and the detections into matched and unmatched ones. Its
pairs are of one class and within the limit, and no other matching of the lists gains more. -/
theorem doMinCostMatching_optimal (maxDistance : K) (tracks : List (Track S K)) (detections : List (DetectionRow K))
    (trackIndices : List (Fin tracks.length)) (detectionIndices : List (Fin detections.length))
    (ht : ∀ t ∈ tracks, t.lastestBboxTlwh.Proper) (hd : ∀ d ∈ detections, d.tlwh.Proper) :
    let r := doMinCostMatching maxDistance tracks detections trackIndices detectionIndices
    (r.matched.map Prod.fst ++ r.unmatchedTracks).Perm trackIndices ∧
      (r.matched.map Prod.snd ++ r.unmatchedDetections).Perm detectionIndices ∧
      (∀ p ∈ r.matched, (tracks.get p.1).type = judgeObjectType (detections.get p.2).type ∧
        1 - calculateIou (tracks.get p.1).lastestBboxTlwh (detections.get p.2).tlwh ≤ maxDistance) ∧
      (0 < maxDistance → ∀ pairs, IsPairing trackIndices detectionIndices pairs →
        total (gain maxDistance tracks detections) pairs ≤ total (gain maxDistance tracks detections) r.matched) := by
  obtain ⟨htracks, hdetections⟩ := doMinCostMatching_perm maxDistance tracks detections trackIndices detectionIndices
  exact ⟨htracks, hdetections, fun p hp => of_mem_matched hp,
    fun hmax pairs hpairs => total_gain_le_matched hmax ht hd hpairs⟩

end

/-- A track with a box of 20 by 10 at `x`, and a detection of its class. -/
def trackAt (x : ℚ) : Track Unit ℚ := Track.create () 1 3 70 ⟨⟨x, 10, 20, 10⟩, 9 / 10, 0⟩ 0

def detectionAt (x : ℚ) : DetectionRow ℚ := ⟨⟨x, 10, 20, 10⟩, 9 / 10, 1⟩

/-- The second track and the first detection are the nearest pair, but leave nothing for the others. The matching gains
as much as the two pairs without them. -/
theorem doMinCostMatching_optimal_twoTracks :
    let g := gain (7 / 10) [trackAt 20, trackAt 27] [detectionAt 24, detectionAt 31]
    total g [(1, 0)] < total g [(0, 0), (1, 1)] ∧ total g [(0, 0), (1, 1)] ≤
      total g (doMinCostMatching (7 / 10) [trackAt 20, trackAt 27] [detectionAt 24, detectionAt 31] [0, 1] [0, 1]).matched :=
  ⟨by decide +kernel, (doMinCostMatching_optimal (7 / 10 : ℚ) [trackAt 20, trackAt 27] [detectionAt 24, detectionAt 31]
    [0, 1] [0, 1] (by simp [Bbox.Proper, trackAt, Track.create]) (by simp [Bbox.Proper, detectionAt])).2.2.2 (by norm_num)
    [(0, 0), (1, 1)] ⟨by decide, by decide, by decide⟩⟩

end MediaAgent.Camera
