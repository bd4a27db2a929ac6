import MediaAgent.LinearAssignment

/-!
# The tracker library

`byte_track.cpp` of the tracker library, from the detections of a frame to the list of tracks, as its adapter calls it.
-/

namespace MediaAgent.Camera

/-- `MAX_OBJECT_ID` -/
def kMaxObjectId : Int := 65533

/-- The id of the track with a serial. -/
def idOf (serial : Nat) : Int := serial % kMaxObjectId + 1

/-- `camera::ByteTracker`; `born`, which the source does not have, counts the tracks that were created. -/
structure ByteTracker (S K : Type) where
  minThresh : K
  highThresh : K
  highThreshPerson : K
  highThreshMotorbike : K
  maxIouDistance : K
  maxAge : Int
  nInit : Int
  tracks : List (Track S K) := []
  nextIdx : Int := 1
  born : Nat := 0

/-- `static_cast<int>` of the id of a node. -/
def nodeId (node : TrackNode) : Int := node.id.toInt32.toInt

/-- The loops that set the state of the nodes with an id: of all of them, and of the first one. -/
def deleteNodes (id : Int) (trackList : List TrackNode) : List TrackNode :=
  trackList.map fun node => if nodeId node = id then { node with state := .delete } else node

def deleteFirstNode (id : Int) : List TrackNode → List TrackNode
  | [] => []
  | node :: trackList =>
    if nodeId node = id then { node with state := .delete } :: trackList else node :: deleteFirstNode id trackList

/-- The loop that writes to the node with an id, or appends one. -/
def writeNode (id : Int) (write : TrackNode → TrackNode) : List TrackNode → List TrackNode
  | [] => [write { id := 4294967295 }]
  | node :: trackList =>
    if nodeId node = id then write node :: trackList else node :: writeNode id write trackList

namespace ByteTracker
variable {S K : Type} [Field K] [LinearOrder K] [IsStrictOrderedRing K] [Archimedean K] (kf : KalmanFilter S K)
  (store : K → F32) (b : ByteTracker S K) (detections : List (DetectionRow K))

def predict : ByteTracker S K := { b with tracks := b.tracks.map (Track.predict kf) }

def detectionsHigh : List (Fin detections.length) :=
  (List.finRange detections.length).filter fun i => b.minThresh ≤ (detections.get i).confidence

def detectionsLow : List (Fin detections.length) :=
  (List.finRange detections.length).filter fun i => ¬b.minThresh ≤ (detections.get i).confidence

/-- The candidates of the first matching. -/
def iouTrackCandidates : List (Fin b.tracks.length) :=
  (List.finRange b.tracks.length).filter fun i => (b.tracks.get i).state ≠ .deleted

def matchHigh : MatchResult b.tracks.length detections.length :=
  doMinCostMatching b.maxIouDistance b.tracks detections b.iouTrackCandidates (b.detectionsHigh detections)

/-- The second matching, of the detections with a low confidence to the confirmed tracks that are left. -/
def matchLow : MatchResult b.tracks.length detections.length :=
  doMinCostMatching b.maxIouDistance b.tracks detections
    ((b.matchHigh detections).unmatchedTracks.filter fun i => (b.tracks.get i).state = .confirmed)
    (b.detectionsLow detections)

/-- `Match` -/
def matchDetections : MatchResult b.tracks.length detections.length where
  matched := (b.matchHigh detections).matched ++ (b.matchLow detections).matched
  unmatchedTracks :=
    ((b.matchHigh detections).unmatchedTracks.filter fun i => (b.tracks.get i).state ≠ .confirmed) ++
      (b.matchLow detections).unmatchedTracks
  unmatchedDetections := (b.matchHigh detections).unmatchedDetections

/-- Whether an unmatched detection is confident enough for a new track. -/
def isInit (detection : DetectionRow K) : Bool :=
  if detection.type = 3 then b.highThreshPerson ≤ detection.confidence
  else if detection.type = 4 ∨ detection.type = 5 then b.highThreshMotorbike ≤ detection.confidence
  else b.highThresh ≤ detection.confidence

def initTrack (detection : DetectionRow K) : ByteTracker S K :=
  { b with
    tracks := b.tracks ++
      [Track.create (kf.initiate detection.toCxcywh) b.nextIdx b.nInit b.maxAge detection b.born]
    nextIdx := b.nextIdx % kMaxObjectId + 1
    born := b.born + 1 }

/-- The loops of `Update` over the matched and the unmatched tracks. -/
def updateTracks (r : MatchResult b.tracks.length detections.length) : List (Track S K) :=
  r.unmatchedTracks.foldl (fun tracks (i : Fin b.tracks.length) => tracks.modify i.val Track.markMissed)
    (r.matched.foldl (fun tracks p => tracks.modify p.1.val fun t => t.update kf (detections.get p.2)) b.tracks)

/-- `Update` up to the loop that erases tracks. -/
def updated : ByteTracker S K :=
  let r := b.matchDetections detections
  r.unmatchedDetections.foldl
    (fun b j => if b.isInit (detections.get j) then b.initTrack kf (detections.get j) else b)
    { b with tracks := b.updateTracks kf detections r }

/-- `Update` -/
def update (trackList : List TrackNode) : ByteTracker S K × List TrackNode :=
  let b := b.updated kf detections
  ({ b with tracks := b.tracks.filter fun t => t.state ≠ .deleted },
    (b.tracks.filter fun t => t.state = .deleted).foldl (fun trackList t => deleteNodes t.trackId trackList) trackList)

/-- A track in the last loop of `Process`. -/
def listTrack (trackList : List TrackNode) (t : Track S K) : List TrackNode :=
  if t.state ≠ .confirmed then trackList
  else if kTimeSinceUpdate ≤ t.timeSinceUpdate then deleteFirstNode t.trackId trackList
  else writeNode t.trackId (t.initTrackNode kf store) trackList

def listedTrack (t : Track S K) : Track S K :=
  if t.state = .confirmed ∧ ¬kTimeSinceUpdate ≤ t.timeSinceUpdate then t.initedTrackNode kf else t

/-- `Process` -/
def process (trackList : List TrackNode) : ByteTracker S K × List TrackNode :=
  let r := (b.predict kf).update kf detections trackList
  ({ r.1 with tracks := r.1.tracks.map (listedTrack kf) }, r.1.tracks.foldl (listTrack kf store) r.2)

end ByteTracker

/-! ## One call for each track -/

section
variable {S K : Type} [Field K] [LinearOrder K] (kf : KalmanFilter S K)

/-- The part of a track that it is created with. -/
structure SameTrack (t t' : Track S K) : Prop where
  serial : t'.serial = t.serial
  trackId : t'.trackId = t.trackId
  nInit : t'.nInit = t.nInit
  maxAge : t'.maxAge = t.maxAge

omit [Field K] [LinearOrder K] in
lemma SameTrack.trans {t u v : Track S K} (h : SameTrack t u) (h' : SameTrack u v) : SameTrack t v :=
  ⟨h'.serial.trans h.serial, h'.trackId.trans h.trackId, h'.nInit.trans h.nInit, h'.maxAge.trans h.maxAge⟩

lemma sameTrack_predict (t : Track S K) : SameTrack t (t.predict kf) := by
  unfold Track.predict
  dsimp only
  split <;> exact ⟨rfl, rfl, rfl, rfl⟩

omit [LinearOrder K] in
lemma sameTrack_update (t : Track S K) (detection : DetectionRow K) : SameTrack t (t.update kf detection) := by
  unfold Track.update
  dsimp only
  split <;> exact ⟨rfl, rfl, rfl, rfl⟩

omit [Field K] [LinearOrder K] in
lemma sameTrack_markMissed (t : Track S K) : SameTrack t t.markMissed := by
  unfold Track.markMissed
  split
  · exact ⟨rfl, rfl, rfl, rfl⟩
  · split <;> exact ⟨rfl, rfl, rfl, rfl⟩

lemma lastestBboxTlwh_predict (t : Track S K) : (t.predict kf).lastestBboxTlwh = t.lastestBboxTlwh := by
  unfold Track.predict
  dsimp only
  split <;> rfl

omit [LinearOrder K] in
lemma lastestBboxTlwh_update (t : Track S K) (detection : DetectionRow K) :
    (t.update kf detection).lastestBboxTlwh = t.lastestBboxTlwh := by
  unfold Track.update
  dsimp only
  split <;> rfl

omit [Field K] [LinearOrder K] in
lemma lastestBboxTlwh_markMissed (t : Track S K) : t.markMissed.lastestBboxTlwh = t.lastestBboxTlwh := by
  unfold Track.markMissed
  split
  · rfl
  · split <;> rfl

lemma predict_of_ne_deleted {t : Track S K} (h : (t.predict kf).state ≠ .deleted) :
    (t.predict kf).state = t.state ∧ (t.predict kf).timeSinceUpdate = t.timeSinceUpdate + 1 ∧
      (t.predict kf).hits = t.hits ∧ (t.predict kf).latestDetection = t.latestDetection := by
  unfold Track.predict at h ⊢
  dsimp only at h ⊢
  split
  · rename_i hout
    rw [if_pos hout] at h
    exact absurd rfl h
  · exact ⟨rfl, rfl, rfl, rfl⟩

/-- What a call makes of a track that it keeps: it is matched, or confirmed and below its maximal age. -/
inductive Turned (detections : List (DetectionRow K)) (t t' : Track S K) : Prop
  | matched (detection : DetectionRow K) (hmem : detection ∈ detections) (hage : t'.timeSinceUpdate = 0)
      (hhits : t'.hits = t.hits + 1) (hlatest : t'.latestDetection = detection)
      (hstate : t'.state = t.state ∨ t.state = .tentative ∧ t'.state = .confirmed)
      (hconfirmed : t.state = .tentative → t'.state = .confirmed → t.nInit ≤ t'.hits)
  | missed (hconfirmed : t.state = .confirmed ∧ t'.state = .confirmed) (hage : t'.timeSinceUpdate = t.timeSinceUpdate + 1)
      (hmax : t'.timeSinceUpdate < t.maxAge) (hhits : t'.hits = t.hits) (hlatest : t'.latestDetection = t.latestDetection)

lemma turned_update {detections : List (DetectionRow K)} {t : Track S K} (h : (t.predict kf).state ≠ .deleted)
    {detection : DetectionRow K} (hd : detection ∈ detections) :
    Turned detections t ((t.predict kf).update kf detection) := by
  obtain ⟨hstate, -, hhits, -⟩ := predict_of_ne_deleted kf h
  have hsame := sameTrack_predict kf t
  unfold Track.update
  dsimp only
  split
  · rename_i hcond
    obtain ⟨htent, hle⟩ := hcond
    refine .matched detection hd rfl ?_ rfl (.inr ⟨by rw [← hstate]; exact htent, rfl⟩) fun _ _ => ?_
    · exact congrArg (· + 1) hhits
    · rw [← hsame.nInit]
      exact hle
  · rename_i hcond
    refine .matched detection hd rfl ?_ rfl (.inl hstate) fun htent hconf => ?_
    · exact congrArg (· + 1) hhits
    · have hconf' : (t.predict kf).state = .confirmed := hconf
      rw [hstate, htent] at hconf'
      cases hconf'

lemma turned_markMissed {detections : List (DetectionRow K)} {t : Track S K} (h : (t.predict kf).state ≠ .deleted)
    (hmissed : (t.predict kf).markMissed.state ≠ .deleted) :
    Turned detections t (t.predict kf).markMissed := by
  obtain ⟨hstate, hage, hhits, hlatest⟩ := predict_of_ne_deleted kf h
  have hmax : (t.predict kf).maxAge = t.maxAge := (sameTrack_predict kf t).maxAge
  unfold Track.markMissed at hmissed ⊢
  split
  · rename_i htent
    rw [if_pos htent] at hmissed
    exact absurd rfl hmissed
  · rename_i htent
    rw [if_neg htent] at hmissed
    split
    · rename_i hold
      rw [if_pos hold] at hmissed
      exact absurd rfl hmissed
    · rename_i hold
      have hconf : (t.predict kf).state = .confirmed := by
        cases hs : (t.predict kf).state with
        | tentative => exact absurd hs htent
        | confirmed => rfl
        | deleted => exact absurd hs h
      refine .missed ⟨hstate ▸ hconf, hconf⟩ hage ?_ hhits hlatest
      rw [← hmax]
      exact not_le.mp hold

end

/-! ## The two matchings -/

lemma perm_filter_append_filter_not {α : Type} (p : α → Prop) [DecidablePred p] (l : List α) :
    (l.filter p ++ l.filter fun x => ¬p x).Perm l := by
  simpa only [decide_not] using List.filter_append_perm (fun x => decide (p x)) l

/-- A fold that modifies each place at most once. -/
lemma getElem?_foldl_modify {γ α : Type} (place : γ → ℕ) (f : γ → α → α) {items : List γ}
    (h : (items.map place).Nodup) (l : List α) (i : ℕ) :
    (items.foldl (fun l x => l.modify (place x) (f x)) l)[i]? =
      match items.find? (fun x => place x = i) with
      | some x => l[i]?.map (f x)
      | none => l[i]? := by
  induction items generalizing l with
  | nil => rfl
  | cons x items ih =>
    obtain ⟨hx, hitems⟩ := List.nodup_cons.mp h
    rw [List.foldl_cons, ih hitems, List.getElem?_modify]
    by_cases hi : place x = i
    · have hnone : items.find? (fun x => place x = i) = none := by
        refine List.find?_eq_none.mpr fun y hy hyi => hx ?_
        rw [hi, ← of_decide_eq_true hyi]
        exact List.mem_map_of_mem hy
      simp [hnone, hi]
    · rw [List.find?_cons_of_neg (by simpa using hi)]
      simp [hi]

namespace ByteTracker
variable {S K : Type} [Field K] [LinearOrder K] [IsStrictOrderedRing K] [Archimedean K] (kf : KalmanFilter S K)
  (store : K → F32) (b : ByteTracker S K) (detections : List (DetectionRow K))

/-- The two matchings divide the tracks that are not deleted into matched and unmatched ones. -/
lemma matchDetections_tracks :
    ((b.matchDetections detections).matched.map Prod.fst ++ (b.matchDetections detections).unmatchedTracks).Perm
      b.iouTrackCandidates := by
  have hhigh := (doMinCostMatching_perm b.maxIouDistance b.tracks detections b.iouTrackCandidates
    (b.detectionsHigh detections)).1
  have hlow := (doMinCostMatching_perm b.maxIouDistance b.tracks detections
    ((b.matchHigh detections).unmatchedTracks.filter fun i => (b.tracks.get i).state = .confirmed)
    (b.detectionsLow detections)).1
  have hsplit := perm_filter_append_filter_not (fun i => (b.tracks.get i).state = .confirmed)
    (b.matchHigh detections).unmatchedTracks
  refine List.Perm.trans ?_ hhigh
  simp only [matchDetections, List.map_append, List.append_assoc]
  refine List.Perm.append_left _ (List.Perm.trans ?_ hsplit)
  refine List.Perm.trans ?_ (hlow.append_right _)
  rw [List.append_assoc]
  exact List.Perm.append_left _ List.perm_append_comm

/-- Each detection is matched at most once, and an unmatched one for a new track is confident and not matched. -/
lemma matchDetections_detections :
    ((b.matchDetections detections).matched.map Prod.snd ++ ((b.matchDetections detections).unmatchedDetections ++
      (b.matchLow detections).unmatchedDetections)).Perm (List.finRange detections.length) := by
  have hhigh := (doMinCostMatching_perm b.maxIouDistance b.tracks detections b.iouTrackCandidates
    (b.detectionsHigh detections)).2
  have hlow := (doMinCostMatching_perm b.maxIouDistance b.tracks detections
    ((b.matchHigh detections).unmatchedTracks.filter fun i => (b.tracks.get i).state = .confirmed)
    (b.detectionsLow detections)).2
  refine List.Perm.trans ?_ (perm_filter_append_filter_not (fun i => b.minThresh ≤ (detections.get i).confidence)
    (List.finRange detections.length))
  refine List.Perm.trans ?_ (hhigh.append hlow)
  simp only [matchDetections, List.map_append, List.append_assoc]
  refine List.Perm.append_left _ ?_
  rw [← List.append_assoc, ← List.append_assoc]
  exact List.Perm.append_right _ List.perm_append_comm

/-- The track at a place after the loops over the matched and the unmatched tracks. -/
def outcome (i : Fin b.tracks.length) : Track S K :=
  match (b.matchDetections detections).matched.find? fun p => p.1 = i with
  | some p => (b.tracks.get i).update kf (detections.get p.2)
  | none => if i ∈ (b.matchDetections detections).unmatchedTracks then (b.tracks.get i).markMissed else b.tracks.get i

lemma updateTracks_eq :
    b.updateTracks kf detections (b.matchDetections detections) =
      (List.finRange b.tracks.length).map (b.outcome kf detections) := by
  have hnodup : ((b.matchDetections detections).matched.map Prod.fst ++
      (b.matchDetections detections).unmatchedTracks).Nodup :=
    (b.matchDetections_tracks detections).nodup_iff.mpr ((List.nodup_finRange _).filter _)
  obtain ⟨hmatched, hunmatched, hdisjoint⟩ := List.nodup_append.mp hnodup
  have hplaces : ((b.matchDetections detections).matched.map fun p => (p.1 : ℕ)).Nodup := by
    have := hmatched.map Fin.val_injective
    rwa [List.map_map] at this
  have hplaces' : ((b.matchDetections detections).unmatchedTracks.map fun k : Fin b.tracks.length => (k : ℕ)).Nodup :=
    hunmatched.map Fin.val_injective
  refine List.ext_getElem? fun i => ?_
  rw [updateTracks, getElem?_foldl_modify (fun k : Fin b.tracks.length => (k : ℕ)) (fun _ => Track.markMissed) hplaces',
    getElem?_foldl_modify (fun p : Fin b.tracks.length × Fin detections.length => (p.1 : ℕ))
      (fun p (t : Track S K) => t.update kf (detections.get p.2)) hplaces]
  by_cases hi : i < b.tracks.length
  · have hget : b.tracks[i]? = some (b.tracks.get ⟨i, hi⟩) := List.getElem?_eq_getElem hi
    have hfin : ∀ k : Fin b.tracks.length, ((k : ℕ) = i) = (k = ⟨i, hi⟩) := fun k => by rw [Fin.ext_iff]
    have hright : ((List.finRange b.tracks.length).map (b.outcome kf detections))[i]? =
        some (b.outcome kf detections ⟨i, hi⟩) := by
      rw [List.getElem?_map, List.getElem?_eq_getElem (by simpa using hi), List.getElem_finRange]
      rfl
    rw [hright, outcome]
    simp only [hfin, hget]
    cases hfind : (b.matchDetections detections).matched.find? fun p => p.1 = ⟨i, hi⟩ with
    | some p =>
      have hp : p.1 = ⟨i, hi⟩ := by simpa using List.find?_some hfind
      have hmem := List.mem_map_of_mem (f := Prod.fst) (List.mem_of_find?_eq_some hfind)
      have hnone : (b.matchDetections detections).unmatchedTracks.find? (fun k => k = ⟨i, hi⟩) = none := by
        refine List.find?_eq_none.mpr fun k hk heq => hdisjoint _ hmem k hk ?_
        rw [hp, of_decide_eq_true heq]
      rw [hnone]
      rfl
    | none =>
      by_cases hmem : (⟨i, hi⟩ : Fin b.tracks.length) ∈ (b.matchDetections detections).unmatchedTracks
      · have hsome : ((b.matchDetections detections).unmatchedTracks.find? fun k => k = ⟨i, hi⟩).isSome = true := by
          rw [List.find?_isSome]
          exact ⟨_, hmem, by simp⟩
        obtain ⟨k, hk⟩ := Option.isSome_iff_exists.mp hsome
        rw [hk, if_pos hmem]
        rfl
      · have hnone : (b.matchDetections detections).unmatchedTracks.find? (fun k => k = ⟨i, hi⟩) = none :=
          List.find?_eq_none.mpr fun k hk heq => hmem (of_decide_eq_true heq ▸ hk)
        rw [hnone, if_neg hmem]
  · have hget : b.tracks[i]? = none := List.getElem?_eq_none (not_lt.mp hi)
    have hright : ((List.finRange b.tracks.length).map (b.outcome kf detections))[i]? = none :=
      List.getElem?_eq_none (by simpa using not_lt.mp hi)
    rw [hright]
    simp only [hget, Option.map_none]
    split
    · split <;> rfl
    · split <;> rfl

/-! ## One call -/

/-- The tracks after the loops over the matched and the unmatched tracks, the deleted ones still among them. -/
def outcomes : List (Track S K) :=
  (List.finRange (b.predict kf).tracks.length).map ((b.predict kf).outcome kf detections)

/-- What a call makes of a track. -/
structure Outcome (detections : List (DetectionRow K)) (t t' : Track S K) : Prop where
  same : SameTrack t t'
  box : t'.lastestBboxTlwh = t.lastestBboxTlwh
  turned : t'.state ≠ .deleted → Turned detections t t'

lemma outcome_outcome (i : Fin (b.predict kf).tracks.length) {t : Track S K}
    (ht : (b.predict kf).tracks.get i = t.predict kf) :
    Outcome detections t ((b.predict kf).outcome kf detections i) := by
  have hsame := sameTrack_predict kf t
  have hbox := lastestBboxTlwh_predict kf t
  have hperm := (b.predict kf).matchDetections_tracks detections
  have hcandidate : ∀ {k}, k ∈ (b.predict kf).iouTrackCandidates ↔ ((b.predict kf).tracks.get k).state ≠ .deleted := by
    intro k
    simp [iouTrackCandidates]
  rw [outcome]
  split
  · rename_i p hp
    have hpi : p.1 = i := by simpa using List.find?_some hp
    have hlive := hcandidate.mp (hperm.mem_iff.mp (List.mem_append_left _
      (List.mem_map_of_mem (List.mem_of_find?_eq_some hp))))
    rw [hpi, ht] at hlive
    rw [ht]
    exact ⟨hsame.trans (sameTrack_update kf _ _), (lastestBboxTlwh_update kf _ _).trans hbox,
      fun _ => turned_update kf hlive (List.get_mem _ _)⟩
  · split
    · rename_i hun
      have hlive := hcandidate.mp (hperm.mem_iff.mp (List.mem_append_right _ hun))
      rw [ht] at hlive ⊢
      exact ⟨hsame.trans (sameTrack_markMissed _), (lastestBboxTlwh_markMissed _).trans hbox,
        fun hmissed => turned_markMissed kf hlive hmissed⟩
    · rename_i hnone hun
      refine ⟨by rw [ht]; exact hsame, by rw [ht]; exact hbox, fun hlive => ?_⟩
      rcases List.mem_append.mp (hperm.mem_iff.mpr (hcandidate.mpr hlive)) with hm | hm
      · obtain ⟨p, hp, hpi⟩ := List.mem_map.mp hm
        exact absurd (decide_eq_true hpi) (List.find?_eq_none.mp hnone p hp)
      · exact absurd hm hun

/-- Each track has its outcome, in the same order. -/
lemma forall₂_outcomes : List.Forall₂ (Outcome detections) b.tracks (b.outcomes kf detections) := by
  have hlength : (b.predict kf).tracks.length = b.tracks.length := List.length_map _
  refine List.forall₂_iff_get.mpr ⟨by rw [outcomes, List.length_map, List.length_finRange, hlength], fun i hi hi' => ?_⟩
  have hip : i < (b.predict kf).tracks.length := by rwa [hlength]
  have hget : (b.outcomes kf detections).get ⟨i, hi'⟩ = (b.predict kf).outcome kf detections ⟨i, hip⟩ := by
    simp [outcomes]
  rw [hget]
  refine b.outcome_outcome kf detections ⟨i, hip⟩ ?_
  simp [predict]

/-- A new track of a call. -/
structure Created (b : ByteTracker S K) (detections : List (DetectionRow K)) (t : Track S K) : Prop where
  tentative : t.state = .tentative
  age : t.timeSinceUpdate = 0
  hits : t.hits = 1
  trackId : t.trackId = idOf t.serial
  args : t.nInit = b.nInit ∧ t.maxAge = b.maxAge
  detection : t.latestDetection ∈ detections ∧ t.lastestBboxTlwh = t.latestDetection.tlwh ∧ b.isInit t.latestDetection = true

lemma idOf_succ (serial : Nat) : idOf serial % kMaxObjectId + 1 = idOf (serial + 1) := by
  simp only [idOf, kMaxObjectId]
  omega

omit [IsStrictOrderedRing K] [Archimedean K] in
/-- The loop over the unmatched detections. -/
lemma foldl_initTrack (h : b.nextIdx = idOf b.born) (js : List (Fin detections.length)) :
    ∃ news, js.foldl (fun b j => if b.isInit (detections.get j) then b.initTrack kf (detections.get j) else b) b =
        { b with
          tracks := b.tracks ++ news
          nextIdx := idOf (b.born + news.length)
          born := b.born + news.length } ∧
      news.map Track.serial = List.range' b.born news.length ∧ ∀ t ∈ news, Created b detections t := by
  induction js generalizing b with
  | nil => exact ⟨[], by simp [← h], rfl, fun t ht => by cases ht⟩
  | cons j js ih =>
    rw [List.foldl_cons]
    by_cases hj : b.isInit (detections.get j) = true
    · rw [if_pos hj]
      have hnext : (b.initTrack kf (detections.get j)).nextIdx = idOf (b.initTrack kf (detections.get j)).born := by
        rw [initTrack, h]
        exact idOf_succ b.born
      obtain ⟨news, hnews, hserial, hcreated⟩ := ih _ hnext
      let t := Track.create (kf.initiate (detections.get j).toCxcywh) b.nextIdx b.nInit b.maxAge (detections.get j) b.born
      refine ⟨t :: news, ?_, ?_, fun u hu => ?_⟩
      · rw [hnews]
        simp [initTrack, t, Nat.add_assoc, Nat.add_comm 1]
      · rw [List.map_cons, hserial, List.length_cons, List.range'_succ]
        rfl
      · rcases List.mem_cons.mp hu with rfl | hu
        · exact ⟨rfl, rfl, rfl, h, ⟨rfl, rfl⟩, List.get_mem _ _, rfl, hj⟩
        · obtain ⟨h₁, h₂, h₃, h₄, h₅, h₆⟩ := hcreated u hu
          exact ⟨h₁, h₂, h₃, h₄, h₅, h₆⟩
    · rw [if_neg hj]
      exact ih b h

/-- A call: the outcomes that are not deleted stay, new tracks come after them. -/
lemma process_eq (h : b.nextIdx = idOf b.born) (trackList : List TrackNode) :
    ∃ news, (news.map Track.serial = List.range' b.born news.length ∧ ∀ t ∈ news, Created b detections t) ∧
      b.process kf store detections trackList =
        let kept := (b.outcomes kf detections).filter (fun t => t.state ≠ .deleted) ++ news
        ({ b with
            tracks := kept.map (listedTrack kf)
            nextIdx := idOf (b.born + news.length)
            born := b.born + news.length },
          kept.foldl (listTrack kf store)
            (((b.outcomes kf detections).filter fun t => t.state = .deleted).foldl
              (fun trackList t => deleteNodes t.trackId trackList) trackList)) := by
  obtain ⟨news, hnews, hserial, hcreated⟩ := ByteTracker.foldl_initTrack kf
    { b.predict kf with tracks := b.outcomes kf detections } detections h
    ((b.predict kf).matchDetections detections).unmatchedDetections
  have hupdated : (b.predict kf).updated kf detections =
      { b with
        tracks := b.outcomes kf detections ++ news
        nextIdx := idOf (b.born + news.length)
        born := b.born + news.length } := by
    rw [updated, updateTracks_eq]
    exact hnews
  have hlive : news.filter (fun t => t.state ≠ .deleted) = news :=
    List.filter_eq_self.mpr fun t ht => by simp [(hcreated t ht).tentative]
  have hdead : news.filter (fun t => t.state = .deleted) = [] :=
    List.filter_eq_nil_iff.mpr fun t ht => by simp [(hcreated t ht).tentative]
  refine ⟨news, ⟨hserial, fun t ht => ?_⟩, ?_⟩
  · obtain ⟨h₁, h₂, h₃, h₄, h₅, h₆⟩ := hcreated t ht
    exact ⟨h₁, h₂, h₃, h₄, h₅, h₆⟩
  · simp only [process, update, hupdated, List.filter_append, hlive, hdead, List.append_nil]

end ByteTracker

end MediaAgent.Camera
