import MediaAgent.ByteTracking
import MediaAgent.TrackAgeing

/-!
# The list of tracks over the calls of a tracker

`ma_tracker_process` calls `Process` with the list of tracks that the call before has left, and then takes out the
deleted ones. As long as no two tracks have one id, the list holds the confirmed tracks that were matched within the
last calls, each at the place of its last detection.
-/

namespace MediaAgent.Camera
open Transition

section
variable {S K : Type} [Field K] [LinearOrder K]

/-- The constructor; it ends the program, here `none`, if a threshold is not between 0 and 1. -/
def ByteTracker.create (minThresh highThresh maxIouDistance highThreshPerson highThreshMotorbike : K)
    (maxAge nInit : Int) : Option (ByteTracker S K) :=
  if [minThresh, highThresh, maxIouDistance, highThreshPerson, highThreshMotorbike].all fun value => 0 < value ∧ value < 1
  then some
    { minThresh := minThresh
      highThresh := highThresh
      highThreshPerson := highThreshPerson
      highThreshMotorbike := highThreshMotorbike
      maxIouDistance := maxIouDistance
      maxAge := maxAge
      nInit := nInit }
  else none

variable [IsStrictOrderedRing K] [Archimedean K] (kf : KalmanFilter S K) (store : K → F32)

/-- The calls of `Process` on one tracker, each with the detections of a frame. -/
def trackedListSystem (b : ByteTracker S K) : Machine (ByteTracker S K × List TrackNode) (List (DetectionRow K)) where
  init := (b, [])
  next s detections :=
    let r := s.1.process kf store detections s.2
    some (r.1, clearDeletedTracks r.2)

end

/-! ## The tracks -/

section
variable {S K : Type} [Field K] [LinearOrder K]

/-- A track between two calls: a tentative one was matched in the last call, a confirmed one was matched often enough
and is below the maximal age. -/
structure TrackInv (b : ByteTracker S K) (t : Track S K) : Prop where
  trackId : t.trackId = idOf t.serial
  args : t.nInit = b.nInit ∧ t.maxAge = b.maxAge
  state : t.state = .tentative ∧ t.timeSinceUpdate = 0 ∨
    t.state = .confirmed ∧ b.nInit ≤ t.hits ∧ (t.timeSinceUpdate = 0 ∨ (t.timeSinceUpdate : Int) < b.maxAge)

structure TrackerInv (b : ByteTracker S K) : Prop where
  nextIdx : b.nextIdx = idOf b.born
  serials : (b.tracks.map Track.serial).Pairwise (· < ·)
  born : ∀ t ∈ b.tracks, t.serial < b.born
  tracks : ∀ t ∈ b.tracks, TrackInv b t

variable [IsStrictOrderedRing K] [Archimedean K] (kf : KalmanFilter S K) (store : K → F32)
  {b : ByteTracker S K} {detections : List (DetectionRow K)}

omit [Field K] [LinearOrder K] [IsStrictOrderedRing K] [Archimedean K] in
lemma TrackInv.turned {t t' : Track S K} (h : TrackInv b t) (hsame : SameTrack t t') (hturned : Turned detections t t') :
    TrackInv b t' := by
  refine ⟨?_, ?_, ?_⟩
  · rw [hsame.trackId, hsame.serial]
    exact h.trackId
  · rw [hsame.nInit, hsame.maxAge]
    exact h.args
  · cases hturned with
    | matched detection hmem hage hhits hlatest hstate hconfirmed =>
      rcases h.state with ⟨htent, -⟩ | ⟨hconf, hn, -⟩
      · rcases hstate with hstate | ⟨-, hstate⟩
        · exact .inl ⟨hstate.trans htent, hage⟩
        · exact .inr ⟨hstate, h.args.1 ▸ hconfirmed htent hstate, .inl hage⟩
      · refine .inr ⟨?_, by omega, .inl hage⟩
        rcases hstate with hstate | ⟨htent, -⟩
        · exact hstate.trans hconf
        · cases hconf.symm.trans htent
    | missed hconfirmed hage hmax hhits hlatest =>
      rcases h.state with ⟨htent, -⟩ | ⟨-, hn, -⟩
      · cases htent.symm.trans hconfirmed.1
      · refine .inr ⟨hconfirmed.2, by omega, .inr ?_⟩
        rw [← h.args.2]
        exact hmax

omit [Field K] [IsStrictOrderedRing K] [Archimedean K] in
lemma trackInv_created {t : Track S K} (h : ByteTracker.Created b detections t) : TrackInv b t :=
  ⟨h.trackId, h.args, .inl ⟨h.tentative, h.age⟩⟩

omit [LinearOrder K] [IsStrictOrderedRing K] [Archimedean K] in
lemma sameTrack_listedTrack (t : Track S K) : SameTrack t (ByteTracker.listedTrack kf t) ∧
    (ByteTracker.listedTrack kf t).state = t.state ∧ (ByteTracker.listedTrack kf t).hits = t.hits ∧
    (ByteTracker.listedTrack kf t).timeSinceUpdate = t.timeSinceUpdate ∧
    (ByteTracker.listedTrack kf t).latestDetection = t.latestDetection := by
  unfold ByteTracker.listedTrack
  split <;> exact ⟨⟨rfl, rfl, rfl, rfl⟩, rfl, rfl, rfl, rfl⟩

omit [LinearOrder K] [IsStrictOrderedRing K] [Archimedean K] in
lemma TrackInv.listedTrack {t : Track S K} (h : TrackInv b t) : TrackInv b (ByteTracker.listedTrack kf t) := by
  obtain ⟨hsame, hstate, hhits, hage, -⟩ := sameTrack_listedTrack kf t
  refine ⟨?_, ?_, ?_⟩
  · rw [hsame.trackId, hsame.serial]
    exact h.trackId
  · rw [hsame.nInit, hsame.maxAge]
    exact h.args
  · rw [hstate, hhits, hage]
    exact h.state

/-- The tracks that a call keeps, and then the new ones. -/
def keptTracks (b : ByteTracker S K) (detections : List (DetectionRow K)) (news : List (Track S K)) :
    List (Track S K) :=
  (b.outcomes kf detections).filter (fun t => t.state ≠ .deleted) ++ news

lemma map_serial_outcomes (b : ByteTracker S K) (detections : List (DetectionRow K)) :
    (b.outcomes kf detections).map Track.serial = b.tracks.map Track.serial := by
  have hforall := (b.forall₂_outcomes kf detections).imp fun t t' h => h.same.serial.symm
  exact (List.forall₂_eq_eq_eq ▸ List.forall₂_map_left_iff.mpr (List.forall₂_map_right_iff.mpr hforall) :
    b.tracks.map Track.serial = (b.outcomes kf detections).map Track.serial).symm

lemma exists_of_mem_outcomes {t' : Track S K} (h : t' ∈ b.outcomes kf detections) :
    ∃ t ∈ b.tracks, ByteTracker.Outcome detections t t' := by
  obtain ⟨i, rfl⟩ := List.mem_iff_get.mp h
  have hforall := b.forall₂_outcomes kf detections
  have hi : i.val < b.tracks.length := i.isLt.trans_eq hforall.length_eq.symm
  exact ⟨b.tracks.get ⟨i.val, hi⟩, List.get_mem _ _, hforall.get hi i.isLt⟩

lemma exists_mem_outcomes (detections : List (DetectionRow K)) {t : Track S K} (h : t ∈ b.tracks) :
    ∃ t' ∈ b.outcomes kf detections, ByteTracker.Outcome detections t t' := by
  obtain ⟨i, rfl⟩ := List.mem_iff_get.mp h
  have hforall := b.forall₂_outcomes kf detections
  have hi : i.val < (b.outcomes kf detections).length := i.isLt.trans_eq hforall.length_eq
  exact ⟨(b.outcomes kf detections).get ⟨i.val, hi⟩, List.get_mem _ _, hforall.get i.isLt hi⟩

/-- The tracks a call ends with come from those before or are new. -/
lemma of_mem_keptTracks {news : List (Track S K)} {t' : Track S K} (h : t' ∈ keptTracks kf b detections news) :
    (∃ t ∈ b.tracks, SameTrack t t' ∧ Turned detections t t') ∨ t' ∈ news := by
  rcases List.mem_append.mp h with hold | hnew
  · obtain ⟨hmem, hlive⟩ := List.mem_filter.mp hold
    obtain ⟨t, ht, houtcome⟩ := exists_of_mem_outcomes kf hmem
    exact .inl ⟨t, ht, houtcome.same, houtcome.turned (of_decide_eq_true hlive)⟩
  · exact .inr hnew

lemma serials_keptTracks (detections : List (DetectionRow K)) (h : TrackerInv b) {news : List (Track S K)}
    (hnews : news.map Track.serial = List.range' b.born news.length) :
    ((keptTracks kf b detections news).map Track.serial).Pairwise (· < ·) := by
  rw [keptTracks, List.map_append, hnews]
  refine List.pairwise_append.mpr ⟨?_, List.pairwise_lt_range', ?_⟩
  · refine h.serials.sublist ?_
    rw [← map_serial_outcomes kf b detections]
    exact List.filter_sublist.map _
  · intro k hk j hj
    obtain ⟨t', ht', rfl⟩ := List.mem_map.mp hk
    obtain ⟨t, ht, houtcome⟩ := exists_of_mem_outcomes kf (List.mem_filter.mp ht').1
    rw [houtcome.same.serial]
    exact (h.born t ht).trans_le (List.mem_range'_1.mp hj).1

/-- A call keeps the invariant of the tracks. -/
lemma TrackerInv.process (h : TrackerInv b) (detections : List (DetectionRow K)) (trackList : List TrackNode) :
    TrackerInv (b.process kf store detections trackList).1 := by
  obtain ⟨news, ⟨hserial, hcreated⟩, heq⟩ := b.process_eq kf store detections h.nextIdx trackList
  have hmem : ∀ t' ∈ keptTracks kf b detections news, TrackInv b t' := by
    intro t' ht'
    rcases of_mem_keptTracks kf ht' with ⟨t, ht, hsame, hturned⟩ | hnew
    · exact (h.tracks t ht).turned hsame hturned
    · exact trackInv_created (hcreated t' hnew)
  rw [heq]
  refine ⟨rfl, ?_, ?_, ?_⟩
  · have hserials := serials_keptTracks kf detections h hserial
    refine (List.map_map ..).symm ▸ ?_
    rwa [show Track.serial ∘ ByteTracker.listedTrack kf = Track.serial from
      funext fun t => (sameTrack_listedTrack kf t).1.serial]
  · intro t ht
    obtain ⟨t', ht', rfl⟩ := List.mem_map.mp ht
    rw [(sameTrack_listedTrack kf t').1.serial]
    rcases of_mem_keptTracks kf ht' with ⟨t, ht, hsame, -⟩ | hnew
    · rw [hsame.serial]
      exact (h.born t ht).trans_le (Nat.le_add_right _ _)
    · have hrange : t'.serial ∈ List.range' b.born news.length := hserial ▸ List.mem_map_of_mem hnew
      exact (List.mem_range'_1.mp hrange).2
  · intro t ht
    obtain ⟨t', ht', rfl⟩ := List.mem_map.mp ht
    obtain ⟨h₁, h₂, h₃⟩ := (hmem t' ht').listedTrack kf
    exact ⟨h₁, h₂, h₃⟩

end

/-! ## The nodes -/

section
variable {S K : Type}

/-- A confirmed track that was matched in one of the last calls. -/
def Track.Recent (t : Track S K) : Prop := t.state = .confirmed ∧ t.timeSinceUpdate < kTimeSinceUpdate

/-- The node of a track at its last detection. -/
def Track.recentNode [Field K] (store : K → F32) (t : Track S K) : TrackNode where
  cx := store t.latestDetection.toCxymax.x
  ymax := store t.latestDetection.toCxymax.y
  width := store t.latestDetection.toCxymax.width
  height := store t.latestDetection.toCxymax.height
  type := t.latestDetection.type
  id := UInt32.ofInt t.trackId
  serial := t.serial

/-- The list holds the nodes of the recent tracks, each once. -/
structure Lists [Field K] (store : K → F32) (tracks : List (Track S K)) (trackList : List TrackNode) : Prop where
  ids : (trackList.map nodeId).Nodup
  mem_iff : ∀ node, node ∈ trackList ↔ ∃ t ∈ tracks, t.Recent ∧ node = t.recentNode store

lemma toInt32_ofInt {i : Int} (hlower : 1 ≤ i) (hupper : i ≤ kMaxObjectId) : (UInt32.ofInt i).toInt32.toInt = i := by
  have hnat : (UInt32.ofInt i).toNat = i.toNat := by
    rw [kMaxObjectId] at hupper
    rw [UInt32.ofInt, UInt32.toNat_ofNat']
    omega
  have hbmod : (UInt32.ofInt i).toInt32.toInt = ((UInt32.ofInt i).toNat : Int).bmod (2 ^ 32) :=
    BitVec.toInt_eq_toNat_bmod _
  rw [kMaxObjectId] at hupper
  rw [hbmod, hnat, Int.bmod_def]
  omega

lemma nodeId_of_id {t : Track S K} (h : t.trackId = idOf t.serial) {node : TrackNode}
    (hid : node.id = UInt32.ofInt t.trackId) : nodeId node = t.trackId := by
  rw [nodeId, hid]
  refine toInt32_ofInt ?_ ?_
  · rw [h, idOf, kMaxObjectId]
    omega
  · rw [h, idOf, kMaxObjectId]
    omega

/-- The node that is written, or the new one. -/
def targetNode (id : Int) (trackList : List TrackNode) : TrackNode :=
  (trackList.find? fun node => nodeId node = id).getD { id := 4294967295 }

lemma mem_writeNode (id : Int) (write : TrackNode → TrackNode) {trackList : List TrackNode}
    (hids : (trackList.map nodeId).Nodup) (node : TrackNode) :
    node ∈ writeNode id write trackList ↔
      node ∈ trackList ∧ nodeId node ≠ id ∨ node = write (targetNode id trackList) := by
  induction trackList with
  | nil => simp [writeNode, targetNode]
  | cons first trackList ih =>
    obtain ⟨hfirst, hrest⟩ := List.nodup_cons.mp hids
    rw [writeNode]
    by_cases h : nodeId first = id
    · have hother : ∀ node ∈ trackList, nodeId node ≠ id := fun node hnode heq =>
        hfirst (h.trans heq.symm ▸ List.mem_map_of_mem hnode)
      rw [if_pos h, targetNode, List.find?_cons_of_pos (by simpa using h), Option.getD_some, List.mem_cons, List.mem_cons]
      constructor
      · rintro (rfl | hnode)
        · exact .inr rfl
        · exact .inl ⟨.inr hnode, hother node hnode⟩
      · rintro (⟨rfl | hnode, hne⟩ | rfl)
        · exact absurd h hne
        · exact .inr hnode
        · exact .inl rfl
    · have htarget : targetNode id (first :: trackList) = targetNode id trackList := by
        rw [targetNode, List.find?_cons_of_neg (by simpa using h), targetNode]
      rw [if_neg h, htarget, List.mem_cons, ih hrest, List.mem_cons]
      constructor
      · rintro (rfl | ⟨hnode, hne⟩ | rfl)
        · exact .inl ⟨.inl rfl, h⟩
        · exact .inl ⟨.inr hnode, hne⟩
        · exact .inr rfl
      · rintro (⟨rfl | hnode, hne⟩ | rfl)
        · exact .inl rfl
        · exact .inr (.inl ⟨hnode, hne⟩)
        · exact .inr (.inr rfl)

lemma mem_ids_writeNode {id : Int} {write : TrackNode → TrackNode} (hwrite : ∀ node, nodeId (write node) = id)
    (trackList : List TrackNode) (i : Int) :
    i ∈ (writeNode id write trackList).map nodeId → i ∈ trackList.map nodeId ∨ i = id := by
  induction trackList with
  | nil =>
    intro hi
    rw [writeNode, List.map_cons, List.mem_cons, hwrite] at hi
    exact .inr (hi.resolve_right List.not_mem_nil)
  | cons first trackList ih =>
    intro hi
    rw [writeNode] at hi
    split at hi
    · rw [List.map_cons, List.mem_cons, hwrite] at hi
      exact hi.symm.imp (List.mem_cons_of_mem _) (fun heq => heq)
    · rw [List.map_cons, List.mem_cons] at hi ⊢
      rcases hi with rfl | hi
      · exact .inl (.inl rfl)
      · exact (ih hi).imp .inr (fun heq => heq)

lemma nodup_writeNode {id : Int} {write : TrackNode → TrackNode} (hwrite : ∀ node, nodeId (write node) = id)
    {trackList : List TrackNode} (hids : (trackList.map nodeId).Nodup) :
    ((writeNode id write trackList).map nodeId).Nodup := by
  induction trackList with
  | nil => exact List.nodup_singleton _
  | cons first trackList ih =>
    obtain ⟨hfirst, hrest⟩ := List.nodup_cons.mp hids
    rw [writeNode]
    by_cases h : nodeId first = id
    · rw [if_pos h, List.map_cons, hwrite, ← h]
      exact List.nodup_cons.mpr ⟨hfirst, hrest⟩
    · rw [if_neg h]
      refine List.nodup_cons.mpr ⟨fun hmem => ?_, ih hrest⟩
      rcases mem_ids_writeNode hwrite trackList _ hmem with hold | heq
      · exact hfirst hold
      · exact h heq

lemma map_nodeId_deleteFirstNode (id : Int) (trackList : List TrackNode) :
    (deleteFirstNode id trackList).map nodeId = trackList.map nodeId := by
  induction trackList with
  | nil => rfl
  | cons first trackList ih =>
    rw [deleteFirstNode]
    split
    · rfl
    · rw [List.map_cons, List.map_cons, ih]

lemma mem_deleteFirstNode {id : Int} {trackList : List TrackNode} (hids : (trackList.map nodeId).Nodup)
    (node : TrackNode) : node ∈ deleteFirstNode id trackList ↔ node ∈ deleteNodes id trackList := by
  induction trackList with
  | nil => exact Iff.rfl
  | cons first trackList ih =>
    obtain ⟨hfirst, hrest⟩ := List.nodup_cons.mp hids
    rw [deleteFirstNode, deleteNodes, List.map_cons]
    by_cases h : nodeId first = id
    · have hsame : trackList.map (fun node => if nodeId node = id then { node with state := .delete } else node) =
          trackList := by
        refine (List.map_congr_left fun node hnode => if_neg fun heq => ?_).trans (List.map_id _)
        exact hfirst (h.trans heq.symm ▸ List.mem_map_of_mem hnode)
      rw [if_pos h, if_pos h, hsame]
    · rw [if_neg h, if_neg h, List.mem_cons, List.mem_cons, ih hrest]
      exact Iff.rfl

lemma map_nodeId_deleteNodes (id : Int) (trackList : List TrackNode) :
    (deleteNodes id trackList).map nodeId = trackList.map nodeId := by
  rw [deleteNodes, List.map_map]
  refine List.map_congr_left fun node _ => ?_
  rw [Function.comp_apply]
  split <;> rfl

lemma mem_deleteNodes {id : Int} {trackList : List TrackNode} {node : TrackNode} (h : node ∈ deleteNodes id trackList) :
    node ∈ trackList ∧ nodeId node ≠ id ∨ nodeId node = id ∧ node.state = .delete := by
  obtain ⟨old, hold, rfl⟩ := List.mem_map.mp h
  by_cases hid : nodeId old = id
  · rw [if_pos hid]
    exact .inr ⟨hid, rfl⟩
  · rw [if_neg hid]
    exact .inl ⟨hold, hid⟩

variable [Field K] [LinearOrder K] (kf : KalmanFilter S K) (store : K → F32)

omit [LinearOrder K] in
lemma initTrackNode_of_recent {t : Track S K} (h : t.Recent) {node : TrackNode} (hnode : node.state = .normal) :
    t.initTrackNode kf store node = t.recentNode store := by
  have hbox : t.newBbox kf = t.latestDetection.toCxymax := if_neg (not_le.mpr h.2)
  simp only [Track.initTrackNode, Track.recentNode, hbox, hnode]

/-- The list in the last loop of `Process`, with the tracks `rest` to come: a node is deleted, or it is that of a recent
track, or its track is yet to come. -/
structure Listing (tracks rest : List (Track S K)) (trackList : List TrackNode) : Prop where
  ids : (trackList.map nodeId).Nodup
  origin : ∀ node ∈ trackList, node.state = .delete ∨ (∃ t ∈ tracks, t.Recent ∧ node = t.recentNode store) ∨
    node.state = .normal ∧ ∃ t ∈ rest, t.state = .confirmed ∧ nodeId node = t.trackId
  listed : ∀ t ∈ tracks, t.Recent → t.recentNode store ∈ trackList
  free : ∀ node ∈ trackList, node.state = .delete → ∀ t ∈ rest, t.Recent → nodeId node ≠ t.trackId

variable {kf store} {tracks rest : List (Track S K)} {t : Track S K} {trackList : List TrackNode}

lemma mem_deleteNodes_of_ne {id : Int} {node : TrackNode} (h : node ∈ trackList) (hne : nodeId node ≠ id) :
    node ∈ deleteNodes id trackList :=
  List.mem_map.mpr ⟨node, h, if_neg hne⟩

omit [Field K] [LinearOrder K] in
/-- The ids of the tracks before and after `t` are others. -/
lemma trackId_ne_of_nodup (hids : ((tracks ++ t :: rest).map Track.trackId).Nodup) :
    (∀ u ∈ tracks, u.trackId ≠ t.trackId) ∧ ∀ u ∈ rest, u.trackId ≠ t.trackId := by
  rw [List.map_append, List.map_cons] at hids
  obtain ⟨-, hrest, hdisjoint⟩ := List.nodup_append.mp hids
  refine ⟨fun u hu => hdisjoint _ (List.mem_map_of_mem hu) _ List.mem_cons_self, fun u hu heq => ?_⟩
  exact (List.nodup_cons.mp hrest).1 (heq ▸ List.mem_map_of_mem hu)

omit [LinearOrder K] in
lemma Listing.skip (h : Listing store tracks (t :: rest) trackList) (ht : t.state ≠ .confirmed) :
    Listing store (tracks ++ [t]) rest trackList where
  ids := h.ids
  origin node hnode := by
    rcases h.origin node hnode with hdel | ⟨u, hu, hrecent, heq⟩ | ⟨hnormal, u, hu, hconf, heq⟩
    · exact .inl hdel
    · exact .inr (.inl ⟨u, List.mem_append_left _ hu, hrecent, heq⟩)
    · rcases List.mem_cons.mp hu with rfl | hu
      · exact absurd hconf ht
      · exact .inr (.inr ⟨hnormal, u, hu, hconf, heq⟩)
  listed u hu hrecent := by
    rcases List.mem_append.mp hu with hu | hu
    · exact h.listed u hu hrecent
    · rw [List.mem_singleton.mp hu] at hrecent
      exact absurd hrecent.1 ht
  free node hnode hdel u hu := h.free node hnode hdel u (List.mem_cons_of_mem _ hu)

omit [LinearOrder K] in
lemma Listing.delete (h : Listing store tracks (t :: rest) trackList)
    (hids : ((tracks ++ t :: rest).map Track.trackId).Nodup) (hserial : ∀ u ∈ tracks, u.trackId = idOf u.serial)
    (ht : ¬t.Recent) : Listing store (tracks ++ [t]) rest (deleteFirstNode t.trackId trackList) := by
  obtain ⟨hbefore, hafter⟩ := trackId_ne_of_nodup hids
  refine ⟨?_, fun node hnode => ?_, fun u hu hrecent => ?_, fun node hnode hdel u hu hrecent => ?_⟩
  · rw [map_nodeId_deleteFirstNode]
    exact h.ids
  · rcases mem_deleteNodes ((mem_deleteFirstNode h.ids node).mp hnode) with ⟨hold, hne⟩ | ⟨-, hdel⟩
    · rcases h.origin node hold with hdel | ⟨u, hu, hrecent, heq⟩ | ⟨hnormal, u, hu, hconf, heq⟩
      · exact .inl hdel
      · exact .inr (.inl ⟨u, List.mem_append_left _ hu, hrecent, heq⟩)
      · rcases List.mem_cons.mp hu with rfl | hu
        · exact absurd heq hne
        · exact .inr (.inr ⟨hnormal, u, hu, hconf, heq⟩)
    · exact .inl hdel
  · rcases List.mem_append.mp hu with hu | hu
    · refine (mem_deleteFirstNode h.ids _).mpr (mem_deleteNodes_of_ne (h.listed u hu hrecent) ?_)
      rw [nodeId_of_id (hserial u hu) rfl]
      exact hbefore u hu
    · rw [List.mem_singleton.mp hu] at hrecent
      exact absurd hrecent ht
  · rcases mem_deleteNodes ((mem_deleteFirstNode h.ids node).mp hnode) with ⟨hold, -⟩ | ⟨hid, -⟩
    · exact h.free node hold hdel u (List.mem_cons_of_mem _ hu) hrecent
    · rw [hid]
      exact (hafter u hu).symm

omit [LinearOrder K] in
/-- The node of a recent track is not deleted when the track is written. -/
lemma Listing.targetNode_state (h : Listing store tracks (t :: rest) trackList) (ht : t.Recent) :
    (targetNode t.trackId trackList).state = .normal := by
  unfold targetNode
  cases hfind : trackList.find? fun node => nodeId node = t.trackId with
  | none => rfl
  | some node =>
    have hid : nodeId node = t.trackId := by simpa using List.find?_some hfind
    cases hstate : node.state with
    | normal => exact hstate
    | delete => exact absurd hid (h.free node (List.mem_of_find?_eq_some hfind) hstate t List.mem_cons_self ht)

omit [LinearOrder K] in
lemma Listing.write (h : Listing store tracks (t :: rest) trackList)
    (hids : ((tracks ++ t :: rest).map Track.trackId).Nodup) (hserial : ∀ u ∈ tracks, u.trackId = idOf u.serial)
    (htserial : t.trackId = idOf t.serial) (ht : t.Recent) :
    Listing store (tracks ++ [t]) rest (writeNode t.trackId (t.initTrackNode kf store) trackList) := by
  obtain ⟨hbefore, -⟩ := trackId_ne_of_nodup hids
  have hmem := mem_writeNode t.trackId (t.initTrackNode kf store) h.ids
  rw [initTrackNode_of_recent kf store ht (h.targetNode_state ht)] at hmem
  refine ⟨nodup_writeNode (fun node => nodeId_of_id htserial rfl) h.ids, fun node hnode => ?_, fun u hu hrecent => ?_,
    fun node hnode hdel u hu hrecent => ?_⟩
  · rcases (hmem node).mp hnode with ⟨hold, hne⟩ | rfl
    · rcases h.origin node hold with hdel | ⟨u, hu, hrecent, heq⟩ | ⟨hnormal, u, hu, hconf, heq⟩
      · exact .inl hdel
      · exact .inr (.inl ⟨u, List.mem_append_left _ hu, hrecent, heq⟩)
      · rcases List.mem_cons.mp hu with rfl | hu
        · exact absurd heq hne
        · exact .inr (.inr ⟨hnormal, u, hu, hconf, heq⟩)
    · exact .inr (.inl ⟨t, List.mem_append_right _ (List.mem_singleton.mpr rfl), ht, rfl⟩)
  · rcases List.mem_append.mp hu with hu | hu
    · refine (hmem _).mpr (.inl ⟨h.listed u hu hrecent, ?_⟩)
      rw [nodeId_of_id (hserial u hu) rfl]
      exact hbefore u hu
    · rw [List.mem_singleton.mp hu]
      exact (hmem _).mpr (.inr rfl)
  · rcases (hmem node).mp hnode with ⟨hold, -⟩ | rfl
    · exact h.free node hold hdel u (List.mem_cons_of_mem _ hu) hrecent
    · cases hdel

omit [LinearOrder K] in
/-- A turn of the loop. -/
lemma Listing.listTrack (kf : KalmanFilter S K) (h : Listing store tracks (t :: rest) trackList)
    (hids : ((tracks ++ t :: rest).map Track.trackId).Nodup) (hserial : ∀ u ∈ tracks, u.trackId = idOf u.serial)
    (htserial : t.trackId = idOf t.serial) :
    Listing store (tracks ++ [t]) rest (ByteTracker.listTrack kf store trackList t) := by
  unfold ByteTracker.listTrack
  split
  · rename_i hconf
    exact h.skip hconf
  · rename_i hconf
    split
    · rename_i hage
      exact h.delete hids hserial fun hrecent => absurd hrecent.2 (not_lt.mpr hage)
    · rename_i hage
      exact h.write hids hserial htserial ⟨not_not.mp hconf, not_le.mp hage⟩

omit [LinearOrder K] in
/-- The whole loop. -/
lemma Listing.foldl (kf : KalmanFilter S K) (h : Listing store tracks rest trackList)
    (hids : ((tracks ++ rest).map Track.trackId).Nodup)
    (hserial : ∀ u ∈ tracks ++ rest, u.trackId = idOf u.serial) :
    Listing store (tracks ++ rest) [] (rest.foldl (ByteTracker.listTrack kf store) trackList) := by
  induction rest generalizing tracks trackList with
  | nil => simpa using h
  | cons t rest ih =>
    have hturn := h.listTrack kf hids (fun u hu => hserial u (List.mem_append_left _ hu))
      (hserial t (List.mem_append_right _ List.mem_cons_self))
    have happend : tracks ++ t :: rest = tracks ++ [t] ++ rest := by simp
    rw [happend] at hids hserial ⊢
    exact ih hturn hids hserial

omit [LinearOrder K] in
/-- What the loop leaves, without the deleted nodes. -/
lemma Listing.lists (h : Listing store tracks [] trackList) : Lists store tracks (clearDeletedTracks trackList) where
  ids := h.ids.sublist (List.filter_sublist.map _)
  mem_iff node := by
    constructor
    · intro hnode
      obtain ⟨hmem, hstate⟩ := List.mem_filter.mp hnode
      rcases h.origin node hmem with hdel | hrecent | ⟨-, u, hu, -⟩
      · exact absurd hdel (of_decide_eq_true hstate)
      · exact hrecent
      · cases hu
    · rintro ⟨t, ht, hrecent, rfl⟩
      exact List.mem_filter.mpr ⟨h.listed t ht hrecent, rfl⟩

end

/-! ## The list over a run -/

section
variable {S K : Type} [Field K] [LinearOrder K] [IsStrictOrderedRing K] [Archimedean K] (kf : KalmanFilter S K)
  {store : K → F32} {b : ByteTracker S K} {detections : List (DetectionRow K)} {trackList : List TrackNode}

def DistinctIds (b : ByteTracker S K) : Prop := (b.tracks.map Track.trackId).Nodup

lemma map_trackId_outcomes : (b.outcomes kf detections).map Track.trackId = b.tracks.map Track.trackId := by
  have hforall := (b.forall₂_outcomes kf detections).imp fun t t' h => h.same.trackId.symm
  exact (List.forall₂_eq_eq_eq ▸ List.forall₂_map_left_iff.mpr (List.forall₂_map_right_iff.mpr hforall) :
    b.tracks.map Track.trackId = (b.outcomes kf detections).map Track.trackId).symm

omit [Field K] [LinearOrder K] [IsStrictOrderedRing K] [Archimedean K] in
/-- The loop over the deleted tracks. -/
lemma mem_foldl_deleteNodes {tracks : List (Track S K)} {node : TrackNode}
    (h : node ∈ tracks.foldl (fun trackList t => deleteNodes t.trackId trackList) trackList) :
    node ∈ trackList ∧ (∀ t ∈ tracks, nodeId node ≠ t.trackId) ∨
      node.state = .delete ∧ ∃ t ∈ tracks, nodeId node = t.trackId := by
  induction tracks generalizing trackList with
  | nil => exact .inl ⟨h, fun t ht => by cases ht⟩
  | cons t tracks ih =>
    rcases ih h with ⟨hmem, hne⟩ | ⟨hdel, u, hu, heq⟩
    · rcases mem_deleteNodes hmem with ⟨hold, hne'⟩ | ⟨hid, hdel⟩
      · refine .inl ⟨hold, fun u hu => ?_⟩
        rcases List.mem_cons.mp hu with rfl | hu
        · exact hne'
        · exact hne u hu
      · exact .inr ⟨hdel, t, List.mem_cons_self, hid⟩
    · exact .inr ⟨hdel, u, List.mem_cons_of_mem _ hu, heq⟩

omit [Field K] [LinearOrder K] [IsStrictOrderedRing K] [Archimedean K] in
lemma map_nodeId_foldl_deleteNodes (tracks : List (Track S K)) (trackList : List TrackNode) :
    (tracks.foldl (fun trackList t => deleteNodes t.trackId trackList) trackList).map nodeId = trackList.map nodeId := by
  induction tracks generalizing trackList with
  | nil => rfl
  | cons t tracks ih =>
    rw [List.foldl_cons, ih]
    exact map_nodeId_deleteNodes _ _

omit [Field K] [LinearOrder K] [IsStrictOrderedRing K] [Archimedean K] in
lemma Turned.confirmed {t t' : Track S K} (h : Turned detections t t') (ht : t.state = .confirmed) :
    t'.state = .confirmed := by
  cases h with
  | matched detection hmem hage hhits hlatest hstate hconfirmed =>
    rcases hstate with heq | ⟨htent, -⟩
    · exact heq.trans ht
    · cases htent.symm.trans ht
  | missed hconfirmed => exact hconfirmed.2

/-- The list at the start of the last loop. -/
lemma Lists.listing (h : Lists store b.tracks trackList) (hb : TrackerInv b) (hids : DistinctIds b)
    (detections : List (DetectionRow K)) {news : List (Track S K)} (hnews : ∀ t ∈ news, t.state = .tentative) :
    Listing store [] (keptTracks kf b detections news)
      (((b.outcomes kf detections).filter fun t => t.state = .deleted).foldl
        (fun trackList t => deleteNodes t.trackId trackList) trackList) where
  ids := by
    rw [map_nodeId_foldl_deleteNodes]
    exact h.ids
  origin node hnode := by
    rcases mem_foldl_deleteNodes hnode with ⟨hold, hne⟩ | ⟨hdel, -⟩
    · obtain ⟨t, ht, hrecent, rfl⟩ := (h.mem_iff node).mp hold
      obtain ⟨t', ht', houtcome⟩ := exists_mem_outcomes kf detections ht
      have hid : nodeId (t.recentNode store) = t'.trackId :=
        (nodeId_of_id (hb.tracks t ht).trackId rfl).trans houtcome.same.trackId.symm
      have hlive : t'.state ≠ .deleted := fun hdead =>
        hne t' (List.mem_filter.mpr ⟨ht', decide_eq_true hdead⟩) hid
      have hkept : t' ∈ keptTracks kf b detections news :=
        List.mem_append_left _ (List.mem_filter.mpr ⟨ht', decide_eq_true hlive⟩)
      exact .inr (.inr ⟨rfl, t', hkept, (houtcome.turned hlive).confirmed hrecent.1, hid⟩)
    · exact .inl hdel
  listed t ht := by cases ht
  free node hnode hdel t ht hrecent := by
    rcases mem_foldl_deleteNodes hnode with ⟨hold, -⟩ | ⟨-, u, hu, heq⟩
    · obtain ⟨t, -, -, rfl⟩ := (h.mem_iff node).mp hold
      cases hdel
    · obtain ⟨hu, hdead⟩ := List.mem_filter.mp hu
      rcases List.mem_append.mp ht with ht | ht
      · obtain ⟨ht, hlive⟩ := List.mem_filter.mp ht
        intro hid
        have hnodup : ((b.outcomes kf detections).map Track.trackId).Nodup := by
          rw [map_trackId_outcomes]
          exact hids
        have hsame : u = t := List.inj_on_of_nodup_map hnodup hu ht (heq.symm.trans hid)
        rw [hsame] at hdead
        exact of_decide_eq_true hlive (of_decide_eq_true hdead)
      · cases (hnews t ht).symm.trans hrecent.1

omit [LinearOrder K] [IsStrictOrderedRing K] [Archimedean K] in
lemma Lists.map_listedTrack {tracks : List (Track S K)} (h : Lists store tracks trackList) :
    Lists store (tracks.map (ByteTracker.listedTrack kf)) trackList := by
  refine ⟨h.ids, fun node => (h.mem_iff node).trans ?_⟩
  have hsame : ∀ t : Track S K, ((ByteTracker.listedTrack kf t).Recent ↔ t.Recent) ∧
      (ByteTracker.listedTrack kf t).recentNode store = t.recentNode store := by
    intro t
    obtain ⟨hsame, hstate, -, hage, hlatest⟩ := sameTrack_listedTrack kf t
    refine ⟨by rw [Track.Recent, Track.Recent, hstate, hage], ?_⟩
    simp only [Track.recentNode, hlatest, hsame.trackId, hsame.serial]
  constructor
  · rintro ⟨t, ht, hrecent, rfl⟩
    exact ⟨_, List.mem_map_of_mem ht, (hsame t).1.mpr hrecent, (hsame t).2.symm⟩
  · rintro ⟨_, hmem, hrecent, rfl⟩
    obtain ⟨t, ht, rfl⟩ := List.mem_map.mp hmem
    exact ⟨t, ht, (hsame t).1.mp hrecent, (hsame t).2⟩

/-- A call on a list that fits leaves one that fits. -/
lemma Lists.process (h : Lists store b.tracks trackList) (hb : TrackerInv b) (hids : DistinctIds b)
    (hids' : DistinctIds (b.process kf store detections trackList).1) :
    Lists store (b.process kf store detections trackList).1.tracks
      (clearDeletedTracks (b.process kf store detections trackList).2) := by
  have hinv := hb.process kf store detections trackList
  obtain ⟨news, ⟨hserial, hcreated⟩, heq⟩ := b.process_eq kf store detections hb.nextIdx trackList
  have hlisting := h.listing kf hb hids detections fun t ht => (hcreated t ht).tentative
  rw [heq] at hids' hinv ⊢
  have hmap : (keptTracks kf b detections news).map Track.trackId =
      ((keptTracks kf b detections news).map (ByteTracker.listedTrack kf)).map Track.trackId := by
    rw [List.map_map]
    exact List.map_congr_left fun t _ => ((sameTrack_listedTrack kf t).1.trackId).symm
  have hkeptIds : ((keptTracks kf b detections news).map Track.trackId).Nodup := by
    rw [hmap]
    exact hids'
  have hkept : ∀ t ∈ keptTracks kf b detections news, t.trackId = idOf t.serial := by
    intro t ht
    have hinv' := (hinv.tracks _ (List.mem_map_of_mem ht)).trackId
    rwa [(sameTrack_listedTrack kf t).1.trackId, (sameTrack_listedTrack kf t).1.serial] at hinv'
  exact ((hlisting.foldl kf hkeptIds hkept).lists).map_listedTrack kf

end

section
variable {S K : Type} [Field K] [LinearOrder K] [IsStrictOrderedRing K] [Archimedean K] (kf : KalmanFilter S K)
  (store : K → F32) {minThresh highThresh maxIouDistance highThreshPerson highThreshMotorbike : K} {maxAge nInit : Int}
  {b : ByteTracker S K}

omit [IsStrictOrderedRing K] [Archimedean K] in
lemma trackerInv_create (hb : ByteTracker.create minThresh highThresh maxIouDistance highThreshPerson
    highThreshMotorbike maxAge nInit = some b) : TrackerInv b ∧ b.tracks = [] := by
  unfold ByteTracker.create at hb
  split at hb
  · cases hb
    exact ⟨⟨rfl, .nil, fun t ht => absurd ht List.not_mem_nil, fun t ht => absurd ht List.not_mem_nil⟩, rfl⟩
  · cases hb

omit [IsStrictOrderedRing K] [Archimedean K] in
lemma maxIouDistance_pos_of_create (hb : ByteTracker.create minThresh highThresh maxIouDistance highThreshPerson
    highThreshMotorbike maxAge nInit = some b) : 0 < b.maxIouDistance := by
  unfold ByteTracker.create at hb
  split at hb
  · rename_i hall
    cases hb
    exact (of_decide_eq_true (List.all_eq_true.mp hall maxIouDistance (by simp))).1
  · cases hb

end

/-- A Kalman filter that stays at the last box. -/
def stillFilter : KalmanFilter (Bbox ℚ) ℚ where
  initiate := id
  predict := id
  update _ measurement := measurement
  position := id

def stillTracker : ByteTracker (Bbox ℚ) ℚ where
  minThresh := 1 / 10
  highThresh := 1 / 2
  highThreshPerson := 2 / 5
  highThreshMotorbike := 2 / 5
  maxIouDistance := 7 / 10
  maxAge := 70
  nInit := 2

end MediaAgent.Camera
