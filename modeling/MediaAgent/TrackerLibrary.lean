import MediaAgent.TrackerCalls

/-!
# The tracker library under the tracking step

`MediaAgent.TrackAgeing` takes the tracker library as a parameter, with laws. Here `camera::ByteTracker` itself stands
in its place. One of the laws, that of the list of tracks, holds of it only for the lists that its own calls leave.
-/

namespace MediaAgent
open Camera Transition

section
variable {S K : Type} [Field K] [LinearOrder K]

/-- A tracker between two calls. -/
abbrev HeldTracker (S K : Type) := {b : Camera.ByteTracker S K // TrackerInv b}

namespace HeldTracker

/-- The constructor, for thresholds that it accepts. -/
def create (value : F32 → K) (args : ByteTrackerArgs) : HeldTracker S K where
  val :=
    { minThresh := value args.minThresh
      highThresh := value args.highThresh
      highThreshPerson := value args.highThreshPerson
      highThreshMotorbike := value args.highThreshMotorbike
      maxIouDistance := value args.maxIouDistance
      maxAge := args.maxAge
      nInit := args.nInit }
  property := ⟨rfl, .nil, fun _ ht => absurd ht List.not_mem_nil, fun _ ht => absurd ht List.not_mem_nil⟩

def live (b : HeldTracker S K) (k : Nat) : Option Nat :=
  (b.val.tracks.find? fun t => t.serial = k).map Track.timeSinceUpdate

variable [IsStrictOrderedRing K] [Archimedean K] (kf : KalmanFilter S K) (store : K → F32) (value : F32 → K)

def process (b : HeldTracker S K) (frameDesc : MaTrackerFrameDesc) (detections : List MaTrackerDetection)
    (trackList : List TrackNode) : HeldTracker S K × List TrackNode :=
  let r := b.val.process kf store (detections.map (toByteTrackDetection value frameDesc)) trackList
  (⟨r.1, b.property.process kf store _ trackList⟩, r.2)

end HeldTracker

variable [IsStrictOrderedRing K] [Archimedean K] (kf : KalmanFilter S K) (store : K → F32) (value : F32 → K)

/-- The library as `createTrackerIfNeeded` and `ma_tracker_process` use it. -/
def cameraTracker : ByteTracker (HeldTracker S K) where
  create := HeldTracker.create value
  process := HeldTracker.process kf store value
  live := HeldTracker.live
  maxAge b := b.val.maxAge
  born b := b.val.born

end

/-! ## The tracks that are held -/

section
variable {S K : Type}

lemma eq_of_serial {b : Camera.ByteTracker S K} (hb : TrackerInv b) {t u : Track S K} (ht : t ∈ b.tracks)
    (hu : u ∈ b.tracks) (h : t.serial = u.serial) : t = u :=
  List.inj_on_of_nodup_map (hb.serials.imp fun hlt => hlt.ne) ht hu h

lemma live_eq_some {b : HeldTracker S K} {k age : Nat} :
    b.live k = some age ↔ ∃ t ∈ b.val.tracks, t.serial = k ∧ t.timeSinceUpdate = age := by
  rw [HeldTracker.live, Option.map_eq_some_iff]
  constructor
  · rintro ⟨t, ht, rfl⟩
    exact ⟨t, List.mem_of_find?_eq_some ht, by simpa using List.find?_some ht, rfl⟩
  · rintro ⟨t, ht, hserial, rfl⟩
    cases hfind : b.val.tracks.find? fun t => t.serial = k with
    | none => exact absurd (decide_eq_true hserial) (List.find?_eq_none.mp hfind t ht)
    | some u =>
      have hu : u.serial = k := by simpa using List.find?_some hfind
      exact ⟨u, rfl, by rw [eq_of_serial b.property (List.mem_of_find?_eq_some hfind) ht (hu.trans hserial.symm)]⟩

variable [Field K] [LinearOrder K] [IsStrictOrderedRing K] [Archimedean K] (kf : KalmanFilter S K) (store : K → F32)
  (value : F32 → K) {b : HeldTracker S K} {frameDesc : MaTrackerFrameDesc} {detections : List MaTrackerDetection}
  {trackList : List TrackNode}

/-- A track that is held after a call was held before and is matched or older by one, or it is new. -/
lemma live_process {k age : Nat} (h : (b.process kf store value frameDesc detections trackList).1.live k = some age) :
    (∃ before, b.live k = some before ∧ (age = 0 ∨ age = before + 1 ∧ (age : Int) < b.val.maxAge)) ∨
      b.val.born ≤ k ∧ age = 0 := by
  obtain ⟨t', ht', hserial, hage⟩ := live_eq_some.mp h
  obtain ⟨news, ⟨hrange, hcreated⟩, heq⟩ := b.val.process_eq kf store
    (detections.map (toByteTrackDetection value frameDesc)) b.property.nextIdx trackList
  simp only [HeldTracker.process, heq] at ht'
  obtain ⟨u, hu, rfl⟩ := List.mem_map.mp ht'
  obtain ⟨hsame, -, -, hsameAge, -⟩ := sameTrack_listedTrack kf u
  rw [hsame.serial] at hserial
  rw [hsameAge] at hage
  rcases of_mem_keptTracks kf hu with ⟨t, ht, htu, hturned⟩ | hnew
  · refine .inl ⟨t.timeSinceUpdate, live_eq_some.mpr ⟨t, ht, htu.serial.symm.trans hserial, rfl⟩, ?_⟩
    cases hturned with
    | matched detection hmem hzero => exact .inl (hage.symm.trans hzero)
    | missed hconfirmed hnext hmax =>
      refine .inr ⟨hage.symm.trans hnext, ?_⟩
      rw [← hage, ← (b.property.tracks t ht).args.2]
      exact hmax
  · have hmem : u.serial ∈ List.range' b.val.born news.length := hrange ▸ List.mem_map_of_mem hnew
    exact .inr ⟨hserial ▸ (List.mem_range'_1.mp hmem).1, hage.symm.trans (hcreated u hnew).age⟩

lemma born_process (b : HeldTracker S K) (frameDesc : MaTrackerFrameDesc) (detections : List MaTrackerDetection)
    (trackList : List TrackNode) :
    b.val.born ≤ (b.process kf store value frameDesc detections trackList).1.val.born := by
  obtain ⟨news, -, heq⟩ := b.val.process_eq kf store (detections.map (toByteTrackDetection value frameDesc))
    b.property.nextIdx trackList
  simp only [HeldTracker.process, heq]
  exact Nat.le_add_right _ _

lemma maxAge_process (b : HeldTracker S K) (frameDesc : MaTrackerFrameDesc) (detections : List MaTrackerDetection)
    (trackList : List TrackNode) :
    (b.process kf store value frameDesc detections trackList).1.val.maxAge = b.val.maxAge := by
  obtain ⟨news, -, heq⟩ := b.val.process_eq kf store (detections.map (toByteTrackDetection value frameDesc))
    b.property.nextIdx trackList
  simp only [HeldTracker.process, heq]

end

/-! ## The nodes of held tracks -/

section
variable {S K : Type}

/-- A node is that of one of the tracks. -/
def IsNodeOf (tracks : List (Track S K)) (node : TrackNode) : Prop :=
  ∃ t ∈ tracks, t.serial = node.serial ∧ t.trackId = nodeId node

def NodesHeld (tracks : List (Track S K)) (trackList : List TrackNode) : Prop :=
  ∀ node ∈ trackList, node.state = .normal → IsNodeOf tracks node

instance (tracks : List (Track S K)) (trackList : List TrackNode) : Decidable (NodesHeld tracks trackList) :=
  inferInstanceAs (Decidable (∀ node ∈ trackList, node.state = .normal → ∃ t ∈ tracks, _ ∧ _))

lemma NodesHeld.deleteFirstNode {tracks : List (Track S K)} {trackList : List TrackNode} (h : NodesHeld tracks trackList)
    (id : Int) : NodesHeld tracks (deleteFirstNode id trackList) := by
  induction trackList with
  | nil => exact h
  | cons first trackList ih =>
    have hrest : NodesHeld tracks trackList := fun node hnode => h node (List.mem_cons_of_mem _ hnode)
    rw [Camera.deleteFirstNode]
    split
    · intro node hnode hnormal
      rcases List.mem_cons.mp hnode with rfl | hnode
      · cases hnormal
      · exact hrest node hnode hnormal
    · intro node hnode hnormal
      rcases List.mem_cons.mp hnode with rfl | hnode
      · exact h _ List.mem_cons_self hnormal
      · exact ih hrest node hnode hnormal

lemma NodesHeld.writeNode {tracks : List (Track S K)} {trackList : List TrackNode} (h : NodesHeld tracks trackList)
    {id : Int} {write : TrackNode → TrackNode} (hwrite : ∀ node, IsNodeOf tracks (write node)) :
    NodesHeld tracks (writeNode id write trackList) := by
  induction trackList with
  | nil =>
    intro node hnode _
    rw [List.mem_singleton.mp hnode]
    exact hwrite _
  | cons first trackList ih =>
    have hrest : NodesHeld tracks trackList := fun node hnode => h node (List.mem_cons_of_mem _ hnode)
    rw [Camera.writeNode]
    split
    · intro node hnode hnormal
      rcases List.mem_cons.mp hnode with rfl | hnode
      · exact hwrite _
      · exact hrest node hnode hnormal
    · intro node hnode hnormal
      rcases List.mem_cons.mp hnode with rfl | hnode
      · exact h _ List.mem_cons_self hnormal
      · exact ih hrest node hnode hnormal

variable [Field K] [LinearOrder K] (kf : KalmanFilter S K) (store : K → F32)

omit [LinearOrder K] in
/-- The last loop of `Process`, over some of the tracks. -/
lemma NodesHeld.foldl_listTrack {tracks : List (Track S K)} (hids : ∀ t ∈ tracks, t.trackId = idOf t.serial)
    {rest : List (Track S K)} (hrest : ∀ t ∈ rest, t ∈ tracks) {trackList : List TrackNode}
    (h : NodesHeld tracks trackList) :
    NodesHeld tracks (rest.foldl (ByteTracker.listTrack kf store) trackList) := by
  induction rest generalizing trackList with
  | nil => exact h
  | cons t rest ih =>
    refine ih (fun u hu => hrest u (List.mem_cons_of_mem _ hu)) ?_
    have ht : t ∈ tracks := hrest t List.mem_cons_self
    rw [ByteTracker.listTrack]
    split
    · exact h
    · split
      · exact h.deleteFirstNode t.trackId
      · exact h.writeNode fun node => ⟨t, ht, rfl, (nodeId_of_id (hids t ht) rfl).symm⟩

omit [Field K] [LinearOrder K] in
/-- The loop over the tracks that are deleted leaves only nodes of the others. -/
lemma nodeId_ne_of_mem_foldl {dead : List (Track S K)} {trackList : List TrackNode} {node : TrackNode}
    (h : node ∈ dead.foldl (fun trackList t => deleteNodes t.trackId trackList) trackList)
    (hnormal : node.state = .normal) : node ∈ trackList ∧ ∀ t ∈ dead, nodeId node ≠ t.trackId := by
  rcases mem_foldl_deleteNodes h with hold | ⟨hdel, -⟩
  · exact hold
  · cases hnormal.symm.trans hdel

variable [IsStrictOrderedRing K] [Archimedean K]

/-- What is not marked as deleted after a call is the node of a track that is still held. -/
lemma NodesHeld.process {b : Camera.ByteTracker S K} (hb : TrackerInv b) {detections : List (DetectionRow K)}
    {trackList : List TrackNode} (h : NodesHeld b.tracks trackList) :
    NodesHeld (b.process kf store detections trackList).1.tracks (b.process kf store detections trackList).2 := by
  have hinv := hb.process kf store detections trackList
  obtain ⟨news, -, heq⟩ := b.process_eq kf store detections hb.nextIdx trackList
  have hids : ∀ t ∈ keptTracks kf b detections news, t.trackId = idOf t.serial := by
    intro t ht
    rw [heq] at hinv
    have hid := (hinv.tracks _ (List.mem_map_of_mem ht)).trackId
    rwa [(sameTrack_listedTrack kf t).1.trackId, (sameTrack_listedTrack kf t).1.serial] at hid
  have hstart : NodesHeld (keptTracks kf b detections news)
      (((b.outcomes kf detections).filter fun t => t.state = .deleted).foldl
        (fun trackList t => deleteNodes t.trackId trackList) trackList) := by
    intro node hnode hnormal
    obtain ⟨hold, hne⟩ := nodeId_ne_of_mem_foldl hnode hnormal
    obtain ⟨t, ht, hserial, hid⟩ := h node hold hnormal
    obtain ⟨t', ht', houtcome⟩ := exists_mem_outcomes kf detections ht
    have hid' : t'.trackId = nodeId node := houtcome.same.trackId.trans hid
    have hlive : t'.state ≠ .deleted := fun hdead =>
      hne t' (List.mem_filter.mpr ⟨ht', decide_eq_true hdead⟩) hid'.symm
    exact ⟨t', List.mem_append_left _ (List.mem_filter.mpr ⟨ht', decide_eq_true hlive⟩),
      houtcome.same.serial.trans hserial, hid'⟩
  have hlisted := hstart.foldl_listTrack kf store hids fun t ht => ht
  rw [heq]
  intro node hnode hnormal
  obtain ⟨t, ht, hserial, hid⟩ := hlisted node hnode hnormal
  have hsame := (sameTrack_listedTrack kf t).1
  exact ⟨_, List.mem_map_of_mem ht, hsame.serial.trans hserial, hsame.trackId.trans hid⟩

end

/-! ## The runs of the tracking step -/

section
variable {S K : Type} [Field K] [LinearOrder K] [IsStrictOrderedRing K] [Archimedean K] (kf : KalmanFilter S K)
  (store : K → F32) (value : F32 → K)

/-- The library, except that it empties a list that no call of it has left; so the law of the list holds too. -/
def guardedTracker : ByteTracker (HeldTracker S K) :=
  { cameraTracker kf store value with
    process := fun b frameDesc detections trackList =>
      let r := b.process kf store value frameDesc detections trackList
      if NodesHeld b.val.tracks trackList then r else (r.1, []) }

lemma guardedTracker_process_fst (b : HeldTracker S K) (frameDesc : MaTrackerFrameDesc)
    (detections : List MaTrackerDetection) (trackList : List TrackNode) :
    ((guardedTracker kf store value).process b frameDesc detections trackList).1 =
      (b.process kf store value frameDesc detections trackList).1 := by
  simp only [guardedTracker]
  split <;> rfl

lemma guardedTracker_turn {p : HeldTracker S K × List TrackNode} (h : NodesHeld p.1.val.tracks p.2)
    (frameDesc : MaTrackerFrameDesc) (detections : List MaTrackerDetection) :
    (guardedTracker kf store value).turn frameDesc detections p =
      (cameraTracker kf store value).turn frameDesc detections p := by
  simp only [ByteTracker.turn, guardedTracker, cameraTracker, if_pos h]

lemma guardedTracker_laws : (guardedTracker kf store value).Laws where
  create_live args k := rfl
  create_born args := rfl
  create_maxAge args := rfl
  maxAge b frameDesc detections trackList := by
    rw [guardedTracker_process_fst]
    exact maxAge_process kf store value b frameDesc detections trackList
  aged b frameDesc detections trackList k age h := by
    rw [guardedTracker_process_fst]
    cases hlive : (b.process kf store value frameDesc detections trackList).1.live k with
    | none => exact .inr (.inr hlive)
    | some after =>
      rcases live_process kf store value hlive with ⟨before, hbefore, hage⟩ | ⟨hborn, -⟩
      · have heq : before = age := Option.some.inj (hbefore.symm.trans h)
        rcases hage with rfl | ⟨rfl, hlt⟩
        · exact .inl hlive
        · exact .inr (.inl ⟨heq ▸ hlive, heq ▸ hlt⟩)
      · obtain ⟨t, ht, rfl, -⟩ := live_eq_some.mp h
        exact absurd (b.property.born t ht) (not_lt.mpr hborn)
  created b frameDesc detections trackList k h := by
    rw [guardedTracker_process_fst]
    cases hlive : (b.process kf store value frameDesc detections trackList).1.live k with
    | none => exact .inl hlive
    | some after =>
      rcases live_process kf store value hlive with ⟨before, hbefore, -⟩ | ⟨hborn, rfl⟩
      · cases h.symm.trans hbefore
      · exact .inr ⟨hborn, hlive⟩
  live_born b k age h := by
    obtain ⟨t, ht, rfl, -⟩ := live_eq_some.mp h
    exact b.property.born t ht
  born b frameDesc detections trackList := by
    rw [guardedTracker_process_fst]
    exact born_process kf store value b frameDesc detections trackList
  listed b frameDesc detections trackList _ node hnode hnormal := by
    simp only [guardedTracker] at hnode ⊢
    split at hnode
    · rename_i hheld
      rw [if_pos hheld]
      obtain ⟨t, ht, hserial, -⟩ := hheld.process kf store b.property node hnode hnormal
      exact Option.isSome_iff_exists.mpr ⟨_, live_eq_some.mpr ⟨t, ht, hserial, rfl⟩⟩
    · cases hnode

variable {iou : TrackIou K} {std : CandidateSort K} {same : SameProtoMessage} {cfg : TrackerConfig} {width height : Int}

structure LibraryInv (cfg : TrackerConfig) (width height : Int) (s : TrackedFrames (HeldTracker S K)) : Prop where
  fits : StepFits cfg width height s.step
  ages : AgeInv (guardedTracker kf store value) (resolveInt cfg.maxAge kDefaultMaxAge)
    (s.step.native.getD ((guardedTracker kf store value).fresh cfg width height)) s.missed s.stale
  nodes : ∀ p, s.step.native = some p → NodesHeld p.1.val.tracks p.2
  noStaleId : s.NoStaleId

lemma NodesHeld.turn {p : HeldTracker S K × List TrackNode} (h : NodesHeld p.1.val.tracks p.2)
    (frameDesc : MaTrackerFrameDesc) (detections : List MaTrackerDetection) :
    NodesHeld ((cameraTracker kf store value).turn frameDesc detections p).1.val.tracks
      ((cameraTracker kf store value).turn frameDesc detections p).2 :=
  fun node hnode => h.process kf store p.1.property node (List.mem_filter.mp hnode).1

lemma LibraryInv.next (hsame : same.tracker cfg cfg = true) {s s' : TrackedFrames (HeldTracker S K)}
    (h : LibraryInv kf store value cfg width height s) {a : InferredFrame}
    (hintime : s.AgedInTime (cameraTracker kf store value) cfg a)
    (hnext : (trackedSystem (cameraTracker kf store value) iou std same cfg width height).next s a = some s') :
    LibraryInv kf store value cfg width height s' := by
  obtain ⟨⟨hcfg, rfl, rfl⟩, hs'⟩ := Option.ite_none_right_eq_some.mp hnext
  cases hs'
  have hlaws := guardedTracker_laws kf store value
  by_cases hobjects : a.objects = []
  · rw [run_empty _ _ _ _ _ hobjects, TrackedFrames.after, if_pos hobjects]
    exact ⟨h.fits, h.ages.skip, h.nodes, fun k hk => absurd hk List.not_mem_nil⟩
  · obtain ⟨hfits, hturns⟩ := run_turns (cameraTracker kf store value) iou std hsame h.fits hcfg hobjects
    rw [TrackedFrames.after, if_neg hobjects]
    rcases hturns with ⟨hbefore, hafter⟩ | hafter
    · have hages := h.ages
      rw [hbefore] at hages
      refine ⟨hfits, ?_, ?_, ?_⟩
      · rw [hafter]
        exact hages.skip
      · rw [hafter]
        exact fun p hp => absurd hp (Option.some_ne_none p).symm
      · rw [hafter]
        exact fun k hk => absurd hk List.not_mem_nil
    · have hheld : NodesHeld (s.step.native.getD
          ((cameraTracker kf store value).fresh cfg a.frame.width a.frame.height)).1.val.tracks
          (s.step.native.getD ((cameraTracker kf store value).fresh cfg a.frame.width a.frame.height)).2 := by
        cases hnative : s.step.native with
        | none => exact fun node hnode => absurd hnode List.not_mem_nil
        | some p => exact h.nodes p hnative
      have hintime' := h.ages.inTime (hlaws.create_live _) hobjects hintime
      have hguard := guardedTracker_turn kf store value hheld ⟨a.frame.width, a.frame.height, a.frame.timestampMs⟩
        (a.objects.map toDetection)
      have hsameFresh : (guardedTracker kf store value).fresh cfg a.frame.width a.frame.height =
        (cameraTracker kf store value).fresh cfg a.frame.width a.frame.height := rfl
      have hages := h.ages.turn hlaws (resolveInt_pos _) hintime'
        ⟨a.frame.width, a.frame.height, a.frame.timestampMs⟩ (a.objects.map toDetection)
      have hfresh := h.ages.turn_fresh hlaws (resolveInt_pos _) hintime'
        ⟨a.frame.width, a.frame.height, a.frame.timestampMs⟩ (a.objects.map toDetection)
      rw [hsameFresh, hguard] at hages hfresh
      refine ⟨hfits, ?_, ?_, ?_⟩
      · rw [hafter]
        exact hages
      · rw [hafter]
        intro p hp
        cases hp
        exact hheld.turn kf store value _ _
      · rw [hafter]
        exact fun k hk => hages.noStaleId hfresh hk

/-- With the library in its place nothing is assumed of it: in a run where each frame with objects finds only tracks that
have aged in time, no detection gets its id from a stale track. Later tracks may have the same id again, since the ids
wrap. -/
theorem noStaleId_cameraTracker (hsame : same.tracker cfg cfg = true) {s : TrackedFrames (HeldTracker S K)}
    (h : (trackedSystem (cameraTracker kf store value) iou std same cfg width height).ReachableWhen
      (TrackedFrames.AgedInTime (cameraTracker kf store value) cfg) s) : s.NoStaleId := by
  refine (h.invariant (I := LibraryInv kf store value cfg width height) ?_
    fun _ _ _ hinv hintime hnext => hinv.next kf store value hsame hintime hnext).noStaleId
  exact ⟨⟨fun h => absurd h Bool.false_ne_true, fun t h => (Option.some_ne_none t h.symm).elim⟩,
    ageInv_fresh (guardedTracker_laws kf store value) cfg width height,
    fun p hp => (Option.some_ne_none p hp.symm).elim, fun k hk => absurd hk List.not_mem_nil⟩

end

/-- The number that the bits of a positive `float` stand for. -/
def normalValue (f : F32) : ℚ :=
  let exponent := f.bits.toNat / 2 ^ 23
  if exponent = 0 then 0 else (1 + (f.bits.toNat % 2 ^ 23 : ℕ) / 2 ^ 23) * 2 ^ exponent / 2 ^ 127

/-- The `float` of a number, for the numbers of the run below. -/
def normalStore (x : ℚ) : F32 :=
  if x = 25 then ⟨0x41C80000⟩ else if x = 50 then ⟨0x42480000⟩ else if x = 125 / 2 then ⟨0x427A0000⟩ else ⟨0⟩

abbrev libraryTracker := cameraTracker stillFilter normalStore normalValue

abbrev librarySystem (cfg : TrackerConfig) : Machine (TrackedFrames (HeldTracker (Bbox ℚ) ℚ)) InferredFrame :=
  trackedSystem libraryTracker (nativeTrackIou normalValue) insertionCandidateSort structuralEquality cfg 100 100

/-- Two frames with an object and one without between them: the second detection gets the id of the track that the first
one has started. -/
theorem noStaleId_cameraTracker_thirdFrame : ∃ s,
    (librarySystem longerAge).ReachableWhen (TrackedFrames.AgedInTime libraryTracker longerAge) s ∧
      s.given = [0] ∧ s.NoStaleId := by
  obtain ⟨s, hs, hgiven⟩ := Machine.reachableWhen_of_exec_any (librarySystem longerAge)
    (fun s _ => s.step.native.all fun p => p.1.val.tracks.all fun t =>
      (s.missed t.serial).all fun n => decide (n < 2))
    [stillFrame longerAge true, stillFrame longerAge false, stillFrame longerAge true]
    (fun s => decide (s.given = [0])) (by decide +kernel)
  have hintime : (librarySystem longerAge).ReachableWhen (TrackedFrames.AgedInTime libraryTracker longerAge) s := by
    refine hs.mono fun u a hu _ p hp k age n hlive hn => .inr ?_
    obtain ⟨t, ht, rfl, -⟩ := live_eq_some.mp hlive
    rw [hp, Option.all_some] at hu
    have hyoung := List.all_eq_true.mp hu t ht
    rw [hn] at hyoung
    exact Int.ofNat_lt.mpr (of_decide_eq_true hyoung)
  exact ⟨s, hintime, of_decide_eq_true hgiven, noStaleId_cameraTracker stillFilter normalStore normalValue rfl hintime⟩

end MediaAgent
