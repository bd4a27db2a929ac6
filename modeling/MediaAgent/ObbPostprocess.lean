import Mathlib.Tactic.NormNum
import MediaAgent.Postprocess

/-!
# The suppression of the model with rotated boxes

`nms` of `yolov8_obb/postprocess.cc` and what `post_process` does around it. For an entry of `order` it compares the
class that `classIds` has at the place of the entry, where the detection model's `nms` compares the class of the
candidate. `calIou` stands for `Cal_IOU`.
-/

namespace MediaAgent.Yolov8Obb

open Yolov8 (sortedIndices sortedIndices_map_snd classSet classSet_nodup mem_classSet)
open Suppression

structure RotatedBox (K : Type) where
  x : K
  y : K
  w : K
  h : K
  angle : K
  deriving DecidableEq, Repr

/-- The vectors that the three calls of `process` fill. The five floats of a box are one entry of `boxes`. -/
structure Candidates (K : Type) where
  validCount : ℕ
  boxes : List (RotatedBox K)
  objProbs : List K
  classId : List ℤ

section
variable {K : Type} [Field K] [LinearOrder K] (calIou : RotatedBox K → RotatedBox K → K)

def iou (outputLocations : List (RotatedBox K)) (n m : ℕ) : K :=
  calIou (outputLocations.getD n ⟨0, 0, 0, 0, 0⟩) (outputLocations.getD m ⟨0, 0, 0, 0, 0⟩)

/-- The body of the loop over `j` for the candidate `n`. An entry of `order` that was set to `-1` is `none`. -/
def nmsInner (outputLocations : List (RotatedBox K)) (classIds : List ℤ) (filterId : ℤ) (threshold : K) (n : ℕ)
    (order : List (Option ℕ)) (j : ℕ) : List (Option ℕ) :=
  match order.getD j none with
  | none => order
  | some m =>
    -- the class at the place `j`, which need not be that of `m`
    if classIds.getD j 0 ≠ filterId then order
    else if threshold < iou calIou outputLocations n m then order.set j none
    else order

/-- The body of the loop over `i`. -/
def nmsOuter (validCount : ℕ) (outputLocations : List (RotatedBox K)) (classIds : List ℤ) (filterId : ℤ)
    (threshold : K) (order : List (Option ℕ)) (i : ℕ) : List (Option ℕ) :=
  match order.getD i none with
  | none => order
  | some n =>
    if classIds.getD i 0 ≠ filterId then order
    else (List.range' (i + 1) (validCount - (i + 1))).foldl
      (nmsInner calIou outputLocations classIds filterId threshold n) order

def nms (validCount : ℕ) (outputLocations : List (RotatedBox K)) (classIds : List ℤ) (filterId : ℤ) (threshold : K)
    (order : List (Option ℕ)) : List (Option ℕ) :=
  (List.range validCount).foldl (nmsOuter calIou validCount outputLocations classIds filterId threshold) order

variable [Inhabited K]

/-- `indexArray` after the sorting and the passes of all classes. -/
def suppressed (found : Candidates K) (nmsThreshold : K) : List (Option ℕ) :=
  (classSet found.classId).foldl
    (fun order c => nms calIou found.validCount found.boxes found.classId c nmsThreshold order)
    ((sortedIndices found.objProbs).map fun p => some p.2)

/-- The candidates that are left, the most confident first. -/
def survivors (found : Candidates K) (nmsThreshold : K) : List ℕ := (suppressed calIou found nmsThreshold).reduceOption

end

/-! ## The entries with their places -/

/-- An entry of `order` together with its place, by which `nms` looks up the class. -/
def placed (order : List (Option ℕ)) : List (Option (ℕ × ℕ)) := order.mapIdx fun j o => o.map (Prod.mk j)

def placeClass (classIds : List ℤ) (p : ℕ × ℕ) : ℤ := classIds.getD p.1 0

lemma getElem?_placed (order : List (Option ℕ)) (j : ℕ) :
    (placed order)[j]? = order[j]?.map (Option.map (Prod.mk j)) :=
  List.getElem?_mapIdx

@[simp] lemma length_placed (order : List (Option ℕ)) : (placed order).length = order.length :=
  List.length_mapIdx

lemma left_placed {order : List (Option ℕ)} {j : ℕ} {p : ℕ × ℕ} :
    Left (placed order) j p ↔ p.1 = j ∧ order[j]? = some (some p.2) := by
  rw [Left, getElem?_placed]
  cases order[j]? with
  | none => simp
  | some o =>
    cases o with
    | none => simp
    | some n => simp [Prod.ext_iff, eq_comm]

lemma placed_map_some (l : List ℕ) : placed (l.map some) = (l.mapIdx Prod.mk).map some := by
  apply List.ext_getElem?
  intro j
  rw [getElem?_placed, List.getElem?_map, List.getElem?_map, List.getElem?_mapIdx]
  cases l[j]? <;> rfl

lemma map_snd_placed (order : List (Option ℕ)) : (placed order).map (Option.map Prod.snd) = order := by
  apply List.ext_getElem?
  intro j
  rw [List.getElem?_map, getElem?_placed]
  cases order[j]? with
  | none => rfl
  | some o => cases o <;> rfl

lemma reduceOption_placed (order : List (Option ℕ)) :
    order.reduceOption = (placed order).reduceOption.map Prod.snd := by
  conv_lhs => rw [← map_snd_placed order]
  exact List.reduceOption_map

section
variable {K : Type} [Field K] [LinearOrder K] {calIou : RotatedBox K → RotatedBox K → K}
  {boxes : List (RotatedBox K)} {classIds : List ℤ} {threshold : K} {c : ℤ}

variable (calIou boxes threshold) in
def overlaps (p q : ℕ × ℕ) : Bool := threshold < iou calIou boxes p.2 q.2

lemma placed_nmsInner {i n : ℕ} (hn : classIds.getD i 0 = c) (order : List (Option ℕ)) (j : ℕ) :
    placed (nmsInner calIou boxes classIds c threshold n order j) = (placed order).modify j fun o =>
      o.filter fun q => !within (placeClass classIds) (overlaps calIou boxes threshold) c (i, n) q := by
  apply List.ext_getElem?
  intro k
  rw [getElem?_placed, List.getElem?_modify, getElem?_placed, nmsInner, List.getD_eq_getElem?_getD]
  by_cases hk : j = k
  · subst hk
    cases ho : order[j]? with
    | none => simp [ho]
    | some o =>
      cases o with
      | none => simp [ho]
      | some m =>
        have hj : j < order.length := (List.getElem?_eq_some_iff.mp ho).1
        have h : within (placeClass classIds) (overlaps calIou boxes threshold) c (i, n) (j, m) ↔
            classIds.getD j 0 = c ∧ threshold < iou calIou boxes n m := by
          rw [within_iff, placeClass, placeClass, overlaps, decide_eq_true_iff]
          exact ⟨And.right, fun h => ⟨hn, h⟩⟩
        simp only [Option.getD_some, ite_not]
        by_cases hclass : classIds.getD j 0 = c
        · by_cases hiou : threshold < iou calIou boxes n m
          · have hwithin := h.mpr ⟨hclass, hiou⟩
            rw [if_pos hclass, if_pos hiou, List.getElem?_set_self hj]
            simp [Option.filter, hwithin]
          · have hwithin := Bool.eq_false_iff.mpr fun hw => hiou (h.mp hw).2
            rw [if_pos hclass, if_neg hiou, ho]
            simp [Option.filter, hwithin]
        · have hwithin := Bool.eq_false_iff.mpr fun hw => hclass (h.mp hw).1
          rw [if_neg hclass, ho]
          simp [Option.filter, hwithin]
  · simp only [if_neg hk]
    split
    · simp
    · split
      · simp
      · split
        · rw [List.getElem?_set_ne hk]
          simp
        · simp

lemma placed_foldl_nmsInner {i n : ℕ} (hn : classIds.getD i 0 = c) (js : List ℕ) (order : List (Option ℕ)) :
    placed (js.foldl (nmsInner calIou boxes classIds c threshold n) order) =
      strike (within (placeClass classIds) (overlaps calIou boxes threshold) c (i, n)) js (placed order) := by
  induction js generalizing order with
  | nil => rfl
  | cons j js ih =>
    rw [List.foldl_cons, ih, placed_nmsInner hn]
    rfl

lemma placed_nmsOuter {order : List (Option ℕ)} {validCount : ℕ} (hlen : order.length = validCount) (i : ℕ) :
    placed (nmsOuter calIou validCount boxes classIds c threshold order i) =
      turn (within (placeClass classIds) (overlaps calIou boxes threshold) c) (placed order) i := by
  rw [nmsOuter, turn, getElem?_placed, List.getD_eq_getElem?_getD, length_placed, hlen]
  cases order[i]? with
  | none => rfl
  | some o =>
    cases o with
    | none => rfl
    | some n =>
      simp only [Option.getD_some, Option.map_some]
      by_cases hn : classIds.getD i 0 = c
      · rw [if_neg (not_not.mpr hn)]
        exact placed_foldl_nmsInner hn _ order
      · rw [if_pos hn, strike_of_false]
        intro q
        rw [within, placeClass, decide_eq_false hn]
        rfl

lemma placed_nms {order : List (Option ℕ)} {validCount : ℕ} (hlen : order.length = validCount) :
    placed (nms calIou validCount boxes classIds c threshold order) =
      sweep (within (placeClass classIds) (overlaps calIou boxes threshold) c) (placed order) := by
  rw [nms, sweep, length_placed, hlen]
  generalize List.range validCount = is
  induction is generalizing order with
  | nil => rfl
  | cons i is ih =>
    have hturn : placed (nmsOuter calIou validCount boxes classIds c threshold order i) = _ := placed_nmsOuter hlen i
    rw [List.foldl_cons, List.foldl_cons, ← hturn]
    apply ih
    rw [← length_placed, hturn, length_turn, length_placed, hlen]

lemma placed_foldl_nms {order : List (Option ℕ)} {validCount : ℕ} (hlen : order.length = validCount) (cs : List ℤ) :
    placed (cs.foldl (fun order c => nms calIou validCount boxes classIds c threshold order) order) =
      cs.foldl (fun marks c => sweep (within (placeClass classIds) (overlaps calIou boxes threshold) c) marks)
        (placed order) := by
  induction cs generalizing order with
  | nil => rfl
  | cons c cs ih =>
    rw [List.foldl_cons, List.foldl_cons, ← placed_nms hlen]
    apply ih
    rw [← length_placed, placed_nms hlen, length_sweep, length_placed, hlen]

end

/-! ## What is meant by it -/

/-- The vectors are of one length. -/
structure Candidates.Even {K : Type} (found : Candidates K) : Prop where
  objProbs : found.objProbs.length = found.validCount
  classId : found.classId.length = found.validCount

section
variable {K : Type} [LinearOrder K] [Inhabited K]

/-- The candidates in the order of their confidences. -/
def sorted (objProbs : List K) : List ℕ := (sortedIndices objProbs).map Prod.snd

/-- At any two places the classes are the same exactly if those of the candidates are that the sorting puts there. -/
def ClassesInPlace (objProbs : List K) (classId : List ℤ) : Prop :=
  ∀ i < objProbs.length, ∀ j < objProbs.length, classId.getD i 0 = classId.getD j 0 ↔
    classId.getD ((sorted objProbs).getD i 0) 0 = classId.getD ((sorted objProbs).getD j 0) 0

lemma lt_of_sorted {objProbs : List K} {i n : ℕ} (h : (sorted objProbs)[i]? = some n) : n < objProbs.length :=
  List.mem_range.mp ((sortedIndices_map_snd objProbs).subset (List.mem_of_getElem? h))

lemma length_sorted (objProbs : List K) : (sorted objProbs).length = objProbs.length := by
  rw [sorted, (sortedIndices_map_snd objProbs).length_eq, List.length_range]

lemma sorted_inj {objProbs : List K} {i j n : ℕ} (hi : (sorted objProbs)[i]? = some n)
    (hj : (sorted objProbs)[j]? = some n) : i = j := by
  have hnodup : (sorted objProbs).Nodup := (sortedIndices_map_snd objProbs).nodup_iff.mpr List.nodup_range
  exact (List.getElem?_inj (List.getElem?_eq_some_iff.mp hi).1 hnodup).mp (hi.trans hj.symm)

lemma sorted_ne {objProbs : List K} {i j n m : ℕ} (hij : i ≠ j) (hi : (sorted objProbs)[i]? = some n)
    (hj : (sorted objProbs)[j]? = some m) : n ≠ m := by
  rintro rfl
  exact hij (sorted_inj hi hj)

lemma Candidates.Even.lt_of_sorted {found : Candidates K} (hfound : found.Even) {i n : ℕ}
    (h : (sorted found.objProbs)[i]? = some n) : n < found.validCount := by
  rw [← hfound.objProbs]
  exact Yolov8Obb.lt_of_sorted h

lemma getD_sorted {objProbs : List K} {i n : ℕ} (h : (sorted objProbs)[i]? = some n) :
    (sorted objProbs).getD i 0 = n := by
  rw [List.getD_eq_getElem?_getD, h]
  rfl

lemma exists_sorted {objProbs : List K} {n : ℕ} (hn : n < objProbs.length) :
    ∃ i : ℕ, (sorted objProbs)[i]? = some n := by
  apply List.mem_iff_getElem?.mp
  exact (sortedIndices_map_snd objProbs).mem_iff.mpr (List.mem_range.mpr hn)

end

section
variable {K : Type} [Field K] [LinearOrder K] [Inhabited K] {calIou : RotatedBox K → RotatedBox K → K}
  {found : Candidates K} {nmsThreshold : K}

variable (calIou) in
/-- Two candidates of one class whose boxes overlap. -/
def Overlapping (found : Candidates K) (nmsThreshold : K) (n m : ℕ) : Prop :=
  found.classId.getD n 0 = found.classId.getD m 0 ∧ nmsThreshold < iou calIou found.boxes n m

variable (calIou) in
/-- Of those that are left no two overlap in one class, and whatever is struck out overlaps one of them that is at
least as confident. -/
structure Intended (found : Candidates K) (nmsThreshold : K) : Prop where
  falling : (survivors calIou found nmsThreshold).Pairwise fun n m =>
    found.objProbs.getD m 0 ≤ found.objProbs.getD n 0
  apart : (survivors calIou found nmsThreshold).Pairwise fun n m => ¬Overlapping calIou found nmsThreshold n m
  covered : ∀ m < found.validCount, m ∈ survivors calIou found nmsThreshold ∨
    ∃ n ∈ survivors calIou found nmsThreshold, Overlapping calIou found nmsThreshold n m ∧
      found.objProbs.getD m 0 ≤ found.objProbs.getD n 0

lemma placed_suppressed (hfound : found.Even) :
    placed (suppressed calIou found nmsThreshold) = (classSet found.classId).foldl
      (fun marks c => sweep (within (placeClass found.classId) (overlaps calIou found.boxes nmsThreshold) c) marks)
      (placed ((sorted found.objProbs).map some)) := by
  have hmap : (sortedIndices found.objProbs).map (fun p => some p.2) = (sorted found.objProbs).map some := by
    rw [sorted, List.map_map]
    rfl
  rw [suppressed, hmap]
  apply placed_foldl_nms
  rw [List.length_map, length_sorted, hfound.objProbs]

lemma length_suppressed (hfound : found.Even) :
    (suppressed calIou found nmsThreshold).length = found.objProbs.length := by
  rw [← length_placed, placed_suppressed hfound, (groupsSwept_foldl (classSet_nodup _) _).1, length_placed,
    List.length_map, length_sorted]

/-- The passes suppress inside of the classes that the places have. -/
lemma suppressed_swept (hfound : found.Even) :
    Swept (alike (placeClass found.classId) (overlaps calIou found.boxes nmsThreshold))
      (placed ((sorted found.objProbs).map some)) (placed (suppressed calIou found nmsThreshold)) := by
  rw [placed_suppressed hfound]
  apply swept_foldl (classSet_nodup found.classId)
  intro j p hp
  have hlt := lt_length_of_left hp
  rw [length_placed, List.length_map, length_sorted, hfound.objProbs, ← hfound.classId, ← (left_placed.mp hp).1] at hlt
  rw [mem_classSet, placeClass, List.getD_eq_getElem _ _ hlt]
  exact List.getElem_mem hlt

lemma mapIdx_sorted_falling (objProbs : List K) :
    ((sorted objProbs).mapIdx Prod.mk).Pairwise fun p q => objProbs.getD q.2 0 ≤ objProbs.getD p.2 0 := by
  have hfall : (sorted objProbs).Pairwise _ := Yolov8.sorted_falling { objProbs := objProbs }
  rw [List.pairwise_iff_getElem] at hfall ⊢
  intro i j hi hj hij
  rw [List.getElem_mapIdx, List.getElem_mapIdx]
  exact hfall i j _ _ hij

omit [Field K] in
lemma left_sorted {objProbs : List K} {j : ℕ} {p : ℕ × ℕ} :
    Left (placed ((sorted objProbs).map some)) j p ↔ p.1 = j ∧ (sorted objProbs)[j]? = some p.2 := by
  rw [left_placed, List.getElem?_map]
  cases (sorted objProbs)[j]? <;> simp

lemma sorted_of_left (hfound : found.Even) {j n : ℕ}
    (h : Left (placed (suppressed calIou found nmsThreshold)) j (j, n)) : (sorted found.objProbs)[j]? = some n :=
  (left_sorted.mp ((suppressed_swept hfound j (j, n)).mp h).1).2

lemma mem_survivors {n : ℕ} :
    n ∈ survivors calIou found nmsThreshold ↔ ∃ j, Left (placed (suppressed calIou found nmsThreshold)) j (j, n) := by
  rw [survivors, mem_reduceOption_iff]
  refine exists_congr fun j => ?_
  rw [left_placed]
  exact ⟨fun h => ⟨rfl, h⟩, And.right⟩

lemma intended_of_classesInPlace (hfound : found.Even) (h : ClassesInPlace found.objProbs found.classId) :
    Intended calIou found nmsThreshold := by
  have hswept : Swept _ _ (placed (suppressed calIou found nmsThreshold)) := suppressed_swept hfound
  have hplace : ∀ p ∈ (placed (suppressed calIou found nmsThreshold)).reduceOption,
      (sorted found.objProbs)[p.1]? = some p.2 := by
    intro p hp
    obtain ⟨j, hj⟩ := mem_reduceOption_iff.mp hp
    obtain ⟨rfl, hn⟩ := left_sorted.mp ((hswept j p).mp hj).1
    exact hn
  have hclass : ∀ p q : ℕ × ℕ, (sorted found.objProbs)[p.1]? = some p.2 → (sorted found.objProbs)[q.1]? = some q.2 →
      (placeClass found.classId p = placeClass found.classId q ↔
        found.classId.getD p.2 0 = found.classId.getD q.2 0) := by
    intro p q hp hq
    have hpq := h p.1 (by rw [← length_sorted]; exact (List.getElem?_eq_some_iff.mp hp).1)
      q.1 (by rw [← length_sorted]; exact (List.getElem?_eq_some_iff.mp hq).1)
    rwa [getD_sorted hp, getD_sorted hq] at hpq
  have hsub : (placed (suppressed calIou found nmsThreshold)).reduceOption.Sublist
      ((sorted found.objProbs).mapIdx Prod.mk) := by
    apply reduceOption_sublist
    · rw [length_placed, length_suppressed hfound, List.length_mapIdx, length_sorted]
    · intro j p hp
      obtain ⟨rfl, hn⟩ := left_sorted.mp ((hswept j p).mp hp).1
      rw [List.getElem?_mapIdx, hn]
      rfl
  rw [placed_map_some] at hswept
  constructor
  · rw [survivors, reduceOption_placed, List.pairwise_map]
    exact (mapIdx_sorted_falling found.objProbs).sublist hsub
  · rw [survivors, reduceOption_placed, List.pairwise_map]
    refine hswept.pairwise.imp_of_mem fun {p q} hp hq hfree hover => hfree ?_
    exact alike_iff.mpr ⟨(hclass p q (hplace p hp) (hplace q hq)).mpr hover.1, decide_eq_true hover.2⟩
  · intro m hm
    rw [← hfound.objProbs] at hm
    obtain ⟨i, hi⟩ := exists_sorted hm
    have hmem : (i, m) ∈ (sorted found.objProbs).mapIdx Prod.mk := by
      apply List.mem_of_getElem?
      rw [List.getElem?_mapIdx, hi]
      rfl
    rw [survivors, reduceOption_placed]
    obtain hleft | ⟨p, hp, hR, hprob⟩ := hswept.covers (mapIdx_sorted_falling found.objProbs) hmem
    · exact .inl (List.mem_map_of_mem hleft)
    · have hR := alike_iff.mp hR
      refine .inr ⟨p.2, List.mem_map_of_mem hp, ⟨?_, of_decide_eq_true hR.2⟩, hprob⟩
      exact (hclass p (i, m) (hplace p hp) hi).mp hR.1

end

/-! ## Two boxes that overlap -/

section
variable {K : Type} [Field K] [LinearOrder K] {calIou : RotatedBox K → RotatedBox K → K} {nmsThreshold : K}

variable (calIou nmsThreshold) in
/-- There are two boxes that overlap, and any number of others apart from them and from each other. -/
def Separates : Prop :=
  ∃ b : ℕ → RotatedBox K, ∀ i j, i ≠ j → (nmsThreshold < calIou (b i) (b j) ↔ i < 2 ∧ j < 2)

variable (calIou nmsThreshold) in
/-- Of the first `count` boxes only `a` and `b` overlap. -/
def OnlyPair (boxes : List (RotatedBox K)) (count a b : ℕ) : Prop :=
  ∀ n < count, ∀ m < count, n ≠ m → (nmsThreshold < iou calIou boxes n m ↔ (n = a ∨ n = b) ∧ (m = a ∨ m = b))

lemma Separates.onlyPair (hsep : Separates calIou nmsThreshold) (count a b : ℕ) :
    ∃ boxes : List (RotatedBox K), boxes.length = count ∧ OnlyPair calIou nmsThreshold boxes count a b := by
  obtain ⟨box, hbox⟩ := hsep
  set f : ℕ → ℕ := fun k => if k = a then 0 else if k = b then 1 else k + 2 with hf
  have hfirst : ∀ k, f k < 2 ↔ k = a ∨ k = b := by
    intro k
    simp only [hf]
    split_ifs <;> omega
  have hinj : ∀ n m, n ≠ m → f n ≠ f m := by
    intro n m hnm h
    simp only [hf] at h
    split_ifs at h <;> omega
  refine ⟨(List.range count).map fun k => box (f k), by rw [List.length_map, List.length_range], ?_⟩
  intro n hn m hm hnm
  have hget : ∀ k, k < count → ((List.range count).map fun k => box (f k)).getD k ⟨0, 0, 0, 0, 0⟩ = box (f k) := by
    intro k hk
    rw [List.getD_eq_getElem _ _ (by simpa using hk)]
    simp
  rw [iou, hget n hn, hget m hm, hbox _ _ (hinj n m hnm), hfirst, hfirst]

variable [Inhabited K] {found : Candidates K} {i j a b : ℕ}

/-- The first of the two is left. -/
lemma OnlyPair.left_first (hpair : OnlyPair calIou nmsThreshold found.boxes found.validCount a b)
    (hfound : found.Even) (hij : i < j) (hi : (sorted found.objProbs)[i]? = some a)
    (hj : (sorted found.objProbs)[j]? = some b) :
    Left (placed (suppressed calIou found nmsThreshold)) i (i, a) := by
  have hswept : Swept _ _ (placed (suppressed calIou found nmsThreshold)) := suppressed_swept hfound
  rw [hswept]
  refine ⟨left_sorted.mpr ⟨rfl, hi⟩, fun k hk q hq hR => ?_⟩
  have hkq := (left_sorted.mp ((hswept k q).mp hq).1).2
  have hne : q.2 ≠ a := sorted_ne (by omega) hkq hi
  have hover : nmsThreshold < iou calIou found.boxes q.2 a := of_decide_eq_true (alike_iff.mp hR).2
  rw [hpair _ (hfound.lt_of_sorted hkq) _ (hfound.lt_of_sorted hi) hne] at hover
  obtain heq | heq := hover.1
  · exact hne heq
  · have := sorted_inj (heq ▸ hkq) hj
    omega

/-- The second is left if the classes at the two places are different. -/
lemma OnlyPair.left_second (hpair : OnlyPair calIou nmsThreshold found.boxes found.validCount a b)
    (hfound : found.Even) (hij : i < j) (hi : (sorted found.objProbs)[i]? = some a)
    (hj : (sorted found.objProbs)[j]? = some b) :
    Left (placed (suppressed calIou found nmsThreshold)) j (j, b) ↔
      found.classId.getD i 0 ≠ found.classId.getD j 0 := by
  have hswept : Swept _ _ (placed (suppressed calIou found nmsThreshold)) := suppressed_swept hfound
  have hb := hfound.lt_of_sorted hj
  constructor
  · intro hleft hclass
    have ha := hfound.lt_of_sorted hi
    have hab : a ≠ b := sorted_ne (by omega) hi hj
    refine ((hswept j (j, b)).mp hleft).2 i hij (i, a) (hpair.left_first hfound hij hi hj) ?_
    exact alike_iff.mpr ⟨hclass, decide_eq_true ((hpair a ha b hb hab).mpr ⟨.inl rfl, .inr rfl⟩)⟩
  · intro hclass
    rw [hswept]
    refine ⟨left_sorted.mpr ⟨rfl, hj⟩, fun k hk q hq hR => ?_⟩
    obtain ⟨hqk, hkq⟩ := left_sorted.mp ((hswept k q).mp hq).1
    have hne : q.2 ≠ b := sorted_ne (by omega) hkq hj
    have hR := alike_iff.mp hR
    have hover : nmsThreshold < iou calIou found.boxes q.2 b := of_decide_eq_true hR.2
    rw [hpair _ (hfound.lt_of_sorted hkq) _ hb hne] at hover
    have hqa : q.2 = a := hover.1.resolve_right hne
    have hki : k = i := sorted_inj (hqa ▸ hkq) hi
    rw [placeClass, placeClass, hqk, hki] at hR
    exact hclass hR.1

lemma OnlyPair.second_mem_survivors (hpair : OnlyPair calIou nmsThreshold found.boxes found.validCount a b)
    (hfound : found.Even) (hij : i < j) (hi : (sorted found.objProbs)[i]? = some a)
    (hj : (sorted found.objProbs)[j]? = some b) :
    b ∈ survivors calIou found nmsThreshold ↔ found.classId.getD i 0 ≠ found.classId.getD j 0 := by
  rw [← hpair.left_second hfound hij hi hj]
  constructor
  · intro hmem
    obtain ⟨k, hk⟩ := mem_survivors.mp hmem
    have hkj : k = j := sorted_inj (sorted_of_left hfound hk) hj
    rwa [hkj] at hk
  · intro hleft
    exact mem_survivors.mpr ⟨j, hleft⟩

/-- What is meant by the suppression of the second determines the classes at the two places. -/
lemma OnlyPair.class_iff (hpair : OnlyPair calIou nmsThreshold found.boxes found.validCount a b)
    (hfound : found.Even) (hij : i < j) (hi : (sorted found.objProbs)[i]? = some a)
    (hj : (sorted found.objProbs)[j]? = some b) (h : Intended calIou found nmsThreshold) :
    found.classId.getD i 0 = found.classId.getD j 0 ↔ found.classId.getD a 0 = found.classId.getD b 0 := by
  have hsecond := hpair.second_mem_survivors hfound hij hi hj
  have ha := hfound.lt_of_sorted hi
  have hb := hfound.lt_of_sorted hj
  have hab : a ≠ b := sorted_ne (by omega) hi hj
  constructor
  · intro hplace
    have hout : b ∉ survivors calIou found nmsThreshold := fun hmem => hsecond.mp hmem hplace
    obtain hin | ⟨n, hn, ⟨hclass, hover⟩, -⟩ := h.covered b hb
    · exact absurd hin hout
    · have hne : n ≠ b := fun heq => hout (heq ▸ hn)
      obtain ⟨k, hk⟩ := mem_survivors.mp hn
      have hnlt := hfound.lt_of_sorted (sorted_of_left hfound hk)
      have hna := ((hpair n hnlt b hb hne).mp hover).1.resolve_right hne
      rwa [hna] at hclass
  · intro hclass
    by_contra hplace
    have hleft := mem_survivors.mpr ⟨i, hpair.left_first hfound hij hi hj⟩
    have hright := hsecond.mpr hplace
    have hover : Overlapping calIou found nmsThreshold a b :=
      ⟨hclass, (hpair a ha b hb hab).mpr ⟨.inl rfl, .inr rfl⟩⟩
    have hover' : Overlapping calIou found nmsThreshold b a :=
      ⟨hclass.symm, (hpair b hb a ha hab.symm).mpr ⟨.inr rfl, .inl rfl⟩⟩
    obtain ⟨k, hk, hka⟩ := List.mem_iff_getElem.mp hleft
    obtain ⟨l, hl, hlb⟩ := List.mem_iff_getElem.mp hright
    have hapart := List.pairwise_iff_getElem.mp h.apart
    obtain hkl | heq | hlk := lt_trichotomy k l
    · apply hapart k l hk hl hkl
      rwa [hka, hlb]
    · subst heq
      exact hab (hka.symm.trans hlb)
    · apply hapart l k hl hk hlk
      rwa [hka, hlb]

/-- Whatever the boxes are, `nms` does what is meant, exactly for the confidences and classes that the lookup by the
place does not mix up. -/
theorem intended_iff_classesInPlace (hsep : Separates calIou nmsThreshold) (objProbs : List K) {classId : List ℤ}
    (hlen : classId.length = objProbs.length) :
    (∀ boxes : List (RotatedBox K), boxes.length = objProbs.length →
      Intended calIou ⟨objProbs.length, boxes, objProbs, classId⟩ nmsThreshold) ↔ ClassesInPlace objProbs classId := by
  constructor
  · intro h
    -- two places with their candidates, and boxes of which only theirs overlap
    have hpair : ∀ i j, i < j → j < objProbs.length → (classId.getD i 0 = classId.getD j 0 ↔
        classId.getD ((sorted objProbs).getD i 0) 0 = classId.getD ((sorted objProbs).getD j 0) 0) := by
      intro i j hij hj
      have hi : (sorted objProbs)[i]? = some ((sorted objProbs).getD i 0) := by
        rw [List.getD_eq_getElem _ _ (by rw [length_sorted]; omega)]
        exact List.getElem?_eq_getElem _
      have hj : (sorted objProbs)[j]? = some ((sorted objProbs).getD j 0) := by
        rw [List.getD_eq_getElem _ _ (by rw [length_sorted]; omega)]
        exact List.getElem?_eq_getElem _
      obtain ⟨boxes, hboxes, hpair⟩ :=
        hsep.onlyPair objProbs.length ((sorted objProbs).getD i 0) ((sorted objProbs).getD j 0)
      let found : Candidates K := ⟨objProbs.length, boxes, objProbs, classId⟩
      have hpair : OnlyPair calIou nmsThreshold found.boxes found.validCount _ _ := hpair
      exact hpair.class_iff ⟨rfl, hlen⟩ hij hi hj (h boxes hboxes)
    intro i hi j hj
    obtain hij | rfl | hji := lt_trichotomy i j
    · exact hpair i j hij hj
    · exact iff_of_true rfl rfl
    · rw [eq_comm, hpair j i hji hi, eq_comm]
  · intro h boxes _
    exact intended_of_classesInPlace ⟨rfl, hlen⟩ h

end

/-! ## Upright boxes -/

/-- `Cal_IOU` where both angles are zero. -/
def uprightIou (a b : RotatedBox ℚ) : ℚ :=
  let w := max 0 (min (a.x + a.w) (b.x + b.w) - max a.x b.x)
  let h := max 0 (min (a.y + a.h) (b.y + b.h) - max a.y b.y)
  w * h / (a.w * a.h + b.w * b.h - w * h)

lemma uprightIou_eq_zero {a b : RotatedBox ℚ} (h : a.x + a.w ≤ b.x ∨ b.x + b.w ≤ a.x) : uprightIou a b = 0 := by
  have hw : max 0 (min (a.x + a.w) (b.x + b.w) - max a.x b.x) = 0 := by
    apply max_eq_left
    rw [sub_nonpos]
    obtain h | h := h
    · exact (min_le_left _ _).trans (h.trans (le_max_right _ _))
    · exact (min_le_right _ _).trans (h.trans (le_max_left _ _))
  rw [uprightIou, hw]
  simp

lemma separates_uprightIou : Separates uprightIou (1 / 2) := by
  refine ⟨fun i => ⟨if i < 2 then i else 100 * i, 0, 10, 10, 0⟩, fun i j hij => ?_⟩
  by_cases h : i < 2 ∧ j < 2
  · obtain ⟨rfl, rfl⟩ | ⟨rfl, rfl⟩ : i = 0 ∧ j = 1 ∨ i = 1 ∧ j = 0 := by omega
    · exact iff_of_true (by decide +kernel) h
    · exact iff_of_true (by decide +kernel) h
  · refine iff_of_false (fun hover => ?_) h
    rw [uprightIou_eq_zero] at hover
    · norm_num at hover
    · dsimp only
      obtain hlt | hgt := lt_or_gt_of_ne hij
      · have hj : ¬j < 2 := by omega
        left
        rw [if_neg hj]
        split
        · exact_mod_cast (by omega : i + 10 ≤ 100 * j)
        · exact_mod_cast (by omega : 100 * i + 10 ≤ 100 * j)
      · have hi : ¬i < 2 := by omega
        right
        rw [if_neg hi]
        split
        · exact_mod_cast (by omega : j + 10 ≤ 100 * i)
        · exact_mod_cast (by omega : 100 * j + 10 ≤ 100 * i)

/-- Three candidates, the least confident of them the first and of another class. -/
theorem intended_iff_classesInPlace_mixedUp : ¬∀ boxes : List (RotatedBox ℚ), boxes.length = 3 →
    Intended uprightIou ⟨3, boxes, [1 / 2, 9 / 10, 4 / 5], [0, 1, 1]⟩ (1 / 2) := by
  intro hall
  have hlen : ([0, 1, 1] : List ℤ).length = ([1 / 2, 9 / 10, 4 / 5] : List ℚ).length := rfl
  have hclasses := (intended_iff_classesInPlace separates_uprightIou _ hlen).mp hall
  have hsorted : sorted [1 / 2, 9 / 10, (4 / 5 : ℚ)] = [1, 2, 0] := by decide +kernel
  have h01 := hclasses 0 (by decide) 1 (by decide)
  rw [hsorted] at h01
  revert h01
  decide

example : survivors uprightIou ⟨3, [⟨0, 0, 10, 10, 0⟩, ⟨30, 0, 10, 10, 0⟩, ⟨30, 0, 10, 10, 0⟩],
    [1 / 2, 9 / 10, 4 / 5], [0, 1, 1]⟩ (1 / 2) = [1, 2, 0] := by decide +kernel

end MediaAgent.Yolov8Obb
