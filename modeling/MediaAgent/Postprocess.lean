import Mathlib.Algebra.Order.Floor.Ring
import Mathlib.Algebra.Order.Field.Basic
import Mathlib.Data.List.Dedup
import Mathlib.Data.Rat.Floor
import MediaAgent.IndexSort
import MediaAgent.Library.Suppression
import MediaAgent.StreamTypes

/-!
# From the tensors of the detection model to its results

`yolov8_det/postprocess.cc` and the functions of `yolov8DetEngine.cpp` around it, on numbers that are not rounded. A
tensor is what its buffer holds at an offset. The four floats of a candidate's box are one entry of `boxes`.
-/

namespace MediaAgent.Yolov8

structure CandidateBox (K : Type) where
  x : K
  y : K
  w : K
  h : K
  deriving Inhabited, DecidableEq, Repr

/-- The vectors that the three calls of `process` fill. -/
structure Candidates (K : Type) where
  validCount : ℕ := 0
  boxes : List (CandidateBox K) := []
  objProbs : List K := []
  classId : List ℤ := []
  deriving DecidableEq, Repr

/-- How an output is stored, and the values of the code for this type of tensor. -/
structure TensorType (T K : Type) where
  boxValue : T → K
  scoreValue : T → K
  scoreThres : T
  scoreSumThres : T
  /-- the value of `max_score` before the loop over the classes -/
  maxScore : T

/-- The outputs for one size of grid. -/
structure Branch (T : Type) where
  boxTensor : ℕ → T
  scoreTensor : ℕ → T
  scoreSumTensor : Option (ℕ → T)
  gridH : ℕ
  gridW : ℕ
  stride : ℕ

/-! ## `process` -/

section
variable {T K : Type} [LinearOrder T] [Field K]

/-- The loop over the classes at one place of the grid. -/
def bestClass (scoreTensor : ℕ → T) (scoreThres maxScore : T) (gridLen classNum offset : ℕ) : T × ℤ :=
  (List.range classNum).foldl (fun s c =>
    if scoreThres < scoreTensor (offset + c * gridLen) ∧ s.1 < scoreTensor (offset + c * gridLen) then
      (scoreTensor (offset + c * gridLen), (c : ℤ))
    else s) (maxScore, -1)

def computeDfl (exp : K → K) (tensor : ℕ → K) (dflLen b : ℕ) : K :=
  let expT := (List.range dflLen).map fun i => exp (tensor (i + b * dflLen))
  (expT.zipIdx.map fun e => e.1 / expT.sum * e.2).sum

def decodeBox (exp : K → K) (tensor : ℕ → K) (dflLen stride i j : ℕ) : CandidateBox K :=
  let half : K := 1 / (2 : ℕ)
  let x₁ := (-computeDfl exp tensor dflLen 0 + j + half) * stride
  let y₁ := (-computeDfl exp tensor dflLen 1 + i + half) * stride
  let x₂ := (computeDfl exp tensor dflLen 2 + j + half) * stride
  let y₂ := (computeDfl exp tensor dflLen 3 + i + half) * stride
  { x := x₁, y := y₁, w := x₂ - x₁, h := y₂ - y₁ }

/-- The body of the loops over the grid. -/
def processCell (exp : K → K) (type : TensorType T K) (branch : Branch T) (classNum dflLen : ℕ)
    (found : Candidates K) (i j : ℕ) : Candidates K :=
  let gridLen := branch.gridH * branch.gridW
  let offset := i * branch.gridW + j
  if branch.scoreSumTensor.any fun scoreSum => scoreSum offset < type.scoreSumThres then found
  else
    let best := bestClass branch.scoreTensor type.scoreThres type.maxScore gridLen classNum offset
    if type.scoreThres < best.1 then
      let beforeDfl := fun k => type.boxValue (branch.boxTensor (offset + k * gridLen))
      { validCount := found.validCount + 1
        boxes := found.boxes ++ [decodeBox exp beforeDfl dflLen branch.stride i j]
        objProbs := found.objProbs ++ [type.scoreValue best.1]
        classId := found.classId ++ [best.2] }
    else found

def process (exp : K → K) (type : TensorType T K) (branch : Branch T) (classNum dflLen : ℕ)
    (found : Candidates K) : Candidates K :=
  (List.range branch.gridH).foldl (fun found i =>
    (List.range branch.gridW).foldl (fun found j =>
      processCell exp type branch classNum dflLen found i j) found) found

end

section
variable {K : Type} [Field K] [LinearOrder K] [FloorRing K]

/-- The conversion of a `float` to an integer type. -/
def toInt (x : K) : ℤ := if 0 ≤ x then ⌊x⌋ else ⌈x⌉

/-- `__clip` -/
def clip (val : K) (min max : ℤ) : ℤ :=
  toInt (if val ≤ min then (min : K) else if max ≤ val then (max : K) else val)

def qntF32ToAffine (f32 : K) (zp : ℤ) (scale : K) : ℤ := clip (f32 / scale + zp) (-128) 127

def deqntAffineToF32 (qnt zp : ℤ) (scale : K) : K := (qnt - zp) * scale

/-- The conversion of an `int32_t` to `int8_t`. -/
def int8 (x : ℤ) : ℤ := Int.bmod x 256

/-- `zp` and `scale` of an output. -/
structure Quantization (K : Type) where
  zp : ℤ
  scale : K

def tensorI8 (box score scoreSum : Quantization K) (threshold : K) : TensorType ℤ K where
  boxValue := fun qnt => deqntAffineToF32 qnt box.zp box.scale
  scoreValue := fun qnt => deqntAffineToF32 qnt score.zp score.scale
  scoreThres := qntF32ToAffine threshold score.zp score.scale
  scoreSumThres := qntF32ToAffine threshold scoreSum.zp scoreSum.scale
  maxScore := int8 (-score.zp)

def processI8 (exp : K → K) (box score scoreSum : Quantization K) (threshold : K) (branch : Branch ℤ)
    (classNum dflLen : ℕ) (found : Candidates K) : Candidates K :=
  process exp (tensorI8 box score scoreSum threshold) branch classNum dflLen found

def tensorFp32 (threshold : K) : TensorType K K where
  boxValue := id
  scoreValue := id
  scoreThres := threshold
  scoreSumThres := threshold
  maxScore := 0

def processFp32 (exp : K → K) (threshold : K) (branch : Branch K) (classNum dflLen : ℕ) (found : Candidates K) :
    Candidates K :=
  process exp (tensorFp32 threshold) branch classNum dflLen found

/-! ## `nms` -/

def calculateOverlap (xmin₀ ymin₀ xmax₀ ymax₀ xmin₁ ymin₁ xmax₁ ymax₁ : K) : K :=
  let w := max 0 (min xmax₀ xmax₁ - max xmin₀ xmin₁ + 1)
  let h := max 0 (min ymax₀ ymax₁ - max ymin₀ ymin₁ + 1)
  let i := w * h
  let u := (xmax₀ - xmin₀ + 1) * (ymax₀ - ymin₀ + 1) + (xmax₁ - xmin₁ + 1) * (ymax₁ - ymin₁ + 1) - i
  if u ≤ 0 then 0 else i / u

/-- `iou` of the candidates `n` and `m`. -/
def iou (outputLocations : List (CandidateBox K)) (n m : ℕ) : K :=
  let a := outputLocations.getD n ⟨0, 0, 0, 0⟩
  let b := outputLocations.getD m ⟨0, 0, 0, 0⟩
  calculateOverlap a.x a.y (a.x + a.w) (a.y + a.h) b.x b.y (b.x + b.w) (b.y + b.h)

/-- The body of the loop over `j` for the candidate `n`. An entry of `order` that was set to `-1` is `none`. -/
def nmsInner (outputLocations : List (CandidateBox K)) (classIds : List ℤ) (filterId : ℤ) (threshold : K) (n : ℕ)
    (order : List (Option ℕ)) (j : ℕ) : List (Option ℕ) :=
  match order.getD j none with
  | none => order
  | some m =>
    if classIds.getD m 0 ≠ filterId then order
    else if threshold < iou outputLocations n m then order.set j none
    else order

/-- The body of the loop over `i`. -/
def nmsOuter (validCount : ℕ) (outputLocations : List (CandidateBox K)) (classIds : List ℤ) (filterId : ℤ)
    (threshold : K) (order : List (Option ℕ)) (i : ℕ) : List (Option ℕ) :=
  match order.getD i none with
  | none => order
  | some n =>
    if classIds.getD n 0 ≠ filterId then order
    else (List.range' (i + 1) (validCount - (i + 1))).foldl
      (nmsInner outputLocations classIds filterId threshold n) order

def nms (validCount : ℕ) (outputLocations : List (CandidateBox K)) (classIds : List ℤ) (filterId : ℤ) (threshold : K)
    (order : List (Option ℕ)) : List (Option ℕ) :=
  (List.range validCount).foldl (nmsOuter validCount outputLocations classIds filterId threshold) order

/-! ## `post_process` -/

structure TensorAttr (K : Type) where
  dims : ℕ → ℕ
  quantization : Quantization K

/-- `rknn_app_context_t` as far as it is read here. -/
structure AppContext (K : Type) where
  modelWidth : ℕ
  modelHeight : ℕ
  nOutput : ℕ
  outputAttrs : ℕ → TensorAttr K

/-- The buffers of the outputs. The constructor stands for `is_quant`. -/
inductive OutputBuffers (K : Type) where
  | int8 (buf : ℕ → ℕ → ℤ)
  | float (buf : ℕ → ℕ → K)

structure Letterbox (K : Type) where
  xPad : ℤ
  yPad : ℤ
  scale : K

structure ObjectResult (K : Type) where
  x : K
  y : K
  w : K
  h : K
  prop : K
  classId : ℤ
  className : Bytes := []
  deriving DecidableEq, Repr

def kObjNumbMaxSize : ℕ := 128

/-- `clamp`, whose result is converted to `int`. -/
def clamp (val : K) (min max : ℤ) : ℤ := if (min : K) < val then toInt (if val < max then val else (max : K)) else min

def Candidates.ofBranch (exp : K → K) (ctx : AppContext K) (outputs : OutputBuffers K) (confThreshold : K)
    (classNum : ℕ) (found : Candidates K) (i : ℕ) : Candidates K :=
  let dflLen := (ctx.outputAttrs 0).dims 1 / 4
  let outputPerBranch := ctx.nOutput / 3
  let boxIdx := i * outputPerBranch
  let scoreIdx := i * outputPerBranch + 1
  let sumIdx := i * outputPerBranch + 2
  let gridH := (ctx.outputAttrs boxIdx).dims 2
  let branch {T : Type} (buf : ℕ → ℕ → T) : Branch T :=
    { boxTensor := buf boxIdx
      scoreTensor := buf scoreIdx
      scoreSumTensor := if outputPerBranch = 3 then some (buf sumIdx) else none
      gridH := gridH
      gridW := (ctx.outputAttrs boxIdx).dims 3
      stride := ctx.modelHeight / gridH }
  match outputs with
  | .int8 buf =>
    processI8 exp (ctx.outputAttrs boxIdx).quantization (ctx.outputAttrs scoreIdx).quantization
      (if outputPerBranch = 3 then (ctx.outputAttrs sumIdx).quantization else { zp := 0, scale := 1 }) confThreshold
      (branch buf) classNum dflLen found
  | .float buf => processFp32 exp confThreshold (branch buf) classNum dflLen found

/-- The candidates of the three branches. -/
def candidates (exp : K → K) (ctx : AppContext K) (outputs : OutputBuffers K) (confThreshold : K) (classNum : ℕ) :
    Candidates K :=
  (List.range 3).foldl (Candidates.ofBranch exp ctx outputs confThreshold classNum) {}

/-- The iteration over `class_set`. -/
def classSet (classId : List ℤ) : List ℤ := classId.dedup.insertionSort (· ≤ ·)

variable [Inhabited K]

/-- `indexArray` after the sorting and the passes of all classes. -/
def suppressed (found : Candidates K) (nmsThreshold : K) : List (Option ℕ) :=
  (classSet found.classId).foldl (fun order c => nms found.validCount found.boxes found.classId c nmsThreshold order)
    ((sortedIndices found.objProbs).map fun p => some p.2)

def makeResult (ctx : AppContext K) (letterBox : Letterbox K) (found : Candidates K) (n : ℕ) (objConf : K) :
    ObjectResult K :=
  let b := found.boxes.getD n ⟨0, 0, 0, 0⟩
  let x₁ := b.x - letterBox.xPad
  let y₁ := b.y - letterBox.yPad
  let x₂ := x₁ + b.w
  let y₂ := y₁ + b.h
  let x := toInt ((clamp x₁ 0 ctx.modelWidth : K) / letterBox.scale)
  let y := toInt ((clamp y₁ 0 ctx.modelHeight : K) / letterBox.scale)
  { x := x
    y := y
    w := (toInt ((clamp x₂ 0 ctx.modelWidth : K) / letterBox.scale) : K) - x
    h := (toInt ((clamp y₂ 0 ctx.modelHeight : K) / letterBox.scale) : K) - y
    prop := objConf
    classId := found.classId.getD n 0 }

/-- The body of the last loop. -/
def pushResult (ctx : AppContext K) (letterBox : Letterbox K) (found : Candidates K) (indexArray : List (Option ℕ))
    (objProbs : List K) (odResults : List (ObjectResult K)) (i : ℕ) : List (ObjectResult K) :=
  match indexArray.getD i none with
  | none => odResults
  | some n =>
    if kObjNumbMaxSize ≤ odResults.length then odResults
    else odResults ++ [makeResult ctx letterBox found n (objProbs.getD i 0)]

def postProcess (exp : K → K) (ctx : AppContext K) (outputs : OutputBuffers K) (letterBox : Letterbox K)
    (confThreshold nmsThreshold : K) (classNum : ℕ) : List (ObjectResult K) :=
  let found := candidates exp ctx outputs confThreshold classNum
  if found.validCount = 0 then []
  else
    let indexArray := suppressed found nmsThreshold
    let objProbs := (sortedIndices found.objProbs).map Prod.fst
    (List.range found.validCount).foldl (pushResult ctx letterBox found indexArray objProbs) []

end

/-! ## The candidates -/

/-- The vectors are of one length. -/
structure Candidates.Even {K : Type} (found : Candidates K) : Prop where
  boxes : found.boxes.length = found.validCount
  objProbs : found.objProbs.length = found.validCount
  classId : found.classId.length = found.validCount

section
variable {T K : Type} [LinearOrder T] [Field K] {exp : K → K} {type : TensorType T K} {branch : Branch T}
  {classNum dflLen : ℕ}

lemma Candidates.Even.processCell {found : Candidates K} (h : found.Even) (i j : ℕ) :
    (processCell exp type branch classNum dflLen found i j).Even := by
  unfold Yolov8.processCell
  dsimp only
  split
  · exact h
  · split
    · constructor
      · simp [h.boxes]
      · simp [h.objProbs]
      · simp [h.classId]
    · exact h

lemma Candidates.Even.process {found : Candidates K} (h : found.Even) :
    (process exp type branch classNum dflLen found).Even := by
  unfold Yolov8.process
  apply List.foldlRecOn (motive := Candidates.Even) _ _ h
  intro found hfound i _
  apply List.foldlRecOn (motive := Candidates.Even) _ _ hfound
  intro found hfound j _
  exact hfound.processCell i j

end

section
variable {K : Type} [Field K] [LinearOrder K] [FloorRing K]

lemma candidates_even (exp : K → K) (ctx : AppContext K) (outputs : OutputBuffers K) (confThreshold : K)
    (classNum : ℕ) : (candidates exp ctx outputs confThreshold classNum).Even := by
  unfold candidates
  apply List.foldlRecOn (motive := Candidates.Even)
  · exact ⟨rfl, rfl, rfl⟩
  · intro found hfound i _
    unfold Candidates.ofBranch
    cases outputs with
    | int8 buf => exact hfound.process
    | float buf => exact hfound.process

end

/-! ## `nms` strikes out -/

section
open Suppression
variable {K : Type} [Field K] [LinearOrder K]

/-- The relation that the passes of `nms` strike out by. -/
def overlaps (found : Candidates K) (nmsThreshold : K) (n m : ℕ) : Bool := nmsThreshold < iou found.boxes n m

def classOf (found : Candidates K) (n : ℕ) : ℤ := found.classId.getD n 0

variable {found : Candidates K} {nmsThreshold : K} {c : ℤ}

lemma within_overlaps_iff {n m : ℕ} (hn : found.classId.getD n 0 = c) :
    within (classOf found) (overlaps found nmsThreshold) c n m ↔
      found.classId.getD m 0 = c ∧ nmsThreshold < iou found.boxes n m := by
  rw [within_iff, classOf, classOf, overlaps, decide_eq_true_iff]
  exact and_iff_right hn

lemma nmsInner_eq_modify {n : ℕ} (hn : found.classId.getD n 0 = c) (order : List (Option ℕ)) (j : ℕ) :
    nmsInner found.boxes found.classId c nmsThreshold n order j =
      order.modify j fun o => o.filter fun m => !within (classOf found) (overlaps found nmsThreshold) c n m := by
  rw [nmsInner, List.modify_eq_set_getElem?, List.getD_eq_getElem?_getD]
  cases hj : order[j]? with
  | none => rfl
  | some o =>
    have hself : order.set j o = order := by
      obtain ⟨hlt, heq⟩ := List.getElem?_eq_some_iff.mp hj
      rw [← heq, List.set_getElem_self]
    cases o with
    | none => exact hself.symm
    | some m =>
      have h : within (classOf found) (overlaps found nmsThreshold) c n m ↔ _ := within_overlaps_iff hn
      change _ = order.set j (Option.filter _ (some m))
      by_cases hm : within (classOf found) (overlaps found nmsThreshold) c n m
      · rw [Option.filter_some_neg (by simpa using hm)]
        exact (if_neg (not_not.mpr (h.mp hm).1)).trans (if_pos (h.mp hm).2)
      · rw [Option.filter_some_pos (by simpa using hm), hself]
        by_cases hclass : found.classId.getD m 0 = c
        · exact (if_neg (not_not.mpr hclass)).trans (if_neg fun hiou => hm (h.mpr ⟨hclass, hiou⟩))
        · exact if_pos hclass

lemma nmsOuter_eq_turn {order : List (Option ℕ)} (hlen : order.length = found.validCount) (i : ℕ) :
    nmsOuter found.validCount found.boxes found.classId c nmsThreshold order i =
      turn (within (classOf found) (overlaps found nmsThreshold) c) order i := by
  rw [nmsOuter, turn, List.getD_eq_getElem?_getD]
  cases order[i]? with
  | none => rfl
  | some o =>
    cases o with
    | none => rfl
    | some n =>
      simp only [Option.getD_some]
      split
      · rename_i hn
        rw [strike_of_false]
        intro m
        rw [within, classOf, decide_eq_false hn]
        rfl
      · rename_i hn
        rw [strike, hlen]
        congr 1
        funext order j
        exact nmsInner_eq_modify (not_not.mp hn) order j

lemma nms_eq_sweep {order : List (Option ℕ)} (hlen : order.length = found.validCount) :
    nms found.validCount found.boxes found.classId c nmsThreshold order =
      sweep (within (classOf found) (overlaps found nmsThreshold) c) order := by
  rw [nms, sweep, hlen]
  generalize List.range found.validCount = is
  induction is generalizing order with
  | nil => rfl
  | cons i is ih =>
    rw [List.foldl_cons, List.foldl_cons, nmsOuter_eq_turn hlen]
    exact ih (by rw [length_turn, hlen])

/-! ## What `nms` leaves -/

lemma classSet_nodup (classId : List ℤ) : (classSet classId).Nodup :=
  (List.perm_insertionSort _ _).nodup_iff.mpr (List.nodup_dedup classId)

lemma mem_classSet {classId : List ℤ} {c : ℤ} : c ∈ classSet classId ↔ c ∈ classId :=
  (List.perm_insertionSort _ _).mem_iff.trans List.mem_dedup

variable [Inhabited K]

/-- The candidates in the order of their confidences. -/
def sorted (found : Candidates K) : List ℕ := (sortedIndices found.objProbs).map Prod.snd

omit [Field K] in
lemma sorted_perm (hfound : found.Even) : (sorted found).Perm (List.range found.validCount) := by
  rw [← hfound.objProbs]
  exact sortedIndices_map_snd found.objProbs

lemma sorted_falling (found : Candidates K) :
    (sorted found).Pairwise fun n m => found.objProbs.getD m 0 ≤ found.objProbs.getD n 0 := by
  rw [sorted, List.pairwise_map]
  refine (sortedIndices_falling found.objProbs).imp_of_mem fun {p q} hp hq hle => ?_
  rw [List.getD_eq_getElem?_getD, List.getD_eq_getElem?_getD, getElem?_of_mem_sortedIndices hp,
    getElem?_of_mem_sortedIndices hq]
  exact hle

lemma suppressed_eq_foldl (hfound : found.Even) :
    suppressed found nmsThreshold = (classSet found.classId).foldl
      (fun marks c => sweep (within (classOf found) (overlaps found nmsThreshold) c) marks) ((sorted found).map some) := by
  have hlen : ((sorted found).map some).length = found.validCount := by
    rw [List.length_map, (sorted_perm hfound).length_eq, List.length_range]
  have hmap : (sortedIndices found.objProbs).map (fun p => some p.2) = (sorted found).map some := by
    rw [sorted, List.map_map]
    rfl
  rw [suppressed, hmap]
  generalize (sorted found).map some = marks at hlen
  generalize classSet found.classId = cs
  induction cs generalizing marks with
  | nil => rfl
  | cons c cs ih =>
    rw [List.foldl_cons, List.foldl_cons, nms_eq_sweep hlen]
    exact ih _ (by rw [length_sweep, hlen])

lemma suppressed_swept (hfound : found.Even) :
    Swept (alike (classOf found) (overlaps found nmsThreshold)) ((sorted found).map some)
      (suppressed found nmsThreshold) := by
  rw [suppressed_eq_foldl hfound]
  apply swept_foldl (classSet_nodup found.classId)
  intro j n hn
  have hmem : n ∈ sorted found := by
    have h := List.mem_of_getElem? hn
    simpa using h
  have hlt : n < found.classId.length := by
    rw [hfound.classId]
    exact List.mem_range.mp ((sorted_perm hfound).subset hmem)
  rw [mem_classSet, classOf, List.getD_eq_getElem _ _ hlt]
  exact List.getElem_mem hlt

lemma suppressed_length (hfound : found.Even) : (suppressed found nmsThreshold).length = found.validCount := by
  rw [suppressed_eq_foldl hfound, (groupsSwept_foldl (classSet_nodup _) _).1, List.length_map,
    (sorted_perm hfound).length_eq, List.length_range]

/-- The candidates that are left, the most confident first. -/
def survivors (found : Candidates K) (nmsThreshold : K) : List ℕ := (suppressed found nmsThreshold).reduceOption

lemma suppressed_getD {i n : ℕ} (hfound : found.Even) (h : (suppressed found nmsThreshold).getD i none = some n) :
    ((sortedIndices found.objProbs).map Prod.fst).getD i 0 = found.objProbs.getD n 0 := by
  have hleft : Left (suppressed found nmsThreshold) i n := by
    rw [List.getD_eq_getElem?_getD] at h
    cases ho : (suppressed found nmsThreshold)[i]? with
    | none => simp [ho] at h
    | some o =>
      rw [ho] at h
      exact ho.trans (congrArg some h)
  have hsorted := ((suppressed_swept hfound i n).mp hleft).1
  rw [Left, sorted, List.map_map, List.getElem?_map] at hsorted
  obtain ⟨p, hp, hn⟩ := Option.map_eq_some_iff.mp hsorted
  have hprob := getElem?_of_mem_sortedIndices (List.mem_of_getElem? hp)
  obtain rfl : p.2 = n := Option.some.inj hn
  rw [List.getD_eq_getElem?_getD, List.getD_eq_getElem?_getD, List.getElem?_map, hp, hprob]
  rfl

lemma filterMap_getD (marks : List (Option ℕ)) :
    (List.range marks.length).filterMap (fun i => marks.getD i none) = marks.reduceOption := by
  have hmarks : marks = (List.range marks.length).map fun i => marks.getD i none := by
    apply List.ext_getElem
    · simp
    · intro i hi _
      simp [hi]
  conv_rhs => rw [hmarks, List.reduceOption, List.filterMap_map]
  rfl

end

section
open Suppression
variable {K : Type} [Field K] [LinearOrder K] [FloorRing K] [Inhabited K]

omit [Inhabited K] in
lemma foldl_pushResult (ctx : AppContext K) (letterBox : Letterbox K) (found : Candidates K)
    (indexArray : List (Option ℕ)) (objProbs : List K) (is : List ℕ) (odResults : List (ObjectResult K)) :
    is.foldl (pushResult ctx letterBox found indexArray objProbs) odResults = odResults ++
      (is.filterMap fun i => (indexArray.getD i none).map fun n =>
        makeResult ctx letterBox found n (objProbs.getD i 0)).take (kObjNumbMaxSize - odResults.length) := by
  induction is generalizing odResults with
  | nil => simp
  | cons i is ih =>
    rw [List.foldl_cons, ih, pushResult, List.filterMap_cons]
    cases indexArray.getD i none with
    | none => rfl
    | some n =>
      simp only [Option.map_some]
      split
      · rename_i hfull
        rw [Nat.sub_eq_zero_of_le hfull, List.take_zero, List.take_zero]
      · rename_i hroom
        obtain ⟨k, hk⟩ : ∃ k, kObjNumbMaxSize - odResults.length = k + 1 :=
          ⟨kObjNumbMaxSize - odResults.length - 1, by omega⟩
        rw [List.length_append, List.length_singleton, ← Nat.sub_sub, hk, List.take_succ_cons, List.append_assoc]
        rfl

/-- The results are the first 128 candidates that `nms` leaves. -/
lemma postProcess_eq_survivors (exp : K → K) (ctx : AppContext K) (outputs : OutputBuffers K)
    (letterBox : Letterbox K) (confThreshold nmsThreshold : K) (classNum : ℕ) :
    let found := candidates exp ctx outputs confThreshold classNum
    postProcess exp ctx outputs letterBox confThreshold nmsThreshold classNum =
      ((survivors found nmsThreshold).take kObjNumbMaxSize).map fun n =>
        makeResult ctx letterBox found n (found.objProbs.getD n 0) := by
  dsimp only
  have hfound := candidates_even exp ctx outputs confThreshold classNum
  set found := candidates exp ctx outputs confThreshold classNum with hdef
  have hlen : (suppressed found nmsThreshold).length = _ := suppressed_length hfound
  rw [postProcess, ← hdef]
  dsimp only
  split
  · rename_i hzero
    have hnil : survivors found nmsThreshold = [] := by
      rw [survivors, List.length_eq_zero_iff.mp (hlen.trans hzero)]
      rfl
    rw [hnil]
    rfl
  · rw [foldl_pushResult, List.nil_append, List.length_nil, Nat.sub_zero, List.map_take, survivors, ← filterMap_getD,
      hlen, List.map_filterMap]
    congr 2
    funext i
    cases hi : (suppressed found nmsThreshold).getD i none with
    | none => rfl
    | some n => rw [Option.map_some, Option.map_some, suppressed_getD hfound hi]

theorem postProcess_suppresses (exp : K → K) (ctx : AppContext K) (outputs : OutputBuffers K)
    (letterBox : Letterbox K) (confThreshold nmsThreshold : K) (classNum : ℕ) :
    let found := candidates exp ctx outputs confThreshold classNum
    let overlap := fun n m => classOf found n = classOf found m ∧ nmsThreshold < iou found.boxes n m
    let prob := fun n => found.objProbs.getD n 0
    ∃ kept : List ℕ, kept.Nodup ∧ (∀ n ∈ kept, n < found.validCount) ∧
      kept.Pairwise (fun n m => prob m ≤ prob n ∧ ¬overlap n m) ∧
      (∀ m < found.validCount, m ∈ kept ∨ ∃ n ∈ kept, overlap n m ∧ prob m ≤ prob n) ∧
      postProcess exp ctx outputs letterBox confThreshold nmsThreshold classNum =
        (kept.take kObjNumbMaxSize).map fun n => makeResult ctx letterBox found n (prob n) := by
  dsimp only
  have hresult := postProcess_eq_survivors exp ctx outputs letterBox confThreshold nmsThreshold classNum
  have hfound := candidates_even exp ctx outputs confThreshold classNum
  set found := candidates exp ctx outputs confThreshold classNum
  have hperm := sorted_perm hfound
  have hswept : Swept _ _ (suppressed found nmsThreshold) := suppressed_swept hfound
  have hsub : (survivors found nmsThreshold).Sublist (sorted found) := by
    apply reduceOption_sublist
    · rw [suppressed_length hfound, hperm.length_eq, List.length_range]
    · intro j n hn
      have h := ((hswept j n).mp hn).1
      rw [Left, List.getElem?_map] at h
      obtain ⟨m, hm, heq⟩ := Option.map_eq_some_iff.mp h
      rw [hm, Option.some.inj heq]
  refine ⟨survivors found nmsThreshold, ?_, ?_, ?_, ?_, hresult⟩
  · exact (hperm.nodup_iff.mpr List.nodup_range).sublist hsub
  · intro n hn
    exact List.mem_range.mp (hperm.subset (hsub.subset hn))
  · have hfree := hswept.pairwise
    refine ((sorted_falling found).sublist hsub).and (hfree.imp fun {n m} h hoverlap => h ?_)
    exact alike_iff.mpr ⟨hoverlap.1, decide_eq_true hoverlap.2⟩
  · intro m hm
    have hmem : m ∈ sorted found := hperm.mem_iff.mpr (List.mem_range.mpr hm)
    refine (hswept.covers (sorted_falling found) hmem).imp_right ?_
    rintro ⟨n, hn, hR, hprob⟩
    have h := alike_iff.mp hR
    exact ⟨n, hn, ⟨h.1, of_decide_eq_true h.2⟩, hprob⟩

end

end MediaAgent.Yolov8
