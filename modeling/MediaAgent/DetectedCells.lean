import Mathlib.Data.List.Range
import MediaAgent.Postprocess

/-!
# The places of the grid that are reported

What `process` makes of one branch. The scan over the classes starts from a score that `process_i8` gets by converting
the negated zero point to `int8_t`. Where that score is not above the threshold the places reported are those where
the score of some class is above it, each with its best class. Where it is above, every place is reported, and a place
where no class is above the start has the class `-1`.
-/

namespace MediaAgent.Yolov8

section
variable {T K : Type} [LinearOrder T] [Field K]

/-- The score of the class `c` at the place `p`, a row and a column. -/
def Branch.score (branch : Branch T) (p : ℕ × ℕ) (c : ℕ) : T :=
  branch.scoreTensor (p.1 * branch.gridW + p.2 + c * (branch.gridH * branch.gridW))

/-- The sum of the scores, where the model gives it, does not rule the place out. -/
def Branch.passesSum (branch : Branch T) (type : TensorType T K) (p : ℕ × ℕ) : Prop :=
  ∀ scoreSum ∈ branch.scoreSumTensor, type.scoreSumThres ≤ scoreSum (p.1 * branch.gridW + p.2)

instance (branch : Branch T) (type : TensorType T K) (p : ℕ × ℕ) : Decidable (branch.passesSum type p) :=
  inferInstanceAs (Decidable (∀ scoreSum ∈ branch.scoreSumTensor, _))

/-- The places in the order of the loops. -/
def Branch.places (branch : Branch T) : List (ℕ × ℕ) :=
  (List.range branch.gridH).flatMap fun i => (List.range branch.gridW).map fun j => (i, j)

/-- The first of the classes with the greatest score. -/
def Branch.IsBest (branch : Branch T) (classNum : ℕ) (p : ℕ × ℕ) (c : ℕ) : Prop :=
  c < classNum ∧ (∀ d < classNum, branch.score p d ≤ branch.score p c) ∧ ∀ d < c, branch.score p d < branch.score p c

def Branch.decoded (branch : Branch T) (exp : K → K) (type : TensorType T K) (dflLen : ℕ) (p : ℕ × ℕ) :
    CandidateBox K :=
  decodeBox exp (fun k => type.boxValue
    (branch.boxTensor (p.1 * branch.gridW + p.2 + k * (branch.gridH * branch.gridW)))) dflLen branch.stride p.1 p.2

/-- What the vectors get from the places: one entry for each place where a class is above the threshold, in the order
of the places, with the best class. -/
def Branch.Reports (branch : Branch T) (exp : K → K) (type : TensorType T K) (classNum dflLen : ℕ)
    (places : List (ℕ × ℕ)) (found found' : Candidates K) : Prop :=
  ∃ reported : List ((ℕ × ℕ) × ℕ),
    reported.map Prod.fst = places.filter (fun p =>
      branch.passesSum type p ∧ ∃ c < classNum, type.scoreThres < branch.score p c) ∧
    (∀ r ∈ reported, branch.IsBest classNum r.1 r.2) ∧
    found'.boxes = found.boxes ++ reported.map (fun r => branch.decoded exp type dflLen r.1) ∧
    found'.objProbs = found.objProbs ++ reported.map (fun r => type.scoreValue (branch.score r.1 r.2)) ∧
    found'.classId = found.classId ++ reported.map fun r => (r.2 : ℤ)

/-- What a place is reported with where it is reported in any case: its best class, if that is above the start of the
scan, or else no class and the start. -/
def Branch.ScannedFrom (branch : Branch T) (start : T) (classNum : ℕ) (p : ℕ × ℕ) (s : T × ℤ) : Prop :=
  (∃ c, branch.IsBest classNum p c ∧ start < branch.score p c ∧ s = (branch.score p c, (c : ℤ))) ∨
    (∀ c < classNum, branch.score p c ≤ start) ∧ s = (start, -1)

/-- What the vectors get where the start of the scan is above the threshold: one entry for each place that the sum of
the scores does not rule out, in the order of the places. -/
def Branch.ReportsAll (branch : Branch T) (exp : K → K) (type : TensorType T K) (classNum dflLen : ℕ)
    (places : List (ℕ × ℕ)) (found found' : Candidates K) : Prop :=
  ∃ reported : List ((ℕ × ℕ) × (T × ℤ)),
    reported.map Prod.fst = places.filter (fun p => branch.passesSum type p) ∧
    (∀ r ∈ reported, branch.ScannedFrom type.maxScore classNum r.1 r.2) ∧
    found'.boxes = found.boxes ++ reported.map (fun r => branch.decoded exp type dflLen r.1) ∧
    found'.objProbs = found.objProbs ++ reported.map (fun r => type.scoreValue r.2.1) ∧
    found'.classId = found.classId ++ reported.map fun r => r.2.2

/-! ## The classes at one place -/

lemma bestClass_succ (scoreTensor : ℕ → T) (scoreThres maxScore : T) (gridLen classNum offset : ℕ) :
    bestClass scoreTensor scoreThres maxScore gridLen (classNum + 1) offset =
      let s := bestClass scoreTensor scoreThres maxScore gridLen classNum offset
      if scoreThres < scoreTensor (offset + classNum * gridLen) ∧
          s.1 < scoreTensor (offset + classNum * gridLen) then
        (scoreTensor (offset + classNum * gridLen), (classNum : ℤ))
      else s := by
  rw [bestClass, List.range_succ, List.foldl_append, ← bestClass]
  rfl

variable {branch : Branch T} {type : TensorType T K} {classNum : ℕ} {p : ℕ × ℕ}

/-- The result of the scan over the classes at a place. -/
def Branch.scan (branch : Branch T) (type : TensorType T K) (classNum : ℕ) (p : ℕ × ℕ) : T × ℤ :=
  bestClass branch.scoreTensor type.scoreThres type.maxScore (branch.gridH * branch.gridW) classNum
    (p.1 * branch.gridW + p.2)

omit [Field K] in
lemma Branch.scan_succ : branch.scan type (classNum + 1) p =
    if type.scoreThres < branch.score p classNum ∧ (branch.scan type classNum p).1 < branch.score p classNum then
      (branch.score p classNum, (classNum : ℤ))
    else branch.scan type classNum p :=
  bestClass_succ _ _ _ _ _ _

omit [Field K] in
/-- Where no class is above both the threshold and the start, the scan leaves its start. -/
lemma Branch.scan_of_le (h : ∀ c < classNum, branch.score p c ≤ type.scoreThres ∨ branch.score p c ≤ type.maxScore) :
    branch.scan type classNum p = (type.maxScore, -1) := by
  induction classNum with
  | zero => rfl
  | succ n ih =>
    have hbefore := ih fun c hc => h c (by omega)
    rw [Branch.scan_succ, hbefore, if_neg]
    rintro ⟨hthres, hstart⟩
    obtain hle | hle := h n (Nat.lt_succ_self n)
    · exact hle.not_gt hthres
    · exact hle.not_gt hstart

omit [Field K] in
/-- Where some class is above the threshold and the start, the scan leaves the best class. -/
lemma Branch.scan_of_lt
    (h : ∃ c < classNum, type.scoreThres < branch.score p c ∧ type.maxScore < branch.score p c) :
    ∃ c, branch.IsBest classNum p c ∧ type.scoreThres < branch.score p c ∧ type.maxScore < branch.score p c ∧
      branch.scan type classNum p = (branch.score p c, (c : ℤ)) := by
  induction classNum with
  | zero =>
    obtain ⟨c, hc, -⟩ := h
    omega
  | succ n ih =>
    by_cases hbefore : ∃ c < n, type.scoreThres < branch.score p c ∧ type.maxScore < branch.score p c
    · obtain ⟨c, ⟨hc, hmax, hfirst⟩, hthres, hstart, hscan⟩ := ih hbefore
      rw [Branch.scan_succ, hscan]
      by_cases hlast : branch.score p c < branch.score p n
      · rw [if_pos ⟨hthres.trans hlast, hlast⟩]
        refine ⟨n, ⟨Nat.lt_succ_self n, fun d hd => ?_, fun d hd => (hmax d hd).trans_lt hlast⟩,
          hthres.trans hlast, hstart.trans hlast, rfl⟩
        obtain hlt | rfl := Nat.lt_succ_iff_lt_or_eq.mp hd
        · exact (hmax d hlt).trans hlast.le
        · exact le_rfl
      · rw [if_neg fun hlt => hlast hlt.2]
        refine ⟨c, ⟨by omega, fun d hd => ?_, hfirst⟩, hthres, hstart, rfl⟩
        obtain hlt | rfl := Nat.lt_succ_iff_lt_or_eq.mp hd
        · exact hmax d hlt
        · exact not_lt.mp hlast
    · -- the last class is the only one above both
      have hle : ∀ c < n, branch.score p c ≤ type.scoreThres ∨ branch.score p c ≤ type.maxScore := by
        intro c hc
        by_contra habove
        rw [not_or, not_le, not_le] at habove
        exact hbefore ⟨c, hc, habove⟩
      have hlast : type.scoreThres < branch.score p n ∧ type.maxScore < branch.score p n := by
        obtain ⟨c, hc, hlt⟩ := h
        obtain hcn | rfl := Nat.lt_succ_iff_lt_or_eq.mp hc
        · exact absurd ⟨c, hcn, hlt⟩ hbefore
        · exact hlt
      have hlt : ∀ c < n, branch.score p c < branch.score p n := by
        intro c hc
        obtain hc | hc := hle c hc
        · exact hc.trans_lt hlast.1
        · exact hc.trans_lt hlast.2
      rw [Branch.scan_succ, Branch.scan_of_le hle, if_pos hlast]
      refine ⟨n, ⟨Nat.lt_succ_self n, fun d hd => ?_, hlt⟩, hlast.1, hlast.2, rfl⟩
      obtain hdn | rfl := Nat.lt_succ_iff_lt_or_eq.mp hd
      · exact (hlt d hdn).le
      · exact le_rfl

/-! ## The loops over the grid -/

variable {exp : K → K} {dflLen : ℕ}

lemma process_eq_foldl (found : Candidates K) : process exp type branch classNum dflLen found =
    branch.places.foldl (fun found p => processCell exp type branch classNum dflLen found p.1 p.2) found := by
  rw [Branch.places, List.foldl_flatMap, process]
  congr 1
  funext found i
  rw [List.foldl_map]

omit [Field K] in
lemma passesSum_iff : (branch.scoreSumTensor.any fun scoreSum =>
    decide (scoreSum (p.1 * branch.gridW + p.2) < type.scoreSumThres)) = false ↔ branch.passesSum type p := by
  unfold Branch.passesSum
  cases branch.scoreSumTensor with
  | none => simp
  | some scoreSum => simp

/-- A place that the sum rules out adds nothing. -/
lemma processCell_of_not_passesSum {found : Candidates K} (h : ¬branch.passesSum type p) :
    processCell exp type branch classNum dflLen found p.1 p.2 = found := by
  unfold processCell
  dsimp only
  apply if_pos
  by_contra hsum
  exact h (passesSum_iff.mp (Bool.eq_false_iff.mpr hsum))

/-- A place that the sum lets through adds what the scan over its classes leaves, if that is above the threshold. -/
lemma processCell_of_passesSum (exp : K → K) (dflLen : ℕ) (found : Candidates K) (hpass : branch.passesSum type p) :
    processCell exp type branch classNum dflLen found p.1 p.2 =
      if type.scoreThres < (branch.scan type classNum p).1 then
        { validCount := found.validCount + 1
          boxes := found.boxes ++ [branch.decoded exp type dflLen p]
          objProbs := found.objProbs ++ [type.scoreValue (branch.scan type classNum p).1]
          classId := found.classId ++ [(branch.scan type classNum p).2] }
      else found := by
  unfold processCell
  dsimp only
  rw [if_neg (Bool.eq_false_iff.mp (passesSum_iff.mpr hpass))]
  rfl

lemma Branch.Reports.refl (found : Candidates K) : branch.Reports exp type classNum dflLen [] found found :=
  ⟨[], rfl, by simp, by simp, by simp, by simp⟩

lemma Branch.Reports.snoc {places : List (ℕ × ℕ)} {found found' : Candidates K}
    (hstart : type.maxScore ≤ type.scoreThres) (h : branch.Reports exp type classNum dflLen places found found')
    (p : ℕ × ℕ) : branch.Reports exp type classNum dflLen (places ++ [p]) found
      (processCell exp type branch classNum dflLen found' p.1 p.2) := by
  obtain ⟨reported, hplaces, hbest, hboxes, hprobs, hclass⟩ := h
  by_cases hp : branch.passesSum type p ∧ ∃ c < classNum, type.scoreThres < branch.score p c
  · obtain ⟨c, hc, hthres⟩ := hp.2
    obtain ⟨c, hc, hthres, -, hscan⟩ := Branch.scan_of_lt ⟨c, hc, hthres, hstart.trans_lt hthres⟩
    rw [processCell_of_passesSum exp dflLen found' hp.1, hscan, if_pos hthres]
    refine ⟨reported ++ [(p, c)], ?_, ?_, ?_, ?_, ?_⟩
    · rw [List.map_append, List.filter_append, hplaces, List.filter_singleton, decide_eq_true hp]
      rfl
    · intro r hr
      obtain hr | hr := List.mem_append.mp hr
      · exact hbest r hr
      · rw [List.mem_singleton.mp hr]
        exact hc
    · rw [hboxes, List.map_append, List.append_assoc]
      rfl
    · rw [hprobs, List.map_append, List.append_assoc]
      rfl
    · rw [hclass, List.map_append, List.append_assoc]
      rfl
  · have hsame : processCell exp type branch classNum dflLen found' p.1 p.2 = found' := by
      by_cases hpass : branch.passesSum type p
      · have hscan : branch.scan type classNum p = _ :=
          Branch.scan_of_le fun c hc => .inl (not_lt.mp fun hlt => hp ⟨hpass, c, hc, hlt⟩)
        rw [processCell_of_passesSum exp dflLen found' hpass, hscan, if_neg hstart.not_gt]
      · exact processCell_of_not_passesSum hpass
    rw [hsame]
    refine ⟨reported, ?_, hbest, hboxes, hprobs, hclass⟩
    rw [List.filter_append, hplaces, List.filter_singleton, decide_eq_false hp]
    exact (List.append_nil _).symm

lemma process_reports (hstart : type.maxScore ≤ type.scoreThres) (found : Candidates K) :
    branch.Reports exp type classNum dflLen branch.places found (process exp type branch classNum dflLen found) := by
  rw [process_eq_foldl]
  induction branch.places using List.reverseRecOn with
  | nil => exact .refl found
  | append_singleton places p ih =>
    rw [List.foldl_append, List.foldl_cons, List.foldl_nil]
    exact ih.snoc hstart p

/-! ## A start above the threshold -/

omit [Field K] in
lemma Branch.scannedFrom_scan (hstart : type.scoreThres < type.maxScore) (p : ℕ × ℕ) :
    branch.ScannedFrom type.maxScore classNum p (branch.scan type classNum p) ∧
      type.scoreThres < (branch.scan type classNum p).1 := by
  by_cases habove : ∃ c < classNum, type.maxScore < branch.score p c
  · obtain ⟨c, hc, hlt⟩ := habove
    obtain ⟨c, hbest, hthres, hlt, hscan⟩ := Branch.scan_of_lt ⟨c, hc, hstart.trans hlt, hlt⟩
    rw [hscan]
    exact ⟨.inl ⟨c, hbest, hlt, rfl⟩, hthres⟩
  · have hle : ∀ c < classNum, branch.score p c ≤ type.maxScore :=
      fun c hc => not_lt.mp fun hlt => habove ⟨c, hc, hlt⟩
    have hscan : branch.scan type classNum p = _ := Branch.scan_of_le fun c hc => .inr (hle c hc)
    rw [hscan]
    exact ⟨.inr ⟨hle, rfl⟩, hstart⟩

lemma Branch.ReportsAll.snoc {places : List (ℕ × ℕ)} {found found' : Candidates K}
    (hstart : type.scoreThres < type.maxScore) (h : branch.ReportsAll exp type classNum dflLen places found found')
    (p : ℕ × ℕ) : branch.ReportsAll exp type classNum dflLen (places ++ [p]) found
      (processCell exp type branch classNum dflLen found' p.1 p.2) := by
  obtain ⟨reported, hplaces, hscanned, hboxes, hprobs, hclass⟩ := h
  by_cases hpass : branch.passesSum type p
  · obtain ⟨hscan, hthres⟩ : branch.ScannedFrom type.maxScore classNum p _ ∧ _ := Branch.scannedFrom_scan hstart p
    rw [processCell_of_passesSum exp dflLen found' hpass, if_pos hthres]
    refine ⟨reported ++ [(p, branch.scan type classNum p)], ?_, ?_, ?_, ?_, ?_⟩
    · rw [List.map_append, List.filter_append, hplaces, List.filter_singleton, decide_eq_true hpass]
      rfl
    · intro r hr
      obtain hr | hr := List.mem_append.mp hr
      · exact hscanned r hr
      · rw [List.mem_singleton.mp hr]
        exact hscan
    · rw [hboxes, List.map_append, List.append_assoc]
      rfl
    · rw [hprobs, List.map_append, List.append_assoc]
      rfl
    · rw [hclass, List.map_append, List.append_assoc]
      rfl
  · rw [processCell_of_not_passesSum hpass]
    refine ⟨reported, ?_, hscanned, hboxes, hprobs, hclass⟩
    rw [List.filter_append, hplaces, List.filter_singleton, decide_eq_false hpass]
    exact (List.append_nil _).symm

lemma process_reportsAll (hstart : type.scoreThres < type.maxScore) (found : Candidates K) :
    branch.ReportsAll exp type classNum dflLen branch.places found
      (process exp type branch classNum dflLen found) := by
  rw [process_eq_foldl]
  induction branch.places using List.reverseRecOn with
  | nil => exact ⟨[], rfl, by simp, by simp, by simp, by simp⟩
  | append_singleton places p ih =>
    rw [List.foldl_append, List.foldl_cons, List.foldl_nil]
    exact ih.snoc hstart p

/-- Then a place is reported where no class is above the threshold. -/
lemma not_reports_of_lt (hstart : type.scoreThres < type.maxScore) (boxTensor : ℕ → T) (classNum : ℕ) :
    let branch : Branch T :=
      { boxTensor := boxTensor, scoreTensor := fun _ => type.scoreThres, scoreSumTensor := none
        gridH := 1, gridW := 1, stride := 1 }
    ¬branch.Reports exp type classNum dflLen branch.places {} (process exp type branch classNum dflLen {}) := by
  intro branch h
  obtain ⟨reported, hplaces, -, -, -, hclass⟩ := h
  have hevery : branch.ReportsAll exp type classNum dflLen branch.places {} _ := process_reportsAll hstart {}
  obtain ⟨all, hall, -, -, -, hallClass⟩ := hevery
  have hnil : reported = [] := by
    rw [← List.map_eq_nil_iff (f := Prod.fst), hplaces]
    simp [Branch.places, Branch.score, branch]
  have hone : all.length = 1 := by
    rw [← List.length_map Prod.fst, hall]
    simp [Branch.places, Branch.passesSum, branch]
  have hlen := congrArg List.length (hclass.symm.trans hallClass)
  rw [hnil, List.length_append, List.length_append, List.length_map, List.length_map, hone] at hlen
  simp at hlen

end

section
variable {K : Type} [Field K] [LinearOrder K] [FloorRing K]

/-- `process_i8` reports the places with a class above the threshold, and no others, exactly if the negated zero point,
as an `int8_t`, is not above the quantised threshold. Otherwise it reports every place that the sum lets through, with
the class `-1` where no class is above the negated zero point. -/
theorem processI8_reports_iff (exp : K → K) (box score scoreSum : Quantization K) (threshold : K)
    (classNum dflLen : ℕ) :
    (int8 (-score.zp) ≤ qntF32ToAffine threshold score.zp score.scale ↔
      ∀ (branch : Branch ℤ) (found : Candidates K),
        branch.Reports exp (tensorI8 box score scoreSum threshold) classNum dflLen branch.places found
          (processI8 exp box score scoreSum threshold branch classNum dflLen found)) ∧
      (qntF32ToAffine threshold score.zp score.scale < int8 (-score.zp) →
        ∀ (branch : Branch ℤ) (found : Candidates K),
          branch.ReportsAll exp (tensorI8 box score scoreSum threshold) classNum dflLen branch.places found
            (processI8 exp box score scoreSum threshold branch classNum dflLen found)) := by
  constructor
  · constructor
    · intro hstart branch found
      exact process_reports hstart found
    · intro h
      by_contra hstart
      have hlt : (tensorI8 box score scoreSum threshold).scoreThres <
          (tensorI8 box score scoreSum threshold).maxScore := not_le.mp hstart
      exact not_reports_of_lt hlt (fun _ => 0) classNum (h _ {})
  · intro hstart branch found
    exact process_reportsAll hstart found

end

/-- One place whose only class has the lowest score, with the zero point -100: it is reported without a class. -/
theorem processI8_reports_iff_noClass :
    let quantization : Quantization ℚ := { zp := -100, scale := 1 / 255 }
    let branch : Branch ℤ :=
      { boxTensor := fun _ => 0, scoreTensor := fun _ => -128, scoreSumTensor := none, gridH := 1, gridW := 1,
        stride := 8 }
    let found := processI8 id quantization quantization quantization (1 / 2) branch 1 1 {}
    found.classId = [-1] ∧ branch.ReportsAll id (tensorI8 quantization quantization quantization (1 / 2)) 1 1
      branch.places {} found := by
  intro quantization branch found
  refine ⟨by decide +kernel, ?_⟩
  exact (processI8_reports_iff id quantization quantization quantization (1 / 2) 1 1).2 (by decide +kernel) branch {}

example : int8 (-(-128)) ≤ qntF32ToAffine (1 / 2 : ℚ) (-128) (1 / 255) := by decide +kernel

end MediaAgent.Yolov8
