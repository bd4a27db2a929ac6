import MediaAgent.Library.Assignment
import Mathlib

/-!
# Munkres' algorithm

`munkres_assignment/munkres/munkres.h` and `munkres_assignment/hungarianoper.cpp` of the tracker library, over the
values of an ordered ring. These have no infinity, so that `ReplaceInfinites` has nothing to replace.
-/

namespace MediaAgent
open Assignment

/-- The values of `mask_matrix`: `NORMAL`, `STAR` and `PRIME`. -/
inductive MunkresMark
  | normal
  | star
  | prime
  deriving DecidableEq, Repr

/-- The step that comes next; `Step4` begins at the cell `saverow`, `savecol` where `Step3` has ended. -/
inductive MunkresStep (n : ℕ)
  | done
  | one
  | two
  | three
  | four (saverow savecol : Fin n)
  | five
  deriving DecidableEq, Repr

/-- The members of `Munkres` on a square of `n` rows. -/
structure Munkres (n : ℕ) (α : Type) where
  matrix : Fin n → Fin n → α
  maskMatrix : Fin n → Fin n → MunkresMark := fun _ _ => .normal
  rowMask : Fin n → Bool := fun _ => false
  colMask : Fin n → Bool := fun _ => false

/-- The cells in the order of the loops over rows and columns. -/
def cells (m n : ℕ) : List (Fin m × Fin n) := List.finRange m ×ˢ List.finRange n

def setMark {n : ℕ} (mask : Fin n → Fin n → MunkresMark) (row col : Fin n) (mark : MunkresMark) :
    Fin n → Fin n → MunkresMark :=
  fun r c => if r = row ∧ c = col then mark else mask r c

/-- What the last loop of `Step4` does to a mark on the sequence. -/
def MunkresMark.flip : MunkresMark → MunkresMark
  | normal => normal
  | star => normal
  | prime => star

/-- The loop of `Step4` that goes from a prime to the star in its column and from there to the prime in the star's row,
along cells that are not in `seq` yet. -/
def alternatingSequence {n : ℕ} (mask : Fin n → Fin n → MunkresMark) :
    ℕ → Fin n → List (Fin n × Fin n) → Option (List (Fin n × Fin n))
  | 0, _, _ => none
  | fuel + 1, col, seq =>
    match (List.finRange n).find? fun row => mask row col = .star ∧ (row, col) ∉ seq with
    | none => some seq
    | some row =>
      match (List.finRange n).find? fun c => mask row c = .prime ∧ (row, c) ∉ seq ++ [(row, col)] with
      | none => some (seq ++ [(row, col)])
      | some c => alternatingSequence mask fuel c (seq ++ [(row, col)] ++ [(row, c)])

def flipAlong {n : ℕ} (mask : Fin n → Fin n → MunkresMark) (seq : List (Fin n × Fin n)) :
    Fin n → Fin n → MunkresMark :=
  seq.foldl (fun mask p => setMark mask p.1 p.2 (mask p.1 p.2).flip) mask

def erasePrimes {n : ℕ} (mask : Fin n → Fin n → MunkresMark) : Fin n → Fin n → MunkresMark :=
  fun row col => if mask row col = .prime then .normal else mask row col

section
variable {α : Type} [CommRing α] [LinearOrder α]

/-- The search for the least value of a line, which ends at a value that is not positive. -/
def lineMin : α → List α → α
  | least, [] => least
  | least, x :: xs => if 0 < least then lineMin (min least x) xs else least

def minimizeLine {n : ℕ} (line : Fin n → α) : Fin n → α :=
  match List.ofFn line with
  | [] => line
  | x :: xs => if 0 < lineMin x xs then fun j => line j - lineMin x xs else line

def minimizeAlongDirection {n : ℕ} (matrix : Fin n → Fin n → α) (overColumns : Bool) : Fin n → Fin n → α :=
  if overColumns then fun row col => minimizeLine (fun j => matrix j col) row
  else fun row col => minimizeLine (matrix row) col

namespace Munkres
variable {n : ℕ} (s : Munkres n α)

/-- The search for an uncovered zero. -/
def findUncoveredInMatrix : Option (Fin n × Fin n) :=
  (cells n n).find? fun p => !s.rowMask p.1 && !s.colMask p.2 && decide (s.matrix p.1 p.2 = 0)

/-- A row of `Step1`. -/
def starRow (s : Munkres n α) (row : Fin n) : Munkres n α :=
  match (List.finRange n).find? fun col => s.matrix row col = 0 ∧ ∀ nrow < row, s.maskMatrix nrow col ≠ .star with
  | none => s
  | some col => { s with maskMatrix := setMark s.maskMatrix row col .star }

def step1 : MunkresStep n × Munkres n α := (.two, (List.finRange n).foldl starRow s)

def step2 : MunkresStep n × Munkres n α :=
  let colMask := fun col => s.colMask col || decide (∃ row, s.maskMatrix row col = .star)
  let covercount := (cells n n).countP fun p => s.maskMatrix p.1 p.2 = .star
  (if n ≤ covercount then .done else .three, { s with colMask := colMask })

def step3 : MunkresStep n × Munkres n α :=
  match s.findUncoveredInMatrix with
  | none => (.five, s)
  | some (saverow, savecol) =>
    let s := { s with maskMatrix := setMark s.maskMatrix saverow savecol .prime }
    match (List.finRange n).find? fun ncol => s.maskMatrix saverow ncol = .star with
    | none => (.four saverow savecol, s)
    | some ncol =>
      (.three,
        { s with
          rowMask := fun row => if row = saverow then true else s.rowMask row
          colMask := fun col => if col = ncol then false else s.colMask col })

def step4 (fuel : ℕ) (saverow savecol : Fin n) : Option (MunkresStep n × Munkres n α) :=
  (alternatingSequence s.maskMatrix fuel savecol [(saverow, savecol)]).map fun seq =>
    (.two,
      { s with
        maskMatrix := erasePrimes (flipAlong s.maskMatrix seq)
        rowMask := fun _ => false
        colMask := fun _ => false })

/-- A cell in the first loop of `Step5`. -/
def lowered (h : α) (p : Fin n × Fin n) : α :=
  if !s.rowMask p.1 && !s.colMask p.2 && decide (s.matrix p.1 p.2 < h) && decide (s.matrix p.1 p.2 ≠ 0) then
    s.matrix p.1 p.2
  else h

/-- The variable `h` of `Step5`. -/
def leastUncovered : α := (cells n n).foldl s.lowered 100000

def step5 : MunkresStep n × Munkres n α :=
  let h := s.leastUncovered
  let added := fun row col => if s.rowMask row then s.matrix row col + h else s.matrix row col
  (.three, { s with matrix := fun row col => if s.colMask col then added row col else added row col - h })

/-- The steps until there is none left. -/
def steps : ℕ → MunkresStep n → Munkres n α → Option (Munkres n α)
  | 0, _, _ => none
  | _ + 1, .done, s => some s
  | fuel + 1, .one, s => steps fuel s.step1.1 s.step1.2
  | fuel + 1, .two, s => steps fuel s.step2.1 s.step2.2
  | fuel + 1, .three, s => steps fuel s.step3.1 s.step3.2
  | fuel + 1, .four saverow savecol, s => (s.step4 fuel saverow savecol).bind fun r => steps fuel r.1 r.2
  | fuel + 1, .five, s => steps fuel s.step5.1 s.step5.2

end Munkres

variable {rows columns : ℕ} (m : Fin rows → Fin columns → α)

/-- `Matrix::mmax` -/
def mmax : α := (((cells rows columns).map fun p => m p.1 p.2).max?).getD 0

/-- `Matrix::resize` to a square, with the largest value in the new cells. -/
def padded (row col : Fin (max rows columns)) : α :=
  if h : row.val < rows ∧ col.val < columns then m ⟨row, h.1⟩ ⟨col, h.2⟩ else mmax m

/-- `Munkres::Solve`, up to the loop over the steps. -/
def munkresInit : Munkres (max rows columns) α where
  matrix := minimizeAlongDirection (minimizeAlongDirection (padded m) (decide (columns ≤ rows))) (decide (rows < columns))

/-- `Munkres::Solve`: 0 in the cells with a star and -1 in the others. -/
def munkresSolve (fuel : ℕ) : Option (Fin rows → Fin columns → ℤ) :=
  ((munkresInit m).steps fuel .one).map fun s => fun row col =>
    if s.maskMatrix (row.castLE (le_max_left _ _)) (col.castLE (le_max_right _ _)) = .star then 0 else -1

/-- `HungarianOper::Solve` -/
def hungarianOperSolve (fuel : ℕ) : Option (List (Fin rows × Fin columns)) :=
  (munkresSolve m fuel).map fun r => (cells rows columns).filter fun p => r p.1 p.2 = 0

end

/-! ## The alternating sequence -/

section
variable {n : ℕ} {mask : Fin n → Fin n → MunkresMark}

lemma mem_cells {m n : ℕ} (p : Fin m × Fin n) : p ∈ cells m n :=
  List.mem_product.mpr ⟨List.mem_finRange p.1, List.mem_finRange p.2⟩

lemma flipAlong_of_nodup {seq : List (Fin n × Fin n)} (h : seq.Nodup) (row col : Fin n) :
    flipAlong mask seq row col = if (row, col) ∈ seq then (mask row col).flip else mask row col := by
  induction seq generalizing mask with
  | nil => rfl
  | cons p seq ih =>
    obtain ⟨hp, hseq⟩ := List.nodup_cons.mp h
    have hstep : flipAlong mask (p :: seq) = flipAlong (setMark mask p.1 p.2 (mask p.1 p.2).flip) seq := rfl
    rw [hstep, ih hseq]
    by_cases heq : (row, col) = p
    · subst heq
      simp [hp, setMark]
    · have hne : ¬(row = p.1 ∧ col = p.2) := fun h => heq (Prod.ext h.1 h.2)
      simp [heq, setMark, hne]

/-- A row has at most one prime, and the star in the column of a prime is in a row with a prime of lower rank. -/
structure Primed (mask : Fin n → Fin n → MunkresMark) (rank : Fin n → ℕ) : Prop where
  unique : ∀ {row col col'}, mask row col = .prime → mask row col' = .prime → col = col'
  next : ∀ {row col row'}, mask row col = .prime → mask row' col = .star →
    rank row' < rank row ∧ ∃ col', mask row' col' = .prime

/-- The sequence up to the prime at `row` and `col`, after which it goes on. -/
structure AlternatingPrefix (mask : Fin n → Fin n → MunkresMark) (rank : Fin n → ℕ) (row col : Fin n)
    (seq : List (Fin n × Fin n)) : Prop where
  nodup : seq.Nodup
  last : (row, col) ∈ seq ∧ mask row col = .prime
  rank_le : ∀ p ∈ seq, p.1 = row ∨ rank row < rank p.1
  star_row : ∀ {r c c'}, (r, c) ∈ seq → mask r c = .prime → mask r c' = .star → (r, c') ∈ seq
  prime_row : ∀ {r c}, (r, c) ∈ seq → mask r c = .star → ∃ c', (r, c') ∈ seq ∧ mask r c' = .prime
  star_col : ∀ {r c}, (r, c) ∈ seq → mask r c = .prime → (r, c) ≠ (row, col) → ∃ r', mask r' c = .star ∧ (r', c) ∈ seq
  col : ∀ {r r' c}, (r, c) ∈ seq → mask r c = .prime → (r', c) ∈ seq → mask r' c = .prime → r = r'

variable {rank : Fin n → ℕ} {row col : Fin n} {seq : List (Fin n × Fin n)}

lemma AlternatingPrefix.singleton (hprime : mask row col = .prime) (hfree : ∀ c, mask row c ≠ .star) :
    AlternatingPrefix mask rank row col [(row, col)] where
  nodup := List.nodup_singleton _
  last := ⟨List.mem_singleton.mpr rfl, hprime⟩
  rank_le p hp := .inl (by rw [List.mem_singleton.mp hp])
  star_row := by
    intro r c c' hmem _ hstar
    cases List.mem_singleton.mp hmem
    exact absurd hstar (hfree c')
  prime_row := by
    intro r c hmem hstar
    cases List.mem_singleton.mp hmem
    exact absurd hstar (hfree col)
  star_col := by
    intro r c hmem _ hne
    exact absurd (List.mem_singleton.mp hmem) hne
  col := by
    intro r r' c hmem _ hmem' _
    cases List.mem_singleton.mp hmem
    cases List.mem_singleton.mp hmem'
    rfl

lemma AlternatingPrefix.le_rank (h : AlternatingPrefix mask rank row col seq) {r c : Fin n} (hp : (r, c) ∈ seq) :
    rank row ≤ rank r := by
  rcases h.rank_le _ hp with heq | hless
  · exact (congrArg rank heq).ge
  · exact hless.le

/-- Without a star in the column of the last prime that is not on it yet, the sequence alternates. -/
lemma AlternatingPrefix.alternates (h : AlternatingPrefix mask rank row col seq) (hprimed : Primed mask rank)
    (hstars : IsMatching fun r c => mask r c = .star)
    (hend : ∀ r, mask r col = .star → (r, col) ∈ seq) :
    Alternates (fun r c => mask r c = .star) (fun r c => mask r c = .star ∧ (r, c) ∈ seq)
      fun r c => mask r c = .prime ∧ (r, c) ∈ seq where
  row hj hj' := hprimed.unique hj.1 hj'.1
  col hi hi' := h.col hi.2 hi.1 hi'.2 hi'.1
  star_row hj hj' := ⟨hj', h.star_row hj.2 hj.1 hj'⟩
  star_col := by
    intro r r' c hr hr'
    refine ⟨hr', ?_⟩
    by_cases hlast : (r, c) = (row, col)
    · cases hlast
      exact hend r' hr'
    · obtain ⟨r'', hr'', hmem⟩ := h.star_col hr.2 hr.1 hlast
      rwa [hstars.col hr' hr'']
  restored := by
    intro r c hr
    obtain ⟨c', hmem, hprime⟩ := h.prime_row hr.2 hr.1
    exact ⟨c', hprime, hmem⟩

/-- The sequence goes on along the star at `row'` to the prime in that row. -/
lemma AlternatingPrefix.next (h : AlternatingPrefix mask rank row col seq) (hprimed : Primed mask rank)
    (hstars : IsMatching fun r c => mask r c = .star) {row' col' : Fin n} (hstar : mask row' col = .star)
    (hprime : mask row' col' = .prime) :
    AlternatingPrefix mask rank row' col' (seq ++ [(row', col)] ++ [(row', col')]) := by
  have hlt : rank row' < rank row := (hprimed.next h.last.2 hstar).1
  have hnew : ∀ p ∈ seq, p.1 ≠ row' := by
    rintro ⟨r, c⟩ hp rfl
    exact absurd (h.le_rank hp) hlt.not_ge
  have hcol : col ≠ col' := by
    rintro rfl
    cases hstar.symm.trans hprime
  have hmem : ∀ {p}, p ∈ seq ++ [(row', col)] ++ [(row', col')] ↔ p ∈ seq ∨ p = (row', col) ∨ p = (row', col') := by
    simp
  -- a prime in the new prime's column would have its star in a row of lower rank than all rows of the sequence
  have hfresh : ∀ {r}, (r, col') ∈ seq → mask r col' = .prime → False := by
    intro r hr hrprime
    by_cases hlast : (r, col') = (row, col)
    · exact hcol (congrArg Prod.snd hlast).symm
    · obtain ⟨r', hr', hr'mem⟩ := h.star_col hr hrprime hlast
      exact absurd (h.le_rank hr'mem) ((hprimed.next hprime hr').1.trans hlt).not_ge
  constructor
  · refine List.nodup_append.mpr ⟨List.nodup_append.mpr ⟨h.nodup, List.nodup_singleton _, ?_⟩, List.nodup_singleton _, ?_⟩
    · rintro p hp _ hq rfl
      rw [List.mem_singleton.mp hq] at hp
      exact hnew _ hp rfl
    · rintro p hp _ hq rfl
      rw [List.mem_singleton.mp hq] at hp
      rcases List.mem_append.mp hp with hp | hp
      · exact hnew _ hp rfl
      · exact hcol (congrArg Prod.snd (List.mem_singleton.mp hp)).symm
  · exact ⟨hmem.mpr (.inr (.inr rfl)), hprime⟩
  · intro p hp
    rcases hmem.mp hp with hp | rfl | rfl
    · rcases h.rank_le p hp with heq | hless
      · exact .inr (by rw [heq]; exact hlt)
      · exact .inr (hlt.trans hless)
    · exact .inl rfl
    · exact .inl rfl
  · intro r c c' hp hpc hpc'
    rcases hmem.mp hp with hp | hp | hp
    · exact hmem.mpr (.inl (h.star_row hp hpc hpc'))
    · cases hp
      cases hstar.symm.trans hpc
    · cases hp
      exact hmem.mpr (.inr (.inl (by rw [hstars.row hstar hpc'])))
  · intro r c hp hpc
    rcases hmem.mp hp with hp | hp | hp
    · obtain ⟨c', hc', hprime'⟩ := h.prime_row hp hpc
      exact ⟨c', hmem.mpr (.inl hc'), hprime'⟩
    · cases hp
      exact ⟨col', hmem.mpr (.inr (.inr rfl)), hprime⟩
    · cases hp
      cases hprime.symm.trans hpc
  · intro r c hp hpc hne
    rcases hmem.mp hp with hp | hp | hp
    · by_cases hlast : (r, c) = (row, col)
      · cases hlast
        exact ⟨row', hstar, hmem.mpr (.inr (.inl rfl))⟩
      · obtain ⟨r', hr', hr'mem⟩ := h.star_col hp hpc hlast
        exact ⟨r', hr', hmem.mpr (.inl hr'mem)⟩
    · cases hp
      cases hstar.symm.trans hpc
    · exact absurd hp hne
  · intro r r' c hp hpc hp' hpc'
    rcases hmem.mp hp with hp | hp | hp <;> rcases hmem.mp hp' with hp' | hp' | hp'
    · exact h.col hp hpc hp' hpc'
    · cases hp'
      cases hstar.symm.trans hpc'
    · cases hp'
      exact (hfresh hp hpc).elim
    · cases hp
      cases hstar.symm.trans hpc
    · cases hp
      cases hstar.symm.trans hpc
    · cases hp
      cases hstar.symm.trans hpc
    · cases hp
      exact (hfresh hp' hpc').elim
    · cases hp'
      cases hstar.symm.trans hpc'
    · exact (congrArg Prod.fst hp).trans (congrArg Prod.fst hp').symm

lemma alternatingSequence_mono {seq' : List (Fin n × Fin n)} {fuel fuel' : ℕ} (hle : fuel ≤ fuel')
    (h : alternatingSequence mask fuel col seq = some seq') : alternatingSequence mask fuel' col seq = some seq' := by
  induction fuel generalizing fuel' col seq with
  | zero => cases h
  | succ fuel ih =>
    obtain ⟨k, rfl⟩ : ∃ k, fuel' = k + 1 := ⟨fuel' - 1, by omega⟩
    rw [alternatingSequence] at h ⊢
    split at h
    · exact h
    · split at h
      · exact h
      · exact ih (by omega) h

/-- The loop ends, each turn at a lower rank, with a sequence that alternates. -/
lemma alternatingSequence_alternates (hprimed : Primed mask rank) (hstars : IsMatching fun r c => mask r c = .star)
    {fuel : ℕ} (hfuel : rank row < fuel) (h : AlternatingPrefix mask rank row col seq) :
    ∃ seq', alternatingSequence mask fuel col seq = some seq' ∧ seq'.Nodup ∧ seq ⊆ seq' ∧
      Alternates (fun r c => mask r c = .star) (fun r c => mask r c = .star ∧ (r, c) ∈ seq')
        fun r c => mask r c = .prime ∧ (r, c) ∈ seq' := by
  induction fuel generalizing row col seq with
  | zero => omega
  | succ fuel ih =>
    rw [alternatingSequence]
    cases hrow : (List.finRange n).find? fun r => mask r col = .star ∧ (r, col) ∉ seq with
    | none =>
      refine ⟨seq, rfl, h.nodup, List.Subset.refl _, h.alternates hprimed hstars fun r hr => ?_⟩
      have hnot := List.find?_eq_none.mp hrow r (List.mem_finRange r)
      simp only [decide_eq_true_eq, not_and, not_not] at hnot
      exact hnot hr
    | some row' =>
      have hfound := List.find?_some hrow
      simp only [decide_eq_true_eq] at hfound
      obtain ⟨hlt, c', hc'⟩ := hprimed.next h.last.2 hfound.1
      have hc'new : (row', c') ∉ seq ++ [(row', col)] := by
        intro hmem
        rcases List.mem_append.mp hmem with hmem | hmem
        · exact absurd (h.le_rank hmem) hlt.not_ge
        · cases List.mem_singleton.mp hmem
          cases hfound.1.symm.trans hc'
      cases hcol : (List.finRange n).find? fun c => mask row' c = .prime ∧ (row', c) ∉ seq ++ [(row', col)] with
      | none =>
        have hnot := List.find?_eq_none.mp hcol c' (List.mem_finRange c')
        simp only [decide_eq_true_eq] at hnot
        exact absurd ⟨hc', hc'new⟩ hnot
      | some c =>
        have hprime := List.find?_some hcol
        simp only [decide_eq_true_eq] at hprime
        obtain ⟨seq', hseq', hnodup, hsub, halt⟩ := ih (by omega) (h.next hprimed hstars hfound.1 hprime.1)
        refine ⟨seq', ?_, hnodup, fun p hp => hsub ?_, halt⟩
        · simpa only [hcol] using hseq'
        · exact List.mem_append_left _ (List.mem_append_left _ hp)

end

/-! ## What the steps keep -/

namespace Munkres
variable {α : Type} [CommRing α] [LinearOrder α] {n : ℕ}

/-- The stars are zeros that share no row and no column, and the matrix is the cost less potentials of its rows and
columns. -/
structure Sound (cost : Fin n → Fin n → α) (s : Munkres n α) : Prop where
  stars : IsMatching fun r c => s.maskMatrix r c = .star
  zero : ∀ {r c}, s.maskMatrix r c = .star → s.matrix r c = 0
  potentials : ∃ u v : Fin n → α, ∀ r c, s.matrix r c = cost r c - (u r + v c)
  nonneg : (∀ r c, 0 ≤ cost r c) → ∀ r c, 0 ≤ s.matrix r c

/-- Between two searches nothing is covered. -/
structure Idle (cost : Fin n → Fin n → α) (s : Munkres n α) : Prop extends Sound cost s where
  prime : ∀ r c, s.maskMatrix r c ≠ .prime
  rowMask : ∀ r, s.rowMask r = false
  colMask : ∀ c, s.colMask c = false

def coveredRows (s : Munkres n α) : Finset (Fin n) := Finset.univ.filter fun r => s.rowMask r = true

/-- In a search each star has its column covered, or its row when that has a prime. The rank of a row is the number of
rows that were covered before it. -/
structure Searching (cost : Fin n → Fin n → α) (s : Munkres n α) : Prop extends Sound cost s where
  free_row : ∃ r, ∀ c, s.maskMatrix r c ≠ .star
  free_col : ∃ c, ∀ r, s.maskMatrix r c ≠ .star
  col_mask : ∀ c, s.colMask c = true ↔ ∃ r, s.maskMatrix r c = .star ∧ s.rowMask r = false
  row_star : ∀ r, s.rowMask r = true → ∃ c, s.maskMatrix r c = .star
  row_prime : ∀ r, s.rowMask r = true → ∃ c, s.maskMatrix r c = .prime
  prime : ∀ {r c}, s.maskMatrix r c = .prime → s.rowMask r = true ∧ s.colMask c = false ∧ s.matrix r c = 0
  unique : ∀ {r c c'}, s.maskMatrix r c = .prime → s.maskMatrix r c' = .prime → c = c'
  ranked : ∃ rank : Fin n → ℕ, (∀ r, s.rowMask r = true → rank r < s.coveredRows.card) ∧
    ∀ {r c r'}, s.maskMatrix r c = .prime → s.maskMatrix r' c = .star → rank r' < rank r

/-- The search has ended with a prime in a row without a star. -/
structure Found (cost : Fin n → Fin n → α) (row col : Fin n) (s : Munkres n α) : Prop extends Sound cost s where
  last : s.maskMatrix row col = .prime
  free : ∀ c, s.maskMatrix row c ≠ .star
  prime : ∀ {r c}, s.maskMatrix r c = .prime → s.matrix r c = 0
  ranked : ∃ rank : Fin n → ℕ, rank row ≤ n ∧ Primed s.maskMatrix rank

def UncoveredZero (s : Munkres n α) : Prop := ∃ r c, s.rowMask r = false ∧ s.colMask c = false ∧ s.matrix r c = 0

variable {cost : Fin n → Fin n → α} {s : Munkres n α}

omit [CommRing α] [LinearOrder α] in
@[simp] lemma mem_coveredRows {r : Fin n} : r ∈ s.coveredRows ↔ s.rowMask r = true := by simp [coveredRows]

/-- A row without a star and a column without a star meet in an uncovered cell. -/
lemma Searching.exists_uncovered (h : Searching cost s) : ∃ r c, s.rowMask r = false ∧ s.colMask c = false := by
  obtain ⟨r, hr⟩ := h.free_row
  obtain ⟨c, hc⟩ := h.free_col
  refine ⟨r, c, ?_, ?_⟩
  · by_contra hcov
    obtain ⟨c', hc'⟩ := h.row_star r (by simpa using hcov)
    exact hr c' hc'
  · by_contra hcov
    obtain ⟨r', hr', -⟩ := (h.col_mask c).mp (by simpa using hcov)
    exact hc r' hr'

/-- A star has its row covered or its column, not both. -/
lemma Searching.star_cover (h : Searching cost s) {r c : Fin n} (hstar : s.maskMatrix r c = .star) :
    s.colMask c = !s.rowMask r := by
  cases hrow : s.rowMask r with
  | false => exact (h.col_mask c).mpr ⟨r, hstar, hrow⟩
  | true =>
    by_contra hcol
    obtain ⟨r', hr', hrow'⟩ := (h.col_mask c).mp (by simpa using hcol)
    rw [h.stars.col hr' hstar, hrow] at hrow'
    cases hrow'

/-! ### Steps 1 and 2 -/

lemma starRow_eq (s : Munkres n α) (row : Fin n) :
    s.starRow row = s ∨ ∃ col, s.matrix row col = 0 ∧ (∀ nrow < row, s.maskMatrix nrow col ≠ .star) ∧
      s.starRow row = { s with maskMatrix := setMark s.maskMatrix row col .star } := by
  rw [starRow]
  split
  · exact .inl rfl
  · rename_i col hcol
    have hfound := List.find?_some hcol
    simp only [decide_eq_true_eq] at hfound
    exact .inr ⟨col, hfound.1, hfound.2, rfl⟩

/-- The loop over the rows, from a state with stars in the rows before them only. -/
lemma idle_foldl_starRow {rows : List (Fin n)} (hrows : rows.Pairwise (· < ·)) (h : Idle cost s)
    (hbefore : ∀ r c, s.maskMatrix r c = .star → ∀ row ∈ rows, r < row) : Idle cost (rows.foldl starRow s) := by
  induction rows generalizing s with
  | nil => exact h
  | cons row rows ih =>
    obtain ⟨hrow, hrows⟩ := List.pairwise_cons.mp hrows
    rw [List.foldl_cons]
    rcases s.starRow_eq row with hsame | ⟨col, hzero, hfree, hset⟩
    · rw [hsame]
      exact ih hrows h fun r c hstar row' hrow' => hbefore r c hstar row' (List.mem_cons_of_mem _ hrow')
    · rw [hset]
      have hmark : ∀ {r c}, setMark s.maskMatrix row col .star r c = .star →
          r = row ∧ c = col ∨ s.maskMatrix r c = .star ∧ r < row := by
        intro r c hstar
        unfold setMark at hstar
        split at hstar
        · rename_i heq
          exact .inl heq
        · exact .inr ⟨hstar, hbefore r c hstar row List.mem_cons_self⟩
      refine ih hrows ?_ fun r c hstar row' hrow' => ?_
      · refine { stars := ⟨?_, ?_⟩, zero := ?_, potentials := h.potentials, nonneg := h.nonneg, prime := ?_,
                 rowMask := h.rowMask, colMask := h.colMask }
        · intro r c c' hc hc'
          rcases hmark hc with ⟨rfl, rfl⟩ | ⟨hc, hlt⟩ <;> rcases hmark hc' with ⟨heq, rfl⟩ | ⟨hc', hlt'⟩
          · rfl
          · exact absurd hlt' (lt_irrefl _)
          · exact absurd (heq ▸ hlt) (lt_irrefl _)
          · exact h.stars.row hc hc'
        · intro r r' c hr hr'
          rcases hmark hr with ⟨hrow, hcol⟩ | ⟨hold, hlt⟩ <;> rcases hmark hr' with ⟨hrow', hcol'⟩ | ⟨hold', hlt'⟩
          · exact hrow.trans hrow'.symm
          · exact absurd (hcol ▸ hold') (hfree r' hlt')
          · exact absurd (hcol' ▸ hold) (hfree r hlt)
          · exact h.stars.col hold hold'
        · intro r c hstar
          rcases hmark hstar with ⟨rfl, rfl⟩ | ⟨hstar, -⟩
          · exact hzero
          · exact h.zero hstar
        · intro r c hprime
          simp only [setMark] at hprime
          split at hprime
          · cases hprime
          · exact h.prime r c hprime
      · rcases hmark hstar with ⟨rfl, -⟩ | ⟨-, hlt⟩
        · exact hrow row' hrow'
        · exact hlt.trans (hrow row' hrow')

lemma Idle.step1 (h : Idle cost s) (hstars : ∀ r c, s.maskMatrix r c ≠ .star) : Idle cost s.step1.2 :=
  idle_foldl_starRow (List.pairwise_lt_finRange n) h fun r c hstar => absurd hstar (hstars r c)

omit [CommRing α] [LinearOrder α] in
/-- The number of stars that `Step2` counts. -/
lemma covercount_eq (s : Munkres n α) :
    (cells n n).countP (fun p => s.maskMatrix p.1 p.2 = .star) =
      (Finset.univ.filter fun p : Fin n × Fin n => s.maskMatrix p.1 p.2 = .star).card := by
  have hnodup : (cells n n).Nodup := (List.nodup_finRange n).product (List.nodup_finRange n)
  rw [List.countP_eq_length_filter, ← List.toFinset_card_of_nodup (hnodup.filter _)]
  refine congrArg Finset.card (Finset.ext fun p => ?_)
  simp [mem_cells]

omit [CommRing α] [LinearOrder α] in
lemma done_iff_of_isMatching (h : IsMatching fun r c => s.maskMatrix r c = .star) :
    s.step2.1 = .done ↔ ∀ r, ∃ c, s.maskMatrix r c = .star := by
  rw [← card_le_usedRows_iff, ← h.card_eq, ← covercount_eq, Fintype.card_fin]
  simp [step2]

omit [CommRing α] [LinearOrder α] in
lemma step2_eq (s : Munkres n α) : s.step2.1 = .done ∨ s.step2.1 = .three := by
  rw [step2]
  split
  · exact .inl rfl
  · exact .inr rfl

lemma Idle.step2 (h : Idle cost s) (hfree : ∃ r, ∀ c, s.maskMatrix r c ≠ .star) : Searching cost s.step2.2 where
  stars := h.stars
  zero := h.zero
  potentials := h.potentials
  nonneg := h.nonneg
  free_row := hfree
  free_col := by
    by_contra hall
    push Not at hall
    obtain ⟨r, hr⟩ := hfree
    obtain ⟨c, hc⟩ := h.stars.rows_of_cols hall r
    exact hr c hc
  col_mask c := by simp [Munkres.step2, h.colMask, h.rowMask]
  row_star r hr := by
    rw [show s.step2.2.rowMask r = s.rowMask r from rfl, h.rowMask] at hr
    cases hr
  row_prime r hr := by
    rw [show s.step2.2.rowMask r = s.rowMask r from rfl, h.rowMask] at hr
    cases hr
  prime hprime := absurd hprime (h.prime _ _)
  unique hprime := absurd hprime (h.prime _ _)
  ranked := by
    refine ⟨fun _ => 0, fun r hr => ?_, fun hprime => absurd hprime (h.prime _ _)⟩
    rw [show s.step2.2.rowMask r = s.rowMask r from rfl, h.rowMask] at hr
    cases hr

/-! ### Step 3 -/

lemma findUncovered_some {p : Fin n × Fin n} (h : s.findUncoveredInMatrix = some p) :
    s.rowMask p.1 = false ∧ s.colMask p.2 = false ∧ s.matrix p.1 p.2 = 0 := by
  have hfound := List.find?_some h
  simpa [and_assoc] using hfound

lemma findUncovered_none_iff : s.findUncoveredInMatrix = none ↔ ¬s.UncoveredZero := by
  constructor
  · rintro hfind ⟨r, c, hr, hc, hzero⟩
    simpa [hr, hc, hzero] using List.find?_eq_none.mp hfind (r, c) (mem_cells _)
  · intro h
    refine List.find?_eq_none.mpr fun p _ hp => h ⟨p.1, p.2, ?_⟩
    simpa [and_assoc] using hp

/-- What `Step3` does. -/
lemma step3_cases (s : Munkres n α) :
    s.findUncoveredInMatrix = none ∧ s.step3 = (.five, s) ∨
    ∃ p, s.findUncoveredInMatrix = some p ∧
      ((∀ c, setMark s.maskMatrix p.1 p.2 .prime p.1 c ≠ .star) ∧
          s.step3 = (.four p.1 p.2, { s with maskMatrix := setMark s.maskMatrix p.1 p.2 .prime }) ∨
        ∃ col, setMark s.maskMatrix p.1 p.2 .prime p.1 col = .star ∧
          s.step3 = (.three,
            { s with
              maskMatrix := setMark s.maskMatrix p.1 p.2 .prime
              rowMask := fun row => if row = p.1 then true else s.rowMask row
              colMask := fun c => if c = col then false else s.colMask c })) := by
  cases hfind : s.findUncoveredInMatrix with
  | none => exact .inl ⟨rfl, by rw [step3, hfind]⟩
  | some p =>
    refine .inr ⟨p, rfl, ?_⟩
    rw [step3, hfind]
    dsimp only
    cases hcol : (List.finRange n).find? fun ncol => setMark s.maskMatrix p.1 p.2 .prime p.1 ncol = .star with
    | none =>
      refine .inl ⟨fun c => ?_, rfl⟩
      simpa using List.find?_eq_none.mp hcol c (List.mem_finRange c)
    | some col => exact .inr ⟨col, by simpa using List.find?_some hcol, rfl⟩

lemma step3_of_none (h : ¬s.UncoveredZero) : s.step3 = (.five, s) := by
  rw [step3, findUncovered_none_iff.mpr h]

/-- A zero that is primed was not a star. -/
lemma Searching.setPrime_star (h : Searching cost s) {p : Fin n × Fin n} (hp : s.findUncoveredInMatrix = some p)
    {r c : Fin n} : setMark s.maskMatrix p.1 p.2 .prime r c = .star ↔ s.maskMatrix r c = .star := by
  obtain ⟨hrow, hcol, -⟩ := findUncovered_some hp
  unfold setMark
  split
  · rename_i heq
    obtain ⟨rfl, rfl⟩ := heq
    refine Iff.intro (fun hstar => absurd hstar (by decide)) fun hstar => ?_
    have hcover := h.star_cover hstar
    rw [hrow, hcol] at hcover
    cases hcover
  · exact Iff.rfl

lemma setPrime_prime {mask : Fin n → Fin n → MunkresMark} {p : Fin n × Fin n} {r c : Fin n} :
    setMark mask p.1 p.2 .prime r c = .prime ↔ (r, c) = p ∨ mask r c = .prime := by
  unfold setMark
  split
  · rename_i heq
    exact ⟨fun _ => .inl (Prod.ext heq.1 heq.2), fun _ => rfl⟩
  · rename_i hne
    exact ⟨.inr, fun hor => hor.resolve_left fun heq => hne ⟨congrArg Prod.fst heq, congrArg Prod.snd heq⟩⟩

/-- The rank of the row of a new prime comes after those of the covered rows. -/
lemma Searching.ranked_setPrime (h : Searching cost s) {p : Fin n × Fin n} (hp : s.findUncoveredInMatrix = some p) :
    ∃ rank : Fin n → ℕ, (∀ r, s.rowMask r = true → rank r < s.coveredRows.card) ∧ rank p.1 = s.coveredRows.card ∧
      ∀ {r c r'}, setMark s.maskMatrix p.1 p.2 .prime r c = .prime → s.maskMatrix r' c = .star → rank r' < rank r := by
  obtain ⟨hrow, hcol, -⟩ := findUncovered_some hp
  obtain ⟨rank, hlt, hrank⟩ := h.ranked
  have hcovered : ∀ {r' c}, s.colMask c = false → s.maskMatrix r' c = .star → s.rowMask r' = true := by
    intro r' c hc hstar
    have hcover := h.star_cover hstar
    rw [hc] at hcover
    simpa using hcover.symm
  refine ⟨fun r => if r = p.1 then s.coveredRows.card else rank r, fun r hr => ?_, if_pos rfl, ?_⟩
  · dsimp only
    rw [if_neg (by rintro rfl; rw [hrow] at hr; cases hr)]
    exact hlt r hr
  · intro r c r' hprime hstar
    rcases setPrime_prime.mp hprime with rfl | hold
    · have hr' := hcovered hcol hstar
      dsimp only
      rw [if_neg (by rintro rfl; rw [hrow] at hr'; cases hr'), if_pos rfl]
      exact hlt r' hr'
    · obtain ⟨hr, hc, -⟩ := h.prime hold
      have hr' := hcovered hc hstar
      dsimp only
      rw [if_neg (by rintro rfl; rw [hrow] at hr'; cases hr'), if_neg (by rintro rfl; rw [hrow] at hr; cases hr)]
      exact hrank hold hstar

lemma Searching.unique_setPrime (h : Searching cost s) {p : Fin n × Fin n} (hp : s.findUncoveredInMatrix = some p)
    {r c c' : Fin n} (hc : setMark s.maskMatrix p.1 p.2 .prime r c = .prime)
    (hc' : setMark s.maskMatrix p.1 p.2 .prime r c' = .prime) : c = c' := by
  have hrow := (findUncovered_some hp).1
  have hold : ∀ {c}, s.maskMatrix p.1 c ≠ .prime := by
    intro c hprime
    rw [(h.prime hprime).1] at hrow
    cases hrow
  rcases setPrime_prime.mp hc with heq | hcold <;> rcases setPrime_prime.mp hc' with heq' | hcold'
  · exact congrArg Prod.snd (heq.trans heq'.symm)
  · exact absurd hcold' (by rw [show r = p.1 from congrArg Prod.fst heq]; exact hold)
  · exact absurd hcold (by rw [show r = p.1 from congrArg Prod.fst heq']; exact hold)
  · exact h.unique hcold hcold'

/-- A row whose star is in the column of a prime has a prime itself. -/
lemma Searching.row_prime_of_star (h : Searching cost s) {p : Fin n × Fin n} (hp : s.findUncoveredInMatrix = some p)
    {r c r' : Fin n} (hprime : setMark s.maskMatrix p.1 p.2 .prime r c = .prime) (hstar : s.maskMatrix r' c = .star) :
    ∃ c', setMark s.maskMatrix p.1 p.2 .prime r' c' = .prime := by
  have hcol : s.colMask c = false := by
    rcases setPrime_prime.mp hprime with rfl | hold
    · exact (findUncovered_some hp).2.1
    · exact (h.prime hold).2.1
  have hcover := h.star_cover hstar
  rw [hcol] at hcover
  obtain ⟨c', hc'⟩ := h.row_prime r' (by simpa using hcover.symm)
  exact ⟨c', setPrime_prime.mpr (.inr hc')⟩

/-- The stars and the zeros under the primes after a zero is primed. -/
lemma Searching.sound_setPrime (h : Searching cost s) {p : Fin n × Fin n} (hp : s.findUncoveredInMatrix = some p) :
    Sound cost { s with maskMatrix := setMark s.maskMatrix p.1 p.2 .prime } where
  stars := by
    refine ⟨fun hc hc' => ?_, fun hr hr' => ?_⟩
    · exact h.stars.row ((h.setPrime_star hp).mp hc) ((h.setPrime_star hp).mp hc')
    · exact h.stars.col ((h.setPrime_star hp).mp hr) ((h.setPrime_star hp).mp hr')
  zero hstar := h.zero ((h.setPrime_star hp).mp hstar)
  potentials := h.potentials
  nonneg := h.nonneg

lemma Searching.zero_setPrime (h : Searching cost s) {p : Fin n × Fin n} (hp : s.findUncoveredInMatrix = some p)
    {r c : Fin n} (hprime : setMark s.maskMatrix p.1 p.2 .prime r c = .prime) : s.matrix r c = 0 := by
  rcases setPrime_prime.mp hprime with rfl | hold
  · exact (findUncovered_some hp).2.2
  · exact (h.prime hold).2.2

/-- The zero is in a row without a star. -/
lemma Searching.found (h : Searching cost s) {p : Fin n × Fin n} (hp : s.findUncoveredInMatrix = some p)
    (hfree : ∀ c, setMark s.maskMatrix p.1 p.2 .prime p.1 c ≠ .star) :
    Found cost p.1 p.2 { s with maskMatrix := setMark s.maskMatrix p.1 p.2 .prime } where
  toSound := h.sound_setPrime hp
  last := setPrime_prime.mpr (.inl rfl)
  free := hfree
  prime := h.zero_setPrime hp
  ranked := by
    obtain ⟨rank, -, hlast, hrank⟩ := h.ranked_setPrime hp
    refine ⟨rank, ?_, h.unique_setPrime hp, fun hprime hstar => ?_⟩
    · exact hlast.trans_le ((Finset.card_le_univ _).trans_eq (Fintype.card_fin n))
    · have hstar' := (h.setPrime_star hp).mp hstar
      exact ⟨hrank hprime hstar', h.row_prime_of_star hp hprime hstar'⟩

/-- The state after a zero in a row with a star is primed. -/
def cover (s : Munkres n α) (p : Fin n × Fin n) (col : Fin n) : Munkres n α :=
  { s with
    maskMatrix := setMark s.maskMatrix p.1 p.2 .prime
    rowMask := fun row => if row = p.1 then true else s.rowMask row
    colMask := fun c => if c = col then false else s.colMask c }

omit [CommRing α] [LinearOrder α] in
lemma card_coveredRows_cover {p : Fin n × Fin n} (hrow : s.rowMask p.1 = false) (col : Fin n) :
    (s.cover p col).coveredRows.card = s.coveredRows.card + 1 := by
  have hinsert : (s.cover p col).coveredRows = insert p.1 s.coveredRows := by
    ext r
    rw [Finset.mem_insert, mem_coveredRows, mem_coveredRows]
    by_cases hr : r = p.1 <;> simp [cover, hr]
  rw [hinsert, Finset.card_insert_of_notMem]
  rw [mem_coveredRows, hrow]
  decide

/-- The zero is in a row with a star, and the search goes on. -/
lemma Searching.cover (h : Searching cost s) {p : Fin n × Fin n} (hp : s.findUncoveredInMatrix = some p) {col : Fin n}
    (hcol : s.maskMatrix p.1 col = .star) : Searching cost (s.cover p col) where
  stars := (h.sound_setPrime hp).stars
  zero := (h.sound_setPrime hp).zero
  potentials := h.potentials
  nonneg := h.nonneg
  free_row := by
    obtain ⟨r, hr⟩ := h.free_row
    exact ⟨r, fun c hstar => hr c ((h.setPrime_star hp).mp hstar)⟩
  free_col := by
    obtain ⟨c, hc⟩ := h.free_col
    exact ⟨c, fun r hstar => hc r ((h.setPrime_star hp).mp hstar)⟩
  col_mask c := by
    simp only [Munkres.cover, h.setPrime_star hp]
    by_cases hc : c = col
    · subst hc
      rw [if_pos rfl]
      refine Iff.intro (fun hfalse => absurd hfalse Bool.false_ne_true) ?_
      rintro ⟨r, hr, hmask⟩
      rw [if_pos (h.stars.col hr hcol)] at hmask
      cases hmask
    · rw [if_neg hc, h.col_mask c]
      refine exists_congr fun r => and_congr_right fun hr => ?_
      rw [if_neg (by rintro rfl; exact hc (h.stars.row hr hcol))]
  row_star r hr := by
    simp only [Munkres.cover, h.setPrime_star hp] at hr ⊢
    by_cases hrow : r = p.1
    · exact ⟨col, hrow ▸ hcol⟩
    · rw [if_neg hrow] at hr
      exact h.row_star r hr
  row_prime r hr := by
    simp only [Munkres.cover, setPrime_prime] at hr ⊢
    by_cases hrow : r = p.1
    · exact ⟨p.2, .inl (Prod.ext hrow rfl)⟩
    · rw [if_neg hrow] at hr
      obtain ⟨c, hc⟩ := h.row_prime r hr
      exact ⟨c, .inr hc⟩
  prime := by
    intro r c hprime
    have hzero := h.zero_setPrime hp hprime
    simp only [Munkres.cover]
    rcases setPrime_prime.mp hprime with rfl | hold
    · refine ⟨if_pos rfl, ?_, hzero⟩
      rw [(findUncovered_some hp).2.1, ite_self]
    · obtain ⟨hr, hc, -⟩ := h.prime hold
      refine ⟨?_, ?_, hzero⟩
      · rw [hr, ite_self]
      · rw [hc, ite_self]
  unique := h.unique_setPrime hp
  ranked := by
    obtain ⟨rank, hlt, hlast, hrank⟩ := h.ranked_setPrime hp
    refine ⟨rank, fun r hr => ?_, fun hprime hstar => hrank hprime ((h.setPrime_star hp).mp hstar)⟩
    rw [card_coveredRows_cover (findUncovered_some hp).1]
    by_cases hrow : r = p.1
    · subst hrow
      omega
    · rw [show (s.cover p col).rowMask r = s.rowMask r from if_neg hrow] at hr
      exact (hlt r hr).trans (Nat.lt_succ_self _)

/-- What `Step3` makes of a search. -/
lemma Searching.step3 (h : Searching cost s) :
    s.step3 = (.five, s) ∧ ¬s.UncoveredZero ∨
    (∃ row col s', s.step3 = (.four row col, s') ∧ Found cost row col s' ∧
      ∀ r c, s'.maskMatrix r c = .star ↔ s.maskMatrix r c = .star) ∨
    ∃ s', s.step3 = (.three, s') ∧ Searching cost s' ∧ s.coveredRows.card < s'.coveredRows.card ∧
      ∀ r c, s'.maskMatrix r c = .star ↔ s.maskMatrix r c = .star := by
  rcases s.step3_cases with ⟨hnone, hstep⟩ | ⟨p, hp, ⟨hfree, hstep⟩ | ⟨col, hcol, hstep⟩⟩
  · exact .inl ⟨hstep, findUncovered_none_iff.mp hnone⟩
  · exact .inr (.inl ⟨p.1, p.2, _, hstep, h.found hp hfree, fun r c => h.setPrime_star hp⟩)
  · refine .inr (.inr ⟨s.cover p col, hstep, h.cover hp ((h.setPrime_star hp).mp hcol), ?_, fun r c => h.setPrime_star hp⟩)
    rw [card_coveredRows_cover (findUncovered_some hp).1]
    exact Nat.lt_succ_self _

/-! ### Step 4 -/

/-- The sequence is found, and leaves more rows with a star. -/
lemma Found.step4 {row col : Fin n} (h : Found cost row col s) :
    ∃ s', (∀ fuel, n < fuel → s.step4 fuel row col = some (.two, s')) ∧ Idle cost s' ∧
      (usedRows fun r c => s.maskMatrix r c = .star).card < (usedRows fun r c => s'.maskMatrix r c = .star).card := by
  obtain ⟨rank, hrank, hprimed⟩ := h.ranked
  obtain ⟨seq, hseq, hnodup, hsub, halt⟩ := alternatingSequence_alternates hprimed h.stars (Nat.lt_succ_of_le hrank)
    (AlternatingPrefix.singleton h.last h.free)
  have hmark : ∀ r c, erasePrimes (flipAlong s.maskMatrix seq) r c = .star ↔
      exchange (fun r c => s.maskMatrix r c = .star) (fun r c => s.maskMatrix r c = .star ∧ (r, c) ∈ seq)
        (fun r c => s.maskMatrix r c = .prime ∧ (r, c) ∈ seq) r c := by
    intro r c
    simp only [erasePrimes, flipAlong_of_nodup hnodup, exchange]
    by_cases hmem : (r, c) ∈ seq <;> cases hm : s.maskMatrix r c <;> simp [hmem, MunkresMark.flip]
  have hprime : ∀ r c, erasePrimes (flipAlong s.maskMatrix seq) r c ≠ .prime := by
    intro r c hp
    unfold erasePrimes at hp
    split at hp
    · cases hp
    · contradiction
  refine ⟨_, fun fuel hfuel => by rw [Munkres.step4, alternatingSequence_mono hfuel hseq]; rfl, ?_, ?_⟩
  · refine { stars := ?_, zero := ?_, potentials := h.potentials, nonneg := h.nonneg, prime := hprime,
             rowMask := fun _ => rfl, colMask := fun _ => rfl }
    · have hexchange := h.stars.exchange halt
      exact ⟨fun hc hc' => hexchange.row ((hmark _ _).mp hc) ((hmark _ _).mp hc'),
        fun hr hr' => hexchange.col ((hmark _ _).mp hr) ((hmark _ _).mp hr')⟩
    · intro r c hstar
      rcases (hmark r c).mp hstar with ⟨hold, -⟩ | ⟨hold, -⟩
      · exact h.zero hold
      · exact h.prime hold
  · exact card_usedRows_lt halt hmark ⟨h.last, hsub (List.mem_singleton.mpr rfl)⟩ h.free

/-! ### Step 5 -/

/-- An uncovered cell whose value is not zero. -/
def UncoveredValue (s : Munkres n α) (p : Fin n × Fin n) : Prop :=
  s.rowMask p.1 = false ∧ s.colMask p.2 = false ∧ s.matrix p.1 p.2 ≠ 0

lemma lowered_le (s : Munkres n α) (h : α) (p : Fin n × Fin n) :
    s.lowered h p ≤ h ∧ (s.UncoveredValue p → s.lowered h p ≤ s.matrix p.1 p.2) ∧
      (s.lowered h p = h ∨ s.UncoveredValue p ∧ s.lowered h p = s.matrix p.1 p.2) := by
  unfold lowered UncoveredValue
  split
  · rename_i hcond
    simp only [Bool.and_eq_true, Bool.not_eq_true', decide_eq_true_eq] at hcond
    exact ⟨hcond.1.2.le, fun _ => le_rfl, .inr ⟨⟨hcond.1.1.1, hcond.1.1.2, hcond.2⟩, rfl⟩⟩
  · rename_i hcond
    refine ⟨le_rfl, ?_, .inl rfl⟩
    rintro ⟨hr, hc, hne⟩
    simpa [hr, hc, hne] using hcond

lemma foldl_lowered (s : Munkres n α) (ps : List (Fin n × Fin n)) (h : α) :
    ps.foldl s.lowered h ≤ h ∧ (∀ p ∈ ps, s.UncoveredValue p → ps.foldl s.lowered h ≤ s.matrix p.1 p.2) ∧
      (ps.foldl s.lowered h = h ∨ ∃ p, s.UncoveredValue p ∧ ps.foldl s.lowered h = s.matrix p.1 p.2) := by
  induction ps generalizing h with
  | nil => exact ⟨le_rfl, fun p hp => absurd hp List.not_mem_nil, .inl rfl⟩
  | cons q ps ih =>
    obtain ⟨hle, hvalue, hfrom⟩ := s.lowered_le h q
    obtain ⟨hle', hvalue', hfrom'⟩ := ih (s.lowered h q)
    rw [List.foldl_cons]
    refine ⟨hle'.trans hle, fun p hp hu => ?_, ?_⟩
    · rcases List.mem_cons.mp hp with rfl | hp
      · exact hle'.trans (hvalue hu)
      · exact hvalue' p hp hu
    · rcases hfrom' with hsame | hex
      · rcases hfrom with hsame' | ⟨hu, heq⟩
        · exact .inl (hsame.trans hsame')
        · exact .inr ⟨q, hu, hsame.trans heq⟩
      · exact .inr hex

/-- `h` is at most every uncovered value that is not zero, and one of these unless it is the initial value. -/
lemma leastUncovered_spec (s : Munkres n α) :
    (∀ p, s.UncoveredValue p → s.leastUncovered ≤ s.matrix p.1 p.2) ∧
      (s.leastUncovered = 100000 ∨ ∃ p, s.UncoveredValue p ∧ s.leastUncovered = s.matrix p.1 p.2) := by
  obtain ⟨-, hle, hor⟩ := s.foldl_lowered (cells n n) 100000
  exact ⟨fun p => hle p (mem_cells p), hor⟩

lemma step5_matrix (s : Munkres n α) (r c : Fin n) :
    s.step5.2.matrix r c =
      s.matrix r c + (if s.rowMask r then s.leastUncovered else 0) - (if s.colMask c then 0 else s.leastUncovered) := by
  simp only [step5]
  split <;> split <;> simp

lemma uncoveredZero_step5 {p : Fin n × Fin n} (hp : s.UncoveredValue p) (heq : s.leastUncovered = s.matrix p.1 p.2) :
    s.step5.2.UncoveredZero := by
  refine ⟨p.1, p.2, hp.1, hp.2.1, ?_⟩
  rw [step5_matrix, hp.1, hp.2.1, heq]
  simp

/-- The stars, the primes and the covered cells keep their values, and nothing becomes negative. -/
lemma Searching.step5 [IsStrictOrderedRing α] (h : Searching cost s) (hnone : ¬s.UncoveredZero) :
    Searching cost s.step5.2 where
  stars := h.stars
  zero := by
    intro r c hstar
    have hcover := h.star_cover hstar
    rw [step5_matrix, hcover, h.zero hstar]
    cases s.rowMask r <;> simp
  potentials := by
    obtain ⟨u, v, huv⟩ := h.potentials
    refine ⟨fun r => u r - (if s.rowMask r then s.leastUncovered else 0),
      fun c => v c + (if s.colMask c then 0 else s.leastUncovered), fun r c => ?_⟩
    rw [step5_matrix, huv]
    ring
  nonneg := by
    intro hcost r c
    have hold := h.nonneg hcost r c
    obtain ⟨hle, hor⟩ := s.leastUncovered_spec
    have hpos : 0 ≤ s.leastUncovered := by
      rcases hor with heq | ⟨p, -, heq⟩
      · rw [heq]
        norm_num
      · rw [heq]
        exact h.nonneg hcost p.1 p.2
    rw [step5_matrix]
    cases hr : s.rowMask r with
    | true => cases s.colMask c <;> simp <;> linarith
    | false =>
      cases hc : s.colMask c with
      | true => simpa using hold
      | false =>
        have := hle (r, c) ⟨hr, hc, fun hzero => hnone ⟨r, c, hr, hc, hzero⟩⟩
        simp only [Bool.false_eq_true, if_false]
        linarith
  free_row := h.free_row
  free_col := h.free_col
  col_mask := h.col_mask
  row_star := h.row_star
  row_prime := h.row_prime
  prime := by
    intro r c hprime
    obtain ⟨hr, hc, hzero⟩ := h.prime hprime
    refine ⟨hr, hc, ?_⟩
    rw [step5_matrix, hr, hc, hzero]
    simp
  unique := h.unique
  ranked := h.ranked

/-! ### The loop over the steps -/

lemma steps_mono {fuel fuel' : ℕ} (hle : fuel ≤ fuel') {step : MunkresStep n} {s' : Munkres n α}
    (h : s.steps fuel step = some s') : s.steps fuel' step = some s' := by
  induction fuel generalizing fuel' step s with
  | zero => cases h
  | succ fuel ih =>
    obtain ⟨k, rfl⟩ : ∃ k, fuel' = k + 1 := ⟨fuel' - 1, by omega⟩
    have hk : fuel ≤ k := by omega
    cases step with
    | done => exact h
    | one => exact ih hk h
    | two => exact ih hk h
    | three => exact ih hk h
    | five => exact ih hk h
    | four row col =>
      obtain ⟨r, hr, hrest⟩ := Option.bind_eq_some_iff.mp h
      obtain ⟨seq, hseq, rfl⟩ := Option.map_eq_some_iff.mp hr
      refine Option.bind_eq_some_iff.mpr ⟨_, ?_, ih hk hrest⟩
      rw [step4, alternatingSequence_mono hk hseq]
      rfl

/-- The loop gets from one step and state to another, with any fuel beyond the number of rows. -/
def Leads (x y : MunkresStep n × Munkres n α) : Prop :=
  ∃ k, ∀ fuel, n < fuel → steps (fuel + k) x.1 x.2 = steps fuel y.1 y.2

lemma Leads.refl (x : MunkresStep n × Munkres n α) : Leads x x := ⟨0, fun _ _ => rfl⟩

lemma Leads.trans {x y z : MunkresStep n × Munkres n α} (h : Leads x y) (h' : Leads y z) : Leads x z := by
  obtain ⟨k, hk⟩ := h
  obtain ⟨k', hk'⟩ := h'
  refine ⟨k' + k, fun fuel hfuel => ?_⟩
  rw [← Nat.add_assoc, hk _ (by omega), hk' fuel hfuel]

lemma leads_one (s : Munkres n α) : Leads (.one, s) s.step1 := ⟨1, fun _ _ => rfl⟩

lemma leads_two (s : Munkres n α) : Leads (.two, s) s.step2 := ⟨1, fun _ _ => rfl⟩

lemma leads_three (s : Munkres n α) : Leads (.three, s) s.step3 := ⟨1, fun _ _ => rfl⟩

lemma leads_five (s : Munkres n α) : Leads (.five, s) s.step5 := ⟨1, fun _ _ => rfl⟩

lemma Found.leads {row col : Fin n} (h : Found cost row col s) :
    ∃ s', Leads (.four row col, s) (.two, s') ∧ Idle cost s' ∧
      (usedRows fun r c => s.maskMatrix r c = .star).card < (usedRows fun r c => s'.maskMatrix r c = .star).card := by
  obtain ⟨s', hs', hidle, hcard⟩ := h.step4
  refine ⟨s', ⟨1, fun fuel hfuel => ?_⟩, hidle, hcard⟩
  rw [steps, hs' fuel hfuel]
  rfl

section
variable [IsStrictOrderedRing α] [Archimedean α]

/-- Where no zero is uncovered, repeating `Step5` uncovers one. -/
lemma Searching.leads_zero (h : Searching cost s) (hnone : ¬s.UncoveredZero) :
    ∃ s', Leads (.five, s) (.three, s') ∧ Searching cost s' ∧ s'.maskMatrix = s.maskMatrix ∧ s'.rowMask = s.rowMask ∧
      s'.UncoveredZero := by
  obtain ⟨r, c, hr, hc⟩ := h.exists_uncovered
  obtain ⟨k, hk⟩ := Archimedean.arch (s.matrix r c) (show (0 : α) < 100000 by norm_num)
  -- `k` bounds the number of times that `h` keeps its initial value
  induction k generalizing s with
  | zero =>
    refine ⟨s.step5.2, s.leads_five, h.step5 hnone, rfl, rfl, ?_⟩
    rcases s.leastUncovered_spec.2 with hinit | ⟨p, hp, heq⟩
    · have hle := s.leastUncovered_spec.1 (r, c) ⟨hr, hc, fun hzero => hnone ⟨r, c, hr, hc, hzero⟩⟩
      have hpos : (0 : α) < 100000 := by norm_num
      rw [hinit] at hle
      rw [zero_nsmul] at hk
      exact absurd (hle.trans hk) hpos.not_ge
    · exact uncoveredZero_step5 hp heq
  | succ k ih =>
    by_cases hzero : s.step5.2.UncoveredZero
    · exact ⟨s.step5.2, s.leads_five, h.step5 hnone, rfl, rfl, hzero⟩
    · rcases s.leastUncovered_spec.2 with hinit | ⟨p, hp, heq⟩
      · have hk' : s.step5.2.matrix r c ≤ k • 100000 := by
          rw [step5_matrix, hr, hc, hinit]
          rw [succ_nsmul] at hk
          simpa using hk
        obtain ⟨s', hleads, hs', hmask, hrow, hex⟩ := ih (h.step5 hnone) hzero hr hc hk'
        have hthree : Leads (.three, s.step5.2) (.five, s.step5.2) := by
          rw [← step3_of_none hzero]
          exact leads_three _
        exact ⟨s', s.leads_five.trans (hthree.trans hleads), hs', hmask, hrow, hex⟩
      · exact absurd (uncoveredZero_step5 hp heq) hzero

/-- A search ends, or covers one more row. -/
lemma Searching.leads_next (h : Searching cost s) :
    (∃ row col s', Leads (.three, s) (.four row col, s') ∧ Found cost row col s' ∧
      ∀ r c, s'.maskMatrix r c = .star ↔ s.maskMatrix r c = .star) ∨
    ∃ s', Leads (.three, s) (.three, s') ∧ Searching cost s' ∧ s.coveredRows.card < s'.coveredRows.card ∧
      ∀ r c, s'.maskMatrix r c = .star ↔ s.maskMatrix r c = .star := by
  obtain ⟨t, hleads, ht, hmask, hrow, hzero⟩ : ∃ t, Leads (.three, s) (.three, t) ∧ Searching cost t ∧
      t.maskMatrix = s.maskMatrix ∧ t.rowMask = s.rowMask ∧ t.UncoveredZero := by
    by_cases hzero : s.UncoveredZero
    · exact ⟨s, .refl _, h, rfl, rfl, hzero⟩
    · obtain ⟨t, hleads, ht⟩ := h.leads_zero hzero
      have hfive := s.leads_three
      rw [step3_of_none hzero] at hfive
      exact ⟨t, hfive.trans hleads, ht⟩
  have hcovered : t.coveredRows = s.coveredRows := by rw [coveredRows, coveredRows, hrow]
  have hthree := t.leads_three
  rcases ht.step3 with ⟨-, hnone⟩ | ⟨row, col, s', hstep, hfound, hstar⟩ | ⟨s', hstep, hs', hcard, hstar⟩
  · exact absurd hzero hnone
  · rw [hstep] at hthree
    exact .inl ⟨row, col, s', hleads.trans hthree, hfound, fun r c => (hstar r c).trans (by rw [hmask])⟩
  · rw [hstep] at hthree
    rw [hcovered] at hcard
    exact .inr ⟨s', hleads.trans hthree, hs', hcard, fun r c => (hstar r c).trans (by rw [hmask])⟩

/-- A search ends: each turn covers one more row. -/
lemma Searching.leads_found (h : Searching cost s) :
    ∃ row col s', Leads (.three, s) (.four row col, s') ∧ Found cost row col s' ∧
      ∀ r c, s'.maskMatrix r c = .star ↔ s.maskMatrix r c = .star := by
  induction hk : n - s.coveredRows.card using Nat.strong_induction_on generalizing s with
  | h k ih =>
    rcases h.leads_next with hfound | ⟨t, hleads, ht, hcard, hstar⟩
    · exact hfound
    · have hle : t.coveredRows.card ≤ n := (Finset.card_le_univ _).trans_eq (Fintype.card_fin n)
      obtain ⟨row, col, s', hleads', hs', hstar'⟩ := ih (n - t.coveredRows.card) (by omega) ht rfl
      exact ⟨row, col, s', hleads.trans hleads', hs', fun r c => (hstar' r c).trans (hstar r c)⟩

/-- The loop ends with a star in each row: each search leaves one more row with a star. -/
lemma Idle.leads_done (h : Idle cost s) :
    ∃ s', Leads (.two, s) (.done, s') ∧ Sound cost s' ∧ ∀ r, ∃ c, s'.maskMatrix r c = .star := by
  induction hk : n - (usedRows fun r c => s.maskMatrix r c = .star).card using Nat.strong_induction_on generalizing s
    with
  | h k ih =>
    have htwo := s.leads_two
    by_cases hfull : ∀ r, ∃ c, s.maskMatrix r c = .star
    · have hdone : s.step2 = (.done, s.step2.2) := Prod.ext ((done_iff_of_isMatching h.stars).mpr hfull) rfl
      rw [hdone] at htwo
      exact ⟨s.step2.2, htwo, ⟨h.stars, h.zero, h.potentials, h.nonneg⟩, hfull⟩
    · have hthree : s.step2 = (.three, s.step2.2) :=
        Prod.ext (s.step2_eq.resolve_left fun hd => hfull ((done_iff_of_isMatching h.stars).mp hd)) rfl
      rw [hthree] at htwo
      push Not at hfull
      obtain ⟨row, col, t, hleads, ht, hstar⟩ := (h.step2 hfull).leads_found
      obtain ⟨u, hleads', hu, hcard⟩ := ht.leads
      have hsame : (usedRows fun r c => t.maskMatrix r c = .star) = usedRows fun r c => s.maskMatrix r c = .star := by
        ext r
        rw [mem_usedRows, mem_usedRows]
        exact exists_congr fun c => hstar r c
      have hle : (usedRows fun r c => u.maskMatrix r c = .star).card ≤ n :=
        (Finset.card_le_univ _).trans_eq (Fintype.card_fin n)
      rw [hsame] at hcard
      obtain ⟨s', hleads'', hs', hfull'⟩ := ih _ (by omega) hu rfl
      exact ⟨s', htwo.trans (hleads.trans (hleads'.trans hleads'')), hs', hfull'⟩

/-- From a matrix with potentials the steps come to a star in each row and column, with enough fuel. -/
lemma exists_steps (h : Idle cost s) (hstars : ∀ r c, s.maskMatrix r c ≠ .star) :
    ∃ s', Sound cost s' ∧ (∀ r, ∃ c, s'.maskMatrix r c = .star) ∧
      ∃ enough, ∀ fuel, enough ≤ fuel → s.steps fuel .one = some s' := by
  obtain ⟨s', hleads, hs', hfull⟩ := (h.step1 hstars).leads_done
  obtain ⟨k, hk⟩ := (s.leads_one).trans hleads
  refine ⟨s', hs', hfull, n + 1 + k, fun fuel hfuel => ?_⟩
  obtain ⟨j, rfl⟩ : ∃ j, fuel = j + n + 1 + k := ⟨fuel - (n + 1 + k), by omega⟩
  exact hk (j + n + 1) (by omega)

end

end Munkres

/-! ## The result -/

section
variable {α : Type} [CommRing α] [LinearOrder α]

lemma lineMin_le (least : α) (xs : List α) : lineMin least xs ≤ least := by
  induction xs generalizing least with
  | nil => exact le_rfl
  | cons x xs ih =>
    rw [lineMin]
    split
    · exact (ih _).trans (min_le_left _ _)
    · exact le_rfl

/-- A positive result has seen the whole line. -/
lemma lineMin_le_of_mem {least : α} {xs : List α} (hpos : 0 < lineMin least xs) {x : α} (hx : x ∈ xs) :
    lineMin least xs ≤ x := by
  induction xs generalizing least with
  | nil => cases hx
  | cons y xs ih =>
    rw [lineMin] at hpos ⊢
    split at hpos
    · rename_i hleast
      rw [if_pos hleast]
      rcases List.mem_cons.mp hx with rfl | hx
      · exact (lineMin_le _ _).trans (min_le_right _ _)
      · exact ih hpos hx
    · contradiction

variable [IsStrictOrderedRing α]

/-- A line is lowered by a constant, which leaves what is not negative so. -/
lemma minimizeLine_spec {n : ℕ} (line : Fin n → α) :
    ∃ d, (∀ j, minimizeLine line j = line j - d) ∧ ((∀ j, 0 ≤ line j) → ∀ j, 0 ≤ minimizeLine line j) := by
  unfold minimizeLine
  cases hline : List.ofFn line with
  | nil => exact ⟨0, fun j => (sub_zero _).symm, id⟩
  | cons x xs =>
    dsimp only
    by_cases hpos : 0 < lineMin x xs
    · rw [if_pos hpos]
      refine ⟨lineMin x xs, fun j => rfl, fun _ j => sub_nonneg.mpr ?_⟩
      have hmem : line j ∈ x :: xs := hline ▸ List.mem_ofFn.mpr ⟨j, rfl⟩
      rcases List.mem_cons.mp hmem with heq | hmem
      · exact heq ▸ lineMin_le x xs
      · exact lineMin_le_of_mem hpos hmem
    · rw [if_neg hpos]
      exact ⟨0, fun j => (sub_zero _).symm, id⟩

lemma minimizeAlongDirection_spec {n : ℕ} (matrix : Fin n → Fin n → α) (overColumns : Bool) :
    (∃ u v : Fin n → α, ∀ r c, minimizeAlongDirection matrix overColumns r c = matrix r c - (u r + v c)) ∧
      ((∀ r c, 0 ≤ matrix r c) → ∀ r c, 0 ≤ minimizeAlongDirection matrix overColumns r c) := by
  cases overColumns with
  | true =>
    choose d hd hnonneg using fun c => minimizeLine_spec fun r => matrix r c
    refine ⟨⟨fun _ => 0, d, fun r c => ?_⟩, fun h r c => hnonneg c (fun r => h r c) r⟩
    rw [zero_add]
    exact hd c r
  | false =>
    choose d hd hnonneg using fun r => minimizeLine_spec (matrix r)
    refine ⟨⟨d, fun _ => 0, fun r c => ?_⟩, fun h r => hnonneg r (h r)⟩
    rw [add_zero]
    exact hd r c

variable {rows columns : ℕ} (m : Fin rows → Fin columns → α)

omit [IsStrictOrderedRing α] in
lemma maskMatrix_munkresInit (r c : Fin (max rows columns)) : (munkresInit m).maskMatrix r c = .normal := rfl

lemma idle_munkresInit : (munkresInit m).Idle (padded m) where
  stars := by
    refine ⟨fun hc _ => ?_, fun hr _ => ?_⟩
    · cases (maskMatrix_munkresInit m _ _).symm.trans hc
    · cases (maskMatrix_munkresInit m _ _).symm.trans hr
  zero hstar := by cases (maskMatrix_munkresInit m _ _).symm.trans hstar
  potentials := by
    obtain ⟨⟨u, v, huv⟩, -⟩ := minimizeAlongDirection_spec (padded m) (decide (columns ≤ rows))
    obtain ⟨⟨u', v', huv'⟩, -⟩ := minimizeAlongDirection_spec
      (minimizeAlongDirection (padded m) (decide (columns ≤ rows))) (decide (rows < columns))
    refine ⟨fun r => u r + u' r, fun c => v c + v' c, fun r c => ?_⟩
    rw [show (munkresInit m).matrix r c = _ from huv' r c, huv]
    ring
  nonneg h := (minimizeAlongDirection_spec _ _).2 ((minimizeAlongDirection_spec _ _).2 h)
  prime r c hprime := by cases (maskMatrix_munkresInit m r c).symm.trans hprime
  rowMask r := rfl
  colMask c := rfl

omit [IsStrictOrderedRing α] in
lemma padded_nonneg (h : ∀ r c, 0 ≤ m r c) (r c : Fin (max rows columns)) : 0 ≤ padded m r c := by
  rw [padded]
  split
  · exact h _ _
  · rw [mmax]
    cases hmax : ((cells rows columns).map fun p => m p.1 p.2).max? with
    | none => exact le_rfl
    | some x =>
      obtain ⟨p, -, rfl⟩ := List.mem_map.mp (List.max?_mem hmax)
      exact h p.1 p.2

end

section
variable {rows columns : ℕ}

/-- The rows and the columns of a matrix in the square. -/
abbrev rowInSquare : Fin rows ↪ Fin (max rows columns) := Fin.castLEEmb (le_max_left rows columns)

abbrev colInSquare : Fin columns ↪ Fin (max rows columns) := Fin.castLEEmb (le_max_right rows columns)

/-- The stars of a full square that lie in the matrix are an assignment. -/
lemma isAssignment_filter_stars {S : Fin (max rows columns) → Fin (max rows columns) → Prop} [∀ i j, Decidable (S i j)]
    (hS : IsMatching S) (hfull : ∀ i, ∃ j, S i j) :
    IsAssignment ((cells rows columns).filter fun p => S (rowInSquare p.1) (colInSquare p.2)) := by
  have hmem : ∀ {p}, p ∈ (cells rows columns).filter (fun p => S (rowInSquare p.1) (colInSquare p.2)) ↔
      S (rowInSquare p.1) (colInSquare p.2) := by
    simp [mem_cells]
  have hnodup : ((cells rows columns).filter fun p => S (rowInSquare p.1) (colInSquare p.2)).Nodup :=
    ((List.nodup_finRange rows).product (List.nodup_finRange columns)).filter _
  have hrows := hnodup.map_on (f := Prod.fst) fun p hp q hq heq =>
    Prod.ext heq (colInSquare.injective (hS.row (hmem.mp hp) (by rw [heq]; exact hmem.mp hq)))
  have hcols := hnodup.map_on (f := Prod.snd) fun p hp q hq heq =>
    Prod.ext (rowInSquare.injective (hS.col (hmem.mp hp) (by rw [heq]; exact hmem.mp hq))) heq
  refine ⟨hrows, hcols, ?_⟩
  rw [Fintype.card_fin, Fintype.card_fin]
  rcases le_total rows columns with hle | hle
  · rw [min_eq_left hle, ← List.length_map (f := Prod.fst)]
    refine (length_of_nodup_of_all hrows fun r => ?_).trans (Fintype.card_fin rows)
    obtain ⟨c, hc⟩ := hfull (rowInSquare r)
    have hlt : c.val < columns := c.isLt.trans_eq (max_eq_right hle)
    exact List.mem_map.mpr ⟨(r, ⟨c, hlt⟩), hmem.mpr hc, rfl⟩
  · rw [min_eq_right hle, ← List.length_map (f := Prod.snd)]
    refine (length_of_nodup_of_all hcols fun c => ?_).trans (Fintype.card_fin columns)
    have hswap : IsMatching fun i j => S j i := ⟨hS.col, hS.row⟩
    obtain ⟨r, hr⟩ := hswap.rows_of_cols hfull (colInSquare c)
    have hlt : r.val < rows := r.isLt.trans_eq (max_eq_left hle)
    exact List.mem_map.mpr ⟨(⟨r, hlt⟩, c), hmem.mpr hr, rfl⟩

variable {α : Type} [CommRing α] [LinearOrder α] (m : Fin rows → Fin columns → α)

lemma padded_inSquare (r : Fin rows) (c : Fin columns) : padded m (rowInSquare r) (colInSquare c) = m r c :=
  dif_pos ⟨r.isLt, c.isLt⟩

lemma padded_outside (i j : Fin (max rows columns)) (h : (∀ r, rowInSquare r ≠ i) ∨ ∀ c, colInSquare c ≠ j) :
    padded m i j = mmax m := by
  refine dif_neg fun hin => ?_
  rcases h with h | h
  · exact h ⟨i, hin.1⟩ rfl
  · exact h ⟨j, hin.2⟩ rfl

variable [IsStrictOrderedRing α]

/-- Stars in each row of a matrix without negative entries are a cheapest permutation. -/
lemma Munkres.Sound.sum_le {n : ℕ} {cost : Fin n → Fin n → α} {s : Munkres n α} (h : s.Sound cost)
    (hcost : ∀ r c, 0 ≤ cost r c) {σ : Equiv.Perm (Fin n)} (hσ : ∀ r, s.maskMatrix r (σ r) = .star)
    (τ : Equiv.Perm (Fin n)) : ∑ i, cost i (σ i) ≤ ∑ i, cost i (τ i) := by
  obtain ⟨u, v, huv⟩ := h.potentials
  refine sum_le_sum_of_potentials (u := u) (v := v) (fun r c => ?_) (fun r => ?_) τ
  · have hnonneg := h.nonneg hcost r c
    rw [huv] at hnonneg
    exact sub_nonneg.mp hnonneg
  · have hzero := h.zero (hσ r)
    rw [huv] at hzero
    exact sub_eq_zero.mp hzero

/-- The stars in the cells of the matrix. -/
def starPairs (s : Munkres (max rows columns) α) : List (Fin rows × Fin columns) :=
  (cells rows columns).filter fun p => s.maskMatrix (rowInSquare p.1) (colInSquare p.2) = .star

lemma total_starPairs_le {s : Munkres (max rows columns) α} (hs : s.Sound (padded m))
    (hfull : ∀ r, ∃ c, s.maskMatrix r c = .star) (hm : ∀ r c, 0 ≤ m r c) {pairs : List (Fin rows × Fin columns)}
    (hpairs : IsAssignment pairs) : total m (starPairs s) ≤ total m pairs := by
  obtain ⟨σ, hσ⟩ := hs.stars.exists_perm
  have hstar : ∀ r, s.maskMatrix r (σ r) = .star := by
    intro r
    obtain ⟨c, hc⟩ := hfull r
    rwa [hσ r c hc]
  have hle := (isAssignment_filter_stars hs.stars hfull).total_le (padded_outside m)
    (fun p hp => hσ _ _ (by simpa using (List.mem_filter.mp hp).2)) (hs.sum_le (padded_nonneg m hm) hstar) hpairs
  simp only [padded_inSquare] at hle
  exact hle

variable [Archimedean α]

lemma exists_starPairs :
    ∃ s : Munkres (max rows columns) α, s.Sound (padded m) ∧ (∀ r, ∃ c, s.maskMatrix r c = .star) ∧
      ∃ enough, ∀ fuel, enough ≤ fuel → hungarianOperSolve m fuel = some (starPairs s) := by
  obtain ⟨s, hs, hfull, enough, hsteps⟩ := Munkres.exists_steps (idle_munkresInit m) fun r c hstar => by
    cases (maskMatrix_munkresInit m r c).symm.trans hstar
  refine ⟨s, hs, hfull, enough, fun fuel hfuel => ?_⟩
  rw [hungarianOperSolve, munkresSolve, hsteps fuel hfuel]
  refine congrArg some (List.filter_congr fun p _ => ?_)
  simp

/-- `HungarianOper::Solve` comes to an end, and its pairs are an assignment. Where no cost is negative it is one of
least total cost. -/
theorem hungarianOperSolve_cheapest :
    ∃ pairs, (∃ enough, ∀ fuel, enough ≤ fuel → hungarianOperSolve m fuel = some pairs) ∧ IsAssignment pairs ∧
      ((∀ r c, 0 ≤ m r c) → ∀ pairs', IsAssignment pairs' → total m pairs ≤ total m pairs') := by
  obtain ⟨s, hs, hfull, henough⟩ := exists_starPairs m
  exact ⟨starPairs s, henough, isAssignment_filter_stars hs.stars hfull,
    fun hm pairs' hpairs' => total_starPairs_le m hs hfull hm hpairs'⟩

theorem hungarianOperSolve_cheapest_twoRows :
    ∃ pairs, (∃ enough, ∀ fuel, enough ≤ fuel →
        hungarianOperSolve (α := ℤ) ![![4, 1, 3], ![2, 0, 5]] fuel = some pairs) ∧ IsAssignment pairs ∧
      ∀ pairs', IsAssignment pairs' →
        total (α := ℤ) ![![4, 1, 3], ![2, 0, 5]] pairs ≤ total (α := ℤ) ![![4, 1, 3], ![2, 0, 5]] pairs' := by
  obtain ⟨pairs, henough, hpairs, hmin⟩ := hungarianOperSolve_cheapest (α := ℤ) ![![4, 1, 3], ![2, 0, 5]]
  exact ⟨pairs, henough, hpairs, hmin (by decide)⟩

lemma exists_hungarianOperSolve : ∃ fuel, (hungarianOperSolve m fuel).isSome = true := by
  obtain ⟨s, -, -, enough, henough⟩ := exists_starPairs m
  exact ⟨enough, by rw [henough enough le_rfl]; rfl⟩

/-- The pairs of `HungarianOper::Solve`, with the fuel that its loop needs. -/
def hungarianPairs : List (Fin rows × Fin columns) :=
  (hungarianOperSolve m (Nat.find (exists_hungarianOperSolve m))).get (Nat.find_spec (exists_hungarianOperSolve m))

omit [IsStrictOrderedRing α] [Archimedean α] in
lemma hungarianOperSolve_mono {fuel fuel' : ℕ} (hle : fuel ≤ fuel') {pairs : List (Fin rows × Fin columns)}
    (h : hungarianOperSolve m fuel = some pairs) : hungarianOperSolve m fuel' = some pairs := by
  obtain ⟨r, hr, rfl⟩ := Option.map_eq_some_iff.mp h
  obtain ⟨s, hs, rfl⟩ := Option.map_eq_some_iff.mp hr
  rw [hungarianOperSolve, munkresSolve, Munkres.steps_mono hle hs]
  rfl

lemma hungarianPairs_eq {fuel : ℕ} {pairs : List (Fin rows × Fin columns)}
    (h : hungarianOperSolve m fuel = some pairs) : hungarianPairs m = pairs := by
  obtain ⟨found, hfound⟩ := Option.isSome_iff_exists.mp (Nat.find_spec (exists_hungarianOperSolve m))
  have heq : hungarianPairs m = found := by simp only [hungarianPairs, hfound, Option.get_some]
  rw [heq]
  rcases le_total fuel (Nat.find (exists_hungarianOperSolve m)) with hle | hle
  · exact Option.some.inj (hfound.symm.trans (hungarianOperSolve_mono m hle h))
  · exact Option.some.inj ((hungarianOperSolve_mono m hle hfound).symm.trans h)

lemma isAssignment_hungarianPairs : IsAssignment (hungarianPairs m) := by
  obtain ⟨s, hs, hfull, enough, henough⟩ := exists_starPairs m
  rw [hungarianPairs_eq m (henough enough le_rfl)]
  exact isAssignment_filter_stars hs.stars hfull

lemma total_hungarianPairs_le (hm : ∀ r c, 0 ≤ m r c) {pairs : List (Fin rows × Fin columns)}
    (hpairs : IsAssignment pairs) : total m (hungarianPairs m) ≤ total m pairs := by
  obtain ⟨s, hs, hfull, enough, henough⟩ := exists_starPairs m
  rw [hungarianPairs_eq m (henough enough le_rfl)]
  exact total_starPairs_le m hs hfull hm hpairs

end

example : hungarianOperSolve (α := ℤ) ![![4, 1, 3], ![2, 0, 5]] 40 = some [(0, 1), (1, 0)] := by decide +kernel

end MediaAgent
