import Mathlib.Algebra.BigOperators.Fin
import Mathlib.Algebra.Order.BigOperators.Group.Finset
import Mathlib.Logic.Equiv.Fintype
import Mathlib.Tactic.Abel
import Mathlib.Tactic.Push

/-!
# Assignments of rows to columns

A set of cells is a matching when no two of them are in one row or in one column. A matching grows along an alternating
set of cells; a matching that uses the cells where a cost meets its potentials is the cheapest one.
-/

namespace Assignment

/-- Each row and each column has at most one cell of `S`. -/
structure IsMatching {ι κ : Type*} (S : ι → κ → Prop) : Prop where
  row : ∀ {i j j'}, S i j → S i j' → j = j'
  col : ∀ {i i' j}, S i j → S i' j → i = i'

/-- Taking `T` out of `S` makes room for `Z`: what `S` has in a row or a column of `Z` is in `T`, and each row of `T`
gets a cell of `Z`. -/
structure Alternates {ι κ : Type*} (S T Z : ι → κ → Prop) : Prop where
  row : ∀ {i j j'}, Z i j → Z i j' → j = j'
  col : ∀ {i i' j}, Z i j → Z i' j → i = i'
  star_row : ∀ {i j j'}, Z i j → S i j' → T i j'
  star_col : ∀ {i i' j}, Z i j → S i' j → T i' j
  restored : ∀ {i j}, T i j → ∃ j', Z i j'

/-- The cells of `S` that are not in `T`, and those of `Z`. -/
def exchange {ι κ : Type*} (S T Z : ι → κ → Prop) (i : ι) (j : κ) : Prop := S i j ∧ ¬T i j ∨ Z i j

section
variable {ι κ : Type*} {S T Z : ι → κ → Prop}

lemma IsMatching.exchange (hS : IsMatching S) (h : Alternates S T Z) : IsMatching (exchange S T Z) where
  row := by
    rintro i j j' (⟨hj, hT⟩ | hj) (⟨hj', hT'⟩ | hj')
    · exact hS.row hj hj'
    · exact absurd (h.star_row hj' hj) hT
    · exact absurd (h.star_row hj hj') hT'
    · exact h.row hj hj'
  col := by
    rintro i i' j (⟨hi, hT⟩ | hi) (⟨hi', hT'⟩ | hi')
    · exact hS.col hi hi'
    · exact absurd (h.star_col hi' hi) hT
    · exact absurd (h.star_col hi hi') hT'
    · exact h.col hi hi'

/-- A row that has a cell keeps one. -/
lemma exists_exchange_of_row (h : Alternates S T Z) {i : ι} (hi : ∃ j, S i j) : ∃ j, exchange S T Z i j := by
  obtain ⟨j, hj⟩ := hi
  by_cases hT : T i j
  · obtain ⟨j', hj'⟩ := h.restored hT
    exact ⟨j', .inr hj'⟩
  · exact ⟨j, .inl ⟨hj, hT⟩⟩

end

/-- The rows in which `S` has a cell. -/
def usedRows {ι κ : Type*} [Fintype ι] [Fintype κ] (S : ι → κ → Prop) [∀ i j, Decidable (S i j)] : Finset ι :=
  Finset.univ.filter fun i => ∃ j, S i j

section
variable {ι κ : Type*} [Fintype ι] [Fintype κ] {S T Z N : ι → κ → Prop} [∀ i j, Decidable (S i j)]
  [∀ i j, Decidable (N i j)]

@[simp] lemma mem_usedRows {i : ι} : i ∈ usedRows S ↔ ∃ j, S i j := by simp [usedRows]

/-- An alternating set that starts in a free row leaves more rows used. -/
lemma card_usedRows_lt (h : Alternates S T Z) (hN : ∀ i j, N i j ↔ exchange S T Z i j) {i : ι} {j : κ} (hij : Z i j)
    (hfree : ∀ j', ¬S i j') : (usedRows S).card < (usedRows N).card := by
  refine Finset.card_lt_card (Finset.ssubset_iff_of_subset ?_ |>.mpr ⟨i, ?_, ?_⟩)
  · intro k hk
    rw [mem_usedRows] at hk ⊢
    obtain ⟨j', hj'⟩ := exists_exchange_of_row h hk
    exact ⟨j', (hN k j').mpr hj'⟩
  · exact mem_usedRows.mpr ⟨j, (hN i j).mpr (.inr hij)⟩
  · rw [mem_usedRows]
    rintro ⟨j', hj'⟩
    exact hfree j' hj'

/-- A matching has as many cells as rows that it uses. -/
lemma IsMatching.card_eq (hS : IsMatching S) :
    (Finset.univ.filter fun p : ι × κ => S p.1 p.2).card = (usedRows S).card := by
  refine Finset.card_bij (fun p _ => p.1) ?_ ?_ ?_
  · intro p hp
    exact mem_usedRows.mpr ⟨p.2, (Finset.mem_filter.mp hp).2⟩
  · intro p hp q hq heq
    have hq' := (Finset.mem_filter.mp hq).2
    exact Prod.ext heq (hS.row (Finset.mem_filter.mp hp).2 (by rwa [← heq] at hq'))
  · intro i hi
    obtain ⟨j, hj⟩ := mem_usedRows.mp hi
    exact ⟨(i, j), Finset.mem_filter.mpr ⟨Finset.mem_univ _, hj⟩, rfl⟩

lemma card_le_usedRows_iff : Fintype.card ι ≤ (usedRows S).card ↔ ∀ i, ∃ j, S i j := by
  constructor
  · intro hle i
    exact mem_usedRows.mp (Finset.eq_univ_of_card _ (le_antisymm (Finset.card_le_univ _) hle) ▸ Finset.mem_univ i)
  · intro hall
    rw [Finset.eq_univ_iff_forall.mpr fun i => mem_usedRows.mpr (hall i), Finset.card_univ]

end

/-- In a square, a matching that uses each column uses each row. -/
lemma IsMatching.rows_of_cols {ι : Type*} [Finite ι] {S : ι → ι → Prop} (hS : IsMatching S) (hcols : ∀ j, ∃ i, S i j)
    (i : ι) : ∃ j, S i j := by
  choose f hf using hcols
  have hinj : Function.Injective f := fun j j' heq => hS.row (hf j) (by rw [heq]; exact hf j')
  obtain ⟨j, rfl⟩ := Finite.injective_iff_surjective.mp hinj i
  exact ⟨j, hf j⟩

/-- A matching of a square is part of a permutation. -/
theorem IsMatching.exists_perm {ι : Type*} [Finite ι] {S : ι → ι → Prop} (hS : IsMatching S) :
    ∃ σ : Equiv.Perm ι, ∀ i j, S i j → σ i = j := by
  classical
  have hex : ∀ i : {i // ∃ j, S i j}, ∃ j, S i.1 j := fun i => i.2
  choose f hf using hex
  have hbij : Function.Bijective fun i : {i // ∃ j, S i j} => (⟨f i, i.1, hf i⟩ : {j // ∃ i, S i j}) := by
    constructor
    · intro i i' h
      have hff : f i = f i' := congrArg Subtype.val h
      have hi := hf i
      rw [hff] at hi
      exact Subtype.ext (hS.col hi (hf i'))
    · rintro ⟨j, i, hij⟩
      exact ⟨⟨i, j, hij⟩, Subtype.ext (hS.row (hf ⟨i, j, hij⟩) hij)⟩
  refine ⟨(Equiv.ofBijective _ hbij).extendSubtype, fun i j hij => ?_⟩
  rw [Equiv.extendSubtype_apply_of_mem _ i ⟨j, hij⟩]
  exact hS.row (hf ⟨i, j, hij⟩) hij

/-- A permutation that uses only cells where the cost meets its potentials is the cheapest one. -/
theorem sum_le_sum_of_potentials {ι α : Type*} [Fintype ι] [AddCommGroup α] [LinearOrder α] [IsOrderedAddMonoid α]
    {cost : ι → ι → α} {u v : ι → α} (hpotential : ∀ i j, u i + v j ≤ cost i j) {σ : Equiv.Perm ι}
    (hσ : ∀ i, cost i (σ i) = u i + v (σ i)) (τ : Equiv.Perm ι) : ∑ i, cost i (σ i) ≤ ∑ i, cost i (τ i) :=
  calc ∑ i, cost i (σ i) = ∑ i, (u i + v (σ i)) := Finset.sum_congr rfl fun i _ => hσ i
    _ = ∑ i, u i + ∑ i, v i := by rw [Finset.sum_add_distrib, Equiv.sum_comp σ v]
    _ = ∑ i, (u i + v (τ i)) := by rw [Finset.sum_add_distrib, Equiv.sum_comp τ v]
    _ ≤ ∑ i, cost i (τ i) := Finset.sum_le_sum fun i _ => hpotential i (τ i)

/-! ## Rectangles -/

lemma length_of_nodup_of_all {ι : Type*} [Fintype ι] {l : List ι} (hl : l.Nodup) (hall : ∀ i, i ∈ l) :
    l.length = Fintype.card ι := by
  classical
  rw [← List.toFinset_card_of_nodup hl, Finset.card_eq_iff_eq_univ]
  exact Finset.eq_univ_iff_forall.mpr fun i => List.mem_toFinset.mpr (hall i)

/-- A matching as the list of its cells, as long as the shorter side allows. -/
structure IsAssignment {ρ κ : Type*} [Fintype ρ] [Fintype κ] (pairs : List (ρ × κ)) : Prop where
  rows : (pairs.map Prod.fst).Nodup
  cols : (pairs.map Prod.snd).Nodup
  length : pairs.length = min (Fintype.card ρ) (Fintype.card κ)

/-- The cost of the cells of a list. -/
def total {ρ κ α : Type*} [AddCommMonoid α] (cost : ρ → κ → α) (pairs : List (ρ × κ)) : α :=
  (pairs.map fun p => cost p.1 p.2).sum

section
variable {ρ κ ι : Type*} [Fintype ρ] [Fintype κ] {pairs : List (ρ × κ)}

lemma IsAssignment.isMatching (h : IsAssignment pairs) : IsMatching fun i j => (i, j) ∈ pairs where
  row hj hj' := (Prod.mk.inj (List.inj_on_of_nodup_map h.rows hj hj' rfl)).2
  col hi hi' := (Prod.mk.inj (List.inj_on_of_nodup_map h.cols hi hi' rfl)).1

/-- No cell can be added. -/
lemma IsAssignment.maximal (h : IsAssignment pairs) {i : ρ} {j : κ} (hi : i ∉ pairs.map Prod.fst)
    (hj : j ∉ pairs.map Prod.snd) : False := by
  have hrows := (List.nodup_cons.mpr ⟨hi, h.rows⟩).length_le_card
  have hcols := (List.nodup_cons.mpr ⟨hj, h.cols⟩).length_le_card
  have hlength := h.length
  simp only [List.length_cons, List.length_map] at hrows hcols
  omega

variable {α : Type*} [AddCommGroup α] [Fintype ι] {cost : ι → ι → α} {pad : α} {a : ρ ↪ ι} {b : κ ↪ ι}

/-- A permutation of the padded square costs what its cells in the rectangle cost, and the padding of the others. -/
lemma IsAssignment.sum_eq (h : IsAssignment pairs)
    (hpad : ∀ i j, (∀ r, a r ≠ i) ∨ (∀ k, b k ≠ j) → cost i j = pad) {σ : Equiv.Perm ι}
    (hσ : ∀ p ∈ pairs, σ (a p.1) = b p.2) :
    ∑ i, cost i (σ i) = total (fun r k => cost (a r) (b k)) pairs + (Fintype.card ι - pairs.length) • pad := by
  classical
  let used : Finset ι := (pairs.map fun p => a p.1).toFinset
  have hnodup : (pairs.map fun p => a p.1).Nodup := by
    have := h.rows.map a.injective
    rwa [List.map_map] at this
  have hcard : used.card = pairs.length := by
    rw [List.toFinset_card_of_nodup hnodup, List.length_map]
  have hused : ∑ i ∈ used, cost i (σ i) = total (fun r k => cost (a r) (b k)) pairs := by
    rw [List.sum_toFinset _ hnodup, total, List.map_map]
    refine congrArg List.sum (List.map_congr_left fun p hp => ?_)
    rw [Function.comp_apply, hσ p hp]
  have hrest : ∀ i ∈ usedᶜ, cost i (σ i) = pad := by
    intro i hi
    refine hpad i (σ i) ?_
    by_contra hreal
    push Not at hreal
    obtain ⟨⟨r, rfl⟩, k, hk⟩ := hreal
    refine h.maximal (i := r) (j := k) (fun hr => ?_) fun hk' => ?_
    · obtain ⟨p, hp, rfl⟩ := List.mem_map.mp hr
      exact Finset.mem_compl.mp hi (List.mem_toFinset.mpr (List.mem_map.mpr ⟨p, hp, rfl⟩))
    · obtain ⟨p, hp, rfl⟩ := List.mem_map.mp hk'
      have hrow : a p.1 = a r := σ.injective ((hσ p hp).trans hk)
      exact Finset.mem_compl.mp hi (List.mem_toFinset.mpr (List.mem_map.mpr ⟨p, hp, hrow⟩))
  rw [← Finset.sum_add_sum_compl used, hused, Finset.sum_congr rfl hrest, Finset.sum_const, Finset.card_compl, hcard]

/-- The assignment inside a cheapest permutation of the padded square is a cheapest assignment of the rectangle. -/
theorem IsAssignment.total_le [LinearOrder α] [IsOrderedAddMonoid α] (h : IsAssignment pairs)
    (hpad : ∀ i j, (∀ r, a r ≠ i) ∨ (∀ k, b k ≠ j) → cost i j = pad) {σ : Equiv.Perm ι}
    (hσ : ∀ p ∈ pairs, σ (a p.1) = b p.2) (hmin : ∀ τ : Equiv.Perm ι, ∑ i, cost i (σ i) ≤ ∑ i, cost i (τ i))
    {pairs' : List (ρ × κ)} (h' : IsAssignment pairs') :
    total (fun r k => cost (a r) (b k)) pairs ≤ total (fun r k => cost (a r) (b k)) pairs' := by
  have hmatching : IsMatching fun i j => ∃ p ∈ pairs', a p.1 = i ∧ b p.2 = j := by
    constructor
    · rintro i j j' ⟨p, hp, rfl, rfl⟩ ⟨p', hp', hrow, rfl⟩
      exact congrArg b (h'.isMatching.row hp (by rwa [← a.injective hrow]))
    · rintro i i' j ⟨p, hp, rfl, rfl⟩ ⟨p', hp', rfl, hcol⟩
      exact congrArg a (h'.isMatching.col hp (by rwa [← b.injective hcol]))
  obtain ⟨τ, hτ⟩ := hmatching.exists_perm
  have hle := hmin τ
  rw [h.sum_eq hpad hσ, h'.sum_eq hpad fun p hp => hτ _ _ ⟨p, hp, rfl, rfl⟩, h.length, h'.length] at hle
  exact le_of_add_le_add_right hle

end

/-- A list of cells that is a matching is part of an assignment. -/
theorem exists_isAssignment_append {ρ κ : Type*} [Fintype ρ] [Fintype κ] {pairs : List (ρ × κ)}
    (hrows : (pairs.map Prod.fst).Nodup) (hcols : (pairs.map Prod.snd).Nodup) :
    ∃ rest, IsAssignment (rest ++ pairs) := by
  classical
  induction hk : min (Fintype.card ρ) (Fintype.card κ) - pairs.length generalizing pairs with
  | zero =>
    have hle := hrows.length_le_card
    have hle' := hcols.length_le_card
    rw [List.length_map] at hle hle'
    exact ⟨[], hrows, hcols, by rw [List.nil_append]; omega⟩
  | succ k ih =>
    have hrow : ∃ i, i ∉ pairs.map Prod.fst := by
      by_contra hall
      push Not at hall
      have := length_of_nodup_of_all hrows hall
      rw [List.length_map] at this
      omega
    have hcol : ∃ j, j ∉ pairs.map Prod.snd := by
      by_contra hall
      push Not at hall
      have := length_of_nodup_of_all hcols hall
      rw [List.length_map] at this
      omega
    obtain ⟨i, hi⟩ := hrow
    obtain ⟨j, hj⟩ := hcol
    have hrows' : (((i, j) :: pairs).map Prod.fst).Nodup := List.nodup_cons.mpr ⟨hi, hrows⟩
    have hcols' : (((i, j) :: pairs).map Prod.snd).Nodup := List.nodup_cons.mpr ⟨hj, hcols⟩
    obtain ⟨rest, hrest⟩ := ih hrows' hcols' (by rw [List.length_cons]; omega)
    exact ⟨rest ++ [(i, j)], by rwa [List.append_assoc]⟩

/-! ## What a matching gains below a limit -/

section
variable {ρ κ α : Type*} [AddCommGroup α] {cost : ρ → κ → α} {limit : α}

lemma total_append (pairs pairs' : List (ρ × κ)) :
    total cost (pairs ++ pairs') = total cost pairs + total cost pairs' := by
  simp [total]

lemma total_limit_sub (pairs : List (ρ × κ)) :
    total (fun i j => limit - cost i j) pairs = pairs.length • limit - total cost pairs := by
  induction pairs with
  | nil => simp [total]
  | cons p pairs ih =>
    simp only [total, List.map_cons, List.sum_cons, List.length_cons, succ_nsmul] at ih ⊢
    rw [ih]
    abel

lemma total_filter_of_zero (pairs : List (ρ × κ)) (g : ρ × κ → Bool) (hg : ∀ p ∈ pairs, g p = false → cost p.1 p.2 = 0) :
    total cost (pairs.filter g) = total cost pairs := by
  induction pairs with
  | nil => rfl
  | cons p pairs ih =>
    have hrest := ih fun q hq => hg q (List.mem_cons_of_mem _ hq)
    cases hp : g p with
    | true =>
      simp only [List.filter_cons_of_pos hp, total, List.map_cons, List.sum_cons] at hrest ⊢
      rw [hrest]
    | false =>
      have hzero := hg p List.mem_cons_self hp
      rw [List.filter_cons_of_neg (by simp [hp]), hrest, total, total, List.map_cons, List.sum_cons, hzero, zero_add]

variable [LinearOrder α] [IsOrderedAddMonoid α]

lemma total_nonneg (h : ∀ i j, 0 ≤ cost i j) (pairs : List (ρ × κ)) : 0 ≤ total cost pairs := by
  refine List.sum_nonneg fun x hx => ?_
  obtain ⟨p, -, rfl⟩ := List.mem_map.mp hx
  exact h p.1 p.2

/-- An assignment of least cost gains most below a limit on the costs, among all matchings. -/
theorem IsAssignment.gain_le [Fintype ρ] [Fintype κ] {pairs : List (ρ × κ)} (h : IsAssignment pairs)
    (hmin : ∀ pairs', IsAssignment pairs' → total cost pairs ≤ total cost pairs') (hlimit : ∀ i j, cost i j ≤ limit)
    {other : List (ρ × κ)} (hrows : (other.map Prod.fst).Nodup) (hcols : (other.map Prod.snd).Nodup) :
    total (fun i j => limit - cost i j) other ≤ total (fun i j => limit - cost i j) pairs := by
  obtain ⟨rest, hrest⟩ := exists_isAssignment_append hrows hcols
  have hgain : 0 ≤ total (fun i j => limit - cost i j) rest := total_nonneg (fun i j => sub_nonneg.mpr (hlimit i j)) rest
  calc total (fun i j => limit - cost i j) other ≤ total (fun i j => limit - cost i j) (rest ++ other) := by
        rw [total_append]
        exact le_add_of_nonneg_left hgain
    _ = (rest ++ other).length • limit - total cost (rest ++ other) := total_limit_sub _
    _ ≤ pairs.length • limit - total cost pairs := by
        rw [hrest.length, h.length]
        exact sub_le_sub_left (hmin _ hrest) _
    _ = total (fun i j => limit - cost i j) pairs := (total_limit_sub _).symm

end

/-- Some of the items, the places that no item has, and the other items make up all places. -/
lemma split_perm {γ ρ : Type*} [DecidableEq ρ] {f : γ → ρ} {items : List γ} (h : (items.map f).Nodup) {all : List ρ}
    (hall : all.Nodup) (hmem : ∀ i, i ∈ all) (g : γ → Bool) :
    ((items.filter fun x => !g x).map f ++ (all.filter (fun i => i ∉ items.map f) ++ (items.filter g).map f)).Perm all := by
  have hitems : ((items.filter fun x => !g x).map f ++ (items.filter g).map f).Perm (items.map f) := by
    rw [← List.map_append]
    exact (List.perm_append_comm.trans (List.filter_append_perm g items)).map f
  have hfree : (items.map f ++ all.filter fun i => i ∉ items.map f).Perm all := by
    refine (List.perm_ext_iff_of_nodup ?_ hall).mpr fun i => ?_
    · refine List.nodup_append.mpr ⟨h, hall.filter _, ?_⟩
      rintro i hi _ hj rfl
      exact of_decide_eq_true (List.mem_filter.mp hj).2 hi
    · simp only [List.mem_append, List.mem_filter, hmem, true_and, decide_eq_true_eq, iff_true]
      exact em _
  exact ((List.Perm.append_left _ List.perm_append_comm).trans (by
    rw [← List.append_assoc]
    exact hitems.append_right _)).trans hfree

end Assignment
