import Mathlib.Data.List.Pairwise
import Mathlib.Tactic.TypeStar

/-!
# Greedy matching

Candidates with two ends are taken one after the other, unless an end is taken already. From candidates in the order
of falling weight this chooses a matching that is stable: whatever is left out clashes with a choice of at least its
weight.
-/

namespace GreedyMatching

variable {γ α β κ : Type*} [DecidableEq α] [DecidableEq β] (left : γ → α) (right : γ → β)

/-- The candidates have an end in common. -/
def Clash (c d : γ) : Prop := left c = left d ∨ right c = right d

instance (c d : γ) : Decidable (Clash left right c d) := inferInstanceAs (Decidable (_ ∨ _))

/-- A candidate is chosen unless it clashes with a choice. -/
def choose (chosen : List γ) (c : γ) : List γ :=
  if ∃ d ∈ chosen, Clash left right d c then chosen else chosen ++ [c]

def greedy (candidates : List γ) : List γ := candidates.foldl (choose left right) []

variable {left right}

lemma subset_choose (chosen : List γ) (c : γ) : chosen ⊆ choose left right chosen c := by
  unfold choose
  split
  · exact List.Subset.refl _
  · exact List.subset_append_left _ _

lemma mem_choose {chosen : List γ} {c d : γ} (h : d ∈ choose left right chosen c) : d ∈ chosen ∨ d = c := by
  unfold choose at h
  split at h
  · exact .inl h
  · exact (List.mem_append.mp h).imp id List.mem_singleton.mp

/-- Whether it is chosen or not, a candidate has one of its ends taken afterwards. -/
lemma exists_choice (chosen : List γ) (c : γ) :
    c ∈ choose left right chosen c ∨ ∃ d ∈ chosen, Clash left right d c := by
  by_cases h : ∃ d ∈ chosen, Clash left right d c
  · exact .inr h
  · left
    rw [choose, if_neg h]
    exact List.mem_append_right _ (List.mem_singleton.mpr rfl)

lemma pairwise_choose {chosen : List γ} (h : chosen.Pairwise fun c d => ¬Clash left right c d) (c : γ) :
    (choose left right chosen c).Pairwise fun c d => ¬Clash left right c d := by
  unfold choose
  split
  · exact h
  · rename_i hfree
    refine List.pairwise_append.mpr ⟨h, List.pairwise_singleton _ _, fun d hd c' hc' hclash => hfree ⟨d, hd, ?_⟩⟩
    rwa [← List.mem_singleton.mp hc']

lemma subset_foldl_choose (candidates chosen : List γ) : chosen ⊆ candidates.foldl (choose left right) chosen := by
  induction candidates generalizing chosen with
  | nil => exact List.Subset.refl _
  | cons c candidates ih => exact List.Subset.trans (subset_choose chosen c) (ih _)

lemma mem_foldl_choose {candidates chosen : List γ} {d : γ} (h : d ∈ candidates.foldl (choose left right) chosen) :
    d ∈ chosen ∨ d ∈ candidates := by
  induction candidates generalizing chosen with
  | nil => exact .inl h
  | cons c candidates ih =>
    rcases ih h with hd | hd
    · exact (mem_choose hd).imp id fun heq => List.mem_cons.mpr (.inl heq)
    · exact .inr (List.mem_cons_of_mem c hd)

lemma mem_of_mem_greedy {candidates : List γ} {d : γ} (h : d ∈ greedy left right candidates) : d ∈ candidates :=
  (mem_foldl_choose h).resolve_left List.not_mem_nil

/-- No two choices have an end in common. -/
theorem pairwise_greedy (candidates : List γ) :
    (greedy left right candidates).Pairwise fun c d => ¬Clash left right c d := by
  have hfold : ∀ chosen : List γ, chosen.Pairwise (fun c d => ¬Clash left right c d) →
      (candidates.foldl (choose left right) chosen).Pairwise fun c d => ¬Clash left right c d := by
    induction candidates with
    | nil => exact fun _ h => h
    | cons c candidates ih => exact fun chosen h => ih _ (pairwise_choose h c)
  exact hfold [] List.Pairwise.nil

/-- The pass after some choices, none of which weighs less than a candidate that is still to come. -/
lemma stable_foldl [LE κ] {weight : γ → κ} {candidates chosen : List γ}
    (hsorted : candidates.Pairwise fun c d => weight d ≤ weight c)
    (hchosen : ∀ d ∈ chosen, ∀ c ∈ candidates, weight c ≤ weight d) :
    ∀ c ∈ candidates, c ∈ candidates.foldl (choose left right) chosen ∨
      ∃ d ∈ candidates.foldl (choose left right) chosen, Clash left right d c ∧ weight c ≤ weight d := by
  induction candidates generalizing chosen with
  | nil => simp
  | cons first candidates ih =>
    obtain ⟨hfirst, hrest⟩ := List.pairwise_cons.mp hsorted
    have hkept : choose left right chosen first ⊆ candidates.foldl (choose left right) (choose left right chosen first) :=
      subset_foldl_choose candidates _
    intro c hc
    rcases List.mem_cons.mp hc with rfl | hc
    · have hchoice : c ∈ choose left right chosen c ∨ ∃ d ∈ chosen, Clash left right d c := exists_choice chosen c
      rcases hchoice with hmem | ⟨d, hd, hclash⟩
      · exact .inl (hkept hmem)
      · exact .inr ⟨d, hkept (subset_choose chosen c hd), hclash, hchosen d hd c List.mem_cons_self⟩
    · refine ih hrest (fun d hd c' hc' => ?_) c hc
      rcases mem_choose hd with hd | rfl
      · exact hchosen d hd c' (List.mem_cons_of_mem _ hc')
      · exact hfirst c' hc'

/-- A candidate that is not chosen clashes with a choice of at least its weight. -/
theorem stable_greedy [LE κ] {weight : γ → κ} {candidates : List γ}
    (hsorted : candidates.Pairwise fun c d => weight d ≤ weight c) {c : γ} (hc : c ∈ candidates)
    (hnot : c ∉ greedy left right candidates) :
    ∃ d ∈ greedy left right candidates, Clash left right d c ∧ weight c ≤ weight d :=
  (stable_foldl hsorted (fun _ hd => absurd hd List.not_mem_nil) c hc).resolve_left hnot

end GreedyMatching
