import Mathlib.Algebra.Order.Ring.Int
import Mathlib.Tactic.Common

/-!
# Lookups in ordered maps

`std::map` and `std::unordered_map` are both modelled by `Std.TreeMap`. These are the
lookup rules in the form with a decidable key equality, together with the traversal order
of an unordered map, which its users must not depend on.
-/

namespace TreeMaps

open Std

variable {κ ν : Type*} [Ord κ] [TransOrd κ] [LawfulEqOrd κ] [DecidableEq κ]

lemma lookup_insert (m : TreeMap κ ν) (k a : κ) (v : ν) :
    (m.insert k v)[a]? = if k = a then some v else m[a]? := by
  simp [TreeMap.getElem?_insert]

lemma lookup_erase (m : TreeMap κ ν) (k a : κ) :
    (m.erase k)[a]? = if k = a then none else m[a]? := by
  simp [TreeMap.getElem?_erase]

omit [DecidableEq κ] in
lemma any_toList_iff (m : TreeMap κ ν) (p : κ × ν → Bool) :
    m.toList.any p = true ↔ ∃ k v, m[k]? = some v ∧ p (k, v) = true := by
  simp [List.any_eq_true, TreeMap.mem_toList_iff_getElem?_eq_some]

/-- A map that is filled from a list without repeated keys has its entries. -/
lemma lookup_ofList {l : List (κ × ν)} (distinct : l.Pairwise fun a b => ¬compare a.1 b.1 = .eq) (k : κ) (v : ν) :
    (TreeMap.ofList l)[k]? = some v ↔ (k, v) ∈ l := by
  have hmem : ∀ w, (k, w) ∈ l → (TreeMap.ofList l)[k]? = some w :=
    fun w hw => TreeMap.getElem?_ofList_of_mem ReflCmp.compare_self distinct hw
  refine ⟨fun h => ?_, hmem v⟩
  by_cases hkey : k ∈ l.map Prod.fst
  · obtain ⟨⟨k', w⟩, hw, rfl⟩ := List.mem_map.mp hkey
    rw [hmem w hw] at h
    rwa [← Option.some.inj h]
  · rw [TreeMap.getElem?_ofList_of_contains_eq_false (by simpa using hkey)] at h
    cases h

/-- The order in which the entries of an unordered map are visited. -/
structure Traversal (α : Type*) where
  order : List α → List α
  perm : ∀ l, (order l).Perm l

/-- The traversal in key order. -/
def Traversal.sorted (α : Type*) : Traversal α := ⟨id, fun _ => .refl _⟩

end TreeMaps
