import Mathlib.Algebra.Order.Ring.Int
import Mathlib.Data.List.Induction
import Mathlib.Tactic.Common
import MediaAgent.Library.TreeMaps

/-!
# Last content at the first place

A list whose items may carry a key is merged to one item for each key, which stands where the key
first occurs and holds what came last under it; items without a key are kept as they are. A vector
with a map from the keys to its positions computes the merge one item at a time.
-/

namespace LastWins
open Std TreeMaps

variable {α κ : Type*} (key : α → Option κ)

/-- No item of the list has the key of `a`, or `a` has no key. -/
def Fresh (items : List α) (a : α) : Prop := key a = none ∨ ∀ b ∈ items, key b ≠ key a

lemma fresh_iff {items : List α} {a : α} {k : κ} (ha : key a = some k) :
    Fresh key items a ↔ k ∉ items.filterMap key := by
  simp [Fresh, ha]

section Merge

variable [DecidableEq κ]

instance (items : List α) (a : α) : Decidable (Fresh key items a) :=
  inferInstanceAs (Decidable (_ ∨ _))

/-- The items that stand at the first place of their key, and the items without a key. -/
def firsts (items : List α) : List α :=
  (items.zipIdx.filter fun e => decide (Fresh key (items.take e.2) e.1)).map Prod.fst

/-- The last item with the key of `a`. -/
def latest (items : List α) (a : α) : α :=
  if key a = none then a else (items.reverse.find? fun b => decide (key b = key a)).getD a

/-- One item for each key, at its first place and with its last content. -/
def lastWins (items : List α) : List α := (firsts key items).map (latest key items)

lemma firsts_append_singleton (items : List α) (a : α) :
    firsts key (items ++ [a]) = firsts key items ++ if Fresh key items a then [a] else [] := by
  have hold : ∀ e ∈ items.zipIdx, decide (Fresh key ((items ++ [a]).take e.2) e.1) =
      decide (Fresh key (items.take e.2) e.1) := by
    intro e he
    have hlt : e.2 < items.length := by simpa using (List.mem_zipIdx he).2.1
    rw [List.take_append_of_le_length (Nat.le_of_lt hlt)]
  have hnew : (items ++ [a]).take items.length = items := by simp
  unfold firsts
  rw [List.zipIdx_append, List.filter_append, List.map_append, List.filter_congr hold]
  congr 1
  simp only [List.zipIdx_singleton, Nat.zero_add, List.filter_cons, List.filter_nil, hnew]
  by_cases hf : Fresh key items a <;> simp [hf]

lemma latest_append_singleton (items : List α) (a b : α) :
    latest key (items ++ [a]) b =
      if key b ≠ none ∧ key a = key b then a else latest key items b := by
  unfold latest
  by_cases hb : key b = none
  · simp [hb]
  · by_cases ha : key a = key b <;> simp [hb, ha]

lemma key_latest (items : List α) (a : α) : key (latest key items a) = key a := by
  unfold latest
  split
  · rfl
  · cases h : items.reverse.find? (fun b => decide (key b = key a)) with
    | none => rfl
    | some b => simpa using List.find?_some h

/-- The keys stay where they first occur. -/
lemma map_key_lastWins (items : List α) : (lastWins key items).map key = (firsts key items).map key := by
  simp only [lastWins, List.map_map]
  congr 1
  funext a
  exact key_latest key items a

@[simp] lemma lastWins_nil : lastWins key ([] : List α) = [] := rfl

lemma mem_of_mem_firsts {items : List α} {a : α} (h : a ∈ firsts key items) : a ∈ items := by
  obtain ⟨e, he, rfl⟩ := List.mem_map.mp h
  obtain ⟨-, -, hitem⟩ := List.mem_zipIdx (List.mem_filter.mp he |>.1)
  rw [hitem]
  exact List.getElem_mem _

/-- An item with a new key, or without one, is appended. -/
lemma lastWins_append_fresh {items : List α} {a : α} (h : Fresh key items a) :
    lastWins key (items ++ [a]) = lastWins key items ++ [a] := by
  have hold : ∀ b ∈ firsts key items, latest key (items ++ [a]) b = latest key items b := by
    intro b hb
    rw [latest_append_singleton, if_neg]
    rintro ⟨hb0, hab⟩
    rcases h with ha | ha
    · exact hb0 (hab ▸ ha)
    · exact ha b (mem_of_mem_firsts key hb) hab.symm
  have hnew : latest key (items ++ [a]) a = a := by
    rw [latest_append_singleton]
    split
    · rfl
    · rename_i ha
      simp only [ne_eq, and_true, not_not] at ha
      simp [latest, ha]
  simp only [lastWins, firsts_append_singleton, if_pos h, List.map_append, List.map_congr_left hold,
    List.map_cons, List.map_nil, hnew]

/-- What a later item with the key of `b` does to `b`. -/
def replaceBy (a b : α) : α := if key b = key a then a else b

/-- An item whose key has occurred replaces the content under it. -/
lemma lastWins_append_seen {items : List α} {a : α} (h : ¬Fresh key items a) :
    lastWins key (items ++ [a]) = (lastWins key items).map (replaceBy key a) := by
  have hkey : key a ≠ none := fun ha => h (.inl ha)
  simp only [lastWins, firsts_append_singleton, if_neg h, List.append_nil, List.map_map]
  congr 1
  funext b
  simp only [latest_append_singleton, Function.comp_apply, replaceBy, key_latest]
  by_cases hab : key b = key a
  · simp [hab, hkey]
  · simp [hab, Ne.symm hab]

lemma key_replaceBy (a b : α) : key (replaceBy key a b) = key b := by
  unfold replaceBy
  split
  · exact Eq.symm ‹_›
  · rfl

lemma filterMap_replaceBy (a : α) (items : List α) :
    (items.map (replaceBy key a)).filterMap key = items.filterMap key := by
  rw [List.filterMap_map]
  congr 1
  funext b
  exact key_replaceBy key a b

/-- The merge has the keys of the list. -/
theorem mem_keys_lastWins (items : List α) (k : κ) :
    k ∈ (lastWins key items).filterMap key ↔ k ∈ items.filterMap key := by
  induction items using List.reverseRecOn with
  | nil => rfl
  | append_singleton items a ih =>
    by_cases h : Fresh key items a
    · rw [lastWins_append_fresh key h, List.filterMap_append, List.filterMap_append, List.mem_append,
        List.mem_append, ih]
    · rw [lastWins_append_seen key h, filterMap_replaceBy, ih, List.filterMap_append, List.mem_append]
      refine ⟨.inl, fun hk => hk.elim id fun hk => ?_⟩
      simp only [Fresh, not_or, not_forall, not_not] at h
      obtain ⟨-, b, hb, hba⟩ := h
      have hak : key a = some k := by simpa using hk
      exact List.mem_filterMap.mpr ⟨b, hb, hba.trans hak⟩

/-- No key occurs twice. -/
theorem nodup_keys_lastWins (items : List α) : ((lastWins key items).filterMap key).Nodup := by
  induction items using List.reverseRecOn with
  | nil => exact .nil
  | append_singleton items a ih =>
    by_cases h : Fresh key items a
    · rw [lastWins_append_fresh key h, List.filterMap_append]
      cases ha : key a with
      | none => simpa [ha] using ih
      | some k =>
        rw [fresh_iff key ha, ← mem_keys_lastWins] at h
        simp only [List.filterMap_cons, List.filterMap_nil, ha]
        refine List.nodup_append.mpr ⟨ih, List.pairwise_singleton _ _, fun j hj i hi he => ?_⟩
        rw [List.mem_singleton.mp hi] at he
        exact h (he ▸ hj)
    · rw [lastWins_append_seen key h, filterMap_replaceBy]
      exact ih

/-- Every item without a key is kept. -/
theorem unkeyed_lastWins (items : List α) :
    (lastWins key items).filter (fun a => decide (key a = none)) =
      items.filter fun a => decide (key a = none) := by
  induction items using List.reverseRecOn with
  | nil => rfl
  | append_singleton items a ih =>
    by_cases h : Fresh key items a
    · rw [lastWins_append_fresh key h, List.filter_append, List.filter_append, ih]
    · have ha : key a ≠ none := fun ha => h (.inl ha)
      have hkeep : ∀ b ∈ (lastWins key items).filter (fun b => decide (key b = none)),
          replaceBy key a b = b := by
        intro b hb
        have hnone : key b = none := by simpa using (List.mem_filter.mp hb).2
        rw [replaceBy, hnone, if_neg (Ne.symm ha)]
      have hpred : (fun b => decide (key b = none)) ∘ replaceBy key a = fun b => decide (key b = none) := by
        funext b
        simp [key_replaceBy]
      rw [lastWins_append_seen key h, List.filter_map, hpred, List.map_congr_left hkeep, List.map_id',
        ih, List.filter_append]
      simp [ha]

/-- What stands under a key came last under it. -/
theorem content_lastWins {items : List α} {a : α} {k : κ} (ha : a ∈ lastWins key items)
    (hk : key a = some k) : items.reverse.find? (fun b => decide (key b = some k)) = some a := by
  obtain ⟨b, hb, rfl⟩ := List.mem_map.mp ha
  rw [key_latest key] at hk
  have hlast : (items.reverse.find? fun c => decide (key c = some k)).isSome = true := by
    rw [List.find?_isSome]
    exact ⟨b, List.mem_reverse.mpr (mem_of_mem_firsts key hb), by simpa using hk⟩
  obtain ⟨c, hc⟩ := Option.isSome_iff_exists.mp hlast
  simp [latest, hk, hc]

end Merge

/-! ## The vector and its index map -/

/-- The map gives the position of every key. -/
def Indexed [Ord κ] (items : List α) (index : TreeMap κ Nat) : Prop :=
  ∀ (k : κ) (i : Nat), index[k]? = some i ↔ ∃ a, items[i]? = some a ∧ key a = some k

section Indexed

variable [Ord κ] {items : List α} {index : TreeMap κ Nat} {a : α} {k : κ}

lemma Indexed.nil [TransOrd κ] : Indexed key [] (∅ : TreeMap κ Nat) := by
  intro k i
  simp

lemma Indexed.mem_keys (h : Indexed key items index) :
    k ∈ items.filterMap key ↔ ∃ i : Nat, index[k]? = some i := by
  rw [List.mem_filterMap]
  constructor
  · rintro ⟨a, hmem, ha⟩
    obtain ⟨i, hi⟩ := List.mem_iff_getElem?.mp hmem
    exact ⟨i, (h k i).mpr ⟨a, hi, ha⟩⟩
  · rintro ⟨i, hi⟩
    obtain ⟨a, ha, hk⟩ := (h k i).mp hi
    exact ⟨a, List.mem_of_getElem? ha, hk⟩

omit [Ord κ] in
/-- An appended item is found under no other key. -/
lemma exists_getElem?_append_iff {j : κ} {i : Nat} (hne : key a ≠ some j) :
    (∃ b, (items ++ [a])[i]? = some b ∧ key b = some j) ↔ ∃ b, items[i]? = some b ∧ key b = some j := by
  constructor
  · rintro ⟨b, hb, hj⟩
    rw [List.getElem?_append] at hb
    split at hb
    · exact ⟨b, hb, hj⟩
    · have hba : b = a := List.mem_singleton.mp (List.mem_of_getElem? hb)
      exact absurd (hba ▸ hj) hne
  · rintro ⟨b, hb, hj⟩
    exact ⟨b, (List.getElem?_append_left (List.getElem?_eq_some_iff.mp hb).1).trans hb, hj⟩

lemma Indexed.append_unkeyed (h : Indexed key items index) (ha : key a = none) :
    Indexed key (items ++ [a]) index := by
  intro j i
  have hne : key a ≠ some j := fun hj => by cases ha.symm.trans hj
  rw [h j i, exists_getElem?_append_iff key hne]

lemma Indexed.append_keyed [TransOrd κ] [LawfulEqOrd κ] [DecidableEq κ] (h : Indexed key items index) (ha : key a = some k)
    (hk : index[k]? = none) : Indexed key (items ++ [a]) (index.insert k items.length) := by
  intro j i
  rw [lookup_insert]
  split
  · -- the new key is at the new position and nowhere else
    subst j
    constructor
    · intro hi
      cases hi
      exact ⟨a, by simp, ha⟩
    · rintro ⟨b, hb, hbk⟩
      rw [List.getElem?_append] at hb
      split at hb
      · have hold := (h k i).mpr ⟨b, hb, hbk⟩
        rw [hk] at hold
        cases hold
      · have hlt := (List.getElem?_eq_some_iff.mp hb).1
        rw [List.length_singleton] at hlt
        congr 1
        omega
  · rename_i hkj
    have hne : key a ≠ some j := fun hj => hkj (Option.some.inj (ha.symm.trans hj))
    rw [h j i, exists_getElem?_append_iff key hne]

/-- Writing at the indexed position replaces the content under the key. -/
lemma Indexed.set_eq [DecidableEq κ] (h : Indexed key items index) (ha : key a = some k) {i : Nat}
    (hi : index[k]? = some i) : items.set i a = items.map (replaceBy key a) := by
  apply List.ext_getElem?
  intro j
  rw [List.getElem?_set, List.getElem?_map]
  obtain ⟨b, hb, hbk⟩ := (h k i).mp hi
  split
  · subst j
    rw [hb, if_pos (List.getElem?_eq_some_iff.mp hb).1, Option.map_some, replaceBy, hbk, ha,
      if_pos rfl]
  · rename_i hij
    cases hc : items[j]? with
    | none => rfl
    | some c =>
      rw [Option.map_some, replaceBy, if_neg]
      intro hck
      have hj := (h k j).mpr ⟨c, hc, hck.trans ha⟩
      rw [hi] at hj
      exact hij (Option.some.inj hj)

lemma Indexed.map_replaceBy [DecidableEq κ] (h : Indexed key items index) (a : α) :
    Indexed key (items.map (replaceBy key a)) index := by
  intro j i
  rw [h j i, List.getElem?_map]
  constructor
  · rintro ⟨b, hb, hj⟩
    exact ⟨replaceBy key a b, by rw [hb, Option.map_some], by rw [key_replaceBy key, hj]⟩
  · rintro ⟨b, hb, hj⟩
    obtain ⟨c, hc, rfl⟩ := Option.map_eq_some_iff.mp hb
    exact ⟨c, hc, by rw [← hj, key_replaceBy key]⟩

end Indexed

end LastWins
