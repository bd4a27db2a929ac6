import Mathlib.Data.List.Infix

/-!
# The last group of a keyed sequence

A sequence in which some elements are keys. The last group is the suffix from the last key on; a block
that starts with it goes on growing with the sequence.
-/

namespace KeyGroups

variable {α : Type*} {isKey isLead : α → Bool}

/-- The elements from the last key on. -/
def lastGroup (isKey : α → Bool) : List α → List α
  | [] => []
  | x :: xs => if xs.any isKey then lastGroup isKey xs else if isKey x then x :: xs else []

lemma lastGroup_suffix (xs : List α) : lastGroup isKey xs <:+ xs := by
  induction xs with
  | nil => exact List.suffix_rfl
  | cons x xs ih =>
    unfold lastGroup
    split
    · exact ih.trans (List.suffix_cons x xs)
    · split
      · exact List.suffix_rfl
      · exact List.nil_suffix

/-- There is no last group as long as there is no key. -/
lemma lastGroup_eq_nil {xs : List α} : lastGroup isKey xs = [] ↔ ∀ x ∈ xs, isKey x = false := by
  induction xs with
  | nil => simp [lastGroup]
  | cons x xs ih =>
    unfold lastGroup
    by_cases hany : xs.any isKey = true
    · rw [if_pos hany, ih]
      obtain ⟨y, hy, hkey⟩ := List.any_eq_true.mp hany
      constructor
      · intro h
        rw [h y hy] at hkey
        cases hkey
      · exact fun h z hz => h z (List.mem_cons_of_mem _ hz)
    · have hnone : ∀ y ∈ xs, isKey y = false := by simpa using hany
      rw [if_neg hany]
      cases hkey : isKey x with
      | true => simp [hkey]
      | false => simpa [hkey] using hnone

/-- The last group starts with a key. -/
lemma isKey_of_lastGroup {xs : List α} {x : α} {rest : List α} (h : lastGroup isKey xs = x :: rest) :
    isKey x = true := by
  induction xs with
  | nil => cases h
  | cons y ys ih =>
    unfold lastGroup at h
    split at h
    · exact ih h
    · split at h
      · cases h
        assumption
      · cases h

/-- A key starts a new group. -/
lemma lastGroup_append_key {x : α} (h : isKey x = true) (xs : List α) : lastGroup isKey (xs ++ [x]) = [x] := by
  induction xs with
  | nil => simp [lastGroup, h]
  | cons y ys ih =>
    have hany : (ys ++ [x]).any isKey = true := by simp [h]
    rw [List.cons_append, lastGroup, if_pos hany, ih]

/-- Another element joins the group, if there is one. -/
lemma lastGroup_append_other {x : α} (h : isKey x = false) (xs : List α) :
    lastGroup isKey (xs ++ [x]) = if lastGroup isKey xs = [] then [] else lastGroup isKey xs ++ [x] := by
  induction xs with
  | nil => simp [lastGroup, h]
  | cons y ys ih =>
    have hany : (ys ++ [x]).any isKey = ys.any isKey := by simp [h]
    rw [List.cons_append, lastGroup, lastGroup, hany]
    by_cases hkeys : ys.any isKey = true
    · rw [if_pos hkeys, if_pos hkeys, ih]
    · rw [if_neg hkeys, if_neg hkeys]
      by_cases hkey : isKey y = true <;> simp [hkey]

/-- The first leading element is a key. -/
def LeadsWithKey (isLead isKey : α → Bool) (xs : List α) : Prop := ∀ x, xs.find? isLead = some x → isKey x = true

/-- A sequence that has a leading element may go on in any way. -/
lemma LeadsWithKey.append {xs : List α} (h : LeadsWithKey isLead isKey xs) (hlead : ∃ x ∈ xs, isLead x = true)
    (ys : List α) : LeadsWithKey isLead isKey (xs ++ ys) := by
  intro x hx
  obtain ⟨y, hy, hy'⟩ := hlead
  have hsome : (xs.find? isLead).isSome = true := List.find?_isSome.mpr ⟨y, hy, hy'⟩
  rw [List.find?_append, Option.or_of_isSome hsome] at hx
  exact h x hx

/-- An element that does not lead, or that is a key, does no harm. -/
lemma LeadsWithKey.concat {xs : List α} (h : LeadsWithKey isLead isKey xs) {x : α}
    (hx : isLead x = true → isKey x = true) : LeadsWithKey isLead isKey (xs ++ [x]) := by
  intro y hy
  rw [List.find?_append, Option.or_eq_some_iff] at hy
  rcases hy with hy | ⟨-, hy⟩
  · exact h y hy
  · obtain ⟨hlead, -⟩ := List.find?_eq_some_iff_append.mp hy
    have hsame : y = x := List.mem_singleton.mp (List.mem_of_find?_eq_some hy)
    rw [hsame] at hlead ⊢
    exact hx hlead

/-- Without a key, a leading element that is none spoils the sequence. -/
lemma not_leadsWithKey_concat {xs : List α} (hnone : ∀ x ∈ xs, isKey x = false) {x : α} (hlead : isLead x = true)
    (hx : isKey x = false) : ¬LeadsWithKey isLead isKey (xs ++ [x]) := by
  intro h
  have hsome : ((xs ++ [x]).find? isLead).isSome = true := List.find?_isSome.mpr ⟨x, by simp, hlead⟩
  obtain ⟨y, hy⟩ := Option.isSome_iff_exists.mp hsome
  have hkey := h y hy
  rcases List.mem_append.mp (List.mem_of_find?_eq_some hy) with hmem | hmem
  · rw [hnone y hmem] at hkey
    cases hkey
  · rw [List.mem_singleton.mp hmem, hx] at hkey
    cases hkey

/-- The last group leads with its key, when the keys lead. -/
lemma leadsWithKey_lastGroup (hkeys : ∀ x, isKey x = true → isLead x = true) (xs : List α) :
    LeadsWithKey isLead isKey (lastGroup isKey xs) := by
  intro y hy
  cases hgroup : lastGroup isKey xs with
  | nil =>
    rw [hgroup] at hy
    cases hy
  | cons x rest =>
    have hkey := isKey_of_lastGroup hgroup
    rw [hgroup, List.find?_cons_of_pos (hkeys x hkey)] at hy
    cases hy
    exact hkey

/-! ## Clips of a growing sequence -/

/-- What has been seen of a sequence, the clip that is being taken of it, and those that are finished. -/
structure Clips (α : Type*) where
  seen : List α := []
  current : Option (List α) := none
  finished : List (List α) := []

namespace Clips

def all (c : Clips α) : List (List α) := c.finished ++ c.current.toList

def see (c : Clips α) (x : α) : Clips α := { c with seen := c.seen ++ [x], current := c.current.map (· ++ [x]) }

/-- A clip is begun with the last group. -/
def start (isKey : α → Bool) (c : Clips α) : Clips α := { c with current := some (lastGroup isKey c.seen) }

def stop (c : Clips α) : Clips α := { c with current := none, finished := c.all }

/-- Every clip is a block of the sequence; the current one reaches to its end. -/
structure Contiguous (c : Clips α) : Prop where
  finished : ∀ clip ∈ c.finished, clip <:+: c.seen
  current : ∀ clip ∈ c.current, clip <:+ c.seen

namespace Contiguous

variable {c : Clips α}

lemma see (h : Contiguous c) (x : α) : Contiguous (c.see x) := by
  refine ⟨fun clip hmem => ?_, fun clip hmem => ?_⟩
  · exact (h.finished clip hmem).trans (List.prefix_append _ _).isInfix
  · obtain ⟨clip', hclip, rfl⟩ := Option.map_eq_some_iff.mp hmem
    obtain ⟨before, hbefore⟩ := h.current clip' hclip
    exact ⟨before, by rw [← List.append_assoc, hbefore]; rfl⟩

lemma start (h : Contiguous c) : Contiguous (c.start isKey) := by
  refine ⟨h.finished, fun clip hmem => ?_⟩
  cases hmem
  exact lastGroup_suffix c.seen

lemma all_isInfix (h : Contiguous c) : ∀ clip ∈ c.all, clip <:+: c.seen := by
  intro clip hmem
  rcases List.mem_append.mp hmem with hmem | hmem
  · exact h.finished clip hmem
  · exact (h.current clip (Option.mem_toList.mp hmem)).isInfix

lemma stop (h : Contiguous c) : Contiguous c.stop := by
  refine ⟨h.all_isInfix, fun clip hmem => ?_⟩
  cases hmem

end Contiguous

/-- Once a key has been seen the current clip has a leading element. -/
def Joined (isLead isKey : α → Bool) (c : Clips α) : Prop :=
  lastGroup isKey c.seen ≠ [] → ∀ clip ∈ c.current, ∃ x ∈ clip, isLead x = true

section joined

variable {c : Clips α} (hkeys : ∀ x, isKey x = true → isLead x = true)
include hkeys

lemma Joined.see (h : Joined isLead isKey c) (x : α) : Joined isLead isKey (c.see x) := by
  intro hgroup clip hmem
  obtain ⟨clip', hclip, rfl⟩ := Option.map_eq_some_iff.mp hmem
  cases hkey : isKey x with
  | true => exact ⟨x, by simp, hkeys x hkey⟩
  | false =>
    have hseen : lastGroup isKey c.seen ≠ [] := by
      intro hnone
      apply hgroup
      rw [Clips.see, lastGroup_append_other hkey, if_pos hnone]
    obtain ⟨y, hy, hlead⟩ := h hseen clip' hclip
    exact ⟨y, List.mem_append_left _ hy, hlead⟩

omit hkeys in
lemma Joined.stop : Joined isLead isKey c.stop := by
  intro _ clip hmem
  cases hmem

lemma joined_start : Joined isLead isKey (c.start isKey) := by
  intro hgroup clip hmem
  cases hmem
  obtain ⟨x, rest, hx⟩ := List.exists_cons_of_ne_nil hgroup
  change lastGroup isKey c.seen = x :: rest at hx
  rw [hx]
  exact ⟨x, List.mem_cons_self .., hkeys x (isKey_of_lastGroup hx)⟩

/-- Every clip leads with a key. -/
def Keyed (isLead isKey : α → Bool) (c : Clips α) : Prop := ∀ clip ∈ c.all, LeadsWithKey isLead isKey clip

omit hkeys in
lemma Keyed.stop (h : Keyed isLead isKey c) : Keyed isLead isKey c.stop := by
  intro clip hmem
  simp only [all, Clips.stop, Option.toList_none, List.append_nil] at hmem
  exact h clip hmem

lemma Keyed.start (h : Keyed isLead isKey c) : Keyed isLead isKey (c.start isKey) := by
  intro clip hmem
  rcases List.mem_append.mp hmem with hmem | hmem
  · exact h clip (List.mem_append_left _ hmem)
  · rw [List.mem_singleton.mp hmem]
    exact leadsWithKey_lastGroup hkeys c.seen

omit hkeys in
/-- A clip stays keyed unless its first leading element is seen before any key, and is none. -/
lemma Keyed.see (h : Keyed isLead isKey c) (hjoined : Joined isLead isKey c) {x : α}
    (hx : c.current.isSome → isLead x = true → isKey x = false → lastGroup isKey c.seen ≠ []) :
    Keyed isLead isKey (c.see x) := by
  intro clip hmem
  rcases List.mem_append.mp hmem with hmem | hmem
  · exact h clip (List.mem_append_left _ hmem)
  · obtain ⟨clip', hclip, rfl⟩ := Option.map_eq_some_iff.mp (Option.mem_toList.mp hmem)
    have hkeyed : LeadsWithKey isLead isKey clip' :=
      h clip' (List.mem_append_right _ (Option.mem_toList.mpr hclip))
    by_cases hother : isLead x = true ∧ isKey x = false
    · have hgroup := hx (Option.isSome_of_mem hclip) hother.1 hother.2
      exact hkeyed.append (hjoined hgroup clip' hclip) [x]
    · refine hkeyed.concat fun hlead => ?_
      by_contra hkey
      exact hother ⟨hlead, Bool.eq_false_iff.mpr hkey⟩

omit hkeys in
/-- That first leading element is in the clip for good. -/
lemma not_keyed_see (h : Contiguous c) {x : α} (hopen : c.current.isSome) (hlead : isLead x = true)
    (hkey : isKey x = false) (hgroup : lastGroup isKey c.seen = []) : ¬Keyed isLead isKey (c.see x) := by
  obtain ⟨clip, hclip⟩ := Option.isSome_iff_exists.mp hopen
  intro hkeyed
  have hmem : clip ++ [x] ∈ (c.see x).all := by simp [all, see, hclip]
  refine not_leadsWithKey_concat (fun y hy => ?_) hlead hkey (hkeyed _ hmem)
  exact lastGroup_eq_nil.mp hgroup y ((h.current clip hclip).subset hy)

end joined

end Clips

end KeyGroups
