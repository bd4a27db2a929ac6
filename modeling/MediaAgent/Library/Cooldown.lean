import Mathlib.Algebra.Order.Group.Basic
import Mathlib.Algebra.Order.Sub.Basic
import Mathlib.Data.List.Infix

/-!
# Letting items through once in a window

An item is let through when no item with its key has been let through less than a window before. The rule is
stated over the full history of what was let through. A table with the last time of each key decides in the
same way from then on, also when the times that have left the window are dropped from it.
-/

namespace Cooldown

variable {κ T α : Type*} [AddCommGroup T] [LinearOrder T]

/-- Nothing with this key was let through less than the window before now. -/
def Free (window now : T) (history : List (κ × T)) (k : κ) : Prop :=
  ∀ e ∈ history, e.1 = k → ¬now - e.2 < window

section rule

variable [DecidableEq κ]

instance (window now : T) (history : List (κ × T)) (k : κ) : Decidable (Free window now history k) :=
  inferInstanceAs (Decidable (∀ e ∈ history, e.1 = k → ¬now - e.2 < window))

/-- The items that are let through one after the other at a time, and the history afterwards. -/
def letThrough (key : α → κ) (window now : T) : List (κ × T) → List α → List α × List (κ × T)
  | history, [] => ([], history)
  | history, a :: items =>
    if Free window now history (key a) then
      let rest := letThrough key window now (history ++ [(key a, now)]) items
      (a :: rest.1, rest.2)
    else letThrough key window now history items

lemma letThrough_sublist (key : α → κ) (window now : T) (history : List (κ × T)) (items : List α) :
    (letThrough key window now history items).1.Sublist items := by
  induction items generalizing history with
  | nil => exact .slnil
  | cons a items ih =>
    rw [letThrough]
    by_cases hfree : Free window now history (key a)
    · rw [if_pos hfree]
      exact (ih _).cons_cons a
    · rw [if_neg hfree]
      exact (ih _).cons a

end rule

/-- The history does not go beyond a time, and from then on the last times of the keys decide as it does. -/
structure Agrees (window start : T) (last : κ → Option T) (history : List (κ × T)) : Prop where
  past : ∀ e ∈ history, e.2 ≤ start
  same : ∀ now, start ≤ now → ∀ k, (∀ t, last k = some t → ¬now - t < window) ↔ Free window now history k

namespace Agrees

variable {window start now : T} {last last' : κ → Option T} {history : List (κ × T)}

lemma empty (window start : T) (hlast : ∀ k, last k = none) : Agrees window start last [] := by
  refine ⟨fun e he => ?_, fun now _ k => ?_⟩
  · cases he
  · simp [Free, hlast]

lemma later (h : Agrees window start last history) (hle : start ≤ now) : Agrees window now last history :=
  ⟨fun e he => (h.past e he).trans hle, fun now' hnow k => h.same now' (hle.trans hnow) k⟩

variable [IsOrderedAddMonoid T]

/-- What has left the window by now is out of it for good. -/
lemma prune (h : Agrees window now last history)
    (hlast : ∀ k, last' k = (last k).filter fun t => !decide (t ≤ now - window)) : Agrees window now last' history := by
  refine ⟨h.past, fun now' hnow k => ?_⟩
  rw [← h.same now' hnow k]
  refine forall_congr' fun t => ?_
  rw [hlast k, Option.filter_eq_some_iff]
  constructor
  · intro hkept ht hrecent
    by_cases hgone : t ≤ now - window
    · have hle : window ≤ now' - t := le_sub_comm.mp (hgone.trans (sub_le_sub_right hnow window))
      exact absurd hrecent (not_lt.mpr hle)
    · exact hkept ⟨ht, by simp [hgone]⟩ hrecent
  · exact fun hold ht => hold ht.1

/-- An item is let through now. -/
lemma keep [DecidableEq κ] (h : Agrees window now last history) (k : κ)
    (hlast : ∀ k', last' k' = if k = k' then some now else last k') :
    Agrees window now last' (history ++ [(k, now)]) := by
  refine ⟨fun e he => ?_, fun now' hnow k' => ?_⟩
  · rcases List.mem_append.mp he with he | he
    · exact h.past e he
    · rw [List.mem_singleton.mp he]
  · have hfree : Free window now' (history ++ [(k, now)]) k' ↔
        Free window now' history k' ∧ (k = k' → ¬now' - now < window) := by
      simp only [Free, List.forall_mem_append, List.forall_mem_singleton]
    rw [hfree, hlast k']
    by_cases hk : k = k'
    · rw [if_pos hk]
      constructor
      · intro hlater
        have hout : ¬now' - now < window := hlater now rfl
        refine ⟨fun e he _ hrecent => hout ?_, fun _ => hout⟩
        exact (sub_le_sub_left (h.past e he) now').trans_lt hrecent
      · rintro ⟨-, hout⟩ t ht
        rw [← Option.some.inj ht]
        exact hout hk
    · rw [if_neg hk, h.same now' hnow k']
      exact ⟨fun hold => ⟨hold, fun he => absurd he hk⟩, fun hold => hold.1⟩

end Agrees

end Cooldown
