import Mathlib.Algebra.Order.Ring.Int
import Mathlib.Tactic.Common
import Mathlib.Tactic.TypeStar

/-!
# Executable transition systems

A machine is an initial state and a partial step function on labels; every choice that a
scheduler or an environment makes is part of the label. Invariants are proved over the
runs whose steps all satisfy a guard, so that unrestricted reachability is the guard that
is always true.
-/

namespace Transition

/-- A transition system given by a step function that returns `none` on a disabled label. -/
structure Machine (σ α : Type*) where
  init : σ
  next : σ → α → Option σ

namespace Machine

variable {σ τ α β : Type*}

/-- Run a list of labels from a state. -/
def exec (M : Machine σ α) : σ → List α → Option σ
  | s, [] => some s
  | s, a :: as => (M.next s a).bind (fun t => M.exec t as)

/-- `t` is reached from `s` by steps that all satisfy the guard `P`. -/
inductive RunsWhen (M : Machine σ α) (P : σ → α → Prop) (s : σ) : σ → Prop
  | refl : RunsWhen M P s s
  | step {t u : σ} {a : α} : RunsWhen M P s t → P t a → M.next t a = some u → RunsWhen M P s u

/-- `t` is reached from `s`. -/
abbrev Runs (M : Machine σ α) (s t : σ) : Prop := M.RunsWhen (fun _ _ => True) s t

/-- Reached from the initial state by guarded steps. -/
abbrev ReachableWhen (M : Machine σ α) (P : σ → α → Prop) (s : σ) : Prop := M.RunsWhen P M.init s

/-- Reached from the initial state. -/
abbrev Reachable (M : Machine σ α) (s : σ) : Prop := M.Runs M.init s

lemma RunsWhen.mono {M : Machine σ α} {P Q : σ → α → Prop} (hPQ : ∀ s a, P s a → Q s a) {s t : σ}
    (h : M.RunsWhen P s t) : M.RunsWhen Q s t := by
  induction h with
  | refl => exact .refl
  | step _ hP hn ih => exact .step ih (hPQ _ _ hP) hn

lemma ReachableWhen.reachable {M : Machine σ α} {P : σ → α → Prop} {s : σ}
    (h : M.ReachableWhen P s) : M.Reachable s :=
  RunsWhen.mono (fun _ _ _ => trivial) h

lemma RunsWhen.trans {M : Machine σ α} {P : σ → α → Prop} {s t u : σ} (h : M.RunsWhen P s t)
    (h' : M.RunsWhen P t u) : M.RunsWhen P s u := by
  induction h' with
  | refl => exact h
  | step _ hP hn ih => exact .step ih hP hn

lemma Runs.next {M : Machine σ α} {s t u : σ} {a : α} (h : M.Runs s t)
    (hn : M.next t a = some u) : M.Runs s u :=
  .step h trivial hn

/-- The induction rule of guarded runs. -/
theorem RunsWhen.invariant {M : Machine σ α} {P : σ → α → Prop} {I : σ → Prop} {s t : σ}
    (h : M.RunsWhen P s t) (h0 : I s)
    (hstep : ∀ t a u, I t → P t a → M.next t a = some u → I u) : I t := by
  induction h with
  | refl => exact h0
  | step _ hP hn ih => exact hstep _ _ _ ih hP hn

/-- The induction rule where each step may also use what is known of the states it starts from. -/
theorem RunsWhen.invariant_of {M : Machine σ α} {P : σ → α → Prop} {I J : σ → Prop} {s t : σ}
    (h : M.RunsWhen P s t) (hJ : ∀ t, M.RunsWhen P s t → J t) (h0 : I s)
    (hstep : ∀ t a u, J t → I t → P t a → M.next t a = some u → I u) : I t := by
  induction h with
  | refl => exact h0
  | step hr hP hn ih => exact hstep _ _ _ (hJ _ hr) ih hP hn

lemma runs_of_exec {M : Machine σ α} {s t : σ} {as : List α} (h : M.exec s as = some t) :
    M.Runs s t := by
  induction as generalizing s with
  | nil =>
    cases h
    exact .refl
  | cons a as ih =>
    simp only [exec, Option.bind_eq_some_iff] at h
    obtain ⟨u, hu, hrest⟩ := h
    exact RunsWhen.trans (Runs.next .refl hu) (ih hrest)

/-- A computed run that ends in a state with property `p` reaches such a state. -/
theorem reachable_of_exec_any (M : Machine σ α) (as : List α) (p : σ → Bool)
    (h : (M.exec M.init as).any p = true) : ∃ s, M.Reachable s ∧ p s = true := by
  obtain ⟨s, hs, hp⟩ := (Option.any_eq_true _ _).mp h
  exact ⟨s, runs_of_exec hs, hp⟩

/-- The machine that refuses the steps outside the guard. -/
def restrict (M : Machine σ α) (P : σ → α → Bool) : Machine σ α where
  init := M.init
  next s a := if P s a then M.next s a else none

lemma runsWhen_of_restrict {M : Machine σ α} {P : σ → α → Bool} {s t : σ}
    (h : (M.restrict P).Runs s t) : M.RunsWhen (fun s a => P s a = true) s t := by
  induction h with
  | refl => exact .refl
  | step _ _ hn ih =>
    simp only [restrict, Option.ite_none_right_eq_some] at hn
    exact .step ih hn.1 hn.2

/-- A computed run whose steps all satisfy the guard. -/
theorem reachableWhen_of_exec_any (M : Machine σ α) (P : σ → α → Bool) (as : List α) (p : σ → Bool)
    (h : ((M.restrict P).exec M.init as).any p = true) :
    ∃ s, M.ReachableWhen (fun s a => P s a = true) s ∧ p s = true := by
  obtain ⟨s, hs, hp⟩ := reachable_of_exec_any (M.restrict P) as p h
  exact ⟨s, runsWhen_of_restrict hs, hp⟩

/-- A map of states under which every reachable step of `M` is a step of `N` or leaves the
image unchanged. -/
structure Projection (M : Machine σ α) (N : Machine τ β) where
  state : σ → τ
  init : state M.init = N.init
  step : ∀ s a t, M.Reachable s → M.next s a = some t →
    state t = state s ∨ ∃ b, N.next (state s) b = some (state t)

/-- What holds of every reachable state of `N` holds of the image of every reachable state of `M`. -/
theorem Projection.reachable {M : Machine σ α} {N : Machine τ β} (F : Projection M N) {s : σ}
    (h : M.Reachable s) : N.Reachable (F.state s) := by
  induction h with
  | refl =>
    rw [F.init]
    exact .refl
  | step hr _ hn ih =>
    rcases F.step _ _ _ hr hn with he | ⟨b, hb⟩
    · rw [he]
      exact ih
    · exact Runs.next ih hb

/-- A run of `M` from a reachable state projects to a run of `N`. -/
theorem Projection.runs {M : Machine σ α} {N : Machine τ β} (F : Projection M N) {s t : σ}
    (hs : M.Reachable s) (h : M.Runs s t) : N.Runs (F.state s) (F.state t) := by
  induction h with
  | refl => exact .refl
  | step hr _ hn ih =>
    rcases F.step _ _ _ (hs.trans hr) hn with he | ⟨b, hb⟩
    · rw [he]
      exact ih
    · exact Runs.next ih hb

end Machine

end Transition
