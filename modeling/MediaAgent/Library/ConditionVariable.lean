import MediaAgent.Library.Transition

/-!
# Condition variables

A machine in which a wait is one step, and the same machine with the wait made of a mutex and a
condition variable. A thread that waits evaluates the predicate in looks, under the mutex, and
blocks when it has failed; a notification, a spurious wake-up or a time-out wakes it, and it
evaluates the predicate again. Steps that do not take the mutex may fall between two looks, and
between the last look and the block.

No wake-up is lost when the work that the predicate asks for is counted: a step that leaves more
work notifies, and a look that finds none has missed at most what a later notification makes good.
-/

namespace ConditionVariable
open Transition

/-- What a step notifies: nobody, every blocked thread, or one of them by a call still to be made. -/
inductive Notice
  | nobody
  | everybody
  | oneLater
  deriving DecidableEq, Repr

/-- The calls that a step leaves to be made. -/
def Notice.due : Notice → Nat
  | .nobody | .everybody => 0
  | .oneLater => 1

/-- Who makes a step: a thread whose wait is over, a waiting thread between two waits, another
thread under the mutex, or another thread without it. -/
inductive Role
  | waiter
  | between
  | locked
  | unlocked
  deriving DecidableEq, Repr

/-- What comes of a look: the wait is over, there is more to look at, or the predicate is false. -/
inductive Look (α π : Type*)
  | taken (a : α)
  | next (p : π)
  | wait

/-- How the steps of a machine are made with a condition variable. `enters` reads how many threads
are in the wait; with `lockedDelivery` a later notification is made under the mutex. -/
structure Monitor {σ α : Type*} (N : Machine σ α) (κ π : Type*) where
  start : π
  look : κ → π → σ → Look α π
  role : α → σ → Role
  notice : α → σ → Notice
  enters : κ → Nat → σ → Bool
  lockedDelivery : Bool
  waiter_of_taken : ∀ k p s a, look k p s = .taken a → role a s = .waiter

/-- The shared state, the thread that evaluates the predicate, those that are blocked, those that
have been woken, the notifications still to be made, and whether one to every thread came while a
thread held the mutex. -/
structure State (σ κ π : Type*) where
  shared : σ
  holder : Option (κ × π) := none
  waiting : List κ := []
  woken : List κ := []
  due : Nat := 0
  overtaken : Bool := false

inductive Label (α κ : Type*)
  | enter (k : κ)
  | look
  | leave
  | wake (i : Nat)
  | resume (i : Nat)
  | deliver (i : Nat)
  | op (a : α)

namespace State

variable {σ κ π : Type*} (m : State σ κ π)

def holding : Nat := m.holder.isSome.toNat

def inside : Nat := m.holding + m.waiting.length + m.woken.length

/-- The blocked thread at a place is woken. -/
def wake (i : Nat) : Option (State σ κ π) :=
  (m.waiting[i]?).map fun k => { m with waiting := m.waiting.eraseIdx i, woken := m.woken ++ [k] }

/-- One notification is made: it wakes a blocked thread, if there is one. -/
def deliver (i : Nat) : Option (State σ κ π) :=
  match m.due, m.waiting with
  | 0, _ => none
  | n + 1, [] => some { m with due := n }
  | n + 1, _ :: _ => { m with due := n }.wake i

def notify (notice : Notice) (s : σ) : State σ κ π :=
  match notice with
  | .everybody =>
    { m with
      shared := s
      waiting := []
      woken := m.woken ++ m.waiting
      overtaken := m.overtaken || m.holder.isSome }
  | notice => { m with shared := s, due := m.due + notice.due }

@[simp] lemma notify_shared (notice : Notice) (s : σ) : (m.notify notice s).shared = s := by
  cases notice <;> rfl

@[simp] lemma notify_holder (notice : Notice) (s : σ) : (m.notify notice s).holder = m.holder := by
  cases notice <;> rfl

@[simp] lemma notify_due (notice : Notice) (s : σ) : (m.notify notice s).due = m.due + notice.due := by
  cases notice <;> rfl

lemma notify_of_ne {notice : Notice} (h : notice ≠ .everybody) (s : σ) :
    m.notify notice s = { m with shared := s, due := m.due + notice.due } := by
  cases notice with
  | everybody => contradiction
  | _ => rfl

end State

section

variable {σ α κ π : Type*} {N : Machine σ α}

/-- One look of the thread that holds the mutex; the thread blocks when the predicate has failed. -/
def State.look (M : Monitor N κ π) (m : State σ κ π) : Option (State σ κ π) :=
  match m.holder with
  | none => none
  | some (k, p) =>
    match M.look k p m.shared with
    | .taken a => (N.next m.shared a).map fun s => { m with shared := s, holder := none }
    | .next p => some { m with holder := some (k, p) }
    | .wait => some { m with holder := none, waiting := m.waiting ++ [k] }

/-- The predicate has failed and the time is over. -/
def State.leave (M : Monitor N κ π) (m : State σ κ π) : Option (State σ κ π) :=
  match m.holder with
  | none => none
  | some (k, p) =>
    match M.look k p m.shared with
    | .wait => some { m with holder := none }
    | _ => none

def State.op (M : Monitor N κ π) (m : State σ κ π) (a : α) : Option (State σ κ π) :=
  let step := (N.next m.shared a).map (m.notify (M.notice a m.shared))
  match M.role a m.shared with
  | .waiter => none
  | .between => if m.inside = 0 then step else none
  | .locked => if m.holder.isNone then step else none
  | .unlocked => step

/-- The machine whose wait is made with a condition variable. -/
def Monitor.machine (M : Monitor N κ π) : Machine (State σ κ π) (Label α κ) where
  init := { shared := N.init }
  next m
    | .enter k =>
      if m.holder.isNone ∧ M.enters k m.inside m.shared then some { m with holder := some (k, M.start) } else none
    | .look => m.look M
    | .leave => m.leave M
    | .wake i => m.wake i
    | .resume i =>
      if m.holder.isNone then
        (m.woken[i]?).map fun k => { m with woken := m.woken.eraseIdx i, holder := some (k, M.start) }
      else none
    | .deliver i => if M.lockedDelivery ∧ m.holder.isSome then none else m.deliver i
    | .op a => m.op M a

/-! ## What a step does -/

/-- The steps of the machine that makes the wait, with their guards. -/
inductive Moves (M : Monitor N κ π) (m : State σ κ π) : State σ κ π → Prop
  | enter (k : κ) : m.holder = none → M.enters k m.inside m.shared = true →
      Moves M m { m with holder := some (k, M.start) }
  | taken (k : κ) (p : π) (a : α) (s : σ) : m.holder = some (k, p) → M.look k p m.shared = .taken a →
      N.next m.shared a = some s → Moves M m { m with shared := s, holder := none }
  | looked (k : κ) (p p' : π) : m.holder = some (k, p) → M.look k p m.shared = .next p' →
      Moves M m { m with holder := some (k, p') }
  | blocked (k : κ) (p : π) : m.holder = some (k, p) → M.look k p m.shared = .wait →
      Moves M m { m with holder := none, waiting := m.waiting ++ [k] }
  | left (k : κ) (p : π) : m.holder = some (k, p) → M.look k p m.shared = .wait →
      Moves M m { m with holder := none }
  | woken (i : Nat) (k : κ) : m.waiting[i]? = some k →
      Moves M m { m with waiting := m.waiting.eraseIdx i, woken := m.woken ++ [k] }
  | resumed (i : Nat) (k : κ) : m.holder = none → m.woken[i]? = some k →
      Moves M m { m with woken := m.woken.eraseIdx i, holder := some (k, M.start) }
  | unheard (n : Nat) : m.due = n + 1 → (M.lockedDelivery = true → m.holder = none) → m.waiting = [] →
      Moves M m { m with due := n }
  | delivered (n i : Nat) (k : κ) : m.due = n + 1 → (M.lockedDelivery = true → m.holder = none) →
      m.waiting[i]? = some k →
      Moves M m { m with due := n, waiting := m.waiting.eraseIdx i, woken := m.woken ++ [k] }
  | op (a : α) (s : σ) : N.next m.shared a = some s → M.role a m.shared ≠ .waiter →
      (M.role a m.shared = .between → m.inside = 0) → (M.role a m.shared = .locked → m.holder = none) →
      Moves M m (m.notify (M.notice a m.shared) s)

lemma moves_of_look {M : Monitor N κ π} {m t : State σ κ π} (h : m.look M = some t) : Moves M m t := by
  unfold State.look at h
  split at h
  · cases h
  · rename_i k p hholder
    split at h
    · rename_i a hlook
      obtain ⟨s, hs, rfl⟩ := Option.map_eq_some_iff.mp h
      exact .taken k p a s hholder hlook hs
    · rename_i p' hlook
      cases h
      exact .looked k p p' hholder hlook
    · rename_i hlook
      cases h
      exact .blocked k p hholder hlook

lemma moves_of_leave {M : Monitor N κ π} {m t : State σ κ π} (h : m.leave M = some t) : Moves M m t := by
  unfold State.leave at h
  split at h
  · cases h
  · rename_i k p hholder
    split at h
    · rename_i hlook
      cases h
      exact .left k p hholder hlook
    · cases h

lemma moves_of_deliver {M : Monitor N κ π} {m t : State σ κ π} {i : Nat}
    (hfree : M.lockedDelivery = true → m.holder = none) (h : m.deliver i = some t) : Moves M m t := by
  unfold State.deliver at h
  split at h
  · cases h
  · rename_i n hdue hwaiting
    cases h
    exact .unheard n hdue hfree hwaiting
  · rename_i n k ks hdue hwaiting
    obtain ⟨k', hk, rfl⟩ := Option.map_eq_some_iff.mp h
    exact .delivered n i k' hdue hfree hk

lemma moves_of_op {M : Monitor N κ π} {m t : State σ κ π} {a : α} (h : m.op M a = some t) : Moves M m t := by
  unfold State.op at h
  dsimp only at h
  split at h
  · cases h
  · rename_i hrole
    obtain ⟨hinside, h⟩ := Option.ite_none_right_eq_some.mp h
    obtain ⟨s, hs, rfl⟩ := Option.map_eq_some_iff.mp h
    exact .op a s hs (by simp [hrole]) (fun _ => hinside) (by simp [hrole])
  · rename_i hrole
    obtain ⟨hfree, h⟩ := Option.ite_none_right_eq_some.mp h
    obtain ⟨s, hs, rfl⟩ := Option.map_eq_some_iff.mp h
    exact .op a s hs (by simp [hrole]) (by simp [hrole]) fun _ => Option.isNone_iff_eq_none.mp hfree
  · rename_i hrole
    obtain ⟨s, hs, rfl⟩ := Option.map_eq_some_iff.mp h
    exact .op a s hs (by simp [hrole]) (by simp [hrole]) (by simp [hrole])

lemma moves_of_next {M : Monitor N κ π} {m t : State σ κ π} {l : Label α κ} (h : M.machine.next m l = some t) :
    Moves M m t := by
  cases l with
  | enter k =>
    obtain ⟨hfree, h⟩ := Option.ite_none_right_eq_some.mp h
    cases h
    exact .enter k (Option.isNone_iff_eq_none.mp hfree.1) hfree.2
  | look => exact moves_of_look h
  | leave => exact moves_of_leave h
  | wake i =>
    obtain ⟨k, hk, rfl⟩ := Option.map_eq_some_iff.mp h
    exact .woken i k hk
  | resume i =>
    obtain ⟨hfree, h⟩ := Option.ite_none_right_eq_some.mp h
    obtain ⟨k, hk, rfl⟩ := Option.map_eq_some_iff.mp h
    exact .resumed i k (Option.isNone_iff_eq_none.mp hfree) hk
  | deliver i =>
    obtain ⟨hfree, h⟩ := Option.ite_none_left_eq_some.mp h
    refine moves_of_deliver (fun hlocked => ?_) h
    simpa [hlocked] using hfree
  | op a => exact moves_of_op h

/-- The shared state moves by steps of the machine. -/
theorem reachable_shared {M : Monitor N κ π} {m : State σ κ π} (h : M.machine.Reachable m) : N.Reachable m.shared := by
  refine Machine.RunsWhen.invariant (I := fun m => N.Reachable m.shared) h .refl fun m l t hm _ hnext => ?_
  cases moves_of_next hnext with
  | taken k p a s _ _ hs => exact Machine.Runs.next hm hs
  | op a s hs =>
    rw [State.notify_shared]
    exact Machine.Runs.next hm hs
  | _ => exact hm

/-! ## One thread that waits -/

@[simp] lemma State.inside_notify (m : State σ κ π) (notice : Notice) (s : σ) :
    (m.notify notice s).inside = m.inside := by
  cases notice with
  | everybody =>
    simp only [State.inside, State.notify, State.holding, List.length_nil, List.length_append]
    omega
  | _ => rfl

/-- Where a thread enters the wait only when nobody is in it, there is one at most, and what holds when it enters holds
until its wait is over. -/
theorem solo {M : Monitor N κ π} {P : σ → Prop} (henters : ∀ k n s, M.enters k n s = true → n = 0 ∧ P s)
    (hop : ∀ s s' a, N.Reachable s → N.next s a = some s' → M.role a s = .locked ∨ M.role a s = .unlocked → P s → P s')
    {m : State σ κ π} (h : M.machine.Reachable m) : m.inside ≤ 1 ∧ (m.inside ≠ 0 → P m.shared) := by
  refine h.invariant_of (I := fun m => m.inside ≤ 1 ∧ (m.inside ≠ 0 → P m.shared)) (fun t ht => reachable_shared ht)
    ⟨Nat.zero_le _, fun hne => absurd rfl hne⟩ fun m l t hr hm _ hnext => ?_
  obtain ⟨hone, hholds⟩ := hm
  cases moves_of_next hnext with
  | enter k hfree hk =>
    obtain ⟨hnobody, hP⟩ := henters _ _ _ hk
    refine ⟨?_, fun _ => hP⟩
    simp only [State.inside, State.holding, hfree, Option.isSome_none, Option.isSome_some, Bool.toNat_false,
      Bool.toNat_true] at hnobody ⊢
    omega
  | taken k p a s hholder _ _ =>
    simp only [State.inside, State.holding, hholder, Option.isSome_none, Option.isSome_some, Bool.toNat_false,
      Bool.toNat_true] at hone ⊢
    exact ⟨by omega, fun hne => by omega⟩
  | looked k p p' hholder _ =>
    simp only [State.inside, State.holding, hholder, Option.isSome_some, Bool.toNat_true] at hone hholds ⊢
    exact ⟨hone, hholds⟩
  | blocked k p hholder _ =>
    simp only [State.inside, State.holding, hholder, Option.isSome_none, Option.isSome_some, Bool.toNat_false,
      Bool.toNat_true, List.length_append, List.length_singleton] at hone hholds ⊢
    exact ⟨by omega, fun _ => hholds (by omega)⟩
  | left k p hholder _ =>
    simp only [State.inside, State.holding, hholder, Option.isSome_none, Option.isSome_some, Bool.toNat_false,
      Bool.toNat_true] at hone hholds ⊢
    exact ⟨by omega, fun _ => hholds (by omega)⟩
  | woken i k hk | delivered n i k _ _ hk =>
    obtain ⟨hi, -⟩ := List.getElem?_eq_some_iff.mp hk
    simp only [State.inside, State.holding, List.length_eraseIdx_of_lt hi, List.length_append,
      List.length_singleton] at hone hholds ⊢
    exact ⟨by omega, fun _ => hholds (by omega)⟩
  | resumed i k hfree hk =>
    obtain ⟨hi, -⟩ := List.getElem?_eq_some_iff.mp hk
    simp only [State.inside, State.holding, hfree, Option.isSome_none, Option.isSome_some, Bool.toNat_false,
      Bool.toNat_true, List.length_eraseIdx_of_lt hi] at hone hholds ⊢
    exact ⟨by omega, fun _ => hholds (by omega)⟩
  | unheard n _ _ _ => exact ⟨hone, hholds⟩
  | op a s hs hrole hbetween _ =>
    rw [State.inside_notify, State.notify_shared]
    refine ⟨hone, fun hne => ?_⟩
    cases hcase : M.role a m.shared with
    | waiter => exact absurd hcase hrole
    | between => exact absurd (hbetween hcase) hne
    | locked => exact hop _ _ _ hr hs (.inl hcase) (hholds hne)
    | unlocked => exact hop _ _ _ hr hs (.inr hcase) (hholds hne)

/-! ## Counted work -/

/-- The work that the predicate asks for, and what a thread may have missed of it when its looks have come to a place.
A step that leaves more work notifies; a step without the mutex adds to what is missed no more than a notification
that needs the mutex; what is over ends the wait. -/
structure Counted (M : Monitor N κ π) where
  work : σ → Nat
  missed : κ → π → σ → Nat
  closed : σ → Prop
  missed_start : ∀ k s, missed k M.start s = 0
  next : ∀ s k p p', N.Reachable s → M.look k p s = .next p' → missed k p' s ≤ missed k p s
  wait : ∀ s k p, N.Reachable s → M.look k p s = .wait → work s ≤ missed k p s
  taken : ∀ s s' k p a, N.Reachable s → M.look k p s = .taken a → N.next s a = some s' →
    closed s' ∨ ¬closed s ∧ work s' < work s
  op : ∀ s s' a, N.Reachable s → N.next s a = some s' → M.role a s = .locked ∨ M.role a s = .unlocked →
    M.notice a s ≠ .everybody → closed s' ∨ work s' = 0 ∨ ¬closed s ∧ work s' ≤ work s + (M.notice a s).due
  unlocked : ∀ s s' a, N.Reachable s → N.next s a = some s' → M.role a s = .unlocked → closed s' ∨ ¬closed s ∧
    ∀ k p, missed k p s' ≤ missed k p s + if M.lockedDelivery then (M.notice a s).due else 0

namespace Counted

variable {M : Monitor N κ π} (C : Counted M)

/-- All work is on its way to a thread, unless no thread is blocked. -/
structure Inv (m : State σ κ π) : Prop where
  covered : m.waiting ≠ [] → C.closed m.shared ∨ C.work m.shared ≤ m.woken.length + m.holding + m.due
  missed : ∀ k p, m.holder = some (k, p) →
    C.closed m.shared ∨ C.missed k p m.shared ≤ if M.lockedDelivery then m.due else 0

variable {C} {m t : State σ κ π}

lemma inv_enter {k : κ} {woken : List κ} (h : C.Inv m) (hfree : m.holder = none)
    (hwoken : m.woken.length ≤ woken.length + 1) :
    C.Inv { m with woken := woken, holder := some (k, M.start) } where
  covered hwaiting := by
    refine (h.covered hwaiting).imp id fun hle => ?_
    simp only [State.holding, hfree, Option.isSome_none, Option.isSome_some, Bool.toNat_false,
      Bool.toNat_true] at hle ⊢
    omega
  missed k' p hp := by
    obtain ⟨rfl, rfl⟩ := Prod.mk.inj (Option.some.inj hp)
    exact .inr (by rw [C.missed_start]; omega)

/-- The thread that holds the mutex lets go of it, and what is left of the work is on its way. -/
lemma inv_release {s : σ} {waiting : List κ}
    (hwork : waiting ≠ [] → C.closed s ∨ C.work s ≤ m.woken.length + m.due) :
    C.Inv { m with shared := s, holder := none, waiting := waiting } where
  covered hwaiting := hwork hwaiting
  missed _ _ hp := absurd hp (by simp)

lemma Inv.taken (h : C.Inv m) (hr : N.Reachable m.shared) {k : κ} {p : π} {a : α} {s : σ}
    (hholder : m.holder = some (k, p)) (hlook : M.look k p m.shared = .taken a) (hs : N.next m.shared a = some s) :
    C.Inv { m with shared := s, holder := none } := by
  apply inv_release
  intro hwaiting
  rcases C.taken _ _ _ _ _ hr hlook hs with hclosed | ⟨hopen, hless⟩
  · exact .inl hclosed
  · have hle := (h.covered hwaiting).resolve_left hopen
    simp only [State.holding, hholder, Option.isSome_some, Bool.toNat_true] at hle
    exact .inr (by omega)

/-- A thread whose looks have failed has missed no more than what is still to be notified. -/
lemma Inv.failed (h : C.Inv m) (hr : N.Reachable m.shared) {k : κ} {p : π} (hholder : m.holder = some (k, p))
    (hlook : M.look k p m.shared = .wait) (waiting : List κ) : C.Inv { m with holder := none, waiting := waiting } := by
  apply inv_release
  intro _
  refine (h.missed k p hholder).imp id fun hmissed => ?_
  have hwork := C.wait _ _ _ hr hlook
  split at hmissed <;> omega

lemma Inv.delivered (h : C.Inv m) {n : Nat} (hdue : m.due = n + 1)
    (hfree : M.lockedDelivery = true → m.holder = none) {waiting woken : List κ}
    (hheard : waiting ≠ [] → m.waiting ≠ [] ∧ m.woken.length < woken.length) :
    C.Inv { m with due := n, waiting := waiting, woken := woken } where
  covered hwaiting := by
    obtain ⟨hblocked, hless⟩ := hheard hwaiting
    refine (h.covered hblocked).imp id fun hle => ?_
    simp only [State.holding] at hle ⊢
    omega
  missed k p hp := by
    by_cases hlocked : M.lockedDelivery = true
    · exact absurd ((hfree hlocked).symm.trans hp) (by simp)
    · have hle := h.missed k p hp
      rw [if_neg hlocked] at hle ⊢
      exact hle

lemma Inv.op (h : C.Inv m) (hr : N.Reachable m.shared) {a : α} {s : σ} (hs : N.next m.shared a = some s)
    (hrole : M.role a m.shared ≠ .waiter) (hbetween : M.role a m.shared = .between → m.inside = 0)
    (hlocked : M.role a m.shared = .locked → m.holder = none) : C.Inv (m.notify (M.notice a m.shared) s) where
  covered hwaiting := by
    by_cases heverybody : M.notice a m.shared = .everybody
    · rw [heverybody] at hwaiting
      exact absurd rfl hwaiting
    rw [m.notify_of_ne heverybody] at hwaiting ⊢
    have hothers : M.role a m.shared = .locked ∨ M.role a m.shared = .unlocked := by
      cases hcase : M.role a m.shared with
      | waiter => exact absurd hcase hrole
      | between =>
        have hinside := hbetween hcase
        simp only [State.inside] at hinside
        have hlength : m.waiting.length = 0 := by omega
        exact absurd (List.eq_nil_iff_length_eq_zero.mpr hlength) hwaiting
      | locked => exact .inl rfl
      | unlocked => exact .inr rfl
    rcases C.op _ _ _ hr hs hothers heverybody with hclosed | hzero | ⟨hopen, hle⟩
    · exact .inl hclosed
    · exact .inr (by simp only [hzero]; omega)
    · have hcovered := (h.covered hwaiting).resolve_left hopen
      refine .inr ?_
      simp only [State.holding] at hcovered ⊢
      omega
  missed k p hp := by
    have hholder : m.holder = some (k, p) := (m.notify_holder _ s).symm.trans hp
    have hunlocked : M.role a m.shared = .unlocked := by
      cases hcase : M.role a m.shared with
      | waiter => exact absurd hcase hrole
      | between =>
        have hinside := hbetween hcase
        simp [State.inside, State.holding, hholder] at hinside
      | locked => exact absurd ((hlocked hcase).symm.trans hholder) (by simp)
      | unlocked => rfl
    rw [State.notify_shared, State.notify_due]
    rcases C.unlocked _ _ _ hr hs hunlocked with hclosed | ⟨hopen, hmissed⟩
    · exact .inl hclosed
    · refine .inr ((hmissed k p).trans ?_)
      have hle := (h.missed k p hholder).resolve_left hopen
      split
      · rename_i hdelivery
        rw [if_pos hdelivery] at hle
        omega
      · rename_i hdelivery
        rw [if_neg hdelivery] at hle
        exact hle

lemma Inv.moves (h : C.Inv m) (hr : N.Reachable m.shared) (hmove : Moves M m t) : C.Inv t := by
  cases hmove with
  | enter k hfree _ => exact inv_enter h hfree (by omega)
  | taken k p a s hholder hlook hs => exact h.taken hr hholder hlook hs
  | looked k p p' hholder hlook =>
    refine ⟨fun hwaiting => ?_, fun k' p'' hp => ?_⟩
    · have hcovered := h.covered hwaiting
      simp only [State.holding, hholder] at hcovered ⊢
      exact hcovered
    · obtain ⟨rfl, rfl⟩ := Prod.mk.inj (Option.some.inj hp)
      exact (h.missed k p hholder).imp id (C.next _ _ _ _ hr hlook).trans
  | blocked k p hholder hlook => exact h.failed hr hholder hlook _
  | left k p hholder hlook => exact h.failed hr hholder hlook _
  | woken i k hk =>
    refine ⟨fun hwaiting => ?_, h.missed⟩
    refine (h.covered fun hnil => by simp [hnil] at hk).imp id fun hle => ?_
    simp only [State.holding, List.length_append, List.length_singleton] at hle ⊢
    omega
  | resumed i k hfree hk =>
    obtain ⟨hi, -⟩ := List.getElem?_eq_some_iff.mp hk
    exact inv_enter h hfree (by rw [List.length_eraseIdx_of_lt hi]; omega)
  | unheard n hdue hfree hwaiting =>
    exact h.delivered hdue hfree fun hne => absurd hwaiting hne
  | delivered n i k hdue hfree hk =>
    exact h.delivered hdue hfree fun _ => ⟨fun hnil => by simp [hnil] at hk, by simp⟩
  | op a s hs hrole hbetween hlocked => exact h.op hr hs hrole hbetween hlocked

theorem inv_reachable (C : Counted M) (h : M.machine.Reachable m) : C.Inv m := by
  refine h.invariant_of (I := C.Inv) (fun t ht => reachable_shared ht) ?_ fun t l u hr ht _ hnext =>
    ht.moves hr (moves_of_next hnext)
  exact ⟨fun hwaiting => absurd rfl hwaiting, fun k p hp => absurd hp (by simp [Monitor.machine])⟩

/-- No wake-up is lost: while a thread is blocked and there is work, a thread is awake in the wait or a notification is
still to be made. -/
theorem work_covered (C : Counted M) (h : M.machine.Reachable m) (hwaiting : m.waiting ≠ []) :
    C.closed m.shared ∨ C.work m.shared ≤ m.woken.length + m.holding + m.due :=
  (C.inv_reachable h).covered hwaiting

end Counted

/-! ## Announcements -/

/-- Something that is told to every blocked thread at once, or that comes of a step of the waiting thread itself, and that a
thread sees at its first look. -/
structure Announced (M : Monitor N κ π) where
  announced : σ → Prop
  at_init : ¬announced N.init
  told : ∀ s s' a, N.Reachable s → N.next s a = some s' → announced s' → announced s ∨
    M.role a s = .between ∨ M.role a s ≠ .waiter ∧ M.notice a s = .everybody
  seen : ∀ s k, N.Reachable s → announced s → ∃ a, M.look k M.start s = .taken a

namespace Announced

variable {M : Monitor N κ π} (A : Announced M) {m t : State σ κ π}

/-- A thread that is blocked, or past its first look, has overtaken the announcement. -/
structure Inv (m : State σ κ π) : Prop where
  blocked : A.announced m.shared → m.waiting ≠ [] → m.overtaken = true
  holder : ∀ k p, A.announced m.shared → m.holder = some (k, p) → m.overtaken = true ∨ p = M.start

variable {A}

lemma Inv.failed (h : A.Inv m) (hr : N.Reachable m.shared) {k : κ} {p : π} (hholder : m.holder = some (k, p))
    (hlook : ∀ a, M.look k p m.shared ≠ .taken a) (hannounced : A.announced m.shared) : m.overtaken = true := by
  rcases h.holder k p hannounced hholder with hover | rfl
  · exact hover
  · obtain ⟨a, ha⟩ := A.seen _ k hr hannounced
    exact absurd ha (hlook a)

lemma Inv.op (h : A.Inv m) (hr : N.Reachable m.shared) {a : α} {s : σ} (hs : N.next m.shared a = some s)
    (hbetween : M.role a m.shared = .between → m.inside = 0) : A.Inv (m.notify (M.notice a m.shared) s) := by
  by_cases heverybody : M.notice a m.shared = .everybody
  · rw [heverybody]
    refine ⟨fun _ hwaiting => absurd rfl hwaiting, fun k p _ hp => .inl ?_⟩
    have hholder : m.holder = some (k, p) := hp
    simp [State.notify, hholder]
  rw [m.notify_of_ne heverybody]
  by_cases hnobody : m.inside = 0
  · simp only [State.inside, State.holding] at hnobody
    refine ⟨fun _ hwaiting => ?_, fun k p _ hp => ?_⟩
    · have hlength : m.waiting.length = 0 := by omega
      exact absurd (List.eq_nil_iff_length_eq_zero.mpr hlength) hwaiting
    · have hholder : m.holder = some (k, p) := hp
      simp [hholder] at hnobody
  · have hbefore : A.announced s → A.announced m.shared := by
      intro hannounced
      rcases A.told _ _ _ hr hs hannounced with hbefore | hcase | ⟨-, hcase⟩
      · exact hbefore
      · exact absurd (hbetween hcase) hnobody
      · exact absurd hcase heverybody
    exact ⟨fun hannounced => h.blocked (hbefore hannounced), fun k p hannounced => h.holder k p (hbefore hannounced)⟩

lemma Inv.moves (h : A.Inv m) (hr : N.Reachable m.shared) (hmove : Moves M m t) : A.Inv t := by
  cases hmove with
  | enter k _ _ => exact ⟨h.blocked, fun k' p' _ hp => .inr (Prod.mk.inj (Option.some.inj hp)).2.symm⟩
  | taken k p a s hholder hlook hs =>
    have hwaiter := M.waiter_of_taken _ _ _ _ hlook
    have hbefore : A.announced s → A.announced m.shared := fun hannounced =>
      (A.told _ _ _ hr hs hannounced).resolve_right (by simp [hwaiter])
    exact ⟨fun hannounced => h.blocked (hbefore hannounced), fun _ _ _ hp => absurd hp (by simp)⟩
  | looked k p p' hholder hlook =>
    exact ⟨h.blocked, fun _ _ hannounced _ => .inl (h.failed hr hholder (by simp [hlook]) hannounced)⟩
  | blocked k p hholder hlook =>
    exact ⟨fun hannounced _ => h.failed hr hholder (by simp [hlook]) hannounced, fun _ _ _ hp => absurd hp (by simp)⟩
  | left k p hholder hlook => exact ⟨h.blocked, fun _ _ _ hp => absurd hp (by simp)⟩
  | woken i k hk => exact ⟨fun hannounced _ => h.blocked hannounced fun hnil => by simp [hnil] at hk, h.holder⟩
  | resumed i k _ hk => exact ⟨h.blocked, fun k' p' _ hp => .inr (Prod.mk.inj (Option.some.inj hp)).2.symm⟩
  | unheard n _ _ _ => exact ⟨h.blocked, h.holder⟩
  | delivered n i k _ _ hk =>
    exact ⟨fun hannounced _ => h.blocked hannounced fun hnil => by simp [hnil] at hk, h.holder⟩
  | op a s hs _ hbetween _ => exact h.op hr hs hbetween

/-- A thread that is blocked after an announcement was between a look and the block when it was made. -/
theorem overtaken_of_blocked (A : Announced M) (h : M.machine.Reachable m) (hannounced : A.announced m.shared)
    (hwaiting : m.waiting ≠ []) : m.overtaken = true := by
  refine (h.invariant_of (I := A.Inv) (fun t ht => reachable_shared ht) ?_ fun t l u hr ht _ hnext =>
    ht.moves hr (moves_of_next hnext)).blocked hannounced hwaiting
  exact ⟨fun hannounced => absurd hannounced A.at_init, fun k p hannounced => absurd hannounced A.at_init⟩

end Announced

/-- Where everybody is notified under the mutex only, no announcement is overtaken. -/
theorem not_overtaken {M : Monitor N κ π} (hlocked : ∀ a s, M.notice a s = .everybody → M.role a s ≠ .unlocked)
    {m : State σ κ π} (h : M.machine.Reachable m) : m.overtaken = false := by
  refine h.invariant (I := fun m => m.overtaken = false) rfl fun m l t hm _ hnext => ?_
  cases moves_of_next hnext with
  | op a s _ hrole hbetween hfree =>
    unfold State.notify
    split
    · rename_i heverybody
      have hnone : m.holder = none := by
        cases hcase : M.role a m.shared with
        | waiter => exact absurd hcase hrole
        | between =>
          have hinside := hbetween hcase
          simp only [State.inside, State.holding] at hinside
          cases hholder : m.holder with
          | none => rfl
          | some p => simp [hholder] at hinside
        | locked => exact hfree hcase
        | unlocked => exact absurd hcase (hlocked _ _ heverybody)
      simp [hm, hnone]
    · exact hm
  | _ => exact hm

/-- Where no notification is made later, none is due. -/
theorem due_eq_zero {M : Monitor N κ π} (hnever : ∀ a s, M.notice a s ≠ .oneLater) {m : State σ κ π}
    (h : M.machine.Reachable m) : m.due = 0 := by
  refine h.invariant (I := fun m => m.due = 0) rfl fun m l t hm _ hnext => ?_
  cases moves_of_next hnext with
  | unheard n hdue _ _ => exact absurd (hm.symm.trans hdue) (by omega)
  | delivered n i k hdue _ _ => exact absurd (hm.symm.trans hdue) (by omega)
  | op a s _ _ _ _ =>
    rw [State.notify_due, hm]
    cases hcase : M.notice a m.shared with
    | oneLater => exact absurd hcase (hnever a m.shared)
    | _ => rfl
  | _ => exact hm

end

end ConditionVariable
