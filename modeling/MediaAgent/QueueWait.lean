import MediaAgent.Library.ConditionVariable
import MediaAgent.ThreadSafeQueue

/-!
# The wait of the bounded queue

`pop` of `common/ThreadSafeQueue.h` with its condition variable, for any number of threads that pop. `push` unlocks the
mutex before it calls `notify_one`, so the call is a step of its own; `stop` calls `notify_all` under the mutex. A
time-out wakes a blocked thread, which leaves after it has seen the predicate fail once more.
-/

namespace MediaAgent
open Transition ConditionVariable

/-- The places of a thread that evaluates the predicate of `pop`. -/
inductive PopLook
  | predicate
  | failed
  deriving DecidableEq, Repr

/-- `queue_` and `stopped_` change under the mutex only. -/
def queueMonitor (T : Type) (maxSize : Nat) : Monitor (queueSystem T maxSize) Nat PopLook where
  start := .predicate
  look timeoutMs p s :=
    match p with
    | .predicate => if !s.queue.queue.isEmpty || s.queue.stopped then .taken (.pop timeoutMs) else .next .failed
    | .failed => .wait
  role c _ :=
    match c with
    | .pop _ => .waiter
    | _ => .locked
  notice c s :=
    match c with
    | .push _ => if s.queue.stopped then .nobody else .oneLater
    | .stop => .everybody
    | .pop _ | .clear | .reset => .nobody
  enters _ _ _ := true
  lockedDelivery := false
  waiter_of_taken timeoutMs p s c h := by
    cases p with
    | predicate =>
      dsimp only at h
      split at h
      · cases h
        rfl
      · cases h
    | failed => cases h

namespace QueueState

variable {T : Type} {maxSize : Nat} {s t : QueueState T}

lemma next_eq_some {c : QueueCall T} (h : (queueSystem T maxSize).next s c = some t) :
    match c with
    | .push item => t = s.push item
    | .pop timeoutMs => s.pop timeoutMs = some t
    | .clear => t = s.clear
    | .reset => t = { queue := s.queue.reset }
    | .stop => t = { s with queue := s.queue.stop } := by
  unfold queueSystem at h
  dsimp only at h
  split at h
  · cases h
  · cases c with
    | pop timeoutMs => exact h
    | _ => exact (Option.some.inj h).symm

lemma length_push_le (s : QueueState T) (item : T) :
    (s.push item).queue.queue.length ≤ s.queue.queue.length + 1 := by
  unfold QueueState.push ThreadSafeQueue.push
  by_cases hstopped : s.queue.stopped = true
  · rw [if_pos hstopped]
    exact Nat.le_succ _
  · rw [if_neg hstopped]
    by_cases hfull : s.queue.maxSize ≤ s.queue.queue.length
    · rw [if_pos hfull]
      cases hqueue : s.queue.queue with
      | nil => simp [stdQueuePop, hqueue]
      | cons front rest => simp [stdQueuePop]
    · rw [if_neg hfull]
      simp

lemma stopped_push (s : QueueState T) (item : T) : (s.push item).queue.stopped = s.queue.stopped := by
  unfold QueueState.push ThreadSafeQueue.push
  by_cases hstopped : s.queue.stopped = true
  · rw [if_pos hstopped]
  · rw [if_neg hstopped]
    by_cases hfull : s.queue.maxSize ≤ s.queue.queue.length
    · rw [if_pos hfull]
      cases hqueue : s.queue.queue <;> simp [stdQueuePop]
    · rw [if_neg hfull]

lemma pop_eq_some {timeoutMs : Nat} (h : s.pop timeoutMs = some t) :
    t.queue.stopped = s.queue.stopped ∧
      (s.queue.queue = [] ∧ t.queue.queue = [] ∨ t.queue.queue.length + 1 = s.queue.queue.length) := by
  obtain ⟨r, hr, rfl⟩ := Option.map_eq_some_iff.mp h
  unfold ThreadSafeQueue.pop at hr
  split at hr
  · rename_i hqueue
    obtain ⟨-, hr⟩ := Option.ite_none_right_eq_some.mp hr
    cases hr
    exact ⟨rfl, .inl ⟨hqueue, hqueue⟩⟩
  · rename_i item rest hqueue
    cases hr
    exact ⟨rfl, .inr (by simp [hqueue])⟩

/-- An item is counted for each thread that it is to wake; a stopped queue wakes them all. -/
def counted (T : Type) (maxSize : Nat) : Counted (queueMonitor T maxSize) where
  work s := s.queue.queue.length
  missed _ p s :=
    match p with
    | .predicate => 0
    | .failed => s.queue.queue.length
  closed s := s.queue.stopped = true
  missed_start _ _ := rfl
  next s k p p' _ hlook := by
    cases p with
    | predicate =>
      simp only [queueMonitor] at hlook
      split at hlook
      · cases hlook
      · rename_i hempty
        cases hlook
        simp only [Bool.or_eq_true, Bool.not_eq_true', not_or, Bool.not_eq_false, List.isEmpty_iff] at hempty
        simp [hempty.1]
    | failed => cases hlook
  wait s k p _ hlook := by
    cases p with
    | predicate =>
      simp only [queueMonitor] at hlook
      split at hlook <;> cases hlook
    | failed => exact Nat.le_refl _
  taken s s' k p a _ hlook hnext := by
    cases p with
    | predicate =>
      simp only [queueMonitor] at hlook
      split at hlook
      · rename_i hready
        cases hlook
        obtain ⟨hstopped, hqueue⟩ := pop_eq_some (next_eq_some hnext)
        by_cases hclosed : s.queue.stopped = true
        · exact .inl (hstopped.trans hclosed)
        · refine .inr ⟨hclosed, ?_⟩
          rcases hqueue with ⟨hempty, -⟩ | hlength
          · simp [hempty, hclosed] at hready
          · omega
      · cases hlook
    | failed => cases hlook
  op s s' a _ hnext _ hnotice := by
    have hresult := next_eq_some hnext
    cases a with
    | push item =>
      dsimp only at hresult
      subst hresult
      by_cases hclosed : s.queue.stopped = true
      · exact .inl ((s.stopped_push item).trans hclosed)
      · refine .inr (.inr ⟨hclosed, ?_⟩)
        simp only [queueMonitor, hclosed]
        exact s.length_push_le item
    | pop timeoutMs =>
      obtain ⟨hstopped, hqueue⟩ := pop_eq_some hresult
      by_cases hclosed : s.queue.stopped = true
      · exact .inl (hstopped.trans hclosed)
      · refine .inr (.inr ⟨hclosed, ?_⟩)
        rcases hqueue with ⟨hempty, hempty'⟩ | hlength
        · simp [hempty']
        · omega
    | clear =>
      obtain rfl : s' = s.clear := hresult
      exact .inr (.inl rfl)
    | reset =>
      obtain rfl : s' = { queue := s.queue.reset } := hresult
      exact .inr (.inl rfl)
    | stop => exact absurd rfl hnotice
  unlocked s s' a _ _ hrole := by
    cases a <;> cases hrole

def announced (T : Type) (maxSize : Nat) : Announced (queueMonitor T maxSize) where
  announced s := s.queue.stopped = true
  at_init := Bool.false_ne_true
  told s s' a _ hnext hstopped := by
    have hresult := next_eq_some hnext
    cases a with
    | push item =>
      dsimp only at hresult
      subst hresult
      exact .inl ((s.stopped_push item).symm.trans hstopped)
    | pop timeoutMs => exact .inl ((pop_eq_some hresult).1.symm.trans hstopped)
    | clear =>
      obtain rfl : s' = s.clear := hresult
      exact .inl hstopped
    | reset =>
      obtain rfl : s' = { queue := s.queue.reset } := hresult
      exact absurd hstopped Bool.false_ne_true
    | stop => exact .inr (.inr ⟨Role.noConfusion, rfl⟩)
  seen s k _ hstopped := ⟨.pop k, by simp [queueMonitor, hstopped]⟩

end QueueState

/-- No item waits for a thread that sleeps: while threads are blocked in `pop` the queue is not stopped, and for each
item a thread is awake in `pop` or a `notify_one` is still to be called. -/
theorem pop_wakes (T : Type) (maxSize : Nat) {m : State (QueueState T) Nat PopLook}
    (h : (queueMonitor T maxSize).machine.Reachable m) (hwaiting : m.waiting ≠ []) :
    m.shared.queue.stopped = false ∧ m.shared.queue.queue.length ≤ m.woken.length + m.holding + m.due := by
  have hrunning : ¬m.shared.queue.stopped = true := fun hstopped => by
    have hover := (QueueState.announced T maxSize).overtaken_of_blocked h hstopped hwaiting
    have hnever : m.overtaken = false := not_overtaken (fun c s _ => by cases c <;> exact Role.noConfusion) h
    exact absurd (hnever.symm.trans hover) (by decide)
  exact ⟨Bool.eq_false_iff.mpr hrunning, ((QueueState.counted T maxSize).work_covered h hwaiting).resolve_left hrunning⟩

/-- Two threads are blocked, and one of two items has been announced. -/
def twoPoppersRun : List (Label (QueueCall Nat) Nat) :=
  [.enter 0, .look, .look, .enter 100, .look, .look, .op (.push 7), .op (.push 8), .deliver 0]

theorem pop_wakes_twoPoppers : ∃ m, (queueMonitor Nat 4).machine.Reachable m ∧ m.waiting = [100] ∧
    m.shared.queue.queue.length = 2 ∧ 2 ≤ m.woken.length + m.holding + m.due := by
  obtain ⟨m, hm, hp⟩ := Machine.reachable_of_exec_any (queueMonitor Nat 4).machine twoPoppersRun
    (fun m => m.waiting == [100] && m.shared.queue.queue == [7, 8]) (by decide)
  simp only [Bool.and_eq_true, beq_iff_eq] at hp
  have hlength : m.shared.queue.queue.length = 2 := by rw [hp.2]; rfl
  have hcovered := (pop_wakes Nat 4 hm (by simp [hp.1])).2
  exact ⟨m, hm, hp.1, hlength, by omega⟩

end MediaAgent
