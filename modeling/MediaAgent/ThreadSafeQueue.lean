import MediaAgent.SocketThreads

/-!
# The bounded queue

`common/ThreadSafeQueue.h`. Every call holds the mutex from start to end, `pop` from the moment its wait is over, so
a call is one atomic step. `std::queue::pop` is undefined on an empty queue: a call that gets there has no result.
-/

namespace MediaAgent
open Transition

structure ThreadSafeQueue (T : Type) where
  maxSize : Nat
  queue : List T := []
  stopped : Bool := false
  dropCount : Nat := 0
  deriving DecidableEq, Repr

/-- `std::queue::pop` -/
def stdQueuePop {T : Type} : List T → Option (List T)
  | [] => none
  | _ :: rest => some rest

namespace ThreadSafeQueue

variable {T : Type}

def push (q : ThreadSafeQueue T) (item : T) : Option (Bool × ThreadSafeQueue T) :=
  if q.stopped then some (false, q)
  else if q.maxSize ≤ q.queue.length then
    (stdQueuePop q.queue).map fun rest =>
      (true, { q with queue := rest ++ [item], dropCount := q.dropCount + 1 })
  else some (true, { q with queue := q.queue ++ [item] })

/-- `pop` when it returns; none while it waits. A timeout of 0 is none at all. -/
def pop (q : ThreadSafeQueue T) (timeoutMs : Nat) : Option (Option T × ThreadSafeQueue T) :=
  match q.queue with
  | [] => if q.stopped || timeoutMs != 0 then some (none, q) else none
  | item :: rest => some (some item, { q with queue := rest })

def stop (q : ThreadSafeQueue T) : ThreadSafeQueue T := { q with stopped := true }

def reset (q : ThreadSafeQueue T) : ThreadSafeQueue T := { q with queue := [], stopped := false, dropCount := 0 }

def clear (q : ThreadSafeQueue T) : ThreadSafeQueue T := { q with queue := [] }

end ThreadSafeQueue

/-- The queue that a `SocketSender` makes: `send_queue_size` is an `int`, and the capacity a `size_t`. -/
def makeSendQueue (sendQueueSize : Int) : ThreadSafeQueue Bytes where
  maxSize := (sendQueueSize % 2 ^ 64).toNat

lemma makeSendQueue_pos {sendQueueSize : Int} (hint : -(2 ^ 31) ≤ sendQueueSize ∧ sendQueueSize < 2 ^ 31) :
    0 < (makeSendQueue sendQueueSize).maxSize ↔ sendQueueSize ≠ 0 := by
  simp only [makeSendQueue]
  omega

/-! ## Runs of calls -/

/-- How an element leaves the queue. -/
inductive Departure
  | popped
  | dropped
  | cleared
  deriving DecidableEq, Repr

/-- A queue; the items that it has accepted and those that have left since the last `reset`; and whether the
underlying queue has been popped while it was empty. -/
structure QueueState (T : Type) where
  queue : ThreadSafeQueue T
  accepted : List T := []
  departed : List (T × Departure) := []
  poppedEmpty : Bool := false

inductive QueueCall (T : Type)
  | push (item : T)
  | pop (timeoutMs : Nat)
  | clear
  | reset
  | stop

namespace QueueState

variable {T : Type}

def push (s : QueueState T) (item : T) : QueueState T :=
  match s.queue.push item with
  | none => { s with poppedEmpty := true }
  | some (false, queue) => { s with queue := queue }
  | some (true, queue) =>
    { s with
      queue := queue
      accepted := s.accepted ++ [item]
      departed := s.departed ++ (s.queue.queue.take (queue.dropCount - s.queue.dropCount)).map (·, .dropped) }

def pop (s : QueueState T) (timeoutMs : Nat) : Option (QueueState T) :=
  (s.queue.pop timeoutMs).map fun (item, queue) =>
    { s with queue := queue, departed := s.departed ++ item.toList.map (·, .popped) }

def clear (s : QueueState T) : QueueState T :=
  { s with queue := s.queue.clear, departed := s.departed ++ s.queue.queue.map (·, .cleared) }

/-- How many elements have left in a way. -/
def count (s : QueueState T) (way : Departure) : Nat := s.departed.countP (·.2 == way)

/-- What the queue promises: the underlying queue is not popped while it is empty, its size is bounded, the elements
leave in the order in which they came, and none is unaccounted for. -/
structure Sound (s : QueueState T) : Prop where
  defined : s.poppedEmpty = false
  bounded : s.queue.queue.length ≤ s.queue.maxSize
  ordered : s.accepted = s.departed.map Prod.fst ++ s.queue.queue
  balance : s.accepted.length =
    s.count .popped + s.queue.dropCount + s.count .cleared + s.queue.queue.length

end QueueState

/-- A new queue under any calls; nothing follows a step that is undefined. -/
def queueSystem (T : Type) (maxSize : Nat) : Machine (QueueState T) (QueueCall T) where
  init := { queue := { maxSize := maxSize } }
  next s c :=
    if s.poppedEmpty then none
    else
      match c with
      | .push item => some (s.push item)
      | .pop timeoutMs => s.pop timeoutMs
      | .clear => some s.clear
      | .reset => some { queue := s.queue.reset }
      | .stop => some { s with queue := s.queue.stop }

namespace QueueState

variable {T : Type} {s : QueueState T} {maxSize : Nat}

structure Inv (maxSize : Nat) (s : QueueState T) : Prop where
  capacity : s.queue.maxSize = maxSize
  defined : s.poppedEmpty = false
  bounded : s.queue.queue.length ≤ maxSize
  ordered : s.accepted = s.departed.map Prod.fst ++ s.queue.queue
  dropCount : s.queue.dropCount = s.count .dropped

/-- Every element that has left has left in one of the three ways. -/
lemma length_departed (s : QueueState T) :
    s.departed.length = s.count .popped + s.count .dropped + s.count .cleared := by
  unfold count
  induction s.departed with
  | nil => rfl
  | cons d departed ih =>
    simp only [List.length_cons, List.countP_cons, ih]
    cases d.2 <;> simp <;> omega

lemma Inv.sound (h : s.Inv maxSize) : s.Sound := by
  refine ⟨h.defined, ?_, h.ordered, ?_⟩
  · rw [h.capacity]
    exact h.bounded
  · rw [h.ordered, List.length_append, List.length_map, s.length_departed, h.dropCount]

/-- How a mapped list of departures counts. -/
lemma countP_departures (items : List T) (way way' : Departure) :
    (items.map (·, way)).countP (·.2 == way') = if way = way' then items.length else 0 := by
  rw [List.countP_map]
  by_cases hway : way = way'
  · rw [if_pos hway, List.countP_eq_length.mpr]
    simp [hway]
  · rw [if_neg hway, List.countP_eq_zero.mpr]
    simp [hway]

lemma map_departures (items : List T) (way : Departure) : (items.map (·, way)).map Prod.fst = items := by
  rw [List.map_map]
  exact List.map_id' items

lemma Inv.push (h : s.Inv maxSize) (hpos : 0 < maxSize) (item : T) : (s.push item).Inv maxSize := by
  have hsize := h.capacity
  have hbounded := h.bounded
  unfold QueueState.push ThreadSafeQueue.push
  by_cases hstopped : s.queue.stopped = true
  · rw [if_pos hstopped]
    exact h
  · rw [if_neg hstopped]
    by_cases hfull : s.queue.maxSize ≤ s.queue.queue.length
    · rw [if_pos hfull]
      have hordered := h.ordered
      have hdropped := h.dropCount
      cases hqueue : s.queue.queue with
      | nil =>
        -- a full queue is not empty, since the capacity is not 0
        rw [hqueue, List.length_nil] at hfull
        omega
      | cons front rest =>
        rw [hqueue] at hordered hbounded
        rw [List.length_cons] at hbounded
        refine ⟨hsize, h.defined, ?_, ?_, ?_⟩
        · simp only [stdQueuePop, Option.map_some, List.length_append, List.length_singleton]
          omega
        · simp [stdQueuePop, hordered]
        · simp [stdQueuePop, count, List.countP_append, hdropped]
    · rw [if_neg hfull]
      refine ⟨hsize, h.defined, ?_, ?_, ?_⟩
      · simp only [List.length_append, List.length_singleton]
        omega
      · simp [h.ordered]
      · simp [count, h.dropCount]

lemma Inv.pop (h : s.Inv maxSize) {timeoutMs : Nat} {t : QueueState T} (hn : s.pop timeoutMs = some t) :
    t.Inv maxSize := by
  have hordered := h.ordered
  have hbounded := h.bounded
  have hdropped := h.dropCount
  unfold QueueState.pop ThreadSafeQueue.pop at hn
  cases hqueue : s.queue.queue with
  | nil =>
    rw [hqueue] at hn
    dsimp only at hn
    split at hn
    · cases hn
      refine ⟨h.capacity, h.defined, h.bounded, ?_, ?_⟩
      · simpa using hordered
      · simpa [count] using hdropped
    · cases hn
  | cons front rest =>
    rw [hqueue] at hn hordered hbounded
    rw [List.length_cons] at hbounded
    cases hn
    refine ⟨h.capacity, h.defined, ?_, ?_, ?_⟩
    · dsimp only
      omega
    · simp [hordered]
    · simp [count, List.countP_append, hdropped]

lemma Inv.clear (h : s.Inv maxSize) : s.clear.Inv maxSize := by
  refine ⟨h.capacity, h.defined, Nat.zero_le _, ?_, ?_⟩
  · dsimp only [QueueState.clear, ThreadSafeQueue.clear]
    rw [h.ordered, List.map_append, map_departures, List.append_nil]
  · dsimp only [QueueState.clear, ThreadSafeQueue.clear, count]
    rw [List.countP_append, countP_departures, if_neg (by decide), Nat.add_zero]
    exact h.dropCount

/-- With a capacity of at least one every call keeps the invariant. -/
lemma Inv.next (h : s.Inv maxSize) (hpos : 0 < maxSize) {c : QueueCall T} {t : QueueState T}
    (hn : (queueSystem T maxSize).next s c = some t) : t.Inv maxSize := by
  simp only [queueSystem, h.defined, Bool.false_eq_true, if_false] at hn
  cases c with
  | push item =>
    cases hn
    exact h.push hpos item
  | pop timeoutMs => exact h.pop hn
  | clear =>
    cases hn
    exact h.clear
  | reset =>
    cases hn
    exact ⟨h.capacity, rfl, Nat.zero_le _, rfl, rfl⟩
  | stop =>
    cases hn
    exact ⟨h.capacity, rfl, h.bounded, h.ordered, h.dropCount⟩

/-- Without capacity the first push pops an empty queue. -/
lemma not_sound_push (item : T) :
    ∃ s, (queueSystem T 0).Reachable s ∧ ¬s.Sound := by
  refine ⟨{ queue := { maxSize := 0 }, poppedEmpty := true }, Machine.Runs.next (a := .push item) .refl rfl, fun h => ?_⟩
  cases h.defined

end QueueState

/-- Every run of calls keeps what the queue promises exactly if the capacity is not 0. -/
theorem queue_sound_iff (T : Type) [Inhabited T] (maxSize : Nat) :
    (∀ s, (queueSystem T maxSize).Reachable s → s.Sound) ↔ 0 < maxSize := by
  constructor
  · intro h
    by_contra hzero
    obtain rfl : maxSize = 0 := by omega
    obtain ⟨s, hs, hbad⟩ := QueueState.not_sound_push (default : T)
    exact hbad (h s hs)
  · intro hpos s hs
    have hinv : s.Inv maxSize := hs.invariant ⟨rfl, rfl, Nat.zero_le _, rfl, rfl⟩ fun _ _ _ ht _ hn => ht.next hpos hn
    exact hinv.sound

/-- A `send_queue_size` of 0 is accepted, and the first frame that is sent pops an empty queue. -/
theorem not_queue_sound_zero :
    ¬∀ sendQueueSize s, (queueSystem Bytes (makeSendQueue sendQueueSize).maxSize).Reachable s → s.Sound := by
  intro h
  obtain ⟨s, hs, hbad⟩ := QueueState.not_sound_push ([1] : Bytes)
  exact hbad (h 0 s hs)

/-! ## The queue of the socket -/

namespace SocketState

def sendQueue (s : SocketState) : ThreadSafeQueue Bytes where
  maxSize := s.maxSize
  queue := s.queue
  stopped := s.queueStopped
  dropCount := s.dropCount

/-- A frame is pushed into the queue of a sender that has room for one. -/
lemma sendFrame_eq_push {s : SocketState} (hpos : 0 < s.maxSize) (data : Bytes) :
    s.sendQueue.push data = some (!s.queueStopped, (s.sendFrame data).sendQueue) := by
  unfold ThreadSafeQueue.push sendFrame sendQueue
  by_cases hstopped : s.queueStopped = true
  · simp [hstopped]
  · rw [if_neg hstopped, if_neg hstopped]
    by_cases hfull : s.maxSize ≤ s.queue.length
    · rw [if_pos hfull, if_pos hfull]
      cases hqueue : s.queue with
      | nil =>
        rw [hqueue, List.length_nil] at hfull
        omega
      | cons front rest => simp [stdQueuePop, hstopped]
    · rw [if_neg hfull, if_neg hfull]
      simp [hstopped]

end SocketState

end MediaAgent
