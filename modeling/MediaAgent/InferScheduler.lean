import MediaAgent.ConfigTypes
import MediaAgent.Library.Transition

/-!
# The inference scheduler

`RoundRobinInferScheduler` of `pipeline/InferScheduler.cpp`. Every call holds the scheduler's
mutex, so a call is one step; `acquireTask` is one evaluation of `tryAcquireLocked`, which it
repeats while it waits. A buffer is known by its identity, and what the environment makes each
of its `selectFrameForInference` calls return is part of the step.
-/

namespace MediaAgent
open Std TreeMaps Transition

/-- The identity of a `shared_ptr<IStreamBuffer>`. -/
abbrev BufferId := Nat

structure InferTask where
  streamId : Bytes
  config : StreamConfig
  buffer : BufferId
  frame : FrameBundle
  deriving DecidableEq, Repr

namespace RoundRobinInferScheduler

structure Entry where
  config : StreamConfig := {}
  buffer : Option BufferId := none
  inflight : Bool := false
  deriving DecidableEq, Repr

end RoundRobinInferScheduler

open RoundRobinInferScheduler in
structure RoundRobinInferScheduler where
  entries : TreeMap Bytes Entry := ∅
  order : List Bytes := []
  cursor : Nat := 0
  stopped : Bool := false

namespace RoundRobinInferScheduler

/-- `entries_[stream_id]` makes an entry that is not in flight when there is none. -/
def upsertStream (s : RoundRobinInferScheduler) (streamId : Bytes) (config : StreamConfig)
    (buffer : Option BufferId) : RoundRobinInferScheduler :=
  let entry := s.entries.getD streamId {}
  { s with
    entries := s.entries.insert streamId { entry with config := config, buffer := buffer }
    order := if streamId ∈ s.order then s.order else s.order ++ [streamId] }

def removeStream (s : RoundRobinInferScheduler) (streamId : Bytes) : RoundRobinInferScheduler :=
  let order := s.order.filter (· != streamId)
  { s with
    entries := s.entries.erase streamId
    order := order
    cursor := if s.cursor ≥ order.length then 0 else s.cursor }

/-- One turn of the loop of `tryAcquireLocked`. -/
def tryEntry (s : RoundRobinInferScheduler) (offered : Nat → BufferId → Option FrameBundle) (offset : Nat) :
    Option (InferTask × RoundRobinInferScheduler) :=
  let total := s.order.length
  let index := (s.cursor + offset) % total
  match s.order[index]? with
  | none => none
  | some streamId =>
    match s.entries[streamId]? with
    | none => none
    | some entry =>
      if entry.inflight then none
      else
        match entry.buffer with
        | none => none
        | some buffer =>
          match offered offset buffer with
          | none => none
          | some frame =>
            some (⟨streamId, entry.config, buffer, frame⟩,
              { s with
                entries := s.entries.insert streamId { entry with inflight := true }
                cursor := (index + 1) % total })

def tryAcquireLocked (s : RoundRobinInferScheduler) (offered : Nat → BufferId → Option FrameBundle) :
    Option (InferTask × RoundRobinInferScheduler) :=
  (List.range s.order.length).findSome? (s.tryEntry offered)

def acquireTask (s : RoundRobinInferScheduler) (offered : Nat → BufferId → Option FrameBundle) :
    Option (InferTask × RoundRobinInferScheduler) :=
  if s.stopped then none else s.tryAcquireLocked offered

/-- `completeTask` and `cancelTask` do not read their frame id. -/
def completeTask (s : RoundRobinInferScheduler) (streamId : Bytes) : RoundRobinInferScheduler :=
  match s.entries[streamId]? with
  | none => s
  | some entry => { s with entries := s.entries.insert streamId { entry with inflight := false } }

def cancelTask (s : RoundRobinInferScheduler) (streamId : Bytes) : RoundRobinInferScheduler :=
  s.completeTask streamId

def stop (s : RoundRobinInferScheduler) : RoundRobinInferScheduler := { s with stopped := true }

end RoundRobinInferScheduler

/-! ## The system of the scheduler and the task holders -/

/-- The scheduler and the tasks that have been acquired and not finished. -/
structure SchedulerState where
  scheduler : RoundRobinInferScheduler := {}
  tasks : List InferTask := []

inductive SchedulerAction
  | upsertStream (streamId : Bytes) (config : StreamConfig) (buffer : Option BufferId)
  | removeStream (streamId : Bytes)
  | acquireTask (offered : Nat → BufferId → Option FrameBundle)
  | completeTask (task : Nat)
  | cancelTask (task : Nat)
  | stop

/-- A task is finished by its holder with its stream id. -/
def schedulerSystem : Machine SchedulerState SchedulerAction where
  init := {}
  next s
    | .upsertStream id config buffer =>
      some { s with scheduler := s.scheduler.upsertStream id config buffer }
    | .removeStream id => some { s with scheduler := s.scheduler.removeStream id }
    | .acquireTask offered =>
      match s.scheduler.acquireTask offered with
      | none => some s
      | some (task, scheduler) => some { scheduler := scheduler, tasks := s.tasks ++ [task] }
    | .completeTask i =>
      (s.tasks[i]?).map fun task =>
        { scheduler := s.scheduler.completeTask task.streamId, tasks := s.tasks.eraseIdx i }
    | .cancelTask i =>
      (s.tasks[i]?).map fun task =>
        { scheduler := s.scheduler.cancelTask task.streamId, tasks := s.tasks.eraseIdx i }
    | .stop => some { s with scheduler := s.scheduler.stop }

/-- At most one unfinished task for each buffer. -/
def OneTaskPerBuffer (s : SchedulerState) : Prop := s.tasks.Pairwise fun t u => t.buffer ≠ u.buffer

/-- The buffer of an upsert is not registered under another id, and has no unfinished task
unless the entry is in flight; a task is finished when the entry under its id does not hold the
buffer of another unfinished task. -/
def keepsOneTask (s : SchedulerState) : SchedulerAction → Bool
  | .upsertStream id _ (some buffer) =>
    (s.scheduler.entries.toList.all fun e => e.1 == id || e.2.buffer != some buffer) &&
      ((s.tasks.all fun t => t.buffer != buffer) || (s.scheduler.entries.getD id {}).inflight)
  | .completeTask i | .cancelTask i =>
    match s.tasks[i]? with
    | none => true
    | some task => (s.tasks.eraseIdx i).all fun t =>
        (s.scheduler.entries.getD task.streamId {}).buffer != some t.buffer
  | _ => true

/-! ## What a call does -/

namespace RoundRobinInferScheduler

/-- A granted task is for an entry that was not in flight and is in flight afterwards. -/
lemma acquireTask_eq_some {s s' : RoundRobinInferScheduler} {t : InferTask}
    {offered : Nat → BufferId → Option FrameBundle} (h : s.acquireTask offered = some (t, s')) :
    ∃ entry offset, s.entries[t.streamId]? = some entry ∧ entry.inflight = false ∧
      entry.buffer = some t.buffer ∧ offered offset t.buffer = some t.frame ∧
      s'.entries = s.entries.insert t.streamId { entry with inflight := true } ∧
      s'.order = s.order ∧ s'.stopped = s.stopped := by
  simp only [acquireTask, Option.ite_none_left_eq_some, tryAcquireLocked] at h
  obtain ⟨offset, -, he⟩ := List.exists_of_findSome?_eq_some h.2
  unfold tryEntry at he
  dsimp only at he
  split at he
  · cases he
  · split at he
    · cases he
    · rename_i entry hentry
      split at he
      · cases he
      · rename_i hidle
        split at he
        · cases he
        · rename_i buffer hbuffer
          split at he
          · cases he
          · rename_i frame hframe
            cases he
            exact ⟨entry, offset, hentry, by simpa using hidle, hbuffer, hframe, rfl, rfl, rfl⟩

/-- The scan reaches every position of the order. -/
lemma exists_offset (cursor : Nat) {total i : Nat} (hi : i < total) :
    ∃ offset < total, (cursor + offset) % total = i := by
  have hc := Nat.mod_lt cursor (show 0 < total by omega)
  by_cases hle : cursor % total ≤ i
  · refine ⟨i - cursor % total, by omega, ?_⟩
    rw [← Nat.mod_add_mod, Nat.add_sub_cancel' hle, Nat.mod_eq_of_lt hi]
  · refine ⟨i + total - cursor % total, by omega, ?_⟩
    rw [← Nat.mod_add_mod, Nat.add_sub_cancel' (by omega), Nat.add_mod_right, Nat.mod_eq_of_lt hi]

/-- Only this buffer has a frame to select. -/
def offerOnly (buffer : BufferId) : Nat → BufferId → Option FrameBundle :=
  fun _ b => if b = buffer then some {} else none

/-- A task is granted when an entry that is not in flight has a buffer with a frame. -/
lemma exists_granted {s : RoundRobinInferScheduler} {id : Bytes} {entry : Entry} {buffer : BufferId}
    {offered : Nat → BufferId → Option FrameBundle} (hrun : s.stopped = false) (hid : id ∈ s.order)
    (he : s.entries[id]? = some entry) (hidle : entry.inflight = false) (hb : entry.buffer = some buffer)
    (hoffered : ∀ offset, (offered offset buffer).isSome = true) : ∃ t s', s.acquireTask offered = some (t, s') := by
  cases h : s.acquireTask offered with
  | some r => exact ⟨r.1, r.2, rfl⟩
  | none =>
    obtain ⟨i, hi, hget⟩ := List.mem_iff_getElem.mp hid
    obtain ⟨offset, hoffset, hindex⟩ := exists_offset s.cursor hi
    obtain ⟨frame, hframe⟩ := Option.isSome_iff_exists.mp (hoffered offset)
    simp only [acquireTask, hrun, Bool.false_eq_true, ite_false, tryAcquireLocked,
      List.findSome?_eq_none_iff] at h
    have hnone := h offset (List.mem_range.mpr hoffset)
    simp [tryEntry, hindex, List.getElem?_eq_getElem hi, hget, he, hidle, hb, hframe] at hnone

/-- A registered entry that is not in flight and whose buffer has a frame gets a task, or another
entry with the same buffer does. -/
lemma exists_acquireTask {s : RoundRobinInferScheduler} {id : Bytes} {entry : Entry} {buffer : BufferId}
    (hrun : s.stopped = false) (hid : id ∈ s.order) (he : s.entries[id]? = some entry)
    (hidle : entry.inflight = false) (hb : entry.buffer = some buffer) :
    ∃ t s', s.acquireTask (offerOnly buffer) = some (t, s') ∧ t.buffer = buffer := by
  have hoffered : ∀ offset, (offerOnly buffer offset buffer).isSome = true := fun offset => by simp [offerOnly]
  obtain ⟨t, s', h⟩ := exists_granted hrun hid he hidle hb hoffered
  obtain ⟨_, _, -, -, -, hframe, -⟩ := acquireTask_eq_some h
  refine ⟨t, s', h, ?_⟩
  unfold offerOnly at hframe
  split at hframe
  · assumption
  · cases hframe

lemma lookup_completeTask (s : RoundRobinInferScheduler) (streamId k : Bytes) :
    (s.completeTask streamId).entries[k]? =
      if streamId = k then (s.entries[k]?).map (fun e => { e with inflight := false })
      else s.entries[k]? := by
  unfold completeTask
  cases h : s.entries[streamId]? with
  | none =>
    by_cases hk : streamId = k
    · subst k
      simp [h]
    · simp [hk]
  | some e =>
    dsimp only
    rw [lookup_insert]
    by_cases hk : streamId = k
    · subst k
      simp [h]
    · simp [hk]

lemma completeTask_order (s : RoundRobinInferScheduler) (streamId : Bytes) :
    (s.completeTask streamId).order = s.order ∧ (s.completeTask streamId).stopped = s.stopped := by
  unfold completeTask
  split <;> exact ⟨rfl, rfl⟩

end RoundRobinInferScheduler

/-! ## Runs that keep one task per buffer -/

open RoundRobinInferScheduler

structure SchedulerInv (s : SchedulerState) : Prop where
  one : OneTaskPerBuffer s
  inflight : ∀ (id : Bytes) (e : Entry), s.scheduler.entries[id]? = some e → ∀ t ∈ s.tasks,
    e.buffer = some t.buffer → e.inflight = true
  apart : ∀ (id id' : Bytes) (e e' : Entry) (buffer : BufferId), s.scheduler.entries[id]? = some e →
    s.scheduler.entries[id']? = some e' → e.buffer = some buffer → e'.buffer = some buffer → id = id'

/-- What the guard says of an upsert that installs a buffer. -/
lemma keepsOneTask_upsertStream {s : SchedulerState} {id : Bytes} {config : StreamConfig} {b : BufferId} :
    keepsOneTask s (.upsertStream id config (some b)) = true ↔
      (∀ (id' : Bytes) (e : Entry), s.scheduler.entries[id']? = some e → e.buffer = some b → id' = id) ∧
      ((∃ t ∈ s.tasks, t.buffer = b) → (s.scheduler.entries.getD id {}).inflight = true) := by
  simp only [keepsOneTask, Bool.and_eq_true, List.all_eq_true, Bool.or_eq_true, beq_iff_eq, bne_iff_ne]
  refine and_congr ⟨fun h id' e he hb => ?_, fun h e he => ?_⟩ ⟨fun h ⟨t, ht, hb⟩ => ?_, fun h => ?_⟩
  · have hmem := TreeMap.mem_toList_iff_getElem?_eq_some.mpr he
    exact (h _ hmem).resolve_right (fun hne => hne hb)
  · have hlookup := TreeMap.mem_toList_iff_getElem?_eq_some.mp he
    by_cases hb : e.2.buffer = some b
    · exact .inl (h _ _ hlookup hb)
    · exact .inr hb
  · exact h.resolve_left (fun hne => hne t ht hb)
  · by_cases hex : ∃ t ∈ s.tasks, t.buffer = b
    · exact .inr (h hex)
    · exact .inl fun t ht hb => hex ⟨t, ht, hb⟩

lemma SchedulerInv.upsertStream {s : SchedulerState} (h : SchedulerInv s) (id : Bytes)
    (config : StreamConfig) (buffer : Option BufferId)
    (hguard : keepsOneTask s (.upsertStream id config buffer) = true) :
    SchedulerInv { s with scheduler := s.scheduler.upsertStream id config buffer } := by
  have hlookup : ∀ (k : Bytes) (e : Entry), (s.scheduler.upsertStream id config buffer).entries[k]? = some e →
      (k = id ∧ e.buffer = buffer ∧ e.inflight = (s.scheduler.entries.getD id {}).inflight) ∨
        (k ≠ id ∧ s.scheduler.entries[k]? = some e) := by
    intro k e he
    simp only [RoundRobinInferScheduler.upsertStream, lookup_insert] at he
    split at he
    · cases he
      exact .inl ⟨Eq.symm ‹_›, rfl, rfl⟩
    · exact .inr ⟨Ne.symm ‹_›, he⟩
  refine ⟨h.one, fun k e he t ht hb => ?_, fun k k' e e' b he he' hb hb' => ?_⟩
  · rcases hlookup k e he with ⟨-, hbuffer, hinflight⟩ | ⟨-, hold⟩
    · rw [hbuffer] at hb
      subst buffer
      rw [hinflight]
      exact (keepsOneTask_upsertStream.mp hguard).2 ⟨t, ht, rfl⟩
    · exact h.inflight k e hold t ht hb
  · rcases hlookup k e he with ⟨rfl, hbuffer, -⟩ | ⟨hk, hold⟩ <;>
      rcases hlookup k' e' he' with ⟨rfl, hbuffer', -⟩ | ⟨hk', hold'⟩
    · rfl
    · rw [hb] at hbuffer
      subst buffer
      exact absurd ((keepsOneTask_upsertStream.mp hguard).1 k' e' hold' hb') hk'
    · rw [hb'] at hbuffer'
      subst buffer
      exact absurd ((keepsOneTask_upsertStream.mp hguard).1 k e hold hb) hk
    · exact h.apart k k' e e' b hold hold' hb hb'

lemma SchedulerInv.removeStream {s : SchedulerState} (h : SchedulerInv s) (id : Bytes) :
    SchedulerInv { s with scheduler := s.scheduler.removeStream id } := by
  have hlookup : ∀ (k : Bytes) (e : Entry), (s.scheduler.removeStream id).entries[k]? = some e →
      s.scheduler.entries[k]? = some e := by
    intro k e he
    simp only [RoundRobinInferScheduler.removeStream, lookup_erase, Option.ite_none_left_eq_some] at he
    exact he.2
  exact ⟨h.one, fun k e he => h.inflight k e (hlookup k e he),
    fun k k' e e' b he he' => h.apart k k' e e' b (hlookup k e he) (hlookup k' e' he')⟩

/-- A new task is for a buffer without an unfinished one: its entry was not in flight. -/
lemma SchedulerInv.acquireTask {s : SchedulerState} (h : SchedulerInv s) {t : InferTask}
    {scheduler : RoundRobinInferScheduler} {offered : Nat → BufferId → Option FrameBundle}
    (ha : s.scheduler.acquireTask offered = some (t, scheduler)) :
    SchedulerInv { scheduler := scheduler, tasks := s.tasks ++ [t] } := by
  obtain ⟨entry, _, hentry, hidle, hbuffer, -, hentries, -⟩ := acquireTask_eq_some ha
  have hlookup : ∀ (k : Bytes) (e : Entry), scheduler.entries[k]? = some e →
      (k = t.streamId ∧ e = { entry with inflight := true }) ∨
        (k ≠ t.streamId ∧ s.scheduler.entries[k]? = some e) := by
    intro k e he
    rw [hentries, lookup_insert] at he
    split at he
    · cases he
      exact .inl ⟨Eq.symm ‹_›, rfl⟩
    · exact .inr ⟨Ne.symm ‹_›, he⟩
  refine ⟨?_, fun k e he u hu hb => ?_, fun k k' e e' b he he' hb hb' => ?_⟩
  · refine List.pairwise_append.mpr ⟨h.one, List.pairwise_singleton _ _, fun u hu v hv hb => ?_⟩
    rw [List.mem_singleton.mp hv] at hb
    have hbusy := h.inflight _ _ hentry u hu (by rw [hbuffer, hb])
    rw [hidle] at hbusy
    cases hbusy
  · rcases hlookup k e he with ⟨-, rfl⟩ | ⟨hk, hold⟩
    · rfl
    · rcases List.mem_append.mp hu with hu | hu
      · exact h.inflight k e hold u hu hb
      · rw [List.mem_singleton.mp hu] at hb
        exact absurd (h.apart _ _ _ _ _ hold hentry hb hbuffer) hk
  · rcases hlookup k e he with ⟨rfl, rfl⟩ | ⟨-, hold⟩ <;>
      rcases hlookup k' e' he' with ⟨rfl, rfl⟩ | ⟨-, hold'⟩
    · rfl
    · exact h.apart _ _ _ _ _ hentry hold' hb hb'
    · exact h.apart _ _ _ _ _ hold hentry hb hb'
    · exact h.apart _ _ _ _ _ hold hold' hb hb'

/-- Ending a task clears the flag of an entry none of whose tasks is left. -/
lemma SchedulerInv.completeTask {s : SchedulerState} (h : SchedulerInv s) {i : Nat} {t : InferTask}
    (ht : s.tasks[i]? = some t) (hguard : keepsOneTask s (.completeTask i) = true) :
    SchedulerInv { scheduler := s.scheduler.completeTask t.streamId, tasks := s.tasks.eraseIdx i } := by
  simp only [keepsOneTask, ht, List.all_eq_true, bne_iff_ne] at hguard
  have hlookup : ∀ (k : Bytes) (e : Entry), (s.scheduler.completeTask t.streamId).entries[k]? = some e →
      ∃ e₀, s.scheduler.entries[k]? = some e₀ ∧ e.buffer = e₀.buffer ∧
        (k ≠ t.streamId → e.inflight = e₀.inflight) := by
    intro k e he
    rw [lookup_completeTask] at he
    split at he
    · obtain ⟨e₀, he₀, rfl⟩ := Option.map_eq_some_iff.mp he
      exact ⟨e₀, he₀, rfl, fun hk => absurd (Eq.symm ‹_›) hk⟩
    · exact ⟨e, he, rfl, fun _ => rfl⟩
  refine ⟨h.one.sublist (List.eraseIdx_sublist _ _), fun k e he u hu hb => ?_,
    fun k k' e e' b he he' hb hb' => ?_⟩
  · obtain ⟨e₀, he₀, hbuffer, hinflight⟩ := hlookup k e he
    rw [hbuffer] at hb
    by_cases hk : k = t.streamId
    · subst k
      have hne := hguard u hu
      rw [TreeMap.getD_eq_getD_getElem?, he₀] at hne
      exact absurd hb hne
    · rw [hinflight hk]
      exact h.inflight k e₀ he₀ u (List.mem_of_mem_eraseIdx hu) hb
  · obtain ⟨e₀, he₀, hbuffer, -⟩ := hlookup k e he
    obtain ⟨e₀', he₀', hbuffer', -⟩ := hlookup k' e' he'
    exact h.apart k k' e₀ e₀' b he₀ he₀' (hbuffer ▸ hb) (hbuffer' ▸ hb')

theorem schedulerInv_reachable {s : SchedulerState}
    (h : schedulerSystem.ReachableWhen (fun s a => keepsOneTask s a = true) s) : SchedulerInv s := by
  apply h.invariant
  · exact ⟨.nil, fun id e he => by simp [schedulerSystem] at he,
      fun id id' e e' b he => by simp [schedulerSystem] at he⟩
  · intro s a t hs hguard hn
    cases a with
    | upsertStream id config buffer =>
      cases hn
      exact hs.upsertStream id config buffer hguard
    | removeStream id =>
      cases hn
      exact hs.removeStream id
    | acquireTask offered =>
      simp only [schedulerSystem] at hn
      split at hn <;> cases hn
      · exact hs
      · exact hs.acquireTask ‹_›
    | completeTask i =>
      obtain ⟨task, ht, rfl⟩ := Option.map_eq_some_iff.mp hn
      exact hs.completeTask ht hguard
    | cancelTask i =>
      obtain ⟨task, ht, rfl⟩ := Option.map_eq_some_iff.mp hn
      exact hs.completeTask ht hguard
    | stop =>
      cases hn
      exact ⟨hs.one, hs.inflight, hs.apart⟩

/-! ## Steps outside the guard -/

/-- The order lists the registered ids, and an entry in flight has an unfinished task. -/
structure Registered (s : SchedulerState) : Prop where
  listed : ∀ (id : Bytes) (e : Entry), s.scheduler.entries[id]? = some e → id ∈ s.scheduler.order
  held : ∀ (id : Bytes) (e : Entry), s.scheduler.entries[id]? = some e → e.inflight = true →
    ∃ t ∈ s.tasks, t.streamId = id

lemma Registered.completeTask {s : SchedulerState} (h : Registered s) {i : Nat} {t : InferTask}
    (ht : s.tasks[i]? = some t) :
    Registered { scheduler := s.scheduler.completeTask t.streamId, tasks := s.tasks.eraseIdx i } := by
  refine ⟨fun id e he => ?_, fun id e he hi => ?_⟩
  · rw [(completeTask_order _ _).1]
    rw [lookup_completeTask] at he
    split at he
    · obtain ⟨e₀, he₀, -⟩ := Option.map_eq_some_iff.mp he
      exact h.listed id e₀ he₀
    · exact h.listed id e he
  · rw [lookup_completeTask] at he
    split at he
    · obtain ⟨e₀, -, rfl⟩ := Option.map_eq_some_iff.mp he
      cases hi
    · rename_i hne
      obtain ⟨u, hu, rfl⟩ := h.held id e he hi
      obtain ⟨j, hj⟩ := List.mem_iff_getElem?.mp hu
      have hji : j ≠ i := by
        rintro rfl
        rw [ht] at hj
        cases hj
        exact hne rfl
      exact ⟨u, List.mem_eraseIdx_iff_getElem?.mpr ⟨j, hji, hj⟩, rfl⟩

theorem registered_reachable {s : SchedulerState} (h : schedulerSystem.Reachable s) : Registered s := by
  apply h.invariant
  · exact ⟨fun id e he => by simp [schedulerSystem] at he, fun id e he => by simp [schedulerSystem] at he⟩
  · intro s a t hs _ hn
    cases a with
    | upsertStream id config buffer =>
      cases hn
      refine ⟨fun k e he => ?_, fun k e he hi => ?_⟩ <;>
        simp only [RoundRobinInferScheduler.upsertStream, lookup_insert] at he ⊢
      · split at he
        · subst k
          split
          · assumption
          · simp
        · have hold := hs.listed k e he
          split
          · exact hold
          · exact List.mem_append_left _ hold
      · split at he
        · cases he
          subst k
          cases hold : s.scheduler.entries[id]? with
          | none => simp [TreeMap.getD_eq_getD_getElem?, hold] at hi
          | some e₀ => exact hs.held id e₀ hold (by simpa [TreeMap.getD_eq_getD_getElem?, hold] using hi)
        · exact hs.held k e he hi
    | removeStream id =>
      cases hn
      refine ⟨fun k e he => ?_, fun k e he hi => ?_⟩ <;>
        simp only [RoundRobinInferScheduler.removeStream, lookup_erase, Option.ite_none_left_eq_some] at he ⊢
      · exact List.mem_filter.mpr ⟨hs.listed k e he.2, by simpa using Ne.symm he.1⟩
      · exact hs.held k e he.2 hi
    | acquireTask offered =>
      simp only [schedulerSystem] at hn
      split at hn <;> cases hn
      · exact hs
      · rename_i task scheduler ha
        obtain ⟨entry, _, hentry, -, -, -, hentries, horder, -⟩ := acquireTask_eq_some ha
        refine ⟨fun k e he => ?_, fun k e he hi => ?_⟩ <;>
          simp only [hentries, horder, lookup_insert] at he ⊢
        · split at he
          · subst k
            exact hs.listed _ _ hentry
          · exact hs.listed k e he
        · split at he
          · exact ⟨task, by simp, ‹_›⟩
          · obtain ⟨u, hu, hid⟩ := hs.held k e he hi
            exact ⟨u, List.mem_append_left _ hu, hid⟩
    | completeTask i =>
      obtain ⟨task, ht, rfl⟩ := Option.map_eq_some_iff.mp hn
      exact hs.completeTask ht
    | cancelTask i =>
      obtain ⟨task, ht, rfl⟩ := Option.map_eq_some_iff.mp hn
      exact hs.completeTask ht
    | stop =>
      cases hn
      exact ⟨hs.listed, hs.held⟩

/-- An entry not in flight whose buffer has an unfinished task lets a second one be acquired. -/
lemma second_task {s : SchedulerState} (h : Registered s) (hrun : s.scheduler.stopped = false)
    {id : Bytes} {e : Entry} (he : s.scheduler.entries[id]? = some e) (hidle : e.inflight = false)
    {t : InferTask} (ht : t ∈ s.tasks) (hb : e.buffer = some t.buffer) :
    ∃ s', schedulerSystem.Runs s s' ∧ ¬OneTaskPerBuffer s' := by
  obtain ⟨u, scheduler, ha, hu⟩ := exists_acquireTask hrun (h.listed id e he) he hidle hb
  refine ⟨{ scheduler := scheduler, tasks := s.tasks ++ [u] }, ?_, fun hone => ?_⟩
  · exact Machine.Runs.next (a := .acquireTask (offerOnly t.buffer)) .refl (by simp [schedulerSystem, ha])
  · have hne := (List.pairwise_append.mp hone).2.2 t ht u (List.mem_singleton_self u)
    exact hne hu.symm

/-- All tasks can be finished, which leaves no entry in flight and every buffer in its place. -/
lemma exists_drained {s : SchedulerState} (h : Registered s) :
    ∃ s', schedulerSystem.Runs s s' ∧ Registered s' ∧ s'.scheduler.stopped = s.scheduler.stopped ∧
      s'.tasks = [] ∧ ∀ (id : Bytes) (e : Entry), s.scheduler.entries[id]? = some e →
        ∃ e', s'.scheduler.entries[id]? = some e' ∧ e'.buffer = e.buffer := by
  obtain ⟨scheduler, tasks⟩ := s
  induction tasks generalizing scheduler with
  | nil => exact ⟨_, .refl, h, rfl, rfl, fun id e he => ⟨e, he, rfl⟩⟩
  | cons t tasks ih =>
    obtain ⟨s', hs', hr, hstopped, htasks, hbuffers⟩ := ih (scheduler.completeTask t.streamId)
      (h.completeTask (i := 0) rfl)
    refine ⟨s', (Machine.Runs.next (a := .completeTask 0) .refl rfl).trans hs', hr,
      hstopped.trans (completeTask_order _ _).2, htasks, fun id e he => ?_⟩
    have hlookup := lookup_completeTask scheduler t.streamId id
    rw [show scheduler.entries[id]? = some e from he] at hlookup
    split at hlookup
    · obtain ⟨e', he', hb⟩ := hbuffers id _ hlookup
      exact ⟨e', he', hb⟩
    · exact hbuffers id e hlookup

/-- Two ids with one buffer can both be granted a task. -/
lemma two_entries {s : SchedulerState} (h : schedulerSystem.Reachable s) (hrun : s.scheduler.stopped = false)
    {id id' : Bytes} {e e' : Entry} {b : BufferId} (he : s.scheduler.entries[id]? = some e)
    (he' : s.scheduler.entries[id']? = some e') (hb : e.buffer = some b) (hb' : e'.buffer = some b)
    (hne : id ≠ id') : ∃ s', schedulerSystem.Runs s s' ∧ ¬OneTaskPerBuffer s' := by
  obtain ⟨u, hu, hr, hstopped, htasks, hbuffers⟩ := exists_drained (registered_reachable h)
  rw [hrun] at hstopped
  obtain ⟨f, hf, hfb⟩ := hbuffers id e he
  obtain ⟨f', hf', hfb'⟩ := hbuffers id' e' he'
  rw [hb] at hfb
  rw [hb'] at hfb'
  have hidle : ∀ (k : Bytes) (g : Entry), u.scheduler.entries[k]? = some g → g.inflight = false := by
    intro k g hg
    by_contra hi
    obtain ⟨t, ht, -⟩ := hr.held k g hg (by simpa using hi)
    rw [htasks] at ht
    cases ht
  obtain ⟨t, scheduler, ha, ht⟩ := exists_acquireTask hstopped (hr.listed id f hf) hf (hidle id f hf) hfb
  obtain ⟨entry, _, -, -, -, -, hentries, -, hstopped'⟩ := acquireTask_eq_some ha
  have hstep : schedulerSystem.next u (.acquireTask (offerOnly b)) =
      some { scheduler := scheduler, tasks := u.tasks ++ [t] } := by
    simp [schedulerSystem, ha]
  have hruns := Machine.Runs.next hu hstep
  have hr' := registered_reachable (h.trans hruns)
  -- one of the two entries was not granted the task
  obtain ⟨k, g, hk, hg, hgb⟩ : ∃ k g, k ≠ t.streamId ∧ u.scheduler.entries[k]? = some g ∧
      g.buffer = some b := by
    by_cases hk : id = t.streamId
    · exact ⟨id', f', hk ▸ Ne.symm hne, hf', hfb'⟩
    · exact ⟨id, f, hk, hf, hfb⟩
  obtain ⟨s', hs', hbad⟩ := second_task hr' (hstopped'.trans hstopped)
    (show scheduler.entries[k]? = some g by rw [hentries, lookup_insert, if_neg (Ne.symm hk), hg])
    (hidle k g hg) (t := t) (by simp) (by rw [hgb, ht])
  exact ⟨s', hruns.trans hs', hbad⟩

lemma broken_upsertStream {s : SchedulerState} (h : schedulerSystem.Reachable s)
    (hrun : s.scheduler.stopped = false) {id : Bytes} {config : StreamConfig} {b : BufferId}
    (hbad : ¬keepsOneTask s (.upsertStream id config (some b)) = true) :
    ∃ s', schedulerSystem.Runs s s' ∧ ¬OneTaskPerBuffer s' := by
  have hstep : schedulerSystem.Runs s
      { s with scheduler := s.scheduler.upsertStream id config (some b) } :=
    Machine.Runs.next (a := .upsertStream id config (some b)) .refl rfl
  have hr := h.trans hstep
  have hentry : (s.scheduler.upsertStream id config (some b)).entries[id]? =
      some { s.scheduler.entries.getD id {} with config := config, buffer := some b } := by
    simp [RoundRobinInferScheduler.upsertStream]
  rw [keepsOneTask_upsertStream, not_and_or] at hbad
  rcases hbad with hother | hbusy
  · simp only [Classical.not_forall] at hother
    obtain ⟨id', e, he, hb, hne⟩ := hother
    have he' : (s.scheduler.upsertStream id config (some b)).entries[id']? = some e := by
      simp only [RoundRobinInferScheduler.upsertStream, lookup_insert, if_neg (Ne.symm hne), he]
    obtain ⟨s', hs', hbad⟩ := two_entries hr hrun hentry he' rfl hb (Ne.symm hne)
    exact ⟨s', hstep.trans hs', hbad⟩
  · simp only [Classical.not_imp, Bool.not_eq_true] at hbusy
    obtain ⟨⟨t, ht, rfl⟩, hidle⟩ := hbusy
    obtain ⟨s', hs', hbad⟩ := second_task (registered_reachable hr) hrun hentry hidle ht rfl
    exact ⟨s', hstep.trans hs', hbad⟩

/-- The task's entry holds the buffer of another unfinished task. -/
lemma broken_completeTask {s : SchedulerState} (h : schedulerSystem.Reachable s)
    (hrun : s.scheduler.stopped = false) {i : Nat} (hbad : ¬keepsOneTask s (.completeTask i) = true) :
    ∃ s', schedulerSystem.Runs s s' ∧ ¬OneTaskPerBuffer s' := by
  cases ht : s.tasks[i]? with
  | none => simp [keepsOneTask, ht] at hbad
  | some t =>
    have hstep : schedulerSystem.Runs s
        { scheduler := s.scheduler.completeTask t.streamId, tasks := s.tasks.eraseIdx i } :=
      Machine.Runs.next (a := .completeTask i) .refl (by simp [schedulerSystem, ht])
    simp only [keepsOneTask, ht, List.all_eq_true, bne_iff_ne, Classical.not_forall, not_not] at hbad
    obtain ⟨u, hu, hb⟩ := hbad
    cases he : s.scheduler.entries[t.streamId]? with
    | none => simp [TreeMap.getD_eq_getD_getElem?, he] at hb
    | some e =>
      rw [TreeMap.getD_eq_getD_getElem?, he] at hb
      have hentry : (s.scheduler.completeTask t.streamId).entries[t.streamId]? =
          some { e with inflight := false } := by
        rw [lookup_completeTask, if_pos rfl, he]
        rfl
      obtain ⟨s', hs', hbad⟩ := second_task (registered_reachable (h.trans hstep))
        ((completeTask_order _ _).2.trans hrun) hentry rfl hu hb
      exact ⟨s', hstep.trans hs', hbad⟩

/-- At most one unfinished task for each buffer in every run that keeps to the guard, and a step
outside it leads to two, unless the scheduler has been stopped. -/
theorem oneTaskPerBuffer_of_keepsOneTask (s : SchedulerState) :
    (schedulerSystem.ReachableWhen (fun s a => keepsOneTask s a = true) s → OneTaskPerBuffer s) ∧
    (∀ a, schedulerSystem.Reachable s → s.scheduler.stopped = false → ¬keepsOneTask s a = true →
      ∃ t, schedulerSystem.Runs s t ∧ ¬OneTaskPerBuffer t) := by
  refine ⟨fun h => (schedulerInv_reachable h).one, fun a h hrun hbad => ?_⟩
  cases a with
  | upsertStream id config buffer =>
    cases buffer with
    | none => exact absurd rfl hbad
    | some b => exact broken_upsertStream h hrun hbad
  | completeTask i => exact broken_completeTask h hrun hbad
  | cancelTask i => exact broken_completeTask h hrun hbad
  | _ => exact absurd rfl hbad

/-- The stream is added again while the task of its old buffer is still running. -/
def restartRun : List SchedulerAction :=
  [.upsertStream [0x53] {} (some 1), .acquireTask (offerOnly 1), .removeStream [0x53],
    .upsertStream [0x53] {} (some 2)]

theorem oneTaskPerBuffer_of_keepsOneTask_restartRun :
    ∃ s, schedulerSystem.ReachableWhen (fun s a => keepsOneTask s a = true) s ∧
      s.tasks.map (·.buffer) = [1] ∧ OneTaskPerBuffer s := by
  obtain ⟨s, hs, hp⟩ := Machine.reachableWhen_of_exec_any schedulerSystem keepsOneTask restartRun
    (fun s => s.tasks.map (·.buffer) == [1]) (by decide)
  exact ⟨s, hs, by simpa using hp, (oneTaskPerBuffer_of_keepsOneTask s).1 hs⟩

/-- The late completion of the old task clears the flag of the new entry, whose buffer then gets
a second task. -/
theorem two_tasks_after_late_completion :
    ∃ s, schedulerSystem.Reachable s ∧ s.tasks.map (·.buffer) = [2, 2] ∧ ¬OneTaskPerBuffer s := by
  obtain ⟨s, hs, hp⟩ := Machine.reachable_of_exec_any schedulerSystem
    (restartRun ++ [.acquireTask (offerOnly 2), .completeTask 0, .acquireTask (offerOnly 2)])
    (fun s => s.tasks.map (·.buffer) == [2, 2]) (by decide)
  have hbuffers : s.tasks.map (·.buffer) = [2, 2] := by simpa using hp
  refine ⟨s, hs, hbuffers, fun hone => ?_⟩
  have hpair : (s.tasks.map (·.buffer)).Pairwise (· ≠ ·) := List.pairwise_map.mpr hone
  rw [hbuffers] at hpair
  exact absurd hpair (by decide)

end MediaAgent
