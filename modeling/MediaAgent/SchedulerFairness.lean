import MediaAgent.InferScheduler
import MediaAgent.Library.RoundRobin

/-!
# Fairness of the scheduler

The scheduler asks the streams in the order of `order_` from `cursor_` on and around the end. A round of
a stream is a part of a run in which it stays registered, is ready whenever a task is granted, and is
granted none. A removal in front of the cursor moves every stream behind it one place forward while the
cursor stays, so the stream at the cursor is passed over; a stream that has had its task and is removed
comes back at the end of the vector, which is not the end of the round.
-/

namespace MediaAgent
open Std TreeMaps Transition RoundRobinInferScheduler

local instance : LawfulBEq Bytes := inferInstance

/-- The stream is not in flight and its buffer offers a frame if the scan asks it. -/
def RoundRobinInferScheduler.ready (s : RoundRobinInferScheduler)
    (offered : Nat → BufferId → Option FrameBundle) (streamId : Bytes) : Bool :=
  match s.entries[streamId]? with
  | none => false
  | some entry => !entry.inflight &&
      entry.buffer.any fun buffer => (offered ((s.order.rotate s.cursor).idxOf streamId) buffer).isSome

/-- A state of the scheduler, with the streams that have been granted a task in the current round of a
stream, the last one first. -/
structure WatchedState where
  state : SchedulerState := {}
  granted : List Bytes := []

/-- The grants of the round after a step. The round ends where the stream is granted a task, is not ready
for one, or is not registered. -/
def WatchedState.watch (w : WatchedState) (streamId : Bytes) (a : SchedulerAction) (t : SchedulerState) : List Bytes :=
  if streamId ∉ t.scheduler.order then []
  else
    match a with
    | .acquireTask offered =>
      match w.state.scheduler.acquireTask offered with
      | none => w.granted
      | some (task, _) =>
        if task.streamId = streamId then []
        else if w.state.scheduler.ready offered streamId then task.streamId :: w.granted
        else []
    | _ => w.granted

/-- The runs of the scheduler, each with the round of one stream. -/
def watchedSystem (streamId : Bytes) : Machine WatchedState SchedulerAction where
  init := {}
  next w a := (schedulerSystem.next w.state a).map fun t => ⟨t, w.watch streamId a t⟩

/-- No other stream has been granted two tasks in the round. -/
def WatchedState.Fair (w : WatchedState) : Prop := w.granted.Nodup

/-- No stream in front of the cursor is removed while the watched stream is the one at the cursor and some
other stream that has had its task in the round stays registered; and no stream that has had its task
in the round and has been removed is registered again while the watched stream is in front of the cursor. -/
def keepsRound (streamId : Bytes) (w : WatchedState) (a : SchedulerAction) : Bool :=
  let s := w.state.scheduler
  s.stopped ||
    match a with
    | .removeStream id =>
      !(id != streamId && decide (id ∈ s.order.take s.cursor) && decide (s.order[s.cursor]? = some streamId) &&
        w.granted.any fun other => other != id && decide (other ∈ s.order))
    | .upsertStream id _ _ =>
      !(decide (id ∈ w.granted) && decide (id ∉ s.order) && decide (streamId ∈ s.order.take s.cursor))
    | _ => true

/-- The machine with the round makes the steps of the scheduler. -/
lemma watched_of_reachable (streamId : Bytes) {s : SchedulerState} (h : schedulerSystem.Reachable s) :
    ∃ w, (watchedSystem streamId).Reachable w ∧ w.state = s := by
  induction h with
  | refl => exact ⟨{}, .refl, rfl⟩
  | @step t u a _ _ hn ih =>
    obtain ⟨w, hw, rfl⟩ := ih
    refine ⟨⟨u, w.watch streamId a u⟩, Machine.Runs.next (a := a) hw ?_, rfl⟩
    simp [watchedSystem, hn]

lemma reachable_of_watched {streamId : Bytes} {w : WatchedState} (h : (watchedSystem streamId).Reachable w) :
    schedulerSystem.Reachable w.state := by
  apply h.invariant (I := fun w => schedulerSystem.Reachable w.state) .refl
  intro t a u ht _ hn
  obtain ⟨s, hs, rfl⟩ := Option.map_eq_some_iff.mp hn
  exact ht.next hs

namespace RoundRobinInferScheduler

/-- The task is for the stream at the index, and the cursor is put behind it. -/
lemma tryEntry_eq_some {s s' : RoundRobinInferScheduler} {t : InferTask}
    {offered : Nat → BufferId → Option FrameBundle} {i : Nat} (h : s.tryEntry offered i = some (t, s')) :
    s.order[(s.cursor + i) % s.order.length]? = some t.streamId ∧ s'.order = s.order ∧
      s'.cursor = ((s.cursor + i) % s.order.length + 1) % s.order.length ∧ offered i t.buffer = some t.frame := by
  unfold tryEntry at h
  dsimp only at h
  split at h
  · cases h
  · rename_i streamId hid
    split at h
    · cases h
    · split at h
      · cases h
      · split at h
        · cases h
        · split at h <;> cases h
          rename_i hframe
          exact ⟨hid, rfl, rfl, hframe⟩

/-- The scan stops at the first stream that is given a task. -/
lemma acquireTask_scan {s s' : RoundRobinInferScheduler} {t : InferTask}
    {offered : Nat → BufferId → Option FrameBundle} (h : s.acquireTask offered = some (t, s')) :
    ∃ front back, s.order.rotate s.cursor = front ++ t.streamId :: back ∧
      s'.order.rotate s'.cursor = back ++ (front ++ [t.streamId]) ∧ s'.order = s.order ∧
      s'.cursor < s'.order.length ∧ offered front.length t.buffer = some t.frame ∧
      ∀ j < front.length, s.tryEntry offered j = none := by
  simp only [acquireTask, Option.ite_none_left_eq_some, tryAcquireLocked] at h
  obtain ⟨before, i, after, hrange, htry, hbefore⟩ := List.findSome?_eq_some_iff.mp h.2
  obtain ⟨-, hi, hmem⟩ := RoundRobin.range_split hrange
  obtain ⟨hid, horder, hcursor, hframe⟩ := tryEntry_eq_some htry
  obtain ⟨front, back, hscan, hfront, hnext⟩ := RoundRobin.rotate_split hi hid
  rw [← hfront] at hframe
  refine ⟨front, back, hscan, ?_, horder, ?_, hframe, fun j hj => hbefore j (hmem j (hfront ▸ hj))⟩
  · rw [horder, hcursor, hnext]
  · rw [horder, hcursor]
    exact Nat.mod_lt _ (by omega)

lemma completeTask_cursor (s : RoundRobinInferScheduler) (streamId : Bytes) :
    (s.completeTask streamId).cursor = s.cursor := by
  unfold completeTask
  split <;> rfl

/-- A ready stream is given a task when the scan comes to it. -/
lemma tryEntry_of_ready {s : RoundRobinInferScheduler} {offered : Nat → BufferId → Option FrameBundle}
    {streamId : Bytes} (hready : s.ready offered streamId = true) {front back : List Bytes}
    (hscan : s.order.rotate s.cursor = front ++ streamId :: back) (hnot : streamId ∉ front) :
    s.tryEntry offered front.length ≠ none := by
  have hindex : (s.order.rotate s.cursor).idxOf streamId = front.length := by
    rw [hscan, List.idxOf_append_of_notMem hnot, List.idxOf_cons_self, Nat.add_zero]
  have hlt : front.length < s.order.length := by
    have hlength := congrArg List.length hscan
    rw [List.length_rotate, List.length_append, List.length_cons] at hlength
    omega
  have hid : s.order[(s.cursor + front.length) % s.order.length]? = some streamId := by
    have hget : (s.order.rotate s.cursor)[front.length]? = some streamId := by
      rw [hscan]
      simp
    rw [List.getElem?_rotate hlt, Nat.add_comm] at hget
    exact hget
  unfold ready at hready
  split at hready
  · cases hready
  · rename_i entry hentry
    rw [Bool.and_eq_true, Bool.not_eq_true', hindex] at hready
    obtain ⟨hidle, hoffered⟩ := hready
    obtain ⟨buffer, hbuffer, hframe⟩ := (Option.any_eq_true _ _).mp hoffered
    obtain ⟨frame, hframe⟩ := Option.isSome_iff_exists.mp hframe
    simp [tryEntry, hid, hentry, hidle, hbuffer, hframe]

lemma mem_upsertStream {s : RoundRobinInferScheduler} {id other : Bytes} {config : StreamConfig}
    {buffer : Option BufferId} (h : other ∈ s.order) : other ∈ (s.upsertStream id config buffer).order := by
  simp only [RoundRobinInferScheduler.upsertStream]
  split
  · exact h
  · exact List.mem_append_left _ h

end RoundRobinInferScheduler

/-! ## The round -/

/-- The order has no duplicates and the cursor is inside it; the streams that have had their task in the round
are behind the watched stream. -/
structure RoundInv (streamId : Bytes) (w : WatchedState) : Prop where
  nodup : w.state.scheduler.order.Nodup
  cursor : w.state.scheduler.cursor < w.state.scheduler.order.length ∨ w.state.scheduler.cursor = 0
  fair : (streamId :: w.granted).Nodup
  unregistered : streamId ∉ w.state.scheduler.order → w.granted = []
  passed : streamId ∈ w.state.scheduler.order → w.state.scheduler.stopped = false →
    RoundRobin.Passed streamId w.granted (w.state.scheduler.order.rotate w.state.scheduler.cursor)

namespace RoundInv

variable {streamId : Bytes} {w : WatchedState}

lemma cursor_le (h : RoundInv streamId w) : w.state.scheduler.cursor ≤ w.state.scheduler.order.length := by
  rcases h.cursor with hlt | hzero <;> omega

lemma watch_eq {a : SchedulerAction} {t : SchedulerState} (ha : ∀ offered, a ≠ .acquireTask offered) :
    w.watch streamId a t = if streamId ∉ t.scheduler.order then [] else w.granted := by
  unfold WatchedState.watch
  split
  · rfl
  · split
    · rename_i offered
      exact absurd rfl (ha offered)
    · rfl

/-- The round of a stream that is not registered is empty already. -/
lemma granted_eq (h : RoundInv streamId w) {order : List Bytes}
    (horder : streamId ∈ w.state.scheduler.order → streamId ∈ order) :
    (if streamId ∉ order then [] else w.granted) = w.granted := by
  by_cases hreg : streamId ∈ order
  · rw [if_neg (not_not.mpr hreg)]
  · rw [if_pos hreg, h.unregistered (mt horder hreg)]

lemma watch_eq_granted (h : RoundInv streamId w) {a : SchedulerAction} {t : SchedulerState}
    (ha : ∀ offered, a ≠ .acquireTask offered)
    (horder : streamId ∈ w.state.scheduler.order → streamId ∈ t.scheduler.order) :
    w.watch streamId a t = w.granted := by
  rw [watch_eq ha, h.granted_eq horder]

/-- A step that leaves the order and the cursor as they are. -/
lemma keep (h : RoundInv streamId w) {t : SchedulerState} (horder : t.scheduler.order = w.state.scheduler.order)
    (hcursor : t.scheduler.cursor = w.state.scheduler.cursor)
    (hstopped : t.scheduler.stopped = false → w.state.scheduler.stopped = false) :
    RoundInv streamId ⟨t, w.granted⟩ := by
  refine ⟨?_, ?_, h.fair, ?_, ?_⟩
  · rw [horder]
    exact h.nodup
  · rw [horder, hcursor]
    exact h.cursor
  · rw [horder]
    exact h.unregistered
  · rw [horder, hcursor]
    exact fun hreg hrun => h.passed hreg (hstopped hrun)

/-- A task is finished. -/
lemma completeTask (h : RoundInv streamId w) {a : SchedulerAction} (ha : ∀ offered, a ≠ .acquireTask offered)
    (id : Bytes) (tasks : List InferTask) :
    RoundInv streamId ⟨{ scheduler := w.state.scheduler.completeTask id, tasks := tasks },
      w.watch streamId a { scheduler := w.state.scheduler.completeTask id, tasks := tasks }⟩ := by
  obtain ⟨horder, hstopped⟩ := completeTask_order w.state.scheduler id
  have hcursor := completeTask_cursor w.state.scheduler id
  rw [h.watch_eq_granted ha]
  · apply h.keep horder hcursor
    rw [hstopped]
    exact fun hrun => hrun
  · rw [horder]
    exact fun hreg => hreg

/-- A stream is registered. -/
lemma upsertStream (h : RoundInv streamId w) {id : Bytes} (config : StreamConfig) (buffer : Option BufferId)
    (hguard : keepsRound streamId w (.upsertStream id config buffer) = true) :
    RoundInv streamId ⟨{ w.state with scheduler := w.state.scheduler.upsertStream id config buffer }, w.granted⟩ := by
  by_cases hid : id ∈ w.state.scheduler.order
  · refine h.keep ?_ rfl fun hrun => hrun
    simp [RoundRobinInferScheduler.upsertStream, hid]
  · have horder : (w.state.scheduler.upsertStream id config buffer).order = w.state.scheduler.order ++ [id] := by
      simp [RoundRobinInferScheduler.upsertStream, hid]
    have hle := h.cursor_le
    refine ⟨?_, ?_, h.fair, fun hreg => ?_, fun hreg hrun => ?_⟩
    · rw [horder, List.nodup_append]
      refine ⟨h.nodup, List.nodup_singleton id, fun other hother other' hother' => ?_⟩
      rw [List.mem_singleton.mp hother']
      rintro rfl
      exact hid hother
    · left
      rw [horder, List.length_append, List.length_singleton]
      exact Nat.lt_succ_of_le hle
    · apply h.unregistered
      intro hold
      rw [horder] at hreg
      exact hreg (List.mem_append_left _ hold)
    · rw [horder] at hreg ⊢
      by_cases hold : streamId ∈ w.state.scheduler.order
      · apply (h.passed hold hrun).append hle
        have hrun' : w.state.scheduler.stopped = false := hrun
        simp only [keepsRound, hrun', Bool.false_or, Bool.not_eq_true', Bool.and_eq_false_iff,
          decide_eq_false_iff_not] at hguard
        rcases hguard with (hgranted | hnew) | hfront
        · exact .inl hgranted
        · exact absurd hid hnew
        · exact .inr hfront
      · rw [h.unregistered hold]
        apply RoundRobin.passed_nil
        rw [List.mem_rotate]
        exact hreg

/-- A stream is removed. -/
lemma removeStream (h : RoundInv streamId w) {id : Bytes}
    (hguard : keepsRound streamId w (.removeStream id) = true) :
    RoundInv streamId ⟨{ w.state with scheduler := w.state.scheduler.removeStream id },
      if streamId ∉ (w.state.scheduler.removeStream id).order then [] else w.granted⟩ := by
  have horder : (w.state.scheduler.removeStream id).order = w.state.scheduler.order.filter (· != id) := rfl
  have hcursor : (w.state.scheduler.removeStream id).cursor =
      RoundRobin.clamp w.state.scheduler.cursor (w.state.scheduler.order.filter (· != id)).length := rfl
  have hlt : (w.state.scheduler.removeStream id).cursor < (w.state.scheduler.removeStream id).order.length ∨
      (w.state.scheduler.removeStream id).cursor = 0 := by
    rw [hcursor, horder, RoundRobin.clamp]
    split
    · exact .inr rfl
    · exact .inl (Nat.lt_of_not_le ‹_›)
  by_cases hreg : streamId ∈ w.state.scheduler.order.filter (· != id)
  · rw [horder, if_neg (not_not.mpr hreg)]
    obtain ⟨hold, hne⟩ := List.mem_filter.mp hreg
    refine ⟨h.nodup.filter _, hlt, h.fair, fun hnot => absurd hreg hnot, fun _ hrun => ?_⟩
    have hrun' : w.state.scheduler.stopped = false := hrun
    dsimp only
    rw [horder, hcursor]
    apply (h.passed hold hrun).remove h.nodup h.cursor (bne_iff_ne.mp hne)
    intro hfront
    simp only [keepsRound, hrun', Bool.false_or, Bool.not_eq_true', Bool.and_eq_false_iff,
      decide_eq_false_iff_not, List.any_eq_false, Bool.and_eq_true, bne_iff_ne, decide_eq_true_iff, not_and] at hguard
    rcases hguard with ((hsame | hbehind) | hhead) | hothers
    · rw [bne_eq_false_iff_eq] at hsame
      rw [hsame, bne_self_eq_false] at hne
      cases hne
    · exact absurd hfront hbehind
    · exact .inl hhead
    · refine .inr fun other hother hmem => ?_
      by_contra hdifferent
      exact hothers other hother hdifferent hmem
  · rw [horder, if_pos hreg]
    exact ⟨h.nodup.filter _, hlt, List.nodup_singleton _, fun _ => rfl, fun hreg' => absurd hreg' hreg⟩

/-- A task is granted. -/
lemma acquireTask (h : RoundInv streamId w) {offered : Nat → BufferId → Option FrameBundle} {task : InferTask}
    {scheduler : RoundRobinInferScheduler} (ha : w.state.scheduler.acquireTask offered = some (task, scheduler)) :
    RoundInv streamId ⟨{ scheduler := scheduler, tasks := w.state.tasks ++ [task] },
      if streamId ∉ scheduler.order then []
      else if task.streamId = streamId then []
      else if w.state.scheduler.ready offered streamId then task.streamId :: w.granted
      else []⟩ := by
  obtain ⟨front, back, hscan, hnext, horder, hcursor, -, hskipped⟩ := acquireTask_scan ha
  have hnodup : scheduler.order.Nodup := by
    rw [horder]
    exact h.nodup
  have hempty : RoundInv streamId ⟨{ scheduler := scheduler, tasks := w.state.tasks ++ [task] }, []⟩ := by
    refine ⟨hnodup, .inl hcursor, List.nodup_singleton _, fun _ => rfl, fun hreg _ => ?_⟩
    apply RoundRobin.passed_nil
    rw [List.mem_rotate]
    exact hreg
  by_cases hreg : streamId ∈ scheduler.order
  · rw [if_neg (not_not.mpr hreg)]
    split
    · exact hempty
    · rename_i hne
      split
      · rename_i hready
        -- the scan has not come to the watched stream
        have hnot : streamId ∉ front := by
          intro hmem
          obtain ⟨before, between, rfl, hfirst⟩ := List.eq_append_cons_of_mem hmem
          rw [List.append_assoc, List.cons_append] at hscan
          apply tryEntry_of_ready hready hscan hfirst
          apply hskipped
          rw [List.length_append, List.length_cons]
          omega
        have hrun : w.state.scheduler.stopped = false :=
          Bool.eq_false_iff.mpr (Option.ite_none_left_eq_some.mp ha).1
        have hpassed := h.passed (horder ▸ hreg) hrun
        rw [hscan] at hpassed
        have hscanNodup : (front ++ task.streamId :: back).Nodup := by
          rw [← hscan, List.nodup_rotate]
          exact h.nodup
        obtain ⟨hnew, hbehind⟩ := hpassed.advance hscanNodup hne hnot
        obtain ⟨hself, hfair⟩ := List.nodup_cons.mp h.fair
        have hfair' : (streamId :: task.streamId :: w.granted).Nodup := by
          refine List.nodup_cons.mpr ⟨?_, List.nodup_cons.mpr ⟨hnew, hfair⟩⟩
          rw [List.mem_cons, not_or]
          exact ⟨Ne.symm hne, hself⟩
        refine ⟨hnodup, .inl hcursor, hfair', fun hnotReg => absurd hreg hnotReg, fun _ _ => ?_⟩
        dsimp only
        rw [hnext]
        exact hbehind
      · exact hempty
  · rw [if_pos hreg]
    exact hempty

lemma next (h : RoundInv streamId w) {a : SchedulerAction} {w' : WatchedState}
    (hguard : keepsRound streamId w a = true) (hn : (watchedSystem streamId).next w a = some w') :
    RoundInv streamId w' := by
  obtain ⟨t, ht, rfl⟩ := Option.map_eq_some_iff.mp hn
  cases a with
  | upsertStream id config buffer =>
    cases ht
    rw [h.watch_eq_granted (by simp)]
    · exact h.upsertStream config buffer hguard
    · exact mem_upsertStream
  | removeStream id =>
    cases ht
    rw [watch_eq (by simp)]
    exact h.removeStream hguard
  | acquireTask offered =>
    dsimp only [schedulerSystem] at ht
    cases ha : w.state.scheduler.acquireTask offered with
    | none =>
      rw [ha] at ht
      cases ht
      have hwatch : w.watch streamId (.acquireTask offered) w.state =
          if streamId ∉ w.state.scheduler.order then [] else w.granted := by
        simp only [WatchedState.watch, ha]
      rw [hwatch, h.granted_eq fun hreg => hreg]
      exact h.keep rfl rfl fun hrun => hrun
    | some r =>
      obtain ⟨task, scheduler⟩ := r
      rw [ha] at ht
      cases ht
      have hinv := h.acquireTask ha
      simp only [WatchedState.watch, ha]
      exact hinv
  | completeTask i =>
    obtain ⟨task, -, rfl⟩ := Option.map_eq_some_iff.mp ht
    exact h.completeTask (by simp) task.streamId _
  | cancelTask i =>
    obtain ⟨task, -, rfl⟩ := Option.map_eq_some_iff.mp ht
    exact h.completeTask (by simp) task.streamId _
  | stop =>
    cases ht
    rw [h.watch_eq_granted (by simp)]
    · exact h.keep rfl rfl nofun
    · exact fun hreg => hreg

end RoundInv

lemma RoundInv.init (streamId : Bytes) : RoundInv streamId {} :=
  ⟨List.nodup_nil, .inr rfl, List.nodup_singleton _, fun _ => rfl, nofun⟩

/-! ## A step that breaks the round -/

section Broken

variable {streamId : Bytes} {w : WatchedState}

/-- A step that grants nothing and leaves the watched stream registered leaves the round as it is. -/
lemma watched_next {a : SchedulerAction} {t : SchedulerState} (ha : ∀ offered, a ≠ .acquireTask offered)
    (ht : schedulerSystem.next w.state a = some t) (hreg : streamId ∈ t.scheduler.order) :
    (watchedSystem streamId).next w a = some ⟨t, w.granted⟩ := by
  dsimp only [watchedSystem]
  rw [ht, Option.map_some, RoundInv.watch_eq ha, if_neg (not_not.mpr hreg)]

/-- Two states with the same streams in the same order, in the same round. -/
structure SameRound (w w' : WatchedState) : Prop where
  granted : w'.granted = w.granted
  order : w'.state.scheduler.order = w.state.scheduler.order
  cursor : w'.state.scheduler.cursor = w.state.scheduler.cursor
  stopped : w'.state.scheduler.stopped = w.state.scheduler.stopped

/-- The stream could be given a task. -/
def Idle (w : WatchedState) (id : Bytes) : Prop :=
  ∃ entry buffer, w.state.scheduler.entries[id]? = some entry ∧ entry.inflight = false ∧ entry.buffer = some buffer

/-- A registered stream can be given a buffer and its task can be finished, with all else as it is. -/
lemma exists_idle (h : (watchedSystem streamId).Reachable w) (hreg : streamId ∈ w.state.scheduler.order)
    {id : Bytes} (hid : id ∈ w.state.scheduler.order) : ∃ w', (watchedSystem streamId).Runs w w' ∧ SameRound w w' ∧
      Idle w' id ∧ ∀ k, k ≠ id → w'.state.scheduler.entries[k]? = w.state.scheduler.entries[k]? := by
  let scheduler := w.state.scheduler.upsertStream id {} (some 0)
  let entry : Entry := { w.state.scheduler.entries.getD id {} with config := {}, buffer := some 0 }
  have horder : scheduler.order = w.state.scheduler.order := by
    simp only [scheduler, RoundRobinInferScheduler.upsertStream]
    exact if_pos hid
  have hlookup : ∀ k : Bytes, scheduler.entries[k]? = if id = k then some entry else w.state.scheduler.entries[k]? :=
    fun k => lookup_insert _ id k entry
  have hstep : (watchedSystem streamId).next w (.upsertStream id {} (some 0)) =
      some ⟨{ w.state with scheduler := scheduler }, w.granted⟩ :=
    watched_next (by simp) rfl (mem_upsertStream hreg)
  have hruns := Machine.Runs.next (M := watchedSystem streamId) .refl hstep
  cases hinflight : entry.inflight with
  | false =>
    refine ⟨_, hruns, ⟨rfl, horder, rfl, rfl⟩, ⟨entry, 0, ?_, hinflight, rfl⟩, fun k hk => ?_⟩
    · exact (hlookup id).trans (if_pos rfl)
    · exact (hlookup k).trans (if_neg (Ne.symm hk))
  | true =>
    -- its task is finished
    have hregistered := registered_reachable (reachable_of_watched (h.trans hruns))
    obtain ⟨task, htask, hstream⟩ := hregistered.held id entry ((hlookup id).trans (if_pos rfl)) hinflight
    obtain ⟨i, hi⟩ := List.mem_iff_getElem?.mp htask
    have hsame := completeTask_order scheduler id
    have hstep' : (watchedSystem streamId).next ⟨{ w.state with scheduler := scheduler }, w.granted⟩ (.completeTask i) =
        some ⟨{ scheduler := scheduler.completeTask id, tasks := w.state.tasks.eraseIdx i }, w.granted⟩ := by
      apply watched_next (by simp)
      · simp only [schedulerSystem, hi, Option.map_some, hstream]
      · dsimp only
        rw [hsame.1, horder]
        exact hreg
    refine ⟨_, hruns.next hstep', ⟨rfl, ?_, ?_, ?_⟩, ⟨{ entry with inflight := false }, 0, ?_, rfl, rfl⟩, fun k hk => ?_⟩
    · exact hsame.1.trans horder
    · exact completeTask_cursor scheduler id
    · exact hsame.2
    · dsimp only
      rw [lookup_completeTask, if_pos rfl, hlookup id, if_pos rfl]
      rfl
    · dsimp only
      rw [lookup_completeTask, if_neg (Ne.symm hk), hlookup k, if_neg (Ne.symm hk)]

/-- The buffers asked at two places of the scan have frames. -/
def offerAt (i j : Nat) : Nat → BufferId → Option FrameBundle := fun k _ => if k = i ∨ k = j then some {} else none

/-- With frames for two of the streams the first of them in the scan is granted the task. -/
lemma acquireTask_first {s : RoundRobinInferScheduler} (hrun : s.stopped = false) {id : Bytes} {front back : List Bytes}
    (hscan : s.order.rotate s.cursor = front ++ id :: back) {entry : Entry} {buffer : BufferId}
    (hentry : s.entries[id]? = some entry) (hidle : entry.inflight = false) (hbuffer : entry.buffer = some buffer)
    (other : Nat) (hother : front.length < other) :
    ∃ task scheduler, s.acquireTask (offerAt front.length other) =
      some (task, scheduler) ∧ task.streamId = id := by
  have hlt : front.length < s.order.length := by
    have hlength := congrArg List.length hscan
    rw [List.length_rotate, List.length_append, List.length_cons] at hlength
    omega
  have hindex : s.order[(s.cursor + front.length) % s.order.length]? = some id := by
    have hget : (s.order.rotate s.cursor)[front.length]? = some id := by
      rw [hscan]
      simp
    rw [List.getElem?_rotate hlt, Nat.add_comm] at hget
    exact hget
  have htry : s.tryEntry (offerAt front.length other) front.length ≠ none := by
    simp [tryEntry, offerAt, hindex, hentry, hidle, hbuffer]
  cases ha : s.acquireTask (offerAt front.length other) with
  | none =>
    simp only [acquireTask, hrun, Bool.false_eq_true, if_false, tryAcquireLocked, List.findSome?_eq_none_iff] at ha
    exact absurd (ha front.length (List.mem_range.mpr hlt)) htry
  | some r =>
    obtain ⟨task, scheduler⟩ := r
    refine ⟨task, scheduler, rfl, ?_⟩
    obtain ⟨front', back', hscan', -, -, -, hframe, hskipped⟩ := acquireTask_scan ha
    have hle : front'.length ≤ front.length := by
      by_contra hgt
      exact htry (hskipped front.length (Nat.lt_of_not_le hgt))
    have hlength : front'.length = front.length := by
      unfold offerAt at hframe
      split at hframe
      · rename_i hpos
        rcases hpos with hpos | hpos <;> omega
      · cases hframe
    rw [hscan] at hscan'
    exact (List.cons.inj (List.append_inj hscan' hlength.symm).2).1.symm

/-- A stream that has had its task in the round and is asked before the watched stream can be granted a second
one. -/
lemma exists_not_fair (h : (watchedSystem streamId).Reachable w) (hrun : w.state.scheduler.stopped = false)
    {id : Bytes} {front back : List Bytes} (hnodup : w.state.scheduler.order.Nodup)
    (hscan : w.state.scheduler.order.rotate w.state.scheduler.cursor = front ++ id :: back) (hid : id ∈ w.granted)
    (hback : streamId ∈ back) : ∃ w', (watchedSystem streamId).Runs w w' ∧ ¬w'.Fair := by
  have hscanNodup : (front ++ id :: back).Nodup := by
    rw [← hscan, List.nodup_rotate]
    exact hnodup
  have hreg : streamId ∈ w.state.scheduler.order := by
    rw [← List.mem_rotate (n := w.state.scheduler.cursor), hscan]
    exact List.mem_append_right _ (List.mem_cons_of_mem _ hback)
  have hidReg : id ∈ w.state.scheduler.order := by
    rw [← List.mem_rotate (n := w.state.scheduler.cursor), hscan]
    exact List.mem_append_right _ List.mem_cons_self
  have hne : streamId ≠ id := by
    rintro rfl
    exact (List.nodup_cons.mp (List.nodup_append.mp hscanNodup).2.1).1 hback
  have hfront : streamId ∉ front := by
    intro hmem
    exact (List.nodup_append.mp hscanNodup).2.2 _ hmem _ (List.mem_cons_of_mem _ hback) rfl
  obtain ⟨v, hv, hsame, ⟨entry, buffer, hentry, hidle, hbuffer⟩, -⟩ := exists_idle h hreg hreg
  obtain ⟨u, hu, hsame', ⟨entry', buffer', hentry', hidle', hbuffer'⟩, hothers⟩ :=
    exists_idle (h.trans hv) (hsame.order ▸ hreg) (hsame.order ▸ hidReg)
  have horder : u.state.scheduler.order = w.state.scheduler.order := hsame'.order.trans hsame.order
  have hcursor : u.state.scheduler.cursor = w.state.scheduler.cursor := hsame'.cursor.trans hsame.cursor
  have hindex : front.length < (u.state.scheduler.order.rotate u.state.scheduler.cursor).idxOf streamId := by
    rw [horder, hcursor, hscan, List.idxOf_append_of_notMem hfront, List.idxOf_cons_ne _ (Ne.symm hne)]
    omega
  obtain ⟨task, scheduler, ha, htask⟩ := acquireTask_first
    ((hsame'.stopped.trans hsame.stopped).trans hrun) (by rw [horder, hcursor, hscan]) hentry' hidle' hbuffer' _ hindex
  have hready : u.state.scheduler.ready (offerAt front.length
      ((u.state.scheduler.order.rotate u.state.scheduler.cursor).idxOf streamId)) streamId = true := by
    simp [ready, offerAt, hothers streamId hne, hentry, hidle, hbuffer]
  have hregistered : streamId ∈ scheduler.order := by
    obtain ⟨-, -, -, -, hsameOrder, -⟩ := acquireTask_scan ha
    rw [hsameOrder, horder]
    exact hreg
  refine ⟨⟨{ scheduler := scheduler, tasks := u.state.tasks ++ [task] }, task.streamId :: u.granted⟩,
    Machine.Runs.next (a := .acquireTask (offerAt front.length
      ((u.state.scheduler.order.rotate u.state.scheduler.cursor).idxOf streamId))) (Machine.RunsWhen.trans hv hu) ?_,
    fun hfair => ?_⟩
  · dsimp only [watchedSystem, schedulerSystem]
    rw [ha]
    simp only [Option.map_some, WatchedState.watch, ha, hregistered, not_true_eq_false, if_false, htask, Ne.symm hne,
      hready, if_true]
  · rw [htask, hsame'.granted, hsame.granted] at hfair
    exact (List.nodup_cons.mp hfair).1 hid

/-- A step that breaks the round leads to a second task. -/
lemma exists_not_fair_of_broken (h : (watchedSystem streamId).Reachable w) (hinv : RoundInv streamId w)
    {a : SchedulerAction} {w' : WatchedState} (hbad : keepsRound streamId w a = false)
    (hn : (watchedSystem streamId).next w a = some w') : ∃ u, (watchedSystem streamId).Runs w' u ∧ ¬u.Fair := by
  have hreach := h.next hn
  cases a with
  | removeStream id =>
    simp only [keepsRound, Bool.or_eq_false_iff, Bool.not_eq_false', Bool.and_eq_true, bne_iff_ne, decide_eq_true_iff,
      List.any_eq_true] at hbad
    obtain ⟨hrun, ⟨⟨hne, hfront⟩, hhead⟩, other, hother, hdifferent, hmem⟩ := hbad
    have hreg : streamId ∈ (w.state.scheduler.removeStream id).order :=
      List.mem_filter.mpr ⟨List.mem_of_getElem? hhead, bne_iff_ne.mpr (Ne.symm hne)⟩
    rw [watched_next (by simp) rfl hreg] at hn
    cases hn
    have hself : other ≠ streamId := by
      rintro rfl
      exact (List.nodup_cons.mp hinv.fair).1 hother
    obtain ⟨front, back, hscan, hback⟩ := RoundRobin.rotate_remove hinv.nodup hhead hfront hmem hself hdifferent
    exact exists_not_fair hreach hrun (hinv.nodup.filter _) hscan hother hback
  | upsertStream id config buffer =>
    simp only [keepsRound, Bool.or_eq_false_iff, Bool.not_eq_false', Bool.and_eq_true, decide_eq_true_iff] at hbad
    obtain ⟨hrun, ⟨hid, hnew⟩, hfront⟩ := hbad
    have horder : (w.state.scheduler.upsertStream id config buffer).order = w.state.scheduler.order ++ [id] := by
      simp [RoundRobinInferScheduler.upsertStream, hnew]
    have hreg : streamId ∈ (w.state.scheduler.upsertStream id config buffer).order :=
      mem_upsertStream (List.mem_of_mem_take hfront)
    rw [watched_next (by simp) rfl hreg] at hn
    cases hn
    obtain ⟨front, back, hscan, hback⟩ := RoundRobin.rotate_append hinv.cursor_le hfront id
    have hnodup : (w.state.scheduler.order ++ [id]).Nodup :=
      List.nodup_append.mpr ⟨hinv.nodup, List.nodup_singleton id, fun x hx y hy hxy => by
        rw [hxy, List.mem_singleton.mp hy] at hx
        exact hnew hx⟩
    rw [← horder] at hscan hnodup
    exact exists_not_fair hreach hrun hnodup hscan hid hback
  | _ => simp [keepsRound] at hbad

end Broken

/-- The invariant in every run that keeps the round. -/
lemma roundInv_reachable {streamId : Bytes} {w : WatchedState}
    (h : (watchedSystem streamId).ReachableWhen (fun w a => keepsRound streamId w a = true) w) : RoundInv streamId w := by
  apply h.invariant (RoundInv.init streamId)
  intro v a u hv hguard hn
  exact hv.next hguard hn

/-- In a run that keeps the round of a stream no other stream is granted two tasks in it; and the first step that
does not keep the round leads to a second task. -/
theorem fair_of_keepsRound (streamId : Bytes) (w : WatchedState)
    (h : (watchedSystem streamId).ReachableWhen (fun w a => keepsRound streamId w a = true) w) :
    w.Fair ∧ ∀ a w', keepsRound streamId w a = false → (watchedSystem streamId).next w a = some w' →
      ∃ u, (watchedSystem streamId).Runs w' u ∧ ¬u.Fair := by
  have hinv := roundInv_reachable h
  refine ⟨(List.nodup_cons.mp hinv.fair).2, fun a w' hbad hn => ?_⟩
  exact exists_not_fair_of_broken (Machine.ReachableWhen.reachable h) hinv hbad hn

/-- Three streams are registered, and the second is granted a task because the first has no frame. -/
def secondGranted : List SchedulerAction :=
  [.upsertStream [0x41] {} (some 1), .upsertStream [0x54] {} (some 2), .upsertStream [0x53] {} (some 3),
    .acquireTask fun _ b => if b = 1 then none else some {}]

/-- The round of the third stream is fair until the first stream is removed. -/
theorem fair_of_keepsRound_secondGranted : ∃ w w' u,
    (watchedSystem [0x53]).ReachableWhen (fun w a => keepsRound [0x53] w a = true) w ∧ w.granted = [[0x54]] ∧
      w.Fair ∧ (watchedSystem [0x53]).next w (.removeStream [0x41]) = some w' ∧
      (watchedSystem [0x53]).Runs w' u ∧ ¬u.Fair := by
  obtain ⟨w, hw, hp⟩ := Machine.reachableWhen_of_exec_any (watchedSystem [0x53]) (keepsRound [0x53]) secondGranted
    (fun w => decide (w.granted = [[0x54]]) && !keepsRound [0x53] w (.removeStream [0x41])) (by decide)
  rw [Bool.and_eq_true, decide_eq_true_iff, Bool.not_eq_true'] at hp
  obtain ⟨hfair, hbroken⟩ := fair_of_keepsRound [0x53] w hw
  obtain ⟨w', hn⟩ : ∃ w', (watchedSystem [0x53]).next w (.removeStream [0x41]) = some w' := ⟨_, rfl⟩
  obtain ⟨u, hu, hunfair⟩ := hbroken _ w' hp.2 hn
  exact ⟨w, w', u, hw, hp.1, hfair, hn, hu, hunfair⟩

/-- The first stream is removed, which takes the second in front of the third again, and the second is granted
a second task before the third, which was ready for both. -/
theorem not_fair_after_removal :
    ∃ w, (watchedSystem [0x53]).Reachable w ∧ w.granted = [[0x54], [0x54]] ∧ ¬w.Fair := by
  obtain ⟨w, hw, hp⟩ := Machine.reachable_of_exec_any (watchedSystem [0x53])
    (secondGranted ++ [.completeTask 0, .removeStream [0x41], .acquireTask fun _ _ => some {}])
    (fun w => decide (w.granted = [[0x54], [0x54]])) (by decide)
  have hgranted := of_decide_eq_true hp
  refine ⟨w, hw, hgranted, fun hfair => ?_⟩
  rw [WatchedState.Fair, hgranted] at hfair
  exact absurd hfair (by decide)

end MediaAgent
