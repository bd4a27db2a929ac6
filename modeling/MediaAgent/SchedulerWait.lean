import Mathlib.Data.Finset.Card
import Mathlib.Logic.Function.Basic
import MediaAgent.InferLoop
import MediaAgent.InferScheduler
import MediaAgent.Library.ConditionVariable

/-!
# The wait of the inference threads

The wait of `RoundRobinInferScheduler::acquireTask` with its condition variable, over the scheduler and the buffers of its
entries. The predicate looks at one entry after the other under the mutex of the scheduler, and each buffer has a mutex of
its own: a pull thread may enqueue a frame between two looks, and then calls `notifyFrameReady`, which takes the mutex of the
scheduler. The scan that `acquireTask` makes before it waits changes nothing when it fails, and is left out.
-/

namespace MediaAgent
open Std TreeMaps Transition ConditionVariable

/-- The order in which a compiler evaluates the arguments of
`enqueuePendingFrame(*meta, std::move(image), image != nullptr)`, which the language leaves open: from the right, the
comparison sees the picture; from the left it sees what the move has left. -/
inductive ArgumentOrder
  | rightToLeft
  | leftToRight
  deriving DecidableEq, Repr

/-- The calls that are made on a buffer, other than by the scheduler. -/
def BufferCall.byOthers : BufferCall → Bool
  | .worker .selectFrameForInference => false
  | .worker (.clearInferenceSelection _ state) => state == .dropped
  | _ => true

/-- The pull thread calls `notifyFrameReady` after the call. -/
def BufferCall.notifiesReady (arguments : ArgumentOrder) (b : StreamBuffer) : BufferCall → Bool
  | .enqueueFrame (some frame) => !b.stopped && arguments == .rightToLeft && frame.decodedImage.isSome
  | _ => false

structure TaskQueueState where
  scheduler : RoundRobinInferScheduler := {}
  buffers : BufferId → StreamBuffer := fun _ => {}

inductive TaskQueueAction
  | upsertStream (streamId : Bytes) (config : StreamConfig) (buffer : Option BufferId)
  | removeStream (streamId : Bytes)
  | completeTask (streamId : Bytes)
  | cancelTask (streamId : Bytes)
  | stop
  | buffer (b : BufferId) (call : BufferCall)
  | grant (offset : Nat)
  | refuse

namespace TaskQueueState

/-- What `selectFrameForInference` of a buffer returns. -/
def offered (s : TaskQueueState) (_ : Nat) (b : BufferId) : Option FrameBundle :=
  (s.buffers b).selectFrameForInference.1

/-- The turn of the scan at an offset, when it finds a task. -/
def grant (s : TaskQueueState) (offset : Nat) : Option TaskQueueState :=
  (s.scheduler.tryEntry s.offered offset).map fun (task, scheduler) =>
    { scheduler := scheduler
      buffers := Function.update s.buffers task.buffer (s.buffers task.buffer).selectFrameForInference.2 }

end TaskQueueState

/-- The scheduler and the buffers, with the wait for a task as one step. -/
def taskQueueSystem : Machine TaskQueueState TaskQueueAction where
  init := {}
  next s
    | .upsertStream id config buffer => some { s with scheduler := s.scheduler.upsertStream id config buffer }
    | .removeStream id => some { s with scheduler := s.scheduler.removeStream id }
    | .completeTask id => some { s with scheduler := s.scheduler.completeTask id }
    | .cancelTask id => some { s with scheduler := s.scheduler.cancelTask id }
    | .stop => some { s with scheduler := s.scheduler.stop }
    | .buffer b call =>
      if call.byOthers then some { s with buffers := Function.update s.buffers b (call.apply (s.buffers b)) } else none
    | .grant offset => if s.scheduler.stopped then none else s.grant offset
    | .refuse => if s.scheduler.stopped then some s else none

/-- The places of an inference thread: the predicate reads `stopped_`, and then looks at the entries in turn. -/
inductive TaskLook
  | stopped
  | entry (offset : Nat)
  deriving DecidableEq, Repr

def taskMonitor (arguments : ArgumentOrder) : Monitor taskQueueSystem Nat TaskLook where
  start := .stopped
  look _ p s :=
    match p with
    | .stopped => if s.scheduler.stopped then .taken .refuse else .next (.entry 0)
    | .entry offset =>
      if offset < s.scheduler.order.length then
        if (s.scheduler.tryEntry s.offered offset).isSome then .taken (.grant offset) else .next (.entry (offset + 1))
      else .wait
  role a _ :=
    match a with
    | .grant _ | .refuse => .waiter
    | .buffer _ _ => .unlocked
    | _ => .locked
  notice a s :=
    match a with
    | .buffer b call => if call.notifiesReady arguments (s.buffers b) then .oneLater else .nobody
    | .grant _ | .refuse => .nobody
    | _ => .everybody
  enters _ _ _ := true
  lockedDelivery := true
  waiter_of_taken k p s a h := by
    cases p with
    | stopped =>
      dsimp only at h
      split at h <;> cases h
      rfl
    | entry offset =>
      dsimp only at h
      split at h
      · split at h <;> cases h
        rfl
      · cases h

/-! ## What a buffer has to select -/

namespace StreamBuffer

/-- There is a frame to select. -/
def hasCandidate (b : StreamBuffer) : Bool := b.newestIdleFrame.isSome

lemma hasCandidate_iff (b : StreamBuffer) :
    b.hasCandidate = true ↔ ∃ k ∈ b.frameOrder, ∃ g, b.frames[k]? = some g ∧ g.isCandidate := by
  unfold hasCandidate
  cases h : b.newestIdleFrame with
  | none =>
    refine ⟨fun hsome => by simp at hsome, fun ⟨k, hk, g, hg, hcandidate⟩ => ?_⟩
    exact absurd hcandidate (newestIdleFrame_eq_none h k hk g hg)
  | some p =>
    obtain ⟨id, f⟩ := p
    have hn := newestIdleFrame_eq_some h
    obtain ⟨older, newer, horder, -⟩ := hn.newest
    exact ⟨fun _ => ⟨id, by simp [horder], f, hn.lookup, hn.candidate⟩, fun _ => rfl⟩

lemma hasCandidate_select {b : StreamBuffer} (h : b.selectFrameForInference.1.isSome = true) :
    b.hasCandidate = true := by
  unfold selectFrameForInference at h
  unfold hasCandidate
  cases hn : b.newestIdleFrame with
  | none => simp [hn] at h
  | some p => rfl

/-- A selection leaves no other frame to select. -/
lemma hasCandidate_after_select {b : StreamBuffer} (h : b.hasCandidate = true) :
    b.selectFrameForInference.2.hasCandidate = false := by
  rw [← Bool.not_eq_true, hasCandidate_iff]
  rintro ⟨k, hk, g, hg, hcandidate⟩
  rcases b.selectFrameForInference_cases with ⟨hnone, hothers⟩ | ⟨id, f, hn, -, he⟩
  · obtain ⟨k', hk', g', hg', hcandidate'⟩ := b.hasCandidate_iff.mp h
    exact hothers k' hk' g' hg' hcandidate'
  · rw [he] at hk hg
    dsimp only at hk hg
    rw [lookup_markOthersDone, lookup_setInferState] at hg
    split at hg
    · -- the selected frame
      rename_i hid
      subst hid
      rw [hn.lookup] at hg
      simp only [Option.map_some, Option.some.injEq, giveUp, ne_eq, not_true_eq_false, false_and, and_false,
        ite_false] at hg
      rw [← hg] at hcandidate
      exact InferState.noConfusion hcandidate.2
    · -- a frame that is given up
      rename_i hid
      obtain ⟨f', -, rfl⟩ := Option.map_eq_some_iff.mp hg
      unfold giveUp at hcandidate
      split at hcandidate
      · exact InferState.noConfusion hcandidate.2
      · rename_i hkept
        have hidle : f'.inferState = .idle := hcandidate.2
        exact hkept ⟨hk, Ne.symm hid, by simp [isInferenceTerminal, hidle]⟩

lemma hasCandidate_mono {b b' : StreamBuffer} (h : b'.hasCandidate = true)
    (hmono : ∀ k ∈ b'.frameOrder, ∀ g, b'.frames[k]? = some g → g.isCandidate →
      k ∈ b.frameOrder ∧ b.frames[k]? = some g) : b.hasCandidate = true := by
  obtain ⟨k, hk, g, hg, hcandidate⟩ := b'.hasCandidate_iff.mp h
  obtain ⟨hk', hg'⟩ := hmono k hk g hg hcandidate
  exact b.hasCandidate_iff.mpr ⟨k, hk', g, hg', hcandidate⟩

lemma hasCandidate_of_setInferState {b : StreamBuffer} {id : Int} {state : InferState} (hstate : state ≠ .idle)
    (h : hasCandidate { b with frames := setInferState b.frames id state } = true) : b.hasCandidate = true := by
  apply hasCandidate_mono h
  intro k hk g hg hcandidate
  dsimp only at hk hg
  rw [lookup_setInferState] at hg
  split at hg
  · obtain ⟨f, -, rfl⟩ := Option.map_eq_some_iff.mp hg
    exact absurd hcandidate.2 hstate
  · exact ⟨hk, hg⟩

/-- A call after which the scheduler is not notified gives it no frame to select. -/
lemma hasCandidate_of_apply {b : StreamBuffer} {call : BufferCall} (hothers : call.byOthers = true)
    (hquiet : call.notifiesReady .rightToLeft b = false) (h : (call.apply b).hasCandidate = true) :
    b.hasCandidate = true := by
  cases call with
  | enqueuePacket packet =>
    apply hasCandidate_mono h
    intro k hk g hg _
    cases packet with
    | none => exact ⟨hk, hg⟩
    | some p =>
      unfold BufferCall.apply StreamBuffer.enqueuePacket at hk hg
      dsimp only at hk hg
      split at hk
      · rename_i hstopped
        rw [if_pos hstopped] at hg
        exact ⟨hk, hg⟩
      · rename_i hstopped
        rw [if_neg hstopped] at hg
        exact ⟨hk, hg⟩
  | enqueueFrame frame =>
    cases frame with
    | none => exact h
    | some f =>
      simp only [BufferCall.apply] at h
      rcases b.enqueueFrame_cases f with ⟨-, he⟩ | ⟨hopen, he⟩ <;> rw [he] at h
      · exact h
      · have hblank : f.decodedImage.isSome = false := by simpa [BufferCall.notifiesReady, hopen] using hquiet
        apply hasCandidate_mono h
        intro k hk g hg hcandidate
        dsimp only at hk hg
        rw [lookup_insert] at hg
        split at hg
        · cases hg
          exact absurd (hblank.symm.trans hcandidate.1) (by decide)
        · rename_i hne
          refine ⟨?_, hg⟩
          rcases List.mem_append.mp hk with hk | hk
          · exact hk
          · exact absurd (List.mem_singleton.mp hk).symm hne
  | popPacket =>
    apply hasCandidate_mono h
    intro k hk g hg _
    unfold BufferCall.apply StreamBuffer.popPacket at hk hg
    dsimp only at hk hg
    cases hpackets : b.packets <;> rw [hpackets] at hk hg <;> exact ⟨hk, hg⟩
  | releaseFrame frameId =>
    apply hasCandidate_mono h
    intro k hk g hg _
    unfold BufferCall.apply StreamBuffer.releaseFrame at hk hg
    dsimp only at hk hg
    rw [lookup_erase] at hg
    split at hg
    · cases hg
    · exact ⟨(List.mem_filter.mp hk).1, hg⟩
  | takeCachedInferenceResult context frameId pts =>
    apply hasCandidate_mono h
    intro k hk g hg _
    exact ⟨by simpa [BufferCall.apply] using hk, by simpa [BufferCall.apply] using hg⟩
  | stop => exact h
  | worker call =>
    cases call with
    | selectFrameForInference => cases hothers
    | markInferenceRunning id => exact hasCandidate_of_setInferState (by decide) h
    | markInferenceDone result => exact hasCandidate_of_setInferState (by decide) h
    | clearInferenceSelection id state =>
      have hdropped : state = .dropped := by simpa [BufferCall.byOthers] using hothers
      exact hasCandidate_of_setInferState (by simp [hdropped]) h
    | updateCachedInferenceResult result =>
      apply hasCandidate_mono h
      intro k hk g hg _
      unfold BufferCall.apply WorkerCall.apply StreamBuffer.updateCachedInferenceResult at hk hg
      dsimp only at hk hg
      split at hk
      · rename_i hneg
        rw [if_pos hneg] at hg
        exact ⟨hk, hg⟩
      · rename_i hneg
        rw [if_neg hneg] at hg
        exact ⟨hk, hg⟩

end StreamBuffer

/-! ## The entries that could be granted -/

namespace RoundRobinInferScheduler

/-- The buffer that the turn of the scan at an offset asks for a frame. -/
def askedAt (s : RoundRobinInferScheduler) (offset : Nat) : Option BufferId :=
  match s.order[(s.cursor + offset) % s.order.length]? with
  | none => none
  | some streamId =>
    match s.entries[streamId]? with
    | none => none
    | some entry => if entry.inflight then none else entry.buffer

/-- A registered entry that is not in flight has the buffer. -/
def Awaits (s : RoundRobinInferScheduler) (buffer : BufferId) : Prop :=
  ∃ id ∈ s.order, ∃ entry, s.entries[id]? = some entry ∧ entry.inflight = false ∧ entry.buffer = some buffer

variable {s s' : RoundRobinInferScheduler} {offset : Nat} {buffer : BufferId}

lemma askedAt_eq_some : s.askedAt offset = some buffer ↔ ∃ id entry,
    s.order[(s.cursor + offset) % s.order.length]? = some id ∧ s.entries[id]? = some entry ∧ entry.inflight = false ∧
      entry.buffer = some buffer := by
  unfold askedAt
  split
  · rename_i hnone
    simp [hnone]
  · rename_i id hid
    split
    · rename_i hnone
      simp [hid, hnone]
    · rename_i entry hentry
      simp [hid, hentry]

/-- The scan asks the buffers of all registered entries. -/
lemma exists_askedAt : (∃ offset < s.order.length, s.askedAt offset = some buffer) ↔ s.Awaits buffer := by
  constructor
  · rintro ⟨offset, -, h⟩
    obtain ⟨id, entry, hid, hentry, hidle, hbuffer⟩ := askedAt_eq_some.mp h
    exact ⟨id, List.mem_of_getElem? hid, entry, hentry, hidle, hbuffer⟩
  · rintro ⟨id, hid, entry, hentry, hidle, hbuffer⟩
    obtain ⟨i, hi, hget⟩ := List.mem_iff_getElem.mp hid
    obtain ⟨offset, hoffset, hindex⟩ := exists_offset s.cursor hi
    refine ⟨offset, hoffset, askedAt_eq_some.mpr ⟨id, entry, ?_, hentry, hidle, hbuffer⟩⟩
    rw [hindex, List.getElem?_eq_getElem hi, hget]

/-- A turn of the scan fails when it asks no buffer, or one without a frame. -/
lemma tryEntry_isSome {offered : Nat → BufferId → Option FrameBundle} :
    (s.tryEntry offered offset).isSome = true ↔
      ∃ buffer, s.askedAt offset = some buffer ∧ (offered offset buffer).isSome = true := by
  unfold tryEntry askedAt
  dsimp only
  cases s.order[(s.cursor + offset) % s.order.length]? with
  | none => simp
  | some id =>
    dsimp only
    cases s.entries[id]? with
    | none => simp
    | some entry =>
      dsimp only
      by_cases hinflight : entry.inflight = true
      · simp [hinflight]
      · rw [if_neg hinflight, if_neg hinflight]
        cases entry.buffer with
        | none => simp
        | some buffer =>
          dsimp only
          cases hframe : offered offset buffer <;> simp [hframe]

/-- A task is for the buffer that was asked, whose entry is in flight afterwards. -/
lemma tryEntry_granted {offered : Nat → BufferId → Option FrameBundle} {task : InferTask}
    (h : s.tryEntry offered offset = some (task, s')) :
    s.askedAt offset = some task.buffer ∧ (offered offset task.buffer).isSome = true ∧ s'.stopped = s.stopped ∧
      ∀ b, s'.Awaits b → s.Awaits b := by
  unfold tryEntry at h
  dsimp only at h
  split at h
  · cases h
  · rename_i id hid
    split at h
    · cases h
    · rename_i entry hentry
      split at h
      · cases h
      · rename_i hidle
        split at h
        · cases h
        · rename_i buffer hbuffer
          split at h
          · cases h
          · rename_i frame hframe
            cases h
            refine ⟨askedAt_eq_some.mpr ⟨id, entry, hid, hentry, by simpa using hidle, hbuffer⟩, by simp [hframe], rfl, ?_⟩
            rintro b ⟨id', hid', entry', hentry', hidle', hbuffer'⟩
            dsimp only at hid' hentry'
            rw [lookup_insert] at hentry'
            split at hentry'
            · cases hentry'
              cases hidle'
            · exact ⟨id', hid', entry', hentry', hidle', hbuffer'⟩

end RoundRobinInferScheduler

namespace TaskQueueState

/-- The buffers asked before an offset that have a frame now. -/
def readyBefore (s : TaskQueueState) (offset : Nat) : Finset BufferId :=
  ((List.range offset).filterMap s.scheduler.askedAt).toFinset.filter fun b => (s.buffers b).hasCandidate = true

/-- The buffers of registered idle entries that have a frame. -/
def ready (s : TaskQueueState) : Finset BufferId := s.readyBefore s.scheduler.order.length

variable {s t : TaskQueueState} {b : BufferId}

lemma mem_readyBefore {offset : Nat} : b ∈ s.readyBefore offset ↔
    (∃ i < offset, s.scheduler.askedAt i = some b) ∧ (s.buffers b).hasCandidate = true := by
  simp [readyBefore]

lemma mem_ready : b ∈ s.ready ↔ s.scheduler.Awaits b ∧ (s.buffers b).hasCandidate = true := by
  rw [ready, mem_readyBefore, RoundRobinInferScheduler.exists_askedAt]

lemma readyBefore_mono {m n : Nat} (h : m ≤ n) : s.readyBefore m ⊆ s.readyBefore n := by
  intro b hb
  obtain ⟨⟨i, hi, hasked⟩, hframe⟩ := mem_readyBefore.mp hb
  exact mem_readyBefore.mpr ⟨⟨i, by omega, hasked⟩, hframe⟩

/-- A turn that finds nothing passes no buffer with a frame. -/
lemma readyBefore_succ {offset : Nat} (h : (s.scheduler.tryEntry s.offered offset).isSome = false) :
    s.readyBefore (offset + 1) ⊆ s.readyBefore offset := by
  intro b hb
  obtain ⟨⟨i, hi, hasked⟩, hframe⟩ := mem_readyBefore.mp hb
  by_cases hlast : i = offset
  · subst hlast
    have hoffered : (s.offered i b).isSome = true := by
      unfold offered StreamBuffer.selectFrameForInference
      unfold StreamBuffer.hasCandidate at hframe
      obtain ⟨p, hp⟩ := Option.isSome_iff_exists.mp hframe
      simp [hp]
    have hfound := RoundRobinInferScheduler.tryEntry_isSome.mpr ⟨b, hasked, hoffered⟩
    exact absurd (h.symm.trans hfound) (by decide)
  · exact mem_readyBefore.mpr ⟨⟨i, by omega, hasked⟩, hframe⟩

lemma grant_eq_some {offset : Nat} (h : s.grant offset = some t) :
    ∃ buffer, s.scheduler.askedAt offset = some buffer ∧ (s.buffers buffer).hasCandidate = true ∧
      t.scheduler.stopped = s.scheduler.stopped ∧ (∀ b, t.scheduler.Awaits b → s.scheduler.Awaits b) ∧
      t.buffers = Function.update s.buffers buffer (s.buffers buffer).selectFrameForInference.2 := by
  obtain ⟨⟨task, scheduler⟩, htry, rfl⟩ := Option.map_eq_some_iff.mp h
  obtain ⟨hasked, hoffered, hstopped, hawaits⟩ := RoundRobinInferScheduler.tryEntry_granted htry
  exact ⟨task.buffer, hasked, StreamBuffer.hasCandidate_select hoffered, hstopped, hawaits, rfl⟩

/-- A granted task takes its buffer out of those that are ready. -/
lemma card_ready_grant {offset : Nat} (h : s.grant offset = some t) (hlt : offset < s.scheduler.order.length) :
    t.ready.card < s.ready.card := by
  obtain ⟨buffer, hasked, hcandidate, -, hawaits, hbuffers⟩ := grant_eq_some h
  have hready : buffer ∈ s.ready := mem_readyBefore.mpr ⟨⟨offset, hlt, hasked⟩, hcandidate⟩
  have hgone : buffer ∉ t.ready := by
    intro hmem
    have hafter := (mem_ready.mp hmem).2
    rw [hbuffers, Function.update_self, StreamBuffer.hasCandidate_after_select hcandidate] at hafter
    cases hafter
  apply Finset.card_lt_card
  refine (Finset.ssubset_iff_of_subset ?_).mpr ⟨buffer, hready, hgone⟩
  intro b hb
  have hne : b ≠ buffer := by
    rintro rfl
    exact hgone hb
  obtain ⟨hb, hframe⟩ := mem_ready.mp hb
  rw [hbuffers, Function.update_of_ne hne] at hframe
  exact mem_ready.mpr ⟨hawaits b hb, hframe⟩

/-- A call on a buffer makes at most this buffer ready, and only if the scheduler is notified of it. -/
lemma card_readyBefore_buffer {call : BufferCall} (hothers : call.byOthers = true) (offset : Nat) :
    (TaskQueueState.readyBefore { s with buffers := Function.update s.buffers b (call.apply (s.buffers b)) } offset).card ≤
      (s.readyBefore offset).card + if call.notifiesReady .rightToLeft (s.buffers b) then 1 else 0 := by
  split
  · refine (Finset.card_le_card (t := insert b (s.readyBefore offset)) ?_).trans (Finset.card_insert_le _ _)
    intro k hk
    obtain ⟨hasked, hframe⟩ := mem_readyBefore.mp hk
    by_cases hkb : k = b
    · exact hkb ▸ Finset.mem_insert_self ..
    · dsimp only at hframe
      rw [Function.update_of_ne hkb] at hframe
      exact Finset.mem_insert_of_mem (mem_readyBefore.mpr ⟨hasked, hframe⟩)
  · rename_i hquiet
    rw [Nat.add_zero]
    apply Finset.card_le_card
    intro k hk
    obtain ⟨hasked, hframe⟩ := mem_readyBefore.mp hk
    refine mem_readyBefore.mpr ⟨hasked, ?_⟩
    dsimp only at hframe
    by_cases hkb : k = b
    · subst hkb
      rw [Function.update_self] at hframe
      exact StreamBuffer.hasCandidate_of_apply hothers (Bool.eq_false_iff.mpr hquiet) hframe
    · rwa [Function.update_of_ne hkb] at hframe

/-- What another thread does without the mutex of the scheduler. -/
lemma next_unlocked {arguments : ArgumentOrder} {a : TaskQueueAction} (hn : taskQueueSystem.next s a = some t)
    (hrole : (taskMonitor arguments).role a s = .unlocked) : ∃ b call, a = .buffer b call ∧ call.byOthers = true ∧
      t = { s with buffers := Function.update s.buffers b (call.apply (s.buffers b)) } := by
  cases a with
  | buffer b call =>
    obtain ⟨hothers, hn⟩ := Option.ite_none_right_eq_some.mp hn
    exact ⟨b, call, rfl, hothers, (Option.some.inj hn).symm⟩
  | _ => cases hrole

/-- A ready buffer is counted for each thread that it is to wake. -/
def counted : Counted (taskMonitor .rightToLeft) where
  work s := s.ready.card
  missed _ p s :=
    match p with
    | .stopped => 0
    | .entry offset => (s.readyBefore offset).card
  closed s := s.scheduler.stopped = true
  missed_start _ _ := rfl
  next s k p p' _ hlook := by
    cases p with
    | stopped =>
      simp only [taskMonitor] at hlook
      split at hlook <;> cases hlook
      exact Nat.le_refl _
    | entry offset =>
      simp only [taskMonitor] at hlook
      split at hlook
      · split at hlook <;> cases hlook
        exact Finset.card_le_card (readyBefore_succ (Bool.eq_false_iff.mpr ‹_›))
      · cases hlook
  wait s k p _ hlook := by
    cases p with
    | stopped =>
      simp only [taskMonitor] at hlook
      split at hlook <;> cases hlook
    | entry offset =>
      simp only [taskMonitor] at hlook
      split at hlook
      · split at hlook <;> cases hlook
      · exact Finset.card_le_card (readyBefore_mono (Nat.not_lt.mp ‹_›))
  taken s s' k p a _ hlook hn := by
    cases p with
    | stopped =>
      simp only [taskMonitor] at hlook
      split at hlook <;> cases hlook
      obtain ⟨hstopped, hn⟩ := Option.ite_none_right_eq_some.mp hn
      cases hn
      exact .inl hstopped
    | entry offset =>
      simp only [taskMonitor] at hlook
      split at hlook
      · split at hlook <;> cases hlook
        obtain ⟨hrunning, hn⟩ := Option.ite_none_left_eq_some.mp hn
        exact .inr ⟨hrunning, card_ready_grant hn ‹_›⟩
      · cases hlook
  op s s' a _ hn hrole hnotice := by
    cases a with
    | buffer b call =>
      obtain ⟨hothers, hn⟩ := Option.ite_none_right_eq_some.mp hn
      cases hn
      by_cases hstopped : s.scheduler.stopped = true
      · exact .inl hstopped
      · refine .inr (.inr ⟨hstopped, (card_readyBefore_buffer hothers _).trans ?_⟩)
        simp only [taskMonitor]
        split <;> exact Nat.le_refl _
    | grant offset | refuse => rcases hrole with hrole | hrole <;> cases hrole
    | _ => exact absurd rfl hnotice
  unlocked s s' a _ hn hrole := by
    obtain ⟨b, call, rfl, hothers, rfl⟩ := next_unlocked hn hrole
    by_cases hstopped : s.scheduler.stopped = true
    · exact .inl hstopped
    · refine .inr ⟨hstopped, fun k p => ?_⟩
      cases p with
      | stopped => exact Nat.zero_le _
      | entry offset =>
        refine (card_readyBefore_buffer hothers _).trans (Nat.le_of_eq ?_)
        simp only [taskMonitor, if_true]
        split <;> rfl

def announced (arguments : ArgumentOrder) : Announced (taskMonitor arguments) where
  announced s := s.scheduler.stopped = true
  at_init := Bool.false_ne_true
  told s s' a _ hn hstopped := by
    cases a with
    | upsertStream id config buffer =>
      cases hn
      exact .inl hstopped
    | removeStream id =>
      cases hn
      exact .inl hstopped
    | completeTask id | cancelTask id =>
      cases hn
      exact .inl ((s.scheduler.completeTask_order id).2.symm.trans hstopped)
    | stop => exact .inr (.inr ⟨Role.noConfusion, rfl⟩)
    | buffer b call =>
      obtain ⟨-, hn⟩ := Option.ite_none_right_eq_some.mp hn
      cases hn
      exact .inl hstopped
    | grant offset =>
      obtain ⟨-, hn⟩ := Option.ite_none_left_eq_some.mp hn
      obtain ⟨-, -, -, hsame, -⟩ := grant_eq_some hn
      exact .inl (hsame.symm.trans hstopped)
    | refuse =>
      obtain ⟨-, hn⟩ := Option.ite_none_right_eq_some.mp hn
      cases hn
      exact .inl hstopped
  seen s k _ hstopped := ⟨.refuse, by simp [taskMonitor, hstopped]⟩

end TaskQueueState

/-- Where the comparison sees the picture, no frame waits for an inference thread that sleeps: while threads are blocked in
`acquireTask` the scheduler is not stopped, and for each buffer of an idle entry that has a frame a thread is awake in
`acquireTask` or `notifyFrameReady` is still to be called. -/
theorem acquireTask_wakes {m : State TaskQueueState Nat TaskLook} (h : (taskMonitor .rightToLeft).machine.Reachable m)
    (hwaiting : m.waiting ≠ []) :
    m.shared.scheduler.stopped = false ∧ m.shared.ready.card ≤ m.woken.length + m.holding + m.due := by
  have hrunning : ¬m.shared.scheduler.stopped = true := fun hstopped => by
    have hover := (TaskQueueState.announced .rightToLeft).overtaken_of_blocked h hstopped hwaiting
    have hnever : m.overtaken = false := not_overtaken (fun a s heverybody hrole => by
      obtain ⟨b, call, rfl⟩ : ∃ b call, a = .buffer b call := by
        cases a with
        | buffer b call => exact ⟨b, call, rfl⟩
        | _ => cases hrole
      simp only [taskMonitor] at heverybody
      split at heverybody <;> cases heverybody) h
    exact absurd (hnever.symm.trans hover) (by decide)
  exact ⟨Bool.eq_false_iff.mpr hrunning, (TaskQueueState.counted.work_covered h hwaiting).resolve_left hrunning⟩

def decodedFrame : FrameBundle := { frameId := 0, decodedImage := some {} }

/-- A thread has found nothing; a frame is enqueued before it blocks, and the scheduler is notified when it has. -/
def lateFrameRun : List (Label TaskQueueAction Nat) :=
  [.op (.upsertStream [0x53] {} (some 1)), .enter 200, .look, .look, .op (.buffer 1 (.enqueueFrame (some decodedFrame))),
    .look]

theorem acquireTask_wakes_lateFrame : ∃ m, (taskMonitor .rightToLeft).machine.Reachable m ∧ m.waiting = [200] ∧
    m.shared.ready.card ≤ m.woken.length + m.holding + m.due ∧ 1 ∈ m.shared.ready := by
  obtain ⟨m, hm, hp⟩ := Machine.reachable_of_exec_any (taskMonitor .rightToLeft).machine lateFrameRun
    (fun m => decide (m.waiting = [200] ∧ 1 ∈ m.shared.ready)) (by decide +kernel)
  obtain ⟨hwaiting, hready⟩ := of_decide_eq_true hp
  exact ⟨m, hm, hwaiting, (acquireTask_wakes hm (by simp [hwaiting])).2, hready⟩

/-- Where the arguments are evaluated from the left the scheduler is not notified, and the thread sleeps. -/
theorem not_notified_leftToRight : ∃ m, (taskMonitor .leftToRight).machine.Reachable m ∧ m.waiting = [200] ∧
    m.inside = 1 ∧ m.due = 0 ∧ 1 ∈ m.shared.ready := by
  obtain ⟨m, hm, hp⟩ := Machine.reachable_of_exec_any (taskMonitor .leftToRight).machine lateFrameRun
    (fun m => decide (m.waiting = [200] ∧ m.inside = 1 ∧ m.due = 0 ∧ 1 ∈ m.shared.ready)) (by decide +kernel)
  exact ⟨m, hm, of_decide_eq_true hp⟩

end MediaAgent
