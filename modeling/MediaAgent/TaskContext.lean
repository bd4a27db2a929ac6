import MediaAgent.ConfigAgreement
import MediaAgent.RegisteredBuffers

/-!
# The context that a task is finished in

`inferLoop` on the workers, beside the config thread and the pull threads. A task carries the buffer that its frame
was taken from; the context whose detector, recorder and snapshotter serve it is looked up again by the stream id.
Between the two the config thread may register another context under that id.
-/

namespace MediaAgent
open Std TreeMaps Transition

/-- Where a worker stands that has acquired a task: before `findStream`, before the test of what it has returned,
before the lock of the detector, or before the call that gives the task back. -/
inductive InferPc
  | finding (task : InferTask)
  | found (task : InferTask) (stream : Option ContextId)
  | detecting (task : InferTask) (c : ContextId)
  | ending (task : InferTask)

/-- The use of a context for the frame of a task: the configuration of the detector that has inferred it, and
whether the recorder and the snapshotter were triggered and an alarm was pushed. -/
structure ContextUse where
  task : InferTask
  context : ContextId
  detector : StreamConfig
  recorded : Bool
  snapshotted : Bool
  reported : Bool

structure InferenceState where
  threads : ThreadedState := {}
  workers : TreeMap Nat InferPc := ∅
  uses : List ContextUse := []

namespace InferenceState

def withScheduler (s : InferenceState) (scheduler : RoundRobinInferScheduler) : InferenceState :=
  { s with threads := { s.threads with pipeline := { s.threads.pipeline with scheduler := scheduler } } }

def acquireTask (s : InferenceState) (w : Nat) (offered : Nat → BufferId → Option FrameBundle) :
    Option InferenceState :=
  match s.workers[w]? with
  | some _ => none
  | none =>
    match s.threads.pipeline.scheduler.acquireTask offered with
    | none => some s
    | some (task, scheduler) =>
      some { s.withScheduler scheduler with workers := s.workers.insert w (.finding task) }

def findStream (s : InferenceState) (w : Nat) : Option InferenceState :=
  match s.workers[w]? with
  | some (.finding task) =>
    some { s with workers := s.workers.insert w (.found task s.threads.pipeline.streams[task.streamId]?) }
  | _ => none

/-- The context if there is one, it has not been stopped, and the frame has a picture. -/
def usable (s : InferenceState) (task : InferTask) (stream : Option ContextId) : Option ContextId :=
  match stream with
  | none => none
  | some c =>
    match s.threads.pipeline.contexts[c]? with
    | none => none
    | some context => if context.stopFlag || task.frame.decodedImage.isNone then none else some c

def checkStream (s : InferenceState) (w : Nat) : Option InferenceState :=
  match s.workers[w]? with
  | some (.found task stream) =>
    match s.usable task stream with
    | none => some { s with workers := s.workers.insert w (.ending task) }
    | some c => some { s with workers := s.workers.insert w (.detecting task c) }
  | _ => none

/-- What is done under the lock of the detector; `alarm` tells whether there are alarm objects. -/
def useContext (task : InferTask) (c : ContextId) (stream : StreamContext) (detector : StreamConfig) (alarm : Bool) :
    ContextUse where
  task := task
  context := c
  detector := detector
  recorded := alarm && !stream.transportConfig.alarmRecordDir.isEmpty &&
    decide (0 < stream.transportConfig.alarmRecordDurationS)
  snapshotted := alarm && !stream.transportConfig.alarmSnapshotDir.isEmpty
  reported := alarm

def detect (s : InferenceState) (w : Nat) (alarm : Bool) : Option InferenceState :=
  match s.workers[w]? with
  | some (.detecting task c) =>
    let s := { s with workers := s.workers.insert w (.ending task) }
    match s.threads.pipeline.contexts[c]? with
    | none => some s
    | some stream =>
      match stream.detectorRuntime.detector with
      | none => some s
      | some detector => some { s with uses := s.uses ++ [useContext task c stream detector alarm] }
  | _ => none

/-- `completeTask` or `cancelTask`, which do the same. -/
def endTask (s : InferenceState) (w : Nat) : Option InferenceState :=
  match s.workers[w]? with
  | some (.ending task) =>
    some { s.withScheduler (s.threads.pipeline.scheduler.completeTask task.streamId) with
      workers := s.workers.erase w }
  | _ => none

end InferenceState

inductive InferenceAction
  | thread (a : ThreadAction)
  | acquireTask (w : Nat) (offered : Nat → BufferId → Option FrameBundle)
  | findStream (w : Nat)
  | checkStream (w : Nat)
  | detect (w : Nat) (alarm : Bool)
  | endTask (w : Nat)

/-- Any number of workers beside the threads that change the configuration. -/
def inferenceSystem (same : SameProtoMessage) (agentId : Bytes) : Machine InferenceState InferenceAction where
  init := {}
  next s
    | .thread a => ((threadSystem same agentId).next s.threads a).map fun threads => { s with threads := threads }
    | .acquireTask w offered => s.acquireTask w offered
    | .findStream w => s.findStream w
    | .checkStream w => s.checkStream w
    | .detect w alarm => s.detect w alarm
    | .endTask w => s.endTask w

namespace InferenceState

/-- Every frame has been inferred, recorded and reported by the context whose buffer it was taken from. -/
def OwnContext (s : InferenceState) : Prop := ∀ use ∈ s.uses, use.context = use.task.buffer

/-- A worker holds a task of the stream with another context's frame, and has not looked the stream up. -/
def awaitsOther (s : InferenceState) (id : Bytes) (c : ContextId) : Bool :=
  s.workers.toList.any fun entry =>
    match entry.2 with
    | .finding task => task.streamId == id && task.buffer != c && task.frame.decodedImage.isSome
    | _ => false

end InferenceState

/-! ## Workers -/

/-- A context that a worker may find for a task: its own one, one that the worker will refuse, or any for a frame
without a picture. -/
def Suits (p : PipelineState) (c : ContextId) (task : InferTask) : Prop :=
  c = task.buffer ∨ p.Flagged c ∨ task.frame.decodedImage = none

lemma Suits.mono {p q : PipelineState} (hle : p.InfoLe q) {c : ContextId} {task : InferTask} (h : Suits p c task) :
    Suits q c task :=
  h.imp_right fun h => h.imp_left fun hflag => hflag.mono hle

/-- What holds of a task at each place of a worker. -/
def InferPc.Fits (p : PipelineState) : InferPc → Prop
  | .finding task => ∀ c : ContextId, p.streams[task.streamId]? = some c → Suits p c task
  | .found task stream => ∀ c, stream = some c → Suits p c task
  | .detecting task c => c = task.buffer
  | .ending _ => True

namespace InferenceState

/-- A context is registered for a stream only while no worker is about to look the stream up for a frame of
another one. -/
def registersAlone (s : InferenceState) : ThreadAction → Bool
  | .config _ =>
    match s.threads.configThread with
    | .insert c :: _ =>
      match s.threads.pipeline.info c with
      | none => true
      | some (id, flag) => flag || !s.awaitsOther id c
    | _ => true
  | _ => true

/-- The task that would be granted comes from the buffer of the context that is registered for its stream, unless a
worker would refuse that context or the frame. -/
def takesOwn (s : InferenceState) (offered : Nat → BufferId → Option FrameBundle) : Bool :=
  match s.threads.pipeline.scheduler.acquireTask offered with
  | none => true
  | some (task, _) =>
    match s.threads.pipeline.streams[task.streamId]? with
    | none => true
    | some c =>
      c == task.buffer || ((s.threads.pipeline.info c).map Prod.snd).getD true || task.frame.decodedImage.isNone

/-- No task is granted from the buffer of a context while another one is registered for its stream, and no context is
registered while a frame of an older one waits. -/
def keepsOwner (s : InferenceState) : InferenceAction → Bool
  | .thread a => s.registersAlone a
  | .acquireTask _ offered => s.takesOwn offered
  | _ => true

structure TaskInv (s : InferenceState) : Prop where
  threads : s.threads.Wf
  workers : ∀ (w : Nat) (pc : InferPc), s.workers[w]? = some pc → pc.Fits s.threads.pipeline
  uses : s.OwnContext

variable {s t : InferenceState}

/-- A task that waits is for the context that is registered, or its frame has no picture. -/
lemma suits_of_not_awaits {id : Bytes} {c : ContextId} (h : s.awaitsOther id c = false) {w : Nat} {task : InferTask}
    (hw : s.workers[w]? = some (.finding task)) (hid : task.streamId = id) :
    c = task.buffer ∨ task.frame.decodedImage = none := by
  have hmem := TreeMap.mem_toList_iff_getElem?_eq_some.mpr hw
  have hnot := List.any_eq_false.mp h _ hmem
  simp only [hid, beq_self_eq_true, Bool.true_and, Bool.and_eq_true, bne_iff_ne, Option.isSome_iff_ne_none,
    not_and, not_not] at hnot
  by_cases hc : c = task.buffer
  · exact .inl hc
  · exact .inr (hnot (Ne.symm hc))

namespace TaskInv

lemma setWorker (h : s.TaskInv) {w : Nat} {pc : InferPc} (hpc : pc.Fits s.threads.pipeline) :
    TaskInv { s with workers := s.workers.insert w pc } := by
  refine ⟨h.threads, fun w' pc' hw => ?_, h.uses⟩
  dsimp only at hw
  rw [lookup_insert] at hw
  split at hw
  · cases hw
    exact hpc
  · exact h.workers w' pc' hw

/-- A scheduler that differs in what is in flight. -/
lemma setScheduler (h : s.TaskInv) (scheduler : RoundRobinInferScheduler) : (s.withScheduler scheduler).TaskInv :=
  ⟨h.threads.withScheduler scheduler, fun w pc hw => h.workers w pc hw, h.uses⟩

lemma thread (h : s.TaskInv) {same : SameProtoMessage} {agentId : Bytes} {a : ThreadAction}
    (hguard : s.keepsOwner (.thread a) = true) {threads : ThreadedState}
    (hn : (threadSystem same agentId).next s.threads a = some threads) : TaskInv { s with threads := threads } := by
  have hregisters : s.registersAlone a = true := hguard
  have hmoves := h.threads.moves hn
  refine ⟨h.threads.next hn, fun w pc hw => ?_, h.uses⟩
  have hfits := h.workers w pc hw
  cases pc with
  | finding task =>
    intro c hc
    rcases hmoves.streams _ c hc with hc | ⟨ready, rest, flag, rfl, hthread, hi⟩
    · exact Suits.mono hmoves.info (hfits c hc)
    · simp only [registersAlone, hthread, hi, Bool.or_eq_true, Bool.not_eq_true'] at hregisters
      rcases hregisters with hflag | hawaits
      · exact .inr (.inl (PipelineState.Flagged.mono ⟨task.streamId, hflag ▸ hi⟩ hmoves.info))
      · exact (suits_of_not_awaits hawaits hw rfl).imp_right .inr
  | found task stream => exact fun c hc => Suits.mono hmoves.info (hfits c hc)
  | detecting task c => exact hfits
  | ending task => trivial

/-- What the condition says of the context that a worker would find for the task. -/
lemma suits_of_takesOwn (h : s.TaskInv) {offered : Nat → BufferId → Option FrameBundle}
    (hguard : s.takesOwn offered = true) {task : InferTask} {scheduler : RoundRobinInferScheduler}
    (htask : s.threads.pipeline.scheduler.acquireTask offered = some (task, scheduler)) {c : ContextId}
    (hc : s.threads.pipeline.streams[task.streamId]? = some c) : Suits s.threads.pipeline c task := by
  obtain ⟨flag, hi⟩ := h.threads.registered task.streamId c hc
  simp only [takesOwn, htask, hc, hi, Option.map_some, Option.getD_some, Bool.or_eq_true, beq_iff_eq,
    Option.isNone_iff_eq_none] at hguard
  rcases hguard with (hown | hflag) | hnone
  · exact .inl hown
  · exact .inr (.inl ⟨task.streamId, hflag ▸ hi⟩)
  · exact .inr (.inr hnone)

lemma acquireTask (h : s.TaskInv) {w : Nat} {offered : Nat → BufferId → Option FrameBundle}
    (hguard : s.takesOwn offered = true) (hn : s.acquireTask w offered = some t) : t.TaskInv := by
  unfold InferenceState.acquireTask at hn
  split at hn
  · cases hn
  · cases htask : s.threads.pipeline.scheduler.acquireTask offered with
    | none =>
      rw [htask] at hn
      cases hn
      exact h
    | some granted =>
      obtain ⟨task, scheduler⟩ := granted
      rw [htask] at hn
      cases hn
      exact (h.setScheduler scheduler).setWorker fun c hc => h.suits_of_takesOwn hguard htask hc

lemma findStream (h : s.TaskInv) {w : Nat} (hn : s.findStream w = some t) : t.TaskInv := by
  unfold InferenceState.findStream at hn
  split at hn
  · rename_i task hw
    cases hn
    have hfits : (InferPc.finding task).Fits s.threads.pipeline := h.workers w _ hw
    exact h.setWorker hfits
  · cases hn

/-- A context that a worker goes on with is neither stopped nor found for a frame without a picture. -/
lemma usable_own {task : InferTask} {stream : Option ContextId} (h : ∀ c, stream = some c →
    Suits s.threads.pipeline c task) {c : ContextId} (hc : s.usable task stream = some c) : c = task.buffer := by
  unfold usable at hc
  split at hc
  · cases hc
  · split at hc
    · cases hc
    · rename_i c' context hcontext
      simp only [Option.ite_none_left_eq_some, Bool.or_eq_true, not_or, Bool.not_eq_true] at hc
      obtain ⟨⟨hflag, himage⟩, he⟩ := hc
      cases he
      rcases h c rfl with hown | ⟨id, hflagged⟩ | hnone
      · exact hown
      · simp [PipelineState.info, hcontext, hflag] at hflagged
      · simp [hnone] at himage

lemma checkStream (h : s.TaskInv) {w : Nat} (hn : s.checkStream w = some t) : t.TaskInv := by
  unfold InferenceState.checkStream at hn
  split at hn
  · rename_i task stream hw
    cases hc : s.usable task stream with
    | none =>
      rw [hc] at hn
      cases hn
      exact h.setWorker trivial
    | some c =>
      rw [hc] at hn
      cases hn
      exact h.setWorker (usable_own (h.workers w _ hw) hc)
  · cases hn

lemma detect (h : s.TaskInv) {w : Nat} {alarm : Bool} (hn : s.detect w alarm = some t) : t.TaskInv := by
  unfold InferenceState.detect at hn
  split at hn
  · rename_i task c hw
    have hdone : TaskInv { s with workers := s.workers.insert w (.ending task) } := h.setWorker trivial
    have hown : c = task.buffer := h.workers w _ hw
    dsimp only at hn
    split at hn
    · cases hn
      exact hdone
    · split at hn
      · cases hn
        exact hdone
      · cases hn
        refine ⟨hdone.threads, hdone.workers, fun use huse => ?_⟩
        rcases List.mem_append.mp huse with huse | huse
        · exact h.uses use huse
        · rw [List.mem_singleton.mp huse]
          exact hown
  · cases hn

lemma endTask (h : s.TaskInv) {w : Nat} (hn : s.endTask w = some t) : t.TaskInv := by
  unfold InferenceState.endTask at hn
  split at hn
  · rename_i task hw
    cases hn
    have hgiven := h.setScheduler (s.threads.pipeline.scheduler.completeTask task.streamId)
    refine ⟨hgiven.threads, fun w' pc hw' => hgiven.workers w' pc ?_, hgiven.uses⟩
    dsimp only at hw'
    rw [lookup_erase] at hw'
    split at hw'
    · cases hw'
    · exact hw'
  · cases hn

end TaskInv

lemma taskInv_reachableWhen {same : SameProtoMessage} {agentId : Bytes}
    (h : (inferenceSystem same agentId).ReachableWhen (fun s a => s.keepsOwner a = true) s) : s.TaskInv := by
  apply h.invariant
  · refine ⟨ThreadedState.Wf.init, ?_, ?_⟩
    · intro w pc hw
      simp [inferenceSystem] at hw
    · intro use huse
      cases huse
  · intro s a t hinv hguard hn
    cases a with
    | thread a =>
      obtain ⟨threads, ht, rfl⟩ := Option.map_eq_some_iff.mp hn
      exact hinv.thread hguard ht
    | acquireTask w offered => exact hinv.acquireTask hguard hn
    | findStream w => exact hinv.findStream hn
    | checkStream w => exact hinv.checkStream hn
    | detect w alarm => exact hinv.detect hn
    | endTask w => exact hinv.endTask hn

/-! ## Builds beside a running context -/

/-- The states differ in nothing but what is in flight. -/
def DiffersInFlight (s t : ThreadedState) : Prop :=
  ∃ scheduler, t = { s with pipeline := { s.pipeline with scheduler := scheduler } } ∧
    scheduler.stopped = s.pipeline.scheduler.stopped ∧
    ∀ id, PipelineState.bufferOf { s.pipeline with scheduler := scheduler } id = s.pipeline.bufferOf id

/-- A step is one of the config thread or of a pull thread, or changes no more of them than what is in flight. -/
lemma next_cases {same : SameProtoMessage} {agentId : Bytes} {a : InferenceAction}
    (hn : (inferenceSystem same agentId).next s a = some t) :
    (∃ a', a = .thread a' ∧ (threadSystem same agentId).next s.threads a' = some t.threads) ∨
      DiffersInFlight s.threads t.threads := by
  have hkept : t.threads = s.threads → DiffersInFlight s.threads t.threads := fun he =>
    ⟨s.threads.pipeline.scheduler, he, rfl, fun _ => rfl⟩
  cases a with
  | thread a =>
    obtain ⟨threads, ht, rfl⟩ := Option.map_eq_some_iff.mp hn
    exact .inl ⟨a, rfl, ht⟩
  | acquireTask w offered =>
    simp only [inferenceSystem, acquireTask] at hn
    split at hn
    · cases hn
    · split at hn
      · cases hn
        exact .inr (hkept rfl)
      · rename_i task scheduler htask
        cases hn
        obtain ⟨_, _, -, -, -, -, -, -, hrunning⟩ := RoundRobinInferScheduler.acquireTask_eq_some htask
        exact .inr ⟨scheduler, rfl, hrunning, PipelineState.bufferOf_acquireTask htask⟩
  | findStream w =>
    simp only [inferenceSystem, findStream] at hn
    split at hn
    · cases hn
      exact .inr (hkept rfl)
    · cases hn
  | checkStream w =>
    simp only [inferenceSystem, checkStream] at hn
    split at hn
    · split at hn <;> cases hn <;> exact .inr (hkept rfl)
    · cases hn
  | detect w alarm =>
    simp only [inferenceSystem, detect] at hn
    split at hn
    · split at hn
      · cases hn
        exact .inr (hkept rfl)
      · split at hn <;> cases hn <;> exact .inr (hkept rfl)
    · cases hn
  | endTask w =>
    simp only [inferenceSystem, endTask] at hn
    split at hn
    · rename_i task hw
      cases hn
      exact .inr ⟨_, rfl, (RoundRobinInferScheduler.completeTask_order _ _).2,
        s.threads.pipeline.bufferOf_completeTask task.streamId⟩
    · cases hn

/-- The step builds no context beside a running one of its stream, and registers none while a frame of an older one
waits. -/
def buildsApart (s : InferenceState) : InferenceAction → Bool
  | .thread a => s.threads.buildsFree a && s.registersAlone a
  | _ => true

lemma ownerInv_reachableWhen {same : SameProtoMessage} {agentId : Bytes}
    (h : (inferenceSystem same agentId).ReachableWhen (fun s a => s.buildsApart a = true) s) : s.threads.OwnerInv := by
  refine h.invariant (I := fun s => s.threads.OwnerInv) .init fun s a t hinv hguard hn => ?_
  rcases next_cases hn with ⟨a, rfl, ht⟩ | ⟨scheduler, he, -, hbuffers⟩
  · exact hinv.next (Bool.and_eq_true _ _ ▸ hguard).1 ht
  · rw [he]
    exact hinv.withScheduler hbuffers

/-- The scheduler's buffer is that of the registered context, so a task can come from no other. -/
lemma takesOwn_of_ownerInv (h : s.threads.OwnerInv) (offered : Nat → BufferId → Option FrameBundle) :
    s.takesOwn offered = true := by
  unfold takesOwn
  split
  · rfl
  · rename_i task scheduler htask
    split
    · rfl
    · rename_i c hc
      obtain ⟨entry, -, hentry, -, hbuffer, -⟩ := RoundRobinInferScheduler.acquireTask_eq_some htask
      have howner : s.threads.pipeline.bufferOf task.streamId = some task.buffer := by
        rw [PipelineState.bufferOf, hentry]
        exact hbuffer
      rcases h.registered task.streamId task.buffer c howner hc with hown | ⟨id, hi⟩
      · simp [hown]
      · simp [hi]

/-- When no context is built beside a running one, no task is granted beside one either. -/
lemma keepsOwner_of_buildsApart {same : SameProtoMessage} {agentId : Bytes}
    (h : (inferenceSystem same agentId).ReachableWhen (fun s a => s.buildsApart a = true) s) :
    (inferenceSystem same agentId).ReachableWhen (fun s a => s.keepsOwner a = true) s := by
  induction h with
  | refl => exact .refl
  | @step t u a hr hguard hn ih =>
    refine .step ih ?_ hn
    cases a with
    | thread a => exact (Bool.and_eq_true _ _ ▸ hguard).2
    | acquireTask w offered => exact takesOwn_of_ownerInv (ownerInv_reachableWhen hr) offered
    | _ => rfl

/-! ## Steps outside the condition -/

/-- What holds in every run: the scheduler goes on, and its buffers are those of contexts that have been built. -/
structure BufferInv (s : ThreadedState) : Prop where
  wf : s.Wf
  running : s.pipeline.scheduler.stopped = false
  built : ∀ (id : Bytes) (b : ContextId), s.pipeline.bufferOf id = some b → s.pipeline.Built b

lemma BufferInv.thread {s t : ThreadedState} (h : BufferInv s) {same : SameProtoMessage} {agentId : Bytes}
    {a : ThreadAction} (hn : (threadSystem same agentId).next s a = some t) : BufferInv t := by
  have hmoves := h.wf.moves hn
  refine ⟨h.wf.next hn, hmoves.running.trans h.running, fun id b hb => ?_⟩
  rcases hmoves.buffers id b hb with ⟨hb, -⟩ | ⟨_, _, _, -, -, -, -, hi⟩ | ⟨_, _, _, flag, -, -, hi⟩
  · exact (h.built id b hb).mono hmoves.info
  · exact ⟨_, _, hi⟩
  · exact PipelineState.Built.mono ⟨id, flag, hi⟩ hmoves.info

lemma bufferInv_reachable {same : SameProtoMessage} {agentId : Bytes}
    (h : (inferenceSystem same agentId).Reachable s) : BufferInv s.threads := by
  apply h.invariant (I := fun s => BufferInv s.threads)
  · exact ⟨ThreadedState.Wf.init, rfl, fun id b hb => by simp [inferenceSystem, PipelineState.bufferOf] at hb⟩
  · intro s a t hinv _ hn
    rcases next_cases hn with ⟨a, rfl, ht⟩ | ⟨scheduler, he, hrunning, hbuffers⟩
    · exact hinv.thread ht
    · rw [he]
      refine ⟨hinv.wf.withScheduler scheduler, hrunning.trans hinv.running, fun id b hb => ?_⟩
      exact hinv.built id b ((hbuffers id).symm.trans hb)

/-- A running context with a detector is used for the frame of a task that finds it. -/
lemma misused_of_finding (same : SameProtoMessage) (agentId : Bytes) (s : InferenceState) {w : Nat} {task : InferTask}
    (hw : s.workers[w]? = some (.finding task)) {c : ContextId} {id : Bytes} {stream : StreamContext}
    (hc : s.threads.pipeline.streams[task.streamId]? = some c) (hstream : s.threads.pipeline.contexts[c]? = some stream)
    (hi : s.threads.pipeline.info c = some (id, false)) (hdetector : stream.detectorRuntime.detector.isSome = true)
    (himage : task.frame.decodedImage.isSome = true) (hother : c ≠ task.buffer) :
    ∃ u, (inferenceSystem same agentId).Runs s u ∧ ¬u.OwnContext := by
  obtain ⟨detector, hdetector⟩ := Option.isSome_iff_exists.mp hdetector
  have hflag : stream.stopFlag = false := by
    rw [PipelineState.info, hstream] at hi
    exact (Prod.mk.inj (Option.some.inj hi)).2
  let s₁ := { s with workers := s.workers.insert w (.found task (some c)) }
  let s₂ := { s with workers := s₁.workers.insert w (.detecting task c) }
  let s₃ := { s with
    workers := s₂.workers.insert w (.ending task), uses := s.uses ++ [useContext task c stream detector false] }
  have hfind : (inferenceSystem same agentId).next s (.findStream w) = some s₁ := by
    simp [inferenceSystem, findStream, hw, hc, s₁]
  have husable : s₁.usable task (some c) = some c := by
    have hsome : task.frame.decodedImage.isNone = false := by simpa using himage
    simp [usable, s₁, hstream, hflag, hsome]
  have hcheck : (inferenceSystem same agentId).next s₁ (.checkStream w) = some s₂ := by
    have hw₁ : s₁.workers[w]? = some (.found task (some c)) := by simp [s₁]
    simp only [inferenceSystem, checkStream, hw₁, husable]
    rfl
  have hdetect : (inferenceSystem same agentId).next s₂ (.detect w false) = some s₃ := by
    have hw₂ : s₂.workers[w]? = some (.detecting task c) := by simp [s₂]
    have hstream₂ : s₂.threads.pipeline.contexts[c]? = some stream := hstream
    simp only [inferenceSystem, detect, hw₂, hstream₂, hdetector]
    rfl
  refine ⟨s₃, Machine.Runs.next (Machine.Runs.next (Machine.Runs.next .refl hfind) hcheck) hdetect, fun hown => ?_⟩
  exact hother (hown (useContext task c stream detector false) (by simp [s₃]))

/-- The context has a detector. -/
def servesFrames (p : PipelineState) (c : ContextId) : Bool :=
  ((p.contexts[c]?).bind (·.detectorRuntime.detector)).isSome

/-- The context that a worker would find has a detector. -/
def mayServe (s : InferenceState) : InferenceAction → Bool
  | .thread (.config _) =>
    match s.threads.configThread with
    | .insert c :: _ => servesFrames s.threads.pipeline c
    | _ => false
  | .acquireTask _ offered =>
    match s.threads.pipeline.scheduler.acquireTask offered with
    | none => false
    | some (task, _) => s.threads.pipeline.streams[task.streamId]?.any (servesFrames s.threads.pipeline)
  | _ => false

lemma stream_of_serves {p : PipelineState} {c : ContextId} (h : servesFrames p c = true) :
    ∃ stream, p.contexts[c]? = some stream ∧ stream.detectorRuntime.detector.isSome = true := by
  unfold servesFrames at h
  cases hc : p.contexts[c]? with
  | none => simp [hc] at h
  | some stream => exact ⟨stream, rfl, by simpa [hc] using h⟩

lemma exists_idle (workers : TreeMap Nat InferPc) : ∃ w : Nat, workers[w]? = none := by
  have hbound : ∀ l : List Nat, ∃ n, ∀ x ∈ l, x < n := by
    intro l
    induction l with
    | nil => exact ⟨0, by simp⟩
    | cons y l ih =>
      obtain ⟨n, hn⟩ := ih
      refine ⟨max n (y + 1), fun x hx => ?_⟩
      rcases List.mem_cons.mp hx with rfl | hx
      · omega
      · have hlt := hn x hx
        omega
  obtain ⟨n, hn⟩ := hbound (workers.toList.map Prod.fst)
  refine ⟨n, Option.eq_none_iff_forall_ne_some.mpr fun pc hpc => ?_⟩
  have hmem := List.mem_map_of_mem (f := Prod.fst) (TreeMap.mem_toList_iff_getElem?_eq_some.mpr hpc)
  exact Nat.lt_irrefl n (hn n hmem)

section misuse

variable {same : SameProtoMessage} {agentId : Bytes} {ready : Bool} {rest : List ConfigOp}

/-- A context is registered while a frame of an older one waits. -/
lemma misused_of_insert {c : ContextId} (hthread : s.threads.configThread = .insert c :: rest)
    (hn : (inferenceSystem same agentId).next s (.thread (.config ready)) = some t) {id : Bytes}
    (hi : s.threads.pipeline.info c = some (id, false)) (hawaits : s.awaitsOther id c = true)
    (hserves : servesFrames s.threads.pipeline c = true) :
    ∃ u, (inferenceSystem same agentId).Runs t u ∧ ¬u.OwnContext := by
  obtain ⟨stream, hstream, hdetector⟩ := stream_of_serves hserves
  obtain ⟨⟨w, pc⟩, hmem, hpc⟩ := List.any_eq_true.mp hawaits
  have hw := TreeMap.mem_toList_iff_getElem?_eq_some.mp hmem
  cases pc with
  | finding task =>
    simp only [Bool.and_eq_true, beq_iff_eq, bne_iff_ne] at hpc
    obtain ⟨⟨rfl, hother⟩, himage⟩ := hpc
    simp only [inferenceSystem, threadSystem, hthread, ThreadedState.runConfigOp, Option.map_some,
      Option.some.injEq] at hn
    subst hn
    have hcontexts : (s.threads.pipeline.insertStream c).contexts = s.threads.pipeline.contexts := by
      unfold PipelineState.insertStream
      split <;> rfl
    refine misused_of_finding same agentId _ (w := w) (c := c) hw ?_ (hcontexts ▸ hstream) (by simpa using hi)
      hdetector himage (Ne.symm hother)
    dsimp only
    rw [PipelineState.insertStream_streams hi, lookup_insert, if_pos rfl]
  | found task stream' => cases hpc
  | detecting task c' => cases hpc
  | ending task => cases hpc

/-- A task is granted from the buffer of another context than the registered one. -/
lemma misused_of_acquire (hwf : s.threads.Wf) {w : Nat} {offered : Nat → BufferId → Option FrameBundle}
    (hn : (inferenceSystem same agentId).next s (.acquireTask w offered) = some t)
    (hguard : ¬s.takesOwn offered = true) (hserves : s.mayServe (.acquireTask w offered) = true) :
    ∃ u, (inferenceSystem same agentId).Runs t u ∧ ¬u.OwnContext := by
  simp only [inferenceSystem, acquireTask] at hn
  split at hn
  · cases hn
  · cases htask : s.threads.pipeline.scheduler.acquireTask offered with
    | none => simp [takesOwn, htask] at hguard
    | some granted =>
      obtain ⟨task, scheduler⟩ := granted
      rw [htask] at hn
      cases hn
      cases hc : s.threads.pipeline.streams[task.streamId]? with
      | none => simp [takesOwn, htask, hc] at hguard
      | some c =>
        obtain ⟨flag, hi⟩ := hwf.registered task.streamId c hc
        simp only [takesOwn, htask, hc, hi, Option.map_some, Option.getD_some, Bool.or_eq_true, beq_iff_eq,
          Option.isNone_iff_eq_none, not_or, Bool.not_eq_true, ← ne_eq, ← Option.isSome_iff_ne_none] at hguard
        obtain ⟨⟨hother, rfl⟩, himage⟩ := hguard
        simp only [mayServe, htask, hc, Option.any_some] at hserves
        obtain ⟨stream, hstream, hdetector⟩ := stream_of_serves hserves
        exact misused_of_finding same agentId
          { s.withScheduler scheduler with workers := s.workers.insert w (.finding task) } TreeMap.getElem?_insert_self
          hc hstream hi hdetector himage hother

/-- Only one buffer has a frame. -/
def frameIn (buffer : BufferId) : Nat → BufferId → Option FrameBundle :=
  fun _ b => if b = buffer then some { decodedImage := some {} } else none

/-- With a new context, the scheduler grants its stream a task from the new buffer. -/
lemma granted_of_build (ready : Bool) (hbuffers : BufferInv s.threads) {config : StreamConfig}
    (hidle : (s.threads.pipeline.scheduler.entries.getD config.streamId {}).inflight = false) :
    ∃ task scheduler,
      (s.threads.pipeline.buildStreamContext (fun _ => ready) config).2.scheduler.acquireTask
        (frameIn s.threads.pipeline.contexts.length) = some (task, scheduler) ∧
      task.streamId = config.streamId ∧ task.buffer = s.threads.pipeline.contexts.length ∧
      task.frame.decodedImage.isSome = true := by
  generalize hbuilt : (s.threads.pipeline.buildStreamContext (fun _ => ready) config).2 = p
  have hscheduler : p.scheduler = s.threads.pipeline.scheduler.upsertStream config.streamId config
      (some s.threads.pipeline.contexts.length) := by
    rw [← hbuilt]
    rfl
  have hgranted : ∃ task scheduler,
      p.scheduler.acquireTask (frameIn s.threads.pipeline.contexts.length) = some (task, scheduler) := by
    rw [hscheduler]
    have hlisted : config.streamId ∈ (s.threads.pipeline.scheduler.upsertStream config.streamId config
        (some s.threads.pipeline.contexts.length)).order := by
      simp only [RoundRobinInferScheduler.upsertStream]
      split <;> simp [*]
    have hentry : (s.threads.pipeline.scheduler.upsertStream config.streamId config
        (some s.threads.pipeline.contexts.length)).entries[config.streamId]? =
          some { s.threads.pipeline.scheduler.entries.getD config.streamId {} with
            config := config, buffer := some s.threads.pipeline.contexts.length } := by
      simp [RoundRobinInferScheduler.upsertStream]
    have hoffered : ∀ offset, (frameIn s.threads.pipeline.contexts.length offset
        s.threads.pipeline.contexts.length).isSome = true := by simp [frameIn]
    exact RoundRobinInferScheduler.exists_granted hbuffers.running hlisted hentry hidle rfl hoffered
  obtain ⟨task, scheduler, htask⟩ := hgranted
  obtain ⟨entry, offset, hentry, -, hbuffer, hframe, -⟩ := RoundRobinInferScheduler.acquireTask_eq_some htask
  simp only [frameIn, Option.ite_none_right_eq_some, Option.some.injEq] at hframe
  obtain ⟨hnew, hframe⟩ := hframe
  have howner : p.bufferOf task.streamId = some s.threads.pipeline.contexts.length := by
    rw [PipelineState.bufferOf, hentry, ← hnew]
    exact hbuffer
  have hid : config.streamId = task.streamId := by
    rw [← hbuilt, PipelineState.bufferOf_buildStreamContext] at howner
    by_contra hne
    rw [if_neg hne] at howner
    -- the buffer of another stream was there before this context
    exact Nat.lt_irrefl _ (hbuffers.built task.streamId _ howner).lt
  exact ⟨task, scheduler, htask, hid.symm, hnew, by rw [← hframe]; rfl⟩

/-- A context is built beside a running one of its stream, and the scheduler takes a frame of the new one. -/
lemma misused_of_build (hbuffers : BufferInv s.threads) {config : StreamConfig}
    (hthread : s.threads.configThread = .build config :: rest)
    (hn : (inferenceSystem same agentId).next s (.thread (.config ready)) = some t) {c : ContextId} {id : Bytes}
    (hc : s.threads.pipeline.streams[config.streamId]? = some c) (hi : s.threads.pipeline.info c = some (id, false))
    (hserves : servesFrames s.threads.pipeline c = true)
    (hidle : (s.threads.pipeline.scheduler.entries.getD config.streamId {}).inflight = false) :
    ∃ u, (inferenceSystem same agentId).Runs t u ∧ ¬u.OwnContext := by
  obtain ⟨stream, hstream, hdetector⟩ := stream_of_serves hserves
  obtain ⟨task, scheduler, htask, hid, hbuffer, himage⟩ := granted_of_build ready hbuffers hidle
  obtain ⟨w, hw⟩ := exists_idle s.workers
  have hlt : c < s.threads.pipeline.contexts.length := PipelineState.Built.lt ⟨id, false, hi⟩
  have hother : c ≠ task.buffer := by rw [hbuffer]; exact Nat.ne_of_lt hlt
  simp only [inferenceSystem, threadSystem, hthread, ThreadedState.runConfigOp, Option.map_some,
    Option.some.injEq] at hn
  generalize hbuilt : (s.threads.pipeline.buildStreamContext (fun _ => ready) config).2 = p at hn htask
  have hpipeline : t.threads.pipeline = p := by rw [← hn]
  have hstep : (inferenceSystem same agentId).next t
      (.acquireTask w (frameIn s.threads.pipeline.contexts.length)) =
        some { t.withScheduler scheduler with workers := t.workers.insert w (.finding task) } := by
    rw [← hn]
    simp [inferenceSystem, acquireTask, hw, htask]
  have hregistered : t.threads.pipeline.streams[task.streamId]? = some c := by
    rw [hpipeline, ← hbuilt, hid]
    exact hc
  have hfound : t.threads.pipeline.contexts[c]? = some stream := by
    rw [hpipeline, ← hbuilt]
    exact (List.getElem?_append_left hlt).trans hstream
  have hrunning : t.threads.pipeline.info c = some (id, false) := by
    rw [hpipeline, ← hbuilt, PipelineState.info_buildStreamContext, if_neg (Nat.ne_of_lt hlt)]
    exact hi
  obtain ⟨u, hu, hbad⟩ := misused_of_finding same agentId
    { t.withScheduler scheduler with workers := t.workers.insert w (.finding task) }
    TreeMap.getElem?_insert_self hregistered hfound hrunning hdetector himage hother
  exact ⟨u, Machine.RunsWhen.trans (Machine.Runs.next .refl hstep) hu, hbad⟩

end misuse

end InferenceState

open InferenceState in
/-- As long as every step meets the condition, every frame is inferred, recorded and reported by the context whose
buffer it was taken from. A step that does not, where the context that is found can serve, leads to a frame that is
used by another context. -/
theorem ownContext_of_keepsOwner (same : SameProtoMessage) (agentId : Bytes) :
    (∀ s, (inferenceSystem same agentId).ReachableWhen (fun s a => s.keepsOwner a = true) s → s.OwnContext) ∧
    ∀ s a t, (inferenceSystem same agentId).Reachable s → (inferenceSystem same agentId).next s a = some t →
      ¬s.keepsOwner a = true → s.mayServe a = true →
        ∃ u, (inferenceSystem same agentId).Runs t u ∧ ¬u.OwnContext := by
  refine ⟨fun s h => (taskInv_reachableWhen h).uses, fun s a t h hn hguard hserves => ?_⟩
  have hbuffers := bufferInv_reachable h
  cases a with
  | thread a =>
    cases a with
    | config ready =>
      cases hthread : s.threads.configThread with
      | nil => simp [mayServe, hthread] at hserves
      | cons op rest =>
        cases op with
        | insert c =>
          obtain ⟨id, flag, hi⟩ := hbuffers.wf.built (.insert c) (hthread ▸ List.mem_cons_self ..) c rfl
          simp [keepsOwner, registersAlone, hthread, hi] at hguard
          simp only [mayServe, hthread] at hserves
          exact misused_of_insert hthread hn (hguard.1 ▸ hi) hguard.2 hserves
        | _ => simp [mayServe, hthread] at hserves
    | _ => cases hserves
  | acquireTask w offered => exact misused_of_acquire hbuffers.wf hn hguard hserves
  | _ => cases hserves

open InferenceState in
/-- It is enough that no context is built beside a running one of its stream. Such a build by itself does no harm, but if
the running context has a detector and no task of the stream is in flight, a frame may follow that is used by it. -/
theorem ownContext_of_buildsApart (same : SameProtoMessage) (agentId : Bytes) :
    (∀ s, (inferenceSystem same agentId).ReachableWhen (fun s a => s.buildsApart a = true) s → s.OwnContext) ∧
    ∀ s t ready config rest c, (inferenceSystem same agentId).Reachable s →
      s.threads.configThread = .build config :: rest →
      (inferenceSystem same agentId).next s (.thread (.config ready)) = some t →
      ¬s.buildsApart (.thread (.config ready)) = true → s.threads.pipeline.streams[config.streamId]? = some c →
      servesFrames s.threads.pipeline c = true →
      (s.threads.pipeline.scheduler.entries.getD config.streamId {}).inflight = false →
        ∃ u, (inferenceSystem same agentId).Runs t u ∧ ¬u.OwnContext := by
  refine ⟨fun s h => (taskInv_reachableWhen (keepsOwner_of_buildsApart h)).uses, ?_⟩
  intro s t ready config rest c h hthread hn hguard hc hserves hidle
  have hbuffers := bufferInv_reachable h
  obtain ⟨flag, hi⟩ := hbuffers.wf.registered config.streamId c hc
  simp [buildsApart, ThreadedState.buildsFree, registersAlone, hthread, hc, hi] at hguard
  exact misused_of_build hbuffers hthread hn hc (hguard ▸ hi) hserves hidle

/-- One stream with an algorithm, from a source. -/
def watchedStream (url : Bytes) : AgentConfig where
  configId := 1
  streams := [{ enabled := true, streamId := [0x53], rtspUrl := url, algorithms := [{ algorithmId := [1] }] }]

/-- A configuration arrives and four steps of the config thread carry it out. -/
def applyConfig (cfg : AgentConfig) : List InferenceAction :=
  .thread (.socketConfig cfg) :: .thread .wake :: List.replicate 4 (.thread (.config true))

/-- A worker takes a frame from the buffer of a context. -/
def acquireFrom (c : ContextId) : InferenceAction :=
  .acquireTask 0 fun _ b => if b = c then some { decodedImage := some {} } else none

def finishTask : List InferenceAction := [.findStream 0, .checkStream 0, .detect 0 true, .endTask 0]

/-- The stream gets another source between two tasks. Two contexts are built for it, the second one beside the first, and
the second task is for a frame of the second. -/
theorem ownContext_of_keepsOwner_newSource :
    ∃ s, (inferenceSystem structuralEquality []).ReachableWhen (fun s a => s.keepsOwner a = true) s ∧
      s.uses.map (fun use => (use.task.buffer, use.context)) = [(0, 0), (2, 2)] ∧ s.OwnContext := by
  obtain ⟨s, hs, hp⟩ := Machine.reachableWhen_of_exec_any (inferenceSystem structuralEquality [])
    InferenceState.keepsOwner
    (applyConfig (watchedStream [1]) ++ acquireFrom 0 :: finishTask ++ .thread (.socketConfig (watchedStream [2])) ::
      .thread .wake :: List.replicate 10 (.thread (.config true)) ++ acquireFrom 2 :: finishTask)
    (fun s => decide (s.uses.map (fun use => (use.task.buffer, use.context)) = [(0, 0), (2, 2)])) (by decide)
  exact ⟨s, hs, of_decide_eq_true hp, (ownContext_of_keepsOwner _ _).1 s hs⟩

/-- The stream is removed and added again while a worker holds a frame of the old source. -/
theorem not_ownContext_after_restart :
    ∃ s, (inferenceSystem structuralEquality []).Reachable s ∧
      s.uses.map (fun use => (use.task.buffer, use.context)) = [(0, 1)] ∧ ¬s.OwnContext := by
  obtain ⟨s, hs, hp⟩ := Machine.reachable_of_exec_any (inferenceSystem structuralEquality [])
    (applyConfig (watchedStream [1]) ++ acquireFrom 0 :: applyConfig { configId := 1 } ++
      applyConfig (watchedStream [2]) ++ finishTask)
    (fun s => decide (s.uses.map (fun use => (use.task.buffer, use.context)) = [(0, 1)])) (by decide)
  have huses := of_decide_eq_true hp
  refine ⟨s, hs, huses, fun hown => ?_⟩
  obtain ⟨use, huse, hpair⟩ := List.mem_map.mp (huses ▸ List.mem_singleton_self ((0, 1) : BufferId × ContextId))
  obtain ⟨hbuffer, hcontext⟩ := Prod.mk.inj hpair
  rw [hown use huse, hbuffer] at hcontext
  cases hcontext

end MediaAgent
