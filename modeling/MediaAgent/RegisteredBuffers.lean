import MediaAgent.PipelineThreads

/-!
# The scheduler's buffers and the registered contexts

For a stream the map `streams_` holds a context and the scheduler a buffer, and the config thread changes them in
different steps. The buffer is that of the registered context as long as no context is built while a running one of
the stream is still registered; between the build and the registration of a context the stream is not in the map.
-/

namespace MediaAgent
open Std TreeMaps Transition

/-! ## What the threads do to the map and to the scheduler -/

/-- The buffer that the scheduler takes the frames of a stream from. -/
def PipelineState.bufferOf (p : PipelineState) (id : Bytes) : Option ContextId :=
  (p.scheduler.entries[id]?).bind (·.buffer)

namespace PipelineState

lemma bufferOf_upsertStream (p : PipelineState) (id : Bytes) (config : StreamConfig) (c : ContextId) (k : Bytes) :
    bufferOf { p with scheduler := p.scheduler.upsertStream id config (some c) } k =
      if id = k then some c else p.bufferOf k := by
  simp only [bufferOf, RoundRobinInferScheduler.upsertStream, lookup_insert]
  split <;> rfl

lemma bufferOf_removeStream {p : PipelineState} {c : ContextId} {k : Bytes} {b : ContextId}
    (h : (p.removeStream c).bufferOf k = some b) : p.bufferOf k = some b := by
  unfold bufferOf removeStream at h
  split at h
  · exact h
  · simp only [RoundRobinInferScheduler.removeStream, lookup_erase] at h
    split at h
    · cases h
    · exact h

lemma removeStream_running (p : PipelineState) (c : ContextId) :
    (p.removeStream c).scheduler.stopped = p.scheduler.stopped := by
  unfold removeStream
  split <;> rfl

lemma bufferOf_congr {p q : PipelineState} (h : q.scheduler = p.scheduler) (k : Bytes) :
    q.bufferOf k = p.bufferOf k := by
  rw [bufferOf, bufferOf, h]

lemma bufferOf_buildStreamContext (p : PipelineState) (ready : ContextId → Bool) (config : StreamConfig)
    (k : Bytes) :
    (p.buildStreamContext ready config).2.bufferOf k =
      if config.streamId = k then some p.contexts.length else p.bufferOf k :=
  bufferOf_upsertStream p config.streamId config p.contexts.length k

/-- The stream of the context is registered with the buffer of the context. -/
lemma bufferOf_updateStreamRuntime {p : PipelineState} (same : SameProtoMessage) (ready : ContextId → Bool)
    {c : ContextId} (config : StreamConfig) {id : Bytes} {flag : Bool} (hi : p.info c = some (id, flag)) (k : Bytes) :
    (p.updateStreamRuntime same ready c config).bufferOf k = if id = k then some c else p.bufferOf k := by
  rw [← bufferOf_upsertStream p id config c k]
  exact bufferOf_congr (updateStreamRuntime_scheduler same ready config hi) k

/-- A task that is granted, or given back, leaves every buffer in its place. -/
lemma bufferOf_acquireTask {p : PipelineState} {offered : Nat → BufferId → Option FrameBundle} {task : InferTask}
    {scheduler : RoundRobinInferScheduler} (h : p.scheduler.acquireTask offered = some (task, scheduler)) (id : Bytes) :
    bufferOf { p with scheduler := scheduler } id = p.bufferOf id := by
  obtain ⟨entry, -, hentry, -, -, -, hentries, -⟩ := RoundRobinInferScheduler.acquireTask_eq_some h
  simp only [bufferOf, hentries, lookup_insert]
  split
  · subst id
    rw [hentry]
    rfl
  · rfl

lemma bufferOf_completeTask (p : PipelineState) (streamId id : Bytes) :
    bufferOf { p with scheduler := p.scheduler.completeTask streamId } id = p.bufferOf id := by
  simp only [bufferOf, RoundRobinInferScheduler.lookup_completeTask]
  split
  · cases p.scheduler.entries[id]? <;> rfl
  · rfl

end PipelineState

namespace ThreadedState

/-- What a step of the config thread or of a pull thread does to the contexts, to the map and to the buffers that
the scheduler holds. -/
structure Moves (s t : ThreadedState) (a : ThreadAction) : Prop where
  info : s.pipeline.InfoLe t.pipeline
  running : t.pipeline.scheduler.stopped = s.pipeline.scheduler.stopped
  streams : ∀ (id : Bytes) (c : ContextId), t.pipeline.streams[id]? = some c → s.pipeline.streams[id]? = some c ∨
    ∃ ready rest flag, a = .config ready ∧ s.configThread = .insert c :: rest ∧ s.pipeline.info c = some (id, flag)
  buffers : ∀ (id : Bytes) (b : ContextId), t.pipeline.bufferOf id = some b →
    (s.pipeline.bufferOf id = some b ∧ ∀ ready config rest, a = .config ready →
      s.configThread = .build config :: rest → id ≠ config.streamId) ∨
    (∃ ready config rest, a = .config ready ∧ s.configThread = .build config :: rest ∧ id = config.streamId ∧
      b = s.pipeline.contexts.length ∧ t.pipeline.info b = some (config.streamId, false)) ∨
    ∃ ready config rest flag, a = .config ready ∧ s.configThread = .update b config :: rest ∧
      s.pipeline.info b = some (id, flag)

variable {s t : ThreadedState} {a : ThreadAction}

/-- A step that registers nothing and leaves the scheduler's buffers. -/
lemma Moves.of_le (info : s.pipeline.InfoLe t.pipeline)
    (running : t.pipeline.scheduler.stopped = s.pipeline.scheduler.stopped)
    (hstreams : ∀ (id : Bytes) (c : ContextId), t.pipeline.streams[id]? = some c → s.pipeline.streams[id]? = some c)
    (hbuffers : ∀ (id : Bytes) (b : ContextId), t.pipeline.bufferOf id = some b → s.pipeline.bufferOf id = some b)
    (hbuild : ∀ ready config rest, a = .config ready → s.configThread ≠ .build config :: rest) : s.Moves t a :=
  ⟨info, running, fun id c hc => .inl (hstreams id c hc),
    fun id b hb => .inl ⟨hbuffers id b hb, fun ready config rest ha hthread => absurd hthread (hbuild ready config rest ha)⟩⟩

lemma moves_stopStep (ready : Bool) {step : StopStep} {c : ContextId} {rest : List ConfigOp}
    (hthread : s.configThread = .stop step c :: rest) (hn : s.stopStep step c = some t) :
    s.Moves t (.config ready) := by
  have hbuild : ∀ ready' config rest', ThreadAction.config ready = .config ready' →
      s.configThread ≠ .build config :: rest' := by
    intro ready' config rest' _ he
    rw [hthread] at he
    cases he
  cases step with
  | raiseFlag =>
    cases hn
    refine .of_le (PipelineState.InfoLe.raiseFlag s.pipeline c) (by simp) (by simp) (fun id b hb => ?_) hbuild
    rwa [PipelineState.bufferOf_congr (p := s.pipeline) (by simp)] at hb
  | removeStream =>
    cases hn
    exact .of_le (.of_eq (by simp)) (PipelineState.removeStream_running s.pipeline c) (by simp)
      (fun id b => PipelineState.bufferOf_removeStream) hbuild
  | joinPuller =>
    rw [(joinPuller_cases hn).2]
    refine .of_le (.of_eq (by simp)) (by simp) (by simp) (fun id b hb => ?_) hbuild
    rwa [PipelineState.bufferOf_congr (p := s.pipeline) (by simp)] at hb

lemma moves_config (hwf : s.Wf) {same : SameProtoMessage} {ready : Bool} {op : ConfigOp} {rest : List ConfigOp}
    (hthread : s.configThread = op :: rest) (hn : s.runConfigOp same ready op rest = some t) :
    s.Moves t (.config ready) := by
  have hhead : ∀ op' rest', s.configThread = op' :: rest' → op' = op := by
    intro op' rest' he
    rw [hthread] at he
    exact (List.cons.inj he).1.symm
  have hbuild : (∀ config, op ≠ .build config) → ∀ ready' config rest',
      ThreadAction.config ready = .config ready' → s.configThread ≠ .build config :: rest' :=
    fun hne ready' config rest' _ he => hne config (hhead _ _ he).symm
  cases op with
  | stop step c =>
    obtain ⟨u, hu, rfl⟩ := Option.map_eq_some_iff.mp hn
    obtain ⟨info, running, streams, buffers⟩ := moves_stopStep ready hthread hu
    exact ⟨info, running, streams, buffers⟩
  | review configs =>
    cases hn
    have hex := examined_planBatch s.pipeline same (buildMergedStreams configs)
    exact .of_le (.of_eq hex.info) rfl (fun id c hc => hex.kept id c hc) (fun id b hb => hb) (hbuild (by simp))
  | update c config =>
    cases hn
    obtain ⟨id, flag, hi⟩ := hwf.built (.update c config) (hthread ▸ List.mem_cons_self ..) c rfl
    have hscheduler := PipelineState.updateStreamRuntime_scheduler same (fun _ => ready) config hi
    refine ⟨.of_eq (by simp), (congrArg RoundRobinInferScheduler.stopped hscheduler).trans rfl,
      fun id' c' hc' => .inl (by simpa using hc'), fun id' b hb => ?_⟩
    dsimp only at hb
    rw [PipelineState.bufferOf_updateStreamRuntime same (fun _ => ready) config hi] at hb
    split at hb
    · cases hb
      subst id'
      exact .inr (.inr ⟨ready, config, rest, flag, rfl, hthread, hi⟩)
    · exact .inl ⟨hb, fun ready' config' rest' ha he => absurd he (hbuild (by simp) ready' config' rest' ha)⟩
  | build config =>
    cases hn
    refine ⟨PipelineState.InfoLe.build s.pipeline (fun _ => ready) config, rfl, fun id c hc => .inl hc,
      fun id b hb => ?_⟩
    replace hb := (s.pipeline.bufferOf_buildStreamContext (fun _ => ready) config id).symm.trans hb
    split at hb
    · cases hb
      have hnew := s.pipeline.info_buildStreamContext (fun _ => ready) config s.pipeline.contexts.length
      exact .inr (.inl ⟨ready, config, rest, rfl, hthread, Eq.symm ‹_›, rfl, hnew.trans (if_pos rfl)⟩)
    · rename_i hne
      refine .inl ⟨hb, fun ready' config' rest' _ he => ?_⟩
      cases hhead _ _ he
      exact Ne.symm hne
  | check c =>
    obtain ⟨ops, rfl, -⟩ := check_cases hn
    exact .of_le (.of_eq fun _ => rfl) rfl (fun id c hc => hc) (fun id b hb => hb) (hbuild (by simp))
  | insert c =>
    cases hn
    obtain ⟨id, flag, hi⟩ := hwf.built (.insert c) (hthread ▸ List.mem_cons_self ..) c rfl
    refine ⟨.of_eq (by simp), by simp, fun id' c' hc' => ?_, fun id' b hb => .inl ⟨?_, fun ready' config' rest' ha he =>
      absurd he (hbuild (by simp) ready' config' rest' ha)⟩⟩
    · dsimp only at hc'
      rw [PipelineState.insertStream_streams hi, lookup_insert] at hc'
      split at hc'
      · cases hc'
        subst id'
        exact .inr ⟨ready, rest, flag, rfl, hthread, hi⟩
      · exact .inl hc'
    · rwa [PipelineState.bufferOf_congr (p := s.pipeline) (by simp)] at hb

lemma Wf.moves (hwf : s.Wf) {same : SameProtoMessage} {agentId : Bytes}
    (hn : (threadSystem same agentId).next s a = some t) : s.Moves t a := by
  have hother : (∀ ready, a ≠ .config ready) → ∀ ready config rest, a = .config ready →
      s.configThread ≠ .build config :: rest := fun hne ready _ _ ha => absurd ha (hne ready)
  cases a with
  | socketConfig cfg =>
    cases hn
    rcases handleSocketConfig_cases s agentId cfg with he | he <;> rw [he] <;>
      exact .of_le (.of_eq fun _ => rfl) rfl (fun id c hc => hc) (fun id b hb => hb) (hother (by simp))
  | wake =>
    rw [wake_cases (next_wake hn).2]
    exact .of_le (.of_eq fun _ => rfl) rfl (fun id c hc => hc) (fun id b hb => hb) (hother (by simp))
  | config ready =>
    obtain ⟨op, rest, hthread, hn⟩ := next_config hn
    exact moves_config hwf hthread hn
  | requestExchange c =>
    rcases requestExchange_cases hn with rfl | ⟨-, -, -, rfl⟩
    · exact .of_le (.of_eq fun _ => rfl) rfl (fun id c hc => hc) (fun id b hb => hb) (hother (by simp))
    · refine .of_le (PipelineState.InfoLe.raiseFlag s.pipeline c) (by simp) (by simp) (fun id b hb => ?_)
        (hother (by simp))
      rwa [PipelineState.bufferOf_congr (p := s.pipeline) (by simp)] at hb
  | requestErase c =>
    obtain ⟨hc, rfl⟩ := requestErase_cases hn
    obtain ⟨id, hi⟩ := hwf.requested c (hwf.requests c _ hc).1
    refine .of_le (.of_eq (by simp)) (by simp) (fun id' c' hc' => ?_) (fun id' b hb => ?_) (hother (by simp))
    · dsimp only at hc'
      rw [PipelineState.eraseStream_streams hi] at hc'
      split at hc'
      · cases hc'
      · exact hc'
    · rwa [PipelineState.bufferOf_congr (p := s.pipeline) (by simp)] at hb
  | requestPush c =>
    obtain ⟨-, rfl⟩ := requestPush_cases hn
    exact .of_le (.of_eq fun _ => rfl) rfl (fun id c hc => hc) (fun id b hb => hb) (hother (by simp))

end ThreadedState

/-! ## The scheduler's buffers and the registered contexts -/

/-- The two steps that register a context that has been built. -/
def ConfigOp.registers : ConfigOp → Bool
  | .check _ | .insert _ => true
  | _ => false

/-- The steps before the first start of a turn. -/
def ConfigOp.early : ConfigOp → Bool
  | .stop .. | .update .. => true
  | _ => false

/-- A context is registered before anything else is done, and starts come last. -/
def ConfigOp.Follows (a b : ConfigOp) : Prop := b.registers = false ∧ (a.early = false → ∃ config, b = .build config)

namespace ThreadedState

variable {s t : ThreadedState} {a : ThreadAction}

/-- What the config thread puts in front of its remaining steps. -/
lemma configOps_cases {same : SameProtoMessage} {ready : Bool} {op : ConfigOp} {rest : List ConfigOp}
    (hn : s.runConfigOp same ready op rest = some t) :
    ∃ ops, t.configThread = ops ++ rest ∧
      (ops = [] ∨ (∃ step step' c, op = .stop step c ∧ ops = [.stop step' c]) ∨
        (∃ configs, op = .review configs ∧ ops = (s.pipeline.planBatch same (buildMergedStreams configs)).steps) ∨
        (∃ config, op = .build config ∧ ops = [.check s.pipeline.contexts.length]) ∨
        ∃ c, op = .check c ∧ (ops = [.stop .raiseFlag c] ∨ ops = [.insert c])) := by
  cases op with
  | stop step c =>
    obtain ⟨u, -, rfl⟩ := Option.map_eq_some_iff.mp hn
    cases step with
    | raiseFlag => exact ⟨[.stop .removeStream c], rfl, .inr (.inl ⟨_, _, c, rfl, rfl⟩)⟩
    | removeStream => exact ⟨[.stop .joinPuller c], rfl, .inr (.inl ⟨_, _, c, rfl, rfl⟩)⟩
    | joinPuller => exact ⟨[], rfl, .inl rfl⟩
  | review configs =>
    cases hn
    exact ⟨_, rfl, .inr (.inr (.inl ⟨configs, rfl, rfl⟩))⟩
  | update c config =>
    cases hn
    exact ⟨[], rfl, .inl rfl⟩
  | build config =>
    cases hn
    exact ⟨[.check s.pipeline.contexts.length], rfl, .inr (.inr (.inr (.inl ⟨config, rfl, rfl⟩)))⟩
  | check c =>
    obtain ⟨ops, rfl, ⟨rfl, -⟩ | ⟨rfl, -⟩ | ⟨rfl, -⟩⟩ := check_cases hn
    · exact ⟨[], rfl, .inl rfl⟩
    · exact ⟨_, rfl, .inr (.inr (.inr (.inr ⟨c, rfl, .inl rfl⟩)))⟩
    · exact ⟨_, rfl, .inr (.inr (.inr (.inr ⟨c, rfl, .inr rfl⟩)))⟩
  | insert c =>
    cases hn
    exact ⟨[], rfl, .inl rfl⟩

/-- The order in which the steps of a turn stand. -/
def Ordered (s : ThreadedState) : Prop := s.configThread.Pairwise ConfigOp.Follows

/-- An early step may be followed by any step that registers nothing. -/
lemma follows_of_early {a b : ConfigOp} (ha : a.early = true) (hb : b.registers = false) : a.Follows b := by
  refine ⟨hb, fun hnot => ?_⟩
  rw [ha] at hnot
  cases hnot

/-- Early steps, and then starts or a single review. -/
lemma pairwise_follows {first last : List ConfigOp} (hfirst : ∀ op ∈ first, op.early = true ∧ op.registers = false)
    (hlast : last.Pairwise ConfigOp.Follows) (hregisters : ∀ op ∈ last, op.registers = false) :
    (first ++ last).Pairwise ConfigOp.Follows := by
  refine List.pairwise_append.mpr ⟨?_, hlast, fun a ha b hb => follows_of_early (hfirst a ha).1 (hregisters b hb)⟩
  exact List.pairwise_of_forall_mem_list fun a ha b hb => follows_of_early (hfirst a ha).1 (hfirst b hb).2

/-- A step that is not one of the config thread leaves its steps or gives it new ones. -/
lemma configThread_other {same : SameProtoMessage} {agentId : Bytes}
    (hn : (threadSystem same agentId).next s a = some t) (ha : ∀ ready, a ≠ .config ready) :
    t.configThread = s.configThread ∨ t.Ordered ∧ ∀ op ∈ t.configThread, op.registers = false ∧
      ∀ c config, op ≠ .update c config := by
  cases a with
  | socketConfig cfg =>
    cases hn
    rcases handleSocketConfig_cases s agentId cfg with he | he <;> rw [he] <;> exact .inl rfl
  | wake =>
    rw [wake_cases (next_wake hn).2]
    have hstops : ∀ op ∈ s.pendingStopStreams.map (ConfigOp.stop .raiseFlag),
        op.early = true ∧ op.registers = false ∧ ∀ c config, op ≠ .update c config := by
      intro op hop
      obtain ⟨c, -, rfl⟩ := List.mem_map.mp hop
      exact ⟨rfl, rfl, by simp⟩
    refine .inr ⟨pairwise_follows (fun op hop => ⟨(hstops op hop).1, (hstops op hop).2.1⟩) ?_ ?_, fun op hop => ?_⟩
    · split <;> simp
    · split <;> simp [ConfigOp.registers]
    · rcases List.mem_append.mp hop with hop | hop
      · exact (hstops op hop).2
      · split at hop
        · rw [List.mem_singleton.mp hop]
          exact ⟨rfl, by simp⟩
        · cases hop
  | config ready => exact absurd rfl (ha ready)
  | requestExchange c =>
    rcases requestExchange_cases hn with rfl | ⟨-, -, -, rfl⟩ <;> exact .inl rfl
  | requestErase c =>
    obtain ⟨-, rfl⟩ := requestErase_cases hn
    exact .inl rfl
  | requestPush c =>
    obtain ⟨-, rfl⟩ := requestPush_cases hn
    exact .inl rfl

lemma steps_ordered (plan : BatchPlan) :
    plan.steps.Pairwise ConfigOp.Follows ∧ ∀ op ∈ plan.steps, op.registers = false := by
  have hfirst : ∀ op ∈ plan.streamsToStop.map (ConfigOp.stop .raiseFlag) ++
      plan.runtimeUpdates.map (fun u => ConfigOp.update u.1 u.2), op.early = true ∧ op.registers = false := by
    intro op hop
    rcases List.mem_append.mp hop with hop | hop <;> obtain ⟨_, -, rfl⟩ := List.mem_map.mp hop <;> exact ⟨rfl, rfl⟩
  have hlast : ∀ op ∈ plan.streamsToStart.map ConfigOp.build, op.registers = false ∧ ∃ config, op = .build config := by
    intro op hop
    obtain ⟨config, -, rfl⟩ := List.mem_map.mp hop
    exact ⟨rfl, config, rfl⟩
  refine ⟨pairwise_follows hfirst ?_ fun op hop => (hlast op hop).1, fun op hop => ?_⟩
  · exact List.pairwise_of_forall_mem_list fun a _ b hb => ⟨(hlast b hb).1, fun _ => (hlast b hb).2⟩
  · rcases List.mem_append.mp hop with hop | hop
    · exact (hfirst op hop).2
    · exact (hlast op hop).1

lemma Ordered.next {same : SameProtoMessage} {agentId : Bytes} (h : s.Ordered)
    (hn : (threadSystem same agentId).next s a = some t) : t.Ordered := by
  by_cases ha : ∀ ready, a ≠ .config ready
  · rcases configThread_other hn ha with hsame | hnew
    · rw [Ordered, hsame]
      exact h
    · exact hnew.1
  · obtain ⟨ready, hready⟩ := not_forall.mp ha
    obtain rfl := not_not.mp hready
    obtain ⟨op, rest, hthread, hn⟩ := next_config hn
    obtain ⟨ops, hops, hcases⟩ := configOps_cases hn
    obtain ⟨hhead, hrest⟩ := List.pairwise_cons.mp (show (op :: rest).Pairwise ConfigOp.Follows from hthread ▸ h)
    rw [Ordered, hops]
    rcases hcases with rfl | ⟨step, step', c, rfl, rfl⟩ | ⟨configs, rfl, rfl⟩ | ⟨config, rfl, rfl⟩ | ⟨c, rfl, hcheck⟩
    · exact hrest
    · exact List.pairwise_cons.mpr ⟨fun b hb => follows_of_early rfl (hhead b hb).1, hrest⟩
    · obtain ⟨hsteps, -⟩ := steps_ordered (s.pipeline.planBatch same (buildMergedStreams configs))
      refine List.pairwise_append.mpr ⟨hsteps, hrest, fun b _ b' hb' => ⟨(hhead b' hb').1, fun _ => ?_⟩⟩
      exact (hhead b' hb').2 rfl
    · exact List.pairwise_cons.mpr ⟨fun b hb => ⟨(hhead b hb).1, fun _ => (hhead b hb).2 rfl⟩, hrest⟩
    · rcases hcheck with rfl | rfl
      · exact List.pairwise_cons.mpr ⟨fun b hb => follows_of_early rfl (hhead b hb).1, hrest⟩
      · exact List.pairwise_cons.mpr ⟨fun b hb => ⟨(hhead b hb).1, fun _ => (hhead b hb).2 rfl⟩, hrest⟩

/-- Another scheduler changes nothing that the threads keep of the contexts. -/
lemma Wf.withScheduler (h : s.Wf) (scheduler : RoundRobinInferScheduler) :
    Wf { s with pipeline := { s.pipeline with scheduler := scheduler } } :=
  h.pipeline (.of_eq fun _ => rfl) (fun _ _ hc => .inl hc) fun _ hc => .inl hc

/-- What the threads keep true of the scheduler's buffers: the context registered for a stream owns the buffer that
the scheduler holds for it, or has been stopped. -/
structure OwnerInv (s : ThreadedState) : Prop where
  wf : s.Wf
  ordered : s.Ordered
  registered : ∀ (id : Bytes) (b c : ContextId), s.pipeline.bufferOf id = some b → s.pipeline.streams[id]? = some c →
    c = b ∨ s.pipeline.Flagged c
  registering : ∀ op ∈ s.configThread, op.registers = true → ∀ c, op.context = some c →
    ∀ id flag, s.pipeline.info c = some (id, flag) → ∀ b, s.pipeline.bufferOf id = some b → b = c
  updating : ∀ c config, .update c config ∈ s.configThread → ∀ id flag, s.pipeline.info c = some (id, flag) →
    ∀ c', s.pipeline.streams[id]? = some c' → c' = c

/-- A context is built for a stream only while no running context of it is registered. -/
def buildsFree (s : ThreadedState) : ThreadAction → Bool
  | .config _ =>
    match s.configThread with
    | .build config :: _ =>
      match s.pipeline.streams[config.streamId]? with
      | none => true
      | some c => ((s.pipeline.info c).map Prod.snd).getD true
    | _ => true
  | _ => true

lemma flagged_of_buildsFree (hwf : s.Wf) {ready : Bool} {config : StreamConfig} {rest : List ConfigOp}
    (hthread : s.configThread = .build config :: rest) (hguard : s.buildsFree (.config ready) = true)
    {c : ContextId} (hc : s.pipeline.streams[config.streamId]? = some c) : s.pipeline.Flagged c := by
  obtain ⟨flag, hi⟩ := hwf.registered _ c hc
  simp only [buildsFree, hthread, hc, hi, Option.map_some, Option.getD_some] at hguard
  exact ⟨config.streamId, hguard ▸ hi⟩

/-- The stream id of a context that is known before and after a step. -/
lemma info_id_of_le {p q : PipelineState} (hle : p.InfoLe q) {c : ContextId} {id id' : Bytes} {flag flag' : Bool}
    (h : p.info c = some (id, flag)) (h' : q.info c = some (id', flag')) : id' = id := by
  obtain ⟨flag'', hi, -⟩ := hle c id flag h
  rw [h'] at hi
  exact (Prod.mk.inj (Option.some.inj hi)).1

lemma head_unique {op op' : ConfigOp} {rest rest' : List ConfigOp} (h : s.configThread = op :: rest)
    (h' : s.configThread = op' :: rest') : op' = op := by
  rw [h] at h'
  exact (List.cons.inj h').1.symm

namespace OwnerInv

lemma registered_next (h : s.OwnerInv) (hmoves : s.Moves t a) (hguard : s.buildsFree a = true) :
    ∀ (id : Bytes) (b c : ContextId), t.pipeline.bufferOf id = some b → t.pipeline.streams[id]? = some c →
      c = b ∨ t.pipeline.Flagged c := by
  intro id b c hb hc
  rcases hmoves.buffers id b hb with
    ⟨hb, -⟩ | ⟨ready, config, rest, rfl, hthread, rfl, rfl, -⟩ | ⟨ready, config, rest, flag, rfl, hthread, hi⟩
  · rcases hmoves.streams id c hc with hc | ⟨ready, rest, flag, rfl, hthread, hi⟩
    · exact (h.registered id b c hb hc).imp_right fun hflag => hflag.mono hmoves.info
    · have hsame := h.registering (.insert c) (hthread ▸ List.mem_cons_self ..) rfl c rfl id flag hi b hb
      exact .inl hsame.symm
  · rcases hmoves.streams _ c hc with hc | ⟨_, _, _, _, hthread', -⟩
    · exact .inr ((flagged_of_buildsFree h.wf hthread hguard hc).mono hmoves.info)
    · cases head_unique hthread hthread'
  · rcases hmoves.streams id c hc with hc | ⟨_, _, _, _, hthread', -⟩
    · exact .inl (h.updating b config (hthread ▸ List.mem_cons_self ..) id flag hi c hc)
    · cases head_unique hthread hthread'

/-- The id of a context that a step of the config thread is about is known before the step. -/
lemma info_before (h : s.OwnerInv) (hmoves : s.Moves t a) {op : ConfigOp} (hop : op ∈ s.configThread)
    {c : ContextId} (hc : op.context = some c) {id : Bytes} {flag : Bool}
    (hi : t.pipeline.info c = some (id, flag)) : ∃ flag', s.pipeline.info c = some (id, flag') := by
  obtain ⟨id', flag', hi'⟩ := h.wf.built op hop c hc
  rw [info_id_of_le hmoves.info hi' hi]
  exact ⟨flag', hi'⟩

/-- A context about to be registered keeps the scheduler's buffer of its stream. -/
lemma registering_kept (h : s.OwnerInv) (hmoves : s.Moves t a) {op : ConfigOp} (hop : op ∈ s.configThread)
    (hregisters : op.registers = true) {c : ContextId} (hc : op.context = some c)
    (hhead : ∀ ready op' rest, a = .config ready → s.configThread = op' :: rest → op' = op) {id : Bytes} {flag : Bool}
    (hi : t.pipeline.info c = some (id, flag)) {b : ContextId} (hb : t.pipeline.bufferOf id = some b) : b = c := by
  obtain ⟨flag', hi'⟩ := h.info_before hmoves hop hc hi
  rcases hmoves.buffers id b hb with
    ⟨hb, -⟩ | ⟨ready, config, rest, rfl, hthread, -⟩ | ⟨ready, config, rest, flag, rfl, hthread, -⟩
  · exact h.registering op hop hregisters c hc id flag' hi' b hb
  · rw [← hhead ready _ rest rfl hthread] at hregisters
    cases hregisters
  · rw [← hhead ready _ rest rfl hthread] at hregisters
    cases hregisters

lemma registering_next {same : SameProtoMessage} {agentId : Bytes} (h : s.OwnerInv) (hmoves : s.Moves t a)
    (hn : (threadSystem same agentId).next s a = some t) :
    ∀ op ∈ t.configThread, op.registers = true → ∀ c, op.context = some c →
      ∀ id flag, t.pipeline.info c = some (id, flag) → ∀ b, t.pipeline.bufferOf id = some b → b = c := by
  intro op hop hregisters c hc id flag hi b hb
  by_cases ha : ∀ ready, a ≠ .config ready
  · rcases configThread_other hn ha with hsame | ⟨-, hnew⟩
    · rw [hsame] at hop
      exact h.registering_kept hmoves hop hregisters hc (fun ready _ _ he => absurd he (ha ready)) hi hb
    · rw [(hnew op hop).1] at hregisters
      cases hregisters
  · obtain ⟨ready, hready⟩ := not_forall.mp ha
    obtain rfl := not_not.mp hready
    obtain ⟨op', rest, hthread, hn⟩ := next_config hn
    obtain ⟨ops, hops, hcases⟩ := configOps_cases hn
    obtain ⟨hhead, -⟩ := List.pairwise_cons.mp
      (show (op' :: rest).Pairwise ConfigOp.Follows from hthread ▸ h.ordered)
    have hnotRest : op ∉ rest := by
      intro hmem
      rw [(hhead op hmem).1] at hregisters
      cases hregisters
    rw [hops, List.mem_append, or_iff_left hnotRest] at hop
    rcases hcases with rfl | ⟨step, step', c', rfl, rfl⟩ | ⟨configs, rfl, rfl⟩ | ⟨config, rfl, rfl⟩ | ⟨c', rfl, hcheck⟩
    · cases hop
    · rw [List.mem_singleton.mp hop] at hregisters
      cases hregisters
    · rw [(steps_ordered _).2 op hop] at hregisters
      cases hregisters
    · -- the context that has just been built has just been given to the scheduler
      rw [List.mem_singleton.mp hop] at hc
      cases hc
      have hbuilt : t.pipeline.info s.pipeline.contexts.length = some (config.streamId, false) := by
        cases hn
        exact (s.pipeline.info_buildStreamContext (fun _ => ready) config _).trans (if_pos rfl)
      rw [hbuilt] at hi
      cases hi
      rcases hmoves.buffers _ b hb with ⟨-, hother⟩ | ⟨_, _, _, -, -, -, hlast, -⟩ | ⟨_, _, _, _, -, hthread', -⟩
      · exact absurd rfl (hother ready config rest rfl hthread)
      · exact hlast
      · cases head_unique hthread hthread'
    · rcases hcheck with rfl | rfl
      · rw [List.mem_singleton.mp hop] at hregisters
        cases hregisters
      · rw [List.mem_singleton.mp hop] at hc
        cases hc
        have hchecked : .check c ∈ s.configThread := hthread ▸ List.mem_cons_self ..
        exact h.registering_kept hmoves hchecked rfl rfl
          (fun _ _ _ _ hthread' => head_unique hthread hthread') hi hb

lemma updating_next {same : SameProtoMessage} {agentId : Bytes} (h : s.OwnerInv) (hmoves : s.Moves t a)
    (hn : (threadSystem same agentId).next s a = some t) :
    ∀ c config, .update c config ∈ t.configThread → ∀ id flag, t.pipeline.info c = some (id, flag) →
      ∀ c', t.pipeline.streams[id]? = some c' → c' = c := by
  intro c config hop id flag hi c' hc'
  -- an update that was there before, beside a step that registers nothing
  have hkept : .update c config ∈ s.configThread →
      (∀ ready c' rest, a = .config ready → s.configThread ≠ .insert c' :: rest) → c' = c := by
    intro hop hinsert
    obtain ⟨flag', hi'⟩ := h.info_before hmoves hop rfl hi
    rcases hmoves.streams id c' hc' with hc' | ⟨ready, rest, _, ha, hthread, -⟩
    · exact h.updating c config hop id flag' hi' c' hc'
    · exact absurd hthread (hinsert ready c' rest ha)
  by_cases ha : ∀ ready, a ≠ .config ready
  · rcases configThread_other hn ha with hsame | ⟨-, hnew⟩
    · exact hkept (hsame ▸ hop) fun ready _ _ he => absurd he (ha ready)
    · exact absurd rfl ((hnew _ hop).2 c config)
  · obtain ⟨ready, hready⟩ := not_forall.mp ha
    obtain rfl := not_not.mp hready
    obtain ⟨op', rest, hthread, hn⟩ := next_config hn
    obtain ⟨ops, hops, hcases⟩ := configOps_cases hn
    obtain ⟨hhead, -⟩ := List.pairwise_cons.mp
      (show (op' :: rest).Pairwise ConfigOp.Follows from hthread ▸ h.ordered)
    rw [hops] at hop
    rcases List.mem_append.mp hop with hop | hop
    · rcases hcases with
        rfl | ⟨step, step', _, rfl, rfl⟩ | ⟨configs, rfl, rfl⟩ | ⟨config', rfl, rfl⟩ | ⟨_, rfl, rfl | rfl⟩
      · cases hop
      · cases List.mem_singleton.mp hop
      · simp only [BatchPlan.steps, List.mem_append, List.mem_map] at hop
        rcases hop with (⟨_, -, he⟩ | ⟨u, hu, he⟩) | ⟨_, -, he⟩
        · cases he
        · cases he
          obtain ⟨id', hreg⟩ := (examined_planBatch s.pipeline same (buildMergedStreams configs)).updates u hu
          obtain ⟨flag', hi'⟩ := h.wf.registered id' u.1 hreg
          rw [info_id_of_le hmoves.info hi' hi] at hc'
          rcases hmoves.streams id' c' hc' with hold | ⟨_, _, _, _, hthread', -⟩
          · rw [hreg] at hold
            exact (Option.some.inj hold).symm
          · cases head_unique hthread hthread'
        · cases he
      · cases List.mem_singleton.mp hop
      · cases List.mem_singleton.mp hop
      · cases List.mem_singleton.mp hop
    · refine hkept (hthread ▸ List.mem_cons_of_mem _ hop) fun _ c'' rest' _ hthread' => ?_
      cases head_unique hthread hthread'
      obtain ⟨config', he⟩ := (hhead _ hop).2 rfl
      cases he

lemma next {same : SameProtoMessage} {agentId : Bytes} (h : s.OwnerInv) (hguard : s.buildsFree a = true)
    (hn : (threadSystem same agentId).next s a = some t) : t.OwnerInv := by
  have hmoves := h.wf.moves hn
  exact ⟨h.wf.next hn, h.ordered.next hn, h.registered_next hmoves hguard, h.registering_next hmoves hn,
    h.updating_next hmoves hn⟩

lemma init : OwnerInv {} := by
  refine ⟨Wf.init, .nil, fun id b c hb => ?_, fun op hop => ?_, fun c config hop => ?_⟩
  · simp [PipelineState.bufferOf] at hb
  · cases hop
  · cases hop

/-- Another scheduler with the same buffers. -/
lemma withScheduler (h : s.OwnerInv) {scheduler : RoundRobinInferScheduler}
    (hbuffers : ∀ id, PipelineState.bufferOf { s.pipeline with scheduler := scheduler } id = s.pipeline.bufferOf id) :
    OwnerInv { s with pipeline := { s.pipeline with scheduler := scheduler } } := by
  refine ⟨h.wf.withScheduler scheduler, h.ordered, fun id b c hb => ?_,
    fun op hop hregisters c hc id flag hi b hb => ?_, h.updating⟩
  · rw [hbuffers] at hb
    exact h.registered id b c hb
  · rw [hbuffers] at hb
    exact h.registering op hop hregisters c hc id flag hi b hb

end OwnerInv

end ThreadedState

end MediaAgent
