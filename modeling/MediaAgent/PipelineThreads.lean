import MediaAgent.ContextAccounting

/-!
# The config thread and the pull threads

`mainLoop` with `applyConfigBatch`, `buildStreamContext` and `stopStream`, interleaved with
`requestAsyncStopStream` on the pull threads of the contexts. The config thread keeps a list of the
steps that are left of its turn; a step is one critical section, one atomic access, or one call of
the scheduler. The pull thread of a context calls `requestAsyncStopStream` when its publisher cannot
be configured, and `stopStream` waits for the call when it joins the thread.
-/

namespace MediaAgent
open Std TreeMaps Transition

/-- The three parts of `stopStream` that other threads see: the stop flag, the scheduler, and what
follows the join of the pull thread. -/
inductive StopStep
  | raiseFlag
  | removeStream
  | joinPuller
  deriving DecidableEq, Repr

def StopStep.next : StopStep → Option StopStep
  | .raiseFlag => some .removeStream
  | .removeStream => some .joinPuller
  | .joinPuller => none

/-- A step of the config thread. -/
inductive ConfigOp
  | stop (step : StopStep) (c : ContextId)
  | review (configs : TreeMap Int AgentConfig)
  | update (c : ContextId) (config : StreamConfig)
  | build (config : StreamConfig)
  | check (c : ContextId)
  | insert (c : ContextId)

/-- The context that a step is about. -/
def ConfigOp.context : ConfigOp → Option ContextId
  | .stop _ c | .update c _ | .check c | .insert c => some c
  | .review _ | .build _ => none

/-- Where a call of `requestAsyncStopStream` stands that has raised the stop flag. -/
inductive RequestPc
  | erasing
  | pushing
  deriving DecidableEq, Repr

/-- The pipeline, the configurations, what is left of the turn of the config thread, the calls of
`requestAsyncStopStream` under way, and the contexts whose stop has been requested. -/
structure ThreadedState where
  pipeline : PipelineState := {}
  configs : TreeMap Int AgentConfig := ∅
  hasPendingConfig : Bool := false
  pendingStopStreams : List ContextId := []
  configThread : List ConfigOp := []
  requests : TreeMap ContextId RequestPc := ∅
  requested : List ContextId := []

namespace PipelineState

def raiseFlag (s : PipelineState) (c : ContextId) : PipelineState :=
  match s.contexts[c]? with
  | none => s
  | some stream => { s with contexts := s.contexts.set c { stream with stopFlag := true } }

def removeStream (s : PipelineState) (c : ContextId) : PipelineState :=
  match s.contexts[c]? with
  | none => s
  | some stream => { s with scheduler := s.scheduler.removeStream stream.streamId }

/-- What `stopStream` does once the pull thread has been joined. -/
def closeStream (s : PipelineState) (c : ContextId) : PipelineState :=
  match s.contexts[c]? with
  | none => s
  | some stream =>
    { s with
      contexts := s.contexts.set c
        { stream with detectorRuntime := { stream.detectorRuntime with detector := none } }
      stopped := s.stopped ++ [c] }

/-- `streams_[stream->stream_id] = stream`. -/
def insertStream (s : PipelineState) (c : ContextId) : PipelineState :=
  match s.contexts[c]? with
  | none => s
  | some stream => { s with streams := s.streams.insert stream.streamId c }

/-- The part of `requestAsyncStopStream` under the lock of `streams_`. -/
def eraseStream (s : PipelineState) (c : ContextId) : PipelineState :=
  match s.contexts[c]? with
  | none => s
  | some stream =>
    if s.streams[stream.streamId]? = some c then { s with streams := s.streams.erase stream.streamId } else s

end PipelineState

/-- The steps that a plan leaves to the config thread. -/
def BatchPlan.steps (plan : BatchPlan) : List ConfigOp :=
  plan.streamsToStop.map (.stop .raiseFlag) ++
    (plan.runtimeUpdates.map fun u => .update u.1 u.2) ++ plan.streamsToStart.map .build

namespace ThreadedState

def handleSocketConfig (s : ThreadedState) (agentId : Bytes) (cfg : AgentConfig) : ThreadedState :=
  if !cfg.agentId.isEmpty && cfg.agentId != agentId then s
  else { s with configs := s.configs.insert cfg.configId cfg, hasPendingConfig := true }

/-- The head of `mainLoop`: it waits until there is something to do, and takes all of it. -/
def wake (s : ThreadedState) : Option ThreadedState :=
  if s.hasPendingConfig || !s.pendingStopStreams.isEmpty then
    some { s with
      hasPendingConfig := false
      pendingStopStreams := []
      configThread := s.pendingStopStreams.map (.stop .raiseFlag) ++
        if s.hasPendingConfig then [.review s.configs] else [] }
  else none

/-- A step of `stopStream`; the join waits for a call of the pull thread that is under way. -/
def stopStep (s : ThreadedState) (step : StopStep) (c : ContextId) : Option ThreadedState :=
  match step with
  | .raiseFlag => some { s with pipeline := s.pipeline.raiseFlag c }
  | .removeStream => some { s with pipeline := s.pipeline.removeStream c }
  | .joinPuller =>
    if s.requests.contains c then none else some { s with pipeline := s.pipeline.closeStream c }

/-- The next step of the config thread; `ready` is the answer of a detector that it initialises. -/
def runConfigOp (same : SameProtoMessage) (ready : Bool) (s : ThreadedState) (op : ConfigOp)
    (rest : List ConfigOp) : Option ThreadedState :=
  match op with
  | .stop step c =>
    (s.stopStep step c).map fun t =>
      { t with configThread := (step.next.map fun step => .stop step c).toList ++ rest }
  | .review configs =>
    let plan := s.pipeline.planBatch same (buildMergedStreams configs)
    some { s with
      pipeline := { s.pipeline with contexts := plan.contexts, streams := plan.streams }
      configThread := plan.steps ++ rest }
  | .update c config =>
    some { s with
      pipeline := s.pipeline.updateStreamRuntime same (fun _ => ready) c config
      configThread := rest }
  | .build config =>
    let (c, pipeline) := s.pipeline.buildStreamContext (fun _ => ready) config
    some { s with pipeline := pipeline, configThread := .check c :: rest }
  | .check c =>
    match s.pipeline.contexts[c]? with
    | none => some { s with configThread := rest }
    | some stream =>
      if stream.stopFlag then some { s with configThread := .stop .raiseFlag c :: rest }
      else some { s with configThread := .insert c :: rest }
  | .insert c => some { s with pipeline := s.pipeline.insertStream c, configThread := rest }

/-- `stop_flag.exchange(true)`; the pull thread runs until it is joined, and makes one call at a
time. -/
def requestExchange (s : ThreadedState) (c : ContextId) : Option ThreadedState :=
  match s.pipeline.contexts[c]? with
  | none => none
  | some stream =>
    if c ∈ s.pipeline.stopped ∨ s.requests.contains c ∨ stream.transportConfig.newRtspUrl = [] then none
    else if stream.stopFlag then some s
    else some { s with
      pipeline := s.pipeline.raiseFlag c
      requests := s.requests.insert c .erasing
      requested := s.requested ++ [c] }

def requestErase (s : ThreadedState) (c : ContextId) : Option ThreadedState :=
  if s.requests[c]? = some .erasing then
    some { s with pipeline := s.pipeline.eraseStream c, requests := s.requests.insert c .pushing }
  else none

def requestPush (s : ThreadedState) (c : ContextId) : Option ThreadedState :=
  if s.requests[c]? = some .pushing then
    some { s with
      pendingStopStreams := s.pendingStopStreams ++ [c]
      requests := s.requests.erase c }
  else none

end ThreadedState

inductive ThreadAction
  | socketConfig (cfg : AgentConfig)
  | wake
  | config (ready : Bool)
  | requestExchange (c : ContextId)
  | requestErase (c : ContextId)
  | requestPush (c : ContextId)

/-- The pipeline of an agent between `start` and `stop`. -/
def threadSystem (same : SameProtoMessage) (agentId : Bytes) : Machine ThreadedState ThreadAction where
  init := {}
  next s
    | .socketConfig cfg => some (s.handleSocketConfig agentId cfg)
    | .wake =>
      match s.configThread with
      | [] => s.wake
      | _ :: _ => none
    | .config ready =>
      match s.configThread with
      | [] => none
      | op :: rest => s.runConfigOp same ready op rest
    | .requestExchange c => s.requestExchange c
    | .requestErase c => s.requestErase c
    | .requestPush c => s.requestPush c

/-! ## The steps together are the calls -/

namespace PipelineState

/-- The three parts of `stopStream`, one after the other. -/
lemma stopStream_steps (s : PipelineState) (c : ContextId) :
    ((s.raiseFlag c).removeStream c).closeStream c = s.stopStream c := by
  unfold stopStream raiseFlag
  cases hc : s.contexts[c]? with
  | none => simp [removeStream, closeStream, hc]
  | some stream =>
    have hlt := (List.getElem?_eq_some_iff.mp hc).1
    simp [removeStream, closeStream, hlt]

/-! ## What the steps do to the contexts -/

/-- The stream id of a context and its stop flag, if it has been built. -/
def info (s : PipelineState) (c : ContextId) : Option (Bytes × Bool) :=
  (s.contexts[c]?).map fun stream => (stream.streamId, stream.stopFlag)

def Built (s : PipelineState) (c : ContextId) : Prop := ∃ id flag, s.info c = some (id, flag)

def Flagged (s : PipelineState) (c : ContextId) : Prop := ∃ id, s.info c = some (id, true)

variable (s : PipelineState) (c : ContextId)

/-- Writing a context back with the same stream id. -/
lemma map_set_info {contexts : List StreamContext} {c : ContextId} {stream stream' : StreamContext}
    (hc : contexts[c]? = some stream) (hid : stream'.streamId = stream.streamId) (k : ContextId) :
    ((contexts.set c stream')[k]?).map (fun x => (x.streamId, x.stopFlag)) =
      if c = k then some (stream.streamId, stream'.stopFlag)
      else (contexts[k]?).map fun x => (x.streamId, x.stopFlag) := by
  split
  · subst k
    rw [List.getElem?_set_self (List.getElem?_eq_some_iff.mp hc).1, Option.map_some, hid]
  · rw [List.getElem?_set_ne ‹_›]

lemma map_set_info_same {contexts : List StreamContext} {c : ContextId} {stream stream' : StreamContext}
    (hc : contexts[c]? = some stream) (hid : stream'.streamId = stream.streamId)
    (hflag : stream'.stopFlag = stream.stopFlag) (k : ContextId) :
    ((contexts.set c stream')[k]?).map (fun x => (x.streamId, x.stopFlag)) =
      (contexts[k]?).map fun x => (x.streamId, x.stopFlag) := by
  rw [map_set_info hc hid]
  split
  · subst k
    rw [hc, Option.map_some, hflag]
  · rfl

lemma info_raiseFlag (k : ContextId) :
    (s.raiseFlag c).info k = if c = k then (s.info k).map (fun i => (i.1, true)) else s.info k := by
  unfold info raiseFlag
  cases hc : s.contexts[c]? with
  | none =>
    by_cases hk : c = k
    · subst k
      simp [hc]
    · simp [hk]
  | some stream =>
    dsimp only
    rw [map_set_info hc (by rfl)]
    split
    · subst k
      rw [hc, Option.map_some, Option.map_some]
    · rfl

@[simp] lemma info_removeStream (k : ContextId) : (s.removeStream c).info k = s.info k := by
  unfold removeStream
  split <;> rfl

@[simp] lemma info_closeStream (k : ContextId) : (s.closeStream c).info k = s.info k := by
  unfold info closeStream
  cases hc : s.contexts[c]? with
  | none => rfl
  | some stream => exact map_set_info_same hc (by rfl) (by rfl) k

@[simp] lemma info_insertStream (k : ContextId) : (s.insertStream c).info k = s.info k := by
  unfold insertStream
  split <;> rfl

@[simp] lemma info_eraseStream (k : ContextId) : (s.eraseStream c).info k = s.info k := by
  unfold eraseStream
  split
  · rfl
  · split <;> rfl

@[simp] lemma info_updateStreamRuntime (same : SameProtoMessage) (ready : ContextId → Bool)
    (config : StreamConfig) (k : ContextId) :
    (s.updateStreamRuntime same ready c config).info k = s.info k := by
  unfold info updateStreamRuntime
  cases hc : s.contexts[c]? with
  | none => rfl
  | some stream => exact map_set_info_same hc (by rfl) (by rfl) k

lemma info_buildStreamContext (ready : ContextId → Bool) (config : StreamConfig) (k : ContextId) :
    (s.buildStreamContext ready config).2.info k =
      if k = s.contexts.length then some (config.streamId, false) else s.info k := by
  unfold info buildStreamContext
  dsimp only
  split
  · subst k
    simp
  · rename_i hne
    rw [List.getElem?_append]
    split
    · rfl
    · rename_i hge
      have hlast : ∃ n, k - s.contexts.length = n + 1 :=
        Nat.exists_eq_succ_of_ne_zero (Nat.sub_ne_zero_of_lt (Nat.lt_of_le_of_ne (Nat.not_lt.mp hge) (Ne.symm hne)))
      obtain ⟨n, hn⟩ := hlast
      rw [hn, List.getElem?_eq_none (Nat.not_lt.mp hge)]
      rfl

lemma info_eq_none {k : ContextId} (hk : s.contexts.length ≤ k) : s.info k = none := by
  rw [info, List.getElem?_eq_none hk]
  rfl

lemma Built.lt {s : PipelineState} {c : ContextId} (h : s.Built c) : c < s.contexts.length := by
  obtain ⟨id, flag, hi⟩ := h
  by_contra hge
  rw [s.info_eq_none (Nat.not_lt.mp hge)] at hi
  cases hi

/-! ### The registered contexts, the scheduler and the stopped contexts -/

@[simp] lemma raiseFlag_streams : (s.raiseFlag c).streams = s.streams := by
  unfold raiseFlag
  split <;> rfl

@[simp] lemma raiseFlag_scheduler : (s.raiseFlag c).scheduler = s.scheduler := by
  unfold raiseFlag
  split <;> rfl

@[simp] lemma raiseFlag_stopped : (s.raiseFlag c).stopped = s.stopped := by
  unfold raiseFlag
  split <;> rfl

@[simp] lemma removeStream_streams : (s.removeStream c).streams = s.streams := by
  unfold removeStream
  split <;> rfl

@[simp] lemma removeStream_stopped : (s.removeStream c).stopped = s.stopped := by
  unfold removeStream
  split <;> rfl

@[simp] lemma closeStream_streams : (s.closeStream c).streams = s.streams := by
  unfold closeStream
  split <;> rfl

@[simp] lemma closeStream_scheduler : (s.closeStream c).scheduler = s.scheduler := by
  unfold closeStream
  split <;> rfl

@[simp] lemma insertStream_scheduler : (s.insertStream c).scheduler = s.scheduler := by
  unfold insertStream
  split <;> rfl

@[simp] lemma insertStream_stopped : (s.insertStream c).stopped = s.stopped := by
  unfold insertStream
  split <;> rfl

@[simp] lemma eraseStream_scheduler : (s.eraseStream c).scheduler = s.scheduler := by
  unfold eraseStream
  split
  · rfl
  · split <;> rfl

@[simp] lemma eraseStream_stopped : (s.eraseStream c).stopped = s.stopped := by
  unfold eraseStream
  split
  · rfl
  · split <;> rfl

@[simp] lemma updateStreamRuntime_streams (same : SameProtoMessage) (ready : ContextId → Bool)
    (config : StreamConfig) : (s.updateStreamRuntime same ready c config).streams = s.streams :=
  (s.updateStreamRuntime_eq same ready c config).2.1

@[simp] lemma updateStreamRuntime_stopped (same : SameProtoMessage) (ready : ContextId → Bool)
    (config : StreamConfig) : (s.updateStreamRuntime same ready c config).stopped = s.stopped :=
  (s.updateStreamRuntime_eq same ready c config).2.2

variable {s c}

/-- A context that has been built is closed by joining its pull thread. -/
lemma closeStream_stopped (h : s.Built c) : (s.closeStream c).stopped = s.stopped ++ [c] := by
  obtain ⟨id, flag, hi⟩ := h
  obtain ⟨stream, hc, -⟩ := Option.map_eq_some_iff.mp hi
  simp [closeStream, hc]

lemma insertStream_streams {id : Bytes} {flag : Bool} (h : s.info c = some (id, flag)) :
    (s.insertStream c).streams = s.streams.insert id c := by
  obtain ⟨stream, hc, hi⟩ := Option.map_eq_some_iff.mp h
  cases hi
  simp [insertStream, hc]

lemma removeStream_entries {id : Bytes} {flag : Bool} (h : s.info c = some (id, flag)) :
    (s.removeStream c).scheduler.entries = s.scheduler.entries.erase id := by
  obtain ⟨stream, hc, hi⟩ := Option.map_eq_some_iff.mp h
  cases hi
  simp [removeStream, hc, RoundRobinInferScheduler.removeStream]

lemma updateStreamRuntime_scheduler (same : SameProtoMessage) (ready : ContextId → Bool)
    (config : StreamConfig) {id : Bytes} {flag : Bool} (h : s.info c = some (id, flag)) :
    (s.updateStreamRuntime same ready c config).scheduler = s.scheduler.upsertStream id config (some c) := by
  obtain ⟨stream, hc, hi⟩ := Option.map_eq_some_iff.mp h
  cases hi
  simp [updateStreamRuntime, hc]

/-- Erasing removes the context from where it is registered, and nothing else. -/
lemma eraseStream_streams {id : Bytes} {flag : Bool} (h : s.info c = some (id, flag)) (k : Bytes) :
    (s.eraseStream c).streams[k]? = if k = id ∧ s.streams[k]? = some c then none else s.streams[k]? := by
  obtain ⟨stream, hc, hi⟩ := Option.map_eq_some_iff.mp h
  cases hi
  simp only [eraseStream, hc]
  by_cases hk : k = stream.streamId
  · subst k
    by_cases hreg : s.streams[stream.streamId]? = some c <;> simp [hreg]
  · by_cases hreg : s.streams[stream.streamId]? = some c
    · simp only [hreg, ite_true, lookup_erase, if_neg (Ne.symm hk), hk, false_and, ite_false]
    · simp [hreg, hk]

end PipelineState

/-! ### The review -/

/-- What a plan does to the registered contexts: it drops those that it stops, it updates registered
ones, and it starts desired streams. -/
structure Examined (s : PipelineState) (desiredStreams : TreeMap Bytes StreamConfig) (plan : BatchPlan) :
    Prop where
  info : ∀ k : ContextId, (plan.contexts[k]?).map (fun x => (x.streamId, x.stopFlag)) = s.info k
  kept : ∀ (id : Bytes) (c : ContextId), plan.streams[id]? = some c → s.streams[id]? = some c
  dropped : ∀ (id : Bytes) (c : ContextId), s.streams[id]? = some c →
    plan.streams[id]? = some c ∨ c ∈ plan.streamsToStop
  stops : ∀ c ∈ plan.streamsToStop, ∃ id : Bytes, s.streams[id]? = some c
  updates : ∀ u ∈ plan.runtimeUpdates, ∃ id : Bytes, s.streams[id]? = some u.1
  starts : ∀ config ∈ plan.streamsToStart, ∃ id : Bytes, desiredStreams[id]? = some config

section review

variable {s : PipelineState} {desiredStreams : TreeMap Bytes StreamConfig} {plan : BatchPlan}

lemma Examined.reviewStream (h : Examined s desiredStreams plan) (same : SameProtoMessage)
    {entry : Bytes × ContextId} (hentry : s.streams[entry.1]? = some entry.2) :
    Examined s desiredStreams (reviewStream same desiredStreams plan entry) := by
  have herase : ∀ starts : List StreamConfig,
      (∀ config ∈ starts, ∃ id : Bytes, desiredStreams[id]? = some config) →
      Examined s desiredStreams { plan with
        streamsToStop := plan.streamsToStop ++ [entry.2]
        streams := plan.streams.erase entry.1
        streamsToStart := starts } := by
    intro starts hstarts
    refine ⟨h.info, fun id c hc => ?_, fun id c hc => ?_, fun c hc => ?_, h.updates, hstarts⟩
    · simp only [lookup_erase, Option.ite_none_left_eq_some] at hc
      exact h.kept id c hc.2
    · simp only [lookup_erase, List.mem_append, List.mem_singleton]
      split
      · subst id
        rw [hentry] at hc
        exact .inr (.inr (Option.some.inj hc).symm)
      · exact (h.dropped id c hc).imp_right .inl
    · rcases List.mem_append.mp hc with hc | hc
      · exact h.stops c hc
      · exact ⟨entry.1, List.mem_singleton.mp hc ▸ hentry⟩
  unfold MediaAgent.reviewStream
  split
  · exact h
  · rename_i stream hstream
    split
    · exact herase plan.streamsToStart h.starts
    · rename_i desired hdesired
      split
      · refine herase _ fun config hc => ?_
        rcases List.mem_append.mp hc with hc | hc
        · exact h.starts config hc
        · exact ⟨entry.1, List.mem_singleton.mp hc ▸ hdesired⟩
      · split
        · refine ⟨fun k => ?_, h.kept, h.dropped, h.stops, fun u hu => ?_, h.starts⟩
          · exact (PipelineState.map_set_info_same hstream (by rfl) (by rfl) k).trans (h.info k)
          · rcases List.mem_append.mp hu with hu | hu
            · exact h.updates u hu
            · exact ⟨entry.1, List.mem_singleton.mp hu ▸ hentry⟩
        · exact h

lemma examined_planBatch (s : PipelineState) (same : SameProtoMessage)
    (desiredStreams : TreeMap Bytes StreamConfig) :
    Examined s desiredStreams (s.planBatch same desiredStreams) := by
  have hfold : ∀ (l : List (Bytes × ContextId)) (plan : BatchPlan), Examined s desiredStreams plan →
      (∀ e ∈ l, s.streams[e.1]? = some e.2) →
      Examined s desiredStreams (l.foldl (reviewStream same desiredStreams) plan) := by
    intro l
    induction l with
    | nil => exact fun plan h _ => h
    | cons e l ih =>
      exact fun plan h hl => ih _ (h.reviewStream same (hl e (List.mem_cons_self ..)))
        fun e' he' => hl e' (List.mem_cons_of_mem _ he')
  have hreview := hfold s.streams.toList { contexts := s.contexts, streams := s.streams }
    ⟨fun _ => rfl, fun _ _ h => h, fun _ _ h => .inl h, by simp, by simp, by simp⟩
    fun e he => TreeMap.mem_toList_iff_getElem?_eq_some.mp he
  rw [PipelineState.planBatch, foldl_addMissingStream]
  refine ⟨hreview.info, hreview.kept, hreview.dropped, hreview.stops, hreview.updates, fun config hc => ?_⟩
  rcases List.mem_append.mp hc with hc | hc
  · exact hreview.starts config hc
  · obtain ⟨entry, hentry, rfl⟩ := List.mem_map.mp hc
    exact ⟨entry.1, TreeMap.mem_toList_iff_getElem?_eq_some.mp (List.mem_filter.mp hentry).1⟩

end review

/-! ## What holds in every reachable state -/

/-- The contexts of `p` are there in `q`, with the same stream ids, and keep a raised stop flag. -/
def PipelineState.InfoLe (p q : PipelineState) : Prop :=
  ∀ c id flag, p.info c = some (id, flag) → ∃ flag', q.info c = some (id, flag') ∧ (flag = true → flag' = true)

/-- A start comes after everything else in a turn of the config thread. -/
def ConfigOp.Before (a b : ConfigOp) : Prop :=
  (∃ config, a = .build config) ∨ (∃ configs, a = .review configs) → ∃ config, b = .build config

/-- Contexts are registered under their ids, and what the threads work on has been built; a context
that has been requested to stop, is being removed or has been stopped is flagged. -/
structure ThreadedState.Wf (s : ThreadedState) : Prop where
  registered : ∀ (id : Bytes) (c : ContextId), s.pipeline.streams[id]? = some c →
    ∃ flag, s.pipeline.info c = some (id, flag)
  built : ∀ op ∈ s.configThread, ∀ c, op.context = some c → s.pipeline.Built c
  removing : ∀ step c, .stop step c ∈ s.configThread → step ≠ .raiseFlag → s.pipeline.Flagged c
  order : s.configThread.Pairwise ConfigOp.Before
  pending : ∀ c ∈ s.pendingStopStreams, s.pipeline.Built c
  requests : ∀ c pc, s.requests[c]? = some pc → c ∈ s.requested ∧ c ∉ s.pipeline.stopped
  requested : ∀ c ∈ s.requested, s.pipeline.Flagged c
  stopped : ∀ c ∈ s.pipeline.stopped, s.pipeline.Flagged c

namespace PipelineState

variable {p q r : PipelineState}

lemma InfoLe.of_eq (h : ∀ k, q.info k = p.info k) : p.InfoLe q :=
  fun c _ _ hi => ⟨_, (h c).trans hi, id⟩

lemma InfoLe.raiseFlag (p : PipelineState) (c : ContextId) : p.InfoLe (p.raiseFlag c) := by
  intro k id flag hi
  rw [info_raiseFlag, hi]
  split
  · exact ⟨true, rfl, fun _ => rfl⟩
  · exact ⟨flag, rfl, fun h => h⟩

lemma InfoLe.build (p : PipelineState) (ready : ContextId → Bool) (config : StreamConfig) :
    p.InfoLe (p.buildStreamContext ready config).2 := by
  intro k id flag hi
  have hlt : k < p.contexts.length := Built.lt ⟨id, flag, hi⟩
  rw [info_buildStreamContext, if_neg (Nat.ne_of_lt hlt)]
  exact ⟨flag, hi, fun h => h⟩

lemma Built.mono {c : ContextId} (h : p.Built c) (hle : p.InfoLe q) : q.Built c := by
  obtain ⟨id, flag, hi⟩ := h
  obtain ⟨flag', hi', -⟩ := hle c id flag hi
  exact ⟨id, flag', hi'⟩

lemma Flagged.mono {c : ContextId} (h : p.Flagged c) (hle : p.InfoLe q) : q.Flagged c := by
  obtain ⟨id, hi⟩ := h
  obtain ⟨flag', hi', hflag⟩ := hle c id true hi
  exact ⟨id, hflag rfl ▸ hi'⟩

lemma Flagged.built {c : ContextId} (h : p.Flagged c) : p.Built c := by
  obtain ⟨id, hi⟩ := h
  exact ⟨id, true, hi⟩

lemma flagged_raiseFlag {c : ContextId} (h : p.Built c) : (p.raiseFlag c).Flagged c := by
  obtain ⟨id, flag, hi⟩ := h
  exact ⟨id, by rw [info_raiseFlag, if_pos rfl, hi, Option.map_some]⟩

end PipelineState

namespace ThreadedState

variable {s t : ThreadedState}

/-- The join waits until the pull thread is in no call. -/
lemma joinPuller_cases {c : ContextId} (hn : s.stopStep .joinPuller c = some t) :
    s.requests[c]? = none ∧ t = { s with pipeline := s.pipeline.closeStream c } := by
  simp only [ThreadedState.stopStep, Option.ite_none_left_eq_some] at hn
  obtain ⟨hidle, hn⟩ := hn
  exact ⟨TreeMap.getElem?_eq_none_of_contains_eq_false (Bool.eq_false_iff.mpr hidle), (Option.some.inj hn).symm⟩

/-- A context that has been built is stopped again if it is flagged, and inserted otherwise. -/
lemma check_cases {same : SameProtoMessage} {ready : Bool} {c : ContextId} {rest : List ConfigOp}
    (hn : s.runConfigOp same ready (.check c) rest = some t) :
    ∃ ops, t = { s with configThread := ops ++ rest } ∧
      (ops = [] ∧ s.pipeline.info c = none ∨ ops = [.stop .raiseFlag c] ∧ s.pipeline.Flagged c ∨
        ops = [.insert c] ∧ ∃ id, s.pipeline.info c = some (id, false)) := by
  simp only [ThreadedState.runConfigOp] at hn
  split at hn
  · rename_i hnone
    exact ⟨[], (Option.some.inj hn).symm, .inl ⟨rfl, by simp [PipelineState.info, hnone]⟩⟩
  · rename_i stream hstream
    split at hn
    · rename_i hflag
      have hi : s.pipeline.info c = some (stream.streamId, true) := by simp [PipelineState.info, hstream, hflag]
      exact ⟨[.stop .raiseFlag c], (Option.some.inj hn).symm, .inr (.inl ⟨rfl, stream.streamId, hi⟩)⟩
    · rename_i hflag
      have hi : s.pipeline.info c = some (stream.streamId, false) := by simp [PipelineState.info, hstream, hflag]
      exact ⟨[.insert c], (Option.some.inj hn).symm, .inr (.inr ⟨rfl, stream.streamId, hi⟩)⟩

lemma wake_cases (hn : s.wake = some t) :
    t = { s with
      hasPendingConfig := false
      pendingStopStreams := []
      configThread := s.pendingStopStreams.map (.stop .raiseFlag) ++
        if s.hasPendingConfig then [.review s.configs] else [] } := by
  simp only [ThreadedState.wake, Option.ite_none_right_eq_some] at hn
  exact (Option.some.inj hn.2).symm

lemma handleSocketConfig_cases (s : ThreadedState) (agentId : Bytes) (cfg : AgentConfig) :
    s.handleSocketConfig agentId cfg = s ∨ s.handleSocketConfig agentId cfg =
      { s with configs := s.configs.insert cfg.configId cfg, hasPendingConfig := true } := by
  unfold ThreadedState.handleSocketConfig
  split
  · exact .inl rfl
  · exact .inr rfl

/-- A call raises the flag of a context that was not flagged, or finds it raised. -/
lemma requestExchange_cases {c : ContextId} (hn : s.requestExchange c = some t) :
    t = s ∨ (∃ id, s.pipeline.info c = some (id, false)) ∧ c ∉ s.pipeline.stopped ∧
      s.requests[c]? = none ∧ t = { s with
        pipeline := s.pipeline.raiseFlag c
        requests := s.requests.insert c .erasing
        requested := s.requested ++ [c] } := by
  unfold ThreadedState.requestExchange at hn
  split at hn
  · cases hn
  · rename_i stream hstream
    split at hn
    · cases hn
    · rename_i hidle
      simp only [not_or] at hidle
      split at hn
      · cases hn
        exact .inl rfl
      · rename_i hflag
        cases hn
        refine .inr ⟨⟨stream.streamId, ?_⟩, hidle.1, ?_, rfl⟩
        · simp [PipelineState.info, hstream, hflag]
        · exact TreeMap.getElem?_eq_none_of_contains_eq_false (Bool.eq_false_iff.mpr hidle.2.1)

lemma requestErase_cases {c : ContextId} (hn : s.requestErase c = some t) :
    s.requests[c]? = some .erasing ∧
      t = { s with pipeline := s.pipeline.eraseStream c, requests := s.requests.insert c .pushing } := by
  simp only [ThreadedState.requestErase, Option.ite_none_right_eq_some] at hn
  exact ⟨hn.1, (Option.some.inj hn.2).symm⟩

lemma requestPush_cases {c : ContextId} (hn : s.requestPush c = some t) :
    s.requests[c]? = some .pushing ∧ t = { s with
      pendingStopStreams := s.pendingStopStreams ++ [c]
      requests := s.requests.erase c } := by
  simp only [ThreadedState.requestPush, Option.ite_none_right_eq_some] at hn
  exact ⟨hn.1, (Option.some.inj hn.2).symm⟩

/-- `mainLoop` takes what is pending when its turn is over. -/
lemma next_wake {same : SameProtoMessage} {agentId : Bytes}
    (hn : (threadSystem same agentId).next s .wake = some t) : s.configThread = [] ∧ s.wake = some t := by
  simp only [threadSystem] at hn
  split at hn
  · exact ⟨‹_›, hn⟩
  · cases hn

lemma next_config {same : SameProtoMessage} {agentId : Bytes} {ready : Bool}
    (hn : (threadSystem same agentId).next s (.config ready) = some t) :
    ∃ op rest, s.configThread = op :: rest ∧ s.runConfigOp same ready op rest = some t := by
  simp only [threadSystem] at hn
  split at hn
  · cases hn
  · exact ⟨_, _, ‹_›, hn⟩

lemma stopStep_eq {step : StopStep} {c : ContextId} (hn : s.stopStep step c = some t) :
    t = { s with pipeline := t.pipeline } := by
  cases step with
  | raiseFlag =>
    cases hn
    rfl
  | removeStream =>
    cases hn
    rfl
  | joinPuller => rw [(joinPuller_cases hn).2]

/-- The config thread writes the pipeline and its own steps. -/
lemma runConfigOp_eq {same : SameProtoMessage} {ready : Bool} {op : ConfigOp} {rest : List ConfigOp}
    (hn : s.runConfigOp same ready op rest = some t) :
    t = { s with pipeline := t.pipeline, configThread := t.configThread } := by
  cases op with
  | stop step c =>
    obtain ⟨u, hu, rfl⟩ := Option.map_eq_some_iff.mp hn
    rw [stopStep_eq hu]
  | check c =>
    obtain ⟨ops, rfl, -⟩ := check_cases hn
    rfl
  | review configs =>
    cases hn
    rfl
  | update c config =>
    cases hn
    rfl
  | build config =>
    cases hn
    rfl
  | insert c =>
    cases hn
    rfl

/-- A step that changes the pipeline only. -/
lemma Wf.pipeline (h : s.Wf) {q : PipelineState} (hle : s.pipeline.InfoLe q)
    (hstreams : ∀ (id : Bytes) (c : ContextId), q.streams[id]? = some c →
      s.pipeline.streams[id]? = some c ∨ ∃ flag, q.info c = some (id, flag))
    (hstopped : ∀ c ∈ q.stopped, c ∈ s.pipeline.stopped ∨ q.Flagged c ∧ s.requests[c]? = none) :
    Wf { s with pipeline := q } := by
  refine ⟨fun id c hc => ?_, fun op hop c hc => (h.built op hop c hc).mono hle,
    fun step c hop hstep => (h.removing step c hop hstep).mono hle, h.order,
    fun c hc => (h.pending c hc).mono hle, fun c pc hc => ⟨(h.requests c pc hc).1, fun hs => ?_⟩,
    fun c hc => (h.requested c hc).mono hle, fun c hc => ?_⟩
  · rcases hstreams id c hc with hbefore | hnew
    · obtain ⟨flag, hi⟩ := h.registered id c hbefore
      obtain ⟨flag', hi', -⟩ := hle c id flag hi
      exact ⟨flag', hi'⟩
    · exact hnew
  · rcases hstopped c hs with hbefore | ⟨-, hnone⟩
    · exact (h.requests c pc hc).2 hbefore
    · rw [hnone] at hc
      cases hc
  · rcases hstopped c hc with hbefore | ⟨hflag, -⟩
    · exact (h.stopped c hbefore).mono hle
    · exact hflag

/-- The config thread replaces its next step by others. -/
lemma Wf.replace (h : s.Wf) {op : ConfigOp} {rest : List ConfigOp} (hthread : s.configThread = op :: rest)
    (ops : List ConfigOp) (hbuilt : ∀ op ∈ ops, ∀ c, op.context = some c → s.pipeline.Built c)
    (hremoving : ∀ step c, .stop step c ∈ ops → step ≠ .raiseFlag → s.pipeline.Flagged c)
    (horder : (ops ++ rest).Pairwise ConfigOp.Before) : Wf { s with configThread := ops ++ rest } := by
  have hrest : ∀ op' ∈ rest, op' ∈ s.configThread := fun op' hop => hthread ▸ List.mem_cons_of_mem _ hop
  refine ⟨h.registered, fun op' hop c hc => ?_, fun step c hop hstep => ?_, horder, h.pending, h.requests,
    h.requested, h.stopped⟩
  · rcases List.mem_append.mp hop with hop | hop
    · exact hbuilt op' hop c hc
    · exact h.built op' (hrest op' hop) c hc
  · rcases List.mem_append.mp hop with hop | hop
    · exact hremoving step c hop hstep
    · exact h.removing step c (hrest _ hop) hstep

lemma Wf.tail (h : s.Wf) {op : ConfigOp} {rest : List ConfigOp} (hthread : s.configThread = op :: rest) :
    Wf { s with configThread := rest } :=
  h.replace hthread [] (by simp) (by simp) (hthread ▸ h.order).of_cons

/-- The next step is replaced by one that is about a context that has been built. -/
lemma Wf.replaceOne (h : s.Wf) {op : ConfigOp} {rest : List ConfigOp} (hthread : s.configThread = op :: rest)
    (op' : ConfigOp) {c : ContextId} (hc : op'.context = some c) (hbuilt : s.pipeline.Built c)
    (hremoving : ∀ step, op' = .stop step c → step ≠ .raiseFlag → s.pipeline.Flagged c) :
    Wf { s with configThread := op' :: rest } := by
  refine h.replace hthread [op'] (fun op hop c' hc' => ?_) (fun step c' hop hstep => ?_) ?_
  · rw [List.mem_singleton.mp hop, hc] at hc'
    cases hc'
    exact hbuilt
  · have hop := (List.mem_singleton.mp hop).symm
    rw [hop] at hc
    cases hc
    exact hremoving step hop hstep
  · refine List.pairwise_cons.mpr ⟨fun b _ hlate => ?_, (hthread ▸ h.order).of_cons⟩
    rcases hlate with ⟨config, rfl⟩ | ⟨configs, rfl⟩ <;> cases hc

lemma Wf.stopStep (h : s.Wf) {step : StopStep} {c : ContextId} (hbuilt : s.pipeline.Built c)
    (hremoving : step ≠ .raiseFlag → s.pipeline.Flagged c) (hn : s.stopStep step c = some t) :
    t.Wf ∧ t.pipeline.Flagged c ∧ s.pipeline.InfoLe t.pipeline := by
  cases step with
  | raiseFlag =>
    cases hn
    have hle := PipelineState.InfoLe.raiseFlag s.pipeline c
    exact ⟨h.pipeline hle (fun id k hk => .inl (by simpa using hk)) (fun k hk => .inl (by simpa using hk)),
      PipelineState.flagged_raiseFlag hbuilt, hle⟩
  | removeStream =>
    cases hn
    have hle : s.pipeline.InfoLe (s.pipeline.removeStream c) := .of_eq (by simp)
    exact ⟨h.pipeline hle (fun id k hk => .inl (by simpa using hk)) (fun k hk => .inl (by simpa using hk)),
      (hremoving (by simp)).mono hle, hle⟩
  | joinPuller =>
    obtain ⟨hidle, rfl⟩ := joinPuller_cases hn
    have hle : s.pipeline.InfoLe (s.pipeline.closeStream c) := .of_eq (by simp)
    have hflag := (hremoving (by simp)).mono hle
    refine ⟨h.pipeline hle (fun id k hk => .inl (by simpa using hk)) (fun k hk => ?_), hflag, hle⟩
    rw [PipelineState.closeStream_stopped hbuilt] at hk
    rcases List.mem_append.mp hk with hk | hk
    · exact .inl hk
    · rw [List.mem_singleton.mp hk]
      exact .inr ⟨hflag, hidle⟩

/-- The plan of a review replaces it. -/
lemma Wf.review (h : s.Wf) (same : SameProtoMessage) {configs : TreeMap Int AgentConfig}
    {rest : List ConfigOp} (hthread : s.configThread = .review configs :: rest) :
    let plan := s.pipeline.planBatch same (buildMergedStreams configs)
    Wf { s with
      pipeline := { s.pipeline with contexts := plan.contexts, streams := plan.streams }
      configThread := plan.steps ++ rest } := by
  intro plan
  have hex := examined_planBatch s.pipeline same (buildMergedStreams configs)
  have hle : s.pipeline.InfoLe { s.pipeline with contexts := plan.contexts, streams := plan.streams } :=
    .of_eq hex.info
  have hpipeline := h.pipeline hle (fun id c hc => .inl (hex.kept id c hc)) fun c hc => .inl hc
  have hreg : ∀ c, (∃ id : Bytes, s.pipeline.streams[id]? = some c) → PipelineState.Built
      { s.pipeline with contexts := plan.contexts, streams := plan.streams } c := by
    rintro c ⟨id, hc⟩
    obtain ⟨flag, hi⟩ := h.registered id c hc
    exact PipelineState.Built.mono ⟨id, flag, hi⟩ hle
  have hbuilds : ∀ op ∈ rest, ∃ config, op = .build config := by
    intro op hop
    have horder := h.order
    rw [hthread] at horder
    exact (List.pairwise_cons.mp horder).1 op hop (.inr ⟨configs, rfl⟩)
  refine hpipeline.replace hthread _ (fun op hop c hc => ?_) (fun step c hop hstep => ?_) ?_
  · simp only [BatchPlan.steps, List.mem_append, List.mem_map] at hop
    rcases hop with (⟨c', hc', rfl⟩ | ⟨u, hu, rfl⟩) | ⟨config, -, rfl⟩
    · cases hc
      exact hreg c (hex.stops c hc')
    · cases hc
      exact hreg _ (hex.updates u hu)
    · cases hc
  · simp only [BatchPlan.steps, List.mem_append, List.mem_map] at hop
    rcases hop with (⟨c', -, he⟩ | ⟨u, -, he⟩) | ⟨config, -, he⟩
    · cases he
      exact absurd rfl hstep
    · cases he
    · cases he
  · have hfirst : ∀ a b : ConfigOp, (∀ config, a ≠ .build config) → (∀ configs, a ≠ .review configs) →
        ConfigOp.Before a b := by
      rintro a b hb hr (⟨config, he⟩ | ⟨configs, he⟩)
      · exact absurd he (hb config)
      · exact absurd he (hr configs)
    have hlast : ∀ a b : ConfigOp, (∃ config, b = .build config) → ConfigOp.Before a b := fun _ _ hb _ => hb
    have hlater : ∀ b ∈ plan.streamsToStart.map ConfigOp.build ++ rest, ∃ config, b = .build config := by
      intro b hb
      rcases List.mem_append.mp hb with hb | hb
      · obtain ⟨config, -, rfl⟩ := List.mem_map.mp hb
        exact ⟨config, rfl⟩
      · exact hbuilds b hb
    have hstarts : (plan.streamsToStart.map ConfigOp.build ++ rest).Pairwise ConfigOp.Before :=
      List.pairwise_of_forall_mem_list fun a _ b hb => hlast a b (hlater b hb)
    have hstops : ∀ a ∈ plan.streamsToStop.map (ConfigOp.stop .raiseFlag) ++
        plan.runtimeUpdates.map (fun u => ConfigOp.update u.1 u.2), ∀ b, ConfigOp.Before a b := by
      intro a ha b
      rcases List.mem_append.mp ha with ha | ha <;> obtain ⟨_, -, rfl⟩ := List.mem_map.mp ha <;>
        exact hfirst _ b (by simp) (by simp)
    rw [BatchPlan.steps, List.append_assoc]
    exact List.pairwise_append.mpr ⟨List.pairwise_of_forall_mem_list fun a ha b _ => hstops a ha b, hstarts,
      fun a ha b _ => hstops a ha b⟩

lemma Wf.runConfigOp (h : s.Wf) {same : SameProtoMessage} {ready : Bool} {op : ConfigOp} {rest : List ConfigOp}
    (hthread : s.configThread = op :: rest) (hn : s.runConfigOp same ready op rest = some t) : t.Wf := by
  have hbuilt : ∀ c, op.context = some c → s.pipeline.Built c :=
    h.built op (hthread ▸ List.mem_cons_self ..)
  cases op with
  | stop step c =>
    obtain ⟨u, hu, rfl⟩ := Option.map_eq_some_iff.mp hn
    obtain ⟨hwf, hflag, -⟩ := h.stopStep (hbuilt c rfl)
      (h.removing step c (hthread ▸ List.mem_cons_self ..)) hu
    have hthread' : u.configThread = .stop step c :: rest := by
      rw [stopStep_eq hu]
      exact hthread
    cases hstep : step.next with
    | none => exact hwf.tail hthread'
    | some step' =>
      refine hwf.replaceOne hthread' _ rfl hflag.built fun step'' he _ => ?_
      cases he
      exact hflag
  | review configs =>
    cases hn
    exact h.review same hthread
  | update c config =>
    have hwf : Wf { s with pipeline := s.pipeline.updateStreamRuntime same (fun _ => ready) c config } :=
      h.pipeline (.of_eq (by simp)) (fun id k hk => .inl (by simpa using hk)) fun k hk => .inl (by simpa using hk)
    cases hn
    exact hwf.tail hthread
  | build config =>
    have hwf : Wf { s with pipeline := (s.pipeline.buildStreamContext (fun _ => ready) config).2 } :=
      h.pipeline (PipelineState.InfoLe.build s.pipeline _ config) (fun _ _ hk => .inl hk) fun _ hk => .inl hk
    have hnew := s.pipeline.info_buildStreamContext (fun _ => ready) config s.pipeline.contexts.length
    rw [if_pos rfl] at hnew
    cases hn
    exact hwf.replaceOne hthread (.check s.pipeline.contexts.length) rfl ⟨config.streamId, false, hnew⟩
      fun step he => by cases he
  | check c =>
    obtain ⟨ops, rfl, ⟨rfl, -⟩ | ⟨rfl, -⟩ | ⟨rfl, -⟩⟩ := check_cases hn
    · exact h.tail hthread
    · refine h.replaceOne hthread _ rfl (hbuilt c rfl) fun step he hne => ?_
      cases he
      exact absurd rfl hne
    · exact h.replaceOne hthread _ rfl (hbuilt c rfl) (fun step he => by cases he)
  | insert c =>
    obtain ⟨id, flag, hi⟩ := hbuilt c rfl
    have hwf : Wf { s with pipeline := s.pipeline.insertStream c } := by
      refine h.pipeline (.of_eq (by simp)) (fun id' k hk => ?_) fun k hk => .inl (by simpa using hk)
      rw [PipelineState.insertStream_streams hi, lookup_insert] at hk
      split at hk
      · subst id'
        cases hk
        exact .inr ⟨flag, by simpa using hi⟩
      · exact .inl hk
    cases hn
    exact hwf.tail hthread

lemma Wf.wake (h : s.Wf) (hn : s.wake = some t) : t.Wf := by
  rw [wake_cases hn]
  have hstop : ∀ op ∈ s.pendingStopStreams.map (ConfigOp.stop .raiseFlag) ++
      (if s.hasPendingConfig then [ConfigOp.review s.configs] else []),
      (∃ c ∈ s.pendingStopStreams, op = .stop .raiseFlag c) ∨ op = .review s.configs := by
    intro op hop
    rcases List.mem_append.mp hop with hop | hop
    · obtain ⟨c, hc, rfl⟩ := List.mem_map.mp hop
      exact .inl ⟨c, hc, rfl⟩
    · split at hop
      · exact .inr (List.mem_singleton.mp hop)
      · cases hop
  refine ⟨h.registered, fun op hop c hc => ?_, fun step c hop hstep => ?_, ?_, by simp, h.requests,
    h.requested, h.stopped⟩
  · rcases hstop op hop with ⟨c', hc', rfl⟩ | rfl
    · cases hc
      exact h.pending c hc'
    · cases hc
  · rcases hstop _ hop with ⟨c', -, he⟩ | he
    · cases he
      exact absurd rfl hstep
    · cases he
  · refine List.pairwise_append.mpr ⟨List.pairwise_map.mpr (List.pairwise_of_forall fun _ _ => ?_), ?_, fun a ha b _ => ?_⟩
    · rintro (⟨_, he⟩ | ⟨_, he⟩) <;> cases he
    · split
      · exact List.pairwise_singleton _ _
      · exact .nil
    · obtain ⟨c, -, rfl⟩ := List.mem_map.mp ha
      rintro (⟨_, he⟩ | ⟨_, he⟩) <;> cases he

lemma Wf.requestExchange (h : s.Wf) {c : ContextId} (hn : s.requestExchange c = some t) : t.Wf := by
  rcases requestExchange_cases hn with rfl | ⟨⟨id, hi⟩, hrunning, hidle, rfl⟩
  · exact h
  · have hle := PipelineState.InfoLe.raiseFlag s.pipeline c
    have hwf : Wf { s with pipeline := s.pipeline.raiseFlag c } :=
      h.pipeline hle (fun _ _ hk => .inl (by simpa using hk)) fun _ hk => .inl (by simpa using hk)
    refine ⟨hwf.registered, hwf.built, hwf.removing, hwf.order, hwf.pending, fun k pc hk => ?_,
      fun k hk => ?_, hwf.stopped⟩
    · dsimp only at hk
      rw [lookup_insert] at hk
      split at hk
      · subst k
        exact ⟨List.mem_append_right _ (List.mem_singleton.mpr rfl), by simpa using hrunning⟩
      · exact ⟨List.mem_append_left _ (h.requests k pc hk).1, (hwf.requests k pc hk).2⟩
    · rcases List.mem_append.mp hk with hk | hk
      · exact hwf.requested k hk
      · rw [List.mem_singleton.mp hk]
        exact PipelineState.flagged_raiseFlag ⟨id, false, hi⟩

lemma Wf.requestErase (h : s.Wf) {c : ContextId} (hn : s.requestErase c = some t) : t.Wf := by
  obtain ⟨hc, rfl⟩ := requestErase_cases hn
  obtain ⟨hrequested, hrunning⟩ := h.requests c _ hc
  obtain ⟨id, hi⟩ := h.requested c hrequested
  have hwf : Wf { s with pipeline := s.pipeline.eraseStream c } := by
    refine h.pipeline (.of_eq (by simp)) (fun id' k hk => .inl ?_) fun _ hk => .inl (by simpa using hk)
    rw [PipelineState.eraseStream_streams hi] at hk
    split at hk
    · cases hk
    · exact hk
  refine ⟨hwf.registered, hwf.built, hwf.removing, hwf.order, hwf.pending, fun k pc hk => ?_, hwf.requested,
    hwf.stopped⟩
  dsimp only at hk
  rw [lookup_insert] at hk
  split at hk
  · subst k
    exact ⟨hrequested, by simpa using hrunning⟩
  · exact hwf.requests k pc hk

lemma Wf.requestPush (h : s.Wf) {c : ContextId} (hn : s.requestPush c = some t) : t.Wf := by
  obtain ⟨hc, rfl⟩ := requestPush_cases hn
  refine ⟨h.registered, h.built, h.removing, h.order, fun k hk => ?_, fun k pc hk => ?_, h.requested, h.stopped⟩
  · rcases List.mem_append.mp hk with hk | hk
    · exact h.pending k hk
    · rw [List.mem_singleton.mp hk]
      exact (h.requested c (h.requests c _ hc).1).built
  · simp only [lookup_erase, Option.ite_none_left_eq_some] at hk
    exact h.requests k pc hk.2

lemma Wf.handleSocketConfig (h : s.Wf) (agentId : Bytes) (cfg : AgentConfig) :
    (s.handleSocketConfig agentId cfg).Wf := by
  rcases handleSocketConfig_cases s agentId cfg with he | he
  · rw [he]
    exact h
  · rw [he]
    exact ⟨h.registered, h.built, h.removing, h.order, h.pending, h.requests, h.requested, h.stopped⟩

lemma Wf.next {same : SameProtoMessage} {agentId : Bytes} {a : ThreadAction} (h : s.Wf)
    (hn : (threadSystem same agentId).next s a = some t) : t.Wf := by
  cases a with
  | socketConfig cfg =>
    cases hn
    exact h.handleSocketConfig agentId cfg
  | wake => exact h.wake (next_wake hn).2
  | config ready =>
    obtain ⟨op, rest, hthread, hn⟩ := next_config hn
    exact h.runConfigOp hthread hn
  | requestExchange c => exact h.requestExchange hn
  | requestErase c => exact h.requestErase hn
  | requestPush c => exact h.requestPush hn

lemma Wf.init : Wf {} := by
  refine ⟨fun id c hc => ?_, by simp, by simp, .nil, by simp, fun c pc hc => ?_, by simp, by simp⟩
  · simp at hc
  · simp at hc

end ThreadedState

lemma wf_reachable {same : SameProtoMessage} {agentId : Bytes} {s : ThreadedState}
    (h : (threadSystem same agentId).Reachable s) : s.Wf :=
  h.invariant ThreadedState.Wf.init fun _ _ _ ht _ hn => ht.next hn

end MediaAgent
