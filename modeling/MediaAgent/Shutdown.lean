import MediaAgent.AsyncStop

/-!
# Stopping the pipeline

`Pipeline::stop`, interleaved with the config thread and with `requestAsyncStopStream`. It empties
`streams_` and `pending_stop_streams_`, stops the contexts it took from them, and only then joins the
config thread, which may still insert what it has built. The joins of the other threads are left out.
-/

namespace MediaAgent
open Std TreeMaps Transition

/-- Where `Pipeline::stop` stands: with the contexts it took from `streams_`, then with what is left
of its calls of `stopStream`. -/
inductive ShutdownPc
  | running
  | stoppingScheduler
  | swappingStreams
  | swappingPending (streamsToStop : List ContextId)
  | stopping (calls : List (StopStep × ContextId))
  | joining
  | clearing
  | returned
  deriving DecidableEq, Repr

/-- The contexts that `stop` has taken and not stopped yet. -/
def ShutdownPc.contexts : ShutdownPc → List ContextId
  | .swappingPending streamsToStop => streamsToStop
  | .stopping calls => calls.map Prod.snd
  | _ => []

/-- Both `streams_` and `pending_stop_streams_` have been swapped out. -/
def ShutdownPc.drained : ShutdownPc → Bool
  | .stopping _ | .joining | .clearing | .returned => true
  | _ => false

/-- The threads of the pipeline, its stop flag, whether `mainLoop` has returned, and `stop`. -/
structure ShutdownState where
  threads : ThreadedState := {}
  stopFlag : Bool := false
  mainExited : Bool := false
  stopPc : ShutdownPc := .running

namespace ShutdownState

/-- `mainLoop` leaves its loop at the head. -/
def exitMain (s : ShutdownState) : Option ShutdownState :=
  match s.threads.configThread with
  | [] => if s.stopFlag then some { s with mainExited := true } else none
  | _ :: _ => none

/-- The next step of `stop`. -/
def stop (s : ShutdownState) : Option ShutdownState :=
  match s.stopPc with
  | .running => some { s with stopFlag := true, stopPc := .stoppingScheduler }
  | .stoppingScheduler =>
    let pipeline := { s.threads.pipeline with scheduler := s.threads.pipeline.scheduler.stop }
    some { s with threads := { s.threads with pipeline := pipeline }, stopPc := .swappingStreams }
  | .swappingStreams =>
    let streamsToStop := s.threads.pipeline.streams.toList.map Prod.snd
    let pipeline := { s.threads.pipeline with streams := ∅ }
    some { s with
      threads := { s.threads with pipeline := pipeline }
      stopPc := .swappingPending streamsToStop }
  | .swappingPending streamsToStop =>
    let pendingStops := s.threads.pendingStopStreams
    some { s with
      threads := { s.threads with pendingStopStreams := [] }
      stopPc := .stopping ((streamsToStop ++ pendingStops).map fun c => (.raiseFlag, c)) }
  | .stopping [] => some { s with stopPc := .joining }
  | .stopping ((step, c) :: calls) =>
    (s.threads.stopStep step c).map fun threads =>
      { s with
        threads := threads
        stopPc := .stopping ((step.next.map fun step => (step, c)).toList ++ calls) }
  | .joining => if s.mainExited then some { s with stopPc := .clearing } else none
  | .clearing =>
    let threads := { s.threads with configs := ∅, pendingStopStreams := [], hasPendingConfig := false }
    some { s with threads := threads, stopPc := .returned }
  | .returned => none

/-- The waiting `mainLoop` leaves when the stop flag is raised, and the socket is closed before the
configurations are cleared. -/
def enables (s : ShutdownState) : ThreadAction → Bool
  | .wake => !s.stopFlag
  | .socketConfig _ => s.stopPc != .clearing && s.stopPc != .returned
  | _ => true

end ShutdownState

inductive ShutdownAction
  | thread (a : ThreadAction)
  | exitMain
  | stop

/-- The pipeline of an agent from `start` to the return of `stop`. -/
def shutdownSystem (same : SameProtoMessage) (agentId : Bytes) : Machine ShutdownState ShutdownAction where
  init := {}
  next s
    | .thread a =>
      if s.enables a then
        ((threadSystem same agentId).next s.threads a).map fun threads => { s with threads := threads }
      else none
    | .exitMain => s.exitMain
    | .stop => s.stop

/-- Once `stop` has returned, every context ever built has been passed to `stopStream`, and none is
registered. -/
def ShutdownState.Complete (s : ShutdownState) : Prop :=
  s.stopPc = .returned →
    (∀ c < s.threads.pipeline.contexts.length, c ∈ s.threads.pipeline.stopped) ∧
      ∀ id : Bytes, s.threads.pipeline.streams[id]? = none

/-! ## When nothing is left behind -/

/-- The step stops the context, or follows its build. -/
def ConfigOp.holds (c : ContextId) : ConfigOp → Bool
  | .stop _ c' | .check c' | .insert c' => c' == c
  | .review _ | .update _ _ | .build _ => false

namespace ThreadedState

/-- The context has been stopped, or the config thread is stopping it or has just built it. -/
def inHand (s : ThreadedState) (c : ContextId) : Bool :=
  s.pipeline.stopped.contains c || s.configThread.any (ConfigOp.holds c)

/-- A call of `requestAsyncStopStream` for the context is under way or waits in the pending list. -/
def queued (s : ThreadedState) (c : ContextId) : Bool :=
  s.pendingStopStreams.contains c || s.requests.contains c

/-- The context that the config thread is about to insert. -/
def inserting (s : ThreadedState) : Option ContextId :=
  match s.configThread with
  | .insert c :: _ => some c
  | _ => none

/-- The registered context that an insertion replaces. -/
def replaced (s : ThreadedState) : Option ContextId :=
  match s.inserting with
  | none => none
  | some c =>
    match s.pipeline.contexts[c]? with
    | none => none
    | some stream => s.pipeline.streams[stream.streamId]?

end ThreadedState

/-- The context has been stopped, or is in the hands of the config thread or of `stop`. -/
def ShutdownState.inHand (s : ShutdownState) (c : ContextId) : Bool :=
  s.threads.inHand c || s.stopPc.contexts.contains c

/-- The config thread inserts nothing once `stop` has taken the pending stops, and replaces no context
that nobody is stopping; when `stop` takes them, nothing is registered again, and no request is under
way for a context that is in nobody's hands. -/
def drainsAll (s : ShutdownState) : ShutdownAction → Bool
  | .thread (.config _) =>
    (s.threads.inserting.isNone || !s.stopPc.drained) &&
      s.threads.replaced.all fun c => s.inHand c || s.threads.queued c
  | .stop =>
    match s.stopPc with
    | .swappingPending _ =>
      s.threads.pipeline.streams.isEmpty && s.threads.requests.toList.all fun r => s.inHand r.1
    | _ => true
  | _ => true

/-! ## What a step does to a context -/

namespace ThreadedState

/-- The context is in `streams_`. -/
def Registered (s : ThreadedState) (c : ContextId) : Prop := ∃ id : Bytes, s.pipeline.streams[id]? = some c

variable {s t : ThreadedState} {c k : ContextId}

lemma inHand_iff : s.inHand c = true ↔
    c ∈ s.pipeline.stopped ∨ ∃ op ∈ s.configThread, op.holds c = true := by
  simp [inHand]

lemma queued_iff : s.queued c = true ↔ c ∈ s.pendingStopStreams ∨ s.requests.contains c = true := by
  simp [queued]

/-- A step of `stopStream` forgets no stopped context and leaves `streams_` alone. -/
lemma stopStep_keeps {step : StopStep} (hn : s.stopStep step c = some t) :
    (k ∈ s.pipeline.stopped → k ∈ t.pipeline.stopped) ∧ t.pipeline.streams = s.pipeline.streams := by
  cases step with
  | raiseFlag =>
    cases hn
    simp
  | removeStream =>
    cases hn
    simp
  | joinPuller =>
    rw [(joinPuller_cases hn).2]
    refine ⟨fun hk => ?_, by simp⟩
    dsimp only [PipelineState.closeStream]
    split
    · exact hk
    · exact List.mem_append_left _ hk

/-- The last step of `stopStream` has stopped the context. -/
lemma stopStep_last {step : StopStep} (hbuilt : s.pipeline.Built c) (hn : s.stopStep step c = some t) :
    c ∈ t.pipeline.stopped ∨ ∃ step', step.next = some step' := by
  cases step with
  | raiseFlag => exact .inr ⟨_, rfl⟩
  | removeStream => exact .inr ⟨_, rfl⟩
  | joinPuller =>
    have hstopped := PipelineState.closeStream_stopped hbuilt
    rw [(joinPuller_cases hn).2]
    exact .inl (hstopped ▸ List.mem_append_right _ (List.mem_singleton.mpr rfl))

/-- The config thread keeps the rest of its turn and the stopped contexts. -/
lemma runConfigOp_keeps {same : SameProtoMessage} {ready : Bool} {op : ConfigOp} {rest : List ConfigOp}
    (hn : s.runConfigOp same ready op rest = some t) :
    (k ∈ s.pipeline.stopped → k ∈ t.pipeline.stopped) ∧ ∀ op' ∈ rest, op' ∈ t.configThread := by
  cases op with
  | stop step c =>
    obtain ⟨u, hu, rfl⟩ := Option.map_eq_some_iff.mp hn
    exact ⟨(stopStep_keeps hu).1, fun op' hop => List.mem_append_right _ hop⟩
  | review configs =>
    cases hn
    exact ⟨fun hk => hk, fun op' hop => List.mem_append_right _ hop⟩
  | update c config =>
    cases hn
    exact ⟨by simp, fun op' hop => hop⟩
  | build config =>
    cases hn
    exact ⟨fun hk => hk, fun op' hop => List.mem_cons_of_mem _ hop⟩
  | check c =>
    obtain ⟨ops, rfl, -⟩ := check_cases hn
    exact ⟨fun hk => hk, fun op' hop => List.mem_append_right _ hop⟩
  | insert c =>
    cases hn
    exact ⟨by simp, fun op' hop => hop⟩

/-- A context that the next step of the config thread holds stays in hand, unless it is inserted. -/
lemma runConfigOp_holds (hwf : s.Wf) {same : SameProtoMessage} {ready : Bool} {op : ConfigOp}
    {rest : List ConfigOp} (hthread : s.configThread = op :: rest)
    (hn : s.runConfigOp same ready op rest = some t) (hc : op.holds c = true) :
    t.inHand c = true ∨ op = .insert c ∧ t.Registered c := by
  have hbuilt := hwf.built op (hthread ▸ List.mem_cons_self ..)
  cases op with
  | stop step k =>
    obtain rfl : k = c := by simpa [ConfigOp.holds] using hc
    obtain ⟨u, hu, rfl⟩ := Option.map_eq_some_iff.mp hn
    refine .inl (inHand_iff.mpr ?_)
    rcases stopStep_last (hbuilt k rfl) hu with hstopped | ⟨step', hnext⟩
    · exact .inl hstopped
    · refine .inr ⟨.stop step' k, ?_, by simp [ConfigOp.holds]⟩
      simp [hnext]
  | check k =>
    obtain rfl : k = c := by simpa [ConfigOp.holds] using hc
    obtain ⟨id, flag, hi⟩ := hbuilt k rfl
    refine .inl (inHand_iff.mpr (.inr ?_))
    obtain ⟨ops, rfl, ⟨-, hnone⟩ | ⟨rfl, -⟩ | ⟨rfl, -⟩⟩ := check_cases hn
    · rw [hi] at hnone
      cases hnone
    · exact ⟨.stop .raiseFlag k, List.mem_cons_self .., by simp [ConfigOp.holds]⟩
    · exact ⟨.insert k, List.mem_cons_self .., by simp [ConfigOp.holds]⟩
  | insert k =>
    obtain rfl : k = c := by simpa [ConfigOp.holds] using hc
    obtain ⟨id, flag, hi⟩ := hbuilt k rfl
    have hstreams := PipelineState.insertStream_streams hi
    cases hn
    refine .inr ⟨rfl, id, ?_⟩
    dsimp only
    rw [hstreams, lookup_insert, if_pos rfl]
  | review configs => cases hc
  | update k config => cases hc
  | build config => cases hc

/-- A registered context stays registered or is in hand after a step of the config thread, unless an
insertion replaces it. -/
lemma runConfigOp_registered (hwf : s.Wf) {same : SameProtoMessage} {ready : Bool} {op : ConfigOp}
    {rest : List ConfigOp} (hthread : s.configThread = op :: rest)
    (hn : s.runConfigOp same ready op rest = some t) (h : s.Registered c) :
    t.Registered c ∨ t.inHand c = true ∨ s.replaced = some c := by
  obtain ⟨id, hc⟩ := h
  cases op with
  | stop step k =>
    obtain ⟨u, hu, rfl⟩ := Option.map_eq_some_iff.mp hn
    have hstreams := (stopStep_keeps (k := k) hu).2
    exact .inl ⟨id, by simpa [hstreams] using hc⟩
  | review configs =>
    cases hn
    have hex := examined_planBatch s.pipeline same (buildMergedStreams configs)
    rcases hex.dropped id c hc with hkept | hstop
    · exact .inl ⟨id, hkept⟩
    · refine .inr (.inl (inHand_iff.mpr (.inr ⟨.stop .raiseFlag c, ?_, by simp [ConfigOp.holds]⟩)))
      simp [BatchPlan.steps, hstop]
  | update k config =>
    have hstreams := s.pipeline.updateStreamRuntime_streams k same (fun _ => ready) config
    cases hn
    exact .inl ⟨id, hstreams.symm ▸ hc⟩
  | build config =>
    cases hn
    exact .inl ⟨id, hc⟩
  | check k =>
    obtain ⟨ops, rfl, -⟩ := check_cases hn
    exact .inl ⟨id, hc⟩
  | insert k =>
    obtain ⟨id', flag, hi⟩ := hwf.built (.insert k) (hthread ▸ List.mem_cons_self ..) k rfl
    have hstreams := PipelineState.insertStream_streams hi
    obtain ⟨stream, hstream, he⟩ := Option.map_eq_some_iff.mp hi
    cases hn
    by_cases hid : id' = id
    · -- the inserted context takes the place
      subst id'
      obtain rfl : stream.streamId = id := (Prod.mk.inj he).1
      exact .inr (.inr (by simp [replaced, inserting, hthread, hstream, hc]))
    · refine .inl ⟨id, ?_⟩
      dsimp only
      rw [hstreams, lookup_insert, if_neg hid, hc]

/-- What a step of the config thread registers is what it inserts. -/
lemma registered_of_runConfigOp {same : SameProtoMessage} {ready : Bool} {op : ConfigOp}
    {rest : List ConfigOp} (hthread : s.configThread = op :: rest)
    (hn : s.runConfigOp same ready op rest = some t) (h : t.Registered c) :
    s.Registered c ∨ s.inserting.isSome = true := by
  obtain ⟨id, hc⟩ := h
  cases op with
  | stop step k =>
    obtain ⟨u, hu, rfl⟩ := Option.map_eq_some_iff.mp hn
    have hstreams := (stopStep_keeps (k := k) hu).2
    exact .inl ⟨id, by simpa [hstreams] using hc⟩
  | review configs =>
    cases hn
    have hex := examined_planBatch s.pipeline same (buildMergedStreams configs)
    exact .inl ⟨id, hex.kept id c hc⟩
  | update k config =>
    have hstreams := s.pipeline.updateStreamRuntime_streams k same (fun _ => ready) config
    cases hn
    exact .inl ⟨id, hstreams ▸ hc⟩
  | build config =>
    cases hn
    exact .inl ⟨id, hc⟩
  | check k =>
    obtain ⟨ops, rfl, -⟩ := check_cases hn
    exact .inl ⟨id, hc⟩
  | insert k => exact .inr (by simp [inserting, hthread])

lemma built_iff {p : PipelineState} : p.Built c ↔ (p.info c).isSome = true := by
  rw [Option.isSome_iff_exists, Prod.exists]
  rfl

lemma built_raiseFlag {p : PipelineState} : (p.raiseFlag k).Built c ↔ p.Built c := by
  rw [built_iff, built_iff, PipelineState.info_raiseFlag]
  split
  · rw [Option.isSome_map]
  · rfl

lemma built_of_stopStep {step : StopStep} (hn : s.stopStep step k = some t) (h : t.pipeline.Built c) :
    s.pipeline.Built c := by
  cases step with
  | raiseFlag =>
    cases hn
    exact built_raiseFlag.mp h
  | removeStream =>
    cases hn
    simpa [PipelineState.Built] using h
  | joinPuller =>
    rw [(joinPuller_cases hn).2] at h
    simpa [PipelineState.Built] using h

/-- A context that has just been built is in hand. -/
lemma built_of_runConfigOp {same : SameProtoMessage} {ready : Bool} {op : ConfigOp} {rest : List ConfigOp}
    (hn : s.runConfigOp same ready op rest = some t) (h : t.pipeline.Built c) :
    s.pipeline.Built c ∨ t.inHand c = true := by
  cases op with
  | stop step k =>
    obtain ⟨u, hu, rfl⟩ := Option.map_eq_some_iff.mp hn
    exact .inl (built_of_stopStep hu h)
  | review configs =>
    cases hn
    obtain ⟨id, flag, hi⟩ := h
    have hex := examined_planBatch s.pipeline same (buildMergedStreams configs)
    exact .inl ⟨id, flag, (hex.info c).symm.trans hi⟩
  | update k config =>
    cases hn
    exact .inl (by simpa [PipelineState.Built] using h)
  | build config =>
    have hinfo := s.pipeline.info_buildStreamContext (fun _ => ready) config c
    cases hn
    by_cases hc : c = s.pipeline.contexts.length
    · subst c
      refine .inr (inHand_iff.mpr (.inr ⟨.check s.pipeline.contexts.length, ?_, by simp [ConfigOp.holds]⟩))
      exact List.mem_cons_self ..
    · rw [if_neg hc] at hinfo
      exact .inl (built_iff.mpr (hinfo ▸ built_iff.mp h))
  | check k =>
    obtain ⟨ops, rfl, -⟩ := check_cases hn
    exact .inl h
  | insert k =>
    cases hn
    exact .inl (by simpa [PipelineState.Built] using h)

/-! ### Over all threads -/

/-- What a step does with a context: what is in hand is stopped or inserted, a request ends in the hands
of the config thread, a context leaves `streams_` to be stopped or is replaced, and only a new context
enters. -/
structure Passes (s t : ThreadedState) (inserting replaced : Option ContextId) : Prop where
  inHand : ∀ c, s.inHand c = true → t.inHand c = true ∨ inserting = some c ∧ t.Registered c
  queued : ∀ c, s.queued c = true → t.queued c = true ∨ t.inHand c = true
  registered : ∀ c, s.Registered c →
    t.Registered c ∨ t.queued c = true ∨ t.inHand c = true ∨ replaced = some c
  registers : ∀ c, t.Registered c → s.Registered c ∨ inserting.isSome = true
  builds : ∀ c, t.pipeline.Built c → s.pipeline.Built c ∨ t.inHand c = true

lemma inHand_of (h : s.inHand c = true) (hstopped : c ∈ s.pipeline.stopped → c ∈ t.pipeline.stopped)
    (hops : ∀ op ∈ s.configThread, op ∈ t.configThread) : t.inHand c = true := by
  rcases inHand_iff.mp h with hc | ⟨op, hop, hc⟩
  · exact inHand_iff.mpr (.inl (hstopped hc))
  · exact inHand_iff.mpr (.inr ⟨op, hops op hop, hc⟩)

lemma Passes.refl (s : ThreadedState) : Passes s s none none :=
  ⟨fun _ h => .inl h, fun _ h => .inl h, fun _ h => .inl h, fun _ h => .inl h, fun _ h => .inl h⟩

/-- A step that leaves the requests, the stopped contexts and the config thread as they are, and takes
out of `streams_` only contexts that are queued. -/
lemma Passes.of_kept (hstopped : ∀ c ∈ s.pipeline.stopped, c ∈ t.pipeline.stopped)
    (hops : ∀ op ∈ s.configThread, op ∈ t.configThread)
    (hqueued : ∀ c, s.queued c = true → t.queued c = true ∨ t.inHand c = true)
    (hkept : ∀ c, s.Registered c → t.Registered c ∨ t.queued c = true)
    (hregisters : ∀ c, t.Registered c → s.Registered c)
    (hbuilds : ∀ c, t.pipeline.Built c → s.pipeline.Built c) : Passes s t none none := by
  refine ⟨fun c h => .inl (inHand_of h (hstopped c) hops), hqueued, fun c h => ?_,
    fun c h => .inl (hregisters c h), fun c h => .inl (hbuilds c h)⟩
  rcases hkept c h with hreg | hreq
  · exact .inl hreg
  · exact .inr (.inl hreq)

lemma passes_stopStep {step : StopStep} (hn : s.stopStep step k = some t) : Passes s t none none := by
  have hstreams : t.pipeline.streams = s.pipeline.streams := (stopStep_keeps (k := k) hn).2
  have hreg : ∀ c, t.Registered c ↔ s.Registered c := fun c => by rw [Registered, hstreams, Registered]
  have heq := stopStep_eq hn
  refine .of_kept (fun c => (stopStep_keeps hn).1) (fun op hop => ?_) (fun c h => .inl ?_)
    (fun c h => .inl ((hreg c).mpr h)) (fun c h => (hreg c).mp h) fun c h => built_of_stopStep hn h
  · rw [heq]
    exact hop
  · rw [heq]
    exact h

lemma passes_runConfigOp (hwf : s.Wf) {same : SameProtoMessage} {ready : Bool} {op : ConfigOp}
    {rest : List ConfigOp} (hthread : s.configThread = op :: rest)
    (hn : s.runConfigOp same ready op rest = some t) : Passes s t s.inserting s.replaced := by
  refine ⟨fun c h => ?_, fun c h => .inl ?_, fun c h => ?_,
    fun c h => registered_of_runConfigOp hthread hn h, fun c h => built_of_runConfigOp hn h⟩
  · obtain ⟨hstopped, hrest⟩ := runConfigOp_keeps (k := c) hn
    rcases inHand_iff.mp h with hc | ⟨op', hop, hc⟩
    · exact .inl (inHand_iff.mpr (.inl (hstopped hc)))
    · rw [hthread] at hop
      rcases List.mem_cons.mp hop with rfl | hop
      · rcases runConfigOp_holds hwf hthread hn hc with hkept | ⟨rfl, hreg⟩
        · exact .inl hkept
        · exact .inr ⟨by simp [inserting, hthread], hreg⟩
      · exact .inl (inHand_iff.mpr (.inr ⟨op', hrest op' hop, hc⟩))
  · rw [runConfigOp_eq hn]
    exact h
  · rcases runConfigOp_registered hwf hthread hn h with hreg | hhand | hreplaced
    · exact .inl hreg
    · exact .inr (.inr (.inl hhand))
    · exact .inr (.inr (.inr hreplaced))

lemma passes_handleSocketConfig (s : ThreadedState) (agentId : Bytes) (cfg : AgentConfig) :
    Passes s (s.handleSocketConfig agentId cfg) none none := by
  rcases handleSocketConfig_cases s agentId cfg with he | he
  · rw [he]
    exact .refl s
  · rw [he]
    exact .of_kept (fun _ h => h) (fun _ h => h) (fun _ h => .inl h) (fun _ h => .inl h) (fun _ h => h)
      fun _ h => h

/-- The pending stops pass to the config thread. -/
lemma passes_wake (hthread : s.configThread = []) (hn : s.wake = some t) : Passes s t none none := by
  rw [wake_cases hn]
  refine .of_kept (fun _ h => h) (fun op hop => ?_) (fun c h => ?_) (fun _ h => .inl h) (fun _ h => h)
    fun _ h => h
  · rw [hthread] at hop
    cases hop
  · rcases queued_iff.mp h with hpending | hrequest
    · refine .inr (inHand_iff.mpr (.inr ⟨.stop .raiseFlag c, ?_, by simp [ConfigOp.holds]⟩))
      exact List.mem_append_left _ (List.mem_map_of_mem hpending)
    · exact .inl (queued_iff.mpr (.inr hrequest))

lemma passes_requestExchange (hn : s.requestExchange k = some t) : Passes s t none none := by
  rcases requestExchange_cases hn with rfl | ⟨-, -, -, rfl⟩
  · exact .refl _
  · have hreg : ∀ c, Registered { s with pipeline := s.pipeline.raiseFlag k } c ↔ s.Registered c :=
      fun c => by simp [Registered]
    refine .of_kept (by simp) (fun _ h => h) (fun c h => .inl (queued_iff.mpr ?_))
      (fun c h => .inl ((hreg c).mpr h)) (fun c h => (hreg c).mp h) fun c h => built_raiseFlag.mp h
    exact (queued_iff.mp h).imp_right fun hc => by simp [hc]

/-- A request erases its own context only. -/
lemma passes_requestErase (hwf : s.Wf) (hn : s.requestErase k = some t) : Passes s t none none := by
  obtain ⟨hk, rfl⟩ := requestErase_cases hn
  obtain ⟨id, hi⟩ := hwf.requested k (hwf.requests k _ hk).1
  have hstreams := PipelineState.eraseStream_streams hi
  refine .of_kept (by simp) (fun _ h => h) (fun c h => .inl (queued_iff.mpr ?_)) (fun c h => ?_)
    (fun c h => ?_) fun c h => by simpa [PipelineState.Built] using h
  · exact (queued_iff.mp h).imp_right fun hc => by simp [hc]
  · obtain ⟨id', hc⟩ := h
    by_cases hkc : k = c
    · subst k
      exact .inr (queued_iff.mpr (.inr (by simp)))
    · refine .inl ⟨id', ?_⟩
      dsimp only
      rw [hstreams, if_neg fun hboth => hkc ?_, hc]
      rw [hc] at hboth
      exact (Option.some.inj hboth.2).symm
  · obtain ⟨id', hc⟩ := h
    dsimp only at hc
    rw [hstreams] at hc
    split at hc
    · cases hc
    · exact ⟨id', hc⟩

lemma passes_requestPush (hn : s.requestPush k = some t) : Passes s t none none := by
  rw [(requestPush_cases hn).2]
  refine .of_kept (fun _ h => h) (fun _ h => h) (fun c h => .inl (queued_iff.mpr ?_)) (fun _ h => .inl h)
    (fun _ h => h) fun _ h => h
  by_cases hkc : k = c
  · subst k
    exact .inl (List.mem_append_right _ (List.mem_singleton.mpr rfl))
  · refine (queued_iff.mp h).imp (List.mem_append_left _) fun hc => ?_
    simp [hc, hkc]

/-- A step of another thread than the config thread inserts nothing. -/
lemma passes_next {same : SameProtoMessage} {agentId : Bytes} {a : ThreadAction} (hwf : s.Wf)
    (ha : ∀ ready, a ≠ .config ready) (hn : (threadSystem same agentId).next s a = some t) :
    Passes s t none none := by
  cases a with
  | socketConfig cfg =>
    cases hn
    exact passes_handleSocketConfig s agentId cfg
  | wake =>
    obtain ⟨hthread, hn⟩ := next_wake hn
    exact passes_wake hthread hn
  | config ready => exact absurd rfl (ha ready)
  | requestExchange k => exact passes_requestExchange hn
  | requestErase k => exact passes_requestErase hwf hn
  | requestPush k => exact passes_requestPush hn

/-! ### The contexts stay -/

lemma infoLe_stopStep {step : StopStep} (hn : s.stopStep step k = some t) : s.pipeline.InfoLe t.pipeline := by
  cases step with
  | raiseFlag =>
    cases hn
    exact .raiseFlag s.pipeline k
  | removeStream =>
    cases hn
    exact .of_eq (by simp)
  | joinPuller =>
    rw [(joinPuller_cases hn).2]
    exact .of_eq (by simp)

lemma infoLe_runConfigOp {same : SameProtoMessage} {ready : Bool} {op : ConfigOp} {rest : List ConfigOp}
    (hn : s.runConfigOp same ready op rest = some t) : s.pipeline.InfoLe t.pipeline := by
  cases op with
  | stop step k =>
    obtain ⟨u, hu, rfl⟩ := Option.map_eq_some_iff.mp hn
    have hle := infoLe_stopStep hu
    exact hle
  | review configs =>
    cases hn
    exact .of_eq (examined_planBatch s.pipeline same (buildMergedStreams configs)).info
  | update k config =>
    cases hn
    exact .of_eq (by simp)
  | build config =>
    cases hn
    exact .build s.pipeline (fun _ => ready) config
  | check k =>
    obtain ⟨ops, rfl, -⟩ := check_cases hn
    exact .of_eq fun _ => rfl
  | insert k =>
    cases hn
    exact .of_eq (by simp)

lemma infoLe_next {same : SameProtoMessage} {agentId : Bytes} {a : ThreadAction}
    (hn : (threadSystem same agentId).next s a = some t) : s.pipeline.InfoLe t.pipeline := by
  cases a with
  | socketConfig cfg =>
    cases hn
    rcases handleSocketConfig_cases s agentId cfg with he | he
    · rw [he]
      exact .of_eq fun _ => rfl
    · rw [he]
      exact .of_eq fun _ => rfl
  | wake =>
    rw [wake_cases (next_wake hn).2]
    exact .of_eq fun _ => rfl
  | config ready =>
    obtain ⟨op, rest, -, hn⟩ := next_config hn
    exact infoLe_runConfigOp hn
  | requestExchange k =>
    rcases requestExchange_cases hn with rfl | ⟨-, -, -, rfl⟩
    · exact .of_eq fun _ => rfl
    · exact .raiseFlag s.pipeline k
  | requestErase k =>
    rw [(requestErase_cases hn).2]
    exact .of_eq (by simp)
  | requestPush k =>
    rw [(requestPush_cases hn).2]
    exact .of_eq fun _ => rfl

end ThreadedState

/-! ## The invariant of the guarded runs -/

namespace ShutdownState

/-- The context is in hand; or it is queued or registered, and `stop` has not drained both lists. -/
def Accounted (s : ShutdownState) (c : ContextId) : Prop :=
  s.inHand c = true ∨ s.stopPc.drained = false ∧ (s.threads.queued c = true ∨ s.threads.Registered c)

/-- Every context is accounted for, and none is registered once both lists have been drained. -/
structure Inv (s : ShutdownState) : Prop where
  wf : s.threads.Wf
  built : ∀ c ∈ s.stopPc.contexts, s.threads.pipeline.Built c
  removing : ∀ calls, s.stopPc = .stopping calls → ∀ call ∈ calls, call.1 ≠ .raiseFlag →
    s.threads.pipeline.Flagged call.2
  accounted : ∀ c, s.threads.pipeline.Built c → s.Accounted c
  drained : s.stopPc.drained = true → ∀ c, ¬s.threads.Registered c
  exited : s.mainExited = true → s.stopFlag = true ∧ s.threads.configThread = []
  joined : s.stopPc = .clearing ∨ s.stopPc = .returned → s.mainExited = true

variable {s t : ShutdownState} {c : ContextId}

lemma inHand_iff : s.inHand c = true ↔ s.threads.inHand c = true ∨ c ∈ s.stopPc.contexts := by
  simp [inHand]

/-- A step of the threads, when what it inserts and replaces is accounted for. -/
lemma Inv.passes (h : s.Inv) {threads : ThreadedState} {inserting replaced : Option ContextId}
    (hpass : s.threads.Passes threads inserting replaced) (hwf : threads.Wf)
    (hinfo : s.threads.pipeline.InfoLe threads.pipeline)
    (hinserting : s.stopPc.drained = true → inserting = none)
    (hreplaced : ∀ c, replaced = some c → s.inHand c = true ∨ s.threads.queued c = true)
    (hexited : s.mainExited = true → threads.configThread = []) :
    Inv { s with threads := threads } := by
  have hnew : ∀ c, threads.inHand c = true → Accounted { s with threads := threads } c :=
    fun c hc => .inl (inHand_iff.mpr (.inl hc))
  have hhand : ∀ c, s.inHand c = true → Accounted { s with threads := threads } c := by
    intro c hc
    rcases inHand_iff.mp hc with hc | hc
    · rcases hpass.inHand c hc with hc | ⟨hins, hreg⟩
      · exact hnew c hc
      · cases hdrained : s.stopPc.drained with
        | false => exact .inr ⟨hdrained, .inr hreg⟩
        | true =>
          rw [hinserting hdrained] at hins
          cases hins
    · exact .inl (inHand_iff.mpr (.inr hc))
  have hqueued : ∀ c, s.stopPc.drained = false → s.threads.queued c = true →
      Accounted { s with threads := threads } c := by
    intro c hopen hc
    rcases hpass.queued c hc with hc | hc
    · exact .inr ⟨hopen, .inl hc⟩
    · exact hnew c hc
  refine ⟨hwf, fun c hc => (h.built c hc).mono hinfo,
    fun calls hcalls call hcall hstep => (h.removing calls hcalls call hcall hstep).mono hinfo, fun c hc => ?_,
    fun hdrained c hreg => ?_, fun hex => ⟨(h.exited hex).1, hexited hex⟩, h.joined⟩
  · rcases hpass.builds c hc with hbuilt | hc
    · rcases h.accounted c hbuilt with hc | ⟨hopen, hc | hc⟩
      · exact hhand c hc
      · exact hqueued c hopen hc
      · rcases hpass.registered c hc with hc | hc | hc | hc
        · exact .inr ⟨hopen, .inr hc⟩
        · exact .inr ⟨hopen, .inl hc⟩
        · exact hnew c hc
        · exact (hreplaced c hc).elim (hhand c) (hqueued c hopen)
    · exact hnew c hc
  · rcases hpass.registers c hreg with hc | hins
    · exact h.drained hdrained c hc
    · rw [hinserting hdrained] at hins
      cases hins

/-- A step of the threads that meets the guard. -/
lemma Inv.thread (h : s.Inv) {same : SameProtoMessage} {agentId : Bytes} {a : ThreadAction}
    {threads : ThreadedState} (hguard : drainsAll s (.thread a) = true) (henabled : s.enables a = true)
    (hn : (threadSystem same agentId).next s.threads a = some threads) :
    Inv { s with threads := threads } := by
  have hwf := h.wf.next hn
  have hinfo := ThreadedState.infoLe_next hn
  by_cases ha : ∃ ready, a = .config ready
  · obtain ⟨ready, rfl⟩ := ha
    obtain ⟨op, rest, hthread, hn⟩ := ThreadedState.next_config hn
    simp only [drainsAll, Bool.and_eq_true, Bool.or_eq_true, Bool.not_eq_true', Option.all_eq_true] at hguard
    refine h.passes (ThreadedState.passes_runConfigOp h.wf hthread hn) hwf hinfo (fun hdrained => ?_)
      hguard.2 fun hex => ?_
    · rcases hguard.1 with hnone | hopen
      · exact Option.isNone_iff_eq_none.mp hnone
      · rw [hdrained] at hopen
        cases hopen
    · rw [(h.exited hex).2] at hthread
      cases hthread
  · have hother : ∀ ready, a ≠ .config ready := fun ready he => ha ⟨ready, he⟩
    refine h.passes (ThreadedState.passes_next h.wf hother hn) hwf hinfo (fun _ => rfl)
      (fun c hc => by cases hc) fun hex => ?_
    -- only the config thread and the head of its loop write what it has to do
    obtain ⟨hflag, hidle⟩ := h.exited hex
    cases a with
    | socketConfig cfg =>
      cases hn
      rcases ThreadedState.handleSocketConfig_cases s.threads agentId cfg with he | he
      · rw [he]
        exact hidle
      · rw [he]
        exact hidle
    | wake => simp [enables, hflag] at henabled
    | config ready => exact absurd rfl (hother ready)
    | requestExchange k =>
      rcases ThreadedState.requestExchange_cases hn with rfl | ⟨-, -, -, rfl⟩ <;> exact hidle
    | requestErase k =>
      rw [(ThreadedState.requestErase_cases hn).2]
      exact hidle
    | requestPush k =>
      rw [(ThreadedState.requestPush_cases hn).2]
      exact hidle

/-- `stop` goes on with the same contexts to stop. -/
lemma Inv.advance (h : s.Inv) {pc : ShutdownPc} {flag : Bool} (hcontexts : pc.contexts = s.stopPc.contexts)
    (hdrained : pc.drained = s.stopPc.drained) (hcalls : ∀ calls, pc ≠ .stopping calls)
    (hflag : s.stopFlag = true → flag = true)
    (hjoined : pc = .clearing ∨ pc = .returned → s.mainExited = true) :
    Inv { s with stopFlag := flag, stopPc := pc } := by
  refine ⟨h.wf, fun c hc => h.built c (hcontexts ▸ hc), fun calls he => absurd he (hcalls calls),
    fun c hc => ?_, fun hd => h.drained (hdrained ▸ hd),
    fun hex => ⟨hflag (h.exited hex).1, (h.exited hex).2⟩, hjoined⟩
  have hc := h.accounted c hc
  unfold Accounted inHand at hc ⊢
  dsimp only
  rw [hcontexts, hdrained]
  exact hc

/-- The lists that `stop` empties name only contexts that have been built. -/
lemma wf_clear {threads : ThreadedState} (h : threads.Wf) (configs : TreeMap Int AgentConfig) (pending : Bool) :
    ThreadedState.Wf { threads with
      configs := configs, pendingStopStreams := [], hasPendingConfig := pending } :=
  ⟨h.registered, h.built, h.removing, h.order, by simp, h.requests, h.requested, h.stopped⟩

/-- What was registered is now in the hands of `stop`. -/
lemma Inv.swapStreams (h : s.Inv) (hpc : s.stopPc = .swappingStreams) :
    Inv { s with
      threads := { s.threads with pipeline := { s.threads.pipeline with streams := ∅ } }
      stopPc := .swappingPending (s.threads.pipeline.streams.toList.map Prod.snd) } := by
  have hmem : ∀ c, c ∈ s.threads.pipeline.streams.toList.map Prod.snd ↔ s.threads.Registered c := by
    intro c
    simp [ThreadedState.Registered, TreeMap.mem_toList_iff_getElem?_eq_some]
  have hinfo : s.threads.pipeline.InfoLe { s.threads.pipeline with streams := ∅ } := .of_eq fun _ => rfl
  have hwf := h.wf.pipeline hinfo (fun id c hc => by simp at hc) fun c hc => .inl hc
  refine ⟨hwf, fun c hc => ?_, by simp, fun c hc => ?_, by simp [ShutdownPc.drained], h.exited, by simp⟩
  · obtain ⟨id, hreg⟩ := (hmem c).mp hc
    obtain ⟨flag, hi⟩ := h.wf.registered id c hreg
    exact ⟨id, flag, hi⟩
  · rcases h.accounted c hc with hhand | ⟨-, hqueued | hreg⟩
    · rcases inHand_iff.mp hhand with hhand | hstop
      · exact .inl (inHand_iff.mpr (.inl hhand))
      · rw [hpc] at hstop
        cases hstop
    · exact .inr ⟨rfl, .inl hqueued⟩
    · exact .inl (inHand_iff.mpr (.inr ((hmem c).mpr hreg)))

/-- What was queued is now in the hands of `stop`, when it meets the guard. -/
lemma Inv.swapPending (h : s.Inv) {streamsToStop : List ContextId}
    (hpc : s.stopPc = .swappingPending streamsToStop) (hguard : drainsAll s .stop = true) :
    Inv { s with
      threads := { s.threads with pendingStopStreams := [] }
      stopPc := .stopping ((streamsToStop ++ s.threads.pendingStopStreams).map fun c => (.raiseFlag, c)) } := by
  have hcontexts : (ShutdownPc.stopping ((streamsToStop ++ s.threads.pendingStopStreams).map
      fun c => (StopStep.raiseFlag, c))).contexts = streamsToStop ++ s.threads.pendingStopStreams := by
    simp [ShutdownPc.contexts, Function.comp_def]
  simp only [drainsAll, hpc, Bool.and_eq_true, List.all_eq_true] at hguard
  obtain ⟨hempty, hrequests⟩ := hguard
  have hnone : ∀ c, ¬s.threads.Registered c := by
    rintro c ⟨id, hc⟩
    rw [TreeMap.getElem?_of_isEmpty hempty] at hc
    cases hc
  have hhand : ∀ c, s.inHand c = true →
      s.threads.inHand c = true ∨ c ∈ streamsToStop ++ s.threads.pendingStopStreams := by
    intro c hc
    rcases inHand_iff.mp hc with hc | hc
    · exact .inl hc
    · rw [hpc] at hc
      exact .inr (List.mem_append_left _ hc)
  refine ⟨wf_clear h.wf _ _, fun c hc => ?_, fun calls he call hcall hstep => ?_, fun c hc => ?_,
    fun _ => hnone, h.exited, by simp⟩
  · rw [hcontexts] at hc
    rcases List.mem_append.mp hc with hc | hc
    · exact h.built c (by rw [hpc]; exact hc)
    · exact h.wf.pending c hc
  · cases he
    obtain ⟨c, -, rfl⟩ := List.mem_map.mp hcall
    exact absurd rfl hstep
  · have hin : s.threads.inHand c = true ∨ c ∈ streamsToStop ++ s.threads.pendingStopStreams := by
      rcases h.accounted c hc with hc | ⟨-, hqueued | hreg⟩
      · exact hhand c hc
      · rcases ThreadedState.queued_iff.mp hqueued with hpending | hrequest
        · exact .inr (List.mem_append_right _ hpending)
        · rw [TreeMap.contains_eq_isSome_getElem?] at hrequest
          obtain ⟨pc, hget⟩ := Option.isSome_iff_exists.mp hrequest
          exact hhand c (hrequests (c, pc) (TreeMap.mem_toList_iff_getElem?_eq_some.mpr hget))
      · exact absurd hreg (hnone c)
    refine .inl (inHand_iff.mpr (hin.imp (fun hc => hc) fun hc => ?_))
    dsimp only
    rw [hcontexts]
    exact hc

/-- A step of `stopStream` lets no context out of hand: the one of the call is stopped, or the call
goes on. -/
lemma inHand_stopStep {step : StopStep} {calls : List (StopStep × ContextId)}
    (hpc : s.stopPc = .stopping ((step, c) :: calls)) (hbuilt : s.threads.pipeline.Built c)
    {threads : ThreadedState} (hn : s.threads.stopStep step c = some threads) {k : ContextId}
    (h : s.inHand k = true) :
    inHand { s with
      threads := threads
      stopPc := .stopping ((step.next.map fun step => (step, c)).toList ++ calls) } k = true := by
  refine inHand_iff.mpr ?_
  rcases inHand_iff.mp h with hhand | hstop
  · rcases (ThreadedState.passes_stopStep hn).inHand k hhand with hhand | ⟨hins, -⟩
    · exact .inl hhand
    · cases hins
  · rw [hpc] at hstop
    rcases List.mem_cons.mp hstop with rfl | hstop
    · rcases ThreadedState.stopStep_last hbuilt hn with hstopped | ⟨step', hnext⟩
      · exact .inl (ThreadedState.inHand_iff.mpr (.inl hstopped))
      · exact .inr (by simp [hnext, ShutdownPc.contexts])
    · obtain ⟨call, hcall, rfl⟩ := List.mem_map.mp hstop
      exact .inr (List.mem_map_of_mem (List.mem_append_right _ hcall))

/-- `stop` carries out a step of `stopStream`. -/
lemma Inv.stopStep (h : s.Inv) {step : StopStep} {calls : List (StopStep × ContextId)}
    (hpc : s.stopPc = .stopping ((step, c) :: calls)) {threads : ThreadedState}
    (hn : s.threads.stopStep step c = some threads) :
    Inv { s with
      threads := threads
      stopPc := .stopping ((step.next.map fun step => (step, c)).toList ++ calls) } := by
  have hbuilt : s.threads.pipeline.Built c := h.built c (by simp [hpc, ShutdownPc.contexts])
  have hdrained : s.stopPc.drained = true := by simp [hpc, ShutdownPc.drained]
  obtain ⟨hwf, hflag, hinfo⟩ := h.wf.stopStep hbuilt
    (h.removing _ hpc (step, c) (List.mem_cons_self ..)) hn
  have hcalls : ∀ call ∈ (step.next.map fun step => (step, c)).toList ++ calls,
      call.2 = c ∨ call ∈ calls := by
    intro call hcall
    rcases List.mem_append.mp hcall with hcall | hcall
    · obtain ⟨step', -, rfl⟩ := Option.map_eq_some_iff.mp (Option.mem_toList.mp hcall)
      exact .inl rfl
    · exact .inr hcall
  refine ⟨hwf, fun k hk => ?_, fun calls' he call hcall hstep => ?_, fun k hk => ?_, fun _ k hk => ?_,
    fun hex => ⟨(h.exited hex).1, ?_⟩, by simp⟩
  · obtain ⟨call, hcall, rfl⟩ := List.mem_map.mp hk
    rcases hcalls call hcall with he | hcall
    · exact he ▸ hflag.built
    · refine (h.built call.2 ?_).mono hinfo
      rw [hpc]
      exact List.mem_cons_of_mem _ (List.mem_map_of_mem hcall)
  · cases he
    rcases hcalls call hcall with he | hcall
    · exact he ▸ hflag
    · exact (h.removing _ hpc call (List.mem_cons_of_mem _ hcall) hstep).mono hinfo
  · have hbefore : s.threads.pipeline.Built k := ThreadedState.built_of_stopStep hn hk
    rcases h.accounted k hbefore with hhand | ⟨hopen, -⟩
    · exact .inl (inHand_stopStep hpc hbuilt hn hhand)
    · rw [hdrained] at hopen
      cases hopen
  · rcases (ThreadedState.passes_stopStep hn).registers k hk with hreg | hins
    · exact h.drained hdrained k hreg
    · cases hins
  · rw [ThreadedState.stopStep_eq hn]
    exact (h.exited hex).2

lemma Inv.stop (h : s.Inv) (hguard : drainsAll s .stop = true) (hn : s.stop = some t) : t.Inv := by
  unfold ShutdownState.stop at hn
  split at hn
  · rename_i hpc
    cases hn
    exact h.advance (by rw [hpc]; rfl) (by rw [hpc]; rfl) (by simp) (fun _ => rfl) (by simp)
  · rename_i hpc
    have hinfo : s.threads.pipeline.InfoLe
        { s.threads.pipeline with scheduler := s.threads.pipeline.scheduler.stop } := .of_eq fun _ => rfl
    have hwf := h.wf.pipeline hinfo (fun _ _ hc => .inl hc) fun _ hc => .inl hc
    cases hn
    refine ⟨hwf, by simp [ShutdownPc.contexts], by simp, fun c hc => ?_, by simp [ShutdownPc.drained],
      h.exited, by simp⟩
    have hc := h.accounted c hc
    unfold Accounted inHand at hc ⊢
    rw [hpc] at hc
    exact hc
  · cases hn
    exact h.swapStreams ‹_›
  · cases hn
    exact h.swapPending ‹_› hguard
  · rename_i hpc
    cases hn
    exact h.advance (by rw [hpc]; rfl) (by rw [hpc]; rfl) (by simp) (fun h => h) (by simp)
  · rename_i hpc
    obtain ⟨threads, hstep, rfl⟩ := Option.map_eq_some_iff.mp hn
    exact h.stopStep hpc hstep
  · rename_i hpc
    simp only [Option.ite_none_right_eq_some] at hn
    obtain ⟨hex, hn⟩ := hn
    cases hn
    exact h.advance (by rw [hpc]; rfl) (by rw [hpc]; rfl) (by simp) (fun h => h) fun _ => hex
  · rename_i hpc
    have hdrained : s.stopPc.drained = true := by simp [hpc, ShutdownPc.drained]
    cases hn
    refine ⟨wf_clear h.wf _ _, by simp [ShutdownPc.contexts], by simp, fun c hc => ?_,
      fun _ => h.drained hdrained, h.exited, fun _ => h.joined (.inl hpc)⟩
    rcases h.accounted c hc with hhand | ⟨hopen, -⟩
    · unfold inHand at hhand
      rw [hpc] at hhand
      exact .inl hhand
    · rw [hdrained] at hopen
      cases hopen
  · cases hn

lemma Inv.next (h : s.Inv) {same : SameProtoMessage} {agentId : Bytes} {a : ShutdownAction}
    (hguard : drainsAll s a = true) (hn : (shutdownSystem same agentId).next s a = some t) : t.Inv := by
  cases a with
  | thread a =>
    simp only [shutdownSystem, Option.ite_none_right_eq_some] at hn
    obtain ⟨henabled, hn⟩ := hn
    obtain ⟨threads, hstep, rfl⟩ := Option.map_eq_some_iff.mp hn
    exact h.thread hguard henabled hstep
  | exitMain =>
    simp only [shutdownSystem, exitMain] at hn
    split at hn
    · rename_i hidle
      simp only [Option.ite_none_right_eq_some] at hn
      cases hn.2
      exact ⟨h.wf, h.built, h.removing, h.accounted, h.drained, fun _ => ⟨hn.1, hidle⟩, fun _ => rfl⟩
    · cases hn
  | stop => exact h.stop hguard hn

lemma Inv.init : Inv {} := by
  refine ⟨.init, by simp [ShutdownPc.contexts], by simp, fun c hc => ?_, by simp [ShutdownPc.drained],
    by simp, by simp⟩
  have hlt := hc.lt
  simp at hlt

/-- A context that is accounted for when `stop` has returned has been stopped. -/
lemma Inv.complete (h : s.Inv) : s.Complete := by
  intro hpc
  have hdrained : s.stopPc.drained = true := by simp [hpc, ShutdownPc.drained]
  obtain ⟨-, hidle⟩ := h.exited (h.joined (.inr hpc))
  refine ⟨fun c hc => ?_, fun id => ?_⟩
  · have hbuilt : s.threads.pipeline.Built c := by
      rw [ThreadedState.built_iff, PipelineState.info, List.getElem?_eq_getElem hc]
      rfl
    rcases h.accounted c hbuilt with hhand | ⟨hopen, -⟩
    · simpa [inHand, ThreadedState.inHand, hidle, hpc, ShutdownPc.contexts] using hhand
    · rw [hdrained] at hopen
      cases hopen
  · cases hreg : s.threads.pipeline.streams[id]? with
    | none => rfl
    | some c => exact absurd ⟨id, hreg⟩ (h.drained hdrained c)

end ShutdownState

/-- When the config thread and the requests leave nothing behind the two swaps of `stop`, every context
has been stopped when it returns, wherever it was called. -/
theorem complete_of_drainsAll {same : SameProtoMessage} {agentId : Bytes} {s : ShutdownState}
    (h : (shutdownSystem same agentId).ReachableWhen (fun s a => drainsAll s a = true) s) : s.Complete := by
  have hinv : s.Inv := h.invariant ShutdownState.Inv.init fun _ _ _ ht hguard hn => ht.next hguard hn
  exact hinv.complete

/-- The steps of `stop` until it has swapped both lists out. -/
def stopToDrained : List ShutdownAction := [.stop, .stop, .stop, .stop]

/-- `stop` is called when the context has been inserted, and stops it. -/
theorem complete_of_drainsAll_inserted :
    ∃ s, (shutdownSystem structuralEquality []).ReachableWhen (fun s a => drainsAll s a = true) s ∧
      s.stopPc = .returned ∧ s.threads.pipeline.stopped = [0] ∧ s.Complete := by
  obtain ⟨s, hs, hp⟩ := Machine.reachableWhen_of_exec_any (shutdownSystem structuralEquality []) drainsAll
    ((runToInsert ++ [ThreadAction.config true]).map .thread ++ stopToDrained ++
      [.stop, .stop, .stop, .stop, .exitMain, .stop, .stop])
    (fun s => decide (s.stopPc = .returned ∧ s.threads.pipeline.stopped = [0])) (by decide)
  obtain ⟨hpc, hstopped⟩ := of_decide_eq_true hp
  exact ⟨s, hs, hpc, hstopped, complete_of_drainsAll hs⟩

/-- `stop` is called between the check of the context and its insertion, which comes when both lists
have been swapped out: the context stays registered and is never stopped. -/
theorem not_complete_insertedLate :
    ∃ s, (shutdownSystem structuralEquality []).Reachable s ∧ s.threads.pipeline.stopped = [] ∧
      s.threads.pipeline.streams[([0x53] : Bytes)]? = some 0 ∧ ¬s.Complete := by
  obtain ⟨s, hs, hp⟩ := Machine.reachable_of_exec_any (shutdownSystem structuralEquality [])
    (runToInsert.map .thread ++ stopToDrained ++
      [.stop, .thread (.config true), .exitMain, .stop, .stop])
    (fun s => decide (s.stopPc = .returned ∧ s.threads.pipeline.stopped = [] ∧
      s.threads.pipeline.streams[([0x53] : Bytes)]? = some 0)) (by decide)
  obtain ⟨hpc, hstopped, hreg⟩ := of_decide_eq_true hp
  refine ⟨s, hs, hstopped, hreg, fun h => ?_⟩
  have hnone := (h hpc).2 [0x53]
  rw [hreg] at hnone
  cases hnone

/-- A request has erased its context when `stop` swaps the lists out, and queues it when they are gone:
the context is dropped from the pending list without being stopped. -/
theorem not_complete_queuedLate :
    ∃ s, (shutdownSystem structuralEquality []).Reachable s ∧ s.threads.pipeline.stopped = [] ∧
      s.threads.requested = [0] ∧ ¬s.Complete := by
  obtain ⟨s, hs, hp⟩ := Machine.reachable_of_exec_any (shutdownSystem structuralEquality [])
    ((runToInsert ++ [ThreadAction.config true, .requestExchange 0, .requestErase 0]).map .thread ++
      stopToDrained ++ [.thread (.requestPush 0), .stop, .exitMain, .stop, .stop])
    (fun s => decide (s.stopPc = .returned ∧ s.threads.pipeline.stopped = [] ∧ s.threads.requested = [0] ∧
      s.threads.pipeline.contexts.length = 1)) (by decide)
  obtain ⟨hpc, hstopped, hrequested, hbuilt⟩ := of_decide_eq_true hp
  refine ⟨s, hs, hstopped, hrequested, fun h => ?_⟩
  have hmem := (h hpc).1 0 (by simp [hbuilt])
  rw [hstopped] at hmem
  cases hmem

end MediaAgent
