import MediaAgent.ConfigAgreement
import MediaAgent.PipelineThreads

/-!
# Requested stops leave the map

A context whose stop is requested is erased from `streams_` by the request and never inserted again,
except when the request is made between the check of the stop flag at the end of `applyConfigBatch`
and the insertion that follows it: the erase finds nothing, and the insertion then registers a
context that is about to be stopped.
-/

namespace MediaAgent
open Std TreeMaps Transition

def ConfigOp.isInsert (c : ContextId) : ConfigOp → Bool
  | .insert c' => c' == c
  | _ => false

@[simp] lemma ConfigOp.isInsert_iff (c : ContextId) (op : ConfigOp) :
    op.isInsert c = true ↔ op = .insert c := by
  cases op <;> simp [isInsert]

/-- No request erases a context that the config thread is about to insert. -/
def erasesRegistered (s : ThreadedState) : ThreadAction → Bool
  | .requestErase c => !s.configThread.any (ConfigOp.isInsert c)
  | _ => true

namespace ThreadedState

/-- The stop of the context was requested, and `mainLoop` has nothing left to do for it. -/
structure StopProcessed (s : ThreadedState) (c : ContextId) : Prop where
  requested : c ∈ s.requested
  returned : s.requests[c]? = none
  taken : c ∉ s.pendingStopStreams
  stopped : ∀ step, .stop step c ∉ s.configThread

/-- No context whose requested stop has been processed is registered. -/
def NoDeadEntry (s : ThreadedState) : Prop :=
  ∀ c, s.StopProcessed c → ∀ id : Bytes, s.pipeline.streams[id]? ≠ some c

/-- A requested context is out of the map once the request has erased it, and is not inserted again. -/
def Gone (s : ThreadedState) (c : ContextId) : Prop :=
  (∀ id : Bytes, s.pipeline.streams[id]? ≠ some c) ∧ .insert c ∉ s.configThread

def GoneInv (s : ThreadedState) : Prop := ∀ c ∈ s.requested, s.requests[c]? ≠ some .erasing → s.Gone c

variable {s t : ThreadedState}

lemma Gone.step {c : ContextId} (h : s.Gone c)
    (hstreams : ∀ id : Bytes, t.pipeline.streams[id]? = some c → s.pipeline.streams[id]? = some c)
    (hinsert : .insert c ∈ t.configThread → .insert c ∈ s.configThread) : t.Gone c :=
  ⟨fun id hc => h.1 id (hstreams id hc), fun hc => h.2 (hinsert hc)⟩

lemma gone_stopStep {step : StopStep} {c k : ContextId} (hn : s.stopStep step c = some t) (h : s.Gone k) :
    t.Gone k := by
  cases step with
  | raiseFlag =>
    cases hn
    exact h.step (by simp) id
  | removeStream =>
    cases hn
    exact h.step (by simp) id
  | joinPuller =>
    rw [(joinPuller_cases hn).2]
    exact h.step (by simp) id

/-- A step of the config thread inserts only a context that it has found without a stop flag. -/
lemma gone_runConfigOp (hwf : s.Wf) {same : SameProtoMessage} {ready : Bool} {op : ConfigOp}
    {rest : List ConfigOp} (hthread : s.configThread = op :: rest)
    (hn : s.runConfigOp same ready op rest = some t) {k : ContextId} (hk : k ∈ s.requested) (h : s.Gone k) :
    t.Gone k := by
  have hrest : .insert k ∉ rest := fun hc => h.2 (hthread ▸ List.mem_cons_of_mem _ hc)
  cases op with
  | stop step c =>
    obtain ⟨u, hu, rfl⟩ := Option.map_eq_some_iff.mp hn
    refine ⟨(gone_stopStep hu h).1, fun hc => hrest ?_⟩
    simpa using hc
  | review configs =>
    cases hn
    have hex := examined_planBatch s.pipeline same (buildMergedStreams configs)
    refine ⟨fun id hc => h.1 id (hex.kept id k hc), fun hc => hrest ?_⟩
    simpa [BatchPlan.steps] using hc
  | update c config =>
    have hstreams := s.pipeline.updateStreamRuntime_streams c same (fun _ => ready) config
    cases hn
    exact ⟨fun id hc => h.1 id (hstreams ▸ hc), hrest⟩
  | build config =>
    cases hn
    exact ⟨h.1, by simpa using hrest⟩
  | check c =>
    obtain ⟨ops, rfl, ⟨rfl, -⟩ | ⟨rfl, -⟩ | ⟨rfl, id, hi⟩⟩ := check_cases hn
    · exact ⟨h.1, hrest⟩
    · exact ⟨h.1, by simpa using hrest⟩
    · refine ⟨h.1, fun hc => ?_⟩
      rcases List.mem_cons.mp hc with he | hc
      · -- a requested context is flagged
        cases he
        obtain ⟨id', hflag⟩ := hwf.requested k hk
        rw [hi] at hflag
        cases hflag
      · exact hrest hc
  | insert c =>
    have hne : c ≠ k := fun he => h.2 (by rw [hthread, he]; exact List.mem_cons_self ..)
    obtain ⟨id, flag, hi⟩ := hwf.built (.insert c) (hthread ▸ List.mem_cons_self ..) c rfl
    have hstreams := PipelineState.insertStream_streams hi
    cases hn
    refine ⟨fun id' hc => ?_, hrest⟩
    dsimp only at hc
    rw [hstreams, lookup_insert] at hc
    split at hc
    · exact hne (Option.some.inj hc)
    · exact h.1 id' hc

/-- The erase of a request takes the context out of the map. -/
lemma gone_requestErase (hwf : s.Wf) {c : ContextId} (hinsert : .insert c ∉ s.configThread)
    (hn : s.requestErase c = some t) : t.Gone c := by
  obtain ⟨hc, rfl⟩ := requestErase_cases hn
  obtain ⟨id, hi⟩ := hwf.requested c (hwf.requests c _ hc).1
  have hstreams := PipelineState.eraseStream_streams hi
  refine ⟨fun id' hc' => ?_, hinsert⟩
  dsimp only at hc'
  rw [hstreams] at hc'
  split at hc'
  · cases hc'
  · rename_i hne
    obtain ⟨flag, hi'⟩ := hwf.registered id' c hc'
    rw [hi] at hi'
    cases hi'
    exact hne ⟨rfl, hc'⟩

/-- A request erases the entry of its own context, and no other context enters. -/
lemma GoneInv.requestErase (h : s.GoneInv) (hwf : s.Wf) {c : ContextId} (hinsert : .insert c ∉ s.configThread)
    (hn : s.requestErase c = some t) : t.GoneInv := by
  have hgone := gone_requestErase hwf hinsert hn
  obtain ⟨hc, rfl⟩ := requestErase_cases hn
  obtain ⟨id, hi⟩ := hwf.requested c (hwf.requests c _ hc).1
  have hstreams := PipelineState.eraseStream_streams hi
  intro k hk hpc
  dsimp only at hpc
  rw [lookup_insert] at hpc
  split at hpc
  · subst k
    exact hgone
  · refine (h k hk hpc).step (fun id' hc' => ?_) (fun hmem => hmem)
    dsimp only at hc'
    rw [hstreams] at hc'
    split at hc'
    · cases hc'
    · exact hc'

lemma GoneInv.next {same : SameProtoMessage} {agentId : Bytes} {a : ThreadAction} (h : s.GoneInv) (hwf : s.Wf)
    (hguard : erasesRegistered s a = true) (hn : (threadSystem same agentId).next s a = some t) :
    t.GoneInv := by
  cases a with
  | socketConfig cfg =>
    cases hn
    rcases handleSocketConfig_cases s agentId cfg with he | he
    · rw [he]
      exact h
    · rw [he]
      exact h
  | wake =>
    rw [wake_cases (next_wake hn).2]
    intro c hc hpc
    refine ⟨(h c hc hpc).1, ?_⟩
    dsimp only
    split <;> simp
  | config ready =>
    obtain ⟨op, rest, hthread, hn⟩ := next_config hn
    intro c hc hpc
    rw [runConfigOp_eq hn] at hc hpc
    exact gone_runConfigOp hwf hthread hn hc (h c hc hpc)
  | requestExchange c =>
    rcases requestExchange_cases hn with rfl | ⟨-, -, -, rfl⟩
    · exact h
    · intro k hk hpc
      dsimp only at hpc
      rw [lookup_insert] at hpc
      split at hpc
      · exact absurd rfl hpc
      · rename_i hne
        have hold := (List.mem_append.mp hk).resolve_right fun hk => hne (List.mem_singleton.mp hk).symm
        exact (h k hold hpc).step (by simp) id
  | requestErase c =>
    have hinsert : .insert c ∉ s.configThread := by
      intro hmem
      simp only [erasesRegistered, Bool.not_eq_true', List.any_eq_false] at hguard
      exact hguard _ hmem ((ConfigOp.isInsert_iff c _).mpr rfl)
    exact h.requestErase hwf hinsert hn
  | requestPush c =>
    obtain ⟨hc, rfl⟩ := requestPush_cases hn
    intro k hk hpc
    dsimp only at hpc
    rw [lookup_erase] at hpc
    split at hpc
    · subst k
      exact h c hk (by simp [hc])
    · exact h k hk hpc

end ThreadedState

/-- As long as no request erases a context that is about to be inserted, a context whose requested stop
has been processed is not registered. -/
theorem noDeadEntry_of_erasesRegistered {same : SameProtoMessage} {agentId : Bytes} {s : ThreadedState}
    (h : (threadSystem same agentId).ReachableWhen (fun s a => erasesRegistered s a = true) s) :
    s.NoDeadEntry := by
  have hinv : s.GoneInv := by
    apply h.invariant_of fun t ht => wf_reachable (Machine.ReachableWhen.reachable ht)
    · intro c hc
      cases hc
    · intro t a u hwf ht hguard hn
      exact ht.next hwf hguard hn
  exact fun c hc => (hinv c hc.requested (by simp [hc.returned])).1

/-- One enabled stream that is published again. -/
def republishedStream (url : Bytes) : AgentConfig where
  configId := 1
  streams := [{ enabled := true, streamId := [0x53], rtspUrl := url, newRtspUrl := [2] }]

/-- The stream is configured, built and checked; the config thread is about to insert it. -/
def runToInsert : List ThreadAction :=
  [.socketConfig (republishedStream [1]), .wake, .config true, .config true, .config true]

/-- The steps of `mainLoop` that take one pending stop and carry it out. -/
def processStop : List ThreadAction := [.wake, .config true, .config true, .config true]

/-- The context is inserted first and its stop requested afterwards. -/
theorem noDeadEntry_of_erasesRegistered_lateRequest :
    ∃ s, (threadSystem structuralEquality []).ReachableWhen (fun s a => erasesRegistered s a = true) s ∧
      s.requested = [0] ∧ s.pipeline.stopped = [0] ∧ s.NoDeadEntry := by
  obtain ⟨s, hs, hp⟩ := Machine.reachableWhen_of_exec_any (threadSystem structuralEquality []) erasesRegistered
    (runToInsert ++ [.config true, .requestExchange 0, .requestErase 0, .requestPush 0] ++ processStop)
    (fun s => decide (s.requested = [0] ∧ s.pipeline.stopped = [0])) (by decide)
  obtain ⟨hrequested, hstopped⟩ := of_decide_eq_true hp
  exact ⟨s, hs, hrequested, hstopped, noDeadEntry_of_erasesRegistered hs⟩

/-- A request between the check and the insertion leaves the stopped context registered. -/
theorem not_noDeadEntry_after_check :
    ∃ s, (threadSystem structuralEquality []).Reachable s ∧ s.pipeline.stopped = [0] ∧
      s.pipeline.streams[([0x53] : Bytes)]? = some 0 ∧ ¬s.NoDeadEntry := by
  obtain ⟨s, hs, hp⟩ := Machine.reachable_of_exec_any (threadSystem structuralEquality [])
    (runToInsert ++ [.requestExchange 0, .requestErase 0, .config true, .requestPush 0] ++ processStop)
    (fun s => decide (s.requested = [0] ∧ s.pipeline.stopped = [0] ∧ s.requests[0]? = none ∧
      s.pendingStopStreams = [] ∧ s.configThread.length = 0 ∧
      s.pipeline.streams[([0x53] : Bytes)]? = some 0)) (by decide)
  obtain ⟨hrequested, hstopped, hreturned, htaken, hidle, hreg⟩ := of_decide_eq_true hp
  refine ⟨s, hs, hstopped, hreg, fun h => h 0 ⟨?_, hreturned, ?_, ?_⟩ _ hreg⟩
  · simp [hrequested]
  · simp [htaken]
  · simp [List.eq_nil_of_length_eq_zero hidle]

end MediaAgent
