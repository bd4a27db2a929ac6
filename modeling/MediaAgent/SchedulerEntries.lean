import MediaAgent.AsyncStop

/-!
# Scheduler entries of running contexts

`stopStream` removes the scheduler entry of a stream id, whichever context it belongs to. A running
context keeps its entry as long as no older one of its stream waits to be stopped when it is built,
or asks to be stopped while it runs.
-/

namespace MediaAgent
open Std TreeMaps Transition

namespace ThreadedState

/-- `mainLoop` waits, and has nothing to do. -/
def Idle (s : ThreadedState) : Prop :=
  s.configThread = [] ∧ s.hasPendingConfig = false ∧ s.pendingStopStreams = []

/-- Every registered context without a stop flag has an entry with its own buffer when `mainLoop` is
idle. -/
def EntriesServed (s : ThreadedState) : Prop :=
  s.Idle → ∀ (id : Bytes) (c : ContextId) (stream : StreamContext), s.pipeline.streams[id]? = some c →
    s.pipeline.contexts[c]? = some stream → stream.stopFlag = false →
      ∃ entry, s.pipeline.scheduler.entries[stream.streamId]? = some entry ∧ entry.buffer = some c

/-- A newer context of the stream has no stop flag. -/
def displaced (s : ThreadedState) (c : ContextId) : Bool :=
  (List.range s.pipeline.contexts.length).any fun c' =>
    decide (c < c') && s.pipeline.info c' == (s.pipeline.info c).map fun i => (i.1, false)

/-- No context is built while the stop of an older one of its stream is under way or pending, none without a
stop flag asks to be stopped while a newer one of its stream has no flag, and none is found flagged after it
was built while another one of its stream is registered without a flag. -/
def keepsEntries (s : ThreadedState) : ThreadAction → Bool
  | .config _ =>
    match s.configThread with
    | .build config :: _ =>
      (List.range s.pipeline.contexts.length).all fun c =>
        (s.pipeline.info c).map Prod.fst != some config.streamId ||
          (!s.pendingStopStreams.contains c && !s.requests.contains c)
    | .check c :: _ =>
      match s.pipeline.info c with
      | some (id, true) => s.pipeline.streams[id]?.all fun c' => ((s.pipeline.info c').map Prod.snd).getD true
      | _ => true
    | _ => true
  | .requestExchange c => ((s.pipeline.info c).map Prod.snd).getD true || !s.displaced c
  | _ => true

/-- A newer context of the stream has been built. -/
def Superseded (s : ThreadedState) (c : ContextId) : Prop :=
  ∃ c' id, c < c' ∧ (s.pipeline.info c).map Prod.fst = some id ∧ (s.pipeline.info c').map Prod.fst = some id

/-- A newer context of the stream has been built and is not flagged. -/
def Displaced (s : ThreadedState) (c : ContextId) : Prop :=
  ∃ c' id, c < c' ∧ (s.pipeline.info c).map Prod.fst = some id ∧ s.pipeline.info c' = some (id, false)

/-- No newer context of the stream is without a flag, and none has been built if this one has no flag. -/
def Current (s : ThreadedState) (c : ContextId) : Prop :=
  ¬s.Displaced c ∧ (s.pipeline.Flagged c ∨ ¬s.Superseded c)

/-- The context that the config thread has built and may register next. -/
def registering (s : ThreadedState) : Option ContextId :=
  match s.configThread with
  | .check c :: _ => some c
  | .insert c :: _ => some c
  | _ => none

/-- A registered context is the current one of its stream, or the one that may be registered next is the only newer one
without a flag. -/
def Holds (s : ThreadedState) (next : Option ContextId) (id : Bytes) (c : ContextId) : Prop :=
  s.Current c ∨ ∃ c', next = some c' ∧ (s.pipeline.info c').map Prod.fst = some id ∧
    ∀ k, c < k → s.pipeline.info k = some (id, false) → k = c'

/-- Nothing is done, or waits to be done, about a context while a newer one of its stream runs; and the newest
context of a stream has its entry unless it is flagged. -/
structure EntriesInv (s : ThreadedState) : Prop where
  pending : ∀ c ∈ s.pendingStopStreams, ¬s.Displaced c
  requests : ∀ c pc, s.requests[c]? = some pc → ¬s.Displaced c
  ops : ∀ op ∈ s.configThread, ∀ c, op.context = some c → ¬s.Displaced c
  newest : ∀ c, .check c ∈ s.configThread ∨ .insert c ∈ s.configThread → ¬s.Superseded c
  registered : ∀ (id : Bytes) (c : ContextId), s.pipeline.streams[id]? = some c → s.Holds s.registering id c
  entry : ∀ c id, s.pipeline.info c = some (id, false) → ¬s.Superseded c →
    ∃ entry, s.pipeline.scheduler.entries[id]? = some entry ∧ entry.buffer = some c

variable {s t : ThreadedState}

/-! ## Newer contexts -/

lemma id_raiseFlag (p : PipelineState) (c k : ContextId) :
    ((p.raiseFlag c).info k).map Prod.fst = (p.info k).map Prod.fst := by
  rw [PipelineState.info_raiseFlag]
  split
  · rw [Option.map_map]
    rfl
  · rfl

/-- No context is built, and no flag goes down. -/
structure Keeps (p q : PipelineState) : Prop where
  le : p.InfoLe q
  ids : ∀ k, (q.info k).map Prod.fst = (p.info k).map Prod.fst

lemma Keeps.of_eq {p q : PipelineState} (h : ∀ k, q.info k = p.info k) : Keeps p q :=
  ⟨.of_eq h, fun k => by rw [h k]⟩

lemma Keeps.raiseFlag (p : PipelineState) (c : ContextId) : Keeps p (p.raiseFlag c) :=
  ⟨.raiseFlag p c, id_raiseFlag p c⟩

lemma Keeps.running {p q : PipelineState} (h : Keeps p q) {k : ContextId} {id : Bytes}
    (hk : q.info k = some (id, false)) : p.info k = some (id, false) := by
  have hid := h.ids k
  rw [hk, Option.map_some] at hid
  obtain ⟨⟨id', flag⟩, hi, rfl⟩ := Option.map_eq_some_iff.mp hid.symm
  obtain ⟨flag', hi', hflag⟩ := h.le k _ flag hi
  cases hk.symm.trans hi'
  cases flag with
  | false => exact hi
  | true => cases hflag rfl

lemma Displaced.superseded {c : ContextId} (h : s.Displaced c) : s.Superseded c := by
  obtain ⟨c', id, hlt, hc, hc'⟩ := h
  exact ⟨c', id, hlt, hc, by rw [hc']; rfl⟩

lemma superseded_congr (hkeeps : Keeps s.pipeline t.pipeline) (c : ContextId) : t.Superseded c ↔ s.Superseded c := by
  simp only [Superseded, hkeeps.ids]

lemma Displaced.of_keeps (hkeeps : Keeps s.pipeline t.pipeline) {c : ContextId} (h : t.Displaced c) : s.Displaced c := by
  obtain ⟨c', id, hlt, hc, hc'⟩ := h
  exact ⟨c', id, hlt, (hkeeps.ids c).symm.trans hc, hkeeps.running hc'⟩

lemma Current.keeps (hkeeps : Keeps s.pipeline t.pipeline) {c : ContextId} (h : s.Current c) : t.Current c :=
  ⟨fun hd => h.1 (hd.of_keeps hkeeps),
    h.2.imp (fun hflag => hflag.mono hkeeps.le) fun hs => (superseded_congr hkeeps c).not.mpr hs⟩

lemma Holds.keeps (hkeeps : Keeps s.pipeline t.pipeline) {next : Option ContextId} {id : Bytes} {c : ContextId}
    (h : s.Holds next id c) : t.Holds next id c := by
  rcases h with hcurrent | ⟨c', hnext, hid, honly⟩
  · exact .inl (hcurrent.keeps hkeeps)
  · exact .inr ⟨c', hnext, (hkeeps.ids c').trans hid, fun k hlt hk => honly k hlt (hkeeps.running hk)⟩

lemma current_of_holds_none {id : Bytes} {c : ContextId} (h : s.Holds none id c) : s.Current c :=
  h.resolve_right fun ⟨_, hnext, _⟩ => Option.some_ne_none _ hnext.symm

/-- The newest context of a stream is the one that is not displaced, unless it is flagged. -/
lemma eq_of_not_displaced {c k : ContextId} {id : Bytes} {flag : Bool} (hc : ¬s.Displaced c)
    (hi : s.pipeline.info c = some (id, flag)) (hk : s.pipeline.info k = some (id, false)) (hs : ¬s.Superseded k) :
    k = c := by
  rcases Nat.lt_trichotomy k c with hlt | heq | hgt
  · exact absurd ⟨c, id, hlt, by rw [hk]; rfl, by rw [hi]; rfl⟩ hs
  · exact heq
  · exact absurd ⟨k, id, hgt, by rw [hi]; rfl, hk⟩ hc

lemma lt_of_id {p : PipelineState} {k : ContextId} {id : Bytes}
    (h : (p.info k).map Prod.fst = some id) : k < p.contexts.length := by
  obtain ⟨i, hi, -⟩ := Option.map_eq_some_iff.mp h
  exact PipelineState.Built.lt ⟨i.1, i.2, hi⟩

lemma displaced_iff {c : ContextId} : s.displaced c = true ↔ s.Displaced c := by
  simp only [displaced, List.any_eq_true, List.mem_range, Bool.and_eq_true, decide_eq_true_eq, beq_iff_eq]
  constructor
  · rintro ⟨c', hc', hlt, hinfo⟩
    cases hi : s.pipeline.info c with
    | none =>
      rw [hi] at hinfo
      simp [PipelineState.info, hc'] at hinfo
    | some i => exact ⟨c', i.1, hlt, by rw [hi]; rfl, by rw [hinfo, hi]; rfl⟩
  · rintro ⟨c', id, hlt, hc, hc'⟩
    obtain ⟨i, hi, rfl⟩ := Option.map_eq_some_iff.mp hc
    exact ⟨c', PipelineState.Built.lt ⟨_, _, hc'⟩, hlt, by rw [hc', hi]; rfl⟩

/-! ## The steps -/

/-- A step that builds no context. -/
lemma EntriesInv.step (hkeeps : Keeps s.pipeline t.pipeline)
    (hpending : ∀ c ∈ t.pendingStopStreams, ¬s.Displaced c)
    (hrequests : ∀ c pc, t.requests[c]? = some pc → ¬s.Displaced c)
    (hops : ∀ op ∈ t.configThread, ∀ c, op.context = some c → ¬s.Displaced c)
    (hnewest : ∀ c, .check c ∈ t.configThread ∨ .insert c ∈ t.configThread → ¬s.Superseded c)
    (hregistered : ∀ (id : Bytes) (c : ContextId), t.pipeline.streams[id]? = some c → s.Holds t.registering id c)
    (hentry : ∀ c id, t.pipeline.info c = some (id, false) → ¬s.Superseded c →
      ∃ entry, t.pipeline.scheduler.entries[id]? = some entry ∧ entry.buffer = some c) : t.EntriesInv where
  pending c hc hd := hpending c hc (hd.of_keeps hkeeps)
  requests c pc hc hd := hrequests c pc hc (hd.of_keeps hkeeps)
  ops op hop c hc hd := hops op hop c hc (hd.of_keeps hkeeps)
  newest c hc hs := hnewest c hc ((superseded_congr hkeeps c).mp hs)
  registered id c hc := (hregistered id c hc).keeps hkeeps
  entry c id hc hs := hentry c id hc ((superseded_congr hkeeps c).not.mp hs)

/-- A step beside the config thread that leaves its work. -/
lemma EntriesInv.beside (h : s.EntriesInv) (hkeeps : Keeps s.pipeline t.pipeline)
    (hthread : t.configThread = s.configThread)
    (hpending : ∀ c ∈ t.pendingStopStreams, ¬s.Displaced c)
    (hrequests : ∀ c pc, t.requests[c]? = some pc → ¬s.Displaced c)
    (hstreams : ∀ (id : Bytes) (c : ContextId), t.pipeline.streams[id]? = some c → s.pipeline.streams[id]? = some c)
    (hscheduler : t.pipeline.scheduler = s.pipeline.scheduler) : t.EntriesInv := by
  have hregistering : t.registering = s.registering := by rw [registering, registering, hthread]
  refine .step hkeeps hpending hrequests (hthread ▸ h.ops) (hthread ▸ h.newest) (fun id c hc => ?_) fun c id hc hs => ?_
  · rw [hregistering]
    exact h.registered id c (hstreams id c hc)
  · rw [hscheduler]
    exact h.entry c id (hkeeps.running hc) hs

/-- A step of the config thread at which it is not about to register a context. -/
lemma EntriesInv.work (h : s.EntriesInv) {op : ConfigOp} {rest : List ConfigOp} (hthread : s.configThread = op :: rest)
    (hidle : s.registering = none) {p : PipelineState} (hkeeps : Keeps s.pipeline p) (ops : List ConfigOp)
    (hops : ∀ op' ∈ ops, (∀ c, op'.context = some c → ¬s.Displaced c) ∧ ∀ c, op' ≠ .check c ∧ op' ≠ .insert c)
    (hstreams : ∀ (id : Bytes) (c : ContextId), p.streams[id]? = some c → s.pipeline.streams[id]? = some c)
    (hentry : ∀ c id, p.info c = some (id, false) → ¬s.Superseded c →
      ∃ entry, p.scheduler.entries[id]? = some entry ∧ entry.buffer = some c) :
    EntriesInv { s with pipeline := p, configThread := ops ++ rest } := by
  have hrest : ∀ op' ∈ rest, op' ∈ s.configThread := fun op' hop => hthread ▸ List.mem_cons_of_mem _ hop
  refine .step hkeeps h.pending h.requests (fun op' hop c hc => ?_) (fun c hc => ?_) (fun id c hc => ?_) hentry
  · rcases List.mem_append.mp hop with hop | hop
    · exact (hops op' hop).1 c hc
    · exact h.ops op' (hrest op' hop) c hc
  · refine h.newest c (hc.imp (fun hop => ?_) fun hop => ?_)
    · exact hrest _ ((List.mem_append.mp hop).resolve_left fun hop => ((hops _ hop).2 c).1 rfl)
    · exact hrest _ ((List.mem_append.mp hop).resolve_left fun hop => ((hops _ hop).2 c).2 rfl)
  · exact .inl (current_of_holds_none (hidle ▸ h.registered id c (hstreams id c hc)))

/-- A step of `stopStream`. The entry that it removes is that of the context, or of none without a flag. -/
lemma EntriesInv.stop (h : s.EntriesInv) (hwf : s.Wf) {step : StopStep} {c : ContextId} {rest : List ConfigOp}
    (hthread : s.configThread = .stop step c :: rest) {u : ThreadedState} (hu : s.stopStep step c = some u) :
    EntriesInv { u with configThread := (step.next.map fun step => .stop step c).toList ++ rest } := by
  have hmem : .stop step c ∈ s.configThread := hthread ▸ List.mem_cons_self ..
  have hc : ¬s.Displaced c := h.ops _ hmem c rfl
  have hidle : s.registering = none := by rw [registering, hthread]
  have hnext : ∀ op' ∈ (step.next.map fun step => ConfigOp.stop step c).toList,
      (∀ k, op'.context = some k → ¬s.Displaced k) ∧ ∀ k, op' ≠ .check k ∧ op' ≠ .insert k := by
    intro op' hop
    obtain ⟨step', -, rfl⟩ := Option.map_eq_some_iff.mp (Option.mem_toList.mp hop)
    exact ⟨fun k hk => Option.some.inj hk ▸ hc, fun k => ⟨ConfigOp.noConfusion, ConfigOp.noConfusion⟩⟩
  cases step with
  | raiseFlag =>
    cases hu
    refine h.work hthread hidle (.raiseFlag s.pipeline c) _ hnext (fun id k hk => by simpa using hk) fun k id hk hs => ?_
    simpa using h.entry k id ((Keeps.raiseFlag s.pipeline c).running hk) hs
  | removeStream =>
    cases hu
    obtain ⟨id, hi⟩ := hwf.removing _ c hmem (by simp)
    refine h.work hthread hidle (.of_eq (by simp)) _ hnext (fun id k hk => by simpa using hk) fun k id' hk hs => ?_
    have hk : s.pipeline.info k = some (id', false) := by simpa using hk
    rw [PipelineState.removeStream_entries hi, lookup_erase, if_neg]
    · exact h.entry k id' hk hs
    · rintro rfl
      rw [eq_of_not_displaced hc hi hk hs, hi] at hk
      cases hk
  | joinPuller =>
    rw [(joinPuller_cases hu).2]
    refine h.work hthread hidle (.of_eq (by simp)) _ hnext (fun id k hk => by simpa using hk) fun k id hk hs => ?_
    simpa using h.entry k id (by simpa using hk) hs

/-- The review works on registered contexts, and those are not displaced. -/
lemma EntriesInv.review (h : s.EntriesInv) (same : SameProtoMessage) {configs : TreeMap Int AgentConfig}
    {rest : List ConfigOp} (hthread : s.configThread = .review configs :: rest) :
    let plan := s.pipeline.planBatch same (buildMergedStreams configs)
    EntriesInv { s with
      pipeline := { s.pipeline with contexts := plan.contexts, streams := plan.streams }
      configThread := plan.steps ++ rest } := by
  intro plan
  have hidle : s.registering = none := by rw [registering, hthread]
  have hex := examined_planBatch s.pipeline same (buildMergedStreams configs)
  have hinfo : ∀ k, PipelineState.info { s.pipeline with contexts := plan.contexts, streams := plan.streams } k =
      s.pipeline.info k := hex.info
  have hcurrent : ∀ (id : Bytes) (c : ContextId), s.pipeline.streams[id]? = some c → ¬s.Displaced c :=
    fun id c hc => (current_of_holds_none (hidle ▸ h.registered id c hc)).1
  refine h.work hthread hidle (.of_eq hinfo) _ (fun op hop => ?_) (fun id c hc => hex.kept id c hc) fun c id hc hs =>
    h.entry c id (hinfo c ▸ hc) hs
  simp only [BatchPlan.steps, List.mem_append, List.mem_map] at hop
  rcases hop with (⟨c, hc, rfl⟩ | ⟨u, hu, rfl⟩) | ⟨config, -, rfl⟩
  · obtain ⟨id, hreg⟩ := hex.stops c hc
    exact ⟨fun k hk => Option.some.inj hk ▸ hcurrent id c hreg, fun k => by simp⟩
  · obtain ⟨id, hreg⟩ := hex.updates u hu
    exact ⟨fun k hk => Option.some.inj hk ▸ hcurrent id u.1 hreg, fun k => by simp⟩
  · exact ⟨fun k hk => by simp [ConfigOp.context] at hk, fun k => by simp⟩

/-- An update writes the entry of the context's stream again, with the context's own buffer. -/
lemma EntriesInv.update (h : s.EntriesInv) (hwf : s.Wf) (same : SameProtoMessage) (ready : ContextId → Bool)
    {c : ContextId} {config : StreamConfig} {rest : List ConfigOp}
    (hthread : s.configThread = .update c config :: rest) :
    EntriesInv { s with pipeline := s.pipeline.updateStreamRuntime same ready c config, configThread := rest } := by
  have hmem : .update c config ∈ s.configThread := hthread ▸ List.mem_cons_self ..
  obtain ⟨id, flag, hi⟩ := hwf.built _ hmem c rfl
  refine h.work hthread (by rw [registering, hthread]) (.of_eq (by simp)) [] (by simp)
    (fun id k hk => by simpa using hk) fun k id' hk hs => ?_
  have hk : s.pipeline.info k = some (id', false) := by simpa using hk
  rw [PipelineState.updateStreamRuntime_scheduler same ready config hi, RoundRobinInferScheduler.upsertStream]
  dsimp only
  rw [lookup_insert]
  split
  · subst id'
    rw [eq_of_not_displaced (h.ops _ hmem c rfl) hi hk hs]
    exact ⟨_, rfl, rfl⟩
  · exact h.entry k id' hk hs

/-! ## Builds and registrations -/

lemma id_buildStreamContext (p : PipelineState) (ready : ContextId → Bool) (config : StreamConfig) (k : ContextId) :
    ((p.buildStreamContext ready config).2.info k).map Prod.fst =
      if k = p.contexts.length then some config.streamId else (p.info k).map Prod.fst := by
  rw [PipelineState.info_buildStreamContext]
  split <;> rfl

/-- The context that is built is the newest. -/
lemma not_superseded_build {ready : Bool} {config : StreamConfig}
    (hpipeline : t.pipeline = (s.pipeline.buildStreamContext (fun _ => ready) config).2) :
    ¬t.Superseded s.pipeline.contexts.length := by
  rintro ⟨c', id, hlt, -, hc'⟩
  rw [hpipeline, id_buildStreamContext, if_neg (Nat.ne_of_gt hlt)] at hc'
  exact Nat.lt_asymm hlt (lt_of_id hc')

/-- A context becomes superseded when it is of the stream that is built. -/
lemma superseded_build {ready : Bool} {config : StreamConfig}
    (hpipeline : t.pipeline = (s.pipeline.buildStreamContext (fun _ => ready) config).2) {c : ContextId}
    (h : t.Superseded c) : s.Superseded c ∨ (s.pipeline.info c).map Prod.fst = some config.streamId := by
  obtain ⟨c', id, hcc, hc, hc'⟩ := h
  rw [hpipeline, id_buildStreamContext] at hc hc'
  split at hc'
  · rename_i hnew
    rw [if_neg (Nat.ne_of_lt (Nat.lt_of_lt_of_eq hcc hnew))] at hc
    cases hc'
    exact .inr hc
  · rw [if_neg (Nat.ne_of_lt (Nat.lt_trans hcc (lt_of_id hc')))] at hc
    exact .inl ⟨c', id, hcc, hc, hc'⟩

lemma displaced_build {ready : Bool} {config : StreamConfig}
    (hpipeline : t.pipeline = (s.pipeline.buildStreamContext (fun _ => ready) config).2) {c : ContextId}
    (h : t.Displaced c) : s.Displaced c ∨ (s.pipeline.info c).map Prod.fst = some config.streamId := by
  obtain ⟨c', id, hcc, hc, hc'⟩ := h
  rw [hpipeline, PipelineState.info_buildStreamContext] at hc'
  rw [hpipeline, id_buildStreamContext] at hc
  split at hc'
  · rename_i hnew
    rw [if_neg (Nat.ne_of_lt (Nat.lt_of_lt_of_eq hcc hnew))] at hc
    cases hc'
    exact .inr hc
  · rw [if_neg (Nat.ne_of_lt (Nat.lt_trans hcc (PipelineState.Built.lt ⟨_, _, hc'⟩)))] at hc
    exact .inl ⟨c', id, hcc, hc, hc'⟩

/-- What the condition says of the older contexts of the stream that is built. -/
lemma unrequested_of_keepsEntries {config : StreamConfig} {rest : List ConfigOp} {ready : Bool}
    (hthread : s.configThread = .build config :: rest) (hguard : s.keepsEntries (.config ready) = true) (c : ContextId)
    (hc : (s.pipeline.info c).map Prod.fst = some config.streamId) :
    c ∉ s.pendingStopStreams ∧ s.requests[c]? = none := by
  simp only [keepsEntries, hthread, List.all_eq_true, List.mem_range, Bool.or_eq_true, bne_iff_ne, ne_eq,
    Bool.and_eq_true, Bool.not_eq_true', List.contains_eq_mem, decide_eq_false_iff_not] at hguard
  obtain ⟨hpending, hrequests⟩ := (hguard c (lt_of_id hc)).resolve_left fun hne => hne hc
  exact ⟨hpending, TreeMap.getElem?_eq_none_of_contains_eq_false hrequests⟩

/-- The registered context of the stream, if there is one, is about to be replaced by the one that is built. -/
lemma EntriesInv.holds_build (h : s.EntriesInv) (hwf : s.Wf) (hidle : s.registering = none) {config : StreamConfig}
    {ready : Bool} (hpipeline : t.pipeline = (s.pipeline.buildStreamContext (fun _ => ready) config).2) {id : Bytes}
    {c : ContextId} (hc : s.pipeline.streams[id]? = some c) : t.Holds (some s.pipeline.contexts.length) id c := by
  have hinfo := s.pipeline.info_buildStreamContext (fun _ => ready) config
  have hcurrent : s.Current c := current_of_holds_none (hidle ▸ h.registered id c hc)
  obtain ⟨flag, hi⟩ := hwf.registered id c hc
  by_cases hid : id = config.streamId
  · refine .inr ⟨s.pipeline.contexts.length, rfl, ?_, fun k hk hrunning => ?_⟩
    · rw [hpipeline, hinfo, if_pos rfl, hid]
      rfl
    · by_contra hne
      rw [hpipeline, hinfo, if_neg hne] at hrunning
      exact hcurrent.1 ⟨k, id, hk, by rw [hi]; rfl, hrunning⟩
  · have hother : (s.pipeline.info c).map Prod.fst ≠ some config.streamId := by simpa [hi] using hid
    have hle : s.pipeline.InfoLe t.pipeline := hpipeline ▸ .build s.pipeline (fun _ => ready) config
    refine .inl ⟨fun hd => ?_, hcurrent.2.imp (fun hflag => hflag.mono hle) fun hs hnew => ?_⟩
    · exact (displaced_build hpipeline hd).elim hcurrent.1 hother
    · exact (superseded_build hpipeline hnew).elim hs hother

/-- The context that is built gets the entry of its stream; the newest contexts of the others keep theirs. -/
lemma EntriesInv.entry_build (h : s.EntriesInv) {config : StreamConfig} {ready : Bool}
    (hpipeline : t.pipeline = (s.pipeline.buildStreamContext (fun _ => ready) config).2) {k : ContextId} {id : Bytes}
    (hk : t.pipeline.info k = some (id, false)) (hs : ¬t.Superseded k) :
    ∃ entry, t.pipeline.scheduler.entries[id]? = some entry ∧ entry.buffer = some k := by
  have hids : ∀ c, (t.pipeline.info c).map Prod.fst =
      if c = s.pipeline.contexts.length then some config.streamId else (s.pipeline.info c).map Prod.fst := fun c => by
    rw [hpipeline, id_buildStreamContext]
  rw [hpipeline, PipelineState.info_buildStreamContext] at hk
  rw [hpipeline]
  simp only [PipelineState.buildStreamContext, RoundRobinInferScheduler.upsertStream]
  rw [lookup_insert]
  split at hk
  · rename_i hnew
    cases hk
    rw [if_pos rfl]
    exact ⟨_, rfl, by rw [hnew]⟩
  · rename_i hne
    rw [if_neg]
    · refine h.entry k id hk ?_
      rintro ⟨c', id', hkc, hid, hid'⟩
      refine hs ⟨c', id', hkc, ?_, ?_⟩
      · rw [hids, if_neg hne]
        exact hid
      · rw [hids, if_neg (Nat.ne_of_lt (lt_of_id hid'))]
        exact hid'
    · rintro rfl
      have hlt : k < s.pipeline.contexts.length := PipelineState.Built.lt ⟨_, _, hk⟩
      refine hs ⟨s.pipeline.contexts.length, config.streamId, hlt, ?_, ?_⟩
      · rw [hids, if_neg hne, hk]
        rfl
      · rw [hids, if_pos rfl]

/-- Nothing is asked of the older contexts of the stream that is built. -/
lemma EntriesInv.build (h : s.EntriesInv) (hwf : s.Wf) {config : StreamConfig} {rest : List ConfigOp}
    (hthread : s.configThread = .build config :: rest) {ready : Bool}
    (hguard : s.keepsEntries (.config ready) = true) :
    EntriesInv { s with
      pipeline := (s.pipeline.buildStreamContext (fun _ => ready) config).2
      configThread := .check s.pipeline.contexts.length :: rest } := by
  have holder := unrequested_of_keepsEntries hthread hguard
  have hbuilds : ∀ op ∈ rest, ∃ config, op = .build config := by
    have horder := hwf.order
    rw [hthread] at horder
    exact fun op hop => (List.pairwise_cons.mp horder).1 op hop (.inl ⟨config, rfl⟩)
  refine ⟨fun c hc hd => ?_, fun c pc hc hd => ?_, fun op hop c hc hd => ?_, fun c hc hs => ?_,
    fun id c hc => h.holds_build hwf (by rw [registering, hthread]) rfl hc, fun k id hk hs => h.entry_build rfl hk hs⟩
  · rcases displaced_build rfl hd with hd | hid
    · exact h.pending c hc hd
    · exact (holder c hid).1 hc
  · rcases displaced_build rfl hd with hd | hid
    · exact h.requests c pc hc hd
    · cases hc.symm.trans (holder c hid).2
  · rcases List.mem_cons.mp hop with rfl | hop
    · cases hc
      exact not_superseded_build rfl hd.superseded
    · obtain ⟨config', rfl⟩ := hbuilds op hop
      cases hc
  · rcases hc with hop | hop
    · rcases List.mem_cons.mp hop with he | hop
      · cases he
        exact not_superseded_build rfl hs
      · obtain ⟨config', he⟩ := hbuilds _ hop
        cases he
    · obtain ⟨config', he⟩ := hbuilds _ ((List.mem_cons.mp hop).resolve_left ConfigOp.noConfusion)
      cases he

/-- A context that has been built is registered, unless it is flagged; then no other one of its stream is registered
without a flag. -/
lemma EntriesInv.check (h : s.EntriesInv) (hwf : s.Wf) {c : ContextId} {rest : List ConfigOp}
    (hthread : s.configThread = .check c :: rest) {same : SameProtoMessage} {ready : Bool}
    (hguard : s.keepsEntries (.config ready) = true) (hn : s.runConfigOp same ready (.check c) rest = some t) :
    t.EntriesInv := by
  have hmem : .check c ∈ s.configThread := hthread ▸ List.mem_cons_self ..
  have hrest : ∀ op ∈ rest, op ∈ s.configThread := fun op hop => hthread ▸ List.mem_cons_of_mem _ hop
  have hc : ¬s.Displaced c := h.ops _ hmem c rfl
  obtain ⟨id, flag, hi⟩ := hwf.built _ hmem c rfl
  have hregistering : s.registering = some c := by rw [registering, hthread]
  have hops : ∀ op', op'.context = some c → ∀ op ∈ op' :: rest, ∀ k, op.context = some k → ¬s.Displaced k := by
    intro op' hop' op hop k hk
    rcases List.mem_cons.mp hop with rfl | hop
    · cases hop'.symm.trans hk
      exact hc
    · exact h.ops op (hrest op hop) k hk
  obtain ⟨ops, rfl, ⟨rfl, hnone⟩ | ⟨rfl, id', hi'⟩ | ⟨rfl, -⟩⟩ := check_cases hn
  · cases hi.symm.trans hnone
  · cases hi.symm.trans hi'
    refine .step (.of_eq fun _ => rfl) h.pending h.requests (hops _ rfl) (fun k hk => ?_) (fun id' k hk => ?_) h.entry
    · refine h.newest k (hk.imp (fun hop => ?_) fun hop => ?_)
      · exact hrest _ ((List.mem_cons.mp hop).resolve_left ConfigOp.noConfusion)
      · exact hrest _ ((List.mem_cons.mp hop).resolve_left ConfigOp.noConfusion)
    · rcases h.registered id' k hk with hcurrent | ⟨c', hnext, hid, honly⟩
      · exact .inl hcurrent
      · obtain rfl : c = c' := Option.some.inj (hregistering.symm.trans hnext)
        obtain rfl : id = id' := Option.some.inj (by simpa [hi] using hid)
        obtain ⟨flag', hik⟩ := hwf.registered id k hk
        have hk : s.pipeline.streams[id]? = some k := hk
        simp only [keepsEntries, hthread, hi, hk, Option.all_some, hik, Option.map_some, Option.getD_some] at hguard
        subst flag'
        refine .inl ⟨?_, .inl ⟨id, hik⟩⟩
        rintro ⟨k', id', hlt, hid', hrunning⟩
        obtain rfl : id = id' := Option.some.inj (by simpa [hik] using hid')
        rw [honly k' hlt hrunning, hi] at hrunning
        cases hrunning
  · refine .step (.of_eq fun _ => rfl) h.pending h.requests (hops _ rfl) (fun k hk => ?_) (fun id' k hk => ?_) h.entry
    · rcases hk with hop | hop
      · exact h.newest k (.inl (hrest _ ((List.mem_cons.mp hop).resolve_left ConfigOp.noConfusion)))
      · rcases List.mem_cons.mp hop with he | hop
        · cases he
          exact h.newest c (.inl hmem)
        · exact h.newest k (.inr (hrest _ hop))
    · have hkept := h.registered id' k hk
      rw [hregistering] at hkept
      exact hkept

lemma EntriesInv.insert (h : s.EntriesInv) (hwf : s.Wf) {c : ContextId} {rest : List ConfigOp}
    (hthread : s.configThread = .insert c :: rest) :
    EntriesInv { s with pipeline := s.pipeline.insertStream c, configThread := rest } := by
  have hmem : .insert c ∈ s.configThread := hthread ▸ List.mem_cons_self ..
  have hrest : ∀ op ∈ rest, op ∈ s.configThread := fun op hop => hthread ▸ List.mem_cons_of_mem _ hop
  obtain ⟨id, flag, hi⟩ := hwf.built _ hmem c rfl
  have hregistering : s.registering = some c := by rw [registering, hthread]
  refine .step (.of_eq (by simp)) h.pending h.requests (fun op hop => h.ops op (hrest op hop))
    (fun k hk => h.newest k (hk.imp (hrest _) (hrest _))) (fun id' k hk => .inl ?_) fun k id' hk hs => ?_
  · dsimp only at hk
    rw [PipelineState.insertStream_streams hi, lookup_insert] at hk
    split at hk
    · cases hk
      exact ⟨h.ops _ hmem c rfl, .inr (h.newest c (.inr hmem))⟩
    · rename_i hne
      refine (h.registered id' k hk).resolve_right ?_
      rintro ⟨c', hnext, hid, -⟩
      obtain rfl : c = c' := Option.some.inj (hregistering.symm.trans hnext)
      exact hne (Option.some.inj (by simpa [hi] using hid))
  · simpa using h.entry k id' (by simpa using hk) hs

lemma EntriesInv.runConfigOp (h : s.EntriesInv) (hwf : s.Wf) {same : SameProtoMessage} {ready : Bool}
    {op : ConfigOp} {rest : List ConfigOp} (hthread : s.configThread = op :: rest)
    (hguard : s.keepsEntries (.config ready) = true) (hn : s.runConfigOp same ready op rest = some t) :
    t.EntriesInv := by
  cases op with
  | stop step c =>
    obtain ⟨u, hu, rfl⟩ := Option.map_eq_some_iff.mp hn
    exact h.stop hwf hthread hu
  | review configs =>
    cases hn
    exact h.review same hthread
  | update c config =>
    cases hn
    exact h.update hwf same (fun _ => ready) hthread
  | build config =>
    cases hn
    exact h.build hwf hthread hguard
  | check c => exact h.check hwf hthread hguard hn
  | insert c =>
    cases hn
    exact h.insert hwf hthread

/-! ## Beside the config thread -/

/-- What `mainLoop` takes is not displaced. -/
lemma EntriesInv.wake (h : s.EntriesInv) (hthread : s.configThread = []) (hn : s.wake = some t) : t.EntriesInv := by
  have hidle : s.registering = none := by rw [registering, hthread]
  rw [wake_cases hn]
  refine .step (.of_eq fun _ => rfl) (by simp) h.requests (fun op hop c hc => ?_) (fun c hc => ?_)
    (fun id c hc => .inl (current_of_holds_none (hidle ▸ h.registered id c hc))) h.entry
  · rcases List.mem_append.mp hop with hop | hop
    · obtain ⟨c', hc', rfl⟩ := List.mem_map.mp hop
      cases hc
      exact h.pending c hc'
    · split at hop
      · cases List.mem_singleton.mp hop
        cases hc
      · cases hop
  · dsimp only at hc
    split at hc <;> simp at hc

/-- No newer context of the stream runs when a context without a flag asks to be stopped. -/
lemma EntriesInv.requestExchange (h : s.EntriesInv) {c : ContextId}
    (hguard : s.keepsEntries (.requestExchange c) = true) (hn : s.requestExchange c = some t) : t.EntriesInv := by
  rcases requestExchange_cases hn with rfl | ⟨⟨id, hi⟩, -, -, rfl⟩
  · exact h
  · simp only [keepsEntries, hi, Option.map_some, Option.getD_some, Bool.false_or, Bool.not_eq_true'] at hguard
    refine h.beside (.raiseFlag s.pipeline c) rfl h.pending (fun k pc hk hd => ?_)
      (fun id k hk => by simpa using hk) (by simp)
    dsimp only at hk
    rw [lookup_insert] at hk
    split at hk
    · subst k
      rw [displaced_iff.mpr hd] at hguard
      cases hguard
    · exact h.requests k pc hk hd

lemma EntriesInv.requestErase (h : s.EntriesInv) (hwf : s.Wf) {c : ContextId}
    (hn : s.requestErase c = some t) : t.EntriesInv := by
  obtain ⟨hc, rfl⟩ := requestErase_cases hn
  obtain ⟨id, hi⟩ := hwf.requested c (hwf.requests c _ hc).1
  refine h.beside (.of_eq (by simp)) rfl h.pending (fun k pc hk => ?_) (fun id' k hk => ?_) (by simp)
  · dsimp only at hk
    rw [lookup_insert] at hk
    split at hk
    · subst k
      exact h.requests c _ hc
    · exact h.requests k pc hk
  · dsimp only at hk
    rw [PipelineState.eraseStream_streams hi] at hk
    split at hk
    · cases hk
    · exact hk

lemma EntriesInv.requestPush (h : s.EntriesInv) {c : ContextId} (hn : s.requestPush c = some t) : t.EntriesInv := by
  obtain ⟨hc, rfl⟩ := requestPush_cases hn
  refine h.beside (.of_eq fun _ => rfl) rfl (fun k hk => ?_) (fun k pc hk => ?_) (fun _ _ hk => hk) rfl
  · rcases List.mem_append.mp hk with hk | hk
    · exact h.pending k hk
    · rw [List.mem_singleton.mp hk]
      exact h.requests c _ hc
  · dsimp only at hk
    rw [lookup_erase] at hk
    split at hk
    · cases hk
    · exact h.requests k pc hk

lemma EntriesInv.next {same : SameProtoMessage} {agentId : Bytes} {a : ThreadAction} (h : s.EntriesInv)
    (hwf : s.Wf) (hguard : s.keepsEntries a = true) (hn : (threadSystem same agentId).next s a = some t) :
    t.EntriesInv := by
  cases a with
  | socketConfig cfg =>
    cases hn
    rcases handleSocketConfig_cases s agentId cfg with he | he
    · rw [he]
      exact h
    · rw [he]
      exact h.beside (.of_eq fun _ => rfl) rfl h.pending h.requests (fun _ _ hk => hk) rfl
  | wake =>
    obtain ⟨hthread, hn⟩ := next_wake hn
    exact h.wake hthread hn
  | config ready =>
    obtain ⟨op, rest, hthread, hn⟩ := next_config hn
    exact h.runConfigOp hwf hthread hguard hn
  | requestExchange c => exact h.requestExchange hguard hn
  | requestErase c => exact h.requestErase hwf hn
  | requestPush c => exact h.requestPush hn

lemma EntriesInv.init : EntriesInv {} := by
  refine ⟨by simp, by simp, by simp, by simp, fun id c hc => ?_, fun c id hc => ?_⟩
  · simp at hc
  · simp [PipelineState.info] at hc

lemma entriesInv_reachableWhen {same : SameProtoMessage} {agentId : Bytes}
    (h : (threadSystem same agentId).ReachableWhen (fun s a => s.keepsEntries a = true) s) : s.EntriesInv := by
  refine h.invariant_of (J := Wf) (fun t ht => wf_reachable (Machine.ReachableWhen.reachable ht)) .init
    fun t a u hwf ht hguard hn => ht.next hwf hguard hn

/-! ## Contexts that are built alone -/

/-- Every older context of the stream has been stopped and is not queued to be stopped again. -/
def buildsAlone (s : ThreadedState) : ThreadAction → Bool
  | .config _ =>
    match s.configThread with
    | .build config :: _ =>
      !s.pipeline.streams.contains config.streamId &&
        (List.range s.pipeline.contexts.length).all fun c =>
          (s.pipeline.info c).map Prod.fst != some config.streamId ||
            (s.pipeline.stopped.contains c && !s.pendingStopStreams.contains c)
    | _ => true
  | _ => true

/-- A step of the config thread builds a context, or keeps the contexts and what has been stopped. -/
lemma runConfigOp_builds_or_keeps (hwf : s.Wf) {same : SameProtoMessage} {ready : Bool} {op : ConfigOp}
    {rest : List ConfigOp} (hthread : s.configThread = op :: rest) (hn : s.runConfigOp same ready op rest = some t) :
    (Keeps s.pipeline t.pipeline ∧ s.pipeline.stopped ⊆ t.pipeline.stopped) ∨
      ∃ config, op = .build config ∧ t.pipeline = (s.pipeline.buildStreamContext (fun _ => ready) config).2 := by
  have hmem : op ∈ s.configThread := hthread ▸ List.mem_cons_self ..
  cases op with
  | stop step c =>
    obtain ⟨u, hu, rfl⟩ := Option.map_eq_some_iff.mp hn
    cases step with
    | raiseFlag =>
      cases hu
      exact .inl ⟨.raiseFlag s.pipeline c, by simp⟩
    | removeStream =>
      cases hu
      exact .inl ⟨.of_eq (by simp), by simp⟩
    | joinPuller =>
      rw [(joinPuller_cases hu).2]
      refine .inl ⟨.of_eq (by simp), fun k hk => ?_⟩
      dsimp only
      rw [PipelineState.closeStream_stopped (hwf.built _ hmem c rfl)]
      exact List.mem_append_left _ hk
  | review configs =>
    cases hn
    exact .inl ⟨.of_eq (examined_planBatch s.pipeline same (buildMergedStreams configs)).info, List.Subset.refl _⟩
  | update c config =>
    cases hn
    exact .inl ⟨.of_eq (by simp), by simp⟩
  | build config =>
    cases hn
    exact .inr ⟨config, rfl, rfl⟩
  | check c =>
    obtain ⟨ops, rfl, -⟩ := check_cases hn
    exact .inl ⟨.of_eq fun _ => rfl, List.Subset.refl _⟩
  | insert c =>
    cases hn
    exact .inl ⟨.of_eq (by simp), by simp⟩

/-- A step builds a context, or keeps the contexts and what has been stopped. -/
lemma next_builds_or_keeps (hwf : s.Wf) {same : SameProtoMessage} {agentId : Bytes} {a : ThreadAction}
    (hn : (threadSystem same agentId).next s a = some t) :
    (Keeps s.pipeline t.pipeline ∧ s.pipeline.stopped ⊆ t.pipeline.stopped) ∨
      ∃ ready config rest, a = .config ready ∧ s.configThread = .build config :: rest ∧
        t.pipeline = (s.pipeline.buildStreamContext (fun _ => ready) config).2 := by
  cases a with
  | socketConfig cfg =>
    cases hn
    rcases handleSocketConfig_cases s agentId cfg with he | he <;> rw [he] <;>
      exact .inl ⟨.of_eq fun _ => rfl, List.Subset.refl _⟩
  | wake =>
    rw [wake_cases (next_wake hn).2]
    exact .inl ⟨.of_eq fun _ => rfl, List.Subset.refl _⟩
  | config ready =>
    obtain ⟨op, rest, hthread, hn⟩ := next_config hn
    rcases runConfigOp_builds_or_keeps hwf hthread hn with hkeeps | ⟨config, rfl, hpipeline⟩
    · exact .inl hkeeps
    · exact .inr ⟨ready, config, rest, rfl, hthread, hpipeline⟩
  | requestExchange c =>
    rcases requestExchange_cases hn with rfl | ⟨-, -, -, rfl⟩
    · exact .inl ⟨.of_eq fun _ => rfl, List.Subset.refl _⟩
    · exact .inl ⟨.raiseFlag s.pipeline c, by simp⟩
  | requestErase c =>
    obtain ⟨-, rfl⟩ := requestErase_cases hn
    exact .inl ⟨.of_eq (by simp), by simp⟩
  | requestPush c =>
    obtain ⟨-, rfl⟩ := requestPush_cases hn
    exact .inl ⟨.of_eq fun _ => rfl, List.Subset.refl _⟩

/-- What the condition says of the older contexts of the stream. -/
lemma stopped_of_buildsAlone {config : StreamConfig} {rest : List ConfigOp} {ready : Bool}
    (hthread : s.configThread = .build config :: rest) (hguard : s.buildsAlone (.config ready) = true) (c : ContextId)
    (hc : (s.pipeline.info c).map Prod.fst = some config.streamId) :
    c ∈ s.pipeline.stopped ∧ c ∉ s.pendingStopStreams := by
  simp only [buildsAlone, hthread, Bool.and_eq_true, Bool.not_eq_true', List.all_eq_true, List.mem_range,
    Bool.or_eq_true, bne_iff_ne, ne_eq, List.contains_eq_mem, decide_eq_true_eq, decide_eq_false_iff_not] at hguard
  exact (hguard.2 c (lt_of_id hc)).resolve_left fun hne => hne hc

lemma stopped_of_superseded {same : SameProtoMessage} {agentId : Bytes}
    (h : (threadSystem same agentId).ReachableWhen (fun s a => s.buildsAlone a = true) s) :
    ∀ c, s.Superseded c → c ∈ s.pipeline.stopped := by
  refine h.invariant_of (I := fun s => ∀ c, s.Superseded c → c ∈ s.pipeline.stopped) (J := Wf)
    (fun t ht => wf_reachable (Machine.ReachableWhen.reachable ht)) ?_ fun t a u hwf ht hguard hn c hc => ?_
  · rintro c ⟨c', id, -, hc, -⟩
    simp [threadSystem, PipelineState.info] at hc
  · rcases next_builds_or_keeps hwf hn with ⟨hkeeps, hstopped⟩ | ⟨ready, config, rest, rfl, hthread, hpipeline⟩
    · exact hstopped (ht c ((superseded_congr hkeeps c).mp hc))
    · rw [hpipeline]
      rcases superseded_build hpipeline hc with hold | hid
      · exact ht c hold
      · exact (stopped_of_buildsAlone hthread hguard c hid).1

/-- A context with a newer one of its stream is flagged where it must have been stopped. -/
lemma flagged_of_older (hwf : s.Wf) (hstopped : ∀ c, s.Superseded c → c ∈ s.pipeline.stopped) {k k' : ContextId}
    {id : Bytes} {flag flag' : Bool} (hlt : k < k') (hk : s.pipeline.info k = some (id, flag))
    (hk' : s.pipeline.info k' = some (id, flag')) : flag = true := by
  have hs : s.Superseded k := ⟨k', id, hlt, by rw [hk]; rfl, by rw [hk']; rfl⟩
  obtain ⟨id', hflagged⟩ := hwf.stopped k (hstopped k hs)
  cases hk.symm.trans hflagged
  rfl

/-- A context that is found flagged after it was built is the only one of its stream that may be without a flag. -/
lemma EntriesInv.keepsEntries_check (h : s.EntriesInv) (hwf : s.Wf)
    (hstopped : ∀ c, s.Superseded c → c ∈ s.pipeline.stopped) {c : ContextId} {rest : List ConfigOp}
    (hthread : s.configThread = .check c :: rest) (ready : Bool) : s.keepsEntries (.config ready) = true := by
  have hmem : .check c ∈ s.configThread := hthread ▸ List.mem_cons_self ..
  obtain ⟨id, flag, hi⟩ := hwf.built _ hmem c rfl
  cases flag with
  | false => simp [keepsEntries, hthread, hi]
  | true =>
    cases hreg : s.pipeline.streams[id]? with
    | none => simp [keepsEntries, hthread, hi, hreg]
    | some k =>
      obtain ⟨flag, hik⟩ := hwf.registered id k hreg
      suffices hflag : flag = true by simp [keepsEntries, hthread, hi, hreg, hik, hflag]
      rcases Nat.lt_trichotomy k c with hlt | rfl | hgt
      · exact flagged_of_older hwf hstopped hlt hik hi
      · cases hik.symm.trans hi
        rfl
      · exact absurd ⟨k, id, hgt, by rw [hi]; rfl, by rw [hik]; rfl⟩ (h.newest c (.inl hmem))

/-- Where every context is built alone, an older one of its stream is stopped and has nothing left to ask for. -/
lemma EntriesInv.keepsEntries (h : s.EntriesInv) (hwf : s.Wf)
    (hstopped : ∀ c, s.Superseded c → c ∈ s.pipeline.stopped) {same : SameProtoMessage} {agentId : Bytes}
    {a : ThreadAction} (hguard : s.buildsAlone a = true) (hn : (threadSystem same agentId).next s a = some t) :
    s.keepsEntries a = true := by
  cases a with
  | config ready =>
    obtain ⟨op, rest, hthread, hn⟩ := next_config hn
    cases op with
    | build config =>
      simp only [ThreadedState.keepsEntries, hthread, List.all_eq_true, List.mem_range, Bool.or_eq_true, bne_iff_ne,
        ne_eq, Bool.and_eq_true, Bool.not_eq_true', List.contains_eq_mem, decide_eq_false_iff_not]
      intro c _
      by_cases hid : (s.pipeline.info c).map Prod.fst = some config.streamId
      · obtain ⟨hdone, hpending⟩ := stopped_of_buildsAlone hthread hguard c hid
        refine .inr ⟨hpending, ?_⟩
        by_contra hrequest
        rw [Bool.not_eq_false, TreeMap.contains_eq_isSome_getElem?] at hrequest
        obtain ⟨pc, hpc⟩ := Option.isSome_iff_exists.mp hrequest
        exact (hwf.requests c pc hpc).2 hdone
      · exact .inl hid
    | check c => exact h.keepsEntries_check hwf hstopped hthread ready
    | _ => simp [ThreadedState.keepsEntries, hthread]
  | requestExchange c =>
    cases hdisplaced : s.displaced c with
    | false => simp [ThreadedState.keepsEntries, hdisplaced]
    | true =>
      obtain ⟨id, hflagged⟩ := hwf.stopped c (hstopped c (displaced_iff.mp hdisplaced).superseded)
      simp [ThreadedState.keepsEntries, hflagged]
  | _ => rfl

lemma keepsEntries_of_buildsAlone {same : SameProtoMessage} {agentId : Bytes}
    (h : (threadSystem same agentId).ReachableWhen (fun s a => s.buildsAlone a = true) s) :
    (threadSystem same agentId).ReachableWhen (fun s a => s.keepsEntries a = true) s := by
  induction h with
  | refl => exact .refl
  | step hr hguard hn ih =>
    have hwf := wf_reachable (Machine.ReachableWhen.reachable hr)
    exact .step ih ((entriesInv_reachableWhen ih).keepsEntries hwf (stopped_of_superseded hr) hguard hn) hn

/-- The invariant says so of the states in which `mainLoop` is idle. -/
lemma EntriesInv.entriesServed (h : s.EntriesInv) : s.EntriesServed := by
  intro hidle id c stream hc hstream hflag
  have hregistering : s.registering = none := by rw [registering, hidle.1]
  obtain ⟨-, hnewest⟩ := current_of_holds_none (hregistering ▸ h.registered id c hc)
  have hrunning : s.pipeline.info c = some (stream.streamId, false) := by simp [PipelineState.info, hstream, hflag]
  refine h.entry c stream.streamId hrunning (hnewest.resolve_left ?_)
  rintro ⟨id', hflagged⟩
  cases hrunning.symm.trans hflagged

end ThreadedState

/-- As long as every step meets the condition, each registered context without a stop flag has an entry with its own
buffer whenever `mainLoop` is idle. -/
theorem entriesServed_of_keepsEntries {same : SameProtoMessage} {agentId : Bytes} {s : ThreadedState}
    (h : (threadSystem same agentId).ReachableWhen (fun s a => s.keepsEntries a = true) s) : s.EntriesServed :=
  (ThreadedState.entriesInv_reachableWhen h).entriesServed

/-- It is enough that every context is built alone. -/
theorem entriesServed_of_buildsAlone {same : SameProtoMessage} {agentId : Bytes} {s : ThreadedState}
    (h : (threadSystem same agentId).ReachableWhen (fun s a => s.buildsAlone a = true) s) : s.EntriesServed :=
  (ThreadedState.entriesInv_reachableWhen (ThreadedState.keepsEntries_of_buildsAlone h)).entriesServed

/-- The stream gets another source, so two contexts are built for it one after the other, and the second one is stopped on
request and started again. -/
theorem entriesServed_of_keepsEntries_newSource :
    ∃ s, (threadSystem structuralEquality []).ReachableWhen (fun s a => s.keepsEntries a = true) s ∧
      s.pipeline.streams[([0x53] : Bytes)]? = some 3 ∧ s.EntriesServed := by
  obtain ⟨s, hs, hp⟩ := Machine.reachableWhen_of_exec_any (threadSystem structuralEquality [])
    ThreadedState.keepsEntries
    (runToInsert ++ .config true :: .socketConfig (republishedStream [3]) :: .wake ::
      List.replicate 10 (.config true) ++ [.requestExchange 2, .requestErase 2, .requestPush 2] ++ processStop ++
      [.socketConfig (republishedStream [3]), .wake, .config true, .config true, .config true, .config true])
    (fun s => decide (s.pipeline.streams[([0x53] : Bytes)]? = some 3)) (by decide)
  exact ⟨s, hs, of_decide_eq_true hp, entriesServed_of_keepsEntries hs⟩

/-- A request erases the first context, a configuration builds a second one, and the stop of the first
context then takes the entry of the second away. -/
theorem not_entriesServed_after_restart :
    ∃ s, (threadSystem structuralEquality []).Reachable s ∧ s.Idle ∧
      s.pipeline.streams[([0x53] : Bytes)]? = some 1 ∧
      (∃ stream, s.pipeline.contexts[1]? = some stream ∧ stream.streamId = [0x53] ∧ stream.stopFlag = false) ∧
      s.pipeline.scheduler.entries[([0x53] : Bytes)]? = none ∧ ¬s.EntriesServed := by
  obtain ⟨s, hs, hp⟩ := Machine.reachable_of_exec_any (threadSystem structuralEquality [])
    (runToInsert ++ [.config true, .requestExchange 0, .requestErase 0, .socketConfig (republishedStream [1]),
      .wake, .config true, .config true, .config true, .config true, .requestPush 0] ++ processStop)
    (fun s => decide (s.configThread.length = 0 ∧ s.hasPendingConfig = false ∧ s.pendingStopStreams = [] ∧
      s.pipeline.streams[([0x53] : Bytes)]? = some 1 ∧ s.pipeline.info 1 = some ([0x53], false)) &&
      (s.pipeline.scheduler.entries[([0x53] : Bytes)]?).isNone) (by decide)
  rw [Bool.and_eq_true, Option.isNone_iff_eq_none] at hp
  obtain ⟨hidle, hpending, hstops, hreg, hi⟩ := of_decide_eq_true hp.1
  obtain ⟨stream, hstream, he⟩ := Option.map_eq_some_iff.mp hi
  obtain ⟨hid, hflag⟩ := Prod.mk.inj he
  have hidle : s.Idle := ⟨List.eq_nil_of_length_eq_zero hidle, hpending, hstops⟩
  refine ⟨s, hs, hidle, hreg, ⟨stream, hstream, hid, hflag⟩, hp.2, fun h => ?_⟩
  obtain ⟨entry, hentry, -⟩ := h hidle _ 1 stream hreg hstream hflag
  rw [hid, hp.2] at hentry
  cases hentry

end MediaAgent
