import MediaAgent.ContextAccounting

/-!
# The pipeline follows its configuration

With messages compared by structural equality, a call of `applyConfigBatch` leaves exactly the
desired streams registered, each with the configuration that is desired for it. A stream whose
transport fields are those it has keeps its context, and a second call changes nothing.
-/

namespace MediaAgent
open Std TreeMaps Transition

/-! ## Structural equality -/

lemma sameAlgorithms_iff (lhs rhs : List AlgorithmConfig) :
    sameAlgorithms structuralEquality lhs rhs = true ↔ lhs = rhs := by
  induction lhs generalizing rhs with
  | nil => cases rhs <;> simp [sameAlgorithms]
  | cons a lhs ih =>
    cases rhs with
    | nil => simp [sameAlgorithms]
    | cons b rhs =>
      have hrest := ih rhs
      simp only [sameAlgorithms, structuralEquality, Bool.and_eq_true, beq_iff_eq] at hrest
      simp only [sameAlgorithms, structuralEquality, List.length_cons, List.zip_cons_cons, List.all_cons,
        Bool.and_eq_true, beq_iff_eq, Nat.add_right_cancel_iff, List.cons.injEq, ← hrest]
      exact and_left_comm

lemma isSameTransportStreamConfig_iff (lhs rhs : StreamConfig) :
    isSameTransportStreamConfig lhs rhs = true ↔
      makeTransportStreamConfigView lhs = makeTransportStreamConfigView rhs := by
  simp [isSameTransportStreamConfig]

lemma sameRuntimeView_iff (lhs rhs : StreamConfig) :
    (makeDetectorRuntimeConfigView lhs).same structuralEquality (makeDetectorRuntimeConfigView rhs) = true ↔
      lhs.alarmDedupIntervalS = rhs.alarmDedupIntervalS ∧ lhs.algorithms = rhs.algorithms ∧
        lhs.tracker = rhs.tracker := by
  have halgorithms := sameAlgorithms_iff lhs.algorithms rhs.algorithms
  by_cases hdedup : lhs.alarmDedupIntervalS = rhs.alarmDedupIntervalS
  · cases hsame : sameAlgorithms structuralEquality lhs.algorithms rhs.algorithms with
    | true =>
      have heq := halgorithms.mp hsame
      rw [heq] at hsame
      have htracker : ∀ t t', structuralEquality.tracker t t' = true ↔ t = t' := by simp [structuralEquality]
      cases hl : lhs.tracker <;> cases hr : rhs.tracker <;>
        simp [DetectorRuntimeConfigView.same, makeDetectorRuntimeConfigView, hdedup, heq, hl, hr, hsame, htracker]
    | false =>
      have hne : ¬lhs.algorithms = rhs.algorithms := fun he => by
        rw [halgorithms.mpr he] at hsame
        cases hsame
      simp [DetectorRuntimeConfigView.same, makeDetectorRuntimeConfigView, hdedup, hsame, hne]
  · simp [DetectorRuntimeConfigView.same, makeDetectorRuntimeConfigView, hdedup]

/-- The views together see every field. -/
lemma isSameRuntimeStreamConfig_iff (lhs rhs : StreamConfig) :
    isSameRuntimeStreamConfig structuralEquality lhs rhs = true ↔ lhs = rhs := by
  rw [isSameRuntimeStreamConfig, Bool.and_eq_true, isSameTransportStreamConfig_iff, sameRuntimeView_iff]
  cases lhs
  cases rhs
  simp only [makeTransportStreamConfigView, TransportStreamConfigView.mk.injEq, StreamConfig.mk.injEq]
  tauto

lemma hasDetectorConfigChanged_iff (lhs rhs : StreamConfig) :
    hasDetectorConfigChanged structuralEquality lhs rhs = false ↔ lhs.algorithms = rhs.algorithms := by
  simp [hasDetectorConfigChanged, DetectorConfigView.same, makeDetectorConfigView, sameAlgorithms_iff]

/-! ## What a context runs with -/

/-- The detector was created for the algorithms of the configuration beside it. -/
def DetectorRuntimeEntry.UpToDate (entry : DetectorRuntimeEntry) : Prop :=
  ∀ config, entry.detector = some config → config.algorithms = entry.config.algorithms

/-- The context runs with a configuration: its transport fields, its runtime configuration and the
configuration that its detector is called with. -/
structure StreamContext.RunsWith (stream : StreamContext) (config : StreamConfig) : Prop where
  transport : makeTransportStreamConfigView stream.transportConfig = makeTransportStreamConfigView config
  runtime : stream.runtimeConfig = config
  detectorRuntime : stream.detectorRuntime.config = config
  detector : stream.detectorRuntime.UpToDate

/-- Every registered context is registered under its id, has not been stopped, and runs with its
runtime configuration. -/
def Configured (s : PipelineState) : Prop :=
  ∀ (id : Bytes) (c : ContextId), s.streams[id]? = some c →
    c ∉ s.stopped ∧ ∃ stream, s.contexts[c]? = some stream ∧ stream.streamId = id ∧
      stream.RunsWith stream.runtimeConfig

lemma makeDetector_upToDate (ready : Bool) (config : StreamConfig) :
    DetectorRuntimeEntry.UpToDate ⟨config, makeDetector ready config⟩ := by
  intro config' h
  simp only [makeDetector, Option.ite_none_right_eq_some, Option.some.injEq] at h
  rw [h.2]

/-! ## The review -/

section review

variable {s : PipelineState} {desiredStreams : TreeMap Bytes StreamConfig}
  {done : List (Bytes × ContextId)} {plan : BatchPlan} {entry : Bytes × ContextId}

/-- What the review has decided for the entries `done`, and has left as it was for the others. -/
structure Decided (s : PipelineState) (desiredStreams : TreeMap Bytes StreamConfig)
    (done : List (Bytes × ContextId)) (plan : BatchPlan) : Prop where
  contexts : ∀ c : ContextId, (∀ e ∈ done, e.2 ≠ c) → plan.contexts[c]? = s.contexts[c]?
  streams : ∀ id : Bytes, (∀ e ∈ done, e.1 ≠ id) → plan.streams[id]? = s.streams[id]?
  stops : ∀ c ∈ plan.streamsToStop, ∃ e ∈ done, e.2 = c ∧
    ∀ desired stream, desiredStreams[e.1]? = some desired → s.contexts[e.2]? = some stream →
      isSameTransportStreamConfig stream.transportConfig desired = false
  updates : ∀ u ∈ plan.runtimeUpdates, ∃ e ∈ done, e.2 = u.1 ∧ desiredStreams[e.1]? = some u.2
  keeps : ∀ e ∈ done, ∀ desired stream, desiredStreams[e.1]? = some desired →
    s.contexts[e.2]? = some stream →
    isSameTransportStreamConfig stream.transportConfig desired = true →
      plan.streams[e.1]? = some e.2 ∧
        plan.contexts[e.2]? = some { stream with runtimeConfig := desired } ∧
        (stream.runtimeConfig ≠ desired → (e.2, desired) ∈ plan.runtimeUpdates)
  drops : ∀ e ∈ done, desiredStreams[e.1]? = none → plan.streams[e.1]? = none

/-- The entry is for another stream and another context than those decided so far. -/
def Apart (done : List (Bytes × ContextId)) (entry : Bytes × ContextId) : Prop :=
  ∀ e ∈ done, e.1 ≠ entry.1 ∧ e.2 ≠ entry.2

lemma Decided.remove (h : Decided s desiredStreams done plan) (hapart : Apart done entry)
    (hnot : ∀ desired stream, desiredStreams[entry.1]? = some desired →
      s.contexts[entry.2]? = some stream →
      isSameTransportStreamConfig stream.transportConfig desired = false)
    (streamsToStart : List StreamConfig) :
    Decided s desiredStreams (done ++ [entry])
      { plan with
        streamsToStop := plan.streamsToStop ++ [entry.2]
        streams := plan.streams.erase entry.1
        streamsToStart := streamsToStart } := by
  refine ⟨fun c hc => h.contexts c fun e he => hc e (List.mem_append_left _ he), fun id hid => ?_,
    fun c hc => ?_, fun u hu => ?_, fun e he desired stream hd hs hsame => ?_, fun e he hd => ?_⟩
  · rw [lookup_erase, if_neg (hid entry (by simp))]
    exact h.streams id fun e he => hid e (List.mem_append_left _ he)
  · rcases List.mem_append.mp hc with hc | hc
    · obtain ⟨e, he, hec⟩ := h.stops c hc
      exact ⟨e, List.mem_append_left _ he, hec⟩
    · exact ⟨entry, by simp, (List.mem_singleton.mp hc).symm, hnot⟩
  · obtain ⟨e, he, heu⟩ := h.updates u hu
    exact ⟨e, List.mem_append_left _ he, heu⟩
  · rcases List.mem_append.mp he with he | he
    · dsimp only
      rw [lookup_erase, if_neg (Ne.symm (hapart e he).1)]
      exact h.keeps e he desired stream hd hs hsame
    · rw [List.mem_singleton.mp he] at hd hs
      rw [hnot desired stream hd hs] at hsame
      cases hsame
  · dsimp only
    rw [lookup_erase]
    rcases List.mem_append.mp he with he | he
    · rw [h.drops e he hd, ite_self]
    · rw [List.mem_singleton.mp he, if_pos rfl]

lemma Decided.keep (h : Decided s desiredStreams done plan) (hapart : Apart done entry)
    {desired : StreamConfig} {stream : StreamContext} (hdesired : desiredStreams[entry.1]? = some desired)
    (hstream : s.contexts[entry.2]? = some stream) (hentry : s.streams[entry.1]? = some entry.2)
    {contexts : List StreamContext} {runtimeUpdates : List (ContextId × StreamConfig)}
    (hcontexts : ∀ c : ContextId, c ≠ entry.2 → contexts[c]? = plan.contexts[c]?)
    (hown : contexts[entry.2]? = some { stream with runtimeConfig := desired })
    (hold : ∀ u ∈ plan.runtimeUpdates, u ∈ runtimeUpdates)
    (hnew : ∀ u ∈ runtimeUpdates, u ∈ plan.runtimeUpdates ∨ u = (entry.2, desired))
    (hupdate : stream.runtimeConfig ≠ desired → (entry.2, desired) ∈ runtimeUpdates) :
    Decided s desiredStreams (done ++ [entry])
      { plan with contexts := contexts, runtimeUpdates := runtimeUpdates } := by
  refine ⟨fun c hc => ?_, fun id hid => h.streams id fun e he => hid e (List.mem_append_left _ he),
    fun c hc => ?_, fun u hu => ?_, fun e he desired' stream' hd hs hsame => ?_, fun e he hd => ?_⟩
  · rw [hcontexts c (Ne.symm (hc entry (by simp)))]
    exact h.contexts c fun e he => hc e (List.mem_append_left _ he)
  · obtain ⟨e, he, hec⟩ := h.stops c hc
    exact ⟨e, List.mem_append_left _ he, hec⟩
  · rcases hnew u hu with hu | rfl
    · obtain ⟨e, he, heu⟩ := h.updates u hu
      exact ⟨e, List.mem_append_left _ he, heu⟩
    · exact ⟨entry, by simp, rfl, hdesired⟩
  · rcases List.mem_append.mp he with he | he
    · obtain ⟨hstreams, hcontext, hupdates⟩ := h.keeps e he desired' stream' hd hs hsame
      exact ⟨hstreams, (hcontexts e.2 (hapart e he).2).trans hcontext, fun hne => hold _ (hupdates hne)⟩
    · rw [List.mem_singleton.mp he] at hd hs ⊢
      rw [hdesired, Option.some.injEq] at hd
      rw [hstream, Option.some.injEq] at hs
      subst desired' stream'
      refine ⟨?_, hown, hupdate⟩
      exact (h.streams entry.1 fun e he => (hapart e he).1).trans hentry
  · rcases List.mem_append.mp he with he | he
    · exact h.drops e he hd
    · rw [List.mem_singleton.mp he, hdesired] at hd
      cases hd

lemma Decided.reviewStream (h : Decided s desiredStreams done plan) (hapart : Apart done entry)
    (hentry : s.streams[entry.1]? = some entry.2) {stream : StreamContext}
    (hstream : s.contexts[entry.2]? = some stream) :
    Decided s desiredStreams (done ++ [entry])
      (reviewStream structuralEquality desiredStreams plan entry) := by
  have hcontext : plan.contexts[entry.2]? = some stream :=
    (h.contexts entry.2 fun e he => (hapart e he).2).trans hstream
  unfold MediaAgent.reviewStream
  rw [hcontext]
  dsimp only
  cases hdesired : desiredStreams[entry.1]? with
  | none => exact h.remove hapart (fun desired _ hd => by rw [hdesired] at hd; cases hd) _
  | some desired =>
    dsimp only
    cases hsame : isSameTransportStreamConfig stream.transportConfig desired with
    | false =>
      refine h.remove hapart (fun desired' stream' hd hs => ?_) _
      rw [hdesired, Option.some.injEq] at hd
      rw [hstream, Option.some.injEq] at hs
      subst desired' stream'
      exact hsame
    | true =>
      simp only [Bool.not_true, Bool.false_eq_true, ite_false]
      cases hruntime : isSameRuntimeStreamConfig structuralEquality stream.runtimeConfig desired with
      | true =>
        have heq := (isSameRuntimeStreamConfig_iff _ _).mp hruntime
        have hown : plan.contexts[entry.2]? = some { stream with runtimeConfig := desired } := by
          rw [hcontext, ← heq]
        exact h.keep hapart hdesired hstream hentry (fun _ _ => rfl) hown (fun _ hu => hu)
          (fun _ hu => .inl hu) fun hne => absurd heq hne
      | false =>
        have hlt := (List.getElem?_eq_some_iff.mp hcontext).1
        refine h.keep hapart hdesired hstream hentry (fun c hc => List.getElem?_set_ne (Ne.symm hc))
          (List.getElem?_set_self hlt) (fun u hu => List.mem_append_left _ hu) (fun u hu => ?_) fun _ => ?_
        · exact (List.mem_append.mp hu).imp_right List.mem_singleton.mp
        · exact List.mem_append_right _ (List.mem_singleton.mpr rfl)

lemma decided_foldl (h : Decided s desiredStreams done plan) (l : List (Bytes × ContextId))
    (hl : ∀ e ∈ done ++ l, s.streams[e.1]? = some e.2 ∧
      ∃ stream, s.contexts[e.2]? = some stream ∧ stream.streamId = e.1)
    (hkeys : ((done ++ l).map (·.1)).Nodup) :
    Decided s desiredStreams (done ++ l) (l.foldl (reviewStream structuralEquality desiredStreams) plan) := by
  induction l generalizing done plan with
  | nil => rwa [List.append_nil]
  | cons e l ih =>
    obtain ⟨hentry, stream, hstream, hid⟩ := hl e (by simp)
    have hapart : Apart done e := by
      intro e' he'
      rw [List.map_append, List.map_cons] at hkeys
      have hne : e'.1 ≠ e.1 :=
        (List.nodup_append.mp hkeys).2.2 _ (List.mem_map_of_mem he') _ (List.mem_cons_self ..)
      refine ⟨hne, fun hc => hne ?_⟩
      obtain ⟨-, stream', hstream', hid'⟩ := hl e' (List.mem_append_left _ he')
      rw [hc, hstream, Option.some.injEq] at hstream'
      rw [← hid, ← hid', hstream']
    have happend : done ++ e :: l = done ++ [e] ++ l := by simp
    rw [happend] at hl hkeys ⊢
    exact ih (h.reviewStream hapart hentry hstream) hl hkeys

end review

/-! ## The calls that carry out the plan -/

namespace PipelineState

lemma foldl_stopStream_lookup {s : PipelineState} {l : List ContextId} {c : ContextId} (hc : c ∉ l) :
    (l.foldl stopStream s).contexts[c]? = s.contexts[c]? := by
  induction l generalizing s with
  | nil => rfl
  | cons c' l ih =>
    simp only [List.mem_cons, not_or] at hc
    obtain ⟨hne, hc⟩ := hc
    rw [List.foldl_cons, ih hc]
    unfold stopStream
    split
    · rfl
    · exact List.getElem?_set_ne (Ne.symm hne)

/-- The updates of one context, all to the same configuration, change its detector runtime only. -/
lemma foldl_updateStreamRuntime_lookup {s : PipelineState} (ready : ContextId → Bool)
    {l : List (ContextId × StreamConfig)} {c : ContextId} {desired : StreamConfig}
    (hall : ∀ u ∈ l, u.1 = c → u.2 = desired) {stream : StreamContext} (hstream : s.contexts[c]? = some stream)
    (hdetector : stream.detectorRuntime.UpToDate) :
    ∃ entry : DetectorRuntimeEntry, entry.UpToDate ∧
      (l.foldl (fun s u => s.updateStreamRuntime structuralEquality ready u.1 u.2) s).contexts[c]? =
        some { stream with detectorRuntime := entry } ∧
      (entry.config = desired ∨ (∀ u ∈ l, u.1 ≠ c) ∧ entry = stream.detectorRuntime) := by
  induction l generalizing s stream with
  | nil => exact ⟨stream.detectorRuntime, hdetector, hstream, .inr ⟨by simp, rfl⟩⟩
  | cons u l ih =>
    have hrest : ∀ u ∈ l, u.1 = c → u.2 = desired := fun u hu => hall u (List.mem_cons_of_mem _ hu)
    rw [List.foldl_cons]
    by_cases hu : u.1 = c
    · have hdesired := hall u (List.mem_cons_self ..) hu
      have hlt := (List.getElem?_eq_some_iff.mp hstream).1
      obtain ⟨entry, hconfig, hentry, hlookup⟩ : ∃ entry : DetectorRuntimeEntry, entry.config = desired ∧
          entry.UpToDate ∧ (s.updateStreamRuntime structuralEquality ready u.1 u.2).contexts[c]? =
            some { stream with detectorRuntime := entry } := by
        rw [hu, hdesired, updateStreamRuntime, hstream]
        refine ⟨_, rfl, ?_, List.getElem?_set_self hlt⟩
        split
        · exact makeDetector_upToDate _ _
        · rename_i hsame
          intro config hc
          have halgorithms := (hasDetectorConfigChanged_iff _ _).mp (Bool.eq_false_iff.mpr hsame)
          exact (hdetector config hc).trans halgorithms
      obtain ⟨entry', hentry', hlookup', hor⟩ := ih hrest hlookup hentry
      refine ⟨entry', hentry', hlookup', .inl ?_⟩
      rcases hor with he | ⟨-, he⟩
      · exact he
      · rw [he, hconfig]
    · have hlookup : (s.updateStreamRuntime structuralEquality ready u.1 u.2).contexts[c]? = some stream := by
        rw [← hstream, updateStreamRuntime]
        split
        · rfl
        · exact List.getElem?_set_ne hu
      obtain ⟨entry, hentry, hlookup', hor⟩ := ih hrest hlookup hdetector
      refine ⟨entry, hentry, hlookup', hor.imp_right fun h => ⟨fun u' hu' => ?_, h.2⟩⟩
      rcases List.mem_cons.mp hu' with rfl | hu'
      · exact hu
      · exact h.1 u' hu'

/-- The context that `startStream` builds. -/
def builtContext (ready : Bool) (config : StreamConfig) : StreamContext where
  streamId := config.streamId
  transportConfig := makeTransportStreamConfig config
  runtimeConfig := config
  detectorRuntime := { config := config, detector := makeDetector ready config }

lemma builtContext_runsWith (ready : Bool) (config : StreamConfig) :
    (builtContext ready config).RunsWith config :=
  ⟨rfl, rfl, rfl, makeDetector_upToDate ready config⟩

lemma startStream_contexts (ready : ContextId → Bool) (s : PipelineState) (config : StreamConfig) :
    (startStream ready s config).contexts =
      s.contexts ++ [builtContext (ready s.contexts.length) config] := by
  simp [startStream, buildStreamContext, builtContext]

/-- Starting streams keeps the contexts that are there. What is registered afterwards was so before,
or is a context built for a configuration of the list. -/
lemma foldl_startStream_lookup (ready : ContextId → Bool) (s : PipelineState) (l : List StreamConfig) :
    let t := l.foldl (startStream ready) s
    (∀ c : ContextId, c < s.contexts.length → t.contexts[c]? = s.contexts[c]?) ∧
    (∀ (c : ContextId) (stream : StreamContext), s.contexts.length ≤ c → t.contexts[c]? = some stream →
      ∃ config ∈ l, stream.streamId = config.streamId) ∧
    ∀ (id : Bytes) (c : ContextId), t.streams[id]? = some c → s.streams[id]? = some c ∨
      s.contexts.length ≤ c ∧ ∃ config ∈ l, config.streamId = id ∧
        ∃ stream, t.contexts[c]? = some stream ∧ stream.streamId = id ∧ stream.RunsWith config := by
  induction l generalizing s with
  | nil =>
    refine ⟨fun _ _ => rfl, fun c stream hle hc => ?_, fun id c hc => .inl hc⟩
    exact absurd (List.getElem?_eq_some_iff.mp hc).1 (Nat.not_lt.mpr hle)
  | cons config l ih =>
    have hcontexts := startStream_contexts ready s config
    have hstreams := (startStream_eq ready s config).2.1
    have hlen : (startStream ready s config).contexts.length = s.contexts.length + 1 := by
      simp [hcontexts]
    obtain ⟨hold, hnew, hreg⟩ := ih (startStream ready s config)
    have hbuilt : (l.foldl (startStream ready) (startStream ready s config)).contexts[s.contexts.length]? =
        some (builtContext (ready s.contexts.length) config) := by
      rw [hold _ (Nat.lt_of_lt_of_eq (Nat.lt_succ_self _) hlen.symm), hcontexts]
      simp
    refine ⟨fun c hc => ?_, fun c stream hle hc => ?_, fun id c hc => ?_⟩
    · have hlt := Nat.lt_of_lt_of_eq (Nat.lt_succ_of_lt hc) hlen.symm
      rw [List.foldl_cons, hold c hlt, hcontexts, List.getElem?_append_left hc]
    · by_cases hfirst : c = s.contexts.length
      · subst c
        rw [List.foldl_cons, hbuilt] at hc
        cases hc
        exact ⟨config, List.mem_cons_self .., rfl⟩
      · have hlater : s.contexts.length + 1 ≤ c := Nat.lt_of_le_of_ne hle (Ne.symm hfirst)
        obtain ⟨config', hmem, hid⟩ := hnew c stream (hlen ▸ hlater) hc
        exact ⟨config', List.mem_cons_of_mem _ hmem, hid⟩
    · rcases hreg id c hc with hbefore | ⟨hle, config', hmem, hid, hruns⟩
      · rw [hstreams, lookup_insert] at hbefore
        split at hbefore
        · rename_i hid
          cases hbefore
          exact .inr ⟨Nat.le_refl _, config, List.mem_cons_self .., hid, _, hbuilt, hid,
            builtContext_runsWith _ config⟩
        · exact .inl hbefore
      · rw [hlen] at hle
        exact .inr ⟨Nat.le_of_succ_le hle, config', List.mem_cons_of_mem _ hmem, hid, hruns⟩

end PipelineState

/-! ## One call -/

/-- The pipeline when a call has stopped and updated what it has to: what is still registered runs
with what is desired for it, and the configurations to start are those of the other desired streams. -/
structure Prepared (s : PipelineState) (desiredStreams : TreeMap Bytes StreamConfig)
    (base : PipelineState) (starts : List StreamConfig) : Prop where
  length : base.contexts.length = s.contexts.length
  stopped : ∀ c ∈ base.stopped, c < s.contexts.length
  running : ∀ (id : Bytes) (c : ContextId), base.streams[id]? = some c → c ∉ base.stopped ∧
    ∃ desired stream, desiredStreams[id]? = some desired ∧ base.contexts[c]? = some stream ∧
      stream.streamId = id ∧ stream.RunsWith desired
  kept : ∀ (id : Bytes) (c : ContextId) (desired : StreamConfig) (stream : StreamContext),
    s.streams[id]? = some c → desiredStreams[id]? = some desired → s.contexts[c]? = some stream →
    isSameTransportStreamConfig stream.transportConfig desired = true → base.streams[id]? = some c
  desired : ∀ config ∈ starts, desiredStreams[config.streamId]? = some config ∧
    base.streams[config.streamId]? = none
  missing : ∀ (id : Bytes) (desired : StreamConfig), desiredStreams[id]? = some desired →
    base.streams[id]? = none → id ∈ starts.map (·.streamId)

lemma nodup_keys_toList (streams : TreeMap Bytes ContextId) : (streams.toList.map (·.1)).Nodup := by
  refine List.pairwise_map.mpr (streams.distinct_keys_toList.imp fun hne he => hne ?_)
  rw [he]
  exact ReflCmp.compare_self

/-- The state when the stops and the runtime updates of a plan have been carried out. -/
def PipelineState.carryOut (s : PipelineState) (ready : ContextId → Bool) (plan : BatchPlan) : PipelineState :=
  plan.runtimeUpdates.foldl (fun s u => s.updateStreamRuntime structuralEquality ready u.1 u.2)
    (plan.streamsToStop.foldl PipelineState.stopStream
      { s with contexts := plan.contexts, streams := plan.streams })

/-- A registered context is registered under one id. -/
lemma Configured.key_eq {s : PipelineState} (h : Configured s) {id id' : Bytes} {c : ContextId}
    (hc : s.streams[id]? = some c) (hc' : s.streams[id']? = some c) : id = id' := by
  obtain ⟨-, stream, hstream, hid, -⟩ := h id c hc
  obtain ⟨-, stream', hstream', hid', -⟩ := h id' c hc'
  rw [hstream, Option.some.injEq] at hstream'
  rw [← hid, ← hid', hstream']

section carryOut

variable {s : PipelineState} {desiredStreams : TreeMap Bytes StreamConfig} {plan : BatchPlan}

lemma carryOut_eq (hreviewed : Reviewed s desiredStreams s.streams.toList plan) (ready : ContextId → Bool) :
    (s.carryOut ready plan).contexts.length = s.contexts.length ∧
      (s.carryOut ready plan).streams = plan.streams ∧
      (s.carryOut ready plan).stopped = s.stopped ++ plan.streamsToStop := by
  have hstops := PipelineState.foldl_stopStream
    (s := { s with contexts := plan.contexts, streams := plan.streams }) (l := plan.streamsToStop)
    fun c hc => (length_of_map_fixed hreviewed.fixed) ▸ hreviewed.stops c hc
  have hupdates := PipelineState.foldl_updateStreamRuntime (plan.streamsToStop.foldl
    PipelineState.stopStream { s with contexts := plan.contexts, streams := plan.streams })
    structuralEquality ready plan.runtimeUpdates
  exact ⟨length_of_map_fixed ((hupdates.1.trans hstops.1).trans hreviewed.fixed),
    hupdates.2.1.trans hstops.2.1, hupdates.2.2.trans hstops.2.2⟩

/-- A context that the review keeps is not stopped and runs with what is desired for it. -/
lemma runsWith_carryOut (h : Configured s) (hdecided : Decided s desiredStreams s.streams.toList plan)
    (ready : ContextId → Bool) {id : Bytes} {c : ContextId} {desired : StreamConfig} {stream : StreamContext}
    (hc : s.streams[id]? = some c) (hdesired : desiredStreams[id]? = some desired)
    (hstream : s.contexts[c]? = some stream) (hruns : stream.RunsWith stream.runtimeConfig)
    (hsame : isSameTransportStreamConfig stream.transportConfig desired = true) :
    c ∉ plan.streamsToStop ∧ ∃ stream', (s.carryOut ready plan).contexts[c]? = some stream' ∧
      stream'.streamId = stream.streamId ∧ stream'.RunsWith desired := by
  have hmem : ∀ e : Bytes × ContextId, e ∈ s.streams.toList → s.streams[e.1]? = some e.2 :=
    fun e he => TreeMap.mem_toList_iff_getElem?_eq_some.mp he
  have hentry : (id, c) ∈ s.streams.toList := TreeMap.mem_toList_iff_getElem?_eq_some.mpr hc
  obtain ⟨-, hcontext, hupdate⟩ := hdecided.keeps (id, c) hentry desired stream hdesired hstream hsame
  have hkey : ∀ e ∈ s.streams.toList, e.2 = c → e.1 = id :=
    fun e he hec => h.key_eq (hec ▸ hmem e he) hc
  have hnot : c ∉ plan.streamsToStop := by
    intro hstop
    obtain ⟨e, he, hec, hother⟩ := hdecided.stops c hstop
    rw [hother desired stream (hkey e he hec ▸ hdesired) (hec ▸ hstream)] at hsame
    cases hsame
  have hall : ∀ u ∈ plan.runtimeUpdates, u.1 = c → u.2 = desired := by
    intro u hu huc
    obtain ⟨e, he, heu, hd⟩ := hdecided.updates u hu
    rw [hkey e he (heu.trans huc), hdesired] at hd
    exact (Option.some.inj hd).symm
  have hstopped : (plan.streamsToStop.foldl PipelineState.stopStream
      { s with contexts := plan.contexts, streams := plan.streams }).contexts[c]? =
        some { stream with runtimeConfig := desired } :=
    (PipelineState.foldl_stopStream_lookup hnot).trans hcontext
  obtain ⟨entry, hentry', hlookup, hor⟩ :=
    PipelineState.foldl_updateStreamRuntime_lookup ready hall hstopped hruns.detector
  refine ⟨hnot, _, hlookup, rfl, (isSameTransportStreamConfig_iff _ _).mp hsame, rfl, ?_, hentry'⟩
  -- without an update the runtime configuration was the desired one already
  rcases hor with he | ⟨hnone, he⟩
  · exact he
  · have heq : stream.runtimeConfig = desired := by
      by_contra hne
      exact hnone _ (hupdate hne) rfl
    rw [← heq, ← hruns.detectorRuntime, he]

lemma prepared_carryOut (h : Configured s) (hb : StoppedBuilt s) {configs : TreeMap Int AgentConfig}
    (hreviewed : Reviewed s (buildMergedStreams configs) s.streams.toList plan)
    (hdecided : Decided s (buildMergedStreams configs) s.streams.toList plan) (ready : ContextId → Bool) :
    Prepared s (buildMergedStreams configs) (s.carryOut ready plan)
      (plan.streamsToStart ++ missingStreams plan.streams (buildMergedStreams configs)) := by
  obtain ⟨hlength, hstreams, hstopped⟩ := carryOut_eq hreviewed ready
  have hmem : ∀ (id : Bytes) (c : ContextId), s.streams[id]? = some c → (id, c) ∈ s.streams.toList :=
    fun id c hc => TreeMap.mem_toList_iff_getElem?_eq_some.mpr hc
  refine ⟨hlength, fun c hc => ?_, fun id c hc => ?_, fun id c desired stream hc hd hs hsame => ?_,
    fun config hconfig => ?_, fun id desired hd hnone => ?_⟩
  · rw [hstopped] at hc
    exact (List.mem_append.mp hc).elim (hb c) (hreviewed.stops c)
  · rw [hstreams] at hc
    have hbefore := hreviewed.kept id c hc
    obtain ⟨hrunning, stream, hstream, hid, hruns⟩ := h id c hbefore
    cases hdesired : (buildMergedStreams configs)[id]? with
    | none =>
      rw [hdecided.drops (id, c) (hmem id c hbefore) hdesired] at hc
      cases hc
    | some desired =>
      cases hsame : isSameTransportStreamConfig stream.transportConfig desired with
      | false =>
        have hrestarted : Restarted (buildMergedStreams configs) s.contexts (id, c) desired :=
          ⟨hdesired, stream, hstream, hsame⟩
        rw [(hreviewed.restarts (id, c) (hmem id c hbefore) desired hrestarted).2] at hc
        cases hc
      | true =>
        obtain ⟨hnot, stream', hstream', hid', hruns'⟩ :=
          runsWith_carryOut h hdecided ready hbefore hdesired hstream hruns hsame
        refine ⟨?_, desired, stream', rfl, hstream', hid'.trans hid, hruns'⟩
        rw [hstopped]
        exact fun hc => (List.mem_append.mp hc).elim hrunning hnot
  · rw [hstreams]
    exact (hdecided.keeps (id, c) (hmem id c hc) desired stream hd hs hsame).1
  · rw [hstreams]
    rcases List.mem_append.mp hconfig with hrestart | hmissing
    · obtain ⟨e, he, hr⟩ := hreviewed.starts config hrestart
      rw [streamId_of_buildMergedStreams hr.1]
      exact ⟨hr.1, (hreviewed.restarts e he config hr).2⟩
    · refine ⟨?_, mem_missingStreams hmissing⟩
      obtain ⟨entry, hentry, rfl⟩ := List.mem_map.mp hmissing
      have hd := TreeMap.mem_toList_iff_getElem?_eq_some.mp (List.mem_filter.mp hentry).1
      rwa [streamId_of_buildMergedStreams hd]
  · rw [hstreams] at hnone
    have hstart := List.mem_append_right plan.streamsToStart (mem_missingStreams_of hd hnone)
    exact List.mem_map.mpr ⟨desired, hstart, streamId_of_buildMergedStreams hd⟩

end carryOut

/-- A call prepares the pipeline and then starts what is to be started. -/
lemma exists_prepared {s : PipelineState} (h : Configured s) (hb : StoppedBuilt s) (ready : ContextId → Bool)
    (configs : TreeMap Int AgentConfig) :
    ∃ base starts, Prepared s (buildMergedStreams configs) base starts ∧
      s.applyConfigBatch structuralEquality ready configs =
        starts.foldl (PipelineState.startStream ready) base := by
  have hreviewed := reviewed_streams s structuralEquality (buildMergedStreams configs)
  have hstart : Decided s (buildMergedStreams configs) [] { contexts := s.contexts, streams := s.streams } :=
    ⟨fun _ _ => rfl, fun _ _ => rfl, by simp, by simp, by simp, by simp⟩
  have hdecided := decided_foldl hstart s.streams.toList
    (fun e he => by
      have hentry := TreeMap.mem_toList_iff_getElem?_eq_some.mp he
      obtain ⟨-, stream, hstream, hid, -⟩ := h e.1 e.2 hentry
      exact ⟨hentry, stream, hstream, hid⟩)
    (nodup_keys_toList s.streams)
  rw [List.nil_append] at hdecided
  refine ⟨_, _, prepared_carryOut h hb hreviewed hdecided ready, ?_⟩
  simp only [PipelineState.applyConfigBatch, PipelineState.planBatch, foldl_addMissingStream]
  rfl

/-- The registered streams are the desired ones, and each runs with what is desired for it. -/
structure PipelineState.Follows (s : PipelineState) (desiredStreams : TreeMap Bytes StreamConfig) : Prop where
  keys : ∀ id : Bytes, id ∈ s.streams ↔ id ∈ desiredStreams
  running : ∀ (id : Bytes) (c : ContextId), s.streams[id]? = some c → c ∉ s.stopped ∧
    ∃ desired stream, desiredStreams[id]? = some desired ∧ s.contexts[c]? = some stream ∧
      stream.streamId = id ∧ stream.RunsWith desired

variable {s base : PipelineState} {desiredStreams : TreeMap Bytes StreamConfig} {starts : List StreamConfig}

lemma Prepared.follows (h : Prepared s desiredStreams base starts) (ready : ContextId → Bool) :
    (starts.foldl (PipelineState.startStream ready) base).Follows desiredStreams := by
  obtain ⟨hold, -, hreg⟩ := PipelineState.foldl_startStream_lookup ready base starts
  obtain ⟨-, hstopped, hother, hlist, -⟩ := PipelineState.foldl_startStream ready base starts
  refine ⟨fun id => ?_, fun id c hc => ?_⟩
  · rw [← TreeMap.isSome_getElem?_iff_mem, ← TreeMap.isSome_getElem?_iff_mem, Option.isSome_iff_exists,
      Option.isSome_iff_exists]
    constructor
    · rintro ⟨c, hc⟩
      rcases hreg id c hc with hbefore | ⟨-, config, hmem, rfl, -⟩
      · obtain ⟨-, desired, -, hd, -⟩ := h.running id c hbefore
        exact ⟨desired, hd⟩
      · exact ⟨config, (h.desired config hmem).1⟩
    · rintro ⟨desired, hd⟩
      by_cases hid : id ∈ starts.map (·.streamId)
      · obtain ⟨config, hmem, rfl⟩ := List.mem_map.mp hid
        obtain ⟨c, hc, -⟩ := hlist config hmem
        exact ⟨c, hc⟩
      · rw [hother id hid]
        cases hb : base.streams[id]? with
        | some c => exact ⟨c, rfl⟩
        | none => exact absurd (h.missing id desired hd hb) hid
  · rcases hreg id c hc with hbefore | ⟨hle, config, hmem, hid, stream, hstream, hsid, hruns⟩
    · obtain ⟨hrunning, desired, stream, hd, hstream, hid, hruns⟩ := h.running id c hbefore
      have hlt := (List.getElem?_eq_some_iff.mp hstream).1
      exact ⟨hstopped ▸ hrunning, desired, stream, hd, (hold c hlt).trans hstream, hid, hruns⟩
    · refine ⟨fun hstop => ?_, config, stream, hid ▸ (h.desired config hmem).1, hstream, hsid, hruns⟩
      rw [hstopped] at hstop
      exact Nat.lt_irrefl _ (Nat.lt_of_lt_of_le (h.stopped c hstop) (h.length ▸ hle))

/-- A kept stream stays registered with its context, and no context is built for it. -/
lemma Prepared.keeps (h : Prepared s desiredStreams base starts) (ready : ContextId → Bool) {id : Bytes}
    {c : ContextId} {desired : StreamConfig} {stream : StreamContext} (hc : s.streams[id]? = some c)
    (hdesired : desiredStreams[id]? = some desired) (hstream : s.contexts[c]? = some stream)
    (hsame : isSameTransportStreamConfig stream.transportConfig desired = true) :
    (starts.foldl (PipelineState.startStream ready) base).streams[id]? = some c ∧
      ∀ (c' : ContextId) (stream' : StreamContext),
        (starts.foldl (PipelineState.startStream ready) base).contexts[c']? = some stream' →
        stream'.streamId = id → c' < s.contexts.length := by
  have hkept := h.kept id c desired stream hc hdesired hstream hsame
  have hnot : ∀ config ∈ starts, config.streamId ≠ id := by
    rintro config hconfig rfl
    rw [(h.desired config hconfig).2] at hkept
    cases hkept
  obtain ⟨-, hnew, -⟩ := PipelineState.foldl_startStream_lookup ready base starts
  obtain ⟨-, -, hother, -⟩ := PipelineState.foldl_startStream ready base starts
  refine ⟨?_, fun c' stream' hc' hid => ?_⟩
  · rw [hother id fun hmem => ?_, hkept]
    obtain ⟨config, hconfig, hid⟩ := List.mem_map.mp hmem
    exact hnot config hconfig hid
  · by_contra hge
    obtain ⟨config, hconfig, hid'⟩ := hnew c' stream' (h.length ▸ Nat.not_lt.mp hge) hc'
    exact hnot config hconfig (hid'.symm.trans hid)

/-- Nothing is planned for a pipeline that follows its configuration. -/
lemma PipelineState.Follows.planBatch (h : s.Follows desiredStreams) :
    s.planBatch structuralEquality desiredStreams = { contexts := s.contexts, streams := s.streams } := by
  have hreview : ∀ l : List (Bytes × ContextId), (∀ e ∈ l, s.streams[e.1]? = some e.2) →
      l.foldl (reviewStream structuralEquality desiredStreams)
        { contexts := s.contexts, streams := s.streams } = { contexts := s.contexts, streams := s.streams } := by
    intro l hl
    induction l with
    | nil => rfl
    | cons e l ih =>
      obtain ⟨-, desired, stream, hdesired, hstream, -, hruns⟩ := h.running e.1 e.2 (hl e (List.mem_cons_self ..))
      have htransport := (isSameTransportStreamConfig_iff _ _).mpr hruns.transport
      have hruntime := (isSameRuntimeStreamConfig_iff _ _).mpr hruns.runtime
      have hkeep : reviewStream structuralEquality desiredStreams
          { contexts := s.contexts, streams := s.streams } e =
            { contexts := s.contexts, streams := s.streams } := by
        simp [reviewStream, hstream, hdesired, htransport, hruntime]
      rw [List.foldl_cons, hkeep]
      exact ih fun e' he' => hl e' (List.mem_cons_of_mem _ he')
  have hmissing : desiredStreams.toList.filter (fun entry => !s.streams.contains entry.1) = [] := by
    refine List.filter_eq_nil_iff.mpr fun entry hentry => ?_
    have hdesired := TreeMap.mem_toList_iff_getElem?_eq_some.mp hentry
    have hmem : entry.1 ∈ s.streams := (h.keys entry.1).mpr (TreeMap.mem_iff_isSome_getElem?.mpr (by simp [hdesired]))
    simpa using hmem
  rw [PipelineState.planBatch, hreview _ fun e he => TreeMap.mem_toList_iff_getElem?_eq_some.mp he,
    foldl_addMissingStream, hmissing]
  rfl

lemma PipelineState.Follows.applyConfigBatch {configs : TreeMap Int AgentConfig}
    (h : s.Follows (buildMergedStreams configs)) (ready : ContextId → Bool) :
    s.applyConfigBatch structuralEquality ready configs = s := by
  rw [PipelineState.applyConfigBatch, h.planBatch]
  rfl

/-! ## Runs -/

lemma PipelineState.Follows.configured (h : s.Follows desiredStreams) : Configured s := by
  intro id c hc
  obtain ⟨hrunning, desired, stream, -, hstream, hid, hruns⟩ := h.running id c hc
  exact ⟨hrunning, stream, hstream, hid, hruns.runtime.symm ▸ hruns⟩

lemma configured_of_reachable (h : (configSystem structuralEquality).Reachable s) : Configured s := by
  apply h.invariant_of fun t ht => stoppedBuilt_of_reachable ht
  · intro id c hc
    simp [configSystem] at hc
  · intro t batch u hb ht _ hn
    cases hn
    obtain ⟨base, starts, hprepared, heq⟩ := exists_prepared ht hb batch.ready batch.configs
    rw [heq]
    exact (hprepared.follows batch.ready).configured

/-- From every reachable state a call registers exactly the desired streams and lets each run with
what is desired for it, keeps the context of every stream whose transport fields stay, and leaves
nothing to do for a second call. -/
theorem applyConfigBatch_follows (h : (configSystem structuralEquality).Reachable s) (batch : ConfigBatch) :
    (s.applyConfigBatch structuralEquality batch.ready batch.configs).Follows (buildMergedStreams batch.configs) ∧
    (∀ (id : Bytes) (c : ContextId) (desired : StreamConfig) (stream : StreamContext),
      s.streams[id]? = some c → (buildMergedStreams batch.configs)[id]? = some desired →
      s.contexts[c]? = some stream → isSameTransportStreamConfig stream.transportConfig desired = true →
        let t := s.applyConfigBatch structuralEquality batch.ready batch.configs
        t.streams[id]? = some c ∧ c ∉ t.stopped ∧
          ∀ (c' : ContextId) (stream' : StreamContext), t.contexts[c']? = some stream' →
            stream'.streamId = id → c' < s.contexts.length) ∧
    ∀ ready,
      let t := s.applyConfigBatch structuralEquality batch.ready batch.configs
      t.planBatch structuralEquality (buildMergedStreams batch.configs) =
          { contexts := t.contexts, streams := t.streams } ∧
        t.applyConfigBatch structuralEquality ready batch.configs = t := by
  obtain ⟨base, starts, hprepared, heq⟩ :=
    exists_prepared (configured_of_reachable h) (stoppedBuilt_of_reachable h) batch.ready batch.configs
  have hfollows := hprepared.follows batch.ready
  rw [← heq] at hfollows
  refine ⟨hfollows, fun id c desired stream hc hd hs hsame => ?_, fun ready => ?_⟩
  · obtain ⟨hreg, hbuilt⟩ := hprepared.keeps batch.ready hc hd hs hsame
    rw [← heq] at hreg hbuilt
    exact ⟨hreg, (hfollows.running id c hreg).1, hbuilt⟩
  · exact ⟨hfollows.planBatch, hfollows.applyConfigBatch ready⟩

/-- One enabled stream with an algorithm of the given alarm level. -/
def streamWithLevel (level : Int) : ConfigBatch where
  configs := (∅ : TreeMap Int AgentConfig).insert 1
    { configId := 1
      streams := [{ enabled := true, streamId := [0x53], rtspUrl := [1]
                    algorithms := [{ algorithmId := [5], alarmLevel := level }] }] }

/-- A call that changes an algorithm keeps the context of the stream. -/
theorem applyConfigBatch_follows_streamWithLevel :
    ∃ s, (configSystem structuralEquality).Reachable s ∧ s.streams[([0x53] : Bytes)]? = some 0 ∧
      (s.applyConfigBatch structuralEquality (fun _ => true) (streamWithLevel 2).configs).streams[([0x53] : Bytes)]? =
        some 0 ∧
      (s.applyConfigBatch structuralEquality (fun _ => true) (streamWithLevel 2).configs).Follows
        (buildMergedStreams (streamWithLevel 2).configs) := by
  obtain ⟨s, hs, hp⟩ := Machine.reachable_of_exec_any (configSystem structuralEquality) [streamWithLevel 1]
    (fun s => decide (s.streams[([0x53] : Bytes)]? = some 0 ∧
      s.contexts[0]?.map StreamContext.transportConfig =
        some { enabled := true, streamId := [0x53], rtspUrl := [1] })) (by decide)
  obtain ⟨hreg, htransport⟩ := of_decide_eq_true hp
  obtain ⟨stream, hstream, htransport⟩ := Option.map_eq_some_iff.mp htransport
  have hfollows := applyConfigBatch_follows hs (streamWithLevel 2)
  have hdesired : (buildMergedStreams (streamWithLevel 2).configs)[([0x53] : Bytes)]? =
      some { enabled := true, streamId := [0x53], rtspUrl := [1],
             algorithms := [{ algorithmId := [5], alarmLevel := 2 }] } := by decide
  have hkept := hfollows.2.1 [0x53] 0 _ stream hreg hdesired hstream (by rw [htransport]; decide)
  exact ⟨s, hs, hreg, hkept.1, hfollows.1⟩

end MediaAgent
