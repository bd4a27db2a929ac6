import MediaAgent.Pipeline

/-!
# Every context is accounted for

A context stays registered under its stream or is stopped, as long as no call of
`applyConfigBatch` finds a registered stream with another transport configuration. Such a
stream is put on the start list by the loop that removes it and again by the loop that looks for
missing streams; it is started twice, and the first of the two contexts is lost.
-/

namespace MediaAgent
open Std TreeMaps Transition

/-- What no function changes in a context. -/
def StreamContext.fixed (stream : StreamContext) : Bytes × StreamConfig :=
  (stream.streamId, stream.transportConfig)

lemma exists_of_map_fixed {cs cs' : List StreamContext}
    (h : cs'.map StreamContext.fixed = cs.map StreamContext.fixed) {c : ContextId} {x : StreamContext}
    (hx : cs'[c]? = some x) : ∃ y, cs[c]? = some y ∧ x.fixed = y.fixed := by
  have hget := congrArg (·[c]?) h
  simp only [List.getElem?_map, hx, Option.map_some] at hget
  obtain ⟨y, hy, hxy⟩ := Option.map_eq_some_iff.mp hget.symm
  exact ⟨y, hy, hxy.symm⟩

lemma length_of_map_fixed {cs cs' : List StreamContext}
    (h : cs'.map StreamContext.fixed = cs.map StreamContext.fixed) : cs'.length = cs.length := by
  simpa using congrArg List.length h

lemma map_fixed_set {cs : List StreamContext} {c : ContextId} {x y : StreamContext} (hx : cs[c]? = some x)
    (hy : y.fixed = x.fixed) : (cs.set c y).map StreamContext.fixed = cs.map StreamContext.fixed := by
  ext1 i
  simp only [List.getElem?_map]
  by_cases hi : c = i
  · subst i
    have hlt := (List.getElem?_eq_some_iff.mp hx).1
    rw [List.getElem?_set_self hlt, hx, Option.map_some, Option.map_some, hy]
  · rw [List.getElem?_set_ne hi]

namespace PipelineState

lemma stopStream_eq {s : PipelineState} {c : ContextId} (hc : c < s.contexts.length) :
    (s.stopStream c).contexts.map StreamContext.fixed = s.contexts.map StreamContext.fixed ∧
      (s.stopStream c).streams = s.streams ∧ (s.stopStream c).stopped = s.stopped ++ [c] := by
  have hget := List.getElem?_eq_getElem hc
  unfold stopStream
  rw [hget]
  exact ⟨map_fixed_set hget rfl, rfl, rfl⟩

lemma foldl_stopStream {s : PipelineState} {l : List ContextId} (hl : ∀ c ∈ l, c < s.contexts.length) :
    (l.foldl stopStream s).contexts.map StreamContext.fixed = s.contexts.map StreamContext.fixed ∧
      (l.foldl stopStream s).streams = s.streams ∧ (l.foldl stopStream s).stopped = s.stopped ++ l := by
  induction l generalizing s with
  | nil => simp
  | cons c l ih =>
    obtain ⟨hcontexts, hstreams, hstopped⟩ := stopStream_eq (hl c (List.mem_cons_self ..))
    have hlen := length_of_map_fixed hcontexts
    obtain ⟨h1, h2, h3⟩ := ih (s := s.stopStream c)
      fun c' hc' => hlen ▸ hl c' (List.mem_cons_of_mem _ hc')
    refine ⟨h1.trans hcontexts, h2.trans hstreams, ?_⟩
    rw [List.foldl_cons, h3, hstopped, List.append_assoc, List.singleton_append]

lemma updateStreamRuntime_eq (s : PipelineState) (same : SameProtoMessage) (ready : ContextId → Bool)
    (c : ContextId) (config : StreamConfig) :
    (s.updateStreamRuntime same ready c config).contexts.map StreamContext.fixed =
        s.contexts.map StreamContext.fixed ∧
      (s.updateStreamRuntime same ready c config).streams = s.streams ∧
      (s.updateStreamRuntime same ready c config).stopped = s.stopped := by
  unfold updateStreamRuntime
  split
  · exact ⟨rfl, rfl, rfl⟩
  · rename_i stream hstream
    exact ⟨map_fixed_set hstream rfl, rfl, rfl⟩

lemma foldl_updateStreamRuntime (s : PipelineState) (same : SameProtoMessage) (ready : ContextId → Bool)
    (l : List (ContextId × StreamConfig)) :
    let t := l.foldl (fun s update => s.updateStreamRuntime same ready update.1 update.2) s
    t.contexts.map StreamContext.fixed = s.contexts.map StreamContext.fixed ∧
      t.streams = s.streams ∧ t.stopped = s.stopped := by
  induction l generalizing s with
  | nil => exact ⟨rfl, rfl, rfl⟩
  | cons u l ih =>
    obtain ⟨h1, h2, h3⟩ := s.updateStreamRuntime_eq same ready u.1 u.2
    obtain ⟨h1', h2', h3'⟩ := ih (s.updateStreamRuntime same ready u.1 u.2)
    exact ⟨h1'.trans h1, h2'.trans h2, h3'.trans h3⟩

/-- Starting a stream builds one context and registers it. -/
lemma startStream_eq (ready : ContextId → Bool) (s : PipelineState) (config : StreamConfig) :
    (startStream ready s config).contexts.map StreamContext.fixed =
        s.contexts.map StreamContext.fixed ++ [(config.streamId, makeTransportStreamConfig config)] ∧
      (startStream ready s config).streams = s.streams.insert config.streamId s.contexts.length ∧
      (startStream ready s config).stopped = s.stopped := by
  simp [startStream, buildStreamContext, StreamContext.fixed]

/-- Starting a list of streams registers, under each id, one of the new contexts; under the ids
of a list without repetitions, each its own. -/
lemma foldl_startStream (ready : ContextId → Bool) (s : PipelineState) (l : List StreamConfig) :
    let t := l.foldl (startStream ready) s
    t.contexts.map StreamContext.fixed = s.contexts.map StreamContext.fixed ++
        l.map (fun config => (config.streamId, makeTransportStreamConfig config)) ∧
      t.stopped = s.stopped ∧
      (∀ k : Bytes, k ∉ l.map (·.streamId) → t.streams[k]? = s.streams[k]?) ∧
      (∀ config ∈ l, ∃ c, t.streams[config.streamId]? = some c ∧ s.contexts.length ≤ c) ∧
      ((l.map (·.streamId)).Nodup → ∀ i config, l[i]? = some config →
        t.streams[config.streamId]? = some (s.contexts.length + i)) := by
  induction l generalizing s with
  | nil => simp
  | cons config l ih =>
    obtain ⟨hcontexts, hstreams, hstopped⟩ := startStream_eq ready s config
    have hlen : (startStream ready s config).contexts.length = s.contexts.length + 1 := by
      simpa using congrArg List.length hcontexts
    obtain ⟨h1, h2, h3, h4, h5⟩ := ih (startStream ready s config)
    rw [hstreams] at h3
    rw [hlen] at h4 h5
    refine ⟨?_, h2.trans hstopped, fun k hk => ?_, fun config' hmem => ?_, fun hnd i config' hi => ?_⟩
    · rw [List.foldl_cons, h1, hcontexts, List.append_assoc, List.singleton_append, List.map_cons]
    · simp only [List.map_cons, List.mem_cons, not_or] at hk
      rw [List.foldl_cons, h3 k hk.2, lookup_insert, if_neg (Ne.symm hk.1)]
    · by_cases hid : config'.streamId ∈ l.map (·.streamId)
      · obtain ⟨config'', hmem'', he⟩ := List.mem_map.mp hid
        obtain ⟨c, hc, hle⟩ := h4 config'' hmem''
        rw [he] at hc
        exact ⟨c, hc, by omega⟩
      · rcases List.mem_cons.mp hmem with rfl | hmem
        · exact ⟨s.contexts.length, by rw [List.foldl_cons, h3 _ hid, lookup_insert, if_pos rfl],
            Nat.le_refl _⟩
        · exact absurd (List.mem_map_of_mem hmem) hid
    · obtain ⟨hnotin, hnd⟩ := List.nodup_cons.mp hnd
      cases i with
      | zero =>
        cases hi
        rw [List.foldl_cons, h3 _ hnotin, lookup_insert, if_pos rfl, Nat.add_zero]
      | succ i =>
        rw [List.foldl_cons, h5 hnd i config' hi]
        congr 1
        omega

end PipelineState

/-! ## The plan -/

/-- A context that is registered for another transport configuration than the desired one. -/
def Restarted (desiredStreams : TreeMap Bytes StreamConfig) (contexts : List StreamContext)
    (entry : Bytes × ContextId) (desired : StreamConfig) : Prop :=
  desiredStreams[entry.1]? = some desired ∧ ∃ stream, contexts[entry.2]? = some stream ∧
    isSameTransportStreamConfig stream.transportConfig desired = false

/-- What holds of the plan after the entries `done` of the map `streams_` have been reviewed. -/
structure Reviewed (s : PipelineState) (desiredStreams : TreeMap Bytes StreamConfig)
    (done : List (Bytes × ContextId)) (plan : BatchPlan) : Prop where
  fixed : plan.contexts.map StreamContext.fixed = s.contexts.map StreamContext.fixed
  kept : ∀ (k : Bytes) (c : ContextId), plan.streams[k]? = some c → s.streams[k]? = some c
  dropped : ∀ (k : Bytes) (c : ContextId), s.streams[k]? = some c →
    plan.streams[k]? = some c ∨ c ∈ plan.streamsToStop
  stops : ∀ c ∈ plan.streamsToStop, c < s.contexts.length
  starts : ∀ desired ∈ plan.streamsToStart, ∃ entry ∈ done,
    Restarted desiredStreams s.contexts entry desired
  restarts : ∀ entry ∈ done, ∀ desired, Restarted desiredStreams s.contexts entry desired →
    desired ∈ plan.streamsToStart ∧ plan.streams[entry.1]? = none

section review

variable {s : PipelineState} {desiredStreams : TreeMap Bytes StreamConfig}
  {done : List (Bytes × ContextId)} {plan : BatchPlan} {entry : Bytes × ContextId}

/-- An entry that stays registered. -/
lemma Reviewed.keep (h : Reviewed s desiredStreams done plan)
    (hnot : ∀ desired, ¬Restarted desiredStreams s.contexts entry desired) {contexts : List StreamContext}
    (hcontexts : contexts.map StreamContext.fixed = plan.contexts.map StreamContext.fixed)
    (runtimeUpdates : List (ContextId × StreamConfig)) :
    Reviewed s desiredStreams (done ++ [entry])
      { plan with contexts := contexts, runtimeUpdates := runtimeUpdates } := by
  refine ⟨hcontexts.trans h.fixed, h.kept, h.dropped, h.stops, fun desired hd => ?_,
    fun e he desired hr => ?_⟩
  · obtain ⟨e, he, hr⟩ := h.starts desired hd
    exact ⟨e, List.mem_append_left _ he, hr⟩
  · rcases List.mem_append.mp he with he | he
    · exact h.restarts e he desired hr
    · rw [List.mem_singleton.mp he] at hr
      exact absurd hr (hnot desired)

/-- An entry that is removed, and started again with the configurations of `again`. -/
lemma Reviewed.drop (h : Reviewed s desiredStreams done plan)
    (hentry : s.streams[entry.1]? = some entry.2) (hlt : entry.2 < s.contexts.length)
    (again : List StreamConfig)
    (hagain : ∀ desired, desired ∈ again ↔ Restarted desiredStreams s.contexts entry desired) :
    Reviewed s desiredStreams (done ++ [entry])
      { plan with
        streamsToStop := plan.streamsToStop ++ [entry.2]
        streams := plan.streams.erase entry.1
        streamsToStart := plan.streamsToStart ++ again } := by
  refine ⟨h.fixed, fun k c hc => ?_, fun k c hc => ?_, fun c hc => ?_, fun desired hd => ?_,
    fun e he desired hr => ?_⟩
  · simp only [lookup_erase, Option.ite_none_left_eq_some] at hc
    exact h.kept k c hc.2
  · simp only [lookup_erase, List.mem_append, List.mem_singleton]
    split
    · subst k
      rw [hentry] at hc
      cases hc
      exact .inr (.inr rfl)
    · rcases h.dropped k c hc with hkept | hstop
      · exact .inl hkept
      · exact .inr (.inl hstop)
  · rcases List.mem_append.mp hc with hc | hc
    · exact h.stops c hc
    · rw [List.mem_singleton.mp hc]
      exact hlt
  · rcases List.mem_append.mp hd with hd | hd
    · obtain ⟨e, he, hr⟩ := h.starts desired hd
      exact ⟨e, List.mem_append_left _ he, hr⟩
    · exact ⟨entry, by simp, (hagain desired).mp hd⟩
  · rcases List.mem_append.mp he with he | he
    · obtain ⟨hstart, hnone⟩ := h.restarts e he desired hr
      refine ⟨List.mem_append_left _ hstart, ?_⟩
      simp only [lookup_erase, hnone, ite_self]
    · rw [List.mem_singleton.mp he] at hr ⊢
      exact ⟨List.mem_append_right _ ((hagain desired).mpr hr), by simp⟩

lemma Reviewed.reviewStream (h : Reviewed s desiredStreams done plan) (same : SameProtoMessage)
    (hentry : s.streams[entry.1]? = some entry.2) :
    Reviewed s desiredStreams (done ++ [entry]) (reviewStream same desiredStreams plan entry) := by
  unfold MediaAgent.reviewStream
  cases hstream : plan.contexts[entry.2]? with
  | none =>
    refine h.keep (fun desired ⟨_, stream, hs, _⟩ => ?_) rfl plan.runtimeUpdates
    obtain ⟨y, hy, -⟩ := exists_of_map_fixed h.fixed.symm hs
    rw [hstream] at hy
    cases hy
  | some stream =>
    obtain ⟨y, hy, hfixed⟩ := exists_of_map_fixed h.fixed hstream
    have hlt := (List.getElem?_eq_some_iff.mp hy).1
    have htransport : stream.transportConfig = y.transportConfig := congrArg Prod.snd hfixed
    have hiff : ∀ desired, Restarted desiredStreams s.contexts entry desired ↔
        desiredStreams[entry.1]? = some desired ∧
          isSameTransportStreamConfig stream.transportConfig desired = false := by
      intro desired
      simp [Restarted, hy, htransport]
    dsimp only
    cases hdesired : desiredStreams[entry.1]? with
    | none =>
      have hdrop := h.drop hentry hlt [] (fun desired => by simp [hiff, hdesired])
      rwa [List.append_nil] at hdrop
    | some desired =>
      dsimp only
      cases hsame : isSameTransportStreamConfig stream.transportConfig desired with
      | false =>
        refine h.drop hentry hlt [desired] fun desired' => ?_
        rw [List.mem_singleton, hiff, hdesired, Option.some.injEq]
        constructor
        · rintro rfl
          exact ⟨rfl, hsame⟩
        · exact fun hr => hr.1.symm
      | true =>
        have hnot : ∀ desired', ¬Restarted desiredStreams s.contexts entry desired' := by
          intro desired' hr
          rw [hiff, hdesired] at hr
          cases hr.1
          rw [hsame] at hr
          cases hr.2
        simp only [Bool.not_true, Bool.false_eq_true, ite_false]
        split
        · exact h.keep hnot (map_fixed_set hstream (y := { stream with runtimeConfig := desired }) rfl) _
        · exact h.keep hnot rfl plan.runtimeUpdates

/-- The plan after the loop over `streams_`. -/
lemma reviewed_foldl (h : Reviewed s desiredStreams done plan) (same : SameProtoMessage)
    (l : List (Bytes × ContextId)) (hl : ∀ e ∈ l, s.streams[e.1]? = some e.2) :
    Reviewed s desiredStreams (done ++ l) (l.foldl (MediaAgent.reviewStream same desiredStreams) plan) := by
  induction l generalizing done plan with
  | nil => rwa [List.append_nil]
  | cons e l ih =>
    have hstep := h.reviewStream same (hl e (List.mem_cons_self ..))
    have hrest := ih hstep fun e' he' => hl e' (List.mem_cons_of_mem _ he')
    rwa [List.append_assoc, List.singleton_append] at hrest

end review

lemma reviewed_streams (s : PipelineState) (same : SameProtoMessage)
    (desiredStreams : TreeMap Bytes StreamConfig) :
    Reviewed s desiredStreams s.streams.toList (s.streams.toList.foldl (reviewStream same desiredStreams)
      { contexts := s.contexts, streams := s.streams }) := by
  have hstart : Reviewed s desiredStreams [] { contexts := s.contexts, streams := s.streams } :=
    ⟨rfl, fun _ _ h => h, fun _ _ h => .inl h, by simp, by simp, by simp⟩
  have hall := reviewed_foldl hstart same s.streams.toList
    fun e he => TreeMap.mem_toList_iff_getElem?_eq_some.mp he
  rwa [List.nil_append] at hall

/-- The loop over the desired streams appends those that are not registered. -/
lemma foldl_addMissingStream (plan : BatchPlan) (l : List (Bytes × StreamConfig)) :
    l.foldl addMissingStream plan =
      { plan with
        streamsToStart := plan.streamsToStart ++
          (l.filter fun entry => !plan.streams.contains entry.1).map (·.2) } := by
  induction l generalizing plan with
  | nil => simp
  | cons e l ih =>
    rw [List.foldl_cons, ih]
    cases hc : plan.streams.contains e.1 with
    | true => simp [addMissingStream, hc]
    | false => simp [addMissingStream, hc]

/-! ## One call -/

/-- The configurations of the desired streams that are not registered. -/
def missingStreams (streams : TreeMap Bytes ContextId) (desiredStreams : TreeMap Bytes StreamConfig) :
    List StreamConfig :=
  (desiredStreams.toList.filter fun entry => !streams.contains entry.1).map (·.2)

/-- A call stops what the review dropped, and then starts what it restarts and what is missing. -/
lemma applyConfigBatch_eq (s : PipelineState) (same : SameProtoMessage) (ready : ContextId → Bool)
    (configs : TreeMap Int AgentConfig) :
    ∃ (plan : BatchPlan) (base : PipelineState),
      Reviewed s (buildMergedStreams configs) s.streams.toList plan ∧
      base.contexts.map StreamContext.fixed = s.contexts.map StreamContext.fixed ∧
      base.streams = plan.streams ∧ base.stopped = s.stopped ++ plan.streamsToStop ∧
      s.applyConfigBatch same ready configs =
        (missingStreams plan.streams (buildMergedStreams configs)).foldl (PipelineState.startStream ready)
          (plan.streamsToStart.foldl (PipelineState.startStream ready) base) := by
  have hplan := reviewed_streams s same (buildMergedStreams configs)
  generalize hp : s.streams.toList.foldl (reviewStream same (buildMergedStreams configs))
    { contexts := s.contexts, streams := s.streams } = plan at hplan
  have hstops := PipelineState.foldl_stopStream
    (s := { s with contexts := plan.contexts, streams := plan.streams }) (l := plan.streamsToStop)
    fun c hc => (length_of_map_fixed hplan.fixed) ▸ hplan.stops c hc
  have hupdates := PipelineState.foldl_updateStreamRuntime (plan.streamsToStop.foldl
    PipelineState.stopStream { s with contexts := plan.contexts, streams := plan.streams }) same ready
    plan.runtimeUpdates
  refine ⟨plan, _, hplan, (hupdates.1.trans hstops.1).trans hplan.fixed, hupdates.2.1.trans hstops.2.1,
    hupdates.2.2.trans hstops.2.2, ?_⟩
  simp only [PipelineState.applyConfigBatch, PipelineState.planBatch, hp, foldl_addMissingStream,
    List.foldl_append]
  rfl

lemma mem_missingStreams {streams : TreeMap Bytes ContextId} {configs : TreeMap Int AgentConfig}
    {config : StreamConfig} (h : config ∈ missingStreams streams (buildMergedStreams configs)) :
    streams[config.streamId]? = none := by
  obtain ⟨entry, hentry, rfl⟩ := List.mem_map.mp h
  obtain ⟨hmem, hc⟩ := List.mem_filter.mp hentry
  have hnot : streams.contains entry.1 = false := by simpa only [Bool.not_eq_true'] using hc
  rw [streamId_of_buildMergedStreams (TreeMap.mem_toList_iff_getElem?_eq_some.mp hmem)]
  exact TreeMap.getElem?_eq_none_of_contains_eq_false hnot

lemma missingStreams_nodup (streams : TreeMap Bytes ContextId) (configs : TreeMap Int AgentConfig) :
    ((missingStreams streams (buildMergedStreams configs)).map (·.streamId)).Nodup := by
  have hkeys : (missingStreams streams (buildMergedStreams configs)).map (·.streamId) =
      ((buildMergedStreams configs).toList.filter fun entry => !streams.contains entry.1).map (·.1) := by
    rw [missingStreams, List.map_map]
    refine List.map_congr_left fun entry hentry => ?_
    exact streamId_of_buildMergedStreams
      (TreeMap.mem_toList_iff_getElem?_eq_some.mp (List.mem_filter.mp hentry).1)
  have hdistinct := (buildMergedStreams configs).distinct_keys_toList
  rw [hkeys]
  refine List.pairwise_map.mpr ((hdistinct.filter _).imp fun hne he => hne ?_)
  rw [he]
  exact ReflCmp.compare_self

lemma NoLeak.of_accounted {s : PipelineState}
    (h : ∀ (c : ContextId) (stream : StreamContext), s.contexts[c]? = some stream →
      s.streams[stream.streamId]? = some c ∨ c ∈ s.stopped) : NoLeak s := by
  refine ⟨h, fun c c' stream stream' hc hc' hid hn hn' => ?_⟩
  have hreg := (h c stream hc).resolve_right hn
  have hreg' := (h c' stream' hc').resolve_right hn'
  rw [hid, hreg'] at hreg
  exact (Option.some.inj hreg).symm

lemma keepsTransports_iff {s : PipelineState} {batch : ConfigBatch} :
    keepsTransports s batch = true ↔ ∀ entry ∈ s.streams.toList, ∀ desired,
      ¬Restarted (buildMergedStreams batch.configs) s.contexts entry desired := by
  simp only [keepsTransports, List.all_eq_true]
  refine forall₂_congr fun entry _ => ?_
  cases hc : s.contexts[entry.2]? with
  | none => simp [Restarted, hc]
  | some stream =>
    cases hd : (buildMergedStreams batch.configs)[entry.1]? with
    | none => simp [Restarted, hd]
    | some desired => simp [Restarted, hc, hd]

/-- A call that restarts no stream loses no context. -/
lemma NoLeak.applyConfigBatch {s : PipelineState} (h : NoLeak s) (same : SameProtoMessage)
    {batch : ConfigBatch} (hguard : keepsTransports s batch = true) :
    NoLeak (s.applyConfigBatch same batch.ready batch.configs) := by
  obtain ⟨plan, base, hplan, hfixed, hstreams, hstopped, heq⟩ :=
    applyConfigBatch_eq s same batch.ready batch.configs
  have hnone : plan.streamsToStart = [] := by
    refine List.eq_nil_iff_forall_not_mem.mpr fun desired hd => ?_
    obtain ⟨entry, he, hr⟩ := hplan.starts desired hd
    exact keepsTransports_iff.mp hguard entry he desired hr
  have hlen := length_of_map_fixed hfixed
  rw [hnone, List.foldl_nil] at heq
  rw [heq]
  obtain ⟨hcontexts, hstopped', hold, -, hnew⟩ := PipelineState.foldl_startStream batch.ready base
    (missingStreams plan.streams (buildMergedStreams batch.configs))
  rw [hfixed] at hcontexts
  refine NoLeak.of_accounted fun c stream hc => ?_
  rw [hstopped', hstopped]
  have hget : (s.contexts.map StreamContext.fixed ++
      (missingStreams plan.streams (buildMergedStreams batch.configs)).map fun config =>
        (config.streamId, makeTransportStreamConfig config))[c]? = some stream.fixed := by
    rw [← hcontexts, List.getElem?_map, hc, Option.map_some]
  by_cases hlt : c < s.contexts.length
  · rw [List.getElem?_append_left (by simpa using hlt), List.getElem?_map] at hget
    obtain ⟨y, hy, hfix⟩ := Option.map_eq_some_iff.mp hget
    have hid : y.streamId = stream.streamId := congrArg Prod.fst hfix
    rcases h.accounted c y hy with hreg | hstop
    · rcases hplan.dropped _ _ hreg with hkept | hstop
      · left
        rw [← hid, hold, hstreams, hkept]
        intro hmem
        obtain ⟨config, hconfig, he⟩ := List.mem_map.mp hmem
        rw [← he, mem_missingStreams hconfig] at hkept
        cases hkept
      · exact .inr (List.mem_append_right _ hstop)
    · exact .inr (List.mem_append_left _ hstop)
  · have hge : s.contexts.length ≤ c := Nat.le_of_not_lt hlt
    have hle : (s.contexts.map StreamContext.fixed).length ≤ c := by simpa using hge
    rw [List.getElem?_append_right hle, List.length_map, List.getElem?_map] at hget
    obtain ⟨config, hconfig, hfix⟩ := Option.map_eq_some_iff.mp hget
    have hid : config.streamId = stream.streamId := congrArg Prod.fst hfix
    left
    rw [← hid, hnew (missingStreams_nodup _ _) _ _ hconfig, hlen, Nat.add_sub_cancel' hge]

/-- The contexts that have been stopped were built before. -/
def StoppedBuilt (s : PipelineState) : Prop := ∀ c ∈ s.stopped, c < s.contexts.length

lemma StoppedBuilt.applyConfigBatch {s : PipelineState} (h : StoppedBuilt s) (same : SameProtoMessage)
    (ready : ContextId → Bool) (configs : TreeMap Int AgentConfig) :
    StoppedBuilt (s.applyConfigBatch same ready configs) := by
  obtain ⟨plan, base, hplan, hfixed, -, hstopped, heq⟩ := applyConfigBatch_eq s same ready configs
  rw [← List.foldl_append] at heq
  obtain ⟨hcontexts, hstopped', -⟩ := PipelineState.foldl_startStream ready base
    (plan.streamsToStart ++ missingStreams plan.streams (buildMergedStreams configs))
  rw [← heq] at hcontexts hstopped'
  have hlen := congrArg List.length hcontexts
  simp only [hfixed, List.length_append, List.length_map] at hlen
  have hle : s.contexts.length ≤ (s.applyConfigBatch same ready configs).contexts.length := by omega
  intro c hc
  rw [hstopped', hstopped] at hc
  exact Nat.lt_of_lt_of_le ((List.mem_append.mp hc).elim (h c) (hplan.stops c)) hle

lemma mem_missingStreams_of {streams : TreeMap Bytes ContextId} {desiredStreams : TreeMap Bytes StreamConfig}
    {k : Bytes} {desired : StreamConfig} (hdesired : desiredStreams[k]? = some desired)
    (hnone : streams[k]? = none) : desired ∈ missingStreams streams desiredStreams := by
  refine List.mem_map.mpr ⟨(k, desired), List.mem_filter.mpr ⟨?_, ?_⟩, rfl⟩
  · exact TreeMap.mem_toList_iff_getElem?_eq_some.mpr hdesired
  · rw [← TreeMap.isSome_getElem?_eq_contains, hnone]
    rfl

/-- A call that restarts a stream loses a context: of the two that it builds for the stream only
the second is registered. -/
lemma not_noLeak_of_restarted {s : PipelineState} (h : StoppedBuilt s) (same : SameProtoMessage)
    {batch : ConfigBatch} (hguard : ¬keepsTransports s batch = true) :
    ¬NoLeak (s.applyConfigBatch same batch.ready batch.configs) := by
  obtain ⟨plan, base, hplan, hfixed, -, hstopped, heq⟩ :=
    applyConfigBatch_eq s same batch.ready batch.configs
  have hex : ∃ entry ∈ s.streams.toList, ∃ desired,
      Restarted (buildMergedStreams batch.configs) s.contexts entry desired := by
    by_contra hno
    exact hguard (keepsTransports_iff.mpr fun entry he desired hr => hno ⟨entry, he, desired, hr⟩)
  obtain ⟨entry, hentry, desired, hr⟩ := hex
  obtain ⟨hstart, hnone⟩ := hplan.restarts entry hentry desired hr
  have hagain := mem_missingStreams_of hr.1 hnone
  obtain ⟨i, hi⟩ := List.mem_iff_getElem?.mp hstart
  have hil := (List.getElem?_eq_some_iff.mp hi).1
  have hlen := length_of_map_fixed hfixed
  obtain ⟨hfirst, hstopped₁, -⟩ := PipelineState.foldl_startStream batch.ready base plan.streamsToStart
  obtain ⟨hsecond, hstopped₂, -, hlast, -⟩ := PipelineState.foldl_startStream batch.ready
    (plan.streamsToStart.foldl (PipelineState.startStream batch.ready) base)
    (missingStreams plan.streams (buildMergedStreams batch.configs))
  rw [← heq] at hsecond hstopped₂ hlast
  have hmid := congrArg List.length hfirst
  simp only [List.length_append, List.length_map] at hmid
  -- the first of the two contexts built for `desired`
  have hget : ((s.applyConfigBatch same batch.ready batch.configs).contexts.map
      StreamContext.fixed)[base.contexts.length + i]? =
        some (desired.streamId, makeTransportStreamConfig desired) := by
    rw [hsecond, hfirst, List.append_assoc, List.getElem?_append_right (by simp), List.length_map,
      Nat.add_sub_cancel_left, List.getElem?_append_left (by simpa using hil), List.getElem?_map, hi,
      Option.map_some]
  rw [List.getElem?_map] at hget
  obtain ⟨stream, hstream, hfix⟩ := Option.map_eq_some_iff.mp hget
  have hid : stream.streamId = desired.streamId := congrArg Prod.fst hfix
  intro hleak
  rcases hleak.accounted _ stream hstream with hreg | hstop
  · obtain ⟨c, hc, hle⟩ := hlast desired hagain
    rw [hid, hc] at hreg
    cases hreg
    omega
  · rw [hstopped₂, hstopped₁, hstopped] at hstop
    have hlt : base.contexts.length + i < s.contexts.length :=
      (List.mem_append.mp hstop).elim (h _) (hplan.stops _)
    omega

/-! ## Runs -/

lemma stoppedBuilt_of_reachable {same : SameProtoMessage} {s : PipelineState}
    (h : (configSystem same).Reachable s) : StoppedBuilt s := by
  refine h.invariant (fun c hc => by cases hc) fun t batch u ht _ hn => ?_
  cases hn
  exact ht.applyConfigBatch same batch.ready batch.configs

lemma noLeak_of_reachableWhen {same : SameProtoMessage} {s : PipelineState}
    (h : (configSystem same).ReachableWhen (fun s batch => keepsTransports s batch = true) s) :
    NoLeak s := by
  refine h.invariant (NoLeak.of_accounted fun c stream hc => by cases hc) fun t batch u ht hguard hn => ?_
  cases hn
  exact ht.applyConfigBatch same hguard

/-- While no call finds a registered stream with another transport configuration every context is
accounted for, and the first call that does loses one. -/
theorem noLeak_iff_keepsTransports (same : SameProtoMessage) :
    (∀ s, (configSystem same).ReachableWhen (fun s batch => keepsTransports s batch = true) s → NoLeak s) ∧
      ∀ s batch t, (configSystem same).Reachable s → (configSystem same).next s batch = some t →
        ¬keepsTransports s batch = true → ¬NoLeak t := by
  refine ⟨fun s h => noLeak_of_reachableWhen h, fun s batch t h hn hguard => ?_⟩
  cases hn
  exact not_noLeak_of_restarted (stoppedBuilt_of_reachable h) same hguard

/-- One enabled stream, pulled from the given address. -/
def streamAt (url : Bytes) : ConfigBatch where
  configs := (∅ : TreeMap Int AgentConfig).insert 1
    { configId := 1, streams := [{ enabled := true, streamId := [0x53], rtspUrl := url }] }

/-- Two calls with the same address build one context, which stays registered. -/
theorem noLeak_of_streamAt :
    ∃ s, (configSystem ⟨(· == ·), (· == ·)⟩).ReachableWhen
        (fun s batch => keepsTransports s batch = true) s ∧
      s.contexts.length = 1 ∧ NoLeak s := by
  obtain ⟨s, hs, hp⟩ := Machine.reachableWhen_of_exec_any (configSystem ⟨(· == ·), (· == ·)⟩)
    keepsTransports [streamAt [1], streamAt [1]] (fun s => decide (s.contexts.length = 1)) (by decide)
  exact ⟨s, hs, of_decide_eq_true hp, (noLeak_iff_keepsTransports _).1 s hs⟩

/-- When the address changes, the second call builds two contexts and leaves the first of them
running outside `streams_`. -/
theorem not_noLeak_of_streamAt :
    ∃ s, (configSystem ⟨(· == ·), (· == ·)⟩).Reachable s ∧ s.contexts.length = 3 ∧
      s.streams[([0x53] : Bytes)]? = some 2 ∧ s.stopped = [0] ∧ ¬NoLeak s := by
  obtain ⟨s, hs, hp⟩ := Machine.reachable_of_exec_any (configSystem ⟨(· == ·), (· == ·)⟩)
    [streamAt [1], streamAt [2]]
    (fun s => decide (s.contexts.length = 3 ∧ s.streams[([0x53] : Bytes)]? = some 2 ∧ s.stopped = [0] ∧
      s.contexts[1]?.map StreamContext.streamId = some [0x53])) (by decide)
  obtain ⟨hlen, hreg, hstopped, hid⟩ := of_decide_eq_true hp
  refine ⟨s, hs, hlen, hreg, hstopped, fun hleak => ?_⟩
  obtain ⟨stream, hstream, hid⟩ := Option.map_eq_some_iff.mp hid
  rcases hleak.accounted 1 stream hstream with hother | hstop
  · rw [hid, hreg] at hother
    cases hother
  · rw [hstopped] at hstop
    cases List.mem_singleton.mp hstop

end MediaAgent
