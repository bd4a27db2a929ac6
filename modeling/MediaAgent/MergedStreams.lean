import MediaAgent.ConfigFilter
import MediaAgent.Library.LastWins

/-!
# What the merge of configurations computes

For each stream id the valid entries of all configurations, in the order of the configuration ids
and of their positions, are merged: the last entry gives the transport fields, the last tracker
wins, and the algorithms are merged by their ids, each at its first place with its last content.
-/

namespace MediaAgent
open Std TreeMaps LastWins

/-! ## The declarative merge -/

/-- The id that algorithms are merged by; an empty id is none. -/
def algorithmKey (algorithm : AlgorithmConfig) : Option Bytes :=
  if algorithm.algorithmId.isEmpty then none else some algorithm.algorithmId

/-- An entry that `buildMergedStreams` does not skip. -/
def isValidEntry (stream : StreamConfig) : Bool :=
  stream.enabled && !stream.streamId.isEmpty && !stream.rtspUrl.isEmpty

/-- The entries of all configurations, in the order of configuration ids and positions. -/
def configuredStreams (configs : TreeMap Int AgentConfig) : List StreamConfig :=
  configs.toList.flatMap fun config => config.2.streams

def validEntries (configs : TreeMap Int AgentConfig) (id : Bytes) : List StreamConfig :=
  (configuredStreams configs).filter fun stream => isValidEntry stream && stream.streamId == id

/-- The merge of the entries of one stream. -/
def mergedEntries (entries : List StreamConfig) : Option StreamConfig :=
  entries.getLast?.map fun last =>
    { makeTransportStreamConfig last with
      algorithms := lastWins algorithmKey (entries.flatMap (·.algorithms))
      tracker := (entries.filterMap (·.tracker)).getLast? }

/-! ## One entry -/

/-- What one valid entry does to the merge state of its stream. -/
def mergeEntry (state : StreamMergeState) (stream : StreamConfig) : StreamMergeState :=
  mergeTracker stream (mergeAlgorithms stream { state with baseConfig := makeTransportStreamConfig stream })

lemma lookup_mergeStream (states : MergeStates) (stream : StreamConfig) (id : Bytes) :
    (mergeStream states stream)[id]? =
      if isValidEntry stream && stream.streamId == id then some (mergeEntry ((states[id]?).getD {}) stream)
      else states[id]? := by
  unfold mergeStream isValidEntry
  cases henabled : stream.enabled with
  | false => simp
  | true =>
    cases hid : stream.streamId.isEmpty with
    | true => simp
    | false =>
      cases hurl : stream.rtspUrl.isEmpty with
      | true => simp
      | false =>
        simp only [Bool.not_true, Bool.false_eq_true, ite_false, lookup_insert, TreeMap.getD_eq_getD_getElem?]
        by_cases he : stream.streamId = id
        · subst id
          simp [mergeEntry]
        · simp [he]

/-- The merge states over the entries of one stream. -/
def mergeEntries (state : Option StreamMergeState) (entries : List StreamConfig) : Option StreamMergeState :=
  entries.foldl (fun state stream => some (mergeEntry (state.getD {}) stream)) state

lemma lookup_foldl_mergeStream (streams : List StreamConfig) (states : MergeStates) (id : Bytes) :
    (streams.foldl mergeStream states)[id]? =
      mergeEntries states[id]? (streams.filter fun stream => isValidEntry stream && stream.streamId == id) := by
  induction streams generalizing states with
  | nil => rfl
  | cons stream streams ih =>
    rw [List.foldl_cons, ih, lookup_mergeStream, List.filter_cons]
    split <;> rfl

lemma lookup_mergedStates (configs : TreeMap Int AgentConfig) (id : Bytes) :
    (mergedStates configs)[id]? = mergeEntries none (validEntries configs id) := by
  have hflat : mergedStates configs = (configuredStreams configs).foldl mergeStream ∅ := by
    rw [configuredStreams, List.foldl_flatMap]
    rfl
  rw [hflat, lookup_foldl_mergeStream]
  simp [validEntries]

/-! ## The invariant of the merge state -/

/-- The tracker that `finalizeMergedStreamConfig` takes. -/
def StreamMergeState.mergedTracker (state : StreamMergeState) : Option TrackerConfig :=
  (finalizeMergedStreamConfig state).tracker

lemma mergedTracker_mergeTracker (stream : StreamConfig) (state : StreamMergeState) :
    (mergeTracker stream state).mergedTracker = stream.tracker.or state.mergedTracker := by
  unfold mergeTracker StreamMergeState.mergedTracker finalizeMergedStreamConfig
  cases stream.tracker with
  | none => rfl
  | some tracker => cases h : tracker.enabled <;> simp [h]

/-- The algorithms merged so far, with the map of their positions. -/
structure MergedAlgorithms (algorithms : List AlgorithmConfig) (state : StreamMergeState) : Prop where
  merged : state.algorithms = lastWins algorithmKey algorithms
  index : Indexed algorithmKey state.algorithms state.algorithmIndexById

lemma MergedAlgorithms.step {algorithms : List AlgorithmConfig} {state : StreamMergeState}
    (h : MergedAlgorithms algorithms state) (algorithm : AlgorithmConfig) :
    MergedAlgorithms (algorithms ++ [algorithm]) (mergeAlgorithm state algorithm) := by
  unfold mergeAlgorithm
  cases hid : algorithm.algorithmId.isEmpty with
  | true =>
    have hkey : algorithmKey algorithm = none := by simp [algorithmKey, hid]
    refine ⟨?_, ?_⟩
    · simp [h.merged, lastWins_append_fresh algorithmKey (.inl hkey)]
    · simpa using h.index.append_unkeyed algorithmKey hkey
  | false =>
    have hkey : algorithmKey algorithm = some algorithm.algorithmId := by simp [algorithmKey, hid]
    have hfresh : Fresh algorithmKey algorithms algorithm ↔
        ¬∃ i : Nat, state.algorithmIndexById[algorithm.algorithmId]? = some i := by
      rw [fresh_iff algorithmKey hkey, ← mem_keys_lastWins, ← h.merged, h.index.mem_keys]
    simp only [Bool.false_eq_true, ite_false]
    cases hindex : state.algorithmIndexById[algorithm.algorithmId]? with
    | none =>
      have hnew : Fresh algorithmKey algorithms algorithm := hfresh.mpr (by simp [hindex])
      refine ⟨?_, h.index.append_keyed algorithmKey hkey hindex⟩
      simp [h.merged, lastWins_append_fresh algorithmKey hnew]
    | some i =>
      have hseen : ¬Fresh algorithmKey algorithms algorithm := fun hf => hfresh.mp hf ⟨i, hindex⟩
      have hset := h.index.set_eq algorithmKey hkey hindex
      refine ⟨?_, ?_⟩
      · rw [lastWins_append_seen algorithmKey hseen, ← h.merged]
        exact hset
      · simp only [hset]
        exact h.index.map_replaceBy algorithmKey algorithm

lemma MergedAlgorithms.foldl {algorithms : List AlgorithmConfig} {state : StreamMergeState}
    (h : MergedAlgorithms algorithms state) (more : List AlgorithmConfig) :
    MergedAlgorithms (algorithms ++ more) (more.foldl mergeAlgorithm state) := by
  induction more generalizing algorithms state with
  | nil => simpa using h
  | cons algorithm more ih =>
    rw [List.foldl_cons, List.append_cons]
    exact ih (h.step algorithm)

lemma mergeAlgorithms_mergedTracker (stream : StreamConfig) (state : StreamMergeState) :
    (mergeAlgorithms stream state).mergedTracker = state.mergedTracker := by
  unfold mergeAlgorithms
  induction stream.algorithms generalizing state with
  | nil => rfl
  | cons algorithm algorithms ih =>
    rw [List.foldl_cons, ih]
    unfold mergeAlgorithm
    split
    · rfl
    · split <;> rfl

/-- The merge state after the entries: the transport fields of the last one, the last tracker, and
the algorithms merged so far. -/
structure Merged (entries : List StreamConfig) (state : StreamMergeState) : Prop where
  base : ∀ last, entries.getLast? = some last → state.baseConfig = makeTransportStreamConfig last
  tracker : state.mergedTracker = (entries.filterMap (·.tracker)).getLast?
  algorithms : MergedAlgorithms (entries.flatMap (·.algorithms)) state

lemma Merged.nil : Merged [] {} := by
  refine ⟨by simp, rfl, ⟨rfl, Indexed.nil algorithmKey⟩⟩

lemma MergedAlgorithms.congr {algorithms : List AlgorithmConfig} {state state' : StreamMergeState}
    (h : MergedAlgorithms algorithms state) (halgorithms : state'.algorithms = state.algorithms)
    (hindex : state'.algorithmIndexById = state.algorithmIndexById) : MergedAlgorithms algorithms state' :=
  ⟨halgorithms.trans h.merged, by simpa only [halgorithms, hindex] using h.index⟩

/-- One more valid entry. -/
lemma Merged.entry {entries : List StreamConfig} {state : StreamMergeState} (h : Merged entries state)
    (stream : StreamConfig) : Merged (entries ++ [stream]) (mergeEntry state stream) := by
  refine ⟨fun last hlast => ?_, ?_, ?_⟩
  · rw [List.getLast?_concat, Option.some.injEq] at hlast
    rw [mergeEntry, mergeTracker_baseConfig, mergeAlgorithms_baseConfig, hlast]
  · have hbase : StreamMergeState.mergedTracker
        { state with baseConfig := makeTransportStreamConfig stream } = state.mergedTracker := rfl
    rw [mergeEntry, mergedTracker_mergeTracker, mergeAlgorithms_mergedTracker, hbase, h.tracker,
      List.filterMap_append, List.getLast?_append]
    cases htracker : stream.tracker <;> simp [htracker]
  · have halgorithms : ∀ state : StreamMergeState,
        (mergeTracker stream state).algorithms = state.algorithms ∧
          (mergeTracker stream state).algorithmIndexById = state.algorithmIndexById := by
      intro state
      unfold mergeTracker
      split
      · exact ⟨rfl, rfl⟩
      · split <;> exact ⟨rfl, rfl⟩
    rw [List.flatMap_append]
    simp only [List.flatMap_cons, List.flatMap_nil, List.append_nil]
    have hbase : MergedAlgorithms (entries.flatMap (·.algorithms))
        { state with baseConfig := makeTransportStreamConfig stream } := h.algorithms.congr rfl rfl
    exact (hbase.foldl stream.algorithms).congr (halgorithms _).1 (halgorithms _).2

lemma merged_mergeEntries (entries : List StreamConfig) :
    (entries = [] ∧ mergeEntries none entries = none) ∨
      ∃ state, mergeEntries none entries = some state ∧ Merged entries state := by
  induction entries using List.reverseRecOn with
  | nil => exact .inl ⟨rfl, rfl⟩
  | append_singleton entries stream ih =>
    have hlast : mergeEntries none (entries ++ [stream]) =
        some (mergeEntry ((mergeEntries none entries).getD {}) stream) := by
      simp [mergeEntries]
    refine .inr ⟨_, hlast, ?_⟩
    rcases ih with ⟨rfl, -⟩ | ⟨state, hstate, hmerged⟩
    · exact Merged.nil.entry stream
    · rw [hstate]
      exact hmerged.entry stream

lemma finalize_of_merged {entries : List StreamConfig} {state : StreamMergeState} (h : Merged entries state)
    {last : StreamConfig} (hlast : entries.getLast? = some last) :
    mergedEntries entries = some (finalizeMergedStreamConfig state) := by
  have hfinal : finalizeMergedStreamConfig state =
      { state.baseConfig with algorithms := state.algorithms, tracker := state.mergedTracker } := rfl
  rw [hfinal, h.base last hlast, h.tracker, h.algorithms.merged]
  simp [mergedEntries, hlast]

/-- The merged map holds the declarative merge of the valid entries of every id. -/
theorem lookup_buildMergedStreams (configs : TreeMap Int AgentConfig) (id : Bytes) :
    (buildMergedStreams configs)[id]? = mergedEntries (validEntries configs id) := by
  rw [buildMergedStreams, TreeMap.getElem?_map, lookup_mergedStates]
  rcases merged_mergeEntries (validEntries configs id) with ⟨hnone, hstate⟩ | ⟨state, hstate, hmerged⟩
  · rw [hnone]
    rfl
  · rw [hstate]
    cases hlast : (validEntries configs id).getLast? with
    | none =>
      rw [List.getLast?_eq_none_iff.mp hlast] at hstate
      cases hstate
    | some last => exact (finalize_of_merged hmerged hlast).symm

lemma mem_validEntries {configs : TreeMap Int AgentConfig} {id : Bytes} {stream : StreamConfig} :
    stream ∈ validEntries configs id ↔
      (∃ (configId : Int) (agent : AgentConfig), configs[configId]? = some agent ∧ stream ∈ agent.streams) ∧
        stream.enabled = true ∧ stream.rtspUrl ≠ [] ∧ stream.streamId = id ∧ id ≠ [] := by
  have hconfigured : stream ∈ configuredStreams configs ↔
      ∃ (configId : Int) (agent : AgentConfig), configs[configId]? = some agent ∧ stream ∈ agent.streams := by
    simp [configuredStreams, TreeMap.mem_toList_iff_getElem?_eq_some]
  rw [validEntries, List.mem_filter, hconfigured]
  refine and_congr_right fun _ => ?_
  simp only [isValidEntry, Bool.and_eq_true, Bool.not_eq_true', List.isEmpty_eq_false_iff, beq_iff_eq]
  constructor
  · rintro ⟨⟨⟨henabled, hid⟩, hurl⟩, rfl⟩
    exact ⟨henabled, hurl, rfl, hid⟩
  · rintro ⟨henabled, hurl, rfl, hid⟩
    exact ⟨⟨⟨henabled, hid⟩, hurl⟩, rfl⟩

/-- The configuration of a stream with these valid entries. -/
structure MergesTo (entries : List StreamConfig) (config : StreamConfig) : Prop where
  transport : ∃ last, entries.getLast? = some last ∧
    makeTransportStreamConfig config = makeTransportStreamConfig last
  tracker : config.tracker = (entries.filterMap (·.tracker)).getLast?
  places : config.algorithms.map algorithmKey =
    (firsts algorithmKey (entries.flatMap (·.algorithms))).map algorithmKey
  contents : ∀ algorithm ∈ config.algorithms, ∀ id, algorithmKey algorithm = some id →
    (entries.flatMap (·.algorithms)).reverse.find? (fun a => decide (algorithmKey a = some id)) =
      some algorithm
  ids : ∀ id, id ∈ config.algorithms.filterMap algorithmKey ↔
    id ∈ (entries.flatMap (·.algorithms)).filterMap algorithmKey
  nodup : (config.algorithms.filterMap algorithmKey).Nodup
  unnamed : config.algorithms.filter (fun a => decide (algorithmKey a = none)) =
    (entries.flatMap (·.algorithms)).filter fun a => decide (algorithmKey a = none)

lemma mergesTo_of_mergedEntries {entries : List StreamConfig} {config : StreamConfig}
    (h : mergedEntries entries = some config) : MergesTo entries config := by
  obtain ⟨last, hlast, rfl⟩ := Option.map_eq_some_iff.mp h
  exact ⟨⟨last, hlast, rfl⟩, rfl, map_key_lastWins _ _, fun _ ha _ hk => content_lastWins _ ha hk,
    mem_keys_lastWins _ _, nodup_keys_lastWins _ _, unkeyed_lastWins _ _⟩

/-- `buildMergedStreams` has the ids with a valid entry and merges the valid entries of each: the
last transport fields, the last tracker, and every algorithm id once, at its first place and with
its last content. -/
theorem buildMergedStreams_mergesTo (configs : TreeMap Int AgentConfig) (id : Bytes) :
    (id ∈ buildMergedStreams configs ↔
      id ≠ [] ∧ ∃ (configId : Int) (agent : AgentConfig), configs[configId]? = some agent ∧
        ∃ stream ∈ agent.streams, stream.enabled = true ∧ stream.rtspUrl ≠ [] ∧ stream.streamId = id) ∧
    ∀ config, (buildMergedStreams configs)[id]? = some config →
      mergedEntries (validEntries configs id) = some config ∧ MergesTo (validEntries configs id) config := by
  have hlookup := lookup_buildMergedStreams configs id
  refine ⟨?_, fun config hconfig => ?_⟩
  · have hmem : id ∈ buildMergedStreams configs ↔ ∃ stream, stream ∈ validEntries configs id := by
      rw [← TreeMap.isSome_getElem?_iff_mem, hlookup, mergedEntries, Option.isSome_map,
        List.getLast?_isSome]
      exact ⟨List.exists_mem_of_ne_nil _, fun h => h.elim fun _ hmem => List.ne_nil_of_mem hmem⟩
    rw [hmem]
    constructor
    · rintro ⟨stream, hstream⟩
      obtain ⟨⟨configId, agent, hagent, hstream⟩, henabled, hurl, hid, hne⟩ := mem_validEntries.mp hstream
      exact ⟨hne, configId, agent, hagent, stream, hstream, henabled, hurl, hid⟩
    · rintro ⟨hne, configId, agent, hagent, stream, hstream, henabled, hurl, hid⟩
      exact ⟨stream, mem_validEntries.mpr ⟨⟨configId, agent, hagent, hstream⟩, henabled, hurl, hid, hne⟩⟩
  · rw [hlookup] at hconfig
    exact ⟨hconfig, mergesTo_of_mergedEntries hconfig⟩

/-- Two configurations of one stream: the second one moves it, replaces the algorithm of the first
and adds one. -/
def twoConfigs : TreeMap Int AgentConfig :=
  ((∅ : TreeMap Int AgentConfig).insert 1 { configId := 1, streams :=
    [{ enabled := true, streamId := [1], rtspUrl := [7], algorithms := [{ algorithmId := [5], alarmLevel := 1 }]
       tracker := some { enabled := true } }] }).insert 2 { configId := 2, streams :=
    [{ enabled := true, streamId := [1], rtspUrl := [8]
       algorithms := [{ algorithmId := [6] }, { algorithmId := [5], alarmLevel := 2 }] },
     { enabled := false, streamId := [2], rtspUrl := [9] }] }

/-- The merge of `twoConfigs`: the algorithm `[5]` keeps its place and gets its new content. -/
def twoConfigsMerged : StreamConfig :=
  { enabled := true, streamId := [1], rtspUrl := [8]
    algorithms := [{ algorithmId := [5], alarmLevel := 2 }, { algorithmId := [6] }]
    tracker := some { enabled := true } }

theorem buildMergedStreams_mergesTo_twoConfigs :
    (buildMergedStreams twoConfigs)[([1] : Bytes)]? = some twoConfigsMerged ∧
      MergesTo (validEntries twoConfigs [1]) twoConfigsMerged := by
  have hmerged : (buildMergedStreams twoConfigs)[([1] : Bytes)]? = some twoConfigsMerged := by decide
  exact ⟨hmerged, ((buildMergedStreams_mergesTo twoConfigs [1]).2 _ hmerged).2⟩

end MediaAgent
