import MediaAgent.Detector

/-!
# The algorithm of a detection

A detection makes three choices from the list of algorithms: `init` loads the first model path, the
preprocess steps take the threshold and the id of the first algorithm that is active, and the alarm
is reported with the first algorithm that has this id. They are one choice exactly when the first
active algorithm is the first with its id and its model path is the first in the list.
-/

namespace MediaAgent

section

variable {τ : Type}

/-- A call of `detect`. -/
structure DetectCall where
  frame : FrameBundle
  cfg : StreamConfig
  clock : DetectClock

namespace AlgoDetector

variable (edge : EdgeInfer) (trackers : ITracker τ) (same : SameProtoMessage)

/-- The detector after some calls of `detect`. -/
def after (d : AlgoDetector τ) (calls : List DetectCall) : AlgoDetector τ :=
  calls.foldl (fun d call => (d.detect edge trackers same call.frame call.cfg call.clock).2) d

end AlgoDetector

/-- One algorithm of the configuration has the model that was loaded, is active, gave the threshold and
the id, and is the one that the alarm is reported for. -/
def OneAlgorithm (cfg : StreamConfig) (systemNowMs : Int) (model : Option Bytes) (threshold : F32)
    (algorithmId : Bytes) : Prop :=
  ∃ a ∈ cfg.algorithms, model = some a.modelPath ∧ isAlgorithmActiveNow systemNowMs a = true ∧
    threshold = a.threshold ∧ algorithmId = a.algorithmId ∧ selectAlarmConfig cfg algorithmId = a

/-- The first active algorithm is the first with its id, or the very first if its id is empty, and has
the first model path of the list. -/
def FirstIsActive (algorithms : List AlgorithmConfig) (systemNowMs : Int) : Prop :=
  ∃ before a after, algorithms = before ++ a :: after ∧ isAlgorithmActiveNow systemNowMs a = true ∧
    (∀ b ∈ before, isAlgorithmActiveNow systemNowMs b = false) ∧
    (∀ b ∈ before, b.algorithmId ≠ a.algorithmId) ∧ (a.algorithmId = [] → before = []) ∧
    (algorithms.map (·.modelPath)).find? (fun path => decide (path ≠ [])) = some a.modelPath

namespace AlgoDetector

variable {edge : EdgeInfer} {trackers : ITracker τ} {same : SameProtoMessage} {d : AlgoDetector τ}

lemma init_eq_true {d' : AlgoDetector τ} (h : d.init edge = (true, d')) :
    d'.inited = true ∧ d'.infer = (d.cfg.algorithms.map (·.modelPath)).find? fun path => decide (path ≠ []) := by
  unfold init at h
  split at h
  · simp at h
  · rename_i front rest hpaths
    split at h
    · simp only [Prod.mk.injEq, true_and] at h
      subst d'
      refine ⟨rfl, ?_⟩
      rw [← List.head?_filter, hpaths]
      rfl
    · simp at h

/-- A call of `detect` keeps the model. -/
lemma detect_infer (frame : FrameBundle) (cfg : StreamConfig) (clock : DetectClock) :
    (d.detect edge trackers same frame cfg clock).2.infer = d.infer := by
  unfold detect
  split
  · split
    · rfl
    · split
      · rfl
      · dsimp only
        split
        · rfl
        · split <;> rfl
  · rfl

lemma after_infer (calls : List DetectCall) : (d.after edge trackers same calls).infer = d.infer := by
  induction calls generalizing d with
  | nil => rfl
  | cons call calls ih =>
    exact ih.trans (detect_infer call.frame call.cfg call.clock)

end AlgoDetector

/-! ## When the choices agree -/

variable {cfg : StreamConfig} {systemNowMs : Int} {before after : List AlgorithmConfig} {a : AlgorithmConfig}

/-- The alarm is reported for an algorithm when no other one before it has its id. -/
lemma selectAlarmConfig_eq (hsplit : cfg.algorithms = before ++ a :: after)
    (hids : ∀ b ∈ before, b.algorithmId ≠ a.algorithmId) (hempty : a.algorithmId = [] → before = []) :
    selectAlarmConfig cfg a.algorithmId = a := by
  unfold selectAlarmConfig
  by_cases hid : a.algorithmId = []
  · simp [hid, hsplit, hempty hid]
  · have hfind : cfg.algorithms.find? (fun b => b.algorithmId == a.algorithmId) = some a := by
      rw [hsplit, List.find?_append, List.find?_eq_none.mpr]
      · simp
      · intro b hb
        simpa using hids b hb
    simp [hid, hfind]

/-- When the alarm is reported for an active algorithm with the id of the first active one, it is that
one, and no other one before it has its id. -/
lemma eq_of_selectAlarmConfig (hsplit : cfg.algorithms = before ++ a :: after)
    (hbefore : ∀ b ∈ before, isAlgorithmActiveNow systemNowMs b = false)
    (hactive : isAlgorithmActiveNow systemNowMs (selectAlarmConfig cfg a.algorithmId) = true) :
    selectAlarmConfig cfg a.algorithmId = a ∧ (∀ b ∈ before, b.algorithmId ≠ a.algorithmId) ∧
      (a.algorithmId = [] → before = []) := by
  have hnot : selectAlarmConfig cfg a.algorithmId ∉ before := by
    intro hmem
    rw [hbefore _ hmem] at hactive
    cases hactive
  have hempty : a.algorithmId = [] → before = [] := by
    intro hid
    cases before with
    | nil => rfl
    | cons b before =>
      have hfirst : selectAlarmConfig cfg a.algorithmId = b := by simp [selectAlarmConfig, hid, hsplit]
      rw [hfirst] at hnot
      exact absurd (List.mem_cons_self ..) hnot
  have hids : ∀ b ∈ before, b.algorithmId ≠ a.algorithmId := by
    intro b hb hid
    by_cases hnil : a.algorithmId = []
    · rw [hempty hnil] at hb
      cases hb
    · have hfound : (before.find? fun b => b.algorithmId == a.algorithmId).isSome = true :=
        List.find?_isSome.mpr ⟨b, hb, beq_iff_eq.mpr hid⟩
      obtain ⟨first, hfirst⟩ := Option.isSome_iff_exists.mp hfound
      have hselect : selectAlarmConfig cfg a.algorithmId = first := by
        simp [selectAlarmConfig, hnil, hsplit, List.find?_append, hfirst]
      rw [hselect] at hnot
      exact hnot (List.mem_of_find?_eq_some hfirst)
  exact ⟨selectAlarmConfig_eq hsplit hids hempty, hids, hempty⟩

/-- For the first active algorithm, the three choices are one exactly when it comes first. -/
lemma oneAlgorithm_first {rest : List AlgorithmConfig} {model : Bytes}
    (hfirst : cfg.algorithms.filter (isAlgorithmActiveNow systemNowMs) = a :: rest)
    (hmodel : (cfg.algorithms.map (·.modelPath)).find? (fun path => decide (path ≠ [])) = some model) :
    OneAlgorithm cfg systemNowMs (some model) a.threshold a.algorithmId ↔
      FirstIsActive cfg.algorithms systemNowMs := by
  constructor
  · rintro ⟨a', -, hpath, hactive, -, -, hselect⟩
    obtain ⟨before, after, hsplit, hbefore, ha, -⟩ := List.filter_eq_cons_iff.mp hfirst
    have hbefore : ∀ b ∈ before, isAlgorithmActiveNow systemNowMs b = false :=
      fun b hb => Bool.eq_false_iff.mpr (hbefore b hb)
    rw [← hselect] at hactive
    obtain ⟨hsame, hids, hempty⟩ := eq_of_selectAlarmConfig hsplit hbefore hactive
    refine ⟨before, a, after, hsplit, ha, hbefore, hids, hempty, ?_⟩
    rw [hmodel, hpath, ← hselect, hsame]
  · rintro ⟨before, b, after, hsplit, hb, hbefore, hids, hempty, hpath⟩
    have hbs : before.filter (isAlgorithmActiveNow systemNowMs) = [] :=
      List.filter_eq_nil_iff.mpr fun c hc => by simp [hbefore c hc]
    rw [hsplit, List.filter_append, hbs, List.nil_append, List.filter_cons_of_pos hb] at hfirst
    obtain rfl : b = a := (List.cons.inj hfirst).1
    rw [hmodel] at hpath
    exact ⟨b, by simp [hsplit], hpath, hb, rfl, rfl, selectAlarmConfig_eq hsplit hids hempty⟩

/-- A detector that was initialised for a configuration, after any calls: when a call completes an
inference, the model, the schedule, the threshold, the id and the alarm are those of one algorithm if
and only if the first active algorithm comes first. -/
theorem oneAlgorithm_iff_firstIsActive (edge : EdgeInfer) (trackers : ITracker τ) (same : SameProtoMessage)
    (cfg : StreamConfig) (d : AlgoDetector τ) (calls : List DetectCall) (frame : FrameBundle)
    (clock : DetectClock) (context : AlgoDetectContext) (rawResults : List ObjectResult)
    (hinit : AlgoDetector.init edge { cfg := cfg } = (true, d))
    (h : (d.after edge trackers same calls).Completes edge frame cfg clock context rawResults) :
    OneAlgorithm cfg clock.systemNowMs (d.after edge trackers same calls).infer context.confidenceThreshold
        ((d.after edge trackers same calls).detect edge trackers same frame cfg clock).1.algorithmId ↔
      FirstIsActive cfg.algorithms clock.systemNowMs := by
  obtain ⟨-, -, hthreshold, rest, hfirst⟩ := runPreprocessSteps_eq_true h.context
  obtain ⟨model, image, hmodel, -⟩ := h.image
  have hpath := hmodel
  rw [AlgoDetector.after_infer, (AlgoDetector.init_eq_true hinit).2] at hpath
  rw [(AlgoDetector.detect_of_completes trackers same h).2, hmodel, hthreshold]
  exact oneAlgorithm_first hfirst hpath

end

/-- A model library that loads every model and finds nothing. -/
def emptyEdge : EdgeInfer where
  init _ := true
  infer _ _ _ := some []

/-- Trackers that leave the objects as they are. -/
def idleTracker : ITracker Unit where
  create _ := ()
  init t := (true, t)
  track t _ objects _ := (objects, t)

/-- Two algorithms with models of their own; the first is no longer active. -/
def expiredFirst : StreamConfig where
  algorithms := [{ algorithmId := [1], modelPath := [1], endDate := 1 }, { algorithmId := [2], modelPath := [2] }]

/-- A frame with an image. -/
def imageFrame : FrameBundle where
  frameId := 7
  decodedImage := some { fd := 3 }

/-- Two algorithms with one model: one ended at second 1, the other runs from second 2 to second 9. -/
def twoSchedules : StreamConfig where
  algorithms := [
    { algorithmId := [1], modelPath := [1], startDate := 0, endDate := 1 },
    { algorithmId := [2], modelPath := [1], threshold := ⟨0x3F000000⟩, startDate := 2, endDate := 9 }]

/-- In second 5, after a call in second 1, the second algorithm is the one algorithm. -/
theorem oneAlgorithm_iff_firstIsActive_twoSchedules :
    OneAlgorithm twoSchedules 5000 (some [1]) ⟨0x3F000000⟩ [2] ↔ FirstIsActive twoSchedules.algorithms 5000 :=
  oneAlgorithm_iff_firstIsActive emptyEdge idleTracker structuralEquality twoSchedules _
    [⟨imageFrame, twoSchedules, ⟨1000, 0, 0, 0⟩⟩] imageFrame ⟨5000, 0, 0, 0⟩ _ _ rfl
    ⟨rfl, ⟨_, _, rfl, rfl, by decide, rfl⟩, rfl⟩

/-- The model of the expired algorithm is loaded, and the result is reported for the other one. -/
theorem not_oneAlgorithm_expiredFirst :
    ∃ (d : AlgoDetector Unit) (context : AlgoDetectContext) (rawResults : List ObjectResult),
      AlgoDetector.init emptyEdge { cfg := expiredFirst } = (true, d) ∧
      d.Completes emptyEdge imageFrame expiredFirst ⟨5000, 0, 0, 0⟩ context rawResults ∧
      ¬OneAlgorithm expiredFirst 5000 d.infer context.confidenceThreshold
        (d.detect emptyEdge idleTracker structuralEquality imageFrame expiredFirst ⟨5000, 0, 0, 0⟩).1.algorithmId := by
  refine ⟨_, _, _, rfl, ⟨rfl, ⟨_, _, rfl, rfl, by decide, rfl⟩, rfl⟩, ?_⟩
  rintro ⟨a, ha, hmodel, hactive, -⟩
  simp only [expiredFirst, List.mem_cons, List.not_mem_nil, or_false] at ha
  rcases ha with rfl | rfl
  · exact absurd hactive (by decide)
  · exact absurd hmodel (by decide)

end MediaAgent
