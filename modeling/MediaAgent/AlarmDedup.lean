import MediaAgent.Detector
import MediaAgent.Library.Cooldown

/-!
# The deduplication of alarms

`DeduplicateAlarmPostprocessStep` over the frames of a stream. Its two tables hold the last alarm of an object
id and of a class id and lose what has left the window before each frame; they decide as the full history of
the alarms that were kept does, in which an object stands under its id or its class.
-/

namespace MediaAgent
open Std TreeMaps Cooldown

/-- What the alarm of an object is remembered under. -/
inductive AlarmKey
  | objectId (id : UInt32)
  | classId (id : UInt32)
  deriving DecidableEq, Repr

/-- The object id if the objects are tracked and it has one, and its class otherwise. -/
def alarmKey (cfg : StreamConfig) (object : DetectionObject) : AlarmKey :=
  let trackerEnabled := match cfg.tracker with
    | none => false
    | some tracker => tracker.enabled
  if trackerEnabled && decide (0 < object.objectId) then .objectId object.objectId else .classId object.classId

/-! ## The tables -/

lemma getAlarmDedupWindowMs_pos (cfg : StreamConfig) : 0 < getAlarmDedupWindowMs cfg := by
  unfold getAlarmDedupWindowMs
  split
  · decide
  · omega

namespace DeduplicateAlarmPostprocessStep

variable {step : DeduplicateAlarmPostprocessStep} {cfg : StreamConfig} {now window : Int}

/-- The time of the last alarm in the table of a key. -/
def lastAlarm (step : DeduplicateAlarmPostprocessStep) : AlarmKey → Option Int
  | .objectId id => step.lastAlarmByObjectIdMonoMs[id]?
  | .classId id => step.lastAlarmByClassIdMonoMs[id]?

lemma lastAlarm_prune (step : DeduplicateAlarmPostprocessStep) (now window : Int) (key : AlarmKey) :
    (step.pruneExpiredEntries now window).lastAlarm key =
      (step.lastAlarm key).filter fun t => !decide (t ≤ now - window) := by
  cases key with
  | objectId id => exact TreeMap.getElem?_filter'
  | classId id => exact TreeMap.getElem?_filter'

/-- An alarm is entered into the table of its key. -/
def recordAlarm (step : DeduplicateAlarmPostprocessStep) (now : Int) : AlarmKey → DeduplicateAlarmPostprocessStep
  | .objectId id => { step with lastAlarmByObjectIdMonoMs := step.lastAlarmByObjectIdMonoMs.insert id now }
  | .classId id => { step with lastAlarmByClassIdMonoMs := step.lastAlarmByClassIdMonoMs.insert id now }

lemma lastAlarm_recordAlarm (step : DeduplicateAlarmPostprocessStep) (now : Int) (key key' : AlarmKey) :
    (step.recordAlarm now key).lastAlarm key' = if key = key' then some now else step.lastAlarm key' := by
  cases key with
  | objectId id =>
    cases key' with
    | objectId id' => simp [lastAlarm, recordAlarm, lookup_insert]
    | classId id' => simp [lastAlarm, recordAlarm]
  | classId id =>
    cases key' with
    | objectId id' => simp [lastAlarm, recordAlarm]
    | classId id' => simp [lastAlarm, recordAlarm, lookup_insert]

/-- An object is dropped when the last alarm of its key is recent, and is else the last alarm of its key. -/
lemma shouldKeepObject_eq (step : DeduplicateAlarmPostprocessStep) (cfg : StreamConfig) (object : DetectionObject)
    (now window : Int) : step.shouldKeepObject cfg object now window =
      if (step.lastAlarm (alarmKey cfg object)).any fun t => decide (now - t < window) then (false, step)
      else (true, step.recordAlarm now (alarmKey cfg object)) := by
  unfold shouldKeepObject alarmKey
  dsimp only
  cases cfg.tracker with
  | none =>
    simp only [Bool.false_and, Bool.false_eq_true, if_false, lastAlarm, recordAlarm]
    cases step.lastAlarmByClassIdMonoMs[object.classId]? <;> rfl
  | some tracker =>
    by_cases htracked : (tracker.enabled && decide (0 < object.objectId)) = true
    · simp only [if_pos htracked, lastAlarm, recordAlarm]
      cases step.lastAlarmByObjectIdMonoMs[object.objectId]? <;> rfl
    · simp only [if_neg htracked, lastAlarm, recordAlarm]
      cases step.lastAlarmByClassIdMonoMs[object.classId]? <;> rfl

/-- The loop over the objects of a frame lets through what the history lets through. -/
lemma filterObjects_eq (cfg : StreamConfig) {history : List (AlarmKey × Int)}
    (h : Agrees window now step.lastAlarm history) (objects : List DetectionObject) :
    (filterObjects cfg now window step objects).1 = (letThrough (alarmKey cfg) window now history objects).1 ∧
      Agrees window now (filterObjects cfg now window step objects).2.lastAlarm
        (letThrough (alarmKey cfg) window now history objects).2 := by
  induction objects generalizing step history with
  | nil => exact ⟨rfl, h⟩
  | cons object objects ih =>
    have hsame := h.same now (Int.le_refl now) (alarmKey cfg object)
    rw [filterObjects, letThrough, shouldKeepObject_eq]
    by_cases hfree : Free window now history (alarmKey cfg object)
    · have hout : ¬((step.lastAlarm (alarmKey cfg object)).any fun t => decide (now - t < window)) = true := by
        simpa [Option.any_eq_true] using hsame.mpr hfree
      have hkept := h.keep (alarmKey cfg object) (step.lastAlarm_recordAlarm now (alarmKey cfg object))
      obtain ⟨hobjects, hagrees⟩ := ih hkept
      simp only [if_pos hfree, if_neg hout, if_true, hobjects]
      exact ⟨trivial, hagrees⟩
    · have hin : ((step.lastAlarm (alarmKey cfg object)).any fun t => decide (now - t < window)) = true := by
        by_contra hout
        exact hfree (hsame.mp (by simpa [Option.any_eq_true] using hout))
      obtain ⟨hobjects, hagrees⟩ := ih h
      simp only [if_neg hfree, if_pos hin, Bool.false_eq_true, if_false, hobjects]
      exact ⟨trivial, hagrees⟩

/-- One frame, at a time that is not before the last one. -/
lemma run_eq {history : List (AlarmKey × Int)} {start : Int}
    (h : Agrees (getAlarmDedupWindowMs cfg) start step.lastAlarm history) (steadyNowMs : Int)
    {output : FrameInferenceResult} (hpos : 0 < output.inferDoneMonoMs) (hle : start ≤ output.inferDoneMonoMs) :
    (step.run cfg steadyNowMs output).1.alarmObjects =
        (letThrough (alarmKey cfg) (getAlarmDedupWindowMs cfg) output.inferDoneMonoMs history output.objects).1 ∧
      Agrees (getAlarmDedupWindowMs cfg) output.inferDoneMonoMs (step.run cfg steadyNowMs output).2.lastAlarm
        (letThrough (alarmKey cfg) (getAlarmDedupWindowMs cfg) output.inferDoneMonoMs history output.objects).2 := by
  unfold DeduplicateAlarmPostprocessStep.run
  by_cases hempty : output.objects = []
  · rw [if_pos hempty, hempty]
    exact ⟨rfl, h.later hle⟩
  · have hwindow : ¬getAlarmDedupWindowMs cfg ≤ 0 := Int.not_le.mpr (getAlarmDedupWindowMs_pos cfg)
    have hpruned := (h.later hle).prune (step.lastAlarm_prune output.inferDoneMonoMs (getAlarmDedupWindowMs cfg))
    simp only [if_neg hempty, if_pos hpos, if_neg hwindow]
    exact filterObjects_eq cfg hpruned output.objects

end DeduplicateAlarmPostprocessStep

/-! ## The frames of a stream -/

/-- The alarm objects of the frames that one step processes one after the other, each with a reading of the
steady clock. -/
def alarmObjectsOf (cfg : StreamConfig) :
    DeduplicateAlarmPostprocessStep → List (Int × FrameInferenceResult) → List (List DetectionObject)
  | _, [] => []
  | step, (steadyNowMs, output) :: frames =>
    let r := step.run cfg steadyNowMs output
    r.1.alarmObjects :: alarmObjectsOf cfg r.2 frames

/-- The same frames with tables from which nothing is ever dropped. -/
def unprunedAlarms (cfg : StreamConfig) :
    DeduplicateAlarmPostprocessStep → List (Int × FrameInferenceResult) → List (List DetectionObject)
  | _, [] => []
  | step, (_, output) :: frames =>
    let r := step.filterObjects cfg output.inferDoneMonoMs (getAlarmDedupWindowMs cfg) output.objects
    r.1 :: unprunedAlarms cfg r.2 frames

/-- The rule over the full history: an object is kept unless an alarm with its key was kept less than the window
before. -/
def naiveAlarms (cfg : StreamConfig) :
    List (AlarmKey × Int) → List (Int × FrameInferenceResult) → List (List DetectionObject)
  | _, [] => []
  | history, (_, output) :: frames =>
    let r := letThrough (alarmKey cfg) (getAlarmDedupWindowMs cfg) output.inferDoneMonoMs history output.objects
    r.1 :: naiveAlarms cfg r.2 frames

lemma naiveAlarms_sublist (cfg : StreamConfig) (history : List (AlarmKey × Int))
    (frames : List (Int × FrameInferenceResult)) :
    List.Forall₂ (fun alarms frame => alarms.Sublist frame.2.objects) (naiveAlarms cfg history frames) frames := by
  induction frames generalizing history with
  | nil => exact .nil
  | cons frame frames ih =>
    rw [naiveAlarms]
    exact .cons (letThrough_sublist ..) (ih _)

/-- The frames from a state on that agrees with a history. -/
lemma alarmObjectsOf_eq {cfg : StreamConfig} {step unpruned : DeduplicateAlarmPostprocessStep}
    {history : List (AlarmKey × Int)} {start : Int}
    (h : Agrees (getAlarmDedupWindowMs cfg) start step.lastAlarm history)
    (hunpruned : Agrees (getAlarmDedupWindowMs cfg) start unpruned.lastAlarm history)
    {frames : List (Int × FrameInferenceResult)} (hpos : ∀ frame ∈ frames, 0 < frame.2.inferDoneMonoMs)
    (hstart : ∀ frame ∈ frames, start ≤ frame.2.inferDoneMonoMs)
    (horder : frames.Pairwise fun frame later => frame.2.inferDoneMonoMs ≤ later.2.inferDoneMonoMs) :
    alarmObjectsOf cfg step frames = naiveAlarms cfg history frames ∧
      unprunedAlarms cfg unpruned frames = naiveAlarms cfg history frames := by
  induction frames generalizing step unpruned history start with
  | nil => exact ⟨rfl, rfl⟩
  | cons frame frames ih =>
    obtain ⟨steadyNowMs, output⟩ := frame
    obtain ⟨hnext, hrest⟩ := List.pairwise_cons.mp horder
    have hle := hstart _ (List.mem_cons_self ..)
    obtain ⟨halarms, hagrees⟩ := DeduplicateAlarmPostprocessStep.run_eq h steadyNowMs
      (hpos _ (List.mem_cons_self ..)) hle
    obtain ⟨halarms', hagrees'⟩ := DeduplicateAlarmPostprocessStep.filterObjects_eq cfg
      (hunpruned.later hle) output.objects
    obtain ⟨hpruned, hnever⟩ := ih hagrees hagrees' (fun frame hf => hpos frame (List.mem_cons_of_mem _ hf)) hnext hrest
    rw [alarmObjectsOf, unprunedAlarms, naiveAlarms]
    exact ⟨by rw [halarms, hpruned], by rw [halarms', hnever]⟩

/-- For every sequence of frames with positive times that do not decrease, the alarm objects of each frame are those
that the rule over the full history keeps, in their order; tables that are never pruned keep the same ones. -/
theorem alarmObjectsOf_eq_naive (cfg : StreamConfig) (frames : List (Int × FrameInferenceResult))
    (hpos : ∀ frame ∈ frames, 0 < frame.2.inferDoneMonoMs)
    (horder : frames.Pairwise fun frame later => frame.2.inferDoneMonoMs ≤ later.2.inferDoneMonoMs) :
    alarmObjectsOf cfg {} frames = naiveAlarms cfg [] frames ∧
      List.Forall₂ (fun alarms frame => alarms.Sublist frame.2.objects) (alarmObjectsOf cfg {} frames) frames ∧
      alarmObjectsOf cfg {} frames = unprunedAlarms cfg {} frames := by
  have hempty : Agrees (getAlarmDedupWindowMs cfg) 0 (({} : DeduplicateAlarmPostprocessStep).lastAlarm) [] := by
    refine .empty _ _ fun key => ?_
    cases key <;> simp [DeduplicateAlarmPostprocessStep.lastAlarm]
  obtain ⟨hpruned, hnever⟩ := alarmObjectsOf_eq hempty hempty hpos (fun frame hf => (hpos frame hf).le) horder
  refine ⟨hpruned, ?_, hpruned.trans hnever.symm⟩
  rw [hpruned]
  exact naiveAlarms_sublist cfg [] frames

/-- A tracked object and an object of the same number as its class do not suppress each other; an alarm comes again
when the window is over, to the millisecond. -/
theorem alarmObjectsOf_eq_naive_twoKeys :
    naiveAlarms { alarmDedupIntervalS := 1, tracker := some { enabled := true } } []
      [(0, { objects := [{ objectId := 7, classId := 1 }, { classId := 7 }, { classId := 7 }], inferDoneMonoMs := 5 }),
        (0, { objects := [{ objectId := 7, classId := 2 }, { classId := 7 }], inferDoneMonoMs := 1004 }),
        (0, { objects := [{ classId := 7 }], inferDoneMonoMs := 1005 })] =
      [[{ objectId := 7, classId := 1 }, { classId := 7 }], [], [{ classId := 7 }]] := by
  have hrun := alarmObjectsOf_eq_naive { alarmDedupIntervalS := 1, tracker := some { enabled := true } }
    [(0, { objects := [{ objectId := 7, classId := 1 }, { classId := 7 }, { classId := 7 }], inferDoneMonoMs := 5 }),
      (0, { objects := [{ objectId := 7, classId := 2 }, { classId := 7 }], inferDoneMonoMs := 1004 }),
      (0, { objects := [{ classId := 7 }], inferDoneMonoMs := 1005 })] (by decide) (by decide)
  rw [← hrun.1]
  decide +kernel

end MediaAgent
