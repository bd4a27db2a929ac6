import MediaAgent.AlgorithmChoice
import MediaAgent.Pipeline
import MediaAgent.PublishLoop

/-!
# The end of an inference task

A turn of `inferLoop` marks the frame of its task as running and ends with calls that should finish the
frame: a result that carries the frame's id, or a cleared selection. A detection that returns early
carries no frame id, and the frame then stays as it is unless another selection gives it up.
-/

namespace MediaAgent
open Std TreeMaps

/-! ## The calls -/

/-- A call of `IStreamBuffer` by any thread. -/
inductive BufferCall
  | enqueuePacket (packet : Option EncodedPacket)
  | enqueueFrame (frame : Option FrameBundle)
  | popPacket
  | releaseFrame (frameId : Int)
  | takeCachedInferenceResult (context : TakeContext) (frameId pts : Int)
  | stop
  | worker (call : WorkerCall)

def BufferCall.apply (c : BufferCall) (b : StreamBuffer) : StreamBuffer :=
  match c with
  | enqueuePacket packet => (b.enqueuePacket packet).2
  | enqueueFrame frame => (b.enqueueFrame frame).2
  | popPacket => b.popPacket
  | releaseFrame frameId => b.releaseFrame frameId
  | takeCachedInferenceResult context frameId pts =>
    (b.takeCachedInferenceResult context.visit frameId pts context.nowMonoMs).2
  | stop => b.stop
  | worker call => call.apply b

/-- The buffer after some calls. -/
def StreamBuffer.after (b : StreamBuffer) (calls : List BufferCall) : StreamBuffer :=
  calls.foldl (fun b c => c.apply b) b

lemma after_append (b : StreamBuffer) (calls : List BufferCall) (c : BufferCall) :
    b.after (calls ++ [c]) = c.apply (b.after calls) := by
  rw [StreamBuffer.after, List.foldl_append]
  rfl

/-- How a task is given back to the scheduler. -/
inductive TaskEnd
  | completeTask
  | cancelTask
  deriving DecidableEq, Repr

/-- What a worker meets: the stream that `findStream` returns, and the detector, its configuration and
the clock when it holds the detector's lock. -/
structure WorkerView (τ : Type) where
  stream : Option StreamContext
  detector : Option (AlgoDetector τ)
  config : StreamConfig
  clock : DetectClock

section

variable {τ : Type}

/-- The calls on the buffer that follow `markInferenceRunning` in a turn of `inferLoop`, and how the
task ends. -/
def inferLoopTurn (edge : EdgeInfer) (trackers : ITracker τ) (same : SameProtoMessage) (frame : FrameBundle)
    (view : WorkerView τ) : List WorkerCall × TaskEnd :=
  let dropped := ([WorkerCall.clearInferenceSelection frame.frameId .dropped], TaskEnd.cancelTask)
  match view.stream with
  | none => dropped
  | some stream =>
    if stream.stopFlag || frame.decodedImage.isNone then dropped
    else
      match view.detector with
      | none => dropped
      | some detector =>
        let inferenceResult := (detector.detect edge trackers same frame view.config view.clock).1
        ([.markInferenceDone inferenceResult, .updateCachedInferenceResult inferenceResult], .completeTask)

end

/-- The calls of a worker, with those that other threads make in front of each and after the last. -/
def interleave (others : Nat → List BufferCall) : Nat → List WorkerCall → List BufferCall
  | i, [] => others i
  | i, call :: calls => others i ++ .worker call :: interleave others (i + 1) calls

/-- The call is not about the inference of the frame: other threads enqueue other frames, and other
tasks are about other frames. -/
def BufferCall.spares (frameId : Int) : BufferCall → Bool
  | .enqueueFrame (some frame) => frame.frameId != frameId
  | .worker (.markInferenceRunning id) => id != frameId
  | .worker (.markInferenceDone result) => result.frameId != frameId
  | .worker (.clearInferenceSelection id _) => id != frameId
  | _ => true

/-- A selection picks a frame when it is made. -/
def SelectsWithin (b : StreamBuffer) (calls : List BufferCall) : Prop :=
  ∃ before after, calls = before ++ .worker .selectFrameForInference :: after ∧
    (b.after before).newestIdleFrame.isSome = true

/-! ## The state of a frame -/

/-- The frame is in the buffer, in the given state. -/
structure HeldIn (b : StreamBuffer) (frameId : Int) (state : InferState) : Prop where
  lookup : ∃ f, b.frames[frameId]? = some f ∧ f.inferState = state
  listed : frameId ∈ b.frameOrder

/-- The call ends the inference of the frame. -/
def BufferCall.finishes (b : StreamBuffer) (frameId : Int) : BufferCall → Bool
  | .worker .selectFrameForInference => b.newestIdleFrame.isSome
  | .worker (.markInferenceDone result) => result.frameId == frameId
  | .worker (.clearInferenceSelection id _) => id == frameId
  | _ => false

/-- The call spares the frame, or finishes it. -/
inductive BufferCall.Ends (frameId : Int) : BufferCall → Prop
  | spares {c : BufferCall} (h : c.spares frameId = true) : Ends frameId c
  | done (result : FrameInferenceResult) : Ends frameId (.worker (.markInferenceDone result))
  | dropped : Ends frameId (.worker (.clearInferenceSelection frameId .dropped))

variable {b : StreamBuffer} {frameId : Int} {state : InferState}

lemma heldIn_setInferState (h : HeldIn b frameId state) (id : Int) (st : InferState) :
    HeldIn { b with frames := setInferState b.frames id st } frameId (if id = frameId then st else state) := by
  obtain ⟨f, hf, rfl⟩ := h.lookup
  refine ⟨?_, h.listed⟩
  dsimp only
  rw [lookup_setInferState, hf]
  split
  · exact ⟨_, rfl, rfl⟩
  · exact ⟨f, rfl, rfl⟩

/-- A selection that picks a frame picks another one, and gives this one up. -/
lemma heldIn_select (h : HeldIn b frameId state) (hidle : state ≠ .idle) :
    HeldIn b.selectFrameForInference.2 frameId
      (if b.newestIdleFrame.isSome ∧ isInferenceTerminal state = false then .done else state) := by
  obtain ⟨f, hf, rfl⟩ := h.lookup
  unfold StreamBuffer.selectFrameForInference
  split
  · rename_i hnone
    rw [hnone, if_neg (by simp)]
    exact h
  · rename_i id g hsome
    have hn := StreamBuffer.newestIdleFrame_eq_some hsome
    have hne : frameId ≠ id := by
      rintro rfl
      have hfg := hn.lookup
      rw [hf] at hfg
      cases hfg
      exact hidle hn.candidate.2
    refine ⟨?_, h.listed⟩
    dsimp only
    rw [lookup_markOthersDone, lookup_setInferState, if_neg hne.symm, hf, hsome]
    refine ⟨_, rfl, ?_⟩
    simp only [giveUp, h.listed, hne, ne_eq, not_false_eq_true, true_and, Option.isSome_some]
    split <;> rfl

/-- A call that leaves the frames as they are. -/
lemma HeldIn.congr {b' : StreamBuffer} (h : HeldIn b frameId state) (hframes : b'.frames = b.frames)
    (horder : b'.frameOrder = b.frameOrder) : HeldIn b' frameId state := by
  refine ⟨?_, ?_⟩
  · rw [hframes]
    exact h.lookup
  · rw [horder]
    exact h.listed

lemma heldIn_enqueueFrame (h : HeldIn b frameId state) {f : FrameBundle} (hne : f.frameId ≠ frameId) :
    HeldIn (b.enqueueFrame (some f)).2 frameId state := by
  rcases b.enqueueFrame_cases f with ⟨-, he⟩ | ⟨-, he⟩ <;> rw [he]
  · exact h
  · obtain ⟨g, hg, hstate⟩ := h.lookup
    refine ⟨⟨g, ?_, hstate⟩, List.mem_append_left _ h.listed⟩
    dsimp only
    rw [lookup_insert, if_neg hne, hg]

lemma heldIn_releaseFrame (h : HeldIn b frameId state) {id : Int} (hne : id ≠ frameId) :
    HeldIn (b.releaseFrame id) frameId state := by
  obtain ⟨g, hg, hstate⟩ := h.lookup
  refine ⟨⟨g, ?_, hstate⟩, ?_⟩
  · dsimp only [StreamBuffer.releaseFrame]
    rw [lookup_erase, if_neg hne, hg]
  · simpa [StreamBuffer.releaseFrame, Ne.symm hne] using h.listed

/-- The calls that leave the frames as they are. -/
def BufferCall.keepsFrames : BufferCall → Bool
  | .enqueuePacket _ | .enqueueFrame none | .popPacket | .takeCachedInferenceResult .. | .stop => true
  | .worker (.updateCachedInferenceResult _) => true
  | _ => false

lemma apply_keepsFrames {c : BufferCall} (hc : c.keepsFrames = true) (b : StreamBuffer) :
    (c.apply b).frames = b.frames ∧ (c.apply b).frameOrder = b.frameOrder := by
  cases c with
  | enqueuePacket packet =>
    cases packet with
    | none => exact ⟨rfl, rfl⟩
    | some p =>
      rcases b.enqueuePacket_cases p with ⟨-, he⟩ | ⟨-, he⟩ <;> rw [BufferCall.apply, he] <;>
        exact ⟨rfl, rfl⟩
  | enqueueFrame frame =>
    cases frame with
    | none => exact ⟨rfl, rfl⟩
    | some f => cases hc
  | popPacket =>
    rw [BufferCall.apply, StreamBuffer.popPacket]
    split <;> exact ⟨rfl, rfl⟩
  | releaseFrame id => cases hc
  | takeCachedInferenceResult context id pts => simp [BufferCall.apply]
  | stop => exact ⟨rfl, rfl⟩
  | worker call =>
    cases call with
    | updateCachedInferenceResult result =>
      rw [BufferCall.apply, WorkerCall.apply, StreamBuffer.updateCachedInferenceResult]
      split <;> exact ⟨rfl, rfl⟩
    | _ => cases hc

/-- One call: the frame is released, or it has been finished if it was finished before or the call
finishes it. -/
lemma heldIn_apply {c : BufferCall} (hc : c.Ends frameId) (h : HeldIn b frameId state) (hidle : state ≠ .idle) :
    (c.apply b).frames[frameId]? = none ∨ ∃ state', HeldIn (c.apply b) frameId state' ∧ state' ≠ .idle ∧
      (isInferenceTerminal state' = true ↔ isInferenceTerminal state = true ∨ c.finishes b frameId = true) := by
  have hkept : c.keepsFrames = true → ∃ state', HeldIn (c.apply b) frameId state' ∧ state' ≠ .idle ∧
      (isInferenceTerminal state' = true ↔ isInferenceTerminal state = true ∨ false = true) := by
    intro hkeeps
    obtain ⟨hframes, horder⟩ := apply_keepsFrames hkeeps b
    exact ⟨state, h.congr hframes horder, hidle, by simp⟩
  have hset : ∀ (id : Int) (st : InferState), isInferenceTerminal st = true →
      ∃ state', HeldIn { b with frames := setInferState b.frames id st } frameId state' ∧ state' ≠ .idle ∧
        (isInferenceTerminal state' = true ↔ isInferenceTerminal state = true ∨ (id == frameId) = true) := by
    intro id st hst
    refine ⟨_, heldIn_setInferState h id st, ?_, ?_⟩
    · split
      · rintro rfl
        cases hst
      · exact hidle
    · by_cases hid : id = frameId <;> simp [hid, hst]
  cases hc with
  | done result => exact .inr (hset result.frameId .done rfl)
  | dropped => exact .inr (hset frameId .dropped rfl)
  | spares hspares =>
    cases c with
    | enqueuePacket packet => exact .inr (hkept rfl)
    | enqueueFrame frame =>
      cases frame with
      | none => exact .inr (hkept rfl)
      | some f =>
        have hne : f.frameId ≠ frameId := by simpa [BufferCall.spares] using hspares
        exact .inr ⟨state, heldIn_enqueueFrame h hne, hidle, by simp [BufferCall.finishes]⟩
    | popPacket => exact .inr (hkept rfl)
    | releaseFrame id =>
      by_cases hid : id = frameId
      · refine .inl ?_
        simp [BufferCall.apply, StreamBuffer.releaseFrame, hid]
      · exact .inr ⟨state, heldIn_releaseFrame h hid, hidle, by simp [BufferCall.finishes]⟩
    | takeCachedInferenceResult context id pts => exact .inr (hkept rfl)
    | stop => exact .inr (hkept rfl)
    | worker call =>
      cases call with
      | selectFrameForInference =>
        refine .inr ⟨_, heldIn_select h hidle, ?_, ?_⟩
        · split
          · simp
          · exact hidle
        · split
          · rename_i hgive
            exact ⟨fun _ => .inr hgive.1, fun _ => rfl⟩
          · rename_i hkeep
            refine ⟨.inl, ?_⟩
            rintro (hterminal | hpicks)
            · exact hterminal
            · by_contra hnot
              exact hkeep ⟨hpicks, Bool.eq_false_iff.mpr hnot⟩
      | markInferenceRunning id =>
        have hne : id ≠ frameId := by simpa [BufferCall.spares] using hspares
        have hheld := heldIn_setInferState h id .running
        rw [if_neg hne] at hheld
        exact .inr ⟨state, hheld, hidle, by simp [BufferCall.finishes]⟩
      | markInferenceDone result => exact .inr (hset result.frameId .done rfl)
      | clearInferenceSelection id st =>
        have hne : id ≠ frameId := by simpa [BufferCall.spares] using hspares
        have hheld := heldIn_setInferState h id st
        rw [if_neg hne] at hheld
        exact .inr ⟨state, hheld, hidle, by simp [BufferCall.finishes, hne]⟩
      | updateCachedInferenceResult result => exact .inr (hkept rfl)

/-- A frame that has left the buffer does not come back. -/
lemma gone_apply {c : BufferCall} (hc : c.Ends frameId) (h : b.frames[frameId]? = none) :
    (c.apply b).frames[frameId]? = none := by
  have hset : ∀ (id : Int) (st : InferState), (setInferState b.frames id st)[frameId]? = none := by
    intro id st
    rw [lookup_setInferState, h]
    split <;> rfl
  have hkept : c.keepsFrames = true → (c.apply b).frames[frameId]? = none := by
    intro hkeeps
    rw [(apply_keepsFrames hkeeps b).1, h]
  cases hc with
  | done result => exact hset result.frameId .done
  | dropped => exact hset frameId .dropped
  | spares hspares =>
    cases c with
    | enqueuePacket packet => exact hkept rfl
    | enqueueFrame frame =>
      cases frame with
      | none => exact hkept rfl
      | some f =>
        have hne : f.frameId ≠ frameId := by simpa [BufferCall.spares] using hspares
        rw [BufferCall.apply]
        rcases b.enqueueFrame_cases f with ⟨-, he⟩ | ⟨-, he⟩ <;> rw [he]
        · exact h
        · dsimp only
          rw [lookup_insert, if_neg hne, h]
    | popPacket => exact hkept rfl
    | releaseFrame id =>
      simp only [BufferCall.apply, StreamBuffer.releaseFrame, lookup_erase, h, ite_self]
    | takeCachedInferenceResult context id pts => exact hkept rfl
    | stop => exact hkept rfl
    | worker call =>
      cases call with
      | selectFrameForInference =>
        simp only [BufferCall.apply, WorkerCall.apply, StreamBuffer.selectFrameForInference]
        split
        · exact h
        · rw [lookup_markOthersDone, hset]
          rfl
      | markInferenceRunning id => exact hset id .running
      | markInferenceDone result => exact hset result.frameId .done
      | clearInferenceSelection id st => exact hset id st
      | updateCachedInferenceResult result => exact hkept rfl

/-! ## Runs of calls -/

/-- One of the calls finishes the frame when it is made. -/
def FinishedWithin (b : StreamBuffer) (frameId : Int) (calls : List BufferCall) : Prop :=
  ∃ before c after, calls = before ++ c :: after ∧ c.finishes (b.after before) frameId = true

lemma finishedWithin_cons (c : BufferCall) (calls : List BufferCall) :
    FinishedWithin b frameId (c :: calls) ↔
      c.finishes b frameId = true ∨ FinishedWithin (c.apply b) frameId calls := by
  constructor
  · rintro ⟨before, c', after, hsplit, hfinishes⟩
    cases before with
    | nil =>
      cases hsplit
      exact .inl hfinishes
    | cons c'' before =>
      cases hsplit
      exact .inr ⟨before, c', after, rfl, hfinishes⟩
  · rintro (hfinishes | ⟨before, c', after, rfl, hfinishes⟩)
    · exact ⟨[], c, calls, rfl, hfinishes⟩
    · exact ⟨c :: before, c', after, rfl, hfinishes⟩

lemma gone_after {calls : List BufferCall} (hcalls : ∀ c ∈ calls, c.Ends frameId)
    (h : b.frames[frameId]? = none) : (b.after calls).frames[frameId]? = none := by
  induction calls generalizing b with
  | nil => exact h
  | cons c calls ih =>
    exact ih (fun c' hc' => hcalls c' (List.mem_cons_of_mem _ hc'))
      (gone_apply (hcalls c (List.mem_cons_self ..)) h)

/-- A run of calls: the frame is released, or it is finished at the end if it was before or a call
finished it. -/
lemma heldIn_after {calls : List BufferCall} (hcalls : ∀ c ∈ calls, c.Ends frameId)
    (h : HeldIn b frameId state) (hidle : state ≠ .idle) :
    (b.after calls).frames[frameId]? = none ∨ ∃ state', HeldIn (b.after calls) frameId state' ∧ state' ≠ .idle ∧
      (isInferenceTerminal state' = true ↔ isInferenceTerminal state = true ∨ FinishedWithin b frameId calls) := by
  induction calls generalizing b state with
  | nil =>
    refine .inr ⟨state, h, hidle, .inl, ?_⟩
    rintro (hterminal | ⟨before, c, after, hsplit, -⟩)
    · exact hterminal
    · exact absurd hsplit (by simp)
  | cons c calls ih =>
    have hrest : ∀ c' ∈ calls, c'.Ends frameId := fun c' hc' => hcalls c' (List.mem_cons_of_mem _ hc')
    rcases heldIn_apply (hcalls c (List.mem_cons_self ..)) h hidle with hgone | ⟨state', hheld, hidle', hiff⟩
    · exact .inl (gone_after (b := c.apply b) hrest hgone)
    · rcases ih hrest hheld hidle' with hgone | ⟨state'', hheld', hidle'', hiff'⟩
      · exact .inl hgone
      · refine .inr ⟨state'', hheld', hidle'', ?_⟩
        rw [hiff', hiff, finishedWithin_cons, or_assoc]

/-- The call is a result for the frame, or clears its selection. -/
def BufferCall.isEndOf (frameId : Int) : BufferCall → Bool
  | .worker (.markInferenceDone result) => result.frameId == frameId
  | .worker (.clearInferenceSelection id _) => id == frameId
  | _ => false

lemma finishes_iff (c : BufferCall) (b : StreamBuffer) (frameId : Int) :
    c.finishes b frameId = true ↔ c.isEndOf frameId = true ∨
      c = .worker .selectFrameForInference ∧ b.newestIdleFrame.isSome = true := by
  cases c with
  | worker call => cases call <;> simp [BufferCall.finishes, BufferCall.isEndOf]
  | _ => simp [BufferCall.finishes, BufferCall.isEndOf]

lemma finishedWithin_iff (calls : List BufferCall) :
    FinishedWithin b frameId calls ↔ (∃ c ∈ calls, c.isEndOf frameId = true) ∨ SelectsWithin b calls := by
  constructor
  · rintro ⟨before, c, after, rfl, hfinishes⟩
    rcases (finishes_iff c _ frameId).mp hfinishes with hend | ⟨rfl, hpicks⟩
    · exact .inl ⟨c, by simp, hend⟩
    · exact .inr ⟨before, after, rfl, hpicks⟩
  · rintro (⟨c, hc, hend⟩ | ⟨before, after, rfl, hpicks⟩)
    · obtain ⟨before, after, rfl⟩ := List.append_of_mem hc
      exact ⟨before, c, after, rfl, (finishes_iff c _ frameId).mpr (.inl hend)⟩
    · exact ⟨before, _, after, rfl, hpicks⟩

lemma mem_interleave {others : Nat → List BufferCall} {calls : List WorkerCall} {i : Nat} {c : BufferCall}
    (h : c ∈ interleave others i calls) : (∃ j, c ∈ others j) ∨ ∃ call ∈ calls, c = .worker call := by
  induction calls generalizing i with
  | nil => exact .inl ⟨i, h⟩
  | cons call calls ih =>
    rcases List.mem_append.mp h with h | h
    · exact .inl ⟨i, h⟩
    · rcases List.mem_cons.mp h with rfl | h
      · exact .inr ⟨call, List.mem_cons_self .., rfl⟩
      · exact (ih h).imp_right fun ⟨call', hcall, he⟩ => ⟨call', List.mem_cons_of_mem _ hcall, he⟩

lemma mem_interleave_of_worker {others : Nat → List BufferCall} {calls : List WorkerCall} (i : Nat)
    {call : WorkerCall} (h : call ∈ calls) : .worker call ∈ interleave others i calls := by
  induction calls generalizing i with
  | nil => cases h
  | cons call' calls ih =>
    rcases List.mem_cons.mp h with rfl | h
    · exact List.mem_append_right _ (List.mem_cons_self ..)
    · exact List.mem_append_right _ (List.mem_cons_of_mem _ (ih (i + 1) h))

/-! ## Acquired frames -/

/-- Every frame is stored under its own id. -/
def Keyed (b : StreamBuffer) : Prop := ∀ (k : Int) (f : FrameBundle), b.frames[k]? = some f → f.frameId = k

lemma keyed_setInferState (h : Keyed b) (id : Int) (st : InferState) :
    Keyed { b with frames := setInferState b.frames id st } := by
  intro k f hf
  rcases setInferState_cases hf with ⟨g, hg, rfl | rfl⟩
  · exact h k g hg
  · exact h k f hg

lemma keyed_select (h : Keyed b) : Keyed b.selectFrameForInference.2 := by
  unfold StreamBuffer.selectFrameForInference
  split
  · exact h
  · rename_i id g hsome
    intro k f hf
    dsimp only at hf
    rw [lookup_markOthersDone] at hf
    obtain ⟨g', hg', rfl⟩ := Option.map_eq_some_iff.mp hf
    have hid := keyed_setInferState h id .selected k g' hg'
    unfold giveUp
    split
    · exact hid
    · exact hid

lemma keyed_apply (h : Keyed b) (c : BufferCall) : Keyed (c.apply b) := by
  have hkept : c.keepsFrames = true → Keyed (c.apply b) := by
    intro hkeeps k f hf
    rw [(apply_keepsFrames hkeeps b).1] at hf
    exact h k f hf
  cases c with
  | enqueuePacket packet => exact hkept rfl
  | enqueueFrame frame =>
    cases frame with
    | none => exact hkept rfl
    | some f =>
      intro k g hg
      rcases StreamBuffer.lookup_enqueueFrame hg with ⟨rfl, rfl⟩ | hg
      · rfl
      · exact h k g hg
  | popPacket => exact hkept rfl
  | releaseFrame id =>
    intro k f hf
    simp only [BufferCall.apply, StreamBuffer.releaseFrame, lookup_erase, Option.ite_none_left_eq_some] at hf
    exact h k f hf.2
  | takeCachedInferenceResult context id pts => exact hkept rfl
  | stop => exact hkept rfl
  | worker call =>
    cases call with
    | selectFrameForInference => exact keyed_select h
    | markInferenceRunning id => exact keyed_setInferState h id .running
    | markInferenceDone result => exact keyed_setInferState h result.frameId .done
    | clearInferenceSelection id st => exact keyed_setInferState h id st
    | updateCachedInferenceResult result => exact hkept rfl

lemma keyed_after (h : Keyed b) (calls : List BufferCall) : Keyed (b.after calls) := by
  induction calls generalizing b with
  | nil => exact h
  | cons c calls ih => exact ih (keyed_apply h c)

/-- The frame of a task is in the buffer that it was selected from. -/
lemma heldIn_of_select (h : Keyed b) {frame : FrameBundle} {b' : StreamBuffer}
    (hselect : b.selectFrameForInference = (some frame, b')) : HeldIn b' frame.frameId .selected := by
  rcases b.selectFrameForInference_cases with ⟨hnone, -⟩ | ⟨id, f, hn, hframe, hbuffer⟩
  · rw [hnone] at hselect
    cases hselect
  · rw [hselect] at hframe hbuffer
    obtain rfl : frame = { f with inferState := .selected } := Option.some.inj hframe
    obtain rfl : b' = _ := hbuffer
    have hid : f.frameId = id := h id f hn.lookup
    obtain ⟨older, newer, horder, -⟩ := hn.newest
    refine ⟨⟨{ f with inferState := .selected }, ?_, rfl⟩, ?_⟩
    · dsimp only
      rw [hid, lookup_markOthersDone, lookup_setInferState, if_pos rfl, hn.lookup]
      simp [giveUp, hid]
    · dsimp only
      rw [hid, horder]
      simp

/-! ## How a task ends -/

section

variable {τ : Type} (edge : EdgeInfer) (trackers : ITracker τ) (same : SameProtoMessage)

/-- The worker finds no stream to work for, or no detector, or the detection completes. -/
def FinishesTask (frame : FrameBundle) (view : WorkerView τ) : Prop :=
  (∀ stream, view.stream = some stream → stream.stopFlag = true) ∨ frame.decodedImage = none ∨
    view.detector = none ∨ ∃ detector context rawResults, view.detector = some detector ∧
      detector.Completes edge frame view.config view.clock context rawResults

variable {edge trackers same}

/-- The calls of a turn end the inference of the task's frame exactly when the task is finished. -/
lemma exists_isEndOf_iff {frame : FrameBundle} {view : WorkerView τ} (hid : 0 ≤ frame.frameId) :
    (∃ call ∈ (inferLoopTurn edge trackers same frame view).1,
      BufferCall.isEndOf frame.frameId (.worker call) = true) ↔ FinishesTask edge frame view := by
  have hdropped : ∃ call ∈ [WorkerCall.clearInferenceSelection frame.frameId .dropped],
      BufferCall.isEndOf frame.frameId (.worker call) = true :=
    ⟨_, List.mem_singleton.mpr rfl, by simp [BufferCall.isEndOf]⟩
  unfold inferLoopTurn FinishesTask
  dsimp only
  split
  · rename_i hstream
    exact ⟨fun _ => .inl (by simp [hstream]), fun _ => hdropped⟩
  · rename_i stream hstream
    split
    · rename_i hgone
      refine ⟨fun _ => ?_, fun _ => hdropped⟩
      rcases (Bool.or_eq_true _ _).mp hgone with hstop | himage
      · exact .inl (by simp [hstream, hstop])
      · exact .inr (.inl (Option.isNone_iff_eq_none.mp himage))
    · rename_i hthere
      split
      · rename_i hnone
        exact ⟨fun _ => .inr (.inr (.inl hnone)), fun _ => hdropped⟩
      · rename_i detector hdetector
        by_cases hcomplete : ∃ context rawResults,
            detector.Completes edge frame view.config view.clock context rawResults
        · obtain ⟨context, rawResults, hcomplete⟩ := hcomplete
          have hframe := (AlgoDetector.detect_of_completes trackers same hcomplete).1
          refine ⟨fun _ => .inr (.inr (.inr ⟨detector, context, rawResults, hdetector, hcomplete⟩)), fun _ => ?_⟩
          exact ⟨_, List.mem_cons_self .., by simp [BufferCall.isEndOf, hframe]⟩
        · have hearly := AlgoDetector.detect_of_not_completes trackers same
            fun context rawResults h => hcomplete ⟨context, rawResults, h⟩
          simp only [Bool.or_eq_true, not_or, Bool.not_eq_true] at hthere
          constructor
          · rintro ⟨call, hcall, hend⟩
            simp only [List.mem_cons, List.not_mem_nil, or_false] at hcall
            rcases hcall with rfl | rfl
            · simp only [BufferCall.isEndOf, hearly, beq_iff_eq] at hend
              omega
            · simp [BufferCall.isEndOf] at hend
          · rintro (hstop | himage | hnone | ⟨detector', context, rawResults, hdetector', h⟩)
            · rw [hstop stream hstream] at hthere
              cases hthere.1
            · rw [himage] at hthere
              cases hthere.2
            · rw [hnone] at hdetector
              cases hdetector
            · rw [hdetector] at hdetector'
              cases hdetector'
              exact absurd ⟨context, rawResults, h⟩ hcomplete

/-- The calls of a turn are a result, or a cleared selection of the task's frame. -/
lemma ends_inferLoopTurn {frame : FrameBundle} {view : WorkerView τ} {call : WorkerCall}
    (h : call ∈ (inferLoopTurn edge trackers same frame view).1) :
    BufferCall.Ends frame.frameId (.worker call) := by
  have hdropped : call ∈ [WorkerCall.clearInferenceSelection frame.frameId .dropped] →
      BufferCall.Ends frame.frameId (.worker call) := by
    intro hcall
    rw [List.mem_singleton.mp hcall]
    exact .dropped
  unfold inferLoopTurn at h
  dsimp only at h
  split at h
  · exact hdropped h
  · split at h
    · exact hdropped h
    · split at h
      · exact hdropped h
      · simp only [List.mem_cons, List.not_mem_nil, or_false] at h
        rcases h with rfl | rfl
        · exact .done _
        · exact .spares rfl

lemma isEndOf_of_spares {c : BufferCall} (h : c.spares frameId = true) : c.isEndOf frameId = false := by
  cases c with
  | worker call => cases call <;> simp_all [BufferCall.spares, BufferCall.isEndOf]
  | _ => rfl

lemma after_interleave_cons (b : StreamBuffer) (others : Nat → List BufferCall) (i : Nat) (call : WorkerCall)
    (calls : List WorkerCall) : b.after (interleave others i (call :: calls)) =
      (call.apply (b.after (others i))).after (interleave others (i + 1) calls) := by
  rw [interleave, StreamBuffer.after, List.foldl_append]
  rfl

/-- A frame that was selected after any calls on its buffer, and a turn of `inferLoop` for it between any
calls of other threads: if the frame is still in the buffer when the task ends, then it is done or
dropped if and only if the task was finished, or another selection was made after the frame had been
marked as running. -/
theorem inferLoop_finishes_iff (edge : EdgeInfer) (trackers : ITracker τ) (same : SameProtoMessage)
    (history : List BufferCall) (frame f : FrameBundle) (b : StreamBuffer) (view : WorkerView τ)
    (others : Nat → List BufferCall)
    (hselect : (StreamBuffer.after {} history).selectFrameForInference = (some frame, b))
    (hid : 0 ≤ frame.frameId) (hothers : ∀ i, ∀ c ∈ others i, c.spares frame.frameId = true)
    (hstays : (b.after (interleave others 0 (.markInferenceRunning frame.frameId ::
      (inferLoopTurn edge trackers same frame view).1))).frames[frame.frameId]? = some f) :
    isInferenceTerminal f.inferState = true ↔ FinishesTask edge frame view ∨
      SelectsWithin ((b.after (others 0)).markInferenceRunning frame.frameId)
        (interleave others 1 (inferLoopTurn edge trackers same frame view).1) := by
  have hspared : ∀ i, ∀ c ∈ others i, c.Ends frame.frameId := fun i c hc => .spares (hothers i c hc)
  have htail : ∀ c ∈ interleave others 1 (inferLoopTurn edge trackers same frame view).1,
      c.Ends frame.frameId := by
    intro c hc
    rcases mem_interleave hc with ⟨j, hj⟩ | ⟨call, hcall, rfl⟩
    · exact hspared j c hj
    · exact ends_inferLoopTurn hcall
  have hkeyed : Keyed (StreamBuffer.after {} history) := keyed_after (by intro k g hg; simp at hg) history
  rw [after_interleave_cons] at hstays
  -- the frame is still there when it is marked as running
  rcases heldIn_after (hspared 0) (heldIn_of_select hkeyed hselect) (by simp) with hgone | ⟨state, hheld, -, -⟩
  · have hnone : (WorkerCall.apply (.markInferenceRunning frame.frameId) (b.after (others 0))).frames[frame.frameId]? =
        none := by
      simp only [WorkerCall.apply, StreamBuffer.markInferenceRunning, lookup_setInferState, hgone, Option.map_none,
        ite_self]
    rw [gone_after htail hnone] at hstays
    cases hstays
  · have hrunning := heldIn_setInferState hheld frame.frameId .running
    rw [if_pos rfl] at hrunning
    rcases heldIn_after htail hrunning (by simp) with hgone | ⟨state', hheld', -, hiff⟩
    · have hnone := hgone.symm.trans hstays
      cases hnone
    · obtain ⟨g, hg, rfl⟩ := hheld'.lookup
      obtain rfl : g = f := Option.some.inj (hg.symm.trans hstays)
      have hends : (∃ c ∈ interleave others 1 (inferLoopTurn edge trackers same frame view).1,
          c.isEndOf frame.frameId = true) ↔ FinishesTask edge frame view := by
        rw [← exists_isEndOf_iff hid]
        constructor
        · rintro ⟨c, hc, hend⟩
          rcases mem_interleave hc with ⟨j, hj⟩ | ⟨call, hcall, rfl⟩
          · rw [isEndOf_of_spares (hothers j c hj)] at hend
            cases hend
          · exact ⟨call, hcall, hend⟩
        · rintro ⟨call, hcall, hend⟩
          exact ⟨_, mem_interleave_of_worker 1 hcall, hend⟩
      rw [hiff, finishedWithin_iff, hends]
      exact or_iff_right (by decide)

end

def runningStream : StreamContext where
  streamId := [0x53]
  transportConfig := {}
  runtimeConfig := {}
  detectorRuntime := { config := {}, detector := none }

/-- A worker that finds a running stream with an initialised detector. -/
def detectingView (config : StreamConfig) : WorkerView Unit where
  stream := some runningStream
  detector := some { cfg := config, inited := true, infer := some [2] }
  config := config
  clock := ⟨5000, 0, 0, 0⟩

/-- The frame that a worker gets. -/
def selectedFrame : FrameBundle := { imageFrame with inferState := .selected }

def activeConfig : StreamConfig where
  algorithms := [{ algorithmId := [2], modelPath := [2] }]

def expiredConfig : StreamConfig where
  algorithms := [{ algorithmId := [2], modelPath := [2], endDate := 1 }]

/-- The detection completes. -/
theorem inferLoop_finishes_iff_completes :
    isInferenceTerminal .done = true ↔ FinishesTask emptyEdge selectedFrame (detectingView activeConfig) ∨
      SelectsWithin (((StreamBuffer.after {} [.enqueueFrame (some imageFrame)]).selectFrameForInference.2.after
          []).markInferenceRunning 7)
        (interleave (fun _ => []) 1
          (inferLoopTurn emptyEdge idleTracker structuralEquality selectedFrame (detectingView activeConfig)).1) :=
  inferLoop_finishes_iff emptyEdge idleTracker structuralEquality [.enqueueFrame (some imageFrame)] selectedFrame
    { imageFrame with inferState := .done } _ (detectingView activeConfig) (fun _ => []) rfl (by decide) (by simp)
    (by decide)

/-- No algorithm is active: the task ends with `completeTask`, and the frame is still running. -/
theorem inferLoop_leaves_running :
    ∃ (b : StreamBuffer) (f : FrameBundle),
      (StreamBuffer.after {} [.enqueueFrame (some imageFrame)]).selectFrameForInference = (some selectedFrame, b) ∧
      (inferLoopTurn emptyEdge idleTracker structuralEquality selectedFrame (detectingView expiredConfig)).2 =
        .completeTask ∧
      (b.after (interleave (fun _ => []) 0 (.markInferenceRunning 7 ::
        (inferLoopTurn emptyEdge idleTracker structuralEquality selectedFrame
          (detectingView expiredConfig)).1))).frames[(7 : Int)]? = some f ∧
      f.inferState = .running :=
  ⟨_, { imageFrame with inferState := .running }, rfl, rfl, by decide, rfl⟩

end MediaAgent
