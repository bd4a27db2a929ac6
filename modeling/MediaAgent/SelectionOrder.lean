import MediaAgent.InferLoop
import Mathlib.Data.List.Induction

/-!
# The order of the selected frames

A selection takes the newest idle frame and gives up every other frame that is not finished, so the frames
that are idle afterwards are those enqueued later. No other call makes a frame idle again, and frames are
enqueued in the order of their ids: the ids of the selected frames increase over any run of calls.
-/

namespace MediaAgent
open Std TreeMaps

/-! ## What a run of calls enqueues and selects -/

/-- The id of the frame that a call enqueues. -/
def BufferCall.enqueuedId (b : StreamBuffer) : BufferCall → Option Int
  | .enqueueFrame (some f) => if (b.enqueueFrame (some f)).1 then some f.frameId else none
  | _ => none

/-- The id of the frame that a call selects. -/
def BufferCall.selectedId (b : StreamBuffer) : BufferCall → Option Int
  | .worker .selectFrameForInference => b.selectFrameForInference.1.map (·.frameId)
  | _ => none

/-- What the calls answer one after the other. -/
def answers (answer : StreamBuffer → BufferCall → Option Int) : StreamBuffer → List BufferCall → List Int
  | _, [] => []
  | b, c :: calls => (answer b c).toList ++ answers answer (c.apply b) calls

/-- The ids of the frames that are enqueued in a run from an empty buffer. -/
def enqueuedIds (calls : List BufferCall) : List Int := answers BufferCall.enqueuedId {} calls

/-- The ids of the frames that the selections of a run from an empty buffer return. -/
def selectedIds (calls : List BufferCall) : List Int := answers BufferCall.selectedId {} calls

/-- The selection is cleared as `inferLoop` does it. -/
def BufferCall.clearsToDropped : BufferCall → Bool
  | .worker (.clearInferenceSelection _ state) => state == .dropped
  | _ => true

lemma answers_append (answer : StreamBuffer → BufferCall → Option Int) (b : StreamBuffer)
    (calls more : List BufferCall) :
    answers answer b (calls ++ more) = answers answer b calls ++ answers answer (b.after calls) more := by
  induction calls generalizing b with
  | nil => rfl
  | cons c calls ih =>
    rw [List.cons_append, answers, answers, ih, List.append_assoc]
    rfl

lemma answers_singleton (answer : StreamBuffer → BufferCall → Option Int) (b : StreamBuffer) (c : BufferCall) :
    answers answer b [c] = (answer b c).toList := by
  rw [answers, answers, List.append_nil]

/-- A successful selection: the newest idle frame with a picture is returned, and it is then the only frame
that is not finished. -/
structure SelectsNewest (b : StreamBuffer) (f : FrameBundle) : Prop where
  image : f.decodedImage.isSome = true
  idle : ∃ g, b.frames[f.frameId]? = some g ∧ g.inferState = .idle ∧ f = { g with inferState := .selected }
  newest : ∀ (k : Int) (g : FrameBundle), b.frames[k]? = some g → g.isCandidate → k ≤ f.frameId
  stored : b.selectFrameForInference.2.frames[f.frameId]? = some f
  only : ∀ (k : Int) (g : FrameBundle), b.selectFrameForInference.2.frames[k]? = some g →
    (isInferenceTerminal g.inferState = false ↔ k = f.frameId)

/-! ## The invariant -/

/-- The order is sorted and lists every frame; idle frames are newer than every selected one. -/
structure SelectionInv (b : StreamBuffer) (enqueued selected : List Int) : Prop where
  keyed : Keyed b
  sorted : b.frameOrder.Pairwise (· < ·)
  listed : ∀ (k : Int) (f : FrameBundle), b.frames[k]? = some f → k ∈ b.frameOrder
  ordered : ∀ k ∈ b.frameOrder, k ∈ enqueued
  known : ∀ k ∈ selected, k ∈ enqueued
  fresh : ∀ (k : Int) (f : FrameBundle), b.frames[k]? = some f → f.inferState = .idle → ∀ j ∈ selected, j < k
  increasing : selected.Pairwise (· < ·)

namespace SelectionInv

variable {b : StreamBuffer} {enqueued selected : List Int}

/-- A call that makes no frame idle and adds none. -/
lemma of_frames (h : SelectionInv b enqueued selected) {b' : StreamBuffer} (hkeyed : Keyed b')
    (horder : b'.frameOrder = b.frameOrder) (hframes : ∀ (k : Int) (f : FrameBundle), b'.frames[k]? = some f →
      ∃ g, b.frames[k]? = some g ∧ (f.inferState = .idle → g.inferState = .idle)) :
    SelectionInv b' enqueued selected := by
  refine ⟨hkeyed, ?_, fun k f hf => ?_, ?_, h.known, fun k f hf hidle => ?_, h.increasing⟩
  · rw [horder]
    exact h.sorted
  · obtain ⟨g, hg, -⟩ := hframes k f hf
    rw [horder]
    exact h.listed k g hg
  · rw [horder]
    exact h.ordered
  · obtain ⟨g, hg, hstate⟩ := hframes k f hf
    exact h.fresh k g hg (hstate hidle)

lemma setState (h : SelectionInv b enqueued selected) (id : Int) {state : InferState} (hstate : state ≠ .idle) :
    SelectionInv { b with frames := setInferState b.frames id state } enqueued selected := by
  apply h.of_frames (keyed_setInferState h.keyed id state) rfl
  intro k f hf
  rcases setInferState_cases hf with ⟨g, hg, rfl | rfl⟩
  · exact ⟨g, hg, fun hidle => absurd hidle hstate⟩
  · exact ⟨f, hg, fun hidle => hidle⟩

/-- A frame with a greater id than all before it. -/
lemma enqueue (h : SelectionInv b enqueued selected) (f : FrameBundle) (hlater : ∀ k ∈ enqueued, k < f.frameId) :
    SelectionInv { b with frames := b.frames.insert f.frameId f, frameOrder := b.frameOrder ++ [f.frameId] }
      (enqueued ++ [f.frameId]) selected := by
  have hold : ∀ (k : Int) (g : FrameBundle), (b.frames.insert f.frameId f)[k]? = some g →
      (k = f.frameId ∧ g = f) ∨ b.frames[k]? = some g := by
    intro k g hg
    rw [lookup_insert] at hg
    split at hg
    · cases hg
      exact .inl ⟨Eq.symm ‹_›, rfl⟩
    · exact .inr hg
  refine ⟨fun k g hg => ?_, ?_, fun k g hg => ?_, fun k hk => ?_, fun k hk => ?_, fun k g hg hidle j hj => ?_,
    h.increasing⟩
  · rcases hold k g hg with ⟨rfl, rfl⟩ | hg
    · rfl
    · exact h.keyed k g hg
  · rw [List.pairwise_append]
    refine ⟨h.sorted, List.pairwise_singleton _ _, fun k hk j hj => ?_⟩
    rw [List.mem_singleton.mp hj]
    exact hlater k (h.ordered k hk)
  · rcases hold k g hg with ⟨rfl, -⟩ | hg
    · exact List.mem_append_right _ (List.mem_singleton_self _)
    · exact List.mem_append_left _ (h.listed k g hg)
  · rcases List.mem_append.mp hk with hk | hk
    · exact List.mem_append_left _ (h.ordered k hk)
    · exact List.mem_append_right _ hk
  · exact List.mem_append_left _ (h.known k hk)
  · rcases hold k g hg with ⟨rfl, -⟩ | hg
    · exact hlater j (h.known j hj)
    · exact h.fresh k g hg hidle j hj

lemma release (h : SelectionInv b enqueued selected) (id : Int) :
    SelectionInv (b.releaseFrame id) enqueued selected := by
  have hold : ∀ (k : Int) (g : FrameBundle), (b.releaseFrame id).frames[k]? = some g → k ≠ id ∧ b.frames[k]? = some g := by
    intro k g hg
    simp only [StreamBuffer.releaseFrame, lookup_erase, Option.ite_none_left_eq_some] at hg
    exact ⟨Ne.symm hg.1, hg.2⟩
  refine ⟨fun k g hg => h.keyed k g (hold k g hg).2, ?_, fun k g hg => ?_, fun k hk => ?_, h.known,
    fun k g hg => h.fresh k g (hold k g hg).2, h.increasing⟩
  · exact h.sorted.filter _
  · obtain ⟨hne, hg⟩ := hold k g hg
    exact List.mem_filter.mpr ⟨h.listed k g hg, bne_iff_ne.mpr hne⟩
  · exact h.ordered k (List.mem_filter.mp hk).1

/-- After a selection the other frames are finished. -/
lemma lookup_select (h : SelectionInv b enqueued selected) {id k : Int} {f g : FrameBundle} (hn : b.NewestIdle id f)
    (hg : (StreamBuffer.markOthersDone id (setInferState b.frames id .selected) b.frameOrder)[k]? = some g) :
    (k = id ∧ g = { f with inferState := .selected }) ∨ (k ≠ id ∧ isInferenceTerminal g.inferState = true) := by
  rw [lookup_markOthersDone, lookup_setInferState] at hg
  obtain ⟨g', hg', rfl⟩ := Option.map_eq_some_iff.mp hg
  by_cases hk : k = id
  · subst hk
    rw [if_pos rfl, hn.lookup, Option.map_some] at hg'
    cases hg'
    left
    simp [giveUp]
  · rw [if_neg (Ne.symm hk)] at hg'
    have hlisted := h.listed k g' hg'
    right
    refine ⟨hk, ?_⟩
    unfold giveUp
    split
    · rfl
    · rename_i hnot
      by_contra hstate
      exact hnot ⟨hlisted, hk, Bool.eq_false_iff.mpr hstate⟩

/-- The selected frame is as the selection has left it. -/
lemma lookup_selected {id : Int} {f : FrameBundle} (hn : b.NewestIdle id f) :
    (StreamBuffer.markOthersDone id (setInferState b.frames id .selected) b.frameOrder)[id]? =
      some { f with inferState := .selected } := by
  rw [lookup_markOthersDone, lookup_setInferState, if_pos rfl, hn.lookup]
  simp [giveUp]

/-- A candidate that is newer than all the others has a greater id. -/
lemma le_of_newest (h : SelectionInv b enqueued selected) {id k : Int} {f g : FrameBundle} (hn : b.NewestIdle id f)
    (hg : b.frames[k]? = some g) (hcandidate : g.isCandidate) : k ≤ id := by
  obtain ⟨older, newer, horder, hnewer⟩ := hn.newest
  have hk := h.listed k g hg
  have hsorted := h.sorted
  rw [horder] at hk hsorted
  rcases List.mem_append.mp hk with hk | hk
  · have hlt := (List.pairwise_append.mp hsorted).2.2 k hk id List.mem_cons_self
    omega
  · rcases List.mem_cons.mp hk with rfl | hk
    · exact Int.le_refl k
    · exact absurd hcandidate (hnewer k hk g hg)

/-- What a selection returns. -/
lemma selectsNewest (h : SelectionInv b enqueued selected) {f : FrameBundle}
    (hf : b.selectFrameForInference.1 = some f) : SelectsNewest b f := by
  rcases b.selectFrameForInference_cases with ⟨hnone, -⟩ | ⟨id, g, hn, hsome, hbuffer⟩
  · rw [hnone] at hf
    cases hf
  · rw [hsome] at hf
    cases hf
    have hid : g.frameId = id := h.keyed id g hn.lookup
    refine ⟨hn.candidate.1, ⟨g, ?_, hn.candidate.2, rfl⟩, fun k g' hg' hcandidate => ?_, ?_, fun k g' hg' => ?_⟩
    · dsimp only
      rw [hid]
      exact hn.lookup
    · dsimp only
      rw [hid]
      exact h.le_of_newest hn hg' hcandidate
    · rw [hbuffer]
      have hlookup := lookup_selected hn
      rw [← hid] at hlookup ⊢
      exact hlookup
    · rw [hbuffer] at hg'
      dsimp only
      rw [hid]
      rcases h.lookup_select hn hg' with ⟨hk, rfl⟩ | ⟨hk, hterminal⟩
      · exact ⟨fun _ => hk, fun _ => rfl⟩
      · refine ⟨fun hopen => ?_, fun he => absurd he hk⟩
        rw [hterminal] at hopen
        cases hopen

lemma select (h : SelectionInv b enqueued selected) :
    SelectionInv b.selectFrameForInference.2 enqueued
      (selected ++ (b.selectFrameForInference.1.map (·.frameId)).toList) := by
  rcases b.selectFrameForInference_cases with ⟨hnone, -⟩ | ⟨id, f, hn, hsome, hbuffer⟩
  · rw [hnone, Option.map_none, Option.toList_none, List.append_nil]
    exact h
  · have hid : f.frameId = id := h.keyed id f hn.lookup
    have hnewer : ∀ j ∈ selected, j < id := h.fresh id f hn.lookup hn.candidate.2
    have hkeyed := keyed_select h.keyed
    rw [hbuffer] at hkeyed ⊢
    rw [hsome, Option.map_some, Option.toList_some, hid]
    have hlisted : id ∈ b.frameOrder := h.listed id f hn.lookup
    refine ⟨hkeyed, h.sorted, fun k g hg => ?_, h.ordered, fun k hk => ?_, fun k g hg hidle => ?_, ?_⟩
    · dsimp only at hg
      rw [lookup_markOthersDone, lookup_setInferState] at hg
      obtain ⟨g', hg', -⟩ := Option.map_eq_some_iff.mp hg
      split at hg'
      · rename_i he
        rw [← he]
        exact hlisted
      · exact h.listed k g' hg'
    · rcases List.mem_append.mp hk with hk | hk
      · exact h.known k hk
      · rw [List.mem_singleton.mp hk]
        exact h.ordered id hlisted
    · rcases h.lookup_select hn hg with ⟨-, rfl⟩ | ⟨-, hterminal⟩
      · cases hidle
      · rw [hidle] at hterminal
        cases hterminal
    · rw [List.pairwise_append]
      refine ⟨h.increasing, List.pairwise_singleton _ _, fun j hj k hk => ?_⟩
      rw [List.mem_singleton.mp hk]
      exact hnewer j hj

/-- A call of a run, with what it enqueues and selects. -/
lemma apply (h : SelectionInv b enqueued selected) {c : BufferCall} (hdropped : c.clearsToDropped = true)
    (hlater : ∀ k ∈ enqueued, ∀ j ∈ c.enqueuedId b, k < j) :
    SelectionInv (c.apply b) (enqueued ++ (c.enqueuedId b).toList) (selected ++ (c.selectedId b).toList) := by
  have hquiet : c.enqueuedId b = none → c.selectedId b = none → SelectionInv (c.apply b) enqueued selected →
      SelectionInv (c.apply b) (enqueued ++ (c.enqueuedId b).toList) (selected ++ (c.selectedId b).toList) := by
    intro henqueued hselected hinv
    rw [henqueued, hselected, Option.toList_none, List.append_nil, List.append_nil]
    exact hinv
  have hkept : c.keepsFrames = true → SelectionInv (c.apply b) enqueued selected := by
    intro hkeeps
    obtain ⟨hframes, horder⟩ := apply_keepsFrames hkeeps b
    apply h.of_frames (keyed_apply h.keyed c) horder
    intro k f hf
    rw [hframes] at hf
    exact ⟨f, hf, fun hidle => hidle⟩
  cases c with
  | enqueuePacket packet => exact hquiet rfl rfl (hkept rfl)
  | enqueueFrame frame =>
    cases frame with
    | none => exact hquiet rfl rfl (hkept rfl)
    | some f =>
      rcases b.enqueueFrame_cases f with ⟨-, he⟩ | ⟨-, he⟩
      · have hrefused : BufferCall.enqueuedId b (.enqueueFrame (some f)) = none := by
          rw [BufferCall.enqueuedId, he]
          rfl
        refine hquiet hrefused rfl ?_
        rw [BufferCall.apply, he]
        exact h
      · have haccepted : BufferCall.enqueuedId b (.enqueueFrame (some f)) = some f.frameId := by
          rw [BufferCall.enqueuedId, he]
          rfl
        rw [haccepted] at hlater ⊢
        rw [BufferCall.apply, he, Option.toList_some]
        have hselected : BufferCall.selectedId b (.enqueueFrame (some f)) = none := rfl
        rw [hselected, Option.toList_none, List.append_nil]
        exact h.enqueue f fun k hk => hlater k hk f.frameId rfl
  | popPacket => exact hquiet rfl rfl (hkept rfl)
  | releaseFrame id => exact hquiet rfl rfl (h.release id)
  | takeCachedInferenceResult context id pts => exact hquiet rfl rfl (hkept rfl)
  | stop => exact hquiet rfl rfl (hkept rfl)
  | worker call =>
    cases call with
    | selectFrameForInference =>
      have henqueued : BufferCall.enqueuedId b (.worker .selectFrameForInference) = none := rfl
      rw [henqueued, Option.toList_none, List.append_nil]
      exact h.select
    | markInferenceRunning id => exact hquiet rfl rfl (h.setState id (by decide))
    | markInferenceDone result => exact hquiet rfl rfl (h.setState result.frameId (by decide))
    | clearInferenceSelection id state =>
      have hstate : state = .dropped := eq_of_beq hdropped
      refine hquiet rfl rfl (h.setState id ?_)
      rw [hstate]
      decide
    | updateCachedInferenceResult result => exact hquiet rfl rfl (hkept rfl)

lemma init : SelectionInv {} [] [] := by
  refine ⟨fun k f hf => ?_, List.Pairwise.nil, fun k f hf => ?_, nofun, nofun, fun k f hf => ?_, List.Pairwise.nil⟩ <;>
    simp at hf

end SelectionInv

/-- The invariant after every run of calls. -/
lemma selectionInv_after {calls : List BufferCall} (hids : (enqueuedIds calls).Pairwise (· < ·))
    (hdropped : ∀ c ∈ calls, c.clearsToDropped = true) :
    SelectionInv (StreamBuffer.after {} calls) (enqueuedIds calls) (selectedIds calls) := by
  induction calls using List.reverseRecOn with
  | nil => exact .init
  | append_singleton calls c ih =>
    rw [enqueuedIds, answers_append, answers_singleton, List.pairwise_append] at hids
    obtain ⟨hbefore, -, hlater⟩ := hids
    have hinv := ih hbefore fun c' hc' => hdropped c' (List.mem_append_left _ hc')
    rw [after_append, enqueuedIds, selectedIds, answers_append, answers_append, answers_singleton, answers_singleton]
    apply hinv.apply
    · exact hdropped c (List.mem_append_right _ (List.mem_singleton_self c))
    · intro k hk j hj
      exact hlater k hk j (Option.mem_toList.mpr hj)

/-- Frames are enqueued with increasing ids and selections are cleared to dropped: the selected ids increase, each
selection picks the newest idle frame with a picture and leaves only this one unfinished, and a selection that
returns nothing changes nothing. -/
theorem selectedIds_increasing {calls : List BufferCall} (hids : (enqueuedIds calls).Pairwise (· < ·))
    (hdropped : ∀ c ∈ calls, c.clearsToDropped = true) :
    (selectedIds calls).Pairwise (· < ·) ∧
    ∀ before after, calls = before ++ .worker .selectFrameForInference :: after →
      (∀ f, (StreamBuffer.after {} before).selectFrameForInference.1 = some f →
        SelectsNewest (StreamBuffer.after {} before) f) ∧
      ((StreamBuffer.after {} before).selectFrameForInference.1 = none →
        (StreamBuffer.after {} before).selectFrameForInference.2 = StreamBuffer.after {} before) := by
  refine ⟨(selectionInv_after hids hdropped).increasing, fun before after hcalls => ?_⟩
  rw [hcalls, enqueuedIds, answers_append, List.pairwise_append] at hids
  have hinv := selectionInv_after hids.1 fun c hc => hdropped c (hcalls ▸ List.mem_append_left _ hc)
  refine ⟨fun f hf => hinv.selectsNewest hf, fun hnone => ?_⟩
  rcases (StreamBuffer.after {} before).selectFrameForInference_cases with ⟨he, -⟩ | ⟨id, f, -, hsome, -⟩
  · rw [he]
  · rw [hsome] at hnone
    cases hnone

/-- Three frames, the second without a picture: the first is selected and finished, the third is selected next. -/
def threeFrames : List BufferCall :=
  [.enqueueFrame (some { frameId := 0, decodedImage := some {} }), .enqueueFrame (some { frameId := 1 }),
    .worker .selectFrameForInference, .worker (.markInferenceRunning 0),
    .enqueueFrame (some { frameId := 2, decodedImage := some {} }), .worker (.clearInferenceSelection 0 .dropped),
    .worker .selectFrameForInference, .releaseFrame 1, .worker (.markInferenceRunning 0),
    .worker .selectFrameForInference]

theorem selectedIds_increasing_threeFrames :
    selectedIds threeFrames = [0, 2] ∧ (selectedIds threeFrames).Pairwise (· < ·) :=
  ⟨by decide, (selectedIds_increasing (by decide) (by decide)).1⟩

end MediaAgent
