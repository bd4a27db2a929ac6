import MediaAgent.InferLoop

/-!
# The parts of the stream buffer agree

Whatever is called on a `StreamBuffer`, in whatever order and with whatever arguments, its counter of video packets,
the order of its frames and the keys of its cache agree with the packets, the frames and the results that it holds.
-/

namespace MediaAgent
open Std TreeMaps

namespace StreamBuffer

def packetCount (b : StreamBuffer) : Nat := b.packets.length

def frameCount (b : StreamBuffer) : Nat := b.frames.size

def empty (b : StreamBuffer) : Bool := b.packets.isEmpty && b.frames.isEmpty

/-- The redundant parts of the buffer. -/
structure Consistent (b : StreamBuffer) : Prop where
  videoCount : b.videoPacketCount = b.packets.countP (·.mediaType == .video)
  listed : ∀ id : Int, id ∈ b.frameOrder ↔ (b.frames[id]?).isSome = true
  cached : ∀ (id : Int) (r : FrameInferenceResult), b.cachedInferenceResults[id]? = some r → r.frameId = id ∧ 0 ≤ id

/-- The queues and the frames are the same; the cache may differ. -/
structure SameFrames (b b' : StreamBuffer) : Prop where
  packets : b'.packets = b.packets
  frames : ∀ id : Int, b'.frames[id]? = b.frames[id]?
  frameOrder : b'.frameOrder = b.frameOrder
  videoPacketCount : b'.videoPacketCount = b.videoPacketCount

lemma SameFrames.refl (b : StreamBuffer) : SameFrames b b := ⟨rfl, fun _ => rfl, rfl, rfl⟩

end StreamBuffer

/-- A call of `IStreamBuffer`: one that writes, or one that only reads. -/
inductive IStreamBufferCall
  | write (c : BufferCall)
  | waitForPublishable (minVideoWatermark : Nat)
  | peekPacket
  | findFrame (frameId : Int)
  | packetCount
  | frameCount
  | empty

namespace IStreamBufferCall

def apply (c : IStreamBufferCall) (b : StreamBuffer) : StreamBuffer :=
  match c with
  | write c => c.apply b
  | _ => b

/-- The call returns false or a null pointer, or there is nothing under the id that it is about. -/
def comesToNothing (b : StreamBuffer) : IStreamBufferCall → Bool
  | write (.enqueuePacket packet) => !(b.enqueuePacket packet).1
  | write (.enqueueFrame frame) => !(b.enqueueFrame frame).1
  | write .popPacket => b.packets.isEmpty
  | write (.releaseFrame id) => (b.frames[id]?).isNone
  | write (.takeCachedInferenceResult context id pts) =>
    (b.takeCachedInferenceResult context.visit id pts context.nowMonoMs).1.isNone
  | write .stop => false
  | write (.worker .selectFrameForInference) => b.selectFrameForInference.1.isNone
  | write (.worker (.markInferenceRunning id)) => (b.frames[id]?).isNone
  | write (.worker (.markInferenceDone result)) => (b.frames[result.frameId]?).isNone
  | write (.worker (.clearInferenceSelection id _)) => (b.frames[id]?).isNone
  | write (.worker (.updateCachedInferenceResult result)) => decide (result.frameId < 0)
  | waitForPublishable minVideoWatermark => !b.waitForPublishable minVideoWatermark
  | peekPacket => b.peekPacket.isNone
  | findFrame id => (b.findFrame id).isNone
  | packetCount => b.packetCount == 0
  | frameCount => b.frameCount == 0
  | empty => !b.empty

end IStreamBufferCall

namespace StreamBuffer.Consistent

variable {b : StreamBuffer}

/-- The frames are replaced by others under the same ids. -/
lemma congr {frames : FrameMap} (h : b.Consistent)
    (hkeys : ∀ id : Int, (frames[id]?).isSome = (b.frames[id]?).isSome) : Consistent { b with frames := frames } := by
  refine ⟨h.videoCount, fun id => ?_, h.cached⟩
  dsimp only
  rw [hkeys]
  exact h.listed id

lemma setInferState (h : b.Consistent) (id : Int) (state : InferState) :
    Consistent { b with frames := MediaAgent.setInferState b.frames id state } := by
  refine h.congr fun k => ?_
  rw [lookup_setInferState]
  split <;> simp

lemma enqueuePacket (h : b.Consistent) (packet : Option EncodedPacket) : (b.enqueuePacket packet).2.Consistent := by
  cases packet with
  | none => exact h
  | some p =>
    rcases b.enqueuePacket_cases p with ⟨-, he⟩ | ⟨-, he⟩
    · rw [he]
      exact h
    · rw [he]
      refine ⟨?_, h.listed, h.cached⟩
      dsimp only
      rw [List.countP_append, List.countP_singleton, h.videoCount]
      cases p.mediaType <;> rfl

lemma enqueueFrame (h : b.Consistent) (frame : Option FrameBundle) : (b.enqueueFrame frame).2.Consistent := by
  cases frame with
  | none => exact h
  | some f =>
    rcases b.enqueueFrame_cases f with ⟨-, he⟩ | ⟨-, he⟩
    · rw [he]
      exact h
    · rw [he]
      refine ⟨h.videoCount, fun id => ?_, h.cached⟩
      dsimp only
      rw [lookup_insert, List.mem_append, List.mem_singleton, h.listed]
      by_cases hid : f.frameId = id
      · simp [hid]
      · simp [hid, Ne.symm hid]

lemma selectFrameForInference (h : b.Consistent) : b.selectFrameForInference.2.Consistent := by
  rcases b.selectFrameForInference_cases with ⟨he, -⟩ | ⟨id, f, -, -, he⟩
  · rw [he]
    exact h
  · rw [he]
    refine h.congr fun k => ?_
    rw [lookup_markOthersDone, Option.isSome_map, lookup_setInferState]
    split <;> simp

lemma popPacket (h : b.Consistent) : b.popPacket.Consistent := by
  have hcount := h.videoCount
  unfold StreamBuffer.popPacket
  split
  · exact h
  · rename_i front rest hpackets
    refine ⟨?_, h.listed, h.cached⟩
    rw [hpackets, List.countP_cons] at hcount
    dsimp only
    cases hvideo : front.mediaType with
    | video =>
      simp only [hvideo, beq_self_eq_true, if_true] at hcount
      rw [if_pos ⟨rfl, by omega⟩]
      omega
    | audio =>
      simp only [hvideo] at hcount
      rw [if_neg (by simp)]
      simpa using hcount

lemma releaseFrame (h : b.Consistent) (id : Int) : (b.releaseFrame id).Consistent := by
  refine ⟨h.videoCount, fun k => ?_, fun k r hr => ?_⟩
  · dsimp only [StreamBuffer.releaseFrame]
    rw [lookup_erase, List.mem_filter, h.listed]
    by_cases hid : id = k
    · simp [hid]
    · simp [hid, Ne.symm hid]
  · dsimp only [StreamBuffer.releaseFrame] at hr
    rw [lookup_erase] at hr
    split at hr
    · cases hr
    · exact h.cached k r hr

lemma updateCachedInferenceResult (h : b.Consistent) (result : FrameInferenceResult) :
    (b.updateCachedInferenceResult result).Consistent := by
  unfold StreamBuffer.updateCachedInferenceResult
  by_cases hid : result.frameId < 0
  · rw [if_pos hid]
    exact h
  · rw [if_neg hid]
    refine ⟨h.videoCount, h.listed, fun k r hr => ?_⟩
    dsimp only at hr
    rw [lookup_insert] at hr
    split at hr
    · cases hr
      exact ⟨‹_›, by omega⟩
    · exact h.cached k r hr

lemma takeCachedInferenceResult (h : b.Consistent) (visit : Traversal (Int × FrameInferenceResult))
    (id pts now : Int) : (b.takeCachedInferenceResult visit id pts now).2.Consistent := by
  refine ⟨?_, fun k => ?_, fun k r hr => h.cached k r (lookup_takeCachedInferenceResult _ _ _ _ hr)⟩
  · rw [takeCachedInferenceResult_videoPacketCount, takeCachedInferenceResult_packets]
    exact h.videoCount
  · rw [takeCachedInferenceResult_frameOrder, takeCachedInferenceResult_frames]
    exact h.listed k

/-- Every call keeps the parts in agreement. -/
lemma apply (h : b.Consistent) (c : IStreamBufferCall) : (c.apply b).Consistent := by
  cases c with
  | write c =>
    cases c with
    | enqueuePacket packet => exact h.enqueuePacket packet
    | enqueueFrame frame => exact h.enqueueFrame frame
    | popPacket => exact h.popPacket
    | releaseFrame id => exact h.releaseFrame id
    | takeCachedInferenceResult context id pts => exact h.takeCachedInferenceResult _ id pts _
    | stop => exact ⟨h.videoCount, h.listed, h.cached⟩
    | worker call =>
      cases call with
      | selectFrameForInference => exact h.selectFrameForInference
      | markInferenceRunning id => exact h.setInferState id .running
      | markInferenceDone result => exact h.setInferState result.frameId .done
      | clearInferenceSelection id state => exact h.setInferState id state
      | updateCachedInferenceResult result => exact h.updateCachedInferenceResult result
  | _ => exact h

/-- There is no frame to mark. -/
lemma setInferState_same {id : Int} (hnone : (b.frames[id]?).isNone = true) (state : InferState) :
    SameFrames b { b with frames := MediaAgent.setInferState b.frames id state } := by
  have hframes : MediaAgent.setInferState b.frames id state = b.frames := by
    unfold MediaAgent.setInferState
    rw [Option.isNone_iff_eq_none.mp hnone]
  rw [hframes]
  exact .refl b

lemma enqueuePacket_same {packet : Option EncodedPacket} (hfalse : (b.enqueuePacket packet).1 = false) :
    SameFrames b (b.enqueuePacket packet).2 := by
  cases packet with
  | none => exact .refl b
  | some p =>
    rcases b.enqueuePacket_cases p with ⟨-, he⟩ | ⟨-, he⟩
    · rw [he]
      exact .refl b
    · rw [he] at hfalse
      cases hfalse

lemma enqueueFrame_same {frame : Option FrameBundle} (hfalse : (b.enqueueFrame frame).1 = false) :
    SameFrames b (b.enqueueFrame frame).2 := by
  cases frame with
  | none => exact .refl b
  | some f =>
    rcases b.enqueueFrame_cases f with ⟨-, he⟩ | ⟨-, he⟩
    · rw [he]
      exact .refl b
    · rw [he] at hfalse
      cases hfalse

lemma popPacket_same (hempty : b.packets = []) : SameFrames b b.popPacket := by
  rw [StreamBuffer.popPacket, hempty]
  exact .refl b

/-- A frame that is not there is not in the order either. -/
lemma releaseFrame_same (h : b.Consistent) {id : Int} (hnone : b.frames[id]? = none) :
    SameFrames b (b.releaseFrame id) := by
  have hunlisted : id ∉ b.frameOrder := by
    rw [h.listed, hnone]
    simp
  refine ⟨rfl, fun k => ?_, ?_, rfl⟩
  · dsimp only [StreamBuffer.releaseFrame]
    rw [lookup_erase]
    split
    · subst k
      exact hnone.symm
    · rfl
  · refine List.filter_eq_self.mpr fun k hk => ?_
    have hne : k ≠ id := fun he => hunlisted (he ▸ hk)
    simpa using hne

lemma takeCachedInferenceResult_same (visit : Traversal (Int × FrameInferenceResult)) (id pts now : Int) :
    SameFrames b (b.takeCachedInferenceResult visit id pts now).2 where
  packets := takeCachedInferenceResult_packets ..
  frames k := by rw [takeCachedInferenceResult_frames]
  frameOrder := takeCachedInferenceResult_frameOrder ..
  videoPacketCount := takeCachedInferenceResult_videoPacketCount ..

lemma selectFrameForInference_same (hnone : b.selectFrameForInference.1 = none) :
    SameFrames b b.selectFrameForInference.2 := by
  rcases b.selectFrameForInference_cases with ⟨he, -⟩ | ⟨id, f, -, hsome, -⟩
  · rw [he]
    exact .refl b
  · cases hsome.symm.trans hnone

lemma updateCachedInferenceResult_same {result : FrameInferenceResult} (hid : result.frameId < 0) :
    SameFrames b (b.updateCachedInferenceResult result) := by
  rw [StreamBuffer.updateCachedInferenceResult, if_pos hid]
  exact .refl b

/-- A call that comes to nothing leaves the queues and the frames. -/
lemma comesToNothing (h : b.Consistent) {c : IStreamBufferCall} (hc : c.comesToNothing b = true) :
    SameFrames b (c.apply b) := by
  cases c with
  | write c =>
    cases c with
    | enqueuePacket packet => exact enqueuePacket_same (Bool.not_eq_true' _ |>.mp hc)
    | enqueueFrame frame => exact enqueueFrame_same (Bool.not_eq_true' _ |>.mp hc)
    | popPacket => exact popPacket_same (List.isEmpty_iff.mp hc)
    | releaseFrame id => exact h.releaseFrame_same (Option.isNone_iff_eq_none.mp hc)
    | takeCachedInferenceResult context id pts => exact takeCachedInferenceResult_same _ id pts _
    | stop => cases hc
    | worker call =>
      cases call with
      | selectFrameForInference => exact selectFrameForInference_same (Option.isNone_iff_eq_none.mp hc)
      | markInferenceRunning id => exact setInferState_same hc .running
      | markInferenceDone result => exact setInferState_same hc .done
      | clearInferenceSelection id state => exact setInferState_same hc state
      | updateCachedInferenceResult result => exact updateCachedInferenceResult_same (of_decide_eq_true hc)
  | _ => exact .refl b

end StreamBuffer.Consistent

/-- After any calls on a new buffer its parts agree, and a call that returns false or finds nothing leaves the
packets, the frames, their order and the count of video packets as they are. -/
theorem buffer_consistent (calls : List IStreamBufferCall) :
    (calls.foldl (fun b c => c.apply b) ({} : StreamBuffer)).Consistent ∧
      ∀ c : IStreamBufferCall, c.comesToNothing (calls.foldl (fun b c => c.apply b) {}) = true →
        StreamBuffer.SameFrames (calls.foldl (fun b c => c.apply b) {})
          (c.apply (calls.foldl (fun b c => c.apply b) {})) := by
  have hrun : ∀ b : StreamBuffer, b.Consistent → (calls.foldl (fun b c => c.apply b) b).Consistent := by
    induction calls with
    | nil => exact fun b h => h
    | cons c calls ih => exact fun b h => ih (c.apply b) (h.apply c)
  have hconsistent := hrun {} ⟨rfl, by simp, by simp⟩
  exact ⟨hconsistent, fun c hc => hconsistent.comesToNothing hc⟩

end MediaAgent
