import MediaAgent.Library.ConditionVariable
import MediaAgent.PullLoop

/-!
# The wait of the publish loop

`waitForPublishable` of `pipeline/StreamBuffer.cpp` with its condition variable, for the one thread that publishes, over the
buffer and its other callers. Three calls that change what the predicate reads notify nobody: `popPacket` and `releaseFrame`,
which the publishing thread makes itself, and `markInferenceRunning`, which can only close a gate as long as the frames of the
order have increasing ids.
-/

namespace MediaAgent
open Transition TreeMaps ConditionVariable

namespace WorkerCall

/-- The call ends with `cv_.notify_all()`. -/
def notifies (b : StreamBuffer) : WorkerCall → Bool
  | .selectFrameForInference => b.newestIdleFrame.isSome
  | .markInferenceDone _ | .clearInferenceSelection _ _ => true
  | .markInferenceRunning _ | .updateCachedInferenceResult _ => false

end WorkerCall

/-- The places of the publishing thread. -/
inductive PublishLook
  | predicate
  | failed
  deriving DecidableEq, Repr

def publishMonitor : Monitor publishSystem Unit PublishLook where
  start := .predicate
  look _ p s :=
    match p with
    | .predicate =>
      if s.pc = .waiting ∧ (s.buffer.stopped || s.buffer.canPublishLocked kMinVideoWatermark) then .taken (.publish {})
      else .next .failed
    | .failed => .wait
  role a s :=
    match a with
    | .publish _ => if s.pc = .waiting then .waiter else .between
    | _ => .locked
  notice a s :=
    match a with
    | .enqueuePacket _ | .enqueueFrame _ => if s.buffer.stopped then .nobody else .everybody
    | .worker call => if call.notifies s.buffer then .everybody else .nobody
    | .publish _ => .nobody
    | .stop => .everybody
  enters _ inside s := inside = 0 && s.pc = .waiting
  lockedDelivery := true
  waiter_of_taken k p s a h := by
    cases p with
    | predicate =>
      dsimp only at h
      split at h
      · rename_i hready
        cases h
        simp [hready.1]
      · cases h
    | failed => cases h

/-! ## What the predicate reads -/

namespace StreamBuffer

variable {b b' : StreamBuffer} {front : EncodedPacket}

lemma videoGatesOpen_iff : b.videoGatesOpen front 1 = true ↔ b.GatesOpen front := by
  refine ⟨videoGatesOpen_one, fun h => ?_⟩
  have hcount : 1 < b.videoPacketCount := h.watermark
  have hreserve : ∀ f, 0 ≤ front.frameId → b.frames[front.frameId]? = some f →
      (f.decodedImage.isSome && !b.hasDecodedFrameLocked (some front.frameId)) = false := by
    intro f h0 hf
    by_cases hd : f.decodedImage.isSome = true
    · simp [h.reserve h0 f hf hd]
    · simp [hd]
  unfold videoGatesOpen
  cases hid : b.inferringFrameIdLocked with
  | none =>
    by_cases h0 : 0 ≤ front.frameId
    · obtain ⟨f, hf⟩ := h.present h0
      simp [h0, hf, hreserve f h0 hf, hcount]
    · simp [h0, hcount]
  | some id =>
    obtain ⟨h0, hlt⟩ := h.inferring id hid
    obtain ⟨f, hf⟩ := h.present h0
    have hfree : decide (front.frameId < 0 ∨ front.frameId ≥ id) = false := decide_eq_false (by omega)
    simp only [hfree, Bool.false_eq_true, ite_false, h0, ite_true, hf, hreserve f h0 hf, gt_iff_lt, hcount, decide_true]

lemma canPublishLocked_one_iff : b.canPublishLocked 1 = true ↔ ∃ front rest, b.packets = front :: rest ∧
    (b.videoPacketCount ≠ 0 → front.mediaType ≠ .audio → b.GatesOpen front) := by
  unfold canPublishLocked
  cases b.packets with
  | nil => simp
  | cons front rest =>
    by_cases hcount : b.videoPacketCount = 0
    · simp [hcount]
    · by_cases haudio : front.mediaType = .audio
      · simp [haudio]
      · simp [hcount, haudio, videoGatesOpen_iff]

/-- A gate that is open after a call that leaves the packets and the pictures alone was open before, when the call has not
ended the inference of a frame. -/
lemma canPublishLocked_of_frames (hpackets : b'.packets = b.packets) (hcount : b'.videoPacketCount = b.videoPacketCount)
    (hdecoded : ∀ k, b'.decodedAt k = b.decodedAt k) (hinferring : ∀ id, b.inferringFrameIdLocked = some id →
      ∃ id' ≤ id, b'.inferringFrameIdLocked = some id') (h : b'.canPublishLocked 1 = true) :
    b.canPublishLocked 1 = true := by
  obtain ⟨front, rest, hfront, hgates⟩ := canPublishLocked_one_iff.mp h
  refine canPublishLocked_one_iff.mpr ⟨front, rest, hpackets ▸ hfront, fun hsome hvideo => ?_⟩
  have hopen := hgates (hcount.symm ▸ hsome) hvideo
  refine ⟨fun id hid => ?_, fun h0 => ?_, fun h0 f hf hd => ?_, hcount ▸ hopen.watermark⟩
  · obtain ⟨id', hle, hid'⟩ := hinferring id hid
    have hlt := hopen.inferring id' hid'
    omega
  · rw [present_iff_decodedAt, ← hdecoded, ← present_iff_decodedAt]
    exact hopen.present h0
  · obtain ⟨g, hg, hd'⟩ := decodedAt_eq_some.mp ((hdecoded _).trans (decodedAt_eq_some.mpr ⟨f, hf, hd⟩))
    rw [hasDecodedFrameLocked_iff_decodedAt]
    obtain ⟨k, hk, hdk⟩ := (hasDecodedFrameLocked_iff_decodedAt _ _).mp (hopen.reserve h0 g hg hd')
    exact ⟨k, hk, (hdecoded k).symm.trans hdk⟩

/-- Where the ids of the order increase, the first inferring frame is the one of least id. -/
lemma le_of_inferringFrameIdLocked (hsorted : b.frameOrder.Pairwise (· < ·)) {id k : Int} {f : FrameBundle}
    (hid : b.inferringFrameIdLocked = some id) (hk : k ∈ b.frameOrder) (hf : b.frames[k]? = some f)
    (hd : f.decodedImage.isSome = true) (hinfer : isInferring f.inferState = true) : id ≤ k := by
  obtain ⟨-, before, after, horder, hbefore⟩ := List.find?_eq_some_iff_append.mp hid
  rw [horder] at hk hsorted
  rcases List.mem_append.mp hk with hk | hk
  · have hnot := hbefore k hk
    simp [hf, hd, hinfer] at hnot
  · rcases List.mem_cons.mp hk with rfl | hk
    · exact Int.le_refl _
    · exact Int.le_of_lt ((List.pairwise_cons.mp (List.pairwise_append.mp hsorted).2.1).1 k hk)

lemma canPublishLocked_of_markInferenceRunning (hsorted : b.frameOrder.Pairwise (· < ·)) {frameId : Int}
    (h : (b.markInferenceRunning frameId).canPublishLocked 1 = true) : b.canPublishLocked 1 = true := by
  have hdecoded : ∀ k, (b.markInferenceRunning frameId).decodedAt k = b.decodedAt k := fun k =>
    WorkerCall.decodedAt_setInferState b frameId k .running
  refine canPublishLocked_of_frames ?_ ?_ hdecoded ?_ h
  · rfl
  · rfl
  · intro id hid
    have hlisted : id ∈ b.frameOrder := List.mem_of_find?_eq_some hid
    obtain ⟨f, hf, hd, hinfer⟩ := inferringFrameIdLocked_eq_some hid
    -- the frame still is one of those that are inferred
    obtain ⟨g, hg, hd', hinfer'⟩ : ∃ g, (b.markInferenceRunning frameId).frames[id]? = some g ∧
        g.decodedImage.isSome = true ∧ isInferring g.inferState = true := by
      unfold markInferenceRunning
      dsimp only
      rw [lookup_setInferState]
      split
      · exact ⟨{ f with inferState := .running }, by rw [hf, Option.map_some], hd, rfl⟩
      · exact ⟨f, hf, hd, hinfer⟩
    cases hid' : (b.markInferenceRunning frameId).inferringFrameIdLocked with
    | none =>
      have hlisted' : id ∈ (b.markInferenceRunning frameId).frameOrder := hlisted
      have hnone := inferringFrameIdLocked_eq_none hid' hlisted' hg hd'
      exact absurd (hnone.symm.trans hinfer') (by decide)
    | some id' =>
      exact ⟨id', le_of_inferringFrameIdLocked (b := b.markInferenceRunning frameId) hsorted hid' hlisted hg hd' hinfer',
        rfl⟩

end StreamBuffer

namespace PublishState

variable {s t : PublishState}

/-- The frames are listed in the order in which they were accepted. -/
structure Listed (s : PublishState) : Prop where
  sorted : s.buffer.frameOrder.Pairwise (· < ·)
  accepted : ∀ k ∈ s.buffer.frameOrder, k ∈ s.acceptedFrames

lemma Listed.of_eq (h : s.Listed) (horder : t.buffer.frameOrder = s.buffer.frameOrder)
    (haccepted : t.acceptedFrames = s.acceptedFrames) : t.Listed :=
  ⟨horder ▸ h.sorted, horder ▸ haccepted ▸ h.accepted⟩

lemma Listed.next (h : s.Listed) {a : PublishAction} (hn : publishSystem.next s a = some t) : t.Listed := by
  cases a with
  | enqueuePacket p =>
    obtain ⟨-, hn⟩ := Option.ite_none_right_eq_some.mp hn
    cases hn
    unfold enqueuePacket StreamBuffer.enqueuePacket
    dsimp only
    split <;> exact ⟨h.sorted, h.accepted⟩
  | enqueueFrame f =>
    obtain ⟨hnew, hn⟩ := Option.ite_none_right_eq_some.mp hn
    cases hn
    unfold enqueueFrame StreamBuffer.enqueueFrame
    dsimp only
    split
    · exact ⟨h.sorted, h.accepted⟩
    · refine ⟨List.pairwise_append.mpr ⟨h.sorted, List.pairwise_singleton .., fun k hk i hi => ?_⟩, fun k hk => ?_⟩
      · rw [List.mem_singleton.mp hi]
        exact hnew k (h.accepted k hk)
      · rcases List.mem_append.mp hk with hk | hk
        · exact List.mem_append_left _ (h.accepted k hk)
        · exact List.mem_append_right _ hk
  | worker call =>
    cases hn
    obtain ⟨frames, results, he⟩ := call.apply_eq s.buffer
    exact h.of_eq (by rw [he]) rfl
  | publish c =>
    cases hn
    unfold publish
    cases s.pc with
    | taking p codecType => exact h.of_eq (StreamBuffer.takeCachedInferenceResult_frameOrder ..) rfl
    | popping p =>
      dsimp only
      unfold StreamBuffer.popPacket
      split <;> exact ⟨h.sorted, h.accepted⟩
    | releasing p =>
      exact ⟨h.sorted.filter _, fun k hk => h.accepted k (List.mem_filter.mp hk).1⟩
    | finding p | writing p codecType => exact ⟨h.sorted, h.accepted⟩
    | waiting =>
      dsimp only
      split <;> exact ⟨h.sorted, h.accepted⟩
    | peeking =>
      dsimp only
      split
      · exact ⟨h.sorted, h.accepted⟩
      · split <;> exact ⟨h.sorted, h.accepted⟩
  | stop =>
    cases hn
    exact ⟨h.sorted, h.accepted⟩

lemma listed_reachable (h : publishSystem.Reachable s) : s.Listed :=
  h.invariant (I := Listed) ⟨List.Pairwise.nil, fun _ hk => absurd hk List.not_mem_nil⟩ fun _ _ _ ht _ hn => ht.next hn

/-- Only `stop` stops the buffer. -/
lemma stopped_next {a : PublishAction} (hn : publishSystem.next s a = some t) :
    t.buffer.stopped = s.buffer.stopped ∨ a = .stop ∧ t.buffer.stopped = true := by
  cases a with
  | enqueuePacket p =>
    obtain ⟨-, hn⟩ := Option.ite_none_right_eq_some.mp hn
    cases hn
    exact .inl (s.enqueuePacket_stopped p)
  | enqueueFrame f =>
    obtain ⟨-, hn⟩ := Option.ite_none_right_eq_some.mp hn
    cases hn
    exact .inl (s.enqueueFrame_stopped f)
  | worker call =>
    cases hn
    exact .inl (WorkerCall.apply_stopped call s.buffer)
  | publish c =>
    cases hn
    exact .inl (s.publish_stopped c)
  | stop =>
    cases hn
    exact .inr ⟨rfl, rfl⟩

/-- The publishing thread is at its wait, and a packet may be published. -/
def publishable (s : PublishState) : Bool := decide (s.pc = .waiting) && s.buffer.canPublishLocked 1

/-- A call of another thread that notifies nobody makes no packet publishable. -/
lemma publishable_of_quiet (hr : publishSystem.Reachable s) {a : PublishAction} (hn : publishSystem.next s a = some t)
    (hrole : publishMonitor.role a s = .locked) (hquiet : publishMonitor.notice a s ≠ .everybody)
    (hopen : s.buffer.stopped = false) (h : t.publishable = true) : s.publishable = true := by
  cases a with
  | enqueuePacket p | enqueueFrame f => simp [publishMonitor, hopen] at hquiet
  | publish c =>
    simp only [publishMonitor] at hrole
    split at hrole <;> cases hrole
  | stop => exact absurd rfl hquiet
  | worker call =>
    cases hn
    have hcall : call.notifies s.buffer = false := by
      by_contra hcall
      simp only [publishMonitor] at hquiet
      rw [if_pos (by simpa using hcall)] at hquiet
      exact hquiet rfl
    simp only [publishable, Bool.and_eq_true] at h ⊢
    cases call with
    | selectFrameForInference =>
      have hsame : WorkerCall.selectFrameForInference.apply s.buffer = s.buffer := by
        unfold WorkerCall.apply StreamBuffer.selectFrameForInference
        have hnone : s.buffer.newestIdleFrame = none := by simpa [WorkerCall.notifies] using hcall
        simp [hnone]
      rw [hsame] at h
      exact h
    | markInferenceRunning id =>
      exact ⟨h.1, StreamBuffer.canPublishLocked_of_markInferenceRunning (listed_reachable hr).sorted h.2⟩
    | updateCachedInferenceResult r =>
      refine ⟨h.1, StreamBuffer.canPublishLocked_of_frames ?_ ?_ (fun k => ?_) (fun id hid => ⟨id, Int.le_refl _, ?_⟩) h.2⟩
      · simp
      · simp
      · simp
      · rw [← hid]
        unfold WorkerCall.apply StreamBuffer.updateCachedInferenceResult
        dsimp only
        split <;> rfl
    | markInferenceDone r | clearInferenceSelection id state => cases hcall

/-- The thread looks once under the mutex. -/
lemma look_taken {p : PublishLook} {a : PublishAction} (h : publishMonitor.look () p s = .taken a) :
    a = .publish {} ∧ s.pc = .waiting ∧ (s.buffer.stopped = true ∨ s.buffer.canPublishLocked 1 = true) := by
  cases p with
  | failed => cases h
  | predicate =>
    simp only [publishMonitor] at h
    split at h
    · rename_i hready
      cases h
      exact ⟨rfl, hready.1, Bool.or_eq_true_iff.mp hready.2⟩
    · cases h

def counted : Counted publishMonitor where
  work s := s.publishable.toNat
  missed _ p s :=
    match p with
    | .predicate => 0
    | .failed => s.publishable.toNat
  closed s := s.buffer.stopped = true
  missed_start _ _ := rfl
  next s k p p' _ hlook := by
    cases p with
    | failed => cases hlook
    | predicate =>
      simp only [publishMonitor] at hlook
      split at hlook
      · cases hlook
      · rename_i hready
        cases hlook
        refine Nat.le_of_eq (Bool.toNat_eq_zero.mpr ?_)
        by_contra hpub
        simp only [publishable, Bool.not_eq_false, Bool.and_eq_true, decide_eq_true_eq] at hpub
        exact hready ⟨hpub.1, Bool.or_eq_true_iff.mpr (.inr hpub.2)⟩
  wait s k p _ hlook := by
    cases p with
    | failed => exact Nat.le_refl _
    | predicate =>
      simp only [publishMonitor] at hlook
      split at hlook <;> cases hlook
  taken s s' k p a _ hlook hn := by
    obtain ⟨rfl, hpc, hready⟩ := look_taken hlook
    cases hn
    unfold publish
    rw [hpc]
    dsimp only
    by_cases hstopped : s.buffer.stopped = true
    · left
      split <;> exact hstopped
    · right
      have hpub := hready.resolve_left hstopped
      have hwait : s.buffer.waitForPublishable kMinVideoWatermark = true := by
        simp [StreamBuffer.waitForPublishable, hstopped, kMinVideoWatermark, hpub]
      refine ⟨hstopped, ?_⟩
      simp [hwait, publishable, hpc, hpub]
  op s s' a hr hn hrole hquiet := by
    have hlocked : publishMonitor.role a s = .locked := by
      cases a with
      | publish c =>
        simp only [publishMonitor] at hrole
        split at hrole <;> simp at hrole
      | _ => rfl
    by_cases hstopped : s.buffer.stopped = true
    · rcases stopped_next hn with hsame | ⟨-, hafter⟩
      · exact .inl (hsame.trans hstopped)
      · exact .inl hafter
    · by_cases hpub : s'.publishable = true
      · have hbefore := publishable_of_quiet hr hn hlocked hquiet (Bool.eq_false_iff.mpr hstopped) hpub
        exact .inr (.inr ⟨hstopped, by simp [hpub, hbefore]⟩)
      · exact .inr (.inl (by simp [Bool.eq_false_iff.mpr hpub]))
  unlocked s s' a _ _ hrole := by
    cases a with
    | publish c =>
      simp only [publishMonitor] at hrole
      split at hrole <;> cases hrole
    | _ => cases hrole

/-- The other threads leave the publishing thread where it is. -/
lemma pc_next {a : PublishAction} (hn : publishSystem.next s a = some t) (ha : ∀ c, a ≠ .publish c) : t.pc = s.pc := by
  cases a with
  | enqueuePacket p | enqueueFrame f =>
    obtain ⟨-, hn⟩ := Option.ite_none_right_eq_some.mp hn
    cases hn
    rfl
  | publish c => exact absurd rfl (ha c)
  | worker call | stop =>
    cases hn
    rfl

def announced : Announced publishMonitor where
  announced s := s.pc = .waiting ∧ s.buffer.stopped = true
  at_init h := Bool.false_ne_true h.2
  told s s' a _ hn hstopped := by
    by_cases ha : ∃ c, a = .publish c
    · obtain ⟨c, rfl⟩ := ha
      by_cases hpc : s.pc = .waiting
      · rcases stopped_next hn with hsame | ⟨he, -⟩
        · exact .inl ⟨hpc, hsame.symm.trans hstopped.2⟩
        · cases he
      · exact .inr (.inl (by simp [publishMonitor, hpc]))
    · have hpc := pc_next hn (not_exists.mp ha)
      rcases stopped_next hn with hsame | ⟨rfl, -⟩
      · exact .inl ⟨hpc.symm.trans hstopped.1, hsame.symm.trans hstopped.2⟩
      · exact .inr (.inr ⟨Role.noConfusion, rfl⟩)
  seen s k _ hstopped := ⟨.publish {}, by simp [publishMonitor, hstopped.1, hstopped.2]⟩

end PublishState

/-- No packet waits for a publishing thread that sleeps: while it is blocked in `waitForPublishable` the buffer is not
stopped and its front packet may not be published. -/
theorem waitForPublishable_wakes {m : State PublishState Unit PublishLook} (h : publishMonitor.machine.Reachable m)
    (hwaiting : m.waiting ≠ []) :
    m.shared.buffer.stopped = false ∧ m.shared.buffer.canPublishLocked kMinVideoWatermark = false := by
  have hlocked : ∀ a s, publishMonitor.role a s ≠ .unlocked := by
    intro a s
    cases a with
    | publish c =>
      simp only [publishMonitor]
      split <;> exact Role.noConfusion
    | _ => exact Role.noConfusion
  obtain ⟨hone, hinside⟩ := solo (P := fun s => s.pc = .waiting)
    (fun k n s henters => by simpa [publishMonitor] using henters)
    (fun s s' a _ hn hrole hpc => by
      refine (PublishState.pc_next hn ?_).trans hpc
      rintro c rfl
      simp [publishMonitor, hpc] at hrole) h
  have hlength := List.length_pos_iff.mpr hwaiting
  simp only [State.inside] at hone hinside
  have hpc := hinside (by omega)
  have hrunning : ¬m.shared.buffer.stopped = true := fun hstopped => by
    have hover := PublishState.announced.overtaken_of_blocked h ⟨hpc, hstopped⟩ hwaiting
    have hnever : m.overtaken = false := not_overtaken (fun a s _ => hlocked a s) h
    exact absurd (hnever.symm.trans hover) (by decide)
  refine ⟨Bool.eq_false_iff.mpr hrunning, ?_⟩
  have hdue : m.due = 0 := by
    refine due_eq_zero (fun a s => ?_) h
    cases a with
    | publish c | stop => exact Notice.noConfusion
    | enqueuePacket p | enqueueFrame f | worker call =>
      simp only [publishMonitor]
      split <;> exact Notice.noConfusion
  have hcovered : m.shared.publishable.toNat ≤ m.woken.length + m.holding + m.due :=
    (PublishState.counted.work_covered h hwaiting).resolve_left hrunning
  have hnone : m.shared.publishable.toNat = 0 := by omega
  have hclosed : m.shared.buffer.canPublishLocked 1 = false := by simpa [PublishState.publishable, hpc] using hnone
  exact hclosed

/-- The thread sleeps in front of a packet whose frame has not come. -/
def earlyPacketRun : List (Label PublishAction Unit) :=
  [.op (.enqueuePacket { mediaType := .video, frameId := 0 }), .enter (), .look, .look]

theorem waitForPublishable_wakes_earlyPacket : ∃ m, publishMonitor.machine.Reachable m ∧ m.waiting = [()] ∧
    m.shared.buffer.packets.length = 1 ∧ m.shared.buffer.canPublishLocked kMinVideoWatermark = false := by
  obtain ⟨m, hm, hp⟩ := Machine.reachable_of_exec_any publishMonitor.machine earlyPacketRun
    (fun m => decide (m.waiting = [()] ∧ m.shared.buffer.packets.length = 1)) (by decide +kernel)
  obtain ⟨hwaiting, hpackets⟩ := of_decide_eq_true hp
  exact ⟨m, hm, hwaiting, hpackets, (waitForPublishable_wakes hm (by simp [hwaiting])).2⟩

end MediaAgent
