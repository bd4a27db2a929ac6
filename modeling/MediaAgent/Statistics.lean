import MediaAgent.Library.Transition
import MediaAgent.StreamTypes

/-!
# The statistics loop

`common/Statistics.cpp`. Every public call holds the mutex from start to end. `loop` copies both tables in one
critical section, computes the deltas of the copies outside, and stores its copy of the counters in another one; a
stream may be unregistered in between. `start` is called when the thread before it has been joined. The log lines
are left out.
-/

namespace MediaAgent
open Std TreeMaps Transition

structure Counters where
  rtspPullFrames : UInt64 := 0
  mppDecodeFrames : UInt64 := 0
  inferFrames : UInt64 := 0
  publishFrames : UInt64 := 0
  remainPacketSize : UInt64 := 0
  remainFrameSize : UInt64 := 0
  deriving DecidableEq, Repr

/-- The cumulative counters. -/
inductive Counter
  | rtspPullFrames
  | mppDecodeFrames
  | inferFrames
  | publishFrames
  deriving DecidableEq, Repr

namespace Counters

def get (c : Counters) : Counter → UInt64
  | .rtspPullFrames => c.rtspPullFrames
  | .mppDecodeFrames => c.mppDecodeFrames
  | .inferFrames => c.inferFrames
  | .publishFrames => c.publishFrames

def add (c : Counters) (n : UInt64) : Counter → Counters
  | .rtspPullFrames => { c with rtspPullFrames := c.rtspPullFrames + n }
  | .mppDecodeFrames => { c with mppDecodeFrames := c.mppDecodeFrames + n }
  | .inferFrames => { c with inferFrames := c.inferFrames + n }
  | .publishFrames => { c with publishFrames := c.publishFrames + n }

/-- One of the cumulative counters is not 0. -/
def counted (c : Counters) : Bool :=
  c.rtspPullFrames != 0 || c.mppDecodeFrames != 0 || c.inferFrames != 0 || c.publishFrames != 0

/-- No cumulative counter is greater. -/
def Le (c d : Counters) : Prop := ∀ k, c.get k ≤ d.get k

end Counters

abbrev CounterMap := TreeMap Bytes Counters

/-- The counters of a stream, or zeros if it has none. -/
def CounterMap.of (m : CounterMap) (streamId : Bytes) : Counters := (m[streamId]?).getD {}

/-- Where `loop` stands: at the test of `running_`, in `wait_for`, or between its two critical sections with the
copies that it works on. -/
inductive LoopPc
  | exited
  | testing
  | waiting
  | computing (snapshot : List (Bytes × Counters)) (lastSnapshot : CounterMap)

structure Statistics where
  counters : CounterMap := ∅
  lastSnapshot : CounterMap := ∅
  running : Bool := false
  intervalMs : UInt32 := 5000
  pc : LoopPc := .exited

namespace Statistics

def ensureStreamLocked (s : Statistics) (streamId : Bytes) : Statistics :=
  match s.counters[streamId]? with
  | none => { s with counters := s.counters.insert streamId {} }
  | some _ => s

def registerStream (s : Statistics) (streamId : Bytes) : Statistics :=
  if streamId = [] then s else s.ensureStreamLocked streamId

def unregisterStream (s : Statistics) (streamId : Bytes) : Statistics :=
  if streamId = [] then s
  else { s with counters := s.counters.erase streamId, lastSnapshot := s.lastSnapshot.erase streamId }

/-- The body of the functions that count: `counters_[stream_id]` makes an entry where there is none. -/
def inc (counter : Counter) (s : Statistics) (streamId : Bytes) (n : UInt64) : Statistics :=
  if streamId = [] ∨ n = 0 then s
  else { s with counters := s.counters.insert streamId ((s.counters.of streamId).add n counter) }

def incRtspPullFrame : Statistics → Bytes → UInt64 → Statistics := inc .rtspPullFrames

def incMppDecodeFrame : Statistics → Bytes → UInt64 → Statistics := inc .mppDecodeFrames

def incInferFrame : Statistics → Bytes → UInt64 → Statistics := inc .inferFrames

def incPublishFrame : Statistics → Bytes → UInt64 → Statistics := inc .publishFrames

def setRemainPacketSize (s : Statistics) (streamId : Bytes) (size : UInt64) : Statistics :=
  if streamId = [] then s
  else { s with counters := s.counters.insert streamId { s.counters.of streamId with remainPacketSize := size } }

def setRemainFrameSize (s : Statistics) (streamId : Bytes) (size : UInt64) : Statistics :=
  if streamId = [] then s
  else { s with counters := s.counters.insert streamId { s.counters.of streamId with remainFrameSize := size } }

def start (s : Statistics) (intervalMs : UInt32) : Option Statistics :=
  match s.pc with
  | .exited => some { s with
      intervalMs := if intervalMs = 0 then 5000 else intervalMs
      lastSnapshot := ∅
      running := true
      pc := .testing }
  | _ => none

def stop (s : Statistics) : Statistics := { s with running := false }

/-- The next step of `loop`. -/
def loop (s : Statistics) : Option Statistics :=
  match s.pc with
  | .exited => none
  | .testing => some { s with pc := if s.running then .waiting else .exited }
  | .waiting =>
    if !s.running then some { s with pc := .exited }
    else
      let snapshot := s.counters.toList
      some { s with pc := if snapshot.isEmpty then .testing else .computing snapshot s.lastSnapshot }
  | .computing snapshot _ => some { s with lastSnapshot := TreeMap.ofList snapshot, pc := .testing }

/-- A count does not reach `2 ^ 64`. -/
def fits (counter : Counter) (s : Statistics) (streamId : Bytes) (n : UInt64) : Bool :=
  decide (((s.counters.of streamId).get counter).toNat + n.toNat < 2 ^ 64)

/-- The delta of a counter that `loop` computes for an entry of its copy. -/
def delta (lastSnapshot : CounterMap) (e : Bytes × Counters) (k : Counter) : UInt64 :=
  e.2.get k - (lastSnapshot.of e.1).get k

/-- Whenever `loop` computes deltas, every counter has at least its last value, and no subtraction wraps. -/
def NoWrap (s : Statistics) : Prop :=
  ∀ snapshot lastSnapshot, s.pc = .computing snapshot lastSnapshot → ∀ e ∈ snapshot, ∀ k,
    (lastSnapshot.of e.1).get k ≤ e.2.get k ∧
      (delta lastSnapshot e k).toNat = (e.2.get k).toNat - ((lastSnapshot.of e.1).get k).toNat

end Statistics

inductive StatisticsAction
  | registerStream (streamId : Bytes)
  | unregisterStream (streamId : Bytes)
  | incRtspPullFrame (streamId : Bytes) (n : UInt64)
  | incMppDecodeFrame (streamId : Bytes) (n : UInt64)
  | incInferFrame (streamId : Bytes) (n : UInt64)
  | incPublishFrame (streamId : Bytes) (n : UInt64)
  | setRemainPacketSize (streamId : Bytes) (size : UInt64)
  | setRemainFrameSize (streamId : Bytes) (size : UInt64)
  | start (intervalMs : UInt32)
  | stop
  | loop

/-- The calls of any threads and the steps of `loop`, with counters that stay below `2 ^ 64`. -/
def statisticsSystem : Machine Statistics StatisticsAction where
  init := {}
  next s
    | .registerStream streamId => some (s.registerStream streamId)
    | .unregisterStream streamId => some (s.unregisterStream streamId)
    | .incRtspPullFrame streamId n =>
      if s.fits .rtspPullFrames streamId n then some (s.incRtspPullFrame streamId n) else none
    | .incMppDecodeFrame streamId n =>
      if s.fits .mppDecodeFrames streamId n then some (s.incMppDecodeFrame streamId n) else none
    | .incInferFrame streamId n =>
      if s.fits .inferFrames streamId n then some (s.incInferFrame streamId n) else none
    | .incPublishFrame streamId n =>
      if s.fits .publishFrames streamId n then some (s.incPublishFrame streamId n) else none
    | .setRemainPacketSize streamId size => some (s.setRemainPacketSize streamId size)
    | .setRemainFrameSize streamId size => some (s.setRemainFrameSize streamId size)
    | .start intervalMs => s.start intervalMs
    | .stop => some s.stop
    | .loop => s.loop

/-- The step does not unregister a stream that `loop`, while it is not being stopped, holds a copy of with a counter
that is not 0. -/
def Statistics.keepsCopied (s : Statistics) : StatisticsAction → Bool
  | .unregisterStream streamId =>
    match s.pc with
    | .computing snapshot _ =>
      !s.running || streamId.isEmpty || !snapshot.any fun e => e.1 == streamId && e.2.counted
    | _ => true
  | _ => true

/-! ## Counters only grow -/

namespace Counters

lemma Le.refl (c : Counters) : c.Le c := fun _ => UInt64.le_refl _

lemma Le.trans {c d e : Counters} (h : c.Le d) (h' : d.Le e) : c.Le e := fun k => UInt64.le_trans (h k) (h' k)

lemma le_add {c : Counters} {n : UInt64} {counter : Counter} (hfits : (c.get counter).toNat + n.toNat < 2 ^ 64) :
    c.Le (c.add n counter) := by
  have hsum : c.get counter ≤ c.get counter + n := by
    rw [UInt64.le_iff_toNat_le, UInt64.toNat_add, Nat.mod_eq_of_lt hfits]
    omega
  intro k
  cases counter <;> cases k <;> first | exact hsum | exact UInt64.le_refl _

/-- A counter that is not 0 is not below zeros. -/
lemma le_zero_iff (c : Counters) : c.Le {} ↔ c.counted = false := by
  have hzero : ∀ n : UInt64, n ≤ 0 ↔ n = 0 := by
    intro n
    rw [UInt64.le_iff_toNat_le, ← UInt64.toNat_inj]
    simp
  have hget : c.Le {} ↔ ∀ k, c.get k = 0 := by
    refine forall_congr' fun k => ?_
    rw [← hzero]
    cases k <;> rfl
  rw [hget]
  simp only [counted, Bool.or_eq_false_iff, bne_eq_false_iff_eq]
  exact ⟨fun h => ⟨⟨⟨h .rtspPullFrames, h .mppDecodeFrames⟩, h .inferFrames⟩, h .publishFrames⟩,
    fun ⟨⟨⟨hrtsp, hmpp⟩, hinfer⟩, hpublish⟩ k => by cases k <;> assumption⟩

end Counters

lemma of_insert (m : CounterMap) (id k : Bytes) (c : Counters) :
    CounterMap.of (m.insert id c) k = if id = k then c else m.of k := by
  unfold CounterMap.of
  rw [lookup_insert]
  split <;> rfl

lemma of_erase (m : CounterMap) (id k : Bytes) : CounterMap.of (m.erase id) k = if id = k then {} else m.of k := by
  unfold CounterMap.of
  rw [lookup_erase]
  split <;> rfl

namespace Statistics

variable {s t : Statistics}

/-- No counter of `s` is greater in `t`; the loop and its table are the same. -/
structure Grows (s t : Statistics) : Prop where
  counters : ∀ id, (s.counters.of id).Le (t.counters.of id)
  lastSnapshot : t.lastSnapshot = s.lastSnapshot
  running : t.running = s.running
  pc : t.pc = s.pc

lemma Grows.refl (s : Statistics) : Grows s s := ⟨fun _ => .refl _, rfl, rfl, rfl⟩

lemma Grows.insert {id : Bytes} {c : Counters} (hle : (s.counters.of id).Le c) :
    Grows s { s with counters := s.counters.insert id c } := by
  refine ⟨fun k => ?_, rfl, rfl, rfl⟩
  dsimp only
  rw [of_insert]
  split
  · subst k
    exact hle
  · exact .refl _

lemma grows_registerStream (s : Statistics) (id : Bytes) : Grows s (s.registerStream id) := by
  unfold registerStream ensureStreamLocked
  split
  · exact .refl s
  · split
    · rename_i hnone
      refine .insert ?_
      rw [CounterMap.of, hnone]
      exact .refl _
    · exact .refl s

lemma grows_inc {counter : Counter} {id : Bytes} {n : UInt64} (hfits : s.fits counter id n = true) :
    Grows s (inc counter s id n) := by
  unfold inc
  split
  · exact .refl s
  · exact .insert (Counters.le_add (of_decide_eq_true hfits))

lemma grows_setRemainPacketSize (s : Statistics) (id : Bytes) (size : UInt64) :
    Grows s (s.setRemainPacketSize id size) := by
  unfold setRemainPacketSize
  split
  · exact .refl s
  · exact .insert fun k => by cases k <;> exact UInt64.le_refl _

lemma grows_setRemainFrameSize (s : Statistics) (id : Bytes) (size : UInt64) :
    Grows s (s.setRemainFrameSize id size) := by
  unfold setRemainFrameSize
  split
  · exact .refl s
  · exact .insert fun k => by cases k <;> exact UInt64.le_refl _

/-! ## What holds while the loop runs -/

/-- The table of the last round, and the copy that is to replace it, are not above the counters; the copies that the
deltas are computed of fit together. -/
structure Inv (s : Statistics) : Prop where
  last : s.running = true → ∀ id : Bytes, ∀ c : Counters, s.lastSnapshot[id]? = some c → c.Le (s.counters.of id)
  copied : s.running = true → ∀ snapshot lastSnapshot, s.pc = .computing snapshot lastSnapshot →
    ∀ e ∈ snapshot, e.2.Le (s.counters.of e.1)
  below : ∀ snapshot lastSnapshot, s.pc = .computing snapshot lastSnapshot →
    ∀ e ∈ snapshot, (lastSnapshot.of e.1).Le e.2

lemma Inv.noWrap (h : s.Inv) : s.NoWrap := by
  intro snapshot lastSnapshot hpc e he k
  have hle := h.below snapshot lastSnapshot hpc e he k
  exact ⟨hle, UInt64.toNat_sub_of_le _ _ hle⟩

lemma Inv.grows (h : s.Inv) (hg : Grows s t) : t.Inv := by
  refine ⟨fun hrunning id c hc => ?_, fun hrunning snapshot lastSnapshot hpc e he => ?_,
    fun snapshot lastSnapshot hpc => h.below snapshot lastSnapshot (hg.pc ▸ hpc)⟩
  · rw [hg.running] at hrunning
    rw [hg.lastSnapshot] at hc
    exact (h.last hrunning id c hc).trans (hg.counters id)
  · rw [hg.running] at hrunning
    rw [hg.pc] at hpc
    exact (h.copied hrunning snapshot lastSnapshot hpc e he).trans (hg.counters e.1)

/-- A stream is unregistered that the loop holds no copy of, or one with nothing but zeros. -/
lemma Inv.unregisterStream (h : s.Inv) {id : Bytes} (hkeeps : s.keepsCopied (.unregisterStream id) = true) :
    (s.unregisterStream id).Inv := by
  unfold Statistics.unregisterStream
  by_cases hid : id = []
  · rw [if_pos hid]
    exact h
  · rw [if_neg hid]
    refine ⟨fun hrunning k c hc => ?_, fun hrunning snapshot lastSnapshot hpc e he => ?_, h.below⟩
    · dsimp only at hc ⊢
      rw [lookup_erase] at hc
      rw [of_erase]
      split at hc
      · cases hc
      · rw [if_neg ‹_›]
        exact h.last hrunning k c hc
    · dsimp only at hpc ⊢
      rw [of_erase]
      by_cases hsame : id = e.1
      · rw [if_pos hsame, Counters.le_zero_iff]
        simp only [keepsCopied, hpc, show s.running = true from hrunning, List.isEmpty_eq_false_iff.mpr hid,
          Bool.not_true, Bool.false_or, Bool.not_eq_true', List.any_eq_false] at hkeeps
        simpa [hsame] using hkeeps e he
      · rw [if_neg hsame]
        exact h.copied hrunning snapshot lastSnapshot hpc e he

/-- The ways of a step of the loop: to a place where it holds no copy, to a copy of both tables, or to the end of a
round. -/
lemma loop_cases (hn : s.loop = some t) :
    (∃ pc, (∀ snapshot lastSnapshot, pc ≠ .computing snapshot lastSnapshot) ∧ t = { s with pc := pc }) ∨
    (s.running = true ∧ t = { s with pc := .computing s.counters.toList s.lastSnapshot }) ∨
    ∃ snapshot lastSnapshot, s.pc = .computing snapshot lastSnapshot ∧
      t = { s with lastSnapshot := TreeMap.ofList snapshot, pc := .testing } := by
  unfold loop at hn
  split at hn
  · cases hn
  · cases hn
    refine .inl ⟨_, fun snapshot lastSnapshot => ?_, rfl⟩
    split <;> simp
  · by_cases hrunning : s.running = true
    · simp only [hrunning, Bool.not_true, Bool.false_eq_true, if_false] at hn
      by_cases hempty : s.counters.toList.isEmpty = true
      · rw [if_pos hempty] at hn
        cases hn
        exact .inl ⟨.testing, by simp, by rw [hrunning]⟩
      · rw [if_neg hempty] at hn
        cases hn
        exact .inr (.inl ⟨hrunning, by rw [hrunning]⟩)
    · simp only [hrunning, Bool.not_false, if_true] at hn
      cases hn
      exact .inl ⟨.exited, by simp, by rw [Bool.eq_false_iff.mpr hrunning]⟩
  · rename_i snapshot lastSnapshot hpc
    cases hn
    exact .inr (.inr ⟨snapshot, lastSnapshot, hpc, rfl⟩)

/-- The keys of a copy are distinct. -/
def DistinctKeys (s : Statistics) : Prop :=
  ∀ snapshot lastSnapshot, s.pc = .computing snapshot lastSnapshot →
    snapshot.Pairwise fun a b => ¬compare a.1 b.1 = .eq

/-- The loop holds no copy. -/
lemma Inv.away {pc : LoopPc} (h : s.Inv) (hpc : ∀ snapshot lastSnapshot, pc ≠ .computing snapshot lastSnapshot) :
    Inv { s with pc := pc } :=
  ⟨h.last, fun _ snapshot lastSnapshot he => absurd he (hpc snapshot lastSnapshot),
    fun snapshot lastSnapshot he => absurd he (hpc snapshot lastSnapshot)⟩

lemma Inv.loop (h : s.Inv) (hdistinct : s.DistinctKeys) (hn : s.loop = some t) : t.Inv := by
  rcases loop_cases hn with ⟨pc, hpc, rfl⟩ | ⟨hrunning, rfl⟩ | ⟨snapshot, lastSnapshot, hpc, rfl⟩
  · exact h.away hpc
  · have hcopy : ∀ e ∈ s.counters.toList, s.counters.of e.1 = e.2 := by
      intro e he
      rw [CounterMap.of, TreeMap.mem_toList_iff_getElem?_eq_some.mp he]
      rfl
    refine ⟨h.last, fun _ snapshot lastSnapshot hpc e he => ?_, fun snapshot lastSnapshot hpc e he => ?_⟩
    · cases hpc
      rw [hcopy e he]
      exact .refl _
    · cases hpc
      rw [CounterMap.of]
      cases hlast : s.lastSnapshot[e.1]? with
      | none => exact fun k => by cases k <;> exact UInt64.le_iff_toNat_le.mpr (Nat.zero_le _)
      | some c =>
        rw [← hcopy e he]
        exact h.last hrunning e.1 c hlast
  · -- the copy becomes the last table
    refine ⟨fun hrunning id c hc => ?_, fun _ _ _ hpc => ?_, fun _ _ hpc => ?_⟩
    · exact h.copied hrunning snapshot lastSnapshot hpc (id, c) ((lookup_ofList (hdistinct _ _ hpc) id c).mp hc)
    · cases hpc
    · cases hpc

/-- What the calls other than `unregisterStream` do. -/
lemma next_cases {a : StatisticsAction} (hn : statisticsSystem.next s a = some t) :
    Grows s t ∨ (∃ id, a = .unregisterStream id ∧ t = s.unregisterStream id) ∨
      (∃ intervalMs, t = { s with intervalMs := intervalMs, lastSnapshot := ∅, running := true, pc := .testing }) ∨
      t = s.stop ∨ s.loop = some t := by
  cases a with
  | registerStream id =>
    cases hn
    exact .inl (grows_registerStream s id)
  | unregisterStream id =>
    cases hn
    exact .inr (.inl ⟨id, rfl, rfl⟩)
  | incRtspPullFrame id n | incMppDecodeFrame id n | incInferFrame id n | incPublishFrame id n =>
    simp only [statisticsSystem, Option.ite_none_right_eq_some] at hn
    obtain ⟨hfits, hn⟩ := hn
    cases hn
    exact .inl (grows_inc hfits)
  | setRemainPacketSize id size =>
    cases hn
    exact .inl (grows_setRemainPacketSize s id size)
  | setRemainFrameSize id size =>
    cases hn
    exact .inl (grows_setRemainFrameSize s id size)
  | start intervalMs =>
    simp only [statisticsSystem, start] at hn
    split at hn
    · cases hn
      exact .inr (.inr (.inl ⟨_, rfl⟩))
    · cases hn
  | stop =>
    cases hn
    exact .inr (.inr (.inr (.inl rfl)))
  | loop => exact .inr (.inr (.inr (.inr hn)))

lemma DistinctKeys.next (h : s.DistinctKeys) {a : StatisticsAction} (hn : statisticsSystem.next s a = some t) :
    t.DistinctKeys := by
  rcases next_cases hn with hg | ⟨id, -, rfl⟩ | ⟨intervalMs, rfl⟩ | rfl | hloop
  · exact fun snapshot lastSnapshot hpc => h snapshot lastSnapshot (hg.pc ▸ hpc)
  · have hpc : (s.unregisterStream id).pc = s.pc := by
      unfold Statistics.unregisterStream
      split <;> rfl
    exact fun snapshot lastSnapshot he => h snapshot lastSnapshot (hpc ▸ he)
  · exact fun _ _ hpc => by cases hpc
  · exact h
  · rcases loop_cases hloop with ⟨pc, hpc, rfl⟩ | ⟨-, rfl⟩ | ⟨snapshot, lastSnapshot, -, rfl⟩
    · exact fun snapshot lastSnapshot he => absurd he (hpc snapshot lastSnapshot)
    · intro snapshot lastSnapshot he
      cases he
      exact TreeMap.distinct_keys_toList
    · exact fun _ _ hpc => by cases hpc

lemma distinctKeys_reachable (h : statisticsSystem.Reachable s) : s.DistinctKeys :=
  h.invariant (fun _ _ hpc => by cases hpc) fun _ _ _ ht _ hn => ht.next hn

/-- A step that meets the condition keeps the invariant. -/
lemma Inv.next (h : s.Inv) (hdistinct : s.DistinctKeys) {a : StatisticsAction} (hkeeps : s.keepsCopied a = true)
    (hn : statisticsSystem.next s a = some t) : t.Inv := by
  rcases next_cases hn with hg | ⟨id, rfl, rfl⟩ | ⟨intervalMs, rfl⟩ | rfl | hloop
  · exact h.grows hg
  · exact h.unregisterStream hkeeps
  · refine ⟨fun _ id c hc => ?_, fun _ _ _ hpc => ?_, fun _ _ hpc => ?_⟩
    · simp at hc
    · cases hpc
    · cases hpc
  · refine ⟨fun hrunning => ?_, fun hrunning => ?_, h.below⟩
    · cases hrunning
    · cases hrunning
  · exact h.loop hdistinct hloop

lemma inv_reachableWhen (h : statisticsSystem.ReachableWhen (fun s a => s.keepsCopied a = true) s) : s.Inv := by
  refine h.invariant_of (fun t ht => distinctKeys_reachable (Machine.ReachableWhen.reachable ht)) ?_ ?_
  · refine ⟨fun hrunning => ?_, fun hrunning => ?_, fun _ _ hpc => ?_⟩
    · cases hrunning
    · cases hrunning
    · cases hpc
  · exact fun _ _ _ hdistinct ht hkeeps hn => ht.next hdistinct hkeeps hn

/-! ## A stream that comes back -/

/-- A stream is unregistered while the loop holds a copy of its counters, and is registered again before the next
round. -/
lemma wraps_of_unregister (hdistinct : s.DistinctKeys) {id : Bytes}
    (hbreaks : s.keepsCopied (.unregisterStream id) = false) :
    ∃ u, statisticsSystem.Runs (s.unregisterStream id) u ∧ ¬u.NoWrap := by
  simp only [keepsCopied] at hbreaks
  split at hbreaks
  · rename_i snapshot lastSnapshot hpc
    simp only [Bool.or_eq_false_iff, Bool.not_eq_false', List.any_eq_true, Bool.and_eq_true, beq_iff_eq] at hbreaks
    obtain ⟨⟨hrunning, hid⟩, ⟨k, c⟩, hmem, rfl, hcounted⟩ := hbreaks
    have hid : k ≠ [] := List.isEmpty_eq_false_iff.mp hid
    let counters := (s.counters.erase k).insert k {}
    let stored := { s with counters := s.counters.erase k, lastSnapshot := TreeMap.ofList snapshot, pc := .testing }
    let registered := { stored with counters := counters }
    let waiting := { registered with pc := .waiting }
    let copied := { registered with pc := .computing counters.toList (TreeMap.ofList snapshot) }
    have hstore : statisticsSystem.next (s.unregisterStream k) .loop = some stored := by
      simp [statisticsSystem, Statistics.unregisterStream, loop, hid, hpc, stored]
    have hregister : statisticsSystem.next stored (.registerStream k) = some registered := by
      simp [statisticsSystem, registerStream, ensureStreamLocked, hid, stored, registered, counters]
    have htest : statisticsSystem.next registered .loop = some waiting := by
      simp [statisticsSystem, loop, stored, registered, waiting, hrunning]
    have hmem' : (k, ({} : Counters)) ∈ counters.toList := by
      rw [TreeMap.mem_toList_iff_getElem?_eq_some, TreeMap.getElem?_insert_self]
    have hcopy : statisticsSystem.next waiting .loop = some copied := by
      have hne : counters.isEmpty = false := TreeMap.isEmpty_insert
      simp [statisticsSystem, loop, stored, registered, waiting, copied, hrunning, hne]
    refine ⟨copied, Machine.Runs.next (Machine.Runs.next (Machine.Runs.next (Machine.Runs.next .refl hstore)
      hregister) htest) hcopy, fun hwrap => ?_⟩
    have hlast : CounterMap.of (TreeMap.ofList snapshot) k = c := by
      rw [CounterMap.of, (lookup_ofList (hdistinct _ _ hpc) k c).mpr hmem]
      rfl
    have hle : c.Le {} := fun counter => hlast ▸ (hwrap _ _ rfl _ hmem' counter).1
    rw [Counters.le_zero_iff, hcounted] at hle
    cases hle
  · cases hbreaks

end Statistics

open Statistics in
/-- As long as no stream is unregistered while the loop holds a copy of its counts, no delta wraps. A step that
unregisters one can be followed by a round in which one does. -/
theorem noWrap_of_keepsCopied (s : Statistics) :
    (statisticsSystem.ReachableWhen (fun s a => s.keepsCopied a = true) s → s.NoWrap) ∧
    ∀ a t, statisticsSystem.Reachable s → statisticsSystem.next s a = some t → ¬s.keepsCopied a = true →
      ∃ u, statisticsSystem.Runs t u ∧ ¬u.NoWrap := by
  refine ⟨fun h => (inv_reachableWhen h).noWrap, fun a t h hn hbreaks => ?_⟩
  cases a with
  | unregisterStream id =>
    cases hn
    exact wraps_of_unregister (distinctKeys_reachable h) (Bool.eq_false_iff.mpr hbreaks)
  | _ => exact absurd rfl hbreaks

namespace Statistics

/-- The copies that the loop works on, if it does. -/
def copies (s : Statistics) : Option (List (Bytes × Counters) × CounterMap) :=
  match s.pc with
  | .computing snapshot lastSnapshot => some (snapshot, lastSnapshot)
  | _ => none

/-- The loop is started, and copies the counters after a frame of a stream has been inferred. -/
def firstRound : List StatisticsAction :=
  [.start 5000, .registerStream [0x53], .incInferFrame [0x53] 1, .loop, .loop]

end Statistics

/-- A stream is unregistered between two rounds and registered again: its deltas start from 0. -/
theorem noWrap_of_keepsCopied_betweenRounds :
    ∃ s, statisticsSystem.ReachableWhen (fun s a => s.keepsCopied a = true) s ∧
      s.copies.map (·.1) = some [([0x53], { inferFrames := 2 })] ∧ s.NoWrap := by
  obtain ⟨s, hs, hp⟩ := Machine.reachableWhen_of_exec_any statisticsSystem Statistics.keepsCopied
    (Statistics.firstRound ++ [.loop, .unregisterStream [0x53], .incInferFrame [0x53] 2, .loop, .loop])
    (fun s => decide (s.copies.map (·.1) = some [([0x53], { inferFrames := 2 })])) (by decide)
  exact ⟨s, hs, of_decide_eq_true hp, (noWrap_of_keepsCopied s).1 hs⟩

/-- A frame is counted, the loop copies the counters, and the stream is removed and added again while the loop
writes its log: the next delta is computed from the count of the removed stream. -/
theorem not_noWrap_after_restart : ¬∀ s, statisticsSystem.Reachable s → s.NoWrap := by
  intro h
  obtain ⟨s, hs, hp⟩ := Machine.reachable_of_exec_any statisticsSystem
    (Statistics.firstRound ++ [.unregisterStream [0x53], .loop, .registerStream [0x53], .loop, .loop])
    (fun s => s.copies.any fun (snapshot, lastSnapshot) =>
      decide (snapshot = [([0x53], {})]) && decide ((lastSnapshot.of [0x53]).inferFrames = 1)) (by decide)
  obtain ⟨⟨snapshot, lastSnapshot⟩, hcopies, hvalues⟩ := (Option.any_eq_true _ _).mp hp
  simp only [Bool.and_eq_true, decide_eq_true_eq] at hvalues
  obtain ⟨rfl, hlast⟩ := hvalues
  have hpc : s.pc = .computing [([0x53], {})] lastSnapshot := by
    unfold Statistics.copies at hcopies
    split at hcopies
    · cases hcopies
      assumption
    · cases hcopies
  have hle := (h s hs _ _ hpc _ (List.mem_singleton.mpr rfl) .inferFrames).1
  simp only [Counters.get, hlast] at hle
  exact absurd hle (by decide)

end MediaAgent
