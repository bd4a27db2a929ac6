import MediaAgent.Recorder

/-!
# The deadline of a recording

Runs of one configured recorder, with the clock and every answer of libav in the labels. A request raises the
deadline before it is known whether a file can be opened; when none can be, the deadline stays for the next one.
-/

namespace MediaAgent
open Transition

/-- A recorder with the reading of the steady clock, and the deadlines of the requests that have returned true since
the open file was opened. -/
structure TimedRecorder where
  recorder : Recorder
  nowMs : Int := 0
  accepted : List Int := []

/-- The calls. `start` answers the opening of a file, and the list the writes of the cached packets. -/
inductive TimedCall
  | requestRecording (durationS nowMs : Int) (start : Option (Nat → Int × Int)) (writes : List WriteAnswer)
  | appendPacket (packet : AVPacket) (nowMs : Int) (cached : Bool) (write : WriteAnswer)
  | close

/-- The deadline that a request asks for. -/
def requestedDeadlineMs (durationS nowMs : Int) : Int := nowMs + max durationS kDefaultRecordDurationS * 1000

def Recorder.files (r : Recorder) : List Recording := r.recordings ++ r.fmtCtx.toList

/-- The state after a call: deadlines count from the call that opens the file until it is closed. -/
def TimedRecorder.after (s : TimedRecorder) (recorder : Recorder) (nowMs : Int) (deadlines : List Int) :
    TimedRecorder where
  recorder := recorder
  nowMs := nowMs
  accepted :=
    if recorder.fmtCtx.isNone then []
    else if s.recorder.fmtCtx.isSome then s.accepted ++ deadlines
    else deadlines

def timedSystem (rescale : Int → Int × Int → Int × Int → Int) (streamId baseDir : Bytes)
    (specs : List RtspStreamSpec) : Machine TimedRecorder TimedCall where
  init := { recorder := (({} : Recorder).configure streamId baseDir specs).2 }
  next s
    | .requestRecording durationS nowMs start writes =>
      if s.nowMs ≤ nowMs then
        let (accepted, recorder) := s.recorder.requestRecording rescale durationS nowMs start writes
        let deadlines := if accepted then [requestedDeadlineMs durationS nowMs] else []
        some (s.after recorder nowMs deadlines)
      else none
    | .appendPacket packet nowMs cached write =>
      if s.nowMs ≤ nowMs then
        let (_, recorder) := s.recorder.appendPacket rescale packet nowMs cached write
        some (s.after recorder nowMs [])
      else none
    | .close => some (s.after s.recorder.close s.nowMs [])

namespace Recorder

variable (rescale : Int → Int × Int → Int × Int → Int) {r : Recorder}

/-- The cached packets can all be written: each has a track, and is cloned and taken by the muxer. -/
def cacheWritten (specs : List RtspStreamSpec) : List AVPacket → List WriteAnswer → Bool
  | [], _ => true
  | packet :: packets, answers =>
    specs.any (·.inputStreamIndex == packet.streamIndex) && (answers.headD {}).cloned &&
      (answers.headD {}).written && cacheWritten specs packets answers.tail

/-- A write keeps what does not belong to the packets of the open file. -/
structure Writes (r r' : Recorder) : Prop where
  fmtCtx : r'.fmtCtx.isSome = r.fmtCtx.isSome
  streamStates : r'.streamStates = r.streamStates
  deadlineMs : r'.deadlineMs = r.deadlineMs
  recordings : r'.recordings = r.recordings

lemma Writes.trans {r r' r'' : Recorder} (h : Writes r r') (h' : Writes r' r'') : Writes r r'' where
  fmtCtx := h'.fmtCtx.trans h.fmtCtx
  streamStates := h'.streamStates.trans h.streamStates
  deadlineMs := h'.deadlineMs.trans h.deadlineMs
  recordings := h'.recordings.trans h.recordings

lemma writePacketInternal_writes (packet : AVPacket) (answer : WriteAnswer) :
    Writes r (r.writePacketInternal rescale packet answer).2 := by
  unfold writePacketInternal
  cases hopen : r.fmtCtx with
  | none => exact ⟨rfl, rfl, rfl, rfl⟩
  | some file =>
    dsimp only
    cases r.streamStates.find? (·.spec.inputStreamIndex == packet.streamIndex) with
    | none => exact ⟨rfl, rfl, rfl, rfl⟩
    | some state =>
      dsimp only
      by_cases hcloned : (!answer.cloned) = true
      · rw [if_pos hcloned]
        exact ⟨rfl, rfl, rfl, rfl⟩
      · rw [if_neg hcloned]
        by_cases hwritten : (!answer.written) = true
        · rw [if_pos hwritten]
          exact ⟨by rw [hopen], rfl, rfl, rfl⟩
        · rw [if_neg hwritten]
          exact ⟨by rw [hopen]; rfl, rfl, rfl, rfl⟩

lemma writePacketInternal_fst {file : Recording} (hopen : r.fmtCtx = some file) (packet : AVPacket)
    (answer : WriteAnswer) : (r.writePacketInternal rescale packet answer).1 =
      ((r.streamStates.map (·.spec)).any (·.inputStreamIndex == packet.streamIndex) && answer.cloned &&
        answer.written) := by
  have hany : (r.streamStates.map (·.spec)).any (·.inputStreamIndex == packet.streamIndex) =
      (r.streamStates.find? (·.spec.inputStreamIndex == packet.streamIndex)).isSome := by
    rw [Bool.eq_iff_iff, List.any_eq_true, List.find?_isSome]
    simp
  unfold writePacketInternal
  rw [hany, hopen]
  dsimp only
  cases r.streamStates.find? (·.spec.inputStreamIndex == packet.streamIndex) with
  | none => rfl
  | some state =>
    cases hcloned : answer.cloned with
    | false => rfl
    | true =>
      cases hwritten : answer.written with
      | false => rfl
      | true => rfl

lemma flushCachedGop_writes (packets : List AVPacket) (answers : List WriteAnswer) :
    Writes r (flushCachedGop rescale r packets answers).2 := by
  induction packets generalizing r answers with
  | nil => exact ⟨rfl, rfl, rfl, rfl⟩
  | cons packet packets ih =>
    have hwrites := writePacketInternal_writes rescale (r := r) packet (answers.headD {})
    unfold flushCachedGop
    dsimp only
    by_cases hok : (r.writePacketInternal rescale packet (answers.headD {})).1 = true
    · rw [if_pos hok]
      exact hwrites.trans (ih answers.tail)
    · rw [if_neg hok]
      exact hwrites

/-- The cache is flushed exactly if each of its packets can be written. -/
lemma flushCachedGop_fst (hopen : r.fmtCtx.isSome = true) (packets : List AVPacket) (answers : List WriteAnswer) :
    (flushCachedGop rescale r packets answers).1 =
      cacheWritten (r.streamStates.map (·.spec)) packets answers := by
  induction packets generalizing r answers with
  | nil => rfl
  | cons packet packets ih =>
    obtain ⟨file, hfile⟩ := Option.isSome_iff_exists.mp hopen
    have hwrites := writePacketInternal_writes rescale (r := r) packet (answers.headD {})
    unfold flushCachedGop cacheWritten
    dsimp only
    rw [← writePacketInternal_fst rescale hfile]
    by_cases hok : (r.writePacketInternal rescale packet (answers.headD {})).1 = true
    · rw [if_pos hok, hok, Bool.true_and, ih (hwrites.fmtCtx.trans hopen), hwrites.streamStates]
    · rw [if_neg hok, Bool.eq_false_iff.mpr hok, Bool.false_and]

@[simp] lemma close_fmtCtx : r.close.fmtCtx = none := by
  unfold close
  cases r.fmtCtx <;> rfl

lemma close_files : r.close.files = r.files := by
  unfold close files
  cases r.fmtCtx <;> simp

/-- A request opens a file: none is open, one can be opened, and the cached packets are written to it. -/
def opens (r : Recorder) (start : Option (Nat → Int × Int)) (writes : List WriteAnswer) : Bool :=
  r.isConfigured && r.fmtCtx.isNone && start.isSome && cacheWritten r.streamSpecs r.gopCache writes

lemma requestRecording_open (hopen : r.fmtCtx.isSome = true) (durationS nowMs : Int)
    (start : Option (Nat → Int × Int)) (writes : List WriteAnswer) :
    r.requestRecording rescale durationS nowMs start writes =
      if r.isConfigured then (true, { r with deadlineMs := max r.deadlineMs (requestedDeadlineMs durationS nowMs) })
      else (false, r) := by
  unfold requestRecording
  cases hconfigured : r.isConfigured with
  | false => rfl
  | true =>
    dsimp only
    rw [if_neg (by decide), if_pos hopen, if_pos rfl]
    rfl

/-- A new file stays open exactly if the cached packets are written to it. -/
lemma start_closed (hclosed : r.fmtCtx = none) (hconfigured : r.isConfigured = true) (timeBases : Nat → Int × Int)
    (writes : List WriteAnswer) :
    (r.start rescale (some timeBases) writes).1 = cacheWritten r.streamSpecs r.gopCache writes ∧
      (r.start rescale (some timeBases) writes).2.fmtCtx.isSome = cacheWritten r.streamSpecs r.gopCache writes ∧
      (cacheWritten r.streamSpecs r.gopCache writes = true →
        (r.start rescale (some timeBases) writes).2.deadlineMs = r.deadlineMs) := by
  have hfst := flushCachedGop_fst rescale (r := (r.openRecording (some timeBases)).2) rfl r.gopCache writes
  have hsnd := flushCachedGop_writes rescale (r := (r.openRecording (some timeBases)).2) r.gopCache writes
  have hspecs : (r.openRecording (some timeBases)).2.streamStates.map (·.spec) = r.streamSpecs :=
    buildOutputStreamMap_spec r.streamSpecs timeBases
  rw [hspecs] at hfst
  have hstart : r.start rescale (some timeBases) writes =
      if cacheWritten r.streamSpecs r.gopCache writes then
        (true, (flushCachedGop rescale (r.openRecording (some timeBases)).2 r.gopCache writes).2)
      else (false, (flushCachedGop rescale (r.openRecording (some timeBases)).2 r.gopCache writes).2.close) := by
    rw [start, if_neg (by simp [hclosed]), if_neg (by simp [hconfigured]), ← hfst]
    change (if !(flushCachedGop rescale (r.openRecording (some timeBases)).2 r.gopCache writes).1 then _ else _) = _
    cases (flushCachedGop rescale (r.openRecording (some timeBases)).2 r.gopCache writes).1 <;> rfl
  rw [hstart]
  cases cacheWritten r.streamSpecs r.gopCache writes with
  | false => simp
  | true => exact ⟨rfl, hsnd.fmtCtx, fun _ => hsnd.deadlineMs⟩

/-- A request that finds no open file leaves one open exactly if it opens one. -/
lemma requestRecording_closed (hclosed : r.fmtCtx = none) (durationS nowMs : Int)
    (start : Option (Nat → Int × Int)) (writes : List WriteAnswer) :
    (r.requestRecording rescale durationS nowMs start writes).1 = r.opens start writes ∧
      (r.requestRecording rescale durationS nowMs start writes).2.fmtCtx.isSome = r.opens start writes ∧
      (r.opens start writes = true → (r.requestRecording rescale durationS nowMs start writes).2.deadlineMs =
        max r.deadlineMs (requestedDeadlineMs durationS nowMs)) := by
  cases hconfigured : r.isConfigured with
  | false => simp [requestRecording, opens, hconfigured, hclosed]
  | true =>
    have hrequest : r.requestRecording rescale durationS nowMs start writes =
        Recorder.start rescale { r with deadlineMs := max r.deadlineMs (requestedDeadlineMs durationS nowMs) } start
          writes := by
      rw [requestRecording, if_neg (by simp [hconfigured])]
      exact if_neg (by simp [hclosed])
    have hopens : r.opens start writes = (start.isSome && cacheWritten r.streamSpecs r.gopCache writes) := by
      rw [opens, hconfigured, hclosed]
      rfl
    rw [hrequest, hopens]
    cases start with
    | none => simp [Recorder.start, openRecording, hclosed]
    | some timeBases =>
      exact start_closed rescale (r := { r with deadlineMs := max r.deadlineMs (requestedDeadlineMs durationS nowMs) })
        hclosed hconfigured timeBases writes

lemma closeExpired_cases (nowMs : Int) :
    r.closeExpired nowMs = r ∨ r.closeExpired nowMs = r.close ∧ 0 < r.deadlineMs ∧ r.deadlineMs ≤ nowMs := by
  unfold closeExpired
  by_cases hexpired : r.fmtCtx.isSome ∧ 0 < r.deadlineMs ∧ r.deadlineMs ≤ nowMs
  · rw [if_pos hexpired]
    exact .inr ⟨rfl, hexpired.2⟩
  · rw [if_neg hexpired]
    exact .inl rfl

lemma cachePacket_writes (packet : AVPacket) (cloned : Bool) : Writes r (r.cachePacket packet cloned) := by
  unfold cachePacket
  dsimp only
  generalize (if isKeyframe r.streamSpecs packet then [] else r.gopCache) = cache
  by_cases hskipped : (cache.isEmpty && !isKeyframe r.streamSpecs packet) = true
  · rw [if_pos hskipped]
    exact ⟨rfl, rfl, rfl, rfl⟩
  · rw [if_neg hskipped]
    cases cloned <;> exact ⟨rfl, rfl, rfl, rfl⟩

/-- What `appendPacket` does with a packet that has data; `r` is the recorder after `closeExpired`. -/
lemma appendPacket_eq {packet : AVPacket} (hdata : packet.data ≠ []) (nowMs : Int) (cached : Bool)
    (write : WriteAnswer) : ∃ r', Writes (r.closeExpired nowMs) r' ∧
      (r.appendPacket rescale packet nowMs cached write).2 =
        if r'.fmtCtx.isNone then r'
        else if (r'.writePacketInternal rescale packet write).1 then (r'.writePacketInternal rescale packet write).2
        else (r'.writePacketInternal rescale packet write).2.close := by
  refine ⟨(r.closeExpired nowMs).cachePacket packet cached, cachePacket_writes packet cached, ?_⟩
  rw [appendPacket, if_neg hdata]
  dsimp only
  cases ((r.closeExpired nowMs).cachePacket packet cached).fmtCtx with
  | none => rfl
  | some file =>
    cases (((r.closeExpired nowMs).cachePacket packet cached).writePacketInternal rescale packet write).1 <;> rfl

/-- After an appended packet no file is open, or the same one with the same deadline. -/
lemma appendPacket_cases (packet : AVPacket) (nowMs : Int) (cached : Bool) (write : WriteAnswer) :
    (r.appendPacket rescale packet nowMs cached write).2.fmtCtx = none ∨
      Writes r (r.appendPacket rescale packet nowMs cached write).2 := by
  by_cases hdata : packet.data = []
  · rw [appendPacket, if_pos hdata]
    exact .inr ⟨rfl, rfl, rfl, rfl⟩
  · obtain ⟨r', hcached, happend⟩ := appendPacket_eq rescale (r := r) hdata nowMs cached write
    rw [happend]
    rcases closeExpired_cases (r := r) nowMs with hsame | ⟨hclose, -⟩
    · rw [hsame] at hcached
      by_cases hclosed : r'.fmtCtx.isNone = true
      · rw [if_pos hclosed]
        exact .inr hcached
      · rw [if_neg hclosed]
        by_cases hwritten : (r'.writePacketInternal rescale packet write).1 = true
        · rw [if_pos hwritten]
          exact .inr (hcached.trans (writePacketInternal_writes rescale packet write))
        · rw [if_neg hwritten]
          exact .inl close_fmtCtx
    · rw [hclose] at hcached
      have hnone : r'.fmtCtx.isSome = false := by rw [hcached.fmtCtx, close_fmtCtx, Option.isSome_none]
      rw [if_pos (by simpa using hnone)]
      exact .inl (by simpa using hnone)

/-- A packet that comes at the deadline or later is written to no file. -/
lemma appendPacket_late (hopen : r.fmtCtx.isSome = true) (hdeadline : 0 < r.deadlineMs) {nowMs : Int}
    (hlate : r.deadlineMs ≤ nowMs) (packet : AVPacket) (cached : Bool) (write : WriteAnswer) :
    (r.appendPacket rescale packet nowMs cached write).2.files = r.files := by
  have hexpired : r.closeExpired nowMs = r.close := by
    rw [closeExpired, if_pos ⟨hopen, hdeadline, hlate⟩]
  by_cases hdata : packet.data = []
  · rw [appendPacket, if_pos hdata]
  · obtain ⟨r', hcached, happend⟩ := appendPacket_eq rescale (r := r) hdata nowMs cached write
    rw [hexpired] at hcached
    have hnone : r'.fmtCtx = none := by simpa using hcached.fmtCtx
    rw [happend, if_pos (by rw [hnone]; rfl), files, hcached.recordings, hnone, ← close_files, files, close_fmtCtx]

end Recorder

namespace TimedRecorder

/-- The deadline of an open file is the latest of the accepted ones. The file is not closed as expired before each of
them has passed, and no packet is written once they have. -/
structure KeepsDeadline (rescale : Int → Int × Int → Int × Int → Int) (s : TimedRecorder) : Prop where
  latest : s.recorder.fmtCtx.isSome = true →
    s.recorder.deadlineMs ∈ s.accepted ∧ ∀ d ∈ s.accepted, d ≤ s.recorder.deadlineMs
  expiry : ∀ nowMs, s.recorder.fmtCtx.isSome = true → (s.recorder.closeExpired nowMs).fmtCtx = none →
    ∀ d ∈ s.accepted, d ≤ nowMs
  late : ∀ packet nowMs cached write, s.recorder.fmtCtx.isSome = true → (∀ d ∈ s.accepted, d ≤ nowMs) →
    (s.recorder.appendPacket rescale packet nowMs cached write).2.files = s.recorder.files

/-- A request that opens a file asks for no earlier deadline than refused requests have left behind. -/
def opensFresh (s : TimedRecorder) : TimedCall → Bool
  | .requestRecording durationS nowMs start writes =>
    !s.recorder.opens start writes || decide (s.recorder.deadlineMs ≤ requestedDeadlineMs durationS nowMs)
  | _ => true

structure DeadlineInv (s : TimedRecorder) : Prop where
  nowMs : 0 ≤ s.nowMs
  positive : ∀ d ∈ s.accepted, 0 < d
  latest : s.recorder.fmtCtx.isSome = true →
    s.recorder.deadlineMs ∈ s.accepted ∧ ∀ d ∈ s.accepted, d ≤ s.recorder.deadlineMs

variable {rescale : Int → Int × Int → Int × Int → Int} {streamId baseDir : Bytes} {specs : List RtspStreamSpec}
  {s t : TimedRecorder}

lemma DeadlineInv.keepsDeadline (h : DeadlineInv s) : KeepsDeadline rescale s where
  latest := h.latest
  expiry := by
    intro nowMs hopen hclosed d hd
    rcases Recorder.closeExpired_cases (r := s.recorder) nowMs with hsame | ⟨-, -, hexpired⟩
    · rw [hsame] at hclosed
      rw [hclosed] at hopen
      exact absurd hopen Bool.false_ne_true
    · exact le_trans ((h.latest hopen).2 d hd) hexpired
  late := by
    intro packet nowMs cached write hopen hlate
    obtain ⟨hmem, -⟩ := h.latest hopen
    exact Recorder.appendPacket_late rescale hopen (h.positive _ hmem) (hlate _ hmem) packet cached write

lemma requestedDeadlineMs_pos {durationS nowMs : Int} (h : 0 ≤ nowMs) : 0 < requestedDeadlineMs durationS nowMs := by
  unfold requestedDeadlineMs kDefaultRecordDurationS
  omega

lemma after_closed {recorder : Recorder} (h : recorder.fmtCtx = none) (nowMs : Int) (deadlines : List Int) :
    s.after recorder nowMs deadlines = ⟨recorder, nowMs, []⟩ := by
  rw [TimedRecorder.after, if_pos (by rw [h]; rfl)]

lemma after_open {recorder : Recorder} (h : recorder.fmtCtx.isSome = true) (hs : s.recorder.fmtCtx.isSome = true)
    (nowMs : Int) (deadlines : List Int) :
    s.after recorder nowMs deadlines = ⟨recorder, nowMs, s.accepted ++ deadlines⟩ := by
  rw [TimedRecorder.after, if_neg (by simpa using Option.isSome_iff_ne_none.mp h), if_pos hs]

lemma after_opened {recorder : Recorder} (h : recorder.fmtCtx.isSome = true) (hs : s.recorder.fmtCtx = none)
    (nowMs : Int) (deadlines : List Int) : s.after recorder nowMs deadlines = ⟨recorder, nowMs, deadlines⟩ := by
  rw [TimedRecorder.after, if_neg (by simpa using Option.isSome_iff_ne_none.mp h), if_neg (by simp [hs])]

lemma DeadlineInv.closed {recorder : Recorder} {nowMs : Int} (hnow : 0 ≤ nowMs) (h : recorder.fmtCtx = none) :
    DeadlineInv ⟨recorder, nowMs, []⟩ where
  nowMs := hnow
  positive := by simp
  latest := by simp [h]

/-- A call that closes the file, or leaves its deadline as it is, keeps the invariant. -/
lemma DeadlineInv.after (h : DeadlineInv s) {recorder : Recorder} {nowMs : Int} (hnow : s.nowMs ≤ nowMs)
    (hcases : recorder.fmtCtx = none ∨ Recorder.Writes s.recorder recorder) :
    DeadlineInv (s.after recorder nowMs []) := by
  have htime : 0 ≤ nowMs := le_trans h.nowMs hnow
  by_cases hclosed : recorder.fmtCtx = none
  · rw [after_closed hclosed]
    exact .closed htime hclosed
  · have hwrites := hcases.resolve_left hclosed
    have hopen : recorder.fmtCtx.isSome = true := Option.isSome_iff_ne_none.mpr hclosed
    have hbefore : s.recorder.fmtCtx.isSome = true := hwrites.fmtCtx.symm.trans hopen
    rw [after_open hopen hbefore, List.append_nil]
    refine ⟨htime, h.positive, fun _ => ?_⟩
    rw [hwrites.deadlineMs]
    exact h.latest hbefore

/-- A request that is accepted while the file is open extends it. -/
lemma DeadlineInv.extend (h : DeadlineInv s) (hopen : s.recorder.fmtCtx.isSome = true) {deadlineMs nowMs : Int}
    (hnow : s.nowMs ≤ nowMs) (hpositive : 0 < deadlineMs) :
    DeadlineInv (s.after { s.recorder with deadlineMs := max s.recorder.deadlineMs deadlineMs } nowMs [deadlineMs]) := by
  obtain ⟨hmem, hle⟩ := h.latest hopen
  have hstill : { s.recorder with deadlineMs := max s.recorder.deadlineMs deadlineMs }.fmtCtx.isSome = true := hopen
  rw [after_open hstill hopen]
  refine ⟨le_trans h.nowMs hnow, ?_, fun _ => ⟨?_, ?_⟩⟩
  · intro d hd
    rcases List.mem_append.mp hd with hd | hd
    · exact h.positive d hd
    · rw [List.mem_singleton.mp hd]
      exact hpositive
  · rcases max_choice s.recorder.deadlineMs deadlineMs with hmax | hmax
    · rw [hmax]
      exact List.mem_append_left _ hmem
    · rw [hmax]
      exact List.mem_append_right _ (List.mem_singleton.mpr rfl)
  · intro d hd
    rcases List.mem_append.mp hd with hd | hd
    · exact le_trans (hle d hd) (le_max_left _ _)
    · rw [List.mem_singleton.mp hd]
      exact le_max_right _ _

/-- The state after a request that opens a file. -/
lemma request_opens {start : Option (Nat → Int × Int)} {writes : List WriteAnswer}
    (hopens : s.recorder.opens start writes = true) {durationS nowMs : Int}
    (hnext : (timedSystem rescale streamId baseDir specs).next s (.requestRecording durationS nowMs start writes) =
      some t) :
    s.nowMs ≤ nowMs ∧ t.recorder.fmtCtx.isSome = true ∧ t.nowMs = nowMs ∧
      t.accepted = [requestedDeadlineMs durationS nowMs] ∧
      t.recorder.deadlineMs = max s.recorder.deadlineMs (requestedDeadlineMs durationS nowMs) := by
  have hclosed : s.recorder.fmtCtx = none := by
    simp only [Recorder.opens, Bool.and_eq_true, Option.isNone_iff_eq_none] at hopens
    exact hopens.1.1.2
  obtain ⟨haccepted, hopen, hdeadline⟩ :=
    Recorder.requestRecording_closed rescale hclosed durationS nowMs start writes
  rw [hopens] at haccepted hopen
  by_cases hnow : s.nowMs ≤ nowMs
  · simp only [timedSystem, if_pos hnow, haccepted, if_true] at hnext
    rw [after_opened hopen hclosed] at hnext
    obtain rfl := Option.some.inj hnext
    exact ⟨hnow, hopen, rfl, rfl, hdeadline hopens⟩
  · simp only [timedSystem, if_neg hnow] at hnext
    cases hnext

/-- A request that opens no file extends the open one, or leaves none open. -/
lemma DeadlineInv.request (h : DeadlineInv s) {start : Option (Nat → Int × Int)} {writes : List WriteAnswer}
    (hopens : s.recorder.opens start writes = false) {durationS nowMs : Int} (hnow : s.nowMs ≤ nowMs)
    {result : Bool × Recorder}
    (hresult : s.recorder.requestRecording rescale durationS nowMs start writes = result) :
    DeadlineInv (s.after result.2 nowMs (if result.1 then [requestedDeadlineMs durationS nowMs] else [])) := by
  by_cases hclosed : s.recorder.fmtCtx = none
  · obtain ⟨haccepted, hopen, -⟩ :=
      Recorder.requestRecording_closed rescale hclosed durationS nowMs start writes
    rw [hopens, hresult] at haccepted hopen
    rw [if_neg (by rw [haccepted]; decide)]
    exact h.after hnow (.inl (by simpa using hopen))
  · have hopen : s.recorder.fmtCtx.isSome = true := Option.isSome_iff_ne_none.mpr hclosed
    have hrequest := Recorder.requestRecording_open rescale hopen durationS nowMs start writes
    by_cases hconfigured : s.recorder.isConfigured = true
    · rw [if_pos hconfigured] at hrequest
      obtain rfl := hrequest.symm.trans hresult
      exact h.extend hopen hnow (requestedDeadlineMs_pos (le_trans h.nowMs hnow))
    · rw [if_neg hconfigured] at hrequest
      obtain rfl := hrequest.symm.trans hresult
      exact h.after hnow (.inr ⟨rfl, rfl, rfl, rfl⟩)

lemma DeadlineInv.next (h : DeadlineInv s) {call : TimedCall} (hfresh : s.opensFresh call = true)
    (hnext : (timedSystem rescale streamId baseDir specs).next s call = some t) : DeadlineInv t := by
  cases call with
  | requestRecording durationS nowMs start writes =>
    by_cases hopens : s.recorder.opens start writes = true
    · obtain ⟨hnow, -, htime, haccepted, hdeadline⟩ := request_opens hopens hnext
      have hmax : t.recorder.deadlineMs = requestedDeadlineMs durationS nowMs := by
        rw [hdeadline]
        simp only [opensFresh, hopens, Bool.not_true, Bool.false_or, decide_eq_true_eq] at hfresh
        exact max_eq_right hfresh
      refine ⟨?_, ?_, fun _ => ?_⟩
      · rw [htime]
        exact le_trans h.nowMs hnow
      · rw [haccepted, List.forall_mem_singleton]
        exact requestedDeadlineMs_pos (le_trans h.nowMs hnow)
      · rw [haccepted, hmax, List.forall_mem_singleton]
        exact ⟨List.mem_singleton.mpr rfl, le_rfl⟩
    · simp only [timedSystem, Option.ite_none_right_eq_some] at hnext
      obtain ⟨hnow, hafter⟩ := hnext
      obtain rfl := Option.some.inj hafter
      exact h.request (Bool.eq_false_iff.mpr hopens) hnow rfl
  | appendPacket packet nowMs cached write =>
    simp only [timedSystem, Option.ite_none_right_eq_some] at hnext
    obtain ⟨hnow, hafter⟩ := hnext
    obtain rfl := Option.some.inj hafter
    exact h.after hnow (Recorder.appendPacket_cases rescale packet nowMs cached write)
  | close =>
    obtain rfl := Option.some.inj hnext
    exact h.after le_rfl (.inl Recorder.close_fmtCtx)

lemma deadlineInv_init : DeadlineInv (timedSystem rescale streamId baseDir specs).init := by
  refine .closed le_rfl ?_
  unfold Recorder.configure
  split
  · rfl
  · split
    · rfl
    · dsimp only
      split <;> rfl

/-- Steps that inherit no later deadline keep the deadline of the open file to the requests it has accepted; a step
that inherits one breaks it at once. -/
theorem keepsDeadline_of_opensFresh
    (h : (timedSystem rescale streamId baseDir specs).ReachableWhen (fun s call => s.opensFresh call = true) s) :
    KeepsDeadline rescale s ∧
      ∀ call t, (timedSystem rescale streamId baseDir specs).next s call = some t →
        (KeepsDeadline rescale t ↔ s.opensFresh call = true) := by
  have hinv : DeadlineInv s := h.invariant deadlineInv_init fun _ _ _ hs hfresh hnext => hs.next hfresh hnext
  refine ⟨hinv.keepsDeadline, fun call t hnext => ⟨fun hkeeps => ?_, fun hfresh => ?_⟩⟩
  · by_contra hfresh
    cases call with
    | requestRecording durationS nowMs start writes =>
      simp only [opensFresh, Bool.or_eq_true, Bool.not_eq_true', decide_eq_true_eq, not_or, Bool.not_eq_false,
        not_le] at hfresh
      obtain ⟨hopens, hlt⟩ := hfresh
      obtain ⟨-, hopen, -, haccepted, hdeadline⟩ := request_opens hopens hnext
      have hmem := (hkeeps.latest hopen).1
      rw [haccepted, hdeadline, max_eq_left hlt.le, List.mem_singleton] at hmem
      exact absurd hmem (ne_of_gt hlt)
    | appendPacket packet nowMs cached write => exact hfresh rfl
    | close => exact hfresh rfl
  · exact (hinv.next hfresh hnext).keepsDeadline

/-- One recorder of a video track; its timestamps are not rescaled. -/
abbrev oneCamera : Machine TimedRecorder TimedCall :=
  timedSystem (fun ts _ _ => ts) [0x63] [0x64] [{ inputStreamIndex := 0 }]

/-- A request of the duration that is answered by `start`. -/
def request (durationS nowMs : Int) (start : Option (Nat → Int × Int)) : TimedCall :=
  .requestRecording durationS nowMs start []

theorem keepsDeadline_extended : ∃ s, KeepsDeadline (fun ts _ _ => ts) s ∧ s.accepted = [20000, 15000] ∧
    s.recorder.fmtCtx.isSome = true ∧ s.recorder.deadlineMs = 20000 := by
  obtain ⟨s, hs, hp⟩ := oneCamera.reachableWhen_of_exec_any opensFresh
    [request 20 0 (some fun _ => (1, 90000)), request 10 5000 none]
    (fun s => decide (s.accepted = [20000, 15000] ∧ s.recorder.fmtCtx.isSome = true ∧ s.recorder.deadlineMs = 20000))
    (by decide)
  exact ⟨s, (keepsDeadline_of_opensFresh hs).1, of_decide_eq_true hp⟩

theorem not_keepsDeadline_after_refusal : ¬∀ rescale streamId baseDir specs s,
    (timedSystem rescale streamId baseDir specs).Reachable s → KeepsDeadline rescale s := by
  intro h
  obtain ⟨s, hs, hp⟩ := oneCamera.reachable_of_exec_any
    [request 100 0 none, request 10 1000 (some fun _ => (1, 90000))]
    (fun s => decide (s.accepted = [11000] ∧ s.recorder.fmtCtx.isSome = true ∧ s.recorder.deadlineMs = 100000))
    (by decide)
  obtain ⟨haccepted, hopen, hdeadline⟩ := of_decide_eq_true hp
  have hmem := ((h _ _ _ _ s hs).latest hopen).1
  rw [haccepted, hdeadline] at hmem
  exact absurd hmem (by decide)

end TimedRecorder

end MediaAgent
