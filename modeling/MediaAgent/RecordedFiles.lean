import MediaAgent.Recorder

/-!
# What the recorded files hold

Runs of one recorder whose parameters do not change and whose writes succeed. The files are clips of the appended
packets: a file begins with the cached packets and goes on with those that are appended while it is open. A file
opened before the first keyframe has nothing to begin with, and takes whatever comes next.
-/

namespace MediaAgent
open Transition KeyGroups

/-- A recorder, and the packets that it has accepted. -/
structure RecorderState where
  recorder : Recorder := {}
  appended : List AVPacket := []

inductive RecorderCall
  | configure
  | appendPacket (packet : AVPacket) (nowMs : Int)
  | requestRecording (durationS nowMs : Int) (timeBases : Option (Nat → Int × Int))

/-- The calls on a recorder that is always configured with the same parameters. A packet that is appended belongs
to a configured track. -/
def recorderSystem (rescale : Int → Int × Int → Int × Int → Int) (streamId baseDir : Bytes)
    (specs : List RtspStreamSpec) : Machine RecorderState RecorderCall where
  init := {}
  next s
    | .configure => some { s with recorder := (s.recorder.configure streamId baseDir specs).2 }
    | .appendPacket packet nowMs =>
      if s.recorder.streamSpecs.any (·.inputStreamIndex == packet.streamIndex) then
        let (accepted, recorder) := s.recorder.appendPacket rescale packet nowMs true {}
        some ⟨recorder, if accepted then s.appended ++ [packet] else s.appended⟩
      else none
    | .requestRecording durationS nowMs timeBases =>
      some { s with recorder := (s.recorder.requestRecording rescale durationS nowMs timeBases []).2 }

namespace RecorderState

/-- The finished files and the open one. -/
def files (s : RecorderState) : List Recording := s.recorder.recordings ++ s.recorder.fmtCtx.toList

abbrev IsVideo (s : RecorderState) : AVPacket → Bool := Recorder.isVideoPacket s.recorder.streamSpecs

abbrev IsKey (s : RecorderState) : AVPacket → Bool := Recorder.isKeyframe s.recorder.streamSpecs

/-- Every file holds a block of the appended packets, in order and without a gap, and its first video packet is a
keyframe. -/
structure WellRecorded (s : RecorderState) : Prop where
  contiguous : ∀ file ∈ s.files, file.sources <:+: s.appended
  kept : ∀ file ∈ s.files, ∀ w ∈ file, w.Kept
  keyframe : ∀ file ∈ s.files, ∀ w, file.find? (fun w => s.IsVideo w.source) = some w → w.muxed.flagKey = true

/-- The call does not append a video packet other than a keyframe to an open file while no keyframe is cached. -/
def startsWithKeyframe (s : RecorderState) : RecorderCall → Bool
  | .appendPacket packet nowMs =>
    packet.data.isEmpty || !s.IsVideo packet || packet.flagKey || (s.recorder.closeExpired nowMs).fmtCtx.isNone ||
      !s.recorder.gopCache.isEmpty
  | _ => true

/-- The files as clips of the appended packets. -/
def clips (s : RecorderState) : Clips AVPacket where
  seen := s.appended
  current := s.recorder.fmtCtx.map Recording.sources
  finished := s.recorder.recordings.map Recording.sources

lemma clips_all (s : RecorderState) : s.clips.all = s.files.map Recording.sources := by
  unfold Clips.all files clips
  cases s.recorder.fmtCtx <;> simp

end RecorderState

/-- A recorder that has been configured: the cache is the last group of pictures. -/
structure RecorderInv (streamId baseDir : Bytes) (specs : List RtspStreamSpec) (s : RecorderState) : Prop where
  streamId : s.recorder.streamId = streamId
  baseDir : s.recorder.baseDir = baseDir
  specs : s.recorder.streamSpecs = Recorder.normalizedSpecs specs
  cache : s.recorder.gopCache = lastGroup s.IsKey s.appended
  tracked : ∀ packet ∈ s.appended, HasTrack s.recorder.streamSpecs packet
  tracks : s.recorder.fmtCtx.isSome → s.recorder.streamStates.map (·.spec) = s.recorder.streamSpecs
  kept : ∀ file ∈ s.files, ∀ w ∈ file, w.Kept

/-- The files of a configured recorder in terms of its clips. -/
lemma wellRecorded_iff {s : RecorderState} (hkept : ∀ file ∈ s.files, ∀ w ∈ file, w.Kept) :
    s.WellRecorded ↔ (∀ clip ∈ s.clips.all, clip <:+: s.appended) ∧ s.clips.Keyed s.IsVideo s.IsKey := by
  have hkeyframe : ∀ file ∈ s.files, LeadsWithKey s.IsVideo s.IsKey file.sources ↔
      ∀ w, file.find? (fun w => s.IsVideo w.source) = some w → w.muxed.flagKey = true := by
    intro file hfile
    unfold LeadsWithKey Recording.sources
    simp only [List.find?_map, Option.map_eq_some_iff, forall_exists_index, and_imp]
    constructor
    · intro h w hw
      have hkey := h w.source w hw rfl
      rw [(hkept file hfile w (List.mem_of_find?_eq_some hw)).2]
      exact (Bool.and_eq_true _ _ ▸ hkey).2
    · rintro h - w hw rfl
      have hvideo : s.IsVideo w.source = true := (List.find?_eq_some_iff_append.mp hw).1
      have hflag := h w hw
      rw [(hkept file hfile w (List.mem_of_find?_eq_some hw)).2] at hflag
      simp [Recorder.isKeyframe, hvideo, hflag]
  simp only [RecorderState.clips_all, Clips.Keyed, List.forall_mem_map]
  constructor
  · exact fun h => ⟨h.contiguous, fun file hfile => (hkeyframe file hfile).mpr (h.keyframe file hfile)⟩
  · exact fun ⟨hblock, hkeyed⟩ => ⟨hblock, hkept, fun file hfile => (hkeyframe file hfile).mp (hkeyed file hfile)⟩

/-! ## The files are clips -/

lemma isVideo_of_isKey {specs : List RtspStreamSpec} (packet : AVPacket)
    (h : Recorder.isKeyframe specs packet = true) : Recorder.isVideoPacket specs packet = true :=
  (Bool.and_eq_true _ _ ▸ h).1

/-- The recorder after `closeExpired`. -/
def RecorderState.expire (s : RecorderState) (nowMs : Int) : RecorderState :=
  { s with recorder := s.recorder.closeExpired nowMs }

section steps

variable {rescale : Int → Int × Int → Int × Int → Int} {streamId baseDir : Bytes} {specs : List RtspStreamSpec}
  {s : RecorderState}

namespace RecorderInv

lemma expire (h : RecorderInv streamId baseDir specs s) (nowMs : Int) :
    RecorderInv streamId baseDir specs (s.expire nowMs) ∧
      ((s.expire nowMs).clips = s.clips ∨ (s.expire nowMs).clips = s.clips.stop) := by
  unfold RecorderState.expire Recorder.closeExpired
  split
  · rename_i hexpired
    obtain ⟨file, hfile⟩ := Option.isSome_iff_exists.mp hexpired.1
    have hfiles : ({ s with recorder := s.recorder.close } : RecorderState).files = s.files := by
      simp [RecorderState.files, Recorder.close, hfile]
    refine ⟨⟨?_, ?_, ?_, ?_, ?_, ?_, ?_⟩, .inr ?_⟩
    · simpa [Recorder.close, hfile] using h.streamId
    · simpa [Recorder.close, hfile] using h.baseDir
    · simpa [Recorder.close, hfile] using h.specs
    · simpa [Recorder.close, hfile] using h.cache
    · simpa [Recorder.close, hfile] using h.tracked
    · simp [Recorder.close, hfile]
    · rw [hfiles]
      exact h.kept
    · simp [RecorderState.clips, Recorder.close, hfile, Clips.stop, Clips.all]
  · exact ⟨h, .inl rfl⟩

/-- The open file is replaced by one whose packets are kept. -/
lemma write (h : RecorderInv streamId baseDir specs s) {file : Recording} {states : List OutputStreamState}
    (htracks : states.map (·.spec) = s.recorder.streamSpecs) (hkept : ∀ w ∈ file, w.Kept)
    (deadlineMs startPtsUs : Int) :
    RecorderInv streamId baseDir specs { s with recorder := { s.recorder with
      deadlineMs := deadlineMs, startPtsUs := startPtsUs, fmtCtx := some file, streamStates := states } } := by
  refine ⟨h.streamId, h.baseDir, h.specs, h.cache, h.tracked, fun _ => htracks, fun clip hclip => ?_⟩
  simp only [RecorderState.files, Option.toList_some, List.mem_append, List.mem_singleton] at hclip
  rcases hclip with hclip | rfl
  · exact h.kept clip (List.mem_append_left _ hclip)
  · exact hkept

lemma cachePacket {r : Recorder} {appended : List AVPacket} (h : RecorderInv streamId baseDir specs ⟨r, appended⟩)
    {packet : AVPacket} (htrack : HasTrack r.streamSpecs packet) :
    RecorderInv streamId baseDir specs ⟨r.cachePacket packet true, appended ++ [packet]⟩ := by
  have hcache : (if Recorder.isKeyframe r.streamSpecs packet then [packet]
      else if r.gopCache = [] then [] else r.gopCache ++ [packet]) =
      lastGroup (Recorder.isKeyframe r.streamSpecs) (appended ++ [packet]) := by
    have hbefore : r.gopCache = lastGroup (Recorder.isKeyframe r.streamSpecs) appended := h.cache
    cases hkey : Recorder.isKeyframe r.streamSpecs packet with
    | true => rw [lastGroup_append_key hkey, if_pos rfl]
    | false => rw [lastGroup_append_other hkey, if_neg Bool.false_ne_true, hbefore]
  rw [Recorder.cachePacket_eq]
  refine ⟨h.streamId, h.baseDir, h.specs, hcache, fun p hp => ?_, h.tracks, h.kept⟩
  rcases List.mem_append.mp hp with hp | hp
  · exact h.tracked p hp
  · rw [List.mem_singleton.mp hp]
    exact htrack

/-- A packet that is accepted is seen by the clips; `r` is the recorder after `closeExpired`. -/
lemma see (rescale : Int → Int × Int → Int × Int → Int) {r : Recorder} {appended : List AVPacket}
    (h : RecorderInv streamId baseDir specs ⟨r, appended⟩)
    {packet : AVPacket} (hdata : packet.data ≠ []) (htrack : HasTrack r.streamSpecs packet) :
    ∃ recorder, (∀ (q : Recorder) (nowMs : Int), q.closeExpired nowMs = r →
        q.appendPacket rescale packet nowMs true {} = (true, recorder)) ∧
      RecorderInv streamId baseDir specs ⟨recorder, appended ++ [packet]⟩ ∧
      RecorderState.clips ⟨recorder, appended ++ [packet]⟩ = (RecorderState.clips ⟨r, appended⟩).see packet := by
  have hinv := h.cachePacket htrack
  have happend : ∀ (q : Recorder) (nowMs : Int), q.closeExpired nowMs = r →
      q.appendPacket rescale packet nowMs true {} =
        if (r.cachePacket packet true).fmtCtx.isNone then (true, r.cachePacket packet true)
        else if !((r.cachePacket packet true).writePacketInternal rescale packet {}).1 then
          (false, ((r.cachePacket packet true).writePacketInternal rescale packet {}).2.close)
        else (true, ((r.cachePacket packet true).writePacketInternal rescale packet {}).2) := by
    rintro q nowMs rfl
    rw [Recorder.appendPacket, if_neg hdata]
  have hclips : (RecorderState.clips ⟨r, appended⟩).see packet =
      ⟨appended ++ [packet], (r.cachePacket packet true).fmtCtx.map fun file => file.sources ++ [packet],
        (r.cachePacket packet true).recordings.map Recording.sources⟩ := by
    rw [Recorder.cachePacket_eq]
    simp [RecorderState.clips, Clips.see, Function.comp_def]
  have htrack' : HasTrack (r.cachePacket packet true).streamSpecs packet := by
    rw [Recorder.cachePacket_eq]
    exact htrack
  generalize r.cachePacket packet true = cached at hinv happend hclips htrack'
  rw [hclips]
  by_cases hclosed : cached.fmtCtx = none
  · refine ⟨cached, fun q nowMs hq => ?_, hinv, ?_⟩
    · rw [happend q nowMs hq, if_pos (by simp [hclosed])]
    · simp [RecorderState.clips, hclosed]
  · obtain ⟨file, hopen⟩ := Option.ne_none_iff_exists'.mp hclosed
    have htracks : cached.streamStates.map (·.spec) = cached.streamSpecs := hinv.tracks (by simp [hopen])
    obtain ⟨startPtsUs, written, hsource, hkept, hwrite⟩ :=
      Recorder.writePacketInternal_open rescale hopen htracks htrack'
    refine ⟨{ cached with startPtsUs := startPtsUs, fmtCtx := some (file ++ [written]) }, fun q nowMs hq => ?_,
      hinv.write htracks (fun w hw => ?_) cached.deadlineMs startPtsUs, ?_⟩
    · rw [happend q nowMs hq, if_neg (by simp [hopen]), hwrite]
      rfl
    · rcases List.mem_append.mp hw with hw | hw
      · exact hinv.kept file (by simp [RecorderState.files, hopen]) w hw
      · rw [List.mem_singleton.mp hw]
        exact hkept
    · simp [RecorderState.clips, hopen, Recording.sources, hsource]

/-- A request begins a clip or leaves the files as they are. -/
lemma request (h : RecorderInv streamId baseDir specs s) (durationS nowMs : Int)
    (timeBases : Option (Nat → Int × Int)) {t : RecorderState}
    (ht : t = { s with recorder := (s.recorder.requestRecording rescale durationS nowMs timeBases []).2 }) :
    RecorderInv streamId baseDir specs t ∧ (t.clips = s.clips ∨ t.clips = s.clips.start s.IsKey) := by
  have hcached : ∀ packet ∈ s.recorder.gopCache, HasTrack s.recorder.streamSpecs packet := by
    intro packet hmem
    rw [h.cache] at hmem
    exact h.tracked packet ((lastGroup_suffix s.appended).subset hmem)
  obtain ⟨deadlineMs, hrequest⟩ :=
    Recorder.requestRecording_cases rescale hcached durationS nowMs timeBases
  rcases hrequest with hsame | ⟨startPtsUs, file, states, hsources, hkept, hstates, hopened⟩
  · rw [ht, hsame]
    exact ⟨⟨h.streamId, h.baseDir, h.specs, h.cache, h.tracked, h.tracks, h.kept⟩, .inl rfl⟩
  · rw [ht, hopened]
    refine ⟨h.write hstates hkept deadlineMs startPtsUs, .inr ?_⟩
    simp [RecorderState.clips, Clips.start, hsources, h.cache]

/-- The condition on a packet that is accepted, for the clips. -/
lemma startsWithKeyframe_iff (h : RecorderInv streamId baseDir specs s) {packet : AVPacket} {nowMs : Int}
    (hdata : packet.data ≠ []) : s.startsWithKeyframe (.appendPacket packet nowMs) = true ↔
      ((s.expire nowMs).clips.current.isSome → s.IsVideo packet = true → s.IsKey packet = false →
        lastGroup s.IsKey s.appended ≠ []) := by
  have hcache : lastGroup s.IsKey s.appended = s.recorder.gopCache := h.cache.symm
  have hopen : (s.expire nowMs).clips.current.isSome = (s.recorder.closeExpired nowMs).fmtCtx.isSome := by
    simp [RecorderState.clips, RecorderState.expire]
  rw [hcache, hopen]
  simp only [RecorderState.startsWithKeyframe, RecorderState.IsVideo, RecorderState.IsKey, Recorder.isKeyframe]
  cases Recorder.isVideoPacket s.recorder.streamSpecs packet <;> cases packet.flagKey <;>
    cases (s.recorder.closeExpired nowMs).fmtCtx <;> simp [hdata]

end RecorderInv

/-- A configuration leaves a recorder unconfigured or with the parameters. -/
lemma configure_inv (h : s = {} ∨ RecorderInv streamId baseDir specs s) {t : RecorderState}
    (ht : t = { s with recorder := (s.recorder.configure streamId baseDir specs).2 }) :
    (t = {} ∨ RecorderInv streamId baseDir specs t) ∧ t.clips = s.clips := by
  rcases h with rfl | h
  · unfold Recorder.configure at ht
    by_cases hempty : streamId = [] ∨ baseDir = [] ∨ specs = []
    · rw [if_pos hempty] at ht
      exact ⟨.inl ht, congrArg _ ht⟩
    · rw [if_neg hempty] at ht
      by_cases hvideo : (specs.any (·.mediaType == .video)) = true
      · rw [if_neg (by simpa using hvideo)] at ht
        have hfresh : t = ⟨{ streamId := streamId, baseDir := baseDir
                             streamSpecs := Recorder.normalizedSpecs specs }, []⟩ := by
          rw [ht]
          dsimp only
          split <;> rfl
        rw [hfresh]
        refine ⟨.inr ⟨rfl, rfl, rfl, rfl, ?_, ?_, ?_⟩, rfl⟩
        · intro packet hmem
          cases hmem
        · intro hopen
          cases hopen
        · intro file hmem
          cases hmem
      · rw [if_pos (by simpa using hvideo)] at ht
        exact ⟨.inl ht, congrArg _ ht⟩
  · have hsame := Recorder.configure_same h.specs
    rw [h.streamId, h.baseDir] at hsame
    rw [ht, hsame]
    exact ⟨.inr h, rfl⟩

/-- A step lets the clips see a packet, begins a clip, or leaves the clips as they are. -/
lemma recorderSystem_next (h : s = {} ∨ RecorderInv streamId baseDir specs s) {a : RecorderCall} {t : RecorderState}
    (hn : (recorderSystem rescale streamId baseDir specs).next s a = some t) :
    (t = {} ∨ RecorderInv streamId baseDir specs t) ∧
      ((s.startsWithKeyframe a = true ∧ (t.clips = s.clips ∨
          t.clips = s.clips.start (Recorder.isKeyframe (Recorder.normalizedSpecs specs)))) ∨
        ∃ packet nowMs, a = .appendPacket packet nowMs ∧ packet.data ≠ [] ∧
          RecorderInv streamId baseDir specs s ∧ t.clips = (s.expire nowMs).clips.see packet) := by
  cases a with
  | configure =>
    obtain ⟨hinv, hclips⟩ := configure_inv h (Option.some.inj hn).symm
    exact ⟨hinv, .inl ⟨rfl, .inl hclips⟩⟩
  | requestRecording durationS nowMs timeBases =>
    rcases h with rfl | h
    · cases hn
      exact ⟨.inl rfl, .inl ⟨rfl, .inl rfl⟩⟩
    · obtain ⟨hinv, hclips⟩ := h.request durationS nowMs timeBases (Option.some.inj hn).symm
      rw [RecorderState.IsKey, h.specs] at hclips
      exact ⟨.inr hinv, .inl ⟨rfl, hclips⟩⟩
  | appendPacket packet nowMs =>
    simp only [recorderSystem, Option.ite_none_right_eq_some, Option.some.injEq] at hn
    obtain ⟨htrack, rfl⟩ := hn
    rcases h with rfl | h
    · cases htrack
    · by_cases hdata : packet.data = []
      · have hrejected : s.recorder.appendPacket rescale packet nowMs true {} = (false, s.recorder) :=
          if_pos hdata
        rw [hrejected]
        exact ⟨.inr h, .inl ⟨by simp [RecorderState.startsWithKeyframe, hdata], .inl rfl⟩⟩
      · have htracked : HasTrack (s.recorder.closeExpired nowMs).streamSpecs packet := by
          have hspecs : (s.recorder.closeExpired nowMs).streamSpecs = s.recorder.streamSpecs :=
            (h.expire nowMs).1.specs.trans h.specs.symm
          rw [hspecs]
          obtain ⟨spec, hspec, hindex⟩ := List.any_eq_true.mp htrack
          exact ⟨spec, hspec, beq_iff_eq.mp hindex⟩
        obtain ⟨recorder, happend, hinv, hclips⟩ := (h.expire nowMs).1.see rescale hdata htracked
        rw [happend s.recorder nowMs rfl]
        exact ⟨.inr hinv, .inr ⟨packet, nowMs, rfl, hdata, h, hclips⟩⟩

end steps

/-! ## Runs -/

section runs

variable {rescale : Int → Int × Int → Int × Int → Int} {streamId baseDir : Bytes} {specs : List RtspStreamSpec}
  {s : RecorderState}

/-- What holds in every run: the files are contiguous, and an open file has a video packet once a keyframe has been
appended. -/
structure RecordingInv (streamId baseDir : Bytes) (specs : List RtspStreamSpec) (s : RecorderState) : Prop where
  recorder : s = {} ∨ RecorderInv streamId baseDir specs s
  contiguous : s.clips.Contiguous
  joined : s.clips.Joined (Recorder.isVideoPacket (Recorder.normalizedSpecs specs))
    (Recorder.isKeyframe (Recorder.normalizedSpecs specs))

lemma RecordingInv.expire (h : RecordingInv streamId baseDir specs s)
    (hinv : RecorderInv streamId baseDir specs s) (nowMs : Int) : (s.expire nowMs).clips.Contiguous ∧
      (s.expire nowMs).clips.Joined (Recorder.isVideoPacket (Recorder.normalizedSpecs specs))
        (Recorder.isKeyframe (Recorder.normalizedSpecs specs)) := by
  rcases (hinv.expire nowMs).2 with hclips | hclips
  · rw [hclips]
    exact ⟨h.contiguous, h.joined⟩
  · rw [hclips]
    exact ⟨h.contiguous.stop, Clips.Joined.stop⟩

lemma RecordingInv.next (h : RecordingInv streamId baseDir specs s) {a : RecorderCall} {t : RecorderState}
    (hn : (recorderSystem rescale streamId baseDir specs).next s a = some t) :
    RecordingInv streamId baseDir specs t := by
  obtain ⟨hrecorder, hclips⟩ := recorderSystem_next h.recorder hn
  rcases hclips with ⟨-, hclips | hclips⟩ | ⟨packet, nowMs, -, -, hinv, hclips⟩
  · exact ⟨hrecorder, hclips ▸ h.contiguous, hclips ▸ h.joined⟩
  · exact ⟨hrecorder, hclips ▸ h.contiguous.start, hclips ▸ Clips.joined_start isVideo_of_isKey⟩
  · obtain ⟨hcontiguous, hjoined⟩ := h.expire hinv nowMs
    exact ⟨hrecorder, hclips ▸ hcontiguous.see packet, hclips ▸ hjoined.see isVideo_of_isKey packet⟩

lemma recordingInv_reachable (h : (recorderSystem rescale streamId baseDir specs).Reachable s) :
    RecordingInv streamId baseDir specs s := by
  apply h.invariant
  · refine ⟨.inl rfl, ⟨fun clip hmem => ?_, fun clip hmem => ?_⟩, fun _ clip hmem => ?_⟩
    · cases hmem
    · cases hmem
    · cases hmem
  · exact fun s a t hinv _ hn => hinv.next hn

/-- The clips of a run whose calls all meet the condition are keyed. -/
lemma keyed_reachableWhen (h : (recorderSystem rescale streamId baseDir specs).ReachableWhen
    (fun s a => s.startsWithKeyframe a = true) s) :
    s.clips.Keyed (Recorder.isVideoPacket (Recorder.normalizedSpecs specs))
      (Recorder.isKeyframe (Recorder.normalizedSpecs specs)) := by
  apply h.invariant_of fun t ht => recordingInv_reachable (Machine.ReachableWhen.reachable ht)
  · intro clip hmem
    cases hmem
  · intro s a t hinv hkeyed hguard hn
    obtain ⟨-, hclips⟩ := recorderSystem_next hinv.recorder hn
    rcases hclips with ⟨-, hclips | hclips⟩ | ⟨packet, nowMs, rfl, hdata, hrecorder, hclips⟩
    · exact hclips ▸ hkeyed
    · exact hclips ▸ hkeyed.start isVideo_of_isKey
    · obtain ⟨-, hjoined⟩ := hinv.expire hrecorder nowMs
      have hkeyed' : (s.expire nowMs).clips.Keyed (Recorder.isVideoPacket (Recorder.normalizedSpecs specs))
          (Recorder.isKeyframe (Recorder.normalizedSpecs specs)) := by
        rcases (hrecorder.expire nowMs).2 with hsame | hstop
        · exact hsame ▸ hkeyed
        · exact hstop ▸ hkeyed.stop
      have hcondition := (hrecorder.startsWithKeyframe_iff hdata).mp hguard
      simp only [RecorderState.IsVideo, RecorderState.IsKey, hrecorder.specs] at hcondition
      exact hclips ▸ hkeyed'.see hjoined hcondition

/-- What holds of the files, in terms of the clips, in any state of a run. -/
lemma wellRecorded_iff_keyed (h : RecordingInv streamId baseDir specs s) : s.WellRecorded ↔
    s.clips.Keyed (Recorder.isVideoPacket (Recorder.normalizedSpecs specs))
      (Recorder.isKeyframe (Recorder.normalizedSpecs specs)) := by
  rcases h.recorder with rfl | hrecorder
  · constructor
    · intro _ clip hmem
      cases hmem
    · intro _
      refine ⟨?_, ?_, ?_⟩ <;> intro file hmem <;> cases hmem
  · rw [wellRecorded_iff hrecorder.kept, RecorderState.IsVideo, RecorderState.IsKey, hrecorder.specs]
    exact and_iff_right h.contiguous.all_isInfix

end runs

/-- The files are contiguous in every run. While every call meets the condition their first video packets are
keyframes; the first call that does not meet it leaves a file with another one. -/
theorem recordings_startWithKeyframe (rescale : Int → Int × Int → Int × Int → Int) (streamId baseDir : Bytes)
    (specs : List RtspStreamSpec) :
    (∀ s, (recorderSystem rescale streamId baseDir specs).Reachable s →
      ∀ file ∈ s.files, file.sources <:+: s.appended) ∧
    (∀ s, (recorderSystem rescale streamId baseDir specs).ReachableWhen
      (fun s a => s.startsWithKeyframe a = true) s → s.WellRecorded) ∧
    ∀ s a t, (recorderSystem rescale streamId baseDir specs).Reachable s →
      (recorderSystem rescale streamId baseDir specs).next s a = some t →
        ¬s.startsWithKeyframe a = true → ¬t.WellRecorded := by
  refine ⟨fun s h file hfile => ?_, fun s h => ?_, fun s a t h hn hguard => ?_⟩
  · have hblocks := (recordingInv_reachable h).contiguous.all_isInfix
    rw [s.clips_all] at hblocks
    exact hblocks file.sources (List.mem_map_of_mem hfile)
  · rw [wellRecorded_iff_keyed (recordingInv_reachable (Machine.ReachableWhen.reachable h))]
    exact keyed_reachableWhen h
  · have hinv := recordingInv_reachable h
    rw [wellRecorded_iff_keyed (hinv.next hn)]
    obtain ⟨-, hclips⟩ := recorderSystem_next hinv.recorder hn
    rcases hclips with ⟨hmeets, -⟩ | ⟨packet, nowMs, rfl, hdata, hrecorder, hclips⟩
    · exact absurd hmeets hguard
    · obtain ⟨hcontiguous, -⟩ := hinv.expire hrecorder nowMs
      rw [hrecorder.startsWithKeyframe_iff hdata] at hguard
      simp only [RecorderState.IsVideo, RecorderState.IsKey, hrecorder.specs, Classical.not_imp, not_not] at hguard
      obtain ⟨hopen, hlead, hkey, hgroup⟩ := hguard
      rw [hclips]
      exact Clips.not_keyed_see hcontiguous hopen hlead hkey hgroup

/-- A configuration with one video track. -/
def oneTrack : List RtspStreamSpec := [{ codecId := 27, inputStreamIndex := 0 }]

/-- A packet of the video track. -/
def trackPacket (byte : UInt8) (flagKey : Bool) : AVPacket :=
  { data := [byte], streamIndex := 0, pts := 0, dts := 0, flagKey := flagKey }

/-- A recording that begins with the cached group and runs on past the next keyframe, and a second one. -/
theorem recordings_startWithKeyframe_twoFiles :
    ∃ s, (recorderSystem (fun value _ _ => value) [1] [2] oneTrack).ReachableWhen
        (fun s a => s.startsWithKeyframe a = true) s ∧
      s.files.map Recording.sources =
        [[trackPacket 1 true, trackPacket 2 false, trackPacket 3 true], [trackPacket 3 true, trackPacket 4 false]] ∧
      s.WellRecorded := by
  obtain ⟨s, hs, hp⟩ := Machine.reachableWhen_of_exec_any (recorderSystem (fun value _ _ => value) [1] [2] oneTrack)
    RecorderState.startsWithKeyframe
    [.configure, .appendPacket (trackPacket 0 false) 0, .appendPacket (trackPacket 1 true) 1,
      .appendPacket (trackPacket 2 false) 2, .requestRecording 10 3 (some fun _ => (1, 1000)), .configure,
      .appendPacket (trackPacket 3 true) 4, .appendPacket (trackPacket 4 false) 10003,
      .requestRecording 10 10004 (some fun _ => (1, 1000))]
    (fun s => decide (s.files.map Recording.sources =
      [[trackPacket 1 true, trackPacket 2 false, trackPacket 3 true], [trackPacket 3 true, trackPacket 4 false]]))
    (by decide)
  exact ⟨s, hs, of_decide_eq_true hp, (recordings_startWithKeyframe _ _ _ _).2.1 s hs⟩

/-- A request before the first keyframe: the next packet is the first of the file, whatever it is. -/
theorem not_wellRecorded_before_keyframe :
    ∃ s, (recorderSystem (fun value _ _ => value) [1] [2] oneTrack).Reachable s ∧ ¬s.WellRecorded := by
  obtain ⟨s, hs, hp⟩ := Machine.reachable_of_exec_any (recorderSystem (fun value _ _ => value) [1] [2] oneTrack)
    [.configure, .requestRecording 10 0 (some fun _ => (1, 1000)), .appendPacket (trackPacket 1 false) 1]
    (fun s => s.files.any fun file =>
      (file.find? fun w => s.IsVideo w.source).any fun w => !w.muxed.flagKey) (by decide)
  obtain ⟨file, hfile, hfirst⟩ := List.any_eq_true.mp hp
  obtain ⟨w, hw, hflag⟩ := (Option.any_eq_true _ _).mp hfirst
  refine ⟨s, hs, fun h => ?_⟩
  rw [h.keyframe file hfile w hw] at hflag
  cases hflag

end MediaAgent
