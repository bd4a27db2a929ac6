import Mathlib.Data.List.Nodup
import MediaAgent.Library.Transition
import MediaAgent.Library.TreeMaps
import MediaAgent.RecordingNames

/-!
# The record directory

Recorders of different streams that open and close files in one directory. A session is a file that has been opened;
a file is known by the number of the session whose recording it holds. The local time at a reading of the wall clock
is a parameter.
-/

namespace MediaAgent
open Std TreeMaps Transition

structure RecordSession where
  streamId : Bytes
  format : RecordFormat
  openedS : Int
  path : Bytes
  deriving DecidableEq, Repr

/-- The sessions in the order of their opening, those that are being recorded, and the files of the directory. A pair
of `replaced` is a finished recording and the session whose closing has replaced it. -/
structure RecordDir where
  nowS : Int
  sessions : List RecordSession := []
  active : TreeMap Bytes Nat := ∅
  files : TreeMap Bytes Nat := ∅
  replaced : List (Nat × Nat) := []

inductive RecordDirCall
  | openRecording (streamId : Bytes) (format : RecordFormat) (nowS : Int)
  | close (streamId : Bytes) (renamed : Bool) (nowS : Int)

namespace RecordDir

/-- The temporary file is created, or truncated if there is one. -/
def openRecording (localtime : Int → Tm) (s : RecordDir) (streamId : Bytes) (format : RecordFormat) (nowS : Int) :
    RecordDir :=
  let recordFileName := buildRecordingFileName (localtime nowS) streamId format
  { s with
    nowS := nowS
    sessions := s.sessions ++ [⟨streamId, format, nowS, recordFileName⟩]
    active := s.active.insert streamId s.sessions.length
    files := s.files.insert (makeHiddenRecordingName recordFileName) s.sessions.length }

/-- The temporary file takes the place of whatever has the final name. -/
def rename (s : RecordDir) (number : Nat) (recordFileName : Bytes) : RecordDir :=
  match s.files[makeHiddenRecordingName recordFileName]? with
  | none => s
  | some moved =>
    { s with
      files := (s.files.erase (makeHiddenRecordingName recordFileName)).insert recordFileName moved
      replaced := match s.files[recordFileName]? with
        | none => s.replaced
        | some finished => s.replaced ++ [(finished, number)] }

def close (s : RecordDir) (streamId : Bytes) (number : Nat) (recordFileName : Bytes) (renamed : Bool) (nowS : Int) :
    RecordDir :=
  let s := { s with nowS := nowS, active := s.active.erase streamId }
  if renamed then s.rename number recordFileName else s

end RecordDir

/-- One recorder for each stream id. A recorder opens a file when it is configured and has none open. -/
def recordDirectory (localtime : Int → Tm) (startS : Int) : Machine RecordDir RecordDirCall where
  init := { nowS := startS }
  next s
    | .openRecording streamId format nowS =>
      if s.nowS ≤ nowS ∧ streamId ≠ [] ∧ s.active[streamId]? = none then
        some (s.openRecording localtime streamId format nowS)
      else none
    | .close streamId renamed nowS =>
      if s.nowS ≤ nowS then
        (s.active[streamId]?).bind fun number =>
          (s.sessions[number]?).map fun session => s.close streamId number session.path renamed nowS
      else none

namespace RecordDir

/-- No two sessions have one path, and no finished recording has been replaced. -/
structure EvidenceKept (s : RecordDir) : Prop where
  paths : (s.sessions.map (·.path)).Nodup
  replaced : s.replaced = []

/-- No earlier session of the format and of a similar stream id was opened in the local second. -/
def opensApart (localtime : Int → Tm) (s : RecordDir) : RecordDirCall → Bool
  | .openRecording streamId format nowS => !s.sessions.any fun e =>
      similarIds e.streamId streamId && e.format == format && localtime e.openedS == localtime nowS
  | _ => true

/-- What a file of the directory is: the temporary file of a session, or the recording of one that is closed. -/
inductive HoldsSession (s : RecordDir) (path : Bytes) (number : Nat) (session : RecordSession) : Prop
  | hidden (h : path = makeHiddenRecordingName session.path)
  | final (h : path = session.path) (closed : s.active[session.streamId]? ≠ some number)

structure RecordDirInv (localtime : Int → Tm) (s : RecordDir) : Prop where
  kept : s.EvidenceKept
  named : ∀ e ∈ s.sessions, e.streamId ≠ [] ∧
    e.path = buildRecordingFileName (localtime e.openedS) e.streamId e.format
  active : ∀ streamId number, s.active[streamId]? = some number →
    ∃ e : RecordSession, s.sessions[number]? = some e ∧ e.streamId = streamId
  files : ∀ path number, s.files[path]? = some number →
    ∃ e : RecordSession, s.sessions[number]? = some e ∧ HoldsSession s path number e

variable {localtime : Int → Tm} {s t : RecordDir}

/-- The sessions whose path a new one would have. -/
lemma path_mem_iff (hnamed : ∀ e ∈ s.sessions, e.streamId ≠ [] ∧
      e.path = buildRecordingFileName (localtime e.openedS) e.streamId e.format)
    {streamId : Bytes} (hid : streamId ≠ []) (format : RecordFormat) (nowS : Int) :
    buildRecordingFileName (localtime nowS) streamId format ∈ s.sessions.map (·.path) ↔
      ¬s.opensApart localtime (.openRecording streamId format nowS) = true := by
  rw [List.mem_map]
  simp only [opensApart, Bool.not_eq_true', Bool.not_eq_false, List.any_eq_true, Bool.and_eq_true, beq_iff_eq]
  refine exists_congr fun e => and_congr_right fun he => ?_
  obtain ⟨hne, hpath⟩ := hnamed e he
  rw [hpath, buildRecordingFileName_eq_iff hne hid]
  constructor
  · rintro ⟨htime, hsimilar, hformat⟩
    exact ⟨⟨hsimilar, hformat⟩, htime⟩
  · rintro ⟨⟨hsimilar, hformat⟩, htime⟩
    exact ⟨htime, hsimilar, hformat⟩

lemma getElem?_append_some {l : List RecordSession} {number : Nat} {e : RecordSession} (h : l[number]? = some e)
    (l' : List RecordSession) : (l ++ l')[number]? = some e := by
  rw [List.getElem?_append_left (List.getElem?_eq_some_iff.mp h).1, h]

lemma RecordDirInv.openRecording (h : RecordDirInv localtime s) {streamId : Bytes} (hid : streamId ≠ [])
    {format : RecordFormat}
    {nowS : Int} (hapart : s.opensApart localtime (.openRecording streamId format nowS) = true) :
    RecordDirInv localtime (s.openRecording localtime streamId format nowS) := by
  have hnew : buildRecordingFileName (localtime nowS) streamId format ∉ s.sessions.map (·.path) :=
    fun hmem => (path_mem_iff h.named hid format nowS).mp hmem hapart
  refine ⟨⟨?_, h.kept.replaced⟩, ?_, ?_, ?_⟩
  · simp only [RecordDir.openRecording, List.map_append, List.map_cons, List.map_nil]
    rw [List.nodup_append]
    refine ⟨h.kept.paths, List.nodup_singleton _, fun path hpath path' hpath' hsame => hnew ?_⟩
    rw [← List.mem_singleton.mp hpath', ← hsame]
    exact hpath
  · intro e he
    rcases List.mem_append.mp he with he | he
    · exact h.named e he
    · rw [List.mem_singleton.mp he]
      exact ⟨hid, rfl⟩
  · intro id number hactive
    simp only [RecordDir.openRecording, lookup_insert] at hactive ⊢
    by_cases hsame : streamId = id
    · rw [if_pos hsame] at hactive
      obtain rfl := Option.some.inj hactive
      exact ⟨_, List.getElem?_concat_length .., hsame⟩
    · rw [if_neg hsame] at hactive
      obtain ⟨e, he, hid⟩ := h.active id number hactive
      exact ⟨e, (getElem?_append_some he _), hid⟩
  · intro path number hfile
    simp only [RecordDir.openRecording, lookup_insert] at hfile ⊢
    by_cases hsame : makeHiddenRecordingName (buildRecordingFileName (localtime nowS) streamId format) = path
    · rw [if_pos hsame] at hfile
      obtain rfl := Option.some.inj hfile
      exact ⟨_, List.getElem?_concat_length .., .hidden hsame.symm⟩
    · rw [if_neg hsame] at hfile
      obtain ⟨e, he, hholds⟩ := h.files path number hfile
      refine ⟨e, getElem?_append_some he _, ?_⟩
      cases hholds with
      | hidden hpath => exact .hidden hpath
      | final hpath hclosed =>
        refine .final hpath ?_
        simp only [lookup_insert]
        by_cases hid : streamId = e.streamId
        · rw [if_pos hid]
          intro hnumber
          have hlt := (List.getElem?_eq_some_iff.mp he).1
          rw [Option.some.inj hnumber] at hlt
          exact Nat.lt_irrefl _ hlt
        · rwa [if_neg hid]

/-- Sessions with one path are one session. -/
lemma RecordDirInv.number_eq (h : RecordDirInv localtime s) {n m : Nat} {e e' : RecordSession}
    (he : s.sessions[n]? = some e) (he' : s.sessions[m]? = some e') (hpath : e.path = e'.path) : n = m := by
  have hlt : n < (s.sessions.map (·.path)).length := by
    rw [List.length_map]
    exact (List.getElem?_eq_some_iff.mp he).1
  refine (List.getElem?_inj hlt h.kept.paths).mp ?_
  rw [List.getElem?_map, List.getElem?_map, he, he', Option.map_some, Option.map_some, hpath]

lemma RecordDirInv.hidden_ne (h : RecordDirInv localtime s) {n m : Nat} {e e' : RecordSession}
    (he : s.sessions[n]? = some e) (he' : s.sessions[m]? = some e') :
    makeHiddenRecordingName e.path ≠ e'.path ∧
      (makeHiddenRecordingName e.path = makeHiddenRecordingName e'.path → n = m) := by
  obtain ⟨hne, hpath⟩ := h.named e (List.mem_of_getElem? he)
  obtain ⟨hne', hpath'⟩ := h.named e' (List.mem_of_getElem? he')
  have hnames := makeHiddenRecordingName_ne (localtime e.openedS) (localtime e'.openedS) hne hne' e.format e'.format
  rw [← hpath, ← hpath'] at hnames
  exact ⟨hnames.1, fun hsame => h.number_eq he he' (hnames.2 hsame)⟩

/-- A session that is being recorded has no file under its final name yet. -/
lemma RecordDirInv.final_none (h : RecordDirInv localtime s) {number : Nat} {session : RecordSession}
    (hsession : s.sessions[number]? = some session) (hactive : s.active[session.streamId]? = some number) :
    s.files[session.path]? = none := by
  rw [Option.eq_none_iff_forall_ne_some]
  intro k hfile
  obtain ⟨e, he, hholds⟩ := h.files session.path k hfile
  cases hholds with
  | hidden hpath => exact (h.hidden_ne he hsession).1 hpath.symm
  | final hpath hclosed =>
    obtain rfl := h.number_eq hsession he hpath
    obtain rfl := Option.some.inj (hsession.symm.trans he)
    exact hclosed hactive

lemma RecordDirInv.erase (h : RecordDirInv localtime s) (streamId : Bytes) (nowS : Int) :
    RecordDirInv localtime { s with nowS := nowS, active := s.active.erase streamId } := by
  have herase : ∀ (id : Bytes) (number : Nat), (s.active.erase streamId)[id]? = some number →
      s.active[id]? = some number := by
    intro id number hactive
    rw [lookup_erase] at hactive
    by_cases hsame : streamId = id
    · rw [if_pos hsame] at hactive
      cases hactive
    · rwa [if_neg hsame] at hactive
  refine ⟨⟨h.kept.paths, h.kept.replaced⟩, h.named, fun id number hactive => h.active id number (herase _ _ hactive), ?_⟩
  intro path number hfile
  obtain ⟨e, he, hholds⟩ := h.files path number hfile
  refine ⟨e, he, ?_⟩
  cases hholds with
  | hidden hpath => exact .hidden hpath
  | final hpath hclosed => exact .final hpath fun hactive => hclosed (herase _ _ hactive)

/-- The temporary file of a closed session gets its final name. -/
lemma RecordDirInv.rename (h : RecordDirInv localtime s) {number : Nat} {session : RecordSession}
    (hsession : s.sessions[number]? = some session) (hclosed : s.active[session.streamId]? ≠ some number)
    (hnone : s.files[session.path]? = none) : RecordDirInv localtime (s.rename number session.path) := by
  unfold RecordDir.rename
  rw [hnone]
  cases hfile : s.files[makeHiddenRecordingName session.path]? with
  | none => exact h
  | some moved =>
    have hmoved : moved = number := by
      obtain ⟨e, he, hholds⟩ := h.files _ moved hfile
      cases hholds with
      | hidden hpath => exact ((h.hidden_ne hsession he).2 hpath).symm
      | final hpath _ => exact absurd hpath (h.hidden_ne hsession he).1
    refine ⟨⟨h.kept.paths, h.kept.replaced⟩, h.named, h.active, fun path k hk => ?_⟩
    simp only [lookup_insert, lookup_erase] at hk
    by_cases hfinal : session.path = path
    · rw [if_pos hfinal, hmoved] at hk
      obtain rfl := Option.some.inj hk
      exact ⟨session, hsession, .final hfinal.symm hclosed⟩
    · rw [if_neg hfinal] at hk
      by_cases hhidden : makeHiddenRecordingName session.path = path
      · rw [if_pos hhidden] at hk
        cases hk
      · rw [if_neg hhidden] at hk
        obtain ⟨e, he, hholds⟩ := h.files path k hk
        refine ⟨e, he, ?_⟩
        cases hholds with
        | hidden hpath => exact .hidden hpath
        | final hpath hidle => exact .final hpath hidle

lemma RecordDirInv.close (h : RecordDirInv localtime s) {streamId : Bytes} {number : Nat} {session : RecordSession}
    (hactive : s.active[streamId]? = some number) (hsession : s.sessions[number]? = some session) (renamed : Bool)
    (nowS : Int) : RecordDirInv localtime (s.close streamId number session.path renamed nowS) := by
  obtain ⟨e, he, rfl⟩ := h.active streamId number hactive
  obtain rfl := Option.some.inj (hsession.symm.trans he)
  have herased := h.erase session.streamId nowS
  unfold RecordDir.close
  cases renamed with
  | false => exact herased
  | true =>
    refine herased.rename hsession ?_ (h.final_none hsession hactive)
    simp only [lookup_erase, if_true]
    exact Option.some_ne_none number |>.symm

lemma RecordDirInv.next {startS : Int} (h : RecordDirInv localtime s) {call : RecordDirCall}
    (hapart : s.opensApart localtime call = true) (hnext : (recordDirectory localtime startS).next s call = some t) :
    RecordDirInv localtime t := by
  cases call with
  | openRecording streamId format nowS =>
    simp only [recordDirectory, Option.ite_none_right_eq_some] at hnext
    obtain ⟨⟨-, hid, -⟩, hopen⟩ := hnext
    obtain rfl := Option.some.inj hopen
    exact h.openRecording hid hapart
  | close streamId renamed nowS =>
    simp only [recordDirectory, Option.ite_none_right_eq_some, Option.bind_eq_some_iff, Option.map_eq_some_iff] at hnext
    obtain ⟨-, number, hactive, session, hsession, rfl⟩ := hnext
    exact h.close hactive hsession renamed nowS

lemma recordDirInv_init (startS : Int) : RecordDirInv localtime (recordDirectory localtime startS).init where
  kept := ⟨List.nodup_nil, rfl⟩
  named := by simp [recordDirectory]
  active := by simp [recordDirectory]
  files := by simp [recordDirectory]

/-- Recordings that are opened apart have paths of their own, and none is replaced. A recording that is not gets the
path of an earlier one. -/
theorem evidenceKept_of_opensApart {startS : Int}
    (h : (recordDirectory localtime startS).ReachableWhen (fun s call => s.opensApart localtime call = true) s) :
    s.EvidenceKept ∧ ∀ call t, (recordDirectory localtime startS).next s call = some t →
      (t.EvidenceKept ↔ s.opensApart localtime call = true) := by
  have hinv : RecordDirInv localtime s :=
    h.invariant (recordDirInv_init startS) fun _ _ _ hs hapart hnext => hs.next hapart hnext
  refine ⟨hinv.kept, fun call t hnext => ⟨fun hkept => ?_, fun hapart => (hinv.next hapart hnext).kept⟩⟩
  cases call with
  | openRecording streamId format nowS =>
    simp only [recordDirectory, Option.ite_none_right_eq_some] at hnext
    obtain ⟨⟨-, hid, -⟩, hopen⟩ := hnext
    obtain rfl := Option.some.inj hopen
    by_contra hapart
    have hmem := (path_mem_iff hinv.named hid format nowS).mpr hapart
    have hpaths := hkept.paths
    simp only [RecordDir.openRecording, List.map_append, List.map_cons, List.map_nil] at hpaths
    exact (List.nodup_append.mp hpaths).2.2 _ hmem _ List.mem_cons_self rfl
  | close streamId renamed nowS => rfl

/-- The local times of one minute. -/
def oneMinute (nowS : Int) : Tm := ⟨2024, 5, 1, 12, 30, Fin.ofNat 61 nowS.toNat⟩

/-- The streams `cam.1` and `cam 1`. -/
def camDot : Bytes := [0x63, 0x61, 0x6D, 0x2E, 0x31]
def camBlank : Bytes := [0x63, 0x61, 0x6D, 0x20, 0x31]

/-- Both streams record, one after the other: the second is opened at `secondS`. -/
def oneAfterTheOther (secondS : Int) : List RecordDirCall :=
  [.openRecording camDot .flv 0, .close camDot true 0, .openRecording camBlank .flv secondS, .close camBlank true secondS]

theorem evidenceKept_apart : ∃ s : RecordDir, s.sessions.length = 2 ∧ s.EvidenceKept := by
  obtain ⟨s, hs, hp⟩ := (recordDirectory oneMinute 0).reachableWhen_of_exec_any (opensApart oneMinute)
    (oneAfterTheOther 1) (fun s => s.sessions.length == 2) (by decide)
  exact ⟨s, beq_iff_eq.mp hp, (evidenceKept_of_opensApart hs).1⟩

theorem not_evidenceKept_sameSecond : ¬∀ localtime startS s,
    (recordDirectory localtime startS).Reachable s → s.EvidenceKept := by
  intro h
  obtain ⟨s, hs, hp⟩ := (recordDirectory oneMinute 0).reachable_of_exec_any (oneAfterTheOther 0)
    (fun s => s.replaced == [(0, 1)]) (by decide)
  have hreplaced := (h oneMinute 0 s hs).replaced
  rw [beq_iff_eq.mp hp] at hreplaced
  cases hreplaced

end RecordDir

end MediaAgent
