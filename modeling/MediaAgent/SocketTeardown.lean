import MediaAgent.SocketThreads

/-!
# The connection that `recvLoop` closes

`disconnectSocket` closes whatever `fd_` names. Between a failure of `recvLoop` and its call of
`disconnectSocket` the failed connection can have been replaced, and the new one is closed in its place.
The connections made in the meantime are safe when no later connection is in `fd_` at the failure and
none is put there before the call.
-/

namespace MediaAgent
open Std TreeMaps Transition

/-- The connection that is open, if any, is not later than the one that failed. -/
def notLater (current failed : Option ConnId) : Bool :=
  match current, failed with
  | none, _ => true
  | some d, some c => decide (d ≤ c)
  | some _, none => false

/-- No later connection is in `fd_` when a read of `recvLoop` fails, ends or completes a malformed header,
and none is put there until `recvLoop` has called `disconnectSocket`; after the stop flag has been set
only the call that follows an earlier reading of the flag matters. -/
def disconnectsInTime (s : SocketState) : SocketAction → Bool
  | .sendLoop .turn =>
    match s.sendPc, s.recvPc with
    | .publishing fd, .failing failed => s.stopFlag || notLater s.descriptors[fd]? failed
    | .publishing fd, .disconnecting failed => notLater s.descriptors[fd]? failed
    | _, _ => true
  | .recvLoop .turn =>
    match s.recvPc with
    | .reading _ (.call fd named) =>
      s.descriptors.contains fd || s.stopFlag || notLater s.currentConnection named
    | _ => true
  | .recvLoop (.received bs) =>
    match s.recvPc with
    | .reading got (.blocked c) =>
      let frame := got ++ bs.map fun b => (c, b)
      !(frame.length == 8 && malformedHeader frame) || s.stopFlag || notLater s.currentConnection (some c)
    | _ => true
  | .recvLoop .failed =>
    match s.recvPc with
    | .reading _ (.blocked c) => s.stopFlag || notLater s.currentConnection (some c)
    | _ => true
  | _ => true

namespace SocketState

/-- A step of `recvLoop` closes a connection only after a failure that it met on that connection or on a
later one. -/
def ClosesOwn (s : SocketState) : Prop :=
  ∀ event t, s.recvStep event = some t → ∀ (fd : Nat) (d : ConnId), s.descriptors[fd]? = some d →
    t.descriptors[fd]? ≠ some d → ∃ c, s.recvPc = .disconnecting (some c) ∧ d ≤ c

/-- The failure that `recvLoop` is going to answer with `disconnectSocket`. -/
def Pending (s : SocketState) (failed : Option ConnId) : Prop :=
  (s.recvPc = .failing failed ∧ s.stopFlag = false) ∨ s.recvPc = .disconnecting failed

/-- While a failure is pending, no later connection is open under `fd_`. -/
def TeardownInv (s : SocketState) : Prop :=
  ∀ failed, s.Pending failed → notLater s.currentConnection failed = true

variable {s t : SocketState}

/-- A step that leaves the stop flag, `fd_` and `recvLoop` as they are. -/
lemma TeardownInv.congr (h : s.TeardownInv) (hdescriptors : t.descriptors = s.descriptors) (hfd : t.fd = s.fd)
    (hpc : t.recvPc = s.recvPc) (hstop : t.stopFlag = false → s.stopFlag = false) : t.TeardownInv := by
  intro failed hpending
  rw [currentConnection, hdescriptors, hfd]
  apply h failed
  rw [Pending, hpc] at hpending
  exact hpending.imp_left fun hfailing => ⟨hfailing.1, hstop hfailing.2⟩

/-- With no descriptor in `fd_` there is nothing to close. -/
lemma TeardownInv.of_none (h : t.currentConnection = none) : t.TeardownInv := by
  intro failed _
  rw [h]
  rfl

lemma disconnectSocket_currentConnection (s : SocketState) : s.disconnectSocket.currentConnection = none := by
  rw [disconnectSocket_eq]
  rfl

lemma TeardownInv.sendStep (h : s.TeardownInv) (hwf : s.Wf) {event : SendEvent}
    (hguard : disconnectsInTime s (.sendLoop event) = true) (hn : s.sendStep event = some t) :
    t.TeardownInv := by
  have hstop := (sendStep_reads hn).1
  rcases sendStep_cases hn with hquiet | ⟨fd, -, hpc, rfl⟩ | ⟨fd, rfl, hpc, rfl⟩ | ⟨-, rfl⟩
  · apply h.congr hquiet.descriptors hquiet.fd hquiet.recvPc
    rw [hstop]
    exact id
  · apply TeardownInv.of_none
    rw [currentConnection, hwf.reconnecting (.inl hpc)]
    rfl
  · -- the connection is put into `fd_`
    intro failed hpending
    have hcurrent : currentConnection { s with fd := some fd, connected := true, sendPc := .popping } =
        s.descriptors[fd]? := rfl
    rw [hcurrent]
    rcases hpending with hfailing | hdisconnecting
    · have hr : s.recvPc = .failing failed := hfailing.1
      have hs : s.stopFlag = false := hfailing.2
      simpa [disconnectsInTime, hpc, hr, hs] using hguard
    · have hr : s.recvPc = .disconnecting failed := hdisconnecting
      simpa [disconnectsInTime, hpc, hr] using hguard
  · exact .of_none s.disconnectSocket_currentConnection

/-- A failure is met where `fd_` is gone, where the number read from it is no longer open, where the header
is malformed, or where `recv` fails or finds the end of the stream. -/
lemma failing_cases {event : RecvEvent} {failed : Option ConnId} (hn : s.recvStep event = some t)
    (hpc : t.recvPc = .failing failed) : t = { s with recvPc := .failing failed } ∧
    (s.fd = none ∨
    (∃ got fd, event = .turn ∧ s.recvPc = .reading got (.call fd failed) ∧ s.descriptors[fd]? = none) ∨
    (∃ got c bs, event = .received bs ∧ s.recvPc = .reading got (.blocked c) ∧ failed = some c ∧
      (got ++ bs.map fun b => (c, b)).length = 8 ∧ malformedHeader (got ++ bs.map fun b => (c, b)) = true) ∨
    (∃ got c, event = .failed ∧ s.recvPc = .reading got (.blocked c) ∧ failed = some c)) := by
  unfold recvStep at hn
  split at hn
  · split at hn <;> cases hn <;> cases hpc
  · split at hn <;> cases hn <;> cases hpc
  · split at hn <;> cases hn <;> cases hpc
    rename_i hfd
    exact ⟨rfl, .inl hfd⟩
  · rename_i got fd named hr
    split at hn <;> cases hn <;> cases hpc
    rename_i hfd
    exact ⟨rfl, .inr (.inl ⟨got, fd, rfl, hr, hfd⟩)⟩
  · rename_i got c bs hr
    split at hn <;> cases hn
    unfold receive at hpc ⊢
    split at hpc
    · rename_i hbad
      cases hpc
      rw [if_pos hbad]
      exact ⟨rfl, .inr (.inr (.inl ⟨got, c, bs, rfl, hr, rfl, hbad.1, hbad.2⟩))⟩
    · split at hpc <;> cases hpc
  · cases hn
    cases hpc
  · rename_i got c hr
    cases hn
    cases hpc
    exact ⟨rfl, .inr (.inr (.inr ⟨got, c, rfl, hr, rfl⟩))⟩
  · split at hn <;> cases hn <;> cases hpc
  · cases hn
    cases hpc
  · cases hn

/-- `recvLoop` goes on to `disconnectSocket` after the failure that it has met. -/
lemma disconnecting_cases {event : RecvEvent} {failed : Option ConnId} (hn : s.recvStep event = some t)
    (hpc : t.recvPc = .disconnecting failed) :
    s.recvPc = .failing failed ∧ s.stopFlag = false ∧ t = { s with recvPc := .disconnecting failed } := by
  unfold recvStep at hn
  split at hn
  · split at hn <;> cases hn <;> cases hpc
  · split at hn <;> cases hn <;> cases hpc
  · split at hn <;> cases hn <;> cases hpc
  · split at hn <;> cases hn <;> cases hpc
  · split at hn <;> cases hn
    rename_i got c bs hr hsize
    rcases receive_cases s (got ++ bs.map fun b => (c, b)) c with he | he | he <;> rw [he] at hpc <;> cases hpc
  · cases hn
    cases hpc
  · cases hn
    cases hpc
  · rename_i hr
    split at hn <;> cases hn <;> cases hpc
    rename_i hstop
    exact ⟨hr, Bool.eq_false_iff.mpr hstop, rfl⟩
  · cases hn
    cases hpc
  · cases hn

/-- The condition, at the step that meets the failure. -/
lemma notLater_of_failing {event : RecvEvent} {failed : Option ConnId}
    (hguard : disconnectsInTime s (.recvLoop event) = true) (hn : s.recvStep event = some t)
    (hpc : t.recvPc = .failing failed) (hstop : s.stopFlag = false) :
    notLater s.currentConnection failed = true := by
  rcases (failing_cases hn hpc).2 with hfd | ⟨got, fd, rfl, hr, hfd⟩ | ⟨got, c, bs, rfl, hr, rfl, hsize, hbad⟩ |
    ⟨got, c, rfl, hr, rfl⟩
  · rw [currentConnection, hfd]
    rfl
  · have hclosed : s.descriptors.contains fd = false := by
      rw [TreeMap.contains_eq_isSome_getElem?, hfd]
      rfl
    simpa [disconnectsInTime, hr, hclosed, hstop] using hguard
  · simp only [disconnectsInTime, hr, hsize, hbad, hstop] at hguard
    simpa using hguard
  · simpa [disconnectsInTime, hr, hstop] using hguard

lemma TeardownInv.recvStep (h : s.TeardownInv) {event : RecvEvent}
    (hguard : disconnectsInTime s (.recvLoop event) = true) (hn : s.recvStep event = some t) :
    t.TeardownInv := by
  intro failed hpending
  rcases hpending with ⟨hfailing, hstop⟩ | hdisconnecting
  · rw [(recvStep_reads hn).1] at hstop
    have hle := notLater_of_failing hguard hn hfailing hstop
    rw [(failing_cases hn hfailing).1]
    exact hle
  · obtain ⟨hr, hstop, rfl⟩ := disconnecting_cases hn hdisconnecting
    exact h failed (.inl ⟨hr, hstop⟩)

lemma TeardownInv.next {maxSize : Nat} {a : SocketAction} (h : s.TeardownInv) (hwf : s.Wf)
    (hguard : disconnectsInTime s a = true) (hn : (socketSystem maxSize).next s a = some t) :
    t.TeardownInv := by
  cases a with
  | sendFrame data =>
    cases hn
    obtain ⟨queue, dropCount, accepted, he⟩ := s.sendFrame_eq data
    rw [he]
    exact h.congr rfl rfl rfl id
  | sendLoop event => exact h.sendStep hwf hguard hn
  | recvLoop event => exact h.recvStep hguard hn
  | stop =>
    simp only [socketSystem, stopStep] at hn
    split at hn <;> cases hn
    · exact h.congr rfl rfl rfl Bool.noConfusion
    · exact h.congr rfl rfl rfl id
    · exact .of_none s.disconnectSocket_currentConnection

lemma TeardownInv.init (maxSize : Nat) : TeardownInv { maxSize := maxSize } := .of_none rfl

/-- `recvLoop` closes something only by `disconnectSocket`, and then what `fd_` names. -/
lemma recvStep_closes {event : RecvEvent} {fd : Nat} {d : ConnId} (hn : s.recvStep event = some t)
    (hopen : s.descriptors[fd]? = some d) (hclosed : t.descriptors[fd]? ≠ some d) :
    (∃ failed, s.recvPc = .disconnecting failed) ∧ s.currentConnection = some d := by
  rcases recvStep_cases hn with ⟨pc, rfl, -⟩ | ⟨got, fd', -, -, rfl⟩ | ⟨got, fd', named, c, -, -, rfl⟩ |
    ⟨got, c, bs, -, -, -, -, rfl⟩ | ⟨got, c, -, -, rfl⟩ | ⟨failed, hpc, rfl⟩
  · exact absurd hopen hclosed
  · exact absurd hopen hclosed
  · exact absurd hopen hclosed
  · rcases receive_cases s (got ++ bs.map fun b => (c, b)) c with he | he | he <;> rw [he] at hclosed <;>
      exact absurd hopen hclosed
  · exact absurd hopen hclosed
  · refine ⟨⟨failed, hpc⟩, ?_⟩
    unfold disconnectSocket at hclosed
    split at hclosed
    · exact absurd hopen hclosed
    · rename_i fd' hfd
      dsimp only at hclosed
      rw [lookup_erase] at hclosed
      split at hclosed
      · rename_i he
        subst he
        rw [currentConnection, hfd]
        exact hopen
      · exact absurd hopen hclosed

lemma TeardownInv.closesOwn (h : s.TeardownInv) : s.ClosesOwn := by
  intro event t hn fd d hopen hclosed
  obtain ⟨⟨failed, hpc⟩, hcurrent⟩ := recvStep_closes hn hopen hclosed
  have hle := h failed (.inr hpc)
  rw [hcurrent] at hle
  cases failed with
  | none => cases hle
  | some c => exact ⟨c, hpc, of_decide_eq_true hle⟩

/-- The next step of `recvLoop` closes a connection that it has not failed on. -/
lemma not_closesOwn {failed : Option ConnId} (hpc : s.recvPc = .disconnecting failed)
    (hlater : notLater s.currentConnection failed = false) : ¬s.ClosesOwn := by
  intro hown
  have hn : s.recvStep .turn = some { s.disconnectSocket with recvPc := .loop } := by
    simp only [recvStep, hpc]
  cases hfd : s.fd with
  | none =>
    rw [currentConnection, hfd] at hlater
    cases hlater
  | some fd =>
    cases hd : s.descriptors[fd]? with
    | none =>
      rw [currentConnection, hfd, Option.bind_some, hd] at hlater
      cases hlater
    | some d =>
      have hclosed : ({ s.disconnectSocket with recvPc := .loop } : SocketState).descriptors[fd]? ≠ some d := by
        simp only [disconnectSocket, hfd, lookup_erase]
        simp
      obtain ⟨c, hc, hle⟩ := hown .turn _ hn fd d hd hclosed
      rw [hpc] at hc
      cases hc
      rw [currentConnection, hfd, Option.bind_some, hd] at hlater
      exact absurd hle (of_decide_eq_false hlater)

variable {maxSize : Nat}

/-- With the stop flag down `recvLoop` goes on to close the connection. -/
lemma exists_not_closesOwn {failed : Option ConnId} (hpc : s.recvPc = .failing failed)
    (hstop : s.stopFlag = false) (hlater : notLater s.currentConnection failed = false) :
    ∃ u, (socketSystem maxSize).Runs s u ∧ ¬u.ClosesOwn := by
  refine ⟨{ s with recvPc := .disconnecting failed }, ?_, ?_⟩
  · apply Machine.Runs.next (a := .recvLoop .turn) .refl
    simp [socketSystem, recvStep, hpc, hstop]
  · exact not_closesOwn rfl hlater

/-- A connection is put into `fd_` too late. -/
lemma exists_not_closesOwn_of_publish {event : SendEvent} (hbad : disconnectsInTime s (.sendLoop event) = false)
    (hn : s.sendStep event = some t) : ∃ u, (socketSystem maxSize).Runs t u ∧ ¬u.ClosesOwn := by
  cases event with
  | turn =>
    dsimp only [disconnectsInTime] at hbad
    split at hbad
    · rename_i fd failed hpc hr
      simp only [sendStep, hpc, Option.some.injEq] at hn
      subst hn
      rw [Bool.or_eq_false_iff] at hbad
      exact exists_not_closesOwn hr hbad.1 hbad.2
    · rename_i fd failed hpc hr
      simp only [sendStep, hpc, Option.some.injEq] at hn
      subst hn
      exact ⟨_, .refl, not_closesOwn hr hbad⟩
    · cases hbad
  | _ => cases hbad

/-- `recvLoop` meets a failure too late. -/
lemma exists_not_closesOwn_of_failure {event : RecvEvent} (hbad : disconnectsInTime s (.recvLoop event) = false)
    (hn : s.recvStep event = some t) : ∃ u, (socketSystem maxSize).Runs t u ∧ ¬u.ClosesOwn := by
  have hfailed : ∃ failed, t = { s with recvPc := .failing failed } ∧ s.stopFlag = false ∧
      notLater s.currentConnection failed = false := by
    cases event with
    | turn =>
      dsimp only [disconnectsInTime] at hbad
      split at hbad
      · rename_i got fd named hr
        simp only [Bool.or_eq_false_iff] at hbad
        obtain ⟨⟨hclosed, hstop⟩, hlater⟩ := hbad
        have hnone : s.descriptors[fd]? = none := TreeMap.getElem?_eq_none_of_contains_eq_false hclosed
        simp only [recvStep, hr, hnone, Option.some.injEq] at hn
        exact ⟨named, hn.symm, hstop, hlater⟩
      · cases hbad
    | received bs =>
      dsimp only [disconnectsInTime] at hbad
      split at hbad
      · rename_i got c hr
        simp only [Bool.or_eq_false_iff, Bool.not_eq_false', Bool.and_eq_true, beq_iff_eq] at hbad
        obtain ⟨⟨hheader, hstop⟩, hlater⟩ := hbad
        simp only [recvStep, hr, Option.ite_none_right_eq_some, Option.some.injEq] at hn
        rw [receive, if_pos hheader] at hn
        exact ⟨some c, hn.2.symm, hstop, hlater⟩
      · cases hbad
    | failed =>
      dsimp only [disconnectsInTime] at hbad
      split at hbad
      · rename_i got c hr
        rw [Bool.or_eq_false_iff] at hbad
        simp only [recvStep, hr, Option.some.injEq] at hn
        exact ⟨some c, hn.symm, hbad.1, hbad.2⟩
      · cases hbad
    | interrupted => cases hbad
  obtain ⟨failed, rfl, hstop, hlater⟩ := hfailed
  exact exists_not_closesOwn rfl hstop hlater

end SocketState

/-- As long as `recvLoop` disconnects in time it closes no connection that is later than the one it has
failed on; every step that is not in time leads on to such a closing. -/
theorem closesOwn_of_disconnectsInTime (maxSize : Nat) :
    (∀ s, (socketSystem maxSize).ReachableWhen (fun s a => disconnectsInTime s a = true) s → s.ClosesOwn) ∧
    ∀ s a t, (socketSystem maxSize).next s a = some t → disconnectsInTime s a = false →
      ∃ u, (socketSystem maxSize).Runs t u ∧ ¬u.ClosesOwn := by
  constructor
  · intro s h
    have hinv : s.TeardownInv := by
      apply h.invariant_of fun t ht => socket_wf_reachable (Machine.ReachableWhen.reachable ht)
      · exact SocketState.TeardownInv.init maxSize
      · intro t a u hwf ht hguard hn
        exact ht.next hwf hguard hn
    exact hinv.closesOwn
  · intro s a t hn hbad
    cases a with
    | sendLoop event => exact SocketState.exists_not_closesOwn_of_publish hbad hn
    | recvLoop event => exact SocketState.exists_not_closesOwn_of_failure hbad hn
    | sendFrame data => cases hbad
    | stop => cases hbad

/-- `recvLoop` finds the end of the only connection and closes it; a second connection that `sendLoop` is
about to publish then is closed in its place. -/
theorem closesOwn_of_disconnectsInTime_restart :
    (∃ s, (socketSystem 1).ReachableWhen (fun s a => disconnectsInTime s a = true) s ∧
      s.recvPc = .disconnecting (some 0) ∧ s.currentConnection = some 0 ∧ s.ClosesOwn) ∧
    ∃ s t u, (socketSystem 1).Reachable s ∧ (socketSystem 1).next s (.sendLoop .turn) = some t ∧
      disconnectsInTime s (.sendLoop .turn) = false ∧ (socketSystem 1).Runs t u ∧ ¬u.ClosesOwn := by
  obtain ⟨s, hs, hp⟩ := Machine.reachableWhen_of_exec_any (socketSystem 1) disconnectsInTime
    [.sendLoop .turn, .sendLoop .turn, .sendLoop (.connected 5), .sendLoop .turn, .recvLoop .turn,
      .recvLoop .turn, .recvLoop .turn, .recvLoop .turn, .recvLoop .failed, .recvLoop .turn]
    (fun s => decide (s.recvPc = .disconnecting (some 0)) && decide (s.currentConnection = some 0)) (by decide)
  obtain ⟨r, hr, hq⟩ := Machine.reachable_of_exec_any (socketSystem 1)
    [.sendFrame [9], .sendLoop .turn, .sendLoop .turn, .sendLoop (.connected 5), .sendLoop .turn,
      .recvLoop .turn, .recvLoop .turn, .recvLoop .turn, .recvLoop .turn, .recvLoop .failed,
      .sendLoop .turn, .sendLoop .turn, .sendLoop .turn, .sendLoop .failed, .sendLoop .turn,
      .sendLoop .turn, .sendLoop .turn, .sendLoop (.connected 5)]
    (fun r => ((socketSystem 1).next r (.sendLoop .turn)).isSome && !disconnectsInTime r (.sendLoop .turn)) (by decide)
  rw [Bool.and_eq_true, decide_eq_true_iff, decide_eq_true_iff] at hp
  rw [Bool.and_eq_true, Bool.not_eq_true'] at hq
  obtain ⟨t, ht⟩ := Option.isSome_iff_exists.mp hq.1
  obtain ⟨u, hu, hlater⟩ := (closesOwn_of_disconnectsInTime 1).2 r (.sendLoop .turn) t ht hq.2
  exact ⟨⟨s, hs, hp.1, hp.2, (closesOwn_of_disconnectsInTime 1).1 s hs⟩, r, t, u, hr, ht, hq.2, hu, hlater⟩

/-- The peer closes the first connection and `sendLoop` makes a second one before `recvLoop`, which has
found the end of the first, calls `disconnectSocket`. -/
theorem not_closesOwn_after_restart : ∃ s, (socketSystem 1).Reachable s ∧
    s.recvPc = .disconnecting (some 0) ∧ s.currentConnection = some 1 ∧ ¬s.ClosesOwn := by
  obtain ⟨s, hs, hp⟩ := Machine.reachable_of_exec_any (socketSystem 1)
    [.sendFrame [9], .sendLoop .turn, .sendLoop .turn, .sendLoop (.connected 5), .sendLoop .turn,
      .recvLoop .turn, .recvLoop .turn, .recvLoop .turn, .recvLoop .turn, .recvLoop .failed,
      .sendLoop .turn, .sendLoop .turn, .sendLoop .turn, .sendLoop .failed, .sendLoop .turn,
      .sendLoop .turn, .sendLoop .turn, .sendLoop (.connected 5), .sendLoop .turn, .recvLoop .turn]
    (fun s => decide (s.recvPc = .disconnecting (some 0)) && decide (s.currentConnection = some 1)) (by decide)
  rw [Bool.and_eq_true, decide_eq_true_iff, decide_eq_true_iff] at hp
  obtain ⟨hpc, hcurrent⟩ := hp
  refine ⟨s, hs, hpc, hcurrent, SocketState.not_closesOwn hpc ?_⟩
  rw [hcurrent]
  rfl

end MediaAgent
