import MediaAgent.Library.ConditionVariable
import MediaAgent.Shutdown

/-!
# The wait of the config thread

The wait of `Pipeline::mainLoop` on `config_cv_`, over the threads of the pipeline. `handleSocketConfig` and
`requestAsyncStopStream` change what it waits for under `config_mutex_` and call `notify_one` after they have unlocked it.
`Pipeline::stop` takes no lock when it raises the stop flag and when it calls `notify_all`: both may fall between the
moment when the config thread has read the flag and the moment when it blocks.
-/

namespace MediaAgent
open Std TreeMaps Transition ConditionVariable

/-- The threads of the pipeline, the configurations that the config thread took last, and whether `stop` has notified it. -/
structure MainLoopState where
  shutdown : ShutdownState := {}
  taken : Option (TreeMap Int AgentConfig) := none
  notified : Bool := false

inductive MainLoopAction
  | step (action : ShutdownAction)
  | notifyAll

namespace MainLoopState

/-- `configs = configs_`, when there is an update. -/
def takenAfter (s : MainLoopState) : ShutdownAction → Option (TreeMap Int AgentConfig)
  | .thread .wake => if s.shutdown.threads.hasPendingConfig then some s.shutdown.threads.configs else s.taken
  | _ => s.taken

/-- `stop` notifies the waiting threads after it has raised the flag, and goes on when it has. -/
def enables (s : MainLoopState) : ShutdownAction → Bool
  | .stop => s.shutdown.stopPc != .stoppingScheduler || s.notified
  | _ => true

end MainLoopState

/-- The pipeline of an agent from `start` to the return of `stop`, with the `notify_all` of `stop`. -/
def mainLoopSystem (same : SameProtoMessage) (agentId : Bytes) : Machine MainLoopState MainLoopAction where
  init := {}
  next s
    | .step a =>
      if s.enables a then
        ((shutdownSystem same agentId).next s.shutdown a).map fun shutdown =>
          { s with shutdown := shutdown, taken := s.takenAfter a }
      else none
    | .notifyAll =>
      if s.shutdown.stopPc = .stoppingScheduler ∧ s.notified = false then some { s with notified := true } else none

/-- The places of the config thread: the predicate reads the flag and then, under the mutex, the two fields; the flag is read
again when the wait is over. -/
inductive ConfigLook
  | flag
  | pending
  | flagAgain
  | failed
  deriving DecidableEq, Repr

/-- The second half of the predicate. -/
def ThreadedState.hasWork (s : ThreadedState) : Bool := s.hasPendingConfig || !s.pendingStopStreams.isEmpty

/-- `handleSocketConfig` returns before it takes the mutex. -/
def ignoresConfig (agentId : Bytes) (cfg : AgentConfig) : Bool := !cfg.agentId.isEmpty && cfg.agentId != agentId

/-- `stop` takes `config_mutex_` when it swaps the pending stops out and when it clears the configurations. -/
def ShutdownPc.locksConfig : ShutdownPc → Bool
  | .swappingPending _ | .clearing => true
  | _ => false

def mainLoopMonitor (same : SameProtoMessage) (agentId : Bytes) : Monitor (mainLoopSystem same agentId) Unit ConfigLook where
  start := .flag
  look _ p s :=
    match p with
    | .flag => if s.shutdown.stopFlag then .taken (.step .exitMain) else .next .pending
    | .pending => if s.shutdown.threads.hasWork then .next .flagAgain else .next .failed
    | .flagAgain => if s.shutdown.stopFlag then .taken (.step .exitMain) else .taken (.step (.thread .wake))
    | .failed => .wait
  role a s :=
    match a with
    | .step (.thread .wake) | .step .exitMain => .waiter
    | .step (.thread (.config _)) => .between
    | .step (.thread (.socketConfig cfg)) => if ignoresConfig agentId cfg then .unlocked else .locked
    | .step (.thread (.requestPush _)) => .locked
    | .step (.thread (.requestExchange _)) | .step (.thread (.requestErase _)) | .notifyAll => .unlocked
    | .step .stop => if s.shutdown.stopPc.locksConfig then .locked else .unlocked
  notice a _ :=
    match a with
    | .step (.thread (.socketConfig cfg)) => if ignoresConfig agentId cfg then .nobody else .oneLater
    | .step (.thread (.requestPush _)) => .oneLater
    | .notifyAll => .everybody
    | _ => .nobody
  enters _ inside s := inside = 0 && s.shutdown.threads.configThread.isEmpty && !s.shutdown.mainExited
  lockedDelivery := false
  waiter_of_taken k p s a h := by
    cases p with
    | flag | flagAgain =>
      dsimp only at h
      split at h <;> cases h <;> rfl
    | pending =>
      dsimp only at h
      split at h <;> cases h
    | failed => cases h

/-! ## What the threads do to the fields that the config thread waits for -/

namespace ThreadedState

variable {s t : ThreadedState}

/-- What a step of another thread leaves of the fields under `config_mutex_`. -/
lemma next_config_fields {same : SameProtoMessage} {agentId : Bytes} {a : ThreadAction}
    (hn : (threadSystem same agentId).next s a = some t) (hwake : a ≠ .wake) (hconfig : ∀ ready, a ≠ .config ready) :
    t.configThread = s.configThread ∧
      (t.hasPendingConfig = s.hasPendingConfig ∧ t.configs = s.configs ∧
          (t.pendingStopStreams = s.pendingStopStreams ∨ ∃ c, a = .requestPush c) ∨
        t.hasPendingConfig = true ∧ ∃ cfg, a = .socketConfig cfg ∧ ignoresConfig agentId cfg = false) := by
  cases a with
  | wake => exact absurd rfl hwake
  | config ready => exact absurd rfl (hconfig ready)
  | socketConfig cfg =>
    cases hn
    unfold ThreadedState.handleSocketConfig
    split
    · exact ⟨rfl, .inl ⟨rfl, rfl, .inl rfl⟩⟩
    · rename_i htaken
      exact ⟨rfl, .inr ⟨rfl, cfg, rfl, Bool.eq_false_iff.mpr htaken⟩⟩
  | requestExchange c =>
    rcases requestExchange_cases hn with rfl | ⟨-, -, -, rfl⟩ <;> exact ⟨rfl, .inl ⟨rfl, rfl, .inl rfl⟩⟩
  | requestErase c =>
    rw [(requestErase_cases hn).2]
    exact ⟨rfl, .inl ⟨rfl, rfl, .inl rfl⟩⟩
  | requestPush c =>
    rw [(requestPush_cases hn).2]
    exact ⟨rfl, .inl ⟨rfl, rfl, .inr ⟨c, rfl⟩⟩⟩

/-- The config thread has taken what there was. -/
lemma hasWork_wake (hn : s.wake = some t) : s.hasWork = true ∧ t.hasWork = false := by
  unfold ThreadedState.wake at hn
  obtain ⟨hwork, hn⟩ := Option.ite_none_right_eq_some.mp hn
  cases hn
  exact ⟨hwork, rfl⟩

/-- A context whose stop has been requested is stopped, or a thread has it to do. -/
def StopsAccounted (s : ThreadedState) : Prop :=
  ∀ c ∈ s.requested, (s.requests[c]?).isSome = true ∨ c ∈ s.pendingStopStreams ∨
    (∃ step, .stop step c ∈ s.configThread) ∨ c ∈ s.pipeline.stopped

lemma StopsAccounted.config (h : s.StopsAccounted) (hwf : s.Wf) {same : SameProtoMessage} {ready : Bool} {op : ConfigOp}
    {rest : List ConfigOp} (hthread : s.configThread = op :: rest) (hn : s.runConfigOp same ready op rest = some t) :
    t.StopsAccounted := by
  intro c hc
  have ht := runConfigOp_eq hn
  obtain ⟨hstopped, hrest⟩ := runConfigOp_keeps (k := c) hn
  rw [ht] at hc ⊢
  rcases h c hc with hrequest | hpending | ⟨step, hstep⟩ | hdone
  · exact .inl hrequest
  · exact .inr (.inl hpending)
  · rw [hthread] at hstep
    rcases List.mem_cons.mp hstep with rfl | hlater
    · -- the step is made, and leaves the next one or a stopped context
      obtain ⟨u, hu, rfl⟩ := Option.map_eq_some_iff.mp hn
      rcases stopStep_last (hwf.built _ (hthread ▸ List.mem_cons_self ..) c rfl) hu with hlast | ⟨step', hnext⟩
      · exact .inr (.inr (.inr hlast))
      · exact .inr (.inr (.inl ⟨step', by simp [hnext]⟩))
    · exact .inr (.inr (.inl ⟨step, hrest _ hlater⟩))
  · exact .inr (.inr (.inr (hstopped hdone)))

lemma StopsAccounted.next (h : s.StopsAccounted) (hwf : s.Wf) {same : SameProtoMessage} {agentId : Bytes}
    {a : ThreadAction} (hn : (threadSystem same agentId).next s a = some t) : t.StopsAccounted := by
  cases a with
  | socketConfig cfg =>
    cases hn
    rcases handleSocketConfig_cases s agentId cfg with he | he <;> rw [he] <;> exact h
  | wake =>
    obtain ⟨hidle, hn⟩ := next_wake hn
    rw [wake_cases hn]
    intro c hc
    rcases h c hc with hrequest | hpending | ⟨step, hstep⟩ | hdone
    · exact .inl hrequest
    · refine .inr (.inr (.inl ⟨.raiseFlag, ?_⟩))
      exact List.mem_append_left _ (List.mem_map_of_mem hpending)
    · rw [hidle] at hstep
      cases hstep
    · exact .inr (.inr (.inr hdone))
  | config ready =>
    obtain ⟨op, rest, hthread, hn⟩ := next_config hn
    exact h.config hwf hthread hn
  | requestExchange c =>
    rcases requestExchange_cases hn with rfl | ⟨-, -, -, rfl⟩
    · exact h
    · intro k hk
      by_cases hck : c = k
      · exact .inl (by simp [hck])
      · have hbefore : k ∈ s.requested := by
          rcases List.mem_append.mp hk with hk | hk
          · exact hk
          · exact absurd (List.mem_singleton.mp hk).symm hck
        simpa [lookup_insert, hck] using h k hbefore
  | requestErase c =>
    rw [(requestErase_cases hn).2]
    intro k hk
    by_cases hck : c = k
    · exact .inl (by simp [hck])
    · simpa [lookup_insert, hck] using h k hk
  | requestPush c =>
    rw [(requestPush_cases hn).2]
    intro k hk
    by_cases hck : c = k
    · exact .inr (.inl (by simp [hck]))
    · rcases h k hk with hrequest | hpending | hrest
      · exact .inl (by simpa [lookup_erase, hck] using hrequest)
      · exact .inr (.inl (List.mem_append_left _ hpending))
      · exact .inr (.inr hrest)

lemma stopsAccounted_reachable {same : SameProtoMessage} {agentId : Bytes} (h : (threadSystem same agentId).Reachable s) :
    s.StopsAccounted :=
  h.invariant_of (I := StopsAccounted) (fun _ ht => wf_reachable ht) (fun _ hc => absurd hc List.not_mem_nil)
    fun _ _ _ hwf ht _ hn => ht.next hwf hn

end ThreadedState

/-- Once `stop` has begun the flag stays up; it leaves the steps of the config thread alone. -/
lemma ShutdownState.stop_keeps {s t : ShutdownState} (hn : s.stop = some t)
    (hflag : s.stopPc ≠ .running → s.stopFlag = true) : t.stopFlag = true ∧ t.stopPc ≠ .running ∧
      t.threads.configThread = s.threads.configThread ∧ t.mainExited = s.mainExited := by
  unfold ShutdownState.stop at hn
  cases hpc : s.stopPc with
  | running =>
    rw [hpc] at hn
    cases hn
    exact ⟨rfl, ShutdownPc.noConfusion, rfl, rfl⟩
  | stopping calls =>
    rw [hpc] at hn hflag
    cases calls with
    | nil =>
      cases hn
      exact ⟨hflag ShutdownPc.noConfusion, ShutdownPc.noConfusion, rfl, rfl⟩
    | cons call calls =>
      obtain ⟨threads, hthreads, rfl⟩ := Option.map_eq_some_iff.mp hn
      refine ⟨hflag ShutdownPc.noConfusion, ShutdownPc.noConfusion, ?_, rfl⟩
      rw [ThreadedState.stopStep_eq hthreads]
  | joining =>
    rw [hpc] at hn hflag
    obtain ⟨-, hn⟩ := Option.ite_none_right_eq_some.mp hn
    cases hn
    exact ⟨hflag ShutdownPc.noConfusion, ShutdownPc.noConfusion, rfl, rfl⟩
  | returned =>
    rw [hpc] at hn
    cases hn
  | stoppingScheduler | swappingStreams | swappingPending streams | clearing =>
    rw [hpc] at hn hflag
    cases hn
    exact ⟨hflag ShutdownPc.noConfusion, ShutdownPc.noConfusion, rfl, rfl⟩

section
variable {same : SameProtoMessage} {agentId : Bytes}

/-- A step of the pipeline, with the thread that makes it. -/
lemma shutdown_next_cases {s t : ShutdownState} {a : ShutdownAction} (hn : (shutdownSystem same agentId).next s a = some t) :
    (∃ action threads, a = .thread action ∧ s.enables action = true ∧
        (threadSystem same agentId).next s.threads action = some threads ∧ t = { s with threads := threads }) ∨
      a = .exitMain ∧ s.stopFlag = true ∧ t = { s with mainExited := true } ∨ a = .stop ∧ s.stop = some t := by
  cases a with
  | thread action =>
    obtain ⟨henabled, hn⟩ := Option.ite_none_right_eq_some.mp hn
    obtain ⟨threads, hthreads, rfl⟩ := Option.map_eq_some_iff.mp hn
    exact .inl ⟨action, threads, rfl, henabled, hthreads, rfl⟩
  | exitMain =>
    have hn : s.exitMain = some t := hn
    unfold ShutdownState.exitMain at hn
    split at hn
    · obtain ⟨hflag, hn⟩ := Option.ite_none_right_eq_some.mp hn
      exact .inr (.inl ⟨rfl, hflag, (Option.some.inj hn).symm⟩)
    · cases hn
  | stop => exact .inr (.inr ⟨rfl, hn⟩)

namespace MainLoopState

variable {s t : MainLoopState}

lemma next_step {a : ShutdownAction} (hn : (mainLoopSystem same agentId).next s (.step a) = some t) :
    ∃ shutdown, (shutdownSystem same agentId).next s.shutdown a = some shutdown ∧
      t = { s with shutdown := shutdown, taken := s.takenAfter a } := by
  obtain ⟨-, hn⟩ := Option.ite_none_right_eq_some.mp hn
  obtain ⟨shutdown, hshutdown, rfl⟩ := Option.map_eq_some_iff.mp hn
  exact ⟨shutdown, hshutdown, rfl⟩

lemma next_notifyAll (hn : (mainLoopSystem same agentId).next s .notifyAll = some t) :
    s.shutdown.stopPc = .stoppingScheduler ∧ t = { s with notified := true } := by
  obtain ⟨hpc, hn⟩ := Option.ite_none_right_eq_some.mp hn
  exact ⟨hpc.1, (Option.some.inj hn).symm⟩

variable (same agentId)

/-- Until `stop` begins the threads run as before, and the config thread has taken the configurations that are there, or
is told of them. -/
structure Inv (s : MainLoopState) : Prop where
  running : s.shutdown.stopFlag = false ↔ s.shutdown.stopPc = .running
  threads : s.shutdown.stopPc = .running → (threadSystem same agentId).Reachable s.shutdown.threads
  taken : s.shutdown.stopPc = .running → s.shutdown.threads.hasPendingConfig = false →
    s.taken = some s.shutdown.threads.configs ∨ s.taken = none ∧ s.shutdown.threads.configs = ∅
  notified : s.notified = true → s.shutdown.stopFlag = true

variable {same agentId}

lemma Inv.flag (h : Inv same agentId s) (hpc : s.shutdown.stopPc ≠ .running) : s.shutdown.stopFlag = true := by
  by_contra hflag
  exact hpc (h.running.mp (Bool.not_eq_true _ ▸ hflag))

lemma Inv.thread (h : Inv same agentId s) {action : ThreadAction} {threads : ThreadedState}
    (hn : (threadSystem same agentId).next s.shutdown.threads action = some threads) :
    Inv same agentId { s with
      shutdown := { s.shutdown with threads := threads }, taken := s.takenAfter (.thread action) } := by
  refine ⟨h.running, fun hpc => (h.threads hpc).next hn, fun hpc hidle => ?_, h.notified⟩
  dsimp only at hpc hidle ⊢
  by_cases hwake : action = .wake
  · subst hwake
    rw [ThreadedState.wake_cases (ThreadedState.next_wake hn).2]
    unfold takenAfter
    dsimp only
    split
    · exact .inl rfl
    · exact h.taken hpc (Bool.eq_false_iff.mpr ‹_›)
  · have htaken : s.takenAfter (.thread action) = s.taken := by
      cases action with
      | wake => contradiction
      | _ => rfl
    rw [htaken]
    by_cases hconfig : ∃ ready, action = .config ready
    · obtain ⟨ready, rfl⟩ := hconfig
      obtain ⟨op, rest, -, hop⟩ := ThreadedState.next_config hn
      rw [ThreadedState.runConfigOp_eq hop] at hidle ⊢
      exact h.taken hpc hidle
    · rcases (ThreadedState.next_config_fields hn hwake (not_exists.mp hconfig)).2 with
        ⟨hpending, hconfigs, -⟩ | ⟨hpending, -⟩
      · rw [hconfigs]
        exact h.taken hpc (hpending ▸ hidle)
      · rw [hpending] at hidle
        cases hidle

lemma Inv.next (h : Inv same agentId s) {a : MainLoopAction} (hn : (mainLoopSystem same agentId).next s a = some t) :
    Inv same agentId t := by
  cases a with
  | step a =>
    obtain ⟨shutdown, hshutdown, rfl⟩ := next_step hn
    rcases shutdown_next_cases hshutdown with ⟨action, threads, rfl, -, hthreads, rfl⟩ | ⟨rfl, hflag, rfl⟩ | ⟨rfl, hstop⟩
    · exact h.thread hthreads
    · exact ⟨h.running, h.threads, h.taken, h.notified⟩
    · obtain ⟨hflag, hpc, -, -⟩ := ShutdownState.stop_keeps hstop h.flag
      exact ⟨by simp [hflag, hpc], fun hrunning => absurd hrunning hpc, fun hrunning => absurd hrunning hpc, fun _ => hflag⟩
  | notifyAll =>
    obtain ⟨hpc, rfl⟩ := next_notifyAll hn
    exact ⟨h.running, h.threads, h.taken, fun _ => h.flag (by simp [hpc])⟩

lemma inv_reachable (h : (mainLoopSystem same agentId).Reachable s) : Inv same agentId s :=
  h.invariant (I := Inv same agentId)
    ⟨by simp [mainLoopSystem], fun _ => .refl, fun _ _ => .inr ⟨rfl, rfl⟩, fun h => absurd h Bool.false_ne_true⟩
    fun _ _ _ ht _ hn => ht.next hn

/-- Another thread leaves the turn of the config thread alone. -/
lemma Inv.config_keeps (h : Inv same agentId s) {a : MainLoopAction} (hn : (mainLoopSystem same agentId).next s a = some t)
    (hothers : (mainLoopMonitor same agentId).role a s = .locked ∨ (mainLoopMonitor same agentId).role a s = .unlocked) :
    t.shutdown.threads.configThread = s.shutdown.threads.configThread ∧
      t.shutdown.mainExited = s.shutdown.mainExited := by
  cases a with
  | step a =>
    obtain ⟨shutdown, hshutdown, rfl⟩ := next_step hn
    rcases shutdown_next_cases hshutdown with ⟨action, threads, rfl, -, hthreads, rfl⟩ | ⟨rfl, -, rfl⟩ | ⟨rfl, hstop⟩
    · refine ⟨(ThreadedState.next_config_fields hthreads ?_ ?_).1, rfl⟩
      · rintro rfl
        simp [mainLoopMonitor] at hothers
      · rintro ready rfl
        simp [mainLoopMonitor] at hothers
    · simp [mainLoopMonitor] at hothers
    · exact (ShutdownState.stop_keeps hstop h.flag).2.2
  | notifyAll =>
    obtain ⟨-, rfl⟩ := next_notifyAll hn
    exact ⟨rfl, rfl⟩

def work (s : MainLoopState) : Nat := s.shutdown.threads.hasWork.toNat

lemma work_le_one (s : MainLoopState) : s.work ≤ 1 := Bool.toNat_le _

/-- Another thread that leaves work where there was none calls `notify_one`, unless the stop flag is up. -/
lemma Inv.op_work (h : Inv same agentId s) {a : MainLoopAction} (hn : (mainLoopSystem same agentId).next s a = some t)
    (hothers : (mainLoopMonitor same agentId).role a s = .locked ∨ (mainLoopMonitor same agentId).role a s = .unlocked) :
    t.shutdown.stopFlag = true ∨ s.shutdown.stopFlag ≠ true ∧
      (t.work ≤ s.work ∨ (mainLoopMonitor same agentId).role a s = .locked ∧
        (mainLoopMonitor same agentId).notice a s = .oneLater) := by
  cases a with
  | step a =>
    obtain ⟨shutdown, hshutdown, rfl⟩ := next_step hn
    rcases shutdown_next_cases hshutdown with ⟨action, threads, rfl, -, hthreads, rfl⟩ | ⟨rfl, -, rfl⟩ | ⟨rfl, hstop⟩
    · by_cases hflag : s.shutdown.stopFlag = true
      · exact .inl hflag
      refine .inr ⟨hflag, ?_⟩
      have hfields := (ThreadedState.next_config_fields hthreads
        (by rintro rfl; simp [mainLoopMonitor] at hothers) (by rintro ready rfl; simp [mainLoopMonitor] at hothers)).2
      rcases hfields with ⟨hpending, -, hstops | ⟨c, rfl⟩⟩ | ⟨-, cfg, rfl, htaken⟩
      · refine .inl (Nat.le_of_eq ?_)
        simp only [work, ThreadedState.hasWork, hpending, hstops]
      · exact .inr ⟨rfl, rfl⟩
      · exact .inr (by simp [mainLoopMonitor, htaken])
    · simp [mainLoopMonitor] at hothers
    · exact .inl (ShutdownState.stop_keeps hstop h.flag).1
  | notifyAll =>
    obtain ⟨hpc, rfl⟩ := next_notifyAll hn
    exact .inl (h.flag (by simp [hpc]))

variable (same agentId)

/-- The flag is read twice, and what has been taken away from the config thread when it fails is nothing. -/
def counted : Counted (mainLoopMonitor same agentId) where
  work := work
  missed _ p s :=
    match p with
    | .failed => s.work
    | _ => 0
  closed s := s.shutdown.stopFlag = true
  missed_start _ _ := rfl
  next s k p p' _ hlook := by
    cases p with
    | flag | flagAgain =>
      simp only [mainLoopMonitor] at hlook
      split at hlook <;> cases hlook <;> exact Nat.le_refl _
    | pending =>
      simp only [mainLoopMonitor] at hlook
      split at hlook <;> cases hlook
      · exact Nat.le_refl _
      · rename_i hnone
        simp [work, hnone]
    | failed => cases hlook
  wait s k p _ hlook := by
    cases p with
    | failed => exact Nat.le_refl _
    | _ =>
      simp only [mainLoopMonitor] at hlook
      split at hlook <;> cases hlook
  taken s s' k p a _ hlook hn := by
    have hexit : ∀ s', (mainLoopSystem same agentId).next s (.step .exitMain) = some s' → s'.shutdown.stopFlag = true := by
      intro s' hn
      obtain ⟨shutdown, hshutdown, rfl⟩ := next_step hn
      rcases shutdown_next_cases hshutdown with ⟨action, threads, he, -⟩ | ⟨-, hflag, rfl⟩ | ⟨he, -⟩
      · cases he
      · exact hflag
      · cases he
    cases p with
    | flag =>
      simp only [mainLoopMonitor] at hlook
      split at hlook <;> cases hlook
      exact .inl (hexit s' hn)
    | flagAgain =>
      simp only [mainLoopMonitor] at hlook
      split at hlook <;> cases hlook
      · exact .inl (hexit s' hn)
      · rename_i hflag
        obtain ⟨shutdown, hshutdown, rfl⟩ := next_step hn
        rcases shutdown_next_cases hshutdown with ⟨action, threads, he, -, hthreads, rfl⟩ | ⟨he, -⟩ | ⟨he, -⟩
        · cases he
          obtain ⟨hbefore, hafter⟩ := ThreadedState.hasWork_wake (ThreadedState.next_wake hthreads).2
          exact .inr ⟨hflag, by simp [work, hbefore, hafter]⟩
        · cases he
        · cases he
    | pending =>
      simp only [mainLoopMonitor] at hlook
      split at hlook <;> cases hlook
    | failed => cases hlook
  op s s' a hr hn hothers _ := by
    rcases (inv_reachable hr).op_work hn hothers with hclosed | ⟨hopen, hle | ⟨-, hnotice⟩⟩
    · exact .inl hclosed
    · exact .inr (.inr ⟨hopen, by omega⟩)
    · have hone := s'.work_le_one
      rw [hnotice]
      exact .inr (.inr ⟨hopen, by simp only [Notice.due]; omega⟩)
  unlocked s s' a hr hn hrole := by
    rcases (inv_reachable hr).op_work hn (.inr hrole) with hclosed | ⟨hopen, hle | ⟨hlocked, -⟩⟩
    · exact .inl hclosed
    · refine .inr ⟨hopen, fun k p => ?_⟩
      cases p with
      | failed => exact hle
      | _ => exact Nat.zero_le _
    · rw [hrole] at hlocked
      cases hlocked

def announced : Announced (mainLoopMonitor same agentId) where
  announced s := s.notified = true
  at_init := Bool.false_ne_true
  told s s' a _ hn hnotified := by
    cases a with
    | step a =>
      obtain ⟨shutdown, -, rfl⟩ := next_step hn
      exact .inl hnotified
    | notifyAll => exact .inr (.inr ⟨Role.noConfusion, rfl⟩)
  seen s k hr hnotified := ⟨.step .exitMain, by simp [mainLoopMonitor, (inv_reachable hr).notified hnotified]⟩

end MainLoopState

/-- What there is for the config thread to do has been done. -/
structure MainLoopState.Settled (s : MainLoopState) : Prop where
  idle : s.shutdown.threads.configThread = []
  configs : s.taken = some s.shutdown.threads.configs ∨ s.taken = none ∧ s.shutdown.threads.configs = ∅
  stops : ∀ c ∈ s.shutdown.threads.requested,
    c ∈ s.shutdown.threads.pipeline.stopped ∨ (s.shutdown.threads.requests[c]?).isSome = true

/-- While the config thread is blocked and no `notify_one` is still to be called, it has applied the configurations as
they are and carried out every stop whose request is over, unless the stop flag is up. A `notify_all` of `stop` that has
not woken it came while the config thread held the mutex, before its block. -/
theorem mainLoop_settled {m : State MainLoopState Unit ConfigLook} (h : (mainLoopMonitor same agentId).machine.Reachable m)
    (hwaiting : m.waiting ≠ []) (hdue : m.due = 0) :
    (m.shared.shutdown.stopFlag = false → m.shared.Settled) ∧ (m.shared.notified = true → m.overtaken = true) := by
  refine ⟨fun hflag => ?_, fun hnotified => (MainLoopState.announced same agentId).overtaken_of_blocked h hnotified hwaiting⟩
  have hr := reachable_shared h
  have hinv := MainLoopState.inv_reachable hr
  have hpc := hinv.running.mp hflag
  obtain ⟨hone, hinside⟩ := solo (P := fun s => s.shutdown.threads.configThread = [] ∧ s.shutdown.mainExited = false)
    (fun k n s henters => by simpa [mainLoopMonitor, and_assoc] using henters)
    (fun s s' a hr hn hothers hP => by
      obtain ⟨hthread, hexited⟩ := (MainLoopState.inv_reachable hr).config_keeps hn hothers
      exact ⟨hthread.trans hP.1, hexited.trans hP.2⟩) h
  have hlength := List.length_pos_iff.mpr hwaiting
  simp only [State.inside] at hone hinside
  have hidle := (hinside (by omega)).1
  have hwork : m.shared.work = 0 := by
    have hcovered := ((MainLoopState.counted same agentId).work_covered h hwaiting).resolve_left
      (show ¬m.shared.shutdown.stopFlag = true by simp [hflag])
    have hle : m.shared.work ≤ m.woken.length + m.holding + m.due := hcovered
    omega
  simp only [MainLoopState.work, ThreadedState.hasWork, Bool.toNat_eq_zero, Bool.or_eq_false_iff, Bool.not_eq_false',
    List.isEmpty_iff] at hwork
  refine ⟨hidle, hinv.taken hpc hwork.1, fun c hc => ?_⟩
  rcases ThreadedState.stopsAccounted_reachable (hinv.threads hpc) c hc with hrequest | hpending | ⟨step, hstep⟩ | hdone
  · exact .inr hrequest
  · simp [hwork.2] at hpending
  · simp [hidle] at hstep
  · exact .inl hdone

end

/-- The config thread blocks, is told of a configuration, applies it and blocks again. -/
def oneConfigRun : List (Label MainLoopAction Unit) :=
  [.enter (), .look, .look, .look, .op (.step (.thread (.socketConfig {}))), .deliver 0, .resume 0, .look, .look, .look,
    .op (.step (.thread (.config true))), .enter (), .look, .look, .look]

theorem mainLoop_settled_oneConfig : ∃ m, (mainLoopMonitor structuralEquality []).machine.Reachable m ∧
    m.waiting = [()] ∧ m.shared.taken.isSome = true ∧ m.shared.Settled := by
  obtain ⟨m, hm, hp⟩ := Machine.reachable_of_exec_any (mainLoopMonitor structuralEquality []).machine oneConfigRun
    (fun m => decide (m.waiting = [()] ∧ m.due = 0 ∧ m.shared.taken.isSome = true ∧ m.shared.shutdown.stopFlag = false))
    (by decide +kernel)
  obtain ⟨hwaiting, hdue, htaken, hflag⟩ := of_decide_eq_true hp
  exact ⟨m, hm, hwaiting, htaken, (mainLoop_settled hm (by simp [hwaiting]) hdue).1 hflag⟩

/-- `stop` raises the flag and notifies after the config thread has read the flag and before it blocks, and goes on to
the join. -/
def overtakenRun : List (Label MainLoopAction Unit) :=
  [.enter (), .look, .look, .op (.step .stop), .op .notifyAll, .look] ++ List.replicate 4 (.op (.step .stop))

/-- Nobody is left to wake the config thread, and `stop` waits for it. -/
theorem mainLoop_overtaken : ∃ m, (mainLoopMonitor structuralEquality []).machine.Reachable m ∧ m.waiting = [()] ∧
    m.inside = 1 ∧ m.due = 0 ∧ m.shared.shutdown.stopPc = .joining ∧
    (mainLoopMonitor structuralEquality []).machine.next m (.op (.step .stop)) = none := by
  obtain ⟨m, hm, hp⟩ := Machine.reachable_of_exec_any (mainLoopMonitor structuralEquality []).machine overtakenRun
    (fun m => decide (m.waiting = [()] ∧ m.inside = 1 ∧ m.due = 0 ∧ m.shared.shutdown.stopPc = .joining ∧
      m.shared.shutdown.mainExited = false)) (by decide +kernel)
  obtain ⟨hwaiting, hinside, hdue, hpc, hexited⟩ := of_decide_eq_true hp
  refine ⟨m, hm, hwaiting, hinside, hdue, hpc, ?_⟩
  simp [Monitor.machine, State.op, mainLoopMonitor, mainLoopSystem, shutdownSystem, ShutdownState.stop,
    ShutdownPc.locksConfig, hpc, hexited]

end MediaAgent
