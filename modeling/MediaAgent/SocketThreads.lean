import MediaAgent.Library.Transition
import MediaAgent.Library.TreeMaps
import MediaAgent.SocketFrames

/-!
# The threads of the local socket

`sendLoop` and `recvLoop` share the descriptor `fd_`. Each of their loops takes a copy of it under
the lock, and uses the copy after the lock has been released; a number that has been closed may by
then name another connection. `connect` gives each connection a number of its own, in the order in
which they are made, and every received byte keeps the connection that it came from.
-/

namespace MediaAgent
open Std ByteReader TreeMaps Transition

/-- A connection, by the number of connections made before it. -/
abbrev ConnId := Nat

/-- A byte and the connection that it was received from. -/
abbrev SourcedByte := ConnId × UInt8

/-- Where a loop over a descriptor stands: before it takes `fd_`, with a copy of it (and what the
number named then), or inside the system call on a connection. -/
inductive CallPc
  | fetch
  | call (fd : Nat) (named : Option ConnId)
  | blocked (c : ConnId)
  deriving DecidableEq, Repr

/-- Where `sendLoop` stands: `loop` reads the stop flag and `running` reads `connected_`. A frame is
written as the parts of it that are left. -/
inductive SendPc
  | loop
  | running
  | connecting
  | publishing (fd : Nat)
  | popping
  | writing (data : Bytes) (parts : List Bytes) (pc : CallPc)
  | disconnecting
  | exited
  deriving DecidableEq, Repr

/-- Where `recvLoop` stands. The bytes of the frame that have been received are kept; a failure keeps
the connection that it was met on, before the stop flag is read and between that and the call of
`disconnectSocket`. -/
inductive RecvPc
  | loop
  | running
  | reading (got : List SourcedByte) (pc : CallPc)
  | failing (failed : Option ConnId)
  | disconnecting (failed : Option ConnId)
  | exited
  deriving DecidableEq, Repr

inductive StopPc
  | notCalled
  | stoppingQueue
  | disconnecting
  | joining
  deriving DecidableEq, Repr

structure SocketState where
  descriptors : TreeMap Nat ConnId := ∅
  connections : Nat := 0
  fd : Option Nat := none
  connected : Bool := false
  stopFlag : Bool := false
  maxSize : Nat
  queue : List Bytes := []
  queueStopped : Bool := false
  dropCount : Nat := 0
  sentCount : Nat := 0
  failedCount : Nat := 0
  accepted : List Bytes := []
  written : List SourcedByte := []
  sendPc : SendPc := .loop
  recvPc : RecvPc := .loop
  stopPc : StopPc := .notCalled
  delivered : List (List SourcedByte) := []

/-- What the outside answers to a step of `sendLoop`. -/
inductive SendEvent
  | turn
  | connectFailed
  | connected (fd : Nat)
  | timeout
  | sent (n : Nat)
  | failed
  deriving DecidableEq, Repr

/-- What the outside answers to a step of `recvLoop`. -/
inductive RecvEvent
  | turn
  | received (bs : Bytes)
  | interrupted
  | failed
  deriving DecidableEq, Repr

inductive SocketAction
  | sendFrame (data : Bytes)
  | sendLoop (event : SendEvent)
  | recvLoop (event : RecvEvent)
  | stop
  deriving DecidableEq, Repr

/-- The value of the bytes of a frame from `i` on, four of them. -/
def headerField (got : List SourcedByte) (i : Nat) : Nat := ofBE (((got.map Prod.snd).drop i).take 4)

/-- How many bytes the call of `readAll` under way still asks for. -/
def remainingBytes (got : List SourcedByte) : Nat :=
  if got.length < 4 then 4 - got.length
  else if got.length < 8 then 8 - got.length
  else 8 + headerField got 4 - got.length

/-- The checks that follow the two calls for the header. -/
def malformedHeader (got : List SourcedByte) : Bool :=
  headerField got 0 != kMagic || headerField got 4 == 0 || decide (kMaxFrameSize < headerField got 4)

namespace SocketState

/-- `ThreadSafeQueue::push`; with a capacity of at least one there is an element to drop. -/
def sendFrame (s : SocketState) (data : Bytes) : SocketState :=
  if s.queueStopped then s
  else if s.maxSize ≤ s.queue.length then
    { s with
      queue := s.queue.drop 1 ++ [data]
      dropCount := s.dropCount + 1
      accepted := s.accepted ++ [data] }
  else { s with queue := s.queue ++ [data], accepted := s.accepted ++ [data] }

def disconnectSocket (s : SocketState) : SocketState :=
  match s.fd with
  | none => { s with connected := false }
  | some fd => { s with descriptors := s.descriptors.erase fd, fd := none, connected := false }

/-- What the number named by `fd_` refers to. -/
def currentConnection (s : SocketState) : Option ConnId := s.fd.bind fun fd => s.descriptors[fd]?

/-- A `send` or a read of `fd_` has failed: `sendRaw` returns false. -/
def sendFailed (s : SocketState) : SocketState :=
  { s with failedCount := s.failedCount + 1, sendPc := .disconnecting }

def sendStep (s : SocketState) (event : SendEvent) : Option SocketState :=
  match s.sendPc, event with
  | .loop, .turn =>
    if s.stopFlag then some { s with sendPc := .exited } else some { s with sendPc := .running }
  | .running, .turn =>
    if s.connected then some { s with sendPc := .popping } else some { s with sendPc := .connecting }
  | .connecting, .connectFailed => some { s with sendPc := .loop }
  | .connecting, .connected fd =>
    if s.descriptors.contains fd then none
    else some { s with
      descriptors := s.descriptors.insert fd s.connections
      connections := s.connections + 1
      sendPc := .publishing fd }
  | .publishing fd, .turn => some { s with fd := some fd, connected := true, sendPc := .popping }
  | .popping, .turn =>
    match s.queue with
    | [] => if s.queueStopped then some { s with sendPc := .loop } else none
    | data :: queue => some { s with
        queue := queue
        sendPc := .writing data [toBE 4 kMagic, toBE 4 (data.length % 2 ^ 32), data] .fetch }
  | .popping, .timeout => if s.queue = [] then some { s with sendPc := .loop } else none
  | .writing data parts .fetch, .turn =>
    match parts with
    | [] => some { s with sentCount := s.sentCount + 1, sendPc := .loop }
    | [] :: parts => some { s with sendPc := .writing data parts .fetch }
    | (_ :: _) :: _ =>
      match s.fd with
      | none => some s.sendFailed
      | some fd => some { s with sendPc := .writing data parts (.call fd s.currentConnection) }
  | .writing data parts (.call fd _), .turn =>
    match s.descriptors[fd]? with
    | none => some s.sendFailed
    | some c => some { s with sendPc := .writing data parts (.blocked c) }
  | .writing data (part :: parts) (.blocked c), .sent n =>
    if 1 ≤ n ∧ n ≤ part.length then
      some { s with
        written := s.written ++ (part.take n).map fun b => (c, b)
        sendPc := .writing data (part.drop n :: parts) .fetch }
    else none
  | .writing _ _ (.blocked _), .failed => some s.sendFailed
  | .disconnecting, .turn => some { s.disconnectSocket with sendPc := .loop }
  | _, _ => none

/-- A `recv` has added bytes to the frame. -/
def receive (s : SocketState) (got : List SourcedByte) (c : ConnId) : SocketState :=
  if got.length = 8 ∧ malformedHeader got then { s with recvPc := .failing (some c) }
  else if 8 < got.length ∧ got.length = 8 + headerField got 4 then
    { s with delivered := s.delivered ++ [got], recvPc := .loop }
  else { s with recvPc := .reading got .fetch }

def recvStep (s : SocketState) (event : RecvEvent) : Option SocketState :=
  match s.recvPc, event with
  | .loop, .turn =>
    if s.stopFlag then some { s with recvPc := .exited } else some { s with recvPc := .running }
  | .running, .turn =>
    if s.connected then some { s with recvPc := .reading [] .fetch } else some { s with recvPc := .loop }
  | .reading got .fetch, .turn =>
    match s.fd with
    | none => some { s with recvPc := .failing (got.getLast?.map Prod.fst) }
    | some fd => some { s with recvPc := .reading got (.call fd s.currentConnection) }
  | .reading got (.call fd named), .turn =>
    match s.descriptors[fd]? with
    | none => some { s with recvPc := .failing named }
    | some c => some { s with recvPc := .reading got (.blocked c) }
  | .reading got (.blocked c), .received bs =>
    if 1 ≤ bs.length ∧ bs.length ≤ remainingBytes got then
      some (s.receive (got ++ bs.map fun b => (c, b)) c)
    else none
  | .reading got (.blocked _), .interrupted => some { s with recvPc := .reading got .fetch }
  | .reading _ (.blocked c), .failed => some { s with recvPc := .failing (some c) }
  | .failing failed, .turn =>
    if s.stopFlag then some { s with recvPc := .loop } else some { s with recvPc := .disconnecting failed }
  | .disconnecting _, .turn => some { s.disconnectSocket with recvPc := .loop }
  | _, _ => none

def stopStep (s : SocketState) : Option SocketState :=
  match s.stopPc with
  | .notCalled => some { s with stopFlag := true, stopPc := .stoppingQueue }
  | .stoppingQueue => some { s with queueStopped := true, stopPc := .disconnecting }
  | .disconnecting => some { s.disconnectSocket with stopPc := .joining }
  | .joining => none

end SocketState

/-- A started `SocketSender` with a queue of the given capacity. -/
def socketSystem (maxSize : Nat) : Machine SocketState SocketAction where
  init := { maxSize := maxSize }
  next s
    | .sendFrame data => some (s.sendFrame data)
    | .sendLoop event => s.sendStep event
    | .recvLoop event => s.recvStep event
    | .stop => s.stopStep

namespace SocketState

/-- The descriptors that are open are `fd_` and the one that `sendLoop` is about to publish. -/
structure Wf (s : SocketState) : Prop where
  connected : s.connected = s.fd.isSome
  held : ∀ fd c, s.descriptors[fd]? = some c → s.fd = some fd ∨ s.sendPc = .publishing fd
  reconnecting : (s.sendPc = .connecting ∨ ∃ fd, s.sendPc = .publishing fd) → s.fd = none

/-- Two states with the same connections and `fd_`, and the same for `recvLoop`. -/
structure SameSocket (s t : SocketState) : Prop where
  descriptors : t.descriptors = s.descriptors
  connections : t.connections = s.connections
  fd : t.fd = s.fd
  connected : t.connected = s.connected
  recvPc : t.recvPc = s.recvPc
  delivered : t.delivered = s.delivered

variable {s t : SocketState}

/-- `sendLoop` goes from one place to another without touching the connections. -/
structure QuietSend (s t : SocketState) : Prop extends SameSocket s t where
  before : ∀ fd, s.sendPc ≠ .publishing fd
  after : ∀ fd, t.sendPc ≠ .publishing fd
  connecting : t.sendPc = .connecting → s.connected = false

/-- `sendFrame` touches the queue and its counters. -/
lemma sendFrame_eq (s : SocketState) (data : Bytes) : ∃ queue dropCount accepted, s.sendFrame data =
    { s with queue := queue, dropCount := dropCount, accepted := accepted } := by
  unfold sendFrame
  split
  · exact ⟨s.queue, s.dropCount, s.accepted, rfl⟩
  · split
    · exact ⟨_, _, _, rfl⟩
    · exact ⟨_, s.dropCount, _, rfl⟩

/-- `sendLoop` writes its place, the queue, the counters and what it has written. -/
lemma QuietSend.moves {queue : List Bytes} {sentCount failedCount : Nat} {written : List SourcedByte} {pc : SendPc}
    (hbefore : ∀ fd, s.sendPc ≠ .publishing fd) (hafter : ∀ fd, pc ≠ .publishing fd) (hpc : pc ≠ .connecting) :
    QuietSend s { s with
      queue := queue
      sentCount := sentCount
      failedCount := failedCount
      written := written
      sendPc := pc } :=
  ⟨⟨rfl, rfl, rfl, rfl, rfl, rfl⟩, hbefore, hafter, fun h => absurd h hpc⟩

/-- The moves of `sendLoop` between frames. -/
inductive SendMove (s : SocketState) : SendPc → Prop
  | exits (hpc : s.sendPc = .loop) : SendMove s .exited
  | runs (hpc : s.sendPc = .loop) : SendMove s .running
  | keeps (hpc : s.sendPc = .running) (hconnected : s.connected = true) : SendMove s .popping
  | reconnects (hpc : s.sendPc = .running) (hconnected : s.connected = false) : SendMove s .connecting
  | givesUp (hpc : s.sendPc = .connecting) : SendMove s .loop
  | waits (hpc : s.sendPc = .popping) : SendMove s .loop

/-- The ways of a step of `sendLoop`. -/
inductive SendStep (s : SocketState) : SendEvent → SocketState → Prop
  | moves {event : SendEvent} {pc : SendPc} (h : SendMove s pc) : SendStep s event { s with sendPc := pc }
  | connects {fd : Nat} (hpc : s.sendPc = .connecting) : SendStep s (.connected fd) { s with
      descriptors := s.descriptors.insert fd s.connections
      connections := s.connections + 1
      sendPc := .publishing fd }
  | publishes {fd : Nat} (hpc : s.sendPc = .publishing fd) :
    SendStep s .turn { s with fd := some fd, connected := true, sendPc := .popping }
  | pops {data : Bytes} {queue : List Bytes} (hpc : s.sendPc = .popping) (hqueue : s.queue = data :: queue) :
    SendStep s .turn { s with
      queue := queue
      sendPc := .writing data [toBE 4 kMagic, toBE 4 (data.length % 2 ^ 32), data] .fetch }
  | completes {data : Bytes} (hpc : s.sendPc = .writing data [] .fetch) :
    SendStep s .turn { s with sentCount := s.sentCount + 1, sendPc := .loop }
  | skips {data : Bytes} {parts : List Bytes} (hpc : s.sendPc = .writing data ([] :: parts) .fetch) :
    SendStep s .turn { s with sendPc := .writing data parts .fetch }
  | fetches {data part : Bytes} {parts : List Bytes} {fd : Nat} (hpc : s.sendPc = .writing data (part :: parts) .fetch)
    (hpart : part ≠ []) (hfd : s.fd = some fd) :
    SendStep s .turn { s with sendPc := .writing data (part :: parts) (.call fd s.currentConnection) }
  | calls {data : Bytes} {parts : List Bytes} {fd : Nat} {named : Option ConnId} {c : ConnId}
    (hpc : s.sendPc = .writing data parts (.call fd named)) (hc : s.descriptors[fd]? = some c) :
    SendStep s .turn { s with sendPc := .writing data parts (.blocked c) }
  | writes {data part : Bytes} {parts : List Bytes} {c : ConnId} {n : Nat}
    (hpc : s.sendPc = .writing data (part :: parts) (.blocked c)) (hn : 1 ≤ n ∧ n ≤ part.length) :
    SendStep s (.sent n) { s with
      written := s.written ++ (part.take n).map fun b => (c, b)
      sendPc := .writing data (part.drop n :: parts) .fetch }
  | fails {event : SendEvent} {data : Bytes} {parts : List Bytes} {pc : CallPc}
    (hpc : s.sendPc = .writing data parts pc) (hleft : pc = .fetch → parts.flatten ≠ []) :
    SendStep s event s.sendFailed
  | disconnects (hpc : s.sendPc = .disconnecting) : SendStep s .turn { s.disconnectSocket with sendPc := .loop }

lemma sendStep_step {event : SendEvent} (hn : s.sendStep event = some t) : SendStep s event t := by
  unfold sendStep at hn
  split at hn
  · rename_i hpc
    split at hn <;> cases hn
    · exact .moves (.exits hpc)
    · exact .moves (.runs hpc)
  · rename_i hpc
    split at hn
    · rename_i hconnected
      cases hn
      exact .moves (.keeps hpc hconnected)
    · rename_i hconnected
      cases hn
      exact .moves (.reconnects hpc (Bool.eq_false_iff.mpr hconnected))
  · rename_i hpc
    cases hn
    exact .moves (.givesUp hpc)
  · rename_i hpc
    split at hn <;> cases hn
    exact .connects hpc
  · rename_i hpc
    cases hn
    exact .publishes hpc
  · rename_i hpc
    split at hn
    · split at hn <;> cases hn
      exact .moves (.waits hpc)
    · rename_i hqueue
      cases hn
      exact .pops hpc hqueue
  · rename_i hpc
    split at hn <;> cases hn
    exact .moves (.waits hpc)
  · rename_i hpc
    split at hn
    · cases hn
      exact .completes hpc
    · cases hn
      exact .skips hpc
    · split at hn <;> cases hn
      · exact .fails hpc fun _ => by simp
      · exact .fetches hpc (by simp) ‹_›
  · rename_i hpc
    split at hn <;> cases hn
    · exact .fails hpc nofun
    · exact .calls hpc ‹_›
  · rename_i hpc
    split at hn <;> cases hn
    exact .writes hpc ‹_›
  · rename_i hpc
    cases hn
    exact .fails hpc nofun
  · rename_i hpc
    cases hn
    exact .disconnects hpc
  · cases hn

/-- What `sendLoop` does to the connections in one step, if anything. -/
lemma sendStep_cases {event : SendEvent} (hn : s.sendStep event = some t) :
    QuietSend s t ∨
    (∃ fd, event = .connected fd ∧ s.sendPc = .connecting ∧ t = { s with
      descriptors := s.descriptors.insert fd s.connections
      connections := s.connections + 1
      sendPc := .publishing fd }) ∨
    (∃ fd, event = .turn ∧ s.sendPc = .publishing fd ∧
      t = { s with fd := some fd, connected := true, sendPc := .popping }) ∨
    (s.sendPc = .disconnecting ∧ t = { s.disconnectSocket with sendPc := .loop }) := by
  cases sendStep_step hn with
  | moves h =>
    cases h with
    | reconnects hpc hconnected =>
      exact .inl ⟨⟨rfl, rfl, rfl, rfl, rfl, rfl⟩, by simp [hpc], by simp, fun _ => hconnected⟩
    | exits hpc => exact .inl (.moves (by simp [hpc]) (by simp) (by simp))
    | runs hpc => exact .inl (.moves (by simp [hpc]) (by simp) (by simp))
    | keeps hpc _ => exact .inl (.moves (by simp [hpc]) (by simp) (by simp))
    | givesUp hpc => exact .inl (.moves (by simp [hpc]) (by simp) (by simp))
    | waits hpc => exact .inl (.moves (by simp [hpc]) (by simp) (by simp))
  | connects hpc => exact .inr (.inl ⟨_, rfl, hpc, rfl⟩)
  | publishes hpc => exact .inr (.inr (.inl ⟨_, rfl, hpc, rfl⟩))
  | disconnects hpc => exact .inr (.inr (.inr ⟨hpc, rfl⟩))
  | pops hpc _ => exact .inl (.moves (by simp [hpc]) (by simp) (by simp))
  | completes hpc => exact .inl (.moves (by simp [hpc]) (by simp) (by simp))
  | skips hpc => exact .inl (.moves (by simp [hpc]) (by simp) (by simp))
  | fetches hpc _ _ => exact .inl (.moves (by simp [hpc]) (by simp) (by simp))
  | calls hpc _ => exact .inl (.moves (by simp [hpc]) (by simp) (by simp))
  | writes hpc _ => exact .inl (.moves (by simp [hpc]) (by simp) (by simp))
  | fails hpc _ => exact .inl (.moves (by simp [hpc]) (by simp) (by simp))

/-- What `recvLoop` does in one step: it holds no bytes afterwards, it comes one step further in
`readAll`, it receives, or it disconnects. -/
lemma recvStep_cases {event : RecvEvent} (hn : s.recvStep event = some t) :
    (∃ pc, t = { s with recvPc := pc } ∧ ∀ got call, pc = .reading got call → got = [] ∧ call = .fetch) ∨
    (∃ got fd, s.recvPc = .reading got .fetch ∧ s.fd = some fd ∧
      t = { s with recvPc := .reading got (.call fd s.currentConnection) }) ∨
    (∃ got fd named c, s.recvPc = .reading got (.call fd named) ∧ s.descriptors[fd]? = some c ∧
      t = { s with recvPc := .reading got (.blocked c) }) ∨
    (∃ got c bs, event = .received bs ∧ s.recvPc = .reading got (.blocked c) ∧ 1 ≤ bs.length ∧
      bs.length ≤ remainingBytes got ∧ t = s.receive (got ++ bs.map fun b => (c, b)) c) ∨
    (∃ got c, event = .interrupted ∧ s.recvPc = .reading got (.blocked c) ∧
      t = { s with recvPc := .reading got .fetch }) ∨
    (∃ failed, s.recvPc = .disconnecting failed ∧ t = { s.disconnectSocket with recvPc := .loop }) := by
  unfold recvStep at hn
  split at hn
  · split at hn <;> cases hn
    · exact .inl ⟨_, rfl, by simp⟩
    · exact .inl ⟨_, rfl, by simp⟩
  · split at hn <;> cases hn
    · exact .inl ⟨.reading [] .fetch, rfl, by simp⟩
    · exact .inl ⟨_, rfl, by simp⟩
  · rename_i got hpc
    split at hn <;> cases hn
    · exact .inl ⟨_, rfl, by simp⟩
    · rename_i fd hfd
      exact .inr (.inl ⟨got, fd, hpc, hfd, rfl⟩)
  · rename_i got fd named hpc
    split at hn <;> cases hn
    · exact .inl ⟨_, rfl, by simp⟩
    · rename_i c hc
      exact .inr (.inr (.inl ⟨got, fd, named, c, hpc, hc, rfl⟩))
  · rename_i got c bs hpc
    split at hn <;> cases hn
    rename_i hsize
    exact .inr (.inr (.inr (.inl ⟨got, c, bs, rfl, hpc, hsize.1, hsize.2, rfl⟩)))
  · rename_i got c hpc
    cases hn
    exact .inr (.inr (.inr (.inr (.inl ⟨got, c, rfl, hpc, rfl⟩))))
  · cases hn
    exact .inl ⟨_, rfl, by simp⟩
  · split at hn <;> cases hn
    · exact .inl ⟨_, rfl, by simp⟩
    · exact .inl ⟨_, rfl, by simp⟩
  · rename_i failed hpc
    cases hn
    exact .inr (.inr (.inr (.inr (.inr ⟨failed, hpc, rfl⟩))))
  · cases hn

/-- What `recvLoop` receives ends in a frame delivered, in a failure, or in the next call. -/
lemma receive_cases (s : SocketState) (got : List SourcedByte) (c : ConnId) :
    s.receive got c = { s with recvPc := .failing (some c) } ∨
    s.receive got c = { s with delivered := s.delivered ++ [got], recvPc := .loop } ∨
    s.receive got c = { s with recvPc := .reading got .fetch } := by
  unfold receive
  split
  · exact .inl rfl
  · split
    · exact .inr (.inl rfl)
    · exact .inr (.inr rfl)

/-! ## What holds in every reachable state -/

lemma Wf.disconnectSocket (h : s.Wf) : s.disconnectSocket.Wf := by
  unfold SocketState.disconnectSocket
  split
  · rename_i hfd
    refine ⟨by simp [hfd], h.held, fun _ => hfd⟩
  · rename_i fd hfd
    refine ⟨rfl, fun fd' c hc => ?_, fun _ => rfl⟩
    simp only [lookup_erase, Option.ite_none_left_eq_some] at hc
    rcases h.held fd' c hc.2 with he | he
    · rw [hfd] at he
      exact absurd (Option.some.inj he) hc.1
    · exact .inr he

/-- What a disconnection leaves as it is. -/
lemma disconnectSocket_eq (s : SocketState) : s.disconnectSocket =
    { s with descriptors := s.disconnectSocket.descriptors, fd := none, connected := false } := by
  unfold disconnectSocket
  split
  · rename_i hfd
    rw [← hfd]
  · rfl

@[simp] lemma disconnectSocket_sendPc (s : SocketState) : s.disconnectSocket.sendPc = s.sendPc := by
  rw [disconnectSocket_eq]

@[simp] lemma disconnectSocket_connections (s : SocketState) : s.disconnectSocket.connections = s.connections := by
  rw [disconnectSocket_eq]

@[simp] lemma disconnectSocket_recvPc (s : SocketState) : s.disconnectSocket.recvPc = s.recvPc := by
  rw [disconnectSocket_eq]

@[simp] lemma disconnectSocket_delivered (s : SocketState) : s.disconnectSocket.delivered = s.delivered := by
  rw [disconnectSocket_eq]

/-- `sendLoop` only reads the stop flag and the capacity of the queue. -/
lemma sendStep_reads {event : SendEvent} (hn : s.sendStep event = some t) :
    t.stopFlag = s.stopFlag ∧ t.maxSize = s.maxSize := by
  cases sendStep_step hn with
  | disconnects _ =>
    rw [disconnectSocket_eq]
    exact ⟨rfl, rfl⟩
  | _ => exact ⟨rfl, rfl⟩

/-- `recvLoop` only reads the stop flag, and does not touch the queue. -/
lemma recvStep_reads {event : RecvEvent} (hn : s.recvStep event = some t) :
    t.stopFlag = s.stopFlag ∧ t.maxSize = s.maxSize := by
  rcases recvStep_cases hn with ⟨pc, rfl, -⟩ | ⟨got, fd, -, -, rfl⟩ | ⟨got, fd, named, c, -, -, rfl⟩ |
    ⟨got, c, bs, -, -, -, -, rfl⟩ | ⟨got, c, -, -, rfl⟩ | ⟨failed, -, rfl⟩
  · exact ⟨rfl, rfl⟩
  · exact ⟨rfl, rfl⟩
  · exact ⟨rfl, rfl⟩
  · rcases receive_cases s (got ++ bs.map fun b => (c, b)) c with he | he | he <;> rw [he] <;> exact ⟨rfl, rfl⟩
  · exact ⟨rfl, rfl⟩
  · rw [disconnectSocket_eq]
    exact ⟨rfl, rfl⟩

lemma disconnectSocket_descriptors {fd : Nat} {c : ConnId} (h : s.disconnectSocket.descriptors[fd]? = some c) :
    s.descriptors[fd]? = some c := by
  unfold disconnectSocket at h
  split at h
  · exact h
  · simp only [lookup_erase, Option.ite_none_left_eq_some] at h
    exact h.2

/-- Another state with the same descriptors and the same position of `sendLoop`. -/
lemma Wf.congr (h : s.Wf) (hdescriptors : t.descriptors = s.descriptors) (hfd : t.fd = s.fd)
    (hconnected : t.connected = s.connected) (hpc : t.sendPc = s.sendPc) : t.Wf := by
  refine ⟨?_, ?_, ?_⟩
  · rw [hconnected, hfd]
    exact h.connected
  · rw [hdescriptors, hfd, hpc]
    exact h.held
  · rw [hpc, hfd]
    exact h.reconnecting

/-- No descriptor is open while `sendLoop` connects. -/
lemma Wf.no_descriptor (h : s.Wf) (hpc : s.sendPc = .connecting) (fd : Nat) (c : ConnId) :
    s.descriptors[fd]? ≠ some c := by
  intro hc
  rcases h.held fd c hc with he | he
  · rw [h.reconnecting (.inl hpc)] at he
    cases he
  · rw [hpc] at he
    cases he

lemma Wf.sendStep (h : s.Wf) {event : SendEvent} (hn : s.sendStep event = some t) : t.Wf := by
  rcases sendStep_cases hn with hquiet | ⟨fd, -, hpc, rfl⟩ | ⟨fd, -, hpc, rfl⟩ | ⟨hpc, rfl⟩
  · refine ⟨?_, fun fd c hc => ?_, fun hpc => ?_⟩
    · rw [hquiet.connected, hquiet.fd]
      exact h.connected
    · rw [hquiet.descriptors] at hc
      rw [hquiet.fd]
      exact (h.held fd c hc).imp_right fun hpc => absurd hpc (hquiet.before fd)
    · rcases hpc with hpc | ⟨fd, hpc⟩
      · have hconnected := hquiet.connecting hpc
        rw [h.connected] at hconnected
        rw [hquiet.fd]
        exact Option.isNone_iff_eq_none.mp (Option.isSome_eq_false_iff.mp hconnected)
      · exact absurd hpc (hquiet.after fd)
  · have hfd := h.reconnecting (.inl hpc)
    refine ⟨h.connected, fun fd' c hc => ?_, fun _ => hfd⟩
    dsimp only at hc
    rw [lookup_insert] at hc
    split at hc
    · subst fd'
      exact .inr rfl
    · rcases h.held fd' c hc with he | he
      · exact .inl he
      · rw [hpc] at he
        cases he
  · refine ⟨rfl, fun fd' c hc => ?_, by simp⟩
    rcases h.held fd' c hc with he | he
    · rw [h.reconnecting (.inr ⟨fd, hpc⟩)] at he
      cases he
    · rw [hpc] at he
      cases he
      exact .inl rfl
  · have hdisconnected := h.disconnectSocket
    refine ⟨hdisconnected.connected, fun fd c hc => ?_, by simp⟩
    rcases hdisconnected.held fd c hc with he | he
    · exact .inl he
    · rw [disconnectSocket_sendPc, hpc] at he
      cases he

lemma Wf.recvStep (h : s.Wf) {event : RecvEvent} (hn : s.recvStep event = some t) : t.Wf := by
  rcases recvStep_cases hn with ⟨pc, rfl, -⟩ | ⟨got, fd, -, -, rfl⟩ | ⟨got, fd, named, c, -, -, rfl⟩ |
    ⟨got, c, bs, -, -, -, -, rfl⟩ | ⟨got, c, -, -, rfl⟩ | ⟨failed, -, rfl⟩
  · exact h.congr rfl rfl rfl rfl
  · exact h.congr rfl rfl rfl rfl
  · exact h.congr rfl rfl rfl rfl
  · rcases receive_cases s (got ++ bs.map fun b => (c, b)) c with he | he | he <;> rw [he] <;>
      exact h.congr rfl rfl rfl rfl
  · exact h.congr rfl rfl rfl rfl
  · exact h.disconnectSocket.congr rfl rfl rfl rfl

lemma Wf.next {maxSize : Nat} {a : SocketAction} (h : s.Wf) (hn : (socketSystem maxSize).next s a = some t) :
    t.Wf := by
  cases a with
  | sendFrame data =>
    cases hn
    obtain ⟨queue, dropCount, accepted, he⟩ := s.sendFrame_eq data
    rw [he]
    exact h.congr rfl rfl rfl rfl
  | sendLoop event => exact h.sendStep hn
  | recvLoop event => exact h.recvStep hn
  | stop =>
    simp only [socketSystem, stopStep] at hn
    split at hn <;> cases hn
    · exact h.congr rfl rfl rfl rfl
    · exact h.congr rfl rfl rfl rfl
    · exact h.disconnectSocket.congr rfl rfl rfl rfl

lemma Wf.init (maxSize : Nat) : Wf { maxSize := maxSize } := by
  refine ⟨rfl, fun fd c hc => ?_, by simp⟩
  simp at hc

end SocketState

lemma socket_wf_reachable {maxSize : Nat} {s : SocketState} (h : (socketSystem maxSize).Reachable s) : s.Wf :=
  h.invariant (SocketState.Wf.init maxSize) fun _ _ _ ht _ hn => ht.next hn

/-! ## The frames that are delivered -/

/-- A frame that is being read has a header that has passed the checks, once the header is there, and is
not complete. -/
def PartialFrame (got : List SourcedByte) : Prop :=
  8 ≤ got.length → malformedHeader got = false ∧ got.length < 8 + headerField got 4

/-- The bytes of a frame are the encoding of a payload that `sendRaw` could have been given. -/
def CompleteFrame (frame : List SourcedByte) : Prop :=
  ∃ payload, ValidPayload payload ∧ frame.map Prod.snd = encodeFrame payload

lemma headerField_append {got : List SourcedByte} (more : List SourcedByte) {i : Nat} (h : i + 4 ≤ got.length) :
    headerField (got ++ more) i = headerField got i := by
  have hle : i ≤ (got.map Prod.snd).length := by
    rw [List.length_map]
    omega
  have htake : 4 ≤ ((got.map Prod.snd).drop i).length := by
    rw [List.length_drop, List.length_map]
    omega
  rw [headerField, headerField, List.map_append, List.drop_append_of_le_length hle,
    List.take_append_of_le_length htake]

lemma malformedHeader_append {got : List SourcedByte} (more : List SourcedByte) (h : 8 ≤ got.length) :
    malformedHeader (got ++ more) = malformedHeader got := by
  rw [malformedHeader, headerField_append more (by omega), headerField_append more (by omega), malformedHeader]

/-- A header that passes the checks and as many bytes as it says are a frame. -/
lemma completeFrame_of_length {got : List SourcedByte} (hheader : malformedHeader got = false)
    (hlength : got.length = 8 + headerField got 4) : CompleteFrame got := by
  have hmap : (got.map Prod.snd).length = got.length := List.length_map _
  cases hrun : frame.run (got.map Prod.snd) with
  | none =>
    have hnot := frame_run_eq_none hrun
    simp only [malformedHeader, headerField, List.drop_zero, Bool.or_eq_false_iff, bne_eq_false_iff_eq,
      beq_eq_false_iff_ne] at hheader
    obtain ⟨⟨hmagic, hpos⟩, hmax⟩ := hheader
    rcases hnot with hshort | hbad | hzero | hlong | hshort
    · omega
    · exact absurd hmagic hbad
    · exact absurd hzero hpos
    · exact absurd hlong (of_decide_eq_false hmax)
    · rw [hmap, hlength, headerField] at hshort
      omega
  | some r =>
    obtain ⟨payload, rest⟩ := r
    obtain ⟨hbytes, hvalid⟩ := frame_run_eq_some hrun
    have hfield : headerField got 4 = payload.length := by
      rw [headerField, hbytes, encodeFrame, List.append_assoc, List.append_assoc]
      simp [ofBE_length hvalid]
    have hrest : rest = [] := by
      have hsize := congrArg List.length hbytes
      rw [hmap, List.length_append, length_encodeFrame] at hsize
      exact List.eq_nil_of_length_eq_zero (by omega)
    rw [hrest, List.append_nil] at hbytes
    exact ⟨payload, hvalid, hbytes⟩

namespace SocketState

variable {s t : SocketState}

structure FrameInv (s : SocketState) : Prop where
  reading : ∀ got pc, s.recvPc = .reading got pc → PartialFrame got
  delivered : ∀ frame ∈ s.delivered, CompleteFrame frame

lemma FrameInv.moves (h : s.FrameInv) {pc : RecvPc} (hgot : ∀ got call, pc = .reading got call → PartialFrame got) :
    FrameInv { s with recvPc := pc } :=
  ⟨hgot, h.delivered⟩

lemma FrameInv.congr (h : s.FrameInv) (hpc : t.recvPc = s.recvPc) (hdelivered : t.delivered = s.delivered) :
    t.FrameInv := by
  refine ⟨?_, ?_⟩
  · rw [hpc]
    exact h.reading
  · rw [hdelivered]
    exact h.delivered

/-- More bytes than before, and no more than were asked for. -/
lemma FrameInv.receive (h : s.FrameInv) {got more : List SourcedByte} {c : ConnId} (hgot : PartialFrame got)
    (hmore : more.length ≤ remainingBytes got) : (s.receive (got ++ more) c).FrameInv := by
  have hbound : got.length < 8 → (got ++ more).length ≤ 8 := by
    intro hlt
    rw [remainingBytes] at hmore
    rw [List.length_append]
    split at hmore <;> omega
  have hpayload : 8 ≤ got.length → malformedHeader (got ++ more) = false ∧
      (got ++ more).length ≤ 8 + headerField (got ++ more) 4 := by
    intro hle
    obtain ⟨hheader, hlt⟩ := hgot hle
    rw [remainingBytes, if_neg (by omega), if_neg (by omega)] at hmore
    rw [malformedHeader_append more hle, headerField_append more (by omega), List.length_append]
    exact ⟨hheader, by omega⟩
  unfold SocketState.receive
  split
  · exact h.moves (by simp)
  · rename_i hok
    split
    · rename_i hfull
      refine ⟨by simp, fun frame hframe => ?_⟩
      rcases List.mem_append.mp hframe with hframe | hframe
      · exact h.delivered frame hframe
      · rw [List.mem_singleton.mp hframe]
        have hle : 8 ≤ got.length := by
          by_contra hlt
          have := hbound (by omega)
          omega
        exact completeFrame_of_length (hpayload hle).1 hfull.2
    · rename_i hnotFull
      apply h.moves
      intro got' call he hle
      cases he
      by_cases hlt : got.length < 8
      · have hheader : malformedHeader (got ++ more) = false := by
          have := hbound hlt
          exact Bool.eq_false_iff.mpr fun hbad => hok ⟨by omega, hbad⟩
        have hpos : headerField (got ++ more) 4 ≠ 0 := by
          intro hzero
          simp [malformedHeader, hzero] at hheader
        have := hbound hlt
        exact ⟨hheader, by omega⟩
      · obtain ⟨hheader, hsize⟩ := hpayload (by omega)
        refine ⟨hheader, ?_⟩
        have hgt : 8 < (got ++ more).length ∨ more = [] := by
          cases more with
          | nil => exact .inr rfl
          | cons x more =>
            rw [List.length_append, List.length_cons]
            exact .inl (by omega)
        rcases hgt with hgt | rfl
        · omega
        · rw [List.append_nil] at hle ⊢
          exact (hgot hle).2

lemma FrameInv.recvStep (h : s.FrameInv) {event : RecvEvent} (hn : s.recvStep event = some t) : t.FrameInv := by
  rcases recvStep_cases hn with ⟨pc, rfl, hgot⟩ | ⟨got, fd, hpc, -, rfl⟩ | ⟨got, fd, named, c, hpc, -, rfl⟩ |
    ⟨got, c, bs, -, hpc, -, hsize, rfl⟩ | ⟨got, c, -, hpc, rfl⟩ | ⟨failed, hpc, rfl⟩
  · apply h.moves
    intro got call he hle
    rw [(hgot got call he).1, List.length_nil] at hle
    omega
  · apply h.moves
    intro got' call he
    cases he
    exact h.reading got .fetch hpc
  · apply h.moves
    intro got' call he
    cases he
    exact h.reading got (.call fd named) hpc
  · apply h.receive (h.reading got (.blocked c) hpc)
    rwa [List.length_map]
  · apply h.moves
    intro got' call he
    cases he
    exact h.reading got (.blocked c) hpc
  · have hdisconnected : s.disconnectSocket.FrameInv := h.congr (by simp) (by simp)
    exact hdisconnected.moves (by simp)

lemma FrameInv.next {maxSize : Nat} {a : SocketAction} (h : s.FrameInv)
    (hn : (socketSystem maxSize).next s a = some t) : t.FrameInv := by
  cases a with
  | sendFrame data =>
    cases hn
    obtain ⟨queue, dropCount, accepted, he⟩ := s.sendFrame_eq data
    rw [he]
    exact h.congr rfl rfl
  | sendLoop event =>
    rcases sendStep_cases hn with hquiet | ⟨fd, -, -, rfl⟩ | ⟨fd, -, -, rfl⟩ | ⟨-, rfl⟩
    · exact h.congr hquiet.recvPc hquiet.delivered
    · exact h.congr rfl rfl
    · exact h.congr rfl rfl
    · exact h.congr (by simp) (by simp)
  | recvLoop event => exact h.recvStep hn
  | stop =>
    simp only [socketSystem, stopStep] at hn
    split at hn <;> cases hn
    · exact h.congr rfl rfl
    · exact h.congr rfl rfl
    · exact h.congr (by simp) (by simp)

end SocketState

/-- Whatever the threads do, what the callback receives has the form of a frame. -/
theorem delivered_completeFrame {maxSize : Nat} {s : SocketState} (h : (socketSystem maxSize).Reachable s) :
    ∀ frame ∈ s.delivered, CompleteFrame frame := by
  have hinv : s.FrameInv :=
    h.invariant ⟨by simp [socketSystem], by simp [socketSystem]⟩ fun _ _ _ ht _ hn => ht.next hn
  exact hinv.delivered

end MediaAgent
