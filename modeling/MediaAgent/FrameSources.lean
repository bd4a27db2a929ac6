import MediaAgent.SocketThreads

/-!
# The connection that a received frame comes from

`recvLoop` takes `fd_` anew for every `recv` of a frame. The bytes of a frame come from one connection
as long as no connection is made between two `recv` calls of a frame, and a `recv` that was entered
on an older connection ends the frame; otherwise a frame can begin on one connection and end on the
next.
-/

namespace MediaAgent
open Std ByteReader TreeMaps Transition

/-- No connection is made between two `recv` calls of a frame, and a `recv` on a connection that is not
the newest fails or finds the end of the stream, or is interrupted before the frame has begun. -/
def connectsBetweenFrames (s : SocketState) : SocketAction → Bool
  | .sendLoop (.connected _) =>
    match s.recvPc with
    | .reading _ (.blocked _) => true
    | .reading got _ => got.isEmpty
    | _ => true
  | .recvLoop (.received _) =>
    match s.recvPc with
    | .reading _ (.blocked c) => c + 1 == s.connections
    | _ => true
  | .recvLoop .interrupted =>
    match s.recvPc with
    | .reading got (.blocked c) => c + 1 == s.connections || got.isEmpty
    | _ => true
  | _ => true

namespace SocketState

/-- All bytes of a frame come from one connection. -/
def OneSource (frame : List SourcedByte) : Prop := ∀ x ∈ frame, ∀ y ∈ frame, x.1 = y.1

/-- No frame that the callback has received is spliced from two connections. -/
def Unspliced (s : SocketState) : Prop := ∀ frame ∈ s.delivered, OneSource frame

/-- The bytes that `recvLoop` holds come from the connection that it is going to read next: the one it
is inside `recv` on, or the newest. -/
structure SourceInv (s : SocketState) : Prop where
  newest : ∀ (fd : Nat) (c : ConnId), s.descriptors[fd]? = some c → c + 1 = s.connections
  blocked : ∀ got c, s.recvPc = .reading got (.blocked c) → ∀ x ∈ got, x.1 = c
  between : ∀ got pc, s.recvPc = .reading got pc → (∀ c, pc ≠ .blocked c) → ∀ x ∈ got, x.1 + 1 = s.connections
  delivered : s.Unspliced

variable {s t : SocketState}

/-- A step that leaves the connections and `recvLoop` as they are. -/
lemma SourceInv.congr (h : s.SourceInv) (hdescriptors : ∀ (fd : Nat) (c : ConnId),
    t.descriptors[fd]? = some c → s.descriptors[fd]? = some c) (hconnections : t.connections = s.connections)
    (hpc : t.recvPc = s.recvPc) (hdelivered : t.delivered = s.delivered) : t.SourceInv := by
  refine ⟨fun fd c hc => ?_, ?_, ?_, ?_⟩
  · rw [hconnections]
    exact h.newest fd c (hdescriptors fd c hc)
  · rw [hpc]
    exact h.blocked
  · rw [hpc, hconnections]
    exact h.between
  · rw [Unspliced, hdelivered]
    exact h.delivered

/-- `recvLoop` goes to a place where it holds no bytes, or bytes of the newest connection. -/
lemma SourceInv.moves (h : s.SourceInv) {pc : RecvPc} (hblocked : ∀ got c, pc ≠ .reading got (.blocked c))
    (hgot : ∀ got call, pc = .reading got call → ∀ x ∈ got, x.1 + 1 = s.connections) :
    SourceInv { s with recvPc := pc } :=
  ⟨h.newest, fun got c hpc => absurd hpc (hblocked got c), fun got call hpc _ => hgot got call hpc, h.delivered⟩

lemma SourceInv.sendStep (h : s.SourceInv) (hwf : s.Wf) {event : SendEvent}
    (hguard : connectsBetweenFrames s (.sendLoop event) = true) (hn : s.sendStep event = some t) :
    t.SourceInv := by
  rcases sendStep_cases hn with hquiet | ⟨fd, rfl, hpc, rfl⟩ | ⟨fd, -, -, rfl⟩ | ⟨-, rfl⟩
  · apply h.congr _ hquiet.connections hquiet.recvPc hquiet.delivered
    intro fd c hc
    rwa [hquiet.descriptors] at hc
  · -- no other descriptor is open when a connection is made
    have hnone := hwf.no_descriptor hpc
    refine ⟨fun fd' c hc => ?_, h.blocked, fun got pc hr hb x hx => ?_, h.delivered⟩
    · dsimp only at hc
      rw [lookup_insert] at hc
      split at hc
      · rw [Option.some.inj hc]
      · exact absurd hc (hnone fd' c)
    · simp only [connectsBetweenFrames, show s.recvPc = .reading got pc from hr] at hguard
      cases pc with
      | blocked c => exact absurd rfl (hb c)
      | fetch =>
        rw [List.isEmpty_iff.mp hguard] at hx
        cases hx
      | call fd named =>
        rw [List.isEmpty_iff.mp hguard] at hx
        cases hx
  · exact h.congr (fun _ _ hc => hc) rfl rfl rfl
  · exact h.congr (fun _ _ hc => disconnectSocket_descriptors hc) (by simp) (by simp) (by simp)

lemma SourceInv.recvStep (h : s.SourceInv) {event : RecvEvent}
    (hguard : connectsBetweenFrames s (.recvLoop event) = true) (hn : s.recvStep event = some t) :
    t.SourceInv := by
  rcases recvStep_cases hn with ⟨pc, rfl, hgot⟩ | ⟨got, fd, hpc, -, rfl⟩ | ⟨got, fd, named, c, hpc, hc, rfl⟩ |
    ⟨got, c, bs, rfl, hpc, -, -, rfl⟩ | ⟨got, c, rfl, hpc, rfl⟩ | ⟨failed, hpc, rfl⟩
  · apply h.moves
    · intro got c he
      have hfetch := (hgot got _ he).2
      cases hfetch
    · intro got call he x hx
      rw [(hgot got call he).1] at hx
      cases hx
  · apply h.moves
    · simp
    · intro got' call he
      cases he
      exact h.between got .fetch hpc (by simp)
  · -- the call is made on the newest connection, where the bytes come from
    have hsame : ∀ x ∈ got, x.1 = c := fun x hx =>
      Nat.succ.inj ((h.between got (.call fd named) hpc (by simp) x hx).trans (h.newest fd c hc).symm)
    refine ⟨h.newest, fun got' c' he => ?_, fun got' pc he hb => ?_, h.delivered⟩
    · cases he
      exact hsame
    · cases he
      exact absurd rfl (hb c)
  · have hnewest : c + 1 = s.connections := by simpa [connectsBetweenFrames, hpc] using hguard
    have hsource : ∀ x ∈ got ++ bs.map fun b => (c, b), x.1 = c := by
      intro x hx
      rcases List.mem_append.mp hx with hx | hx
      · exact h.blocked got c hpc x hx
      · obtain ⟨b, -, rfl⟩ := List.mem_map.mp hx
        rfl
    rcases receive_cases s (got ++ bs.map fun b => (c, b)) c with he | he | he <;> rw [he]
    · exact h.moves (by simp) (by simp)
    · refine ⟨h.newest, by simp, by simp, fun frame hframe => ?_⟩
      rcases List.mem_append.mp hframe with hframe | hframe
      · exact h.delivered frame hframe
      · rw [List.mem_singleton.mp hframe]
        intro x hx y hy
        rw [hsource x hx, hsource y hy]
    · apply h.moves
      · simp
      · intro got' call he x hx
        cases he
        rw [hsource x hx, hnewest]
  · apply h.moves
    · simp
    · intro got' call he x hx
      cases he
      have hguard : c + 1 = s.connections ∨ got = [] := by simpa [connectsBetweenFrames, hpc] using hguard
      rcases hguard with hnewest | rfl
      · rw [h.blocked got c hpc x hx, hnewest]
      · cases hx
  · have hdisconnected : s.disconnectSocket.SourceInv :=
      h.congr (fun _ _ hc => disconnectSocket_descriptors hc) (by simp) (by simp) (by simp)
    exact hdisconnected.moves (by simp) (by simp)

lemma SourceInv.next {maxSize : Nat} {a : SocketAction} (h : s.SourceInv) (hwf : s.Wf)
    (hguard : connectsBetweenFrames s a = true) (hn : (socketSystem maxSize).next s a = some t) :
    t.SourceInv := by
  cases a with
  | sendFrame data =>
    cases hn
    obtain ⟨queue, dropCount, accepted, he⟩ := s.sendFrame_eq data
    rw [he]
    exact h.congr (fun _ _ hc => hc) rfl rfl rfl
  | sendLoop event => exact h.sendStep hwf hguard hn
  | recvLoop event => exact h.recvStep hguard hn
  | stop =>
    simp only [socketSystem, stopStep] at hn
    split at hn <;> cases hn
    · exact h.congr (fun _ _ hc => hc) rfl rfl rfl
    · exact h.congr (fun _ _ hc => hc) rfl rfl rfl
    · exact h.congr (fun _ _ hc => disconnectSocket_descriptors hc) (by simp) (by simp) (by simp)

lemma SourceInv.init (maxSize : Nat) : SourceInv { maxSize := maxSize } := by
  refine ⟨fun fd c hc => ?_, by simp, by simp, by simp [Unspliced]⟩
  simp at hc

end SocketState

/-- As long as no connection is made between two `recv` calls of a frame, every frame that is delivered
comes from one connection. -/
theorem unspliced_of_connectsBetweenFrames {maxSize : Nat} {s : SocketState}
    (h : (socketSystem maxSize).ReachableWhen (fun s a => connectsBetweenFrames s a = true) s) : s.Unspliced := by
  have hinv : s.SourceInv := by
    apply h.invariant_of fun t ht => socket_wf_reachable (Machine.ReachableWhen.reachable ht)
    · exact SocketState.SourceInv.init maxSize
    · intro t a u hwf ht hguard hn
      exact ht.next hwf hguard hn
  exact hinv.delivered

/-- `sendLoop` connects and `recvLoop` reads a frame of one byte. -/
theorem unspliced_of_connectsBetweenFrames_oneByte :
    ∃ s, (socketSystem 1).ReachableWhen (fun s a => connectsBetweenFrames s a = true) s ∧
      s.delivered.map (List.map Prod.snd) = [[0xDE, 0xAD, 0xBE, 0xEF, 0, 0, 0, 1, 7]] ∧ s.Unspliced := by
  obtain ⟨s, hs, hp⟩ := Machine.reachableWhen_of_exec_any (socketSystem 1) connectsBetweenFrames
    [.sendLoop .turn, .sendLoop .turn, .sendLoop (.connected 5), .sendLoop .turn,
      .recvLoop .turn, .recvLoop .turn, .recvLoop .turn, .recvLoop .turn,
      .recvLoop (.received [0xDE, 0xAD, 0xBE, 0xEF]), .recvLoop .turn, .recvLoop .turn,
      .recvLoop (.received [0, 0, 0, 1]), .recvLoop .turn, .recvLoop .turn, .recvLoop (.received [7])]
    (fun s => s.delivered.map (List.map Prod.snd) == [[0xDE, 0xAD, 0xBE, 0xEF, 0, 0, 0, 1, 7]]) (by decide)
  exact ⟨s, hs, eq_of_beq hp, unspliced_of_connectsBetweenFrames hs⟩

/-- The header of a frame comes from the first connection. A failed `send` then closes it and a second
connection is made, whose first four bytes are delivered as the payload. -/
theorem not_unspliced_after_reconnect : ∃ s, (socketSystem 1).Reachable s ∧ ¬s.Unspliced := by
  obtain ⟨s, hs, hp⟩ := Machine.reachable_of_exec_any (socketSystem 1)
    [.sendFrame [9], .sendLoop .turn, .sendLoop .turn, .sendLoop (.connected 5), .sendLoop .turn,
      .recvLoop .turn, .recvLoop .turn, .recvLoop .turn, .recvLoop .turn, .recvLoop (.received [0xDE, 0xAD, 0xBE, 0xEF]),
      .recvLoop .turn, .recvLoop .turn, .recvLoop (.received [0, 0, 0, 4]),
      .sendLoop .turn, .sendLoop .turn, .sendLoop .turn, .sendLoop .failed, .sendLoop .turn,
      .sendLoop .turn, .sendLoop .turn, .sendLoop (.connected 5), .sendLoop .turn,
      .recvLoop .turn, .recvLoop .turn, .recvLoop (.received [0xDE, 0xAD, 0xBE, 0xEF])]
    (fun s => s.delivered.any fun frame => frame.any fun x => frame.any fun y => x.1 != y.1) (by decide)
  refine ⟨s, hs, fun h => ?_⟩
  simp only [List.any_eq_true, bne_iff_ne, ne_eq] at hp
  obtain ⟨frame, hframe, x, hx, y, hy, hne⟩ := hp
  exact hne (h frame hframe x hx y hy)

end MediaAgent
