import Mathlib.Data.List.Basic
import MediaAgent.SocketThreads

/-!
# What is written to the local socket

`sendLoop` takes a payload from the queue, writes its frame in up to three parts with `send` calls that
may each take a piece, and gives the frame up at the first failure. A frame that has been cut ends its
connection: the next frame begins on a new one. Every accepted payload is in the queue, has been dropped,
sent or given up, or is the one being written.
-/

namespace MediaAgent
open Std ByteReader TreeMaps Transition

/-- The bytes that have been written to a connection. -/
def bytesOn (c : ConnId) (written : List SourcedByte) : Bytes := (written.filter fun b => b.1 == c).map Prod.snd

/-- Nothing, or a proper prefix of the frame of an accepted payload. -/
def CutFrame (accepted : List Bytes) (bs : Bytes) : Prop :=
  bs = [] ∨ ∃ data ∈ accepted, bs <+: encodeFrame data ∧ bs ≠ encodeFrame data

lemma bytesOn_append (c : ConnId) (written more : List SourcedByte) :
    bytesOn c (written ++ more) = bytesOn c written ++ bytesOn c more := by
  rw [bytesOn, List.filter_append, List.map_append, bytesOn, bytesOn]

lemma bytesOn_self (c : ConnId) (bs : Bytes) : bytesOn c (bs.map fun b => (c, b)) = bs := by
  induction bs with
  | nil => rfl
  | cons b bs ih =>
    rw [bytesOn] at ih
    simp [bytesOn, ih]

lemma bytesOn_other {c d : ConnId} (h : d ≠ c) (bs : Bytes) : bytesOn c (bs.map fun b => (d, b)) = [] := by
  induction bs with
  | nil => rfl
  | cons b bs _ => simp [bytesOn, h]

/-- One more frame on the newest connection. -/
lemma flatMap_range_update (frames : ConnId → List Bytes) (c : ConnId) (data : Bytes) :
    (List.range (c + 1)).flatMap (Function.update frames c (frames c ++ [data])) =
      (List.range (c + 1)).flatMap frames ++ [data] := by
  have hbefore : (List.range c).flatMap (Function.update frames c (frames c ++ [data])) =
      (List.range c).flatMap frames := by
    apply List.flatMap_congr
    intro d hd
    rw [Function.update_of_ne (Nat.ne_of_lt (List.mem_range.mp hd))]
  rw [List.range_succ, List.flatMap_append, List.flatMap_append, hbefore, List.flatMap_singleton,
    List.flatMap_singleton, Function.update_self, List.append_assoc]

/-- Bytes of the frame are left. -/
lemma cutFrame_of_left {accepted : List Bytes} {data bs left : Bytes} (hdata : data ∈ accepted)
    (hframe : bs ++ left = encodeFrame data) (hleft : left ≠ []) : CutFrame accepted bs := by
  refine .inr ⟨data, hdata, ?_, fun he => ?_⟩
  · rw [← hframe]
    exact List.prefix_append bs left
  · rw [← he] at hframe
    exact hleft (List.self_eq_append_right.mp hframe.symm)

lemma CutFrame.mono {accepted more : List Bytes} {bs : Bytes} (h : CutFrame accepted bs) :
    CutFrame (accepted ++ more) bs := by
  rcases h with h | ⟨data, hdata, h⟩
  · exact .inl h
  · exact .inr ⟨data, List.mem_append_left more hdata, h⟩

/-- The payload that `sendLoop` holds. -/
def SendPc.held : SendPc → List Bytes
  | .writing data _ _ => [data]
  | _ => []

/-- The next frame is going to be written after what has been written so far. -/
def SendPc.BetweenFrames (pc : SendPc) (fd : Option Nat) : Prop :=
  match pc with
  | .popping | .publishing _ => True
  | .loop | .running => fd ≠ none
  | _ => False

namespace SocketState

/-- The frames that are complete on each connection and what follows the last of them. The frame that is
being written counts as cut until it is complete. -/
structure Sent (s : SocketState) (frames : ConnId → List Bytes) (rest : ConnId → Bytes) : Prop where
  bytes : ∀ c, bytesOn c s.written = (frames c).flatMap encodeFrame ++ rest c
  order : ((List.range s.connections).flatMap frames ++ s.sendPc.held ++ s.queue).Sublist s.accepted
  fresh : ∀ c, s.connections ≤ c → frames c = [] ∧ rest c = []
  cut : ∀ c, CutFrame s.accepted (rest c) ∨ (c + 1 = s.connections ∧ s.sendPc.held ≠ [])
  clean : s.sendPc.BetweenFrames s.fd → ∀ c, c + 1 = s.connections → rest c = []
  writing : ∀ data parts pc, s.sendPc = .writing data parts pc →
    ∃ c, c + 1 = s.connections ∧ rest c ++ parts.flatten = encodeFrame data

/-- A call of `send` is made on the newest connection, for bytes that are left. -/
structure SendInv (s : SocketState) : Prop where
  newest : ∀ (fd : Nat) (c : ConnId), s.descriptors[fd]? = some c → c + 1 = s.connections
  opened : s.fd ≠ none ∨ s.sendPc = .popping ∨ (∃ fd, s.sendPc = .publishing fd) → 0 < s.connections
  calling : ∀ data parts pc, s.sendPc = .writing data parts pc → pc ≠ .fetch → parts.flatten ≠ []
  blocked : ∀ data parts c, s.sendPc = .writing data parts (.blocked c) → c + 1 = s.connections
  sent : ∃ frames rest, s.Sent frames rest

/-- Every accepted payload is accounted for. -/
def Accounted (s : SocketState) : Prop :=
  s.accepted.length = s.sentCount + s.failedCount + s.dropCount + s.queue.length + s.sendPc.held.length

variable {s t : SocketState} {frames : ConnId → List Bytes} {rest : ConnId → Bytes}

/-! ## The steps of the others -/

/-- A step that leaves `sendLoop` and the connections made as they are, and may take `fd_` away. -/
lemma SendInv.congr (h : s.SendInv) (hdescriptors : ∀ (fd : Nat) (c : ConnId),
    t.descriptors[fd]? = some c → s.descriptors[fd]? = some c) (hconnections : t.connections = s.connections)
    (hfd : t.fd ≠ none → s.fd ≠ none) (hpc : t.sendPc = s.sendPc) (hwritten : t.written = s.written)
    (hqueue : t.queue = s.queue) (haccepted : t.accepted = s.accepted) : t.SendInv := by
  obtain ⟨frames, rest, hsent⟩ := h.sent
  refine ⟨fun fd c hc => ?_, fun hopen => ?_, ?_, ?_, frames, rest, ?_⟩
  · rw [hconnections]
    exact h.newest fd c (hdescriptors fd c hc)
  · rw [hconnections]
    apply h.opened
    rw [hpc] at hopen
    exact hopen.imp_left hfd
  · rw [hpc]
    exact h.calling
  · rw [hpc, hconnections]
    exact h.blocked
  · refine ⟨?_, ?_, ?_, ?_, fun hclean => ?_, ?_⟩
    · rw [hwritten]
      exact hsent.bytes
    · rw [hconnections, hpc, hqueue, haccepted]
      exact hsent.order
    · rw [hconnections]
      exact hsent.fresh
    · rw [haccepted, hconnections, hpc]
      exact hsent.cut
    · rw [hconnections]
      apply hsent.clean
      rw [hpc] at hclean
      revert hclean
      cases s.sendPc <;> first | exact id | exact hfd
    · rw [hpc, hconnections]
      exact hsent.writing

lemma SendInv.disconnectSocket (h : s.SendInv) : s.disconnectSocket.SendInv := by
  rw [disconnectSocket_eq]
  exact h.congr (fun _ _ hc => disconnectSocket_descriptors hc) rfl (fun hfd => absurd rfl hfd) rfl rfl rfl rfl

/-- The queue gets the payload at its end and may lose its oldest one. -/
lemma Sent.enqueue (h : s.Sent frames rest) {queue : List Bytes} (hqueue : queue.Sublist s.queue) (data : Bytes)
    (dropCount : Nat) : Sent { s with
      queue := queue ++ [data], dropCount := dropCount, accepted := s.accepted ++ [data] } frames rest := by
  refine ⟨h.bytes, ?_, h.fresh, fun c => (h.cut c).imp_left CutFrame.mono, h.clean, h.writing⟩
  dsimp only
  rw [← List.append_assoc]
  apply List.Sublist.append _ (List.Sublist.refl [data])
  exact List.Sublist.trans (List.Sublist.append (List.Sublist.refl _) hqueue) h.order

lemma SendInv.sendFrame (h : s.SendInv) (data : Bytes) : (s.sendFrame data).SendInv := by
  obtain ⟨frames, rest, hsent⟩ := h.sent
  unfold SocketState.sendFrame
  split
  · exact h
  · split
    · exact ⟨h.newest, h.opened, h.calling, h.blocked, frames, rest, hsent.enqueue (List.drop_sublist 1 _) data _⟩
    · exact ⟨h.newest, h.opened, h.calling, h.blocked, frames, rest, hsent.enqueue (List.Sublist.refl _) data _⟩

/-! ## The steps of `sendLoop` -/

/-- `sendLoop` goes to another place without a payload in hand, where the next frame follows what has been
written only if it did so before. -/
lemma SendInv.moves (h : s.SendInv) {pc : SendPc} (hheld : s.sendPc.held = []) (hheld' : pc.held = [])
    (hclean : pc.BetweenFrames s.fd → s.sendPc.BetweenFrames s.fd)
    (hopened : pc = .popping ∨ (∃ fd, pc = .publishing fd) → 0 < s.connections) :
    SendInv { s with sendPc := pc } := by
  have hnot : ∀ data parts call, pc ≠ .writing data parts call := by
    rintro data parts call rfl
    cases hheld'
  obtain ⟨frames, rest, hsent⟩ := h.sent
  refine ⟨h.newest, fun hopen => ?_, fun data parts call hpc => absurd hpc (hnot data parts call),
    fun data parts c hpc => absurd hpc (hnot data parts _), frames, rest, ?_⟩
  · rcases hopen with hfd | hpc
    · exact h.opened (.inl hfd)
    · exact hopened hpc
  · refine ⟨hsent.bytes, ?_, hsent.fresh, fun c => ?_, fun hb => hsent.clean (hclean hb),
      fun data parts call hpc => absurd hpc (hnot data parts call)⟩
    · have horder := hsent.order
      rw [hheld] at horder
      dsimp only
      rwa [hheld']
    · rcases hsent.cut c with hcut | hcut
      · exact .inl hcut
      · exact absurd hheld hcut.2

/-- A payload is taken from the queue. -/
lemma SendInv.pop (h : s.SendInv) {data : Bytes} {queue : List Bytes} (hpc : s.sendPc = .popping)
    (hqueue : s.queue = data :: queue) : SendInv { s with
      queue := queue
      sendPc := .writing data [toBE 4 kMagic, toBE 4 (data.length % 2 ^ 32), data] .fetch } := by
  obtain ⟨frames, rest, hsent⟩ := h.sent
  have hpos := h.opened (.inr (.inl hpc))
  refine ⟨h.newest, fun _ => hpos, ?_, by simp, frames, rest, ?_⟩
  · intro data' parts call he hcall
    cases he
    exact absurd rfl hcall
  · have hclean : s.sendPc.BetweenFrames s.fd := by
      rw [hpc]
      trivial
    refine ⟨hsent.bytes, ?_, hsent.fresh, fun c => ?_, nofun, ?_⟩
    · have horder := hsent.order
      rw [hpc, hqueue] at horder
      simpa [SendPc.held] using horder
    · rcases hsent.cut c with hcut | hcut
      · exact .inl hcut
      · rw [hpc] at hcut
        exact absurd rfl hcut.2
    · intro data' parts call he
      cases he
      have hmod : toBE 4 (data.length % 2 ^ 32) = toBE 4 data.length := toBE_mod 4 data.length
      refine ⟨s.connections - 1, by dsimp only; omega, ?_⟩
      rw [hsent.clean hclean (s.connections - 1) (by omega), hmod, encodeFrame]
      simp

/-- `sendLoop` comes closer to a call of `send`, with the same bytes left. -/
lemma SendInv.approach (h : s.SendInv) {data : Bytes} {parts parts' : List Bytes} {pc pc' : CallPc}
    (hpc : s.sendPc = .writing data parts pc) (hparts : parts'.flatten = parts.flatten)
    (hcalling : pc' ≠ .fetch → parts.flatten ≠ []) (hblocked : ∀ c, pc' = .blocked c → c + 1 = s.connections) :
    SendInv { s with sendPc := .writing data parts' pc' } := by
  obtain ⟨frames, rest, hsent⟩ := h.sent
  refine ⟨h.newest, fun hopen => ?_, ?_, ?_, frames, rest, ?_⟩
  · rcases hopen with hfd | hpc'
    · exact h.opened (.inl hfd)
    · simp at hpc'
  · intro data' parts' pc' he
    cases he
    rw [hparts]
    exact hcalling
  · intro data' parts' c he
    cases he
    exact hblocked c rfl
  · refine ⟨hsent.bytes, ?_, hsent.fresh, fun c => ?_, nofun, ?_⟩
    · have horder := hsent.order
      rw [hpc] at horder
      exact horder
    · refine (hsent.cut c).imp_right fun hcut => ⟨hcut.1, ?_⟩
      simp [SendPc.held]
    · intro data' parts' pc' he
      cases he
      rw [hparts]
      exact hsent.writing data parts pc hpc

/-- A `send` takes the first bytes of the part. -/
lemma SendInv.wrote (h : s.SendInv) {data part : Bytes} {parts : List Bytes} {c : ConnId}
    (hpc : s.sendPc = .writing data (part :: parts) (.blocked c)) (n : Nat) : SendInv { s with
      written := s.written ++ (part.take n).map fun b => (c, b)
      sendPc := .writing data (part.drop n :: parts) .fetch } := by
  obtain ⟨frames, rest, hsent⟩ := h.sent
  have hc := h.blocked data _ c hpc
  obtain ⟨c', hc', hframe⟩ := hsent.writing data _ _ hpc
  have hsame : c' = c := by
    apply Nat.succ.inj
    rw [Nat.succ_eq_add_one, hc', ← hc]
  subst hsame
  refine ⟨h.newest, fun hopen => ?_, ?_, by simp, frames,
    Function.update rest c' (rest c' ++ part.take n), ?_⟩
  · rcases hopen with hfd | hpc'
    · exact h.opened (.inl hfd)
    · simp at hpc'
  · intro data' parts' pc' he hcall
    cases he
    exact absurd rfl hcall
  · refine ⟨fun d => ?_, ?_, fun d hd => ?_, fun d => ?_, nofun, ?_⟩
    · dsimp only
      rw [bytesOn_append, hsent.bytes d]
      by_cases hd : d = c'
      · subst hd
        rw [bytesOn_self, Function.update_self, List.append_assoc]
      · rw [bytesOn_other (Ne.symm hd), Function.update_of_ne hd, List.append_nil]
    · have horder := hsent.order
      rw [hpc] at horder
      exact horder
    · have hne : d ≠ c' := by
        intro he
        subst he
        dsimp only at hd
        omega
      rw [Function.update_of_ne hne]
      exact hsent.fresh d hd
    · by_cases hd : d = c'
      · subst hd
        exact .inr ⟨hc', by simp [SendPc.held]⟩
      · rw [Function.update_of_ne hd]
        refine (hsent.cut d).imp_right fun hcut => ⟨hcut.1, by simp [SendPc.held]⟩
    · intro data' parts' pc' he
      cases he
      refine ⟨c', hc', ?_⟩
      rw [Function.update_self, ← hframe, List.flatten_cons, List.flatten_cons, List.append_assoc,
        ← List.append_assoc (part.take n), List.take_append_drop]

/-- The frame is complete. -/
lemma SendInv.completed (h : s.SendInv) {data : Bytes} (hpc : s.sendPc = .writing data [] .fetch) :
    SendInv { s with sentCount := s.sentCount + 1, sendPc := .loop } := by
  obtain ⟨frames, rest, hsent⟩ := h.sent
  obtain ⟨c, hc, hframe⟩ := hsent.writing data _ _ hpc
  rw [List.flatten_nil, List.append_nil] at hframe
  refine ⟨h.newest, fun hopen => ?_, nofun, nofun,
    Function.update frames c (frames c ++ [data]), Function.update rest c [], ?_⟩
  · rcases hopen with hfd | hpc'
    · exact h.opened (.inl hfd)
    · simp at hpc'
  · refine ⟨fun d => ?_, ?_, fun d hd => ?_, fun d => ?_, fun _ d hd => ?_, nofun⟩
    · dsimp only
      rw [hsent.bytes d]
      by_cases hd : d = c
      · subst hd
        simp [hframe]
      · rw [Function.update_of_ne hd, Function.update_of_ne hd]
    · have horder := hsent.order
      rw [hpc, ← hc] at horder
      dsimp only
      rw [← hc, flatMap_range_update]
      simpa [SendPc.held] using horder
    · have hne : d ≠ c := by
        intro he
        subst he
        dsimp only at hd
        omega
      rw [Function.update_of_ne hne, Function.update_of_ne hne]
      exact hsent.fresh d hd
    · by_cases hd : d = c
      · subst hd
        rw [Function.update_self]
        exact .inl (.inl rfl)
      · rw [Function.update_of_ne hd]
        rcases hsent.cut d with hcut | hcut
        · exact .inl hcut
        · exact absurd (Nat.succ.inj (hcut.1.trans hc.symm)) hd
    · have he : d = c := Nat.succ.inj (Eq.trans hd hc.symm)
      rw [he, Function.update_self]

/-- A frame is given up. -/
lemma SendInv.failed (h : s.SendInv) {data : Bytes} {parts : List Bytes} {pc : CallPc}
    (hpc : s.sendPc = .writing data parts pc) (hleft : parts.flatten ≠ []) : s.sendFailed.SendInv := by
  obtain ⟨frames, rest, hsent⟩ := h.sent
  obtain ⟨c, hc, hframe⟩ := hsent.writing data _ _ hpc
  have horder := hsent.order
  rw [hpc] at horder
  refine ⟨h.newest, fun hopen => ?_, nofun, nofun, frames, rest, ?_⟩
  · rcases hopen with hfd | hpc'
    · exact h.opened (.inl hfd)
    · simp [sendFailed] at hpc'
  · refine ⟨hsent.bytes, ?_, hsent.fresh, fun d => ?_, nofun, nofun⟩
    · apply List.Sublist.trans _ horder
      apply List.Sublist.append _ (List.Sublist.refl _)
      apply List.Sublist.append (List.Sublist.refl _)
      exact List.nil_sublist _
    · rcases hsent.cut d with hcut | hcut
      · exact .inl hcut
      · have he : d = c := Nat.succ.inj (hcut.1.trans hc.symm)
        subst he
        refine .inl (cutFrame_of_left ?_ hframe hleft)
        apply horder.subset
        simp [SendPc.held]

/-- A connection is made. Nothing has been written to it. -/
lemma SendInv.connect (h : s.SendInv) (hwf : s.Wf) (hpc : s.sendPc = .connecting) (fd : Nat) : SendInv { s with
    descriptors := s.descriptors.insert fd s.connections
    connections := s.connections + 1
    sendPc := .publishing fd } := by
  obtain ⟨frames, rest, hsent⟩ := h.sent
  obtain ⟨hframes, hrest⟩ := hsent.fresh s.connections (Nat.le_refl _)
  refine ⟨fun fd' c hc => ?_, fun _ => Nat.succ_pos _, nofun, nofun, frames, rest, ?_⟩
  · dsimp only at hc
    rw [lookup_insert] at hc
    split at hc
    · rw [Option.some.inj hc]
    · exact absurd hc (hwf.no_descriptor hpc fd' c)
  · refine ⟨hsent.bytes, ?_, fun c hc => hsent.fresh c (Nat.le_of_succ_le hc), fun c => ?_, fun _ c hc => ?_, nofun⟩
    · have horder := hsent.order
      rw [hpc] at horder
      dsimp only
      rw [List.range_succ, List.flatMap_append, List.flatMap_singleton, hframes, List.append_nil]
      exact horder
    · rcases hsent.cut c with hcut | hcut
      · exact .inl hcut
      · rw [hpc] at hcut
        exact absurd rfl hcut.2
    · rw [Nat.succ.inj hc, hrest]

/-- The connection is put into `fd_`. -/
lemma SendInv.publish (h : s.SendInv) {fd : Nat} (hpc : s.sendPc = .publishing fd) :
    SendInv { s with fd := some fd, connected := true, sendPc := .popping } := by
  obtain ⟨frames, rest, hsent⟩ := h.sent
  refine ⟨h.newest, fun _ => h.opened (.inr (.inr ⟨fd, hpc⟩)), nofun, nofun, frames, rest, ?_⟩
  refine ⟨hsent.bytes, ?_, hsent.fresh, fun c => ?_, fun _ => ?_, nofun⟩
  · have horder := hsent.order
    rw [hpc] at horder
    exact horder
  · rcases hsent.cut c with hcut | hcut
    · exact .inl hcut
    · rw [hpc] at hcut
      exact absurd rfl hcut.2
  · apply hsent.clean
    rw [hpc]
    trivial

lemma SendInv.sendStep (h : s.SendInv) (hwf : s.Wf) {event : SendEvent} (hn : s.sendStep event = some t) :
    t.SendInv := by
  cases sendStep_step hn with
  | moves hmove =>
    cases hmove with
    | exits hpc => exact h.moves (by rw [hpc]; rfl) rfl nofun (by simp)
    | runs hpc => exact h.moves (by rw [hpc]; rfl) rfl (by rw [hpc]; exact id) (by simp)
    | keeps hpc hconnected =>
      have hfd : s.fd ≠ none := by
        rw [hwf.connected] at hconnected
        exact Option.isSome_iff_ne_none.mp hconnected
      refine h.moves (by rw [hpc]; rfl) rfl (fun _ => ?_) fun _ => h.opened (.inl hfd)
      rw [hpc]
      exact hfd
    | reconnects hpc _ => exact h.moves (by rw [hpc]; rfl) rfl nofun (by simp)
    | givesUp hpc =>
      refine h.moves (by rw [hpc]; rfl) rfl (fun hfd => ?_) (by simp)
      exact absurd (hwf.reconnecting (.inl hpc)) hfd
    | waits hpc => exact h.moves (by rw [hpc]; rfl) rfl (fun _ => by rw [hpc]; trivial) (by simp)
  | connects hpc => exact h.connect hwf hpc _
  | publishes hpc => exact h.publish hpc
  | pops hpc hqueue => exact h.pop hpc hqueue
  | completes hpc => exact h.completed hpc
  | skips hpc => exact h.approach hpc rfl (fun hcall => absurd rfl hcall) nofun
  | fetches hpc hpart _ => exact h.approach hpc rfl (fun _ => by simp [hpart]) nofun
  | calls hpc hc =>
    refine h.approach hpc rfl (fun _ => h.calling _ _ _ hpc nofun) fun d hd => ?_
    cases hd
    exact h.newest _ _ hc
  | writes hpc _ => exact h.wrote hpc _
  | @fails _ data parts pc hpc hleft =>
    refine h.failed hpc ?_
    by_cases hfetch : pc = .fetch
    · exact hleft hfetch
    · exact h.calling data parts pc hpc hfetch
  | disconnects hpc =>
    refine h.disconnectSocket.moves ?_ rfl ?_ (by simp)
    · rw [disconnectSocket_sendPc, hpc]
      rfl
    · intro hfd
      rw [disconnectSocket_eq] at hfd
      exact absurd rfl hfd

lemma SendInv.next {maxSize : Nat} {a : SocketAction} (h : s.SendInv) (hwf : s.Wf)
    (hn : (socketSystem maxSize).next s a = some t) : t.SendInv := by
  cases a with
  | sendFrame data =>
    cases hn
    exact h.sendFrame data
  | sendLoop event => exact h.sendStep hwf hn
  | recvLoop event =>
    rcases recvStep_cases hn with ⟨pc, rfl, -⟩ | ⟨got, fd, -, -, rfl⟩ | ⟨got, fd, named, c, -, -, rfl⟩ |
      ⟨got, c, bs, -, -, -, -, rfl⟩ | ⟨got, c, -, -, rfl⟩ | ⟨failed, -, rfl⟩
    · exact h.congr (fun _ _ hc => hc) rfl id rfl rfl rfl rfl
    · exact h.congr (fun _ _ hc => hc) rfl id rfl rfl rfl rfl
    · exact h.congr (fun _ _ hc => hc) rfl id rfl rfl rfl rfl
    · rcases receive_cases s (got ++ bs.map fun b => (c, b)) c with he | he | he <;> rw [he] <;>
        exact h.congr (fun _ _ hc => hc) rfl id rfl rfl rfl rfl
    · exact h.congr (fun _ _ hc => hc) rfl id rfl rfl rfl rfl
    · exact h.disconnectSocket.congr (fun _ _ hc => hc) rfl id rfl rfl rfl rfl
  | stop =>
    simp only [socketSystem, stopStep] at hn
    split at hn <;> cases hn
    · exact h.congr (fun _ _ hc => hc) rfl id rfl rfl rfl rfl
    · exact h.congr (fun _ _ hc => hc) rfl id rfl rfl rfl rfl
    · exact h.disconnectSocket.congr (fun _ _ hc => hc) rfl id rfl rfl rfl rfl

lemma SendInv.init (maxSize : Nat) : SendInv { maxSize := maxSize } := by
  refine ⟨fun fd c hc => ?_, by simp, nofun, nofun, fun _ => [], fun _ => [], ?_⟩
  · simp at hc
  · exact ⟨fun _ => rfl, List.Sublist.refl _, fun _ _ => ⟨rfl, rfl⟩, fun _ => .inl (.inl rfl), fun _ _ _ => rfl, nofun⟩

/-! ## The counters -/

/-- Nothing that is counted changes. -/
lemma Accounted.congr (h : s.Accounted) (haccepted : t.accepted = s.accepted) (hsent : t.sentCount = s.sentCount)
    (hfailed : t.failedCount = s.failedCount) (hdrop : t.dropCount = s.dropCount) (hqueue : t.queue = s.queue)
    (hheld : t.sendPc.held = s.sendPc.held) : t.Accounted := by
  rw [Accounted, haccepted, hsent, hfailed, hdrop, hqueue, hheld]
  exact h

lemma Accounted.disconnectSocket (h : s.Accounted) : s.disconnectSocket.Accounted := by
  rw [disconnectSocket_eq]
  exact h

/-- A queue that is full has an oldest payload to drop. -/
lemma Accounted.sendFrame (h : s.Accounted) (hsize : 1 ≤ s.maxSize) (data : Bytes) : (s.sendFrame data).Accounted := by
  rw [Accounted] at h
  unfold SocketState.sendFrame
  split
  · exact h
  · split
    · rename_i hfull
      simp only [Accounted, List.length_append, List.length_drop, List.length_singleton]
      omega
    · simp only [Accounted, List.length_append, List.length_singleton]
      omega

/-- The payload in hand is counted as failed. -/
lemma Accounted.sendFailed (h : s.Accounted) {data : Bytes} {parts : List Bytes} {pc : CallPc}
    (hpc : s.sendPc = .writing data parts pc) : s.sendFailed.Accounted := by
  rw [Accounted, hpc] at h
  simp only [Accounted, SocketState.sendFailed, SendPc.held, List.length_cons, List.length_nil] at h ⊢
  omega

lemma Accounted.sendStep (h : s.Accounted) {event : SendEvent} (hn : s.sendStep event = some t) : t.Accounted := by
  cases sendStep_step hn with
  | moves hmove =>
    refine h.congr rfl rfl rfl rfl rfl ?_
    cases hmove <;> simp [*, SendPc.held]
  | connects hpc => exact h.congr rfl rfl rfl rfl rfl (by rw [hpc]; rfl)
  | publishes hpc => exact h.congr rfl rfl rfl rfl rfl (by rw [hpc]; rfl)
  | pops hpc hqueue =>
    rw [Accounted, hpc, hqueue] at h
    simp only [Accounted, SendPc.held, List.length_cons, List.length_nil] at h ⊢
    omega
  | completes hpc =>
    rw [Accounted, hpc] at h
    simp only [Accounted, SendPc.held, List.length_cons, List.length_nil] at h ⊢
    omega
  | skips hpc => exact h.congr rfl rfl rfl rfl rfl (by rw [hpc]; rfl)
  | fetches hpc _ _ => exact h.congr rfl rfl rfl rfl rfl (by rw [hpc]; rfl)
  | calls hpc _ => exact h.congr rfl rfl rfl rfl rfl (by rw [hpc]; rfl)
  | writes hpc _ => exact h.congr rfl rfl rfl rfl rfl (by rw [hpc]; rfl)
  | fails hpc _ => exact h.sendFailed hpc
  | disconnects hpc =>
    refine h.disconnectSocket.congr rfl rfl rfl rfl rfl ?_
    rw [disconnectSocket_sendPc, hpc]
    rfl

lemma Accounted.next {maxSize : Nat} {a : SocketAction} (h : s.Accounted) (hsize : 1 ≤ s.maxSize)
    (hn : (socketSystem maxSize).next s a = some t) : t.Accounted := by
  cases a with
  | sendFrame data =>
    cases hn
    exact h.sendFrame hsize data
  | sendLoop event => exact h.sendStep hn
  | recvLoop event =>
    rcases recvStep_cases hn with ⟨pc, rfl, -⟩ | ⟨got, fd, -, -, rfl⟩ | ⟨got, fd, named, c, -, -, rfl⟩ |
      ⟨got, c, bs, -, -, -, -, rfl⟩ | ⟨got, c, -, -, rfl⟩ | ⟨failed, -, rfl⟩
    · exact h
    · exact h
    · exact h
    · rcases receive_cases s (got ++ bs.map fun b => (c, b)) c with he | he | he <;> rw [he] <;> exact h
    · exact h
    · exact h.disconnectSocket
  | stop =>
    simp only [socketSystem, stopStep] at hn
    split at hn <;> cases hn
    · exact h
    · exact h
    · exact h.disconnectSocket

/-- The capacity of the queue is the one that it was made with. -/
lemma maxSize_next {maxSize : Nat} {a : SocketAction} (hn : (socketSystem maxSize).next s a = some t) :
    t.maxSize = s.maxSize := by
  cases a with
  | sendFrame data =>
    cases hn
    obtain ⟨queue, dropCount, accepted, he⟩ := s.sendFrame_eq data
    rw [he]
  | sendLoop event => exact (sendStep_reads hn).2
  | recvLoop event => exact (recvStep_reads hn).2
  | stop =>
    simp only [socketSystem, stopStep] at hn
    split at hn <;> cases hn
    · rfl
    · rfl
    · rw [disconnectSocket_eq]

/-- With the frame that is complete but not yet counted, what follows the frames of a connection is cut. -/
lemma SendInv.exists_frames (h : s.SendInv) : ∃ frames : ConnId → List Bytes,
    (∀ c, ∃ rest, bytesOn c s.written = (frames c).flatMap encodeFrame ++ rest ∧ CutFrame s.accepted rest) ∧
    (∀ c, s.connections ≤ c → frames c = []) ∧
    ((List.range s.connections).flatMap frames).Sublist s.accepted := by
  obtain ⟨frames, rest, hsent⟩ := h.sent
  have horder := hsent.order
  cases hpc : s.sendPc with
  | writing data parts pc =>
    obtain ⟨c, hc, hframe⟩ := hsent.writing data parts pc hpc
    rw [hpc] at horder
    have hdata : data ∈ s.accepted := by
      apply horder.subset
      simp [SendPc.held]
    by_cases hleft : parts.flatten = []
    · rw [hleft, List.append_nil] at hframe
      refine ⟨Function.update frames c (frames c ++ [data]), fun d => ?_, fun d hd => ?_, ?_⟩
      · by_cases hd : d = c
        · subst hd
          refine ⟨[], ?_, .inl rfl⟩
          rw [hsent.bytes d, Function.update_self, List.flatMap_append, List.flatMap_singleton, hframe,
            List.append_nil]
        · rw [Function.update_of_ne hd]
          exact ⟨rest d, hsent.bytes d, (hsent.cut d).resolve_right fun hcut =>
            hd (Nat.succ.inj (hcut.1.trans hc.symm))⟩
      · have hne : d ≠ c := by omega
        rw [Function.update_of_ne hne]
        exact (hsent.fresh d hd).1
      · rw [← hc] at horder ⊢
        rw [flatMap_range_update]
        exact (List.sublist_append_left _ _).trans horder
    · refine ⟨frames, fun d => ⟨rest d, hsent.bytes d, ?_⟩, fun d hd => (hsent.fresh d hd).1, ?_⟩
      · rcases hsent.cut d with hcut | hcut
        · exact hcut
        · have he : d = c := Nat.succ.inj (hcut.1.trans hc.symm)
          subst he
          exact cutFrame_of_left hdata hframe hleft
      · exact ((List.sublist_append_left _ _).trans (List.sublist_append_left _ _)).trans horder
  | _ =>
    refine ⟨frames, fun d => ⟨rest d, hsent.bytes d, ?_⟩, fun d hd => (hsent.fresh d hd).1, ?_⟩
    · refine (hsent.cut d).resolve_right fun hcut => hcut.2 ?_
      rw [hpc]
      rfl
    · exact ((List.sublist_append_left _ _).trans (List.sublist_append_left _ _)).trans horder

end SocketState

/-- On every connection there are complete frames and at most one proper prefix of a frame; the complete
frames over all connections are among the accepted payloads, in their order; and every accepted payload
has been sent, given up or dropped, or is queued or held by `sendLoop`. -/
theorem frames_written_and_accounted {maxSize : Nat} (hsize : 1 ≤ maxSize) {s : SocketState}
    (h : (socketSystem maxSize).Reachable s) :
    (∃ frames : ConnId → List Bytes,
      (∀ c, ∃ rest, bytesOn c s.written = (frames c).flatMap encodeFrame ++ rest ∧ CutFrame s.accepted rest) ∧
      (∀ c, s.connections ≤ c → frames c = []) ∧
      ((List.range s.connections).flatMap frames).Sublist s.accepted) ∧ s.Accounted := by
  constructor
  · have hinv : s.SendInv := by
      apply h.invariant_of fun t ht => socket_wf_reachable ht
      · exact SocketState.SendInv.init maxSize
      · intro t a u hwf ht _ hn
        exact ht.next hwf hn
    exact hinv.exists_frames
  · have hinv : s.maxSize = maxSize ∧ s.Accounted := by
      apply h.invariant ⟨rfl, rfl⟩
      intro t a u ht _ hn
      refine ⟨(SocketState.maxSize_next hn).trans ht.1, ht.2.next ?_ hn⟩
      rw [ht.1]
      exact hsize
    exact hinv.2

/-- Two payloads go through a queue of one place: the first is dropped, the second is cut on the first
connection, and a third is written on the next one. -/
theorem frames_written_and_accounted_cut : 1 ≤ 1 ∧ ∃ s, (socketSystem 1).Reachable s ∧
    bytesOn 0 s.written = [0xDE, 0xAD] ∧ bytesOn 1 s.written = encodeFrame [3] ∧
    (s.sentCount, s.failedCount, s.dropCount) = (1, 1, 1) ∧ s.Accounted ∧
    ∃ frames : ConnId → List Bytes, ((List.range s.connections).flatMap frames).Sublist s.accepted := by
  obtain ⟨s, hs, hp⟩ := Machine.reachable_of_exec_any (socketSystem 1)
    [.sendFrame [1], .sendFrame [2], .sendLoop .turn, .sendLoop .turn, .sendLoop (.connected 5), .sendLoop .turn,
      .sendLoop .turn, .sendLoop .turn, .sendLoop .turn, .sendLoop (.sent 2), .sendLoop .turn, .sendLoop .turn,
      .sendLoop .failed, .sendLoop .turn, .sendFrame [3], .sendLoop .turn, .sendLoop .turn,
      .sendLoop (.connected 5), .sendLoop .turn, .sendLoop .turn, .sendLoop .turn, .sendLoop .turn,
      .sendLoop (.sent 4), .sendLoop .turn, .sendLoop .turn, .sendLoop .turn, .sendLoop (.sent 4), .sendLoop .turn,
      .sendLoop .turn, .sendLoop .turn, .sendLoop (.sent 1), .sendLoop .turn, .sendLoop .turn]
    (fun s => decide (bytesOn 0 s.written = [0xDE, 0xAD] ∧ bytesOn 1 s.written = encodeFrame [3] ∧
      (s.sentCount, s.failedCount, s.dropCount) = (1, 1, 1))) (by decide)
  obtain ⟨hcut, hwritten, hcounts⟩ := of_decide_eq_true hp
  obtain ⟨⟨frames, -, -, horder⟩, haccounted⟩ := frames_written_and_accounted (Nat.le_refl 1) hs
  exact ⟨Nat.le_refl 1, s, hs, hcut, hwritten, hcounts, haccounted, frames, horder⟩

end MediaAgent
