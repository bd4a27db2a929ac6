import MediaAgent.StreamTypes
import MediaAgent.Library.ByteReader

/-!
# Frames on the local socket

`sendRaw` writes a header and a payload with `send` calls that may each take a part of the bytes;
`recvLoop` reads them back with `recv` calls that may each return a part. A frame is four bytes of
magic, four bytes of payload length, both big-endian, and the payload.
-/

namespace MediaAgent
open ByteReader

def kMagic : Nat := 0xDEADBEEF

def kMaxFrameSize : Nat := 4 * 1024 * 1024

/-! ## Writing -/

/-- What one `recv` finds: some bytes, none because the peer has closed, `EINTR`, or another error. -/
inductive RecvResult
  | bytes (bs : Bytes)
  | interrupted
  | failed
  deriving DecidableEq, Repr

/-- The loop of `readAll`. A `recv` returns at most what is asked for, and the rest is found by the
next one; when nothing is left the peer has closed. -/
def readBytes : List RecvResult → Nat → Option (Bytes × List RecvResult)
  | results, 0 => some ([], results)
  | [], _ + 1 => none
  | .interrupted :: results, remaining + 1 => readBytes results (remaining + 1)
  | .failed :: _, _ + 1 => none
  | .bytes bs :: results, remaining + 1 =>
    if bs = [] then none
    else if remaining + 1 < bs.length then
      some (bs.take (remaining + 1), .bytes (bs.drop (remaining + 1)) :: results)
    else (readBytes results (remaining + 1 - bs.length)).map fun r => (bs ++ r.1, r.2)

def readAll (len : Nat) : StateT (List RecvResult) Option Bytes := fun results => readBytes results len

/-- A turn of `recvLoop`: the payload that the callback receives, or nothing when it disconnects. -/
def recvFrame : StateT (List RecvResult) Option Bytes := do
  let magic ← readAll 4
  let length ← readAll 4
  if ofBE magic ≠ kMagic then failure
  else if ofBE length = 0 ∨ kMaxFrameSize < ofBE length then failure
  else readAll (ofBE length)

/-- What the callback receives on one connection in at most `n` turns. -/
def recvLoop (n : Nat) (results : List RecvResult) : List Bytes := rounds recvFrame n results

/-! ## The frame format -/

/-- The bytes that `recv` delivers before the peer closes or an error ends the connection. -/
def received : List RecvResult → Bytes
  | [] => []
  | .interrupted :: results => received results
  | .failed :: _ => []
  | .bytes bs :: results => if bs = [] then [] else bs ++ received results

def ValidPayload (payload : Bytes) : Prop := 1 ≤ payload.length ∧ payload.length ≤ kMaxFrameSize

def encodeFrame (payload : Bytes) : Bytes := toBE 4 kMagic ++ toBE 4 payload.length ++ payload

/-- The bytes end within a frame, or start with a malformed header. -/
def NotFrame (bs : Bytes) : Prop :=
  bs.length < 8 ∨ ofBE (bs.take 4) ≠ kMagic ∨ ofBE ((bs.drop 4).take 4) = 0 ∨
    kMaxFrameSize < ofBE ((bs.drop 4).take 4) ∨ bs.length < 8 + ofBE ((bs.drop 4).take 4)

/-- Reading a frame from the bytes of a connection. -/
def frame : Reader Bytes := do
  let magic ← bytes 4
  let length ← bytes 4
  if ofBE magic ≠ kMagic then failure
  else if ofBE length = 0 ∨ kMaxFrameSize < ofBE length then failure
  else bytes (ofBE length)

lemma length_encodeFrame (payload : Bytes) : (encodeFrame payload).length = 8 + payload.length := by
  rw [encodeFrame, List.length_append, List.length_append, length_toBE, length_toBE]

/-- The length field of a valid payload is read back. -/
lemma ofBE_length {payload : Bytes} (h : ValidPayload payload) :
    ofBE (toBE 4 payload.length) = payload.length := by
  have hmax : payload.length ≤ 4 * 1024 * 1024 := h.2
  rw [ofBE_toBE]
  apply Nat.mod_eq_of_lt
  omega

/-- What is read as a frame is the frame of a valid payload. -/
lemma frame_run_eq_some {bs payload rest : Bytes} (h : frame.run bs = some (payload, rest)) :
    bs = encodeFrame payload ++ rest ∧ ValidPayload payload := by
  obtain ⟨magic, bs₁, hmagic, h⟩ := bind_run_eq_some.mp h
  obtain ⟨length, bs₂, hlength, h⟩ := bind_run_eq_some.mp h
  obtain ⟨hle, hmagic, hbs₁⟩ := bytes_run_eq_some hmagic
  obtain ⟨hle', hlength, hbs₂⟩ := bytes_run_eq_some hlength
  split at h
  · cases h
  rename_i hm
  split at h
  · cases h
  rename_i hn
  obtain ⟨hle'', hpayload, hrest⟩ := bytes_run_eq_some h
  have hsize : payload.length = ofBE length := by
    rw [hpayload, List.length_take]
    omega
  have hmagic' : toBE 4 kMagic = magic := by
    have h4 : magic.length = 4 := by
      rw [hmagic, List.length_take]
      omega
    rw [← not_not.mp hm, ← h4, toBE_ofBE]
  have hlength' : toBE 4 payload.length = length := by
    have h4 : length.length = 4 := by
      rw [hlength, List.length_take]
      omega
    rw [hsize, ← h4, toBE_ofBE]
  constructor
  · rw [encodeFrame, hmagic', hlength', hpayload, hrest, List.append_assoc, List.take_append_drop, hlength, hbs₂,
      List.append_assoc, List.take_append_drop, hmagic, hbs₁, List.take_append_drop]
  · rw [ValidPayload, hsize]
    omega

lemma frame_run_eq_none {bs : Bytes} (h : frame.run bs = none) : NotFrame bs := by
  by_contra hframe
  simp only [NotFrame, not_or, not_lt, ne_eq, not_not] at hframe
  obtain ⟨hheader, hmagic, hpos, hmax, hpayload⟩ := hframe
  have h4 : (bytes 4).run bs = some (bs.take 4, bs.drop 4) := if_pos (by omega)
  have h4' : (bytes 4).run (bs.drop 4) = some ((bs.drop 4).take 4, (bs.drop 4).drop 4) :=
    if_pos (by rw [List.length_drop]; omega)
  have hnone := bind_run_eq_none.mp (bind_run_eq_none.mp h _ _ h4) _ _ h4'
  rw [hmagic, if_neg (by simp), if_neg (by omega)] at hnone
  simp only [bytes, StateT.run, List.length_drop, ite_eq_right_iff, reduceCtorEq] at hnone
  exact hnone (by omega)

end MediaAgent
