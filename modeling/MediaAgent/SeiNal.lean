import MediaAgent.Library.NalUnits
import MediaAgent.StreamTypes

/-!
# The SEI NAL unit

`buildH264SeiNal` and `buildH265SeiNal` of `stream/SeiInjector.cpp`, and the reader of an SEI
message that a decoder has: drop the NAL header, undo the emulation prevention, read the type
and the size as runs of 0xFF, and take the payload.
-/

namespace MediaAgent
open ByteReader NalUnits

/-- The loop pushes 0xFF as long as the rest of the value does not fit in a byte below it. -/
def appendSeiLength (rbsp : Bytes) (value : Nat) : Bytes :=
  if 0xFF ≤ value then appendSeiLength (rbsp ++ [0xFF]) (value - 0xFF)
  else rbsp ++ [UInt8.ofNat value]
termination_by value
decreasing_by omega

/-- One turn of the loop of `toEbsp`, on the bytes so far and `zero_count`. -/
def toEbspStep (s : Bytes × Nat) (byte : UInt8) : Bytes × Nat :=
  let (ebsp, zeroCount) := if s.2 ≥ 2 ∧ byte ≤ 0x03 then (s.1 ++ [0x03], 0) else s
  (ebsp ++ [byte], if byte = 0x00 then zeroCount + 1 else 0)

def toEbsp (rbsp : Bytes) : Bytes := (rbsp.foldl toEbspStep ([], 0)).1

/-- The message of type 5, `user_data_unregistered`, with the stop bit. -/
def seiRbsp (payload : Bytes) : Bytes :=
  let rbsp := appendSeiLength [] 5
  let rbsp := appendSeiLength rbsp payload.length
  let rbsp := rbsp ++ payload
  rbsp ++ [0x80]

def buildSeiNal (header payload : Bytes) : Bytes := header ++ toEbsp (seiRbsp payload)

def buildH264SeiNal (payload : Bytes) : Bytes := buildSeiNal [0x06] payload

def buildH265SeiNal (payload : Bytes) : Bytes := buildSeiNal [UInt8.ofNat (39 <<< 1), 0x01] payload

/-! ## The reader -/

structure SeiMessage where
  payloadType : Nat
  payloadSize : Nat
  payload : Bytes
  deriving DecidableEq, Repr

/-- A run of 0xFF bytes and a final byte, added up. -/
def seiValue : Reader Nat := fun bs => go bs
where
  go : Bytes → Option (Nat × Bytes)
    | [] => none
    | b :: bs => if b = 0xFF then (go bs).map fun (n, rest) => (0xFF + n, rest) else some (b.toNat, bs)

def seiMessage : Reader SeiMessage := do
  let payloadType ← seiValue
  let payloadSize ← seiValue
  let payload ← bytes payloadSize
  return ⟨payloadType, payloadSize, payload⟩

/-- The header of an SEI NAL unit: type 6 in one byte, or the prefix SEI type 39 in two. -/
def seiHeader (codecType : SeiCodecType) : Reader Unit :=
  match codecType with
  | .h264 => do
    let b ← byte
    require (b &&& 0x1F == 6)
  | .h265 => do
    let b ← byte
    require ((b >>> 1) &&& 0x3F == 39)
    let _ ← byte
    return ()

/-- The message of an SEI NAL unit, with the bytes that follow it. -/
def readSeiNal (codecType : SeiCodecType) (nal : Bytes) : Option (SeiMessage × Bytes) :=
  match (seiHeader codecType).run nal with
  | none => none
  | some (_, ebsp) => seiMessage.run (unescapeFrom 0 ebsp)

/-! ## The round trip -/

lemma appendSeiLength_eq (rbsp : Bytes) (value : Nat) : appendSeiLength rbsp value =
    rbsp ++ (List.replicate (value / 255) 0xFF ++ [UInt8.ofNat (value % 255)]) := by
  induction rbsp, value using appendSeiLength.induct with
  | case1 rbsp value h ih =>
    have hdiv : value / 255 = (value - 255) / 255 + 1 := by omega
    have hmod : value % 255 = (value - 255) % 255 := by omega
    rw [appendSeiLength, if_pos h, ih, hdiv, hmod, List.replicate_succ]
    simp
  | case2 rbsp value h =>
    have hdiv : value / 255 = 0 := by omega
    have hmod : value % 255 = value := by omega
    rw [appendSeiLength, if_neg h, hdiv, hmod]
    simp

lemma seiValue_go (k : Nat) {b : UInt8} (hb : b ≠ 0xFF) (rest : Bytes) :
    seiValue.go (List.replicate k 0xFF ++ b :: rest) = some (255 * k + b.toNat, rest) := by
  induction k with
  | zero => simp [seiValue.go, hb]
  | succ k ih =>
    rw [List.replicate_succ, List.cons_append, seiValue.go, if_pos rfl, ih]
    simp only [Option.map_some, Option.some.injEq, Prod.mk.injEq, and_true]
    omega

lemma reads_seiValue (value : Nat) : Reads seiValue (appendSeiLength [] value) value := by
  intro rest
  have hlast : (UInt8.ofNat (value % 255)).toNat = value % 255 := by
    simp
    omega
  have hb : UInt8.ofNat (value % 255) ≠ 0xFF := by
    intro he
    rw [← UInt8.toNat_inj, hlast] at he
    simp at he
    omega
  rw [appendSeiLength_eq, List.nil_append, List.append_assoc]
  refine (seiValue_go _ hb rest).trans ?_
  rw [hlast, Nat.div_add_mod]

lemma foldl_toEbspStep (rbsp ebsp : Bytes) (zeroCount : Nat) :
    (rbsp.foldl toEbspStep (ebsp, zeroCount)).1 = ebsp ++ escapeFrom zeroCount rbsp := by
  induction rbsp generalizing ebsp zeroCount with
  | nil => simp [escapeFrom]
  | cons byte rbsp ih =>
    rw [List.foldl_cons, escapeFrom]
    by_cases h : 2 ≤ zeroCount ∧ byte ≤ 3
    · simp [toEbspStep, h, ih, zeroRun]
    · simp [toEbspStep, h, ih, zeroRun]

/-- `toEbsp` is emulation prevention from a string with no zero bytes before it. -/
lemma toEbsp_eq (rbsp : Bytes) : toEbsp rbsp = escapeFrom 0 rbsp := by
  rw [toEbsp, foldl_toEbspStep, List.nil_append]

lemma seiMessage_seiRbsp (payload : Bytes) :
    seiMessage.run (seiRbsp payload) = some (⟨5, payload.length, payload⟩, [0x80]) := by
  have h : Reads seiMessage
      (appendSeiLength [] 5 ++ (appendSeiLength [] payload.length ++ payload)) ⟨5, payload.length, payload⟩ :=
    (reads_seiValue 5).bind ((reads_seiValue payload.length).bind ((reads_bytes payload).last _))
  have hrbsp : seiRbsp payload =
      appendSeiLength [] 5 ++ (appendSeiLength [] payload.length ++ payload) ++ [0x80] := by
    rw [seiRbsp, appendSeiLength_eq (appendSeiLength [] 5) payload.length,
      appendSeiLength_eq [] payload.length]
    simp
  rw [hrbsp]
  exact h [0x80]

lemma readSeiNal_buildSeiNal {codecType : SeiCodecType} {header : Bytes} (payload : Bytes)
    (h : Reads (seiHeader codecType) header ()) :
    readSeiNal codecType (buildSeiNal header payload) = some (⟨5, payload.length, payload⟩, [0x80]) := by
  rw [readSeiNal, buildSeiNal, h]
  dsimp only
  rw [toEbsp_eq, unescape_escape, seiMessage_seiRbsp]

/-- A reader of SEI messages gets every payload back from the NAL unit of either codec, with
nothing left but the stop byte. -/
theorem readSeiNal_build (payload : Bytes) :
    readSeiNal .h264 (buildH264SeiNal payload) = some (⟨5, payload.length, payload⟩, [0x80]) ∧
    readSeiNal .h265 (buildH265SeiNal payload) = some (⟨5, payload.length, payload⟩, [0x80]) := by
  exact ⟨readSeiNal_buildSeiNal payload fun _ => rfl, readSeiNal_buildSeiNal payload fun _ => rfl⟩

end MediaAgent
