import MediaAgent.SeiNal
import MediaAgent.SeiPayload

/-!
# Injecting the SEI NAL unit

`MspSeiInjector::inject` puts the SEI NAL unit in front of a video packet, framed as the packet
seems to be framed: by start codes if its first bytes look like one, by lengths otherwise. The
first guess is always right about Annex B packets, and wrong about some length-prefixed ones.
-/

namespace MediaAgent
open ByteReader NalUnits

def kAnnexBStartCode : Bytes := [0x00, 0x00, 0x00, 0x01]

def isAnnexB (data : Bytes) : Bool :=
  if data.length < 4 then false
  else
    (data[0]? == some 0x00 && data[1]? == some 0x00 && data[2]? == some 0x00 && data[3]? == some 0x01) ||
      (data[0]? == some 0x00 && data[1]? == some 0x00 && data[2]? == some 0x01)

/-- The loop over `shift`, which starts at `(nal_length_size - 1) * 8`. -/
def appendNalLength (out : Bytes) (value : Nat) : Nat → Bytes
  | 0 => out
  | n + 1 => appendNalLength (out ++ [UInt8.ofNat ((value >>> (n * 8)) &&& 0xFF)]) value n

def toAnnexBNal (nalUnit : Bytes) : Bytes := kAnnexBStartCode ++ nalUnit

def toLengthPrefixedNal (nalUnit : Bytes) (nalLengthSize : Int) : Bytes :=
  if nalLengthSize < 1 ∨ nalLengthSize > 4 then []
  else
    let maxNalSize :=
      if nalLengthSize = 4 then 2 ^ 32 - 1 else (1 <<< (nalLengthSize.toNat * 8)) - 1
    if nalUnit.length > maxNalSize then []
    else appendNalLength [] nalUnit.length nalLengthSize.toNat ++ nalUnit

/-- What libavcodec answers in one call of `inject`: whether a packet of the size asked for can
be allocated, and whether the properties of the source packet can be copied. -/
structure AvAnswers where
  allocated : Bool := true
  propsCopied : Bool := true

/-- The SEI NAL unit that `inject` builds. -/
def seiNalUnit (q : Quantizers) (codecType : SeiCodecType) (context : SeiMessageContext) : Bytes :=
  let payload := buildMspV1UserDataPayload q context
  match codecType with
  | .h265 => buildH265SeiNal payload
  | .h264 => buildH264SeiNal payload

/-- The return value of `inject` and `output_packet`. `av_packet_copy_props` copies all that is
modelled of a packet but its data. -/
def inject (q : Quantizers) (answers : AvAnswers) (sourcePacket : EncodedPacket)
    (codecType : SeiCodecType) (nalLengthSize : Int) (context : SeiMessageContext) :
    Bool × Option AVPacket :=
  match sourcePacket.packet with
  | none => (false, none)
  | some packet =>
    if packet.data.isEmpty then (false, some packet)
    else if !context.hasItems then (true, some packet)
    else
      let payload := buildMspV1UserDataPayload q context
      if payload.isEmpty then (false, some packet)
      else
        let unit := seiNalUnit q codecType context
        let sei := if isAnnexB packet.data then toAnnexBNal unit else toLengthPrefixedNal unit nalLengthSize
        if sei.isEmpty then (false, some packet)
        else if !answers.allocated then (false, some packet)
        else if !answers.propsCopied then (false, some packet)
        else (true, some { packet with data := sei ++ packet.data })

/-- `parseNalLengthSizeFromExtradata` of `pipeline/Utils.cpp`. -/
def parseNalLengthSizeFromExtradata (codecType : SeiCodecType) (extradata : Bytes) : Int :=
  if extradata.isEmpty || extradata[0]? != some 0x01 then 0
  else
    let offset := match codecType with
      | .h264 => if extradata.length < 5 then none else some 4
      | .h265 => if extradata.length < 22 then none else some 21
    match offset with
    | none => 0
    | some offset =>
      let nalLengthSize := (((extradata.getD offset 0) &&& 0x03) + 1).toNat
      if 1 ≤ nalLengthSize ∧ nalLengthSize ≤ 4 then nalLengthSize else 0

/-- The size is a possible one, or 0 when the extradata gives none. -/
lemma parseNalLengthSizeFromExtradata_range (codecType : SeiCodecType) (extradata : Bytes) :
    parseNalLengthSizeFromExtradata codecType extradata = 0 ∨
      ∃ n : Nat, parseNalLengthSizeFromExtradata codecType extradata = n ∧ 1 ≤ n ∧ n ≤ 4 := by
  unfold parseNalLengthSizeFromExtradata
  split
  · exact .inl rfl
  · dsimp only
    split
    · exact .inl rfl
    · split
      · exact .inr ⟨_, rfl, ‹_›⟩
      · exact .inl rfl

/-! ## The SEI NAL unit -/

lemma appendNalLength_eq (out : Bytes) (value n : Nat) :
    appendNalLength out value n = out ++ toBE n value := by
  induction n generalizing out with
  | zero => simp [appendNalLength, toBE]
  | succ n ih =>
    have hbyte : UInt8.ofNat ((value >>> (n * 8)) &&& 0xFF) = UInt8.ofNat (value / 256 ^ n) := by
      rw [← UInt8.toNat_inj, Nat.shiftRight_eq_div_pow, Nat.mul_comm, Nat.pow_mul, and_255]
      simp
    rw [appendNalLength, ih, hbyte, toBE, List.append_assoc, List.singleton_append]

lemma toLengthPrefixedNal_eq {nalUnit : Bytes} {n : Nat} (hn : 1 ≤ n ∧ n ≤ 4) :
    toLengthPrefixedNal nalUnit n =
      if nalUnit.length < 256 ^ n then lengthPrefixed n nalUnit else [] := by
  have hmax : (if (n : Int) = 4 then 2 ^ 32 - 1 else (1 <<< ((n : Int).toNat * 8)) - 1) = 256 ^ n - 1 := by
    obtain rfl | rfl | rfl | rfl : n = 1 ∨ n = 2 ∨ n = 3 ∨ n = 4 := by omega
    all_goals rfl
  have hrange : ¬((n : Int) < 1 ∨ (n : Int) > 4) := by omega
  have hpos : 0 < 256 ^ n := Nat.pow_pos (by decide)
  rw [toLengthPrefixedNal, if_neg hrange]
  dsimp only
  rw [hmax, Int.toNat_natCast, appendNalLength_eq]
  by_cases hlt : nalUnit.length < 256 ^ n
  · rw [if_neg (by omega), if_pos hlt]
    rfl
  · rw [if_pos (by omega), if_neg hlt]

lemma buildSeiNal_eq (header payload : Bytes) :
    ∃ init, buildSeiNal header payload = header ++ (init ++ [0x80]) ∧
      toEbsp (seiRbsp payload) = init ++ [0x80] := by
  have h : toEbsp (seiRbsp payload) =
      escapeFrom 0 (appendSeiLength (appendSeiLength [] 5) payload.length ++ payload) ++ [0x80] := by
    rw [toEbsp_eq, seiRbsp, escapeFrom_append_high _ _ (by decide)]
  exact ⟨_, by rw [buildSeiNal, h], h⟩

/-- The NAL unit has no emulation of a start code, and ends in the stop byte. -/
structure IsSeiNal (nal : Bytes) : Prop where
  clean : Clean 0 nal
  last : nal.getLast? = some 0x80
  length : 2 ≤ nal.length

lemma isSeiNal_buildSeiNal {header : Bytes} (payload : Bytes) (hne : header ≠ [])
    (hclean : ∀ ebsp, Clean 0 ebsp → Clean 0 (header ++ ebsp)) : IsSeiNal (buildSeiNal header payload) := by
  obtain ⟨init, hnal, hebsp⟩ := buildSeiNal_eq header payload
  have hpos := List.length_pos_iff.mpr hne
  refine ⟨?_, ?_, ?_⟩
  · rw [buildSeiNal, toEbsp_eq]
    exact hclean _ (clean_escape 0 _)
  · rw [hnal]
    simp
  · rw [hnal, List.length_append, List.length_append, List.length_singleton]
    omega

lemma isSeiNal_seiNalUnit (q : Quantizers) (codecType : SeiCodecType) (context : SeiMessageContext) :
    IsSeiNal (seiNalUnit q codecType context) := by
  cases codecType with
  | h264 =>
    exact isSeiNal_buildSeiNal _ (by decide) fun ebsp h => ⟨fun h0 => absurd h0 (by decide), h⟩
  | h265 =>
    exact isSeiNal_buildSeiNal _ (by decide) fun ebsp h =>
      ⟨fun h0 => absurd h0 (by decide), fun h0 => absurd h0 (by decide), h⟩

lemma buildMspV1UserDataPayload_ne_nil (q : Quantizers) (c : SeiMessageContext) :
    (buildMspV1UserDataPayload q c).isEmpty = false := by
  rw [buildMspV1UserDataPayload_eq]
  rfl

/-- What `inject` does with a packet that has data, for a context that has items. -/
lemma inject_eq (q : Quantizers) (answers : AvAnswers) {sourcePacket : EncodedPacket} {packet : AVPacket}
    (codecType : SeiCodecType) (nalLengthSize : Int) {context : SeiMessageContext}
    (hp : sourcePacket.packet = some packet) (hdata : packet.data ≠ []) (hitems : context.hasItems = true) :
    inject q answers sourcePacket codecType nalLengthSize context =
      let sei := if isAnnexB packet.data then toAnnexBNal (seiNalUnit q codecType context)
        else toLengthPrefixedNal (seiNalUnit q codecType context) nalLengthSize
      if sei.isEmpty = true ∨ answers.allocated = false ∨ answers.propsCopied = false then
        (false, some packet)
      else (true, some { packet with data := sei ++ packet.data }) := by
  have hempty : packet.data.isEmpty = false := by simpa using hdata
  simp only [inject, hp, hempty, Bool.false_eq_true, ite_false, hitems, Bool.not_true,
    buildMspV1UserDataPayload_ne_nil]
  generalize (if isAnnexB packet.data = true then _ else _) = sei
  cases sei.isEmpty <;> cases answers.allocated <;> cases answers.propsCopied <;> simp

/-! ## Annex B packets -/

lemma isAnnexB_iff (data : Bytes) :
    isAnnexB data = true ↔ 4 ≤ data.length ∧ StartsWithStartCode data := by
  unfold isAnnexB StartsWithStartCode
  match data with
  | [] => simp
  | [a] => simp
  | [a, b] => simp
  | [a, b, c] => simp
  | a :: b :: c :: d :: rest =>
    have hlen : ¬(a :: b :: c :: d :: rest).length < 4 := by simp
    rw [if_neg hlen]
    simp only [List.getElem?_cons_zero, List.getElem?_cons_succ, Bool.or_eq_true, Bool.and_eq_true,
      beq_iff_eq, Option.some.injEq, List.length_cons, List.cons.injEq]
    constructor
    · rintro (⟨⟨⟨rfl, rfl⟩, rfl⟩, rfl⟩ | ⟨⟨rfl, rfl⟩, rfl⟩)
      · exact ⟨by omega, rest, .inr ⟨rfl, rfl, rfl, rfl, rfl⟩⟩
      · exact ⟨by omega, d :: rest, .inl ⟨rfl, rfl, rfl, rfl⟩⟩
    · rintro ⟨-, rest', ⟨rfl, rfl, rfl, -⟩ | ⟨rfl, rfl, rfl, rfl, -⟩⟩ <;> simp

/-- The SEI NAL unit in front of an Annex B packet: it holds no start code or emulation of one,
none begins in it, and the packet splits into it and the units that the source splits into. -/
theorem inject_annexB (q : Quantizers) (answers : AvAnswers) (sourcePacket : EncodedPacket)
    {packet : AVPacket} (codecType : SeiCodecType) (nalLengthSize : Int) (context : SeiMessageContext)
    (hp : sourcePacket.packet = some packet) (hstart : StartsWithStartCode packet.data)
    (hsize : 4 ≤ packet.data.length) (hitems : context.hasItems = true)
    (hallocated : answers.allocated = true) (hcopied : answers.propsCopied = true) :
    let sei := seiNalUnit q codecType context
    let out := { packet with data := kAnnexBStartCode ++ sei ++ packet.data }
    inject q answers sourcePacket codecType nalLengthSize context = (true, some out) ∧
      annexBUnits out.data = sei :: annexBUnits packet.data ∧
      (∀ pre post x, sei = pre ++ 0 :: 0 :: x :: post → 2 < x) ∧
      (∀ pre post x, sei ++ packet.data = pre ++ 0 :: 0 :: x :: post → x ≤ 2 →
        sei.length ≤ pre.length) := by
  intro sei out
  have hsei : IsSeiNal sei := isSeiNal_seiNalUnit q codecType context
  have hannexB : isAnnexB packet.data = true := (isAnnexB_iff _).mpr ⟨hsize, hstart⟩
  have hdata : packet.data ≠ [] := by
    intro he
    rw [he] at hsize
    cases hsize
  refine ⟨?_, ?_, fun pre post x he => ?_, fun pre post x he hx => ?_⟩
  · rw [inject_eq q answers codecType nalLengthSize hp hdata hitems]
    simp [hannexB, hallocated, hcopied, toAnnexBNal, kAnnexBStartCode, out, sei]
  · exact annexBUnits_insert hsei.clean hsei.last (by decide) hstart
  · have hclean := hsei.clean
    rw [he] at hclean
    exact hclean.no_emulation
  · exact hsei.clean.no_emulation_append hsei.last (by decide) he hx

/-- Quantisers that are right about zero, the value of every float of `labelContext`. -/
def zeroQuantizers : Quantizers := ⟨fun _ => 0, fun _ => 0, fun _ => 0⟩

def labelContext : SeiMessageContext := { textOsdItems := [{ text := [0x00, 0x00, 0x01] }] }

theorem inject_annexB_keyFrame :
    ∃ out, inject zeroQuantizers {} { packet := some { data := [0, 0, 1, 0x65, 0x88, 0] } } .h264 0
        labelContext = (true, some out) ∧
      annexBUnits out.data =
        seiNalUnit zeroQuantizers .h264 labelContext :: annexBUnits [0, 0, 1, 0x65, 0x88, 0] := by
  have h := inject_annexB zeroQuantizers {} { packet := some { data := [0, 0, 1, 0x65, 0x88, 0] } } .h264 0
    labelContext rfl ⟨_, .inl rfl⟩ (by decide) (by decide) rfl rfl
  exact ⟨_, h.1, h.2.1⟩

/-! ## Length-prefixed packets -/

/-- Either `inject` fails and gives the source packet back, or its output is framed by `n`-byte
lengths as the SEI NAL unit and the units of the source. -/
def KeepsLengthFraming (n : Nat) (sei : Bytes) (units : List Bytes) (packet : AVPacket)
    (result : Bool × Option AVPacket) : Prop :=
  (result.1 = false ∧ result.2 = some packet) ∨
    ∃ out, result.2 = some out ∧ lengthPrefixedUnits n out.data = some (sei :: units)

lemma startsWithStartCode_iff (bs : Bytes) :
    StartsWithStartCode bs ↔ bs.take 3 = [0, 0, 1] ∨ bs.take 4 = [0, 0, 0, 1] := by
  constructor
  · rintro ⟨rest, rfl | rfl⟩
    · exact .inl rfl
    · exact .inr rfl
  · rintro (h | h)
    · exact ⟨bs.drop 3, .inl (by rw [← List.take_append_drop 3 bs, h]; rfl)⟩
    · exact ⟨bs.drop 4, .inr (by rw [← List.take_append_drop 4 bs, h]; rfl)⟩

/-- The lengths of a first NAL unit that look like a start code. -/
theorem isAnnexB_lengthPrefixed {n : Nat} (hn : 1 ≤ n ∧ n ≤ 4) {unit : Bytes} (hne : unit ≠ [])
    (hlt : unit.length < 256 ^ n) (rest : Bytes) :
    isAnnexB (lengthPrefixed n unit ++ rest) = true ↔
      (n = 4 ∧ (unit.length = 1 ∨ 256 ≤ unit.length ∧ unit.length < 512)) ∨
        (n = 3 ∧ unit.length = 1) := by
  obtain ⟨a, tail, rfl⟩ := List.exists_cons_of_ne_nil hne
  rw [isAnnexB_iff, startsWithStartCode_iff]
  obtain rfl | rfl | rfl | rfl : n = 1 ∨ n = 2 ∨ n = 3 ∨ n = 4 := by omega
  all_goals
    simp [lengthPrefixed, toBE, ← UInt8.toNat_inj, -List.length_eq_zero_iff] at hlt ⊢
    try omega

/-- Behind a start code, no length field of one to four bytes announces an SEI NAL unit. -/
lemma startCode_ne_length {n : Nat} (hn : 1 ≤ n ∧ n ≤ 4) {sei rest : Bytes} (hsei : 2 ≤ sei.length)
    (units : List Bytes) :
    lengthPrefixedUnits n (kAnnexBStartCode ++ rest) ≠ some (sei :: units) := by
  intro h
  obtain ⟨more, hrun⟩ := all_head h
  have hlen := length_of_lengthPrefixedUnit hrun
  have hannounced : ofBE ((kAnnexBStartCode ++ rest).take n) ≤ 1 := by
    obtain rfl | rfl | rfl | rfl : n = 1 ∨ n = 2 ∨ n = 3 ∨ n = 4 := by omega
    all_goals simp [kAnnexBStartCode, ofBE]
  omega

/-- A packet that begins like an Annex B packet loses its length framing. -/
lemma not_keepsLengthFraming (q : Quantizers) {answers : AvAnswers} {n : Nat} (hn : 1 ≤ n ∧ n ≤ 4)
    {sourcePacket : EncodedPacket} {packet : AVPacket} (units : List Bytes) (codecType : SeiCodecType)
    {context : SeiMessageContext} (hp : sourcePacket.packet = some packet)
    (hannexB : isAnnexB packet.data = true) (hitems : context.hasItems = true)
    (hallocated : answers.allocated = true) (hcopied : answers.propsCopied = true) :
    ¬KeepsLengthFraming n (seiNalUnit q codecType context) units packet
      (inject q answers sourcePacket codecType n context) := by
  have hdata : packet.data ≠ [] := by
    intro he
    rw [he] at hannexB
    cases hannexB
  have hlength := (isSeiNal_seiNalUnit q codecType context).length
  have hfull : (toAnnexBNal (seiNalUnit q codecType context)).isEmpty = false := rfl
  rw [inject_eq q answers codecType n hp hdata hitems]
  simp only [hannexB, if_true, hfull, hallocated, hcopied, Bool.false_eq_true, Bool.true_eq_false,
    or_false, if_false]
  rintro (⟨h, -⟩ | ⟨out, hout, hparse⟩)
  · cases h
  · cases hout
    rw [toAnnexBNal, List.append_assoc] at hparse
    exact startCode_ne_length hn hlength units hparse

/-- A packet that does not begin like an Annex B packet keeps its length framing. -/
lemma keepsLengthFraming (q : Quantizers) (answers : AvAnswers) {n : Nat} (hn : 1 ≤ n ∧ n ≤ 4)
    {sourcePacket : EncodedPacket} {packet : AVPacket} {units : List Bytes} (codecType : SeiCodecType)
    {context : SeiMessageContext} (hp : sourcePacket.packet = some packet)
    (hunits : ∀ u ∈ units, u.length < 256 ^ n) (hdata : packet.data = units.flatMap (lengthPrefixed n))
    (hitems : context.hasItems = true) (hannexB : isAnnexB packet.data = false) :
    KeepsLengthFraming n (seiNalUnit q codecType context) units packet
      (inject q answers sourcePacket codecType n context) := by
  by_cases hne : packet.data = []
  · left
    simp [inject, hp, hne]
  · rw [inject_eq q answers codecType n hp hne hitems]
    generalize seiNalUnit q codecType context = sei
    simp only [hannexB, Bool.false_eq_true, if_false]
    rw [toLengthPrefixedNal_eq hn]
    by_cases hfits : sei.length < 256 ^ n
    · rw [if_pos hfits]
      split
      · exact .inl ⟨rfl, rfl⟩
      · refine .inr ⟨_, rfl, ?_⟩
        dsimp only
        rw [hdata, ← List.flatMap_cons]
        refine lengthPrefixedUnits_flatMap hn.1 _ fun u hu => ?_
        rcases List.mem_cons.mp hu with rfl | hu
        · exact hfits
        · exact hunits u hu
    · rw [if_neg hfits]
      exact .inl ⟨rfl, rfl⟩

/-- `inject` keeps the framing of a length-prefixed packet exactly when the packet does not begin
like an Annex B packet, or the output packet cannot be made. -/
theorem inject_keepsLengthFraming_iff (q : Quantizers) (answers : AvAnswers) {n : Nat} (hn : 1 ≤ n ∧ n ≤ 4)
    {sourcePacket : EncodedPacket} {packet : AVPacket} (units : List Bytes) (codecType : SeiCodecType)
    {context : SeiMessageContext} (hp : sourcePacket.packet = some packet)
    (hunits : ∀ u ∈ units, u.length < 256 ^ n) (hdata : packet.data = units.flatMap (lengthPrefixed n))
    (hitems : context.hasItems = true) :
    KeepsLengthFraming n (seiNalUnit q codecType context) units packet
        (inject q answers sourcePacket codecType n context) ↔
      isAnnexB packet.data = false ∨ answers.allocated = false ∨ answers.propsCopied = false := by
  constructor
  · intro h
    by_contra hc
    simp only [not_or, Bool.not_eq_false] at hc
    exact not_keepsLengthFraming q hn units codecType hp hc.1 hitems hc.2.1 hc.2.2 h
  · intro h
    cases hannexB : isAnnexB packet.data with
    | false => exact keepsLengthFraming q answers hn codecType hp hunits hdata hitems hannexB
    | true =>
      have hdata : packet.data ≠ [] := by
        intro he
        rw [he] at hannexB
        cases hannexB
      have hfail : answers.allocated = false ∨ answers.propsCopied = false := by
        simpa [hannexB] using h
      left
      rw [inject_eq q answers codecType n hp hdata hitems]
      dsimp only
      rw [if_pos (.inr hfail)]
      exact ⟨rfl, rfl⟩

theorem inject_keepsLengthFraming_slice :
    KeepsLengthFraming 4 (seiNalUnit zeroQuantizers .h264 labelContext) [[0x41, 0x9A]]
      { data := [0, 0, 0, 2, 0x41, 0x9A] }
      (inject zeroQuantizers {} { packet := some { data := [0, 0, 0, 2, 0x41, 0x9A] } } .h264 4
        labelContext) :=
  (inject_keepsLengthFraming_iff zeroQuantizers {} (n := 4) (by decide) [[0x41, 0x9A]] .h264
    rfl (by decide) (by decide) (by decide)).mpr (.inl (by decide))

/-- A slice of 256 bytes, whose length field begins with the bytes 0 0 1. -/
def slice256 : Bytes := 0x41 :: List.replicate 255 0x9A

/-- The output for such a slice is no longer framed by its lengths. -/
theorem inject_breaks_slice256 :
    ¬KeepsLengthFraming 4 (seiNalUnit zeroQuantizers .h264 labelContext) [slice256]
      { data := [slice256].flatMap (lengthPrefixed 4) }
      (inject zeroQuantizers {} { packet := some { data := [slice256].flatMap (lengthPrefixed 4) } } .h264 4
        labelContext) := by
  have hlen : slice256.length = 256 := by rw [slice256, List.length_cons, List.length_replicate]
  have hrange : 256 ≤ slice256.length ∧ slice256.length < 512 := by omega
  have hannexB := (isAnnexB_lengthPrefixed (n := 4) (by decide) (List.cons_ne_nil 0x41 _)
    (show slice256.length < 256 ^ 4 by omega) []).mpr (.inl ⟨rfl, .inr hrange⟩)
  exact not_keepsLengthFraming zeroQuantizers (by decide) _ .h264 rfl hannexB (by decide) rfl rfl

end MediaAgent
