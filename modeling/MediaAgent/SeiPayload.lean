import MediaAgent.Library.ByteReader
import MediaAgent.StreamTypes

/-!
# The MSP V1 payload

`buildMspV1UserDataPayload` of `stream/SeiInjector.cpp`, and a decoder that follows
`docs/metadata-over-sei-protocol.txt` (4.3 to 4.4.8). The decoder returns the fields as they are
stored: turning them back into floats is the receiver's business. The float arithmetic of the
quantisers is a parameter.
-/

namespace MediaAgent
open ByteReader

structure SeiTextOsdItem where
  flags : UInt8 := 0
  style : UInt8 := 0
  x : F32 := ⟨0⟩
  y : F32 := ⟨0⟩
  width : F32 := ⟨0⟩
  height : F32 := ⟨0⟩
  text : Bytes := []
  reserved : UInt8 := 0
  textColor : UInt32 := 0xFFFFFFFF
  bgColor : UInt32 := 0
  deriving DecidableEq, Repr

/-- The part of a `SeiMessageContext` that the injector reads. -/
structure SeiMessageContext where
  bboxItems : List DetectionObject := []
  textOsdItems : List SeiTextOsdItem := []
  deriving DecidableEq, Repr

def SeiMessageContext.hasItems (c : SeiMessageContext) : Bool :=
  !c.bboxItems.isEmpty || !c.textOsdItems.isEmpty

/-- The functions of the source that round floats to integers. -/
structure Quantizers where
  quantizeUnitToU16 : F32 → UInt16
  quantizeUnitToU8 : F32 → UInt8
  quantizeAngleToU16 : F32 → UInt16

def kVersion : UInt8 := 1
def kMspItemTypeBbox : UInt8 := 1
def kMspItemTypeTextOsd : UInt8 := 2
def kSeiUuid : Bytes :=
  [0x4D, 0x45, 0x54, 0x41, 0x44, 0x41, 0x54, 0x41, 0x53, 0x45, 0x49, 0x42, 0x59, 0x43, 0x48, 0x42]

/-! ## The encoder -/

def appendBeU16 (out : Bytes) (value : UInt16) : Bytes :=
  out ++ [((value >>> 8) &&& 0xFF).toUInt8, (value &&& 0xFF).toUInt8]

def appendBeU32 (out : Bytes) (value : UInt32) : Bytes :=
  out ++ [((value >>> 24) &&& 0xFF).toUInt8, ((value >>> 16) &&& 0xFF).toUInt8,
    ((value >>> 8) &&& 0xFF).toUInt8, (value &&& 0xFF).toUInt8]

/-- The bytes of the string `unknown`. -/
def unknownType : Bytes := [0x75, 0x6E, 0x6B, 0x6E, 0x6F, 0x77, 0x6E]

def detectionTypeToUtf8 (object : DetectionObject) : Bytes :=
  if object.className.isEmpty then unknownType else object.className

def appendMspBboxItem (q : Quantizers) (payload : Bytes) (object : DetectionObject) : Nat × Bytes :=
  let kFixedBboxPayloadSize := 18
  let fullTypeName := detectionTypeToUtf8 object
  let maxTypeLength := 255 - kFixedBboxPayloadSize
  let typeLength := min fullTypeName.length maxTypeLength
  let payload := payload ++ [kMspItemTypeBbox]
  let payload := payload ++ [UInt8.ofNat (kFixedBboxPayloadSize + typeLength)]
  let payload := appendBeU16 payload (min object.objectId 0xFFFF).toUInt16
  let payload := payload ++ [UInt8.ofNat typeLength]
  let payload := payload ++ [q.quantizeUnitToU8 object.confidence]
  let payload := appendBeU16 payload (q.quantizeUnitToU16 object.bbox.cx)
  let payload := appendBeU16 payload (q.quantizeUnitToU16 object.bbox.cy)
  let payload := appendBeU16 payload (q.quantizeUnitToU16 object.bbox.width)
  let payload := appendBeU16 payload (q.quantizeUnitToU16 object.bbox.height)
  let payload := appendBeU16 payload (q.quantizeAngleToU16 object.bbox.angle)
  let payload := appendBeU32 payload 0
  (1, payload ++ fullTypeName.take typeLength)

def appendMspTextOsdItem (q : Quantizers) (payload : Bytes) (item : SeiTextOsdItem) : Nat × Bytes :=
  let kFixedTextOsdPayloadSize := 20
  let fullText := item.text
  let maxTextLength := 255 - kFixedTextOsdPayloadSize
  let textLength := min fullText.length maxTextLength
  let payload := payload ++ [kMspItemTypeTextOsd]
  let payload := payload ++ [UInt8.ofNat (kFixedTextOsdPayloadSize + textLength)]
  let payload := payload ++ [item.flags]
  let payload := payload ++ [item.style]
  let payload := appendBeU16 payload (q.quantizeUnitToU16 item.x)
  let payload := appendBeU16 payload (q.quantizeUnitToU16 item.y)
  let payload := appendBeU16 payload (q.quantizeUnitToU16 item.width)
  let payload := appendBeU16 payload (q.quantizeUnitToU16 item.height)
  let payload := payload ++ [UInt8.ofNat textLength]
  let payload := payload ++ [item.reserved]
  let payload := appendBeU32 payload item.textColor
  let payload := appendBeU32 payload item.bgColor
  (1, payload ++ fullText.take textLength)

/-- The two item loops of `buildMspV1UserDataPayload`: append until the item count, a `uint8_t`,
is at its limit. -/
def appendMspItems {α : Type} (append : Bytes → α → Nat × Bytes) :
    List α → Bytes × UInt8 → Bytes × UInt8
  | [], s => s
  | item :: items, s =>
    if s.2 < 255 then
      let (count, payload) := append s.1 item
      appendMspItems append items (payload, s.2 + UInt8.ofNat count)
    else s

def buildMspV1UserDataPayload (q : Quantizers) (context : SeiMessageContext) : Bytes :=
  let maxItemCount := 255
  let bboxCount := min context.bboxItems.length maxItemCount
  let textOsdCount := min context.textOsdItems.length maxItemCount
  let payload := kSeiUuid
  let payload := payload ++ [kVersion]
  let payload := payload ++ [0]
  let payload := payload ++ [0]
  let itemCountIndex := payload.length
  let payload := payload ++ [0]
  let s := appendMspItems (appendMspBboxItem q) (context.bboxItems.take bboxCount) (payload, 0)
  let s := appendMspItems (appendMspTextOsdItem q) (context.textOsdItems.take textOsdCount) s
  s.1.set itemCountIndex s.2

/-! ## The decoder of the protocol document -/

structure MspBboxItemData where
  id : UInt16
  confidence : UInt8
  cx : UInt16
  cy : UInt16
  w : UInt16
  h : UInt16
  angle : UInt16
  distance : UInt32
  type : Bytes
  deriving DecidableEq, Repr

structure MspTextOsdData where
  flags : UInt8
  style : UInt8
  x : UInt16
  y : UInt16
  w : UInt16
  h : UInt16
  reserved : UInt8
  textColor : UInt32
  bgColor : UInt32
  text : Bytes
  deriving DecidableEq, Repr

inductive MspItemPayload
  | bbox (data : MspBboxItemData)
  | textOsd (data : MspTextOsdData)
  | unknown (payload : Bytes)
  deriving DecidableEq, Repr

structure MspItem where
  itemType : UInt8
  itemSize : UInt8
  payload : MspItemPayload
  deriving DecidableEq, Repr

structure Msp where
  version : UInt8
  reserved1 : UInt8
  reserved2 : UInt8
  itemCount : UInt8
  items : List MspItem
  deriving DecidableEq, Repr

/-- The number of payload bytes that the document gives an item. -/
def MspItemPayload.size : MspItemPayload → Nat
  | .bbox data => 18 + data.type.length
  | .textOsd data => 20 + data.text.length
  | .unknown payload => payload.length

def uint16 : Reader UInt16 := UInt16.ofNat <$> number 2

def uint32 : Reader UInt32 := UInt32.ofNat <$> number 4

def mspBboxItemData (itemSize : UInt8) : Reader MspBboxItemData := do
  require (decide (18 ≤ itemSize.toNat))
  let id ← uint16
  let typeLength ← byte
  require (decide (itemSize.toNat = 18 + typeLength.toNat))
  let confidence ← byte
  let cx ← uint16
  let cy ← uint16
  let w ← uint16
  let h ← uint16
  let angle ← uint16
  let distance ← uint32
  let type ← bytes typeLength.toNat
  return ⟨id, confidence, cx, cy, w, h, angle, distance, type⟩

def mspTextOsdData (itemSize : UInt8) : Reader MspTextOsdData := do
  require (decide (20 ≤ itemSize.toNat))
  let flags ← byte
  let style ← byte
  let x ← uint16
  let y ← uint16
  let w ← uint16
  let h ← uint16
  let textLength ← byte
  require (decide (itemSize.toNat = 20 + textLength.toNat))
  let reserved ← byte
  let textColor ← uint32
  let bgColor ← uint32
  let text ← bytes textLength.toNat
  return ⟨flags, style, x, y, w, h, reserved, textColor, bgColor, text⟩

/-- An item of an unknown type is skipped by its size. -/
def mspItemPayload (itemType itemSize : UInt8) (payload : Bytes) : Reader MspItemPayload :=
  if itemType = 1 then .bbox <$> within payload (mspBboxItemData itemSize)
  else if itemType = 2 then .textOsd <$> within payload (mspTextOsdData itemSize)
  else pure (.unknown payload)

def mspItem : Reader MspItem := do
  let itemType ← byte
  let itemSize ← byte
  let payload ← bytes itemSize.toNat
  let data ← mspItemPayload itemType itemSize payload
  return ⟨itemType, itemSize, data⟩

def msp : Reader Msp := do
  let version ← byte
  require (decide (version = 1))
  let reserved1 ← byte
  let reserved2 ← byte
  let itemCount ← byte
  let drawn ← items mspItem itemCount.toNat
  return ⟨version, reserved1, reserved2, itemCount, drawn⟩

/-- The payload of the SEI message: the UUID that marks MSP data, and the message. -/
def mspUserData : Reader Msp := do
  let uuid ← bytes 16
  require (uuid == kSeiUuid)
  msp

/-! ## Reading an item back -/

/-- The item that stands for a detection: its class name is cut so that the size fits a byte. -/
def bboxItem (q : Quantizers) (object : DetectionObject) : MspItem :=
  let type := (detectionTypeToUtf8 object).take 237
  { itemType := kMspItemTypeBbox
    itemSize := UInt8.ofNat (18 + type.length)
    payload := .bbox {
      id := (min object.objectId 0xFFFF).toUInt16
      confidence := q.quantizeUnitToU8 object.confidence
      cx := q.quantizeUnitToU16 object.bbox.cx
      cy := q.quantizeUnitToU16 object.bbox.cy
      w := q.quantizeUnitToU16 object.bbox.width
      h := q.quantizeUnitToU16 object.bbox.height
      angle := q.quantizeAngleToU16 object.bbox.angle
      distance := 0
      type := type } }

/-- The item that stands for a text: the text is cut so that the size fits a byte. -/
def textOsdItem (q : Quantizers) (item : SeiTextOsdItem) : MspItem :=
  let text := item.text.take 235
  { itemType := kMspItemTypeTextOsd
    itemSize := UInt8.ofNat (20 + text.length)
    payload := .textOsd {
      flags := item.flags
      style := item.style
      x := q.quantizeUnitToU16 item.x
      y := q.quantizeUnitToU16 item.y
      w := q.quantizeUnitToU16 item.width
      h := q.quantizeUnitToU16 item.height
      reserved := item.reserved
      textColor := item.textColor
      bgColor := item.bgColor
      text := text } }

lemma and_255 (n : Nat) : n &&& 255 = n % 256 := Nat.and_two_pow_sub_one_eq_mod n 8

lemma beU16_eq (value : UInt16) :
    [((value >>> 8) &&& 0xFF).toUInt8, (value &&& 0xFF).toUInt8] = toBE 2 value.toNat := by
  have h := value.toNat_lt
  simp only [toBE, List.cons.injEq, and_true, ← UInt8.toNat_inj]
  simp [UInt16.toNat_shiftRight, Nat.shiftRight_eq_div_pow, and_255]

lemma beU32_eq (value : UInt32) :
    [((value >>> 24) &&& 0xFF).toUInt8, ((value >>> 16) &&& 0xFF).toUInt8,
      ((value >>> 8) &&& 0xFF).toUInt8, (value &&& 0xFF).toUInt8] = toBE 4 value.toNat := by
  have h := value.toNat_lt
  simp only [toBE, List.cons.injEq, and_true, ← UInt8.toNat_inj]
  simp [UInt32.toNat_shiftRight, Nat.shiftRight_eq_div_pow, and_255]

lemma reads_uint16 (v : UInt16) : Reads uint16 (toBE 2 v.toNat) v := by
  have h := (reads_number 2 v.toNat).map UInt16.ofNat
  have hlt : v.toNat < 256 ^ 2 := v.toNat_lt
  rwa [Nat.mod_eq_of_lt hlt, UInt16.ofNat_toNat] at h

lemma reads_uint32 (v : UInt32) : Reads uint32 (toBE 4 v.toNat) v := by
  have h := (reads_number 4 v.toNat).map UInt32.ofNat
  have hlt : v.toNat < 256 ^ 4 := v.toNat_lt
  rwa [Nat.mod_eq_of_lt hlt, UInt32.ofNat_toNat] at h

lemma appendBeU16_eq (out : Bytes) (value : UInt16) :
    appendBeU16 out value = out ++ toBE 2 value.toNat := by
  rw [appendBeU16, beU16_eq]

lemma appendBeU32_eq (out : Bytes) (value : UInt32) :
    appendBeU32 out value = out ++ toBE 4 value.toNat := by
  rw [appendBeU32, beU32_eq]

/-- The bytes that an item adds do not depend on what is there already. -/
lemma appendMspBboxItem_eq (q : Quantizers) (payload : Bytes) (object : DetectionObject) :
    appendMspBboxItem q payload object = (1, payload ++ (appendMspBboxItem q [] object).2) := by
  simp [appendMspBboxItem, appendBeU16_eq, appendBeU32_eq]

lemma appendMspTextOsdItem_eq (q : Quantizers) (payload : Bytes) (item : SeiTextOsdItem) :
    appendMspTextOsdItem q payload item = (1, payload ++ (appendMspTextOsdItem q [] item).2) := by
  simp [appendMspTextOsdItem, appendBeU16_eq, appendBeU32_eq]

lemma toNat_ofNat_of_le {n : Nat} (h : n ≤ 255) : (UInt8.ofNat n).toNat = n := by
  simp
  omega

/-- An item is read as its general header and a payload of the announced size. -/
lemma reads_mspItem {itemType itemSize : UInt8} {payload : Bytes} {data : MspItemPayload}
    (hsize : payload.length = itemSize.toNat)
    (h : Reads (mspItemPayload itemType itemSize payload) [] data) :
    Reads mspItem ([itemType] ++ ([itemSize] ++ payload)) ⟨itemType, itemSize, data⟩ := by
  have hbytes := reads_bytes payload
  rw [hsize] at hbytes
  refine (reads_byte itemType).bind ((reads_byte itemSize).bind ?_)
  rw [← List.append_nil payload]
  exact hbytes.bind (h.last _)

/-- A text of an item is cut at its limit. -/
lemma take_limit (text : Bytes) (limit : Nat) :
    text.take (min text.length limit) = text.take limit ∧
      (text.take limit).length = min text.length limit := by
  refine ⟨?_, by rw [List.length_take, Nat.min_comm]⟩
  rw [Nat.min_comm, ← List.take_take, List.take_length]

theorem reads_bboxItem (q : Quantizers) (object : DetectionObject) :
    Reads mspItem (appendMspBboxItem q [] object).2 (bboxItem q object) := by
  obtain ⟨htake, hlen⟩ := take_limit (detectionTypeToUtf8 object) 237
  have hle : min (detectionTypeToUtf8 object).length 237 ≤ 237 := Nat.min_le_right ..
  simp only [appendMspBboxItem, bboxItem, appendBeU16_eq, appendBeU32_eq, List.append_assoc,
    List.nil_append, Nat.reduceSub, htake, hlen]
  generalize hn : min (detectionTypeToUtf8 object).length 237 = n at hlen hle
  generalize (detectionTypeToUtf8 object).take 237 = type at hlen
  have hsize := toNat_ofNat_of_le (show 18 + n ≤ 255 by omega)
  have hcount := toNat_ofNat_of_le (show n ≤ 255 by omega)
  have hbytes := reads_bytes type
  rw [hlen, ← hcount] at hbytes
  refine reads_mspItem ?_ ?_
  · simp only [List.length_append, List.length_cons, List.length_nil, length_toBE, hlen, hsize]
    omega
  · refine Reads.map MspItemPayload.bbox (Reads.within ?_)
    refine Reads.require_bind (decide_eq_true (by omega)) ?_
    refine (reads_uint16 _).bind ((reads_byte _).bind ?_)
    refine Reads.require_bind (decide_eq_true (by omega)) ?_
    refine (reads_byte _).bind ((reads_uint16 _).bind ((reads_uint16 _).bind ((reads_uint16 _).bind
      ((reads_uint16 _).bind ((reads_uint16 _).bind ((reads_uint32 _).bind ?_))))))
    exact hbytes.last _

theorem reads_textOsdItem (q : Quantizers) (item : SeiTextOsdItem) :
    Reads mspItem (appendMspTextOsdItem q [] item).2 (textOsdItem q item) := by
  obtain ⟨htake, hlen⟩ := take_limit item.text 235
  have hle : min item.text.length 235 ≤ 235 := Nat.min_le_right ..
  simp only [appendMspTextOsdItem, textOsdItem, appendBeU16_eq, appendBeU32_eq, List.append_assoc,
    List.nil_append, Nat.reduceSub, htake, hlen]
  generalize hn : min item.text.length 235 = n at hlen hle
  generalize item.text.take 235 = text at hlen
  have hsize := toNat_ofNat_of_le (show 20 + n ≤ 255 by omega)
  have hcount := toNat_ofNat_of_le (show n ≤ 255 by omega)
  have hbytes := reads_bytes text
  rw [hlen, ← hcount] at hbytes
  refine reads_mspItem ?_ ?_
  · simp only [List.length_append, List.length_cons, List.length_nil, length_toBE, hlen, hsize]
    omega
  · refine Reads.map MspItemPayload.textOsd (Reads.within ?_)
    refine Reads.require_bind (decide_eq_true (by omega)) ?_
    refine (reads_byte _).bind ((reads_byte _).bind ((reads_uint16 _).bind ((reads_uint16 _).bind
      ((reads_uint16 _).bind ((reads_uint16 _).bind ((reads_byte _).bind ?_))))))
    refine Reads.require_bind (decide_eq_true (by omega)) ?_
    refine (reads_byte _).bind ((reads_uint32 _).bind ((reads_uint32 _).bind ?_))
    exact hbytes.last _

lemma bboxItem_size (q : Quantizers) (object : DetectionObject) :
    (bboxItem q object).itemSize.toNat = (bboxItem q object).payload.size ∧
      (appendMspBboxItem q [] object).2.length = 2 + (bboxItem q object).itemSize.toNat := by
  have hlen : ((detectionTypeToUtf8 object).take 237).length ≤ 237 := List.length_take_le _ _
  have hsize := toNat_ofNat_of_le
    (show 18 + ((detectionTypeToUtf8 object).take 237).length ≤ 255 by omega)
  refine ⟨by simp only [bboxItem, MspItemPayload.size, hsize], ?_⟩
  simp only [bboxItem, hsize]
  simp [appendMspBboxItem, appendBeU16, appendBeU32]
  omega

lemma textOsdItem_size (q : Quantizers) (item : SeiTextOsdItem) :
    (textOsdItem q item).itemSize.toNat = (textOsdItem q item).payload.size ∧
      (appendMspTextOsdItem q [] item).2.length = 2 + (textOsdItem q item).itemSize.toNat := by
  have hlen : (item.text.take 235).length ≤ 235 := List.length_take_le _ _
  have hsize := toNat_ofNat_of_le (show 20 + (item.text.take 235).length ≤ 255 by omega)
  refine ⟨by simp only [textOsdItem, MspItemPayload.size, hsize], ?_⟩
  simp only [textOsdItem, hsize]
  simp [appendMspTextOsdItem, appendBeU16, appendBeU32]
  omega

/-! ## The whole payload -/

/-- An item loop appends as many items as the count leaves room for. -/
lemma appendMspItems_eq {α : Type} {append : Bytes → α → Nat × Bytes} {encode : α → Bytes}
    (h : ∀ payload item, append payload item = (1, payload ++ encode item)) (items : List α)
    (payload : Bytes) {n : Nat} (hn : n ≤ 255) :
    appendMspItems append items (payload, UInt8.ofNat n) =
      (payload ++ (items.take (255 - n)).flatMap encode,
        UInt8.ofNat (n + (items.take (255 - n)).length)) := by
  induction items generalizing payload n with
  | nil => simp [appendMspItems]
  | cons item items ih =>
    rw [appendMspItems]
    split
    · rename_i hlt
      have hroom : n < 255 := by
        rw [UInt8.lt_iff_toNat_lt, toNat_ofNat_of_le hn] at hlt
        exact hlt
      have htake : 255 - n = (255 - (n + 1)) + 1 := by omega
      have hcount : UInt8.ofNat n + UInt8.ofNat 1 = UInt8.ofNat (n + 1) := (UInt8.ofNat_add n 1).symm
      simp only [h, hcount]
      rw [ih _ (by omega), htake, List.take_succ_cons, List.flatMap_cons, List.length_cons,
        List.append_assoc]
      congr 2
      omega
    · rename_i hge
      have hfull : n = 255 := by
        rw [UInt8.lt_iff_toNat_lt, toNat_ofNat_of_le hn] at hge
        simp at hge
        omega
      simp [hfull]

/-- Every item of a context with the bytes that stand for it, up to the limit of the count. -/
def drawnItems (q : Quantizers) (c : SeiMessageContext) : List (Bytes × MspItem) :=
  (c.bboxItems.map (fun o => ((appendMspBboxItem q [] o).2, bboxItem q o)) ++
    c.textOsdItems.map (fun t => ((appendMspTextOsdItem q [] t).2, textOsdItem q t))).take 255

lemma drawnItems_length (q : Quantizers) (c : SeiMessageContext) : (drawnItems q c).length ≤ 255 := by
  rw [drawnItems, List.length_take]
  omega

lemma buildMspV1UserDataPayload_eq (q : Quantizers) (c : SeiMessageContext) :
    buildMspV1UserDataPayload q c = kSeiUuid ++ ([kVersion] ++ ([0] ++ ([0] ++
      ([UInt8.ofNat (drawnItems q c).length] ++ (drawnItems q c).flatMap Prod.fst)))) := by
  have htake : ∀ {α : Type} (l : List α) (n : Nat), n ≤ 255 →
      (l.take (min l.length 255)).take n = l.take n := by
    intro α l n hn
    rw [List.take_take, List.take_eq_take_iff]
    omega
  have hroom : 255 - (c.bboxItems.take 255).length = 255 - c.bboxItems.length := by
    rw [List.length_take]
    omega
  have hb := appendMspItems_eq (appendMspBboxItem_eq q) (c.bboxItems.take (min c.bboxItems.length 255))
    (kSeiUuid ++ [kVersion] ++ [0] ++ [0] ++ [0]) (n := 0) (by omega)
  rw [htake _ _ (by omega), Nat.zero_add] at hb
  have ht := fun payload => appendMspItems_eq (appendMspTextOsdItem_eq q)
    (c.textOsdItems.take (min c.textOsdItems.length 255)) payload (n := (c.bboxItems.take 255).length)
    (by rw [List.length_take]; omega)
  rw [htake _ _ (by omega), hroom] at ht
  have hdrawn : drawnItems q c =
      (c.bboxItems.take 255).map (fun o => ((appendMspBboxItem q [] o).2, bboxItem q o)) ++
        (c.textOsdItems.take (255 - c.bboxItems.length)).map
          (fun t => ((appendMspTextOsdItem q [] t).2, textOsdItem q t)) := by
    rw [drawnItems, List.take_append, List.length_map, List.map_take, List.map_take]
  have hbytes : (drawnItems q c).flatMap Prod.fst =
      (c.bboxItems.take 255).flatMap (fun o => (appendMspBboxItem q [] o).2) ++
        (c.textOsdItems.take (255 - c.bboxItems.length)).flatMap
          (fun t => (appendMspTextOsdItem q [] t).2) := by
    rw [hdrawn, List.flatMap_append, List.flatMap_map, List.flatMap_map]
  have hcount : (drawnItems q c).length = (c.bboxItems.take 255).length +
      (c.textOsdItems.take (255 - c.bboxItems.length)).length := by
    rw [hdrawn, List.length_append, List.length_map, List.length_map]
  rw [hbytes, hcount]
  unfold buildMspV1UserDataPayload
  dsimp only
  rw [show (0 : UInt8) = UInt8.ofNat 0 from rfl] at hb ⊢
  rw [hb, ht]
  rfl

lemma mem_drawnItems {q : Quantizers} {c : SeiMessageContext} {i : Bytes × MspItem}
    (h : i ∈ drawnItems q c) : Reads mspItem i.1 i.2 ∧ i.2.itemSize.toNat = i.2.payload.size ∧
      i.1.length = 2 + i.2.itemSize.toNat := by
  rcases List.mem_append.mp (List.mem_of_mem_take h) with hb | ht
  · obtain ⟨o, -, rfl⟩ := List.mem_map.mp hb
    exact ⟨reads_bboxItem q o, bboxItem_size q o⟩
  · obtain ⟨t, -, rfl⟩ := List.mem_map.mp ht
    exact ⟨reads_textOsdItem q t, textOsdItem_size q t⟩

/-- The decoder reads the drawn items, and nothing is left of the payload. -/
lemma mspUserData_run (q : Quantizers) (c : SeiMessageContext) :
    mspUserData.run (buildMspV1UserDataPayload q c) = some
      (⟨1, 0, 0, UInt8.ofNat (drawnItems q c).length, (drawnItems q c).map Prod.snd⟩, []) := by
  rw [buildMspV1UserDataPayload_eq]
  refine Reads.run ?_
  refine (reads_bytes kSeiUuid).bind (Reads.require_bind (by decide) ?_)
  refine (reads_byte kVersion).bind (Reads.require_bind (by decide) ?_)
  refine (reads_byte 0).bind ((reads_byte 0).bind ((reads_byte _).bind ?_))
  rw [toNat_ofNat_of_le (drawnItems_length q c)]
  exact (Reads.items _ (fun i hi => (mem_drawnItems hi).1)).last _

/-- A decoder of the protocol document accepts the payload and consumes all of it: it reads the
first 255 items, each of the size that the document gives it. -/
theorem mspUserData_buildMspV1UserDataPayload (q : Quantizers) (c : SeiMessageContext) :
    let drawn := (c.bboxItems.map (bboxItem q) ++ c.textOsdItems.map (textOsdItem q)).take 255
    mspUserData.run (buildMspV1UserDataPayload q c) =
        some (⟨1, 0, 0, UInt8.ofNat drawn.length, drawn⟩, []) ∧
      (∀ i ∈ drawn, i.itemSize.toNat = i.payload.size) ∧
      (buildMspV1UserDataPayload q c).length = 20 + (drawn.map fun i => 2 + i.itemSize.toNat).sum := by
  intro drawn
  have hdrawn : drawn = (drawnItems q c).map Prod.snd := by
    simp [drawn, drawnItems, List.map_take, Function.comp_def]
  rw [hdrawn, List.length_map]
  refine ⟨mspUserData_run q c, fun i hi => ?_, ?_⟩
  · obtain ⟨j, hj, rfl⟩ := List.mem_map.mp hi
    exact (mem_drawnItems hj).2.1
  · have hsum : (drawnItems q c).map (fun i => i.1.length) =
        (drawnItems q c).map (fun i => 2 + i.2.itemSize.toNat) :=
      List.map_congr_left fun i hi => (mem_drawnItems hi).2.2
    rw [buildMspV1UserDataPayload_eq]
    simp only [List.length_append, List.length_flatMap, hsum, List.map_map]
    simp [kSeiUuid, Function.comp_def]
    omega

end MediaAgent
