import Mathlib.Data.List.Basic

/-!
# Cutting UTF-8 text at a byte limit

A text is valid if it is the encoding of some characters. Cut at a byte, it still consists of
whole characters exactly if the byte that would follow starts a character.
-/

namespace Utf8

def encode (cs : List Char) : List UInt8 := cs.flatMap String.utf8EncodeChar

def Valid (text : List UInt8) : Prop := ∃ cs, encode cs = text

/-- `part` consists of the first characters of `text`. -/
def WholePrefix (part text : List UInt8) : Prop :=
  ∃ cs ds, encode cs = part ∧ encode (cs ++ ds) = text

/-- The text ends before byte `n`, or a character starts there. -/
def Boundary (text : List UInt8) (n : Nat) : Prop := ∀ b ∈ text[n]?, b.IsUTF8FirstByte

instance (text : List UInt8) (n : Nat) : Decidable (Boundary text n) :=
  inferInstanceAs (Decidable (∀ b ∈ text[n]?, b.IsUTF8FirstByte))

@[simp] lemma encode_nil : encode [] = [] := rfl

@[simp] lemma encode_cons (c : Char) (cs : List Char) :
    encode (c :: cs) = String.utf8EncodeChar c ++ encode cs := rfl

@[simp] lemma encode_append (cs ds : List Char) : encode (cs ++ ds) = encode cs ++ encode ds :=
  List.flatMap_append ..

lemma valid_encode (cs : List Char) : Valid (encode cs) := ⟨cs, rfl⟩

lemma WholePrefix.valid {part text : List UInt8} (h : WholePrefix part text) : Valid part := by
  obtain ⟨cs, ds, rfl, -⟩ := h
  exact valid_encode cs

lemma WholePrefix.nil {text : List UInt8} (h : Valid text) : WholePrefix [] text := by
  obtain ⟨cs, hcs⟩ := h
  exact ⟨[], cs, rfl, hcs⟩

lemma WholePrefix.cons {part text : List UInt8} (c : Char) (h : WholePrefix part text) :
    WholePrefix (String.utf8EncodeChar c ++ part) (String.utf8EncodeChar c ++ text) := by
  obtain ⟨cs, ds, rfl, rfl⟩ := h
  exact ⟨c :: cs, ds, rfl, rfl⟩

lemma boundary_encode_zero (cs : List Char) : Boundary (encode cs) 0 := by
  intro b hb
  cases cs with
  | nil => simp at hb
  | cons c cs =>
    have hpos : 0 < (String.utf8EncodeChar c).length := by
      rw [String.length_utf8EncodeChar]
      exact c.utf8Size_pos
    rw [encode_cons, List.getElem?_append_left hpos, List.getElem?_eq_getElem hpos] at hb
    obtain rfl := Option.some.inj hb
    exact UInt8.isUTF8FirstByte_getElem_utf8EncodeChar.mpr rfl

/-- Inside the encoding of its first character, a text has no boundary but the start. -/
lemma boundary_encode_cons_iff {c : Char} {cs : List Char} {n : Nat} (hn : n < c.utf8Size) :
    Boundary (encode (c :: cs)) n ↔ n = 0 := by
  have hlt : n < (String.utf8EncodeChar c).length := by rwa [String.length_utf8EncodeChar]
  have hbyte : (encode (c :: cs))[n]? = some (String.utf8EncodeChar c)[n] := by
    rw [encode_cons, List.getElem?_append_left hlt, List.getElem?_eq_getElem hlt]
  have hfirst : (String.utf8EncodeChar c)[n].IsUTF8FirstByte ↔ n = 0 :=
    UInt8.isUTF8FirstByte_getElem_utf8EncodeChar
  rw [← hfirst, Boundary, hbyte]
  simp

lemma boundary_append_iff {front text : List UInt8} {n : Nat} (hn : front.length ≤ n) :
    Boundary (front ++ text) n ↔ Boundary text (n - front.length) := by
  rw [Boundary, Boundary, List.getElem?_append_right hn]

lemma WholePrefix.boundary {part text : List UInt8} (h : WholePrefix part text) :
    Boundary text part.length := by
  obtain ⟨cs, ds, rfl, rfl⟩ := h
  rw [encode_append, boundary_append_iff (Nat.le_refl _), Nat.sub_self]
  exact boundary_encode_zero ds

lemma boundary_of_length_le {text : List UInt8} {n : Nat} (h : text.length ≤ n) :
    Boundary text n := by
  intro b hb
  rw [List.getElem?_eq_none h] at hb
  exact absurd hb (Option.not_mem_none b)

lemma Boundary.wholePrefix_take {cs : List Char} {n : Nat} (h : Boundary (encode cs) n) :
    WholePrefix ((encode cs).take n) (encode cs) := by
  induction cs generalizing n with
  | nil => exact ⟨[], [], by simp, by simp⟩
  | cons c cs ih =>
    by_cases hn : n < c.utf8Size
    · obtain rfl := (boundary_encode_cons_iff hn).mp h
      exact WholePrefix.nil (valid_encode _)
    · have hle : (String.utf8EncodeChar c).length ≤ n := by
        rw [String.length_utf8EncodeChar]
        omega
      rw [encode_cons, boundary_append_iff hle] at h
      rw [encode_cons, List.take_append, List.take_of_length_le hle]
      exact (ih h).cons c

/-- A cut of a valid text keeps whole characters exactly if it falls between two of them. -/
theorem wholePrefix_take_iff {text : List UInt8} {n : Nat} (h : Valid text) :
    WholePrefix (text.take n) text ↔ Boundary text n := by
  obtain ⟨cs, rfl⟩ := h
  refine ⟨fun hp => ?_, Boundary.wholePrefix_take⟩
  by_cases hn : n < (encode cs).length
  · have hb := hp.boundary
    rwa [List.length_take, Nat.min_eq_left (Nat.le_of_lt hn)] at hb
  · exact boundary_of_length_le (by omega)

end Utf8
