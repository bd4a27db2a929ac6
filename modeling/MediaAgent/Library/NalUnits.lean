import Mathlib.Data.List.DropRight
import MediaAgent.Library.ByteReader

/-!
# NAL units in a byte stream

Emulation prevention, and the two ways of framing NAL units: by start codes (Annex B) and by
big-endian lengths.
-/

namespace NalUnits
open ByteReader

/-! ## Emulation prevention -/

/-- The number of zero bytes that end a string, after one more byte. -/
def zeroRun (zeros : Nat) (b : UInt8) : Nat := if b = 0 then zeros + 1 else 0

/-- Insert a 3 before every byte up to 3 that follows two zero bytes. -/
def escapeFrom : Nat → List UInt8 → List UInt8
  | _, [] => []
  | zeros, b :: bs =>
    if 2 ≤ zeros ∧ b ≤ 3 then 3 :: b :: escapeFrom (zeroRun 0 b) bs
    else b :: escapeFrom (zeroRun zeros b) bs

/-- Remove every 3 that follows two zero bytes. -/
def unescapeFrom : Nat → List UInt8 → List UInt8
  | _, [] => []
  | zeros, b :: bs =>
    if 2 ≤ zeros ∧ b = 3 then unescapeFrom 0 bs
    else b :: unescapeFrom (zeroRun zeros b) bs

theorem unescape_escape (zeros : Nat) (bs : List UInt8) :
    unescapeFrom zeros (escapeFrom zeros bs) = bs := by
  induction bs generalizing zeros with
  | nil => rfl
  | cons b bs ih =>
    rw [escapeFrom]
    split
    · rename_i h
      simp [unescapeFrom, h.1, ih]
    · rename_i h
      have hb : ¬(2 ≤ zeros ∧ b = 3) := fun ⟨hz, hb⟩ => h ⟨hz, by rw [hb]; decide⟩
      simp [unescapeFrom, hb, ih]

/-- No byte below 3 follows two zero bytes. -/
def Clean : Nat → List UInt8 → Prop
  | _, [] => True
  | zeros, b :: bs => (2 ≤ zeros → 2 < b) ∧ Clean (zeroRun zeros b) bs

theorem clean_escape (zeros : Nat) (bs : List UInt8) : Clean zeros (escapeFrom zeros bs) := by
  induction bs generalizing zeros with
  | nil => trivial
  | cons b bs ih =>
    rw [escapeFrom]
    split
    · have hz : zeroRun zeros 3 = 0 := rfl
      exact ⟨fun _ => by decide, fun h => by omega, ih _⟩
    · rename_i h
      refine ⟨fun hz => ?_, ih _⟩
      have hb : ¬b ≤ 3 := fun hb => h ⟨hz, hb⟩
      rw [UInt8.le_iff_toNat_le] at hb
      rw [UInt8.lt_iff_toNat_lt]
      simp only [UInt8.reduceToNat] at hb ⊢
      omega

/-- A clean string contains no `0 0 x` with `x` below 3. -/
theorem Clean.no_emulation {zeros : Nat} {pre post : List UInt8} {x : UInt8}
    (h : Clean zeros (pre ++ 0 :: 0 :: x :: post)) : 2 < x := by
  induction pre generalizing zeros with
  | nil => exact h.2.2.1 (by simp [zeroRun])
  | cons b pre ih => exact ih h.2

lemma escapeFrom_append_high (zeros : Nat) (bs : List UInt8) {b : UInt8} (hb : 3 < b) :
    escapeFrom zeros (bs ++ [b]) = escapeFrom zeros bs ++ [b] := by
  have hle : ¬b ≤ 3 := by
    rw [UInt8.lt_iff_toNat_lt] at hb
    rw [UInt8.le_iff_toNat_le]
    omega
  induction bs generalizing zeros with
  | nil => simp [escapeFrom, hle]
  | cons c bs ih =>
    rw [List.cons_append, escapeFrom, escapeFrom]
    split <;> simp [ih]

/-- A clean string that ends in a byte above 2 has no emulation that begins in it, whatever
follows. -/
theorem Clean.no_emulation_append {zeros : Nat} {bs cs pre post : List UInt8} {b x : UInt8}
    (h : Clean zeros bs) (hlast : bs.getLast? = some b) (hb : 2 < b)
    (he : bs ++ cs = pre ++ 0 :: 0 :: x :: post) (hx : x ≤ 2) : bs.length ≤ pre.length := by
  have hpos : b ≠ 0 := by
    rintro rfl
    cases hb
  rcases List.append_eq_append_iff.mp he with ⟨as, rfl, -⟩ | ⟨as, rfl, has⟩
  · rw [List.length_append]
    omega
  · match as with
    | [] => simp
    | [a] =>
      simp only [List.cons_append, List.nil_append, List.cons.injEq] at has
      simp [← has.1] at hlast
      exact absurd hlast.symm hpos
    | [a, a'] =>
      simp only [List.cons_append, List.nil_append, List.cons.injEq] at has
      simp [← has.2.1] at hlast
      exact absurd hlast.symm hpos
    | a :: a' :: a'' :: as =>
      simp only [List.cons_append, List.cons.injEq] at has
      obtain ⟨rfl, rfl, rfl, -⟩ := has
      have hlt := h.no_emulation
      rw [UInt8.lt_iff_toNat_lt] at hlt
      rw [UInt8.le_iff_toNat_le] at hx
      omega

/-! ## Start codes -/

def consHead (b : UInt8) : List (List UInt8) → List (List UInt8)
  | [] => [[b]]
  | s :: ss => (b :: s) :: ss

/-- What lies between the start codes `0 0 1`, and before the first one. -/
def splitStarts : List UInt8 → List (List UInt8)
  | [] => [[]]
  | 0 :: 0 :: 1 :: rest => [] :: splitStarts rest
  | b :: rest => consHead b (splitStarts rest)

/-- The NAL units of an Annex B byte stream: what follows each start code, without the trailing
zero bytes. -/
def annexBUnits (bs : List UInt8) : List (List UInt8) :=
  (splitStarts bs).tail.map (List.rdropWhile (· == 0))

lemma consHead_append (b : UInt8) {xs : List (List UInt8)} (hxs : xs ≠ []) (ys : List (List UInt8)) :
    consHead b (xs ++ ys) = consHead b xs ++ ys := by
  cases xs with
  | nil => exact absurd rfl hxs
  | cons x xs => rfl

lemma splitStarts_ne_nil (bs : List UInt8) : splitStarts bs ≠ [] := by
  induction bs using splitStarts.induct with
  | case1 => simp [splitStarts]
  | case2 rest ih => simp [splitStarts]
  | case3 b rest hb ih =>
    rw [splitStarts.eq_3 b rest hb]
    cases splitStarts rest <;> simp [consHead]

/-- A start code is found wherever it stands: no other one can overlap it. -/
theorem splitStarts_append_start (a b : List UInt8) :
    splitStarts (a ++ 0 :: 0 :: 1 :: b) = splitStarts a ++ splitStarts b := by
  induction a using splitStarts.induct with
  | case1 => rfl
  | case2 rest ih => simp [splitStarts, ih]
  | case3 c rest hc ih =>
    have hstart : ∀ r, c = 0 → rest ++ 0 :: 0 :: 1 :: b = 0 :: 1 :: r → False := by
      intro r h0 hr
      match rest with
      | [] => simp at hr
      | [d] => simp at hr
      | d :: e :: rest' =>
        simp only [List.cons_append, List.cons.injEq] at hr
        exact hc rest' h0 (by rw [hr.1, hr.2.1])
    rw [List.cons_append, splitStarts.eq_3 _ _ hstart, splitStarts.eq_3 _ _ hc, ih,
      consHead_append _ (splitStarts_ne_nil _)]

lemma splitStarts_eq_self {bs : List UInt8} (h : ∀ pre post, bs ≠ pre ++ 0 :: 0 :: 1 :: post) :
    splitStarts bs = [bs] := by
  induction bs using splitStarts.induct with
  | case1 => rfl
  | case2 rest ih => exact absurd rfl (h [] rest)
  | case3 b rest hb ih =>
    rw [splitStarts.eq_3 b rest hb, ih]
    · rfl
    · intro pre post he
      exact h (b :: pre) post (by rw [he]; rfl)

/-- The first start code opens the units of the rest. -/
lemma annexBUnits_start (bs : List UInt8) :
    annexBUnits (0 :: 0 :: 1 :: bs) = (splitStarts bs).map (List.rdropWhile (· == 0)) := rfl

/-- The stream opens with a start code of three or four bytes. -/
def StartsWithStartCode (bs : List UInt8) : Prop :=
  ∃ rest, bs = 0 :: 0 :: 1 :: rest ∨ bs = 0 :: 0 :: 0 :: 1 :: rest

/-- A NAL unit without emulation that is put in front of a stream becomes its first unit, and
the units of the stream stay as they are. -/
theorem annexBUnits_insert {zeros : Nat} {unit bs : List UInt8} {b : UInt8} (hc : Clean zeros unit)
    (hlast : unit.getLast? = some b) (hb : 2 < b) (hbs : StartsWithStartCode bs) :
    annexBUnits (0 :: 0 :: 0 :: 1 :: (unit ++ bs)) = unit :: annexBUnits bs := by
  have hpos : (b == 0) = false := by
    rw [beq_eq_false_iff_ne]
    rintro rfl
    cases hb
  obtain ⟨init, rfl⟩ : ∃ init, unit = init ++ [b] := List.getLast?_eq_some_iff.mp hlast
  have hstart : ∀ pre post, init ++ [b] ≠ pre ++ 0 :: 0 :: 1 :: post := by
    intro pre post he
    rw [he] at hc
    exact absurd hc.no_emulation (by decide)
  have hstart' : ∀ pre post, init ++ [b] ++ [0] ≠ pre ++ 0 :: 0 :: 1 :: post := by
    intro pre post he
    have hlen := hc.no_emulation_append hlast hb he (by decide)
    have := congrArg List.length he
    simp only [List.length_append, List.length_cons, List.length_nil] at hlen this
    omega
  have hsplit : splitStarts (0 :: 0 :: 0 :: 1 :: (init ++ [b] ++ bs)) =
      [[0]] ++ splitStarts (init ++ [b] ++ bs) := splitStarts_append_start [0] (init ++ [b] ++ bs)
  rw [annexBUnits, hsplit, List.singleton_append, List.tail_cons]
  obtain ⟨rest, rfl | rfl⟩ := hbs
  · rw [splitStarts_append_start, splitStarts_eq_self hstart, annexBUnits_start]
    simp [hpos]
  · have hbs : annexBUnits (0 :: 0 :: 0 :: 1 :: rest) =
        (splitStarts rest).map (List.rdropWhile (· == 0)) := by
      rw [annexBUnits, show (0 :: 0 :: 0 :: 1 :: rest : List UInt8) = [0] ++ 0 :: 0 :: 1 :: rest from rfl,
        splitStarts_append_start]
      rfl
    rw [hbs, show init ++ [b] ++ 0 :: 0 :: 0 :: 1 :: rest = (init ++ [b] ++ [0]) ++ 0 :: 0 :: 1 :: rest by simp,
      splitStarts_append_start, splitStarts_eq_self hstart', List.singleton_append, List.map_cons]
    congr 1
    rw [List.rdropWhile_concat_pos _ _ _ (by decide), List.rdropWhile_concat_neg _ _ _ (by simp [hpos])]

/-! ## Length prefixes -/

/-- A NAL unit behind its length in `w` big-endian bytes. -/
def lengthPrefixed (w : Nat) (unit : List UInt8) : List UInt8 := toBE w unit.length ++ unit

def lengthPrefixedUnit (w : Nat) : Reader (List UInt8) := do
  let n ← number w
  bytes n

/-- The NAL units of a length-prefixed stream. -/
def lengthPrefixedUnits (w : Nat) : List UInt8 → Option (List (List UInt8)) := all (lengthPrefixedUnit w)

lemma reads_lengthPrefixed {w : Nat} {unit : List UInt8} (h : unit.length < 256 ^ w) :
    Reads (lengthPrefixedUnit w) (lengthPrefixed w unit) unit := by
  have hn := reads_number w unit.length
  rw [Nat.mod_eq_of_lt h] at hn
  exact hn.bind (reads_bytes unit)

/-- A unit that is read has the length that its first `w` bytes announce. -/
lemma length_of_lengthPrefixedUnit {w : Nat} {bs unit rest : List UInt8}
    (h : (lengthPrefixedUnit w).run bs = some (unit, rest)) : unit.length = ofBE (bs.take w) := by
  simp only [lengthPrefixedUnit, number, StateT.run_bind, StateT.run_map, Option.map_eq_map,
    Option.bind_eq_bind, Option.bind_eq_some_iff, Option.map_eq_some_iff] at h
  obtain ⟨-, ⟨⟨v, tail⟩, hv, rfl⟩, hunit⟩ := h
  obtain ⟨-, rfl, -⟩ := bytes_run_eq_some hv
  obtain ⟨hle, rfl, -⟩ := bytes_run_eq_some hunit
  rw [List.length_take, Nat.min_eq_left hle]

/-- Units that fit their length field are read back. -/
theorem lengthPrefixedUnits_flatMap {w : Nat} (hw : 0 < w) (units : List (List UInt8))
    (h : ∀ u ∈ units, u.length < 256 ^ w) :
    lengthPrefixedUnits w (units.flatMap (lengthPrefixed w)) = some units := by
  have hall := all_flatMap (lengthPrefixedUnit w) (lengthPrefixed w) id units
    (fun u hu => ⟨reads_lengthPrefixed (h u hu), fun he => ?_⟩)
  · rwa [List.map_id] at hall
  · have hlen := congrArg List.length he
    simp only [lengthPrefixed, List.length_append, length_toBE, List.length_nil] at hlen
    omega

end NalUnits
