import Mathlib.Data.List.DropRight
import MediaAgent.StreamTypes

/-!
# The names of recording files

`buildRecordingFileName` and `makeHiddenRecordingName` of `stream/Recorder.cpp`, with `sanitizeFileComponent` and
`makeTimestamp`. Two names agree exactly if the local second and the format are the same, and the stream ids differ
only in characters that are replaced.
-/

namespace MediaAgent

def isalnum (ch : UInt8) : Bool :=
  (0x30 ≤ ch && ch ≤ 0x39) || (0x41 ≤ ch && ch ≤ 0x5A) || (0x61 ≤ ch && ch ≤ 0x7A)

/-- What `sanitizeFileComponent` writes for a character: itself, or an underscore. -/
def sanitizeChar (ch : UInt8) : UInt8 := if isalnum ch || ch == 0x2D || ch == 0x5F then ch else 0x5F

def sanitizeFileComponent (value : Bytes) : Bytes :=
  let sanitized := value.map sanitizeChar
  if sanitized.isEmpty then [0x75, 0x6E, 0x6B, 0x6E, 0x6F, 0x77, 0x6E] else sanitized

/-- The fields of a `std::tm` that `strftime` prints, with the year and the month counted as it prints them. -/
structure Tm where
  year : Nat
  mon : Fin 13
  mday : Fin 32
  hour : Fin 24
  min : Fin 60
  sec : Fin 61
  deriving DecidableEq, Repr

def decimal (n : Nat) : Bytes := (Nat.toDigits 10 n).map fun c => UInt8.ofNat c.toNat

def twoDigits (n : Nat) : Bytes := [UInt8.ofNat (0x30 + n / 10), UInt8.ofNat (0x30 + n % 10)]

/-- The text of the local time, as `%Y%m%d_%H%M%S`. -/
def makeTimestamp (t : Tm) : Bytes :=
  decimal t.year ++ twoDigits t.mon ++ twoDigits t.mday ++ [0x5F] ++ twoDigits t.hour ++ twoDigits t.min ++
    twoDigits t.sec

inductive RecordFormat
  | flv
  | mp4
  deriving DecidableEq, Repr

def RecordFormat.ext : RecordFormat → Bytes
  | .flv => [0x66, 0x6C, 0x76]
  | .mp4 => [0x6D, 0x70, 0x34]

def buildRecordingFileName (now : Tm) (streamId : Bytes) (format : RecordFormat) : Bytes :=
  let timestamp := makeTimestamp now
  let dateDir := timestamp.take 8
  let streamDir := sanitizeFileComponent streamId
  let fileName := streamDir ++ [0x5F] ++ timestamp ++ [0x2E] ++ format.ext
  dateDir ++ [0x2F] ++ streamDir ++ [0x2F] ++ fileName

/-- The file name with a dot before it, in the same directory. -/
def makeHiddenRecordingName (visibleName : Bytes) : Bytes :=
  visibleName.rdropWhile (· != 0x2F) ++ [0x2E] ++ visibleName.rtakeWhile (· != 0x2F)

/-- No other character is written like this one. -/
def keepsChar (ch : UInt8) : Bool := isalnum ch || ch == 0x2D

/-- The ids differ only in characters that are written as underscores. -/
def similarIds (a b : Bytes) : Bool :=
  a.length == b.length && (a.zip b).all fun (c, d) => c == d || !keepsChar c && !keepsChar d

/-! ## Stream ids -/

lemma sanitizeChar_eq (ch : UInt8) : sanitizeChar ch = if keepsChar ch then ch else 0x5F := by
  unfold sanitizeChar keepsChar
  by_cases hunderscore : ch = 0x5F
  · rw [hunderscore]
    decide
  · have hne : (ch == 0x5F) = false := beq_eq_false_iff_ne.mpr hunderscore
    rw [hne, Bool.or_false]

lemma sanitizeChar_eq_iff (c d : UInt8) :
    sanitizeChar c = sanitizeChar d ↔ (c == d || !keepsChar c && !keepsChar d) = true := by
  have hunderscore : keepsChar 0x5F = false := by decide
  rw [sanitizeChar_eq, sanitizeChar_eq, Bool.or_eq_true, beq_iff_eq]
  cases hc : keepsChar c with
  | true =>
    cases hd : keepsChar d with
    | true => simp
    | false =>
      have hne : c ≠ 0x5F := by
        rintro rfl
        exact Bool.false_ne_true (hunderscore.symm.trans hc)
      have hne' : c ≠ d := by
        rintro rfl
        exact Bool.false_ne_true (hd.symm.trans hc)
      simp [hne, hne']
  | false =>
    cases hd : keepsChar d with
    | true =>
      have hne : d ≠ 0x5F := by
        rintro rfl
        exact Bool.false_ne_true (hunderscore.symm.trans hd)
      have hne' : c ≠ d := by
        rintro rfl
        exact Bool.false_ne_true (hc.symm.trans hd)
      simp [hne.symm, hne']
    | false => simp

lemma map_sanitizeChar_eq_iff (a b : Bytes) : a.map sanitizeChar = b.map sanitizeChar ↔ similarIds a b = true := by
  induction a generalizing b with
  | nil => cases b <;> simp [similarIds]
  | cons c a ih =>
    cases b with
    | nil => simp [similarIds]
    | cons d b =>
      have hcons : similarIds (c :: a) (d :: b) =
          ((c == d || !keepsChar c && !keepsChar d) && similarIds a b) := by
        simp only [similarIds, List.length_cons, List.zip_cons_cons, List.all_cons]
        rw [show (a.length + 1 == b.length + 1) = (a.length == b.length) from by simp]
        exact Bool.and_left_comm _ _ _
      rw [List.map_cons, List.map_cons, List.cons.injEq, ih, sanitizeChar_eq_iff, hcons, Bool.and_eq_true]

lemma sanitizeFileComponent_eq {id : Bytes} (h : id ≠ []) : sanitizeFileComponent id = id.map sanitizeChar := by
  rw [sanitizeFileComponent]
  exact if_neg (by simpa using h)

/-- Two stream ids have one directory exactly if they are similar. -/
theorem sanitizeFileComponent_eq_iff {a b : Bytes} (ha : a ≠ []) (hb : b ≠ []) :
    sanitizeFileComponent a = sanitizeFileComponent b ↔ similarIds a b = true := by
  rw [sanitizeFileComponent_eq ha, sanitizeFileComponent_eq hb, map_sanitizeChar_eq_iff]

lemma keepsChar_or (ch : UInt8) : keepsChar (sanitizeChar ch) = true ∨ sanitizeChar ch = 0x5F := by
  rw [sanitizeChar_eq]
  cases hkeeps : keepsChar ch with
  | true => exact .inl (by simpa using hkeeps)
  | false => exact .inr rfl

/-- A directory name has neither a slash nor a dot. -/
lemma not_mem_sanitizeFileComponent {id : Bytes} (h : id ≠ []) {ch : UInt8} (hkeeps : keepsChar ch = false)
    (hne : ch ≠ 0x5F) : ch ∉ sanitizeFileComponent id := by
  rw [sanitizeFileComponent_eq h]
  intro hmem
  obtain ⟨c, -, rfl⟩ := List.mem_map.mp hmem
  rcases keepsChar_or c with hc | hc
  · exact Bool.false_ne_true (hkeeps.symm.trans hc)
  · exact hne hc

/-! ## Timestamps -/

/-- The byte is an ASCII digit. -/
def isDigitByte (ch : UInt8) : Prop := 0x30 ≤ ch.toNat ∧ ch.toNat ≤ 0x39

lemma digit_toNat {c : Char} (h : c.isDigit = true) : 0x30 ≤ c.toNat ∧ c.toNat ≤ 0x39 := by
  simpa [Char.isDigit, UInt32.le_iff_toNat_le] using h

lemma digit_ofNat_toNat {c : Char} (h : c.isDigit = true) : Char.ofNat (UInt8.ofNat c.toNat).toNat = c := by
  have hrange := digit_toNat h
  rw [UInt8.toNat_ofNat', Nat.mod_eq_of_lt (by omega), Char.ofNat_toNat]

lemma decimal_injective {n m : Nat} (h : decimal n = decimal m) : n = m := by
  have hdigits : ∀ k, (decimal k).map (fun ch => Char.ofNat ch.toNat) = Nat.toDigits 10 k := by
    intro k
    rw [decimal, List.map_map]
    conv_rhs => rw [← List.map_id (Nat.toDigits 10 k)]
    refine List.map_congr_left fun c hc => ?_
    exact digit_ofNat_toNat (Nat.isDigit_of_mem_toDigits (by decide) (by decide) hc)
  rw [← Nat.ofDigitChars_ten_toDigits (n := n), ← Nat.ofDigitChars_ten_toDigits (n := m), ← hdigits, h, hdigits]

lemma isDigitByte_of_mem_decimal {n : Nat} {ch : UInt8} (h : ch ∈ decimal n) : isDigitByte ch := by
  obtain ⟨c, hc, rfl⟩ := List.mem_map.mp h
  have hrange := digit_toNat (Nat.isDigit_of_mem_toDigits (by decide) (by decide) hc)
  rw [isDigitByte, UInt8.toNat_ofNat', Nat.mod_eq_of_lt (by omega)]
  exact hrange

lemma twoDigits_injective {n m : Nat} (hn : n < 100) (hm : m < 100) (h : twoDigits n = twoDigits m) : n = m := by
  simp only [twoDigits, List.cons.injEq, ← UInt8.toNat_inj, UInt8.toNat_ofNat', and_true] at h
  omega

lemma isDigitByte_of_mem_twoDigits {n : Nat} (hn : n < 100) {ch : UInt8} (h : ch ∈ twoDigits n) : isDigitByte ch := by
  unfold isDigitByte
  simp only [twoDigits, List.mem_cons, List.not_mem_nil, or_false] at h
  rcases h with rfl | rfl <;>
    · rw [UInt8.toNat_ofNat']
      omega

/-- The text of a local time determines it: only the year has no fixed width, and it comes first. -/
theorem makeTimestamp_injective {t t' : Tm} (h : makeTimestamp t = makeTimestamp t') : t = t' := by
  unfold makeTimestamp at h
  obtain ⟨h, hsec⟩ := List.append_inj' h rfl
  obtain ⟨h, hmin⟩ := List.append_inj' h rfl
  obtain ⟨h, hhour⟩ := List.append_inj' h rfl
  obtain ⟨h, -⟩ := List.append_inj' h rfl
  obtain ⟨h, hmday⟩ := List.append_inj' h rfl
  obtain ⟨hyear, hmon⟩ := List.append_inj' h rfl
  cases t with
  | mk year mon mday hour min sec =>
    cases t' with
    | mk year' mon' mday' hour' min' sec' =>
      obtain rfl := decimal_injective hyear
      obtain rfl := Fin.ext (twoDigits_injective (by omega) (by omega) hmon)
      obtain rfl := Fin.ext (twoDigits_injective (by omega) (by omega) hmday)
      obtain rfl := Fin.ext (twoDigits_injective (by omega) (by omega) hhour)
      obtain rfl := Fin.ext (twoDigits_injective (by omega) (by omega) hmin)
      obtain rfl := Fin.ext (twoDigits_injective (by omega) (by omega) hsec)
      rfl

lemma mem_makeTimestamp {t : Tm} {ch : UInt8} (h : ch ∈ makeTimestamp t) : isDigitByte ch ∨ ch = 0x5F := by
  simp only [makeTimestamp, List.mem_append, List.mem_singleton] at h
  rcases h with ((((((h | h) | h) | h) | h) | h) | h)
  · exact .inl (isDigitByte_of_mem_decimal h)
  · exact .inl (isDigitByte_of_mem_twoDigits (by omega) h)
  · exact .inl (isDigitByte_of_mem_twoDigits (by omega) h)
  · exact .inr h
  · exact .inl (isDigitByte_of_mem_twoDigits (by omega) h)
  · exact .inl (isDigitByte_of_mem_twoDigits (by omega) h)
  · exact .inl (isDigitByte_of_mem_twoDigits (by omega) h)

lemma not_mem_makeTimestamp {t : Tm} {ch : UInt8} (hdigit : ¬isDigitByte ch) (hne : ch ≠ 0x5F) :
    ch ∉ makeTimestamp t := by
  intro h
  rcases mem_makeTimestamp h with h | h
  · exact hdigit h
  · exact hne h

/-! ## Paths -/

/-- A list is split in one way at its first separator. -/
lemma append_cons_inj_first {sep : UInt8} {a a' b b' : Bytes} (h : sep ∉ a) (h' : sep ∉ a')
    (heq : a ++ sep :: b = a' ++ sep :: b') : a = a' ∧ b = b' := by
  induction a generalizing a' with
  | nil =>
    cases a' with
    | nil => exact ⟨rfl, (List.cons.inj heq).2⟩
    | cons c a' => exact absurd (List.mem_cons.mpr (.inl (List.cons.inj heq).1)) h'
  | cons c a ih =>
    cases a' with
    | nil => exact absurd (List.mem_cons.mpr (.inl (List.cons.inj heq).1.symm)) h
    | cons c' a' =>
      obtain ⟨rfl, htail⟩ := List.cons.inj heq
      obtain ⟨rfl, rfl⟩ := ih (List.not_mem_of_not_mem_cons h) (List.not_mem_of_not_mem_cons h') htail
      exact ⟨rfl, rfl⟩

/-- A list is split in one way at its last separator. -/
lemma append_cons_inj_last {sep : UInt8} {a a' b b' : Bytes} (h : sep ∉ b) (h' : sep ∉ b')
    (heq : a ++ sep :: b = a' ++ sep :: b') : a = a' ∧ b = b' := by
  have hreverse : b.reverse ++ sep :: a.reverse = b'.reverse ++ sep :: a'.reverse := by
    have hboth := congrArg List.reverse heq
    simpa only [List.reverse_append, List.reverse_cons, List.append_assoc, List.singleton_append] using hboth
  obtain ⟨hb, ha⟩ := append_cons_inj_first (by simpa using h) (by simpa using h') hreverse
  exact ⟨List.reverse_injective ha, List.reverse_injective hb⟩

lemma makeHiddenRecordingName_eq {dir name : Bytes} (h : (0x2F : UInt8) ∉ name) :
    makeHiddenRecordingName (dir ++ 0x2F :: name) = dir ++ 0x2F :: 0x2E :: name := by
  have hname : ∀ ch ∈ name.reverse, (ch != 0x2F) = true := by
    intro ch hmem
    rw [bne_iff_ne]
    rintro rfl
    exact h (List.mem_reverse.mp hmem)
  have hreverse : (dir ++ 0x2F :: name).reverse = name.reverse ++ 0x2F :: dir.reverse := by simp
  rw [makeHiddenRecordingName, List.rdropWhile, List.rtakeWhile, hreverse, List.dropWhile_append_of_pos hname,
    List.takeWhile_append_of_pos hname, List.dropWhile_cons_of_neg (by decide), List.takeWhile_cons_of_neg (by decide)]
  simp

lemma isDigitByte_slash : ¬isDigitByte 0x2F := fun h => absurd h.1 (by decide)

lemma isDigitByte_dot : ¬isDigitByte 0x2E := fun h => absurd h.1 (by decide)

lemma slash_not_mem_makeTimestamp (t : Tm) : (0x2F : UInt8) ∉ makeTimestamp t :=
  not_mem_makeTimestamp isDigitByte_slash (by decide)

lemma dot_not_mem_makeTimestamp (t : Tm) : (0x2E : UInt8) ∉ makeTimestamp t :=
  not_mem_makeTimestamp isDigitByte_dot (by decide)

lemma ext_injective {format format' : RecordFormat} (h : format.ext = format'.ext) : format = format' := by
  cases format <;> cases format' <;> first | rfl | cases h

/-- Two recordings have one path exactly if they are of one format and one local second, and of similar ids. -/
theorem buildRecordingFileName_eq_iff {now now' : Tm} {id id' : Bytes} {format format' : RecordFormat}
    (hid : id ≠ []) (hid' : id' ≠ []) :
    buildRecordingFileName now id format = buildRecordingFileName now' id' format' ↔
      now = now' ∧ similarIds id id' = true ∧ format = format' := by
  rw [← sanitizeFileComponent_eq_iff hid hid']
  constructor
  · intro h
    simp only [buildRecordingFileName, List.append_assoc, List.singleton_append] at h
    obtain ⟨-, h⟩ := append_cons_inj_first
      (fun hmem => slash_not_mem_makeTimestamp now (List.mem_of_mem_take hmem))
      (fun hmem => slash_not_mem_makeTimestamp now' (List.mem_of_mem_take hmem)) h
    obtain ⟨hdir, h⟩ := append_cons_inj_first
      (not_mem_sanitizeFileComponent hid (by decide) (by decide))
      (not_mem_sanitizeFileComponent hid' (by decide) (by decide)) h
    rw [hdir] at h
    have htail := (List.cons.inj (List.append_cancel_left h)).2
    obtain ⟨htime, hext⟩ := append_cons_inj_first (dot_not_mem_makeTimestamp now) (dot_not_mem_makeTimestamp now') htail
    exact ⟨makeTimestamp_injective htime, hdir, ext_injective hext⟩
  · rintro ⟨rfl, hdir, rfl⟩
    unfold buildRecordingFileName
    rw [hdir]

/-- A path ends with a file name that has no slash, and does not begin with a dot. -/
lemma buildRecordingFileName_parts (now : Tm) {id : Bytes} (hid : id ≠ []) (format : RecordFormat) :
    ∃ dir name, buildRecordingFileName now id format = dir ++ 0x2F :: name ∧ (0x2F : UInt8) ∉ name ∧
      name.head? ≠ some 0x2E := by
  have hslash : 0x2F ∉ sanitizeFileComponent id := not_mem_sanitizeFileComponent hid (by decide) (by decide)
  have hdot : 0x2E ∉ sanitizeFileComponent id := not_mem_sanitizeFileComponent hid (by decide) (by decide)
  refine ⟨(makeTimestamp now).take 8 ++ [0x2F] ++ sanitizeFileComponent id,
    sanitizeFileComponent id ++ [0x5F] ++ makeTimestamp now ++ [0x2E] ++ format.ext, ?_, ?_, ?_⟩
  · simp [buildRecordingFileName]
  · simp only [List.mem_append, List.mem_singleton, not_or]
    refine ⟨⟨⟨⟨hslash, by decide⟩, slash_not_mem_makeTimestamp now⟩, by decide⟩, ?_⟩
    cases format <;> decide
  · cases hname : sanitizeFileComponent id with
    | nil => simp
    | cons ch rest =>
      rw [hname] at hdot
      intro hhead
      exact hdot (List.mem_cons.mpr (.inl (Option.some.inj hhead).symm))

/-- The temporary name of one recording is neither the temporary nor the final name of another. -/
lemma makeHiddenRecordingName_ne (now now' : Tm) {id id' : Bytes} (hid : id ≠ []) (hid' : id' ≠ [])
    (format format' : RecordFormat) :
    makeHiddenRecordingName (buildRecordingFileName now id format) ≠ buildRecordingFileName now' id' format' ∧
      (makeHiddenRecordingName (buildRecordingFileName now id format) =
          makeHiddenRecordingName (buildRecordingFileName now' id' format') →
        buildRecordingFileName now id format = buildRecordingFileName now' id' format') := by
  obtain ⟨dir, name, hpath, hslash, hdot⟩ := buildRecordingFileName_parts now hid format
  obtain ⟨dir', name', hpath', hslash', hdot'⟩ := buildRecordingFileName_parts now' hid' format'
  have hhidden : ∀ {name : Bytes}, (0x2F : UInt8) ∉ name → (0x2F : UInt8) ∉ (0x2E : UInt8) :: name := by
    intro name hname hmem
    rcases List.mem_cons.mp hmem with h | h
    · exact absurd h (by decide)
    · exact hname h
  rw [hpath, hpath', makeHiddenRecordingName_eq hslash, makeHiddenRecordingName_eq hslash']
  constructor
  · intro h
    obtain ⟨-, rfl⟩ := append_cons_inj_last (hhidden hslash) hslash' h
    exact hdot' rfl
  · intro h
    obtain ⟨rfl, hnames⟩ := append_cons_inj_last (hhidden hslash) (hhidden hslash') h
    rw [(List.cons.inj hnames).2]

end MediaAgent
