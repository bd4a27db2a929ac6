import Mathlib.Data.List.Nodup
import Mathlib.Data.List.Rotate

/-!
# A cursor that goes round a list

The elements of a list are visited from a cursor on and around the end, so the visiting order is a
rotation of the list. The lemmas say how the order changes when the visit stops at an element and the
cursor is put behind it, when an element is appended, and when one is removed and the cursor stays.
-/

namespace RoundRobin

variable {α : Type*}

/-- No element of `done` is visited before `x`. -/
def Passed (x : α) (done l : List α) : Prop := ∃ before behind, l = before ++ x :: behind ∧ ∀ y ∈ done, y ∉ before

lemma Passed.mem {x : α} {done l : List α} (h : Passed x done l) : x ∈ l := by
  obtain ⟨before, behind, rfl, -⟩ := h
  exact List.mem_append_right before List.mem_cons_self

/-- Nothing is done yet. -/
lemma passed_nil {x : α} {l : List α} (h : x ∈ l) : Passed x [] l := by
  obtain ⟨before, behind, rfl⟩ := List.append_of_mem h
  exact ⟨before, behind, rfl, nofun⟩

/-- The visit stops at `y`, which is not behind `x`, and is going to start after it. It is the first visit
to `y`, and `y` is behind `x` from then on. -/
lemma Passed.advance {x y : α} {done l r : List α} (h : Passed x done (l ++ y :: r))
    (hnodup : (l ++ y :: r).Nodup) (hne : y ≠ x) (hx : x ∉ l) :
    y ∉ done ∧ Passed x (y :: done) (r ++ (l ++ [y])) := by
  obtain ⟨before, behind, heq, hdone⟩ := h
  have hsplit : ∃ between, before = l ++ y :: between ∧ r = between ++ x :: behind := by
    rcases List.append_eq_append_iff.mp heq with ⟨between, hbefore, hr⟩ | ⟨between, hl, hr⟩
    · cases between with
      | nil =>
        rw [List.nil_append] at hr
        exact absurd (List.cons.inj hr).1 hne
      | cons z between =>
        obtain ⟨rfl, hbetween⟩ := List.cons.inj hr
        exact ⟨between, hbefore, hbetween⟩
    · cases between with
      | nil =>
        rw [List.nil_append] at hr
        exact absurd (List.cons.inj hr).1 (Ne.symm hne)
      | cons z between =>
        obtain ⟨rfl, -⟩ := List.cons.inj hr
        rw [hl] at hx
        exact absurd (List.mem_append_right before List.mem_cons_self) hx
  obtain ⟨between, rfl, rfl⟩ := hsplit
  refine ⟨fun hy => hdone y hy (by simp), between, behind ++ (l ++ [y]), by simp, fun z hz hmem => ?_⟩
  rcases List.mem_cons.mp hz with rfl | hz
  · have hnotMem := (List.nodup_cons.mp (List.nodup_append.mp hnodup).2.1).1
    exact hnotMem (List.mem_append_left _ hmem)
  · apply hdone z hz
    simp [hmem]

/-- The first element is put at the end, with `x` not the first. -/
lemma Passed.rotate_one {x : α} {done l : List α} (h : Passed x done l) (hx : l.head? ≠ some x) :
    Passed x done (l.rotate 1) := by
  obtain ⟨before, behind, rfl, hdone⟩ := h
  cases before with
  | nil => exact absurd rfl hx
  | cons z before =>
    refine ⟨before, behind ++ [z], by simp, fun y hy hmem => ?_⟩
    exact hdone y hy (List.mem_cons_of_mem z hmem)

lemma Passed.filter {x : α} {done l : List α} (h : Passed x done l) {p : α → Bool} (hx : p x = true) :
    Passed x done (l.filter p) := by
  obtain ⟨before, behind, rfl, hdone⟩ := h
  refine ⟨before.filter p, behind.filter p, by simp [hx], fun y hy hmem => ?_⟩
  exact hdone y hy (List.mem_of_mem_filter hmem)

/-- Only elements that are in the list matter. -/
lemma Passed.of_mem {x : α} {done done' l : List α} (h : Passed x done l) (hdone : ∀ y ∈ done', y ∈ l → y ∈ done) :
    Passed x done' l := by
  obtain ⟨before, behind, rfl, hbefore⟩ := h
  exact ⟨before, behind, rfl, fun y hy hmem => hbefore y (hdone y hy (List.mem_append_left _ hmem)) hmem⟩

/-! ## The list and the cursor -/

/-- The visiting order, split where the visit stops, and the order from the next cursor. -/
lemma rotate_split {l : List α} {cursor i : Nat} {y : α} (hi : i < l.length) (hy : l[(cursor + i) % l.length]? = some y) :
    ∃ front back, l.rotate cursor = front ++ y :: back ∧ front.length = i ∧
      l.rotate (((cursor + i) % l.length + 1) % l.length) = back ++ (front ++ [y]) := by
  have hy' : (l.rotate cursor)[i]? = some y := by
    rw [List.getElem?_rotate hi, Nat.add_comm]
    exact hy
  have hlength : i < (l.rotate cursor).length := by
    rw [List.length_rotate]
    exact hi
  have hnext : l.rotate (((cursor + i) % l.length + 1) % l.length) = (l.rotate cursor).rotate (i + 1) := by
    rw [List.rotate_rotate, ← List.rotate_mod l (cursor + (i + 1)), Nat.mod_add_mod, Nat.add_assoc]
  obtain ⟨hlt, hget⟩ := List.getElem?_eq_some_iff.mp hy'
  have htake : (l.rotate cursor).take (i + 1) = (l.rotate cursor).take i ++ [y] := by
    rw [List.take_add_one, hy']
    rfl
  refine ⟨(l.rotate cursor).take i, (l.rotate cursor).drop (i + 1), ?_, ?_, ?_⟩
  · rw [← hget, List.getElem_cons_drop, List.take_append_drop]
  · rw [List.length_take]
    omega
  · rw [hnext, List.rotate_eq_drop_append_take (by omega), htake]

/-- The first numbers, split at one of them. -/
lemma range_split {n i : Nat} {front back : List Nat} (h : List.range n = front ++ i :: back) :
    front.length = i ∧ i < n ∧ ∀ j < i, j ∈ front := by
  have hlength := congrArg List.length h
  rw [List.length_range, List.length_append, List.length_cons] at hlength
  have hi : (List.range n)[front.length]? = some i := by
    rw [h]
    simp
  rw [List.getElem?_range (by omega)] at hi
  have hi := Option.some.inj hi
  refine ⟨hi, by omega, fun j hj => ?_⟩
  have hget := List.getElem?_range (i := j) (n := n) (by omega)
  rw [h, List.getElem?_append_left (by omega)] at hget
  exact List.mem_of_getElem? hget

/-- An element that is appended comes before those in front of the cursor. -/
lemma Passed.append {x y : α} {done l : List α} {cursor : Nat} (h : Passed x done (l.rotate cursor))
    (hcursor : cursor ≤ l.length) (hy : y ∉ done ∨ x ∉ l.take cursor) :
    Passed x done ((l ++ [y]).rotate cursor) := by
  rw [List.rotate_eq_drop_append_take hcursor] at h
  rw [List.rotate_eq_drop_append_take (by rw [List.length_append]; omega), List.drop_append_of_le_length hcursor,
    List.take_append_of_le_length hcursor]
  obtain ⟨before, behind, heq, hdone⟩ := h
  have hsplit : (∃ between, before = l.drop cursor ++ between ∧ l.take cursor = between ++ x :: behind) ∨
      ∃ between, l.drop cursor = before ++ x :: between ∧ behind = between ++ l.take cursor := by
    rcases List.append_eq_append_iff.mp heq with hfront | ⟨between, hdrop, hbehind⟩
    · exact .inl hfront
    · cases between with
      | nil => exact .inl ⟨[], by simp [hdrop], hbehind.symm⟩
      | cons z between =>
        obtain ⟨rfl, hrest⟩ := List.cons.inj hbehind
        exact .inr ⟨between, hdrop, hrest⟩
  rcases hsplit with ⟨between, rfl, htake⟩ | ⟨between, hdrop, rfl⟩
  · have hx : x ∈ l.take cursor := by
      rw [htake]
      exact List.mem_append_right between List.mem_cons_self
    have hy := hy.resolve_right fun hnot => hnot hx
    refine ⟨l.drop cursor ++ y :: between, behind, by simp [htake], fun z hz hmem => ?_⟩
    rcases List.mem_append.mp hmem with hmem | hmem
    · exact hdone z hz (List.mem_append_left _ hmem)
    · rcases List.mem_cons.mp hmem with rfl | hmem
      · exact hy hz
      · exact hdone z hz (List.mem_append_right _ hmem)
  · exact ⟨before, between ++ y :: l.take cursor, by simp [hdrop], hdone⟩

/-- The cursor after a removal, which only has to stay inside the list. -/
def clamp (cursor length : Nat) : Nat := if length ≤ cursor then 0 else cursor

lemma rotate_clamp (l r : List α) : (l ++ r).rotate (clamp l.length (l ++ r).length) = r ++ l := by
  rw [clamp, List.length_append]
  split
  · have hnil : r = [] := List.eq_nil_of_length_eq_zero (by omega)
    rw [hnil, List.append_nil, List.rotate_zero, List.nil_append]
  · exact List.rotate_append_length_eq l r

/-- An element in front of the cursor comes after one that is appended. -/
lemma rotate_append {x : α} {l : List α} {cursor : Nat} (hcursor : cursor ≤ l.length) (hx : x ∈ l.take cursor) (y : α) :
    ∃ front back, (l ++ [y]).rotate cursor = front ++ y :: back ∧ x ∈ back := by
  refine ⟨l.drop cursor, l.take cursor, ?_, hx⟩
  rw [List.rotate_eq_drop_append_take (by rw [List.length_append]; omega), List.drop_append_of_le_length hcursor,
    List.take_append_of_le_length hcursor, List.append_assoc, List.singleton_append]

section Removal

variable [BEq α] [LawfulBEq α]

lemma filter_ne_of_notMem {x : α} {l : List α} (hx : x ∉ l) : l.filter (· != x) = l := by
  rw [List.filter_eq_self]
  intro y hy
  rw [bne_iff_ne]
  rintro rfl
  exact hx hy

/-- The removed element was not in front of the cursor: the others keep their order. -/
lemma rotate_filter_of_notMem {x : α} {l : List α} {cursor : Nat} (hcursor : cursor ≤ l.length)
    (hx : x ∉ l.take cursor) :
    (l.filter (· != x)).rotate (clamp cursor (l.filter (· != x)).length) = (l.rotate cursor).filter (· != x) := by
  have hfilter : l.filter (· != x) = l.take cursor ++ (l.drop cursor).filter (· != x) := by
    conv_lhs => rw [← List.take_append_drop cursor l, List.filter_append, filter_ne_of_notMem hx]
  have hclamp := rotate_clamp (l.take cursor) ((l.drop cursor).filter (· != x))
  rw [List.length_take_of_le hcursor] at hclamp
  rw [List.rotate_eq_drop_append_take hcursor, List.filter_append, filter_ne_of_notMem hx, hfilter, hclamp]

/-- The removed element was in front of the cursor, which then stands one element too far: the element that
was to be visited next is put at the end. -/
lemma rotate_filter_of_mem {x : α} {l : List α} {cursor : Nat} (hl : l.Nodup) (hcursor : cursor < l.length)
    (hx : x ∈ l.take cursor) :
    (l.filter (· != x)).rotate (clamp cursor (l.filter (· != x)).length) =
      ((l.rotate cursor).filter (· != x)).rotate 1 := by
  have hdrop := List.drop_eq_getElem_cons hcursor
  have hsplit := List.take_append_drop cursor l
  rw [← hsplit] at hl
  have hnotMem : x ∉ l.drop cursor := fun hmem => List.disjoint_of_nodup_append hl hx hmem
  have hfilter : l.filter (· != x) = ((l.take cursor).filter (· != x) ++ [l[cursor]]) ++ l.drop (cursor + 1) := by
    conv_lhs => rw [← hsplit, List.filter_append, filter_ne_of_notMem hnotMem, hdrop]
    simp
  have hlength : ((l.take cursor).filter (· != x) ++ [l[cursor]]).length = cursor := by
    have herase := List.length_erase_of_mem hx
    rw [(List.nodup_append.mp hl).1.erase_eq_filter, List.length_take_of_le (Nat.le_of_lt hcursor)] at herase
    have hpos : 0 < cursor := by
      by_contra hzero
      rw [Nat.le_zero.mp (Nat.le_of_not_lt hzero)] at hx
      simp at hx
    rw [List.length_append, List.length_singleton, herase]
    omega
  have hclamp := rotate_clamp ((l.take cursor).filter (· != x) ++ [l[cursor]]) (l.drop (cursor + 1))
  rw [hlength] at hclamp
  rw [hfilter, hclamp, List.rotate_eq_drop_append_take (Nat.le_of_lt hcursor), List.filter_append,
    filter_ne_of_notMem hnotMem, hdrop, List.cons_append, List.rotate_cons_succ, List.rotate_zero, List.append_assoc]

/-- After a removal nothing that is done comes before `x`, unless the cursor passes over `x` and something that
is done is left. -/
lemma Passed.remove {x y : α} {done l : List α} {cursor : Nat} (h : Passed x done (l.rotate cursor)) (hl : l.Nodup)
    (hcursor : cursor < l.length ∨ cursor = 0) (hne : x ≠ y)
    (hok : y ∈ l.take cursor → l[cursor]? ≠ some x ∨ ∀ z ∈ done, z ∈ l → z = y) :
    Passed x done ((l.filter (· != y)).rotate (clamp cursor (l.filter (· != y)).length)) := by
  have hfilter : Passed x done ((l.rotate cursor).filter (· != y)) := h.filter (bne_iff_ne.mpr hne)
  by_cases hy : y ∈ l.take cursor
  · have hlt : cursor < l.length := by
      rcases hcursor with hlt | hzero
      · exact hlt
      · rw [hzero, List.take_zero] at hy
        cases hy
    rw [rotate_filter_of_mem hl hlt hy]
    rcases hok hy with hhead | hothers
    · apply hfilter.rotate_one
      have hnotMem : y ∉ l.drop cursor := by
        rw [← List.take_append_drop cursor l] at hl
        exact fun hmem => List.disjoint_of_nodup_append hl hy hmem
      rw [List.getElem?_eq_getElem hlt] at hhead
      rw [List.rotate_eq_drop_append_take (Nat.le_of_lt hlt), List.filter_append, filter_ne_of_notMem hnotMem,
        List.drop_eq_getElem_cons hlt, List.cons_append]
      exact hhead
    · apply (passed_nil _).of_mem
      · intro z hz hmem
        rw [List.mem_rotate, List.mem_filter, List.mem_rotate, bne_iff_ne] at hmem
        exact absurd (hothers z hz hmem.1) hmem.2
      · rw [List.mem_rotate]
        exact hfilter.mem
  · rw [rotate_filter_of_notMem (by omega) hy]
    exact hfilter

/-- The element at the cursor comes after every other one when one in front of the cursor has been removed. -/
lemma rotate_remove {x y z : α} {l : List α} {cursor : Nat} (hl : l.Nodup) (hx : l[cursor]? = some x)
    (hy : y ∈ l.take cursor) (hz : z ∈ l) (hzx : z ≠ x) (hzy : z ≠ y) : ∃ front back,
    (l.filter (· != y)).rotate (clamp cursor (l.filter (· != y)).length) = front ++ z :: back ∧ x ∈ back := by
  obtain ⟨hlt, hget⟩ := List.getElem?_eq_some_iff.mp hx
  have hhead : ∃ rest, (l.rotate cursor).filter (· != y) = x :: rest := by
    have hnotMem : y ∉ l.drop cursor := by
      rw [← List.take_append_drop cursor l] at hl
      exact fun hmem => List.disjoint_of_nodup_append hl hy hmem
    rw [List.rotate_eq_drop_append_take (Nat.le_of_lt hlt), List.filter_append, filter_ne_of_notMem hnotMem,
      List.drop_eq_getElem_cons hlt, hget]
    exact ⟨_, rfl⟩
  obtain ⟨rest, hrest⟩ := hhead
  have hmem : z ∈ (l.rotate cursor).filter (· != y) :=
    List.mem_filter.mpr ⟨List.mem_rotate.mpr hz, bne_iff_ne.mpr hzy⟩
  rw [hrest] at hmem
  obtain ⟨front, back, rfl⟩ := List.append_of_mem (List.mem_of_ne_of_mem hzx hmem)
  refine ⟨front, back ++ [x], ?_, by simp⟩
  rw [rotate_filter_of_mem hl hlt hy, hrest]
  simp

end Removal

end RoundRobin
