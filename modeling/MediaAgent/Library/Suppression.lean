import Mathlib.Data.List.Pairwise
import Mathlib.Data.List.Nodup
import Mathlib.Data.List.Basic
import Mathlib.Data.List.Induction
import Mathlib.Data.List.ReduceOption
import Mathlib.Data.Option.Basic
import Mathlib.Tactic.TypeStar
import Mathlib.Tactic.Tauto

/-!
# Suppression in a list

The entries of a list are taken in order, and each that is still there strikes out later ones. What is left is
determined by one equation: an entry is struck out exactly if an earlier entry that is left suppresses it. Where the
relation only holds inside of groups, the groups may be treated one after the other.
-/

namespace Suppression

variable {α : Type*}

/-- The entry `j` of the list is still there, and is `y`. -/
def Left (marks : List (Option α)) (j : ℕ) (y : α) : Prop := marks[j]? = some (some y)

/-- The entries at the indices `js` are struck out where `p` holds. -/
def strike (p : α → Bool) (js : List ℕ) (marks : List (Option α)) : List (Option α) :=
  js.foldl (fun marks j => marks.modify j fun o => o.filter fun y => !p y) marks

/-- One turn: the entry `i`, if it is still there, strikes out later ones. -/
def turn (R : α → α → Bool) (marks : List (Option α)) (i : ℕ) : List (Option α) :=
  match marks[i]? with
  | some (some x) => strike (R x) (List.range' (i + 1) (marks.length - (i + 1))) marks
  | _ => marks

def sweep (R : α → α → Bool) (marks : List (Option α)) : List (Option α) :=
  (List.range marks.length).foldl (turn R) marks

/-! ## One turn -/

lemma left_unique {marks : List (Option α)} {j : ℕ} {x y : α} (hx : Left marks j x) (hy : Left marks j y) : x = y :=
  Option.some.inj (Option.some.inj (hx.symm.trans hy))

lemma lt_length_of_left {marks : List (Option α)} {j : ℕ} {x : α} (h : Left marks j x) : j < marks.length :=
  (List.getElem?_eq_some_iff.mp h).1

@[simp] lemma length_strike (p : α → Bool) (js : List ℕ) (marks : List (Option α)) :
    (strike p js marks).length = marks.length := by
  induction js generalizing marks with
  | nil => rfl
  | cons j js ih =>
    rw [strike, List.foldl_cons, ← strike, ih, List.length_modify]

lemma left_modify {p : α → Bool} {marks : List (Option α)} {i j : ℕ} {y : α} :
    Left (marks.modify i fun o => o.filter fun y => !p y) j y ↔ Left marks j y ∧ (j = i → ¬p y) := by
  unfold Left
  rw [List.getElem?_modify]
  by_cases h : i = j
  · subst h
    cases marks[i]? with
    | none => simp
    | some o => cases o <;> simp [Option.filter_eq_some_iff]
  · simp [h, Ne.symm h]

lemma left_strike {p : α → Bool} {js : List ℕ} {marks : List (Option α)} {j : ℕ} {y : α} :
    Left (strike p js marks) j y ↔ Left marks j y ∧ (j ∈ js → ¬p y) := by
  induction js generalizing marks with
  | nil => simp [strike]
  | cons i js ih =>
    rw [strike, List.foldl_cons, ← strike, ih, left_modify, List.mem_cons]
    tauto

lemma strike_of_false {p : α → Bool} (hp : ∀ y, p y = false) (js : List ℕ) (marks : List (Option α)) :
    strike p js marks = marks := by
  induction js with
  | nil => rfl
  | cons j js ih =>
    have hid : (fun o : Option α => o.filter fun y => !p y) = id := by
      funext o
      cases o <;> simp [Option.filter, hp]
    have hsame : (marks.modify j fun o => o.filter fun y => !p y) = marks := by rw [hid, List.modify_id]
    rw [strike, List.foldl_cons, hsame]
    exact ih

@[simp] lemma length_turn (R : α → α → Bool) (marks : List (Option α)) (i : ℕ) :
    (turn R marks i).length = marks.length := by
  unfold turn
  split
  · exact length_strike _ _ _
  · rfl

lemma left_turn {R : α → α → Bool} {marks : List (Option α)} {i j : ℕ} {y : α} :
    Left (turn R marks i) j y ↔ Left marks j y ∧ (i < j → ∀ x, Left marks i x → ¬R x y) := by
  unfold turn
  split
  · rename_i x hx
    rw [left_strike, List.mem_range'_1]
    constructor
    · rintro ⟨hy, hstruck⟩
      refine ⟨hy, fun hij x' hx' => ?_⟩
      rw [← left_unique hx hx']
      have := lt_length_of_left hy
      exact hstruck ⟨by omega, by omega⟩
    · rintro ⟨hy, hstruck⟩
      exact ⟨hy, fun hj => hstruck (by omega) x hx⟩
  · rename_i hnone
    constructor
    · intro hy
      exact ⟨hy, fun _ x hx => absurd hx (hnone x)⟩
    · exact And.left

/-! ## A whole pass -/

/-- After a pass with the relation `R` over the list `init`. -/
def Swept (R : α → α → Bool) (init marks : List (Option α)) : Prop :=
  ∀ j y, Left marks j y ↔ Left init j y ∧ ∀ i < j, ∀ x, Left marks i x → ¬R x y

/-- After the turns of the first `k` entries. The entries up to `k` stay as they are from then on. -/
lemma left_turns (R : α → α → Bool) (init : List (Option α)) (k : ℕ) :
    ((List.range k).foldl (turn R) init).length = init.length ∧
      ∀ j y, Left ((List.range k).foldl (turn R) init) j y ↔
        Left init j y ∧ ∀ i < j, i < k → ∀ x, Left ((List.range k).foldl (turn R) init) i x → ¬R x y := by
  induction k with
  | zero => simp
  | succ k ih =>
    rw [List.range_succ, List.foldl_append, List.foldl_cons, List.foldl_nil]
    set marks := (List.range k).foldl (turn R) init
    obtain ⟨hlen, hleft⟩ := ih
    refine ⟨by rw [length_turn, hlen], fun j y => ?_⟩
    have hsame : ∀ i ≤ k, ∀ x, Left (turn R marks k) i x ↔ Left marks i x := by
      intro i hi x
      rw [left_turn]
      exact ⟨And.left, fun h => ⟨h, fun hki => absurd hki (by omega)⟩⟩
    rw [left_turn, hleft]
    constructor
    · rintro ⟨⟨hinit, hbefore⟩, hlast⟩
      refine ⟨hinit, fun i hij hik x hx => ?_⟩
      rw [hsame i (by omega)] at hx
      by_cases hlt : i < k
      · exact hbefore i hij hlt x hx
      · obtain rfl : i = k := by omega
        exact hlast hij x hx
    · rintro ⟨hinit, hall⟩
      refine ⟨⟨hinit, fun i hij hik x hx => ?_⟩, fun hkj x hx => ?_⟩
      · exact hall i hij (by omega) x ((hsame i (by omega) x).mpr hx)
      · exact hall k hkj (Nat.lt_succ_self k) x ((hsame k (Nat.le_refl k) x).mpr hx)

lemma length_sweep (R : α → α → Bool) (marks : List (Option α)) : (sweep R marks).length = marks.length :=
  (left_turns R marks marks.length).1

lemma swept_sweep (R : α → α → Bool) (marks : List (Option α)) : Swept R marks (sweep R marks) := by
  intro j y
  have h := (left_turns R marks marks.length).2 j y
  refine h.trans ⟨fun ⟨hy, hall⟩ => ⟨hy, fun i hij x hx => ?_⟩, fun ⟨hy, hall⟩ => ⟨hy, fun i hij _ x hx => ?_⟩⟩
  · exact hall i hij (by have := lt_length_of_left hy; omega) x hx
  · exact hall i hij x hx

/-! ## Group by group -/

section
variable {γ : Type*} [DecidableEq γ] (f : α → γ) (R : α → α → Bool)

/-- The relation inside of the group `c`. -/
def within (c : γ) (x y : α) : Bool := decide (f x = c) && decide (f y = c) && R x y

/-- The relation inside of any group. -/
def alike (x y : α) : Bool := decide (f x = f y) && R x y

variable {f R}

lemma within_iff {c : γ} {x y : α} : within f R c x y ↔ f x = c ∧ f y = c ∧ R x y := by
  simp [within, and_assoc]

lemma alike_iff {x y : α} : alike f R x y ↔ f x = f y ∧ R x y := by
  simp [alike]

/-- A pass over the group `c` leaves the other groups as they are. -/
lemma left_of_ne {init marks : List (Option α)} {c : γ} (h : Swept (within f R c) init marks) {j : ℕ} {y : α}
    (hy : f y ≠ c) : Left marks j y ↔ Left init j y := by
  rw [h]
  refine ⟨And.left, fun hinit => ⟨hinit, fun _ _ _ _ hR => ?_⟩⟩
  exact hy (within_iff.mp hR).2.1

variable (f R) in
/-- The groups of `cs` have had their pass. -/
def GroupsSwept (cs : List γ) (init marks : List (Option α)) : Prop :=
  ∀ j y, Left marks j y ↔ Left init j y ∧ (f y ∈ cs → ∀ i < j, ∀ x, Left marks i x → ¬alike f R x y)

lemma GroupsSwept.snoc {cs : List γ} {c : γ} {init marks marks' : List (Option α)} (h : GroupsSwept f R cs init marks)
    (hc : c ∉ cs) (hpass : Swept (within f R c) marks marks') : GroupsSwept f R (cs ++ [c]) init marks' := by
  intro j y
  by_cases hy : f y = c
  · -- the entries of this group are all there before its pass
    have hbefore : Left marks j y ↔ Left init j y := by
      rw [h]
      exact ⟨And.left, fun hinit => ⟨hinit, fun hmem => absurd (hy ▸ hmem) hc⟩⟩
    rw [hpass, hbefore]
    constructor
    · rintro ⟨hinit, hall⟩
      refine ⟨hinit, fun _ i hij x hx hR => hall i hij x hx ?_⟩
      have hxy := alike_iff.mp hR
      exact within_iff.mpr ⟨hxy.1.trans hy, hy, hxy.2⟩
    · rintro ⟨hinit, hall⟩
      refine ⟨hinit, fun i hij x hx hR => hall (by simp [hy]) i hij x hx ?_⟩
      have hxy := within_iff.mp hR
      exact alike_iff.mpr ⟨hxy.1.trans hxy.2.1.symm, hxy.2.2⟩
  · rw [left_of_ne hpass hy, h]
    have hmem : f y ∈ cs ++ [c] ↔ f y ∈ cs := by simp [hy]
    rw [hmem]
    -- what suppresses `y` is of its group, so it is untouched as well
    have hsame : ∀ i x, alike f R x y → (Left marks' i x ↔ Left marks i x) := by
      intro i x hR
      exact left_of_ne hpass (by rwa [(alike_iff.mp hR).1])
    constructor
    · rintro ⟨hinit, hall⟩
      exact ⟨hinit, fun hy' i hij x hx hR => hall hy' i hij x ((hsame i x hR).mp hx) hR⟩
    · rintro ⟨hinit, hall⟩
      exact ⟨hinit, fun hy' i hij x hx hR => hall hy' i hij x ((hsame i x hR).mpr hx) hR⟩

lemma groupsSwept_foldl {cs : List γ} (hcs : cs.Nodup) (init : List (Option α)) :
    (cs.foldl (fun marks c => sweep (within f R c) marks) init).length = init.length ∧
      GroupsSwept f R cs init (cs.foldl (fun marks c => sweep (within f R c) marks) init) := by
  induction cs using List.reverseRecOn with
  | nil => simp [GroupsSwept]
  | append_singleton cs c ih =>
    obtain ⟨hnodup, hc⟩ : cs.Nodup ∧ c ∉ cs := by
      have h := List.nodup_append.mp hcs
      exact ⟨h.1, fun hmem => h.2.2 c hmem c (List.mem_singleton_self c) rfl⟩
    rw [List.foldl_append, List.foldl_cons, List.foldl_nil]
    exact ⟨by rw [length_sweep, (ih hnodup).1], (ih hnodup).2.snoc hc (swept_sweep _ _)⟩

/-- After the passes of all groups nothing shows that there were several. -/
theorem swept_foldl {cs : List γ} (hcs : cs.Nodup) {init : List (Option α)}
    (hall : ∀ j y, Left init j y → f y ∈ cs) :
    Swept (alike f R) init (cs.foldl (fun marks c => sweep (within f R c) marks) init) := by
  intro j y
  have h := (groupsSwept_foldl (f := f) (R := R) hcs init).2 j y
  refine h.trans ⟨fun ⟨hy, hno⟩ => ⟨hy, hno (hall j y hy)⟩, fun ⟨hy, hno⟩ => ⟨hy, fun _ => hno⟩⟩

end

/-! ## What is left -/

section
variable {R : α → α → Bool} {l : List α} {marks : List (Option α)}

lemma mem_reduceOption_iff {y : α} : y ∈ marks.reduceOption ↔ ∃ j, Left marks j y := by
  rw [List.reduceOption_mem_iff, List.mem_iff_getElem?]
  rfl

lemma reduceOption_sublist (hlen : marks.length = l.length) (h : ∀ j y, Left marks j y → l[j]? = some y) :
    marks.reduceOption.Sublist l := by
  induction l generalizing marks with
  | nil => rw [List.length_eq_zero_iff.mp hlen]; exact .refl _
  | cons z l ih =>
    cases marks with
    | nil => simp at hlen
    | cons o marks =>
      have htail := ih (Nat.succ.inj hlen) fun j y hy => h (j + 1) y hy
      cases o with
      | none => exact htail.cons z
      | some y =>
        have hy : z = y := Option.some.inj (h 0 y rfl)
        rw [hy]
        exact htail.cons_cons y

lemma Swept.pairwise (h : Swept R (l.map some) marks) : marks.reduceOption.Pairwise fun x y => ¬R x y := by
  unfold List.reduceOption
  rw [List.pairwise_filterMap, List.pairwise_iff_getElem]
  intro i j hi hj hij x hx y hy hR
  have hleft : Left marks i x := by rw [Left, List.getElem?_eq_getElem hi]; exact congrArg some hx
  have hright : Left marks j y := by rw [Left, List.getElem?_eq_getElem hj]; exact congrArg some hy
  exact ((h j y).mp hright).2 i hij x hleft hR

/-- Whatever is struck out was suppressed by an entry before it that is left. -/
lemma Swept.covers (h : Swept R (l.map some) marks) {S : α → α → Prop} (hl : l.Pairwise S) {y : α} (hy : y ∈ l) :
    y ∈ marks.reduceOption ∨ ∃ x ∈ marks.reduceOption, R x y ∧ S x y := by
  obtain ⟨j, hj, rfl⟩ := List.mem_iff_getElem.mp hy
  by_cases hleft : ∃ i < j, ∃ x, Left marks i x ∧ R x l[j]
  · obtain ⟨i, hij, x, hx, hR⟩ := hleft
    refine .inr ⟨x, mem_reduceOption_iff.mpr ⟨i, hx⟩, hR, ?_⟩
    have hxl := ((h i x).mp hx).1
    rw [Left, List.getElem?_map, List.getElem?_eq_getElem (by omega)] at hxl
    obtain rfl : l[i] = x := by simpa using hxl
    exact List.pairwise_iff_getElem.mp hl i j _ hj hij
  · refine .inl (mem_reduceOption_iff.mpr ⟨j, (h j l[j]).mpr ⟨?_, fun i hij x hx hR => hleft ⟨i, hij, x, hx, hR⟩⟩⟩)
    rw [Left, List.getElem?_map, List.getElem?_eq_getElem hj]
    rfl

end

end Suppression
