import Mathlib.Data.List.Sort
import Mathlib.Data.List.GetD
import Mathlib.Order.Defs.LinearOrder

/-!
# Sorting the confidences of the candidates

`quick_sort_indice_inverse` of `yolov8_det/postprocess.cc`. The confidences and the candidates they belong to are two
vectors that change together, here one list of pairs. The entry at `left` is kept aside and leaves a hole, which the
two inner loops move until it stands between the larger and the smaller entries.
-/

namespace MediaAgent.Yolov8

variable {K : Type} [LinearOrder K] [Inhabited K]

section
variable (a : List (K × ℕ)) (key : K)

/-- `while (low < high && input[high] <= key) high--` -/
def scanDown (low : ℕ) : ℕ → ℕ
  | 0 => 0
  | high + 1 => if low < high + 1 ∧ a[high + 1]!.1 ≤ key then scanDown low high else high + 1

/-- `while (low < high && input[low] >= key) low++`, by the distance of `high` from `low`. -/
def scanUp : ℕ → ℕ → ℕ
  | 0, low => low
  | gap + 1, low => if key ≤ a[low]!.1 then scanUp gap (low + 1) else low

end

/-- The outer loop, with the vectors it leaves and the place of the hole; `none` if it is not over after `fuel`
turns. -/
def partitionLoop (key : K) : ℕ → List (K × ℕ) → ℕ → ℕ → Option (List (K × ℕ) × ℕ)
  | 0, a, low, high => if low < high then none else some (a, low)
  | fuel + 1, a, low, high =>
    if low < high then
      let high' := scanDown a key low high
      let a' := a.set low a[high']!
      let low' := scanUp a' key (high' - low) low
      partitionLoop key fuel (a'.set high' a'[low']!) low' high'
    else some (a, low)

/-- `none` if a loop or a call inside is not over with the fuel. -/
def quickSortIndiceInverse : ℕ → List (K × ℕ) → ℕ → ℕ → Option (List (K × ℕ))
  | 0, a, left, right => if left < right then none else some a
  | fuel + 1, a, left, right =>
    if left < right then do
      let p ← partitionLoop a[left]!.1 (fuel + 1) a left right
      -- for `low = 0` the source passes `-1` to the first call, which like `0` makes it return at once
      let a' ← quickSortIndiceInverse fuel (p.1.set p.2 a[left]!) left (p.2 - 1)
      quickSortIndiceInverse fuel a' (p.2 + 1) right
    else some a

/-! ## Rearrangements of a part of a list -/

/-- The entries from `left` to `right` are rearranged among themselves. -/
structure Rearranged {α : Type} (left right : ℕ) (a a' : List α) : Prop where
  perm : a'.Perm a
  outside : ∀ k, k < left ∨ right < k → a'[k]? = a[k]?
  inside : ∀ k, left ≤ k → k ≤ right → ∃ j, left ≤ j ∧ j ≤ right ∧ a'[k]? = a[j]?

namespace Rearranged
variable {α : Type} {left right left' right' : ℕ} {a a' a'' : List α}

lemma refl (left right : ℕ) (a : List α) : Rearranged left right a a :=
  ⟨.refl a, fun _ _ => rfl, fun k hl hr => ⟨k, hl, hr, rfl⟩⟩

lemma trans (h : Rearranged left right a a') (h' : Rearranged left right a' a'') : Rearranged left right a a'' := by
  refine ⟨h'.perm.trans h.perm, fun k hk => (h'.outside k hk).trans (h.outside k hk), fun k hl hr => ?_⟩
  obtain ⟨j, hjl, hjr, hj⟩ := h'.inside k hl hr
  obtain ⟨i, hil, hir, hi⟩ := h.inside j hjl hjr
  exact ⟨i, hil, hir, hj.trans hi⟩

lemma length_eq (h : Rearranged left right a a') : a'.length = a.length := h.perm.length_eq

/-- A rearrangement of a smaller part is one of the larger part. -/
lemma mono (h : Rearranged left' right' a a') (hl : left ≤ left') (hr : right' ≤ right) :
    Rearranged left right a a' := by
  refine ⟨h.perm, fun k hk => h.outside k (by omega), fun k hkl hkr => ?_⟩
  by_cases hk : left' ≤ k ∧ k ≤ right'
  · obtain ⟨j, hjl, hjr, hj⟩ := h.inside k hk.1 hk.2
    exact ⟨j, by omega, by omega, hj⟩
  · exact ⟨k, hkl, hkr, h.outside k (by omega)⟩

/-- What holds of all entries of the part holds of them afterwards. -/
lemma forall_inside [Inhabited α] (h : Rearranged left right a a') {P : α → Prop}
    (hP : ∀ k, left ≤ k → k ≤ right → P a[k]!) (k : ℕ) (hl : left ≤ k) (hr : k ≤ right) : P a'[k]! := by
  obtain ⟨j, hjl, hjr, hj⟩ := h.inside k hl hr
  rw [List.getElem!_eq_getElem?_getD, hj, ← List.getElem!_eq_getElem?_getD]
  exact hP j hjl hjr

lemma getElem!_outside [Inhabited α] (h : Rearranged left right a a') {k : ℕ} (hk : k < left ∨ right < k) :
    a'[k]! = a[k]! := by
  rw [List.getElem!_eq_getElem?_getD, h.outside k hk, ← List.getElem!_eq_getElem?_getD]

end Rearranged

/-- Moving an entry into the hole moves the hole. -/
lemma Rearranged.moveHole {α : Type} [Inhabited α] {left right i j : ℕ} {a : List α} (x : α)
    (hi : left ≤ i ∧ i ≤ right) (hj : left ≤ j ∧ j ≤ right) (hlen : right < a.length) :
    Rearranged left right (a.set i x) ((a.set i a[j]!).set j x) := by
  by_cases hij : i = j
  · subst hij
    rw [List.set_set]
    exact .refl _ _ _
  have hia : i < a.length := by omega
  have hja : j < a.length := by omega
  constructor
  · have hia' : i < (a.set i x).length := by simpa using hia
    have hja' : j < (a.set i x).length := by simpa using hja
    have h := List.set_set_perm hia' hja'
    rw [List.getElem_set_ne hij, List.getElem_set_self, List.set_set] at h
    rwa [getElem!_pos a j hja]
  · intro k hk
    rw [List.getElem?_set_ne (by omega), List.getElem?_set_ne (by omega), List.getElem?_set_ne (by omega)]
  · intro k hkl hkr
    by_cases hkj : k = j
    · subst hkj
      refine ⟨i, hi.1, hi.2, ?_⟩
      rw [List.getElem?_set_self (by simpa using hja), List.getElem?_set_self hia]
    by_cases hki : k = i
    · subst hki
      refine ⟨j, hj.1, hj.2, ?_⟩
      rw [List.getElem?_set_ne (Ne.symm hij), List.getElem?_set_self hia, List.getElem?_set_ne hij,
        getElem!_pos a j hja, List.getElem?_eq_getElem hja]
    · refine ⟨k, hkl, hkr, ?_⟩
      rw [List.getElem?_set_ne (Ne.symm hkj), List.getElem?_set_ne (Ne.symm hki), List.getElem?_set_ne (Ne.symm hki)]

/-! ## The partition -/

lemma scanDown_bounds {a : List (K × ℕ)} {key : K} {low : ℕ} (high : ℕ) (hle : low ≤ high) :
    low ≤ scanDown a key low high ∧ scanDown a key low high ≤ high := by
  induction high with
  | zero => simpa [scanDown] using hle
  | succ high ih =>
    rw [scanDown]
    split
    · have h := ih (by omega)
      omega
    · omega

lemma scanDown_passed {a : List (K × ℕ)} {key : K} {low : ℕ} (high k : ℕ) (hk : scanDown a key low high < k)
    (hkh : k ≤ high) : a[k]!.1 ≤ key := by
  induction high with
  | zero => simp only [scanDown] at hk; omega
  | succ high ih =>
    rw [scanDown] at hk
    split at hk
    · rename_i h
      by_cases hlast : k = high + 1
      · rw [hlast]
        exact h.2
      · exact ih hk (by omega)
    · omega

lemma scanDown_stops {a : List (K × ℕ)} {key : K} {low : ℕ} (high : ℕ) (hle : low ≤ high) :
    scanDown a key low high = low ∨ key < a[scanDown a key low high]!.1 := by
  induction high with
  | zero => left; simp only [scanDown]; omega
  | succ high ih =>
    rw [scanDown]
    split
    · exact ih (by omega)
    · rename_i h
      by_cases hlow : low < high + 1
      · exact .inr (not_le.mp fun hkey => h ⟨hlow, hkey⟩)
      · left; omega

lemma scanUp_bounds {a : List (K × ℕ)} {key : K} (gap low : ℕ) :
    low ≤ scanUp a key gap low ∧ scanUp a key gap low ≤ low + gap := by
  induction gap generalizing low with
  | zero => simp [scanUp]
  | succ gap ih =>
    rw [scanUp]
    split
    · have h := ih (low + 1)
      omega
    · omega

lemma scanUp_passed {a : List (K × ℕ)} {key : K} (gap low k : ℕ) (hk : low ≤ k) (hlt : k < scanUp a key gap low) :
    key ≤ a[k]!.1 := by
  induction gap generalizing low with
  | zero => simp only [scanUp] at hlt; omega
  | succ gap ih =>
    rw [scanUp] at hlt
    split at hlt
    · rename_i h
      by_cases hfirst : k = low
      · rw [hfirst]
        exact h
      · exact ih (low + 1) (by omega) hlt
    · omega

/-- An entry that belongs to the left is passed. -/
lemma scanUp_pos {a : List (K × ℕ)} {key : K} {gap low : ℕ} (hgap : 0 < gap) (h : key ≤ a[low]!.1) :
    low < scanUp a key gap low := by
  obtain ⟨gap, rfl⟩ := Nat.exists_eq_add_of_lt hgap
  rw [Nat.zero_add, scanUp, if_pos h]
  exact (scanUp_bounds gap (low + 1)).1

/-- Before each turn of the outer loop. The list `b` is the one before the first turn and `x` the entry kept aside. -/
structure PartitionInv (left right : ℕ) (x : K × ℕ) (b a : List (K × ℕ)) (low high : ℕ) : Prop where
  left_le : left ≤ low
  low_le : low ≤ high
  le_right : high ≤ right
  lt_length : right < a.length
  rearranged : Rearranged left right b (a.set low x)
  larger : ∀ k, left ≤ k → k < low → x.1 ≤ a[k]!.1
  smaller : ∀ k, high < k → k ≤ right → a[k]!.1 ≤ x.1

namespace PartitionInv
variable {left right low high : ℕ} {x : K × ℕ} {a b : List (K × ℕ)}

/-- One turn of the outer loop: the hole moves to `high'` and from there to `low'`. -/
lemma step (h : PartitionInv left right x b a low high) (hlt : low < high) {high' low' : ℕ} {a' : List (K × ℕ)}
    (hhigh' : high' = scanDown a x.1 low high) (ha' : a' = a.set low a[high']!)
    (hlow' : low' = scanUp a' x.1 (high' - low) low) :
    PartitionInv left right x b (a'.set high' a'[low']!) low' high' ∧ high' - low' < high - low := by
  have hdown : low ≤ high' ∧ high' ≤ high := by
    rw [hhigh']
    exact scanDown_bounds high h.low_le
  have hup : low ≤ low' ∧ low' ≤ low + (high' - low) := by
    rw [hlow']
    exact scanUp_bounds (high' - low) low
  have hleft := h.left_le
  have hright := h.le_right
  have hlen : right < a'.length := by
    rw [ha', List.length_set]
    exact h.lt_length
  have hfirst : Rearranged left right (a.set low x) (a'.set high' x) := by
    rw [ha']
    exact .moveHole x (by omega) (by omega) h.lt_length
  have hsecond : Rearranged left right (a'.set high' x) ((a'.set high' a'[low']!).set low' x) :=
    .moveHole x (by omega) (by omega) hlen
  constructor
  · constructor
    · omega
    · omega
    · omega
    · rwa [List.length_set]
    · exact (h.rearranged.trans hfirst).trans hsecond
    · intro k hkl hk
      have hset : (a'.set high' a'[low']!)[k]! = a'[k]! := by
        simp only [List.getElem!_eq_getElem?_getD]
        rw [List.getElem?_set_ne (by omega)]
      rw [hset]
      by_cases hklow : low ≤ k
      · rw [hlow'] at hk
        exact scanUp_passed _ _ k hklow hk
      · rw [ha']
        simp only [List.getElem!_eq_getElem?_getD]
        rw [List.getElem?_set_ne (by omega), ← List.getElem!_eq_getElem?_getD]
        exact h.larger k hkl (by omega)
    · intro k hk hkr
      rw [ha']
      simp only [List.getElem!_eq_getElem?_getD]
      rw [List.getElem?_set_ne (by omega), List.getElem?_set_ne (by omega), ← List.getElem!_eq_getElem?_getD]
      by_cases hkh : k ≤ high
      · rw [hhigh'] at hk
        exact scanDown_passed high k hk hkh
      · exact h.smaller k (by omega) hkr
  · -- unless `high` came down to the hole, the entry moved into the hole is passed by the second loop
    have hstop : high' = low ∨ x.1 < a[high']!.1 := by
      rw [hhigh']
      exact scanDown_stops high h.low_le
    cases hstop with
    | inl heq => omega
    | inr hkey =>
      by_cases heq : high' = low
      · omega
      have hmoved : a'[low]! = a[high']! := by
        rw [ha', List.getElem!_eq_getElem?_getD, List.getElem?_set_self (by have := h.lt_length; omega)]
        rfl
      have hpass : low < low' := by
        rw [hlow']
        apply scanUp_pos (by omega)
        rw [hmoved]
        exact hkey.le
      omega

/-- The outer loop is over after as many turns as there are places between its ends. -/
lemma partitionLoop (h : PartitionInv left right x b a low high) (fuel : ℕ) (hfuel : high - low ≤ fuel) :
    ∃ p, partitionLoop x.1 fuel a low high = some p ∧ PartitionInv left right x b p.1 p.2 p.2 := by
  induction fuel generalizing a low high with
  | zero =>
    have heq : high = low := by have := h.low_le; omega
    subst heq
    exact ⟨(a, high), by rw [Yolov8.partitionLoop, if_neg (lt_irrefl _)], h⟩
  | succ fuel ih =>
    rw [Yolov8.partitionLoop]
    by_cases hlt : low < high
    · have hstep := h.step hlt rfl rfl rfl
      rw [if_pos hlt]
      exact ih hstep.1 (by omega)
    · have heq : high = low := by have := h.low_le; omega
      subst heq
      exact ⟨(a, high), if_neg (lt_irrefl _), h⟩

end PartitionInv

/-! ## The sorted vectors -/

/-- The confidences from `left` to `right` do not rise. -/
def Falling (left right : ℕ) (a : List (K × ℕ)) : Prop :=
  ∀ j k, left ≤ j → j ≤ k → k ≤ right → a[k]!.1 ≤ a[j]!.1

/-- Two sorted parts with an entry between them that is not above the first and not below the second. -/
lemma Falling.join {left right mid : ℕ} {a : List (K × ℕ)} (hbefore : left < mid → Falling left (mid - 1) a)
    (hafter : Falling (mid + 1) right a) (hlarger : ∀ k, left ≤ k → k < mid → a[mid]!.1 ≤ a[k]!.1)
    (hsmaller : ∀ k, mid < k → k ≤ right → a[k]!.1 ≤ a[mid]!.1) : Falling left right a := by
  intro j k hj hjk hk
  obtain hlt | heq | hgt := lt_trichotomy k mid
  · exact hbefore (by omega) j k hj hjk (by omega)
  · rw [heq]
    by_cases hjm : j = mid
    · rw [hjm]
    · exact hlarger j hj (by omega)
  · obtain hjlt | hjeq | hjgt := lt_trichotomy j mid
    · exact (hsmaller k hgt hk).trans (hlarger j hj hjlt)
    · rw [hjeq]
      exact hsmaller k hgt hk
    · exact hafter j k hjgt hjk hk

lemma Falling.congr {left right : ℕ} {a a' : List (K × ℕ)} (h : Falling left right a)
    (heq : ∀ k, left ≤ k → k ≤ right → a'[k]! = a[k]!) : Falling left right a' := by
  intro j k hj hjk hk
  rw [heq j hj (by omega), heq k (by omega) hk]
  exact h j k hj hjk hk

lemma quickSortIndiceInverse_of_le {fuel left right : ℕ} {a : List (K × ℕ)} (h : right ≤ left) :
    quickSortIndiceInverse fuel a left right = some a := by
  cases fuel with
  | zero => rw [quickSortIndiceInverse, if_neg (by omega)]
  | succ fuel => rw [quickSortIndiceInverse, if_neg (by omega)]

/-- What the outer loop leaves when the entry kept aside is put back. -/
lemma partitionLoop_spec {a : List (K × ℕ)} {left right fuel : ℕ} (hlt : left < right) (hlen : right < a.length)
    (hfuel : right - left ≤ fuel) :
    ∃ p, partitionLoop a[left]!.1 fuel a left right = some p ∧
      Rearranged left right a (p.1.set p.2 a[left]!) ∧ left ≤ p.2 ∧ p.2 ≤ right ∧
      (∀ k, left ≤ k → k < p.2 → (p.1.set p.2 a[left]!)[p.2]!.1 ≤ (p.1.set p.2 a[left]!)[k]!.1) ∧
      ∀ k, p.2 < k → k ≤ right → (p.1.set p.2 a[left]!)[k]!.1 ≤ (p.1.set p.2 a[left]!)[p.2]!.1 := by
  have hself : a.set left a[left]! = a := by
    rw [getElem!_pos a left (by omega), List.set_getElem_self]
  have hinit : PartitionInv left right a[left]! a a left right := by
    refine ⟨le_rfl, hlt.le, le_rfl, hlen, ?_, by omega, by omega⟩
    rw [hself]
    exact .refl _ _ _
  obtain ⟨p, hloop, h⟩ := hinit.partitionLoop fuel hfuel
  have hp : p.2 < p.1.length := by
    have := h.lt_length
    have := h.le_right
    omega
  have hmid : (p.1.set p.2 a[left]!)[p.2]! = a[left]! := by
    rw [List.getElem!_eq_getElem?_getD, List.getElem?_set_self hp]
    rfl
  have hother : ∀ k, k ≠ p.2 → (p.1.set p.2 a[left]!)[k]! = p.1[k]! := by
    intro k hk
    simp only [List.getElem!_eq_getElem?_getD]
    rw [List.getElem?_set_ne hk.symm]
  refine ⟨p, hloop, h.rearranged, h.left_le, h.le_right, fun k hkl hk => ?_, fun k hk hkr => ?_⟩
  · rw [hmid, hother k (by omega)]
    exact h.larger k hkl hk
  · rw [hmid, hother k (by omega)]
    exact h.smaller k hk hkr

/-- The calls come to an end, and leave the entries from `left` to `right` sorted. -/
theorem quickSortIndiceInverse_spec (fuel : ℕ) (a : List (K × ℕ)) (left right : ℕ) (hlen : right < a.length)
    (hfuel : right - left ≤ fuel) :
    ∃ a', quickSortIndiceInverse fuel a left right = some a' ∧ Rearranged left right a a' ∧
      Falling left right a' := by
  induction fuel generalizing a left right with
  | zero =>
    refine ⟨a, quickSortIndiceInverse_of_le (by omega), .refl _ _ _, fun j k hj hjk hk => ?_⟩
    rw [show j = k from by omega]
  | succ fuel ih =>
    by_cases hlt : left < right
    · obtain ⟨⟨a₀', mid⟩, hloop, hpart, hleft, hright, hlarger, hsmaller⟩ := partitionLoop_spec hlt hlen hfuel
      dsimp only at hpart hleft hright hlarger hsmaller
      set a₀ := a₀'.set mid a[left]!
      have hlen₀ : right < a₀.length := by rwa [hpart.length_eq]
      obtain ⟨a₁, hfirst, hrearranged₁, hfalling₁⟩ := ih a₀ left (mid - 1) (by omega) (by omega)
      have hlen₁ : right < a₁.length := by rwa [hrearranged₁.length_eq]
      obtain ⟨a₂, hsecond, hrearranged₂, hfalling₂⟩ := ih a₁ (mid + 1) right hlen₁ (by omega)
      -- the first call leaves the entries from `mid` on, the second those up to `mid`
      have hfrom : ∀ k, mid ≤ k → a₁[k]! = a₀[k]! := by
        intro k hk
        by_cases hzero : mid = 0
        · rw [quickSortIndiceInverse_of_le (by omega)] at hfirst
          rw [Option.some.inj hfirst]
        · exact hrearranged₁.getElem!_outside (by omega)
      have hupTo : ∀ k, k ≤ mid → a₂[k]! = a₁[k]! := fun k hk => hrearranged₂.getElem!_outside (by omega)
      have hlarger₁ : ∀ k, left ≤ k → k < mid → a₀[mid]!.1 ≤ a₁[k]!.1 := by
        intro k hkl hk
        exact hrearranged₁.forall_inside (P := fun y => a₀[mid]!.1 ≤ y.1)
          (fun k hkl hk => hlarger k hkl (by omega)) k hkl (by omega)
      have hsmaller₂ : ∀ k, mid < k → k ≤ right → a₂[k]!.1 ≤ a₀[mid]!.1 := by
        apply hrearranged₂.forall_inside (P := fun y => y.1 ≤ a₀[mid]!.1)
        intro k hk hkr
        rw [hfrom k (by omega)]
        exact hsmaller k hk hkr
      refine ⟨a₂, ?_, ?_, ?_⟩
      · rw [quickSortIndiceInverse, if_pos hlt, hloop, Option.bind_eq_bind, Option.bind_some, hfirst,
          Option.bind_eq_bind, Option.bind_some]
        exact hsecond
      · exact (hpart.trans (hrearranged₁.mono le_rfl (by omega))).trans (hrearranged₂.mono (by omega) le_rfl)
      · apply Falling.join ?_ hfalling₂
        · intro k hkl hk
          rw [hupTo mid le_rfl, hupTo k hk.le, hfrom mid le_rfl]
          exact hlarger₁ k hkl hk
        · intro k hk hkr
          rw [hupTo mid le_rfl, hfrom mid le_rfl]
          exact hsmaller₂ k hk hkr
        · intro hlm
          exact hfalling₁.congr fun k _ hk => hupTo k (by omega)
    · refine ⟨a, quickSortIndiceInverse_of_le (by omega), .refl _ _ _, fun j k hj hjk hk => ?_⟩
      rw [show j = k from by omega]

lemma partitionLoop_mono {key : K} {fuel : ℕ} {a : List (K × ℕ)} {low high : ℕ} {p : List (K × ℕ) × ℕ}
    (h : partitionLoop key fuel a low high = some p) : partitionLoop key (fuel + 1) a low high = some p := by
  induction fuel generalizing a low high with
  | zero =>
    rw [partitionLoop] at h
    split at h
    · cases h
    · rename_i hlt
      rwa [partitionLoop, if_neg hlt]
  | succ fuel ih =>
    rw [partitionLoop] at h
    split at h
    · rename_i hlt
      rw [partitionLoop, if_pos hlt]
      exact ih h
    · rename_i hlt
      rwa [partitionLoop, if_neg hlt]

/-- More fuel gives the same result. -/
lemma quickSortIndiceInverse_mono {fuel more left right : ℕ} {a a' : List (K × ℕ)}
    (h : quickSortIndiceInverse fuel a left right = some a') (hle : fuel ≤ more) :
    quickSortIndiceInverse more a left right = some a' := by
  have hstep : ∀ {fuel left right : ℕ} {a a' : List (K × ℕ)}, quickSortIndiceInverse fuel a left right = some a' →
      quickSortIndiceInverse (fuel + 1) a left right = some a' := by
    intro fuel
    induction fuel with
    | zero =>
      intro left right a a' h
      rw [quickSortIndiceInverse] at h
      split at h
      · cases h
      · rw [quickSortIndiceInverse_of_le (by omega), h]
    | succ fuel ih =>
      intro left right a a' h
      rw [quickSortIndiceInverse] at h ⊢
      split at h
      · rename_i hlt
        obtain ⟨p, hloop, h⟩ := Option.bind_eq_some_iff.mp h
        obtain ⟨a₁, hfirst, hsecond⟩ := Option.bind_eq_some_iff.mp h
        rw [if_pos hlt, partitionLoop_mono hloop, Option.bind_eq_bind, Option.bind_some, ih hfirst,
          Option.bind_eq_bind, Option.bind_some]
        exact ih hsecond
      · rename_i hlt
        rwa [if_neg hlt]
  induction hle with
  | refl => exact h
  | step _ ih => exact hstep ih

/-- `objProbs` and `indexArray` as the call in `post_process` leaves them. -/
def sortedIndices (objProbs : List K) : List (K × ℕ) :=
  (quickSortIndiceInverse objProbs.length objProbs.zipIdx 0 (objProbs.length - 1)).getD []

/-- The call in `post_process` comes to an end, and sorts the two vectors. -/
lemma sortedIndices_spec (objProbs : List K) :
    quickSortIndiceInverse objProbs.length objProbs.zipIdx 0 (objProbs.length - 1) = some (sortedIndices objProbs) ∧
      (sortedIndices objProbs).Perm objProbs.zipIdx ∧ Falling 0 (objProbs.length - 1) (sortedIndices objProbs) := by
  by_cases h : objProbs = []
  · subst h
    exact ⟨rfl, .refl _, fun j k _ hjk hk => by rw [show j = k from by simp at hk; omega]⟩
  · have hpos := List.length_pos_iff.mpr h
    obtain ⟨a, ha, hrearranged, hfalling⟩ := quickSortIndiceInverse_spec objProbs.length objProbs.zipIdx 0
      (objProbs.length - 1) (by rw [List.length_zipIdx]; omega) (by omega)
    rw [sortedIndices, ha]
    exact ⟨rfl, hrearranged.perm, hfalling⟩

lemma sortedIndices_perm (objProbs : List K) : (sortedIndices objProbs).Perm objProbs.zipIdx :=
  (sortedIndices_spec objProbs).2.1

lemma sortedIndices_falling (objProbs : List K) : (sortedIndices objProbs).Pairwise fun p q => q.1 ≤ p.1 := by
  have hlen : (sortedIndices objProbs).length = objProbs.length := by
    rw [(sortedIndices_perm objProbs).length_eq, List.length_zipIdx]
  apply List.pairwise_iff_getElem.mpr
  intro i j hi hj hij
  have hle := (sortedIndices_spec objProbs).2.2 i j (Nat.zero_le i) hij.le (by omega)
  rwa [getElem!_pos _ i hi, getElem!_pos _ j hj] at hle

lemma sortedIndices_map_snd (objProbs : List K) :
    ((sortedIndices objProbs).map Prod.snd).Perm (List.range objProbs.length) := by
  have h := (sortedIndices_perm objProbs).map Prod.snd
  rwa [List.zipIdx_map_snd, ← List.range_eq_range'] at h

lemma getElem?_of_mem_sortedIndices {objProbs : List K} {p : K × ℕ} (hp : p ∈ sortedIndices objProbs) :
    objProbs[p.2]? = some p.1 :=
  List.mem_zipIdx_iff_getElem?.mp ((sortedIndices_perm objProbs).subset hp)

/-- With fuel for all candidates, and any more, the call comes to an end with these vectors. They still belong together,
and the confidences fall. -/
theorem sortedIndices_sorted (objProbs : List K) :
    (∀ fuel, objProbs.length ≤ fuel → quickSortIndiceInverse fuel objProbs.zipIdx 0 (objProbs.length - 1) =
        some (sortedIndices objProbs)) ∧
      ((sortedIndices objProbs).map Prod.fst).Pairwise (fun p q => q ≤ p) ∧
      ((sortedIndices objProbs).map Prod.snd).Perm (List.range objProbs.length) ∧
      ∀ p ∈ sortedIndices objProbs, objProbs[p.2]? = some p.1 := by
  refine ⟨fun fuel hfuel => ?_, ?_, sortedIndices_map_snd objProbs, fun p hp => getElem?_of_mem_sortedIndices hp⟩
  · exact quickSortIndiceInverse_mono (sortedIndices_spec objProbs).1 hfuel
  · rw [List.pairwise_map]
    exact sortedIndices_falling objProbs

/-- Three confidences, sorted with fuel to spare. -/
theorem sortedIndices_sorted_three :
    quickSortIndiceInverse 4 [2, 9, (8 : ℕ)].zipIdx 0 2 = some [(9, 1), (8, 2), (2, 0)] := by
  have h := (sortedIndices_sorted [2, 9, (8 : ℕ)]).1 4 (by decide)
  have hvalue : sortedIndices [2, 9, (8 : ℕ)] = [(9, 1), (8, 2), (2, 0)] := by decide
  rwa [hvalue] at h

end MediaAgent.Yolov8
