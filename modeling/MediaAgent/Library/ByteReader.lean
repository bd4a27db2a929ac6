import Mathlib.Algebra.Order.Ring.Int
import Mathlib.Tactic.Common

/-!
# Reading byte strings

A reader consumes a prefix of a byte string. `Reads p bytes v` says that `p` consumes exactly
`bytes` and returns `v`, whatever follows; it composes along sequencing, so a format is read
back field by field. The numbers are big-endian.
-/

namespace ByteReader

/-- Consume a prefix of the input and return a value, or fail. -/
abbrev Reader (α : Type) := StateT (List UInt8) Option α

variable {α β : Type}

/-- The reader consumes exactly `bytes` and returns `v`. -/
def Reads (p : Reader α) (bytes : List UInt8) (v : α) : Prop :=
  ∀ rest, p.run (bytes ++ rest) = some (v, rest)

def byte : Reader UInt8 := fun
  | [] => none
  | b :: bs => some (b, bs)

/-- The next `n` bytes. -/
def bytes (n : Nat) : Reader (List UInt8) := fun bs =>
  if n ≤ bs.length then some (bs.take n, bs.drop n) else none

def require (c : Bool) : Reader Unit := fun bs => if c then some ((), bs) else none

/-- Read the whole of a byte string that has been cut out. -/
def within (window : List UInt8) (p : Reader α) : Reader α := fun bs =>
  match p.run window with
  | some (v, []) => some (v, bs)
  | _ => none

/-- Read `n` items one after the other. -/
def items (p : Reader α) : Nat → Reader (List α)
  | 0 => pure []
  | n + 1 => do
    let v ← p
    let vs ← items p n
    return v :: vs

/-- Read items to the end of the input, at most `fuel` of them. -/
def allFuel (p : Reader α) : Nat → List UInt8 → Option (List α)
  | _, [] => some []
  | 0, _ :: _ => none
  | fuel + 1, b :: bs =>
    match p.run (b :: bs) with
    | none => none
    | some (v, rest) => (allFuel p fuel rest).map (v :: ·)

/-- Read items to the end of the input; an item takes at least one byte. -/
def all (p : Reader α) (bs : List UInt8) : Option (List α) := allFuel p bs.length bs

/-! ## Big-endian numbers -/

/-- `n` modulo `256 ^ w`, in `w` bytes. -/
def toBE : Nat → Nat → List UInt8
  | 0, _ => []
  | w + 1, n => UInt8.ofNat (n / 256 ^ w) :: toBE w n

def ofBE (bs : List UInt8) : Nat := bs.foldl (fun n b => n * 256 + b.toNat) 0

@[simp] lemma length_toBE (w n : Nat) : (toBE w n).length = w := by
  induction w with
  | zero => rfl
  | succ w ih => simp [toBE, ih]

lemma foldl_toBE (w n m : Nat) :
    (toBE w n).foldl (fun n b => n * 256 + b.toNat) m = m * 256 ^ w + n % 256 ^ w := by
  induction w generalizing m with
  | zero => simp [toBE, Nat.mod_one]
  | succ w ih =>
    have hb : (UInt8.ofNat (n / 256 ^ w)).toNat = n / 256 ^ w % 256 := by simp
    have hmod : n % 256 ^ (w + 1) = 256 ^ w * (n / 256 ^ w % 256) + n % 256 ^ w := by
      rw [Nat.pow_succ, Nat.mod_mul, Nat.add_comm]
    rw [toBE, List.foldl_cons, ih, hb, hmod, Nat.pow_succ, Nat.add_mul, Nat.mul_assoc,
      Nat.mul_comm 256, Nat.mul_comm (n / 256 ^ w % 256), Nat.add_assoc]

/-- Reading back `w` big-endian bytes gives the number modulo `256 ^ w`. -/
theorem ofBE_toBE (w n : Nat) : ofBE (toBE w n) = n % 256 ^ w := by
  rw [ofBE, foldl_toBE]
  omega

/-- A number in `w` big-endian bytes. -/
def number (w : Nat) : Reader Nat := ofBE <$> bytes w

/-! ## Rules -/

lemma Reads.pure (v : α) : Reads (pure v) [] v := fun _ => rfl

lemma Reads.bind {p : Reader α} {f : α → Reader β} {bs cs : List UInt8} {v : α} {w : β}
    (hp : Reads p bs v) (hf : Reads (f v) cs w) : Reads (p >>= f) (bs ++ cs) w := by
  intro rest
  rw [StateT.run_bind, List.append_assoc, hp]
  exact hf rest

lemma Reads.map {p : Reader α} {bs : List UInt8} {v : α} (f : α → β) (hp : Reads p bs v) :
    Reads (f <$> p) bs (f v) := by
  intro rest
  rw [StateT.run_map, hp]
  rfl

/-- The last field of a record. -/
lemma Reads.last {p : Reader α} {bs : List UInt8} {v : α} (f : α → β) (hp : Reads p bs v) :
    Reads (p >>= fun v => Pure.pure (f v)) bs (f v) := by
  have h := hp.bind (f := fun v => Pure.pure (f v)) (Reads.pure (f v))
  rwa [List.append_nil] at h

lemma reads_byte (b : UInt8) : Reads byte [b] b := fun _ => rfl

lemma reads_bytes (bs : List UInt8) : Reads (bytes bs.length) bs bs := by
  intro rest
  simp [bytes, StateT.run]

lemma bytes_run_eq_some {n : Nat} {bs v rest : List UInt8} (h : (bytes n).run bs = some (v, rest)) :
    n ≤ bs.length ∧ v = bs.take n ∧ rest = bs.drop n := by
  simp only [bytes, StateT.run, Option.ite_none_right_eq_some, Option.some.injEq, Prod.mk.injEq] at h
  exact ⟨h.1, h.2.1.symm, h.2.2.symm⟩

lemma reads_number (w n : Nat) : Reads (number w) (toBE w n) (n % 256 ^ w) := by
  have h := (reads_bytes (toBE w n)).map ofBE
  rwa [length_toBE, ofBE_toBE] at h

lemma reads_require {c : Bool} (h : c = true) : Reads (require c) [] () := by
  intro rest
  simp [require, StateT.run, h]

/-- A check reads nothing. -/
lemma Reads.require_bind {c : Bool} {f : Unit → Reader β} {bs : List UInt8} {w : β} (h : c = true)
    (hf : Reads (f ()) bs w) : Reads (require c >>= f) bs w :=
  (reads_require h).bind hf

lemma Reads.within {p : Reader α} {window : List UInt8} {v : α} (hp : Reads p window v) :
    Reads (within window p) [] v := by
  intro rest
  have hw := hp []
  rw [List.append_nil] at hw
  simp [ByteReader.within, StateT.run, show p window = some (v, []) from hw]

/-- Items that are each read back are read back one after the other. -/
theorem Reads.items {p : Reader α} {encode : β → List UInt8} {decoded : β → α}
    (xs : List β) (h : ∀ x ∈ xs, Reads p (encode x) (decoded x)) :
    Reads (items p xs.length) (xs.flatMap encode) (xs.map decoded) := by
  induction xs with
  | nil => exact Reads.pure []
  | cons x xs ih =>
    have hrest := ih (fun y hy => h y (List.mem_cons_of_mem _ hy))
    rw [List.flatMap_cons, List.map_cons, List.length_cons]
    exact (h x (List.mem_cons_self ..)).bind (hrest.last _)

lemma allFuel_flatMap (p : Reader α) (encode : β → List UInt8) (decoded : β → α) (xs : List β)
    (h : ∀ x ∈ xs, Reads p (encode x) (decoded x) ∧ encode x ≠ []) {fuel : Nat}
    (hfuel : (xs.flatMap encode).length ≤ fuel) :
    allFuel p fuel (xs.flatMap encode) = some (xs.map decoded) := by
  induction xs generalizing fuel with
  | nil => cases fuel <;> rfl
  | cons x xs ih =>
    obtain ⟨hp, hne⟩ := h x (List.mem_cons_self ..)
    obtain ⟨b, bs, hx⟩ := List.exists_cons_of_ne_nil hne
    have hrun := hp (xs.flatMap encode)
    rw [List.flatMap_cons, List.map_cons]
    rw [List.flatMap_cons, List.length_append, hx, List.length_cons] at hfuel
    rw [hx, List.cons_append] at hrun ⊢
    cases fuel with
    | zero => omega
    | succ fuel =>
      have hrest := ih (fun y hy => h y (List.mem_cons_of_mem _ hy))
        (show (xs.flatMap encode).length ≤ fuel by omega)
      simp only [allFuel, hrun, hrest, Option.map_some]

/-- Items that are each read back are read back to the end of the input. -/
theorem all_flatMap (p : Reader α) (encode : β → List UInt8) (decoded : β → α) (xs : List β)
    (h : ∀ x ∈ xs, Reads p (encode x) (decoded x) ∧ encode x ≠ []) :
    all p (xs.flatMap encode) = some (xs.map decoded) :=
  allFuel_flatMap p encode decoded xs h (Nat.le_refl _)

/-- The first item read is what the reader finds at the start. -/
lemma all_head {p : Reader α} {bs : List UInt8} {v : α} {vs : List α}
    (h : all p bs = some (v :: vs)) : ∃ rest, p.run bs = some (v, rest) := by
  cases bs with
  | nil => cases h
  | cons b bs =>
    simp only [all, List.length_cons, allFuel] at h
    cases hrun : p.run (b :: bs) with
    | none => simp [hrun] at h
    | some r =>
      simp only [hrun, Option.map_eq_some_iff, List.cons.injEq] at h
      obtain ⟨-, -, rfl, -⟩ := h
      exact ⟨_, rfl⟩

lemma Reads.run {p : Reader α} {bs : List UInt8} {v : α} (h : Reads p bs v) :
    p.run bs = some (v, []) := by
  simpa using h []

lemma bind_run_eq_some {p : Reader α} {f : α → Reader β} {bs rest : List UInt8} {w : β} :
    (p >>= f).run bs = some (w, rest) ↔ ∃ v bs', p.run bs = some (v, bs') ∧ (f v).run bs' = some (w, rest) := by
  rw [StateT.run_bind, Option.bind_eq_bind, Option.bind_eq_some_iff]
  simp

lemma bind_run_eq_none {p : Reader α} {f : α → Reader β} {bs : List UInt8} :
    (p >>= f).run bs = none ↔ ∀ v bs', p.run bs = some (v, bs') → (f v).run bs' = none := by
  rw [StateT.run_bind, Option.bind_eq_bind, Option.bind_eq_none_iff]
  simp

/-! ## Numbers read from bytes -/

lemma foldl_ofBE (bs : List UInt8) (m : Nat) :
    bs.foldl (fun n b => n * 256 + b.toNat) m = m * 256 ^ bs.length + ofBE bs := by
  induction bs generalizing m with
  | nil => simp [ofBE]
  | cons b bs ih =>
    have hcons : ofBE (b :: bs) = b.toNat * 256 ^ bs.length + ofBE bs := by
      rw [ofBE, List.foldl_cons, ih]
      simp
    rw [List.foldl_cons, ih, hcons, List.length_cons, Nat.pow_succ, Nat.add_mul, Nat.mul_assoc,
      Nat.mul_comm 256, Nat.add_assoc]

lemma ofBE_cons (b : UInt8) (bs : List UInt8) : ofBE (b :: bs) = b.toNat * 256 ^ bs.length + ofBE bs := by
  rw [ofBE, List.foldl_cons, foldl_ofBE]
  simp

lemma ofBE_lt (bs : List UInt8) : ofBE bs < 256 ^ bs.length := by
  induction bs with
  | nil => simp [ofBE]
  | cons b bs ih =>
    have hb : (b.toNat + 1) * 256 ^ bs.length ≤ 256 * 256 ^ bs.length := Nat.mul_le_mul_right _ b.toNat_lt
    rw [Nat.add_mul, Nat.one_mul] at hb
    rw [ofBE_cons, List.length_cons, Nat.pow_succ, Nat.mul_comm (256 ^ bs.length)]
    omega

/-- Only the bytes above it depend on the digits above a number. -/
lemma toBE_add_mul (w n k : Nat) : toBE w (n + k * 256 ^ w) = toBE w n := by
  induction w generalizing k with
  | zero => rfl
  | succ w ih =>
    have hdigit : (n + k * 256 ^ (w + 1)) / 256 ^ w = n / 256 ^ w + 256 * k := by
      rw [Nat.pow_succ, Nat.mul_comm (256 ^ w), ← Nat.mul_assoc, Nat.mul_comm k,
        Nat.add_mul_div_right _ _ (Nat.pow_pos (by omega))]
    have hlow : n + k * 256 ^ (w + 1) = n + k * 256 * 256 ^ w := by
      rw [Nat.pow_succ, Nat.mul_comm (256 ^ w), Nat.mul_assoc]
    rw [toBE, toBE, hdigit]
    congr 1
    · apply UInt8.toNat_inj.mp
      simp
    · rw [hlow, ih]

lemma toBE_mod (w n : Nat) : toBE w (n % 256 ^ w) = toBE w n := by
  have h := toBE_add_mul w (n % 256 ^ w) (n / 256 ^ w)
  rwa [Nat.mod_add_div', eq_comm] at h

/-- The bytes of a number that was read from bytes are those bytes. -/
theorem toBE_ofBE (bs : List UInt8) : toBE bs.length (ofBE bs) = bs := by
  induction bs with
  | nil => rfl
  | cons b bs ih =>
    have hpos : 0 < 256 ^ bs.length := Nat.pow_pos (by omega)
    have hdigit : ofBE (b :: bs) / 256 ^ bs.length = b.toNat := by
      rw [ofBE_cons, Nat.add_comm, Nat.add_mul_div_right _ _ hpos, Nat.div_eq_of_lt (ofBE_lt bs), Nat.zero_add]
    rw [List.length_cons, toBE, hdigit, ofBE_cons, Nat.add_comm, toBE_add_mul, ih]
    simp

/-! ## Readers of another source -/

section refinement

variable {σ : Type} {view : σ → List UInt8}

/-- `p` reads from a source as `q` reads from the bytes that the source still holds. -/
def Refines (view : σ → List UInt8) (p : StateT σ Option α) (q : Reader α) : Prop :=
  ∀ s, (p.run s).map (fun r => (r.1, view r.2)) = q.run (view s)

lemma Refines.bind {p : StateT σ Option α} {q : Reader α} {f : α → StateT σ Option β} {g : α → Reader β}
    (h : Refines view p q) (hf : ∀ v, Refines view (f v) (g v)) : Refines view (p >>= f) (q >>= g) := by
  intro s
  rw [StateT.run_bind, StateT.run_bind, ← h s]
  cases p.run s with
  | none => rfl
  | some r => exact hf r.1 r.2

lemma Refines.failure : Refines view (failure : StateT σ Option α) failure := fun _ => rfl

/-- The results of at most `n` rounds of `p`, up to the first that fails. -/
def rounds (p : StateT σ Option α) : Nat → σ → List α
  | 0, _ => []
  | n + 1, s =>
    match p.run s with
    | none => []
    | some (v, s) => v :: rounds p n s

end refinement

end ByteReader
