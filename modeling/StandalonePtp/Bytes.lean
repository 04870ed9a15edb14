import Mathlib.Algebra.Group.Nat.Defs

/-! Reading bytes of a memory that nothing bounds. Every read carries the offsets it
touched, so that a footprint can be compared with a length the reader never sees. -/
namespace StandalonePtp

abbrev Memory := Nat → UInt8

/-- A value together with the offsets read to obtain it, in order. -/
structure Access (α : Type) where
  value : α
  offsets : List Nat

namespace Access

variable {α β : Type}

instance : Monad Access where
  pure a := ⟨a, []⟩
  bind x f := ⟨(f x.value).value, x.offsets ++ (f x.value).offsets⟩

@[simp] theorem value_pure (a : α) : (pure a : Access α).value = a := rfl

@[simp] theorem offsets_pure (a : α) : (pure a : Access α).offsets = [] := rfl

@[simp] theorem value_bind (x : Access α) (f : α → Access β) :
    (x >>= f).value = (f x.value).value := rfl

@[simp] theorem offsets_bind (x : Access α) (f : α → Access β) :
    (x >>= f).offsets = x.offsets ++ (f x.value).offsets := rfl

def load (m : Memory) (i : Nat) : Access UInt8 := ⟨m i, [i]⟩

@[simp] theorem value_load (m : Memory) (i : Nat) : (load m i).value = m i := rfl

@[simp] theorem offsets_load (m : Memory) (i : Nat) : (load m i).offsets = [i] := rfl

def loads (m : Memory) (i : Nat) : Nat → Access (List UInt8)
  | 0 => pure []
  | n + 1 => do
    let b ← load m i
    let bs ← loads m (i + 1) n
    pure (b :: bs)

@[simp] theorem value_loads (m : Memory) (i n : Nat) :
    (loads m i n).value = (List.range' i n).map m := by
  induction n generalizing i with
  | zero => rfl
  | succ n ih => simp [loads, ih, List.range'_succ]

@[simp] theorem offsets_loads (m : Memory) (i n : Nat) :
    (loads m i n).offsets = List.range' i n := by
  induction n generalizing i with
  | zero => rfl
  | succ n ih => simp [loads, ih, List.range'_succ]

def behind (base : Nat) (x : Access α) : Access α := ⟨x.value, x.offsets.map (base + ·)⟩

def Within (n : Nat) (x : Access α) : Prop := ∀ i ∈ x.offsets, i < n

instance (n : Nat) (x : Access α) : Decidable (Within n x) :=
  inferInstanceAs (Decidable (∀ i ∈ x.offsets, i < n))

theorem within_behind (base n : Nat) (x : Access α) :
    Within (base + n) (behind base x) ↔ Within n x := by
  simp [Within, behind]

end Access

/-- The bytes lie in the memory from an offset on. -/
def Holds (m : Memory) (p : Nat) (bs : List UInt8) : Prop := (List.range' p bs.length).map m = bs

instance (m : Memory) (p : Nat) (bs : List UInt8) : Decidable (Holds m p bs) :=
  inferInstanceAs (Decidable (_ = _))

theorem holds_append (m : Memory) (p : Nat) (xs ys : List UInt8) :
    Holds m p (xs ++ ys) ↔ Holds m p xs ∧ Holds m (p + xs.length) ys := by
  have split : (List.range' p (xs ++ ys).length).map m =
      (List.range' p xs.length).map m ++ (List.range' (p + xs.length) ys.length).map m := by
    rw [List.length_append, ← List.map_append, List.range'_append_1]
  rw [Holds, split]
  exact ⟨fun whole => List.append_inj whole (by simp), fun parts => by rw [parts.1, parts.2]⟩

@[simp] theorem holds_nil (m : Memory) (p : Nat) : Holds m p [] := rfl

@[simp] theorem holds_cons (m : Memory) (p : Nat) (b : UInt8) (bs : List UInt8) :
    Holds m p (b :: bs) ↔ m p = b ∧ Holds m (p + 1) bs := by
  simp [Holds, List.range'_succ]

theorem holds_vector (m : Memory) (p : Nat) {n : Nat} (v : Vector UInt8 n) :
    Holds m p v.toList ↔ Vector.ofFn (fun k => m (p + k)) = v := by
  have read : (List.range' p n).map m = (Vector.ofFn (fun k : Fin n => m (p + k))).toList := by
    apply List.ext_getElem
    · simp
    · simp
  rw [Holds, Vector.length_toList, read, Vector.toList_inj]

/- Numbers in network order. -/

def bigEndian (bs : List UInt8) : Nat := bs.foldl (fun n b => n * 256 + b.toNat) 0

theorem foldl_bigEndian (bs : List UInt8) (n : Nat) :
    bs.foldl (fun n b => n * 256 + b.toNat) n = n * 256 ^ bs.length + bigEndian bs := by
  induction bs generalizing n with
  | nil => simp [bigEndian]
  | cons b bs ih =>
    simp only [bigEndian, List.foldl_cons, List.length_cons] at ih ⊢
    rw [ih, ih (0 * 256 + b.toNat)]
    simp only [Nat.zero_mul, Nat.zero_add, Nat.add_mul, Nat.pow_succ]
    rw [Nat.mul_assoc, Nat.mul_comm 256, Nat.add_assoc]

theorem bigEndian_cons (b : UInt8) (bs : List UInt8) :
    bigEndian (b :: bs) = b.toNat * 256 ^ bs.length + bigEndian bs := by
  have h := foldl_bigEndian bs b.toNat
  simpa only [bigEndian, List.foldl_cons, Nat.zero_mul, Nat.zero_add] using h

theorem bigEndian_lt (bs : List UInt8) : bigEndian bs < 256 ^ bs.length := by
  induction bs with
  | nil => decide
  | cons b bs ih =>
    have digit : b.toNat + 1 ≤ 256 := b.toNat_lt
    have room : (b.toNat + 1) * 256 ^ bs.length ≤ 256 * 256 ^ bs.length :=
      Nat.mul_le_mul_right _ digit
    rw [Nat.add_mul] at room
    rw [bigEndian_cons, List.length_cons, Nat.pow_succ]
    omega

def digits : Nat → Nat → List UInt8
  | 0, _ => []
  | n + 1, x => .ofNat (x / 256 ^ n) :: digits n x

@[simp] theorem length_digits (n x : Nat) : (digits n x).length = n := by
  induction n with
  | zero => rfl
  | succ n ih => rw [digits, List.length_cons, ih]

theorem getElem_digits {n k : Nat} (x : Nat) (h : k < (digits n x).length) :
    (digits n x)[k] = .ofNat (x / 256 ^ (n - 1 - k)) := by
  induction n generalizing k with
  | zero => contradiction
  | succ n ih =>
    cases k with
    | zero => rfl
    | succ k =>
      have place : n - 1 - k = n + 1 - 1 - (k + 1) := by omega
      simp only [digits, List.getElem_cons_succ, ih, place]

theorem bigEndian_digits (n x : Nat) : bigEndian (digits n x) = x % 256 ^ n := by
  induction n with
  | zero => simp [digits, bigEndian, Nat.mod_one]
  | succ n ih =>
    have places : x % 256 ^ (n + 1) = x % 256 ^ n + 256 ^ n * (x / 256 ^ n % 256) := by
      rw [Nat.pow_succ, Nat.mod_mul]
    rw [digits, bigEndian_cons, length_digits, ih, UInt8.toNat_ofNat', places, Nat.mul_comm,
      Nat.add_comm]

theorem digits_mod {n m : Nat} (le : n ≤ m) (x : Nat) : digits n (x % 256 ^ m) = digits n x := by
  induction n with
  | zero => rfl
  | succ n ih =>
    have power : 256 ^ m = 256 ^ n * (256 * 256 ^ (m - n - 1)) := by
      rw [← Nat.pow_succ', ← Nat.pow_add]
      congr 1
      omega
    have digit : UInt8.ofNat (x % 256 ^ m / 256 ^ n) = UInt8.ofNat (x / 256 ^ n) := by
      apply UInt8.toNat_inj.mp
      rw [UInt8.toNat_ofNat', UInt8.toNat_ofNat', power, Nat.mod_mul_right_div_self]
      exact Nat.mod_mul_right_mod _ _ _
    rw [digits, digits, ih (by omega), digit]

theorem digits_bigEndian (bs : List UInt8) : digits bs.length (bigEndian bs) = bs := by
  induction bs with
  | nil => rfl
  | cons b bs ih =>
    have below := bigEndian_lt bs
    have rest : digits bs.length (bigEndian (b :: bs)) = bs := by
      rw [← digits_mod (Nat.le_refl _), bigEndian_cons, Nat.mul_add_mod', Nat.mod_eq_of_lt below,
        ih]
    have head : bigEndian (b :: bs) / 256 ^ bs.length = b.toNat := by
      rw [bigEndian_cons, Nat.mul_comm, Nat.mul_add_div (Nat.pow_pos (by decide)),
        Nat.div_eq_of_lt below, Nat.add_zero]
    rw [List.length_cons, digits, rest, head, UInt8.ofNat_toNat]

/-- Bytes shifted into a word one by one accumulate their number, provided that a single
shift is exact below a bound which the number stays below. -/
theorem shift_in {W : Type} (toNat : W → Nat) (shift : W → UInt8 → W) (bound : Nat)
    (exact : ∀ w b, toNat w * 256 + b.toNat < bound →
      toNat (shift w b) = toNat w * 256 + b.toNat) (bs : List UInt8) (word : W)
    (fits : toNat word * 256 ^ bs.length + bigEndian bs < bound) :
    toNat (bs.foldl shift word) = toNat word * 256 ^ bs.length + bigEndian bs := by
  induction bs generalizing word with
  | nil => simp [bigEndian]
  | cons b bs ih =>
    rw [List.length_cons, Nat.pow_succ, bigEndian_cons] at fits ⊢
    have regroup : toNat word * (256 ^ bs.length * 256) =
        toNat word * 256 * 256 ^ bs.length := by
      rw [Nat.mul_comm (256 ^ bs.length), Nat.mul_assoc]
    have one : 0 < 256 ^ bs.length := Nat.pow_pos (by decide)
    have small : toNat word * 256 + b.toNat < bound := by
      have : (toNat word * 256 + b.toNat) * 1 ≤
          (toNat word * 256 + b.toNat) * 256 ^ bs.length := Nat.mul_le_mul_left _ one
      rw [Nat.mul_one, Nat.add_mul] at this
      omega
    have next := exact word b small
    rw [List.foldl_cons, ih _ (by rw [next, Nat.add_mul]; omega), next, Nat.add_mul]
    omega

theorem shift_in64 (bs : List UInt8) (fits : bigEndian bs < 2 ^ 64) :
    (bs.foldl (fun (w : UInt64) b => (w <<< 8) + b.toUInt64) 0).toNat = bigEndian bs := by
  have h := shift_in UInt64.toNat (fun w b => (w <<< 8) + b.toUInt64) (2 ^ 64)
    (fun w b small => by
      simp [UInt64.toNat_add, UInt64.toNat_shiftLeft, Nat.shiftLeft_eq]
      omega) bs 0 (by simpa using fits)
  simpa using h

theorem shift_in32 (bs : List UInt8) (fits : bigEndian bs < 2 ^ 32) :
    (bs.foldl (fun (w : UInt32) b => (w <<< 8) + b.toUInt32) 0).toNat = bigEndian bs := by
  have h := shift_in UInt32.toNat (fun w b => (w <<< 8) + b.toUInt32) (2 ^ 32)
    (fun w b small => by
      simp [UInt32.toNat_add, UInt32.toNat_shiftLeft, Nat.shiftLeft_eq]
      omega) bs 0 (by simpa using fits)
  simpa using h

end StandalonePtp
