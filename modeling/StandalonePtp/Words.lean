import Mathlib.Algebra.Group.Nat.Defs

/-! Machine words read as integers. Signed arithmetic of the words is exact when the
integer result is representable, and division truncates towards zero. -/
namespace StandalonePtp.Words

def Fits32 (n : Int) : Prop := -2147483648 ≤ n ∧ n < 2147483648

def Fits64 (n : Int) : Prop := -9223372036854775808 ≤ n ∧ n < 9223372036854775808

theorem bmod32 {n : Int} (h : Fits32 n) : n.bmod (2 ^ 32) = n :=
  Int.bmod_eq_of_le (by simpa using h.1) (by simpa using h.2)

theorem bmod64 {n : Int} (h : Fits64 n) : n.bmod (2 ^ 64) = n :=
  Int.bmod_eq_of_le (by simpa using h.1) (by simpa using h.2)

theorem add32 {a b : Int32} (h : Fits32 (a.toInt + b.toInt)) :
    (a + b).toInt = a.toInt + b.toInt := by
  rw [Int32.toInt_add, bmod32 h]

theorem neg32 {a : Int32} (h : Fits32 (-a.toInt)) : (-a).toInt = -a.toInt := by
  rw [Int32.toInt_neg, bmod32 h]

theorem sub32 {a b : Int32} (h : Fits32 (a.toInt - b.toInt)) :
    (a - b).toInt = a.toInt - b.toInt := by
  rw [Int32.toInt_sub, bmod32 h]

theorem add64 {a b : Int64} (h : Fits64 (a.toInt + b.toInt)) :
    (a + b).toInt = a.toInt + b.toInt := by
  rw [Int64.toInt_add, bmod64 h]

theorem sub64 {a b : Int64} (h : Fits64 (a.toInt - b.toInt)) :
    (a - b).toInt = a.toInt - b.toInt := by
  rw [Int64.toInt_sub, bmod64 h]

/- Truncating division in the form linear arithmetic can use. -/
theorem tdiv_cases (a n : Int) :
    (0 ≤ a ∧ a.tdiv n = a / n) ∨ (a < 0 ∧ a.tdiv n = -(-a / n)) := by
  by_cases h : 0 ≤ a
  · exact .inl ⟨h, Int.tdiv_eq_ediv_of_nonneg h⟩
  · have flip : a.tdiv n = -((-a).tdiv n) := by rw [Int.neg_tdiv, Int.neg_neg]
    exact .inr ⟨by omega, by rw [flip, Int.tdiv_eq_ediv_of_nonneg (by omega)]⟩

theorem div32 {a b : Int32} (h : b ≠ -1) : (a / b).toInt = a.toInt.tdiv b.toInt :=
  Int32.toInt_div_of_ne_right a b h

theorem div64 {a b : Int64} (h : b ≠ -1) : (a / b).toInt = a.toInt.tdiv b.toInt :=
  Int64.toInt_div_of_ne_right a b h

/-- The absolute value is exact except at the least word, whose negation is not representable. -/
theorem abs32 {a : Int32} (h : -2147483648 < a.toInt) : a.abs.toInt = a.toInt.natAbs := by
  have least : a.toBitVec ≠ BitVec.intMin 32 := by
    intro he
    have : a.toInt = -2147483648 := by rw [← Int32.toInt_toBitVec, he]; decide
    omega
  exact BitVec.toInt_abs_eq_natAbs_of_ne_intMin least

theorem toUInt32_toNat {a : Int32} (h : 0 ≤ a.toInt) : (a.toUInt32.toNat : Int) = a.toInt := by
  have nonneg : 0 ≤ a := Int32.le_iff_toInt_le.mpr h
  rw [Int32.toNat_toUInt32_of_le nonneg]
  exact Int.toNat_of_nonneg h

/-- Eight bits out of the middle of a word, shifted down with its sign and masked. -/
theorem low_octet {w : Nat} (x : BitVec w) (n : Nat) (inside : n + 8 ≤ w) :
    (x.sshiftRight n &&& 255#w).setWidth 8 = BitVec.ofNat 8 (x.toNat / 2 ^ n) := by
  apply BitVec.eq_of_getLsbD_eq
  intro i hi
  have mask : Nat.testBit 255 i = true := by
    rw [show (255 : Nat) = 2 ^ 8 - 1 from rfl, Nat.testBit_two_pow_sub_one]
    exact decide_eq_true hi
  have here : i < w := by omega
  have there : n + i < w := by omega
  simp only [BitVec.getLsbD_setWidth, BitVec.getLsbD_and, BitVec.getLsbD_sshiftRight,
    BitVec.getLsbD_ofNat, Nat.testBit_div_two_pow, mask, here, there, hi, decide_true,
    Bool.true_and, Bool.and_true, if_true]
  simp [here, BitVec.getLsbD, Nat.add_comm]

theorem shift64 : ∀ k < 8, ((Int64.ofNat (k * 8)).toBitVec.smod 64).toNat = k * 8 := by decide

theorem shift32 : ∀ k < 4, ((Int32.ofNat (k * 8)).toBitVec.smod 32).toNat = k * 8 := by decide

theorem octet64 (a : Int64) {k : Nat} (hk : k < 8) :
    ((a >>> Int64.ofNat (k * 8)) &&& 0xFF).toUInt64.toUInt8 =
      UInt8.ofNat (a.toUInt64.toNat / 256 ^ k) := by
  have power : 2 ^ (k * 8) = 256 ^ k := by rw [Nat.mul_comm, Nat.pow_mul]
  apply UInt8.toBitVec_inj.mp
  change (a.toBitVec.sshiftRight ((Int64.ofNat (k * 8)).toBitVec.smod 64).toNat &&&
    255#64).setWidth 8 = BitVec.ofNat 8 (a.toBitVec.toNat / 256 ^ k)
  rw [shift64 k hk, low_octet a.toBitVec (k * 8) (by omega), power]

theorem octet32 (a : Int32) {k : Nat} (hk : k < 4) :
    ((a >>> Int32.ofNat (k * 8)) &&& 0xFF).toUInt32.toUInt8 =
      UInt8.ofNat (a.toUInt32.toNat / 256 ^ k) := by
  have power : 2 ^ (k * 8) = 256 ^ k := by rw [Nat.mul_comm, Nat.pow_mul]
  apply UInt8.toBitVec_inj.mp
  change (a.toBitVec.sshiftRight ((Int32.ofNat (k * 8)).toBitVec.smod 32).toNat &&&
    255#32).setWidth 8 = BitVec.ofNat 8 (a.toBitVec.toNat / 256 ^ k)
  rw [shift32 k hk, low_octet a.toBitVec (k * 8) (by omega), power]

/-- The signed difference of two stamps tells their distance modulo the size of the word. -/
theorem stampGap (now stamp : Nat) :
    (UInt32.ofNat now - UInt32.ofNat stamp).toInt32.toInt =
      if ((now : Int) - stamp) % 4294967296 < 2147483648 then ((now : Int) - stamp) % 4294967296
      else ((now : Int) - stamp) % 4294967296 - 4294967296 := by
  have difference : ((UInt32.ofNat now - UInt32.ofNat stamp).toNat : Int) =
      ((now : Int) - stamp) % 4294967296 := by
    rw [UInt32.toNat_sub, UInt32.toNat_ofNat', UInt32.toNat_ofNat']
    omega
  have signed := BitVec.toInt_eq_toNat_cond (UInt32.ofNat now - UInt32.ofNat stamp).toBitVec
  rw [UInt32.toNat_toBitVec, difference] at signed
  rw [← Int32.toInt_toBitVec, UInt32.toBitVec_toInt32]
  split at signed <;> split <;> omega

theorem stampAge {now stamp : Nat} (h : stamp ≤ now) :
    (UInt32.ofNat now - UInt32.ofNat stamp).toInt32.toInt =
      if (now - stamp) % 4294967296 < 2147483648 then (((now - stamp) % 4294967296 : Nat) : Int)
      else (((now - stamp) % 4294967296 : Nat) : Int) - 4294967296 := by
  have forwards : ((now : Int) - stamp) = (now - stamp : Nat) := (Int.ofNat_sub h).symm
  rw [stampGap, forwards]
  split <;> split <;> omega

/-- The low half of a signed word of 64 bits is its number modulo the size of the half. -/
theorem toUInt32_toUInt64 (a : Int64) :
    (a.toUInt64.toUInt32.toNat : Int) = a.toInt % 4294967296 := by
  have word : a.toUInt64.toNat = a.toBitVec.toNat := rfl
  have signed := BitVec.toInt_eq_toNat_cond a.toBitVec
  have small := a.toBitVec.isLt
  rw [Int64.toInt_toBitVec] at signed
  rw [UInt64.toNat_toUInt32, word]
  split at signed <;> omega

theorem toUInt64_lt {a : Int64} (low : 0 ≤ a.toInt) (high : a.toInt < 281474976710656) :
    a.toUInt64.toNat < 256 ^ 6 := by
  have word : a.toUInt64.toNat = a.toBitVec.toNat := rfl
  have power : 256 ^ 6 = 281474976710656 := by decide
  have signed := BitVec.toInt_eq_toNat_cond a.toBitVec
  have small := a.toBitVec.isLt
  rw [Int64.toInt_toBitVec] at signed
  rw [word, power]
  split at signed <;> omega

end StandalonePtp.Words
