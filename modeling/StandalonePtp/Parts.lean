import Mathlib.Tactic.SplitIfs
import StandalonePtp.Words

/-! Numbers in two parts: a high part counted in units of a base and a low part. Both
parts are any integers, so the operations need no carry and one total has many
representations. -/
namespace StandalonePtp

structure Parts where
  high : Int
  low : Int
  deriving DecidableEq, Repr

namespace Parts

def total (base : Int) (p : Parts) : Int := p.high * base + p.low

def add (p q : Parts) : Parts := ⟨p.high + q.high, p.low + q.low⟩

def sub (p q : Parts) : Parts := ⟨p.high - q.high, p.low - q.low⟩

/-- The high part is halved downwards and its odd unit goes to the low part as half
a base; the low part is halved towards zero. -/
def half (base : Int) (p : Parts) : Parts :=
  ⟨p.high / 2, p.low.tdiv 2 + p.high % 2 * (base / 2)⟩

theorem total_sub (base : Int) (p q : Parts) :
    (p.sub q).total base = p.total base - q.total base := by
  simp only [total, sub, Int.sub_mul]
  omega

theorem total_add (base : Int) (p q : Parts) :
    (p.add q).total base = p.total base + q.total base := by
  simp only [total, add, Int.add_mul]
  omega

/-- Of an even base one half is the half of a number up to what truncation takes off its
low part. -/
theorem total_half {base : Int} (even : base % 2 = 0) (p : Parts) :
    -1 ≤ 2 * (p.half base).total base - p.total base ∧
      2 * (p.half base).total base - p.total base ≤ 1 := by
  obtain ⟨unit, rfl⟩ := Int.dvd_of_emod_eq_zero even
  have high : p.high = 2 * (p.high / 2) + p.high % 2 := by omega
  have product : p.high * (2 * unit) = 2 * (p.high / 2 * (2 * unit)) + 2 * (p.high % 2 * unit) := by
    conv => lhs; rw [high]
    rw [Int.add_mul, Int.mul_assoc, Int.mul_left_comm (p.high % 2)]
  have low := Words.tdiv_cases p.low 2
  have halved : 2 * unit / 2 = unit := by omega
  simp only [total, half, halved, product]
  omega

/- A number that counts: the low part carries into the high part. -/

def Normal (base : Int) (p : Parts) : Prop := 0 ≤ p.low ∧ p.low < base

instance (base : Int) (p : Parts) : Decidable (p.Normal base) :=
  inferInstanceAs (Decidable (_ ∧ _))

def advance (base n : Int) (p : Parts) : Parts :=
  ⟨p.high + (p.low + n) / base, (p.low + n) % base⟩

theorem total_advance (base n : Int) (p : Parts) :
    (p.advance base n).total base = p.total base + n := by
  have carry := Int.mul_ediv_add_emod (p.low + n) base
  rw [Int.mul_comm] at carry
  simp only [total, advance, Int.add_mul]
  omega

theorem advance_within {base n : Int} {p : Parts} (low : 0 ≤ p.low + n) (room : p.low + n < base) :
    p.advance base n = ⟨p.high, p.low + n⟩ := by
  rw [advance, Int.ediv_eq_zero_of_lt low room, Int.emod_eq_of_lt low room, Int.add_zero]

theorem normal_high {base : Int} {p : Parts} (normal : p.Normal base) :
    p.total base / base = p.high := by
  have positive : base ≠ 0 := by
    have := normal.1
    have := normal.2
    omega
  rw [total, Int.add_comm, Int.add_mul_ediv_right _ _ positive,
    Int.ediv_eq_zero_of_lt normal.1 normal.2, Int.zero_add]

/-- Normal numbers are ordered by their high parts first. -/
theorem high_le {base : Int} {p q : Parts} (hp : p.Normal base) (hq : q.Normal base)
    (le : p.total base ≤ q.total base) : p.high ≤ q.high := by
  have positive : 0 < base := Int.lt_of_le_of_lt hp.1 hp.2
  rw [← normal_high hp, ← normal_high hq]
  exact Int.ediv_le_ediv positive le

/-- The start of a later unit lies above a normal number. -/
theorem total_le_unit {base high : Int} {p : Parts} (normal : p.Normal base)
    (later : p.high < high) : p.total base ≤ (Parts.mk high 0).total base := by
  have positive : 0 < base := Int.lt_of_le_of_lt normal.1 normal.2
  have unit : (p.high + 1) * base ≤ high * base :=
    Int.mul_le_mul_of_nonneg_right later (Int.le_of_lt positive)
  have below := normal.2
  rw [Int.add_mul] at unit
  simp only [total]
  omega

/-- What the two halvings of `a + b` and `a - b` leave over when their difference is taken. -/
def rounding (a b : Int) : Int :=
  if (a + b) % 2 = 0 then 0
  else if a + b < 0 ∧ 0 < a - b then 1
  else if 0 < a + b ∧ a - b < 0 then -1
  else 0

theorem rounding_bounds (a b : Int) : -1 ≤ rounding a b ∧ rounding a b ≤ 1 := by
  unfold rounding
  split_ifs <;> omega

theorem tdiv_sub_tdiv (a b : Int) :
    (a + b).tdiv 2 - (a - b).tdiv 2 = b + rounding a b := by
  have sum := Words.tdiv_cases (a + b) 2
  have difference := Words.tdiv_cases (a - b) 2
  unfold rounding
  split_ifs <;> omega

/-- Half the sum less half the difference is the second number, up to the rounding of
its low part. The high part is exact because sum and difference have one parity. -/
theorem half_sub_half (base : Int) (p q : Parts) :
    ((p.add q).half base).sub ((p.sub q).half base) =
      ⟨q.high, q.low + rounding p.low q.low⟩ := by
  have parity : (p.high + q.high) % 2 = (p.high - q.high) % 2 := by omega
  have high : (p.high + q.high) / 2 - (p.high - q.high) / 2 = q.high := by omega
  have low := tdiv_sub_tdiv p.low q.low
  simp only [half, add, sub, parity, high, Parts.mk.injEq, true_and]
  omega

theorem rounding_normal {base x y : Int} (a : Int) (hx : 0 ≤ x ∧ x < base)
    (hy : 0 ≤ y ∧ y < base) :
    0 ≤ y + rounding a (y - x) ∧ y + rounding a (y - x) < base := by
  unfold rounding
  split_ifs <;> omega

end Parts

end StandalonePtp
