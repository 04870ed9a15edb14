import Mathlib.Order.Interval.Set.UnorderedInterval

/-! Fractions truncated towards zero, and the low pass that moves a mean by the fraction of
its distance to the input. -/
namespace StandalonePtp.Truncation

variable (n : Nat) (mean input : Int)

theorem tdiv_mem (a : Int) :
    (0 ≤ a.tdiv n ∧ a.tdiv n ≤ a) ∨ (a ≤ a.tdiv n ∧ a.tdiv n ≤ 0) := by
  rcases Int.le_total 0 a with h | h
  · exact .inl ⟨Int.tdiv_nonneg h (Int.natCast_nonneg n), Int.tdiv_le_self _ h⟩
  · have size := Int.tdiv_le_self n (Int.neg_nonneg_of_nonpos h)
    have sign := Int.tdiv_nonneg (Int.neg_nonneg_of_nonpos h) (Int.natCast_nonneg n)
    rw [Int.neg_tdiv] at size sign
    exact .inr ⟨by omega, by omega⟩

theorem tdiv_natAbs (a : Int) : (a.tdiv n).natAbs = a.natAbs / n := by
  rw [Int.natAbs_tdiv]
  rfl

theorem sub_tdiv_natAbs (a : Int) : (a - a.tdiv n).natAbs = a.natAbs - a.natAbs / n := by
  have fraction := tdiv_mem n a
  have size := tdiv_natAbs n a
  omega

theorem sub_tdiv_le (a : Int) : (a - a.tdiv n).natAbs ≤ a.natAbs := by
  rw [sub_tdiv_natAbs]
  exact Nat.sub_le _ _

def lowPass : Int := mean - (mean - input).tdiv n

theorem lowPass_mem : lowPass n mean input ∈ Set.uIcc mean input := by
  have fraction := tdiv_mem n (mean - input)
  rw [lowPass, Set.mem_uIcc]
  omega

theorem lowPass_distance :
    (lowPass n mean input - input).natAbs =
      (mean - input).natAbs - (mean - input).natAbs / n := by
  have remainder : lowPass n mean input - input = mean - input - (mean - input).tdiv n := by
    unfold lowPass
    omega
  rw [remainder, sub_tdiv_natAbs]

/-- Outside the dead band, where the fraction is zero, the distance shrinks. -/
theorem lowPass_lowers (positive : 0 < n) (far : n ≤ (mean - input).natAbs) :
    (lowPass n mean input - input).natAbs < (mean - input).natAbs := by
  have moved : 0 < (mean - input).natAbs / n := Nat.div_pos far positive
  rw [lowPass_distance]
  exact Nat.sub_lt (by omega) moved

end StandalonePtp.Truncation
