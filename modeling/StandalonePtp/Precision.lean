import Mathlib.Algebra.Order.Field.Rat
import Mathlib.Tactic.Linarith
import StandalonePtp.Exchange

/-! How precise the time calculation of one exchange is: no nanosecond word overflows on
the way, and truncation costs half a nanosecond at each halving. -/
namespace StandalonePtp

open Words

/- The nanosecond results of the operations, before they are put into words. -/

def addNanosec (pt1 pt2 : PtpTimestamp) : List Int := [pt1.nanosec.toInt + pt2.nanosec.toInt]

def subNanosec (pt1 pt2 : PtpTimestamp) : List Int :=
  -pt2.nanosec.toInt :: addNanosec pt1 ⟨-pt2.seconds, -pt2.nanosec⟩

def except2Nanosec (pt1 : PtpTimestamp) : List Int :=
  if pt1.seconds % 2 = 0 then []
  else [(pt1.nanosec / 2).toInt + (nsSecPeriod / 2).toInt]

/-- In the order of the nine operations of the DelayResponse. -/
def delayNanosec (t1 t2 t3 t4 sysTs : PtpTimestamp) : List Int :=
  let t2_t1 := ptpTimeSub t2 t1
  let t4_t3 := ptpTimeSub t4 t3
  let times := delayTimes t1 t2 t3 t4 sysTs
  subNanosec t2 t1 ++ subNanosec t4 t3 ++
    addNanosec t2_t1 t4_t3 ++ except2Nanosec (ptpTimeAdd t2_t1 t4_t3) ++
    subNanosec t2_t1 t4_t3 ++ except2Nanosec (ptpTimeSub t2_t1 t4_t3) ++
    subNanosec times.delay times.offset ++ addNanosec t3 times.propDelay ++
    subNanosec times.syncedTime sysTs

theorem addNanosec_fits {pt1 pt2 : PtpTimestamp}
    (sum : Fits32 (pt1.nanosec.toInt + pt2.nanosec.toInt)) :
    ∀ n ∈ addNanosec pt1 pt2, Fits32 n := by
  simpa only [addNanosec, List.mem_singleton, forall_eq] using sum

theorem subNanosec_fits {pt1 pt2 : PtpTimestamp}
    (negated : Fits32 (-pt2.nanosec.toInt))
    (difference : Fits32 (pt1.nanosec.toInt - pt2.nanosec.toInt)) :
    ∀ n ∈ subNanosec pt1 pt2, Fits32 n := by
  have opposite : (-pt2.nanosec).toInt = -pt2.nanosec.toInt := neg32 negated
  rw [subNanosec, List.forall_mem_cons]
  refine ⟨negated, addNanosec_fits ?_⟩
  rwa [opposite, ← Int.sub_eq_add_neg]

theorem except2Nanosec_fits {pt1 : PtpTimestamp}
    (sum : Fits32 (pt1.nanosec.toInt.tdiv 2 + 500000000)) :
    ∀ n ∈ except2Nanosec pt1, Fits32 n := by
  have half : (pt1.nanosec / 2).toInt = pt1.nanosec.toInt.tdiv 2 := div32 (by decide)
  have period : (nsSecPeriod / 2).toInt = 500000000 := by decide
  unfold except2Nanosec
  split
  · simp
  · simpa only [List.mem_singleton, forall_eq, half, period] using sum

section
variable {t1 t2 t3 t4 : PtpTimestamp} (h1 : t1.InRange) (h2 : t2.InRange) (h3 : t3.InRange)
  (h4 : t4.InRange)
include h1 h2 h3 h4

theorem delayNanosec_fits {sysTs : PtpTimestamp} (hsys : sysTs.InRange) :
    ∀ n ∈ delayNanosec t1 t2 t3 t4 sysTs, Fits32 n := by
  obtain ⟨forward, backward⟩ := interval_parts h1 h2 h3 h4
  obtain ⟨sum, difference⟩ := sum_difference_parts h1 h2 h3 h4
  obtain ⟨delay, offset⟩ := delay_offset_parts h1 h2 h3 h4 sysTs
  have forwardNs := congrArg Parts.low forward
  have backwardNs := congrArg Parts.low backward
  have sumNs := congrArg Parts.low sum
  have differenceNs := congrArg Parts.low difference
  have delayNs := congrArg Parts.low delay
  have offsetNs := congrArg Parts.low offset
  have responseNs := congrArg Parts.low (propDelay_parts h1 h2 h3 h4 sysTs)
  have syncedNs := (syncedTime_inRange h1 h2 h3 h4 sysTs).1
  have rounded := Parts.rounding_bounds (t2.nanosec.toInt - t1.nanosec.toInt)
    (t4.nanosec.toInt - t3.nanosec.toInt)
  simp only [PtpTimestamp.parts, Parts.add, Parts.sub, Parts.half, exchangeRounding]
    at forwardNs backwardNs sumNs differenceNs delayNs offsetNs responseNs
  rw [← sumNs] at delayNs
  rw [← differenceNs] at offsetNs
  have halfSum := tdiv_cases (ptpTimeAdd (ptpTimeSub t2 t1) (ptpTimeSub t4 t3)).nanosec.toInt 2
  have halfDifference :=
    tdiv_cases (ptpTimeSub (ptpTimeSub t2 t1) (ptpTimeSub t4 t3)).nanosec.toInt 2
  obtain ⟨low1, high1⟩ := h1.1
  obtain ⟨low2, high2⟩ := h2.1
  obtain ⟨low3, high3⟩ := h3.1
  obtain ⟨low4, high4⟩ := h4.1
  obtain ⟨lowSys, highSys⟩ := hsys.1
  obtain ⟨lowSynced, highSynced⟩ := syncedNs
  simp only [delayNanosec, List.mem_append, or_imp, forall_and]
  refine ⟨⟨⟨⟨⟨⟨⟨⟨?_, ?_⟩, ?_⟩, ?_⟩, ?_⟩, ?_⟩, ?_⟩, ?_⟩, ?_⟩
  · exact subNanosec_fits (by unfold Fits32; omega) (by unfold Fits32; omega)
  · exact subNanosec_fits (by unfold Fits32; omega) (by unfold Fits32; omega)
  · exact addNanosec_fits (by unfold Fits32; omega)
  · exact except2Nanosec_fits (by unfold Fits32; omega)
  · exact subNanosec_fits (by unfold Fits32; omega) (by unfold Fits32; omega)
  · exact except2Nanosec_fits (by unfold Fits32; omega)
  · exact subNanosec_fits (by unfold Fits32; omega) (by unfold Fits32; omega)
  · exact addNanosec_fits (by unfold Fits32; omega)
  · exact subNanosec_fits (by unfold Fits32; omega) (by unfold Fits32; omega)

theorem delay_offset_total (sysTs : PtpTimestamp) :
    (-1 ≤ 2 * (delayTimes t1 t2 t3 t4 sysTs).delay.total -
          (t2.total - t1.total + (t4.total - t3.total)) ∧
        2 * (delayTimes t1 t2 t3 t4 sysTs).delay.total -
          (t2.total - t1.total + (t4.total - t3.total)) ≤ 1) ∧
      -1 ≤ 2 * (delayTimes t1 t2 t3 t4 sysTs).offset.total -
          (t2.total - t1.total - (t4.total - t3.total)) ∧
        2 * (delayTimes t1 t2 t3 t4 sysTs).offset.total -
          (t2.total - t1.total - (t4.total - t3.total)) ≤ 1 := by
  obtain ⟨delay, offset⟩ := delay_offset_parts h1 h2 h3 h4 sysTs
  have even : (1000000000 : Int) % 2 = 0 := by decide
  have sum := Parts.total_half even ((t2.parts.sub t1.parts).add (t4.parts.sub t3.parts))
  have difference := Parts.total_half even ((t2.parts.sub t1.parts).sub (t4.parts.sub t3.parts))
  rw [← delay, Parts.total_add, Parts.total_sub, Parts.total_sub] at sum
  rw [← offset, Parts.total_sub, Parts.total_sub, Parts.total_sub] at difference
  exact ⟨sum, difference⟩

theorem syncedTime_total (sysTs : PtpTimestamp) :
    (delayTimes t1 t2 t3 t4 sysTs).syncedTime.total =
      t4.total + exchangeRounding t1 t2 t3 t4 := by
  rw [PtpTimestamp.total, syncedTime_parts h1 h2 h3 h4 sysTs]
  simp only [PtpTimestamp.total, PtpTimestamp.parts, Parts.total, Int.add_assoc]

/-- After the halvings nothing is rounded any more. -/
theorem syncedTime_sum (sysTs : PtpTimestamp) :
    (delayTimes t1 t2 t3 t4 sysTs).syncedTime.total =
      t3.total + (delayTimes t1 t2 t3 t4 sysTs).delay.total -
        (delayTimes t1 t2 t3 t4 sysTs).offset.total := by
  obtain ⟨delay, offset⟩ := delay_offset_parts h1 h2 h3 h4 sysTs
  have cancel := congrArg (Parts.total 1000000000)
    (Parts.half_sub_half 1000000000 (t2.parts.sub t1.parts) (t4.parts.sub t3.parts))
  rw [Parts.total_sub, ← delay, ← offset] at cancel
  rw [syncedTime_total h1 h2 h3 h4 sysTs]
  simp only [PtpTimestamp.total, PtpTimestamp.parts, Parts.total, Parts.sub, exchangeRounding]
    at cancel ⊢
  omega

end

/- Precision against rational numbers. -/

def exactDelay (t1 t2 t3 t4 : PtpTimestamp) : ℚ :=
  ((t2.total - t1.total : Int) + (t4.total - t3.total : Int)) / 2

def exactOffset (t1 t2 t3 t4 : PtpTimestamp) : ℚ :=
  ((t2.total - t1.total : Int) - (t4.total - t3.total : Int)) / 2

structure PreciseTimes (t1 t2 t3 t4 sysTs : PtpTimestamp) : Prop where
  noOverflow : ∀ n ∈ delayNanosec t1 t2 t3 t4 sysTs, Fits32 n
  delay : |((delayTimes t1 t2 t3 t4 sysTs).delay.total : ℚ) - exactDelay t1 t2 t3 t4| ≤ 1 / 2
  offset : |((delayTimes t1 t2 t3 t4 sysTs).offset.total : ℚ) - exactOffset t1 t2 t3 t4| ≤ 1 / 2
  normalised : (delayTimes t1 t2 t3 t4 sysTs).syncedTime.Normalised
  syncedTimeSum : (delayTimes t1 t2 t3 t4 sysTs).syncedTime.total =
    t3.total + (delayTimes t1 t2 t3 t4 sysTs).delay.total -
      (delayTimes t1 t2 t3 t4 sysTs).offset.total
  syncedTime : |((delayTimes t1 t2 t3 t4 sysTs).syncedTime.total : ℚ) -
    (t3.total + exactDelay t1 t2 t3 t4 - exactOffset t1 t2 t3 t4)| ≤ 1

theorem within_half {a b : Int} (h : -1 ≤ 2 * a - b ∧ 2 * a - b ≤ 1) :
    |(a : ℚ) - (b : ℚ) / 2| ≤ 1 / 2 := by
  have low : (-1 : ℚ) ≤ 2 * a - b := by exact_mod_cast h.1
  have high : (2 : ℚ) * a - b ≤ 1 := by exact_mod_cast h.2
  rw [abs_le]
  constructor <;> linarith

/-- The two halvings leave delay and offset within half a nanosecond of the exact ones, and
their roundings together leave the synchronised time within one. -/
theorem delayTimes_precise (t1 t2 t3 t4 sysTs : PtpTimestamp) (h1 : t1.InRange) (h2 : t2.InRange)
    (h3 : t3.InRange) (h4 : t4.InRange) (hsys : sysTs.InRange) :
    PreciseTimes t1 t2 t3 t4 sysTs where
  noOverflow := delayNanosec_fits h1 h2 h3 h4 hsys
  delay := by
    have close := within_half (delay_offset_total h1 h2 h3 h4 sysTs).1
    simpa only [exactDelay, Int.cast_add] using close
  offset := by
    have close := within_half (delay_offset_total h1 h2 h3 h4 sysTs).2
    simpa only [exactOffset, Int.cast_sub] using close
  normalised := (syncedTime_inRange h1 h2 h3 h4 sysTs).1
  syncedTimeSum := syncedTime_sum h1 h2 h3 h4 sysTs
  syncedTime := by
    have rounded := Parts.rounding_bounds (t2.nanosec.toInt - t1.nanosec.toInt)
      (t4.nanosec.toInt - t3.nanosec.toInt)
    have low : (-1 : ℚ) ≤ exchangeRounding t1 t2 t3 t4 := by exact_mod_cast rounded.1
    have high : (exchangeRounding t1 t2 t3 t4 : ℚ) ≤ 1 := by exact_mod_cast rounded.2
    rw [syncedTime_total h1 h2 h3 h4 sysTs, exactDelay, exactOffset, abs_le]
    push_cast
    constructor <;> linarith

/-- An odd sum and an odd difference, rounded to opposite sides. -/
theorem delayTimes_precise_example :
    PreciseTimes ⟨100, 5⟩ ⟨101, 0⟩ ⟨101, 999999000⟩ ⟨101, 999999998⟩ ⟨102, 0⟩ :=
  delayTimes_precise ⟨100, 5⟩ ⟨101, 0⟩ ⟨101, 999999000⟩ ⟨101, 999999998⟩ ⟨102, 0⟩
    (by decide) (by decide) (by decide) (by decide) (by decide)

end StandalonePtp
