import StandalonePtp.Integrator
import StandalonePtp.Truncation

/-! Which way the fine tuning steers the clock, for errors of either sign and for the two
modules that call it. -/
namespace StandalonePtp

open Truncation Words

/- The sign of the error. -/

/-- The calls for an error and for its opposite return early together, or program
opposite steps. -/
def OddAt (errorNs syncDiffIntegratedNs boundary : Int32) : Prop :=
  deadZone errorNs syncDiffIntegratedNs boundary =
      deadZone (-errorNs) (-syncDiffIntegratedNs) boundary ∧
    (deadZone errorNs syncDiffIntegratedNs boundary = false → ∀ tsu tsu' : TsuState,
      adjustmentStep
          (tsuClockFineTune tsu errorNs syncDiffIntegratedNs boundary).fineTuneRegister.word =
        -adjustmentStep
          (tsuClockFineTune tsu' (-errorNs) (-syncDiffIntegratedNs) boundary).fineTuneRegister.word)

theorem fineTune_step {errorNs syncDiffIntegratedNs boundary : Int32}
    (field : (errorNs.toInt + syncDiffIntegratedNs.toInt.tdiv 20).natAbs < 1073741824)
    (correcting : deadZone errorNs syncDiffIntegratedNs boundary = false) (tsu : TsuState) :
    adjustmentStep (tsuClockFineTune tsu errorNs syncDiffIntegratedNs boundary).fineTuneRegister.word =
      errorNs.toInt + syncDiffIntegratedNs.toInt.tdiv 20 := by
  have control : (freqAdj errorNs syncDiffIntegratedNs).toInt = _ :=
    freqAdj_toInt (by unfold Fits32; omega)
  rw [tsuClockFineTune, correcting, if_neg Bool.false_ne_true,
    adjustmentStep_correct _ (by rw [control]; exact field), control]

/-- The control law is odd where the error is inside the boundary or the control value is
outside. Between them only a positive error is left alone. -/
theorem fineTune_odd_iff {errorNs syncDiffIntegratedNs boundary : Int32}
    (error : -2147483648 < errorNs.toInt) (integral : -2147483648 < syncDiffIntegratedNs.toInt)
    (field : (errorNs.toInt + syncDiffIntegratedNs.toInt.tdiv 20).natAbs < 1073741824)
    (positive : 0 < boundary.toInt) :
    OddAt errorNs syncDiffIntegratedNs boundary ↔
      (errorNs.toInt.natAbs : Int) < boundary.toInt ∨
        boundary.toInt ≤ (errorNs.toInt + syncDiffIntegratedNs.toInt.tdiv 20).natAbs := by
  have errorHigh := errorNs.toInt_lt
  have integralHigh := syncDiffIntegratedNs.toInt_lt
  have negated : (-errorNs).toInt = -errorNs.toInt := neg32 (by unfold Fits32; omega)
  have opposite : (-errorNs).toInt + (-syncDiffIntegratedNs).toInt.tdiv 20 =
      -(errorNs.toInt + syncDiffIntegratedNs.toInt.tdiv 20) := by
    rw [negated, neg32 (by unfold Fits32; omega), Int.neg_tdiv]
    omega
  have here := deadZone_iff (Nat.lt_trans field (by decide)) positive
  have there : deadZone (-errorNs) (-syncDiffIntegratedNs) boundary = true ↔ _ :=
    deadZone_iff (by rw [opposite]; omega) positive
  rw [opposite, Int.natAbs_neg, negated] at there
  constructor
  · rintro ⟨same, -⟩
    rw [same, there] at here
    omega
  · intro condition
    have same : deadZone errorNs syncDiffIntegratedNs boundary =
        deadZone (-errorNs) (-syncDiffIntegratedNs) boundary := by
      rw [Bool.eq_iff_iff, here, there]
      omega
    refine ⟨same, fun correcting tsu tsu' => ?_⟩
    rw [fineTune_step field correcting, fineTune_step (by rw [opposite]; omega)
      (same.symm.trans correcting), opposite, Int.neg_neg]

theorem fineTune_odd_example :
    OddAt 700 (-600) 500 ↔
      ((700 : Int32).toInt.natAbs : Int) < (500 : Int32).toInt ∨
        (500 : Int32).toInt ≤ ((700 : Int32).toInt + (-600 : Int32).toInt.tdiv 20).natAbs :=
  fineTune_odd_iff (by decide) (by decide) (by decide) (by decide)

/-- An error of 600 ns that the integral has almost cancelled is left alone, its opposite
is corrected. -/
theorem positive_error_ignored :
    ¬ ∀ errorNs syncDiffIntegratedNs boundary : Int32, -2147483648 < errorNs.toInt →
      -2147483648 < syncDiffIntegratedNs.toInt →
      (errorNs.toInt + syncDiffIntegratedNs.toInt.tdiv 20).natAbs < 1073741824 →
      0 < boundary.toInt → OddAt errorNs syncDiffIntegratedNs boundary := by
  intro h
  have same := (h 600 (-10000) 500 (by decide) (by decide) (by decide) (by decide)).1
  revert same
  decide

/- The two callers. -/

def ppsControl (s : TimesyncState) (tsu : TsuState) (reads : TsuReads) : Option Int32 :=
  if ppsInPeriod s tsu && s.status = .fine && !ppsOutside reads &&
      !deadZone (ppsIntegrated s reads) 0 ppsCorrectionBoundary then
    some (freqAdj (ppsIntegrated s reads) 0)
  else none

theorem pps_programs (s : TimesyncState) (tsu : TsuState) (reads : TsuReads) :
    (ppsReceived s tsu reads).2.1 =
      match ppsControl s tsu reads with
      | some control => { tsu with fineTuneRegister := tsu.fineTuneRegister.correct control }
      | none => tsu := by
  cases period : ppsInPeriod s tsu with
  | false => simp [pps_early period, ppsControl, period]
  | true =>
    by_cases fine : s.status = .fine
    · rw [pps_fine period fine]
      cases outside : ppsOutside reads with
      | true =>
        simp only [ppsControl, outside, if_true]
        split <;> simp
      | false =>
        cases early : deadZone (ppsIntegrated s reads) 0 ppsCorrectionBoundary <;>
          simp [ppsControl, period, fine, outside, early, tsuClockFineTune]
    · simp [pps_idle period fine, ppsControl, fine]

/-- What the local clock is ahead of the pulse by, at most half a second. -/
structure LocalOffset (nanosec : UInt32) (x : Int) : Prop where
  low : -500000000 < x
  high : x ≤ 500000000
  congruent : ((nanosec.toNat : Int) - ppsLatencyCorrectionNs.toNat - x) % 1000000000 = 0

theorem ppsDiffNs_offset {nanosec : UInt32} (normal : nanosec.toNat < 1000000000) {x : Int}
    (offset : LocalOffset nanosec x) : (ppsDiffNs nanosec).toInt = x := by
  obtain ⟨low, high, congruent⟩ := offset
  have latency : ppsLatencyCorrectionNs.toNat = 1200 := by decide
  have half : (500000000 : Int32).toInt = 500000000 := by decide
  have second : (1000000000 : Int32).toInt = 1000000000 := by decide
  have difference : (nanosec - ppsLatencyCorrectionNs).toInt32.toInt =
      (nanosec.toNat : Int) - 1200 := by
    have word := UInt32.toNat_sub nanosec ppsLatencyCorrectionNs
    have signed := BitVec.toInt_eq_toNat_cond (nanosec - ppsLatencyCorrectionNs).toBitVec
    rw [UInt32.toNat_toBitVec] at signed
    rw [← Int32.toInt_toBitVec, UInt32.toBitVec_toInt32]
    split at signed <;> omega
  rw [latency] at congruent
  simp only [ppsDiffNs, gt_iff_lt, Int32.lt_iff_toInt_lt, half, difference]
  split
  · rw [sub32 (by rw [difference, second]; unfold Fits32; omega), difference, second]
    omega
  · rw [difference]
    omega

theorem ppsInside_iff (reads : TsuReads) :
    ppsOutside reads = false ↔ (ppsDiffNs (tsuGetTime reads).nanosec).toInt.natAbs ≤ 10000 := by
  have upper : syncDiffBoundaryNs.toInt = 10000 := by decide
  have lower : (-syncDiffBoundaryNs).toInt = -10000 := by decide
  simp only [ppsOutside, Bool.or_eq_false_iff, decide_eq_false_iff_not, gt_iff_lt,
    Int32.lt_iff_toInt_lt, upper, lower]
  omega

/-- On the values it meets the filter of the code is the low pass. -/
theorem ppsIntegrated_lowPass {s : TimesyncState} {reads : TsuReads}
    (bounded : s.syncDiffIntegratedNs.toInt.natAbs ≤ 10000)
    (inside : (ppsDiffNs (tsuGetTime reads).nanosec).toInt.natAbs ≤ 10000) :
    (ppsIntegrated s reads).toInt =
      lowPass 10 s.syncDiffIntegratedNs.toInt (ppsDiffNs (tsuGetTime reads).nanosec).toInt := by
  have ten : (10 : Int32).toInt = (10 : Nat) := by decide
  rw [ppsIntegrated, lowPass]
  generalize s.syncDiffIntegratedNs = mean at bounded ⊢
  generalize ppsDiffNs (tsuGetTime reads).nanosec = diff at inside ⊢
  have fraction := tdiv_mem 10 (mean.toInt - diff.toInt)
  have difference : (mean - diff).toInt = mean.toInt - diff.toInt :=
    sub32 (by unfold Fits32; omega)
  have correction : ((mean - diff) / 10).toInt = (mean.toInt - diff.toInt).tdiv (10 : Nat) := by
    rw [div32 (by decide), difference, ten]
  rw [sub32 (by rw [correction]; unfold Fits32; omega), correction]

/-- A pulse that programs an adjustment takes the clock back to the pulse. -/
def PulseSteers (s : TimesyncState) (tsu : TsuState) (reads : TsuReads) (x : Int) : Prop :=
  let adjustment := (ppsReceived s tsu reads).2.1.fineTuneRegister
  ppsControl s tsu reads ≠ none → adjustment.nanosec ≠ 0 →
    (0 < x → adjustment.direction = adjustSubtract) ∧ (x < 0 → adjustment.direction = adjustAdd)

/-- A report that computes a correction adds exactly when the reference is ahead, by the
difference and a twentieth of its integral. -/
def ReportSteers (d : Device) (r : Report) : Prop :=
  ∀ syncedTime sysTs : PtpTimestamp, syncedTime.Normalised → sysTs.Normalised →
    r.diffTs = ptpTimeSub syncedTime sysTs → r.diffTs.seconds = 0 → returnsEarly d r = false →
    ((tuned d r).fineTuneRegister.direction = adjustAdd ↔
      0 < syncedTime.total - sysTs.total + (integrated d r).toInt.tdiv 20)

theorem correct_direction (a : TsuAdjustment) (control : Int32) :
    (a.correct control).direction = adjustAdd ↔ 0 < control.toInt := by
  have zero : (0 : Int32).toInt = 0 := by decide
  have subtract : adjustSubtract ≠ adjustAdd := by decide
  simp only [TsuAdjustment.correct, gt_iff_lt, Int32.lt_iff_toInt_lt, zero]
  split <;> simp_all

theorem report_steers (d : Device) (r : Report) : ReportSteers d r := by
  intro syncedTime sysTs synced sys diff fine correcting
  have control := freqAdj_normalised d ⟨syncedTime, sysTs, synced, sys, diff⟩
  have level : syncedTime.seconds = sysTs.seconds := by
    rw [← ptpTimeSub_seconds_zero, ← diff, fine]
  have difference : r.diffTs.nanosec.toInt = syncedTime.total - sysTs.total := by
    rw [diff, ptpTimeSub_nanosec synced sys]
    simp only [PtpTimestamp.total, PtpTimestamp.parts, Parts.total, level]
    omega
  rw [tuned_correcting correcting, correct_direction, control, difference]

section
variable {s : TimesyncState} {clock : ClockReading} {x : Int} (fresh : s.syncDiffIntegratedNs = 0)
  (offset : LocalOffset (tsuGetTime clock.reads).nanosec x) (near : x.natAbs ≤ 10000)
include offset near

theorem pulse_inside : ppsOutside clock.reads = false := by
  rw [ppsInside_iff, ppsDiffNs_offset (tsuGetTime_nanosec_lt clock.normal) offset]
  exact near

include fresh

/-- The filter takes over a tenth of the first difference, and keeps its sign. -/
theorem pulse_mean : (ppsIntegrated s clock.reads).toInt = x.tdiv 10 := by
  have zero : (0 : Int32).toInt = 0 := by decide
  have inside := (ppsInside_iff clock.reads).mp (pulse_inside offset near)
  rw [ppsIntegrated_lowPass (by rw [fresh]; decide) inside, fresh, zero,
    ppsDiffNs_offset (tsuGetTime_nanosec_lt clock.normal) offset]
  simp [lowPass, Int.neg_tdiv]

theorem pulse_freqAdj : (freqAdj (ppsIntegrated s clock.reads) 0).toInt = x.tdiv 10 := by
  have mean := pulse_mean fresh offset near
  have zero : (0 : Int32).toInt.tdiv 20 = 0 := by decide
  have fraction := tdiv_cases x 10
  rw [freqAdj_toInt (by rw [mean, zero]; unfold Fits32; omega), mean, zero, Int.add_zero]

theorem pulse_deadZone :
    deadZone (ppsIntegrated s clock.reads) 0 ppsCorrectionBoundary = true ↔ x.natAbs < 500 := by
  have mean := pulse_mean fresh offset near
  have zero : (0 : Int32).toInt.tdiv 20 = 0 := by decide
  have boundary : ppsCorrectionBoundary.toInt = 50 := by decide
  have fraction := tdiv_cases x 10
  rw [deadZone_iff (by rw [mean, zero]; omega) (by decide), mean, zero, boundary]
  omega

variable (fine : s.status = .fine)
include fine

theorem pulse_control (tsu : TsuState) :
    ppsControl s tsu clock.reads =
      if x.natAbs < 500 ∨ ppsInPeriod s tsu = false then none
      else some (freqAdj (ppsIntegrated s clock.reads) 0) := by
  have inside := pulse_inside offset near
  have quiet := pulse_deadZone fresh offset near
  rw [ppsControl, inside, fine]
  cases period : ppsInPeriod s tsu with
  | false => simp
  | true =>
    cases early : deadZone (ppsIntegrated s clock.reads) 0 ppsCorrectionBoundary with
    | true => simp [quiet.mp early]
    | false =>
      have far : ¬ x.natAbs < 500 := by
        rw [← quiet, early]
        exact Bool.false_ne_true
      simp [far]

/-- Reports always steer towards the reference. A pulse hands over the difference with
local and reference the other way round, so it does only when it programs nothing. -/
theorem both_steer_iff (tsu : TsuState) :
    (PulseSteers s tsu clock.reads x ∧ ∀ d r, ReportSteers d r) ↔
      x.natAbs < 500 ∨ ppsInPeriod s tsu = false := by
  have control := pulse_control fresh offset near fine tsu
  constructor
  · rintro ⟨pulse, -⟩
    by_cases idle : x.natAbs < 500 ∨ ppsInPeriod s tsu = false
    · exact idle
    rw [if_neg idle] at control
    have mean := pulse_freqAdj fresh offset near
    have fraction := tdiv_cases x 10
    have programmed := pps_programs s tsu clock.reads
    simp only [control] at programmed
    simp only [PulseSteers, control, programmed, ne_eq, reduceCtorEq, not_false_eq_true,
      true_imp_iff, correct_direction, mean, ← adjustmentStep_zero_iff] at pulse
    rw [adjustmentStep_correct _ (by rw [mean]; omega), mean] at pulse
    obtain ⟨ahead, behind⟩ := pulse (by omega)
    by_cases positive : 0 < x
    · have direction := (correct_direction tsu.fineTuneRegister _).mpr
        (by rw [mean]; omega : 0 < (freqAdj (ppsIntegrated s clock.reads) 0).toInt)
      rw [ahead positive] at direction
      exact absurd direction (by decide)
    · have forwards := behind (by omega)
      omega
  · intro idle
    rw [if_pos idle] at control
    exact ⟨fun programs => absurd control programs, report_steers⟩

end

def fineState : TimesyncState := { TimesyncState.init with status := .fine }

def pulseState : TsuState := { TsuState.init with sUptimeMs := 1000 }

def nearClock : ClockReading := ⟨⟨2000, 1300, 2000⟩, by decide⟩

theorem near_steers :
    PulseSteers fineState pulseState nearClock.reads 100 ∧ ∀ d r, ReportSteers d r :=
  (both_steer_iff rfl ⟨by decide, by decide, by decide⟩ (by decide) rfl pulseState).mpr
    (.inl (by decide))

def aheadClock : ClockReading := ⟨⟨1000, 6200, 1000⟩, by decide⟩

theorem ahead_offset : LocalOffset (tsuGetTime aheadClock.reads).nanosec 5000 :=
  ⟨by decide, by decide, by decide⟩

/-- A clock that is 5 us ahead is told to run 500 ns forwards. -/
theorem ahead_sent_forwards :
    ¬ ∀ (s : TimesyncState) (tsu : TsuState) (clock : ClockReading) (x : Int),
      s.status = .fine → s.syncDiffIntegratedNs = 0 →
      LocalOffset (tsuGetTime clock.reads).nanosec x → x.natAbs ≤ 10000 →
      PulseSteers s tsu clock.reads x ∧ ∀ d r, ReportSteers d r := by
  intro h
  have pulse := (h fineState pulseState aheadClock 5000 rfl rfl ahead_offset (by decide)).1
  have direction := (pulse (by decide) (by decide)).1 (by decide)
  revert direction
  decide

end StandalonePtp
