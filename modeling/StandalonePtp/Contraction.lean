import StandalonePtp.Lock

/-! The fine discipline when every report computes a correction: the error is what is left
of a twentieth of the integral, and both shrink. -/
namespace StandalonePtp

open Run Words

namespace Loop

def integral (l : Loop) : Int := l.device.syncDiffIntegratedNs.toInt

def Correcting (l : Loop) (c : Context) : Prop := returnsEarly l.device (l.report c) = false

instance (l : Loop) (c : Context) : Decidable (l.Correcting c) :=
  inferInstanceAs (Decidable (_ = _))

theorem correcting_fresh {l : Loop} {c : Context} (correcting : l.Correcting c) :
    l.FreshReport c := by
  intro early
  rw [correcting] at early
  contradiction

theorem not_quiet {l : Loop} (h : l.Tracked) {c : Context} (correcting : l.Correcting c) :
    ¬ Servo.Quiet gains l.servo := by
  rw [← returnsEarly_iff_quiet h c, correcting]
  decide

/-- The report does its arithmetic without overflow, and the clock takes the computed step. -/
structure ExactStep (l : Loop) (c : Context) : Prop where
  error : (l.report c).diffTs.nanosec.toInt = l.error
  integral : (l.next c).1.integral = l.integral + l.error
  control : (freqAdj (l.report c).diffTs.nanosec (integrated l.device (l.report c))).toInt =
    l.error + (l.integral + l.error).tdiv 20
  field : (l.error + (l.integral + l.error).tdiv 20).natAbs < 1073741824
  step : (l.next c).1.error = l.error - (l.error + (l.integral + l.error).tdiv 20)

theorem correcting_exact {l : Loop} (h : l.Tracked) {c : Context} (correcting : l.Correcting c) :
    l.ExactStep c := by
  have next := servo_next h c
  rw [Servo.next, if_neg (not_quiet h correcting)] at next
  exact ⟨report_nanosec h c, congrArg Servo.State.integral next, freqAdj_control h c,
    Nat.lt_of_le_of_lt (control_bound h) (by decide), congrArg Servo.State.error next⟩

def Settling (error : Int) (l : Loop) : Prop := l.Tracked ∧ Servo.Settling gains error l.servo

theorem next_settling {error : Int} (l : Loop) (c : Context) (h : Settling error l)
    (correcting : l.Correcting c) : Settling error (l.next c).1 := by
  refine ⟨next_tracked l c h.1 (correcting_fresh correcting), ?_⟩
  rw [servo_next h.1]
  exact (Servo.settling_next gains h.2 (not_quiet h.1 correcting)).1

theorem first_settling {error : Int} (small : error.natAbs < 1000000000) {c : Context}
    (correcting : (start error).Correcting c) : Settling error ((start error).next c).1 := by
  have tracked := start_tracked small
  refine ⟨next_tracked _ c tracked (correcting_fresh correcting), ?_⟩
  rw [servo_next tracked]
  exact Servo.settling_first gains (not_quiet tracked correcting)

/-- What a report leaves behind of the error that the loop started with. -/
structure Contracts (error : Int) (l : Loop) (c : Context) : Prop where
  sign : Servo.SameSign error (l.next c).1.integral
  size : (l.next c).1.integral.natAbs ≤ error.natAbs
  twentieth : 20 * (l.next c).1.error.natAbs ≤ error.natAbs
  smaller : (l.next c).1.error.natAbs ≤ l.error.natAbs
  exact : l.ExactStep c

theorem contracts_of_settling {error : Int} {l : Loop} {c : Context} (h : l.Tracked)
    (correcting : l.Correcting c) (settling : Settling error (l.next c).1)
    (smaller : (l.next c).1.error.natAbs ≤ l.error.natAbs) : l.Contracts error c :=
  ⟨settling.2.sign, settling.2.size, Servo.settling_error gains settling.2, smaller,
    correcting_exact h correcting⟩

theorem first_contracts {error : Int} (small : error.natAbs < 1000000000) {c : Context}
    (correcting : (start error).Correcting c) : (start error).Contracts error c := by
  have settling := first_settling small correcting
  have twentieth : 20 * ((start error).next c).1.error.natAbs ≤ error.natAbs :=
    Servo.settling_error gains settling.2
  have smaller : ((start error).next c).1.error.natAbs ≤ error.natAbs := by omega
  exact contracts_of_settling (start_tracked small) correcting settling smaller

theorem next_contracts {error : Int} {l : Loop} {c : Context} (h : Settling error l)
    (correcting : l.Correcting c) :
    l.Contracts error c ∧ (l.next c).1.integral.natAbs ≤ l.integral.natAbs := by
  have smaller := Servo.remainder_error_le gains h.2.error (not_quiet h.1 correcting)
  have shrunk := (Servo.settling_next gains h.2 (not_quiet h.1 correcting)).2
  rw [← servo_next h.1 c] at smaller shrunk
  exact ⟨contracts_of_settling h.1 correcting (next_settling l c h correcting) smaller, shrunk⟩

end Loop

/-- As long as every report computes a correction, the loop contracts with each of them, and
from the second on the integral does. -/
theorem servo_contracts {error : Int} (small : error.natAbs < 1000000000) (cs : List Context)
    (correcting : Along Loop.next Loop.Correcting (.start error) cs) :
    ∀ before c later, cs = before ++ c :: later →
      (after Loop.next (.start error) before).Contracts error c ∧
        (before ≠ [] → ((after Loop.next (.start error) before).next c).1.integral.natAbs ≤
          (after Loop.next (.start error) before).integral.natAbs) := by
  rintro before c later rfl
  obtain ⟨earlier, now, -⟩ := (along_append _ _ before (c :: later) _).mp correcting
  cases before with
  | nil => exact ⟨Loop.first_contracts small now, fun empty => absurd rfl empty⟩
  | cons b rest =>
    have settling := after_along Loop.next Loop.Correcting (Loop.Settling error)
      Loop.next_settling (Loop.first_settling small earlier.1) rest earlier.2
    obtain ⟨contracts, shrunk⟩ := Loop.next_contracts settling now
    exact ⟨contracts, fun _ => shrunk⟩

/-- The error of 999999999 ns is cut to less than a twentieth at once. -/
theorem servo_contracts_example :
    (after Loop.next (.start 999999999) [anyContext]).Contracts 999999999 anyContext ∧
      ((after Loop.next (.start 999999999) [anyContext]).next anyContext).1.integral.natAbs ≤
        (after Loop.next (.start 999999999) [anyContext]).integral.natAbs := by
  have small : (999999999 : Int).natAbs < 1000000000 := by decide
  obtain ⟨contracts, shrunk⟩ := servo_contracts small [anyContext, anyContext]
    ⟨by decide, by decide, trivial⟩ [anyContext] anyContext [] rfl
  exact ⟨contracts, shrunk (by decide)⟩

/-- The first report takes the integral from zero to the error. -/
theorem integral_grows_first :
    ¬ ∀ (error : Int) (cs : List Context), error.natAbs < 1000000000 →
      Along Loop.next Loop.Correcting (.start error) cs →
      ∀ before c later, cs = before ++ c :: later →
        ((after Loop.next (.start error) before).next c).1.integral.natAbs ≤
          (after Loop.next (.start error) before).integral.natAbs := by
  intro h
  have shrunk := h 1000 [anyContext] (by decide) ⟨by decide, trivial⟩ [] anyContext [] rfl
  revert shrunk
  decide

end StandalonePtp
