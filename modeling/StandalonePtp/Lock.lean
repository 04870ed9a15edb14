import Mathlib.Algebra.Ring.Int.Defs
import StandalonePtp.Discipline
import StandalonePtp.Servo

/-! The fine discipline in a loop with the clock it adjusts: the clock does not drift
and takes every adjustment word once, as a signed step. -/
namespace StandalonePtp

open Run Words

structure Context where
  syncTs : PtpTimestamp
  reads : TsuReads

/-- The device and the error of its clock, reference minus local. -/
structure Loop where
  device : Device
  error : Int

namespace Loop

def start (error : Int) : Loop := ⟨.init, error⟩

def report (l : Loop) (c : Context) : Report :=
  ⟨c.syncTs, ⟨0, Int32.ofInt l.error⟩, c.reads⟩

def appliedStep (writes : List XilOut32) : Int :=
  (writes.map (fun w => if w.register = .tsuTimerAdjust then adjustmentStep w.value else 0)).sum

def next (l : Loop) (c : Context) : Loop × List XilOut32 :=
  let handled := processReport l.device (l.report c)
  (⟨handled.1, l.error - appliedStep handled.2⟩, handled.2)

def Locked (l : Loop) : Prop := l.error.natAbs < ptpMaxErrNs.toInt

instance (l : Loop) : Decidable l.Locked := inferInstanceAs (Decidable (_ < _))

/-- An early return of the fine tuning finds no adjustment in the register. -/
def FreshReport (l : Loop) (c : Context) : Prop :=
  returnsEarly l.device (l.report c) = true → l.device.tsu.fineTuneRegister.nanosec = 0

instance (l : Loop) (c : Context) : Decidable (l.FreshReport c) :=
  inferInstanceAs (Decidable (_ → _))

/- The loop over machine words refines the servo over integers. -/

def gains : Servo.Gains := ⟨20, 500, by decide, by decide⟩

def bound : Nat := 999999999

def servo (l : Loop) : Servo.State :=
  ⟨l.error, l.device.syncDiffIntegratedNs.toInt,
    adjustmentStep l.device.tsu.fineTuneRegister.word⟩

def Tracked (l : Loop) : Prop := Servo.Invariant gains bound l.servo

theorem report_nanosec {l : Loop} (h : l.Tracked) (c : Context) :
    (l.report c).diffTs.nanosec.toInt = l.error := by
  have size : l.error.natAbs ≤ 999999999 := h.error
  simp only [report, Int32.toInt_ofInt]
  exact bmod32 (by unfold Fits32; omega)

theorem integrated_sum {l : Loop} (h : l.Tracked) (c : Context) :
    (integrated l.device (l.report c)).toInt = Servo.sum l.servo := by
  have size : (Servo.sum l.servo).natAbs ≤ 999999999 := h.sum
  have nanosec := report_nanosec h c
  have sum : Servo.sum l.servo = l.device.syncDiffIntegratedNs.toInt + l.error := rfl
  rw [integrated, add32, nanosec, sum]
  unfold Fits32
  omega

theorem control_bound {l : Loop} (h : l.Tracked) :
    (Servo.control gains l.servo).natAbs ≤ 1049999998 := Servo.control_natAbs gains h

theorem report_control {l : Loop} (h : l.Tracked) (c : Context) :
    (l.report c).diffTs.nanosec.toInt + (integrated l.device (l.report c)).toInt.tdiv 20 =
      Servo.control gains l.servo := by
  rw [report_nanosec h, integrated_sum h]
  rfl

theorem freqAdj_control {l : Loop} (h : l.Tracked) (c : Context) :
    (freqAdj (l.report c).diffTs.nanosec (integrated l.device (l.report c))).toInt =
      Servo.control gains l.servo := by
  have size := control_bound h
  have control := report_control h c
  rw [freqAdj_toInt (by rw [control]; unfold Fits32; omega), control]

theorem returnsEarly_iff_quiet {l : Loop} (h : l.Tracked) (c : Context) :
    returnsEarly l.device (l.report c) = true ↔ Servo.Quiet gains l.servo := by
  have size := control_bound h
  have control := report_control h c
  have boundary : ptpMaxErrNs.toInt = 500 := by decide
  rw [returnsEarly, deadZone_iff (by rw [control]; omega) (by decide), control, report_nanosec h,
    boundary]
  exact and_congr Int.ofNat_lt Iff.rfl

theorem fresh_iff {l : Loop} (h : l.Tracked) (c : Context) :
    l.FreshReport c ↔ Servo.Fresh gains l.servo := by
  rw [FreshReport, returnsEarly_iff_quiet h, ← adjustmentStep_zero_iff]
  rfl

theorem servo_written {l : Loop} (h : l.Tracked) (c : Context) :
    (l.next c).1.servo =
      ⟨l.error - adjustmentStep (tuned l.device (l.report c)).fineTuneRegister.word,
        Servo.sum l.servo,
        adjustmentStep (tuned l.device (l.report c)).fineTuneRegister.word⟩ := by
  have written : processReport l.device (l.report c) = _ := processReport_fine rfl l.device
  rw [← integrated_sum h c]
  simp [next, written, servo, appliedStep, tsuSystickCb]

theorem servo_next {l : Loop} (h : l.Tracked) (c : Context) :
    (l.next c).1.servo = Servo.next gains l.servo := by
  rw [servo_written h]
  cases early : returnsEarly l.device (l.report c) with
  | true =>
    have quiet := (returnsEarly_iff_quiet h c).mp early
    rw [tuned_early early, Servo.next, if_pos quiet]
    rfl
  | false =>
    have correcting : ¬ Servo.Quiet gains l.servo := by
      rw [← returnsEarly_iff_quiet h c, early]
      decide
    have size := control_bound h
    have control := freqAdj_control h c
    rw [tuned_correcting early, Servo.next, if_neg correcting,
      adjustmentStep_correct _ (by rw [control]; omega), control]
    rfl

theorem start_servo (error : Int) : (start error).servo = ⟨error, 0, 0⟩ := by
  have integral : Device.init.syncDiffIntegratedNs.toInt = 0 := by decide
  have held : adjustmentStep Device.init.tsu.fineTuneRegister.word = 0 := by decide
  rw [servo, start, integral, held]

theorem start_tracked {error : Int} (h : error.natAbs < 1000000000) : (start error).Tracked := by
  rw [Tracked, start_servo]
  exact Servo.initial_invariant gains (Nat.le_of_lt_succ h)

theorem next_tracked (l : Loop) (c : Context) (h : l.Tracked) (fresh : l.FreshReport c) :
    (l.next c).1.Tracked := by
  have room : (gains.divisor + 1) * gains.boundary ≤ bound := by decide
  rw [Tracked, servo_next h]
  exact Servo.next_invariant gains room h ((fresh_iff h c).mp fresh)

theorem servo_after (contexts : List Context) {l : Loop} (h : l.Tracked)
    (fresh : Along next FreshReport l contexts) :
    (after next l contexts).Tracked ∧
      (after next l contexts).servo = (Servo.next gains)^[contexts.length] l.servo := by
  induction contexts generalizing l with
  | nil => exact ⟨h, rfl⟩
  | cons c rest ih =>
    obtain ⟨tracked, moved⟩ := ih (next_tracked l c h fresh.1) fresh.2
    rw [servo_next h] at moved
    exact ⟨tracked, moved⟩

theorem next_locked (l : Loop) (c : Context) (h : l.Tracked) (fresh : l.FreshReport c)
    (locked : l.Locked) : (l.next c).1.Locked := by
  have small : l.servo.error.natAbs < gains.boundary := Int.ofNat_lt.mp locked
  have kept := Servo.next_locked gains h ((fresh_iff h c).mp fresh) small
  rw [← servo_next h c] at kept
  exact Int.ofNat_lt.mpr kept

theorem along_succ {error : Int} (h : error.natAbs < 1000000000) (contexts : Nat → Context)
    (n : Nat) :
    Along next FreshReport (start error) ((List.range (n + 1)).map contexts) ↔
      Along next FreshReport (start error) ((List.range n).map contexts) ∧
        Servo.Fresh gains ((Servo.next gains)^[n] ⟨error, 0, 0⟩) := by
  rw [List.range_succ, List.map_append, along_append]
  refine and_congr_right (fun fresh => ?_)
  obtain ⟨tracked, servo⟩ := servo_after _ (start_tracked h) fresh
  rw [start_servo, List.length_map, List.length_range] at servo
  rw [← servo, ← fresh_iff tracked (contexts n)]
  exact and_iff_left trivial

end Loop

/-- Lock is kept in every run in which no early return writes an adjustment again. -/
theorem lock_kept {error : Int} (h : error.natAbs < 1000000000) (earlier later : List Context)
    (fresh : Along Loop.next Loop.FreshReport (.start error) (earlier ++ later))
    (locked : (after Loop.next (.start error) earlier).Locked) :
    (after Loop.next (.start error) (earlier ++ later)).Locked := by
  rw [along_append] at fresh
  have tracked := after_along Loop.next Loop.FreshReport Loop.Tracked Loop.next_tracked
    (Loop.start_tracked h) earlier fresh.1
  rw [after_append]
  exact (after_along Loop.next Loop.FreshReport (fun l => l.Tracked ∧ l.Locked)
    (fun l c h fresh => ⟨Loop.next_tracked l c h.1 fresh, Loop.next_locked l c h.1 fresh h.2⟩)
    ⟨tracked, locked⟩ later fresh.2).2

def anyContext : Context := ⟨⟨1000, 0⟩, ⟨1000, 0, 1000⟩⟩

theorem lock_kept_twice :
    (after Loop.next (.start 470) ([anyContext] ++ [anyContext])).Locked :=
  lock_kept (by decide) [anyContext] [anyContext]
    ⟨by decide, by decide, trivial⟩ (by decide)

/-- If the reports never stop, only a clock without any error meets no early return with an
adjustment in the register. -/
theorem never_repeats_iff {error : Int} (h : error.natAbs < 1000000000) (contexts : Nat → Context) :
    (∀ n, Along Loop.next Loop.FreshReport (.start error) ((List.range n).map contexts)) ↔
      error = 0 := by
  rw [← Servo.fresh_forever_iff Loop.gains]
  constructor
  · intro fresh n
    exact ((Loop.along_succ h contexts n).mp (fresh (n + 1))).2
  · intro fresh n
    induction n with
    | zero => trivial
    | succ n ih => exact (Loop.along_succ h contexts n).mpr ⟨ih, fresh n⟩

theorem never_repeats_example :
    ¬ ∀ n, Along Loop.next Loop.FreshReport (.start 499) ((List.range n).map (fun _ => anyContext)) :=
  fun fresh => absurd ((never_repeats_iff (by decide) (fun _ => anyContext)).mp fresh) (by decide)

/-- The correction of 499 ns is repeated in the dead zone and drives the clock out of it. -/
theorem lock_lost :
    ¬ ∀ (error : Int) (earlier later : List Context), error.natAbs < 1000000000 →
      (after Loop.next (.start error) earlier).Locked →
        (after Loop.next (.start error) (earlier ++ later)).Locked := by
  intro h
  have locked := h 499 [] [anyContext, anyContext] (by decide) (by decide)
  revert locked
  decide

end StandalonePtp
