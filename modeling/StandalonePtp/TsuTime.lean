import StandalonePtp.Words

/-! The time stamp unit of tsu_time.c: its three registers, the adjustment word and the
fine tuning that decides what the next word is. -/
namespace StandalonePtp

inductive TsuRegister where
  | tsuTimerSecGem0
  | tsuTimerNsGem0
  | tsuTimerAdjust
  deriving DecidableEq, Repr

structure XilOut32 where
  register : TsuRegister
  value : UInt32
  deriving DecidableEq, Repr

structure TsuTimestamp where
  seconds : UInt64
  nanosec : UInt32
  deriving DecidableEq, Repr

/-- The fields of the adjustment union, from the least significant bit up. -/
structure TsuAdjustment where
  nanosec : BitVec 30
  reserved : BitVec 1
  direction : BitVec 1
  deriving DecidableEq, Repr

def TsuAdjustment.word (a : TsuAdjustment) : UInt32 :=
  ⟨a.direction ++ a.reserved ++ a.nanosec⟩

def adjustAdd : BitVec 1 := 0

def adjustSubtract : BitVec 1 := 1

structure TsuState where
  fineTuneRegister : TsuAdjustment
  sUptimeMs : UInt32
  deriving DecidableEq, Repr

def TsuState.init : TsuState := ⟨⟨0, 0, 0⟩, 0⟩

def freqAdj (errorNs syncDiffIntegratedNs : Int32) : Int32 :=
  errorNs + syncDiffIntegratedNs / 20

def deadZone (errorNs syncDiffIntegratedNs boundary : Int32) : Bool :=
  (freqAdj errorNs syncDiffIntegratedNs).abs < boundary && errorNs > -boundary

theorem freqAdj_toInt {errorNs syncDiffIntegratedNs : Int32}
    (fits : Words.Fits32 (errorNs.toInt + syncDiffIntegratedNs.toInt.tdiv 20)) :
    (freqAdj errorNs syncDiffIntegratedNs).toInt =
      errorNs.toInt + syncDiffIntegratedNs.toInt.tdiv 20 := by
  have fraction : (syncDiffIntegratedNs / 20).toInt = syncDiffIntegratedNs.toInt.tdiv 20 :=
    Words.div32 (by decide)
  rw [freqAdj, Words.add32 (by rw [fraction]; exact fits), fraction]

/-- The early return compares the control value on both sides, but the error on one. -/
theorem deadZone_iff {errorNs syncDiffIntegratedNs boundary : Int32}
    (fits : (errorNs.toInt + syncDiffIntegratedNs.toInt.tdiv 20).natAbs < 2147483648)
    (positive : 0 < boundary.toInt) :
    deadZone errorNs syncDiffIntegratedNs boundary = true ↔
      ((errorNs.toInt + syncDiffIntegratedNs.toInt.tdiv 20).natAbs : Int) < boundary.toInt ∧
        -boundary.toInt < errorNs.toInt := by
  have control : (freqAdj errorNs syncDiffIntegratedNs).toInt = _ :=
    freqAdj_toInt (by unfold Words.Fits32; omega)
  have magnitude : (freqAdj errorNs syncDiffIntegratedNs).abs.toInt = _ :=
    Words.abs32 (by omega)
  have small := boundary.toInt_lt
  have negated : (-boundary).toInt = -boundary.toInt :=
    Words.neg32 (by unfold Words.Fits32; omega)
  simp only [deadZone, Bool.and_eq_true, decide_eq_true_eq, gt_iff_lt, Int32.lt_iff_toInt_lt,
    magnitude, control, negated]

/-- The register fields of a correction; the magnitude is cut to 30 bits. -/
def TsuAdjustment.correct (a : TsuAdjustment) (freqAdj : Int32) : TsuAdjustment :=
  { a with
    direction := if freqAdj > 0 then adjustAdd else adjustSubtract
    nanosec := freqAdj.abs.toBitVec.setWidth 30 }

/-- The signed step in nanoseconds that an adjustment word asks the hardware for. -/
def adjustmentStep (word : UInt32) : Int :=
  if word.toNat < 2147483648 then (word.toNat % 1073741824 : Nat)
  else -(word.toNat % 1073741824 : Nat)

theorem word_toNat (a : TsuAdjustment) :
    a.word.toNat = a.direction.toNat * 2147483648 + a.reserved.toNat * 1073741824 +
      a.nanosec.toNat := by
  have low := a.nanosec.isLt
  have middle := a.reserved.isLt
  change (a.direction ++ a.reserved ++ a.nanosec).toNat = _
  rw [BitVec.toNat_append, BitVec.toNat_append, ← Nat.shiftLeft_add_eq_or_of_lt low,
    ← Nat.shiftLeft_add_eq_or_of_lt middle, Nat.shiftLeft_eq, Nat.shiftLeft_eq]
  omega

theorem adjustmentStep_word (a : TsuAdjustment) :
    adjustmentStep a.word = if a.direction = adjustAdd then (a.nanosec.toNat : Int)
      else -(a.nanosec.toNat : Int) := by
  have word := word_toNat a
  have low := a.nanosec.isLt
  have middle := a.reserved.isLt
  have high := a.direction.isLt
  have add : a.direction = adjustAdd ↔ a.direction.toNat = 0 := by
    rw [← BitVec.toNat_inj]
    rfl
  have rest : a.word.toNat % 1073741824 = a.nanosec.toNat := by omega
  simp only [adjustmentStep, rest, add]
  split <;> split <;> omega

theorem adjustmentStep_zero_iff (a : TsuAdjustment) :
    adjustmentStep a.word = 0 ↔ a.nanosec = 0 := by
  have zero : a.nanosec = 0 ↔ a.nanosec.toNat = 0 := by
    rw [← BitVec.toNat_inj]
    rfl
  rw [adjustmentStep_word, zero]
  split <;> omega

theorem adjustmentStep_correct (a : TsuAdjustment) {u : Int32}
    (fits : u.toInt.natAbs < 1073741824) : adjustmentStep (a.correct u).word = u.toInt := by
  have magnitude : (u.abs.toBitVec.setWidth 30).toNat = u.toInt.natAbs := by
    have exact : u.abs.toInt = u.toInt.natAbs := Words.abs32 (by omega)
    have same := BitVec.toInt_eq_toNat_cond u.abs.toBitVec
    have small := u.abs.toBitVec.isLt
    rw [Int32.toInt_toBitVec] at same
    rw [BitVec.toNat_setWidth]
    split at same <;> omega
  have zero : (0 : Int32).toInt = 0 := by decide
  rw [adjustmentStep_word]
  simp only [TsuAdjustment.correct, gt_iff_lt, Int32.lt_iff_toInt_lt, zero, magnitude]
  by_cases positive : 0 < u.toInt
  · simp only [positive, if_true]
    omega
  · have subtract : adjustSubtract ≠ adjustAdd := by decide
    simp only [positive, if_false, subtract]
    omega

theorem adjustmentStep_natAbs_lt (word : UInt32) : (adjustmentStep word).natAbs < 1073741824 := by
  unfold adjustmentStep
  split <;> omega

theorem adjustmentStep_correct_iff (a : TsuAdjustment) (u : Int32) :
    adjustmentStep (a.correct u).word = u.toInt ↔ u.toInt.natAbs < 1073741824 := by
  constructor
  · intro faithful
    rw [← faithful]
    exact adjustmentStep_natAbs_lt _
  · exact adjustmentStep_correct a

def tsuClockFineTune (tsu : TsuState) (errorNs syncDiffIntegratedNs boundary : Int32) : TsuState :=
  if deadZone errorNs syncDiffIntegratedNs boundary then tsu
  else { tsu with
    fineTuneRegister := tsu.fineTuneRegister.correct (freqAdj errorNs syncDiffIntegratedNs) }

def tsuDriverAdjustTime (adjust : TsuAdjustment) : List XilOut32 :=
  [⟨.tsuTimerAdjust, adjust.word⟩]

def tsuSystickCb (tsu : TsuState) : TsuState × List XilOut32 :=
  ({ tsu with sUptimeMs := tsu.sUptimeMs + 1 }, tsuDriverAdjustTime tsu.fineTuneRegister)

/-- What the three register reads of one `tsu_get_time` answer. -/
structure TsuReads where
  firstSec : UInt32
  nsec : UInt32
  secondSec : UInt32
  deriving DecidableEq, Repr

def tsuGetTime (reads : TsuReads) : TsuTimestamp :=
  let nsec := if reads.firstSec ≠ reads.secondSec then 0 else reads.nsec
  ⟨reads.secondSec.toUInt64, nsec⟩

def tsuSetTime (ts : TsuTimestamp) : List XilOut32 :=
  [⟨.tsuTimerNsGem0, ts.nanosec⟩, ⟨.tsuTimerSecGem0, ts.seconds.toUInt32⟩]

theorem tsuGetTime_steady {reads : TsuReads} (h : reads.firstSec = reads.secondSec) :
    tsuGetTime reads = ⟨reads.secondSec.toUInt64, reads.nsec⟩ := by
  simp [tsuGetTime, h]

theorem tsuGetTime_rolled {reads : TsuReads} (h : reads.firstSec ≠ reads.secondSec) :
    tsuGetTime reads = ⟨reads.secondSec.toUInt64, 0⟩ := by
  simp [tsuGetTime, h]

theorem tsuGetTime_nanosec_lt {reads : TsuReads} (h : reads.nsec.toNat < 1000000000) :
    (tsuGetTime reads).nanosec.toNat < 1000000000 := by
  unfold tsuGetTime
  split <;> simp_all

end StandalonePtp
