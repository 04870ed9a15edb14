import StandalonePtp.PtpSync
import StandalonePtp.Timesync

/-! The clock discipline of ptp.c: a reported difference goes to the time service when
it has seconds, and to the fine tuning when it has not. -/
namespace StandalonePtp

def ptpMaxErrNs : Int32 := 500

/-- The calls that handling one report makes, with their arguments. None returns a value. -/
inductive Call where
  | coarseTimeReceived (timestamp : Int64) (nanoseconds : UInt32)
  | fineTimeReceived (timestamp : Int64) (nanoseconds : UInt32)
  | tsuClockFineTune (errorNs syncDiffIntegratedNs boundary : Int32)
  | tsuSystickCb
  | errorReport (errorNs avgErrorNs : Int32)
  deriving DecidableEq, Repr

structure TimesyncInitParam where
  coarseTimeReceived : Option (Int64 → UInt32 → Call)
  fineTimeReceived : Option (Int64 → UInt32 → Call)
  errorReport : Option (Int32 → Int32 → Call)

/-- The one parameter block of timesync.c registers all of them. -/
def initParam : TimesyncInitParam :=
  ⟨some .coarseTimeReceived, some .fineTimeReceived, some .errorReport⟩

/-- The static integrator goes in and out; the offset argument is not used. -/
def ptpProcessTimeDiff (initParams : TimesyncInitParam) (syncDiffIntegratedNs : Int32)
    (syncTs diffTs : PtpTimestamp) : Int32 × List Call :=
  if diffTs.seconds ≠ 0 then
    match initParams.coarseTimeReceived with
    | some coarse => (0, [coarse syncTs.seconds syncTs.nanosec.toUInt32])
    | none => (syncDiffIntegratedNs, [])
  else
    let integrated := syncDiffIntegratedNs + diffTs.nanosec
    (integrated,
      [.tsuClockFineTune diffTs.nanosec integrated ptpMaxErrNs, .tsuSystickCb] ++
      (match initParams.fineTimeReceived with
        | some fine => [fine 0 0]
        | none => []) ++
      (match initParams.errorReport with
        | some error => [error diffTs.nanosec integrated]
        | none => []))

def getSystime (reads : TsuReads) : PtpTimestamp :=
  let tsu := tsuGetTime reads
  ⟨tsu.seconds.toInt64, tsu.nanosec.toInt32⟩

/-- Register reads of a clock whose nanoseconds are below one second. -/
structure ClockReading where
  reads : TsuReads
  normal : reads.nsec.toNat < 1000000000

def ClockReading.systime (c : ClockReading) : PtpTimestamp := getSystime c.reads

theorem ClockReading.systime_seconds (c : ClockReading) :
    c.systime.seconds.toInt = c.reads.secondSec.toNat := by
  have small := c.reads.secondSec.toNat_lt
  simp only [systime, getSystime, tsuGetTime]
  rw [← Int64.toInt_toBitVec, UInt64.toBitVec_toInt64, BitVec.toInt_eq_toNat_of_lt]
  · simp
  · simp only [UInt64.toNat_toBitVec, UInt32.toNat_toUInt64]
    omega

theorem ClockReading.systime_nanosec (c : ClockReading) :
    c.systime.nanosec.toInt = (tsuGetTime c.reads).nanosec.toNat := by
  have small := tsuGetTime_nanosec_lt c.normal
  simp only [systime, getSystime]
  rw [← Int32.toInt_toBitVec, UInt32.toBitVec_toInt32, BitVec.toInt_eq_toNat_of_lt]
  · simp
  · rw [UInt32.toNat_toBitVec]
    omega

structure Device where
  syncDiffIntegratedNs : Int32
  timesync : TimesyncState
  tsu : TsuState
  deriving DecidableEq, Repr

def Device.init : Device := ⟨0, .init, .init⟩

/-- One call. The reads are those of the clock in case the call looks at it. -/
def Device.perform (d : Device) (reads : TsuReads) : Call → Device × List XilOut32
  | .coarseTimeReceived timestamp nanoseconds =>
    let r := StandalonePtp.coarseTimeReceived d.timesync d.tsu.sUptimeMs reads timestamp nanoseconds
    ({ d with timesync := r.1 }, r.2)
  | .fineTimeReceived timestamp nanoseconds =>
    let r := StandalonePtp.fineTimeReceived d.timesync timestamp nanoseconds
    ({ d with timesync := r.1 }, r.2)
  | .tsuClockFineTune errorNs syncDiffIntegratedNs boundary =>
    ({ d with tsu := StandalonePtp.tsuClockFineTune d.tsu errorNs syncDiffIntegratedNs boundary }, [])
  | .tsuSystickCb =>
    let r := StandalonePtp.tsuSystickCb d.tsu
    ({ d with tsu := r.1 }, r.2)
  | .errorReport errorNs avgErrorNs =>
    ({ d with timesync := updateError d.timesync errorNs avgErrorNs }, [])

def Device.performAll (d : Device) (reads : TsuReads) : List Call → Device × List XilOut32
  | [] => (d, [])
  | c :: rest =>
    let r := d.perform reads c
    let later := Device.performAll r.1 reads rest
    (later.1, r.2 ++ later.2)

structure Report where
  syncTs : PtpTimestamp
  diffTs : PtpTimestamp
  reads : TsuReads
  deriving DecidableEq, Repr

/-- One call of `ptp_process_time_diff` with all it leads to. -/
def processReport (d : Device) (r : Report) : Device × List XilOut32 :=
  let handled := ptpProcessTimeDiff initParam d.syncDiffIntegratedNs r.syncTs r.diffTs
  Device.performAll { d with syncDiffIntegratedNs := handled.1 } r.reads handled.2

theorem processReport_coarse {r : Report} (h : r.diffTs.seconds ≠ 0) (d : Device) :
    processReport d r =
      ({ d with
          syncDiffIntegratedNs := 0
          timesync := (coarseTimeReceived d.timesync d.tsu.sUptimeMs r.reads
            r.syncTs.seconds r.syncTs.nanosec.toUInt32).1 },
        (coarseTimeReceived d.timesync d.tsu.sUptimeMs r.reads
          r.syncTs.seconds r.syncTs.nanosec.toUInt32).2) := by
  simp [processReport, ptpProcessTimeDiff, h, initParam, Device.performAll, Device.perform]

def integrated (d : Device) (r : Report) : Int32 := d.syncDiffIntegratedNs + r.diffTs.nanosec

def tuned (d : Device) (r : Report) : TsuState :=
  tsuClockFineTune d.tsu r.diffTs.nanosec (integrated d r) ptpMaxErrNs

theorem processReport_fine {r : Report} (h : r.diffTs.seconds = 0) (d : Device) :
    processReport d r =
      ({ syncDiffIntegratedNs := integrated d r
         timesync := updateError { d.timesync with status := .fine }
          r.diffTs.nanosec (integrated d r)
         tsu := (tsuSystickCb (tuned d r)).1 },
        [⟨.tsuTimerAdjust, (tuned d r).fineTuneRegister.word⟩]) := by
  simp [processReport, ptpProcessTimeDiff, h, initParam, Device.performAll, Device.perform,
    integrated, tuned, fineTimeReceived, tsuSystickCb, tsuDriverAdjustTime]

end StandalonePtp
