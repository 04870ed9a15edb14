import StandalonePtp.Service

/-! When the service is in `TS_FINE`, told from the calls before. -/
namespace StandalonePtp

open Run Words

namespace Invocation

def isCoarse (i : Invocation) : Bool :=
  match i.callback with
  | .coarseTimeReceived _ _ => true
  | _ => false

def isFine (i : Invocation) : Bool :=
  match i.callback with
  | .fineTimeReceived _ _ => true
  | _ => false

def isPulse (i : Invocation) : Bool := i.callback = .ppsReceived

/-- A coarse time or its timeout. -/
def tellsOfCoarse (i : Invocation) : Bool := i.isCoarse || i.callback = .coarseTimeout

end Invocation

/-- The time of a call, or of power-up if there was none. -/
def timeOf (call : Option Invocation) : Nat := (call.map Invocation.time).getD 0

/-- A gap between two pulses, of which software sees a word of 32 bits. -/
def OnTime (gap : Int) : Prop := 950 ≤ gap % 4294967296 ∧ gap % 4294967296 ≤ 1050

instance (gap : Int) : Decidable (OnTime gap) := inferInstanceAs (Decidable (_ ∧ _))

def PulseOnTime (before : List Invocation) (i : Invocation) : Prop :=
  i.isPulse = true ∧ OnTime ((i.time : Int) - timeOf (latest Invocation.isPulse before))

/-- A coarse time has come, and no timeout since. -/
def CoarseServed (before : List Invocation) : Prop :=
  ∃ call, latest Invocation.tellsOfCoarse before = some call ∧ call.isCoarse = true

def MakesFine (before : List Invocation) (i : Invocation) : Prop :=
  i.isFine = true ∨ PulseOnTime before i ∧ CoarseServed before

/-- What made the service fine has not been ended by a timeout of the fine time. -/
def FineServed : List Invocation → Prop := Since MakesFine (fun i => i.callback ≠ .fineTimeout)

/- What is noted of the pulses and of the coarse service. -/

theorem call_pps_stamp (s : Service) (i : Invocation) :
    (s.call i).1.timesync.lastPpsTimeStamp =
      if i.isPulse then i.uptimeMs else s.timesync.lastPpsTimeStamp := by
  obtain ⟨callback, time, reads⟩ := i
  cases callback with
  | coarseTimeReceived timestamp nanoseconds => exact coarse_stamps ..
  | fineTimeReceived timestamp nanoseconds => rfl
  | ppsReceived => exact (pps_uptime ..).2
  | coarseTimeout => rfl
  | fineTimeout => exact (fineTimeout_stamps s.timesync).1
  | errorReport errorNs avgErrorNs => rfl

theorem call_coarse_service (s : Service) (i : Invocation) :
    (s.call i).1.timesync.coarseServiceOk =
      if i.tellsOfCoarse then i.isCoarse else s.timesync.coarseServiceOk := by
  obtain ⟨callback, time, reads⟩ := i
  cases callback with
  | coarseTimeReceived timestamp nanoseconds => exact (coarse_noted ..).1
  | fineTimeReceived timestamp nanoseconds => rfl
  | ppsReceived => exact (call_pulse s time reads).1
  | coarseTimeout => rfl
  | fineTimeout =>
    simp only [Service.call, fineTimeout]
    split <;> rfl
  | errorReport errorNs avgErrorNs => rfl

theorem inPeriod_after (before : List Invocation) (i : Invocation) (tsu : TsuState) :
    ppsInPeriod (after Service.call .init before).timesync { tsu with sUptimeMs := i.uptimeMs } =
      true ↔ OnTime ((i.time : Int) - timeOf (latest Invocation.isPulse before)) := by
  have stamp : (after Service.call .init before).timesync.lastPpsTimeStamp =
      .ofNat (timeOf (latest Invocation.isPulse before)) := by
    have noted := register_latest Service.call (fun s => s.timesync.lastPpsTimeStamp)
      Invocation.isPulse Invocation.uptimeMs (fun s i pulse => by simp [call_pps_stamp, pulse])
      (fun s i other => by simp [call_pps_stamp, other]) before .init
    rw [noted, timeOf]
    cases latest Invocation.isPulse before <;> rfl
  have low : ppsPeriodLow.toInt = 950 := by decide
  have high : ppsPeriodHigh.toInt = 1050 := by decide
  have gap := stampGap i.time (timeOf (latest Invocation.isPulse before))
  simp only [ppsInPeriod, stamp, Invocation.uptimeMs, Bool.not_eq_true', Bool.or_eq_false_iff,
    decide_eq_false_iff_not, gt_iff_lt, Int32.lt_iff_toInt_lt, low, high, gap, OnTime]
  split <;> omega

theorem coarseService_after (before : List Invocation) :
    (after Service.call .init before).timesync.coarseServiceOk = true ↔ CoarseServed before := by
  have noted := register_latest Service.call (fun s => s.timesync.coarseServiceOk)
    Invocation.tellsOfCoarse Invocation.isCoarse (fun s i told => by simp [call_coarse_service, told])
    (fun s i other => by simp [call_coarse_service, other]) before .init
  rw [noted, CoarseServed]
  cases latest Invocation.tellsOfCoarse before with
  | none => exact iff_of_false (by decide) (by simp)
  | some call => simp

/- The status. -/

theorem call_fine_iff {s : Service} (flags : FlagsAgree s.timesync) (i : Invocation) :
    (s.call i).1.timesync.status = .fine ↔
      (i.isFine = true ∨ (i.isPulse = true ∧
          ppsInPeriod s.timesync { s.tsu with sUptimeMs := i.uptimeMs } = true) ∧
          s.timesync.coarseServiceOk = true) ∨
        s.timesync.status = .fine ∧ i.callback ≠ .fineTimeout := by
  obtain ⟨callback, time, reads⟩ := i
  cases callback with
  | coarseTimeReceived timestamp nanoseconds =>
    simp only [Service.call, coarse_status_cases, Invocation.isFine, Invocation.isPulse]
    by_cases fine : s.timesync.status = .fine <;> simp [fine]
  | fineTimeReceived timestamp nanoseconds => exact iff_of_true rfl (.inl (.inl rfl))
  | ppsReceived =>
    have status := (pps_keeps s.timesync
      { s.tsu with sUptimeMs := (Invocation.mk .ppsReceived time reads).uptimeMs } reads).2.2.2.2
    simp only [Service.call, status, Invocation.isFine, Invocation.isPulse]
    by_cases fine : s.timesync.status = .fine
    · simp [fine]
    · rw [flags fine]
      simp [fine]
  | coarseTimeout =>
    simp only [Service.call, coarseTimeout, Invocation.isFine, Invocation.isPulse]
    cases s.timesync.status <;> simp
  | fineTimeout =>
    simp only [Service.call, fineTimeout, Invocation.isFine, Invocation.isPulse]
    by_cases fine : s.timesync.status = .fine
    · cases s.timesync.coarseServiceOk <;> simp [fine]
    · simp [fine]
  | errorReport errorNs avgErrorNs =>
    simp [Service.call, updateError, Invocation.isFine, Invocation.isPulse]

theorem fine_after_iff (before : List Invocation) :
    (after Service.call .init before).timesync.status = .fine ↔ FineServed before := by
  refine mode_since Service.call (fun s => s.timesync.status = .fine) MakesFine
    (fun i => i.callback ≠ .fineTimeout) (by decide) (fun earlier i => ?_) before
  rw [call_fine_iff (flags_after earlier) i, inPeriod_after, coarseService_after]
  rfl

end StandalonePtp
