import StandalonePtp.TsuTime

/-! The time service of timesync.c: its statics and the six callbacks it registers. -/
namespace StandalonePtp

def resyncCoarseTime : Int32 := 60

def ppsPeriodHigh : Int32 := 1050

def ppsPeriodLow : Int32 := 950

def ppsLatencyCorrectionNs : UInt32 := 1200

def coarseTimeAgeMax : Int32 := 1000

def syncDiffBoundaryNs : Int32 := 10000

def ppsCorrectionBoundary : Int32 := 50

inductive TimesyncStatus where
  | never
  | coarse
  | fine
  | lost
  deriving DecidableEq, Repr

/-- The statics of timesync.c, with the counter local to `coarse_time_received`. -/
structure TimesyncState where
  status : TimesyncStatus
  coarseServiceOk : Bool
  lastCoarseTimeValue : Int64
  lastCoarseTimeStamp : UInt32
  lastPpsTimeStamp : UInt32
  syncDiffNs : Int32
  syncDiffIntegratedNs : Int32
  receiveCounter : Int32
  deriving DecidableEq, Repr

def TimesyncState.init : TimesyncState := ⟨.never, false, 0, 0, 0, 0, 0, 0⟩

/-- The counter advances only behind the test for `TS_COARSE`. -/
def coarseCounter (s : TimesyncState) : Int32 :=
  if s.status = .coarse then s.receiveCounter + 1 else s.receiveCounter

def coarseDue (s : TimesyncState) : Bool :=
  s.status = .never || s.status = .lost ||
    (s.status = .coarse && coarseCounter s > resyncCoarseTime)

def coarseTimeReceived (s : TimesyncState) (uptimeMs : UInt32) (reads : TsuReads)
    (timestamp : Int64) (nanoseconds : UInt32) : TimesyncState × List XilOut32 :=
  let noted := { s with
    coarseServiceOk := true
    lastCoarseTimeValue := timestamp
    lastCoarseTimeStamp := uptimeMs
    receiveCounter := coarseCounter s }
  if coarseDue s then
    let writes :=
      if timestamp > 0 then
        let nanosec := if nanoseconds > 0 then nanoseconds else (tsuGetTime reads).nanosec
        tsuSetTime ⟨timestamp.toUInt64, nanosec⟩
      else []
    let status := if noted.status ≠ .fine then .coarse else noted.status
    ({ noted with receiveCounter := 0, status := status }, writes)
  else (noted, [])

/-- The time a due coarse report sets: without nanoseconds it keeps the clock's own. -/
def coarseTime (reads : TsuReads) (timestamp : Int64) (nanoseconds : UInt32) : TsuTimestamp :=
  ⟨timestamp.toUInt64, if nanoseconds > 0 then nanoseconds else (tsuGetTime reads).nanosec⟩

section
variable (s : TimesyncState) (uptimeMs : UInt32) (reads : TsuReads) (timestamp : Int64)
  (nanoseconds : UInt32)

theorem coarse_writes :
    (coarseTimeReceived s uptimeMs reads timestamp nanoseconds).2 =
      if coarseDue s = true ∧ timestamp > 0 then tsuSetTime (coarseTime reads timestamp nanoseconds)
      else [] := by
  by_cases due : coarseDue s = true <;> by_cases positive : timestamp > 0 <;>
    simp [coarseTimeReceived, coarseTime, due, positive]

theorem coarse_status :
    (coarseTimeReceived s uptimeMs reads timestamp nanoseconds).1.status =
      if coarseDue s = true ∧ s.status ≠ .fine then .coarse else s.status := by
  by_cases due : coarseDue s = true <;> by_cases fine : s.status = .fine <;>
    simp [coarseTimeReceived, due, fine]

theorem coarse_noted :
    (coarseTimeReceived s uptimeMs reads timestamp nanoseconds).1.coarseServiceOk = true ∧
      (coarseTimeReceived s uptimeMs reads timestamp nanoseconds).1.lastCoarseTimeValue = timestamp ∧
      (coarseTimeReceived s uptimeMs reads timestamp nanoseconds).1.lastCoarseTimeStamp =
        uptimeMs := by
  by_cases due : coarseDue s = true <;> simp [coarseTimeReceived, due]

theorem coarse_counter :
    (coarseTimeReceived s uptimeMs reads timestamp nanoseconds).1.receiveCounter =
      if coarseDue s = true then 0 else coarseCounter s := by
  by_cases due : coarseDue s = true <;> simp [coarseTimeReceived, due]

end

def fineTimeReceived (s : TimesyncState) (timestamp : Int64) (nanoseconds : UInt32) :
    TimesyncState × List XilOut32 :=
  let writes := if timestamp > 0 then tsuSetTime ⟨timestamp.toUInt64, nanoseconds⟩ else []
  ({ s with status := .fine }, writes)

/-- The difference to the pulse is taken in unsigned words and then centred. -/
def ppsDiffNs (nanosec : UInt32) : Int32 :=
  let diff := (nanosec - ppsLatencyCorrectionNs).toInt32
  if diff > 500000000 then diff - 1000000000 else diff

def ppsReceived (s : TimesyncState) (tsu : TsuState) (reads : TsuReads) :
    TimesyncState × TsuState × List XilOut32 :=
  let currentStamp := tsu.sUptimeMs
  let prevPpsAge := (currentStamp - s.lastPpsTimeStamp).toInt32
  let s := { s with lastPpsTimeStamp := currentStamp }
  if prevPpsAge < ppsPeriodLow ∨ prevPpsAge > ppsPeriodHigh then (s, tsu, [])
  else match s.status with
    | .fine =>
      let diff := ppsDiffNs (tsuGetTime reads).nanosec
      let s := { s with syncDiffNs := diff }
      if diff < -syncDiffBoundaryNs ∨ diff > syncDiffBoundaryNs then
        let coarseStampAge := (currentStamp - s.lastCoarseTimeStamp).toInt32
        if coarseStampAge ≥ coarseTimeAgeMax then (s, tsu, [])
        else
          let seconds := (s.lastCoarseTimeValue + 1).toUInt64.toUInt32
          ({ s with syncDiffIntegratedNs := 0 }, tsu,
            tsuSetTime ⟨seconds.toUInt64, ppsLatencyCorrectionNs⟩)
      else
        let corr := (s.syncDiffIntegratedNs - diff) / 10
        let integrated := s.syncDiffIntegratedNs - corr
        ({ s with syncDiffIntegratedNs := integrated },
          tsuClockFineTune tsu integrated 0 ppsCorrectionBoundary, [])
    | .coarse => ({ s with status := .fine }, tsu, [])
    | .never => (s, tsu, [])
    | .lost => (s, tsu, [])

/- What a pulse does. -/

def ppsInPeriod (s : TimesyncState) (tsu : TsuState) : Bool :=
  let prevPpsAge := (tsu.sUptimeMs - s.lastPpsTimeStamp).toInt32
  !(prevPpsAge < ppsPeriodLow || prevPpsAge > ppsPeriodHigh)

/-- The clock is too far from the pulse to be tuned. -/
def ppsOutside (reads : TsuReads) : Bool :=
  let diff := ppsDiffNs (tsuGetTime reads).nanosec
  diff < -syncDiffBoundaryNs || diff > syncDiffBoundaryNs

def coarseStampAge (s : TimesyncState) (tsu : TsuState) : Int32 :=
  (tsu.sUptimeMs - s.lastCoarseTimeStamp).toInt32

/-- The mean difference after a pulse that tunes the clock. -/
def ppsIntegrated (s : TimesyncState) (reads : TsuReads) : Int32 :=
  s.syncDiffIntegratedNs -
    (s.syncDiffIntegratedNs - ppsDiffNs (tsuGetTime reads).nanosec) / 10

section
variable {s : TimesyncState} {tsu : TsuState} {reads : TsuReads}

theorem pps_early (period : ppsInPeriod s tsu = false) :
    ppsReceived s tsu reads = ({ s with lastPpsTimeStamp := tsu.sUptimeMs }, tsu, []) := by
  simp only [ppsInPeriod, Bool.not_eq_false', Bool.or_eq_true, decide_eq_true_eq] at period
  rw [ppsReceived, if_pos period]

theorem pps_idle (period : ppsInPeriod s tsu = true) (idle : s.status ≠ .fine) :
    ppsReceived s tsu reads =
      ({ s with
          lastPpsTimeStamp := tsu.sUptimeMs
          status := if s.status = .coarse then .fine else s.status }, tsu, []) := by
  simp only [ppsInPeriod, Bool.not_eq_true', Bool.or_eq_false_iff, decide_eq_false_iff_not] at period
  rw [ppsReceived, if_neg (not_or.mpr period)]
  obtain ⟨status, _, _, _, _, _, _, _⟩ := s
  cases status <;> first | rfl | contradiction

theorem pps_fine (period : ppsInPeriod s tsu = true) (fine : s.status = .fine) :
    ppsReceived s tsu reads =
      if ppsOutside reads = true then
        if coarseStampAge s tsu ≥ coarseTimeAgeMax then
          ({ s with
              lastPpsTimeStamp := tsu.sUptimeMs
              syncDiffNs := ppsDiffNs (tsuGetTime reads).nanosec }, tsu, [])
        else
          ({ s with
              lastPpsTimeStamp := tsu.sUptimeMs
              syncDiffNs := ppsDiffNs (tsuGetTime reads).nanosec
              syncDiffIntegratedNs := 0 }, tsu,
            tsuSetTime ⟨(s.lastCoarseTimeValue + 1).toUInt64.toUInt32.toUInt64,
              ppsLatencyCorrectionNs⟩)
      else
        ({ s with
            lastPpsTimeStamp := tsu.sUptimeMs
            syncDiffNs := ppsDiffNs (tsuGetTime reads).nanosec
            syncDiffIntegratedNs := ppsIntegrated s reads },
          tsuClockFineTune tsu (ppsIntegrated s reads) 0 ppsCorrectionBoundary, []) := by
  simp only [ppsInPeriod, Bool.not_eq_true', Bool.or_eq_false_iff, decide_eq_false_iff_not] at period
  rw [ppsReceived, if_neg (not_or.mpr period)]
  simp only [fine, ppsOutside, coarseStampAge, ppsIntegrated, Bool.or_eq_true, decide_eq_true_eq]

/-- A pulse keeps what was noted and counted of the coarse time, and changes the status only from
coarse to fine. -/
theorem pps_keeps (s : TimesyncState) (tsu : TsuState) (reads : TsuReads) :
    (ppsReceived s tsu reads).1.coarseServiceOk = s.coarseServiceOk ∧
      (ppsReceived s tsu reads).1.lastCoarseTimeValue = s.lastCoarseTimeValue ∧
      (ppsReceived s tsu reads).1.lastCoarseTimeStamp = s.lastCoarseTimeStamp ∧
      (ppsReceived s tsu reads).1.receiveCounter = s.receiveCounter ∧
      (ppsReceived s tsu reads).1.status =
        if ppsInPeriod s tsu = true ∧ s.status = .coarse then .fine else s.status := by
  cases period : ppsInPeriod s tsu with
  | false => simp [pps_early period]
  | true =>
    by_cases fine : s.status = .fine
    · rw [pps_fine period fine]
      split
      · split <;> simp [fine]
      · simp [fine]
    · simp [pps_idle period fine]

end

def coarseTimeout (s : TimesyncState) : TimesyncState :=
  { s with
    status := if s.status = .coarse then .lost else s.status
    coarseServiceOk := false }

def fineTimeout (s : TimesyncState) : TimesyncState :=
  if s.status = .fine then
    { s with status := if s.coarseServiceOk then .coarse else .lost }
  else s

def updateError (s : TimesyncState) (errorNs avgErrorNs : Int32) : TimesyncState :=
  { s with syncDiffNs := errorNs, syncDiffIntegratedNs := avgErrorNs }

/- The uptime and the stamps taken of it. -/

theorem fineTune_uptime (tsu : TsuState) (errorNs syncDiffIntegratedNs boundary : Int32) :
    (tsuClockFineTune tsu errorNs syncDiffIntegratedNs boundary).sUptimeMs = tsu.sUptimeMs := by
  unfold tsuClockFineTune
  split <;> rfl

theorem pps_uptime (s : TimesyncState) (tsu : TsuState) (reads : TsuReads) :
    (ppsReceived s tsu reads).2.1.sUptimeMs = tsu.sUptimeMs ∧
      (ppsReceived s tsu reads).1.lastPpsTimeStamp = tsu.sUptimeMs := by
  cases period : ppsInPeriod s tsu with
  | false => simp [pps_early period]
  | true =>
    by_cases fine : s.status = .fine
    · rw [pps_fine period fine]
      split
      · split <;> simp
      · simp [fineTune_uptime]
    · simp [pps_idle period fine]

theorem coarse_stamps (s : TimesyncState) (uptimeMs : UInt32) (reads : TsuReads)
    (timestamp : Int64) (nanoseconds : UInt32) :
    (coarseTimeReceived s uptimeMs reads timestamp nanoseconds).1.lastPpsTimeStamp =
      s.lastPpsTimeStamp := by
  unfold coarseTimeReceived
  dsimp only
  split <;> rfl

theorem fineTimeout_stamps (s : TimesyncState) :
    (fineTimeout s).lastPpsTimeStamp = s.lastPpsTimeStamp ∧
      (fineTimeout s).lastCoarseTimeStamp = s.lastCoarseTimeStamp := by
  unfold fineTimeout
  split <;> exact ⟨rfl, rfl⟩

end StandalonePtp
