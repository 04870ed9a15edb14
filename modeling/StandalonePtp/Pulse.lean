import StandalonePtp.Status

/-! The pulse per second: when it sets the clock, and from which coarse time. -/
namespace StandalonePtp

open Run Words

/- The coarse time a pulse relies on. -/

def Invocation.timestamp (i : Invocation) : Int64 :=
  match i.callback with
  | .coarseTimeReceived timestamp _ => timestamp
  | _ => 0

def coarseNote (s : Service) : Int64 × UInt32 :=
  (s.timesync.lastCoarseTimeValue, s.timesync.lastCoarseTimeStamp)

theorem call_noted (s : Service) (i : Invocation) (coarse : i.isCoarse = true) :
    coarseNote (s.call i).1 = (i.timestamp, i.uptimeMs) := by
  obtain ⟨callback, time, reads⟩ := i
  cases callback with
  | coarseTimeReceived timestamp nanoseconds =>
    simp [coarseNote, Service.call, coarse_noted, Invocation.timestamp]
  | _ => contradiction

/-- Only a coarse time touches what is noted and counted of the coarse times. -/
theorem call_not_coarse (s : Service) {i : Invocation} (other : i.isCoarse = false) :
    coarseNote (s.call i).1 = coarseNote s ∧
      (s.call i).1.timesync.receiveCounter = s.timesync.receiveCounter := by
  obtain ⟨callback, time, reads⟩ := i
  cases callback with
  | coarseTimeReceived timestamp nanoseconds => contradiction
  | fineTimeReceived timestamp nanoseconds => exact ⟨rfl, rfl⟩
  | ppsReceived => simp [coarseNote, Service.call, pps_keeps]
  | coarseTimeout => exact ⟨rfl, rfl⟩
  | fineTimeout =>
    simp only [coarseNote, Service.call, fineTimeout]
    split <;> exact ⟨rfl, rfl⟩
  | errorReport errorNs avgErrorNs => exact ⟨rfl, rfl⟩

theorem coarseNote_after (before : List Invocation) :
    coarseNote (after Service.call .init before) =
      ((latest Invocation.isCoarse before).map (fun i => (i.timestamp, i.uptimeMs))).getD (0, 0) :=
  register_latest Service.call coarseNote Invocation.isCoarse
    (fun i => (i.timestamp, i.uptimeMs)) call_noted (fun s _ other => (call_not_coarse s other).1)
    before .init

/- The hard set. -/

/-- A pulse that is on time finds the clock in `TS_FINE` and too far away. -/
def ppsGates (s : Service) (pulse : Invocation) : Bool :=
  ppsInPeriod s.timesync { s.tsu with sUptimeMs := pulse.uptimeMs } &&
    (s.timesync.status = .fine && ppsOutside pulse.reads)

def ppsAge (s : Service) (pulse : Invocation) : Int32 :=
  coarseStampAge s.timesync { s.tsu with sUptimeMs := pulse.uptimeMs }

theorem pulse_writes (s : Service) {pulse : Invocation} (isPulse : pulse.callback = .ppsReceived) :
    (s.call pulse).2 =
      if ppsGates s pulse = true ∧ ppsAge s pulse < coarseTimeAgeMax then
        tsuSetTime ⟨(s.timesync.lastCoarseTimeValue + 1).toUInt64.toUInt32.toUInt64,
          ppsLatencyCorrectionNs⟩
      else [] := by
  simp only [Service.call, isPulse, ppsGates, ppsAge, Bool.and_eq_true, decide_eq_true_eq]
  cases period : ppsInPeriod s.timesync { s.tsu with sUptimeMs := pulse.uptimeMs } with
  | false => simp [pps_early period]
  | true =>
    by_cases fine : s.timesync.status = .fine
    · rw [pps_fine period fine]
      cases outside : ppsOutside pulse.reads with
      | false => simp
      | true =>
        by_cases stale : coarseStampAge s.timesync { s.tsu with sUptimeMs := pulse.uptimeMs } ≥
            coarseTimeAgeMax
        · simp [stale, fine, Int32.not_lt.mpr stale]
        · simp [stale, fine, Int32.not_le.mp stale]
    · simp [pps_idle period fine, fine]

/-- An age in true milliseconds that fails the test of its signed word. -/
def ToldStale (age : Nat) : Prop := 1000 ≤ age % 4294967296 ∧ age % 4294967296 < 2147483648

instance (age : Nat) : Decidable (ToldStale age) := inferInstanceAs (Decidable (_ ∧ _))

theorem age_fresh_iff {now stamp : Nat} (past : stamp ≤ now) :
    (UInt32.ofNat now - UInt32.ofNat stamp).toInt32 < coarseTimeAgeMax ↔
      ¬ ToldStale (now - stamp) := by
  have limit : coarseTimeAgeMax.toInt = 1000 := by decide
  rw [Int32.lt_iff_toInt_lt, stampAge past, limit, ToldStale]
  split <;> omega

/-- A pulse that sets the clock uses the latest coarse time, which is less than a second
old, and writes the second after it. -/
def SetFromFresh (before : List Invocation) (pulse : Invocation) : Prop :=
  let writes := ((after Service.call .init before).call pulse).2
  setsClock writes = true →
    ∃ coarse, latest Invocation.isCoarse before = some coarse ∧ pulse.time - coarse.time < 1000 ∧
      ∀ w ∈ writes, w.register = .tsuTimerSecGem0 →
        (w.value.toNat : Int) = coarse.timestamp.toInt + 1

/-- A pulse that gets as far as the test of the age is told that the coarse time is stale,
or there is a fresh one whose next second fits the register. -/
def FreshAtPulse (before : List Invocation) (pulse : Invocation) : Prop :=
  PulseOnTime before pulse → FineServed before → ppsOutside pulse.reads = true →
    match latest Invocation.isCoarse before with
    | none => ToldStale pulse.time
    | some coarse => ToldStale (pulse.time - coarse.time) ∨
        pulse.time - coarse.time < 1000 ∧
          0 ≤ coarse.timestamp.toInt + 1 ∧ coarse.timestamp.toInt + 1 < 4294967296

theorem next_second (timestamp : Int64) :
    ((timestamp + 1).toUInt64.toUInt32.toUInt64.toUInt32.toNat : Int) =
      (timestamp.toInt + 1) % 4294967296 := by
  have one : (1 : Int64).toInt = 1 := by decide
  rw [UInt32.toUInt32_toUInt64, toUInt32_toUInt64, Int64.toInt_add, one, Int.bmod_def]
  split <;> omega

theorem gates_after (before : List Invocation) {pulse : Invocation}
    (isPulse : pulse.callback = .ppsReceived) :
    ppsGates (after Service.call .init before) pulse = true ↔
      PulseOnTime before pulse ∧ FineServed before ∧ ppsOutside pulse.reads = true := by
  rw [ppsGates, Bool.and_eq_true, Bool.and_eq_true, decide_eq_true_eq, fine_after_iff,
    inPeriod_after, PulseOnTime, Invocation.isPulse, isPulse]
  simp

section
variable {before : List Invocation} {pulse : Invocation}
  (order : ∀ i ∈ before, i.time ≤ pulse.time)
include order

theorem pulse_age_iff :
    ppsAge (after Service.call .init before) pulse < coarseTimeAgeMax ↔
      ¬ ToldStale (pulse.time - timeOf (latest Invocation.isCoarse before)) := by
  have noted : (after Service.call .init before).timesync.lastCoarseTimeStamp = _ :=
    congrArg Prod.snd (coarseNote_after before)
  rw [ppsAge, coarseStampAge, noted]
  cases found : latest Invocation.isCoarse before with
  | none => exact age_fresh_iff (Nat.zero_le _)
  | some coarse => exact age_fresh_iff (order coarse (latest_mem found).1)

variable (isPulse : pulse.callback = .ppsReceived)
include isPulse

theorem pulse_sets_iff :
    setsClock ((after Service.call .init before).call pulse).2 = true ↔
      ppsGates (after Service.call .init before) pulse = true ∧
        ¬ ToldStale (pulse.time - timeOf (latest Invocation.isCoarse before)) := by
  rw [pulse_writes _ isPulse, ← pulse_age_iff order]
  split
  · rename_i both
    exact iff_of_true rfl both
  · rename_i either
    exact iff_of_false nofun either

/-- The second that a setting pulse writes, out of 32 bits of the coarse time. -/
theorem pulse_second (hard : setsClock ((after Service.call .init before).call pulse).2 = true)
    {coarse : Invocation} (found : latest Invocation.isCoarse before = some coarse) :
    (∀ w ∈ ((after Service.call .init before).call pulse).2, w.register = .tsuTimerSecGem0 →
        (w.value.toNat : Int) = coarse.timestamp.toInt + 1) ↔
      0 ≤ coarse.timestamp.toInt + 1 ∧ coarse.timestamp.toInt + 1 < 4294967296 := by
  have gates := (pulse_sets_iff order isPulse).mp hard
  rw [← pulse_age_iff order] at gates
  have noted : (after Service.call .init before).timesync.lastCoarseTimeValue = _ :=
    congrArg Prod.fst (coarseNote_after before)
  rw [found] at noted
  have second := next_second coarse.timestamp
  rw [pulse_writes _ isPulse, if_pos gates, noted]
  simp only [tsuSetTime, List.mem_cons, List.not_mem_nil, or_false, forall_eq_or_imp, forall_eq,
    reduceCtorEq, false_imp_iff, true_imp_iff, true_and, Option.map_some, Option.getD_some, second]
  omega

theorem setFromFresh_iff : SetFromFresh before pulse ↔ FreshAtPulse before pulse := by
  have sets := pulse_sets_iff order isPulse
  have gated : ∀ {p : Prop}, (PulseOnTime before pulse → FineServed before →
      ppsOutside pulse.reads = true → p) ↔
      (ppsGates (after Service.call .init before) pulse = true → p) := by
    intro p
    rw [gates_after before isPulse]
    simp only [and_imp]
  simp only [SetFromFresh, FreshAtPulse, gated]
  cases found : latest Invocation.isCoarse before with
  | none =>
    rw [found] at sets
    constructor
    · intro property gates
      by_cases stale : ToldStale pulse.time
      · exact stale
      · obtain ⟨coarse, impossible, -⟩ := property (sets.mpr ⟨gates, stale⟩)
        contradiction
    · intro condition hard
      obtain ⟨gates, fresh⟩ := sets.mp hard
      exact absurd (condition gates) fresh
  | some coarse =>
    rw [found] at sets
    constructor
    · intro property gates
      by_cases stale : ToldStale (pulse.time - coarse.time)
      · exact .inl stale
      · have hard := sets.mpr ⟨gates, stale⟩
        obtain ⟨coarse', same, age, second⟩ := property hard
        cases Option.some.inj same
        exact .inr ⟨age, (pulse_second order isPulse hard found).mp second⟩
    · intro condition hard
      obtain ⟨gates, fresh⟩ := sets.mp hard
      obtain ⟨age, range⟩ := (condition gates).resolve_left fresh
      exact ⟨coarse, rfl, age, (pulse_second order isPulse hard found).mpr range⟩

end

/-- In a run in true order the pulses set the clock from fresh coarse times only, exactly if
every pulse that finds it too far away meets the condition on the age. -/
theorem pulses_set_from_fresh_iff (rs : List Invocation)
    (order : rs.Pairwise (fun i j => i.time ≤ j.time)) :
    (∀ before pulse later, rs = before ++ pulse :: later → pulse.callback = .ppsReceived →
        SetFromFresh before pulse) ↔
      ∀ before pulse later, rs = before ++ pulse :: later → pulse.callback = .ppsReceived →
        FreshAtPulse before pulse := by
  have inOrder : ∀ before pulse later, rs = before ++ pulse :: later →
      ∀ i ∈ before, i.time ≤ pulse.time := by
    rintro before pulse later rfl i earlier
    exact (List.pairwise_append.mp order).2.2 i earlier pulse List.mem_cons_self
  constructor
  · intro property before pulse later split isPulse
    exact (setFromFresh_iff (inOrder before pulse later split) isPulse).mp
      (property before pulse later split isPulse)
  · intro condition before pulse later split isPulse
    exact (setFromFresh_iff (inOrder before pulse later split) isPulse).mpr
      (condition before pulse later split isPulse)

def coarseAt (time : Nat) (timestamp : Int64) : Invocation :=
  ⟨.coarseTimeReceived timestamp 0, time, ⟨0, 0, 0⟩⟩

def fineAt (time : Nat) : Invocation := ⟨.fineTimeReceived 0 0, time, ⟨0, 0, 0⟩⟩

def pulseAt (time : Nat) (nanosec : UInt32) : Invocation := ⟨.ppsReceived, time, ⟨0, nanosec, 0⟩⟩

/-- The pulse at 980 ms sets the clock to the second after the coarse time. -/
theorem pulses_set_from_fresh_example :
    setsClock ((after Service.call .init [coarseAt 0 41, fineAt 10]).call
        (pulseAt 980 500000)).2 = true ∧
      SetFromFresh [coarseAt 0 41, fineAt 10] (pulseAt 980 500000) := by
  refine ⟨by decide, ?_⟩
  refine (pulses_set_from_fresh_iff [coarseAt 0 41, fineAt 10, pulseAt 980 500000]
    (by decide)).mpr ?_ _ _ [] rfl rfl
  intro before pulse later split isPulse
  rcases before with _ | ⟨first, _ | ⟨second, _ | ⟨third, before⟩⟩⟩
  · cases split
    contradiction
  · cases split
    contradiction
  · cases split
    exact fun _ _ _ => .inr (by decide)
  · simp at split

/-- The stamp of power-up passes for a coarse time: the clock is set to second 1. -/
theorem set_without_coarse_time :
    ¬ ∀ rs : List Invocation, rs.Pairwise (fun i j => i.time ≤ j.time) →
      ∀ before pulse later, rs = before ++ pulse :: later → pulse.callback = .ppsReceived →
        SetFromFresh before pulse := by
  intro h
  have fresh := h [fineAt 10, pulseAt 980 500000] (by decide) [fineAt 10] (pulseAt 980 500000) []
    rfl rfl
  have hard : setsClock ((after Service.call .init [fineAt 10]).call (pulseAt 980 500000)).2 = true :=
    by decide
  obtain ⟨coarse, found, -⟩ := fresh hard
  have nothing : latest Invocation.isCoarse [fineAt 10] = none := by decide
  rw [nothing] at found
  contradiction

end StandalonePtp
