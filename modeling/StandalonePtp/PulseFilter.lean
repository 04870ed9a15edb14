import StandalonePtp.Pulse
import StandalonePtp.Steering

/-! The mean difference to the pulse: a low pass that stays bounded and settles. -/
namespace StandalonePtp

open Run Words Truncation

def Invocation.isErrorReport (i : Invocation) : Bool :=
  match i.callback with
  | .errorReport _ _ => true
  | _ => false

/-- A pulse that is on time and finds the clock in `TS_FINE`. -/
def pulseAccepted (s : Service) (i : Invocation) : Bool :=
  i.callback = .ppsReceived && ppsInPeriod s.timesync { s.tsu with sUptimeMs := i.uptimeMs } &&
    s.timesync.status = .fine

def Invocation.syncDiff (i : Invocation) : Int := (ppsDiffNs (tsuGetTime i.reads).nanosec).toInt

def Service.syncDiff (s : Service) : Int := s.timesync.syncDiffNs.toInt

def Service.mean (s : Service) : Int := s.timesync.syncDiffIntegratedNs.toInt

/- What one call does to the difference and to its mean. -/

theorem coarse_keeps_mean (s : TimesyncState) (uptimeMs : UInt32) (reads : TsuReads)
    (timestamp : Int64) (nanoseconds : UInt32) :
    (coarseTimeReceived s uptimeMs reads timestamp nanoseconds).1.syncDiffIntegratedNs =
      s.syncDiffIntegratedNs := by
  by_cases due : coarseDue s = true <;> simp [coarseTimeReceived, due]

theorem call_integrated (s : Service) {i : Invocation} (own : i.isErrorReport = false) :
    (s.call i).1.timesync.syncDiffIntegratedNs =
      if pulseAccepted s i = true then
        if ppsOutside i.reads = true then
          if ppsAge s i ≥ coarseTimeAgeMax then s.timesync.syncDiffIntegratedNs else 0
        else ppsIntegrated s.timesync i.reads
      else s.timesync.syncDiffIntegratedNs := by
  obtain ⟨callback, time, reads⟩ := i
  cases callback with
  | coarseTimeReceived timestamp nanoseconds =>
    simp [Service.call, coarse_keeps_mean, pulseAccepted]
  | fineTimeReceived timestamp nanoseconds => rfl
  | ppsReceived =>
    simp only [Service.call, pulseAccepted, ppsAge, decide_true, Bool.true_and]
    cases period : ppsInPeriod s.timesync _ with
    | false => simp [pps_early period]
    | true =>
      by_cases fine : s.timesync.status = .fine
      · rw [pps_fine period fine]
        cases outside : ppsOutside reads with
        | false => simp [fine]
        | true =>
          by_cases stale : coarseStampAge s.timesync { s.tsu with
              sUptimeMs := (Invocation.mk .ppsReceived time reads).uptimeMs } ≥ coarseTimeAgeMax
          · simp [fine, stale]
          · simp [fine, stale]
      · simp [pps_idle period fine, fine]
  | coarseTimeout => rfl
  | fineTimeout =>
    simp only [Service.call, fineTimeout]
    split <;> rfl
  | errorReport errorNs avgErrorNs => contradiction

theorem accepted_syncDiff {s : Service} {i : Invocation} (accepted : pulseAccepted s i = true) :
    (s.call i).1.syncDiff = i.syncDiff := by
  obtain ⟨callback, time, reads⟩ := i
  simp only [pulseAccepted, Bool.and_eq_true, decide_eq_true_eq] at accepted
  obtain ⟨⟨rfl, period⟩, fine⟩ := accepted
  simp only [Service.syncDiff, Service.call, pps_fine period fine]
  split
  · split <;> rfl
  · rfl

theorem localOffset_iff {i : Invocation} (normal : (tsuGetTime i.reads).nanosec.toNat < 1000000000)
    (x : Int) : LocalOffset (tsuGetTime i.reads).nanosec x ↔ x = i.syncDiff := by
  have unique : ∀ y, LocalOffset (tsuGetTime i.reads).nanosec y → i.syncDiff = y :=
    fun y offset => ppsDiffNs_offset normal offset
  have latency : ppsLatencyCorrectionNs.toNat = 1200 := by decide
  constructor
  · intro offset
    exact (unique x offset).symm
  · rintro rfl
    by_cases half : (tsuGetTime i.reads).nanosec.toNat ≤ 500001200
    · have near : LocalOffset (tsuGetTime i.reads).nanosec
          ((tsuGetTime i.reads).nanosec.toNat - 1200) := ⟨by omega, by omega, by omega⟩
      rwa [unique _ near]
    · have wrapped : LocalOffset (tsuGetTime i.reads).nanosec
          ((tsuGetTime i.reads).nanosec.toNat - 1200 - 1000000000) :=
        ⟨by omega, by omega, by omega⟩
      rwa [unique _ wrapped]

theorem accepted_own {s : Service} {i : Invocation} (accepted : pulseAccepted s i = true) :
    i.isErrorReport = false := by
  simp only [pulseAccepted, Bool.and_eq_true, decide_eq_true_eq] at accepted
  simp [Invocation.isErrorReport, accepted.1.1]

theorem accepted_mean {s : Service} {i : Invocation} (accepted : pulseAccepted s i = true)
    (bounded : s.mean.natAbs ≤ 10000) (inside : i.syncDiff.natAbs ≤ 10000) :
    (s.call i).1.mean = lowPass 10 s.mean i.syncDiff := by
  rw [Service.mean, call_integrated s (accepted_own accepted), if_pos accepted,
    (ppsInside_iff i.reads).mpr inside, if_neg Bool.false_ne_true]
  exact ppsIntegrated_lowPass bounded inside

theorem refused_mean (s : Service) {i : Invocation} (own : i.isErrorReport = false)
    (refused : pulseAccepted s i = false) : (s.call i).1.mean = s.mean := by
  rw [Service.mean, call_integrated s own, refused, if_neg Bool.false_ne_true, Service.mean]

theorem call_bounded (s : Service) {i : Invocation} (own : i.isErrorReport = false)
    (bounded : s.mean.natAbs ≤ 10000) : (s.call i).1.mean.natAbs ≤ 10000 := by
  cases accepted : pulseAccepted s i with
  | false => rwa [refused_mean s own accepted]
  | true =>
    by_cases inside : i.syncDiff.natAbs ≤ 10000
    · have between := lowPass_mem 10 s.mean i.syncDiff
      rw [Set.mem_uIcc] at between
      rw [accepted_mean accepted bounded inside]
      omega
    · have outside : ppsOutside i.reads = true := by
        rw [← Bool.not_eq_false, ppsInside_iff]
        exact inside
      rw [Service.mean, call_integrated s own, if_pos accepted, if_pos outside]
      split
      · exact bounded
      · decide

/- Pulses that all see the same difference. -/

def Steady (d : Int) (s : Service) (i : Invocation) : Prop :=
  i.isErrorReport = false ∧ (pulseAccepted s i = true → i.syncDiff = d)

section
variable {d : Int} (near : d.natAbs ≤ 10000) {s : Service} (bounded : s.mean.natAbs ≤ 10000)
include near bounded

theorem steady_mean {i : Invocation} (steady : Steady d s i) :
    (s.call i).1.mean = if pulseAccepted s i = true then lowPass 10 s.mean d else s.mean := by
  cases accepted : pulseAccepted s i with
  | false => simpa using refused_mean s steady.1 accepted
  | true =>
    have same := steady.2 accepted
    simpa [same] using accepted_mean accepted bounded (by rwa [same])

theorem steady_between {later : List Invocation} (steady : Along Service.call (Steady d) s later) :
    (after Service.call s later).mean ∈ Set.uIcc s.mean d := by
  refine after_along Service.call (Steady d) (fun t => t.mean ∈ Set.uIcc s.mean d) ?_
    Set.left_mem_uIcc later steady
  intro t i between steady
  have inside : t.mean.natAbs ≤ 10000 := by
    rw [Set.mem_uIcc] at between
    omega
  rw [steady_mean near inside steady]
  split
  · exact Set.uIcc_subset_uIcc between Set.right_mem_uIcc (lowPass_mem 10 t.mean d)
  · exact between

theorem steady_settles {later : List Invocation} (steady : Along Service.call (Steady d) s later)
    (many : 20000 ≤ ticks Service.call pulseAccepted s later) :
    ((after Service.call s later).mean - d).natAbs ≤ 9 := by
  have along := along_invariant Service.call (Steady d) (fun t => t.mean.natAbs ≤ 10000)
    (fun t i inside steady => call_bounded t steady.1 inside) bounded later steady
  refine along_settles Service.call _ pulseAccepted (fun t => (t.mean - d).natAbs) 9 ?_ ?_ later s
    along (by omega)
  · rintro t i ⟨inside, steady⟩
    rw [steady_mean near inside steady]
    split
    · rw [lowPass_distance]
      exact Nat.sub_le _ _
    · exact Nat.le_refl _
  · rintro t i ⟨inside, steady⟩ accepted far
    rw [steady_mean near inside steady, if_pos accepted]
    exact lowPass_lowers 10 t.mean d (by decide) far

end

theorem mean_bounded {before : List Invocation} (own : ∀ i ∈ before, i.isErrorReport = false) :
    (after Service.call .init before).mean.natAbs ≤ 10000 :=
  after_along Service.call (fun _ i => i.isErrorReport = false) (fun t => t.mean.natAbs ≤ 10000)
    (fun t _ bounded own => call_bounded t own bounded) (by decide) before
    ((along_inputs Service.call _ before .init).mpr own)

/-- The difference a pulse finds is centred, and its mean is a bounded filter of it that
does not overshoot and settles within its dead band. -/
theorem pulse_filter :
    (∀ (s : Service) (i : Invocation), pulseAccepted s i = true →
      (tsuGetTime i.reads).nanosec.toNat < 1000000000 →
        ∀ x, LocalOffset (tsuGetTime i.reads).nanosec x ↔ x = (s.call i).1.syncDiff) ∧
    ∀ before : List Invocation, (∀ i ∈ before, i.isErrorReport = false) →
      let s := after Service.call .init before
      s.mean.natAbs ≤ 10000 ∧
      (∀ i, pulseAccepted s i = true → ppsOutside i.reads = false →
        (s.call i).1.mean ∈ Set.uIcc s.mean (s.call i).1.syncDiff) ∧
      ∀ (d : Int) (later : List Invocation), d.natAbs ≤ 10000 →
        Along Service.call (Steady d) s later →
          (∀ early late, later = early ++ late →
            (after Service.call s later).mean ∈ Set.uIcc (after Service.call s early).mean d) ∧
          (20000 ≤ ticks Service.call pulseAccepted s later →
            ((after Service.call s later).mean - d).natAbs ≤ 9) := by
  constructor
  · intro s i accepted normal x
    rw [accepted_syncDiff accepted]
    exact localOffset_iff normal x
  intro before own s
  have bounded : s.mean.natAbs ≤ 10000 := mean_bounded own
  refine ⟨bounded, fun i accepted inside => ?_,
    fun d later near steady => ⟨?_, steady_settles near bounded steady⟩⟩
  · have near := (ppsInside_iff i.reads).mp inside
    rw [accepted_syncDiff accepted, accepted_mean accepted bounded near]
    exact lowPass_mem 10 s.mean i.syncDiff
  · rintro early late rfl
    rw [along_append] at steady
    rw [after_append]
    have first := steady_between near bounded steady.1
    rw [Set.mem_uIcc] at first
    exact steady_between near (by omega) steady.2

/-- The clock is 1 us ahead at every pulse. -/
theorem pulse_filter_example :
    let s := after Service.call .init [fineAt 0, pulseAt 1000 2200]
    let next := (s.call (pulseAt 2000 2200)).1
    s.mean.natAbs ≤ 10000 ∧ next.mean ∈ Set.uIcc s.mean next.syncDiff ∧
      (after Service.call s [pulseAt 2000 2200, pulseAt 3000 2200]).mean ∈
        Set.uIcc s.mean 1000 := by
  obtain ⟨bounded, fine, steady⟩ :=
    pulse_filter.2 [fineAt 0, pulseAt 1000 2200] (by decide)
  exact ⟨bounded, fine _ (by decide) (by decide),
    (steady 1000 [pulseAt 2000 2200, pulseAt 3000 2200] (by decide)
      ⟨⟨by decide, by decide⟩, ⟨by decide, by decide⟩, trivial⟩).1 [] _ rfl⟩

end StandalonePtp
