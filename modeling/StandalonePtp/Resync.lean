import StandalonePtp.Exchange

/-! How long the time service may go on without setting the clock while every report it
gets has a whole second or more. -/
namespace StandalonePtp

open Run Words

def setsClock (writes : List XilOut32) : Bool :=
  writes.any (fun w => w.register = .tsuTimerSecGem0)

def CounterOk (s : TimesyncState) : Prop :=
  0 ≤ s.receiveCounter.toInt ∧ s.receiveCounter.toInt ≤ 60

theorem counterOk_init : CounterOk .init := by
  unfold CounterOk
  decide

theorem coarseCounter_toInt {s : TimesyncState} (h : CounterOk s) (coarse : s.status = .coarse) :
    (coarseCounter s).toInt = s.receiveCounter.toInt + 1 := by
  have one : (1 : Int32).toInt = 1 := by decide
  have range := h
  unfold CounterOk at range
  rw [coarseCounter, if_pos coarse, add32 (by rw [one]; unfold Fits32; omega), one]

theorem coarseDue_iff {s : TimesyncState} (h : CounterOk s) :
    coarseDue s = true ↔
      s.status = .never ∨ s.status = .lost ∨
        (s.status = .coarse ∧ s.receiveCounter.toInt = 60) := by
  have limit : resyncCoarseTime.toInt = 60 := by decide
  have range := h
  unfold CounterOk at range
  cases status : s.status with
  | never => simp [coarseDue, status]
  | lost => simp [coarseDue, status]
  | fine => simp [coarseDue, status]
  | coarse =>
    have next := coarseCounter_toInt h status
    simp only [coarseDue, status, reduceCtorEq, decide_false, decide_true, Bool.or_self,
      Bool.false_or, Bool.true_and, decide_eq_true_eq, gt_iff_lt, Int32.lt_iff_toInt_lt, limit,
      false_or, true_and]
    omega

/- One report. -/

section
variable (s : TimesyncState) (uptimeMs : UInt32) (reads : TsuReads) (timestamp : Int64)
  (nanoseconds : UInt32)

theorem coarse_counterOk (h : CounterOk s) :
    CounterOk (coarseTimeReceived s uptimeMs reads timestamp nanoseconds).1 := by
  have due := coarseDue_iff h
  have range := h
  unfold CounterOk at range ⊢
  rw [coarse_counter]
  split
  · decide
  · rename_i waits
    by_cases coarse : s.status = .coarse
    · have next := coarseCounter_toInt h coarse
      have below : ¬ s.receiveCounter.toInt = 60 :=
        fun full => waits (due.mpr (.inr (.inr ⟨coarse, full⟩)))
      omega
    · rw [coarseCounter, if_neg coarse]
      exact range

theorem coarse_sets_iff :
    setsClock (coarseTimeReceived s uptimeMs reads timestamp nanoseconds).2 = true ↔
      coarseDue s = true ∧ timestamp > 0 := by
  rw [coarse_writes]
  split
  · rename_i both
    exact iff_of_true rfl both
  · rename_i either
    exact iff_of_false Bool.false_ne_true either

theorem coarse_full_iff (h : CounterOk s) (coarse : s.status = .coarse) :
    coarseDue s = true ↔ s.receiveCounter.toInt = 60 := by
  rw [coarseDue_iff h, coarse]
  simp

theorem coarse_counts (h : CounterOk s) (coarse : s.status = .coarse)
    (below : s.receiveCounter.toInt ≠ 60) :
    (coarseTimeReceived s uptimeMs reads timestamp nanoseconds).1.status = .coarse ∧
      (coarseTimeReceived s uptimeMs reads timestamp nanoseconds).1.receiveCounter.toInt =
        s.receiveCounter.toInt + 1 := by
  have waits : ¬ coarseDue s = true := mt (coarse_full_iff s h coarse).mp below
  rw [coarse_status, coarse_counter, if_neg waits, if_neg (fun both => waits both.1),
    coarseCounter_toInt h coarse]
  exact ⟨coarse, rfl⟩

end

theorem process_counterOk (d : Device) (h : CounterOk d.timesync) (r : Report) :
    CounterOk (processReport d r).1.timesync := by
  by_cases fine : r.diffTs.seconds = 0
  · rw [processReport_fine fine]
    exact h
  · rw [processReport_coarse fine]
    exact coarse_counterOk d.timesync d.tsu.sUptimeMs r.reads _ _ h

/-- A report whose difference has seconds, with a synchronised time after the epoch. -/
structure CoarseReport (r : Report) : Prop where
  seconds : r.diffTs.seconds ≠ 0
  synced : r.syncTs.seconds > 0

theorem coarse_of_large {r : Report} (large : 1000000000 ≤ r.diffTs.total.natAbs)
    (nanosec : r.diffTs.nanosec.toInt.natAbs < 1000000000) (synced : r.syncTs.seconds > 0) :
    CoarseReport r := by
  refine ⟨fun none => ?_, synced⟩
  have zero : r.diffTs.seconds.toInt = 0 := by rw [none]; decide
  simp only [PtpTimestamp.total, PtpTimestamp.parts, Parts.total, zero] at large
  omega

theorem waiting_status {d : Device} (waits : ¬ coarseDue d.timesync = true) {r : Report}
    (coarse : CoarseReport r) :
    (processReport d r).1.timesync.status = d.timesync.status := by
  rw [processReport_coarse coarse.seconds]
  dsimp only
  rw [coarse_status, if_neg (fun both => waits both.1)]

/- A whole run of coarse reports. -/

theorem fine_never_sets (d : Device) (status : d.timesync.status = .fine) (rs : List Report)
    (coarse : ∀ r ∈ rs, CoarseReport r) :
    ∀ writes ∈ outputs processReport d rs, setsClock writes = false := by
  induction rs generalizing d with
  | nil => intro writes h; contradiction
  | cons r rs ih =>
    have waits : ¬ coarseDue d.timesync = true := by simp [coarseDue, status]
    have first := coarse r List.mem_cons_self
    have stays := (waiting_status waits first).trans status
    intro writes h
    rcases List.mem_cons.mp h with h | h
    · rw [h, processReport_coarse first.seconds, coarse_writes,
        if_neg (fun both => waits both.1)]
      rfl
    · exact ih (processReport d r).1 stays (fun x hx => coarse x (List.mem_cons_of_mem _ hx))
        writes h

theorem due_sets (d : Device) (due : coarseDue d.timesync = true) {r : Report}
    (coarse : CoarseReport r) (rest : List Report) :
    ∃ writes ∈ outputs processReport d (r :: rest), setsClock writes = true := by
  refine ⟨_, List.mem_cons_self, ?_⟩
  rw [processReport_coarse coarse.seconds]
  exact (coarse_sets_iff _ _ _ _ _).mpr ⟨due, coarse.synced⟩

/-- In `TS_COARSE` the counter says how many more reports pass before the clock is set. -/
theorem coarse_sets_within (d : Device) (counter : CounterOk d.timesync)
    (status : d.timesync.status = .coarse) (rs : List Report)
    (enough : 60 < d.timesync.receiveCounter.toInt + rs.length)
    (coarse : ∀ r ∈ rs, CoarseReport r) :
    ∃ writes ∈ outputs processReport d rs, setsClock writes = true := by
  refine (fires_iff processReport setsClock (fun d => d.timesync.receiveCounter.toInt) 60
    (fun d => CounterOk d.timesync ∧ d.timesync.status = .coarse) CoarseReport
    (fun d waiting => waiting.1.2) ?_ ?_ rs d ⟨counter, status⟩ coarse).mpr enough
  · intro d r waiting first
    rw [processReport_coarse first.seconds, coarse_sets_iff,
      coarse_full_iff d.timesync waiting.1 waiting.2]
    exact and_iff_left first.synced
  · intro d r waiting first below
    have next := process_counterOk d waiting.1 r
    rw [processReport_coarse first.seconds] at next ⊢
    obtain ⟨stays, counted⟩ := coarse_counts d.timesync d.tsu.sUptimeMs r.reads r.syncTs.seconds
      r.syncTs.nanosec.toUInt32 waiting.1 waiting.2 below
    exact ⟨⟨next, stays⟩, counted⟩

/-- After any history, 61 coarse reports set the clock exactly if they do not find the
service in `TS_FINE`, which no report can make it leave. -/
theorem large_error_corrected_iff (history rs : List Report) (length : rs.length = 61)
    (coarse : ∀ r ∈ rs, CoarseReport r) :
    (∃ writes ∈ outputs processReport (after processReport .init history) rs,
        setsClock writes = true) ↔
      (after processReport .init history).timesync.status ≠ .fine := by
  have counter : CounterOk (after processReport .init history).timesync :=
    after_invariant processReport (fun d => CounterOk d.timesync) process_counterOk
      counterOk_init history
  generalize after processReport .init history = d at counter ⊢
  constructor
  · rintro ⟨writes, member, sets⟩ fine
    have silent := fine_never_sets d fine rs coarse writes member
    rw [sets] at silent
    contradiction
  · intro notFine
    by_cases due : coarseDue d.timesync = true
    · obtain _ | ⟨r, rest⟩ := rs
      · contradiction
      · exact due_sets d due (coarse r List.mem_cons_self) rest
    · have status : d.timesync.status = .coarse := by
        have blocked := mt (coarseDue_iff counter).mpr due
        cases status : d.timesync.status <;> simp_all
      have := counter.1
      exact coarse_sets_within d counter status rs (by omega) coarse

def fineReportExample : Report := ⟨⟨1000, 0⟩, ⟨0, 100⟩, ⟨1000, 0, 1000⟩⟩

def coarseReportExample : Report := ⟨⟨1005, 0⟩, ⟨5, 0⟩, ⟨1000, 0, 1000⟩⟩

theorem coarseReportExample_coarse : CoarseReport coarseReportExample :=
  coarse_of_large (by decide) (by decide) (by decide)

theorem synchronised_once_sets :
    (∃ writes ∈ outputs processReport (after processReport .init [coarseReportExample])
        (List.replicate 61 coarseReportExample), setsClock writes = true) ↔
      (after processReport .init [coarseReportExample]).timesync.status ≠ .fine :=
  large_error_corrected_iff [coarseReportExample] (List.replicate 61 coarseReportExample)
    List.length_replicate
    (fun _ hr => List.eq_of_mem_replicate hr ▸ coarseReportExample_coarse)

/-- After one fine report, 61 reports of an error of 5 s leave the clock as it is. -/
theorem large_error_ignored :
    ¬ ∀ history rs : List Report, rs.length = 61 →
      (∀ r ∈ rs, 1000000000 ≤ r.diffTs.total.natAbs ∧ r.syncTs.seconds > 0) →
      ∃ writes ∈ outputs processReport (after processReport .init history) rs,
        setsClock writes = true := by
  intro h
  obtain ⟨writes, member, sets⟩ := h [fineReportExample] (List.replicate 61 coarseReportExample)
    List.length_replicate (fun r hr => List.eq_of_mem_replicate hr ▸ ⟨by decide, by decide⟩)
  have silent := fine_never_sets (after processReport .init [fineReportExample]) rfl
    (List.replicate 61 coarseReportExample)
    (fun _ hr => List.eq_of_mem_replicate hr ▸ coarseReportExample_coarse) writes member
  rw [sets] at silent
  contradiction

end StandalonePtp
