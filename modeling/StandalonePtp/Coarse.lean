import Mathlib.Data.List.Induction
import StandalonePtp.Pulse

/-! What the status of the service says about the clock, and how often a coarse time sets it. -/
namespace StandalonePtp

open Run Words

theorem call_coarse (s : Service) {i : Invocation} (coarse : i.isCoarse = true) :
    ∃ nanoseconds,
      (s.call i).1.timesync =
        (coarseTimeReceived s.timesync i.uptimeMs i.reads i.timestamp nanoseconds).1 ∧
      (s.call i).2 =
        (coarseTimeReceived s.timesync i.uptimeMs i.reads i.timestamp nanoseconds).2 := by
  obtain ⟨callback, time, reads⟩ := i
  cases callback with
  | coarseTimeReceived timestamp nanoseconds => exact ⟨nanoseconds, rfl, rfl⟩
  | _ => contradiction

theorem call_sets_iff (s : Service) {i : Invocation} (coarse : i.isCoarse = true) :
    setsClock (s.call i).2 = true ↔ coarseDue s.timesync = true ∧ i.timestamp > 0 := by
  obtain ⟨nanoseconds, -, writes⟩ := call_coarse s coarse
  rw [writes, coarse_sets_iff]

/- The status. -/

def Service.advertises (s : Service) : Bool :=
  s.timesync.status = .coarse || s.timesync.status = .fine

theorem not_advertises_iff (s : Service) :
    s.advertises = false ↔ s.timesync.status = .never ∨ s.timesync.status = .lost := by
  cases status : s.timesync.status <;> simp [Service.advertises, status]

theorem call_advertises {s : Service} (lost : s.advertises = false) {i : Invocation}
    (notFine : i.isFine = false) : (s.call i).1.advertises = i.isCoarse := by
  have out := (not_advertises_iff s).mp lost
  obtain ⟨callback, time, reads⟩ := i
  cases callback with
  | coarseTimeReceived timestamp nanoseconds =>
    simp only [Service.advertises, Service.call, coarse_status_cases, Invocation.isCoarse]
    split <;> rfl
  | fineTimeReceived timestamp nanoseconds => contradiction
  | ppsReceived =>
    obtain ⟨-, same | ⟨coarse, -⟩⟩ := call_pulse s time reads
    · rw [Service.advertises, same]
      exact lost
    · simp [coarse] at out
  | coarseTimeout =>
    rcases out with out | out <;>
      simp [Service.advertises, Service.call, coarseTimeout, out, Invocation.isCoarse]
  | fineTimeout =>
    rcases out with out | out <;>
      simp [Service.advertises, Service.call, fineTimeout, out, Invocation.isCoarse]
  | errorReport errorNs avgErrorNs => exact lost

/-- A coarse time that ends `TS_NEVER` or `TS_LOST` sets the clock if it is positive. -/
theorem call_recovers {s : Service} (lost : s.advertises = false) {i : Invocation}
    (coarse : i.isCoarse = true) :
    (s.call i).1.timesync.status = .coarse ∧
      (setsClock (s.call i).2 = true ↔ i.timestamp > 0) := by
  have out := (not_advertises_iff s).mp lost
  have due : coarseDue s.timesync = true := by
    rcases out with out | out <;> simp [coarseDue, out]
  obtain ⟨nanoseconds, next, -⟩ := call_coarse s coarse
  constructor
  · rw [next, coarse_status_cases]
    rcases out with out | out <;> simp [out]
  · rw [call_sets_iff s coarse]
    exact and_iff_right due

/-- The clock was set by some call, and since that call the status has not been `TS_NEVER`
or `TS_LOST`. -/
def SetSince (before : List Invocation) : Prop :=
  ∃ early i late, before = early ++ i :: late ∧
    setsClock ((after Service.call .init early).call i).2 = true ∧
    ∀ part, part <+: late → (after Service.call .init (early ++ i :: part)).advertises = true

theorem setSince_append (before : List Invocation) (i : Invocation) :
    SetSince (before ++ [i]) ↔
      (after Service.call .init (before ++ [i])).advertises = true ∧
        (SetSince before ∨ setsClock ((after Service.call .init before).call i).2 = true) := by
  constructor
  · rintro ⟨early, j, late, split, sets, stays⟩
    have now := stays late (List.prefix_refl _)
    rw [← split] at now
    refine ⟨now, ?_⟩
    rcases List.eq_nil_or_concat late with rfl | ⟨late', k, rfl⟩
    · obtain ⟨rfl, same⟩ := List.append_inj' split rfl
      cases same
      exact .inr sets
    · have regrouped : before ++ [i] = (early ++ j :: late') ++ [k] := by simpa using split
      obtain ⟨rfl, -⟩ := List.append_inj' regrouped rfl
      exact .inl ⟨early, j, late', rfl, sets,
        fun part prefix' => stays part (prefix'.trans (List.prefix_concat _ _))⟩
  · rintro ⟨now, ⟨early, j, late, rfl, sets, stays⟩ | sets⟩
    · refine ⟨early, j, late ++ [i], by simp, sets, fun part prefix' => ?_⟩
      rcases List.prefix_concat_iff.mp prefix' with rfl | inside
      · simpa using now
      · exact stays part inside
    · refine ⟨before, i, [], rfl, sets, fun part prefix' => ?_⟩
      rwa [List.prefix_nil.mp prefix']

theorem setSince_advertises {before : List Invocation} (since : SetSince before) :
    (after Service.call .init before).advertises = true := by
  obtain ⟨early, i, late, rfl, -, stays⟩ := since
  exact stays late (List.prefix_refl _)

def PositiveWhenLost (before : List Invocation) (i : Invocation) : Prop :=
  i.isCoarse = true → (after Service.call .init before).advertises = false → i.timestamp > 0

theorem setSince_step {before : List Invocation} {i : Invocation} (notFine : i.isFine = false)
    (since : (after Service.call .init before).advertises = true → SetSince before)
    (positive : PositiveWhenLost before i)
    (now : (after Service.call .init (before ++ [i])).advertises = true) :
    SetSince (before ++ [i]) := by
  rw [setSince_append]
  refine ⟨now, ?_⟩
  cases status : (after Service.call .init before).advertises with
  | true => exact .inl (since status)
  | false =>
    rw [after_append, after, after, call_advertises status notFine] at now
    exact .inr ((call_recovers status now).2.mpr (positive now status))

theorem advertised_set (rs : List Invocation) (notFine : ∀ i ∈ rs, i.isFine = false)
    (positive : ∀ before i later, rs = before ++ i :: later → PositiveWhenLost before i)
    (now : (after Service.call .init rs).advertises = true) : SetSince rs := by
  induction rs using List.reverseRecOn with
  | nil => contradiction
  | append_singleton before i ih =>
    simp only [List.mem_append, List.mem_singleton] at notFine
    refine setSince_step (notFine i (.inr rfl)) (ih (fun j hj => notFine j (.inl hj)) ?_)
      (positive before i [] rfl) now
    rintro early j late rfl
    exact positive early j (late ++ [i]) (by simp)

/-- A coarse time brings the service back whatever it says, and sets the clock if it is
positive. So without a fine time the status speaks of a clock that was set, exactly if
every coarse time that brought the service back was positive. -/
theorem advertised_set_iff :
    (∀ before i, i.isCoarse = true → (after Service.call .init before).advertises = false →
      ((after Service.call .init before).call i).1.timesync.status = .coarse ∧
        (setsClock ((after Service.call .init before).call i).2 = true ↔ i.timestamp > 0)) ∧
    ∀ rs : List Invocation, (∀ i ∈ rs, i.isFine = false) →
      ((∀ before later, rs = before ++ later →
          (after Service.call .init before).advertises = true → SetSince before) ↔
        ∀ before i later, rs = before ++ i :: later → PositiveWhenLost before i) := by
  refine ⟨fun before i coarse lost => call_recovers lost coarse, fun rs notFine => ⟨?_, ?_⟩⟩
  · rintro property before i later rfl coarse lost
    obtain ⟨status, sets⟩ := call_recovers lost coarse
    have back : (after Service.call .init (before ++ [i])).advertises = true := by
      rw [after_append, after, after, Service.advertises, status]
      rfl
    have since := property (before ++ [i]) later (by simp) back
    rcases ((setSince_append before i).mp since).2 with earlier | set
    · rw [setSince_advertises earlier] at lost
      contradiction
    · exact sets.mp set
  · rintro positive before later rfl now
    refine advertised_set before (fun i hi => notFine i (List.mem_append_left later hi)) ?_ now
    rintro early i late rfl
    exact positive early i (late ++ later) (by simp)

theorem advertised_set_example :
    (∀ before later, [coarseAt 0 41, pulseAt 1000 0] = before ++ later →
      (after Service.call .init before).advertises = true → SetSince before) ↔
    ∀ before i later, [coarseAt 0 41, pulseAt 1000 0] = before ++ i :: later →
      PositiveWhenLost before i :=
  advertised_set_iff.2 [coarseAt 0 41, pulseAt 1000 0] (by decide)

/-- The epoch itself brings the service back but does not reach the clock. -/
theorem advertised_without_setting :
    ¬ ∀ before i, i.isCoarse = true →
      ((after Service.call .init before).timesync.status = .never ∨
        (after Service.call .init before).timesync.status = .lost) →
      ((after Service.call .init before).call i).1.timesync.status = .coarse →
      setsClock ((after Service.call .init before).call i).2 = true := by
  intro h
  have set := h [] (coarseAt 0 0) rfl (.inl rfl) (by decide)
  revert set
  decide

/- The counter. -/

theorem call_counterOk (s : Service) (h : CounterOk s.timesync) (i : Invocation) :
    CounterOk (s.call i).1.timesync := by
  cases coarse : i.isCoarse with
  | true =>
    obtain ⟨nanoseconds, next, -⟩ := call_coarse s coarse
    rw [next]
    exact coarse_counterOk s.timesync i.uptimeMs i.reads i.timestamp nanoseconds h
  | false =>
    rw [CounterOk, (call_not_coarse s coarse).2]
    exact h

theorem service_counterOk (before : List Invocation) :
    CounterOk (after Service.call .init before).timesync :=
  after_invariant Service.call (fun s => CounterOk s.timesync) call_counterOk counterOk_init before

/-- How many coarse times in a row set the clock, by what was counted before them. -/
theorem window_sets_iff {s : Service} (counter : CounterOk s.timesync)
    (status : s.timesync.status = .coarse) {window : List Invocation}
    (coarse : ∀ i ∈ window, i.isCoarse = true ∧ i.timestamp > 0) :
    (∃ writes ∈ outputs Service.call s window, setsClock writes = true) ↔
      60 < s.timesync.receiveCounter.toInt + window.length := by
  refine fires_iff Service.call setsClock (fun s => s.timesync.receiveCounter.toInt) 60
    (fun s => CounterOk s.timesync ∧ s.timesync.status = .coarse)
    (fun i => i.isCoarse = true ∧ i.timestamp > 0) (fun s waiting => waiting.1.2) ?_ ?_ window s
    ⟨counter, status⟩ coarse
  · rintro s i ⟨counter, status⟩ ⟨coarse, positive⟩
    rw [call_sets_iff s coarse, coarse_full_iff s.timesync counter status]
    exact and_iff_left positive
  · rintro s i ⟨counter, status⟩ ⟨coarse, -⟩ below
    have kept := call_counterOk s counter i
    obtain ⟨nanoseconds, next, -⟩ := call_coarse s coarse
    rw [next] at kept ⊢
    obtain ⟨stays, counted⟩ :=
      coarse_counts s.timesync i.uptimeMs i.reads i.timestamp nanoseconds counter status below
    exact ⟨⟨kept, stays⟩, counted⟩

/-- Sixty coarse times in a row set the clock unless the first of them is the first to be
counted: the test comes after the increment and is strict. -/
theorem resync_window_iff (before window : List Invocation) (length : window.length = 60)
    (status : (after Service.call .init before).timesync.status = .coarse)
    (coarse : ∀ i ∈ window, i.isCoarse = true ∧ i.timestamp > 0) :
    (∃ writes ∈ outputs Service.call (after Service.call .init before) window,
        setsClock writes = true) ↔
      (after Service.call .init before).timesync.receiveCounter ≠ 0 := by
  have counter := service_counterOk before
  have low := counter.1
  have zero : (after Service.call .init before).timesync.receiveCounter = 0 ↔
      (after Service.call .init before).timesync.receiveCounter.toInt = 0 := Int32.toInt_inj.symm
  rw [window_sets_iff counter status coarse, ne_eq, zero, length]
  omega

theorem resync_window_example :
    (∃ writes ∈ outputs Service.call
        (after Service.call .init [coarseAt 0 41, coarseAt 1000 42])
        (List.replicate 60 (coarseAt 2000 43)), setsClock writes = true) ↔
      (after Service.call .init [coarseAt 0 41, coarseAt 1000 42]).timesync.receiveCounter ≠ 0 :=
  resync_window_iff [coarseAt 0 41, coarseAt 1000 42] (List.replicate 60 (coarseAt 2000 43))
    List.length_replicate (by decide) (fun _ hi => List.eq_of_mem_replicate hi ▸ by decide)

/-- After the coarse time that ends `TS_NEVER`, sixty more do not set the clock. -/
theorem resync_window_missed :
    ¬ ∀ before window : List Invocation, window.length = 60 →
      (after Service.call .init before).timesync.status = .coarse →
      (∀ i ∈ window, i.isCoarse = true ∧ i.timestamp > 0) →
      ∃ writes ∈ outputs Service.call (after Service.call .init before) window,
        setsClock writes = true := by
  intro h
  have coarse : ∀ i ∈ List.replicate 60 (coarseAt 1000 42), i.isCoarse = true ∧ i.timestamp > 0 :=
    fun _ hi => List.eq_of_mem_replicate hi ▸ by decide
  have set := h [coarseAt 0 41] _ List.length_replicate (by decide) coarse
  have missed := window_sets_iff (service_counterOk [coarseAt 0 41]) (by decide) coarse
  rw [List.length_replicate] at missed
  exact absurd (missed.mp set) (by decide)

end StandalonePtp
