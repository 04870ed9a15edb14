import StandalonePtp.Resync

/-! The time service under its six callbacks, in any order and at any uptime. -/
namespace StandalonePtp

open Run Words

inductive Callback where
  | coarseTimeReceived (timestamp : Int64) (nanoseconds : UInt32)
  | fineTimeReceived (timestamp : Int64) (nanoseconds : UInt32)
  | ppsReceived
  | coarseTimeout
  | fineTimeout
  | errorReport (errorNs avgErrorNs : Int32)
  deriving DecidableEq, Repr

/-- A callback, the uptime in milliseconds when it is called, and the clock reads it may
make. Software sees the uptime in a word of 32 bits. -/
structure Invocation where
  callback : Callback
  time : Nat
  reads : TsuReads
  deriving DecidableEq, Repr

def Invocation.uptimeMs (i : Invocation) : UInt32 := .ofNat i.time

structure Service where
  timesync : TimesyncState
  tsu : TsuState
  deriving DecidableEq, Repr

namespace Service

def init : Service := ⟨.init, .init⟩

def call (s : Service) (i : Invocation) : Service × List XilOut32 :=
  let tsu := { s.tsu with sUptimeMs := i.uptimeMs }
  match i.callback with
  | .coarseTimeReceived timestamp nanoseconds =>
    let r := coarseTimeReceived s.timesync i.uptimeMs i.reads timestamp nanoseconds
    (⟨r.1, tsu⟩, r.2)
  | .fineTimeReceived timestamp nanoseconds =>
    let r := fineTimeReceived s.timesync timestamp nanoseconds
    (⟨r.1, tsu⟩, r.2)
  | .ppsReceived =>
    let r := ppsReceived s.timesync tsu i.reads
    (⟨r.1, r.2.1⟩, r.2.2)
  | .coarseTimeout => (⟨StandalonePtp.coarseTimeout s.timesync, tsu⟩, [])
  | .fineTimeout => (⟨StandalonePtp.fineTimeout s.timesync, tsu⟩, [])
  | .errorReport errorNs avgErrorNs => (⟨updateError s.timesync errorNs avgErrorNs, tsu⟩, [])

end Service

/- The two flags of the service. -/

/-- Without a fine service the coarse service is the whole of the status. -/
def FlagsAgree (s : TimesyncState) : Prop :=
  s.status ≠ .fine → (s.coarseServiceOk = true ↔ s.status = .coarse)

theorem coarse_status_cases (s : TimesyncState) (uptimeMs : UInt32) (reads : TsuReads)
    (timestamp : Int64) (nanoseconds : UInt32) :
    (coarseTimeReceived s uptimeMs reads timestamp nanoseconds).1.status =
      if s.status = .fine then .fine else .coarse := by
  rw [coarse_status]
  cases status : s.status <;> simp [coarseDue, status]

theorem call_pulse (s : Service) (time : Nat) (reads : TsuReads) :
    (s.call ⟨.ppsReceived, time, reads⟩).1.timesync.coarseServiceOk = s.timesync.coarseServiceOk ∧
      ((s.call ⟨.ppsReceived, time, reads⟩).1.timesync.status = s.timesync.status ∨
        s.timesync.status = .coarse ∧
          (s.call ⟨.ppsReceived, time, reads⟩).1.timesync.status = .fine) := by
  obtain ⟨ok, -, -, -, status⟩ := pps_keeps s.timesync
    { s.tsu with sUptimeMs := (Invocation.mk .ppsReceived time reads).uptimeMs } reads
  refine ⟨ok, ?_⟩
  split at status
  · rename_i both
    exact .inr ⟨both.2, status⟩
  · exact .inl status

theorem call_flags (s : Service) (h : FlagsAgree s.timesync) (i : Invocation) :
    FlagsAgree (s.call i).1.timesync := by
  obtain ⟨callback, time, reads⟩ := i
  cases callback with
  | coarseTimeReceived timestamp nanoseconds =>
    intro notFine
    have noted := coarse_noted s.timesync (Invocation.mk (.coarseTimeReceived timestamp nanoseconds)
      time reads).uptimeMs reads timestamp nanoseconds
    simp only [Service.call, noted.1, coarse_status_cases] at notFine ⊢
    by_cases fine : s.timesync.status = .fine
    · rw [if_pos fine] at notFine
      contradiction
    · simp [fine]
  | fineTimeReceived timestamp nanoseconds =>
    intro notFine
    exact absurd rfl notFine
  | ppsReceived =>
    intro notFine
    obtain ⟨ok, same | ⟨-, fine⟩⟩ := call_pulse s time reads
    · rw [same] at notFine
      rw [ok, same]
      exact h notFine
    · exact absurd fine notFine
  | coarseTimeout =>
    intro _
    simp only [Service.call, coarseTimeout]
    cases s.timesync.status <;> simp
  | fineTimeout =>
    simp only [Service.call, fineTimeout]
    by_cases fine : s.timesync.status = .fine
    · cases ok : s.timesync.coarseServiceOk <;> simp [FlagsAgree, fine]
    · simpa only [if_neg fine] using h
  | errorReport errorNs avgErrorNs => exact h

theorem flags_after (before : List Invocation) :
    FlagsAgree (after Service.call .init before).timesync := by
  have initial : FlagsAgree Service.init.timesync := by
    intro _
    decide
  exact after_invariant Service.call (fun s => FlagsAgree s.timesync) call_flags initial before

theorem call_notNever (s : Service) (h : s.timesync.status ≠ .never) (i : Invocation) :
    (s.call i).1.timesync.status ≠ .never := by
  obtain ⟨callback, time, reads⟩ := i
  cases callback with
  | coarseTimeReceived timestamp nanoseconds =>
    simp only [Service.call, coarse_status_cases]
    split <;> decide
  | fineTimeReceived timestamp nanoseconds => simp [Service.call, fineTimeReceived]
  | ppsReceived =>
    obtain ⟨-, same | ⟨-, fine⟩⟩ := call_pulse s time reads
    · rw [same]
      exact h
    · rw [fine]
      decide
  | coarseTimeout =>
    simp only [Service.call, coarseTimeout]
    cases status : s.timesync.status <;> simp_all
  | fineTimeout =>
    simp only [Service.call, fineTimeout]
    split
    · cases s.timesync.coarseServiceOk <;> simp
    · exact h
  | errorReport errorNs avgErrorNs => exact h

/-- In every reachable state the flags agree, and `TS_NEVER` is not entered again. -/
theorem service_flags (earlier later : List Invocation) :
    FlagsAgree (after Service.call .init (earlier ++ later)).timesync ∧
      ((after Service.call .init earlier).timesync.status ≠ .never →
        (after Service.call .init (earlier ++ later)).timesync.status ≠ .never) := by
  constructor
  · exact flags_after (earlier ++ later)
  · intro left
    rw [after_append]
    exact after_invariant Service.call (fun s => s.timesync.status ≠ .never) call_notNever left later

end StandalonePtp
