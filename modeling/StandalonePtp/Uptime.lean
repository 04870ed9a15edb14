import Mathlib.Data.List.Destutter
import Mathlib.Data.List.DropRight
import StandalonePtp.Flow
import StandalonePtp.Pulse

/-! Reports, pulses, timeouts and housekeeping on one device. Its uptime is not a clock: it
advances when a fine report is handled, and at no other time. -/
namespace StandalonePtp

open Run Words

/-- Coarse and fine times come with the reports, as in the program. -/
inductive DeviceEvent where
  | report (r : Report)
  | pulse (reads : TsuReads)
  | coarseTimeout
  | fineTimeout
  | housekeeping
  deriving DecidableEq, Repr

namespace DeviceEvent

def isFine : DeviceEvent → Bool
  | .report r => r.diffTs.seconds = 0
  | _ => false

def isCoarse : DeviceEvent → Bool
  | .report r => r.diffTs.seconds ≠ 0
  | _ => false

def isPulse : DeviceEvent → Bool
  | .pulse _ => true
  | _ => false

end DeviceEvent

/-- The device with the static of `housekeeping`. -/
structure Housekept where
  device : Device
  statusPrev : TimesyncStatus
  deriving DecidableEq, Repr

def Housekept.init : Housekept := ⟨.init, .never⟩

structure Answer where
  writes : List XilOut32
  logged : List TimesyncStatus
  deriving DecidableEq, Repr

/-- A change of the status is logged. The monitor behind it is switched off for good. -/
def housekeeping (status statusPrev : TimesyncStatus) : TimesyncStatus × List TimesyncStatus :=
  if status ≠ statusPrev then (status, [status]) else (statusPrev, [])

def Housekept.call (h : Housekept) : DeviceEvent → Housekept × Answer
  | .report r =>
    let done := processReport h.device r
    (⟨done.1, h.statusPrev⟩, ⟨done.2, []⟩)
  | .pulse reads =>
    let done := ppsReceived h.device.timesync h.device.tsu reads
    (⟨{ h.device with timesync := done.1, tsu := done.2.1 }, h.statusPrev⟩, ⟨done.2.2, []⟩)
  | .coarseTimeout =>
    (⟨{ h.device with timesync := coarseTimeout h.device.timesync }, h.statusPrev⟩, ⟨[], []⟩)
  | .fineTimeout =>
    (⟨{ h.device with timesync := fineTimeout h.device.timesync }, h.statusPrev⟩, ⟨[], []⟩)
  | .housekeeping =>
    let done := housekeeping h.device.timesync.status h.statusPrev
    (⟨h.device, done.1⟩, ⟨[], done.2⟩)

/- One event. -/

def uptime (h : Housekept) : UInt32 := h.device.tsu.sUptimeMs

theorem call_uptime (h : Housekept) (e : DeviceEvent) :
    uptime (h.call e).1 = if e.isFine then uptime h + 1 else uptime h := by
  cases e with
  | report r =>
    by_cases fine : r.diffTs.seconds = 0
    · simp [uptime, Housekept.call, processReport_fine fine, DeviceEvent.isFine, fine, tsuSystickCb,
        tuned, fineTune_uptime]
    · simp [uptime, Housekept.call, processReport_coarse fine, DeviceEvent.isFine, fine]
  | pulse reads => exact (pps_uptime h.device.timesync h.device.tsu reads).1
  | coarseTimeout => rfl
  | fineTimeout => rfl
  | housekeeping => rfl

/-- Each event takes the stamps it is there for, at the uptime it finds. -/
theorem call_stamps (h : Housekept) (e : DeviceEvent) :
    (h.call e).1.device.timesync.lastPpsTimeStamp =
        (if e.isPulse then uptime h else h.device.timesync.lastPpsTimeStamp) ∧
      (h.call e).1.device.timesync.lastCoarseTimeStamp =
        (if e.isCoarse then uptime h else h.device.timesync.lastCoarseTimeStamp) := by
  cases e with
  | report r =>
    by_cases fine : r.diffTs.seconds = 0
    · simp [Housekept.call, processReport_fine fine, DeviceEvent.isPulse, DeviceEvent.isCoarse, fine,
        updateError]
    · simp [Housekept.call, processReport_coarse fine, DeviceEvent.isPulse, DeviceEvent.isCoarse,
        fine, coarse_stamps, coarse_noted, uptime]
  | pulse reads =>
    exact ⟨(pps_uptime _ _ reads).2, (pps_keeps h.device.timesync h.device.tsu reads).2.2.1⟩
  | coarseTimeout => exact ⟨rfl, rfl⟩
  | fineTimeout => exact fineTimeout_stamps h.device.timesync
  | housekeeping => exact ⟨rfl, rfl⟩

/- Whole runs. -/

/-- The events after the latest of the marked ones. -/
def sinceLatest (p : DeviceEvent → Bool) (es : List DeviceEvent) : List DeviceEvent :=
  es.rtakeWhile (fun e => !p e)

/-- A stamp that marked events take, none of them a fine report, is as old as there have been
fine reports since. -/
theorem stamp_age (stamp : Housekept → UInt32) (p : DeviceEvent → Bool)
    (initial : stamp .init = uptime .init)
    (taken : ∀ h e, stamp (h.call e).1 = if p e then uptime h else stamp h)
    (notFine : ∀ e, p e = true → e.isFine = false) (es : List DeviceEvent) :
    uptime (after Housekept.call .init es) - stamp (after Housekept.call .init es) =
      UInt32.ofNat ((sinceLatest p es).countP DeviceEvent.isFine) := by
  induction es using List.reverseRecOn with
  | nil =>
    rw [after, initial, UInt32.sub_self]
    rfl
  | append_singleton es e ih =>
    rw [after_append, after, after, call_uptime, taken, sinceLatest, List.rtakeWhile_concat]
    cases marked : p e with
    | true =>
      rw [notFine e marked]
      simp
    | false =>
      rw [← sinceLatest]
      cases fine : e.isFine with
      | true =>
        have regroup : ∀ a b : UInt32, a + 1 - b = a - b + 1 := by
          intro a b
          rw [UInt32.sub_eq_add_neg, UInt32.sub_eq_add_neg, UInt32.add_assoc, UInt32.add_comm 1,
            ← UInt32.add_assoc]
        simp [fine, List.countP_append, UInt32.ofNat_add, ← ih, regroup]
      | false => simp [fine, List.countP_append, ih]

theorem age_signed (n : Nat) :
    (UInt32.ofNat n).toInt32.toInt =
      if n % 4294967296 < 2147483648 then ((n % 4294967296 : Nat) : Int)
      else ((n % 4294967296 : Nat) : Int) - 4294967296 := by
  have age := stampAge (Nat.zero_le n)
  rwa [Nat.sub_zero, show UInt32.ofNat 0 = 0 from rfl, UInt32.sub_zero] at age

/-- What the service takes for milliseconds are fine reports: a pulse is in its period after
950 to 1050 of them since the previous pulse, and a coarse time is stale after a thousand. -/
theorem ages_count_reports (es : List DeviceEvent) :
    let d := (after Housekept.call .init es).device
    (ppsInPeriod d.timesync d.tsu = true ↔
      let n := (sinceLatest DeviceEvent.isPulse es).countP DeviceEvent.isFine % 4294967296
      950 ≤ n ∧ n ≤ 1050) ∧
    (coarseStampAge d.timesync d.tsu ≥ coarseTimeAgeMax ↔
      ToldStale ((sinceLatest DeviceEvent.isCoarse es).countP DeviceEvent.isFine)) := by
  intro d
  have pulses := stamp_age (fun h => h.device.timesync.lastPpsTimeStamp) DeviceEvent.isPulse rfl
    (fun h e => (call_stamps h e).1) (fun e pulse => by cases e <;> trivial) es
  have coarses := stamp_age (fun h => h.device.timesync.lastCoarseTimeStamp)
    DeviceEvent.isCoarse rfl (fun h e => (call_stamps h e).2) (fun e coarse => by
      cases e <;> simp_all [DeviceEvent.isCoarse, DeviceEvent.isFine]) es
  constructor
  · have signed := age_signed ((sinceLatest DeviceEvent.isPulse es).countP DeviceEvent.isFine)
    have low : ppsPeriodLow.toInt = 950 := by decide
    have high : ppsPeriodHigh.toInt = 1050 := by decide
    rw [← pulses] at signed
    change (d.tsu.sUptimeMs - d.timesync.lastPpsTimeStamp).toInt32.toInt = _ at signed
    simp only [ppsInPeriod, Bool.not_eq_true', Bool.or_eq_false_iff, decide_eq_false_iff_not,
      gt_iff_lt, Int32.lt_iff_toInt_lt, low, high, signed]
    split <;> omega
  · have signed := age_signed ((sinceLatest DeviceEvent.isCoarse es).countP DeviceEvent.isFine)
    have limit : coarseTimeAgeMax.toInt = 1000 := by decide
    rw [← coarses] at signed
    change (coarseStampAge d.timesync d.tsu).toInt = _ at signed
    rw [ge_iff_le, Int32.le_iff_toInt_le, limit, signed, ToldStale]
    split <;> omega

/- The log of `housekeeping`. -/

/-- The statuses that the calls of `housekeeping` find. -/
def statuses (h : Housekept) : List DeviceEvent → List TimesyncStatus
  | [] => []
  | .housekeeping :: es => h.device.timesync.status :: statuses (h.call .housekeeping).1 es
  | e :: es => statuses (h.call e).1 es

theorem log_destutter (es : List DeviceEvent) (h : Housekept) :
    h.statusPrev :: (outputs Housekept.call h es).flatMap Answer.logged =
      (statuses h es).destutter' (· ≠ ·) h.statusPrev := by
  induction es generalizing h with
  | nil => rfl
  | cons e es ih =>
    have rest := ih (h.call e).1
    rw [outputs, List.flatMap_cons]
    cases e with
    | housekeeping =>
      rw [statuses, List.destutter'_cons]
      by_cases changed : h.statusPrev ≠ h.device.timesync.status
      · rw [if_pos changed]
        simpa [Housekept.call, housekeeping, Ne.symm changed] using rest
      · rw [if_neg changed]
        simpa [Housekept.call, housekeeping, (not_not.mp changed).symm] using rest
    | _ => exact rest

/-- Only a device that has never been synchronised has last logged that. -/
def LoggedNever (h : Housekept) : Prop :=
  h.device.timesync.status = .never → h.statusPrev = .never

theorem call_loggedNever (h : Housekept) (e : DeviceEvent) (logged : LoggedNever h) :
    LoggedNever (h.call e).1 := by
  cases e with
  | report r =>
    intro never
    by_cases fine : r.diffTs.seconds = 0
    · simp [Housekept.call, processReport_fine fine, updateError] at never
    · rw [Housekept.call, processReport_coarse fine] at never
      simp only [coarse_status_cases] at never
      split at never <;> contradiction
  | pulse reads =>
    intro never
    have kept := (pps_keeps h.device.timesync h.device.tsu reads).2.2.2.2
    simp only [Housekept.call] at never
    rw [never] at kept
    split at kept
    · contradiction
    · exact logged kept.symm
  | coarseTimeout =>
    intro never
    simp only [Housekept.call, coarseTimeout] at never
    split at never
    · contradiction
    · exact logged never
  | fineTimeout =>
    intro never
    simp only [Housekept.call, fineTimeout] at never
    split at never
    · split at never <;> contradiction
    · exact logged never
  | housekeeping =>
    intro never
    change h.device.timesync.status = .never at never
    simp [Housekept.call, housekeeping, never, logged never]

theorem call_logged (h : Housekept) (e : DeviceEvent) (logged : LoggedNever h) :
    .never ∉ (h.call e).2.logged := by
  cases e with
  | housekeeping =>
    simp only [Housekept.call, housekeeping]
    split
    · rename_i changed
      intro never
      have status := (List.mem_singleton.mp never).symm
      exact changed (status.trans (logged status).symm)
    · exact List.not_mem_nil
  | _ => exact List.not_mem_nil

/-- The log is the statuses that housekeeping finds, each change once, and after power-up it
never says that the device was never synchronised. -/
theorem log_changes (es : List DeviceEvent) :
    let log := (outputs Housekept.call .init es).flatMap Answer.logged
    .never :: log = (.never :: statuses .init es).destutter (· ≠ ·) ∧ .never ∉ log := by
  refine ⟨log_destutter es .init, fun never => ?_⟩
  obtain ⟨answer, answered, member⟩ := List.mem_flatMap.mp never
  have initial : LoggedNever .init := fun _ => rfl
  exact outputs_all Housekept.call LoggedNever (fun answer => .never ∉ answer.logged)
    call_loggedNever call_logged es initial answer answered member

end StandalonePtp
