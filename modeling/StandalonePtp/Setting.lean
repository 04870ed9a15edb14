import StandalonePtp.Counter
import StandalonePtp.Resync

/-! What the clock shows after a report has set it. -/
namespace StandalonePtp

open Words

/-- The nanoseconds a report sets: those of its time, but none at all keep the clock's own. -/
def settingNanosec (r : Report) : Int :=
  if r.syncTs.nanosec.toInt = 0 then (tsuGetTime r.reads).nanosec.toNat
  else r.syncTs.nanosec.toInt

/-- Every time register that is written takes its field of this time. -/
def WritesTime (time : Parts) (writes : List XilOut32) : Prop :=
  ∀ w ∈ writes, (w.register = .tsuTimerSecGem0 → w.value.toNat = time.high) ∧
    (w.register = .tsuTimerNsGem0 → w.value.toNat = time.low)

/-- Only a coarse report whose time is due sets the clock, and to its own time. -/
theorem setting_writes {d : Device} {r : Report} (sets : setsClock (processReport d r).2 = true) :
    (processReport d r).2 =
      tsuSetTime (coarseTime r.reads r.syncTs.seconds r.syncTs.nanosec.toUInt32) := by
  by_cases fine : r.diffTs.seconds = 0
  · rw [processReport_fine fine] at sets
    contradiction
  · rw [processReport_coarse fine, coarse_writes] at sets ⊢
    split at sets
    · rename_i due
      rw [if_pos due]
    · contradiction

def settingTime (r : Report) : Parts :=
  ⟨r.syncTs.seconds.toInt % 4294967296, settingNanosec r⟩

theorem coarseTime_nanosec {r : Report} (normal : r.syncTs.Normalised) :
    ((coarseTime r.reads r.syncTs.seconds r.syncTs.nanosec.toUInt32).nanosec.toNat : Int) =
      settingNanosec r := by
  have nonneg := toUInt32_toNat normal.1
  have zero : (0 : UInt32).toNat = 0 := rfl
  simp only [coarseTime, settingNanosec, gt_iff_lt, UInt32.lt_iff_toNat_lt, zero]
  by_cases none : r.syncTs.nanosec.toInt = 0
  · rw [if_neg (by omega), if_pos none]
  · rw [if_pos (by omega), if_neg none, nonneg]

theorem settingTime_normal {r : Report} (normal : r.syncTs.Normalised)
    (clock : r.reads.nsec.toNat < 1000000000) : (settingTime r).Normal 1000000000 := by
  have kept := tsuGetTime_nanosec_lt clock
  obtain ⟨low, high⟩ := normal
  simp only [settingTime, Parts.Normal, settingNanosec]
  split <;> omega

theorem coarseTime_registers {r : Report} (normal : r.syncTs.Normalised) :
    Parts.mk
        (coarseTime r.reads r.syncTs.seconds r.syncTs.nanosec.toUInt32).seconds.toUInt32.toNat
        (coarseTime r.reads r.syncTs.seconds r.syncTs.nanosec.toUInt32).nanosec.toNat =
      settingTime r := by
  rw [settingTime, coarseTime_nanosec normal, ← toUInt32_toUInt64]
  rfl

theorem setting_counter {r : Report} (normal : r.syncTs.Normalised)
    (clock : r.reads.nsec.toNat < 1000000000) (counter : Parts) :
    writeRegisters 0 counter
        (tsuSetTime (coarseTime r.reads r.syncTs.seconds r.syncTs.nanosec.toUInt32)) =
      settingTime r := by
  have small := (settingTime_normal normal clock).2
  rw [settingTime, ← coarseTime_nanosec normal] at small
  rw [setTime_at_once counter (Int.ofNat_lt.mp small), coarseTime_registers normal]

theorem setTime_writes (ts : TsuTimestamp) :
    WritesTime ⟨ts.seconds.toUInt32.toNat, ts.nanosec.toNat⟩ (tsuSetTime ts) := by
  intro w hw
  simp only [tsuSetTime, List.mem_cons, List.not_mem_nil, or_false] at hw
  rcases hw with rfl | rfl
  · constructor
    · intro other
      contradiction
    · intro _
      rfl
  · constructor
    · intro _
      rfl
    · intro other
      contradiction

/-- A report sets the seconds register to the low 32 bits of its seconds and the other to
its nanoseconds, or to the clock's own where it has none, and this is what is read back. -/
theorem report_sets_time (d : Device) (r : Report) (counter : Parts)
    (sets : setsClock (processReport d r).2 = true)
    (seconds : 0 < r.syncTs.seconds.toInt ∧ r.syncTs.seconds.toInt < 281474976710656)
    (normal : r.syncTs.Normalised) (clock : r.reads.nsec.toNat < 1000000000) :
    WritesTime (settingTime r) (processReport d r).2 ∧
      (let set := writeRegisters 0 counter (processReport d r).2
       let read := getSystime (sampled set set set)
       read.parts = settingTime r ∧
         (r.syncTs.seconds.toInt < 4294967296 → 0 < r.syncTs.nanosec.toInt →
           read = r.syncTs)) := by
  have writes := setTime_writes (coarseTime r.reads r.syncTs.seconds r.syncTs.nanosec.toUInt32)
  rw [coarseTime_registers normal] at writes
  have range : 0 ≤ (settingTime r).high ∧ (settingTime r).high < 4294967296 := by
    simp only [settingTime]
    omega
  have read := GetTime.standing_systime (settingTime_normal normal clock) range
  simp only [setting_writes sets, setting_counter normal clock, read]
  refine ⟨writes, trivial, fun short positive => PtpTimestamp.parts_inj ?_⟩
  rw [read, PtpTimestamp.parts, settingTime, settingNanosec, if_neg (by omega),
    Int.emod_eq_of_lt (by omega) short]

/-- The clock is 5 s behind, and the synchronised time is 250 ns into a second. -/
def settingExample : Report := ⟨⟨1005, 250⟩, ⟨5, 243⟩, ⟨1000, 7, 1000⟩⟩

theorem settingExample_sets :
    (let set := writeRegisters 0 ⟨1000, 9⟩ (processReport .init settingExample).2
     (getSystime (sampled set set set)).parts = settingTime settingExample) :=
  (report_sets_time .init settingExample ⟨1000, 9⟩ (by decide) (by decide) (by decide)
    (by decide)).2.1

/-- A synchronised time at the start of a second keeps the 7 ns of the clock. -/
theorem setting_keeps_nanosec :
    ¬ ∀ (d : Device) (r : Report), setsClock (processReport d r).2 = true →
      0 < r.syncTs.seconds.toInt ∧ r.syncTs.seconds.toInt < 281474976710656 →
      r.syncTs.Normalised → r.reads.nsec.toNat < 1000000000 →
        WritesTime r.syncTs.parts (processReport d r).2 := by
  intro h
  have written := h .init ⟨⟨1005, 0⟩, ⟨5, -7⟩, ⟨1000, 7, 1000⟩⟩ (by decide) (by decide) (by decide)
    (by decide) ⟨.tsuTimerNsGem0, 7⟩ (by decide)
  exact absurd (written.2 rfl) (by decide)

end StandalonePtp
