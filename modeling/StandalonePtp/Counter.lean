import Mathlib.Data.List.Chain
import StandalonePtp.Exchange

/-! The counter behind the time registers. It runs on between two accesses and carries
into its seconds; a write replaces one field and leaves the other. -/
namespace StandalonePtp

open Words

namespace TsuTimestamp

def parts (ts : TsuTimestamp) : Parts := ⟨ts.seconds.toNat, ts.nanosec.toNat⟩

def total (ts : TsuTimestamp) : Int := ts.parts.total 1000000000

end TsuTimestamp

def writeRegister (counter : Parts) (w : XilOut32) : Parts :=
  match w.register with
  | .tsuTimerSecGem0 => { counter with high := w.value.toNat }
  | .tsuTimerNsGem0 => { counter with low := w.value.toNat }
  | .tsuTimerAdjust => counter.advance 1000000000 (adjustmentStep w.value)

def writeRegisters (gap : Nat) (counter : Parts) : List XilOut32 → Parts
  | [] => counter
  | [w] => writeRegister counter w
  | w :: rest => writeRegisters gap ((writeRegister counter w).advance 1000000000 gap) rest

/-- The three reads of `tsu_get_time`, each at its own value of the counter. -/
def sampled (first second third : Parts) : TsuReads :=
  ⟨.ofNat first.high.toNat, .ofNat second.low.toNat, .ofNat third.high.toNat⟩

/- Setting the clock. -/

theorem setTime_registers (gap : Nat) (counter : Parts) (ts : TsuTimestamp) :
    writeRegisters gap counter (tsuSetTime ts) =
      { (Parts.mk counter.high ts.nanosec.toNat).advance 1000000000 gap with
        high := ts.seconds.toUInt32.toNat } := by
  simp only [tsuSetTime, writeRegisters, writeRegister]

theorem seconds_written {ts : TsuTimestamp} (short : ts.seconds.toNat < 4294967296) :
    ts.seconds.toUInt32.toNat = ts.seconds.toNat := by
  rw [UInt64.toNat_toUInt32]
  exact Nat.mod_eq_of_lt short

/-- The second that the nanoseconds carry between the two writes is overwritten by the
second write, so the clock is set right only when they carry none. -/
theorem setTime_exact_iff (counter : Parts) (ts : TsuTimestamp)
    (seconds : ts.seconds.toNat < 4294967296) (normal : ts.nanosec.toNat < 1000000000)
    (gap : Nat) (short : gap < 1000000000) :
    writeRegisters gap counter (tsuSetTime ts) = ts.parts.advance 1000000000 gap ↔
      ts.nanosec.toNat + gap < 1000000000 := by
  rw [setTime_registers, seconds_written seconds]
  simp only [Parts.advance, TsuTimestamp.parts, Parts.mk.injEq, and_true]
  omega

theorem setTime_exact_example :
    writeRegisters 100 ⟨3, 4⟩ (tsuSetTime ⟨5, 250⟩) =
        (TsuTimestamp.parts ⟨5, 250⟩).advance 1000000000 (100 : Nat) ↔
      (250 : UInt32).toNat + 100 < 1000000000 :=
  setTime_exact_iff ⟨3, 4⟩ ⟨5, 250⟩ (by decide) (by decide) 100 (by decide)

/-- One nanosecond before a full second the clock comes out a second late. -/
theorem setTime_torn :
    ¬ ∀ (counter : Parts) (ts : TsuTimestamp) (gap : Nat), counter.Normal 1000000000 →
      ts.seconds.toNat < 4294967296 → ts.nanosec.toNat < 1000000000 → gap < 1000000000 →
        writeRegisters gap counter (tsuSetTime ts) = ts.parts.advance 1000000000 gap := by
  intro h
  have torn := h ⟨3, 4⟩ ⟨5, 999999999⟩ 1 ⟨by decide, by decide⟩ (by decide) (by decide) (by decide)
  revert torn
  decide

/-- With a carry the clock is behind by the second that it lost. -/
theorem setTime_late (counter : Parts) (ts : TsuTimestamp) (seconds : ts.seconds.toNat < 4294967296)
    (normal : ts.nanosec.toNat < 1000000000) (gap : Nat) (short : gap < 1000000000)
    (carry : 1000000000 ≤ ts.nanosec.toNat + gap) :
    (writeRegisters gap counter (tsuSetTime ts)).total 1000000000 =
      ts.total + gap - 1000000000 := by
  have advanced := Parts.total_advance 1000000000 gap ts.parts
  rw [← TsuTimestamp.total] at advanced
  rw [setTime_registers, seconds_written seconds, ← advanced]
  simp only [Parts.total, Parts.advance, TsuTimestamp.parts]
  omega

/-- Without a pause between the writes every counter takes both fields as they are. -/
theorem setTime_at_once (counter : Parts) {ts : TsuTimestamp}
    (normal : ts.nanosec.toNat < 1000000000) :
    writeRegisters 0 counter (tsuSetTime ts) =
      ⟨ts.seconds.toUInt32.toNat, ts.nanosec.toNat⟩ := by
  rw [setTime_registers, Parts.advance_within (by simp) (by simpa using Int.ofNat_lt.mpr normal)]
  simp

/- Reading the clock. -/

/-- One call of `tsu_get_time` on a counter of 32 bit seconds that does not step back. -/
structure GetTime where
  first : Parts
  second : Parts
  third : Parts
  firstNormal : first.Normal 1000000000
  secondNormal : second.Normal 1000000000
  thirdNormal : third.Normal 1000000000
  firstSeconds : 0 ≤ first.high ∧ first.high < 4294967296
  thirdSeconds : 0 ≤ third.high ∧ third.high < 4294967296
  firstSecond : first.total 1000000000 ≤ second.total 1000000000
  secondThird : second.total 1000000000 ≤ third.total 1000000000

namespace GetTime

def standing (counter : Parts) (normal : counter.Normal 1000000000)
    (seconds : 0 ≤ counter.high ∧ counter.high < 4294967296) : GetTime :=
  ⟨counter, counter, counter, normal, normal, normal, seconds, seconds, Int.le_refl _, Int.le_refl _⟩

def reads (c : GetTime) : TsuReads := sampled c.first c.second c.third

def returned (c : GetTime) : TsuTimestamp := tsuGetTime c.reads

theorem high_between (c : GetTime) :
    c.first.high ≤ c.second.high ∧ c.second.high ≤ c.third.high :=
  ⟨Parts.high_le c.firstNormal c.secondNormal c.firstSecond,
    Parts.high_le c.secondNormal c.thirdNormal c.secondThird⟩

/-- The nanoseconds are those of the second read unless the seconds changed around it. -/
theorem returned_parts (c : GetTime) :
    c.returned.parts =
      if c.first.high = c.third.high then c.second else ⟨c.third.high, 0⟩ := by
  have firstSeconds := c.firstSeconds
  have thirdSeconds := c.thirdSeconds
  have secondNormal := c.secondNormal
  have between := c.high_between
  have low : (UInt32.ofNat c.second.low.toNat).toNat = c.second.low.toNat :=
    UInt32.toNat_ofNat_of_lt' (by unfold Parts.Normal UInt32.size at *; omega)
  have first : (UInt32.ofNat c.first.high.toNat).toNat = c.first.high.toNat :=
    UInt32.toNat_ofNat_of_lt' (by unfold UInt32.size; omega)
  have third : (UInt32.ofNat c.third.high.toNat).toNat = c.third.high.toNat :=
    UInt32.toNat_ofNat_of_lt' (by unfold UInt32.size; omega)
  by_cases same : c.first.high = c.third.high
  · have steady : c.reads.firstSec = c.reads.secondSec := by simp only [reads, sampled, same]
    rw [returned, tsuGetTime_steady steady, if_pos same]
    simp only [TsuTimestamp.parts, reads, sampled, UInt32.toNat_toUInt64, third, low]
    unfold Parts.Normal at secondNormal
    have high : (c.third.high.toNat : Int) = c.second.high := by omega
    have nanosec : (c.second.low.toNat : Int) = c.second.low := by omega
    rw [high, nanosec]
  · have rolled : c.reads.firstSec ≠ c.reads.secondSec := by
      intro equal
      have := congrArg UInt32.toNat equal
      simp only [reads, sampled] at this
      omega
    rw [returned, tsuGetTime_rolled rolled, if_neg same]
    simp only [TsuTimestamp.parts, reads, sampled, UInt32.toNat_toUInt64, third]
    have high : (c.third.high.toNat : Int) = c.third.high := by omega
    rw [high]
    rfl

/-- A roll-over of the seconds around the second read is answered by the start of the
later second, which the counter passed in between. -/
theorem returned_between (c : GetTime) :
    c.first.total 1000000000 ≤ c.returned.total ∧
      c.returned.total ≤ c.third.total 1000000000 := by
  have between := c.high_between
  rw [TsuTimestamp.total, returned_parts]
  by_cases same : c.first.high = c.third.high
  · rw [if_pos same]
    exact ⟨c.firstSecond, c.secondThird⟩
  · rw [if_neg same]
    refine ⟨Parts.total_le_unit c.firstNormal (by omega), ?_⟩
    have nanosec := c.thirdNormal.1
    simp only [Parts.total]
    omega

theorem returned_normal (c : GetTime) : c.returned.nanosec.toNat < 1000000000 := by
  have nanosec : c.returned.parts.low < 1000000000 := by
    rw [returned_parts]
    split
    · exact c.secondNormal.2
    · simp only
      omega
  exact Int.ofNat_lt.mp nanosec

theorem nsec_normal (c : GetTime) : c.reads.nsec.toNat < 1000000000 := by
  have normal := c.secondNormal
  unfold Parts.Normal at normal
  simp only [reads, sampled]
  rw [UInt32.toNat_ofNat_of_lt' (by unfold UInt32.size; omega)]
  omega

theorem systime_parts (c : GetTime) : (getSystime c.reads).parts = c.returned.parts := by
  have seconds := ClockReading.systime_seconds ⟨c.reads, c.nsec_normal⟩
  have nanosec := ClockReading.systime_nanosec ⟨c.reads, c.nsec_normal⟩
  simp only [ClockReading.systime] at seconds nanosec
  simp only [PtpTimestamp.parts, seconds, nanosec, TsuTimestamp.parts, returned, tsuGetTime,
    UInt32.toNat_toUInt64]

theorem systime_total (c : GetTime) : (getSystime c.reads).total = c.returned.total := by
  rw [PtpTimestamp.total, systime_parts, TsuTimestamp.total]

theorem standing_systime {counter : Parts} (normal : counter.Normal 1000000000)
    (seconds : 0 ≤ counter.high ∧ counter.high < 4294967296) :
    (getSystime (sampled counter counter counter)).parts = counter := by
  have read := systime_parts (standing counter normal seconds)
  rw [returned_parts] at read
  exact read.trans (if_pos rfl)

end GetTime

/-- Each answer was the value of the counter at some moment of its call, so the answers
of calls in order are in order. -/
theorem getTime_linearisable (calls : List GetTime)
    (order : calls.IsChain (fun c d => c.third.total 1000000000 ≤ d.first.total 1000000000)) :
    (∀ c ∈ calls, c.first.total 1000000000 ≤ c.returned.total ∧
        c.returned.total ≤ c.third.total 1000000000 ∧ c.returned.nanosec.toNat < 1000000000 ∧
        (getSystime c.reads).total = c.returned.total) ∧
      calls.Pairwise (fun c d => c.returned.total ≤ d.returned.total) := by
  constructor
  · intro c _
    exact ⟨c.returned_between.1, c.returned_between.2, c.returned_normal, c.systime_total⟩
  · have chain := order.imp (fun c d passed =>
      Int.le_trans c.returned_between.2 (Int.le_trans passed d.returned_between.1))
    have : Trans (fun c d : GetTime => c.returned.total ≤ d.returned.total)
        (fun c d : GetTime => c.returned.total ≤ d.returned.total)
        (fun c d : GetTime => c.returned.total ≤ d.returned.total) := ⟨Int.le_trans⟩
    exact List.isChain_iff_pairwise.mp chain

/-- A call during which the seconds roll over twice. -/
def rollOverExample : GetTime where
  first := ⟨6, 999999990⟩
  second := ⟨7, 20⟩
  third := ⟨8, 30⟩
  firstNormal := by decide
  secondNormal := by decide
  thirdNormal := by decide
  firstSeconds := by decide
  thirdSeconds := by decide
  firstSecond := by decide
  secondThird := by decide

def afterRollOverExample : GetTime := .standing ⟨8, 30⟩ (by decide) (by decide)

theorem rollOver_linearisable :
    [rollOverExample, afterRollOverExample].Pairwise
      (fun c d => c.returned.total ≤ d.returned.total) :=
  (getTime_linearisable [rollOverExample, afterRollOverExample]
    (.cons_cons (by decide) (.singleton _))).2

end StandalonePtp
