import StandalonePtp.History
import StandalonePtp.Parts
import StandalonePtp.Ptp

/-! The time calculation of one exchange: the machine words compute the operations on
numbers in two parts, and the synchronised time comes out as the fourth timestamp. -/
namespace StandalonePtp

open Run Words

namespace PtpTimestamp

def parts (ts : PtpTimestamp) : Parts := ⟨ts.seconds.toInt, ts.nanosec.toInt⟩

def total (ts : PtpTimestamp) : Int := ts.parts.total 1000000000

theorem parts_inj {a b : PtpTimestamp} (h : a.parts = b.parts) : a = b := by
  obtain ⟨seconds, nanosec⟩ := a
  obtain ⟨seconds', nanosec'⟩ := b
  simp only [parts, Parts.mk.injEq, Int64.toInt_inj, Int32.toInt_inj] at h
  rw [h.1, h.2]

/-- A normalised time whose seconds fit the 48 bits of the wire. -/
def InRange (ts : PtpTimestamp) : Prop :=
  ts.Normalised ∧ 0 ≤ ts.seconds.toInt ∧ ts.seconds.toInt < 281474976710656

instance (ts : PtpTimestamp) : Decidable ts.InRange := inferInstanceAs (Decidable (_ ∧ _ ∧ _))

theorem zero_inRange : zero.InRange := ⟨by decide, by decide, by decide⟩

end PtpTimestamp

/- The operations on words are those on parts while nothing overflows. -/

theorem ptpTimeAdd_parts (pt1 pt2 : PtpTimestamp)
    (seconds : Fits64 (pt1.seconds.toInt + pt2.seconds.toInt))
    (nanosec : Fits32 (pt1.nanosec.toInt + pt2.nanosec.toInt)) :
    (ptpTimeAdd pt1 pt2).parts = pt1.parts.add pt2.parts := by
  simp only [PtpTimestamp.parts, ptpTimeAdd, Parts.add, add64 seconds, add32 nanosec]

theorem ptpTimeSub_parts (pt1 pt2 : PtpTimestamp)
    (seconds : Fits64 (pt1.seconds.toInt - pt2.seconds.toInt))
    (nanosec : Fits32 (pt1.nanosec.toInt - pt2.nanosec.toInt)) :
    (ptpTimeSub pt1 pt2).parts = pt1.parts.sub pt2.parts := by
  simp only [PtpTimestamp.parts, ptpTimeSub, ptpTimeAdd, Parts.sub, ← Int64.sub_eq_add_neg,
    ← Int32.sub_eq_add_neg, sub64 seconds, sub32 nanosec]

theorem ptpTimeExcept2_parts (pt1 : PtpTimestamp)
    (seconds : Fits64 (pt1.seconds.toInt - 1))
    (nanosec : Fits32 (pt1.nanosec.toInt.tdiv 2 + 500000000)) :
    (ptpTimeExcept2 pt1).parts = pt1.parts.half 1000000000 := by
  have one : (1 : Int64).toInt = 1 := by decide
  have two : (2 : Int64).toInt = 2 := by decide
  have two32 : (2 : Int32).toInt = 2 := by decide
  have period : (nsSecPeriod / 2).toInt = 500000000 := by decide
  have nsHalf : (pt1.nanosec / 2).toInt = pt1.nanosec.toInt.tdiv 2 := by
    rw [div32 (by decide), two32]
  have parity : pt1.seconds % 2 = 0 ↔ pt1.seconds.toInt % 2 = 0 := by
    rw [← Int64.toInt_inj, Int64.toInt_mod, two]
    exact Int.dvd_iff_tmod_eq_zero.symm.trans Int.dvd_iff_emod_eq_zero
  unfold ptpTimeExcept2
  split
  · rename_i even
    have evenInt := parity.mp even
    have secHalf : (pt1.seconds / 2).toInt = pt1.seconds.toInt / 2 := by
      rw [div64 (by decide), two]
      exact Int.tdiv_eq_ediv_of_dvd (Int.dvd_of_emod_eq_zero evenInt)
    simp only [PtpTimestamp.parts, Parts.half, secHalf, nsHalf, evenInt, Int.zero_mul,
      Int.add_zero]
  · rename_i odd
    have oddInt : ¬ pt1.seconds.toInt % 2 = 0 := fun h => odd (parity.mpr h)
    have lower : (pt1.seconds - 1).toInt = pt1.seconds.toInt - 1 := by
      rw [sub64 (by rw [one]; exact seconds), one]
    have secHalf : ((pt1.seconds - 1) / 2).toInt = pt1.seconds.toInt / 2 := by
      rw [div64 (by decide), two, lower,
        Int.tdiv_eq_ediv_of_dvd (Int.dvd_of_emod_eq_zero (by omega))]
      omega
    have nsSum : (pt1.nanosec / 2 + nsSecPeriod / 2).toInt =
        pt1.nanosec.toInt.tdiv 2 + 500000000 := by
      rw [add32 (by rw [nsHalf, period]; exact nanosec), nsHalf, period]
    have remainder : pt1.seconds.toInt % 2 = 1 := by omega
    simp only [PtpTimestamp.parts, Parts.half, secHalf, nsSum, remainder, Int.one_mul]
    rfl

/-- The rounding of one exchange: what its two halvings leave over in the nanoseconds. -/
def exchangeRounding (t1 t2 t3 t4 : PtpTimestamp) : Int :=
  Parts.rounding (t2.nanosec.toInt - t1.nanosec.toInt) (t4.nanosec.toInt - t3.nanosec.toInt)

section
variable {t1 t2 t3 t4 : PtpTimestamp} (h1 : t1.InRange) (h2 : t2.InRange) (h3 : t3.InRange)
  (h4 : t4.InRange)
include h1 h2 h3 h4

theorem interval_parts :
    (ptpTimeSub t2 t1).parts = t2.parts.sub t1.parts ∧
      (ptpTimeSub t4 t3).parts = t4.parts.sub t3.parts := by
  obtain ⟨⟨low1, high1⟩, least1, most1⟩ := h1
  obtain ⟨⟨low2, high2⟩, least2, most2⟩ := h2
  obtain ⟨⟨low3, high3⟩, least3, most3⟩ := h3
  obtain ⟨⟨low4, high4⟩, least4, most4⟩ := h4
  exact ⟨ptpTimeSub_parts t2 t1 (by unfold Fits64; omega) (by unfold Fits32; omega),
    ptpTimeSub_parts t4 t3 (by unfold Fits64; omega) (by unfold Fits32; omega)⟩

/-- Before the halving: the sum and the difference of the two intervals. -/
theorem sum_difference_parts :
    (ptpTimeAdd (ptpTimeSub t2 t1) (ptpTimeSub t4 t3)).parts =
        (t2.parts.sub t1.parts).add (t4.parts.sub t3.parts) ∧
      (ptpTimeSub (ptpTimeSub t2 t1) (ptpTimeSub t4 t3)).parts =
        (t2.parts.sub t1.parts).sub (t4.parts.sub t3.parts) := by
  obtain ⟨forward, backward⟩ := interval_parts h1 h2 h3 h4
  have forwardSec := congrArg Parts.high forward
  have forwardNs := congrArg Parts.low forward
  have backwardSec := congrArg Parts.high backward
  have backwardNs := congrArg Parts.low backward
  simp only [PtpTimestamp.parts, Parts.sub] at forwardSec forwardNs backwardSec backwardNs
  obtain ⟨⟨low1, high1⟩, least1, most1⟩ := h1
  obtain ⟨⟨low2, high2⟩, least2, most2⟩ := h2
  obtain ⟨⟨low3, high3⟩, least3, most3⟩ := h3
  obtain ⟨⟨low4, high4⟩, least4, most4⟩ := h4
  rw [← forward, ← backward]
  exact ⟨ptpTimeAdd_parts _ _ (by unfold Fits64; omega) (by unfold Fits32; omega),
    ptpTimeSub_parts _ _ (by unfold Fits64; omega) (by unfold Fits32; omega)⟩

theorem delay_offset_parts (sysTs : PtpTimestamp) :
    (delayTimes t1 t2 t3 t4 sysTs).delay.parts =
        ((t2.parts.sub t1.parts).add (t4.parts.sub t3.parts)).half 1000000000 ∧
      (delayTimes t1 t2 t3 t4 sysTs).offset.parts =
        ((t2.parts.sub t1.parts).sub (t4.parts.sub t3.parts)).half 1000000000 := by
  obtain ⟨sum, difference⟩ := sum_difference_parts h1 h2 h3 h4
  have sumSec := congrArg Parts.high sum
  have sumNs := congrArg Parts.low sum
  have differenceSec := congrArg Parts.high difference
  have differenceNs := congrArg Parts.low difference
  simp only [PtpTimestamp.parts, Parts.add, Parts.sub] at sumSec sumNs differenceSec differenceNs
  have halfSum := tdiv_cases (ptpTimeAdd (ptpTimeSub t2 t1) (ptpTimeSub t4 t3)).nanosec.toInt 2
  have halfDifference :=
    tdiv_cases (ptpTimeSub (ptpTimeSub t2 t1) (ptpTimeSub t4 t3)).nanosec.toInt 2
  obtain ⟨⟨low1, high1⟩, least1, most1⟩ := h1
  obtain ⟨⟨low2, high2⟩, least2, most2⟩ := h2
  obtain ⟨⟨low3, high3⟩, least3, most3⟩ := h3
  obtain ⟨⟨low4, high4⟩, least4, most4⟩ := h4
  rw [← sum, ← difference]
  exact ⟨ptpTimeExcept2_parts _ (by unfold Fits64; omega) (by unfold Fits32; omega),
    ptpTimeExcept2_parts _ (by unfold Fits64; omega) (by unfold Fits32; omega)⟩

/-- The propagation delay is the response interval: both halves of the forward interval
cancel, and with them the first two timestamps. -/
theorem propDelay_parts (sysTs : PtpTimestamp) :
    (delayTimes t1 t2 t3 t4 sysTs).propDelay.parts =
      ⟨t4.seconds.toInt - t3.seconds.toInt,
        t4.nanosec.toInt - t3.nanosec.toInt + exchangeRounding t1 t2 t3 t4⟩ := by
  obtain ⟨delay, offset⟩ := delay_offset_parts h1 h2 h3 h4 sysTs
  have cancel := Parts.half_sub_half 1000000000 (t2.parts.sub t1.parts) (t4.parts.sub t3.parts)
  rw [← delay, ← offset] at cancel
  have small := Parts.rounding_bounds (t2.nanosec.toInt - t1.nanosec.toInt)
    (t4.nanosec.toInt - t3.nanosec.toInt)
  have seconds := congrArg Parts.high cancel
  have nanosec := congrArg Parts.low cancel
  simp only [PtpTimestamp.parts, Parts.sub] at seconds nanosec
  obtain ⟨⟨low3, high3⟩, least3, most3⟩ := h3
  obtain ⟨⟨low4, high4⟩, least4, most4⟩ := h4
  have step : (delayTimes t1 t2 t3 t4 sysTs).propDelay.parts =
      (delayTimes t1 t2 t3 t4 sysTs).delay.parts.sub
        (delayTimes t1 t2 t3 t4 sysTs).offset.parts :=
    ptpTimeSub_parts (delayTimes t1 t2 t3 t4 sysTs).delay (delayTimes t1 t2 t3 t4 sysTs).offset
      (by unfold Fits64; omega) (by unfold Fits32; omega)
  rw [step, cancel]
  rfl

theorem syncedTime_parts (sysTs : PtpTimestamp) :
    (delayTimes t1 t2 t3 t4 sysTs).syncedTime.parts =
      ⟨t4.seconds.toInt, t4.nanosec.toInt + exchangeRounding t1 t2 t3 t4⟩ := by
  have response := propDelay_parts h1 h2 h3 h4 sysTs
  have small := Parts.rounding_bounds (t2.nanosec.toInt - t1.nanosec.toInt)
    (t4.nanosec.toInt - t3.nanosec.toInt)
  have seconds := congrArg Parts.high response
  have nanosec := congrArg Parts.low response
  simp only [PtpTimestamp.parts, exchangeRounding] at seconds nanosec
  obtain ⟨⟨low3, high3⟩, least3, most3⟩ := h3
  obtain ⟨⟨low4, high4⟩, least4, most4⟩ := h4
  have step : (delayTimes t1 t2 t3 t4 sysTs).syncedTime.parts =
      t3.parts.add (delayTimes t1 t2 t3 t4 sysTs).propDelay.parts :=
    ptpTimeAdd_parts t3 (delayTimes t1 t2 t3 t4 sysTs).propDelay
      (by unfold Fits64; omega) (by unfold Fits32; omega)
  rw [step, response]
  simp only [PtpTimestamp.parts, Parts.add, Parts.mk.injEq]
  omega

theorem syncedTime_inRange (sysTs : PtpTimestamp) :
    (delayTimes t1 t2 t3 t4 sysTs).syncedTime.InRange := by
  have synced := syncedTime_parts h1 h2 h3 h4 sysTs
  have normal := Parts.rounding_normal (t2.nanosec.toInt - t1.nanosec.toInt) h3.1 h4.1
  have seconds := congrArg Parts.high synced
  have nanosec := congrArg Parts.low synced
  simp only [PtpTimestamp.parts, exchangeRounding] at seconds nanosec
  refine ⟨⟨?_, ?_⟩, ?_, ?_⟩
  · rw [nanosec]; exact normal.1
  · rw [nanosec]; exact normal.2
  · rw [seconds]; exact h4.2.1
  · rw [seconds]; exact h4.2.2

theorem diff_total {sysTs : PtpTimestamp} (hsys : sysTs.InRange) :
    (delayTimes t1 t2 t3 t4 sysTs).diff.total =
      t4.total + exchangeRounding t1 t2 t3 t4 - sysTs.total := by
  have synced := syncedTime_parts h1 h2 h3 h4 sysTs
  obtain ⟨⟨low, high⟩, least, most⟩ := syncedTime_inRange h1 h2 h3 h4 sysTs
  obtain ⟨⟨lowSys, highSys⟩, leastSys, mostSys⟩ := hsys
  have step : (delayTimes t1 t2 t3 t4 sysTs).diff.parts =
      (delayTimes t1 t2 t3 t4 sysTs).syncedTime.parts.sub sysTs.parts :=
    ptpTimeSub_parts (delayTimes t1 t2 t3 t4 sysTs).syncedTime sysTs
      (by unfold Fits64; omega) (by unfold Fits32; omega)
  rw [PtpTimestamp.total, step, Parts.total_sub, synced]
  simp only [PtpTimestamp.total, PtpTimestamp.parts, Parts.total]
  omega

end

/- Exchanges in a run of the interpreter. -/

theorem wireTime_inRange {msg : Memory} (h : (wireTime msg).Normalised) :
    (wireTime msg).InRange :=
  ⟨h, wireTime_seconds_bounds msg⟩

theorem systime_inRange (c : ClockReading) : c.systime.InRange := by
  have seconds := c.reads.secondSec.toNat_lt
  have nanosec := tsuGetTime_nanosec_lt c.normal
  refine ⟨?_, ?_⟩
  · rw [PtpTimestamp.Normalised, c.systime_nanosec]
    omega
  · rw [c.systime_seconds]
    omega

/-- The three messages of one exchange, with normalised times on the wire, and the
clock readings at their handling. -/
structure Exchange where
  sync : Memory
  followUp : Memory
  delayResponse : Memory
  syncType : msgType (lowNibble (sync 0)) = some .syncMsg
  followUpType : msgType (lowNibble (followUp 0)) = some .followUpMsg
  delayResponseType : msgType (lowNibble (delayResponse 0)) = some .delayResponse
  originNormal : (wireTime followUp).Normalised
  receiveNormal : (wireTime delayResponse).Normalised
  syncClock : ClockReading
  followUpClock : ClockReading
  delayResponseClock : ClockReading

namespace Exchange

def t1 (x : Exchange) : PtpTimestamp := wireTime x.followUp

def t2 (x : Exchange) : PtpTimestamp := x.syncClock.systime

def t3 (x : Exchange) : PtpTimestamp := x.followUpClock.systime

def t4 (x : Exchange) : PtpTimestamp := wireTime x.delayResponse

def sysTs (x : Exchange) : PtpTimestamp := x.delayResponseClock.systime

/-- The path takes `d` in both directions, the slave is ahead by `theta`, and the answer
is handled when the slave's clock has run for the two ways at least. -/
structure Symmetric (x : Exchange) (d theta : Int) : Prop where
  delay : 0 ≤ d
  forward : x.t2.total = x.t1.total + d + theta
  backward : x.t4.total = x.t3.total - theta + d
  waited : x.t3.total + 2 * d ≤ x.sysTs.total

/-- What is called when the DelayResponse is handled, after the other two messages and
with others in between. -/
def effects (x : Exchange) (s : PtpSyncState) (others1 others2 : List Event) : List Effect :=
  let before := after interpret s
    (⟨x.sync, x.t2⟩ :: others1 ++ ⟨x.followUp, x.t3⟩ :: others2)
  (interpret before ⟨x.delayResponse, x.sysTs⟩).2

/-- The two ways together are an even number of nanoseconds, which is halved exactly. -/
theorem Symmetric.exact {x : Exchange} {d theta : Int} (symmetric : x.Symmetric d theta) :
    exchangeRounding x.t1 x.t2 x.t3 x.t4 = 0 := by
  have forward := symmetric.forward
  have backward := symmetric.backward
  simp only [PtpTimestamp.total, PtpTimestamp.parts, Parts.total] at forward backward
  rw [exchangeRounding, Parts.rounding, if_pos (by omega)]

end Exchange

def Quiet (es : List Event) : Prop :=
  ∀ e ∈ es, e.isSync = false ∧ e.isFollowUp = false

theorem exchange_effects (x : Exchange) (s : PtpSyncState) {others1 others2 : List Event}
    (quiet1 : Quiet others1) (quiet2 : Quiet others2) :
    x.effects s others1 others2 =
      [.reportDiff 0 (delayTimes x.t1 x.t2 x.t3 x.t4 x.sysTs).syncedTime
        (delayTimes x.t1 x.t2 x.t3 x.t4 x.sysTs).diff] := by
  have isSync : (Event.mk x.sync x.t2).isSync = true := decide_eq_true x.syncType
  have isFollowUp : (Event.mk x.followUp x.t3).isFollowUp = true :=
    decide_eq_true x.followUpType
  have isResponse : (Event.mk x.delayResponse x.sysTs).isDelayResponse = true :=
    decide_eq_true x.delayResponseType
  have notSync : (Event.mk x.followUp x.t3).isSync = false := by
    rcases event_kinds ⟨x.followUp, x.t3⟩ with h | h | h | h <;> simp_all
  have lastSync := latest_append_cons Event.isSync [] (others1 ++ ⟨x.followUp, x.t3⟩ :: others2)
    ⟨x.sync, x.t2⟩ isSync (by
      intro e he
      rcases List.mem_append.mp he with he | he
      · exact (quiet1 e he).1
      · rcases List.mem_cons.mp he with he | he
        · exact he ▸ notSync
        · exact (quiet2 e he).1)
  have lastFollowUp := latest_append_cons Event.isFollowUp (⟨x.sync, x.t2⟩ :: others1) others2
    ⟨x.followUp, x.t3⟩ isFollowUp (fun e he => (quiet2 e he).2)
  rw [List.nil_append, ← List.cons_append] at lastSync
  simp only [Exchange.effects, interpret_delayResponse isResponse, report, t1_latest, t2_latest,
    t3_latest, lastSync, lastFollowUp, Option.map_some, Option.getD_some]
  rfl

/-- One report is made and its difference is the true correction within 1 ns. -/
def TrueCorrection (theta : Int) (effects : List Effect) : Prop :=
  ∃ syncTs diffTs, effects = [.reportDiff 0 syncTs diffTs] ∧
    -1 ≤ diffTs.total + theta ∧ diffTs.total + theta ≤ 1

/-- The reported difference lacks the time that passed since the request was sent, so it
is the true correction only when hardly more than the path delay has passed. -/
theorem true_correction_iff (s : PtpSyncState) (x : Exchange) (others1 others2 : List Event)
    (quiet1 : Quiet others1) (quiet2 : Quiet others2) (d theta : Int)
    (symmetric : x.Symmetric d theta) :
    TrueCorrection theta (x.effects s others1 others2) ↔
      x.sysTs.total - x.t3.total ≤ d + 1 := by
  have diff : (delayTimes x.t1 x.t2 x.t3 x.t4 x.sysTs).diff.total =
      x.t4.total + exchangeRounding x.t1 x.t2 x.t3 x.t4 - x.sysTs.total :=
    diff_total (wireTime_inRange x.originNormal) (systime_inRange _) (systime_inRange _)
      (wireTime_inRange x.receiveNormal) (systime_inRange _)
  rw [symmetric.exact, Int.add_zero] at diff
  have delay := symmetric.delay
  have backward := symmetric.backward
  have waited := symmetric.waited
  rw [exchange_effects x s quiet1 quiet2]
  constructor
  · rintro ⟨syncTs, diffTs, same, lower, upper⟩
    simp only [List.cons.injEq, Effect.reportDiff.injEq] at same
    rw [← same.1.2.2, diff] at lower
    omega
  · intro short
    refine ⟨_, _, rfl, ?_, ?_⟩
    · rw [diff]; omega
    · rw [diff]; omega

/-- Perfectly synchronised clocks 1 ns apart, and an answer that is handled at once. -/
def immediateExchange : Exchange where
  sync := frame 0x00 (ptpPrepareTimestamp .zero)
  followUp := frame 0x08 (ptpPrepareTimestamp ⟨200, 0⟩)
  delayResponse := frame 0x09 (ptpPrepareTimestamp ⟨200, 2000001⟩)
  syncType := by decide
  followUpType := by decide
  delayResponseType := by decide
  originNormal := by decide
  receiveNormal := by decide
  syncClock := ⟨⟨200, 1, 200⟩, by decide⟩
  followUpClock := ⟨⟨200, 2000000, 200⟩, by decide⟩
  delayResponseClock := ⟨⟨200, 2000002, 200⟩, by decide⟩

theorem immediate_correction : TrueCorrection 0 (immediateExchange.effects .init [] []) :=
  (true_correction_iff .init immediateExchange [] [] (by simp [Quiet]) (by simp [Quiet]) 1 0
    ⟨by decide, by decide, by decide, by decide⟩).mpr (by decide)

/-- Perfectly synchronised clocks 1 us apart, the request sent after 1 ms and the answer
handled 2 us later. -/
def promptExchange : Exchange where
  sync := frame 0x00 (ptpPrepareTimestamp .zero)
  followUp := frame 0x08 (ptpPrepareTimestamp ⟨100, 0⟩)
  delayResponse := frame 0x09 (ptpPrepareTimestamp ⟨100, 1001000⟩)
  syncType := by decide
  followUpType := by decide
  delayResponseType := by decide
  originNormal := by decide
  receiveNormal := by decide
  syncClock := ⟨⟨100, 1000, 100⟩, by decide⟩
  followUpClock := ⟨⟨100, 1000000, 100⟩, by decide⟩
  delayResponseClock := ⟨⟨100, 1002000, 100⟩, by decide⟩

theorem promptExchange_symmetric : promptExchange.Symmetric 1000 0 :=
  ⟨by decide, by decide, by decide, by decide⟩

/-- A slave without any offset is told to step back by the path delay. -/
theorem synchronised_slave_corrected :
    promptExchange.Symmetric 1000 0 ∧ ¬ TrueCorrection 0 (promptExchange.effects .init [] []) := by
  refine ⟨promptExchange_symmetric, ?_⟩
  rw [exchange_effects promptExchange .init (by simp [Quiet]) (by simp [Quiet])]
  rintro ⟨syncTs, diffTs, same, lower, _⟩
  simp only [List.cons.injEq, Effect.reportDiff.injEq] at same
  have told : diffTs.total = -1000 := by
    rw [← same.1.2.2]
    decide
  omega

end StandalonePtp
