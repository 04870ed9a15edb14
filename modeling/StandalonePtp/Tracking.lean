import StandalonePtp.Flow
import StandalonePtp.Interference
import StandalonePtp.Slave

/-! What the slave follows. In the time that is reported the Sync and the FollowUp cancel, up
to the rounding of two halves: it is the time of the DelayResponse. -/
namespace StandalonePtp

open Run

/-- The times of the statics that the next report is computed from. -/
structure ExchangeInRange (s : PtpSyncState) : Prop where
  t1 : s.t1.InRange
  t2 : s.t2.InRange
  t3 : s.t3.InRange

/-- The clock is normal, and so are the octets if the message carries a time. -/
structure NormalEvent (e : Event) : Prop where
  now : e.now.InRange
  wire : e.isFollowUp = true ∨ e.isDelayResponse = true → wireNanosec e.msg < 1000000000

theorem normalEvent_wire {e : Event} (normal : NormalEvent e)
    (carries : e.isFollowUp = true ∨ e.isDelayResponse = true) : (wireTime e.msg).InRange :=
  wireTime_inRange ((wireTime_normalised_iff e.msg).mpr (normal.wire carries))

theorem interpret_inRange (s : PtpSyncState) (e : Event) (inRange : ExchangeInRange s)
    (normal : NormalEvent e) : ExchangeInRange (interpret s e).1 := by
  rcases event_kinds e with ⟨hs, hf, hd⟩ | ⟨hs, hf, hd⟩ | ⟨hs, hf, hd⟩ | ⟨hs, hf, hd⟩
  · rw [interpret_sync hs]
    exact ⟨inRange.t1, normal.now, inRange.t3⟩
  · rw [interpret_followUp hf]
    exact ⟨normalEvent_wire normal (.inl hf), inRange.t2, normal.now⟩
  · rw [interpret_delayResponse hd]
    exact ⟨inRange.t1, inRange.t2, inRange.t3⟩
  · rw [interpret_other hs hf hd]
    exact inRange

theorem init_inRange : ExchangeInRange .init :=
  ⟨PtpTimestamp.zero_inRange, PtpTimestamp.zero_inRange, PtpTimestamp.zero_inRange⟩

/-- The reported time is that on the wire within 1 ns, in the same second, and the reported
difference is its distance from the clock. -/
structure Follows (reported : PtpTimestamp × PtpTimestamp) (e : Event) : Prop where
  seconds : reported.1.seconds = (wireTime e.msg).seconds
  lower : -1 ≤ reported.1.total - (wireTime e.msg).total
  upper : reported.1.total - (wireTime e.msg).total ≤ 1
  diff : reported.2.total = reported.1.total - e.now.total

theorem report_follows {s : PtpSyncState} {e : Event} (inRange : ExchangeInRange s)
    (normal : NormalEvent e) (response : e.isDelayResponse = true) :
    let times := delayTimes s.t1 s.t2 s.t3 (wireTime e.msg) e.now
    Follows (times.syncedTime, times.diff) e := by
  intro times
  obtain ⟨h1, h2, h3⟩ := inRange
  have h4 := normalEvent_wire normal (.inr response)
  have synced := syncedTime_parts h1 h2 h3 h4 e.now
  have diff : times.diff.total = _ := diff_total h1 h2 h3 h4 normal.now
  have small := Parts.rounding_bounds (s.t2.nanosec.toInt - s.t1.nanosec.toInt)
    ((wireTime e.msg).nanosec.toInt - s.t3.nanosec.toInt)
  have total : times.syncedTime.total =
      (wireTime e.msg).total + exchangeRounding s.t1 s.t2 s.t3 (wireTime e.msg) := by
    rw [PtpTimestamp.total, synced]
    simp only [PtpTimestamp.total, PtpTimestamp.parts, Parts.total]
    omega
  rw [exchangeRounding] at total diff
  refine ⟨Int64.toInt_inj.mp (congrArg Parts.high synced), ?_, ?_, ?_⟩
  · change -1 ≤ times.syncedTime.total - _
    omega
  · change times.syncedTime.total - _ ≤ 1
    omega
  · change times.diff.total = times.syncedTime.total - _
    omega

/-- In every run on normal times each DelayResponse makes one report, of its own time, whatever
Sync and FollowUp messages came before it and whatever they said. -/
theorem reports_follow_responses (es : List Event) (normal : ∀ e ∈ es, NormalEvent e) :
    List.Forall₂ Follows ((outputs interpret .init es).flatMap reports)
      (es.filter Event.isDelayResponse) := by
  refine outputs_match interpret ExchangeInRange NormalEvent Event.isDelayResponse reports Follows
    interpret_inRange ?_ ?_ es normal init_inRange
  · intro s e other
    rw [interpret_effects, other, if_neg Bool.false_ne_true]
    split <;> rfl
  · intro s e inRange normal response
    exact ⟨_, by rw [interpret_delayResponse response]; rfl, report_follows inRange normal response⟩

theorem reports_follow_exchange :
    List.Forall₂ Follows
      ((outputs interpret .init [syncExample, followUpExample, delayResponseExample]).flatMap reports)
      [delayResponseExample] := by
  refine reports_follow_responses [syncExample, followUpExample, delayResponseExample] ?_
  intro e member
  simp only [List.mem_cons, List.not_mem_nil, or_false] at member
  rcases member with rfl | rfl | rfl
  · exact ⟨by decide, fun _ => by decide⟩
  · exact ⟨by decide, fun _ => by decide⟩
  · exact ⟨by decide, fun _ => by decide⟩

/- The time the clock is set to. -/

/-- The wire times of a message are normal. Its clock reading is so in any case. -/
def NormalOctets (r : Received) : Prop :=
  r.event.isFollowUp = true ∨ r.event.isDelayResponse = true → wireNanosec r.msg < 1000000000

theorem normalOctets_event {r : Received} (normal : NormalOctets r) : NormalEvent r.event :=
  ⟨systime_inRange r.now, normal⟩

theorem slave_inRange (rs : List Received) (normal : ∀ r ∈ rs, NormalOctets r) :
    ExchangeInRange (after Slave.handle .init rs).sync := by
  rw [sync_after]
  refine after_along interpret (fun _ e => NormalEvent e) ExchangeInRange interpret_inRange
    init_inRange _ ((along_inputs interpret NormalEvent _ _).mpr ?_)
  intro e member
  obtain ⟨r, listed, rfl⟩ := List.mem_map.mp member
  exact normalOctets_event (normal r listed)

/-- The low 32 bits of the second on the wire, and its nanosecond up to one, or the slave's own
nanosecond when the report has none. -/
def SetsTo (t4 : PtpTimestamp) (own : TsuTimestamp) (w : XilOut32) : Prop :=
  match w.register with
  | .tsuTimerSecGem0 => (w.value.toNat : Int) = t4.seconds.toInt % 4294967296
  | .tsuTimerNsGem0 =>
    (-1 ≤ (w.value.toNat : Int) - t4.nanosec.toInt ∧ (w.value.toNat : Int) - t4.nanosec.toInt ≤ 1) ∨
      w.value = own.nanosec ∧ t4.nanosec.toInt ≤ 1
  | .tsuTimerAdjust => True

theorem coarse_setsTo {t4 syncTs : PtpTimestamp} (reads : TsuReads)
    (normal : 0 ≤ syncTs.nanosec.toInt) (seconds : syncTs.seconds = t4.seconds)
    (lower : -1 ≤ syncTs.nanosec.toInt - t4.nanosec.toInt)
    (upper : syncTs.nanosec.toInt - t4.nanosec.toInt ≤ 1) :
    ∀ w ∈ tsuSetTime (coarseTime reads syncTs.seconds syncTs.nanosec.toUInt32),
      SetsTo t4 (tsuGetTime reads) w := by
  have word := Words.toUInt32_toNat normal
  intro w written
  simp only [tsuSetTime, coarseTime, List.mem_cons, List.not_mem_nil, or_false] at written
  rcases written with rfl | rfl
  · by_cases some_ns : syncTs.nanosec.toUInt32 > 0
    · rw [if_pos some_ns]
      exact .inl ⟨by rw [word]; exact lower, by rw [word]; exact upper⟩
    · have zero : syncTs.nanosec.toUInt32.toNat = 0 := by
        rw [gt_iff_lt, UInt32.lt_iff_toNat_lt, UInt32.toNat_zero] at some_ns
        omega
      rw [if_neg some_ns]
      exact .inr ⟨rfl, by omega⟩
  · simp only [SetsTo]
    rw [← seconds]
    exact Words.toUInt32_toUInt64 syncTs.seconds

/-- In every run on normal times, a message that sets the clock is a DelayResponse, and sets it
to the time in it, at which the master got the request, modulo 2^32 seconds. -/
theorem clock_set_to_response (before : List Received) (r : Received)
    (normal : ∀ x ∈ before ++ [r], NormalOctets x) :
    ∀ w ∈ ((after Slave.handle .init before).handle r).2,
      r.event.isDelayResponse = true ∧
        SetsTo (wireTime r.msg) (tsuGetTime r.serviceNow.reads) w := by
  have inRange := slave_inRange before (fun x h => normal x (List.mem_append_left _ h))
  have own := normalOctets_event (normal r (List.mem_append_right _ (List.mem_singleton_self r)))
  generalize after Slave.handle .init before = s at inRange ⊢
  intro w written
  cases response : r.event.isDelayResponse with
  | false =>
    rw [handle_silent s response] at written
    contradiction
  | true =>
    refine ⟨rfl, ?_⟩
    have synced := syncedTime_parts inRange.t1 inRange.t2 inRange.t3
      (normalEvent_wire own (.inr response)) r.event.now
    have normalised := (syncedTime_inRange inRange.t1 inRange.t2 inRange.t3
      (normalEvent_wire own (.inr response)) r.event.now).1
    have small := Parts.rounding_bounds (s.sync.t2.nanosec.toInt - s.sync.t1.nanosec.toInt)
      ((wireTime r.event.msg).nanosec.toInt - s.sync.t3.nanosec.toInt)
    have seconds := Int64.toInt_inj.mp (congrArg Parts.high synced)
    have nanosec := congrArg Parts.low synced
    simp only [PtpTimestamp.parts, exchangeRounding] at nanosec
    simp only [Slave.handle, interpret_delayResponse response, report, deliver,
      List.append_nil] at written
    by_cases fine : (delayTimes s.sync.t1 s.sync.t2 s.sync.t3 (wireTime r.event.msg)
        r.event.now).diff.seconds = 0
    · rw [processReport_fine fine] at written
      obtain rfl := List.mem_singleton.mp written
      trivial
    · rw [processReport_coarse fine, coarse_writes] at written
      split at written
      · exact coarse_setsTo r.serviceNow.reads normalised.1 seconds (by omega) (by omega) w written
      · contradiction

/-- A response for a clock that is some seconds behind. -/
def lateResponse : Received :=
  ⟨delayResponseExample.msg, ⟨⟨5, 0, 5⟩, by decide⟩, ⟨⟨5, 0, 5⟩, by decide⟩⟩

theorem lateResponse_sets :
    ((after Slave.handle .init []).handle lateResponse).2 =
        [⟨.tsuTimerNsGem0, 1001000⟩, ⟨.tsuTimerSecGem0, 100⟩] ∧
      ∀ w ∈ ((after Slave.handle .init []).handle lateResponse).2,
        SetsTo ⟨100, 1001000⟩ ⟨5, 0⟩ w := by
  refine ⟨by decide, fun w written => ?_⟩
  refine (clock_set_to_response [] lateResponse ?_ w written).2
  intro r member
  obtain rfl := List.mem_singleton.mp member
  exact fun _ => by decide

end StandalonePtp
