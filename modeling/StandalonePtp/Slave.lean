import StandalonePtp.Exchange

/-! The whole slave: the interpreter with the clock discipline as its report callback. -/
namespace StandalonePtp

open Run

/-- The report callback handles every reported difference; requests leave the slave. -/
def deliver (d : Device) (reads : TsuReads) : List Effect → Device × List XilOut32
  | [] => (d, [])
  | .sendDelayReq _ _ :: rest => deliver d reads rest
  | .reportDiff _ syncTs diffTs :: rest =>
    let handled := processReport d ⟨syncTs, diffTs, reads⟩
    let later := deliver handled.1 reads rest
    (later.1, handled.2 ++ later.2)

structure Slave where
  sync : PtpSyncState
  device : Device
  deriving DecidableEq, Repr

def Slave.init : Slave := ⟨.init, .init⟩

/-- A received message, the clock reading of the interpreter, and the reading the time
service may take while it handles a report. -/
structure Received where
  msg : Memory
  now : ClockReading
  serviceNow : ClockReading

def Received.event (r : Received) : Event := ⟨r.msg, r.now.systime⟩

def Slave.handle (s : Slave) (r : Received) : Slave × List XilOut32 :=
  let interpreted := interpret s.sync r.event
  let delivered := deliver s.device r.serviceNow.reads interpreted.2
  (⟨interpreted.1, delivered.1⟩, delivered.2)

theorem sync_after (s : Slave) (rs : List Received) :
    (after Slave.handle s rs).sync = after interpret s.sync (rs.map Received.event) :=
  after_projection Slave.handle interpret Slave.sync Received.event (fun _ _ => rfl) rs s

/- The times in the statics. -/

theorem t1_seconds (rs : List Received) :
    0 ≤ (after Slave.handle .init rs).sync.t1.seconds.toInt ∧
      (after Slave.handle .init rs).sync.t1.seconds.toInt < 281474976710656 := by
  rw [sync_after, t1_latest]
  cases latest Event.isFollowUp (rs.map Received.event) with
  | none => exact PtpTimestamp.zero_inRange.2
  | some e => exact wireTime_seconds_bounds e.msg

theorem latest_now_inRange (p : Event → Bool) (rs : List Received) :
    (((latest p (rs.map Received.event)).map Event.now).getD .zero).InRange := by
  cases h : latest p (rs.map Received.event) with
  | none => exact PtpTimestamp.zero_inRange
  | some e =>
    obtain ⟨r, -, rfl⟩ := List.mem_map.mp (latest_mem h).1
    exact systime_inRange r.now

theorem t2_inRange (rs : List Received) : (after Slave.handle .init rs).sync.t2.InRange := by
  rw [sync_after, t2_latest]
  exact latest_now_inRange Event.isSync rs

theorem t3_inRange (rs : List Received) : (after Slave.handle .init rs).sync.t3.InRange := by
  rw [sync_after, t3_latest]
  exact latest_now_inRange Event.isFollowUp rs

theorem latest_wireTime_normalised_iff (p : Event → Bool) (es : List Event) :
    (((latest p es).map (fun e => wireTime e.msg)).getD .zero).Normalised ↔
      ∀ e, latest p es = some e → wireNanosec e.msg < 1000000000 := by
  have initial : PtpTimestamp.zero.Normalised := by decide
  cases latest p es with
  | none => simpa using initial
  | some e => simpa using wireTime_normalised_iff e.msg

theorem t1_normalised_iff (rs : List Received) :
    (after Slave.handle .init rs).sync.t1.Normalised ↔
      ∀ e, latest Event.isFollowUp (rs.map Received.event) = some e →
        wireNanosec e.msg < 1000000000 := by
  rw [sync_after, t1_latest]
  exact latest_wireTime_normalised_iff Event.isFollowUp _

theorem t4_normalised_iff (rs : List Received) :
    (after Slave.handle .init rs).sync.t4.Normalised ↔
      ∀ e, latest Event.isDelayResponse (rs.map Received.event) = some e →
        wireNanosec e.msg < 1000000000 := by
  rw [sync_after, t4_latest]
  exact latest_wireTime_normalised_iff Event.isDelayResponse _

/- The times that reach the clock. -/

def NormalWrites (writes : List XilOut32) : Prop :=
  ∀ w ∈ writes, w.register = .tsuTimerNsGem0 → w.value.toNat < 1000000000

theorem tsuSetTime_normalWrites {ts : TsuTimestamp} (normal : ts.nanosec.toNat < 1000000000) :
    NormalWrites (tsuSetTime ts) := by
  intro w hw ns
  simp only [tsuSetTime, List.mem_cons, List.not_mem_nil, or_false] at hw
  rcases hw with rfl | rfl
  · exact normal
  · contradiction

theorem coarse_normalWrites (s : TimesyncState) (uptimeMs : UInt32) {reads : TsuReads}
    (clock : reads.nsec.toNat < 1000000000) (timestamp : Int64) {nanoseconds : UInt32}
    (normal : nanoseconds.toNat < 1000000000) :
    NormalWrites (coarseTimeReceived s uptimeMs reads timestamp nanoseconds).2 := by
  rw [coarse_writes]
  split
  · apply tsuSetTime_normalWrites
    unfold coarseTime
    dsimp only
    split
    · exact normal
    · exact tsuGetTime_nanosec_lt clock
  · intro w hw
    contradiction

theorem report_normalWrites (d : Device) {r : Report} (clock : r.reads.nsec.toNat < 1000000000)
    (normal : r.syncTs.Normalised) : NormalWrites (processReport d r).2 := by
  by_cases h : r.diffTs.seconds = 0
  · rw [processReport_fine h]
    intro w hw ns
    simp only [List.mem_cons, List.not_mem_nil, or_false] at hw
    subst hw
    contradiction
  · rw [processReport_coarse h]
    have small : r.syncTs.nanosec.toUInt32.toNat < 1000000000 := by
      have := Words.toUInt32_toNat normal.1
      have := normal.2
      omega
    exact coarse_normalWrites _ _ clock _ small

theorem handle_silent (s : Slave) {r : Received} (other : r.event.isDelayResponse = false) :
    (s.handle r).2 = [] := by
  rcases event_kinds r.event with ⟨hs, hf, hd⟩ | ⟨hs, hf, hd⟩ | ⟨hs, hf, hd⟩ | ⟨hs, hf, hd⟩
  · simp only [Slave.handle, interpret_sync hs, deliver]
  · simp only [Slave.handle, interpret_followUp hf, deliver]
  · exact absurd hd (by simp [other])
  · simp only [Slave.handle, interpret_other hs hf hd, deliver]

/-- The clock is set to the synchronised time of a DelayResponse, which its own handling
has stored as the fourth timestamp. -/
theorem handle_normalWrites (rs : List Received) (r : Received)
    (t1 : ((after Slave.handle .init rs).handle r).1.sync.t1.Normalised)
    (t4 : ((after Slave.handle .init rs).handle r).1.sync.t4.Normalised) :
    NormalWrites ((after Slave.handle .init rs).handle r).2 := by
  have origin := t1_seconds rs
  have arrival := t2_inRange rs
  have request := t3_inRange rs
  generalize after Slave.handle .init rs = s at t1 t4 origin arrival request ⊢
  cases response : r.event.isDelayResponse with
  | false =>
    rw [handle_silent s response]
    intro w hw
    contradiction
  | true =>
    have interpreted := interpret_delayResponse response s.sync
    simp only [Slave.handle, interpreted] at t1 t4
    have synced := syncedTime_inRange ⟨t1, origin⟩ arrival request (wireTime_inRange t4) r.event.now
    simp only [Slave.handle, interpreted, report, deliver, List.append_nil]
    exact report_normalWrites s.device r.serviceNow.normal synced.1

def WellFormed (s : Slave) (r : Received) : Prop :=
  let handled := s.handle r
  handled.1.sync.t1.Normalised ∧ handled.1.sync.t2.Normalised ∧
    handled.1.sync.t3.Normalised ∧ handled.1.sync.t4.Normalised ∧ NormalWrites handled.2

/-- In every reachable state the local times are normalised, and the wire times exactly
when their octets were; a time that reaches the clock next is normalised if the two wire
times then held are. -/
theorem wellFormed_times (rs : List Received) :
    let s := after Slave.handle .init rs
    s.sync.t2.Normalised ∧ s.sync.t3.Normalised ∧
      (s.sync.t1.Normalised ↔
        ∀ e, latest Event.isFollowUp (rs.map Received.event) = some e →
          wireNanosec e.msg < 1000000000) ∧
      (s.sync.t4.Normalised ↔
        ∀ e, latest Event.isDelayResponse (rs.map Received.event) = some e →
          wireNanosec e.msg < 1000000000) ∧
      ∀ r, (s.handle r).1.sync.t1.Normalised → (s.handle r).1.sync.t4.Normalised →
        NormalWrites (s.handle r).2 :=
  ⟨(t2_inRange rs).1, (t3_inRange rs).1, t1_normalised_iff rs, t4_normalised_iff rs,
    handle_normalWrites rs⟩

def wellFormedResponse : Received :=
  ⟨frame 0x09 (ptpPrepareTimestamp ⟨7, 250⟩), ⟨⟨300, 0, 300⟩, by decide⟩,
    ⟨⟨300, 0, 300⟩, by decide⟩⟩

theorem well_formed_written :
    (Slave.init.handle wellFormedResponse).2 ≠ [] ∧
      NormalWrites (Slave.init.handle wellFormedResponse).2 :=
  ⟨by decide, (wellFormed_times []).2.2.2.2 wellFormedResponse (by decide) (by decide)⟩

def illFormedResponse : Received :=
  ⟨frame 0x09 ⟨#[0, 0, 0, 0, 0, 5, 0xC0, 0, 0, 0], rfl⟩,
    ⟨⟨100, 0, 100⟩, by decide⟩, ⟨⟨100, 0, 100⟩, by decide⟩⟩

/-- Its octets are stored as they came, and the clock is set to them. -/
theorem ill_formed_written :
    ¬ ∀ before r, WellFormed (after Slave.handle .init before) r := by
  intro h
  have written := (h [] illFormedResponse).2.2.2.2 ⟨.tsuTimerNsGem0, 0xC0000000⟩
    (by decide) rfl
  revert written
  decide

end StandalonePtp
