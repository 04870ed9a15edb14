import StandalonePtp.History
import StandalonePtp.Receive

/-! Messages inserted into a run, and what the slave does at all the others. -/
namespace StandalonePtp

open Run

/-- Two states that the next exchange cannot tell apart: the fourth timestamp and the
clock of the last report are written before they are read. -/
structure SameExchange (s t : PtpSyncState) : Prop where
  t1 : s.t1 = t.t1
  t2 : s.t2 = t.t2
  t3 : s.t3 = t.t3
  msg : s.msg = t.msg

theorem sameExchange_refl (s : PtpSyncState) : SameExchange s s := ⟨rfl, rfl, rfl, rfl⟩

theorem report_sameExchange {s t : PtpSyncState} (h : SameExchange s t) (e : Event) :
    report s e = report t e := by
  simp only [report, h.t1, h.t2, h.t3]

theorem delayReq_sameExchange {s t : PtpSyncState} (h : SameExchange s t) (e : Event) :
    delayReq s e = delayReq t e := by
  simp only [delayReq, h.msg]

theorem interpret_sameExchange (s t : PtpSyncState) (h : SameExchange s t) (e : Event) :
    (interpret s e).2 = (interpret t e).2 ∧
      SameExchange (interpret s e).1 (interpret t e).1 := by
  rcases event_kinds e with ⟨hs, hf, hd⟩ | ⟨hs, hf, hd⟩ | ⟨hs, hf, hd⟩ | ⟨hs, hf, hd⟩
  · simp only [interpret_sync hs]
    exact ⟨trivial, h.t1, rfl, h.t3, h.msg⟩
  · simp only [interpret_followUp hf, delayReq_sameExchange h]
    exact ⟨trivial, rfl, h.t2, rfl, rfl⟩
  · simp only [interpret_delayResponse hd, report_sameExchange h]
    exact ⟨trivial, h.t1, h.t2, h.t3, h.msg⟩
  · simp only [interpret_other hs hf hd]
    exact ⟨trivial, h⟩

theorem delayResponse_sameExchange (s t : PtpSyncState) (e : Event)
    (response : e.isDelayResponse = true) (h : SameExchange s t) :
    SameExchange (interpret s e).1 t := by
  rw [interpret_delayResponse response]
  exact ⟨h.t1, h.t2, h.t3, h.msg⟩

def requests (effects : List Effect) : List PtpDelayReqMsg :=
  effects.filterMap (fun
    | .sendDelayReq msg _ => some msg
    | .reportDiff _ _ _ => none)

def reports (effects : List Effect) : List (PtpTimestamp × PtpTimestamp) :=
  effects.filterMap (fun
    | .sendDelayReq _ _ => none
    | .reportDiff _ syncTs diffTs => some (syncTs, diffTs))

def lastRequest (before : List Event) : Option PtpDelayReqMsg :=
  ((outputs interpret .init before).flatMap requests).getLast?

/-- A DelayResponse names the requester and the number of the outstanding request. -/
def answers (before : List Event) (e : Event) : Bool :=
  match lastRequest before with
  | none => false
  | some req => reqPortId e.msg = req.header.srcPortId && seqId e.msg = req.header.seqId

/-- All inserted messages are DelayResponses that answer no request of this slave. -/
def onlyForeign (before : List Event) : List (Bool × Event) → Bool
  | [] => true
  | (extra, e) :: rest =>
    (!extra || (e.isDelayResponse && !answers before e)) && onlyForeign (before ++ [e]) rest

def Noninterfering (xs : List (Bool × Event)) : Prop :=
  (outputs interpret .init (xs.map Prod.snd)).flatMap reports =
      (outputs interpret .init (kept xs)).flatMap reports ∧
    (outputs interpret .init (xs.map Prod.snd)).flatMap requests =
      (outputs interpret .init (kept xs)).flatMap requests

theorem delayResponse_requests (s : PtpSyncState) (e : Event)
    (response : e.isDelayResponse = true) : requests (interpret s e).2 = [] := by
  rw [interpret_delayResponse response]
  rfl

theorem delayResponse_reports (s : PtpSyncState) (e : Event)
    (response : e.isDelayResponse = true) : (reports (interpret s e).2).length = 1 := by
  rw [interpret_delayResponse response]
  rfl

/-- Inserted DelayResponses, whoever they answer, leave every report and request made at
another message as it is, send nothing, and make one report each. -/
theorem inserted_delayResponses (xs : List (Bool × Event))
    (inserted : ∀ x ∈ xs, x.1 = true → x.2.isDelayResponse = true) :
    keptOutputs interpret .init xs = outputs interpret .init (kept xs) ∧
      (outputs interpret .init (xs.map Prod.snd)).flatMap requests =
        (outputs interpret .init (kept xs)).flatMap requests ∧
      ((outputs interpret .init (xs.map Prod.snd)).flatMap reports).length =
        ((outputs interpret .init (kept xs)).flatMap reports).length + xs.countP Prod.fst := by
  have others := keptOutputs_eq interpret SameExchange (fun e => e.isDelayResponse = true)
    delayResponse_sameExchange interpret_sameExchange xs inserted (sameExchange_refl .init)
  refine ⟨others, ?_, ?_⟩
  · rw [← others]
    exact observed_kept interpret requests _ delayResponse_requests xs inserted .init
  · rw [← others]
    exact observed_length interpret reports _ delayResponse_reports xs inserted .init

def foreignResponseExample : Event :=
  ⟨fun i => if i = 44 then 1 else frame 0x09 (ptpPrepareTimestamp ⟨101, 1001000⟩) i,
    ⟨101, 1002000⟩⟩

def interferedRun : List (Bool × Event) :=
  [(false, syncExample), (false, followUpExample), (false, delayResponseExample),
    (true, foreignResponseExample)]

theorem interferedRun_reports :
    keptOutputs interpret .init interferedRun = outputs interpret .init (kept interferedRun) :=
  (inserted_delayResponses interferedRun (by
    intro x hx extra
    simp only [interferedRun, List.mem_cons, List.not_mem_nil, or_false] at hx
    rcases hx with rfl | rfl | rfl | rfl
    · contradiction
    · contradiction
    · contradiction
    · decide)).1

/-- A DelayResponse for another slave is reported like the slave's own. -/
theorem foreign_response_reported :
    ¬ ∀ xs, onlyForeign [] xs = true → Noninterfering xs := by
  intro h
  have same := (h interferedRun (by decide)).1
  revert same
  decide

/- Messages of the other types. -/

def Event.isExchange (e : Event) : Bool := e.isSync || e.isFollowUp || e.isDelayResponse

theorem interpret_otherType {e : Event} (other : e.isExchange = false) (s : PtpSyncState) :
    interpret s e = (s, []) := by
  simp only [Event.isExchange, Bool.or_eq_false_iff] at other
  exact interpret_other other.1.1 other.1.2 other.2 s

theorem error_otherType {s : PtpSyncState} {e : Event}
    (error : (ptpSyncInterpreter s e.msg e.now).value.ret = ptpMsgErr) : e.isExchange = false := by
  have refused : rejected e.type = true := by
    cases accepted : rejected e.type with
    | true => rfl
    | false =>
      rw [interpreter_accepted accepted] at error
      contradiction
  cases type : e.type with
  | none => simp [Event.isExchange, Event.isSync, Event.isFollowUp, Event.isDelayResponse, type]
  | some t =>
    rw [type] at refused
    cases t <;> first
      | contradiction
      | simp [Event.isExchange, Event.isSync, Event.isFollowUp, Event.isDelayResponse, type]

def marked (es : List Event) : List (Bool × Event) := es.map (fun e => (!e.isExchange, e))

theorem marked_events (es : List Event) : (marked es).map Prod.snd = es := by
  simp [marked, Function.comp_def]

theorem marked_kept (es : List Event) : kept (marked es) = es.filter Event.isExchange := by
  induction es with
  | nil => rfl
  | cons e es ih =>
    cases exchange : e.isExchange <;>
      simpa [marked, kept, exchange] using ih

theorem marked_other {es : List Event} :
    ∀ x ∈ marked es, x.1 = true → x.2.isExchange = false := by
  intro x hx extra
  obtain ⟨e, -, rfl⟩ := List.mem_map.mp hx
  simpa using extra

/-- Without its messages of other types, which include all that are answered by an error,
a run makes the same requests and reports at the remaining messages and ends in the same
state. -/
theorem other_types_deleted (s : PtpSyncState) (es : List Event) :
    (∀ (t : PtpSyncState) (e : Event), (ptpSyncInterpreter t e.msg e.now).value.ret = ptpMsgErr →
        e.isExchange = false) ∧
      keptOutputs interpret s (marked es) = outputs interpret s (es.filter Event.isExchange) ∧
      (outputs interpret s es).flatMap requests =
        (outputs interpret s (es.filter Event.isExchange)).flatMap requests ∧
      (outputs interpret s es).flatMap reports =
        (outputs interpret s (es.filter Event.isExchange)).flatMap reports ∧
      after interpret s es = after interpret s (es.filter Event.isExchange) := by
  have others : keptOutputs interpret s (marked es) =
      outputs interpret s (es.filter Event.isExchange) := by
    rw [← marked_kept]
    refine keptOutputs_eq interpret Eq (fun e => e.isExchange = false) ?_ ?_ (marked es)
      marked_other rfl
    · rintro s t e other rfl
      rw [interpret_otherType other]
    · rintro s t rfl e
      exact ⟨rfl, rfl⟩
  have observed : ∀ {V : Type} (observe : List Effect → List V), observe [] = [] →
      (outputs interpret s es).flatMap observe =
        (outputs interpret s (es.filter Event.isExchange)).flatMap observe := by
    intro V observe nothing
    rw [← others, ← observed_kept interpret observe (fun e => e.isExchange = false) ?_ (marked es)
      marked_other, marked_events]
    intro s e other
    rw [interpret_otherType other, nothing]
  refine ⟨fun t e => error_otherType, others, observed requests rfl, observed reports rfl, ?_⟩
  exact (after_filter interpret Event.isExchange
    (fun s e other => by rw [interpret_otherType other]) es s).symm

end StandalonePtp
