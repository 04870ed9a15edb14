import Mathlib.Data.List.Defs
import StandalonePtp.PtpSync

/-! What the statics of the interpreter remember of the messages handled so far, and
what this means for reports: none of the statics is ever consumed or compared. -/
namespace StandalonePtp

open Run

/- One step, static by static. -/

theorem interpret_state (s : PtpSyncState) (e : Event) :
    (interpret s e).1 =
      { t1 := if e.isFollowUp then wireTime e.msg else s.t1
        t2 := if e.isSync then e.now else s.t2
        t3 := if e.isFollowUp then e.now else s.t3
        t4 := if e.isDelayResponse then wireTime e.msg else s.t4
        sysTs := if e.isDelayResponse then e.now else s.sysTs
        msg := if e.isFollowUp then delayReq s e else s.msg } := by
  rcases event_kinds e with ⟨hs, hf, hd⟩ | ⟨hs, hf, hd⟩ | ⟨hs, hf, hd⟩ | ⟨hs, hf, hd⟩
  · simp [interpret_sync hs, hs, hf, hd]
  · simp [interpret_followUp hf, hs, hf, hd]
  · simp [interpret_delayResponse hd, hs, hf, hd]
  · simp [interpret_other hs hf hd, hs, hf, hd]

theorem interpret_effects (s : PtpSyncState) (e : Event) :
    (interpret s e).2 =
      if e.isDelayResponse then [report s e]
      else if e.isFollowUp then [.sendDelayReq (delayReq s e) sizeofDelayReqMsg]
      else [] := by
  rcases event_kinds e with ⟨hs, hf, hd⟩ | ⟨hs, hf, hd⟩ | ⟨hs, hf, hd⟩ | ⟨hs, hf, hd⟩
  · simp [interpret_sync hs, hf, hd]
  · simp [interpret_followUp hf, hf, hd]
  · simp [interpret_delayResponse hd, hd]
  · simp [interpret_other hs hf hd, hf, hd]

/- Whole runs: each static is a register of the latest message of one type. -/

theorem t1_latest (s : PtpSyncState) (es : List Event) :
    (after interpret s es).t1 =
      ((latest Event.isFollowUp es).map (fun e => wireTime e.msg)).getD s.t1 :=
  register_latest interpret PtpSyncState.t1 Event.isFollowUp (fun e => wireTime e.msg)
    (fun s e h => by simp [interpret_state, h]) (fun s e h => by simp [interpret_state, h]) es s

theorem t2_latest (s : PtpSyncState) (es : List Event) :
    (after interpret s es).t2 = ((latest Event.isSync es).map Event.now).getD s.t2 :=
  register_latest interpret PtpSyncState.t2 Event.isSync Event.now
    (fun s e h => by simp [interpret_state, h]) (fun s e h => by simp [interpret_state, h]) es s

theorem t3_latest (s : PtpSyncState) (es : List Event) :
    (after interpret s es).t3 = ((latest Event.isFollowUp es).map Event.now).getD s.t3 :=
  register_latest interpret PtpSyncState.t3 Event.isFollowUp Event.now
    (fun s e h => by simp [interpret_state, h]) (fun s e h => by simp [interpret_state, h]) es s

theorem t4_latest (s : PtpSyncState) (es : List Event) :
    (after interpret s es).t4 =
      ((latest Event.isDelayResponse es).map (fun e => wireTime e.msg)).getD s.t4 :=
  register_latest interpret PtpSyncState.t4 Event.isDelayResponse (fun e => wireTime e.msg)
    (fun s e h => by simp [interpret_state, h]) (fun s e h => by simp [interpret_state, h]) es s

/- The times a report is computed from, read off the messages handled before it. -/

def originTime (before : List Event) : PtpTimestamp :=
  ((latest Event.isFollowUp before).map (fun e => wireTime e.msg)).getD .zero

def arrivalTime (before : List Event) : PtpTimestamp :=
  ((latest Event.isSync before).map Event.now).getD .zero

def requestTime (before : List Event) : PtpTimestamp :=
  ((latest Event.isFollowUp before).map Event.now).getD .zero

def reportAfter (before : List Event) (e : Event) : Effect :=
  let times := delayTimes (originTime before) (arrivalTime before) (requestTime before)
    (wireTime e.msg) e.now
  .reportDiff 0 times.syncedTime times.diff

theorem report_after (before : List Event) (e : Event) :
    report (after interpret .init before) e = reportAfter before e := by
  simp only [report, t1_latest, t2_latest, t3_latest]
  rfl

def Effect.isReport : Effect → Bool
  | .reportDiff _ _ _ => true
  | .sendDelayReq _ _ => false

def Effect.isRequest : Effect → Bool
  | .reportDiff _ _ _ => false
  | .sendDelayReq _ _ => true

/-- How far an exchange has come since the previous report. -/
inductive Phase where
  | idle
  | synced
  | requested
  deriving DecidableEq, Repr

def Phase.next (p : Phase) (e : Event) (effects : List Effect) : Phase :=
  if effects.any Effect.isReport then .idle
  else match p with
    | .idle => if e.isSync then .synced else .idle
    | .synced => if e.isFollowUp && effects.any Effect.isRequest then .requested else .synced
    | .requested => .requested

/-- Every report of the run is made in the last phase of an exchange. -/
def completeExchanges (p : Phase) (s : PtpSyncState) : List Event → Bool
  | [] => true
  | e :: rest =>
    let handled := interpret s e
    (!handled.2.any Effect.isReport || p = .requested) &&
      completeExchanges (p.next e handled.2) handled.1 rest

/-- The interpreter keeps no phase: each DelayResponse makes one report from the latest
times it has, and nothing else makes one. -/
theorem effects_after (before : List Event) (e : Event) :
    (interpret (after interpret .init before) e).2 =
      if e.isDelayResponse then [reportAfter before e]
      else if e.isFollowUp then
        [.sendDelayReq (delayReq (after interpret .init before) e) sizeofDelayReqMsg]
      else [] := by
  rw [interpret_effects, report_after]

def syncExample : Event := ⟨frame 0x00 (ptpPrepareTimestamp .zero), ⟨100, 1000⟩⟩

def followUpExample : Event := ⟨frame 0x08 (ptpPrepareTimestamp ⟨100, 0⟩), ⟨100, 1000000⟩⟩

def delayResponseExample : Event :=
  ⟨frame 0x09 (ptpPrepareTimestamp ⟨100, 1001000⟩), ⟨100, 1002000⟩⟩

/-- A duplicate of the DelayResponse makes a second report for the same exchange. -/
theorem duplicate_reported :
    ¬ ∀ es, completeExchanges .idle .init es = true := by
  intro h
  have duplicated := h [syncExample, followUpExample, delayResponseExample, delayResponseExample]
  revert duplicated
  decide

example : completeExchanges .idle .init
    [syncExample, followUpExample, delayResponseExample] = true := by decide

/- Pairing of the two messages of a two-step master. -/

/-- The arrival time in use was read at a Sync, and the origin time in use was sent by a
FollowUp, with the same sequence number and the same sender. -/
def Paired (before : List Event) : Prop :=
  ∃ sync ∈ before, ∃ followUp ∈ before, sync.isSync = true ∧ followUp.isFollowUp = true ∧
    (after interpret .init before).t2 = sync.now ∧
    (after interpret .init before).t1 = wireTime followUp.msg ∧
    seqId sync.msg = seqId followUp.msg ∧ srcPortId sync.msg = srcPortId followUp.msg

/-- Two events that differ at most in the sender and the sequence number of the message. -/
structure SameButIdentity (e e' : Event) : Prop where
  now : e.now = e'.now
  octets : ∀ i, i < 20 ∨ 32 ≤ i → e.msg i = e'.msg i

theorem type_same {e e' : Event} (h : SameButIdentity e e') : e.type = e'.type := by
  rw [Event.type, Event.type, h.octets 0 (by omega)]

theorem wireTime_same {e e' : Event} (h : SameButIdentity e e') :
    wireTime e.msg = wireTime e'.msg := by
  have same : ∀ p n, 32 ≤ p → (List.range' p n).map e.msg = (List.range' p n).map e'.msg := by
    intro p n hp
    apply List.map_congr_left
    intro i hi
    have := List.mem_range'_1.mp hi
    exact h.octets i (by omega)
  simp only [wireTime, ptpStoreTimestamp, Access.value_bind, Access.value_loads,
    same timestampOffset 6 (by decide), same (timestampOffset + 6) 4 (by decide)]

theorem delayReq_same {e e' : Event} (h : SameButIdentity e e') (s : PtpSyncState) :
    delayReq s e = delayReq s e' := by
  simp only [delayReq, ptpSyncSendDelayReqEvent, Access.value_bind, Access.value_load, h.now,
    h.octets 0 (by omega), h.octets 1 (by omega)]

theorem interpret_same {e e' : Event} (h : SameButIdentity e e') (s : PtpSyncState) :
    interpret s e = interpret s e' := by
  have type := type_same h
  rcases event_kinds e with ⟨hs, hf, hd⟩ | ⟨hs, hf, hd⟩ | ⟨hs, hf, hd⟩ | ⟨hs, hf, hd⟩ <;>
    have hs' := hs <;> have hf' := hf <;> have hd' := hd <;>
    simp only [Event.isSync, Event.isFollowUp, Event.isDelayResponse, type] at hs' hf' hd'
  · rw [interpret_sync hs, interpret_sync hs', h.now]
  · rw [interpret_followUp hf, interpret_followUp hf', h.now, wireTime_same h, delayReq_same h]
  · rw [interpret_delayResponse hd, interpret_delayResponse hd', report, report, h.now,
      wireTime_same h]
  · rw [interpret_other hs hf hd, interpret_other hs' hf' hd']

theorem outputs_same {es es' : List Event} (same : List.Forall₂ SameButIdentity es es')
    (s : PtpSyncState) : outputs interpret s es = outputs interpret s es' := by
  induction same generalizing s with
  | nil => rfl
  | cons head tail ih => simp only [outputs, interpret_same head, ih]

theorem paired_of_latest {before : List Event} {sync followUp : Event}
    (lastSync : latest Event.isSync before = some sync)
    (lastFollowUp : latest Event.isFollowUp before = some followUp)
    (number : seqId sync.msg = seqId followUp.msg)
    (sender : srcPortId sync.msg = srcPortId followUp.msg) : Paired before := by
  have s := latest_mem lastSync
  have f := latest_mem lastFollowUp
  refine ⟨sync, s.1, followUp, f.1, s.2, f.2, ?_, ?_, number, sender⟩
  · rw [t2_latest, lastSync]
    rfl
  · rw [t1_latest, lastFollowUp]
    rfl

/-- Every report is made from the clock reading at the latest Sync and the time sent by
the latest FollowUp. No effect of a run depends on sequence numbers or senders, so the
two belong together when these messages do. -/
theorem reports_latest_pair (es es' : List Event) (same : List.Forall₂ SameButIdentity es es') :
    outputs interpret .init es = outputs interpret .init es' ∧
      ∀ before e later, es = before ++ e :: later → e.isDelayResponse = true →
        (interpret (after interpret .init before) e).2 =
            [report (after interpret .init before) e] ∧
          (after interpret .init before).t2 =
            ((latest Event.isSync before).map Event.now).getD .zero ∧
          (after interpret .init before).t1 =
            ((latest Event.isFollowUp before).map (fun e => wireTime e.msg)).getD .zero ∧
          (∀ sync followUp, latest Event.isSync before = some sync →
            latest Event.isFollowUp before = some followUp →
            seqId sync.msg = seqId followUp.msg → srcPortId sync.msg = srcPortId followUp.msg →
            Paired before) := by
  refine ⟨outputs_same same .init, ?_⟩
  intro before e later _ response
  refine ⟨?_, t2_latest .init before, t1_latest .init before, ?_⟩
  · rw [interpret_effects, if_pos response]
  · intro sync followUp lastSync lastFollowUp number sender
    exact paired_of_latest lastSync lastFollowUp number sender

def numbered (number : UInt8) (e : Event) : Event :=
  ⟨fun i => if i = 31 then number else e.msg i, e.now⟩

theorem numbered_same (number : UInt8) (e : Event) : SameButIdentity (numbered number e) e := by
  refine ⟨rfl, fun i outside => ?_⟩
  have : i ≠ 31 := by omega
  simp [numbered, this]

theorem renumbered_reports :
    outputs interpret .init [syncExample, numbered 1 followUpExample, delayResponseExample] =
      outputs interpret .init [syncExample, followUpExample, delayResponseExample] :=
  (reports_latest_pair [syncExample, numbered 1 followUpExample, delayResponseExample]
    [syncExample, followUpExample, delayResponseExample]
    (.cons ⟨rfl, fun _ _ => rfl⟩ (.cons (numbered_same 1 followUpExample)
      (.cons ⟨rfl, fun _ _ => rfl⟩ .nil)))).1

def laterSyncExample : Event := ⟨(numbered 2 syncExample).msg, ⟨101, 1000⟩⟩

/-- The FollowUp of the first Sync arrives after the second Sync: the arrival time of one
exchange is reported with the origin time of the other. -/
theorem overtaken_followUp_unpaired :
    ¬ ∀ (before : List Event) (e : Event), e.isDelayResponse = true → Paired before := by
  intro h
  obtain ⟨sync, hs, followUp, hf, isSync, isFollowUp, arrival, -, number, -⟩ :=
    h [numbered 1 syncExample, laterSyncExample, numbered 1 followUpExample]
      delayResponseExample (by decide)
  simp only [List.mem_cons, List.not_mem_nil, or_false] at hs hf
  rcases hs with rfl | rfl | rfl
  · exact absurd arrival (by decide)
  · rcases hf with rfl | rfl | rfl
    · exact absurd isFollowUp (by decide)
    · exact absurd isFollowUp (by decide)
    · exact absurd number (by decide)
  · exact absurd isSync (by decide)

end StandalonePtp
