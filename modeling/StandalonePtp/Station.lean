import StandalonePtp.Framing
import StandalonePtp.Interference
import StandalonePtp.Slave

/-! The slave behind its two transports: what it does with the buffers it gets, against what it
does with the messages in them. -/
namespace StandalonePtp

open Run

/-- A received buffer, with the clock readings taken while it is handled. -/
structure Arrival where
  transport : Transport
  pbuf : Pbuf
  now : ClockReading
  serviceNow : ClockReading

namespace Arrival

def received (a : Arrival) : Received := ⟨message a.transport a.pbuf, a.now, a.serviceNow⟩

def delivered (a : Arrival) : Bool := StandalonePtp.delivered a.transport a.pbuf

/-- The message of an exchange that a buffer brings to the interpreter. -/
def exchange (a : Arrival) : Option Received :=
  if a.delivered && a.received.event.isExchange then some a.received else none

end Arrival

structure Reaction where
  requests : List PtpDelayReqMsg
  writes : List XilOut32
  deriving DecidableEq, Repr

def Reaction.silent : Reaction := ⟨[], []⟩

def Slave.receive (s : Slave) (a : Arrival) : Slave × Reaction :=
  match (StandalonePtp.receive a.transport s.sync a.pbuf a.now.systime).value with
  | none => (s, .silent)
  | some handled =>
    let done := deliver s.device a.serviceNow.reads handled.effects
    (⟨handled.state, done.1⟩, ⟨requests handled.effects, done.2⟩)

/-- What the slave does with a message, however it came. -/
def Slave.answer (s : Slave) (r : Received) : Slave × Reaction :=
  ((s.handle r).1, ⟨requests (interpret s.sync r.event).2, (s.handle r).2⟩)

theorem receive_answer (s : Slave) {a : Arrival} (h : a.delivered = true) :
    s.receive a = s.answer a.received := by
  have handed := (receive_delivered h s.sync a.now.systime).1
  rw [Slave.receive, handed]
  rfl

theorem receive_ignored (s : Slave) {a : Arrival} (h : a.delivered = false) :
    s.receive a = (s, .silent) := by
  rw [Slave.receive, (receive_dropped h s.sync a.now.systime).1]

theorem answer_otherType (s : Slave) {r : Received} (other : r.event.isExchange = false) :
    s.answer r = (s, .silent) := by
  simp only [Slave.answer, Slave.handle, interpret_otherType other, deliver, requests,
    List.filterMap_nil]
  rfl

theorem receive_hidden (s : Slave) {a : Arrival} (hidden : a.exchange = none) :
    s.receive a = (s, .silent) := by
  rw [Arrival.exchange, ite_eq_right_iff] at hidden
  cases handed : a.delivered with
  | false => exact receive_ignored s handed
  | true =>
    rw [receive_answer s handed]
    refine answer_otherType s (Bool.eq_false_iff.mpr (fun exchange => ?_))
    exact nomatch hidden (by simp [handed, exchange])

theorem receive_seen (s : Slave) {a : Arrival} {r : Received} (seen : a.exchange = some r) :
    s.receive a = s.answer r := by
  rw [Arrival.exchange] at seen
  split at seen
  · rename_i both
    obtain rfl := Option.some.inj seen
    exact receive_answer s (Bool.and_eq_true_iff.mp both).1
  · contradiction

theorem receive_simulation {V : Type} (observe : Reaction → List V)
    (silent : observe .silent = []) (s : Slave) (arrivals : List Arrival) :
    (outputs Slave.receive s arrivals).flatMap observe =
        (outputs Slave.answer s (arrivals.filterMap Arrival.exchange)).flatMap observe ∧
      after Slave.receive s arrivals =
        after Slave.answer s (arrivals.filterMap Arrival.exchange) := by
  refine simulation Slave.receive Slave.answer Arrival.exchange observe observe Eq ?_ ?_ arrivals
    rfl
  · rintro s _ a rfl hidden
    rw [receive_hidden s hidden]
    exact ⟨silent, rfl⟩
  · rintro s _ a r rfl seen
    rw [receive_seen s seen]
    exact ⟨rfl, rfl⟩

/-- Behind either transport the slave does what the interpreter and the clock discipline do
with the messages of exchanges alone, whatever else arrives and however long a buffer is. -/
theorem slave_follows_messages (s : Slave) (arrivals : List Arrival) :
    let messages := arrivals.filterMap Arrival.exchange
    after Slave.receive s arrivals = after Slave.handle s messages ∧
      (outputs Slave.receive s arrivals).flatMap Reaction.requests =
        (outputs interpret s.sync (messages.map Received.event)).flatMap requests ∧
      (outputs Slave.receive s arrivals).flatMap Reaction.writes =
        (outputs Slave.handle s messages).flatten := by
  have sent := receive_simulation Reaction.requests rfl s arrivals
  have written := receive_simulation Reaction.writes rfl s arrivals
  have interpreted := simulation Slave.answer interpret (fun r => some r.event)
    Reaction.requests requests (fun s t => s.sync = t) (fun _ _ _ _ impossible => nomatch impossible)
    (fun s t r e same event => by
      obtain rfl := Option.some.inj event
      subst same
      exact ⟨rfl, rfl⟩) (arrivals.filterMap Arrival.exchange) (s := s) rfl
  have handled := simulation Slave.answer Slave.handle some Reaction.writes id Eq
    (fun _ _ _ _ impossible => nomatch impossible)
    (fun s t r r' same event => by
      obtain rfl := Option.some.inj event
      subst same
      exact ⟨rfl, rfl⟩) (arrivals.filterMap Arrival.exchange) (s := s) rfl
  rw [List.filterMap_some] at handled
  rw [List.filterMap_eq_map'] at interpreted
  exact ⟨sent.2.trans handled.2, sent.1.trans interpreted.1,
    written.1.trans (handled.1.trans List.flatMap_id)⟩

/- A FollowUp in a frame. -/

def readingExample : ClockReading := ⟨⟨200, 3000000, 200⟩, by decide⟩

def followUpArrival : Arrival :=
  ⟨.gptp, .ofOctets (gptpEthHeader.toList ++ 0x08 :: List.replicate 43 0), readingExample,
    readingExample⟩

end StandalonePtp
