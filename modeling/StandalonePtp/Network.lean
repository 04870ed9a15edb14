import Mathlib.Data.List.Basic
import Mathlib.Logic.Function.Basic
import StandalonePtp.Flow
import StandalonePtp.Station

/-! Slaves that share a network: every Delay_Req goes to a multicast group, so each slave also
gets the requests of all the others, at any time and any number of times. -/
namespace StandalonePtp

open Run

variable {ι : Type} [DecidableEq ι]

structure Delivery (ι : Type) where
  node : ι
  arrival : Arrival

def deliverTo (nodes : ι → Slave) (d : Delivery ι) : (ι → Slave) × (ι × Reaction) :=
  let handled := (nodes d.node).receive d.arrival
  (Function.update nodes d.node handled.1, (d.node, handled.2))

def Arrival.carries (a : Arrival) : Packet → Prop
  | .datagram _ _ payload => a.transport = .udp ∧ Holds a.pbuf.payload 0 payload
  | .frame octets => a.transport = .gptp ∧ Holds a.pbuf.payload 0 octets

/-- The packets on the network, if each node sends over the transport it has chosen. -/
def packets (mode : ι → Transport) (answers : List (ι × Reaction)) : List Packet :=
  answers.flatMap (fun o => o.2.requests.map (fun msg => (mode o.1).packet msg.octets))

/-- A packet of one of the nodes, delivered to a node of the network again. -/
def Relayed (mode : ι → Transport) (nodes : ι → Slave) (before : List (Delivery ι))
    (d : Delivery ι) : Prop :=
  ∃ packet ∈ packets mode (outputs deliverTo nodes before), d.arrival.carries packet

/- What a relayed packet is. -/

def PtpDelayReqMsg.IsRequest (msg : PtpDelayReqMsg) : Prop := msg.header.messageType = 0x01

theorem interpret_requests (s : PtpSyncState) (e : Event) :
    ∀ msg ∈ requests (interpret s e).2, msg.IsRequest := by
  rw [interpret_effects]
  split
  · simp [requests, report]
  · split
    · simp [requests, delayReq, ptpSyncSendDelayReqEvent, PtpDelayReqMsg.IsRequest]
    · simp [requests]

theorem receive_requests (s : Slave) (a : Arrival) :
    ∀ msg ∈ (s.receive a).2.requests, msg.IsRequest := by
  cases seen : a.exchange with
  | none => simp [receive_hidden s seen, Reaction.silent]
  | some r =>
    rw [receive_seen s seen]
    exact interpret_requests s.sync r.event

theorem packets_requests (mode : ι → Transport) (nodes : ι → Slave) (ds : List (Delivery ι)) :
    ∀ packet ∈ packets mode (outputs deliverTo nodes ds),
      ∃ (t : Transport) (msg : PtpDelayReqMsg), msg.IsRequest ∧ packet = t.packet msg.octets := by
  intro packet sent
  obtain ⟨o, answered, member⟩ := List.mem_flatMap.mp sent
  obtain ⟨msg, made, rfl⟩ := List.mem_map.mp member
  have typed := outputs_all deliverTo (fun _ => True)
    (fun (o : ι × Reaction) => ∀ msg ∈ o.2.requests, msg.IsRequest) (fun _ _ _ => trivial)
    (fun nodes d _ => receive_requests (nodes d.node) d.arrival) ds (s := nodes) trivial o answered
  exact ⟨mode o.1, msg, typed msg made, rfl⟩

theorem carries_message {a : Arrival} {t : Transport} {msg : List UInt8}
    (carried : a.carries (t.packet msg)) : Holds (message a.transport a.pbuf) 0 msg := by
  cases t with
  | udp =>
    obtain ⟨type, held⟩ := carried
    have start : message .udp a.pbuf = a.pbuf.payload := by
      funext i
      simp [message, Transport.headerLen]
    rwa [type, start]
  | gptp =>
    obtain ⟨type, held⟩ := carried
    rw [gptpEthHeader_ethHdr] at held
    rw [type]
    exact (frame_readBack held).2

theorem carried_request {a : Arrival} {t : Transport} {msg : PtpDelayReqMsg}
    (request : msg.IsRequest) (carried : a.carries (t.packet msg.octets)) : a.exchange = none := by
  have header := (holds_octets (carries_message carried)).1
  have code : lowNibble (message a.transport a.pbuf 0) = 0x01 :=
    (congrArg PtpMsgHeader.messageType header).trans request
  have type : a.received.event.type = some .delayRequest := by
    change msgType (lowNibble (message a.transport a.pbuf 0)) = _
    rw [code]
    rfl
  simp [Arrival.exchange, Event.isExchange, Event.isSync, Event.isFollowUp,
    Event.isDelayResponse, type]

theorem relayed_hidden {mode : ι → Transport} {nodes : ι → Slave} {before : List (Delivery ι)}
    {d : Delivery ι} (relayed : Relayed mode nodes before d) : d.arrival.exchange = none := by
  obtain ⟨packet, sent, carried⟩ := relayed
  obtain ⟨t, msg, request, rfl⟩ := packets_requests mode nodes before packet sent
  exact carried_request request carried

/- One node among the others. -/

/-- The message of an exchange that a delivery brings to a node. -/
def exchangeAt (node : ι) (d : Delivery ι) : Option Received :=
  if d.node = node then d.arrival.exchange else none

def answersOf (node : ι) (answers : List (ι × Reaction)) : List Reaction :=
  (answers.filter (fun o => o.1 = node)).map Prod.snd

theorem node_simulation {V : Type} (observe : Reaction → List V)
    (silent : observe .silent = []) (node : ι) (nodes : ι → Slave) (ds : List (Delivery ι)) :
    (answersOf node (outputs deliverTo nodes ds)).flatMap observe =
        (outputs Slave.answer (nodes node) (ds.filterMap (exchangeAt node))).flatMap observe ∧
      after deliverTo nodes ds node =
        after Slave.answer (nodes node) (ds.filterMap (exchangeAt node)) := by
  have own : ∀ answers : List (ι × Reaction), (answersOf node answers).flatMap observe =
      answers.flatMap (fun o => if o.1 = node then observe o.2 else []) := by
    intro answers
    induction answers with
    | nil => rfl
    | cons o answers ih =>
      rw [List.flatMap_cons, ← ih, answersOf, List.filter_cons]
      by_cases same : o.1 = node
      · simp [same, answersOf]
      · simp [same, answersOf]
  rw [own]
  refine simulation deliverTo Slave.answer (exchangeAt node) _ observe
    (fun nodes s => nodes node = s) ?_ ?_ ds rfl
  · rintro nodes _ d rfl hidden
    by_cases here : d.node = node
    · rw [exchangeAt, if_pos here] at hidden
      subst here
      simp [deliverTo, receive_hidden _ hidden, silent]
    · simp [deliverTo, here, Function.update_of_ne (Ne.symm here)]
  · rintro nodes _ d r rfl seen
    rw [exchangeAt] at seen
    split at seen
    · rename_i here
      subst here
      simp [deliverTo, receive_seen _ seen]
    · contradiction

theorem own_exchanges (node : ι) (ds : List (Delivery ι)) :
    ((ds.filter (fun d => d.node = node)).map Delivery.arrival).filterMap Arrival.exchange =
      ds.filterMap (exchangeAt node) := by
  rw [List.filterMap_map, List.filterMap_filter]
  apply List.filterMap_congr
  intro d _
  simp only [exchangeAt, decide_eq_true_eq, Function.comp]

/-- However the packets of the nodes are relayed among them, every node ends and answers as if
it had been alone with all the other buffers it gets. -/
theorem network_isolated (mode : ι → Transport) (nodes : ι → Slave)
    (events : List (Bool × Delivery ι))
    (relayed : ∀ before d later, events = before ++ (true, d) :: later →
      Relayed mode nodes (before.map Prod.snd) d) (node : ι) :
    let arrivals := ((kept events).filter (fun d => d.node = node)).map Delivery.arrival
    let answers := answersOf node (outputs deliverTo nodes (events.map Prod.snd))
    after deliverTo nodes (events.map Prod.snd) node =
        after Slave.receive (nodes node) arrivals ∧
      answers.flatMap Reaction.requests =
        (outputs Slave.receive (nodes node) arrivals).flatMap Reaction.requests ∧
      answers.flatMap Reaction.writes =
        (outputs Slave.receive (nodes node) arrivals).flatMap Reaction.writes := by
  intro arrivals answers
  have hidden : ∀ x ∈ events, x.1 = true → exchangeAt node x.2 = none := by
    rintro ⟨-, d⟩ member rfl
    obtain ⟨before, later, split⟩ := List.append_of_mem member
    have own := relayed_hidden (relayed before d later split)
    rw [exchangeAt, own, ite_self]
  have same : (events.map Prod.snd).filterMap (exchangeAt node) =
      arrivals.filterMap Arrival.exchange := by
    rw [kept_filterMap _ events hidden, own_exchanges]
  have each : ∀ {V : Type} (observe : Reaction → List V), observe .silent = [] →
      answers.flatMap observe =
          (outputs Slave.receive (nodes node) arrivals).flatMap observe ∧
        after deliverTo nodes (events.map Prod.snd) node =
          after Slave.receive (nodes node) arrivals := by
    intro V observe silent
    have shared := node_simulation observe silent node nodes (events.map Prod.snd)
    have alone := receive_simulation observe silent (nodes node) arrivals
    rw [same] at shared
    exact ⟨shared.1.trans alone.1.symm, shared.2.trans alone.2.symm⟩
  exact ⟨(each Reaction.requests rfl).2, (each Reaction.requests rfl).1,
    (each Reaction.writes rfl).1⟩

/- Two slaves: the first gets a FollowUp, the second its request. -/

def requestExample : PtpDelayReqMsg := delayReq .init followUpArrival.received.event

def requestArrival : Arrival :=
  ⟨.gptp, .ofOctets (gptpEthHeader.toList ++ requestExample.octets), readingExample,
    readingExample⟩

theorem followUpArrival_request (nodes : Bool → Slave) (start : nodes false = .init) :
    packets (fun _ => .gptp) (outputs deliverTo nodes [⟨false, followUpArrival⟩]) =
      [.frame (gptpEthHeader.toList ++ requestExample.octets)] := by
  have followUp : followUpArrival.received.event.isFollowUp = true := by decide
  have answer : (Slave.init.receive followUpArrival).2.requests = [requestExample] := by
    rw [receive_answer .init (by decide)]
    change requests (interpret .init followUpArrival.received.event).2 = _
    rw [interpret_followUp followUp]
    rfl
  simp [packets, outputs, deliverTo, start, answer, Transport.packet]

theorem requestArrival_isolated :
    after deliverTo (fun _ => .init) [⟨false, followUpArrival⟩, ⟨true, requestArrival⟩] true =
      Slave.init := by
  refine (network_isolated (fun _ => .gptp) (fun _ => .init)
    [(false, ⟨false, followUpArrival⟩), (true, ⟨true, requestArrival⟩)] ?_ true).1
  intro before d later split
  have position : before = [(false, ⟨false, followUpArrival⟩)] ∧ d = ⟨true, requestArrival⟩ := by
    rcases before with _ | ⟨first, _ | ⟨second, rest⟩⟩
    · simp at split
    · simp only [List.cons_append, List.nil_append, List.cons.injEq, Prod.mk.injEq, true_and] at split
      exact ⟨by rw [split.1], split.2.1.symm⟩
    · simp at split
  obtain ⟨rfl, rfl⟩ := position
  refine ⟨.frame (gptpEthHeader.toList ++ requestExample.octets), ?_, rfl, holds_ofOctets _⟩
  rw [List.map_cons, List.map_nil, followUpArrival_request _ rfl]
  exact List.mem_singleton_self _

end StandalonePtp
