import StandalonePtp.Reception
import StandalonePtp.Station

/-! The slave over frames, behind the driver: what reaches the interpreter of the frames that the
device has received. -/
namespace StandalonePtp

open Run

variable {R H Q P : Type} (B : BdRing R H) (pq : PqQueue Q P) (c : RxConfig)

structure Node (R Q P : Type) where
  rx : Rx R Q P
  slave : Slave

/-- The interrupt, and the loop of the program; the clock is read while a frame is handled. -/
inductive NodeCall (H P : Type) where
  | emacpsRecvHandler (progress : List H) (supply : List (Option P))
  | xemacpsifInput (now serviceNow : ClockReading)

def NodeCall.driver : NodeCall H P → RxCall H P
  | .emacpsRecvHandler progress supply => .emacpsRecvHandler progress supply
  | .xemacpsifInput _ _ => .xemacpsifInput

/-- The packet from the queue, if its type is one that `netif->input` is called for. -/
def handedOn (netif : NetifConfig) (frame : P → Pbuf) (packet : Option P)
    (now serviceNow : ClockReading) : List Arrival :=
  match packet with
  | none => []
  | some p =>
    if passesFilter netif (lwipHtons (ethhdrType (frame p)).value) then
      [⟨.gptp, frame p, now, serviceNow⟩]
    else []

structure Passage (P : Type) where
  ops : List (RxOp P)
  arrivals : List Arrival
  reactions : List Reaction

def Node.call (netif : NetifConfig) (frame : P → Pbuf) (n : Node R Q P) (call : NodeCall H P) :
    Node R Q P × Passage P :=
  let moved := n.rx.call B pq c netif frame call.driver
  let arrivals := match call with
    | .emacpsRecvHandler _ _ => []
    | .xemacpsifInput now serviceNow =>
      handedOn netif frame ((lowLevelInput pq n.rx).map Prod.fst) now serviceNow
  (⟨moved.1, after Slave.receive n.slave arrivals⟩,
    ⟨moved.2, arrivals, outputs Slave.receive n.slave arrivals⟩)

/-- The message of an exchange in a frame, which alone matters to the slave. -/
def exchangeMessage (frame : Pbuf) : Option Memory :=
  if delivered .gptp frame && (⟨message .gptp frame, .zero⟩ : Event).isExchange then
    some (message .gptp frame)
  else none

theorem arrival_exchange (frame : Pbuf) (now serviceNow : ClockReading) :
    (Arrival.exchange ⟨.gptp, frame, now, serviceNow⟩).map Received.msg = exchangeMessage frame := by
  rw [Arrival.exchange, exchangeMessage]
  exact apply_ite _ _ _ _

variable {B pq c}

/- The queue loses a frame only to the stack. -/

theorem queueReceived_dequeues (storage : Nat → Option P) (recvQ : Q) (bd k : Nat) :
    rxDequeued (queueReceived B pq c storage recvQ bd k).2 = [] := by
  induction k generalizing recvQ bd with
  | zero => rfl
  | succ k ih =>
    rw [queueReceived]
    cases storage (c.index + bd) with
    | none => exact ih recvQ (B.next bd)
    | some p =>
      dsimp only
      cases pq.pqEnqueue recvQ p with
      | some recvQ' => exact ih recvQ' (B.next bd)
      | none => exact ih recvQ (B.next bd)

theorem setupRxBds_dequeues (freebds : Nat) (supply : List (Option P)) (s : Rx R Q P) :
    rxDequeued (setupRxBds B c s supply freebds).2.2 = [] := by
  induction freebds generalizing s supply with
  | zero => rw [setupRxBds]; rfl
  | succ freebds ih =>
    rcases supply with _ | ⟨_ | p, supply⟩
    · rfl
    · rfl
    · rw [setupRxBds]
      cases B.alloc s.ring 1 with
      | none => rfl
      | some allocated =>
        dsimp only
        cases B.toHw allocated.2 1 allocated.1 with
        | none => rfl
        | some ring => exact ih supply _

theorem setupRxBds_queue (freebds : Nat) (supply : List (Option P)) (s : Rx R Q P) :
    (setupRxBds B c s supply freebds).1.recvQ = s.recvQ := by
  induction freebds generalizing s supply with
  | zero => rw [setupRxBds]
  | succ freebds ih =>
    rcases supply with _ | ⟨_ | p, supply⟩
    · rfl
    · rfl
    · rw [setupRxBds]
      cases B.alloc s.ring 1 with
      | none => rfl
      | some allocated =>
        dsimp only
        cases B.toHw allocated.2 1 allocated.1 with
        | none => rfl
        | some ring => exact ih supply _

theorem recvHandler_dequeues (progress : List H) (supply : List (Option P)) (s : Rx R Q P) :
    rxDequeued (emacpsRecvHandler B pq c s supply progress).2.2 = [] := by
  induction progress generalizing s supply with
  | nil => rfl
  | cons h progress ih =>
    rw [emacpsRecvHandler]
    split
    · rfl
    · simp only [rxDequeued_append, queueReceived_dequeues, setupRxBds_dequeues, ih,
        List.append_nil]

theorem input_dequeues (netif : NetifConfig) (frame : P → Pbuf) (s : Rx R Q P) :
    rxDequeued (xemacpsifInput pq netif frame s).2 =
      ((lowLevelInput pq s).map Prod.fst).toList := by
  have disposed : ∀ (p : P) (disposals : List Disposal),
      rxDequeued (disposals.map (RxOp.dispose p)) = [] := by
    intro p disposals
    rw [rxDequeued, List.filterMap_map, List.filterMap_eq_nil_iff]
    intro disposal _
    cases disposal <;> rfl
  rw [xemacpsifInput]
  cases lowLevelInput pq s with
  | none => rfl
  | some head => exact congrArg (head.1 :: ·) (disposed head.1 _)

theorem exchangeMessage_passes (netif : NetifConfig) {frame : Pbuf}
    (stopped : passesFilter netif (lwipHtons (ethhdrType frame).value) = false) :
    exchangeMessage frame = none := by
  rw [exchangeMessage]
  cases handed : delivered .gptp frame with
  | false => rfl
  | true =>
    have passes := (delivered_freed netif handed).1
    rw [stopped] at passes
    contradiction

/-- What the slave gets to see of the queue in one call. -/
theorem handed_messages (netif : NetifConfig) (frame : P → Pbuf) (n : Node R Q P)
    (call : NodeCall H P) :
    let passage := (n.call B pq c netif frame call).2
    (passage.arrivals.filterMap Arrival.exchange).map Received.msg =
      (rxDequeued passage.ops).filterMap (fun p => exchangeMessage (frame p)) := by
  intro passage
  cases call with
  | emacpsRecvHandler progress supply =>
    have none_left : rxDequeued passage.ops = [] := recvHandler_dequeues progress supply n.rx
    rw [none_left]
    rfl
  | xemacpsifInput now serviceNow =>
    have head : rxDequeued passage.ops = _ := input_dequeues netif frame n.rx
    rw [head]
    change ((handedOn netif frame ((lowLevelInput pq n.rx).map Prod.fst) now serviceNow).filterMap
      _).map _ = _
    cases (lowLevelInput pq n.rx).map Prod.fst with
    | none => rfl
    | some p =>
      rw [handedOn]
      cases passes : passesFilter netif (lwipHtons (ethhdrType (frame p)).value) with
      | false =>
        have unseen := exchangeMessage_passes netif passes
        simp [unseen]
      | true =>
        rw [if_pos rfl, Option.toList_some, List.filterMap_cons,
          List.filterMap_cons, ← arrival_exchange (frame p) now serviceNow]
        cases Arrival.exchange ⟨.gptp, frame p, now, serviceNow⟩ <;> rfl

variable {view : R → Groups} {content : Q → List P}

theorem nodeCall_queued (lawful : B.Lawful c.nRxDesc view) (fifo : pq.Lawful content) (netif : NetifConfig)
    (frame : P → Pbuf) (n : Node R Q P) (settled : RxSettled c view n.rx) (call : NodeCall H P) :
    let moved := n.call B pq c netif frame call
    let inside := fun (queue : List P) => queue.filterMap (fun p => exchangeMessage (frame p))
    RxSettled c view moved.1.rx ∧
      inside (content n.rx.recvQ) ++ inside (rxEnqueued moved.2.ops) =
        (moved.2.arrivals.filterMap Arrival.exchange).map Received.msg ++
          inside (content moved.1.rx.recvQ) := by
  intro moved inside
  have driver := rxCall_moved lawful fifo netif frame settled call.driver
  refine ⟨driver.settled, ?_⟩
  have seen : (moved.2.arrivals.filterMap Arrival.exchange).map Received.msg = _ :=
    handed_messages netif frame n call
  rw [seen, ← List.filterMap_append, ← List.filterMap_append]
  exact congrArg inside driver.queued

/-- Of all frames that the driver puts into its queue, the slave handles the messages of
exchanges, in their order and once, up to those that are still in the queue; and it does with
them what it does with messages alone. -/
theorem slave_behind_driver (lawful : B.Lawful c.nRxDesc view) (fifo : pq.Lawful content)
    (netif : NetifConfig) (frame : P → Pbuf) (r : R) (supply : List (Option P)) (s : Slave)
    (calls : List (NodeCall H P)) :
    let start : Node R Q P := ⟨(initDma B c (Rx.blank pq r) supply).1, s⟩
    let ran := outputs (Node.call B pq c netif frame) start calls
    let n := after (Node.call B pq c netif frame) start calls
    let messages := (ran.flatMap Passage.arrivals).filterMap Arrival.exchange
    let inside := fun (queue : List P) => queue.filterMap (fun p => exchangeMessage (frame p))
    inside (ran.flatMap (fun passage => rxEnqueued passage.ops)) =
        messages.map Received.msg ++ inside (content n.rx.recvQ) ∧
      n.slave = after Slave.answer s messages ∧
      (ran.flatMap Passage.reactions).flatMap Reaction.requests =
        (outputs Slave.answer s messages).flatMap Reaction.requests ∧
      (ran.flatMap Passage.reactions).flatMap Reaction.writes =
        (outputs Slave.answer s messages).flatMap Reaction.writes := by
  intro start ran n messages inside
  have settled : RxSettled c view start.rx :=
    (initDma_moved content lawful (Rx.blank pq r) supply).settled
  have empty : content start.rx.recvQ = [] := by
    rw [← fifo.pqCreateQueue]
    exact congrArg content (setupRxBds_queue c.nRxDesc supply _)
  have queue := balance piecewise_eq (Node.call B pq c netif frame) (fun n => RxSettled c view n.rx)
    (fun _ => True) (fun n => inside (content n.rx.recvQ)) (fun passage => inside (rxEnqueued passage.ops))
    (fun passage => (passage.arrivals.filterMap Arrival.exchange).map Received.msg)
    (fun n call settled _ => (nodeCall_queued lawful fifo netif frame n settled call).1)
    (fun n call settled _ => (nodeCall_queued lawful fifo netif frame n settled call).2) calls
    (fun _ _ => trivial) settled
  have fed : ∀ {V : Type} (observe : Reaction → List V), observe .silent = [] →
      n.slave = after Slave.answer s messages ∧ (ran.flatMap Passage.reactions).flatMap observe =
        (outputs Slave.answer s messages).flatMap observe := by
    intro V observe silent
    have received := after_fed (Node.call B pq c netif frame) Slave.receive Node.slave
      Passage.arrivals (fun passage => passage.reactions.flatMap observe) observe
      (fun _ _ => ⟨rfl, rfl⟩) calls start
    have answered := receive_simulation observe silent s (ran.flatMap Passage.arrivals)
    rw [List.flatMap_assoc]
    exact ⟨received.1.trans answered.2, received.2.trans answered.1⟩
  refine ⟨?_, (fed Reaction.requests rfl).1, (fed Reaction.requests rfl).2,
    (fed Reaction.writes rfl).2⟩
  simp only [empty, inside, List.filterMap_nil, List.nil_append] at queue
  simp only [inside, messages, List.filterMap_flatMap, List.map_flatMap]
  exact queue

/-- A FollowUp is received, and handed on from the queue. -/
def nodeCallsExample : List (NodeCall Nat Nat) :=
  [.emacpsRecvHandler [1, 0] [some 3], .xemacpsifInput readingExample readingExample]

theorem nodeCallsExample_answered :
    let pq := Bounded.queue 8 Nat
    let frame := fun (_ : Nat) => followUpArrival.pbuf
    let start : Node (Counted 2) (Bounded 8 Nat) Nat :=
      ⟨(initDma (Counted.ring 2) rxConfigExample (Rx.blank pq (Counted.create 2))
        [some 1, some 2]).1, .init⟩
    let ran := outputs (Node.call (Counted.ring 2) pq rxConfigExample netifExample frame) start
      nodeCallsExample
    (ran.flatMap Passage.reactions).flatMap Reaction.requests =
      (outputs Slave.answer .init [followUpArrival.received]).flatMap Reaction.requests :=
  (slave_behind_driver (c := rxConfigExample) (Counted.lawful 2) (Bounded.lawful 8 Nat)
    netifExample (fun _ => followUpArrival.pbuf) (Counted.create 2) [some 1, some 2] .init
    nodeCallsExample).2.2.1

end StandalonePtp
