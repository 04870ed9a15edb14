import StandalonePtp.Queue
import StandalonePtp.Transmit

/-! The receive side of xemacpsif_dma.c, and the way of a buffer from its allocation through
the queue to the layer that disposes of it. Left out are the cache, the octets of the
descriptors and the length of a frame. -/
namespace StandalonePtp

open Run

variable {R H Q P : Type}

inductive RxOp (P : Type) where
  | pbufAlloc (p : P)
  | pbufRealloc (p : Option P)
  | pqEnqueue (p : P)
  | pqDequeue (p : P)
  | pbufFree (p : Option P)
  | passedTo (p : P) (layer : Layer)

/-- As for sending. -/
structure RxConfig where
  nRxDesc : Nat
  index : Nat

structure Rx (R Q P : Type) where
  ring : R
  rxPbufsStorage : Nat → Option P
  recvQ : Q

variable (B : BdRing R H) (pq : PqQueue Q P) (c : RxConfig)

/-- The loop over the free descriptors. The list says what the allocations answer in turn. -/
def setupRxBds (s : Rx R Q P) :
    List (Option P) → Nat → Rx R Q P × List (Option P) × List (RxOp P)
  | supply, 0 => (s, supply, [])
  | [], _ + 1 => (s, [], [])
  | none :: supply, _ + 1 => (s, supply, [])
  | some p :: supply, freebds + 1 =>
    match B.alloc s.ring 1 with
    | none => (s, supply, [.pbufAlloc p, .pbufFree (some p)])
    | some (rxbd, ring) =>
      match B.toHw ring 1 rxbd with
      | none =>
        ({ s with ring := B.unAlloc ring 1 rxbd }, supply, [.pbufAlloc p, .pbufFree (some p)])
      | some ring =>
        let storage := Function.update s.rxPbufsStorage (c.index + rxbd) (some p)
        let later := setupRxBds ⟨ring, storage, s.recvQ⟩ supply freebds
        (later.1, later.2.1, .pbufAlloc p :: later.2.2)

/-- The buffers of the descriptors that are back go to the queue; their slots stay. -/
def queueReceived (storage : Nat → Option P) (recvQ : Q) (bd : Nat) :
    Nat → Q × List (RxOp P)
  | 0 => (recvQ, [])
  | k + 1 =>
    match storage (c.index + bd) with
    | none =>
      let later := queueReceived storage recvQ (B.next bd) k
      (later.1, .pbufRealloc none :: later.2)
    | some p =>
      match pq.pqEnqueue recvQ p with
      | some recvQ =>
        let later := queueReceived storage recvQ (B.next bd) k
        (later.1, [.pbufRealloc (some p), .pqEnqueue p] ++ later.2)
      | none =>
        let later := queueReceived storage recvQ (B.next bd) k
        (later.1, [.pbufRealloc (some p), .pbufFree (some p)] ++ later.2)

/-- The loop of the handler, with what the device has done before each round. It is left when
nothing is back; a list that ends before leaves it at the head of the loop. -/
def emacpsRecvHandler (s : Rx R Q P) (supply : List (Option P)) :
    List H → Rx R Q P × List (Option P) × List (RxOp P)
  | [] => (s, supply, [])
  | h :: progress =>
    let back := B.fromHw (B.device s.ring h) c.nRxDesc
    if back.1 = 0 then ({ s with ring := back.2.2 }, supply, [])
    else
      let queued := queueReceived B pq c s.rxPbufsStorage s.recvQ back.2.1 back.1
      let ring := (B.free back.2.2 back.1 back.2.1).getD back.2.2
      let set := setupRxBds B c ⟨ring, s.rxPbufsStorage, queued.1⟩ supply (B.freeCnt ring)
      let later := emacpsRecvHandler set.1 set.2.1 progress
      (later.1, later.2.1, queued.2 ++ set.2.2 ++ later.2.2)

def RxOp.dispose (p : P) : Disposal → RxOp P
  | .pbufFree => .pbufFree (some p)
  | .passedTo layer => .passedTo p layer

def lowLevelInput (s : Rx R Q P) : Option (P × Q) :=
  if pq.pqQlength s.recvQ = 0 then none else pq.pqDequeue s.recvQ

/-- One packet from the queue; `frame` is what its buffer holds. -/
def xemacpsifInput (netif : NetifConfig) (frame : P → Pbuf) (s : Rx R Q P) :
    Rx R Q P × List (RxOp P) :=
  match lowLevelInput pq s with
  | none => (s, [])
  | some (p, recvQ) =>
    ({ s with recvQ := recvQ },
      .pqDequeue p :: (xemacpsifInputDisposal netif (frame p)).map (RxOp.dispose p))

def Rx.created (s : Rx R Q P) : Rx R Q P := { s with ring := B.create s.ring }

/-- A ring with a buffer for each descriptor, as far as there are buffers. -/
def initDma (s : Rx R Q P) (supply : List (Option P)) : Rx R Q P × List (RxOp P) :=
  let set := setupRxBds B c (s.created B) supply c.nRxDesc
  (set.1, set.2.2)

/-- `free_txrx_pbufs` releases what is in the slots of all descriptors, and clears none; then
the ring is made anew. -/
def handleEmacPsError (s : Rx R Q P) (supply : List (Option P)) : Rx R Q P × List (RxOp P) :=
  let again := initDma B c s supply
  (again.1, (List.range c.nRxDesc).map (fun i => .pbufFree (s.rxPbufsStorage (c.index + i))) ++
    again.2)

/-- Interrupts and input calls; `reset_dma`, which moves the heads of the rings, is not among
them. -/
inductive RxCall (H P : Type) where
  | emacpsRecvHandler (progress : List H) (supply : List (Option P))
  | xemacpsifInput

def Rx.call (netif : NetifConfig) (frame : P → Pbuf) (s : Rx R Q P) :
    RxCall H P → Rx R Q P × List (RxOp P)
  | .emacpsRecvHandler progress supply =>
    let r := StandalonePtp.emacpsRecvHandler B pq c s supply progress
    (r.1, r.2.2)
  | .xemacpsifInput => StandalonePtp.xemacpsifInput pq netif frame s

/- What is held. -/

def RxOp.taken : RxOp P → Option P
  | .pbufAlloc p => some p
  | .pbufRealloc _ => none
  | .pqEnqueue _ => none
  | .pqDequeue _ => none
  | .pbufFree _ => none
  | .passedTo _ _ => none

def RxOp.given : RxOp P → Option P
  | .pbufAlloc _ => none
  | .pbufRealloc _ => none
  | .pqEnqueue _ => none
  | .pqDequeue _ => none
  | .pbufFree p => p
  | .passedTo p _ => some p

/-- The buffers that are allocated, and those that are released or taken over. -/
def rxTaken (ops : List (RxOp P)) : List P := ops.filterMap RxOp.taken

def rxGiven (ops : List (RxOp P)) : List P := ops.filterMap RxOp.given

def RxOp.enqueued : RxOp P → Option P
  | .pqEnqueue p => some p
  | .pbufAlloc _ => none
  | .pbufRealloc _ => none
  | .pqDequeue _ => none
  | .pbufFree _ => none
  | .passedTo _ _ => none

def RxOp.dequeued : RxOp P → Option P
  | .pqDequeue p => some p
  | .pbufAlloc _ => none
  | .pbufRealloc _ => none
  | .pqEnqueue _ => none
  | .pbufFree _ => none
  | .passedTo _ _ => none

def rxEnqueued (ops : List (RxOp P)) : List P := ops.filterMap RxOp.enqueued

def rxDequeued (ops : List (RxOp P)) : List P := ops.filterMap RxOp.dequeued

section
variable (p : P) (ops ops' : List (RxOp P))

@[simp] theorem rxTaken_append : rxTaken (ops ++ ops') = rxTaken ops ++ rxTaken ops' :=
  List.filterMap_append

@[simp] theorem rxGiven_append : rxGiven (ops ++ ops') = rxGiven ops ++ rxGiven ops' :=
  List.filterMap_append

@[simp] theorem rxEnqueued_append :
    rxEnqueued (ops ++ ops') = rxEnqueued ops ++ rxEnqueued ops' :=
  List.filterMap_append

@[simp] theorem rxDequeued_append :
    rxDequeued (ops ++ ops') = rxDequeued ops ++ rxDequeued ops' :=
  List.filterMap_append

end

/-- Every descriptor is free or with the device, and those with the device have a buffer. -/
structure RxSettled (view : R → Groups) (s : Rx R Q P) : Prop where
  pre : (view s.ring).pre = []
  post : (view s.ring).post = []
  whole : ((view s.ring).free ++ (view s.ring).hw).Perm (List.range c.nRxDesc)
  held : ∀ i ∈ (view s.ring).hw, s.rxPbufsStorage (c.index + i) ≠ none

/-- The buffers of the device. -/
def withDevice (view : R → Groups) (s : Rx R Q P) : List P :=
  (view s.ring).hw.filterMap (fun i => s.rxPbufsStorage (c.index + i))

def rxHeld (view : R → Groups) (content : Q → List P) (s : Rx R Q P) : List P :=
  withDevice c view s ++ content s.recvQ

/-- One call: no buffer gets lost or is disposed of twice, the queue keeps its order, no slot of
a descriptor that is back is empty, and no slot is emptied. -/
structure RxMoved (view : R → Groups) (content : Q → List P) (s s' : Rx R Q P)
    (ops : List (RxOp P)) : Prop where
  settled : RxSettled c view s'
  balanced : (rxHeld c view content s ++ rxTaken ops).Perm
    (rxGiven ops ++ rxHeld c view content s')
  queued : content s.recvQ ++ rxEnqueued ops = rxDequeued ops ++ content s'.recvQ
  sound : ∀ op ∈ ops, op ≠ .pbufRealloc none
  kept : ∀ j, s.rxPbufsStorage j ≠ none → s'.rxPbufsStorage j ≠ none

variable {B pq c} {content : Q → List P}

theorem queueReceived_spec (fifo : pq.Lawful content) (k : Nat) (storage : Nat → Option P)
    (recvQ : Q) (bd : Nat) (held : ∀ i ∈ B.set bd k, storage (c.index + i) ≠ none) :
    let queued := queueReceived B pq c storage recvQ bd k
    (content recvQ ++ (B.set bd k).filterMap (fun i => storage (c.index + i))).Perm
        (rxGiven queued.2 ++ content queued.1) ∧
      content recvQ ++ rxEnqueued queued.2 = content queued.1 ∧ rxDequeued queued.2 = [] ∧
      rxTaken queued.2 = [] ∧ ∀ op ∈ queued.2, op ≠ .pbufRealloc none := by
  induction k generalizing recvQ bd with
  | zero => simp [queueReceived, rxGiven, rxEnqueued, rxDequeued, rxTaken]
  | succ k ih =>
    rw [BdRing.set_succ] at held ⊢
    have rest := fun queue => ih queue (B.next bd) (fun i hi => held i (List.mem_cons_of_mem _ hi))
    obtain ⟨p, slot⟩ := Option.ne_none_iff_exists'.mp (held bd List.mem_cons_self)
    cases entered : pq.pqEnqueue recvQ p with
    | some recvQ' =>
      obtain ⟨given, order, dequeued, taken, sound⟩ := rest recvQ'
      have longer := fifo.pqEnqueue recvQ p recvQ' entered
      simp only [queueReceived, slot, entered, List.filterMap_cons]
      rw [longer, List.append_assoc] at given
      refine ⟨given, ?_, dequeued, taken, by simpa using sound⟩
      rw [← order, longer, List.append_assoc]
      rfl
    | none =>
      obtain ⟨given, order, dequeued, taken, sound⟩ := rest recvQ
      simp only [queueReceived, slot, entered, List.filterMap_cons]
      refine ⟨?_, order, dequeued, taken, by simpa using sound⟩
      exact List.perm_middle.trans (given.cons p)

theorem lowLevelInput_empty (fifo : pq.Lawful content) {s : Rx R Q P}
    (empty : content s.recvQ = []) : lowLevelInput pq s = none := by
  rw [lowLevelInput, fifo.pqQlength, empty]
  exact if_pos rfl

theorem lowLevelInput_head (fifo : pq.Lawful content) {s : Rx R Q P} {p : P} {rest : List P}
    (head : content s.recvQ = p :: rest) :
    ∃ recvQ, lowLevelInput pq s = some (p, recvQ) ∧ content recvQ = rest := by
  obtain ⟨recvQ, dequeued, left⟩ := fifo.pqDequeue s.recvQ p rest head
  refine ⟨recvQ, ?_, left⟩
  rw [lowLevelInput, fifo.pqQlength, head, dequeued]
  exact if_neg (Nat.succ_ne_zero _)

variable {view : R → Groups}

theorem rxMoved_view {s : Rx R Q P} (settled : RxSettled c view s) {ring : R}
    (same : view ring = view s.ring) : RxMoved c view content s { s with ring := ring } [] := by
  obtain ⟨pre, post, whole, held⟩ := settled
  rw [← same] at pre post whole held
  refine ⟨⟨pre, post, whole, held⟩, ?_, ?_, ?_, fun _ some => some⟩
  · simp [rxTaken, rxGiven, rxHeld, withDevice, same]
  · simp [rxEnqueued, rxDequeued]
  · simp

theorem rxMoved_trans {s s' s'' : Rx R Q P} {ops ops' : List (RxOp P)}
    (first : RxMoved c view content s s' ops) (later : RxMoved c view content s' s'' ops') :
    RxMoved c view content s s'' (ops ++ ops') where
  settled := later.settled
  balanced := by
    rw [rxTaken_append, rxGiven_append, ← List.append_assoc, List.append_assoc (rxGiven ops)]
    refine (first.balanced.append_right _).trans ?_
    rw [List.append_assoc]
    exact later.balanced.append_left _
  queued := by
    rw [rxEnqueued_append, rxDequeued_append, ← List.append_assoc, first.queued, List.append_assoc,
      later.queued, List.append_assoc]
  sound op hop := (List.mem_append.mp hop).elim (first.sound op) (later.sound op)
  kept j some := later.kept j (first.kept j some)

/-- What leaves the device while the rest stays. -/
theorem perm_behind {queue back given queue' : List P} (rest : List P)
    (moved : (queue ++ back).Perm (given ++ queue')) :
    ((back ++ rest) ++ queue).Perm (given ++ (rest ++ queue')) := by
  calc ((back ++ rest) ++ queue)
    _ |>.Perm (queue ++ (back ++ rest)) := List.perm_append_comm
    _ |>.Perm ((queue ++ back) ++ rest) := by rw [List.append_assoc]
    _ |>.Perm ((given ++ queue') ++ rest) := moved.append_right rest
    _ |>.Perm (given ++ (queue' ++ rest)) := by rw [List.append_assoc]
    _ |>.Perm (given ++ (rest ++ queue')) := List.perm_append_comm.append_left given

theorem rx_nodup {s : Rx R Q P} (settled : RxSettled c view s) :
    ((view s.ring).free ++ (view s.ring).hw).Nodup :=
  settled.whole.nodup_iff.mpr List.nodup_range

/-- A descriptor that goes to the device with a buffer. -/
theorem withDevice_stored {s : Rx R Q P} {ring : R} {rxbd : Nat} (p : P)
    (apart : ∀ i ∈ (view s.ring).hw, c.index + i ≠ c.index + rxbd)
    (hw : (view ring).hw = (view s.ring).hw ++ [rxbd]) :
    withDevice c view
        ⟨ring, Function.update s.rxPbufsStorage (c.index + rxbd) (some p), s.recvQ⟩ =
      withDevice c view s ++ [p] := by
  have others : (view s.ring).hw.filterMap
      (fun i => Function.update s.rxPbufsStorage (c.index + rxbd) (some p) (c.index + i)) =
      withDevice c view s :=
    List.filterMap_congr (fun i hi => Function.update_of_ne (apart i hi) _ _)
  rw [withDevice, hw, List.filterMap_append]
  simp [others]

variable (lawful : B.Lawful c.nRxDesc view) (content)
include lawful

/-- A free descriptor gets a buffer and goes to the device. -/
theorem setup_one {s : Rx R Q P} (settled : RxSettled c view s) (p : P)
    (room : 0 < (view s.ring).free.length) :
    ∃ rxbd ring ring', B.alloc s.ring 1 = some (rxbd, ring) ∧ B.toHw ring 1 rxbd = some ring' ∧
      (view s.ring).free.length = (view ring').free.length + 1 ∧
      RxMoved c view content s
        ⟨ring', Function.update s.rxPbufsStorage (c.index + rxbd) (some p), s.recvQ⟩
        [.pbufAlloc p] := by
  obtain ⟨rxbd, ring, rest, allocated, free, view1⟩ := lawful.alloc s.ring 1 room
  have pre : (view ring).pre = B.set rxbd 1 := by rw [view1, settled.pre]; rfl
  obtain ⟨ring', submitted, view2⟩ := lawful.toHw ring 1 rxbd pre
  have view' : view ring' = ⟨rest, [], (view s.ring).hw ++ [rxbd], []⟩ := by
    rw [view2, view1, settled.post]
    rfl
  have free : (view s.ring).free = rxbd :: rest := free
  have nodup := rx_nodup settled
  rw [free] at nodup
  have apart : ∀ i ∈ (view s.ring).hw, c.index + i ≠ c.index + rxbd := by
    intro i hi same
    have : i = rxbd := by omega
    exact (List.nodup_cons.mp nodup).1 (List.mem_append_right _ (this ▸ hi))
  have device := withDevice_stored p apart (congrArg Groups.hw view')
  refine ⟨rxbd, ring, ring', allocated, submitted, by rw [free, view']; rfl, ?_⟩
  refine ⟨⟨?_, ?_, ?_, ?_⟩, ?_, ?_, ?_, ?_⟩
  · rw [view']
  · rw [view']
  · rw [view']
    refine List.Perm.trans ?_ settled.whole
    rw [free, ← List.append_assoc]
    exact List.perm_append_singleton _ _
  · rw [view']
    intro i hi
    rcases List.mem_append.mp hi with hi | hi
    · change Function.update _ _ _ _ ≠ _
      rw [Function.update_of_ne (apart i hi)]
      exact settled.held i hi
    · rw [List.mem_singleton.mp hi]
      change Function.update _ _ _ _ ≠ _
      rw [Function.update_self]
      exact Option.some_ne_none p
  · rw [rxHeld, rxHeld, device, List.append_assoc, List.append_assoc]
    exact List.perm_append_comm.append_left _
  · exact List.append_nil _
  · simp
  · intro j some
    change Function.update _ _ _ _ ≠ _
    by_cases own : j = c.index + rxbd
    · rw [own, Function.update_self]
      exact Option.some_ne_none p
    · rwa [Function.update_of_ne own]

theorem setup_moved (freebds : Nat) (supply : List (Option P)) {s : Rx R Q P}
    (settled : RxSettled c view s) (room : freebds ≤ (view s.ring).free.length) :
    RxMoved c view content s (setupRxBds B c s supply freebds).1 (setupRxBds B c s supply freebds).2.2 := by
  induction freebds generalizing s supply with
  | zero =>
    rw [setupRxBds]
    exact rxMoved_view settled rfl
  | succ freebds ih =>
    match supply with
    | [] => exact rxMoved_view settled rfl
    | none :: supply => exact rxMoved_view settled rfl
    | some p :: supply =>
      obtain ⟨rxbd, ring, ring', allocated, submitted, fewer, moved⟩ :=
        setup_one content lawful settled p (by omega)
      have later := ih supply moved.settled (by simp only; omega)
      simp only [setupRxBds, allocated, submitted]
      exact rxMoved_trans moved later

/-- With a buffer for each of them, all the descriptors asked for go to the device. -/
theorem setup_fills (freebds : Nat) (supply : List (Option P)) {s : Rx R Q P}
    (settled : RxSettled c view s) (room : freebds ≤ (view s.ring).free.length)
    (enough : ∀ i < freebds, ∃ p, supply[i]? = some (some p)) :
    (view (setupRxBds B c s supply freebds).1.ring).free.length + freebds =
      (view s.ring).free.length := by
  induction freebds generalizing s supply with
  | zero => rw [setupRxBds, Nat.add_zero]
  | succ freebds ih =>
    obtain ⟨p, first⟩ := enough 0 (Nat.succ_pos _)
    cases supply with
    | nil => contradiction
    | cons x supply =>
      cases Option.some.inj first
      obtain ⟨rxbd, ring, ring', allocated, submitted, fewer, moved⟩ :=
        setup_one (fun _ => []) lawful settled p (by omega)
      have later := ih supply moved.settled (by simp only; omega)
        (fun i inside => enough (i + 1) (Nat.succ_lt_succ inside))
      simp only [setupRxBds, allocated, submitted] at later ⊢
      omega

theorem created_settled (s : Rx R Q P) :
    RxSettled c view (s.created B) ∧ withDevice c view (s.created B) = [] ∧
      (view (s.created B).ring).free = List.range c.nRxDesc := by
  have created : view (s.created B).ring = _ := lawful.create s.ring
  refine ⟨⟨?_, ?_, ?_, ?_⟩, ?_, ?_⟩ <;> simp [created, withDevice]

/-- The ring that `init_dma` leaves, whatever the slots held before. -/
theorem initDma_moved (s : Rx R Q P) (supply : List (Option P)) :
    RxMoved c view content (s.created B) (initDma B c s supply).1 (initDma B c s supply).2 := by
  obtain ⟨settled, -, free⟩ := created_settled lawful s
  refine setup_moved content lawful c.nRxDesc supply settled (Nat.le_of_eq ?_)
  rw [free, List.length_range]

theorem initDma_held (s : Rx R Q P) (supply : List (Option P)) :
    (content s.recvQ ++ rxTaken (initDma B c s supply).2).Perm
      (rxGiven (initDma B c s supply).2 ++ rxHeld c view content (initDma B c s supply).1) := by
  have balanced := (initDma_moved content lawful s supply).balanced
  rw [rxHeld, (created_settled lawful s).2.1] at balanced
  exact balanced

theorem initDma_fills (s : Rx R Q P) (supply : List (Option P))
    (enough : ∀ i < c.nRxDesc, ∃ p, supply[i]? = some (some p)) :
    (view (initDma B c s supply).1.ring).free = [] := by
  obtain ⟨settled, -, free⟩ := created_settled lawful s
  have size : (view (s.created B).ring).free.length = c.nRxDesc := by rw [free, List.length_range]
  have filled : (view (initDma B c s supply).1.ring).free.length + c.nRxDesc = _ :=
    setup_fills lawful c.nRxDesc supply settled (Nat.le_of_eq size.symm) enough
  exact List.length_eq_zero_iff.mp (by omega)

variable {content} (fifo : pq.Lawful content)
include fifo

/-- One round of the handler up to the refill: the buffers that are back are in the queue, or
released if it is full. -/
theorem received_moved {s : Rx R Q P} (settled : RxSettled c view s) (h : H) :
    let back := B.fromHw (B.device s.ring h) c.nRxDesc
    let queued := queueReceived B pq c s.rxPbufsStorage s.recvQ back.2.1 back.1
    RxMoved c view content s ⟨(B.free back.2.2 back.1 back.2.1).getD back.2.2, s.rxPbufsStorage, queued.1⟩
      queued.2 := by
  intro back queued
  obtain ⟨rest, hw, view'⟩ := lawful.collected h c.nRxDesc settled.pre settled.post
  generalize (B.free back.2.2 back.1 back.2.1).getD back.2.2 = ring at view' ⊢
  obtain ⟨given, order, dequeued, taken, sound⟩ := queueReceived_spec (B := B) (c := c) fifo back.1
    s.rxPbufsStorage s.recvQ back.2.1
    (fun i hi => settled.held i (hw ▸ List.mem_append_left _ hi))
  refine ⟨⟨?_, ?_, ?_, ?_⟩, ?_, ?_, sound, fun _ some => some⟩
  · exact congrArg Groups.pre view'
  · exact congrArg Groups.post view'
  · change ((view ring).free ++ (view ring).hw).Perm _
    rw [view', List.append_assoc, ← hw]
    exact settled.whole
  · change ∀ i ∈ (view ring).hw, _
    rw [view']
    exact fun i hi => settled.held i (hw ▸ List.mem_append_right _ hi)
  · have held : rxHeld c view content s = ((B.set back.2.1 back.1).filterMap
        (fun i => s.rxPbufsStorage (c.index + i)) ++
        rest.filterMap (fun i => s.rxPbufsStorage (c.index + i))) ++ content s.recvQ := by
      rw [rxHeld, withDevice, hw, List.filterMap_append]
    have held' : rxHeld c view content ⟨ring, s.rxPbufsStorage, queued.1⟩ =
        rest.filterMap (fun i => s.rxPbufsStorage (c.index + i)) ++ content queued.1 := by
      rw [rxHeld, withDevice, view']
    rw [taken, List.append_nil, held]
    exact held' ▸ perm_behind _ given
  · exact (congrArg (· ++ _) dequeued).symm ▸ order

theorem recvHandler_moved (progress : List H) (supply : List (Option P)) {s : Rx R Q P}
    (settled : RxSettled c view s) :
    RxMoved c view content s (emacpsRecvHandler B pq c s supply progress).1
      (emacpsRecvHandler B pq c s supply progress).2.2 := by
  induction progress generalizing s supply with
  | nil => exact rxMoved_view settled rfl
  | cons h progress ih =>
    rw [emacpsRecvHandler]
    by_cases none : (B.fromHw (B.device s.ring h) c.nRxDesc).1 = 0
    · simp only [if_pos none]
      exact rxMoved_view settled (lawful.idle h c.nRxDesc none)
    · simp only [if_neg none]
      have received := received_moved lawful fifo settled h
      have refilled := setup_moved content lawful _ supply received.settled (Nat.le_of_eq (lawful.freeCnt _))
      exact rxMoved_trans (rxMoved_trans received refilled) (ih _ refilled.settled)

omit lawful in
theorem input_moved (netif : NetifConfig) (frame : P → Pbuf) {s : Rx R Q P}
    (settled : RxSettled c view s) :
    RxMoved c view content s (xemacpsifInput pq netif frame s).1
      (xemacpsifInput pq netif frame s).2 := by
  obtain ⟨pre, post, whole, held⟩ := settled
  cases queue : content s.recvQ with
  | nil =>
    rw [xemacpsifInput, lowLevelInput_empty fifo queue]
    exact rxMoved_view ⟨pre, post, whole, held⟩ rfl
  | cons p rest =>
    obtain ⟨recvQ, head, left⟩ := lowLevelInput_head fifo queue
    obtain ⟨disposal, once⟩ := List.length_eq_one_iff.mp (xemacpsifInput_once netif (frame p))
    have input : xemacpsifInput pq netif frame s =
        ({ s with recvQ := recvQ }, [.pqDequeue p, .dispose p disposal]) := by
      rw [xemacpsifInput, head]
      simp [once]
    have given : rxGiven [.pqDequeue p, .dispose p disposal] = [p] := by cases disposal <;> rfl
    have taken : rxTaken [.pqDequeue p, .dispose p disposal] = [] := by cases disposal <;> rfl
    have enqueued : rxEnqueued [.pqDequeue p, .dispose p disposal] = [] := by
      cases disposal <;> rfl
    have dequeued : rxDequeued [.pqDequeue p, .dispose p disposal] = [p] := by
      cases disposal <;> rfl
    rw [input]
    refine ⟨⟨pre, post, whole, held⟩, ?_, ?_, ?_, fun _ some => some⟩
    · have fewer : rxHeld c view content { s with recvQ := recvQ } = withDevice c view s ++ rest :=
        congrArg (withDevice c view s ++ ·) left
      rw [given, taken, fewer, List.append_nil, rxHeld, queue]
      exact List.perm_middle
    · rw [enqueued, dequeued, queue, List.append_nil]
      exact congrArg (p :: ·) left.symm
    · cases disposal <;> simp [RxOp.dispose]

theorem rxCall_moved (netif : NetifConfig) (frame : P → Pbuf) {s : Rx R Q P}
    (settled : RxSettled c view s) (call : RxCall H P) :
    RxMoved c view content s (s.call B pq c netif frame call).1
      (s.call B pq c netif frame call).2 := by
  cases call with
  | emacpsRecvHandler progress supply =>
    exact recvHandler_moved lawful fifo progress supply settled
  | xemacpsifInput => exact input_moved fifo netif frame settled

/- From the start. -/

/-- No frame has been received yet, and no buffer was ever stored. -/
def Rx.blank (pq : PqQueue Q P) (r : R) : Rx R Q P := ⟨r, fun _ => none, pq.pqCreateQueue⟩

theorem rxCall_settled (netif : NetifConfig) (frame : P → Pbuf) (s : Rx R Q P) (call : RxCall H P)
    (settled : RxSettled c view s) : RxSettled c view (Rx.call B pq c netif frame s call).1 :=
  (rxCall_moved lawful fifo netif frame settled call).settled

theorem start_held (r : R) (supply : List (Option P)) :
    let init := initDma B c (Rx.blank pq r) supply
    (rxTaken init.2).Perm (rxGiven init.2 ++ rxHeld c view content init.1) := by
  intro init
  have held := initDma_held content lawful (Rx.blank pq r) supply
  change (content pq.pqCreateQueue ++ _).Perm _ at held
  rwa [fifo.pqCreateQueue, List.nil_append] at held

theorem run_buffers (netif : NetifConfig) (frame : P → Pbuf) (r : R)
    (supply : List (Option P)) (calls : List (RxCall H P)) :
    let init := initDma B c (Rx.blank pq r) supply
    let ran := init.2 :: outputs (Rx.call B pq c netif frame) init.1 calls
    (ran.flatMap rxTaken).Perm (ran.flatMap rxGiven ++
      rxHeld c view content (after (Rx.call B pq c netif frame) init.1 calls)) := by
  intro init ran
  have start := initDma_moved content lawful (Rx.blank pq r) supply
  have first := start_held lawful fifo r supply
  have balanced := balance piecewise_perm (Rx.call B pq c netif frame) (RxSettled c view)
    (fun _ => True) (rxHeld c view content) rxTaken rxGiven
    (fun s call settled _ => rxCall_settled lawful fifo netif frame s call settled)
    (fun s call settled _ => (rxCall_moved lawful fifo netif frame settled call).balanced) calls
    (fun _ _ => trivial) start.settled
  simp only [ran, List.flatMap_cons, List.append_assoc]
  refine (first.append_right _).trans ?_
  rw [List.append_assoc]
  exact balanced.append_left _

/-- Buffers are neither lost nor disposed of twice on their way from the driver's allocation to
the layers of the stack: in every run the allocated ones are those given away and those still
held, each as often. They leave the queue in the order in which they entered it, and no
descriptor comes back without a buffer. -/
theorem receive_path_balanced (netif : NetifConfig) (frame : P → Pbuf) (r : R)
    (supply : List (Option P)) (calls : List (RxCall H P)) :
    let init := initDma B c (Rx.blank pq r) supply
    let ran := init.2 :: outputs (Rx.call B pq c netif frame) init.1 calls
    let s := after (Rx.call B pq c netif frame) init.1 calls
    (ran.flatMap rxTaken).Perm (ran.flatMap rxGiven ++ rxHeld c view content s) ∧
      ran.flatMap rxEnqueued = ran.flatMap rxDequeued ++ content s.recvQ ∧
      ∀ ops ∈ ran, ∀ op ∈ ops, op ≠ .pbufRealloc none := by
  intro init ran s
  have start := initDma_moved content lawful (Rx.blank pq r) supply
  refine ⟨run_buffers lawful fifo netif frame r supply calls, ?_, ?_⟩
  · have first : content pq.pqCreateQueue ++ rxEnqueued init.2 =
        rxDequeued init.2 ++ content init.1.recvQ := start.queued
    rw [fifo.pqCreateQueue, List.nil_append] at first
    have balanced := balance piecewise_eq (Rx.call B pq c netif frame) (RxSettled c view)
      (fun _ => True) (fun s => content s.recvQ) rxEnqueued rxDequeued
      (fun s call settled _ => rxCall_settled lawful fifo netif frame s call settled)
      (fun s call settled _ => (rxCall_moved lawful fifo netif frame settled call).queued) calls
      (fun _ _ => trivial) start.settled
    simp only [ran, List.flatMap_cons, List.append_assoc]
    rw [first, List.append_assoc, balanced]
  · intro ops member
    rcases List.mem_cons.mp member with rfl | member
    · exact start.sound
    · exact outputs_all (Rx.call B pq c netif frame) (RxSettled c view)
        (fun ops => ∀ op ∈ ops, op ≠ .pbufRealloc none) (rxCall_settled lawful fifo netif frame)
        (fun s call settled => (rxCall_moved lawful fifo netif frame settled call).sound) calls
        start.settled ops member

omit lawful fifo

def rxConfigExample : RxConfig := ⟨2, 0⟩

def netifExample : NetifConfig := ⟨true, false, fun _ => false⟩

def frameExample (_ : Nat) : Pbuf := ⟨fun i => if i = 12 then 0x08 else 0, 60⟩

/-- One frame is received, its descriptor refilled, and the frame passed on. -/
def rxCallsExample : List (RxCall Nat Nat) :=
  [.emacpsRecvHandler [1, 0] [some 3], .xemacpsifInput]

theorem rxCallsExample_balanced :
    let pq := Bounded.queue 8 Nat
    let init := initDma (Counted.ring 2) rxConfigExample (Rx.blank pq (Counted.create 2))
      [some 1, some 2]
    let call := Rx.call (Counted.ring 2) pq rxConfigExample netifExample frameExample
    let ran := init.2 :: outputs call init.1 rxCallsExample
    ran.flatMap rxGiven = [1] ∧ (ran.flatMap rxTaken).Perm
      ([1] ++ rxHeld rxConfigExample Counted.view Bounded.content
        (after call init.1 rxCallsExample)) :=
  ⟨by decide, (receive_path_balanced (c := rxConfigExample) (Counted.lawful 2)
    (Bounded.lawful 8 Nat) netifExample frameExample (Counted.create 2) [some 1, some 2]
    rxCallsExample).1⟩

include lawful fifo

/- Recovery from an error. -/

/-- The buffers in the slots of free descriptors. They have been given away before. -/
def stale (c : RxConfig) (view : R → Groups) (s : Rx R Q P) : List P :=
  (view s.ring).free.filterMap (fun i => s.rxPbufsStorage (c.index + i))

omit fifo in
theorem handleError_balance {s : Rx R Q P} (settled : RxSettled c view s)
    (supply : List (Option P)) :
    (rxHeld c view content s ++ rxTaken (handleEmacPsError B c s supply).2 ++
      stale c view s).Perm
      (rxGiven (handleEmacPsError B c s supply).2 ++
        rxHeld c view content (handleEmacPsError B c s supply).1) := by
  have again := initDma_held content lawful s supply
  have slots : rxGiven ((List.range c.nRxDesc).map
      (fun i => RxOp.pbufFree (s.rxPbufsStorage (c.index + i)))) =
      (List.range c.nRxDesc).filterMap (fun i => s.rxPbufsStorage (c.index + i)) := by
    rw [rxGiven, List.filterMap_map]
    rfl
  have untaken : rxTaken ((List.range c.nRxDesc).map
      (fun i => RxOp.pbufFree (s.rxPbufsStorage (c.index + i)))) = [] := by
    simp [rxTaken, RxOp.taken]
  have released := settled.whole.filterMap (fun i => s.rxPbufsStorage (c.index + i))
  rw [List.filterMap_append] at released
  classical
  refine List.perm_iff_count.mpr (fun p => ?_)
  have again := again.count_eq p
  have released := released.count_eq p
  simp only [handleEmacPsError, rxTaken_append, rxGiven_append, slots, untaken, rxHeld, stale,
    withDevice, List.count_append, List.count_nil] at again released ⊢
  omega

/-- Recovery may come between any two calls. -/
inductive RxEvent (H P : Type) where
  | call (call : RxCall H P)
  | handleEmacPsError (supply : List (Option P))

def Rx.event (B : BdRing R H) (pq : PqQueue Q P) (c : RxConfig) (netif : NetifConfig) (frame : P → Pbuf)
    (s : Rx R Q P) : RxEvent H P → Rx R Q P × List (RxOp P)
  | .call call => s.call B pq c netif frame call
  | .handleEmacPsError supply => StandalonePtp.handleEmacPsError B c s supply

/-- No descriptor waits for a buffer when a recovery begins. -/
def RxEvent.Timely (B : BdRing R H) (s : Rx R Q P) : RxEvent H P → Prop
  | .call _ => True
  | .handleEmacPsError _ => B.freeCnt s.ring = 0

def RxEvent.surplus (c : RxConfig) (view : R → Groups) (s : Rx R Q P) : RxEvent H P → List P
  | .call _ => []
  | .handleEmacPsError _ => stale c view s

/-- Every slot has held a buffer, and none is ever emptied. -/
structure RxFilled (c : RxConfig) (view : R → Groups) (s : Rx R Q P) : Prop where
  settled : RxSettled c view s
  slots : ∀ i < c.nRxDesc, s.rxPbufsStorage (c.index + i) ≠ none

theorem event_filled (netif : NetifConfig) (frame : P → Pbuf) {s : Rx R Q P}
    (filled : RxFilled c view s) (e : RxEvent H P) :
    RxFilled c view (s.event B pq c netif frame e).1 := by
  obtain ⟨settled, slots⟩ := filled
  cases e with
  | call call =>
    have moved := rxCall_moved lawful fifo netif frame settled call
    exact ⟨moved.settled, fun i inside => moved.kept _ (slots i inside)⟩
  | handleEmacPsError supply =>
    have moved := initDma_moved (fun _ => []) lawful s supply
    exact ⟨moved.settled, fun i inside => moved.kept _ (slots i inside)⟩

theorem event_balanced (netif : NetifConfig) (frame : P → Pbuf) {s : Rx R Q P}
    (settled : RxSettled c view s) (e : RxEvent H P) :
    (rxHeld c view content s ++ rxTaken (s.event B pq c netif frame e).2 ++ e.surplus c view s).Perm
      (rxGiven (s.event B pq c netif frame e).2 ++
        rxHeld c view content (s.event B pq c netif frame e).1) := by
  cases e with
  | call call =>
    have balanced := (rxCall_moved lawful fifo netif frame settled call).balanced
    rwa [← List.append_nil (rxHeld c view content s ++ _)] at balanced
  | handleEmacPsError supply => exact handleError_balance lawful settled supply

omit fifo in
theorem surplus_nil_iff {s : Rx R Q P} (filled : RxFilled c view s) (e : RxEvent H P) :
    e.surplus c view s = [] ↔ e.Timely B s := by
  cases e with
  | call call => exact iff_of_true rfl trivial
  | handleEmacPsError supply =>
    have size : (stale c view s).length = (view s.ring).free.length := by
      rw [stale, List.length_filterMap_eq_countP, List.countP_eq_length]
      intro i free
      have inside := List.mem_range.mp
        (filled.settled.whole.mem_iff.mp (List.mem_append_left _ free))
      exact Option.isSome_iff_ne_none.mpr (filled.slots i inside)
    rw [RxEvent.surplus, RxEvent.Timely, lawful.freeCnt, ← size, List.length_eq_zero_iff]

/-- `HandleEmacPsError` releases the buffers of the device, and once more those that are left in
the slots of descriptors without a buffer. Over a whole run, with recoveries anywhere, just these
are given away once too often, and none is exactly if no recovery finds such a descriptor. -/
theorem recoveries_balanced_iff (netif : NetifConfig) (frame : P → Pbuf) (r : R)
    (supply : List (Option P)) (events : List (RxEvent H P))
    (enough : ∀ i < c.nRxDesc, ∃ p, supply[i]? = some (some p)) :
    let event := Rx.event B pq c netif frame
    let init := initDma B c (Rx.blank pq r) supply
    let ran := init.2 :: outputs event init.1 events
    let held := rxHeld c view content (after event init.1 events)
    let again := gathered event (fun s e => e.surplus c view s) init.1 events
    (ran.flatMap rxTaken ++ again).Perm (ran.flatMap rxGiven ++ held) ∧
      ((ran.flatMap rxTaken).Perm (ran.flatMap rxGiven ++ held) ↔
        Along event (RxEvent.Timely B) init.1 events) := by
  intro event init ran held again
  have start := initDma_moved content lawful (Rx.blank pq r) supply
  have full := initDma_fills lawful (Rx.blank pq r) supply enough
  have filled : RxFilled c view init.1 := by
    refine ⟨start.settled, fun i inside => start.settled.held i ?_⟩
    have whole := start.settled.whole
    rw [full, List.nil_append] at whole
    exact whole.mem_iff.mpr (List.mem_range.mpr inside)
  have first := start_held lawful fifo r supply
  have balanced := balance_surplus event (RxFilled c view) (rxHeld c view content) rxTaken rxGiven
    (fun s e => e.surplus c view s)
    (fun _ e filled => event_filled lawful fifo netif frame filled e)
    (fun _ e filled => event_balanced lawful fifo netif frame filled.settled e) events filled
  have timely : again = [] ↔ _ := gathered_nil_iff event (RxFilled c view)
    (fun s e => e.surplus c view s) (RxEvent.Timely B)
    (fun _ e filled => event_filled lawful fifo netif frame filled e)
    (fun _ e filled => surplus_nil_iff lawful filled e) events filled
  have whole : (ran.flatMap rxTaken ++ again).Perm (ran.flatMap rxGiven ++ held) := by
    classical
    refine List.perm_iff_count.mpr (fun p => ?_)
    have first := first.count_eq p
    have balanced := balanced.count_eq p
    simp only [ran, held, again, init, List.flatMap_cons, List.count_append] at first balanced ⊢
    omega
  exact ⟨whole, by rw [← timely]; exact perm_surplus_iff whole⟩

omit lawful fifo

/-- The frame that was received has left its descriptor without a buffer. -/
theorem rxError_unbalanced :
    let pq := Bounded.queue 8 Nat
    let init := initDma (Counted.ring 2) rxConfigExample (Rx.blank pq (Counted.create 2))
      [some 1, some 2]
    let event := Rx.event (Counted.ring 2) pq rxConfigExample netifExample frameExample
    let events : List (RxEvent Nat Nat) :=
      [.call (.emacpsRecvHandler [1, 0] [none]), .call .xemacpsifInput, .handleEmacPsError []]
    let ran := init.2 :: outputs event init.1 events
    let held := rxHeld rxConfigExample Counted.view Bounded.content (after event init.1 events)
    ran.flatMap rxGiven = [1, 1, 2] ∧ (ran.flatMap rxTaken ++ [1]).Perm ([1, 1, 2] ++ held) ∧
      ¬ (ran.flatMap rxTaken).Perm ([1, 1, 2] ++ held) := by
  have enough : ∀ i < rxConfigExample.nRxDesc, ∃ p, [some 1, some 2][i]? = some (some p) := by
    intro i inside
    match i with
    | 0 => exact ⟨1, rfl⟩
    | 1 => exact ⟨2, rfl⟩
  have both := recoveries_balanced_iff (c := rxConfigExample) (Counted.lawful 2)
    (Bounded.lawful 8 Nat) netifExample frameExample (Counted.create 2) [some 1, some 2]
    [.call (.emacpsRecvHandler [1, 0] [none]), .call .xemacpsifInput, .handleEmacPsError []] enough
  refine ⟨by decide, both.1, fun even => ?_⟩
  have timely := both.2.mp even
  have waits : (Counted.ring 2).freeCnt _ = 0 := timely.2.2.1
  exact absurd waits (by decide)

end StandalonePtp
