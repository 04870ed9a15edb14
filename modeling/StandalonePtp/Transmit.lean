import Mathlib.Data.List.Basic
import StandalonePtp.Ethernet
import StandalonePtp.Flow
import StandalonePtp.Ring

/-! The transmit side of xemacpsif_dma.c: a buffer is referenced while a descriptor of the
ring points to it. Left out are the cache, and the flags of a sender that blocks. -/
namespace StandalonePtp

open Run

inductive XStatus where
  | success
  | failure
  deriving DecidableEq, Repr

/-- A buffer of a chain: its own address, where its octets are, and how many they are. -/
structure TxPbuf where
  ptr : Nat
  payload : Nat
  len : Nat
  deriving DecidableEq, Repr

inductive BdWrite where
  | address (payload : Nat)
  | length (len : Nat)
  | clearLast
  | setLast
  | clearTxUsed
  | words (word status : UInt32)
  deriving DecidableEq, Repr

inductive TxOp where
  | bd (index : Nat) (write : BdWrite)
  | pbufRef (p : TxPbuf)
  | pbufFree (p : TxPbuf)
  | startTransmit
  deriving DecidableEq, Repr

/-- The sizes are configured outside; `index` is where the interface's part of the storage
starts. -/
structure TxConfig where
  nTxDesc : Nat
  index : Nat
  maxFrameSize : Nat

structure Tx (R : Type) where
  ring : R
  txPbufsStorage : Nat → Option TxPbuf

variable {R H : Type} (B : BdRing R H) (c : TxConfig)

def bdLength (len : Nat) : Nat :=
  (if len > c.maxFrameSize - 18 then c.maxFrameSize - 18 else len) % 0x4000

/-- The loop over the chain: the slots, what was done, and whether a slot was in use. -/
def fillBds (storage : Nat → Option TxPbuf) (txbd : Nat) :
    List TxPbuf → (Nat → Option TxPbuf) × List TxOp × XStatus
  | [] => (storage, [], .success)
  | q :: rest =>
    if storage (c.index + txbd) ≠ none then (storage, [], .failure)
    else
      let filled := fillBds (Function.update storage (c.index + txbd) (some q)) (B.next txbd) rest
      (filled.1,
        [.bd txbd (.address q.payload), .bd txbd (.length (bdLength c q.len)), .pbufRef q,
          .bd txbd .clearLast] ++ filled.2.1,
        filled.2.2)

/-- The used bits of a filled set: the first descriptor is handed over last. -/
def clearUsed (txbdset nPbufs : Nat) : List TxOp :=
  (B.set (B.next txbdset) (nPbufs - 1)).map (fun txbd => .bd txbd .clearTxUsed) ++
    [.bd txbdset .clearTxUsed]

def lastBd (txbdset nPbufs : Nat) : Nat := B.next^[nPbufs - 1] txbdset

def emacpsSgsend (s : Tx R) (chain : List TxPbuf) : Tx R × List TxOp × XStatus :=
  match B.alloc s.ring chain.length with
  | none => (s, [], .failure)
  | some (txbdset, ring) =>
    match fillBds B c s.txPbufsStorage txbdset chain with
    | (storage, ops, .failure) => (⟨ring, storage⟩, ops, .failure)
    | (storage, ops, .success) =>
      let ops := ops ++ [.bd (lastBd B txbdset chain.length) .setLast] ++
        clearUsed B txbdset chain.length
      match B.toHw ring chain.length txbdset with
      | none => (⟨ring, storage⟩, ops, .failure)
      | some ring => (⟨ring, storage⟩, ops ++ [.startTransmit], .success)

/-- The inner loop over the descriptors that are back: their buffers are released. -/
def freeSentBds (storage : Nat → Option TxPbuf) (bd : Nat) :
    Nat → (Nat → Option TxPbuf) × List TxOp
  | 0 => (storage, [])
  | k + 1 =>
    let freed := freeSentBds (Function.update storage (c.index + bd) none) (B.next bd) k
    (freed.1,
      [.bd bd (.words 0 (if bd = c.nTxDesc - 1 then 0xC0000000 else 0x80000000))] ++
        ((storage (c.index + bd)).map TxOp.pbufFree).toList ++ freed.2)

/-- The device may move on before every round. The loop ends when nothing is back. -/
def sentRounds (progress : Nat → H) : Nat → Tx R → Tx R × List TxOp × Bool
  | 0, s => (s, [], false)
  | fuel + 1, s =>
    let back := B.fromHw (B.device s.ring (progress fuel)) c.nTxDesc
    if back.1 = 0 then ({ s with ring := back.2.2 }, [], true)
    else
      let freed := freeSentBds B c s.txPbufsStorage back.2.1 back.1
      let ring := (B.free back.2.2 back.1 back.2.1).getD back.2.2
      let later := sentRounds progress fuel ⟨ring, freed.1⟩
      (later.1, freed.2 ++ later.2.1, later.2.2)

/-- A round with something back leaves less with the device, so this fuel is enough. -/
def processSentBds (s : Tx R) (progress : Nat → H) : Tx R × List TxOp × Bool :=
  sentRounds B c progress (c.nTxDesc + 1) s

/-- Sent frames are only looked for when the ring is nearly full. -/
def makeRoom (s : Tx R) (progress : Nat → H) : Tx R × List TxOp × Bool :=
  if B.freeCnt s.ring ≤ 5 then processSentBds B c s progress else (s, [], true)

def lowLevelOutput (s : Tx R) (chain : List TxPbuf) (progress : Nat → H) :
    Tx R × List TxOp × Err :=
  let cleaned := makeRoom B c s progress
  if B.freeCnt cleaned.1.ring = 0 then (cleaned.1, cleaned.2.1, .mem)
  else
    let sent := emacpsSgsend B c cleaned.1 chain
    (sent.1, cleaned.2.1 ++ sent.2.1, if sent.2.2 = .success then .ok else .mem)

/-- `free_onlytx_pbufs`, from the slot `index` on. -/
def freeOnlytxPbufs (storage : Nat → Option TxPbuf) (index : Nat) :
    Nat → (Nat → Option TxPbuf) × List TxOp
  | 0 => (storage, [])
  | k + 1 =>
    let freed := freeOnlytxPbufs (Function.update storage index none) (index + 1) k
    (freed.1, ((storage index).map TxOp.pbufFree).toList ++ freed.2)

def handleTxErrors (s : Tx R) : Tx R × List TxOp :=
  let freed := freeOnlytxPbufs s.txPbufsStorage c.index c.nTxDesc
  (⟨B.create s.ring, freed.1⟩, freed.2)

/-- What happens to the transmit side: a frame to send, the interrupt of sent frames, or the
interrupt of an error. `reset_dma`, which moves the heads of the rings, is not among them. -/
inductive TxCall (H : Type) where
  | lowLevelOutput (p : TxPbuf) (next : List TxPbuf) (progress : Nat → H)
  | emacpsSendHandler (progress : Nat → H)
  | handleTxErrors
  | handleEmacPsError

def Tx.call (s : Tx R) : TxCall H → Tx R × List TxOp
  | .lowLevelOutput p next progress =>
    let r := StandalonePtp.lowLevelOutput B c s (p :: next) progress
    (r.1, r.2.1)
  | .emacpsSendHandler progress =>
    let r := processSentBds B c s progress
    (r.1, r.2.1)
  | .handleTxErrors => StandalonePtp.handleTxErrors B c s
  -- `free_txrx_pbufs` and `init_dma` do the same to this side
  | .handleEmacPsError => StandalonePtp.handleTxErrors B c s

def Tx.start (r : R) : Tx R := ⟨B.create r, fun _ => none⟩

/- What is held. -/

def TxOp.taken : TxOp → Option TxPbuf
  | .pbufRef p => some p
  | .bd _ _ => none
  | .pbufFree _ => none
  | .startTransmit => none

def TxOp.released : TxOp → Option TxPbuf
  | .pbufFree p => some p
  | .bd _ _ => none
  | .pbufRef _ => none
  | .startTransmit => none

def taken (ops : List TxOp) : List TxPbuf := ops.filterMap TxOp.taken

def released (ops : List TxOp) : List TxPbuf := ops.filterMap TxOp.released

@[simp] theorem taken_append (xs ys : List TxOp) : taken (xs ++ ys) = taken xs ++ taken ys :=
  List.filterMap_append

@[simp] theorem released_append (xs ys : List TxOp) :
    released (xs ++ ys) = released xs ++ released ys :=
  List.filterMap_append

@[simp] theorem taken_free (p : Option TxPbuf) : taken (p.map TxOp.pbufFree).toList = [] := by
  cases p <;> rfl

@[simp] theorem released_free (p : Option TxPbuf) :
    released (p.map TxOp.pbufFree).toList = p.toList := by
  cases p <;> rfl

@[simp] theorem taken_bd (i : Nat) (w : BdWrite) (ops : List TxOp) :
    taken (.bd i w :: ops) = taken ops := rfl

@[simp] theorem released_bd (i : Nat) (w : BdWrite) (ops : List TxOp) :
    released (.bd i w :: ops) = released ops := rfl

@[simp] theorem taken_startTransmit : taken [.startTransmit] = [] := rfl

@[simp] theorem released_startTransmit : released [.startTransmit] = [] := rfl

@[simp] theorem taken_clearUsed (txbdset nPbufs : Nat) : taken (clearUsed B txbdset nPbufs) = [] := by
  simp [clearUsed, taken, TxOp.taken]

@[simp] theorem released_clearUsed (txbdset nPbufs : Nat) :
    released (clearUsed B txbdset nPbufs) = [] := by
  simp [clearUsed, released, TxOp.released]

/- The loops. -/

theorem fillBds_spec (chain : List TxPbuf) (storage : Nat → Option TxPbuf) (txbd : Nat)
    (distinct : (B.set txbd chain.length).Nodup)
    (empty : ∀ i ∈ B.set txbd chain.length, storage (c.index + i) = none) :
    (fillBds B c storage txbd chain).2.2 = .success ∧
      (B.set txbd chain.length).map (fun i => (fillBds B c storage txbd chain).1 (c.index + i)) =
        chain.map some ∧
      (∀ j, (∀ i ∈ B.set txbd chain.length, j ≠ c.index + i) →
        (fillBds B c storage txbd chain).1 j = storage j) ∧
      taken (fillBds B c storage txbd chain).2.1 = chain ∧
      released (fillBds B c storage txbd chain).2.1 = [] := by
  induction chain generalizing storage txbd with
  | nil => simp [fillBds, taken, released]
  | cons q rest ih =>
    rw [List.length_cons, BdRing.set_succ] at distinct empty
    obtain ⟨first, later⟩ := List.nodup_cons.mp distinct
    have vacant := empty txbd List.mem_cons_self
    have others : ∀ i ∈ B.set (B.next txbd) rest.length, c.index + i ≠ c.index + txbd := by
      intro i hi same
      have : i = txbd := by omega
      exact first (this ▸ hi)
    obtain ⟨done, slots, outside, refs, frees⟩ :=
      ih (Function.update storage (c.index + txbd) (some q)) (B.next txbd) later (fun i hi => by
        rw [Function.update_of_ne (others i hi)]
        exact empty i (List.mem_cons_of_mem _ hi))
    have own := outside (c.index + txbd) (fun i hi => (others i hi).symm)
    rw [Function.update_self] at own
    have unfolded : fillBds B c storage txbd (q :: rest) = _ :=
      if_neg (not_not.mpr vacant)
    rw [unfolded]
    refine ⟨done, ?_, ?_, ?_, ?_⟩
    · rw [List.length_cons, BdRing.set_succ, List.map_cons, List.map_cons, slots, own]
    · intro j away
      rw [List.length_cons, BdRing.set_succ] at away
      rw [outside j (fun i hi => away i (List.mem_cons_of_mem _ hi)),
        Function.update_of_ne (away txbd List.mem_cons_self)]
    · rw [taken_append, refs]
      rfl
    · rw [released_append, frees]
      rfl

theorem freeSentBds_spec (k : Nat) (storage : Nat → Option TxPbuf) (bd : Nat)
    (distinct : (B.set bd k).Nodup) :
    (∀ i ∈ B.set bd k, (freeSentBds B c storage bd k).1 (c.index + i) = none) ∧
      (∀ j, (∀ i ∈ B.set bd k, j ≠ c.index + i) →
        (freeSentBds B c storage bd k).1 j = storage j) ∧
      taken (freeSentBds B c storage bd k).2 = [] ∧
      released (freeSentBds B c storage bd k).2 =
        (B.set bd k).filterMap (fun i => storage (c.index + i)) := by
  induction k generalizing storage bd with
  | zero => simp [freeSentBds, taken, released]
  | succ k ih =>
    rw [BdRing.set_succ] at distinct
    obtain ⟨first, later⟩ := List.nodup_cons.mp distinct
    have others : ∀ i ∈ B.set (B.next bd) k, c.index + i ≠ c.index + bd := by
      intro i hi same
      have : i = bd := by omega
      exact first (this ▸ hi)
    obtain ⟨cleared, outside, refs, frees⟩ :=
      ih (Function.update storage (c.index + bd) none) (B.next bd) later
    have own := outside (c.index + bd) (fun i hi => (others i hi).symm)
    rw [Function.update_self] at own
    have kept : (B.set (B.next bd) k).filterMap
        (fun i => Function.update storage (c.index + bd) none (c.index + i)) =
        (B.set (B.next bd) k).filterMap (fun i => storage (c.index + i)) :=
      List.filterMap_congr (fun i hi => Function.update_of_ne (others i hi) _ _)
    rw [freeSentBds, BdRing.set_succ]
    refine ⟨?_, ?_, ?_, ?_⟩
    · intro i hi
      rcases List.mem_cons.mp hi with rfl | hi
      · exact own
      · exact cleared i hi
    · intro j away
      rw [outside j (fun i hi => away i (List.mem_cons_of_mem _ hi)),
        Function.update_of_ne (away bd List.mem_cons_self)]
    · rw [taken_append, taken_append, refs, taken_free]
      rfl
    · rw [released_append, released_append, frees, released_free, kept, List.filterMap_cons]
      cases storage (c.index + bd) <;> rfl

theorem freeOnlytxPbufs_spec (k : Nat) (storage : Nat → Option TxPbuf) (index : Nat) :
    (∀ j, (freeOnlytxPbufs storage index k).1 j =
        if index ≤ j ∧ j < index + k then none else storage j) ∧
      taken (freeOnlytxPbufs storage index k).2 = [] ∧
      released (freeOnlytxPbufs storage index k).2 =
        (List.range' index k).filterMap storage := by
  induction k generalizing storage index with
  | zero => simp [freeOnlytxPbufs, taken, released]
  | succ k ih =>
    obtain ⟨slots, refs, frees⟩ := ih (Function.update storage index none) (index + 1)
    have kept : (List.range' (index + 1) k).filterMap (Function.update storage index none) =
        (List.range' (index + 1) k).filterMap storage := by
      refine List.filterMap_congr (fun i hi => Function.update_of_ne ?_ _ _)
      have := List.mem_range'_1.mp hi
      omega
    rw [freeOnlytxPbufs]
    refine ⟨fun j => ?_, ?_, ?_⟩
    · rw [slots]
      by_cases own : j = index
      · rw [own, Function.update_self]
        split <;> split <;> first | rfl | omega
      · rw [Function.update_of_ne own]
        split <;> split <;> first | rfl | omega
    · rw [taken_append, refs, taken_free]
      rfl
    · rw [released_append, frees, released_free, kept, List.range'_succ, List.filterMap_cons]
      cases storage index <;> rfl

/- The invariant. -/

/-- Between two calls every descriptor is free or with the device, and exactly those with the
device have a buffer in their slots. -/
structure Settled (view : R → Groups) (s : Tx R) : Prop where
  pre : (view s.ring).pre = []
  post : (view s.ring).post = []
  whole : ((view s.ring).free ++ (view s.ring).hw).Perm (List.range c.nTxDesc)
  held : ∀ i ∈ (view s.ring).hw, s.txPbufsStorage (c.index + i) ≠ none
  empty : ∀ i ∈ (view s.ring).free, s.txPbufsStorage (c.index + i) = none

def inFlight (view : R → Groups) (s : Tx R) : List TxPbuf :=
  (view s.ring).hw.filterMap (fun i => s.txPbufsStorage (c.index + i))

/-- The slots of the other interfaces. -/
def SameOutside (storage storage' : Nat → Option TxPbuf) : Prop :=
  ∀ j, j < c.index ∨ c.index + c.nTxDesc ≤ j → storage' j = storage j

/-- One call: what was in flight or taken over is released or in flight afterwards. -/
structure Moved (view : R → Groups) (rel : List TxPbuf → List TxPbuf → Prop) (s s' : Tx R)
    (ops : List TxOp) : Prop where
  settled : Settled c view s'
  balanced : rel (inFlight c view s ++ taken ops) (released ops ++ inFlight c view s')
  outside : SameOutside c s.txPbufsStorage s'.txPbufsStorage

variable {B c} {view : R → Groups}

theorem settled_inside {s : Tx R} (settled : Settled c view s) {i : Nat}
    (member : i ∈ (view s.ring).free ++ (view s.ring).hw) : i < c.nTxDesc :=
  List.mem_range.mp (settled.whole.mem_iff.mp member)

theorem settled_nodup {s : Tx R} (settled : Settled c view s) :
    ((view s.ring).free ++ (view s.ring).hw).Nodup :=
  settled.whole.nodup_iff.mpr List.nodup_range

theorem free_length {s : Tx R} (settled : Settled c view s) :
    (view s.ring).free.length + (view s.ring).hw.length = c.nTxDesc := by
  have whole := settled.whole.length_eq
  rwa [List.length_append, List.length_range] at whole

/-- As many buffers are in flight as descriptors are with the device. -/
theorem inFlight_length {s : Tx R} (settled : Settled c view s) :
    (inFlight c view s).length = (view s.ring).hw.length := by
  rw [inFlight, List.length_filterMap_eq_countP, List.countP_eq_length]
  exact fun i device => Option.isSome_iff_ne_none.mpr (settled.held i device)

theorem moved_refl {s : Tx R} (settled : Settled c view s) : Moved c view Eq s s [] :=
  ⟨settled, by simp [taken, released], fun _ _ => rfl⟩

theorem moved_view {s : Tx R} (settled : Settled c view s) {ring : R}
    (same : view ring = view s.ring) : Moved c view Eq s { s with ring := ring } [] := by
  obtain ⟨pre, post, whole, held, empty⟩ := settled
  rw [← same] at pre post whole held empty
  exact ⟨⟨pre, post, whole, held, empty⟩, by simp [taken, released, inFlight, same],
    fun _ _ => rfl⟩

theorem moved_trans {s s' s'' : Tx R} {ops ops' : List TxOp} (first : Moved c view Eq s s' ops)
    (later : Moved c view Eq s' s'' ops') : Moved c view Eq s s'' (ops ++ ops') where
  settled := later.settled
  balanced := by
    rw [taken_append, released_append, ← List.append_assoc, first.balanced, List.append_assoc,
      later.balanced, List.append_assoc]
  outside j away := by rw [later.outside j away, first.outside j away]

variable (lawful : B.Lawful c.nTxDesc view)
include lawful

theorem settled_start (r : R) : Settled c view (Tx.start B r) := by
  have created : view (B.create r) = _ := lawful.create r
  constructor <;> simp [Tx.start, created]

theorem inFlight_start (r : R) : inFlight c view (Tx.start B r) = [] := by
  have created : view (B.create r) = _ := lawful.create r
  simp [inFlight, Tx.start, created]

omit lawful in
/-- Slots that hold a chain: none of them is empty, and their buffers are the chain. -/
theorem filled_slots {slot : Nat → Option TxPbuf} {slots : List Nat} {chain : List TxPbuf}
    (same : slots.map slot = chain.map some) :
    (∀ i ∈ slots, slot i ≠ none) ∧ slots.filterMap slot = chain := by
  constructor
  · intro i hi
    have member := List.mem_map_of_mem (f := slot) hi
    rw [same] at member
    obtain ⟨q, -, held⟩ := List.mem_map.mp member
    rw [← held]
    exact Option.some_ne_none q
  · have buffers := congrArg (List.filterMap id) same
    rwa [List.filterMap_map, List.filterMap_map, Function.id_comp, Function.id_comp,
      List.filterMap_some] at buffers

/-- A chain that fits is sent: of the error paths behind the allocation none is taken. -/
theorem sgsend_sent {s : Tx R} (settled : Settled c view s) {chain : List TxPbuf}
    (fits : chain.length ≤ (view s.ring).free.length) :
    ∃ first rest ring, (view s.ring).free = B.set first chain.length ++ rest ∧
      view ring = ⟨rest, [], (view s.ring).hw ++ B.set first chain.length, []⟩ ∧
      emacpsSgsend B c s chain =
        (⟨ring, (fillBds B c s.txPbufsStorage first chain).1⟩,
          (fillBds B c s.txPbufsStorage first chain).2.1 ++
            [.bd (lastBd B first chain.length) .setLast] ++ clearUsed B first chain.length ++
            [.startTransmit], .success) := by
  obtain ⟨first, ring, rest, allocated, free, view1⟩ := lawful.alloc s.ring chain.length fits
  have pre : (view ring).pre = B.set first chain.length := by rw [view1, settled.pre]; rfl
  obtain ⟨ring', submitted, view2⟩ := lawful.toHw ring chain.length first pre
  have nodup := settled_nodup settled
  rw [free, List.append_assoc] at nodup
  obtain ⟨done, -⟩ := fillBds_spec B c chain s.txPbufsStorage first
    (List.nodup_append.mp nodup).1 (fun i hi => settled.empty i (by
      rw [free]
      exact List.mem_append_left _ hi))
  refine ⟨first, rest, ring', free, by rw [view2, view1, settled.post], ?_⟩
  generalize filled : fillBds B c s.txPbufsStorage first chain = result at done
  obtain ⟨storage, ops, status⟩ := result
  subst done
  simp only [emacpsSgsend, allocated, filled, submitted]

theorem sgsend_fits {s : Tx R} (settled : Settled c view s) {chain : List TxPbuf}
    (fits : chain.length ≤ (view s.ring).free.length) :
    ∃ s' ops, emacpsSgsend B c s chain = (s', ops, .success) ∧ Moved c view Eq s s' ops ∧
      taken ops = chain := by
  obtain ⟨first, rest, ring, free, view', sent⟩ := sgsend_sent lawful settled fits
  have nodup := settled_nodup settled
  rw [free, List.append_assoc] at nodup
  obtain ⟨distinct, -, apart⟩ := List.nodup_append.mp nodup
  obtain ⟨-, slots, outside, refs, frees⟩ := fillBds_spec B c chain s.txPbufsStorage first
    distinct (fun i hi => settled.empty i (by rw [free]; exact List.mem_append_left _ hi))
  generalize fillBds B c s.txPbufsStorage first chain = filled at sent slots outside refs frees
  have others : ∀ i ∈ rest ++ (view s.ring).hw, filled.1 (c.index + i) =
      s.txPbufsStorage (c.index + i) := by
    intro i hi
    refine outside _ (fun i' hi' same => apart i' hi' i hi ?_)
    omega
  obtain ⟨filledSlots, chained⟩ := filled_slots slots
  have flying : inFlight c view ⟨ring, filled.1⟩ = inFlight c view s ++ chain := by
    have kept : (view s.ring).hw.filterMap (fun i => filled.1 (c.index + i)) =
        inFlight c view s :=
      List.filterMap_congr (fun i hi => others i (List.mem_append_right _ hi))
    rw [← kept, inFlight, view', List.filterMap_append]
    exact congrArg _ chained
  refine ⟨_, _, sent, ⟨?_, ?_, ?_⟩, ?_⟩
  · constructor
    · rw [view']
    · rw [view']
    · rw [view']
      refine List.Perm.trans ?_ settled.whole
      rw [free, List.append_assoc, ← List.append_assoc rest]
      exact List.perm_append_comm
    · rw [view']
      intro i hi
      rcases List.mem_append.mp hi with hi | hi
      · exact fun empty => settled.held i hi
          ((others i (List.mem_append_right _ hi)).symm.trans empty)
      · exact filledSlots i hi
    · rw [view']
      intro i hi
      refine (others i (List.mem_append_left _ hi)).trans (settled.empty i ?_)
      rw [free]
      exact List.mem_append_right _ hi
  · simp [flying, refs, frees]
  · intro j away
    refine outside j (fun i hi same => ?_)
    have inside := settled_inside settled (List.mem_append_left _ (by
      rw [free]
      exact List.mem_append_left _ hi))
    omega
  · simp [refs]

/-- A chain that does not fit is refused before anything is touched. -/
theorem sgsend_full {s : Tx R} {chain : List TxPbuf}
    (full : (view s.ring).free.length < chain.length) :
    emacpsSgsend B c s chain = (s, [], .failure) := by
  rw [emacpsSgsend, lawful.alloc_none s.ring chain.length full]

/-- One round: the buffers of the descriptors that are back are released in their order. -/
theorem round_moved {s : Tx R} (settled : Settled c view s) (h : H) :
    let back := B.fromHw (B.device s.ring h) c.nTxDesc
    let freed := freeSentBds B c s.txPbufsStorage back.2.1 back.1
    let s' : Tx R := ⟨(B.free back.2.2 back.1 back.2.1).getD back.2.2, freed.1⟩
    Moved c view Eq s s' freed.2 ∧ taken freed.2 = [] ∧
      (view s.ring).hw.length = back.1 + (view s'.ring).hw.length := by
  intro back freed s'
  obtain ⟨rest, hw, collected⟩ := lawful.collected h c.nTxDesc settled.pre settled.post
  have view' : view s'.ring = _ := collected
  have nodup := settled_nodup settled
  rw [hw] at nodup
  obtain ⟨-, device, apart⟩ := List.nodup_append.mp nodup
  obtain ⟨distinct, -, behind⟩ := List.nodup_append.mp device
  obtain ⟨cleared, outside, refs, frees⟩ :=
    freeSentBds_spec B c back.1 s.txPbufsStorage back.2.1 distinct
  have others : ∀ i, i ∉ B.set back.2.1 back.1 →
      freed.1 (c.index + i) = s.txPbufsStorage (c.index + i) := by
    intro i away
    refine outside _ (fun i' hi' same => away ?_)
    have : i = i' := by omega
    exact this ▸ hi'
  have free_apart : ∀ i ∈ (view s.ring).free, i ∉ B.set back.2.1 back.1 :=
    fun i hi back => apart i hi i (List.mem_append_left _ back) rfl
  have rest_apart : ∀ i ∈ rest, i ∉ B.set back.2.1 back.1 :=
    fun i hi back => behind i back i hi rfl
  refine ⟨⟨⟨?_, ?_, ?_, ?_, ?_⟩, ?_, ?_⟩, refs, ?_⟩
  · rw [view']
  · rw [view']
  · rw [view', List.append_assoc, ← hw]
    exact settled.whole
  · rw [view']
    intro i hi empty
    refine settled.held i (hw ▸ List.mem_append_right _ hi) ?_
    rw [← others i (rest_apart i hi)]
    exact empty
  · rw [view']
    intro i hi
    rcases List.mem_append.mp hi with hi | hi
    · exact (others i (free_apart i hi)).trans (settled.empty i hi)
    · exact cleared i hi
  · have kept : rest.filterMap (fun i => freed.1 (c.index + i)) =
        rest.filterMap (fun i => s.txPbufsStorage (c.index + i)) :=
      List.filterMap_congr (fun i hi => others i (rest_apart i hi))
    rw [refs, List.append_nil, frees, inFlight, inFlight, hw, view', List.filterMap_append]
    exact congrArg _ kept.symm
  · intro j away
    refine outside j (fun i hi same => ?_)
    have inside := settled_inside settled (List.mem_append_right _ (by
      rw [hw]
      exact List.mem_append_left _ hi))
    omega
  · rw [hw, view', List.length_append, BdRing.length_set]

theorem sentRounds_moved (progress : Nat → H) (fuel : Nat) {s : Tx R}
    (settled : Settled c view s) :
    Moved c view Eq s (sentRounds B c progress fuel s).1 (sentRounds B c progress fuel s).2.1 ∧
      taken (sentRounds B c progress fuel s).2.1 = [] ∧
      ((view s.ring).hw.length < fuel → (sentRounds B c progress fuel s).2.2 = true) := by
  induction fuel generalizing s with
  | zero => exact ⟨moved_refl settled, rfl, fun impossible => absurd impossible (Nat.not_lt_zero _)⟩
  | succ fuel ih =>
    obtain ⟨moved, refs, fewer⟩ := round_moved lawful settled (progress fuel)
    rw [sentRounds]
    by_cases none : (B.fromHw (B.device s.ring (progress fuel)) c.nTxDesc).1 = 0
    · simp only [if_pos none]
      have idle := lawful.idle (progress fuel) c.nTxDesc none
      exact ⟨moved_view settled idle, rfl, fun _ => trivial⟩
    · simp only [if_neg none]
      obtain ⟨later, refs', enough⟩ := ih moved.settled
      refine ⟨moved_trans moved later, ?_, fun room => enough (by omega)⟩
      rw [taken_append, refs, refs']
      rfl

theorem processSentBds_moved {s : Tx R} (settled : Settled c view s) (progress : Nat → H) :
    Moved c view Eq s (processSentBds B c s progress).1 (processSentBds B c s progress).2.1 ∧
      taken (processSentBds B c s progress).2.1 = [] ∧
      (processSentBds B c s progress).2.2 = true := by
  obtain ⟨moved, refs, returned⟩ := sentRounds_moved lawful progress (c.nTxDesc + 1) settled
  have := free_length settled
  exact ⟨moved, refs, returned (by omega)⟩

theorem makeRoom_moved {s : Tx R} (settled : Settled c view s) (progress : Nat → H) :
    Moved c view Eq s (makeRoom B c s progress).1 (makeRoom B c s progress).2.1 ∧
      taken (makeRoom B c s progress).2.1 = [] ∧ (makeRoom B c s progress).2.2 = true := by
  rw [makeRoom]
  split
  · exact processSentBds_moved lawful settled progress
  · exact ⟨moved_refl settled, rfl, rfl⟩

/-- A frame is taken over whole or not at all, and it is taken over if it fits. -/
theorem lowLevelOutput_moved {s : Tx R} (settled : Settled c view s) (p : TxPbuf)
    (next : List TxPbuf) (progress : Nat → H) :
    let output := lowLevelOutput B c s (p :: next) progress
    let room := (makeRoom B c s progress).1
    Moved c view Eq s output.1 output.2.1 ∧
      if (inFlight c view room).length + (p :: next).length ≤ c.nTxDesc then
        output.2.2 = .ok ∧ taken output.2.1 = p :: next
      else output.2.2 = .mem ∧ taken output.2.1 = [] := by
  intro output room
  obtain ⟨moved, refs, -⟩ := makeRoom_moved lawful settled progress
  have room_settled : Settled c view room := moved.settled
  have total := free_length room_settled
  have flying := inFlight_length room_settled
  have count : B.freeCnt room.ring = (view room.ring).free.length := lawful.freeCnt room.ring
  by_cases fits : (p :: next).length ≤ (view room.ring).free.length
  · have some : B.freeCnt room.ring ≠ 0 := by
      rw [List.length_cons] at fits
      omega
    obtain ⟨s', ops, sent, later, refs'⟩ := sgsend_fits lawful room_settled fits
    have answer : output = (s', (makeRoom B c s progress).2.1 ++ ops, .ok) := by
      change (if B.freeCnt room.ring = 0 then _ else _) = _
      rw [if_neg some]
      change ((emacpsSgsend B c room (p :: next)).1, _, _) = _
      rw [sent]
      rfl
    rw [answer, if_pos (by omega)]
    exact ⟨moved_trans moved later, rfl, by rw [taken_append, refs, refs', List.nil_append]⟩
  · have answer : output = (room, (makeRoom B c s progress).2.1, .mem) := by
      change (if B.freeCnt room.ring = 0 then _ else _) = _
      split
      · rfl
      · change ((emacpsSgsend B c room (p :: next)).1, _, _) = _
        rw [sgsend_full lawful (Nat.not_le.mp fits), List.append_nil]
        rfl
    rw [answer, if_neg (by omega)]
    exact ⟨moved, rfl, refs⟩

theorem handleTxErrors_moved {s : Tx R} (settled : Settled c view s) :
    Moved c view List.Perm s (handleTxErrors B c s).1 (handleTxErrors B c s).2 := by
  obtain ⟨slots, refs, frees⟩ :=
    freeOnlytxPbufs_spec c.nTxDesc s.txPbufsStorage c.index
  have created : view (handleTxErrors B c s).1.ring = _ := lawful.create s.ring
  have nothing : (view s.ring).free.filterMap (fun i => s.txPbufsStorage (c.index + i)) = [] :=
    List.filterMap_eq_nil_iff.mpr settled.empty
  have order : released (handleTxErrors B c s).2 =
      (List.range c.nTxDesc).filterMap (fun i => s.txPbufsStorage (c.index + i)) := by
    refine frees.trans ?_
    rw [List.range'_eq_map_range, List.filterMap_map]
    rfl
  constructor
  · constructor
    · rw [created]
    · rw [created]
    · rw [created, List.append_nil]
    · rw [created]
      exact fun i impossible => absurd impossible List.not_mem_nil
    · rw [created]
      intro i hi
      have inside := List.mem_range.mp hi
      exact (slots (c.index + i)).trans (if_pos (by omega))
  · have flown : inFlight c view (handleTxErrors B c s).1 = [] := by
      rw [inFlight, created]
      rfl
    have none : taken (handleTxErrors B c s).2 = [] := refs
    have all := settled.whole.filterMap (fun i => s.txPbufsStorage (c.index + i))
    rw [List.filterMap_append, nothing, List.nil_append] at all
    rw [none, flown, List.append_nil, List.append_nil, order]
    exact all
  · intro j away
    exact (slots j).trans (if_neg (by omega))

/- Runs. -/

/-- An error releases the buffers by their slots, any other call in the order of sending. -/
def TxCall.inOrder : TxCall H → Bool
  | .handleTxErrors => false
  | .handleEmacPsError => false
  | _ => true

theorem call_moved {s : Tx R} (settled : Settled c view s) (call : TxCall H) :
    Moved c view List.Perm s (s.call B c call).1 (s.call B c call).2 ∧
      (call.inOrder = true → Moved c view Eq s (s.call B c call).1 (s.call B c call).2) := by
  have perm : ∀ {s' : Tx R} {ops : List TxOp}, Moved c view Eq s s' ops →
      Moved c view List.Perm s s' ops :=
    fun moved => ⟨moved.settled, List.Perm.of_eq moved.balanced, moved.outside⟩
  cases call with
  | lowLevelOutput p next progress =>
    have moved := (lowLevelOutput_moved lawful settled p next progress).1
    exact ⟨perm moved, fun _ => moved⟩
  | emacpsSendHandler progress =>
    have moved := (processSentBds_moved lawful settled progress).1
    exact ⟨perm moved, fun _ => moved⟩
  | handleTxErrors => exact ⟨handleTxErrors_moved lawful settled, nofun⟩
  | handleEmacPsError => exact ⟨handleTxErrors_moved lawful settled, nofun⟩

theorem settled_after (r : R) (calls : List (TxCall H)) :
    Settled c view (after (Tx.call B c) (Tx.start B r) calls) :=
  after_invariant (Tx.call B c) (Settled c view)
    (fun _ settled call => (call_moved lawful settled call).1.settled) (settled_start lawful r) calls

/-- In every run the buffers that were referenced are those released since and those in flight,
each as often; without errors they are released in the order in which they were sent. -/
theorem references_balanced (r : R) (calls : List (TxCall H)) :
    let start := Tx.start B r
    let ran := outputs (Tx.call B c) start calls
    let flying := inFlight c view (after (Tx.call B c) start calls)
    (ran.flatMap taken).Perm (ran.flatMap released ++ flying) ∧
      ((∀ call ∈ calls, call.inOrder = true) → ran.flatMap taken = ran.flatMap released ++ flying) := by
  have settled := settled_start lawful r
  have nothing := inFlight_start lawful r
  constructor
  · have balanced := balance piecewise_perm (Tx.call B c) (Settled c view) (fun _ => True)
      (inFlight c view) taken released
      (fun s call settled _ => (call_moved lawful settled call).1.settled)
      (fun s call settled _ => (call_moved lawful settled call).1.balanced) calls
      (fun _ _ => trivial) settled
    rwa [nothing, List.nil_append] at balanced
  · intro inOrder
    have balanced := balance piecewise_eq (Tx.call B c) (Settled c view)
      (fun call => call.inOrder = true) (inFlight c view) taken released
      (fun s call settled _ => (call_moved lawful settled call).1.settled)
      (fun s call settled order => ((call_moved lawful settled call).2 order).balanced) calls
      inOrder settled
    rwa [nothing, List.nil_append] at balanced

omit lawful

def txConfigExample : TxConfig := ⟨2, 0, 1518⟩

/-- Two frames fill a ring of two descriptors; for the third one the device is done with one. -/
def txCallsExample : List (TxCall Nat) :=
  [.lowLevelOutput ⟨1, 4096, 58⟩ [] (fun _ => 0), .lowLevelOutput ⟨2, 8192, 58⟩ [] (fun _ => 0),
    .lowLevelOutput ⟨3, 12288, 58⟩ [] (fun fuel => if fuel = 2 then 1 else 0)]

theorem txCallsExample_released :
    let start := Tx.start (Counted.ring 2) (Counted.create 2)
    let ran := outputs (Tx.call (Counted.ring 2) txConfigExample) start txCallsExample
    ran.flatMap released = [⟨1, 4096, 58⟩] ∧
      ran.flatMap taken = ran.flatMap released ++ inFlight txConfigExample Counted.view
        (after (Tx.call (Counted.ring 2) txConfigExample) start txCallsExample) :=
  ⟨by decide, (references_balanced (c := txConfigExample) (Counted.lawful 2) (Counted.create 2)
    txCallsExample).2 (by decide)⟩

include lawful

/-- In every reachable state a frame is sent whole exactly if it fits beside what is in flight
once sent frames were looked for; else nothing of it is referenced. Looking for sent frames
comes to an end, and the slots of other interfaces stay as they were. -/
theorem frame_whole_or_dropped (r : R) (calls : List (TxCall H)) (p : TxPbuf) (next : List TxPbuf)
    (progress : Nat → H) :
    let s := after (Tx.call B c) (Tx.start B r) calls
    let room := (makeRoom B c s progress).1
    let output := lowLevelOutput B c s (p :: next) progress
    (makeRoom B c s progress).2.2 = true ∧
      SameOutside c s.txPbufsStorage output.1.txPbufsStorage ∧
      if (inFlight c view room).length + (p :: next).length ≤ c.nTxDesc then
        output.2.2 = .ok ∧ taken output.2.1 = p :: next
      else output.2.2 = .mem ∧ taken output.2.1 = [] := by
  intro s room output
  have settled := settled_after lawful r calls
  obtain ⟨moved, answer⟩ := lowLevelOutput_moved lawful settled p next progress
  exact ⟨(makeRoom_moved lawful settled progress).2.2, moved.outside, answer⟩

omit lawful

theorem txCallsExample_dropped :
    let s := after (Tx.call (Counted.ring 2) txConfigExample)
      (Tx.start (Counted.ring 2) (Counted.create 2)) txCallsExample
    (lowLevelOutput (Counted.ring 2) txConfigExample s [⟨4, 16384, 58⟩] (fun _ => 0)).2.2 = .mem := by
  obtain ⟨-, -, answer⟩ := frame_whole_or_dropped (c := txConfigExample) (Counted.lawful 2)
    (Counted.create 2) txCallsExample ⟨4, 16384, 58⟩ [] (fun _ => 0)
  rw [if_neg (by decide)] at answer
  exact answer.1

end StandalonePtp
