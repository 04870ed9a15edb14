import StandalonePtp.Handover

/-! The descriptors of the transmit ring over whole runs, in memory that the device writes to as
well. Between two chains it finds none that it could take. -/
namespace StandalonePtp

open Run

variable {R H : Type} (B : BdRing R H) (c : TxConfig) (decode : UInt32 → UInt32 → Bd)

/-- The two words that the driver gives to a descriptor without a frame say that it is used. -/
structure UsedBits : Prop where
  inside : (decode 0 0x80000000).used = true
  wrap : (decode 0 0xC0000000).used = true

/-- A descriptor of a new ring, which is also what a descriptor is reset to. -/
def clearBd (i : Nat) : Bd := decode 0 (if i = c.nTxDesc - 1 then 0xC0000000 else 0x80000000)

structure TxMemory (R : Type) where
  tx : Tx R
  bds : Nat → Bd

/-- A call of the driver, or a write of the device to one of its descriptors. -/
inductive BdEvent (H : Type) where
  | call (call : TxCall H)
  | device (bd : Nat) (content : Bd)

def TxMemory.start (r : R) : TxMemory R := ⟨Tx.start B r, clearBd c decode⟩

/-- After an error the ring is made anew from a template. A descriptor that the device does not
have is not written to. -/
def TxMemory.event (view : R → Groups) (s : TxMemory R) : BdEvent H → TxMemory R × List TxOp
  | .call call =>
    let r := s.tx.call B c call
    (⟨r.1, if call.inOrder then written decode s.bds r.2 else clearBd c decode⟩, r.2)
  | .device bd content =>
    if bd ∈ (view s.tx.ring).hw then ({ s with bds := Function.update s.bds bd content }, [])
    else (s, [])

/-- The device takes none of the free descriptors. -/
def FreeUsed (view : R → Groups) (s : Tx R) (m : Nat → Bd) : Prop :=
  ∀ i ∈ (view s.ring).free, (m i).used = true

variable {B c decode}

theorem clearBd_used (bits : UsedBits decode) (i : Nat) : (clearBd c decode i).used = true := by
  rw [clearBd]
  split
  · exact bits.wrap
  · exact bits.inside

theorem written_append (m : Nat → Bd) (xs ys : List TxOp) :
    written decode m (xs ++ ys) = written decode (written decode m xs) ys :=
  List.foldl_append

theorem written_untouched {ops : List TxOp} {i : Nat} (untouched : writesTo i ops = [])
    (m : Nat → Bd) : written decode m ops i = m i := by
  rw [written_eq, untouched]
  rfl

theorem writesTo_freed (i : Nat) (p : Option TxPbuf) :
    writesTo i (p.map TxOp.pbufFree).toList = [] := by
  cases p <;> rfl

/-- What is back is reset, and nothing else. -/
theorem written_freeSentBds (k : Nat) (storage : Nat → Option TxPbuf) (bd : Nat)
    (distinct : (B.set bd k).Nodup) (m : Nat → Bd) (i : Nat) :
    written decode m (freeSentBds B c storage bd k).2 i =
      if i ∈ B.set bd k then clearBd c decode i else m i := by
  induction k generalizing storage bd m with
  | zero => rfl
  | succ k ih =>
    rw [BdRing.set_succ] at distinct ⊢
    obtain ⟨first, later⟩ := List.nodup_cons.mp distinct
    rw [freeSentBds, List.append_assoc, written_append, written_append, ih _ _ later]
    by_cases same : i = bd
    · subst same
      rw [if_neg first, if_pos List.mem_cons_self, written_untouched (writesTo_freed i _)]
      exact Function.update_self _ _ _
    · have member : i ∈ bd :: B.set (B.next bd) k ↔ i ∈ B.set (B.next bd) k :=
        List.mem_cons.trans (or_iff_right same)
      rw [written_untouched (writesTo_freed i _)]
      simp only [member]
      split
      · rfl
      · exact Function.update_of_ne same _ _

variable {view : R → Groups} (lawful : B.Lawful c.nTxDesc view)
include lawful

theorem sentRounds_used (bits : UsedBits decode) (progress : Nat → H) (fuel : Nat) {s : Tx R}
    (settled : Settled c view s) {m : Nat → Bd} (free : FreeUsed view s m) :
    FreeUsed view (sentRounds B c progress fuel s).1
      (written decode m (sentRounds B c progress fuel s).2.1) := by
  induction fuel generalizing s m with
  | zero => exact free
  | succ fuel ih =>
    have moved := (round_moved lawful settled (progress fuel)).1
    obtain ⟨rest, hw, collected⟩ :=
      lawful.collected (progress fuel) c.nTxDesc settled.pre settled.post
    have distinct := settled_nodup settled
    rw [hw] at distinct
    have back_distinct := (List.nodup_append.mp (List.nodup_append.mp distinct).2.1).1
    rw [sentRounds]
    by_cases none : (B.fromHw (B.device s.ring (progress fuel)) c.nTxDesc).1 = 0
    · simp only [if_pos none]
      intro i member
      rw [lawful.idle (progress fuel) c.nTxDesc none] at member
      exact free i member
    · simp only [if_neg none]
      rw [written_append]
      refine ih moved.settled ?_
      intro i member
      rw [collected] at member
      rw [written_freeSentBds _ _ _ back_distinct]
      split
      · exact clearBd_used bits i
      · rename_i kept
        exact free i ((List.mem_append.mp member).resolve_right kept)

theorem makeRoom_used (bits : UsedBits decode) {s : Tx R} (settled : Settled c view s)
    (progress : Nat → H) {m : Nat → Bd} (free : FreeUsed view s m) :
    FreeUsed view (makeRoom B c s progress).1 (written decode m (makeRoom B c s progress).2.1) := by
  rw [makeRoom]
  split
  · exact sentRounds_used lawful bits progress (c.nTxDesc + 1) settled free
  · exact free

/-- A chain is written into the descriptors that it is given, and into no other. -/
theorem sgsend_used {s : Tx R} (settled : Settled c view s) (p : TxPbuf) (next : List TxPbuf)
    {m : Nat → Bd} (free : FreeUsed view s m) :
    FreeUsed view (emacpsSgsend B c s (p :: next)).1
      (written decode m (emacpsSgsend B c s (p :: next)).2.1) := by
  by_cases fits : (p :: next).length ≤ (view s.ring).free.length
  · obtain ⟨first, rest, ring, split, view', sent⟩ := sgsend_sent lawful settled fits
    have nodup := settled_nodup settled
    rw [split, List.append_assoc] at nodup
    obtain ⟨distinct, -, apart⟩ := List.nodup_append.mp nodup
    obtain ⟨filled, -⟩ := writesTo_fillBds (c := c) (p :: next) s.txPbufsStorage first distinct
      (fun i hi => settled.empty i (by rw [split]; exact List.mem_append_left _ hi))
    intro i member
    rw [sent] at member ⊢
    rw [view'] at member
    have away : i ∉ B.set first (next.length + 1) :=
      fun given => apart i given i (List.mem_append_left _ member) rfl
    have last : writesTo i [.bd (lastBd B first (p :: next).length) .setLast] = [] := by
      rw [writesTo_one, if_neg]
      rintro rfl
      exact away (B.mem_set.mpr ⟨next.length, Nat.lt_succ_self _, rfl⟩)
    have handed : writesTo i (clearUsed B first (p :: next).length) = [] := by
      have cleared := (clearUsed_perm (B := B) first next.length)
      rw [List.length_cons, clearUsed_map, writesTo_map _ (cleared.nodup_iff.mpr distinct), if_neg]
      exact fun given => away (cleared.mem_iff.mp given)
    have untouched : writesTo i ((fillBds B c s.txPbufsStorage first (p :: next)).2.1 ++
        [.bd (lastBd B first (p :: next).length) .setLast] ++
        clearUsed B first (p :: next).length ++ [.startTransmit]) = [] := by
      rw [writesTo_append, writesTo_append, writesTo_append, filled i away, last, handed]
      rfl
    rw [written_untouched untouched]
    refine free i ?_
    rw [split]
    exact List.mem_append_right _ member
  · rw [sgsend_full lawful (Nat.not_le.mp fits)]
    exact free

theorem call_used (bits : UsedBits decode) {s : Tx R} (settled : Settled c view s)
    (call : TxCall H) (inOrder : call.inOrder = true) {m : Nat → Bd} (free : FreeUsed view s m) :
    FreeUsed view (s.call B c call).1 (written decode m (s.call B c call).2) := by
  cases call with
  | lowLevelOutput p next progress =>
    have room := makeRoom_used lawful bits settled progress free
    have room_settled := (makeRoom_moved lawful settled progress).1.settled
    rw [Tx.call, lowLevelOutput]
    dsimp only
    split
    · exact room
    · rw [written_append]
      exact sgsend_used lawful room_settled p next room
  | emacpsSendHandler progress =>
    exact sentRounds_used lawful bits progress (c.nTxDesc + 1) settled free
  | handleTxErrors => contradiction
  | handleEmacPsError => contradiction

theorem event_used (bits : UsedBits decode) (s : TxMemory R) (e : BdEvent H)
    (before : Settled c view s.tx ∧ FreeUsed view s.tx s.bds) :
    Settled c view (s.event B c decode view e).1.tx ∧
      FreeUsed view (s.event B c decode view e).1.tx (s.event B c decode view e).1.bds := by
  obtain ⟨settled, free⟩ := before
  cases e with
  | call call =>
    refine ⟨(call_moved lawful settled call).1.settled, ?_⟩
    cases order : call.inOrder with
    | true =>
      simp only [TxMemory.event, order, if_true]
      exact call_used lawful bits settled call order free
    | false =>
      simp only [TxMemory.event, order]
      exact fun i _ => clearBd_used bits i
  | device bd content =>
    rw [TxMemory.event]
    split
    · rename_i own
      refine ⟨settled, fun i member => ?_⟩
      have other : i ≠ bd := by
        rintro rfl
        exact (List.nodup_append.mp (settled_nodup settled)).2.2 i member i own rfl
      change (Function.update s.bds bd content i).used = true
      rw [Function.update_of_ne other]
      exact free i member
    · exact ⟨settled, free⟩

/-- In a run from power-up with errors and with the device writing to what it has, a chain is
invisible until it is complete: at every moment of its hand-over the device finds the used bit
of the first descriptor, or every buffer in its descriptor. -/
theorem chain_unseen_or_whole (bits : UsedBits decode) (r : R) (events : List (BdEvent H))
    (p : TxPbuf) (next : List TxPbuf) (seen : List TxOp) :
    let s := after (TxMemory.event B c decode view) (TxMemory.start B c decode r) events
    FreeUsed view s.tx s.bds ∧ ((p :: next).length ≤ (view s.tx.ring).free.length →
      seen <+: (emacpsSgsend B c s.tx (p :: next)).2.1 →
      ∃ first, (view s.tx.ring).free[0]? = some first ∧
        ((written decode s.bds seen first).used = true ∨
          ∀ k q, (p :: next)[k]? = some q → ∃ i, (view s.tx.ring).free[k]? = some i ∧
            written decode s.bds seen i = ⟨q.payload, bdLength c q.len, k = next.length, false⟩)) := by
  intro s
  have initial : Settled c view (TxMemory.start B c decode r).tx ∧
      FreeUsed view (TxMemory.start B c decode r).tx (TxMemory.start B c decode r).bds :=
    ⟨settled_start lawful r, fun i _ => clearBd_used bits i⟩
  obtain ⟨settled, free⟩ : Settled c view s.tx ∧ FreeUsed view s.tx s.bds :=
    after_invariant (TxMemory.event B c decode view) _
      (fun s before e => event_used lawful bits s e before) initial events
  refine ⟨free, fun fits early => ?_⟩
  obtain ⟨first, head, held | whole⟩ :=
    sgsend_handed_whole decode lawful settled p next s.bds fits early
  · have member : first ∈ (view s.tx.ring).free := List.mem_of_getElem? head
    exact ⟨first, head, .inl (held.trans (free first member))⟩
  · exact ⟨first, head, .inr whole⟩

omit lawful

def decodeExample (word status : UInt32) : Bd :=
  ⟨word.toNat, (status &&& 0x3FFF).toNat, status &&& 0x8000 ≠ 0, status &&& 0x80000000 ≠ 0⟩

/-- The device has sent a frame and said so; its descriptor is reset before it is used again. -/
def bdEventsExample : List (BdEvent Nat) :=
  [.call (.lowLevelOutput ⟨1, 4096, 58⟩ [] (fun _ => 0)), .device 0 ⟨4096, 58, true, true⟩,
    .call (.emacpsSendHandler (fun fuel => if fuel = 2 then 1 else 0))]

theorem bdEventsExample_unseen :
    let s := after (TxMemory.event (Counted.ring 2) txConfigExample decodeExample Counted.view)
      (TxMemory.start (Counted.ring 2) txConfigExample decodeExample (Counted.create 2))
      bdEventsExample
    s.tx.ring.view.free = [1, 0] ∧ (s.bds 0).used = true ∧
      (written decodeExample s.bds [.bd 1 (.address 8192)] 1).used = true := by
  intro s
  have entries : s.tx.ring.view.free = [1, 0] := by decide
  obtain ⟨free, sent⟩ := chain_unseen_or_whole (c := txConfigExample) (Counted.lawful 2)
    (⟨by decide, by decide⟩ : UsedBits decodeExample) (Counted.create 2) bdEventsExample
    ⟨2, 8192, 58⟩ [] [.bd 1 (.address 8192)]
  refine ⟨entries, free 0 (entries ▸ by decide), ?_⟩
  obtain ⟨first, head, unseen | whole⟩ := sent (by decide) (by decide)
  · cases Option.some.inj head
    exact unseen
  · obtain ⟨i, found, complete⟩ := whole 0 ⟨2, 8192, 58⟩ rfl
    cases Option.some.inj found
    exact absurd complete (by decide)

end StandalonePtp
