import Mathlib.Data.List.Nodup
import StandalonePtp.Transmit

/-! What the device can see of a chain while it is being filled in. It takes the first
descriptor of a chain as soon as its used bit is clear, and then follows the chain. -/
namespace StandalonePtp

open Run

structure Bd where
  address : Nat
  length : Nat
  last : Bool
  used : Bool
  deriving DecidableEq, Repr

/-- The meaning of the two words of a descriptor is the device's. -/
def BdWrite.apply (decode : UInt32 → UInt32 → Bd) (b : Bd) : BdWrite → Bd
  | .address payload => { b with address := payload }
  | .length len => { b with length := len }
  | .clearLast => { b with last := false }
  | .setLast => { b with last := true }
  | .clearTxUsed => { b with used := false }
  | .words word status => decode word status

variable (decode : UInt32 → UInt32 → Bd)

def TxOp.apply (m : Nat → Bd) : TxOp → Nat → Bd
  | .bd i w => Function.update m i (w.apply decode (m i))
  | _ => m

/-- The descriptors after some writes. -/
def written (m : Nat → Bd) (ops : List TxOp) : Nat → Bd := ops.foldl (TxOp.apply decode) m

def TxOp.writeTo (i : Nat) : TxOp → Option BdWrite
  | .bd j w => if j = i then some w else none
  | .pbufRef _ => none
  | .pbufFree _ => none
  | .startTransmit => none

def writesTo (i : Nat) (ops : List TxOp) : List BdWrite := ops.filterMap (TxOp.writeTo i)

theorem written_eq (ops : List TxOp) (m : Nat → Bd) (i : Nat) :
    written decode m ops i = (writesTo i ops).foldl (BdWrite.apply decode) (m i) := by
  induction ops generalizing m with
  | nil => rfl
  | cons op ops ih =>
    have rest := ih (op.apply decode m)
    rw [written, List.foldl_cons]
    rw [written] at rest
    rw [rest, writesTo, writesTo, List.filterMap_cons]
    cases op with
    | bd j w =>
      by_cases same : j = i
      · subst same
        simp [TxOp.apply, TxOp.writeTo]
      · simp [TxOp.apply, TxOp.writeTo, same, Function.update_of_ne (Ne.symm same)]
    | pbufRef p => rfl
    | pbufFree p => rfl
    | startTransmit => rfl

theorem writesTo_append (i : Nat) (xs ys : List TxOp) :
    writesTo i (xs ++ ys) = writesTo i xs ++ writesTo i ys :=
  List.filterMap_append

theorem writesTo_one (i j : Nat) (w : BdWrite) :
    writesTo i [.bd j w] = if j = i then [w] else [] := by
  by_cases same : j = i <;> simp [writesTo, TxOp.writeTo, same]

theorem writesTo_map (w : BdWrite) {l : List Nat} (distinct : l.Nodup) (i : Nat) :
    writesTo i (l.map (fun j => .bd j w)) = if i ∈ l then [w] else [] := by
  induction l with
  | nil => rfl
  | cons j l ih =>
    obtain ⟨first, rest⟩ := List.nodup_cons.mp distinct
    have tail := ih rest
    rw [writesTo] at tail ⊢
    rw [List.map_cons, List.filterMap_cons, tail]
    by_cases same : j = i
    · subst same
      simp [TxOp.writeTo, first]
    · simp [TxOp.writeTo, same, Ne.symm same]

/-- A write that leaves the used bit alone. -/
def BdWrite.keepsUsed : BdWrite → Bool
  | .clearTxUsed => false
  | .words _ _ => false
  | _ => true

theorem used_kept (ws : List BdWrite) (keeps : ∀ w ∈ ws, w.keepsUsed = true) (b : Bd) :
    (ws.foldl (BdWrite.apply decode) b).used = b.used := by
  induction ws generalizing b with
  | nil => rfl
  | cons w ws ih =>
    rw [List.foldl_cons, ih (fun w hw => keeps w (List.mem_cons_of_mem _ hw))]
    have first := keeps w List.mem_cons_self
    cases w <;> first | rfl | contradiction

variable {R H : Type} {B : BdRing R H} {c : TxConfig}

def fillWrites (c : TxConfig) (q : TxPbuf) : List BdWrite :=
  [.address q.payload, .length (bdLength c q.len), .clearLast]

theorem fillWrites_keeps (c : TxConfig) (q : TxPbuf) : ∀ w ∈ fillWrites c q, w.keepsUsed = true := by
  simp [fillWrites, BdWrite.keepsUsed]

theorem writesTo_fill (i txbd : Nat) (q : TxPbuf) :
    writesTo i [.bd txbd (.address q.payload), .bd txbd (.length (bdLength c q.len)), .pbufRef q,
      .bd txbd .clearLast] = if txbd = i then fillWrites c q else [] := by
  by_cases same : txbd = i <;> simp [writesTo, List.filterMap_cons, TxOp.writeTo, fillWrites, same]

theorem writesTo_fillBds (chain : List TxPbuf) (storage : Nat → Option TxPbuf) (txbd : Nat)
    (distinct : (B.set txbd chain.length).Nodup)
    (empty : ∀ i ∈ B.set txbd chain.length, storage (c.index + i) = none) :
    (∀ i, i ∉ B.set txbd chain.length → writesTo i (fillBds B c storage txbd chain).2.1 = []) ∧
      ∀ k q, chain[k]? = some q →
        writesTo (B.next^[k] txbd) (fillBds B c storage txbd chain).2.1 = fillWrites c q := by
  induction chain generalizing storage txbd with
  | nil => exact ⟨fun _ _ => rfl, by simp⟩
  | cons q rest ih =>
    rw [List.length_cons, BdRing.set_succ] at distinct empty ⊢
    obtain ⟨first, later⟩ := List.nodup_cons.mp distinct
    have vacant := empty txbd List.mem_cons_self
    have others : ∀ i ∈ B.set (B.next txbd) rest.length, c.index + i ≠ c.index + txbd := by
      intro i hi same
      have : i = txbd := by omega
      exact first (this ▸ hi)
    obtain ⟨none, each⟩ := ih (Function.update storage (c.index + txbd) (some q)) (B.next txbd)
      later (fun i hi => by
        rw [Function.update_of_ne (others i hi)]
        exact empty i (List.mem_cons_of_mem _ hi))
    have unfolded : fillBds B c storage txbd (q :: rest) = _ := if_neg (not_not.mpr vacant)
    rw [unfolded]
    constructor
    · intro i away
      obtain ⟨other, behind⟩ := not_or.mp (mt List.mem_cons.mpr away)
      rw [writesTo_append, writesTo_fill, none i behind, if_neg (Ne.symm other)]
      rfl
    · intro k q' found
      cases k with
      | zero =>
        cases Option.some.inj found
        rw [writesTo_append, writesTo_fill, Function.iterate_zero, id, none txbd first,
          if_pos rfl, List.append_nil]
      | succ k =>
        have found : rest[k]? = some q' := found
        have inside : k < rest.length := (List.getElem?_eq_some_iff.mp found).1
        have member : B.next^[k] (B.next txbd) ∈ B.set (B.next txbd) rest.length :=
          B.mem_set.mpr ⟨k, inside, rfl⟩
        have other : txbd ≠ B.next^[k] (B.next txbd) := by
          intro same
          rw [← same] at member
          exact first member
        rw [writesTo_append, writesTo_fill, Function.iterate_succ_apply, each k q' found,
          if_neg other]
        rfl

theorem set_nodup_inj {first n j k : Nat} (distinct : (B.set first n).Nodup) (hj : j < n)
    (hk : k < n) (same : B.next^[j] first = B.next^[k] first) : j = k := by
  have size := B.length_set first n
  have inside_j : j < (B.set first n).length := by omega
  have inside_k : k < (B.set first n).length := by omega
  have entries : (B.set first n)[j] = (B.set first n)[k] := by simpa [BdRing.set] using same
  exact distinct.getElem_inj_iff.mp entries

/-- The clearing loop takes every descriptor of the set once, the first one at the end. -/
theorem clearUsed_perm (first n : Nat) :
    (B.set (B.next first) n ++ [first]).Perm (B.set first (n + 1)) := by
  rw [BdRing.set_succ]
  exact List.perm_append_comm

theorem clearUsed_map (first n : Nat) :
    clearUsed B first (n + 1) =
      (B.set (B.next first) n ++ [first]).map (fun txbd => .bd txbd .clearTxUsed) := by
  simp [clearUsed]

variable {view : R → Groups} (lawful : B.Lawful c.nTxDesc view)
include lawful

/-- All that `emacps_sgsend` writes into the descriptor of the buffer `q`. -/
theorem writesTo_sent {s : Tx R} (settled : Settled c view s) (p : TxPbuf) (next : List TxPbuf)
    (fits : (p :: next).length ≤ (view s.ring).free.length) :
    ∃ first front, (view s.ring).free[0]? = some first ∧
      (emacpsSgsend B c s (p :: next)).2.1 =
        front ++ [.bd first .clearTxUsed] ++ [.startTransmit] ∧
      (∀ w ∈ writesTo first front, w.keepsUsed = true) ∧
      ∀ k q, (p :: next)[k]? = some q → ∃ i, (view s.ring).free[k]? = some i ∧
        writesTo i (front ++ [.bd first .clearTxUsed]) =
          fillWrites c q ++ (if k = next.length then [.setLast] else []) ++ [.clearTxUsed] := by
  obtain ⟨first, rest, ring, free, -, sent⟩ := sgsend_sent lawful settled fits
  have nodup := settled_nodup settled
  rw [free, List.append_assoc] at nodup
  have distinct := (List.nodup_append.mp nodup).1
  obtain ⟨none, each⟩ := writesTo_fillBds (c := c) (p :: next) s.txPbufsStorage first distinct
    (fun i hi => settled.empty i (by rw [free]; exact List.mem_append_left _ hi))
  have distinct : (B.set first (next.length + 1)).Nodup := distinct
  have cleared : (B.set (B.next first) next.length ++ [first]).Nodup :=
    (clearUsed_perm first next.length).nodup_iff.mpr distinct
  have front_distinct := (List.nodup_append.mp cleared).1
  have first_apart : first ∉ B.set (B.next first) next.length :=
    fun hi => (List.nodup_append.mp cleared).2.2 first hi first List.mem_cons_self rfl
  have last_writes : ∀ i, writesTo i [.bd (lastBd B first (p :: next).length) .setLast] =
      if B.next^[next.length] first = i then [.setLast] else [] :=
    fun i => writesTo_one i _ _
  refine ⟨first, (fillBds B c s.txPbufsStorage first (p :: next)).2.1 ++
    [.bd (lastBd B first (p :: next).length) .setLast] ++
    (B.set (B.next first) next.length).map (fun txbd => .bd txbd .clearTxUsed), ?_, ?_, ?_, ?_⟩
  · rw [free]
    rfl
  · rw [sent, List.length_cons, clearUsed_map, List.map_append]
    simp only [List.append_assoc]
    rfl
  · intro w hw
    rw [writesTo_append, writesTo_append, writesTo_map _ front_distinct, if_neg first_apart,
      last_writes, List.append_nil] at hw
    rcases List.mem_append.mp hw with hw | hw
    · have own : writesTo first (fillBds B c s.txPbufsStorage first (p :: next)).2.1 = _ :=
        each 0 p rfl
      rw [own] at hw
      exact fillWrites_keeps c p w hw
    · split at hw
      · rw [List.mem_singleton.mp hw]
        rfl
      · contradiction
  · intro k q found
    have inside : k < next.length + 1 := (List.getElem?_eq_some_iff.mp found).1
    refine ⟨B.next^[k] first, ?_, ?_⟩
    · rw [free, List.getElem?_append_left (by simpa using inside)]
      exact List.getElem?_iterate _ _ _ _ inside
    · have last : B.next^[next.length] first = B.next^[k] first ↔ k = next.length :=
        ⟨fun same => (set_nodup_inj distinct (Nat.lt_succ_self _) inside same).symm,
          fun same => by rw [same]⟩
      have member : B.next^[k] first ∈ B.set (B.next first) next.length ++ [first] :=
        (clearUsed_perm first next.length).mem_iff.mpr (B.mem_set.mpr ⟨k, inside, rfl⟩)
      have clears := writesTo_map .clearTxUsed cleared (B.next^[k] first)
      rw [if_pos member, List.map_append, writesTo_append] at clears
      rw [writesTo_append, writesTo_append, writesTo_append, each k q found, last_writes,
        List.append_assoc _ _ (writesTo _ [.bd first .clearTxUsed])]
      simp only [last]
      exact congrArg _ clears

theorem sgsend_handed_whole {s : Tx R} (settled : Settled c view s) (p : TxPbuf)
    (next : List TxPbuf) (m : Nat → Bd) {seen : List TxOp}
    (fits : (p :: next).length ≤ (view s.ring).free.length)
    (early : seen <+: (emacpsSgsend B c s (p :: next)).2.1) :
    ∃ first, (view s.ring).free[0]? = some first ∧
      ((written decode m seen first).used = (m first).used ∨
        ∀ k q, (p :: next)[k]? = some q → ∃ i, (view s.ring).free[k]? = some i ∧
          written decode m seen i = ⟨q.payload, bdLength c q.len, k = next.length, false⟩) := by
  obtain ⟨first, front, start, ops, keeps, each⟩ := writesTo_sent lawful settled p next fits
  refine ⟨first, start, ?_⟩
  rw [ops] at early
  have complete : ∀ {tail : List TxOp}, tail <+: [.startTransmit] →
      ∀ k q, (p :: next)[k]? = some q → ∃ i, (view s.ring).free[k]? = some i ∧
        written decode m (front ++ [.bd first .clearTxUsed] ++ tail) i =
          ⟨q.payload, bdLength c q.len, k = next.length, false⟩ := by
    intro tail behind k q found
    obtain ⟨i, entry, writes⟩ := each k q found
    have silent : writesTo i tail = [] := List.prefix_nil.mp (behind.filterMap (TxOp.writeTo i))
    refine ⟨i, entry, ?_⟩
    rw [written_eq, writesTo_append, writes, silent]
    by_cases last : k = next.length <;> simp [fillWrites, BdWrite.apply, last]
  rcases List.prefix_or_prefix_of_prefix early (List.prefix_append _ _) with inside | ⟨tail, rfl⟩
  · rcases List.prefix_concat_iff.mp inside with rfl | inside
    · exact .inr (by simpa using complete List.nil_prefix)
    · refine .inl ?_
      have kept := inside.filterMap (TxOp.writeTo first)
      rw [written_eq]
      exact used_kept decode _ (fun w hw => keeps w (kept.subset hw)) _
  · exact .inr (complete ((List.prefix_append_right_inj _).mp early))

/-- Whatever the descriptors held, and wherever the device looks while a chain is sent from a
reachable state: the first descriptor still has the used bit it had, or every buffer of the
chain is in its descriptor, with the used bit clear and the last one marked. -/
theorem chain_handed_whole (r : R) (calls : List (TxCall H)) (p : TxPbuf) (next : List TxPbuf)
    (m : Nat → Bd) (seen : List TxOp) :
    let s := after (Tx.call B c) (Tx.start B r) calls
    (p :: next).length ≤ (view s.ring).free.length →
      seen <+: (emacpsSgsend B c s (p :: next)).2.1 →
      ∃ first, (view s.ring).free[0]? = some first ∧
        ((written decode m seen first).used = (m first).used ∨
          ∀ k q, (p :: next)[k]? = some q → ∃ i, (view s.ring).free[k]? = some i ∧
            written decode m seen i = ⟨q.payload, bdLength c q.len, k = next.length, false⟩) := by
  intro s fits early
  exact sgsend_handed_whole decode lawful (settled_after lawful r calls) p next m fits early

omit lawful

def unusedBds : Nat → Bd := fun _ => ⟨0, 0, false, true⟩

/-- A chain of two buffers after the first has been filled in and referenced. -/
theorem half_chain_unseen :
    ∃ first, (Counted.create 2).view.free[0]? = some first ∧
      (written (fun _ _ => unusedBds 0) unusedBds
        [.bd 0 (.address 4096), .bd 0 (.length 14), .pbufRef ⟨1, 4096, 14⟩] first).used = true := by
  obtain ⟨first, entry, unseen | complete⟩ := chain_handed_whole (c := txConfigExample)
    (fun _ _ => unusedBds 0) (Counted.lawful 2) (Counted.create 2) [] ⟨1, 4096, 14⟩
    [⟨2, 8192, 44⟩] unusedBds [.bd 0 (.address 4096), .bd 0 (.length 14), .pbufRef ⟨1, 4096, 14⟩]
    (by decide) (by decide)
  · exact ⟨first, entry, unseen⟩
  · obtain ⟨i, found, second⟩ := complete 1 ⟨2, 8192, 44⟩ rfl
    cases Option.some.inj found
    exact absurd second (by decide)

end StandalonePtp
