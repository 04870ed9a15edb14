import Mathlib.Data.Finset.Card
import StandalonePtp.Ethernet
import StandalonePtp.Flow

/-! The filters for multicast groups: entries of a mask are taken and returned, and the hash
register of the device is updated with the address that stands for the group. -/
namespace StandalonePtp

open StandalonePtp.Run

/-- The `u8_t action`: the two values that have a meaning, and all others. -/
inductive FilterAction where
  | add
  | delete
  | other
  deriving DecidableEq, Repr

inductive HashOp where
  | waitSent
  | stop
  | setHash (mac : List UInt8)
  | deleteHash (mac : List UInt8)
  | resetDma
  | start
  deriving DecidableEq, Repr

def HashOp.sets : HashOp → Bool
  | .setHash _ => true
  | _ => false

def HashOp.deletes : HashOp → Bool
  | .deleteHash _ => true
  | _ => false

/- The two functions differ in the address only. -/
def hashUpdate (mac : List UInt8) (action : FilterAction) : List HashOp :=
  [.waitSent, .stop] ++
    (match action with
      | .add => [.setHash mac]
      | .delete => [.deleteHash mac]
      | .other => []) ++
    [.resetDma, .start]

def xemacpsifMacHashUpdate (group : Vector UInt8 4) (action : FilterAction) : List HashOp :=
  hashUpdate [0x01, 0x00, 0x5E, group[1] &&& 0x7F, group[2], group[3]] action

def xemacpsifMld6MacHashUpdate (group : Vector UInt8 16) (action : FilterAction) : List HashOp :=
  hashUpdate [0x33, 0x33, group[12], group[13], group[14], group[15]] action

def tempMask (i : Nat) : UInt8 := UInt8.ofNat (2 ^ i)

/- The two loops over the entries: the first one that is not skipped. -/

def firstFree (maxMacAddr : Nat) (mask : UInt8) : Option Nat :=
  (List.range maxMacAddr).find? (fun i => !(mask &&& tempMask i == tempMask i))

def firstUsed (maxMacAddr : Nat) (mask : UInt8) : Option Nat :=
  (List.range maxMacAddr).find? (fun i => mask &&& tempMask i == tempMask i)

def filterUpdate (maxMacAddr : Nat) (update : FilterAction → List HashOp) (unknown : Err)
    (mask : UInt8) (action : FilterAction) : UInt8 × Err × List HashOp :=
  match action with
  | .add =>
    match firstFree maxMacAddr mask with
    | some i => (mask ||| tempMask i, .ok, update .add)
    | none => (mask, .mem, [])
  | .delete =>
    match firstUsed maxMacAddr mask with
    | some i => (mask &&& ~~~tempMask i, .ok, update .delete)
    | none => (mask, .mem, [])
  | .other => (mask, unknown, [])

-- The guard asks for an octet below 224 and above 239.
def xemacpsifMacFilterUpdate (maxMacAddr : Nat) (mask : UInt8) (group : Vector UInt8 4)
    (action : FilterAction) : UInt8 × Err × List HashOp :=
  if group[0] < 224 && group[0] > 239 then (mask, .arg, [])
  else filterUpdate maxMacAddr (xemacpsifMacHashUpdate group) .ok mask action

/-- The six scopes are tests of the network stack. -/
def xemacpsifIp6AddrIsmulticast (scopes : List (Vector UInt8 16 → Bool))
    (group : Vector UInt8 16) : Bool :=
  scopes.any (fun scope => scope group)

def xemacpsifMld6MacFilterUpdate (scopes : List (Vector UInt8 16 → Bool)) (maxMacAddr : Nat)
    (mask : UInt8) (group : Vector UInt8 16) (action : FilterAction) :
    UInt8 × Err × List HashOp :=
  if !xemacpsifIp6AddrIsmulticast scopes group then (mask, .arg, [])
  else filterUpdate maxMacAddr (xemacpsifMld6MacHashUpdate group) .arg mask action

structure Filters where
  mcastEntryMask : UInt8
  mld6McastEntryMask : UInt8
  deriving DecidableEq, Repr

inductive FilterCall where
  | igmp (group : Vector UInt8 4) (action : FilterAction)
  | mld (group : Vector UInt8 16) (action : FilterAction)

variable (scopes : List (Vector UInt8 16 → Bool)) (maxMacAddr : Nat)

def Filters.call (f : Filters) : FilterCall → Filters × Err × List HashOp
  | .igmp group action =>
    let done := xemacpsifMacFilterUpdate maxMacAddr f.mcastEntryMask group action
    (⟨done.1, f.mld6McastEntryMask⟩, done.2)
  | .mld group action =>
    let done := xemacpsifMld6MacFilterUpdate scopes maxMacAddr f.mld6McastEntryMask group action
    (⟨f.mcastEntryMask, done.1⟩, done.2)

def Filters.start : Filters := ⟨0, 0⟩

/- What the filters keep: how many entries are taken, and nothing of the groups. -/

structure Slots (capacity : Nat) where
  used : Nat
  fits : used ≤ capacity
  deriving DecidableEq

namespace Slots

variable {capacity : Nat}

def empty : Slots capacity := ⟨0, Nat.zero_le _⟩

def take (s : Slots capacity) : Option (Slots capacity) :=
  if room : s.used < capacity then some ⟨s.used + 1, room⟩ else none

def giveBack (s : Slots capacity) : Option (Slots capacity) :=
  if 0 < s.used then some ⟨s.used - 1, by have := s.fits; omega⟩ else none

def update (s : Slots capacity) (hash : FilterAction → List HashOp) (unknown : Err)
    (action : FilterAction) : Slots capacity × Err × List HashOp :=
  match action with
  | .add =>
    match s.take with
    | some next => (next, .ok, hash .add)
    | none => (s, .mem, [])
  | .delete =>
    match s.giveBack with
    | some next => (next, .ok, hash .delete)
    | none => (s, .mem, [])
  | .other => (s, unknown, [])

/-- Any group is accepted by the first filter, any group in a scope by the second. -/
def call (s : Slots capacity × Slots capacity) :
    FilterCall → (Slots capacity × Slots capacity) × Err × List HashOp
  | .igmp group action =>
    let done := s.1.update (xemacpsifMacHashUpdate group) .ok action
    ((done.1, s.2), done.2)
  | .mld group action =>
    if xemacpsifIp6AddrIsmulticast scopes group then
      let done := s.2.update (xemacpsifMld6MacHashUpdate group) .arg action
      ((s.1, done.1), done.2)
    else (s, .arg, [])

end Slots

/- The bits of a mask. -/

def entryTaken (mask : UInt8) (i : Nat) : Bool := mask.toBitVec.getLsbD i

def usedEntries (mask : UInt8) : Finset Nat := (Finset.range maxMacAddr).filter (entryTaken mask ·)

theorem tempMask_toBitVec (i : Nat) : (tempMask i).toBitVec = BitVec.twoPow 8 i := by
  apply BitVec.eq_of_toNat_eq
  simp [tempMask, BitVec.toNat_twoPow]

theorem skipped_iff (mask : UInt8) {i : Nat} (small : i < 8) :
    (mask &&& tempMask i == tempMask i) = entryTaken mask i := by
  rw [Bool.eq_iff_iff, beq_iff_eq, ← UInt8.toBitVec_inj, UInt8.toBitVec_and, tempMask_toBitVec,
    BitVec.and_twoPow, entryTaken]
  constructor
  · intro same
    by_contra clear
    rw [if_neg clear] at same
    have bit := congrArg (fun v => BitVec.getLsbD v i) same
    simp [small] at bit
  · exact fun set => if_pos set

theorem entryTaken_set (mask : UInt8) (i j : Nat) (small : j < 8) :
    entryTaken (mask ||| tempMask i) j = (entryTaken mask j || decide (j = i)) := by
  simp [entryTaken, UInt8.toBitVec_or, tempMask_toBitVec, small]

theorem entryTaken_clear (mask : UInt8) (i j : Nat) (small : j < 8) :
    entryTaken (mask &&& ~~~tempMask i) j = (entryTaken mask j && !decide (j = i)) := by
  simp [entryTaken, UInt8.toBitVec_and, UInt8.toBitVec_not, tempMask_toBitVec, small]

variable {maxMacAddr}

theorem usedEntries_set (mask : UInt8) {i : Nat} (few : maxMacAddr ≤ 8) (inside : i < maxMacAddr)
    (free : entryTaken mask i = false) :
    (usedEntries maxMacAddr (mask ||| tempMask i)).card =
      (usedEntries maxMacAddr mask).card + 1 := by
  have fresh : i ∉ usedEntries maxMacAddr mask := by simp [usedEntries, free]
  rw [← Finset.card_insert_of_notMem fresh]
  congr 1
  ext j
  simp only [usedEntries, Finset.mem_filter, Finset.mem_range, Finset.mem_insert]
  by_cases small : j < maxMacAddr
  · rw [entryTaken_set mask i j (by omega)]
    simp only [small, true_and, Bool.or_eq_true, decide_eq_true_eq]
    exact or_comm
  · simp only [small, false_and, or_false, false_iff]
    omega

theorem usedEntries_clear (mask : UInt8) {i : Nat} (few : maxMacAddr ≤ 8)
    (inside : i < maxMacAddr) (set : entryTaken mask i = true) :
    (usedEntries maxMacAddr (mask &&& ~~~tempMask i)).card =
      (usedEntries maxMacAddr mask).card - 1 := by
  have old : i ∈ usedEntries maxMacAddr mask := by simp [usedEntries, set, inside]
  rw [← Finset.card_erase_of_mem old]
  congr 1
  ext j
  simp only [usedEntries, Finset.mem_filter, Finset.mem_range, Finset.mem_erase]
  by_cases small : j < maxMacAddr
  · rw [entryTaken_clear mask i j (by omega)]
    simp only [small, true_and, Bool.and_eq_true, Bool.not_eq_true', decide_eq_false_iff_not]
    exact and_comm
  · simp [small]

theorem firstFree_some {mask : UInt8} {i : Nat} (few : maxMacAddr ≤ 8)
    (found : firstFree maxMacAddr mask = some i) : i < maxMacAddr ∧ entryTaken mask i = false := by
  have inside : i < maxMacAddr := List.mem_range.mp (List.mem_of_find?_eq_some found)
  have free := List.find?_some found
  rw [skipped_iff mask (by omega)] at free
  exact ⟨inside, by simpa using free⟩

theorem firstFree_none {mask : UInt8} (few : maxMacAddr ≤ 8)
    (full : firstFree maxMacAddr mask = none) :
    (usedEntries maxMacAddr mask).card = maxMacAddr := by
  have all : usedEntries maxMacAddr mask = Finset.range maxMacAddr := by
    rw [usedEntries, Finset.filter_eq_self]
    intro i member
    have inside := Finset.mem_range.mp member
    have skipped := List.find?_eq_none.mp full i (List.mem_range.mpr inside)
    rw [skipped_iff mask (by omega)] at skipped
    simpa using skipped
  rw [all, Finset.card_range]

theorem firstUsed_some {mask : UInt8} {i : Nat} (few : maxMacAddr ≤ 8)
    (found : firstUsed maxMacAddr mask = some i) : i < maxMacAddr ∧ entryTaken mask i = true := by
  have inside : i < maxMacAddr := List.mem_range.mp (List.mem_of_find?_eq_some found)
  have set := List.find?_some found
  rw [skipped_iff mask (by omega)] at set
  exact ⟨inside, set⟩

theorem firstUsed_none {mask : UInt8} (few : maxMacAddr ≤ 8)
    (unused : firstUsed maxMacAddr mask = none) : (usedEntries maxMacAddr mask).card = 0 := by
  rw [Finset.card_eq_zero, usedEntries, Finset.filter_eq_empty_iff]
  intro i member
  have inside := Finset.mem_range.mp member
  have skipped := List.find?_eq_none.mp unused i (List.mem_range.mpr inside)
  rwa [skipped_iff mask (by omega)] at skipped

theorem usedEntries_le (mask : UInt8) : (usedEntries maxMacAddr mask).card ≤ maxMacAddr :=
  (Finset.card_filter_le _ _).trans_eq (Finset.card_range _)

/-- One update of a mask is one update of the number of its entries. -/
theorem filterUpdate_slots (few : maxMacAddr ≤ 8) (hash : FilterAction → List HashOp)
    (unknown : Err) (mask : UInt8) (s : Slots maxMacAddr)
    (same : (usedEntries maxMacAddr mask).card = s.used) (action : FilterAction) :
    (filterUpdate maxMacAddr hash unknown mask action).2 = (s.update hash unknown action).2 ∧
      (usedEntries maxMacAddr (filterUpdate maxMacAddr hash unknown mask action).1).card =
        (s.update hash unknown action).1.used := by
  cases action with
  | other => exact ⟨rfl, same⟩
  | add =>
    rw [filterUpdate, Slots.update, Slots.take]
    cases found : firstFree maxMacAddr mask with
    | none =>
      have full := firstFree_none few found
      rw [dif_neg (by omega)]
      exact ⟨rfl, same⟩
    | some i =>
      obtain ⟨inside, free⟩ := firstFree_some few found
      have more := usedEntries_set mask few inside free
      have limit : (usedEntries maxMacAddr (mask ||| tempMask i)).card ≤ maxMacAddr :=
        usedEntries_le _
      rw [dif_pos (by omega)]
      exact ⟨rfl, by rw [more, same]⟩
  | delete =>
    rw [filterUpdate, Slots.update, Slots.giveBack]
    cases found : firstUsed maxMacAddr mask with
    | none =>
      have unused := firstUsed_none few found
      rw [if_neg (by omega)]
      exact ⟨rfl, same⟩
    | some i =>
      obtain ⟨inside, set⟩ := firstUsed_some few found
      have fewer := usedEntries_clear mask few inside set
      have old : i ∈ usedEntries maxMacAddr mask := by simp [usedEntries, set, inside]
      have some_used := Finset.card_pos.mpr ⟨i, old⟩
      rw [if_pos (by omega)]
      exact ⟨rfl, by rw [fewer, same]⟩

def SameCount (f : Filters) (s : Slots maxMacAddr × Slots maxMacAddr) : Prop :=
  (usedEntries maxMacAddr f.mcastEntryMask).card = s.1.used ∧
    (usedEntries maxMacAddr f.mld6McastEntryMask).card = s.2.used

theorem filterCall_slots (few : maxMacAddr ≤ 8) (f : Filters)
    (s : Slots maxMacAddr × Slots maxMacAddr) (counted : SameCount f s) (call : FilterCall) :
    (Filters.call scopes maxMacAddr f call).2 = (Slots.call scopes s call).2 ∧
      SameCount (Filters.call scopes maxMacAddr f call).1 (Slots.call scopes s call).1 := by
  obtain ⟨first, second⟩ := counted
  cases call with
  | igmp group action =>
    have idle : ¬(group[0] < 224 && group[0] > 239) := by
      intro guard
      obtain ⟨below, above⟩ := Bool.and_eq_true_iff.mp guard
      have low : group[0].toNat < 224 := UInt8.lt_iff_toNat_lt.mp (of_decide_eq_true below)
      have high : 239 < group[0].toNat := UInt8.lt_iff_toNat_lt.mp (of_decide_eq_true above)
      omega
    have one := filterUpdate_slots few (xemacpsifMacHashUpdate group) .ok f.mcastEntryMask s.1
      first action
    rw [Filters.call, xemacpsifMacFilterUpdate, if_neg idle]
    exact ⟨one.1, one.2, second⟩
  | mld group action =>
    have one := filterUpdate_slots few (xemacpsifMld6MacHashUpdate group) .arg
      f.mld6McastEntryMask s.2 second action
    rw [Filters.call, xemacpsifMld6MacFilterUpdate, Slots.call]
    by_cases inside : xemacpsifIp6AddrIsmulticast scopes group = true
    · rw [if_neg (by simp [inside]), if_pos inside]
      exact ⟨one.1, first, one.2⟩
    · rw [if_pos (by simp [inside]), if_neg inside]
      exact ⟨rfl, first, second⟩

theorem hashUpdate_sets (mac : List UInt8) (action : FilterAction) :
    (hashUpdate mac action).countP HashOp.sets = if action = .add then 1 else 0 := by
  cases action <;> rfl

theorem hashUpdate_deletes (mac : List UInt8) (action : FilterAction) :
    (hashUpdate mac action).countP HashOp.deletes = if action = .delete then 1 else 0 := by
  cases action <;> rfl

theorem slotsUpdate_balanced (s : Slots maxMacAddr) (mac : List UInt8) (unknown : Err)
    (action : FilterAction) :
    s.used + (s.update (hashUpdate mac) unknown action).2.2.countP HashOp.sets =
      (s.update (hashUpdate mac) unknown action).2.2.countP HashOp.deletes +
        (s.update (hashUpdate mac) unknown action).1.used := by
  cases action with
  | other => simp [Slots.update]
  | add =>
    rw [Slots.update, Slots.take]
    by_cases room : s.used < maxMacAddr
    · simp [room, hashUpdate_sets, hashUpdate_deletes]
    · simp [room]
  | delete =>
    rw [Slots.update, Slots.giveBack]
    by_cases some_used : 0 < s.used
    · simp only [some_used, if_true, hashUpdate_sets, hashUpdate_deletes, reduceCtorEq, if_false]
      omega
    · simp [some_used]

theorem slotsCall_balanced (s : Slots maxMacAddr × Slots maxMacAddr) (call : FilterCall) :
    s.1.used + s.2.used + (Slots.call scopes s call).2.2.countP HashOp.sets =
      (Slots.call scopes s call).2.2.countP HashOp.deletes +
        ((Slots.call scopes s call).1.1.used + (Slots.call scopes s call).1.2.used) := by
  cases call with
  | igmp group action =>
    have one := slotsUpdate_balanced s.1
      [0x01, 0x00, 0x5E, group[1] &&& 0x7F, group[2], group[3]] .ok action
    have same : xemacpsifMacHashUpdate group = hashUpdate
      [0x01, 0x00, 0x5E, group[1] &&& 0x7F, group[2], group[3]] := rfl
    simp only [Slots.call, same]
    omega
  | mld group action =>
    have one := slotsUpdate_balanced s.2
      [0x33, 0x33, group[12], group[13], group[14], group[15]] .arg action
    have same : xemacpsifMld6MacHashUpdate group = hashUpdate
      [0x33, 0x33, group[12], group[13], group[14], group[15]] := rfl
    rw [Slots.call]
    split
    · simp only [same]
      omega
    · simp

/-- The filters answer, and update the hash register, as two counters of entries that forget
which group took an entry: so the addresses in the register are as many more than those
removed from it as there are entries taken. -/
theorem filters_refine_slots (few : maxMacAddr ≤ 8) (calls : List FilterCall) :
    let answers := outputs (Filters.call scopes maxMacAddr) .start calls
    let filters := after (Filters.call scopes maxMacAddr) .start calls
    answers = outputs (Slots.call scopes) (.empty, (.empty : Slots maxMacAddr)) calls ∧
      (answers.map (fun o => o.2.countP HashOp.sets)).sum =
        (answers.map (fun o => o.2.countP HashOp.deletes)).sum +
          ((usedEntries maxMacAddr filters.mcastEntryMask).card +
            (usedEntries maxMacAddr filters.mld6McastEntryMask).card) := by
  have clear : (usedEntries maxMacAddr 0).card = 0 := by
    simp [usedEntries, entryTaken]
  have run := outputs_simulation (Filters.call scopes maxMacAddr) (Slots.call scopes)
    SameCount (filterCall_slots scopes few) calls
    (show SameCount .start (.empty, (.empty : Slots maxMacAddr)) from ⟨clear, clear⟩)
  have total := balance_count (Slots.call scopes) (fun s => s.1.used + s.2.used)
    (fun o => o.2.countP HashOp.sets) (fun o => o.2.countP HashOp.deletes)
    (slotsCall_balanced scopes) calls (.empty, (.empty : Slots maxMacAddr))
  refine ⟨run.1, ?_⟩
  rw [run.1, run.2.1, run.2.2]
  simpa [Slots.empty] using total

/-- Two groups of which only the first is added. -/
def filterCallsExample : List FilterCall :=
  [.igmp #v[224, 0, 0, 107] .add, .igmp #v[239, 1, 2, 3] .delete, .igmp #v[224, 0, 0, 107] .delete]

-- The other group is removed with success, and the first one is then no longer found.
theorem filterCallsExample_answers :
    (outputs (Filters.call [] 4) .start filterCallsExample).map Prod.fst = [.ok, .ok, .mem] ∧
      outputs (Filters.call [] 4) .start filterCallsExample =
        outputs (Slots.call []) (.empty, (.empty : Slots 4)) filterCallsExample :=
  ⟨by decide, (filters_refine_slots [] (by decide) filterCallsExample).1⟩

end StandalonePtp
