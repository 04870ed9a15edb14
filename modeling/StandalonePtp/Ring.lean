import Mathlib.Data.List.Iterate

/-! Rings of descriptors between a driver and a device. Every descriptor is free, allocated,
with the device, or back from it, and moves on in the order of the ring. -/
namespace StandalonePtp

/-- The calls of a ring, with descriptors as indices; `none` is an error. The device may have
moved between two calls. -/
structure BdRing (R H : Type) where
  create : R → R
  next : Nat → Nat
  freeCnt : R → Nat
  alloc : R → Nat → Option (Nat × R)
  unAlloc : R → Nat → Nat → R
  toHw : R → Nat → Nat → Option R
  fromHw : R → Nat → Nat × Nat × R
  free : R → Nat → Nat → Option R
  device : R → H → R

/-- Who has which descriptors, in the order of the ring. -/
structure Groups where
  free : List Nat
  pre : List Nat
  hw : List Nat
  post : List Nat

namespace BdRing

variable {R H : Type} (B : BdRing R H)

/-- The descriptors of a set that is known by its first one and its size. -/
def set (first k : Nat) : List Nat := List.iterate B.next first k

@[simp] theorem set_zero (first : Nat) : B.set first 0 = [] := rfl

@[simp] theorem set_succ (first k : Nat) : B.set first (k + 1) = first :: B.set (B.next first) k :=
  rfl

@[simp] theorem length_set (first k : Nat) : (B.set first k).length = k :=
  List.length_iterate B.next first k

theorem mem_set {first k i : Nat} : i ∈ B.set first k ↔ ∃ m < k, B.next^[m] first = i := by
  rw [set, List.mem_iterate]
  exact ⟨fun ⟨m, inside, same⟩ => ⟨m, inside, same.symm⟩,
    fun ⟨m, inside, same⟩ => ⟨m, inside, same.symm⟩⟩

/-- What the calls do to the groups of a ring of `n` descriptors. -/
structure Lawful (n : Nat) (view : R → Groups) : Prop where
  create : ∀ r, view (B.create r) = ⟨List.range n, [], [], []⟩
  freeCnt : ∀ r, B.freeCnt r = (view r).free.length
  alloc : ∀ r k, k ≤ (view r).free.length → ∃ first r' rest, B.alloc r k = some (first, r') ∧
    (view r).free = B.set first k ++ rest ∧
    view r' = ⟨rest, (view r).pre ++ B.set first k, (view r).hw, (view r).post⟩
  alloc_none : ∀ r k, (view r).free.length < k → B.alloc r k = none
  toHw : ∀ r k first, (view r).pre = B.set first k → ∃ r', B.toHw r k first = some r' ∧
    view r' = ⟨(view r).free, [], (view r).hw ++ B.set first k, (view r).post⟩
  fromHw : ∀ r limit, (B.fromHw r limit).1 ≤ limit ∧ ∃ rest,
    (view r).hw = B.set (B.fromHw r limit).2.1 (B.fromHw r limit).1 ++ rest ∧
    view (B.fromHw r limit).2.2 = ⟨(view r).free, (view r).pre, rest,
      (view r).post ++ B.set (B.fromHw r limit).2.1 (B.fromHw r limit).1⟩
  free : ∀ r k first, (view r).post = B.set first k → ∃ r', B.free r k first = some r' ∧
    view r' = ⟨(view r).free ++ B.set first k, (view r).pre, (view r).hw, []⟩
  device : ∀ r h, view (B.device r h) = view r

section
variable {B} {n : Nat} {view : R → Groups} (lawful : B.Lawful n view) {r : R} (h : H) (limit : Nat)
include lawful

/-- Between two calls nothing is allocated and nothing back: then a round that frees what the
device has given back moves it behind the free descriptors. -/
theorem Lawful.collected (pre : (view r).pre = []) (post : (view r).post = []) :
    let back := B.fromHw (B.device r h) limit
    ∃ rest, (view r).hw = B.set back.2.1 back.1 ++ rest ∧
      view ((B.free back.2.2 back.1 back.2.1).getD back.2.2) =
        ⟨(view r).free ++ B.set back.2.1 back.1, [], rest, []⟩ := by
  intro back
  obtain ⟨-, rest, hw, taken⟩ := lawful.fromHw (B.device r h) limit
  rw [lawful.device] at hw taken
  rw [pre, post, List.nil_append] at taken
  obtain ⟨ring, released, freed⟩ := lawful.free back.2.2 back.1 back.2.1 (by rw [taken])
  rw [taken] at freed
  exact ⟨rest, hw, by rw [released]; exact freed⟩

theorem Lawful.idle (none : (B.fromHw (B.device r h) limit).1 = 0) :
    view (B.fromHw (B.device r h) limit).2.2 = view r := by
  obtain ⟨-, rest, hw, taken⟩ := lawful.fromHw (B.device r h) limit
  rw [none, set_zero, List.nil_append, lawful.device] at hw
  rw [none, set_zero, List.append_nil, lawful.device, ← hw] at taken
  exact taken

end

end BdRing

/- A ring kept as counters of its four groups, which follow each other from `start` on. -/

structure Counted (n : Nat) where
  start : Nat
  post : Nat
  hw : Nat
  pre : Nat
  free : Nat
  done : Nat
  whole : post + hw + pre + free = n
  turn : (fun i => (i + 1) % n)^[n] start = start

namespace Counted

variable {n : Nat}

def next (n i : Nat) : Nat := (i + 1) % n

theorem iterate_next {k : Nat} (inside : k < n) : (next n)^[k] 0 = k := by
  induction k with
  | zero => rfl
  | succ k ih =>
    rw [Function.iterate_succ_apply', ih (by omega), next, Nat.mod_eq_of_lt inside]

theorem next_turn (n : Nat) : (next n)^[n] 0 = 0 := by
  cases n with
  | zero => rfl
  | succ n =>
    rw [Function.iterate_succ_apply', iterate_next (Nat.lt_succ_self n), next, Nat.mod_self]

theorem iterate_range (n : Nat) : List.iterate (next n) 0 n = List.range n := by
  apply List.ext_getElem
  · simp
  · intro i inside _
    rw [List.getElem_iterate, List.getElem_range]
    exact iterate_next (by simpa using inside)

def hwHead (r : Counted n) : Nat := (next n)^[r.post] r.start

def preHead (r : Counted n) : Nat := (next n)^[r.hw] r.hwHead

def freeHead (r : Counted n) : Nat := (next n)^[r.pre] r.preHead

def view (r : Counted n) : Groups where
  free := List.iterate (next n) r.freeHead r.free
  pre := List.iterate (next n) r.preHead r.pre
  hw := List.iterate (next n) r.hwHead r.hw
  post := List.iterate (next n) r.start r.post

/-- The group behind all others ends where the first one starts. -/
theorem free_end (r : Counted n) : (next n)^[r.free] r.freeHead = r.start := by
  have turn : (next n)^[n] r.start = r.start := r.turn
  simp only [freeHead, preHead, hwHead, ← Function.iterate_add_apply]
  have whole : r.free + (r.pre + (r.hw + r.post)) = n := by
    have := r.whole
    omega
  rw [whole, turn]

def create (n : Nat) : Counted n := ⟨0, 0, 0, 0, n, 0, by omega, next_turn n⟩

/- The moves from group to group. -/

def allocated (r : Counted n) (k : Nat) (fits : k ≤ r.free) : Counted n :=
  { r with pre := r.pre + k, free := r.free - k, whole := by have := r.whole; omega }

def unallocated (r : Counted n) (k : Nat) (fits : k ≤ r.pre) : Counted n :=
  { r with pre := r.pre - k, free := r.free + k, whole := by have := r.whole; omega }

def submitted (r : Counted n) (k : Nat) (fits : k ≤ r.pre) : Counted n :=
  { r with hw := r.hw + k, pre := r.pre - k, whole := by have := r.whole; omega }

def returned (r : Counted n) (k : Nat) (fits : k ≤ r.hw) : Counted n :=
  { r with
    post := r.post + k
    hw := r.hw - k
    done := r.done - k
    whole := by have := r.whole; omega }

theorem turn_anywhere (r : Counted n) (k : Nat) :
    (next n)^[n] ((next n)^[k] r.start) = (next n)^[k] r.start := by
  have turn : (next n)^[n] r.start = r.start := r.turn
  rw [← Function.iterate_add_apply, Nat.add_comm, Function.iterate_add_apply, turn]

def freed (r : Counted n) (k : Nat) (fits : k ≤ r.post) : Counted n :=
  { r with
    start := (next n)^[k] r.start
    post := r.post - k
    free := r.free + k
    whole := by have := r.whole; omega
    turn := r.turn_anywhere k }

/-- The calls; the device is done with as many descriptors as it is told. -/
def ring (n : Nat) : BdRing (Counted n) Nat where
  create _ := create n
  next := next n
  freeCnt := free
  alloc r k := if fits : k ≤ r.free then some (r.freeHead, r.allocated k fits) else none
  unAlloc r k _ := if fits : k ≤ r.pre then r.unallocated k fits else r
  toHw r k first :=
    if fits : k ≤ r.pre ∧ (k = 0 ∨ first = r.preHead) then some (r.submitted k fits.1) else none
  fromHw r limit :=
    (min limit (min r.done r.hw), r.hwHead, r.returned (min limit (min r.done r.hw)) (by omega))
  free r k first :=
    if fits : k ≤ r.post ∧ (k = 0 ∨ first = r.start) then some (r.freed k fits.1) else none
  device r h := { r with done := h }

/-- Sets of one content are of one size, and they start alike. -/
theorem iterate_inj {f : Nat → Nat} {a b m k : Nat}
    (same : List.iterate f a m = List.iterate f b k) : m = k ∧ (k = 0 ∨ b = a) := by
  have size : m = k := by simpa using congrArg List.length same
  subst size
  refine ⟨rfl, ?_⟩
  cases m with
  | zero => exact .inl rfl
  | succ m => exact .inr (List.cons.inj same).1.symm

theorem iterate_split {f : Nat → Nat} {k m : Nat} (a : Nat) (fits : k ≤ m) :
    List.iterate f a m = List.iterate f a k ++ List.iterate f (f^[k] a) (m - k) := by
  rw [← List.iterate_add, Nat.add_sub_cancel' fits]

theorem view_allocated (r : Counted n) (k : Nat) (fits : k ≤ r.free) :
    (r.allocated k fits).view =
      ⟨List.iterate (next n) ((next n)^[k] r.freeHead) (r.free - k),
        r.view.pre ++ List.iterate (next n) r.freeHead k, r.view.hw, r.view.post⟩ := by
  have head : (r.allocated k fits).freeHead = (next n)^[k] r.freeHead := by
    change (next n)^[r.pre + k] r.preHead = _
    rw [Nat.add_comm, Function.iterate_add_apply]
    rfl
  rw [view, head]
  simp only [view, Groups.mk.injEq]
  exact ⟨rfl, List.iterate_add _ _ _ _, rfl, rfl⟩

theorem view_submitted (r : Counted n) :
    (r.submitted r.pre (Nat.le_refl _)).view =
      ⟨r.view.free, [], r.view.hw ++ r.view.pre, r.view.post⟩ := by
  have none : r.pre - r.pre = 0 := Nat.sub_self _
  have pre : (r.submitted r.pre (Nat.le_refl _)).preHead = (next n)^[r.pre] r.preHead := by
    change (next n)^[r.hw + r.pre] r.hwHead = _
    rw [Nat.add_comm, Function.iterate_add_apply]
    rfl
  have head : (r.submitted r.pre (Nat.le_refl _)).freeHead = r.freeHead := by
    rw [freeHead, pre]
    change (next n)^[r.pre - r.pre] _ = _
    rw [none]
    rfl
  rw [view, head]
  simp only [view, Groups.mk.injEq]
  refine ⟨rfl, ?_, List.iterate_add _ _ _ _, rfl⟩
  change List.iterate (next n) _ (r.pre - r.pre) = []
  rw [none]
  rfl

theorem view_returned (r : Counted n) (k : Nat) (fits : k ≤ r.hw) :
    (r.returned k fits).view =
      ⟨r.view.free, r.view.pre, List.iterate (next n) ((next n)^[k] r.hwHead) (r.hw - k),
        r.view.post ++ List.iterate (next n) r.hwHead k⟩ := by
  have head : (r.returned k fits).hwHead = (next n)^[k] r.hwHead := by
    change (next n)^[r.post + k] r.start = _
    rw [Nat.add_comm, Function.iterate_add_apply]
    rfl
  have pre : (r.returned k fits).preHead = r.preHead := by
    rw [preHead, head]
    change (next n)^[r.hw - k] _ = _
    rw [← Function.iterate_add_apply, Nat.sub_add_cancel fits]
    rfl
  have free : (r.returned k fits).freeHead = r.freeHead := by
    rw [freeHead, pre]
    rfl
  rw [view, free, pre, head]
  simp only [view, Groups.mk.injEq]
  exact ⟨rfl, rfl, rfl, List.iterate_add _ _ _ _⟩

theorem view_freed (r : Counted n) :
    (r.freed r.post (Nat.le_refl _)).view =
      ⟨r.view.free ++ r.view.post, r.view.pre, r.view.hw, []⟩ := by
  have none : r.post - r.post = 0 := Nat.sub_self _
  have head : (r.freed r.post (Nat.le_refl _)).hwHead = r.hwHead := by
    change (next n)^[r.post - r.post] ((next n)^[r.post] r.start) = _
    rw [none]
    rfl
  have pre : (r.freed r.post (Nat.le_refl _)).preHead = r.preHead := by
    rw [preHead, head]
    rfl
  have free : (r.freed r.post (Nat.le_refl _)).freeHead = r.freeHead := by
    rw [freeHead, pre]
    rfl
  rw [view, free, pre, head]
  simp only [view, Groups.mk.injEq]
  refine ⟨?_, rfl, rfl, ?_⟩
  · change List.iterate (next n) r.freeHead (r.free + r.post) = _
    rw [List.iterate_add, r.free_end]
  · change List.iterate (next n) _ (r.post - r.post) = []
    rw [none]
    rfl

theorem lawful (n : Nat) : (ring n).Lawful n view where
  create _ := by
    have all : List.iterate (next n) 0 n = List.range n := iterate_range n
    simp [ring, create, view, freeHead, preHead, hwHead, all]
  freeCnt r := (List.length_iterate _ _ _).symm
  alloc r k fits := by
    have fits : k ≤ r.free := by simpa [view] using fits
    exact ⟨r.freeHead, _, _, dif_pos fits, iterate_split r.freeHead fits,
      view_allocated r k fits⟩
  alloc_none r k full := by
    have full : r.free < k := by simpa [view] using full
    exact dif_neg (Nat.not_le.mpr full)
  toHw r k first whole := by
    obtain ⟨rfl, start⟩ := iterate_inj whole
    refine ⟨_, dif_pos ⟨Nat.le_refl _, start⟩, ?_⟩
    rw [view_submitted, whole]
  fromHw r limit := by
    have fits : min limit (min r.done r.hw) ≤ r.hw := by omega
    exact ⟨Nat.min_le_left _ _, _, iterate_split r.hwHead fits, view_returned r _ fits⟩
  free r k first whole := by
    obtain ⟨rfl, start⟩ := iterate_inj whole
    refine ⟨_, dif_pos ⟨Nat.le_refl _, start⟩, ?_⟩
    rw [view_freed, whole]
  device _ _ := rfl

end Counted

end StandalonePtp
