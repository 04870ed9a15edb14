/-! Queues of packets between an interrupt and the program that takes them out. -/
namespace StandalonePtp

/-- The calls of a queue; `none` is the negative answer of `pq_enqueue` and the null pointer of
`pq_dequeue`. -/
structure PqQueue (Q P : Type) where
  pqCreateQueue : Q
  pqEnqueue : Q → P → Option Q
  pqDequeue : Q → Option (P × Q)
  pqQlength : Q → Nat

/-- First in, first out. Nothing is said of when the queue refuses a packet. -/
structure PqQueue.Lawful {Q P : Type} (pq : PqQueue Q P) (content : Q → List P) : Prop where
  pqCreateQueue : content pq.pqCreateQueue = []
  pqEnqueue : ∀ q p q', pq.pqEnqueue q p = some q' → content q' = content q ++ [p]
  pqDequeue : ∀ q p rest, content q = p :: rest →
    ∃ q', pq.pqDequeue q = some (p, q') ∧ content q' = rest
  pqQlength : ∀ q, pq.pqQlength q = (content q).length

/- A queue with room for a fixed number of packets. -/

structure Bounded (n : Nat) (P : Type) where
  content : List P
  fits : content.length ≤ n

namespace Bounded

variable {n : Nat} {P : Type}

def enqueue (q : Bounded n P) (p : P) : Option (Bounded n P) :=
  if room : q.content.length < n then
    some ⟨q.content ++ [p], by rw [List.length_append]; exact room⟩
  else none

def dequeue (q : Bounded n P) : Option (P × Bounded n P) :=
  match q with
  | ⟨[], _⟩ => none
  | ⟨p :: rest, fits⟩ => some (p, ⟨rest, Nat.le_of_succ_le fits⟩)

def queue (n : Nat) (P : Type) : PqQueue (Bounded n P) P where
  pqCreateQueue := ⟨[], Nat.zero_le n⟩
  pqEnqueue := enqueue
  pqDequeue := dequeue
  pqQlength q := q.content.length

theorem lawful (n : Nat) (P : Type) : (queue n P).Lawful content where
  pqCreateQueue := rfl
  pqEnqueue q p q' entered := by
    change enqueue q p = some q' at entered
    rw [enqueue] at entered
    split at entered
    · obtain rfl := Option.some.inj entered
      rfl
    · contradiction
  pqDequeue q p rest head := by
    obtain ⟨packets, fits⟩ := q
    cases head
    exact ⟨⟨rest, Nat.le_of_succ_le fits⟩, rfl, rfl⟩
  pqQlength _ := rfl

end Bounded

end StandalonePtp
