import Mathlib.Algebra.Ring.Nat
import Mathlib.Data.List.Forall2
import StandalonePtp.Run

/-! Items that pass through a machine: what it holds, what each step takes in and what each
step gives out. Balanced steps make balanced runs, in order or up to order. -/
namespace StandalonePtp.Run

variable {S I O V : Type}

/-- A comparison of lists of items that can be made piece by piece. -/
structure Piecewise (rel : List V → List V → Prop) : Prop where
  refl : ∀ a, rel a a
  trans : ∀ {a b c}, rel a b → rel b c → rel a c
  append : ∀ {a b} c, rel a b → rel (a ++ c) (b ++ c)
  prepend : ∀ {a b} c, rel a b → rel (c ++ a) (c ++ b)

theorem piecewise_eq : Piecewise (V := V) Eq :=
  ⟨fun _ => rfl, Eq.trans, fun _ h => by rw [h], fun _ h => by rw [h]⟩

theorem piecewise_perm : Piecewise (V := V) List.Perm :=
  ⟨.refl, .trans, fun c h => h.append_right c, fun c h => h.append_left c⟩

theorem balance {rel : List V → List V → Prop} (piecewise : Piecewise rel)
    (step : S → I → S × O) (P : S → Prop) (ok : I → Prop) (held : S → List V)
    (taken given : O → List V) (keeps : ∀ s i, P s → ok i → P (step s i).1)
    (balanced : ∀ s i, P s → ok i →
      rel (held s ++ taken (step s i).2) (given (step s i).2 ++ held (step s i).1))
    (xs : List I) (inputs : ∀ i ∈ xs, ok i) {s : S} (initial : P s) :
    rel (held s ++ (outputs step s xs).flatMap taken)
      ((outputs step s xs).flatMap given ++ held (after step s xs)) := by
  induction xs generalizing s with
  | nil => simpa [outputs, after] using piecewise.refl (held s)
  | cons x xs ih =>
    have first := balanced s x initial (inputs x List.mem_cons_self)
    have rest := ih (fun i hi => inputs i (List.mem_cons_of_mem _ hi))
      (keeps s x initial (inputs x List.mem_cons_self))
    simp only [outputs, after, List.flatMap_cons, List.append_assoc]
    rw [← List.append_assoc]
    refine piecewise.trans (piecewise.append _ first) ?_
    rw [List.append_assoc]
    exact piecewise.prepend _ rest

theorem perm_surplus_iff {a b extra : List V} (more : (a ++ extra).Perm b) :
    a.Perm b ↔ extra = [] := by
  constructor
  · intro even
    have lengths := more.length_eq
    rw [← even.length_eq, List.length_append] at lengths
    exact List.length_eq_zero_iff.mp (by omega)
  · rintro rfl
    rwa [List.append_nil] at more

/-- What the steps of a run add up to. -/
def gathered (step : S → I → S × O) (amount : S → I → List V) (s : S) : List I → List V
  | [] => []
  | i :: rest => amount s i ++ gathered step amount (step s i).1 rest

theorem gathered_nil_iff (step : S → I → S × O) (P : S → Prop) (amount : S → I → List V)
    (fine : S → I → Prop) (keeps : ∀ s i, P s → P (step s i).1)
    (none_iff : ∀ s i, P s → (amount s i = [] ↔ fine s i)) (xs : List I) {s : S}
    (initial : P s) : gathered step amount s xs = [] ↔ Along step fine s xs := by
  induction xs generalizing s with
  | nil => exact iff_of_true rfl trivial
  | cons x xs ih =>
    rw [gathered, List.append_eq_nil_iff, none_iff s x initial, ih (keeps s x initial), Along]

/-- Steps that may give out more than they hold: a run gives out too much what its steps do. -/
theorem balance_surplus (step : S → I → S × O) (P : S → Prop) (held : S → List V)
    (taken given : O → List V) (surplus : S → I → List V) (keeps : ∀ s i, P s → P (step s i).1)
    (balanced : ∀ s i, P s → (held s ++ taken (step s i).2 ++ surplus s i).Perm
      (given (step s i).2 ++ held (step s i).1)) (xs : List I) {s : S} (initial : P s) :
    (held s ++ (outputs step s xs).flatMap taken ++ gathered step surplus s xs).Perm
      ((outputs step s xs).flatMap given ++ held (after step s xs)) := by
  induction xs generalizing s with
  | nil => simp [outputs, after, gathered]
  | cons x xs ih =>
    classical
    refine List.perm_iff_count.mpr (fun v => ?_)
    have first := (balanced s x initial).count_eq v
    have rest := (ih (keeps s x initial)).count_eq v
    simp only [outputs, after, gathered, List.flatMap_cons, List.count_append] at first rest ⊢
    omega

/-- A size that grows by what each step gains and shrinks by what it loses. -/
theorem balance_count (step : S → I → S × O) (size : S → Nat) (gained lost : O → Nat)
    (balanced : ∀ s i, size s + gained (step s i).2 = lost (step s i).2 + size (step s i).1)
    (xs : List I) (s : S) :
    size s + ((outputs step s xs).map gained).sum =
      ((outputs step s xs).map lost).sum + size (after step s xs) := by
  induction xs generalizing s with
  | nil => simp [outputs, after]
  | cons x xs ih =>
    have first := balanced s x
    have rest := ih (step s x).1
    simp only [outputs, after, List.map_cons, List.sum_cons]
    omega

/-- What every step answers in a good state, the whole run answers. -/
theorem outputs_all (step : S → I → S × O) (P : S → Prop) (Q : O → Prop)
    (keeps : ∀ s i, P s → P (step s i).1) (answers : ∀ s i, P s → Q (step s i).2)
    (xs : List I) {s : S} (initial : P s) : ∀ o ∈ outputs step s xs, Q o := by
  induction xs generalizing s with
  | nil => exact fun o impossible => absurd impossible List.not_mem_nil
  | cons x xs ih =>
    intro o member
    rcases List.mem_cons.mp member with rfl | later
    · exact answers s x initial
    · exact ih (keeps s x initial) o later

/-- One observation for each marked input, in their order. -/
theorem outputs_match (step : S → I → S × O) (P : S → Prop) (ok : I → Prop) (mark : I → Bool)
    (observe : O → List V) (rel : V → I → Prop) (keeps : ∀ s i, P s → ok i → P (step s i).1)
    (silent : ∀ s i, mark i = false → observe (step s i).2 = [])
    (single : ∀ s i, P s → ok i → mark i = true → ∃ v, observe (step s i).2 = [v] ∧ rel v i)
    (xs : List I) (inputs : ∀ i ∈ xs, ok i) {s : S} (initial : P s) :
    List.Forall₂ rel ((outputs step s xs).flatMap observe) (xs.filter mark) := by
  induction xs generalizing s with
  | nil => exact .nil
  | cons x xs ih =>
    have good := inputs x List.mem_cons_self
    have rest := ih (fun i hi => inputs i (List.mem_cons_of_mem _ hi)) (keeps s x initial good)
    rw [outputs, List.flatMap_cons]
    cases marked : mark x with
    | false =>
      rw [silent s x marked, List.filter_cons_of_neg (by simp [marked])]
      exact rest
    | true =>
      obtain ⟨v, observed, related⟩ := single s x initial good marked
      rw [observed, List.filter_cons_of_pos marked]
      exact .cons related rest

end StandalonePtp.Run
