import Mathlib.Logic.Function.Iterate
import StandalonePtp.Truncation

/-! A loop that corrects an error by its proportional part and a fraction of its
integral, and that leaves small errors alone. All quantities are exact integers. -/
namespace StandalonePtp.Servo

open Truncation

structure Gains where
  divisor : Nat
  boundary : Nat
  divisor_pos : 0 < divisor
  boundary_pos : 0 < boundary

structure State where
  error : Int
  integral : Int
  held : Int
  deriving DecidableEq, Repr

variable (g : Gains)

def sum (s : State) : Int := s.integral + s.error

def control (s : State) : Int := s.error + (sum s).tdiv g.divisor

/-- No correction is computed; the second condition looks at one side only. -/
def Quiet (s : State) : Prop := (control g s).natAbs < g.boundary ∧ -(g.boundary : Int) < s.error

instance (s : State) : Decidable (Quiet g s) := inferInstanceAs (Decidable (_ ∧ _))

/-- The held correction is applied whether it was computed now or before. -/
def next (s : State) : State :=
  if Quiet g s then ⟨s.error - s.held, sum s, s.held⟩
  else ⟨s.error - control g s, sum s, control g s⟩

def Fresh (s : State) : Prop := Quiet g s → s.held = 0

/- The truncated fraction keeps the sign. -/

def SameSign (a b : Int) : Prop := (0 ≤ a ∧ 0 ≤ b) ∨ (a ≤ 0 ∧ b ≤ 0)

theorem natAbs_add {a b : Int} (h : SameSign a b) : (a + b).natAbs = a.natAbs + b.natAbs := by
  rcases h with h | h <;> omega

theorem sameSign_tdiv {a b : Int} (h : SameSign a b) : SameSign a (b.tdiv g.divisor) := by
  have fraction := tdiv_mem g.divisor b
  unfold SameSign at h ⊢
  omega

/- Before the first correction the error stands still and its sum grows; from then on
the error is what truncation makes of the integral. -/

def Untouched (s : State) : Prop :=
  s.held = 0 ∧ SameSign s.error s.integral ∧
    (s.integral = 0 ∨ s.error.natAbs + s.integral.natAbs / g.divisor < g.boundary)

def Corrected (s : State) : Prop :=
  s.error = -(s.integral.tdiv g.divisor) ∧ (s.held = 0 → s.error ≤ -(g.boundary : Int))

/-- The phases, with a bound on the error and on the next integral. -/
structure Invariant (bound : Nat) (s : State) : Prop where
  phase : Untouched g s ∨ Corrected g s
  error : s.error.natAbs ≤ bound
  sum : (sum s).natAbs ≤ bound

theorem untouched_control {s : State} (h : Untouched g s) :
    (control g s).natAbs = s.error.natAbs + (sum s).natAbs / g.divisor := by
  have total : SameSign s.error (sum s) := by
    have signs := h.2.1
    unfold SameSign sum at *
    omega
  rw [control, natAbs_add (sameSign_tdiv g total), tdiv_natAbs]

theorem corrected_correcting {s : State} (h : Corrected g s) (fresh : Fresh g s) :
    ¬ Quiet g s := by
  intro quiet
  have low := h.2 (fresh quiet)
  have high := quiet.2
  omega

theorem next_correcting {s : State} (h : ¬ Quiet g s) :
    next g s = ⟨-((sum s).tdiv g.divisor), sum s, control g s⟩ := by
  rw [next, if_neg h, State.mk.injEq]
  refine ⟨?_, rfl, rfl⟩
  rw [control]
  omega

theorem next_quiet {s : State} (h : Quiet g s) (zero : s.held = 0) :
    next g s = ⟨s.error, sum s, 0⟩ := by
  rw [next, if_pos h, zero, Int.sub_zero]

theorem corrected_next {s : State} (h : ¬ Quiet g s) : Corrected g (next g s) := by
  have still : control g s = 0 → s.error = -((sum s).tdiv g.divisor) := by
    unfold control
    omega
  have low : control g s = 0 → s.error ≤ -(g.boundary : Int) := by
    intro nothing
    have positive := g.boundary_pos
    exact Int.not_lt.mp (fun high => h ⟨by omega, high⟩)
  rw [next_correcting g h]
  refine ⟨rfl, fun nothing => ?_⟩
  rw [← still nothing]
  exact low nothing

theorem untouched_next {s : State} (h : Untouched g s) (quiet : Quiet g s) :
    Untouched g (next g s) := by
  have small := quiet.1
  rw [untouched_control g h] at small
  rw [next_quiet g quiet h.1]
  refine ⟨rfl, ?_, .inr small⟩
  have signs := h.2.1
  unfold SameSign sum at *
  simp only
  omega

theorem initial_untouched (e : Int) : Untouched g ⟨e, 0, 0⟩ :=
  ⟨rfl, by simp only [SameSign]; omega, .inl rfl⟩

theorem initial_invariant {bound : Nat} {e : Int} (h : e.natAbs ≤ bound) :
    Invariant g bound ⟨e, 0, 0⟩ where
  phase := .inl (initial_untouched g e)
  error := h
  sum := by simpa [sum] using h

/-- As long as the loop is fresh the phases follow each other and the bound is kept. -/
theorem next_invariant {bound : Nat} (room : (g.divisor + 1) * g.boundary ≤ bound) {s : State}
    (h : Invariant g bound s) (fresh : Fresh g s) : Invariant g bound (next g s) := by
  by_cases quiet : Quiet g s
  · rcases h.phase with untouched | corrected
    · have small := quiet.1
      rw [untouched_control g untouched] at small
      have integral : (sum s).natAbs < g.boundary * g.divisor :=
        (Nat.div_lt_iff_lt_mul g.divisor_pos).mp (by omega)
      have error : s.error.natAbs < g.boundary := Nat.lt_of_le_of_lt (Nat.le_add_right _ _) small
      rw [Nat.add_mul, Nat.mul_comm] at room
      refine ⟨.inl (untouched_next g untouched quiet), ?_, ?_⟩
      · rw [next_quiet g quiet untouched.1]
        exact h.error
      · rw [next_quiet g quiet untouched.1]
        simp only [sum] at integral ⊢
        omega
    · exact absurd quiet (corrected_correcting g corrected fresh)
  · have bounded := h.sum
    have fraction : (sum s).natAbs / g.divisor ≤ (sum s).natAbs := Nat.div_le_self _ _
    have size := tdiv_natAbs g.divisor (sum s)
    have shrunk := sub_tdiv_le g.divisor (sum s)
    refine ⟨.inr (corrected_next g quiet), ?_, ?_⟩
    · rw [next_correcting g quiet, Int.natAbs_neg]
      omega
    · rw [next_correcting g quiet]
      exact Nat.le_trans shrunk bounded

theorem remainder_sum {s : State} (h : s.error = -(s.integral.tdiv g.divisor)) :
    sum s = s.integral - s.integral.tdiv g.divisor := by
  rw [sum, h, Int.sub_eq_add_neg]

theorem remainder_error_le {s : State} (h : s.error = -(s.integral.tdiv g.divisor))
    (correcting : ¬ Quiet g s) : (next g s).error.natAbs ≤ s.error.natAbs := by
  have shrunk := sub_tdiv_le g.divisor s.integral
  rw [next_correcting g correcting, remainder_sum g h, h, Int.natAbs_neg, Int.natAbs_neg,
    tdiv_natAbs, tdiv_natAbs]
  exact Nat.div_le_div_right shrunk

theorem untouched_error_lt {s : State} (h : Untouched g s) (correcting : ¬ Quiet g s)
    (small : s.error.natAbs < g.boundary) : (next g s).error.natAbs < g.boundary := by
  obtain ⟨-, signs, integral⟩ := h
  have total : (sum s).natAbs = s.integral.natAbs + s.error.natAbs := by
    rw [sum, Int.add_comm, natAbs_add signs, Nat.add_comm]
  have spread : s.error.natAbs ≤ g.divisor * s.error.natAbs := Nat.le_mul_of_pos_left _ g.divisor_pos
  have split : (s.integral.natAbs + g.divisor * s.error.natAbs) / g.divisor =
      s.integral.natAbs / g.divisor + s.error.natAbs :=
    Nat.add_mul_div_left _ _ g.divisor_pos
  have step : (sum s).natAbs / g.divisor ≤ s.integral.natAbs / g.divisor + s.error.natAbs := by
    rw [total, ← split]
    exact Nat.div_le_div_right (Nat.add_le_add_left spread _)
  rw [next_correcting g correcting, Int.natAbs_neg, tdiv_natAbs]
  rcases integral with zero | bounded
  · rw [zero, Int.natAbs_zero, Nat.zero_div] at step
    omega
  · omega

theorem next_locked {bound : Nat} {s : State} (h : Invariant g bound s) (fresh : Fresh g s)
    (small : s.error.natAbs < g.boundary) : (next g s).error.natAbs < g.boundary := by
  rcases h.phase with untouched | corrected
  · by_cases quiet : Quiet g s
    · rw [next_quiet g quiet untouched.1]
      exact small
    · exact untouched_error_lt g untouched quiet small
  · have correcting := corrected_correcting g corrected fresh
    exact Nat.lt_of_le_of_lt (remainder_error_le g corrected.1 correcting) small

theorem control_natAbs {bound : Nat} {s : State} (h : Invariant g bound s) :
    (control g s).natAbs ≤ bound + bound / g.divisor := by
  have error := h.error
  have fraction : (sum s).natAbs / g.divisor ≤ bound / g.divisor := Nat.div_le_div_right h.sum
  have size := tdiv_natAbs g.divisor (sum s)
  unfold control
  omega

/- Runs without end. -/

/-- What gets smaller with every step comes to an end. -/
theorem ends {S : Type} (step : S → S) (going ended : S → Prop) (size : S → Nat)
    (moves : ∀ s, going s → (∃ n, ended (step^[n] s)) ∨
      going (step s) ∧ size (step s) < size s) (s : S) (h : going s) :
    ∃ n, ended (step^[n] s) := by
  rcases moves s h with done | ⟨goes, smaller⟩
  · exact done
  · obtain ⟨n, done⟩ := ends step going ended size moves (step s) goes
    exact ⟨n + 1, done⟩
termination_by size s

/-- Every correction takes something off the integral, until one is repeated. -/
theorem corrected_ends {s : State} (h : Corrected g s) : ∃ n, ¬ Fresh g ((next g)^[n] s) := by
  refine ends (next g) (Corrected g) (fun s => ¬ Fresh g s) (fun s => s.integral.natAbs)
    (fun s corrected => ?_) s h
  by_cases quiet : Quiet g s
  · exact .inl ⟨0, fun fresh => corrected_correcting g corrected fresh quiet⟩
  · have moving : s.error ≠ 0 := by
      intro still
      have none : s.integral.tdiv g.divisor = 0 := by
        have := corrected.1
        omega
      have positive := g.boundary_pos
      refine quiet ⟨?_, by omega⟩
      rw [control, sum, still, Int.add_zero, none]
      exact positive
    have fraction := tdiv_mem g.divisor s.integral
    refine .inr ⟨corrected_next g quiet, ?_⟩
    rw [next_correcting g quiet]
    change (s.integral + s.error).natAbs < s.integral.natAbs
    rw [corrected.1] at moving ⊢
    omega

/-- An error that is left alone adds up until it is corrected. -/
theorem untouched_ends {s : State} (h : Untouched g s) (error : s.error ≠ 0) :
    ∃ n, ¬ Fresh g ((next g)^[n] s) := by
  refine ends (next g) (fun s => Untouched g s ∧ s.error ≠ 0) (fun s => ¬ Fresh g s)
    (fun s => g.boundary * g.divisor - s.integral.natAbs) (fun s going => ?_) s ⟨h, error⟩
  obtain ⟨untouched, error⟩ := going
  by_cases quiet : Quiet g s
  · have small := quiet.1
    rw [untouched_control g untouched] at small
    have below : (sum s).natAbs < g.boundary * g.divisor :=
      (Nat.div_lt_iff_lt_mul g.divisor_pos).mp (by omega)
    have grown := natAbs_add untouched.2.1
    refine .inr ⟨⟨untouched_next g untouched quiet, ?_⟩, ?_⟩
    · rw [next_quiet g quiet untouched.1]
      exact error
    · rw [next_quiet g quiet untouched.1]
      change _ - (sum s).natAbs < _
      rw [sum] at below ⊢
      omega
  · obtain ⟨n, repeated⟩ := corrected_ends g (corrected_next g quiet)
    exact .inl ⟨n + 1, repeated⟩

theorem fresh_forever_iff {e : Int} : (∀ n, Fresh g ((next g)^[n] ⟨e, 0, 0⟩)) ↔ e = 0 := by
  constructor
  · intro fresh
    by_cases zero : e = 0
    · exact zero
    · obtain ⟨n, repeated⟩ := untouched_ends g (initial_untouched g e) zero
      exact absurd (fresh n) repeated
  · rintro rfl n
    have rest : next g ⟨0, 0, 0⟩ = ⟨0, 0, 0⟩ := by
      unfold next control sum
      simp
    rw [Function.iterate_fixed rest]
    exact fun _ => rfl

/- A loop that corrects at every step leaves of the first error what truncation makes of
its integral. -/

structure Settling (initial : Int) (s : State) : Prop where
  sign : SameSign initial s.integral
  size : s.integral.natAbs ≤ initial.natAbs
  error : s.error = -(s.integral.tdiv g.divisor)

theorem settling_error {initial : Int} {s : State} (h : Settling g initial s) :
    g.divisor * s.error.natAbs ≤ initial.natAbs := by
  rw [h.error, Int.natAbs_neg, tdiv_natAbs]
  exact Nat.le_trans (Nat.mul_div_le _ _) h.size

theorem settling_first {initial held : Int} (correcting : ¬ Quiet g ⟨initial, 0, held⟩) :
    Settling g initial (next g ⟨initial, 0, held⟩) := by
  have first : sum ⟨initial, 0, held⟩ = initial := Int.zero_add initial
  rw [next_correcting g correcting, first]
  refine ⟨?_, Nat.le_refl _, rfl⟩
  unfold SameSign
  dsimp only
  omega

theorem settling_next {initial : Int} {s : State} (h : Settling g initial s)
    (correcting : ¬ Quiet g s) :
    Settling g initial (next g s) ∧ (next g s).integral.natAbs ≤ s.integral.natAbs := by
  have shrunk := sub_tdiv_le g.divisor s.integral
  have fraction := tdiv_mem g.divisor s.integral
  have sign := h.sign
  rw [next_correcting g correcting, remainder_sum g h.error]
  refine ⟨⟨?_, Nat.le_trans shrunk h.size, rfl⟩, shrunk⟩
  unfold SameSign at sign ⊢
  dsimp only
  omega

end StandalonePtp.Servo
