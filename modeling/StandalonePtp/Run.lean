import Mathlib.Data.List.Induction

/-! Runs of a machine that answers every input with one output. The rules below
hold for every list of inputs, every type of states and every type of outputs. -/
namespace StandalonePtp.Run

variable {S I O : Type}

def after (step : S → I → S × O) (s : S) : List I → S
  | [] => s
  | i :: rest => after step (step s i).1 rest

def outputs (step : S → I → S × O) (s : S) : List I → List O
  | [] => []
  | i :: rest => (step s i).2 :: outputs step (step s i).1 rest

theorem after_append (step : S → I → S × O) (xs ys : List I) (s : S) :
    after step s (xs ++ ys) = after step (after step s xs) ys := by
  induction xs generalizing s with
  | nil => rfl
  | cons x xs ih => simpa only [List.cons_append, after] using ih (step s x).1

theorem outputs_append (step : S → I → S × O) (xs ys : List I) (s : S) :
    outputs step s (xs ++ ys) = outputs step s xs ++ outputs step (after step s xs) ys := by
  induction xs generalizing s with
  | nil => rfl
  | cons x xs ih => simp only [List.cons_append, outputs, after, ih]

theorem after_filter (step : S → I → S × O) (p : I → Bool)
    (idle : ∀ s i, p i = false → (step s i).1 = s) (xs : List I) (s : S) :
    after step s (xs.filter p) = after step s xs := by
  induction xs generalizing s with
  | nil => rfl
  | cons x xs ih =>
    cases kept : p x with
    | true => rw [List.filter_cons_of_pos kept, after, after, ih]
    | false => rw [List.filter_cons_of_neg (by simp [kept]), ih, after, idle s x kept]

theorem after_invariant (step : S → I → S × O) (P : S → Prop)
    (preserves : ∀ s, P s → ∀ i, P (step s i).1) {s : S} (initial : P s) (xs : List I) :
    P (after step s xs) := by
  induction xs generalizing s with
  | nil => exact initial
  | cons x xs ih => exact ih (preserves s initial x)

theorem after_projection {S' I' O' : Type} (step : S → I → S × O) (step' : S' → I' → S' × O')
    (part : S → S') (input : I → I')
    (commute : ∀ s i, part (step s i).1 = (step' (part s) (input i)).1) (xs : List I) (s : S) :
    part (after step s xs) = after step' (part s) (xs.map input) := by
  induction xs generalizing s with
  | nil => rfl
  | cons x xs ih => simp only [after, List.map_cons, ih, commute]

/-- One machine follows another: the inputs that the other one sees are answered alike as far
as anybody observes, and the rest goes unobserved. -/
theorem simulation {T J P V : Type} (step : S → I → S × O) (step' : T → J → T × P)
    (input : I → Option J) (observe : O → List V) (observe' : P → List V) (R : S → T → Prop)
    (hidden : ∀ s t i, R s t → input i = none → observe (step s i).2 = [] ∧ R (step s i).1 t)
    (seen : ∀ s t i j, R s t → input i = some j →
      observe (step s i).2 = observe' (step' t j).2 ∧ R (step s i).1 (step' t j).1)
    (xs : List I) {s : S} {t : T} (initial : R s t) :
    (outputs step s xs).flatMap observe =
        (outputs step' t (xs.filterMap input)).flatMap observe' ∧
      R (after step s xs) (after step' t (xs.filterMap input)) := by
  induction xs generalizing s t with
  | nil => exact ⟨rfl, initial⟩
  | cons x xs ih =>
    rw [outputs, after, List.flatMap_cons]
    cases visible : input x with
    | none =>
      obtain ⟨silent, next⟩ := hidden s t x initial visible
      rw [List.filterMap_cons_none visible, silent]
      exact ih next
    | some j =>
      obtain ⟨same, next⟩ := seen s t x j initial visible
      obtain ⟨rest, final⟩ := ih next
      rw [List.filterMap_cons_some visible, outputs, after, List.flatMap_cons, same, rest]
      exact ⟨rfl, final⟩

/-- Two machines whose states stay related, and which answer alike in related states,
answer alike over the whole run. -/
theorem outputs_simulation {T : Type} (step : S → I → S × O) (step' : T → I → T × O)
    (R : S → T → Prop)
    (related : ∀ s t, R s t → ∀ i, (step s i).2 = (step' t i).2 ∧ R (step s i).1 (step' t i).1)
    (xs : List I) {s : S} {t : T} (initial : R s t) :
    outputs step s xs = outputs step' t xs ∧ R (after step s xs) (after step' t xs) := by
  have both := simulation step step' some (fun o => [o]) (fun o => [o]) R
    (fun _ _ _ _ impossible => nomatch impossible)
    (fun s t i j h same => by
      obtain rfl := Option.some.inj same
      exact ⟨by rw [(related s t h i).1], (related s t h i).2⟩) xs initial
  simpa using both

/-- A machine as a part of another one, which feeds it with what its own steps put out. -/
theorem after_fed {T J P V : Type} (step : S → I → S × O) (step' : T → J → T × P)
    (part : S → T) (fed : O → List J) (observe : O → List V) (observe' : P → List V)
    (each : ∀ s i, part (step s i).1 = after step' (part s) (fed (step s i).2) ∧
      observe (step s i).2 = (outputs step' (part s) (fed (step s i).2)).flatMap observe')
    (xs : List I) (s : S) :
    part (after step s xs) = after step' (part s) ((outputs step s xs).flatMap fed) ∧
      (outputs step s xs).flatMap observe =
        (outputs step' (part s) ((outputs step s xs).flatMap fed)).flatMap observe' := by
  induction xs generalizing s with
  | nil => exact ⟨rfl, rfl⟩
  | cons x xs ih =>
    obtain ⟨moved, answered⟩ := each s x
    obtain ⟨rest, answers⟩ := ih (step s x).1
    rw [moved] at rest answers
    simp only [after, outputs, List.flatMap_cons, after_append, outputs_append, List.flatMap_append]
    exact ⟨rest, by rw [answered, answers]⟩

/-- Every step of the run meets a condition on the state before it and its input. -/
def Along (step : S → I → S × O) (ok : S → I → Prop) (s : S) : List I → Prop
  | [] => True
  | i :: rest => ok s i ∧ Along step ok (step s i).1 rest

theorem along_append (step : S → I → S × O) (ok : S → I → Prop) (xs ys : List I) (s : S) :
    Along step ok s (xs ++ ys) ↔ Along step ok s xs ∧ Along step ok (after step s xs) ys := by
  induction xs generalizing s with
  | nil => simp [Along, after]
  | cons x xs ih => simp only [List.cons_append, Along, after, ih, and_assoc]

theorem along_iff (step : S → I → S × O) (ok : S → I → Prop) (xs : List I) (s : S) :
    Along step ok s xs ↔
      ∀ before x later, xs = before ++ x :: later → ok (after step s before) x := by
  constructor
  · rintro along before x later rfl
    exact ((along_append step ok before (x :: later) s).mp along).2.1
  · intro all
    induction xs generalizing s with
    | nil => trivial
    | cons x xs ih =>
      refine ⟨all [] x xs rfl, ih (step s x).1 fun before y later split => ?_⟩
      exact all (x :: before) y later (by rw [split]; rfl)

/-- A part of the state keeps to a computation of its own as long as every value of that
computation is good. -/
theorem after_computes {V : Type} (step : S → I → S × O) (read : S → V) (compute : V → I → V)
    (good : V → Prop)
    (agree : ∀ s i, good (compute (read s) i) → read (step s i).1 = compute (read s) i)
    (xs : List I) (s : S)
    (all : ∀ before x later, xs = before ++ x :: later →
      good ((before ++ [x]).foldl compute (read s))) :
    read (after step s xs) = xs.foldl compute (read s) := by
  induction xs generalizing s with
  | nil => rfl
  | cons x xs ih =>
    have first : read (step s x).1 = compute (read s) x := agree s x (all [] x xs rfl)
    rw [after, ih, List.foldl_cons, first]
    intro before y later split
    rw [first]
    exact all (x :: before) y later (by rw [split]; rfl)

theorem after_along (step : S → I → S × O) (ok : S → I → Prop) (P : S → Prop)
    (preserves : ∀ s i, P s → ok s i → P (step s i).1) {s : S} (initial : P s) (xs : List I)
    (along : Along step ok s xs) : P (after step s xs) := by
  induction xs generalizing s with
  | nil => exact initial
  | cons x xs ih => exact ih (preserves s x initial along.1) along.2

theorem along_invariant (step : S → I → S × O) (ok : S → I → Prop) (P : S → Prop)
    (preserves : ∀ s i, P s → ok s i → P (step s i).1) {s : S} (initial : P s) (xs : List I)
    (along : Along step ok s xs) : Along step (fun s i => P s ∧ ok s i) s xs := by
  induction xs generalizing s with
  | nil => trivial
  | cons x xs ih => exact ⟨⟨initial, along.1⟩, ih (preserves s x initial along.1) along.2⟩

theorem along_inputs (step : S → I → S × O) (ok : I → Prop) (xs : List I) (s : S) :
    Along step (fun _ i => ok i) s xs ↔ ∀ i ∈ xs, ok i := by
  induction xs generalizing s with
  | nil => simp [Along]
  | cons x xs ih => simp [Along, ih]

def ticks (step : S → I → S × O) (p : S → I → Bool) (s : S) : List I → Nat
  | [] => 0
  | i :: rest => (if p s i then 1 else 0) + ticks step p (step s i).1 rest

/-- A size that no step raises, and that marked steps lower as long as it is large, is
small after as many of them as it exceeds the limit by. -/
theorem along_settles (step : S → I → S × O) (ok : S → I → Prop) (p : S → I → Bool)
    (size : S → Nat) (small : Nat) (keeps : ∀ s i, ok s i → size (step s i).1 ≤ size s)
    (lowers : ∀ s i, ok s i → p s i = true → small < size s → size (step s i).1 < size s)
    (xs : List I) (s : S) (along : Along step ok s xs)
    (near : size s ≤ ticks step p s xs + small) : size (after step s xs) ≤ small := by
  induction xs generalizing s with
  | nil => simpa [ticks, after] using near
  | cons x xs ih =>
    have kept := keeps s x along.1
    apply ih _ along.2
    rw [ticks] at near
    by_cases large : small < size s
    · cases marked : p s x with
      | true =>
        have lowered := lowers s x along.1 marked large
        rw [if_pos marked] at near
        omega
      | false =>
        rw [if_neg (by simp [marked])] at near
        omega
    · omega

/-- A counter that every input advances until it is full, where the output marks it. -/
theorem fires_iff (step : S → I → S × O) (fire : O → Bool) (count : S → Int) (limit : Int)
    (P : S → Prop) (ok : I → Prop) (full : ∀ s, P s → count s ≤ limit)
    (fires : ∀ s i, P s → ok i → (fire (step s i).2 = true ↔ count s = limit))
    (counts : ∀ s i, P s → ok i → count s ≠ limit →
      P (step s i).1 ∧ count (step s i).1 = count s + 1)
    (xs : List I) (s : S) (initial : P s) (inputs : ∀ i ∈ xs, ok i) :
    (∃ o ∈ outputs step s xs, fire o = true) ↔ limit < count s + xs.length := by
  have small := full s initial
  induction xs generalizing s with
  | nil =>
    simp only [outputs, List.not_mem_nil, false_and, exists_false, List.length_nil, false_iff]
    omega
  | cons x xs ih =>
    have first := fires s x initial (inputs x List.mem_cons_self)
    simp only [outputs, List.mem_cons, exists_eq_or_imp, first, List.length_cons]
    by_cases last : count s = limit
    · exact iff_of_true (.inl last) (by omega)
    · obtain ⟨next, counted⟩ := counts s x initial (inputs x List.mem_cons_self) last
      have rest := ih (step s x).1 next (fun i hi => inputs i (List.mem_cons_of_mem _ hi))
        (full _ next)
      refine (or_iff_right last).trans (rest.trans ?_)
      rw [counted]
      omega

def latest (p : I → Bool) (xs : List I) : Option I := (xs.filter p).getLast?

theorem latest_cons (p : I → Bool) (x : I) (xs : List I) :
    latest p (x :: xs) = (latest p xs).or (if p x then some x else none) := by
  by_cases h : p x
  · simp only [latest, List.filter_cons, h, if_true, List.getLast?_cons]
    cases (xs.filter p).getLast? <;> rfl
  · simp [latest, h]

theorem latest_mem {p : I → Bool} {xs : List I} {x : I} (h : latest p xs = some x) :
    x ∈ xs ∧ p x = true :=
  List.mem_filter.mp (List.mem_of_getLast? h)

theorem latest_append_cons (p : I → Bool) (xs ys : List I) (x : I) (hx : p x = true)
    (none_later : ∀ y ∈ ys, p y = false) : latest p (xs ++ x :: ys) = some x := by
  have empty : ys.filter p = [] := List.filter_eq_nil_iff.mpr (by simpa using none_later)
  simp [latest, List.filter_append, hx, empty]

/-- A register that only the inputs selected by `p` write holds what the latest of
them wrote, or its initial value. -/
theorem register_latest {V : Type} (step : S → I → S × O) (read : S → V) (p : I → Bool)
    (write : I → V) (written : ∀ s i, p i = true → read (step s i).1 = write i)
    (untouched : ∀ s i, p i = false → read (step s i).1 = read s) (xs : List I) (s : S) :
    read (after step s xs) = ((latest p xs).map write).getD (read s) := by
  induction xs generalizing s with
  | nil => rfl
  | cons x xs ih =>
    rw [after, ih, latest_cons]
    cases hl : latest p xs with
    | some y => rfl
    | none =>
      cases hx : p x with
      | true => simpa using written s x hx
      | false => simpa using untouched s x hx

/- Modes that some inputs enter, and that last until others end them. -/

/-- An input entered the mode, seen with what came before it, and none has ended it since. -/
def Since (enter : List I → I → Prop) (stay : I → Prop) (xs : List I) : Prop :=
  ∃ early x late, xs = early ++ x :: late ∧ enter early x ∧ ∀ y ∈ late, stay y

theorem since_append (enter : List I → I → Prop) (stay : I → Prop) (xs : List I) (x : I) :
    Since enter stay (xs ++ [x]) ↔ enter xs x ∨ Since enter stay xs ∧ stay x := by
  constructor
  · rintro ⟨early, y, late, split, entered, stays⟩
    rcases List.eq_nil_or_concat late with rfl | ⟨late', z, rfl⟩
    · obtain ⟨rfl, same⟩ := List.append_inj' split rfl
      cases same
      exact .inl entered
    · have regrouped : xs ++ [x] = (early ++ y :: late') ++ [z] := by simpa using split
      obtain ⟨rfl, same⟩ := List.append_inj' regrouped rfl
      cases same
      exact .inr ⟨⟨early, y, late', rfl, entered, fun w hw => stays w (by simp [hw])⟩,
        stays x (by simp)⟩
  · rintro (entered | ⟨⟨early, y, late, rfl, entered, stays⟩, stay⟩)
    · exact ⟨xs, x, [], rfl, entered, by simp⟩
    · refine ⟨early, y, late ++ [x], by simp, entered, fun w hw => ?_⟩
      rcases List.mem_append.mp hw with hw | hw
      · exact stays w hw
      · rwa [List.mem_singleton.mp hw]

/-- Whether a machine is in a mode can be told from its inputs. -/
theorem mode_since (step : S → I → S × O) (mode : S → Prop) (enter : List I → I → Prop)
    (stay : I → Prop) {s : S} (initial : ¬ mode s)
    (moves : ∀ xs x, mode (step (after step s xs) x).1 ↔
      enter xs x ∨ mode (after step s xs) ∧ stay x) (xs : List I) :
    mode (after step s xs) ↔ Since enter stay xs := by
  induction xs using List.reverseRecOn with
  | nil => exact iff_of_false initial (by simp [Since])
  | append_singleton before x ih => rw [after_append, after, after, moves, since_append, ih]

/- Runs with extra inputs. The flag `true` marks an input that was inserted. -/

def kept (xs : List (Bool × I)) : List I := (xs.filter (fun x => !x.1)).map Prod.snd

/-- The outputs at the inputs that were not inserted, in the run of all of them. -/
def keptOutputs (step : S → I → S × O) (s : S) : List (Bool × I) → List O
  | [] => []
  | (extra, i) :: rest =>
    if extra then keptOutputs step (step s i).1 rest
    else (step s i).2 :: keptOutputs step (step s i).1 rest

/-- Inserted inputs that keep a relation between states which determines the outputs
are invisible at all the other inputs. -/
theorem keptOutputs_eq (step : S → I → S × O) (R : S → S → Prop) (Extra : I → Prop)
    (absorb : ∀ s t i, Extra i → R s t → R (step s i).1 t)
    (related : ∀ s t, R s t → ∀ i, (step s i).2 = (step t i).2 ∧ R (step s i).1 (step t i).1)
    (xs : List (Bool × I)) (extras : ∀ x ∈ xs, x.1 = true → Extra x.2) {s t : S}
    (initial : R s t) : keptOutputs step s xs = outputs step t (kept xs) := by
  induction xs generalizing s t with
  | nil => rfl
  | cons x xs ih =>
    obtain ⟨extra, i⟩ := x
    have later : ∀ x ∈ xs, x.1 = true → Extra x.2 :=
      fun x hx => extras x (List.mem_cons_of_mem _ hx)
    cases extra with
    | true =>
      have inserted : Extra i := extras (true, i) List.mem_cons_self rfl
      simpa [keptOutputs, kept] using ih later (absorb s t i inserted initial)
    | false =>
      have h := related s t initial i
      have tail := ih later h.2
      simp only [kept] at tail
      simp [keptOutputs, kept, outputs, h.1, tail]

theorem observed_kept {V : Type} (step : S → I → S × O) (observe : O → List V)
    (Extra : I → Prop) (silent : ∀ s i, Extra i → observe (step s i).2 = [])
    (xs : List (Bool × I)) (extras : ∀ x ∈ xs, x.1 = true → Extra x.2) (s : S) :
    (outputs step s (xs.map Prod.snd)).flatMap observe =
      (keptOutputs step s xs).flatMap observe := by
  induction xs generalizing s with
  | nil => rfl
  | cons x xs ih =>
    obtain ⟨extra, i⟩ := x
    have tail := ih (fun x hx => extras x (List.mem_cons_of_mem _ hx)) (step s i).1
    cases extra with
    | true =>
      have inserted : Extra i := extras (true, i) List.mem_cons_self rfl
      simp [outputs, keptOutputs, silent s i inserted, tail]
    | false => simp [outputs, keptOutputs, tail]

theorem observed_length {V : Type} (step : S → I → S × O) (observe : O → List V)
    (Extra : I → Prop) (single : ∀ s i, Extra i → (observe (step s i).2).length = 1)
    (xs : List (Bool × I)) (extras : ∀ x ∈ xs, x.1 = true → Extra x.2) (s : S) :
    ((outputs step s (xs.map Prod.snd)).flatMap observe).length =
      ((keptOutputs step s xs).flatMap observe).length + xs.countP Prod.fst := by
  induction xs generalizing s with
  | nil => rfl
  | cons x xs ih =>
    obtain ⟨extra, i⟩ := x
    have tail := ih (fun x hx => extras x (List.mem_cons_of_mem _ hx)) (step s i).1
    cases extra with
    | true =>
      have inserted : Extra i := extras (true, i) List.mem_cons_self rfl
      have one := single s i inserted
      simp only [List.map_cons, outputs, keptOutputs, if_true, List.flatMap_cons,
        List.length_append, one, tail, List.countP_cons_of_pos]
      omega
    | false =>
      simp only [List.map_cons, outputs, keptOutputs, Bool.false_eq_true, if_false,
        List.flatMap_cons, List.length_append, tail, List.countP_cons, Nat.add_zero]
      omega

/-- Inserted inputs that are not seen leave what is seen as it is. -/
theorem kept_filterMap {J : Type} (seen : I → Option J) (xs : List (Bool × I))
    (hidden : ∀ x ∈ xs, x.1 = true → seen x.2 = none) :
    (xs.map Prod.snd).filterMap seen = (kept xs).filterMap seen := by
  induction xs with
  | nil => rfl
  | cons x xs ih =>
    obtain ⟨extra, i⟩ := x
    have tail := ih (fun x hx => hidden x (List.mem_cons_of_mem _ hx))
    cases extra with
    | true =>
      have unseen : seen i = none := hidden (true, i) List.mem_cons_self rfl
      simpa [kept, unseen] using tail
    | false =>
      simp only [kept] at tail
      simp [kept, List.filterMap_cons, tail]

end StandalonePtp.Run
