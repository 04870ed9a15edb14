import Mathlib.Data.List.Defs

/-! Reflected cyclic redundancy checks over words of any width. The register takes the
message bit by bit, the low bit of a chunk first. Chunks of several bits are taken at
once from a table, because the bits still to come only shift until they are used. -/
namespace StandalonePtp.Crc

variable {w k : Nat} (poly : BitVec w)

def step (v : BitVec w) : BitVec w := if v.getLsbD 0 then poly ^^^ (v >>> 1) else v >>> 1

def steps : Nat → BitVec w → BitVec w
  | 0, v => v
  | n + 1, v => steps n (step poly v)

/-- One message bit against the low bit of the register. -/
def feed (v : BitVec w) (bit : Bool) : BitVec w :=
  if (v.getLsbD 0 ^^ bit) then poly ^^^ (v >>> 1) else v >>> 1

def serial (v : BitVec w) (message : List Bool) : BitVec w := message.foldl (feed poly) v

def bits (n : Nat) (x : BitVec w) : List Bool := (List.range n).map x.getLsbD

theorem bits_succ (n : Nat) (x : BitVec w) :
    bits (n + 1) x = x.getLsbD 0 :: bits n (x >>> 1) := by
  rw [bits, List.range_succ_eq_map, List.map_cons, List.map_map, bits]
  congr 1
  apply List.map_congr_left
  intro i _
  rw [BitVec.getLsbD_ushiftRight, Function.comp, Nat.add_comm]

theorem bits_setWidth (fits : k ≤ w) (x : BitVec k) : bits k (x.setWidth w) = bits k x := by
  apply List.map_congr_left
  intro i hi
  have inside : i < w := Nat.lt_of_lt_of_le (List.mem_range.mp hi) fits
  rw [BitVec.getLsbD_setWidth, decide_eq_true inside, Bool.true_and]

theorem step_xor (v x : BitVec w) :
    step poly (v ^^^ x) = feed poly v (x.getLsbD 0) ^^^ (x >>> 1) := by
  rw [step, feed, BitVec.getLsbD_xor, BitVec.ushiftRight_xor_distrib]
  split
  · rw [BitVec.xor_assoc]
  · rfl

/-- Of what is added to the register, `n` steps use up `n` bits and shift the rest. -/
theorem steps_xor (n : Nat) (v x : BitVec w) :
    steps poly n (v ^^^ x) = serial poly v (bits n x) ^^^ (x >>> n) := by
  induction n generalizing v x with
  | zero => simp [steps, serial, bits]
  | succ n ih =>
    rw [steps, step_xor, ih, bits_succ, ← BitVec.shiftRight_add, Nat.add_comm 1 n]
    rfl

theorem serial_silent (n : Nat) (v : BitVec w) :
    serial poly v (List.replicate n false) = steps poly n v := by
  induction n generalizing v with
  | zero => rfl
  | succ n ih =>
    have first : feed poly v false = step poly v := by rw [feed, step, Bool.xor_false]
    rw [List.replicate_succ, serial, List.foldl_cons, first, steps, ← ih]
    rfl

/- Chunks. -/

/-- The low bits of a word that stand for a chunk. -/
def low (k : Nat) (v : BitVec w) : BitVec w := (v.setWidth k).setWidth w

theorem low_add_high (v : BitVec w) : low k v ^^^ (v ^^^ low k v) = v := by
  rw [BitVec.xor_comm v, ← BitVec.xor_assoc, BitVec.xor_self, BitVec.zero_xor]

theorem high_bits (v : BitVec w) : bits k (v ^^^ low k v) = List.replicate k false := by
  apply List.eq_replicate_iff.mpr
  constructor
  · rw [bits, List.length_map, List.length_range]
  · intro b hb
    obtain ⟨i, hi, rfl⟩ := List.mem_map.mp hb
    have chunk := List.mem_range.mp hi
    by_cases inside : i < w
    · simp [low, chunk, inside]
    · rw [BitVec.getLsbD_of_ge _ _ (Nat.le_of_not_lt inside)]

theorem low_shift (v : BitVec w) : low k v >>> k = 0#w := by
  apply BitVec.eq_of_getLsbD_eq
  intro i _
  simp [low]

/-- The steps of the low bits alone can come from a table; the high bits only shift. -/
theorem steps_chunk (v : BitVec w) :
    steps poly k v = steps poly k (low k v) ^^^ (v >>> k) := by
  have parts : steps poly k v = steps poly k (low k v ^^^ (v ^^^ low k v)) := by
    rw [low_add_high]
  rw [parts, steps_xor, high_bits, serial_silent, BitVec.ushiftRight_xor_distrib, low_shift,
    BitVec.xor_zero]

/-- A chunk at once: the table entry of the low bits, and the rest of the register shifted. -/
def takeChunk (v : BitVec w) (chunk : BitVec k) : BitVec w :=
  steps poly k (low k (v ^^^ chunk.setWidth w)) ^^^ (v >>> k)

theorem takeChunk_serial (fits : k ≤ w) (v : BitVec w) (chunk : BitVec k) :
    takeChunk poly v chunk = serial poly v (bits k chunk) := by
  have used : chunk.setWidth w >>> k = 0#w := by
    apply BitVec.eq_of_getLsbD_eq
    intro i _
    simp
  have whole : steps poly k (v ^^^ chunk.setWidth w) = _ :=
    steps_chunk poly (v ^^^ chunk.setWidth w)
  rw [steps_xor, BitVec.ushiftRight_xor_distrib, used, bits_setWidth fits, BitVec.xor_zero,
    BitVec.xor_zero] at whole
  exact whole.symm

theorem foldl_takeChunk (fits : k ≤ w) (message : List (BitVec k)) (v : BitVec w) :
    message.foldl (takeChunk poly) v = serial poly v (message.flatMap (bits k)) := by
  induction message generalizing v with
  | nil => rfl
  | cons chunk message ih =>
    rw [List.foldl_cons, ih, takeChunk_serial poly fits, List.flatMap_cons, serial, serial, serial,
      List.foldl_append]

end StandalonePtp.Crc
