import StandalonePtp.Crc

/-! What a check of this kind detects. If the polynomial has its constant term, which is the
top bit of the reflected word, the register forgets nothing: messages that differ in a window
no wider than the register end in different registers. -/
namespace StandalonePtp.Crc

variable {w : Nat} {poly : BitVec w}

/-- The top bit tells whether the polynomial was added. -/
theorem feed_top (top : poly.getLsbD (w - 1) = true) (v : BitVec w) (bit : Bool) :
    (feed poly v bit).getLsbD (w - 1) = (v.getLsbD 0 ^^ bit) := by
  have room : 0 < w := by
    rcases Nat.eq_zero_or_pos w with rfl | room
    · simp at top
    · exact room
  have shifted : (v >>> 1).getLsbD (w - 1) = false := by
    rw [BitVec.getLsbD_ushiftRight]
    exact BitVec.getLsbD_of_ge v _ (by omega)
  rw [feed]
  split
  · rename_i odd
    rw [BitVec.getLsbD_xor, top, shifted, odd]
    rfl
  · rename_i even
    rw [shifted]
    exact (Bool.eq_false_iff.mpr even).symm

theorem feed_injective (top : poly.getLsbD (w - 1) = true) (bit : Bool) {u v : BitVec w}
    (same : feed poly u bit = feed poly v bit) : u = v := by
  have added : (u.getLsbD 0 ^^ bit) = (v.getLsbD 0 ^^ bit) := by
    rw [← feed_top top, same, feed_top top]
  have lowest : u.getLsbD 0 = v.getLsbD 0 := by simpa using added
  have others : u >>> 1 = v >>> 1 := by
    rw [feed, feed, added] at same
    split at same
    · exact (BitVec.xor_right_inj poly).mp same
    · exact same
  apply BitVec.eq_of_getLsbD_eq
  intro i inside
  cases i with
  | zero => exact lowest
  | succ i =>
    have bit := congrArg (fun x => BitVec.getLsbD x i) others
    simpa [BitVec.getLsbD_ushiftRight, Nat.add_comm] using bit

/-- What is equal at the end of a message was equal before it. -/
theorem serial_injective (top : poly.getLsbD (w - 1) = true) (message : List Bool)
    {u v : BitVec w} (same : serial poly u message = serial poly v message) : u = v := by
  induction message generalizing u v with
  | nil => exact same
  | cons bit message ih => exact feed_injective top bit (ih same)

/- A window of a message as a word. -/

def window (bs : List Bool) : BitVec w := (BitVec.ofBoolListLE bs).setWidth w

theorem bits_window {bs : List Bool} (short : bs.length ≤ w) :
    bits bs.length (window bs : BitVec w) = bs := by
  rw [window, bits_setWidth short, bits]
  apply List.ext_getElem
  · simp
  · intro i _ inside
    rw [List.getElem_map, List.getElem_range, BitVec.getLsbD_ofBoolListLE]
    simp [inside]

theorem window_used (bs : List Bool) : (window bs : BitVec w) >>> bs.length = 0#w := by
  apply BitVec.eq_of_getLsbD_eq
  intro i _
  simp [window]

theorem serial_window (v : BitVec w) {bs : List Bool} (short : bs.length ≤ w) :
    serial poly v bs = serial poly (v ^^^ window bs) (List.replicate bs.length false) := by
  rw [serial_silent, steps_xor, bits_window short, window_used, BitVec.xor_zero]

theorem serial_append (v : BitVec w) (xs ys : List Bool) :
    serial poly v (xs ++ ys) = serial poly (serial poly v xs) ys := List.foldl_append

theorem burst_detected (top : poly.getLsbD (w - 1) = true) (v : BitVec w)
    (before later : List Bool) {a b : List Bool} (short : a.length ≤ w)
    (wide : a.length = b.length)
    (same : serial poly v (before ++ a ++ later) = serial poly v (before ++ b ++ later)) :
    a = b := by
  have short' : b.length ≤ w := by omega
  rw [serial_append, serial_append, serial_append, serial_append _ before] at same
  have windows := serial_injective top later same
  generalize serial poly v before = v at windows
  rw [serial_window v short, serial_window v short', wide] at windows
  have words := (BitVec.xor_right_inj v).mp (serial_injective top _ windows)
  rw [← bits_window short, words, wide, bits_window short']

end StandalonePtp.Crc
