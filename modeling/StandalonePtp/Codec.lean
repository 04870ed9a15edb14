import StandalonePtp.PtpSync
import StandalonePtp.Words

/-! The timestamp on the wire: encoder and decoder are inverse to each other. -/
namespace StandalonePtp

open Words

theorem ptpPrepareTimestamp_digits (ts : PtpTimestamp) :
    (ptpPrepareTimestamp ts).toList =
      digits 6 ts.seconds.toUInt64.toNat ++ digits 4 ts.nanosec.toUInt32.toNat := by
  apply List.ext_getElem
  · simp
  · intro k hk hk'
    have inside : k < 10 := by simpa using hk
    have condition : (⟨k, inside⟩ : Fin 10) < 6 ↔ k < 6 := Fin.lt_def
    rw [List.getElem_append]
    simp only [length_digits, getElem_digits, ptpPrepareTimestamp, Vector.getElem_toList,
      Vector.getElem_ofFn]
    by_cases first : k < 6
    · rw [if_pos (condition.mpr first), dif_pos first, octet64 _ (by omega)]
    · rw [if_neg (first ∘ condition.mp), dif_neg first, octet32 _ (by omega)]
      congr 3
      omega

theorem stored_prepared (ts : PtpTimestamp) (low : 0 ≤ ts.seconds.toInt)
    (high : ts.seconds.toInt < 281474976710656) {m : Memory} {p : Nat}
    (sent : Holds m p (ptpPrepareTimestamp ts).toList) : (ptpStoreTimestamp m p).value = ts := by
  have least : ts.nanosec.toUInt32.toNat < 256 ^ 4 := ts.nanosec.toUInt32.toNat_lt
  obtain ⟨seconds, nanosec⟩ := ptpStoreTimestamp_words m p
  rw [ptpPrepareTimestamp_digits, holds_append, Holds, Holds, length_digits, length_digits] at sent
  rw [sent.1, bigEndian_digits, Nat.mod_eq_of_lt (toUInt64_lt low high)] at seconds
  rw [sent.2, bigEndian_digits, Nat.mod_eq_of_lt least] at nanosec
  exact congrArg₂ PtpTimestamp.mk (congrArg UInt64.toInt64 (UInt64.toNat_inj.mp seconds))
    (congrArg UInt32.toInt32 (UInt32.toNat_inj.mp nanosec))

theorem prepared_stored (bytes : Vector UInt8 10) {m : Memory} {p : Nat}
    (held : Holds m p bytes.toList) :
    ptpPrepareTimestamp (ptpStoreTimestamp m p).value = bytes := by
  obtain ⟨seconds, nanosec⟩ := ptpStoreTimestamp_words m p
  have high := digits_bigEndian ((List.range' p 6).map m)
  have low := digits_bigEndian ((List.range' (p + 6) 4).map m)
  rw [List.length_map, List.length_range'] at high low
  apply Vector.toList_inj.mp
  rw [ptpPrepareTimestamp_digits, seconds, nanosec, high, low, ← List.map_append,
    List.range'_append_1]
  simpa [Holds] using held

/-- Every time of 48 bit seconds comes back from the wire, and every ten octets come back
from the time they decode to. -/
theorem timestamp_codec :
    (∀ (ts : PtpTimestamp) (m : Memory) (p : Nat), 0 ≤ ts.seconds.toInt →
      ts.seconds.toInt < 281474976710656 → Holds m p (ptpPrepareTimestamp ts).toList →
        (ptpStoreTimestamp m p).value = ts) ∧
    ∀ (bytes : Vector UInt8 10) (m : Memory) (p : Nat), Holds m p bytes.toList →
      ptpPrepareTimestamp (ptpStoreTimestamp m p).value = bytes :=
  ⟨fun ts _ _ low high sent => stored_prepared ts low high sent,
    fun bytes _ _ held => prepared_stored bytes held⟩

/-- The last second on the wire, with the sign bit of the nanoseconds set. -/
theorem timestamp_codec_last :
    (ptpPrepareTimestamp ⟨281474976710655, -2⟩).toList =
        [255, 255, 255, 255, 255, 255, 255, 255, 255, 254] ∧
      wireTime (frame 8 (ptpPrepareTimestamp ⟨281474976710655, -2⟩)) = ⟨281474976710655, -2⟩ ∧
      ptpPrepareTimestamp (wireTime (frame 8 (Vector.replicate 10 255))) =
        Vector.replicate 10 255 :=
  ⟨by decide, timestamp_codec.1 ⟨281474976710655, -2⟩ _ _ (by decide) (by decide) (by decide),
    timestamp_codec.2 _ _ _ (by decide)⟩

end StandalonePtp
