import Mathlib.Algebra.Group.Nat.Defs
import StandalonePtp.Burst
import StandalonePtp.Gptp

/-! The hash table for multicast addresses, and what its checksum tells apart. -/
namespace StandalonePtp

open Run

theorem ready_after (calls : List (List UInt8)) : CrcReady (after ethernetCrc32 .init calls) := by
  have start : CrcReady .init := .inl rfl
  refine after_invariant ethernetCrc32 CrcReady (fun s ready data => .inr ?_) start calls
  rw [ethernetCrc32_call ready]

/-- The bits of a message in the order in which the check takes them. -/
def messageBits (data : List UInt8) : List Bool := data.flatMap (fun b => Crc.bits 8 b.toBitVec)

/-- After any calls, two messages whose bits differ only in a window of 32, wherever it lies,
get different checksums. -/
theorem checksum_detects_burst (calls calls' : List (List UInt8)) {data data' : List UInt8}
    {before a b later : List Bool} (bits : messageBits data = before ++ a ++ later)
    (bits' : messageBits data' = before ++ b ++ later) (short : a.length ≤ 32)
    (wide : a.length = b.length) (differ : a ≠ b) :
    (ethernetCrc32 (after ethernetCrc32 .init calls) data).2 ≠
      (ethernetCrc32 (after ethernetCrc32 .init calls') data').2 := by
  intro same
  rw [ethernetCrc32_call (ready_after calls), ethernetCrc32_call (ready_after calls')] at same
  have registers := congrArg UInt32.toBitVec same
  simp only [plainCrc32] at registers
  rw [← messageBits, ← messageBits, bits, bits'] at registers
  exact differ (Crc.burst_detected (by decide) _ before later short wide
    (BitVec.not_inj.mp registers))

/-- Two addresses that differ in their last octet. -/
theorem checksum_detects_octet :
    (ethernetCrc32 .init [0x01, 0x1B, 0x19, 0x00, 0x00, 0x00]).2 ≠
      (ethernetCrc32 .init [0x01, 0x1B, 0x19, 0x00, 0x00, 0x0E]).2 :=
  @checksum_detects_burst [] [] [0x01, 0x1B, 0x19, 0x00, 0x00, 0x00]
    [0x01, 0x1B, 0x19, 0x00, 0x00, 0x0E] (messageBits [0x01, 0x1B, 0x19, 0x00, 0x00])
    (messageBits [0x00]) (messageBits [0x0E]) [] (by decide) (by decide) (by decide) (by decide)
    (by decide)

/- The table. -/

def hashIndex (crc : UInt32) : UInt8 := ((crc >>> 26) &&& 0x3F).toUInt8

theorem hashIndex_toNat (crc : UInt32) : (hashIndex crc).toNat = crc.toNat / 2 ^ 26 := by
  have small := crc.toNat_lt
  have mask : ((crc >>> 26) &&& 0x3F).toNat = (crc.toNat / 2 ^ 26) % 2 ^ 6 := by
    rw [UInt32.toNat_and, UInt32.toNat_shiftRight]
    change crc.toNat >>> 26 &&& 2 ^ 6 - 1 = _
    rw [Nat.shiftRight_eq_div_pow, Nat.and_two_pow_sub_one_eq_mod]
  rw [hashIndex, UInt32.toNat_toUInt8, mask]
  omega

theorem hashByte_lt (crc : UInt32) : (hashIndex crc >>> 3).toNat < 8 := by
  have small := crc.toNat_lt
  rw [UInt8.toNat_shiftRight, hashIndex_toNat]
  change (crc.toNat / 2 ^ 26) >>> 3 < 8
  rw [Nat.shiftRight_eq_div_pow]
  omega

def setHashBit (hashTable : Vector UInt8 8) (crc : UInt32) : Vector UInt8 8 :=
  let index := hashIndex crc
  hashTable.set (index >>> 3).toNat
    (hashTable.get ⟨(index >>> 3).toNat, hashByte_lt crc⟩ |||
      UInt8.ofNat (1 <<< (index &&& 7).toNat)) (hashByte_lt crc)

/-- The old contents of the table are cleared. -/
def macToHashTable (s : CrcStatics) (call : Vector UInt8 6 × Vector UInt8 8) :
    CrcStatics × Vector UInt8 8 :=
  let crc := ethernetCrc32 s call.1.toList
  (crc.1, setHashBit (Vector.replicate 8 0) crc.2)

/-- Entry `k` of a table, 0 to 63. -/
def entry (hashTable : Vector UInt8 8) (k : Fin 64) : Bool :=
  (hashTable.get ⟨k / 8, by omega⟩).toBitVec.getLsbD (k % 8)

theorem setHashBit_entry (crc : UInt32) (k : Fin 64) :
    entry (setHashBit (Vector.replicate 8 0) crc) k = decide ((k : Nat) = crc.toNat / 2 ^ 26) := by
  have index := hashIndex_toNat crc
  have byte : (hashIndex crc >>> 3).toNat = crc.toNat / 2 ^ 26 / 8 := by
    rw [UInt8.toNat_shiftRight, index]
    exact Nat.shiftRight_eq_div_pow _ 3
  have place : (hashIndex crc &&& 7).toNat = crc.toNat / 2 ^ 26 % 8 := by
    rw [UInt8.toNat_and, index]
    exact Nat.and_two_pow_sub_one_eq_mod _ 3
  have zero : ∀ i : Fin 8, (Vector.replicate 8 (0 : UInt8)).get i = 0 :=
    fun i => Vector.getElem_replicate i.isLt
  have word : (setHashBit (Vector.replicate 8 0) crc).get ⟨k / 8, by omega⟩ =
      if crc.toNat / 2 ^ 26 / 8 = k / 8 then UInt8.ofNat (2 ^ (crc.toNat / 2 ^ 26 % 8)) else 0 := by
    refine (Vector.getElem_set (hashByte_lt crc) _).trans ?_
    rw [zero, UInt8.zero_or, byte, place, Nat.one_shiftLeft]
    split
    · rfl
    · exact zero _
  have bit : (UInt8.ofNat (2 ^ (crc.toNat / 2 ^ 26 % 8))).toBitVec =
      BitVec.twoPow 8 (crc.toNat / 2 ^ 26 % 8) := by
    apply BitVec.eq_of_toNat_eq
    simp [BitVec.toNat_twoPow]
  rw [entry, word]
  by_cases same : crc.toNat / 2 ^ 26 / 8 = k / 8
  · rw [if_pos same, bit, BitVec.getLsbD_twoPow]
    have position : (k : Nat) = crc.toNat / 2 ^ 26 ↔ crc.toNat / 2 ^ 26 % 8 = k % 8 := by omega
    have inside : crc.toNat / 2 ^ 26 % 8 < 8 := Nat.mod_lt _ (by decide)
    simp only [inside, decide_true, Bool.true_and, position]
  · have other : (k : Nat) ≠ crc.toNat / 2 ^ 26 := by omega
    rw [if_neg same, decide_eq_false other]
    simp

/-- Every call of a run leaves exactly one entry set, whatever the table held: the one that
the six high bits of the checksum of the address number. -/
theorem hash_table_single (calls : List (Vector UInt8 6 × Vector UInt8 8))
    (call : Vector UInt8 6 × Vector UInt8 8) (k : Fin 64) :
    entry (macToHashTable (after macToHashTable .init calls) call).2 k =
      decide ((k : Nat) = (plainCrc32 call.1.toList).toNat / 2 ^ 26) := by
  have start : CrcReady .init := .inl rfl
  have ready : CrcReady (after macToHashTable .init calls) := by
    refine after_invariant macToHashTable CrcReady (fun s ready call => .inr ?_) start calls
    simp only [macToHashTable, ethernetCrc32_call ready]
  simp only [macToHashTable, ethernetCrc32_call ready]
  exact setHashBit_entry _ k

end StandalonePtp
