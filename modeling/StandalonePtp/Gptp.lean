import StandalonePtp.Crc
import StandalonePtp.Run

/-! The checksum of gptp.c: byte by byte out of a table that the first call builds. -/
namespace StandalonePtp

open Run

/-- One turn of the inner loop that fills the table. -/
def crcShift (v : UInt32) : UInt32 :=
  if v &&& 1 ≠ 0 then (0xEDB88320 : UInt32) ^^^ (v >>> 1) else v >>> 1

def crcShifts : Nat → UInt32 → UInt32
  | 0, v => v
  | j + 1, v => crcShifts j (crcShift v)

def buildTable : Vector UInt32 256 := Vector.ofFn (fun i => crcShifts 8 (UInt32.ofNat i))

structure CrcStatics where
  table : Vector UInt32 256
  tableInit : Int32
  deriving DecidableEq, Repr

def CrcStatics.init : CrcStatics := ⟨Vector.replicate 256 0, 0⟩

theorem masked_toNat (x : UInt32) : (x &&& 0xFF).toNat = x.toNat % 256 := by
  rw [UInt32.toNat_and]
  exact Nat.and_two_pow_sub_one_eq_mod x.toNat 8

theorem masked_lt (x : UInt32) : (x &&& 0xFF).toNat < 256 := by
  rw [masked_toNat]
  exact Nat.mod_lt _ (by decide)

def crcByte (table : Vector UInt32 256) (crc : UInt32) (b : UInt8) : UInt32 :=
  table.get ⟨((crc ^^^ b.toUInt32) &&& 0xFF).toNat, masked_lt _⟩ ^^^ (crc >>> 8)

def ethernetCrc32 (s : CrcStatics) (data : List UInt8) : CrcStatics × UInt32 :=
  let s := if s.tableInit = 0 then ⟨buildTable, 1⟩ else s
  (s, data.foldl (crcByte s.table) 0xFFFFFFFF ^^^ 0xFFFFFFFF)

/-- The reflected CRC-32 of the bits of a message, the low bit of each byte first. -/
def plainCrc32 (data : List UInt8) : UInt32 :=
  ⟨~~~Crc.serial 0xEDB88320#32 0xFFFFFFFF#32 (data.flatMap (fun b => Crc.bits 8 b.toBitVec))⟩

/- The words of the code as registers of the check. -/

theorem crcShift_step (v : UInt32) : (crcShift v).toBitVec = Crc.step 0xEDB88320#32 v.toBitVec := by
  have lowest : v &&& 1 ≠ 0 ↔ v.toBitVec.getLsbD 0 = true := by
    rw [ne_eq, ← UInt32.toBitVec_inj, UInt32.toBitVec_and]
    change ¬ v.toBitVec &&& 1#32 = 0#32 ↔ _
    rw [BitVec.and_one_eq_setWidth_ofBool_getLsbD]
    cases v.toBitVec.getLsbD 0 <;> decide
  rw [crcShift, Crc.step]
  by_cases odd : v.toBitVec.getLsbD 0 = true
  · rw [if_pos (lowest.mpr odd), if_pos odd]
    rfl
  · rw [if_neg (mt lowest.mp odd), if_neg odd]
    rfl

theorem crcShifts_steps (n : Nat) (v : UInt32) :
    (crcShifts n v).toBitVec = Crc.steps 0xEDB88320#32 n v.toBitVec := by
  induction n generalizing v with
  | zero => rfl
  | succ n ih => rw [crcShifts, ih, crcShift_step, Crc.steps]

theorem masked_low (x : UInt32) : (x &&& 0xFF).toBitVec = Crc.low 8 x.toBitVec := by
  apply BitVec.eq_of_toNat_eq
  rw [UInt32.toNat_toBitVec, masked_toNat, Crc.low, BitVec.toNat_setWidth, BitVec.toNat_setWidth,
    UInt32.toNat_toBitVec]
  omega

theorem crcByte_takeChunk (crc : UInt32) (b : UInt8) :
    (crcByte buildTable crc b).toBitVec =
      Crc.takeChunk 0xEDB88320#32 crc.toBitVec b.toBitVec := by
  have entry : buildTable.get ⟨((crc ^^^ b.toUInt32) &&& 0xFF).toNat, masked_lt _⟩ =
      crcShifts 8 ((crc ^^^ b.toUInt32) &&& 0xFF) := by
    refine (Vector.getElem_ofFn (masked_lt _)).trans ?_
    rw [UInt32.ofNat_toNat]
  rw [crcByte, entry, UInt32.toBitVec_xor, crcShifts_steps, masked_low]
  rfl

theorem foldl_crcByte (data : List UInt8) (crc : UInt32) :
    (data.foldl (crcByte buildTable) crc).toBitVec =
      Crc.serial 0xEDB88320#32 crc.toBitVec (data.flatMap (fun b => Crc.bits 8 b.toBitVec)) := by
  calc (data.foldl (crcByte buildTable) crc).toBitVec
      = (data.map UInt8.toBitVec).foldl (Crc.takeChunk 0xEDB88320#32) crc.toBitVec := by
        rw [List.foldl_map]
        exact (List.foldl_hom UInt32.toBitVec (fun v b => (crcByte_takeChunk v b).symm)).symm
    _ = _ := by rw [Crc.foldl_takeChunk _ (by decide), List.flatMap_map]

def CrcReady (s : CrcStatics) : Prop := s.tableInit = 0 ∨ s = ⟨buildTable, 1⟩

theorem ethernetCrc32_call {s : CrcStatics} (ready : CrcReady s) (data : List UInt8) :
    ethernetCrc32 s data = (⟨buildTable, 1⟩, plainCrc32 data) := by
  have table :
      (if s.tableInit = 0 then ⟨buildTable, 1⟩ else s) = (⟨buildTable, 1⟩ : CrcStatics) := by
    rcases ready with zero | built
    · rw [if_pos zero]
    · rw [built]
      rfl
  rw [ethernetCrc32, table, Prod.mk.injEq]
  refine ⟨rfl, ?_⟩
  apply UInt32.toBitVec_inj.mp
  rw [UInt32.toBitVec_xor, foldl_crcByte, plainCrc32]
  exact BitVec.xor_allOnes

/-- Every call of a run, the first that builds the table and all later ones, returns the
plain CRC-32 of its bytes. -/
theorem ethernetCrc32_plain (calls : List (List UInt8)) :
    outputs ethernetCrc32 .init calls = calls.map plainCrc32 := by
  have start : CrcReady .init := .inl rfl
  generalize CrcStatics.init = s at start ⊢
  induction calls generalizing s with
  | nil => rfl
  | cons data calls ih =>
    have call := ethernetCrc32_call start data
    rw [outputs, List.map_cons, call, ih _ (.inr rfl)]

/-- The check value of the CRC-32, over the digits from 1 to 9. -/
example : plainCrc32 [0x31, 0x32, 0x33, 0x34, 0x35, 0x36, 0x37, 0x38, 0x39] = 0xCBF43926 := by
  decide +kernel

end StandalonePtp
