import Mathlib.Algebra.Ring.Nat
import StandalonePtp.Run

/-! Where `init_dma` puts the chains of descriptors. What a call takes of the space stays taken,
and every error makes the driver call it again. -/
namespace StandalonePtp

open Run

def bdSpaceSize (aarch64 : Bool) : Nat := if aarch64 then 0x200000 else 0x100000

/-- The offsets in `bd_space` of the chains of one call. Later versions of the controller have
two queues that are parked at a chain of their own. -/
def initDmaChains (bdSpaceIndex moduleId : UInt32) : UInt32 × List UInt32 :=
  let gigeversion := (moduleId >>> 16) &&& 0xFFF
  let rxBdspace := bdSpaceIndex
  let bdSpaceIndex := bdSpaceIndex + 0x10000
  let txBdspace := bdSpaceIndex
  let bdSpaceIndex := bdSpaceIndex + 0x10000
  if gigeversion > 2 then
    let bdrxterminate := bdSpaceIndex
    let bdSpaceIndex := bdSpaceIndex + 0x10000
    let bdtxterminate := bdSpaceIndex
    let bdSpaceIndex := bdSpaceIndex + 0x10000
    (bdSpaceIndex, [rxBdspace, txBdspace, bdrxterminate, bdtxterminate])
  else (bdSpaceIndex, [rxBdspace, txBdspace])

def chainsTaken (moduleId : UInt32) : Nat := if (moduleId >>> 16) &&& 0xFFF > 2 then 4 else 2

/-- The offset of the chain with a number, as the code counts. -/
def chainAt (k : Nat) : UInt32 := .ofNat (0x10000 * k)

theorem chainAt_succ (k : Nat) : chainAt k + 0x10000 = chainAt (k + 1) := by
  rw [chainAt, chainAt, Nat.mul_succ, UInt32.ofNat_add]
  rfl

theorem chainAt_toNat (k : Nat) : (chainAt k).toNat = 0x10000 * (k % 0x10000) := by
  rw [chainAt, UInt32.toNat_ofNat']
  omega

theorem initDmaChains_numbered (k : Nat) (moduleId : UInt32) :
    initDmaChains (chainAt k) moduleId =
      (chainAt (k + chainsTaken moduleId),
        (List.range' k (chainsTaken moduleId)).map chainAt) := by
  by_cases later : (moduleId >>> 16) &&& 0xFFF > 2
  · simp only [initDmaChains, chainsTaken, if_pos later, chainAt_succ]
    rfl
  · simp only [initDmaChains, chainsTaken, if_neg later, chainAt_succ]
    rfl

/-- The calls take one chain behind the other. -/
theorem chains_numbered (moduleIds : List UInt32) (k : Nat) :
    (outputs initDmaChains (chainAt k) moduleIds).flatten =
      (List.range' k (moduleIds.map chainsTaken).sum).map chainAt := by
  induction moduleIds generalizing k with
  | nil => rfl
  | cons moduleId rest ih =>
    rw [outputs, initDmaChains_numbered, List.flatten_cons, ih, List.map_cons, List.sum_cons,
      ← List.range'_append_1, List.map_append]

/-- The chains of all calls, from power-up. -/
def chainsOf (moduleIds : List UInt32) : List UInt32 := (outputs initDmaChains 0 moduleIds).flatten

def chainCount (moduleIds : List UInt32) : Nat := (moduleIds.map chainsTaken).sum

/-- However many interfaces are initialised, and however often after errors: the chains are
inside the space exactly as long as all that were ever taken fit into it together, and they do
not overlap up to the first 65536 of them. -/
theorem chains_inside_iff (aarch64 : Bool) (moduleIds : List UInt32) :
    ((∀ chain ∈ chainsOf moduleIds, chain.toNat + 0x10000 ≤ bdSpaceSize aarch64) ↔
      0x10000 * chainCount moduleIds ≤ bdSpaceSize aarch64) ∧
    ((chainsOf moduleIds).Pairwise (fun first later => first.toNat + 0x10000 ≤ later.toNat) ↔
      chainCount moduleIds ≤ 0x10000) := by
  have numbered : chainsOf moduleIds = (List.range' 0 (chainCount moduleIds)).map chainAt :=
    chains_numbered moduleIds 0
  have size : ∃ room, room < 0x10000 ∧ bdSpaceSize aarch64 = 0x10000 * room := by
    cases aarch64 with
    | true => exact ⟨32, by decide, rfl⟩
    | false => exact ⟨16, by decide, rfl⟩
  obtain ⟨room, small, size⟩ := size
  rw [numbered, size]
  constructor
  · simp only [List.forall_mem_map, List.mem_range'_1, chainAt_toNat]
    constructor
    · intro inside
      by_contra crowded
      have outside := inside room ⟨Nat.zero_le _, by omega⟩
      omega
    · intro fits i taken
      omega
  · rw [List.pairwise_map, List.pairwise_iff_getElem]
    simp only [List.length_range', List.getElem_range', chainAt_toNat]
    constructor
    · intro apart
      by_contra crowded
      have wrapped := apart 0 0x10000 (by omega) (by omega) (by decide)
      omega
    · intro few i j _ inside before
      omega

-- The first start and seven recoveries of the older controller fit, and the eighth does not.
example :
    ((outputs initDmaChains 0 (List.replicate 9 0x00020000)).map
      (fun chains => chains.all (fun chain => chain.toNat < bdSpaceSize false))) =
      List.replicate 8 true ++ [false] := by decide

end StandalonePtp
