import StandalonePtp.Ethernet
import StandalonePtp.Request

/-! What leaves the slave, as octets: the header that the network stack puts in front of a
packet, and the two ways a Delay_Req is sent. -/
namespace StandalonePtp

def ethHdr (dst src : Vector UInt8 6) (typeBe : UInt16) : List UInt8 :=
  dst.toList ++ src.toList ++ halfwordOctets typeBe

/-- Without room for the header the answer is `ERR_BUF` and nothing is sent. -/
def ethernetOutput (addHeaderFails : Bool) (payload : List UInt8) (src dst : Vector UInt8 6)
    (ethType : UInt16) : Option (List UInt8) :=
  if addHeaderFails then none else some (ethHdr dst src (lwipHtons ethType) ++ payload)

inductive Packet where
  | datagram (address : Vector UInt8 4) (port : UInt16) (payload : List UInt8)
  | frame (octets : List UInt8)
  deriving DecidableEq, Repr

def group : Vector UInt8 4 := #v[224, 0, 1, 129]

def ptpEventMsgPort : UInt16 := 319

def ptpGenMsgPort : UInt16 := 320

def gptpEthHeader : Vector UInt8 14 :=
  #v[0x01, 0x1B, 0x19, 0x00, 0x00, 0x00, 0x00, 0x0a, 0x35, 0x00, 0x01, 0x02, 0x88, 0xF7]

/-- What the stack has left for one request. -/
structure Stack where
  udpNew : Bool
  pbufAlloc : Bool
  deriving DecidableEq, Repr

/-- The buffer is written to unchecked: `none` is the access through a null pointer. That
`udp_sendto` and `udp_remove` refuse a null control block is an assumption about the stack. -/
def ptpSendDelayRequest (st : Stack) (msg : List UInt8) : Option (List Packet) :=
  if st.pbufAlloc then some (if st.udpNew then [.datagram group ptpEventMsgPort msg] else [])
  else none

def gptpSendDelayRequest (st : Stack) (msg : List UInt8) : Option (List Packet) :=
  some (if st.pbufAlloc then [.frame (gptpEthHeader.toList ++ msg)] else [])

/-- The callback of a transport. -/
def sendDelayRequest : Transport → Stack → List UInt8 → Option (List Packet)
  | .udp => ptpSendDelayRequest
  | .gptp => gptpSendDelayRequest

/-- The packet that carries a request over a transport. -/
def Transport.packet : Transport → List UInt8 → Packet
  | .udp, msg => .datagram group ptpEventMsgPort msg
  | .gptp, msg => .frame (gptpEthHeader.toList ++ msg)

/- Frames read back. -/

theorem length_ethHdr (dst src : Vector UInt8 6) (typeBe : UInt16) :
    (ethHdr dst src typeBe).length = sizeofEthHdr := by
  simp [ethHdr, halfwordOctets, sizeofEthHdr]

theorem lwipHtons_halfword (b0 b1 : UInt8) : lwipHtons (halfword b0 b1) = halfword b1 b0 := by
  have swapped := builtinBswap16_halfword b0 b1
  have number := halfword_toNat b1 b0
  simp only [bigEndian, List.foldl_cons, List.foldl_nil] at swapped
  apply UInt16.toNat_inj.mp
  rw [lwipHtons, swapped, number]
  omega

theorem lwipHtons_lwipHtons (n : UInt16) : lwipHtons (lwipHtons n) = n := by
  rw [← halfword_octets n, lwipHtons_halfword, lwipHtons_halfword]

theorem gptpEthHeader_ethHdr :
    gptpEthHeader.toList = ethHdr #v[0x01, 0x1B, 0x19, 0x00, 0x00, 0x00]
      #v[0x00, 0x0a, 0x35, 0x00, 0x01, 0x02] (lwipHtons ethtypePtp) := by decide

theorem ethhdrType_held {p : Pbuf} {dst src : Vector UInt8 6} {typeBe : UInt16}
    (held : Holds p.payload 0 (ethHdr dst src typeBe)) : (ethhdrType p).value = typeBe := by
  rw [ethHdr, holds_append] at held
  obtain ⟨-, type⟩ := held
  simp only [List.length_append, Vector.length_toList, halfwordOctets, holds_cons, holds_nil,
    and_true] at type
  obtain ⟨low, high⟩ := type
  simp only [ethhdrType, Access.value_bind, Access.value_load, Access.value_pure]
  rw [show p.payload 12 = _ from low, show p.payload 13 = _ from high, halfword_octets]

/-- A frame that holds what `ethernet_output` builds is read back with its type and payload. -/
theorem frame_readBack {p : Pbuf} {dst src : Vector UInt8 6} {ethType : UInt16}
    {payload : List UInt8}
    (held : Holds p.payload 0 (ethHdr dst src (lwipHtons ethType) ++ payload)) :
    lwipHtons (ethhdrType p).value = ethType ∧ Holds (message .gptp p) 0 payload := by
  rw [holds_append, length_ethHdr] at held
  obtain ⟨header, content⟩ := held
  constructor
  · rw [ethhdrType_held header, lwipHtons_lwipHtons]
  · rw [Holds] at content ⊢
    rw [← content, List.length_map, List.length_range', List.range'_eq_map_range,
      List.range'_eq_map_range]
    simp [message, Transport.headerLen, Function.comp_def]

/-- The layer that a type of frame belongs to, if its protocol is compiled in. -/
def layerOf (c : NetifConfig) (ethType : UInt16) : Option Layer :=
  if ethType = ethtypeIp then some .ip4Input
  else if ethType = ethtypeArp then some .etharpInput
  else if c.lwipIpv6 && ethType = ethtypeIpv6 then some .ip6Input
  else none

def Layer.disposal : Option Layer → Disposal
  | some layer => .passedTo layer
  | none => .pbufFree

theorem ethernetInput_layer {c : NetifConfig} {p : Pbuf} {ethType : UInt16}
    (arp : c.netifFlagEtharp = true) (moves : c.removeHeaderFails p = false)
    (long : sizeofEthHdr < p.len) (type : lwipHtons (ethhdrType p).value = ethType) :
    ethernetInputDisposal c p = ([Layer.disposal (layerOf c ethType)], .ok) := by
  have compare : ∀ other, ((ethhdrType p).value = lwipHtons other) = (ethType = other) := by
    intro other
    rw [← type]
    exact propext ⟨fun same => by rw [same, lwipHtons_lwipHtons],
      fun same => by rw [← same, lwipHtons_lwipHtons]⟩
  simp only [ethernetInputDisposal, if_neg (Nat.not_le.mpr long), compare, layerOf, behindHeader,
    arp, moves, hookDisposal, Nat.not_lt.mpr (Nat.le_of_lt long), Bool.and_eq_true, decide_eq_true_eq,
    Bool.not_true, Bool.false_eq_true, if_false, if_true]
  by_cases ip : ethType = ethtypeIp
  · rw [if_pos ip, if_pos ip]
    rfl
  · by_cases isArp : ethType = ethtypeArp
    · rw [if_neg ip, if_pos isArp, if_neg ip, if_pos isArp]
      rfl
    · by_cases ip6 : c.lwipIpv6 = true ∧ ethType = ethtypeIpv6
      · rw [if_neg ip, if_neg isArp, if_pos ip6, if_neg ip, if_neg isArp, if_pos ip6]
        rfl
      · rw [if_neg ip, if_neg isArp, if_neg ip6, if_neg ip, if_neg isArp, if_neg ip6]
        rfl

/-- What one station sends through `ethernet_output`, another one takes in if it is not empty: a
packet goes to the layer of its type without the header, a PTP message to the interpreter, and
all other frames are released. The receiver takes ARP packets and can remove the header. -/
theorem output_received {c : NetifConfig} {p : Pbuf} {dst src : Vector UInt8 6}
    {ethType : UInt16} {payload octets : List UInt8} (arp : c.netifFlagEtharp = true)
    (moves : c.removeHeaderFails p = false) (full : payload ≠ [])
    (sent : ethernetOutput false payload src dst ethType = some octets)
    (held : Holds p.payload 0 octets) (len : octets.length ≤ p.len) :
    xemacpsifInputDisposal c p = [Layer.disposal (layerOf c ethType)] ∧
      delivered .gptp p = decide (ethType = ethtypePtp) ∧ Holds (message .gptp p) 0 payload := by
  obtain rfl := Option.some.inj sent
  obtain ⟨type, content⟩ := frame_readBack held
  have long : sizeofEthHdr < p.len := by
    have some_payload := List.length_pos_iff.mpr full
    rw [List.length_append, length_ethHdr] at len
    omega
  refine ⟨?_, by simp [delivered, long, type], content⟩
  rw [xemacpsifInputDisposal, type, ethernetInput_layer arp moves long type]
  by_cases passes : passesFilter c ethType = true
  · simp [passes]
  · have unknown : layerOf c ethType = none := by
      simp only [passesFilter, Bool.or_eq_true, decide_eq_true_eq, not_or] at passes
      obtain ⟨⟨⟨-, ip⟩, isArp⟩, ip6⟩ := passes
      simp [layerOf, ip, isArp, ip6]
    rw [if_neg passes, unknown]
    rfl

/-- A buffer of the given octets, zero behind them. -/
def Pbuf.ofOctets (octets : List UInt8) : Pbuf := ⟨fun i => octets.getD i 0, octets.length⟩

theorem holds_ofOctets (octets : List UInt8) : Holds (Pbuf.ofOctets octets).payload 0 octets := by
  apply List.ext_getElem
  · simp
  · intro i inside inside'
    simp [Pbuf.ofOctets, inside']

theorem arpReply_received :
    xemacpsifInputDisposal ⟨true, false, fun _ => false⟩
        (.ofOctets (ethHdr #v[0, 10, 53, 0, 1, 2] #v[0, 10, 53, 0, 1, 3] (lwipHtons ethtypeArp) ++
          [0, 1])) = [.passedTo .etharpInput] :=
  (@output_received ⟨true, false, fun _ => false⟩ _ #v[0, 10, 53, 0, 1, 2] #v[0, 10, 53, 0, 1, 3]
    ethtypeArp [0, 1] _ rfl rfl (by decide) rfl (by decide) (by decide)).1

end StandalonePtp
