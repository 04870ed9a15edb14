import StandalonePtp.Receive

/-! What becomes of a received frame: which layer takes it over, or who releases its buffer.
The switch for PPP is left out, as is the one for VLAN headers. -/
namespace StandalonePtp

inductive Err where
  | ok
  | mem
  | arg
  deriving DecidableEq, Repr

inductive Layer where
  | ip4Input
  | etharpInput
  | ip6Input
  deriving DecidableEq, Repr

inductive Disposal where
  | pbufFree
  | passedTo (layer : Layer)
  deriving DecidableEq, Repr

def ethtypeIpv6 : UInt16 := 0x86DD

/-- The flag of the interface, the option for IPv6, and whether moving a buffer over its
header fails, which is up to the buffers. -/
structure NetifConfig where
  netifFlagEtharp : Bool
  lwipIpv6 : Bool
  removeHeaderFails : Pbuf → Bool

variable (c : NetifConfig)

/-- The hook releases every buffer itself, and says that it has handled the frame. -/
def hookDisposal : List Disposal × Err := ([.pbufFree], .ok)

def behindHeader (p : Pbuf) (layer : Layer) : List Disposal :=
  if c.removeHeaderFails p then [.pbufFree] else [.passedTo layer]

def ethernetInputDisposal (p : Pbuf) : List Disposal × Err :=
  if p.len ≤ sizeofEthHdr then ([.pbufFree], .ok)
  else
    let type := (ethhdrType p).value
    if type = lwipHtons ethtypeIp then
      if !c.netifFlagEtharp then ([.pbufFree], .ok) else (behindHeader c p .ip4Input, .ok)
    else if type = lwipHtons ethtypeArp then
      if !c.netifFlagEtharp then ([.pbufFree], .ok) else (behindHeader c p .etharpInput, .ok)
    else if c.lwipIpv6 && type = lwipHtons ethtypeIpv6 then
      if p.len < sizeofEthHdr then ([.pbufFree], .ok) else (behindHeader c p .ip6Input, .ok)
    else
      if hookDisposal.2 = .ok then (hookDisposal.1, .ok)
      else (hookDisposal.1 ++ [.pbufFree], .ok)

/-- The types of frames that `xemacpsif_input` lets through. -/
def passesFilter (type : UInt16) : Bool :=
  type = ethtypePtp || type = ethtypeIp || type = ethtypeArp || (c.lwipIpv6 && type = ethtypeIpv6)

def xemacpsifInputDisposal (p : Pbuf) : List Disposal :=
  if passesFilter c (lwipHtons (ethhdrType p).value) then
    let input := ethernetInputDisposal c p
    if input.2 ≠ .ok then input.1 ++ [.pbufFree] else input.1
  else [.pbufFree]

theorem behindHeader_once (p : Pbuf) (layer : Layer) : (behindHeader c p layer).length = 1 := by
  rw [behindHeader]
  split <;> rfl

/-- `ethernet_input` disposes of the buffer itself and always says so. -/
theorem ethernetInput_once (p : Pbuf) :
    (ethernetInputDisposal c p).1.length = 1 ∧ (ethernetInputDisposal c p).2 = .ok := by
  simp only [ethernetInputDisposal, hookDisposal, if_true]
  split
  · exact ⟨rfl, rfl⟩
  · split
    · split <;> simp [behindHeader_once]
    · split
      · split <;> simp [behindHeader_once]
      · split
        · split <;> simp [behindHeader_once]
        · exact ⟨rfl, rfl⟩

/-- No layer releases a buffer that another one has released or taken over. -/
theorem xemacpsifInput_once (p : Pbuf) : (xemacpsifInputDisposal c p).length = 1 := by
  obtain ⟨once, ok⟩ := ethernetInput_once c p
  rw [xemacpsifInputDisposal]
  split
  · simp [ok, once]
  · rfl

/-- A frame whose message is handed to the interpreter passes the filter of the driver, and
its buffer is released behind it. -/
theorem delivered_freed {p : Pbuf} (h : delivered .gptp p = true) :
    passesFilter c (lwipHtons (ethhdrType p).value) = true ∧
      xemacpsifInputDisposal c p = [.pbufFree] := by
  obtain ⟨long, type⟩ := of_decide_eq_true h
  have others : ∀ other ∈ [ethtypeIp, ethtypeArp, ethtypeIpv6],
      (ethhdrType p).value ≠ lwipHtons other := by
    have swapped : ∀ other ∈ [ethtypeIp, ethtypeArp, ethtypeIpv6],
        lwipHtons (lwipHtons other) ≠ ethtypePtp := by
      simp only [List.forall_mem_cons]
      exact ⟨by decide, by decide, by decide, List.forall_mem_nil _⟩
    intro other listed same
    rw [same] at type
    exact swapped other listed type
  have passes : passesFilter c (lwipHtons (ethhdrType p).value) = true := by
    simp [passesFilter, type]
  have input : ethernetInputDisposal c p = ([.pbufFree], .ok) := by
    rw [ethernetInputDisposal, if_neg (Nat.not_le.mpr long), if_neg (others _ (by decide)),
      if_neg (others _ (by decide)), if_neg (by simp [others ethtypeIpv6 (by decide)])]
    rfl
  rw [xemacpsifInputDisposal, if_pos passes, input]
  exact ⟨passes, rfl⟩

end StandalonePtp
