import StandalonePtp.PtpSync

/-! The two ways a message reaches the interpreter, which is never told how long it is. -/
namespace StandalonePtp

structure Pbuf where
  payload : Memory
  len : Nat

def sizeofEthHdr : Nat := 14

def ethernetHeaderLen : Nat := 14

def ethtypeIp : UInt16 := 0x0800

def ethtypeArp : UInt16 := 0x0806

def ethtypePtp : UInt16 := 0x88F7

def lwipHtons (n : UInt16) : UInt16 := builtinBswap16 n

def ptpMsgInterpreter (s : PtpSyncState) (p : Pbuf) (now : PtpTimestamp) : Access Handled :=
  ptpSyncInterpreter s p.payload now

def ptpSync (s : PtpSyncState) (p : Pbuf) (now : PtpTimestamp) : Access Handled :=
  .behind ethernetHeaderLen
    (ptpSyncInterpreter s (fun i => p.payload (ethernetHeaderLen + i)) now)

def ethhdrType (p : Pbuf) : Access UInt16 := do
  let b0 ← Access.load p.payload 12
  let b1 ← Access.load p.payload 13
  pure (halfword b0 b1)

def gptpProtocolHook (s : PtpSyncState) (p : Pbuf) (now : PtpTimestamp) :
    Access (Option Handled) := do
  let type ← ethhdrType p
  if lwipHtons type = ethtypePtp then do
    let handled ← ptpSync s p now
    pure (some handled)
  else pure none

/-- The hook gets the frames of a type which no other layer takes. -/
def ethernetInput (s : PtpSyncState) (p : Pbuf) (now : PtpTimestamp) :
    Access (Option Handled) :=
  if p.len ≤ sizeofEthHdr then pure none
  else do
    let type ← ethhdrType p
    if type = lwipHtons ethtypeIp ∨ type = lwipHtons ethtypeArp then pure none
    else gptpProtocolHook s p now

inductive Transport where
  | udp
  | gptp
  deriving DecidableEq, Repr

/-- A buffer received over one of the transports; the answer tells whether the
interpreter was called at all. -/
def receive : Transport → PtpSyncState → Pbuf → PtpTimestamp → Access (Option Handled)
  | .udp, s, p, now => do
    let handled ← ptpMsgInterpreter s p now
    pure (some handled)
  | .gptp, s, p, now => ethernetInput s p now

def Transport.headerLen : Transport → Nat
  | .udp => 0
  | .gptp => sizeofEthHdr

def message (t : Transport) (p : Pbuf) : Memory := fun i => p.payload (t.headerLen + i)

def messageLen (t : Transport) (p : Pbuf) : Nat := p.len - t.headerLen

def Pbuf.type (t : Transport) (p : Pbuf) : Option MsgType := msgType (lowNibble (message t p 0))

/-- The interpreter is called: always over UDP, over Ethernet for PTP frames that are
longer than their header. -/
def delivered : Transport → Pbuf → Bool
  | .udp, _ => true
  | .gptp, p => sizeofEthHdr < p.len ∧ lwipHtons (ethhdrType p).value = ethtypePtp

/- Footprints. -/

def extent : Option MsgType → Nat
  | some .followUpMsg => 44
  | some .delayResponse => 44
  | _ => 1

def rejected : Option MsgType → Bool
  | some .delayRequest => true
  | some .pDelayRequest => true
  | some .signaling => true
  | some .management => true
  | none => true
  | _ => false

theorem offsets_storeTimestamp (msg : Memory) (timestamp : Nat) :
    (ptpStoreTimestamp msg timestamp).offsets =
      List.range' timestamp 6 ++ List.range' (timestamp + 6) 4 := by
  simp [ptpStoreTimestamp]

theorem reaches_timestamp (n : Nat) (offsets : List Nat) (last : 43 ∈ offsets)
    (others : ∀ i ∈ offsets, i ≤ 43) : (∀ i ∈ offsets, i < n) ↔ 44 ≤ n := by
  constructor
  · exact fun inside => inside 43 last
  · intro long i read
    have below := others i read
    omega

theorem within_interpreter (n : Nat) (s : PtpSyncState) (msg : Memory) (now : PtpTimestamp) :
    (ptpSyncInterpreter s msg now).Within n ↔ extent (msgType (lowNibble (msg 0))) ≤ n := by
  simp only [ptpSyncInterpreter, Access.Within, Access.offsets_bind, Access.offsets_load,
    Access.value_load]
  cases type : msgType (lowNibble (msg 0)) with
  | none => simp [extent]; omega
  | some t =>
    cases t with
    | followUpMsg =>
      simp only [Access.offsets_bind, offsets_storeTimestamp]
      exact reaches_timestamp n [0, 34, 35, 36, 37, 38, 39, 40, 41, 42, 43, 0, 1, 2, 3]
        (by decide) (by decide)
    | delayResponse =>
      simp only [Access.offsets_bind, offsets_storeTimestamp]
      exact reaches_timestamp n [0, 34, 35, 36, 37, 38, 39, 40, 41, 42, 43]
        (by decide) (by decide)
    | _ => simp [extent]; omega

theorem interpreter_rejected {msg : Memory} (h : rejected (msgType (lowNibble (msg 0))) = true)
    (s : PtpSyncState) (now : PtpTimestamp) :
    (ptpSyncInterpreter s msg now).value = ⟨ptpMsgErr, s, []⟩ := by
  simp only [ptpSyncInterpreter, Access.value_bind, Access.value_load]
  cases type : msgType (lowNibble (msg 0)) with
  | none => rfl
  | some t => cases t <;> first | rfl | simp [type, rejected] at h

theorem interpreter_accepted {msg : Memory} (h : rejected (msgType (lowNibble (msg 0))) = false)
    (s : PtpSyncState) (now : PtpTimestamp) :
    (ptpSyncInterpreter s msg now).value.ret = ptpMsgOk := by
  simp only [ptpSyncInterpreter, Access.value_bind, Access.value_load]
  cases type : msgType (lowNibble (msg 0)) with
  | none => simp [type, rejected] at h
  | some t => cases t <;> first | rfl | simp [type, rejected] at h

/- The transports. -/

theorem ethhdrType_inside {p : Pbuf} (long : sizeofEthHdr < p.len) :
    ∀ i ∈ (ethhdrType p).offsets, i < p.len := by
  simp only [sizeofEthHdr] at long
  simp [ethhdrType]
  omega

theorem receive_delivered {t : Transport} {p : Pbuf} (h : delivered t p = true)
    (s : PtpSyncState) (now : PtpTimestamp) :
    (receive t s p now).value = some (ptpSyncInterpreter s (message t p) now).value ∧
      ((receive t s p now).Within p.len ↔
        (ptpSyncInterpreter s (message t p) now).Within (messageLen t p)) := by
  cases t with
  | udp =>
    have start : message .udp p = p.payload := by
      funext i
      simp [message, Transport.headerLen]
    rw [start]
    simp [receive, ptpMsgInterpreter, messageLen, Transport.headerLen, Access.Within]
  | gptp =>
    obtain ⟨long, type⟩ := of_decide_eq_true h
    have others : ¬ ((ethhdrType p).value = lwipHtons ethtypeIp ∨
        (ethhdrType p).value = lwipHtons ethtypeArp) := by
      rintro (other | other) <;> rw [other] at type <;> revert type <;> decide
    have whole : sizeofEthHdr + messageLen .gptp p = p.len := by
      simp only [messageLen, Transport.headerLen]
      omega
    have behind := Access.within_behind sizeofEthHdr (messageLen .gptp p)
      (ptpSyncInterpreter s (message .gptp p) now)
    rw [whole] at behind
    have header := ethhdrType_inside long
    simp only [receive, ethernetInput, if_neg (Nat.not_le.mpr long), Access.value_bind,
      if_neg others, gptpProtocolHook, if_pos type, Access.value_pure, Access.Within,
      Access.offsets_bind, Access.offsets_pure, List.append_nil]
    refine ⟨rfl, Iff.trans ?_ behind⟩
    constructor
    · intro inside i read
      exact inside i (List.mem_append_right _ (List.mem_append_right _ read))
    · intro inside i read
      rcases List.mem_append.mp read with read | read
      · exact header i read
      · rcases List.mem_append.mp read with read | read
        · exact header i read
        · exact inside i read

theorem receive_dropped {t : Transport} {p : Pbuf} (h : delivered t p = false)
    (s : PtpSyncState) (now : PtpTimestamp) :
    (receive t s p now).value = none ∧ (receive t s p now).Within p.len := by
  cases t with
  | udp => contradiction
  | gptp =>
    simp only [receive, ethernetInput]
    by_cases short : p.len ≤ sizeofEthHdr
    · rw [if_pos short]
      exact ⟨rfl, fun i read => absurd read List.not_mem_nil⟩
    · have type : ¬ lwipHtons (ethhdrType p).value = ethtypePtp :=
        fun type => of_decide_eq_false h ⟨Nat.not_le.mp short, type⟩
      have header := ethhdrType_inside (Nat.not_le.mp short)
      rw [if_neg short]
      simp only [Access.value_bind, Access.Within, Access.offsets_bind]
      split
      · simpa using header
      · simpa [gptpProtocolHook, type] using header

/- The contract. -/

/-- A least length for each type, which spans at least what its case reads. -/
structure Formats where
  size : Option MsgType → Nat
  covers : ∀ type, extent type ≤ size type

def sizeofMsgHeader : Nat := 34

def formats : Formats where
  size
    | some .syncMsg => 44
    | some .delayRequest => 44
    | some .followUpMsg => 44
    | some .delayResponse => 54
    | some .pDelayRequest => 54
    | some .pDelayResponse => 54
    | some .pDelayResponseFollowUp => 54
    | some .announce => 64
    | some .signaling => sizeofMsgHeader
    | some .management => sizeofMsgHeader
    | none => sizeofMsgHeader
  covers := by
    rintro (_ | _ | _) <;> decide

def Rejects (s : PtpSyncState) (handled : Handled) : Prop :=
  handled.ret = ptpMsgErr ∧
    (handled.state.t1 = s.t1 ∧ handled.state.t2 = s.t2 ∧ handled.state.t3 = s.t3 ∧
      handled.state.t4 = s.t4) ∧
    handled.effects = []

/-- Only received octets are read, and a message which is too short for its type is rejected. -/
def SafelyReceived (f : Formats) (t : Transport) (s : PtpSyncState) (p : Pbuf)
    (now : PtpTimestamp) : Prop :=
  (receive t s p now).Within p.len ∧
    ∀ handled, (receive t s p now).value = some handled →
      messageLen t p < f.size (p.type t) → Rejects s handled

/-- A message that is handed on has an octet at all, and is of a type that is rejected
anyway or as long as its format. -/
def LongEnough (f : Formats) (t : Transport) (p : Pbuf) : Prop :=
  delivered t p = true →
    0 < messageLen t p ∧ (rejected (p.type t) = true ∨ f.size (p.type t) ≤ messageLen t p)

/-- No length is checked on either path, whatever length a type is taken to need. -/
theorem safely_received_iff (f : Formats) (t : Transport) (s : PtpSyncState) (p : Pbuf)
    (now : PtpTimestamp) : SafelyReceived f t s p now ↔ LongEnough f t p := by
  cases handed : delivered t p with
  | false =>
    obtain ⟨none, inside⟩ := receive_dropped handed s now
    refine iff_of_true ⟨inside, fun handled some => ?_⟩ (fun impossible => ?_)
    · rw [none] at some
      contradiction
    · rw [handed] at impossible
      contradiction
  | true =>
    obtain ⟨answer, inside⟩ := receive_delivered handed s now
    have footprint := within_interpreter (messageLen t p) s (message t p) now
    have covered := f.covers (p.type t)
    simp only [SafelyReceived, LongEnough, handed, answer, inside, footprint, true_imp_iff,
      Option.some.injEq, forall_eq']
    change extent (p.type t) ≤ _ ∧ _ ↔ _
    cases refused : rejected (p.type t) with
    | true =>
      have octet : extent (p.type t) = 1 := by
        revert refused
        rcases p.type t with _ | _ | _ <;> decide
      rw [octet, interpreter_rejected refused]
      have silent : Rejects s ⟨ptpMsgErr, s, []⟩ := ⟨rfl, ⟨rfl, rfl, rfl, rfl⟩, rfl⟩
      exact ⟨fun h => ⟨h.1, .inl rfl⟩, fun h => ⟨h.1, fun _ => silent⟩⟩
    | false =>
      have accepted := interpreter_accepted refused s now
      have octet : 0 < extent (p.type t) := by
        rcases p.type t with _ | _ | _ <;> decide
      constructor
      · rintro ⟨reads, rejects⟩
        refine ⟨by omega, .inr (Nat.not_lt.mp (fun short => ?_))⟩
        have error := (rejects short).1
        rw [accepted] at error
        revert error
        decide
      · rintro ⟨_, impossible | long⟩
        · contradiction
        · exact ⟨by omega, fun short => absurd long (by omega)⟩

/-- One octet is accepted as a FollowUp. -/
theorem short_followUp_accepted :
    ¬ ∀ (t : Transport) (s : PtpSyncState) (p : Pbuf) (now : PtpTimestamp),
      SafelyReceived formats t s p now := by
  intro h
  have inside := (h .udp .init ⟨fun _ => 8, 1⟩ .zero).1
  revert inside
  decide

end StandalonePtp
