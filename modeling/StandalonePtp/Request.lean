import StandalonePtp.Codec
import StandalonePtp.History

/-! The octets of a Delay_Req. The buffer it is assembled in is a static that keeps the
previous request, and part of the received header is copied over it. -/
namespace StandalonePtp

open Run

/- The packed structures as octets, and a header read off octets. -/

def nibbles (low high : BitVec 4) : UInt8 := .ofBitVec (high ++ low)

def halfwordOctets (x : UInt16) : List UInt8 := [x.toUInt8, (x >>> 8).toUInt8]

def doublewordOctets (x : UInt64) : List UInt8 := (digits 8 x.toNat).reverse

def doubleword (bs : List UInt8) : UInt64 := .ofNat (bigEndian bs.reverse)

def PtpMsgHeader.octets (hdr : PtpMsgHeader) : List UInt8 :=
  [nibbles hdr.messageType hdr.majorSdoId, nibbles hdr.versionPTP hdr.minorVerPtp] ++
    halfwordOctets hdr.messageLen ++ [hdr.domainNumber, hdr.reserved1] ++
    halfwordOctets hdr.flags ++ doublewordOctets hdr.correctionField ++ hdr.reserved2.toList ++
    hdr.srcPortId.toList ++ halfwordOctets hdr.seqId ++ [hdr.controlField, hdr.logMsgInterval]

def PtpDelayReqMsg.octets (msg : PtpDelayReqMsg) : List UInt8 :=
  msg.header.octets ++ msg.originTs.toList

def ptpMsgHeader (msg : Memory) : PtpMsgHeader where
  messageType := lowNibble (msg 0)
  majorSdoId := highNibble (msg 0)
  versionPTP := lowNibble (msg 1)
  minorVerPtp := highNibble (msg 1)
  messageLen := halfword (msg 2) (msg 3)
  domainNumber := msg 4
  reserved1 := msg 5
  flags := halfword (msg 6) (msg 7)
  correctionField := doubleword ((List.range' 8 8).map msg)
  reserved2 := Vector.ofFn (fun k => msg (16 + k))
  srcPortId := srcPortId msg
  seqId := seqId msg
  controlField := msg 32
  logMsgInterval := msg 33

theorem lowNibble_nibbles : ∀ low high : BitVec 4, lowNibble (nibbles low high) = low := by decide

theorem highNibble_nibbles : ∀ low high : BitVec 4, highNibble (nibbles low high) = high := by
  decide

theorem halfword_toNat (b0 b1 : UInt8) :
    (halfword b0 b1).toNat = 2 ^ 8 * b1.toNat + b0.toNat := by
  have digit := b1.toNat_lt
  have high : (b1.toUInt16 <<< 8).toNat = 2 ^ 8 * b1.toNat := by
    simp [Nat.shiftLeft_eq]
    omega
  rw [halfword, UInt16.toNat_or, high, Nat.or_comm, UInt8.toNat_toUInt16,
    Nat.two_pow_add_eq_or_of_lt b0.toNat_lt]

theorem halfword_octets (x : UInt16) : halfword x.toUInt8 (x >>> 8).toUInt8 = x := by
  have whole := x.toNat_lt
  have high : (x >>> 8).toUInt8.toNat = x.toNat / 256 := by
    simp [Nat.shiftRight_eq_div_pow]
    omega
  apply UInt16.toNat_inj.mp
  rw [halfword_toNat, high, UInt16.toNat_toUInt8]
  omega

theorem builtinBswap16_halfword (b0 b1 : UInt8) :
    (builtinBswap16 (halfword b0 b1)).toNat = bigEndian [b0, b1] := by
  have low := b0.toNat_lt
  have high := b1.toNat_lt
  have number := halfword_toNat b0 b1
  have up : (halfword b0 b1 <<< 8).toNat = 2 ^ 8 * b0.toNat := by
    simp [Nat.shiftLeft_eq, number]
    omega
  have down : (halfword b0 b1 >>> 8).toNat = b1.toNat := by
    simp [Nat.shiftRight_eq_div_pow, number]
    omega
  rw [builtinBswap16, UInt16.toNat_or, up, down, ← Nat.two_pow_add_eq_or_of_lt high]
  simp [bigEndian, Nat.mul_comm]

theorem doubleword_octets (x : UInt64) : doubleword (doublewordOctets x) = x := by
  have room : x.toNat < 256 ^ 8 := x.toNat_lt
  rw [doubleword, doublewordOctets, List.reverse_reverse, bigEndian_digits,
    Nat.mod_eq_of_lt room, UInt64.ofNat_toNat]

@[simp] theorem length_doublewordOctets (x : UInt64) : (doublewordOctets x).length = 8 := by
  simp [doublewordOctets]

theorem length_octets (hdr : PtpMsgHeader) : hdr.octets.length = 34 := by
  simp [PtpMsgHeader.octets, halfwordOctets]

theorem ptpMsgHeader_octets (hdr : PtpMsgHeader) {m : Memory} (sent : Holds m 0 hdr.octets) :
    ptpMsgHeader m = hdr := by
  simp only [PtpMsgHeader.octets, halfwordOctets, holds_append, holds_vector, holds_cons,
    holds_nil, List.length_append, List.length_cons, List.length_nil, length_doublewordOctets,
    Vector.length_toList, Nat.reduceAdd, and_true] at sent
  obtain ⟨⟨⟨⟨⟨⟨⟨⟨⟨b0, b1⟩, b2, b3⟩, b4, b5⟩, b6, b7⟩, correction⟩, reserved⟩, port⟩, s0, s1⟩,
    control, interval⟩ := sent
  rw [Holds, length_doublewordOctets] at correction
  simp only [ptpMsgHeader, b0, b1, b2, b3, b4, b5, b6, b7, correction, reserved, srcPortId, port,
    seqId, s0, s1, control, interval, lowNibble_nibbles, highNibble_nibbles, halfword_octets,
    doubleword_octets]

/- The buffer over a history of messages. -/

/-- The fields that no request writes are as the static buffer starts. -/
structure Unwritten (msg : PtpDelayReqMsg) : Prop where
  reserved2 : msg.header.reserved2 = Vector.replicate 4 0
  srcPortId : msg.header.srcPortId = Vector.replicate 10 0
  seqId : msg.header.seqId = 0
  logMsgInterval : msg.header.logMsgInterval = 0

theorem unwritten_zero : Unwritten .zero := ⟨rfl, rfl, rfl, rfl⟩

theorem unwritten_delayReq {s : PtpSyncState} (clean : Unwritten s.msg) (e : Event) :
    Unwritten (delayReq s e) :=
  ⟨clean.reserved2, clean.srcPortId, clean.seqId, clean.logMsgInterval⟩

theorem interpret_unwritten (s : PtpSyncState) (clean : Unwritten s.msg) (e : Event) :
    Unwritten (interpret s e).1.msg := by
  rw [interpret_state]
  cases e.isFollowUp with
  | true => exact unwritten_delayReq clean e
  | false => exact clean

theorem unwritten_after (before : List Event) : Unwritten (after interpret .init before).msg :=
  after_invariant interpret (fun s => Unwritten s.msg) interpret_unwritten unwritten_zero before

/-- A request made of two received octets, of the first only its high nibble, and a time. -/
def request (nibble : BitVec 4) (octet : UInt8) (ts : PtpTimestamp) : PtpDelayReqMsg where
  header := { PtpDelayReqMsg.zero.header with
    messageType := 0x01
    majorSdoId := nibble
    versionPTP := lowNibble octet
    minorVerPtp := highNibble octet
    messageLen := builtinBswap16 (UInt16.ofNat sizeofDelayReqMsg)
    controlField := 5 }
  originTs := ptpPrepareTimestamp ts

theorem delayReq_request {s : PtpSyncState} (clean : Unwritten s.msg) (e : Event) :
    delayReq s e = request (highNibble (e.msg 0)) (e.msg 1) e.now := by
  simp [delayReq, ptpSyncSendDelayReqEvent, request, PtpDelayReqMsg.zero, clean.reserved2,
    clean.srcPortId, clean.seqId, clean.logMsgInterval]

def Effect.sent : Effect → Option (List UInt8 × Nat)
  | .reportDiff _ _ _ => none
  | .sendDelayReq msg size => some (msg.octets, size)

def sentAfter (before : List Event) (e : Event) : List (List UInt8 × Nat) :=
  (interpret (after interpret .init before) e).2.filterMap Effect.sent

theorem sentAfter_request (before : List Event) {e : Event} (followUp : e.isFollowUp = true) :
    sentAfter before e =
      [((request (highNibble (e.msg 0)) (e.msg 1) e.now).octets, sizeofDelayReqMsg)] := by
  rw [sentAfter, interpret_followUp followUp, delayReq_request (unwritten_after before)]
  rfl

theorem holds_octets {m : Memory} {msg : PtpDelayReqMsg} (sent : Holds m 0 msg.octets) :
    ptpMsgHeader m = msg.header ∧ Holds m timestampOffset msg.originTs.toList := by
  rw [PtpDelayReqMsg.octets, holds_append, length_octets] at sent
  exact ⟨ptpMsgHeader_octets msg.header sent.1, sent.2⟩

/-- The octets of a Delay_Req are a function of one nibble, one octet and the clock, and
they say what they are: their type, their own length and the time they were sent. -/
theorem request_octets :
    (∀ (before before' : List Event) (e e' : Event), e.isFollowUp = true →
      e'.isFollowUp = true → highNibble (e.msg 0) = highNibble (e'.msg 0) →
      e.msg 1 = e'.msg 1 → e.now = e'.now → sentAfter before e = sentAfter before' e') ∧
    ∀ (before : List Event) (e : Event), e.isFollowUp = true →
      ∃ octets size, sentAfter before e = [(octets, size)] ∧ octets.length = 44 ∧
        ∀ m, Holds m 0 octets →
          msgType (ptpMsgHeader m).messageType = some .delayRequest ∧
          bigEndian [m 2, m 3] = size ∧ (ptpMsgHeader m).domainNumber = 0 ∧
          (ptpMsgHeader m).flags = 0 ∧ (ptpMsgHeader m).correctionField = 0 ∧
          (0 ≤ e.now.seconds.toInt → e.now.seconds.toInt < 281474976710656 →
            wireTime m = e.now) := by
  constructor
  · intro before before' e e' followUp followUp' nibble octet now
    rw [sentAfter_request before followUp, sentAfter_request before' followUp', nibble, octet, now]
  · intro before e followUp
    refine ⟨_, _, sentAfter_request before followUp, by simp [PtpDelayReqMsg.octets, length_octets],
      fun m sent => ?_⟩
    obtain ⟨header, time⟩ := holds_octets sent
    have field : halfword (m 2) (m 3) = builtinBswap16 (UInt16.ofNat sizeofDelayReqMsg) :=
      congrArg PtpMsgHeader.messageLen header
    have length : bigEndian [m 2, m 3] = sizeofDelayReqMsg := by
      rw [← builtinBswap16_halfword, field]
      decide
    rw [header]
    exact ⟨rfl, length, rfl, rfl, rfl, fun low high => stored_prepared e.now low high time⟩

/-- A request after another one, for a different FollowUp at the same time of the clock. -/
theorem request_octets_followUp :
    sentAfter [] followUpExample = sentAfter [followUpExample, syncExample]
        ⟨frame 0x08 (Vector.replicate 10 255), ⟨100, 1000000⟩⟩ ∧
      ∃ octets size, sentAfter [] followUpExample = [(octets, size)] ∧ octets.length = 44 ∧
        ∀ m, Holds m 0 octets → bigEndian [m 2, m 3] = size ∧ wireTime m = ⟨100, 1000000⟩ := by
  refine ⟨request_octets.1 [] _ _ _ (by decide) (by decide) rfl rfl rfl, ?_⟩
  obtain ⟨octets, size, handed, length, parsed⟩ :=
    request_octets.2 [] followUpExample (by decide)
  refine ⟨octets, size, handed, length, fun m sent => ?_⟩
  obtain ⟨-, number, -, -, -, time⟩ := parsed m sent
  exact ⟨number, time (by decide) (by decide)⟩

end StandalonePtp
