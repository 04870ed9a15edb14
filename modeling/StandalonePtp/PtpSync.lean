import Mathlib.Tactic.SplitIfs
import StandalonePtp.Bytes
import StandalonePtp.Run

/-! The slave's message interpreter of ptp_sync.c with the formats of ptp_sync.h.
Signed words wrap, as the target's do, so every function is total. The floating
point copy of a time is left out: no function reads it. -/
namespace StandalonePtp

structure PtpTimestamp where
  seconds : Int64
  nanosec : Int32
  deriving DecidableEq, Repr

namespace PtpTimestamp

def zero : PtpTimestamp := ⟨0, 0⟩

def Normalised (ts : PtpTimestamp) : Prop := 0 ≤ ts.nanosec.toInt ∧ ts.nanosec.toInt < 1000000000

instance (ts : PtpTimestamp) : Decidable ts.Normalised :=
  inferInstanceAs (Decidable (_ ∧ _))

end PtpTimestamp

/- Time calculation. -/

def nsSecPeriod : Int32 := 1000000000

def ptpTimeAdd (pt1 pt2 : PtpTimestamp) : PtpTimestamp :=
  ⟨pt1.seconds + pt2.seconds, pt1.nanosec + pt2.nanosec⟩

def ptpTimeSub (pt1 pt2 : PtpTimestamp) : PtpTimestamp :=
  ptpTimeAdd pt1 ⟨-pt2.seconds, -pt2.nanosec⟩

def ptpTimeExcept2 (pt1 : PtpTimestamp) : PtpTimestamp :=
  if pt1.seconds % 2 = 0 then ⟨pt1.seconds / 2, pt1.nanosec / 2⟩
  else ⟨(pt1.seconds - 1) / 2, pt1.nanosec / 2 + nsSecPeriod / 2⟩

/- Wire formats. A header is the packed structure of 34 bytes in the byte order of
the little-endian target, with the first bit field of an octet in its low nibble. -/

def lowNibble (b : UInt8) : BitVec 4 := b.toBitVec.extractLsb' 0 4

def highNibble (b : UInt8) : BitVec 4 := b.toBitVec.extractLsb' 4 4

/-- The value of a 16 bit field that lies in memory as the octets `b0 b1`. -/
def halfword (b0 b1 : UInt8) : UInt16 := b0.toUInt16 ||| (b1.toUInt16 <<< 8)

def builtinBswap16 (x : UInt16) : UInt16 := (x <<< 8) ||| (x >>> 8)

structure PtpMsgHeader where
  messageType : BitVec 4
  majorSdoId : BitVec 4
  versionPTP : BitVec 4
  minorVerPtp : BitVec 4
  messageLen : UInt16
  domainNumber : UInt8
  reserved1 : UInt8
  flags : UInt16
  correctionField : UInt64
  reserved2 : Vector UInt8 4
  srcPortId : Vector UInt8 10
  seqId : UInt16
  controlField : UInt8
  logMsgInterval : UInt8
  deriving DecidableEq, Repr

def srcPortId (msg : Memory) : Vector UInt8 10 := Vector.ofFn (fun k => msg (20 + k))

def seqId (msg : Memory) : UInt16 := halfword (msg 30) (msg 31)

/-- The requester a received DelayResponse names, behind its timestamp. -/
def reqPortId (msg : Memory) : Vector UInt8 10 := Vector.ofFn (fun k => msg (44 + k))

inductive MsgType where
  | syncMsg
  | delayRequest
  | pDelayRequest
  | pDelayResponse
  | followUpMsg
  | delayResponse
  | pDelayResponseFollowUp
  | announce
  | signaling
  | management
  deriving DecidableEq, Repr

def msgType (code : BitVec 4) : Option MsgType :=
  match code.toNat with
  | 0x00 => some .syncMsg
  | 0x01 => some .delayRequest
  | 0x02 => some .pDelayRequest
  | 0x03 => some .pDelayResponse
  | 0x08 => some .followUpMsg
  | 0x09 => some .delayResponse
  | 0x0A => some .pDelayResponseFollowUp
  | 0x0B => some .announce
  | 0x0C => some .signaling
  | 0x0D => some .management
  | _ => none

def timestampOffset : Nat := 34

def ptpStoreTimestamp (msg : Memory) (timestamp : Nat) : Access PtpTimestamp := do
  let high ← Access.loads msg timestamp 6
  let low ← Access.loads msg (timestamp + 6) 4
  let sec := high.foldl (fun (sec : UInt64) b => (sec <<< 8) + b.toUInt64) 0
  let nanosec := low.foldl (fun (nanosec : UInt32) b => (nanosec <<< 8) + b.toUInt32) 0
  pure ⟨sec.toInt64, nanosec.toInt32⟩

/-- Octet `5 - i` takes bits `8 * i` and up of the seconds, octet `9 - i` those of
the nanoseconds. -/
def ptpPrepareTimestamp (ts : PtpTimestamp) : Vector UInt8 10 :=
  Vector.ofFn (fun k =>
    if k < 6 then ((ts.seconds >>> Int64.ofNat ((5 - k) * 8)) &&& 0xFF).toUInt64.toUInt8
    else ((ts.nanosec >>> Int32.ofNat ((9 - k) * 8)) &&& 0xFF).toUInt32.toUInt8)

/-- A message of type `code` whose timestamp octets are `time`, all else zero. -/
def frame (code : UInt8) (time : Vector UInt8 10) : Memory :=
  fun i => if i = 0 then code else if 34 ≤ i then time.toList.getD (i - 34) 0 else 0

structure PtpDelayReqMsg where
  header : PtpMsgHeader
  originTs : Vector UInt8 10
  deriving DecidableEq, Repr

def PtpDelayReqMsg.zero : PtpDelayReqMsg :=
  ⟨⟨0, 0, 0, 0, 0, 0, 0, 0, 0, Vector.replicate 4 0, Vector.replicate 10 0, 0, 0, 0⟩,
    Vector.replicate 10 0⟩

def sizeofDelayReqMsg : Nat := 44

/-- The first four octets of the received header are copied over the buffer's; then
single fields are overwritten. -/
def ptpSyncSendDelayReqEvent (msg : PtpDelayReqMsg) (hdr : Memory) (ts : PtpTimestamp) :
    Access PtpDelayReqMsg := do
  let b0 ← Access.load hdr 0
  let b1 ← Access.load hdr 1
  let b2 ← Access.load hdr 2
  let b3 ← Access.load hdr 3
  let copied := { msg.header with
    messageType := lowNibble b0
    majorSdoId := highNibble b0
    versionPTP := lowNibble b1
    minorVerPtp := highNibble b1
    messageLen := halfword b2 b3 }
  let header := { copied with
    messageType := 0x01
    messageLen := builtinBswap16 (UInt16.ofNat sizeofDelayReqMsg)
    controlField := 5
    domainNumber := 0
    reserved1 := 0x00
    flags := 0x0000
    correctionField := 0x00 }
  pure ⟨header, ptpPrepareTimestamp ts⟩

/- The interpreter. -/

def ptpMsgOk : Int := 0

def ptpMsgErr : Int := -1

structure PtpSyncState where
  t1 : PtpTimestamp
  t2 : PtpTimestamp
  t3 : PtpTimestamp
  t4 : PtpTimestamp
  sysTs : PtpTimestamp
  msg : PtpDelayReqMsg
  deriving DecidableEq, Repr

def PtpSyncState.init : PtpSyncState := ⟨.zero, .zero, .zero, .zero, .zero, .zero⟩

inductive Effect where
  | sendDelayReq (msg : PtpDelayReqMsg) (size : Nat)
  | reportDiff (offset : Int32) (syncTs diffTs : PtpTimestamp)
  deriving DecidableEq, Repr

structure DelayTimes where
  delay : PtpTimestamp
  offset : PtpTimestamp
  propDelay : PtpTimestamp
  syncedTime : PtpTimestamp
  diff : PtpTimestamp
  deriving DecidableEq, Repr

def delayTimes (t1 t2 t3 t4 sysTs : PtpTimestamp) : DelayTimes :=
  let t2_t1 := ptpTimeSub t2 t1
  let t4_t3 := ptpTimeSub t4 t3
  let delay := ptpTimeExcept2 (ptpTimeAdd t2_t1 t4_t3)
  let offset := ptpTimeExcept2 (ptpTimeSub t2_t1 t4_t3)
  let propDelay := ptpTimeSub delay offset
  let syncedTime := ptpTimeAdd t3 propDelay
  let diff := ptpTimeSub syncedTime sysTs
  ⟨delay, offset, propDelay, syncedTime, diff⟩

structure Handled where
  ret : Int
  state : PtpSyncState
  effects : List Effect

/-- One call of `ptp_sync_interpreter`. `now` is what the registered clock callback
answers; no case asks for it twice. -/
def ptpSyncInterpreter (s : PtpSyncState) (msg : Memory) (now : PtpTimestamp) :
    Access Handled := do
  let octet ← Access.load msg 0
  match msgType (lowNibble octet) with
  | some .syncMsg => pure ⟨ptpMsgOk, { s with t2 := now }, []⟩
  | some .followUpMsg => do
    let t1 ← ptpStoreTimestamp msg timestampOffset
    let req ← ptpSyncSendDelayReqEvent s.msg msg now
    pure ⟨ptpMsgOk, { s with t1 := t1, t3 := now, msg := req },
      [.sendDelayReq req sizeofDelayReqMsg]⟩
  | some .delayResponse => do
    let t4 ← ptpStoreTimestamp msg timestampOffset
    let times := delayTimes s.t1 s.t2 s.t3 t4 now
    pure ⟨ptpMsgOk, { s with sysTs := now, t4 := t4 },
      [.reportDiff 0 times.syncedTime times.diff]⟩
  | some .pDelayResponse => pure ⟨ptpMsgOk, s, []⟩
  | some .pDelayResponseFollowUp => pure ⟨ptpMsgOk, s, []⟩
  | some .announce => pure ⟨ptpMsgOk, s, []⟩
  | some .signaling => pure ⟨ptpMsgErr, s, []⟩
  | some .management => pure ⟨ptpMsgErr, s, []⟩
  | some .delayRequest => pure ⟨ptpMsgErr, s, []⟩
  | some .pDelayRequest => pure ⟨ptpMsgErr, s, []⟩
  | none => pure ⟨ptpMsgErr, s, []⟩

/-- A message handed to the interpreter and the clock reading during the call. -/
structure Event where
  msg : Memory
  now : PtpTimestamp

def Event.type (e : Event) : Option MsgType := msgType (lowNibble (e.msg 0))

def Event.isSync (e : Event) : Bool := e.type = some .syncMsg

def Event.isFollowUp (e : Event) : Bool := e.type = some .followUpMsg

def Event.isDelayResponse (e : Event) : Bool := e.type = some .delayResponse

def wireTime (msg : Memory) : PtpTimestamp := (ptpStoreTimestamp msg timestampOffset).value

def delayReq (s : PtpSyncState) (e : Event) : PtpDelayReqMsg :=
  (ptpSyncSendDelayReqEvent s.msg e.msg e.now).value

def report (s : PtpSyncState) (e : Event) : Effect :=
  let times := delayTimes s.t1 s.t2 s.t3 (wireTime e.msg) e.now
  .reportDiff 0 times.syncedTime times.diff

def interpret (s : PtpSyncState) (e : Event) : PtpSyncState × List Effect :=
  let handled := (ptpSyncInterpreter s e.msg e.now).value
  (handled.state, handled.effects)

/- What one call does, by the type of the message. -/

theorem interpret_sync {e : Event} (h : e.isSync = true) (s : PtpSyncState) :
    interpret s e = ({ s with t2 := e.now }, []) := by
  have type : msgType (lowNibble (e.msg 0)) = some .syncMsg := of_decide_eq_true h
  simp [interpret, ptpSyncInterpreter, type]

theorem interpret_followUp {e : Event} (h : e.isFollowUp = true) (s : PtpSyncState) :
    interpret s e =
      ({ s with t1 := wireTime e.msg, t3 := e.now, msg := delayReq s e },
        [.sendDelayReq (delayReq s e) sizeofDelayReqMsg]) := by
  have type : msgType (lowNibble (e.msg 0)) = some .followUpMsg := of_decide_eq_true h
  simp [interpret, ptpSyncInterpreter, type, wireTime, delayReq]

theorem interpret_delayResponse {e : Event} (h : e.isDelayResponse = true) (s : PtpSyncState) :
    interpret s e = ({ s with sysTs := e.now, t4 := wireTime e.msg }, [report s e]) := by
  have type : msgType (lowNibble (e.msg 0)) = some .delayResponse := of_decide_eq_true h
  simp [interpret, ptpSyncInterpreter, type, wireTime, report]

theorem interpret_other {e : Event} (sync : e.isSync = false) (followUp : e.isFollowUp = false)
    (delayResponse : e.isDelayResponse = false) (s : PtpSyncState) :
    interpret s e = (s, []) := by
  have notSync := of_decide_eq_false sync
  have notFollowUp := of_decide_eq_false followUp
  have notDelayResponse := of_decide_eq_false delayResponse
  simp only [Event.type] at notSync notFollowUp notDelayResponse
  simp only [interpret, ptpSyncInterpreter, Access.value_bind, Access.value_load]
  cases type : msgType (lowNibble (e.msg 0)) with
  | none => rfl
  | some t => cases t <;> first | rfl | exact absurd type (by assumption)

theorem event_kinds (e : Event) :
    (e.isSync = true ∧ e.isFollowUp = false ∧ e.isDelayResponse = false) ∨
    (e.isSync = false ∧ e.isFollowUp = true ∧ e.isDelayResponse = false) ∨
    (e.isSync = false ∧ e.isFollowUp = false ∧ e.isDelayResponse = true) ∨
    (e.isSync = false ∧ e.isFollowUp = false ∧ e.isDelayResponse = false) := by
  unfold Event.isSync Event.isFollowUp Event.isDelayResponse
  cases e.type with
  | none => simp
  | some t => cases t <;> simp

/- What a timestamp on the wire decodes to. -/

/-- Both accumulators hold the numbers of the octets they have taken. -/
theorem ptpStoreTimestamp_words (m : Memory) (p : Nat) :
    (ptpStoreTimestamp m p).value.seconds.toUInt64.toNat = bigEndian ((List.range' p 6).map m) ∧
      (ptpStoreTimestamp m p).value.nanosec.toUInt32.toNat =
        bigEndian ((List.range' (p + 6) 4).map m) := by
  have high := bigEndian_lt ((List.range' p 6).map m)
  have low := bigEndian_lt ((List.range' (p + 6) 4).map m)
  rw [List.length_map, List.length_range'] at high low
  simp only [ptpStoreTimestamp, Access.value_bind, Access.value_pure, Access.value_loads,
    UInt64.toUInt64_toInt64, UInt32.toUInt32_toInt32]
  exact ⟨shift_in64 _ (by omega), shift_in32 _ (by omega)⟩

theorem wireTime_seconds (msg : Memory) :
    (wireTime msg).seconds.toInt = bigEndian ((List.range' timestampOffset 6).map msg) := by
  have small := bigEndian_lt ((List.range' timestampOffset 6).map msg)
  rw [List.length_map, List.length_range'] at small
  have word : (wireTime msg).seconds.toBitVec.toNat = _ := (ptpStoreTimestamp_words msg _).1
  rw [← Int64.toInt_toBitVec, BitVec.toInt_eq_toNat_of_lt (by omega), word]

theorem wireTime_seconds_bounds (msg : Memory) :
    0 ≤ (wireTime msg).seconds.toInt ∧ (wireTime msg).seconds.toInt < 281474976710656 := by
  have small := bigEndian_lt ((List.range' timestampOffset 6).map msg)
  rw [List.length_map, List.length_range'] at small
  rw [wireTime_seconds]
  omega

def wireNanosec (msg : Memory) : Nat :=
  bigEndian ((List.range' (timestampOffset + 6) 4).map msg)

theorem wireNanosec_lt (msg : Memory) : wireNanosec msg < 4294967296 := by
  have small := bigEndian_lt ((List.range' (timestampOffset + 6) 4).map msg)
  rw [List.length_map, List.length_range'] at small
  exact small

theorem wireTime_nanosec (msg : Memory) :
    (wireTime msg).nanosec.toInt = (wireNanosec msg : Int).bmod (2 ^ 32) := by
  have word : (wireTime msg).nanosec.toBitVec.toNat = _ := (ptpStoreTimestamp_words msg _).2
  rw [← Int32.toInt_toBitVec, BitVec.toInt_eq_toNat_bmod, word, wireNanosec]

theorem wireTime_normalised_iff (msg : Memory) :
    (wireTime msg).Normalised ↔ wireNanosec msg < 1000000000 := by
  have small := wireNanosec_lt msg
  rw [PtpTimestamp.Normalised, wireTime_nanosec, Int.bmod_def]
  split_ifs <;> omega

end StandalonePtp
