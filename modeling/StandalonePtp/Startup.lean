import Mathlib.Data.List.Induction
import StandalonePtp.Station

/-! The program from power-up: the callbacks that the interpreter asserts to be there, the
initialisation that registers them, and the messages that reach it before and after. -/
namespace StandalonePtp

open Run

inductive ClockType where
  | none
  | generalNmeaGps
  | ptp
  | gptp
  deriving DecidableEq, Repr

/-- What the initialisation sets, with the ports that have got a listener. -/
structure Setup where
  isInitialized : Bool
  clockSource : ClockType
  initParams : Option TimesyncInitParam
  sSyscTimeCb : Option (TsuReads → PtpTimestamp)
  sReportDiffCb :
    Option (TimesyncInitParam → Int32 → PtpTimestamp → PtpTimestamp → Int32 × List Call)
  sSendDlyReqCb : Option (Stack → List UInt8 → Option (List Packet))
  udpBound : Bool
  ports : List UInt16

/-- All pointers are null. -/
def Setup.init : Setup := ⟨false, .none, none, none, none, none, false, []⟩

structure Program where
  setup : Setup
  slave : Slave

def Program.init : Program := ⟨.init, .init⟩

structure Outcome where
  packets : List Packet
  joined : List (Vector UInt8 4)
  writes : List XilOut32
  deriving DecidableEq, Repr

def Outcome.silent : Outcome := ⟨[], [], []⟩

/- Initialisation. -/

/-- Whether the stack has a control block for each of the two listeners. -/
structure Listeners where
  event : Bool
  general : Bool
  deriving DecidableEq, Repr

def bindUdpReceiver (s : Setup) (l : Listeners) : Setup :=
  if s.udpBound then s
  else { s with
    udpBound := true
    ports := s.ports ++ (if l.event then [ptpEventMsgPort] else []) ++
      (if l.general then [ptpGenMsgPort] else []) }

/-- The counter is cleared; the clock rates set before are left out. -/
def initTsu : List XilOut32 := [⟨.tsuTimerNsGem0, 0⟩, ⟨.tsuTimerSecGem0, 0⟩]

def register (s : Setup) (t : Transport) : Setup :=
  { s with
    sSyscTimeCb := some getSystime
    sReportDiffCb := some ptpProcessTimeDiff
    sSendDlyReqCb := some (sendDelayRequest t) }

def initPtpTask (s : Setup) (l : Listeners) : Setup × Outcome :=
  (bindUdpReceiver (register s .udp) l, ⟨[], [group], initTsu⟩)

def initGptpTask (s : Setup) : Setup × Outcome := (register s .gptp, ⟨[], [group], initTsu⟩)

def ptpInit (s : Setup) (l : Listeners) : Setup × Outcome :=
  initPtpTask { s with initParams := some initParam } l

/-- `enable_mac_multicast`, which comes first, reads the state of `server_netif`. That this
interface has been set up before is an assumption about the rest of the program. -/
def gptpInit (s : Setup) : Setup × Outcome :=
  initGptpTask { s with initParams := some initParam }

def startTimesync (s : Setup) (l : Listeners) : Setup × Outcome :=
  match s.clockSource with
  | .ptp => ptpInit s l
  | .gptp => gptpInit s
  | .none => (s, .silent)
  | .generalNmeaGps => (s, .silent)

/-- A second call fails its assertion. -/
def timesyncInit (s : Setup) (type : ClockType) (l : Listeners) : Option (Setup × Outcome) :=
  if s.isInitialized then none
  else
    let started := startTimesync { s with clockSource := type } l
    some ({ started.1 with isInitialized := true }, started.2)

/- Messages. Each `none` is a failed assertion or an access through a null pointer. -/

def perform (pr : Program) (st : Stack) (reads : TsuReads) :
    List Effect → Option (Program × Outcome)
  | [] => some (pr, .silent)
  | .sendDelayReq msg _ :: rest => do
    let send ← pr.setup.sSendDlyReqCb
    let packets ← send st msg.octets
    let later ← perform pr st reads rest
    some (later.1, { later.2 with packets := packets ++ later.2.packets })
  | .reportDiff _ syncTs diffTs :: rest => do
    let report ← pr.setup.sReportDiffCb
    let initParams ← pr.setup.initParams
    let device := pr.slave.device
    let handled := report initParams device.syncDiffIntegratedNs syncTs diffTs
    let done := { device with syncDiffIntegratedNs := handled.1 }.performAll reads handled.2
    let later ← perform { pr with slave := { pr.slave with device := done.1 } } st reads rest
    some (later.1, { later.2 with writes := done.2 ++ later.2.writes })

/-- The clock is asked for in the three cases of an exchange only. -/
def interpreter (pr : Program) (r : Received) (st : Stack) : Option (Program × Outcome) := do
  let now ←
    if r.event.isExchange then pr.setup.sSyscTimeCb.map (fun gettime => gettime r.now.reads)
    else some .zero
  let handled := (ptpSyncInterpreter pr.slave.sync r.msg now).value
  perform { pr with slave := { pr.slave with sync := handled.state } } st r.serviceNow.reads
    handled.effects

/-- A datagram needs a listener at its port; a frame comes from the driver in any case. -/
def handed (s : Setup) (a : Arrival) (port : UInt16) : Bool :=
  a.delivered && (a.transport = .gptp || s.ports.contains port)

/-- The port counts for datagrams only. -/
inductive PowerEvent where
  | timesyncInit (type : ClockType) (l : Listeners)
  | arrival (a : Arrival) (port : UInt16) (st : Stack)

def Program.step (pr : Option Program) (e : PowerEvent) : Option Program × Outcome :=
  match pr with
  | none => (none, .silent)
  | some pr =>
    let result :=
      match e with
      | .timesyncInit type l =>
        (StandalonePtp.timesyncInit pr.setup type l).map (fun r => ({ pr with setup := r.1 }, r.2))
      | .arrival a port st =>
        if handed pr.setup a port then interpreter pr a.received st else some (pr, .silent)
    match result with
    | some (pr', outcome) => (some pr', outcome)
    | none => (none, .silent)

/- The setup, read off the events. -/

def PowerEvent.isInit : PowerEvent → Bool
  | .timesyncInit _ _ => true
  | .arrival _ _ _ => false

def ClockType.transport : ClockType → Option Transport
  | .ptp => some .udp
  | .gptp => some .gptp
  | .none => Option.none
  | .generalNmeaGps => Option.none

/-- The transport that the first initialisation has chosen. -/
def transportOf (before : List PowerEvent) : Option Transport :=
  match before.find? PowerEvent.isInit with
  | some (.timesyncInit type _) => type.transport
  | _ => none

/-- Ports 319 and 320 are listened to over UDP, as far as there were control blocks. -/
def listening (before : List PowerEvent) (port : UInt16) : Bool :=
  match before.find? PowerEvent.isInit with
  | some (.timesyncInit .ptp l) => (l.event && port = 319) || (l.general && port = 320)
  | _ => false

def reaches (before : List PowerEvent) (a : Arrival) (port : UInt16) : Bool :=
  a.delivered && (a.transport = .gptp || listening before port)

/-- The buffer of a Delay_Req is missing, which only the callback for UDP does not check. -/
def unbuffered (t : Transport) (r : Received) (st : Stack) : Bool :=
  t = .udp && r.event.isFollowUp && !st.pbufAlloc

/-- A second initialisation; a message of an exchange that finds no callbacks, or no buffer. -/
def Fatal (before : List PowerEvent) : PowerEvent → Prop
  | .timesyncInit _ _ => before.any PowerEvent.isInit = true
  | .arrival a port st =>
    reaches before a port = true ∧ a.received.event.isExchange = true ∧
      match transportOf before with
      | none => True
      | some t => unbuffered t a.received st = true

def setupAfter (before : List PowerEvent) : Setup :=
  match before.find? PowerEvent.isInit with
  | some (.timesyncInit type l) =>
    { (startTimesync { Setup.init with clockSource := type } l).1 with isInitialized := true }
  | _ => .init

structure Ready (t : Transport) (s : Setup) : Prop where
  initParams : s.initParams = some initParam
  gettime : s.sSyscTimeCb = some getSystime
  report : s.sReportDiffCb = some ptpProcessTimeDiff
  send : s.sSendDlyReqCb = some (sendDelayRequest t)

section
variable (before : List PowerEvent)

theorem setupAfter_ready {t : Transport} (chosen : transportOf before = some t) :
    Ready t (setupAfter before) := by
  rw [transportOf] at chosen
  rw [setupAfter]
  cases first : before.find? PowerEvent.isInit with
  | none => simp [first] at chosen
  | some e =>
    rw [first] at chosen
    cases e with
    | arrival a port st => contradiction
    | timesyncInit type l =>
      cases type with
      | none => contradiction
      | generalNmeaGps => contradiction
      | ptp =>
        obtain rfl := Option.some.inj chosen
        exact ⟨rfl, rfl, rfl, rfl⟩
      | gptp =>
        obtain rfl := Option.some.inj chosen
        exact ⟨rfl, rfl, rfl, rfl⟩

theorem setupAfter_bare (unchosen : transportOf before = none) :
    (setupAfter before).sSyscTimeCb = none := by
  rw [transportOf] at unchosen
  rw [setupAfter]
  cases first : before.find? PowerEvent.isInit with
  | none => rfl
  | some e =>
    rw [first] at unchosen
    cases e with
    | arrival a port st => rfl
    | timesyncInit type l => cases type <;> first | rfl | contradiction

theorem setupAfter_ports (port : UInt16) :
    (setupAfter before).ports.contains port = listening before port := by
  rw [setupAfter, listening]
  cases before.find? PowerEvent.isInit with
  | none => rfl
  | some e =>
    cases e with
    | arrival a port st => rfl
    | timesyncInit type l =>
      obtain ⟨event, general⟩ := l
      cases type <;> cases event <;> cases general <;>
        simp [startTimesync, ptpInit, gptpInit, initPtpTask, initGptpTask, bindUdpReceiver, register,
          Setup.init, ptpEventMsgPort, ptpGenMsgPort]

theorem setupAfter_initialized :
    (setupAfter before).isInitialized = before.any PowerEvent.isInit := by
  rw [setupAfter]
  cases first : before.find? PowerEvent.isInit with
  | none =>
    have absent := List.find?_eq_none.mp first
    exact (List.any_eq_false.mpr absent).symm
  | some e =>
    have present : before.any PowerEvent.isInit = true :=
      List.any_eq_true.mpr ⟨e, List.mem_of_find?_eq_some first, List.find?_some first⟩
    rw [present]
    cases e with
    | arrival a port st => exact absurd (List.find?_some first) Bool.false_ne_true
    | timesyncInit type l => rfl

end

/- One message. -/

/-- What the slave does with a message, and the packets its requests leave in. -/
def respond (t : Transport) (s : Slave) (m : Received × Stack) : Slave × Outcome :=
  let answered := s.answer m.1
  (answered.1,
    ⟨answered.2.requests.flatMap (fun msg => (sendDelayRequest t m.2 msg.octets).getD []), [],
      answered.2.writes⟩)

theorem handed_reaches (before : List PowerEvent) (a : Arrival) (port : UInt16) :
    handed (setupAfter before) a port = reaches before a port := by
  rw [handed, reaches, setupAfter_ports]

theorem interpreter_otherType (pr : Program) {r : Received} (other : r.event.isExchange = false)
    (st : Stack) : interpreter pr r st = some (pr, .silent) := by
  have silent : interpret pr.slave.sync ⟨r.msg, .zero⟩ = (pr.slave.sync, []) :=
    interpret_otherType (e := ⟨r.msg, .zero⟩) other pr.slave.sync
  have state := congrArg Prod.fst silent
  have effects := congrArg Prod.snd silent
  simp only [interpret] at state effects
  simp [interpreter, other, state, effects, perform]

theorem interpreter_bare {pr : Program} (bare : pr.setup.sSyscTimeCb = none) {r : Received}
    (exchange : r.event.isExchange = true) (st : Stack) : interpreter pr r st = none := by
  simp [interpreter, exchange, bare]

theorem interpreter_exchange {t : Transport} {pr : Program} (ready : Ready t pr.setup)
    {r : Received} (exchange : r.event.isExchange = true) (st : Stack) :
    interpreter pr r st =
      perform { pr with slave := { pr.slave with sync := (interpret pr.slave.sync r.event).1 } } st
        r.serviceNow.reads (interpret pr.slave.sync r.event).2 := by
  simp only [interpreter, exchange, if_true, ready.gettime, Option.map_some]
  rfl

theorem interpreter_ready {t : Transport} {pr : Program} (ready : Ready t pr.setup)
    (r : Received) (st : Stack) :
    interpreter pr r st =
      if unbuffered t r st = true then none
      else some (⟨pr.setup, (respond t pr.slave (r, st)).1⟩, (respond t pr.slave (r, st)).2) := by
  rcases event_kinds r.event with ⟨hs, hf, hd⟩ | ⟨hs, hf, hd⟩ | ⟨hs, hf, hd⟩ | ⟨hs, hf, hd⟩
  · rw [interpreter_exchange ready (by simp [Event.isExchange, hs]), interpret_sync hs, perform,
      if_neg (by simp [unbuffered, hf])]
    simp [respond, Slave.answer, Slave.handle, interpret_sync hs, deliver, requests, Outcome.silent]
  · rw [interpreter_exchange ready (by simp [Event.isExchange, hf]), interpret_followUp hf, perform]
    simp only [ready.send, Option.bind_eq_bind, Option.bind_some, perform, respond, Slave.answer,
      Slave.handle, interpret_followUp hf, deliver, requests, unbuffered, hf]
    cases t with
    | udp =>
      cases buffer : st.pbufAlloc <;>
        simp [sendDelayRequest, ptpSendDelayRequest, buffer, Outcome.silent]
    | gptp => simp [sendDelayRequest, gptpSendDelayRequest, Outcome.silent]
  · rw [interpreter_exchange ready (by simp [Event.isExchange, hd]), interpret_delayResponse hd,
      report, perform, if_neg (by simp [unbuffered, hf])]
    simp only [ready.report, ready.initParams, Option.bind_eq_bind, Option.bind_some, perform]
    simp [respond, Slave.answer, Slave.handle, interpret_delayResponse hd, deliver, requests,
      Outcome.silent, report, processReport]
  · have other : r.event.isExchange = false := by simp [Event.isExchange, hs, hf, hd]
    rw [interpreter_otherType pr other, if_neg (by simp [unbuffered, hf]), respond,
      answer_otherType pr.slave other]
    rfl

/- One event. -/

theorem setupAfter_arrival (before : List PowerEvent) (a : Arrival) (port : UInt16) (st : Stack) :
    setupAfter (before ++ [.arrival a port st]) = setupAfter before := by
  have none_more : [PowerEvent.arrival a port st].find? PowerEvent.isInit = none := rfl
  rw [setupAfter, setupAfter, List.find?_append, none_more, Option.or_none]

theorem setupAfter_first {before : List PowerEvent} (first : before.any PowerEvent.isInit = false)
    (type : ClockType) (l : Listeners) :
    setupAfter before = .init ∧
      setupAfter (before ++ [.timesyncInit type l]) =
        { (startTimesync { Setup.init with clockSource := type } l).1 with isInitialized := true } := by
  have absent : before.find? PowerEvent.isInit = none :=
    List.find?_eq_none.mpr (List.any_eq_false.mp first)
  constructor
  · rw [setupAfter, absent]
  · rw [setupAfter, List.find?_append, absent]
    rfl

theorem step_arrival {before : List PowerEvent} {pr : Program}
    (configured : pr.setup = setupAfter before) (a : Arrival) (port : UInt16) (st : Stack) :
    Program.step (some pr) (.arrival a port st) =
      if reaches before a port = true ∧ a.received.event.isExchange = true then
        match transportOf before with
        | none => (none, .silent)
        | some t =>
          if unbuffered t a.received st = true then (none, .silent)
          else
            (some ⟨pr.setup, (respond t pr.slave (a.received, st)).1⟩,
              (respond t pr.slave (a.received, st)).2)
      else (some pr, .silent) := by
  have listened := handed_reaches before a port
  rw [← configured] at listened
  simp only [Program.step, listened]
  by_cases reached : reaches before a port = true
  · cases exchange : a.received.event.isExchange with
    | false => simp [reached, interpreter_otherType pr exchange]
    | true =>
      cases chosen : transportOf before with
      | none =>
        have bare := setupAfter_bare before chosen
        rw [← configured] at bare
        simp [reached, interpreter_bare bare exchange]
      | some t =>
        have ready := setupAfter_ready before chosen
        rw [← configured] at ready
        by_cases lost : unbuffered t a.received st = true
        · simp [reached, interpreter_ready ready, lost]
        · simp [reached, interpreter_ready ready, lost]
  · simp [reached]

/-- A step that is not fatal keeps the program running, with the setup that is due. -/
theorem step_alive {before : List PowerEvent} {pr : Program}
    (configured : pr.setup = setupAfter before) (e : PowerEvent) :
    (Fatal before e ∧ (Program.step (some pr) e).1 = none) ∨
      (¬ Fatal before e ∧ ∃ pr', (Program.step (some pr) e).1 = some pr' ∧
        pr'.setup = setupAfter (before ++ [e])) := by
  cases e with
  | timesyncInit type l =>
    have initialized := setupAfter_initialized before
    cases first : before.any PowerEvent.isInit with
    | true =>
      refine .inl ⟨first, ?_⟩
      rw [first, ← configured] at initialized
      simp [Program.step, timesyncInit, initialized]
    | false =>
      obtain ⟨fresh, next⟩ := setupAfter_first first type l
      refine .inr ⟨by simp [Fatal, first], ?_⟩
      rw [next]
      simp [Program.step, timesyncInit, configured, fresh, Setup.init]
  | arrival a port st =>
    rw [setupAfter_arrival, step_arrival configured, Fatal]
    by_cases reached : reaches before a port = true ∧ a.received.event.isExchange = true
    · rw [if_pos reached]
      cases transportOf before with
      | none => exact .inl ⟨⟨reached.1, reached.2, trivial⟩, rfl⟩
      | some t =>
        by_cases lost : unbuffered t a.received st = true
        · simp only [if_pos lost]
          exact .inl ⟨⟨reached.1, reached.2, lost⟩, trivial⟩
        · simp only [if_neg lost]
          exact .inr ⟨fun fatal => lost fatal.2.2, _, rfl, configured⟩
    · rw [if_neg reached]
      exact .inr ⟨fun fatal => reached ⟨fatal.1, fatal.2.1⟩, pr, rfl, configured⟩

/-- Stopped at an event of the run, or running with the setup of its first initialisation. -/
theorem run_alive (es : List PowerEvent) :
    (after Program.step (some .init) es = none ∧
      ∃ before e later, es = before ++ e :: later ∧ Fatal before e) ∨
    ((∃ pr, after Program.step (some .init) es = some pr ∧ pr.setup = setupAfter es) ∧
      ¬ ∃ before e later, es = before ++ e :: later ∧ Fatal before e) := by
  induction es using List.reverseRecOn with
  | nil => exact .inr ⟨⟨.init, rfl, rfl⟩, by simp⟩
  | append_singleton es e ih =>
    rw [after_append]
    rcases ih with ⟨stopped, before, x, later, rfl, fatal⟩ | ⟨⟨pr, running, configured⟩, safe⟩
    · rw [stopped]
      exact .inl ⟨rfl, before, x, later ++ [e], by simp, fatal⟩
    · rw [running]
      rcases step_alive configured e with ⟨fatal, stops⟩ | ⟨harmless, next⟩
      · exact .inl ⟨stops, es, e, [], rfl, fatal⟩
      · refine .inr ⟨next, ?_⟩
        rintro ⟨before, x, later, split, fatal⟩
        rcases List.eq_nil_or_concat later with rfl | ⟨init, last, rfl⟩
        · obtain ⟨rfl, rfl⟩ : es = before ∧ e = x := by simpa using split
          exact harmless fatal
        · have shorter : es = before ++ x :: init := by
            have both : es ++ [e] = (before ++ x :: init) ++ [last] := by simpa using split
            exact (List.append_inj' both rfl).1
          exact safe ⟨before, x, init, shorter, fatal⟩

/-- From power-up the program stops exactly at a second initialisation, at a message of an
exchange that comes before any initialisation over a transport, and at a FollowUp over UDP
for whose answer there is no buffer. -/
theorem program_stops_iff (es : List PowerEvent) :
    after Program.step (some .init) es = none ↔
      ∃ before e later, es = before ++ e :: later ∧ Fatal before e := by
  rcases run_alive es with ⟨stopped, fatal⟩ | ⟨⟨pr, running, -⟩, safe⟩
  · exact iff_of_true stopped fatal
  · exact iff_of_false (by simp [running]) safe

/- The messages of a run. -/

/-- The message that an event brings to the interpreter behind the given initialisation. -/
def PowerEvent.message (before : List PowerEvent) : PowerEvent → Option (Received × Stack)
  | .timesyncInit _ _ => none
  | .arrival a port st =>
    if reaches before a port = true ∧ a.received.event.isExchange = true then
      some (a.received, st)
    else none

theorem stopped_stays (es : List PowerEvent) : after Program.step none es = none := by
  induction es with
  | nil => rfl
  | cons e es ih => exact ih

theorem run_bare {before : List PowerEvent} (unchosen : transportOf before = none)
    {V : Type} (observe : Outcome → List V) (silent : observe .silent = [])
    (es : List PowerEvent) (arrivals : ∀ e ∈ es, e.isInit = false) {pr pr' : Program}
    (configured : pr.setup = setupAfter before)
    (alive : after Program.step (some pr) es = some pr') :
    pr' = pr ∧ (outputs Program.step (some pr) es).flatMap observe = [] := by
  induction es with
  | nil => exact ⟨(Option.some.inj alive).symm, rfl⟩
  | cons e es ih =>
    cases e with
    | timesyncInit type l => exact nomatch arrivals _ List.mem_cons_self
    | arrival a port st =>
      have step := step_arrival configured a port st
      rw [unchosen] at step
      rw [after, step] at alive
      rw [outputs, step, List.flatMap_cons]
      split at alive
      · rw [stopped_stays] at alive
        contradiction
      · rename_i hidden
        obtain ⟨same, rest⟩ := ih (fun e h => arrivals e (List.mem_cons_of_mem _ h)) alive
        rw [if_neg hidden]
        exact ⟨same, by rw [silent, rest]; rfl⟩

theorem run_ready {before : List PowerEvent} {t : Transport}
    (chosen : transportOf before = some t) {V : Type} (observe : Outcome → List V)
    (silent : observe .silent = []) (es : List PowerEvent)
    (arrivals : ∀ e ∈ es, e.isInit = false) {pr pr' : Program}
    (configured : pr.setup = setupAfter before)
    (alive : after Program.step (some pr) es = some pr') :
    pr'.slave = after (respond t) pr.slave (es.filterMap (PowerEvent.message before)) ∧
      (outputs Program.step (some pr) es).flatMap observe =
        (outputs (respond t) pr.slave (es.filterMap (PowerEvent.message before))).flatMap
          observe := by
  induction es generalizing pr with
  | nil => exact ⟨by rw [← Option.some.inj alive]; rfl, rfl⟩
  | cons e es ih =>
    cases e with
    | timesyncInit type l => exact nomatch arrivals _ List.mem_cons_self
    | arrival a port st =>
      have later := fun e h => arrivals e (List.mem_cons_of_mem _ h)
      have step := step_arrival configured a port st
      rw [chosen] at step
      rw [after, step] at alive
      rw [outputs, step, List.flatMap_cons]
      by_cases seen : reaches before a port = true ∧ a.received.event.isExchange = true
      · rw [if_pos seen] at alive
        rw [List.filterMap_cons_some (by rw [PowerEvent.message, if_pos seen]), if_pos seen]
        by_cases lost : unbuffered t a.received st = true
        · simp only [if_pos lost, stopped_stays] at alive
          contradiction
        · simp only [if_neg lost] at alive ⊢
          have next : (Program.mk pr.setup (respond t pr.slave (a.received, st)).1).setup =
            setupAfter before := configured
          obtain ⟨same, rest⟩ := ih later next alive
          exact ⟨same, by rw [rest, outputs, List.flatMap_cons]⟩
      · rw [if_neg seen] at alive
        obtain ⟨same, rest⟩ := ih later configured alive
        rw [List.filterMap_cons_none (by rw [PowerEvent.message, if_neg seen]), if_neg seen, silent]
        exact ⟨same, rest⟩

theorem alive_inits {before later : List PowerEvent} {type : ClockType} {l : Listeners}
    {pr : Program}
    (alive : after Program.step (some .init) (before ++ .timesyncInit type l :: later) = some pr) :
    before.any PowerEvent.isInit = false ∧ ∀ e ∈ later, e.isInit = false := by
  have safe := mt (program_stops_iff _).mpr (by rw [alive]; exact Option.some_ne_none pr)
  constructor
  · refine Bool.eq_false_iff.mpr (fun twice => safe ⟨before, _, later, rfl, twice⟩)
  · intro e member
    refine Bool.eq_false_iff.mpr (fun again => ?_)
    obtain ⟨middle, rest, rfl⟩ := List.append_of_mem member
    cases e with
    | arrival a port st => contradiction
    | timesyncInit type' l' =>
      refine safe ⟨before ++ .timesyncInit type l :: middle, .timesyncInit type' l', rest, by simp,
        ?_⟩
      simp [Fatal, PowerEvent.isInit]

theorem step_first {type : ClockType} {l : Listeners} {t : Transport}
    (chosen : type.transport = some t) :
    Program.step (some .init) (.timesyncInit type l) =
      (some ⟨setupAfter [.timesyncInit type l], .init⟩, ⟨[], [group], initTsu⟩) := by
  cases type with
  | ptp => rfl
  | gptp => rfl
  | none => contradiction
  | generalNmeaGps => contradiction

theorem respond_joined (t : Transport) (ms : List (Received × Stack)) (s : Slave) :
    (outputs (respond t) s ms).flatMap Outcome.joined = [] := by
  induction ms generalizing s with
  | nil => rfl
  | cons m ms ih =>
    rw [outputs, List.flatMap_cons, ih]
    rfl

/-- A program that has chosen a transport and keeps running is the slave behind it: what it
does is what the slave does with the messages that reach it over the network from then on,
and the counter has been cleared before. -/
theorem program_follows_slave {before later : List PowerEvent} {type : ClockType}
    {l : Listeners} {t : Transport} {pr : Program} (chosen : type.transport = some t)
    (alive : after Program.step (some .init) (before ++ .timesyncInit type l :: later) = some pr) :
    let messages := later.filterMap (PowerEvent.message [.timesyncInit type l])
    let outcomes := outputs Program.step (some .init) (before ++ .timesyncInit type l :: later)
    pr.slave = after (respond t) .init messages ∧
      outcomes.flatMap Outcome.packets =
        (outputs (respond t) .init messages).flatMap Outcome.packets ∧
      outcomes.flatMap Outcome.joined = [group] ∧
      outcomes.flatMap Outcome.writes =
        initTsu ++ (outputs (respond t) .init messages).flatMap Outcome.writes := by
  obtain ⟨fresh, arrivals⟩ := alive_inits alive
  rw [after_append] at alive
  cases earlier : after Program.step (some .init) before with
  | none =>
    rw [earlier, stopped_stays] at alive
    contradiction
  | some pr0 =>
    have first : ∀ e ∈ before, e.isInit = false :=
      fun e member => Bool.eq_false_iff.mpr (List.any_eq_false.mp fresh e member)
    have idle : ∀ {V : Type} (observe : Outcome → List V), observe .silent = [] →
        pr0 = .init ∧ (outputs Program.step (some .init) before).flatMap observe = [] :=
      fun observe silent => @run_bare [] rfl _ observe silent before first _ _ rfl earlier
    obtain rfl := (idle Outcome.packets rfl).1
    rw [earlier, after, step_first chosen] at alive
    have running := fun {V : Type} (observe : Outcome → List V) (silent : observe .silent = []) =>
      @run_ready [.timesyncInit type l] t chosen V observe silent later arrivals _ _ rfl alive
    simp only [outputs_append, earlier, outputs, step_first chosen, List.flatMap_append,
      List.flatMap_cons, (idle Outcome.packets rfl).2, (idle Outcome.joined rfl).2,
      (idle Outcome.writes rfl).2, (running Outcome.packets rfl).2, (running Outcome.joined rfl).2,
      (running Outcome.writes rfl).2, respond_joined, List.nil_append, List.append_nil]
    exact ⟨(running Outcome.packets rfl).1, trivial, trivial, trivial⟩

theorem startupExample_packets :
    (outputs Program.step (some .init)
        [.timesyncInit .gptp ⟨true, true⟩, .arrival followUpArrival 0 ⟨false, true⟩]).flatMap
      Outcome.packets =
      [.frame (gptpEthHeader.toList ++
        (delayReq .init followUpArrival.received.event).octets)] := by
  have run : after Program.step (some .init)
      ([] ++ .timesyncInit .gptp ⟨true, true⟩ :: [.arrival followUpArrival 0 ⟨false, true⟩]) =
        some _ := rfl
  have message : [PowerEvent.arrival followUpArrival 0 ⟨false, true⟩].filterMap
      (PowerEvent.message [.timesyncInit .gptp ⟨true, true⟩]) =
        [(followUpArrival.received, ⟨false, true⟩)] := rfl
  have followUp : followUpArrival.received.event.isFollowUp = true := by decide
  refine (program_follows_slave (t := .gptp) rfl run).2.1.trans ?_
  rw [message, outputs, outputs, List.flatMap_singleton, respond, Slave.answer, Slave.init,
    interpret_followUp followUp]
  rfl

end StandalonePtp
