import ControlBoard.Lib.Transition
import ControlBoard.ModbusFrame

/-!
# Requests and replies of the Modbus master

A request puts one frame on the line, the master hears what comes back until the line falls silent,
and the request returns. Seen so, a run is a sequence of exchanges (`MbExchange`), and events,
threads, timers and the two state machines are how the master gets there: in every run on a quiet
line it returns, sends and stores what the exchanges say.
-/

namespace ControlBoard

open EventObject Transition

variable {σ : Type}

/-! ## Exchanges -/

/-- The exchange under way: the data it started from with the frame in the send buffer, its PDU,
and the bytes heard; besides all that was sent and returned. -/
structure MbExchange (σ : Type) where
  data : MbData σ
  pdu : List UInt8
  heard : List UInt8
  line : List UInt8
  returned : List MbMasterReqErrCode

/-- What an executed frame comes to. -/
def executed (d : MbData σ) :
    Option (UInt8 × Nat × MbData σ) → MbMasterReqErrCode × MbData σ
  | none => (.exeFun, d)
  | some (eException, _, d) => (if eException ≠ mbExNone then .exeFun else .noErr, d)

namespace MbExchange

variable (handlers : List (UInt8 × MbHandler σ))

def dest (x : MbExchange σ) : UInt8 := x.data.ucMBMasterDestAddress

def broadcast (x : MbExchange σ) : Bool := decide (x.dest = mbAddressBroadcast)

/-- The frame that was sent. -/
def frame (x : MbExchange σ) : List UInt8 := encodeFrame x.dest x.pdu

/-- The bytes heard are in the receive buffer, as far as they fit. -/
def stored (x : MbExchange σ) : MbData σ :=
  { x.data with
    ucMasterRTURcvBuf := Memory.write x.data.ucMasterRTURcvBuf 0 (x.heard.take mbSerPduSizeMax) }

/-- One more byte is heard. -/
def hear (x : MbExchange σ) (b : UInt8) : MbExchange σ := { x with heard := x.heard ++ [b] }

/-- What the request returns and the data it leaves. Silence is the end of a broadcast and a timeout
otherwise; of what is heard only a frame of the slave that was asked is executed. -/
def verdict (x : MbExchange σ) : MbMasterReqErrCode × MbData σ :=
  match x.heard with
  | [] =>
    if x.broadcast then
      executed x.data (execute handlers .snd x.pdu.length x.pdu.length true x.data)
    else (.timedout, x.data)
  | _ =>
    if x.heard.length < mbSerPduSizeMax then
      match decodeFrame x.heard with
      | some (addr, pdu) =>
        if addr = x.dest then
          executed x.stored (execute handlers .rcv pdu.length x.pdu.length x.broadcast x.stored)
        else (.revData, x.stored)
      | none => (.revData, x.stored)
    else (.revData, x.stored)

/-- Only a request, a byte heard and a return make a difference. A request that comes too early is
told so. -/
def step (x : MbExchange σ) : MbAction → MbExchange σ
  | .request ucSndAddr pdu =>
    if mbMasterTotalSlaveNum < ucSndAddr then { x with returned := x.returned ++ [.illArg] }
    else
      { x with
        data := { x.data with
          ucMBMasterDestAddress := ucSndAddr
          ucMasterRTUSndBuf :=
            Memory.write x.data.ucMasterRTUSndBuf 0 (encodeFrame ucSndAddr pdu) }
        pdu := pdu
        heard := []
        line := x.line ++ encodeFrame ucSndAddr pdu }
  | .requestBusy _ => { x with returned := x.returned ++ [.masterBusy] }
  | .byte b => x.hear b
  | .finish =>
    { x with data := (x.verdict handlers).2, returned := x.returned ++ [(x.verdict handlers).1] }
  | _ => x

/-- Before the first request. -/
def start (regs : σ) : MbExchange σ := ⟨⟨fun _ => 0, fun _ => 0, 0, regs⟩, [], [], [], []⟩

end MbExchange

namespace MbMaster

/-! ## A quiet line -/

/-- The event of the start has been handled. -/
def Started (s : MbMaster σ) : Prop :=
  s.eRcvState ≠ .rxInit ∧ ¬ Flags.Raised s.event evMasterReady ∧
    s.poll ≠ .resumed evMasterReady

instance (s : MbMaster σ) : Decidable s.Started :=
  inferInstanceAs (Decidable (_ ∧ _ ∧ _))

/-- The timer ends at the next tick. -/
def Expires (s : MbMaster σ) : Prop := ∃ timeout ∈ s.timer, rtTimerExpired (s.tick + 1) timeout

instance (s : MbMaster σ) : Decidable s.Expires :=
  inferInstanceAs (Decidable (∃ timeout ∈ s.timer, _))

/-- Bytes come in only while the master waits for a reply or hears one, requests are made after the
start with PDUs that fit, and no silence falls after just as many bytes as the buffer holds. -/
def Orderly (s : MbMaster σ) : MbAction → Prop
  | .byte _ => s.eSndState = .txXfwr ∨ s.eRcvState = .rxRcv ∨ s.eRcvState = .rxError
  | .request _ pdu => s.Started ∧ pdu.length + 3 ≤ mbPduSizeMax
  | .tick => ¬ (s.eRcvState = .rxRcv ∧ s.usMasterRcvBufferPos = mbSerPduSizeMax ∧ s.Expires)
  | _ => True

instance (s : MbMaster σ) : ∀ a, Decidable (s.Orderly a)
  | .byte _ => inferInstanceAs (Decidable (_ ∨ _ ∨ _))
  | .request _ _ => inferInstanceAs (Decidable (_ ∧ _))
  | .tick => inferInstanceAs (Decidable (¬ _))
  | .transmit | .pollRecv | .poll | .runResRelease | .requestBusy _ | .requestRecv | .finish =>
    isTrue trivial

/-- The handlers stay in bounds for every slave. -/
def HandlersReturn (handlers : List (UInt8 × MbHandler σ)) : Prop :=
  ∀ c h, (c, h) ∈ handlers → ∀ frame usLength broadcast (d : MbData σ), frame ≠ .null →
    1 ≤ d.ucMBMasterDestAddress → d.ucMBMasterDestAddress ≤ mbMasterTotalSlaveNum →
      ∃ r, h frame usLength broadcast d = some r

end MbMaster

/-! ## Where the master is -/

/-- From the start to the rest between requests, and from there through an exchange. -/
inductive MbPhase where
  | starting
  | ready
  | releasing
  | rest
  | posted
  | sending (k : Nat)
  | waiting
  | hearing
  | overrun
  | received
  | executing
  | failed
  deriving DecidableEq, Repr

namespace MbPhase

def rcv : MbPhase → MbMasterRcvState
  | .starting => .rxInit
  | .hearing => .rxRcv
  | .overrun => .rxError
  | _ => .rxIdle

def snd : MbPhase → MbMasterSndState
  | .sending _ => .txXmit
  | .waiting => .txXfwr
  | _ => .txIdle

def transmits : MbPhase → Bool
  | .sending _ => true
  | _ => false

/-- The result has been told, and `xMasterRunRes` is not released yet. -/
def releases : MbPhase → Bool
  | .releasing => true
  | _ => false

/-- The timer runs. -/
def timed : MbPhase → Bool
  | .starting | .waiting | .hearing | .overrun => true
  | _ => false

/-- The event that is on its way to the poll thread. -/
def coming : MbPhase → BitVec 32
  | .ready => evMasterReady
  | .posted => evMasterFrameSent
  | .received => evMasterFrameReceived
  | .executing => evMasterExecute
  | .failed => evMasterErrorProcess
  | _ => 0

/-- The phases of an exchange. -/
def Exchanges : MbPhase → Prop
  | .starting | .ready | .releasing | .rest => False
  | _ => True

/-- The turns that are left after a phase, at most. -/
def least : MbPhase → Nat
  | .starting | .ready | .releasing | .rest => 0
  | .failed => 2
  | .executing | .overrun => 4
  | .received | .waiting => 6
  | .hearing => 8
  | .sending _ => 1007
  | .posted => 1261

/-- The turns that are left at the beginning of a phase, at most. -/
def most : MbPhase → Nat
  | .starting | .ready | .releasing | .rest => 2
  | .failed => 4
  | .executing => 6
  | .received => 8
  | .overrun => 1005
  | .waiting => 1007
  | .hearing => 1009
  | .sending _ => 1261
  | .posted => 1263

end MbPhase

/-- The result that the callback for an error makes of a request. -/
def MbMasterErrorEvent.result (err : MbMasterErrorEvent) : MbMasterReqErrCode :=
  waitRequestFinish err.callback

namespace MbMaster

variable (handlers : List (UInt8 × MbHandler σ)) (x : MbExchange σ)

/-- What the timer still has to run is short. -/
def TimerWithin (s : MbMaster σ) (timed : Bool) : Prop :=
  match s.timer with
  | none => timed = false
  | some timeout => timed = true ∧ (timeout - s.tick).toNat ≤ 1000

/-- What belongs to each phase besides the states and the events. -/
def Holds (s : MbMaster σ) : MbPhase → Prop
  | .starting => s.line = x.line ∧ s.eMasterCurTimerMode = .t35
  | .ready | .releasing | .rest => s.line = x.line
  | .posted =>
    s.line ++ x.frame = x.line ∧ x.heard = [] ∧
      ∃ old, x.data.ucMasterRTUSndBuf = Memory.write old 0 x.frame ∧
        s.data = { x.data with ucMasterRTUSndBuf := Memory.write old 1 x.pdu }
  | .sending k =>
    s.line ++ x.frame.drop k = x.line ∧ x.heard = [] ∧ s.data = x.data ∧ s.ucMBFrame = .snd ∧
      s.sndBufferCur = k ∧ s.usMasterSndBufferCount + k = x.frame.length
  | .waiting =>
    s.line = x.line ∧ s.data = x.data ∧ s.ucMBFrame = .snd ∧ x.heard = [] ∧
      s.xFrameIsBroadcast = x.broadcast ∧
      (s.eMasterCurTimerMode = .convertDelay ↔ x.broadcast = true)
  | .hearing =>
    s.line = x.line ∧ s.data = x.stored ∧ s.usMasterRcvBufferPos = x.heard.length ∧
      x.heard ≠ [] ∧ x.heard.length ≤ mbSerPduSizeMax ∧ s.xFrameIsBroadcast = x.broadcast ∧
      s.eMasterCurTimerMode = .t35
  | .overrun =>
    s.line = x.line ∧ s.data = x.stored ∧ mbSerPduSizeMax < x.heard.length ∧
      s.eMasterCurTimerMode = .t35
  | .received =>
    s.line = x.line ∧ s.data = x.stored ∧ s.usMasterRcvBufferPos = x.heard.length ∧
      x.heard ≠ [] ∧ x.heard.length < mbSerPduSizeMax ∧ s.xFrameIsBroadcast = x.broadcast
  | .executing =>
    s.line = x.line ∧ s.ucMBFrame ≠ .null ∧ s.xFrameIsBroadcast = x.broadcast ∧
      s.data.ucMBMasterDestAddress = x.dest ∧
      x.verdict handlers = executed s.data
        (execute handlers s.ucMBFrame s.usLength x.pdu.length x.broadcast s.data)
  | .failed =>
    s.line = x.line ∧ x.verdict handlers = (s.eMBMasterCurErrorType.result, s.data)

/-- The request of `x` was made with arguments that pass. -/
structure Asked (s : MbMaster σ) : Prop where
  dest : x.dest ≤ mbMasterTotalSlaveNum
  length : x.pdu.length + 3 ≤ mbPduSizeMax
  sndLength : s.usMasterSendPDULength = x.pdu.length
  sndBuf : ∃ old, x.data.ucMasterRTUSndBuf = Memory.write old 0 x.frame

/-- The master is in a phase of the exchange `x`. -/
structure In (s : MbMaster σ) (ph : MbPhase) : Prop where
  fault : s.fault = false
  rcv : s.eRcvState = ph.rcv
  snd : s.eSndState = ph.snd
  rxEnabled : s.rxEnabled = !ph.transmits
  transStart : s.transStart = ph.transmits
  releasing : s.releasing = ph.releases
  timer : s.TimerWithin ph.timed
  coming : Coming pollSet s.event s.poll ph.coming
  asked : ph.Exchanges → s.Asked x
  holds : s.Holds handlers x ph

variable {handlers x} {s : MbMaster σ}

/-! ## Events and timers -/

/-- What is on its way to the two threads. -/
structure Mail (event : BitVec 32) (poll requester : Waiter 32) (polled requested : BitVec 32) :
    Prop where
  poll : Coming pollSet event poll polled
  request : Coming requestSet event requester requested

/-- An event of the poll loop alone. -/
def IsPollEvent (e : BitVec 32) : Prop := e &&& pollSet = e ∧ e ≠ 0 ∧ e &&& requestSet = 0

instance (e : BitVec 32) : Decidable (IsPollEvent e) := inferInstanceAs (Decidable (_ ∧ _ ∧ _))

/-- An event of the poll loop goes to the poll thread. -/
theorem Mail.post_poll {requested e : BitVec 32} (h : Mail s.event s.poll s.requester 0 requested)
    (hevent : IsPollEvent e) : ∃ event poll,
      s.eventPost e = { s with event := event, poll := poll } ∧
        Mail event poll s.requester e requested := by
  obtain ⟨he, hne, hother⟩ := hevent
  have hword : (wake pollSet (s.event ||| e) s.poll).1 &&& requestSet = s.event &&& requestSet :=
    (wake_and (by decide) s.poll).trans (or_and_of_disjoint hother)
  have hrequest := h.request.congr hword
  refine ⟨_, _, ?_, h.poll.wake he hne, hrequest⟩
  rw [eventPost, rtEventSend, hrequest.wake_eq]

/-- A result goes to the requester. -/
theorem Mail.post_request {polled e : BitVec 32} (h : Mail s.event s.poll s.requester polled 0)
    (he : e &&& requestSet = e) (hne : e ≠ 0) (hother : e &&& pollSet = 0) : ∃ event requester,
      s.eventPost e = { s with event := event, requester := requester } ∧
        Mail event s.poll requester polled e := by
  have hpoll := h.poll.congr (or_and_of_disjoint hother)
  have hrequest := h.request.wake he hne
  have hword : (wake requestSet (s.event ||| e) s.requester).1 &&& pollSet =
      (s.event ||| e) &&& pollSet := wake_and (by decide) s.requester
  refine ⟨_, _, ?_, hpoll.congr hword, hrequest⟩
  rw [eventPost, rtEventSend, hpoll.wake_eq]

/-- A timer is set to less than a second. -/
theorem startTimer_eq (s : MbMaster σ) (mode : MbMasterTimerMode) {ticks : BitVec 32}
    (h : ticks.toNat ≤ 1000) : s.startTimer mode ticks =
      { s with eMasterCurTimerMode := mode, timer := some (s.tick + ticks) } := by
  have hshort : ticks < rtTickMax / 2 := by
    rw [BitVec.lt_def]
    exact Nat.lt_of_le_of_lt h (by decide)
  rw [startTimer, rtTimerStart, if_pos hshort]

/-- The silence behind a frame in ticks. -/
def t35Ticks (s : MbMaster σ) : BitVec 32 :=
  50 * s.usT35TimeOut50us.setWidth 32 / (1000 * 1000 / rtTickPerSecond)

theorem t35Ticks_le (s : MbMaster σ) : s.t35Ticks.toNat ≤ 1000 := by
  have hlt := s.usT35TimeOut50us.isLt
  rw [t35Ticks, BitVec.toNat_udiv, BitVec.toNat_mul, BitVec.toNat_setWidth]
  have hdiv : ((1000 * 1000 / rtTickPerSecond : BitVec 32)).toNat = 10000 := by decide
  rw [hdiv]
  have hfifty : (50 : BitVec 32).toNat = 50 := by decide
  rw [hfifty, Nat.mod_eq_of_lt (by omega), Nat.mod_eq_of_lt (by omega)]
  omega

theorem timersT35Enable_eq (s : MbMaster σ) : s.timersT35Enable =
    { s with eMasterCurTimerMode := .t35, timer := some (s.tick + s.t35Ticks) } :=
  s.startTimer_eq .t35 s.t35Ticks_le

/-- A tick ends a timer that has at most one to run, and brings the others nearer. -/
theorem timer_tick {now timeout : BitVec 32} (h : (timeout - now).toNat ≤ 1000) :
    (rtTimerExpired (now + 1) timeout ↔ (timeout - now).toNat ≤ 1) ∧
      (¬ rtTimerExpired (now + 1) timeout →
        (timeout - (now + 1)).toNat + 1 = (timeout - now).toNat) := by
  have hhalf : (rtTickMax / 2).toNat = 0x7fffffff := by decide
  have hone : (1 : BitVec 32).toNat = 1 := by decide
  rw [rtTimerExpired, BitVec.lt_def, hhalf]
  simp only [BitVec.toNat_sub, BitVec.toNat_add, hone] at h ⊢
  have hnow := now.isLt
  have htimeout := timeout.isLt
  omega

end MbMaster

end ControlBoard
