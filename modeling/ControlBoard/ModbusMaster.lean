import ControlBoard.Kernel
import ControlBoard.Lib.EventObject
import ControlBoard.ModbusCrc

/-!
# The Modbus master

The RTU master of `pck/freemodbus` as the board runs it: `mbrtu_m.c` with the receiver and the
transmitter, `mb_m.c` with the poll loop, and the ports to the kernel's events, timers and serial
device. A byte on the line and a tick of the clock are interrupts, the transmitter and the poll loop
are threads, and one more thread makes the requests.
-/

namespace ControlBoard

open EventObject

/-- `MB_PDU_SIZE_MAX` (`mbframe.h`), the size of the send buffer. -/
def mbPduSizeMax : Nat := 253

/-- `MB_SER_PDU_SIZE_MIN` (`mbrtu_m.c`). -/
def mbSerPduSizeMin : Nat := 4

/-- `MB_SER_PDU_SIZE_MAX` (`mbrtu_m.c`), the size of the receive buffer. -/
def mbSerPduSizeMax : Nat := 256

/-- `MB_MASTER_TOTAL_SLAVE_NUM` (`mbconfig.h`). -/
def mbMasterTotalSlaveNum : UInt8 := 16

/-- `MB_ADDRESS_BROADCAST` (`mbproto.h`). -/
def mbAddressBroadcast : UInt8 := 0

/-- `MB_FUNC_HANDLERS_MAX` (`mbconfig.h`). -/
def mbFuncHandlersMax : Nat := 16

/-- `MB_MASTER_TIMEOUT_MS_RESPOND` (`mbconfig.h`). -/
def mbMasterTimeoutMsRespond : BitVec 32 := 100

/-- `MB_MASTER_DELAY_MS_CONVERT` (`mbconfig.h`). -/
def mbMasterDelayMsConvert : BitVec 32 := 200

/-- `eMBMasterRcvState`. -/
inductive MbMasterRcvState where
  | rxInit
  | rxIdle
  | rxRcv
  | rxError
  deriving DecidableEq, Repr

/-- `eMBMasterSndState`. -/
inductive MbMasterSndState where
  | txIdle
  | txXmit
  | txXfwr
  deriving DecidableEq, Repr

/-- `eMBMasterTimerMode`. -/
inductive MbMasterTimerMode where
  | t35
  | respondTimeout
  | convertDelay
  deriving DecidableEq, Repr

/-- `eMBMasterErrorEventType`. -/
inductive MbMasterErrorEvent where
  | respondTimeout
  | receiveData
  | executeFunction
  deriving DecidableEq, Repr

/-- `eMBMasterReqErrCode`. -/
inductive MbMasterReqErrCode where
  | noErr
  | noReg
  | illArg
  | revData
  | timedout
  | masterBusy
  | exeFun
  deriving DecidableEq, Repr

/-! ## Events

The flags of `eMBMasterEventType` in `xMasterOsEvent`. -/

def evMasterReady : BitVec 32 := 1
def evMasterFrameReceived : BitVec 32 := 2
def evMasterExecute : BitVec 32 := 4
def evMasterFrameSent : BitVec 32 := 8
def evMasterErrorProcess : BitVec 32 := 16
def evMasterProcessSuccess : BitVec 32 := 32
def evMasterErrorRespondTimeout : BitVec 32 := 64
def evMasterErrorReceiveData : BitVec 32 := 128
def evMasterErrorExecuteFunction : BitVec 32 := 256

/-- The set `xMBMasterPortEventGet` waits for. -/
def pollSet : BitVec 32 :=
  evMasterReady ||| evMasterFrameReceived ||| evMasterExecute ||| evMasterFrameSent |||
    evMasterErrorProcess

/-- The set `eMBMasterWaitRequestFinish` waits for. -/
def requestSet : BitVec 32 :=
  evMasterProcessSuccess ||| evMasterErrorRespondTimeout ||| evMasterErrorReceiveData |||
    evMasterErrorExecuteFunction

/-- The event that the callback for an error sends to the requester. -/
def MbMasterErrorEvent.callback : MbMasterErrorEvent → BitVec 32
  | .respondTimeout => evMasterErrorRespondTimeout
  | .receiveData => evMasterErrorReceiveData
  | .executeFunction => evMasterErrorExecuteFunction

/-- What `eMBMasterWaitRequestFinish` makes of the events it receives. Two at once match none of
its cases. -/
def waitRequestFinish (recvedEvent : BitVec 32) : MbMasterReqErrCode :=
  if recvedEvent = evMasterErrorRespondTimeout then .timedout
  else if recvedEvent = evMasterErrorReceiveData then .revData
  else if recvedEvent = evMasterErrorExecuteFunction then .exeFun
  else .noErr

/-! ## Function handlers -/

/-- Where `ucMBFrame` points: nowhere, or to the PDU in the send or in the receive buffer. -/
inductive MbFrame where
  | null
  | snd
  | rcv
  deriving DecidableEq, Repr

/-- What the master shares with the function handlers: the two buffers, the address, and the
registers of the application. -/
structure MbData (σ : Type) where
  ucMasterRTUSndBuf : Nat → UInt8
  ucMasterRTURcvBuf : Nat → UInt8
  ucMBMasterDestAddress : UInt8
  regs : σ

/-- A handler gets the frame, its length and whether the request is a broadcast. It returns the
exception and what it leaves, or none if it leaves the bounds of an array. -/
abbrev MbHandler (σ : Type) := MbFrame → Nat → Bool → MbData σ → Option (UInt8 × Nat × MbData σ)

/-- `MB_EX_NONE`. -/
def mbExNone : UInt8 := 0

/-- `MB_EX_ILLEGAL_FUNCTION`. -/
def mbExIllegalFunction : UInt8 := 1

variable {σ : Type}

/-- `ucMBFrame[i]` -/
def MbData.frameByte (d : MbData σ) (frame : MbFrame) (i : Nat) : UInt8 :=
  match frame with
  | .null => 0
  | .snd => d.ucMasterRTUSndBuf (1 + i)
  | .rcv => d.ucMasterRTURcvBuf (1 + i)

/-- The search of `xMasterFuncHandlers`, which ends at the first free entry. -/
def findHandler (handlers : List (UInt8 × MbHandler σ)) (ucFunctionCode : UInt8) :
    Option (MbHandler σ) :=
  (((handlers.take mbFuncHandlersMax).takeWhile fun h => h.1 ≠ 0).find?
    fun h => h.1 = ucFunctionCode).map Prod.snd

/-- The slaves 1 to `MB_MASTER_TOTAL_SLAVE_NUM`. -/
def mbSlaves : List UInt8 :=
  (List.range mbMasterTotalSlaveNum.toNat).map fun j => UInt8.ofNat (j + 1)

/-- The calls of a handler after a broadcast, one for each slave. The exception is that of the last
call. -/
def callForSlaves (h : MbHandler σ) (frame : MbFrame) :
    List UInt8 → UInt8 × Nat × MbData σ → Option (UInt8 × Nat × MbData σ)
  | [], r => some r
  | j :: slaves, (_, usLength, d) =>
    (h frame usLength true { d with ucMBMasterDestAddress := j }).bind (callForSlaves h frame slaves)

/-- The case `EV_MASTER_EXECUTE` of `eMBMasterPoll` (`mb_m.c:299-345`) up to the test of the
exception, which is returned. -/
def execute (handlers : List (UInt8 × MbHandler σ)) (frame : MbFrame) (usLength sndLength : Nat)
    (broadcast : Bool) (d : MbData σ) : Option (UInt8 × Nat × MbData σ) :=
  let ucFunctionCode := d.frameByte frame 0
  if ucFunctionCode >>> 7 ≠ 0 then some (d.frameByte frame 1, usLength, d)
  else
    match findHandler handlers ucFunctionCode with
    | none => some (mbExIllegalFunction, usLength, d)
    | some h =>
      if broadcast then callForSlaves h frame mbSlaves (mbExIllegalFunction, sndLength, d)
      else h frame usLength false d

/-! ## The state -/

/-- The static variables of the master with the kernel objects it uses: the running timer by its
`timeout_tick`, the interrupt of the receiver, the event of the transmitter, and `xMasterOsEvent`
with its two threads. `fault` is up once an assertion has failed or a bound was passed. -/
structure MbMaster (σ : Type) where
  eRcvState : MbMasterRcvState
  eSndState : MbMasterSndState
  data : MbData σ
  usMasterSendPDULength : Nat
  /-- `pucMasterSndBufferCur` as an offset in the send buffer -/
  sndBufferCur : Nat
  usMasterSndBufferCount : Nat
  usMasterRcvBufferPos : Nat
  xFrameIsBroadcast : Bool
  eMasterCurTimerMode : MbMasterTimerMode
  usT35TimeOut50us : BitVec 16
  tick : BitVec 32
  timer : Option (BitVec 32)
  rxEnabled : Bool
  transStart : Bool
  /-- the bytes the master has put on the line -/
  line : List UInt8
  event : BitVec 32
  poll : Waiter 32
  /-- the poll thread has told the requester the result, and comes to `vMBMasterRunResRelease` -/
  releasing : Bool
  /-- a request has been made and has not returned -/
  calling : Bool
  requester : Waiter 32
  xMasterRunRes : Nat
  eMBMasterCurErrorType : MbMasterErrorEvent
  ucMBFrame : MbFrame
  ucRcvAddress : UInt8
  usLength : Nat
  /-- what the requests have returned -/
  returned : List MbMasterReqErrCode
  fault : Bool

namespace MbMaster

/-- `rt_event_send` to `xMasterOsEvent`. -/
def eventPost (s : MbMaster σ) (eEvent : BitVec 32) : MbMaster σ :=
  let polled := wake pollSet (rtEventSend s.event eEvent) s.poll
  let requested := wake requestSet polled.1 s.requester
  { s with event := requested.1, poll := polled.2, requester := requested.2 }

/-- `RT_ASSERT(ok)` -/
def assert (s : MbMaster σ) (ok : Bool) : MbMaster σ := { s with fault := s.fault || !ok }

/-! ## Ports -/

/-- The timer is set to `ticks` and started. -/
def startTimer (s : MbMaster σ) (mode : MbMasterTimerMode) (ticks : BitVec 32) : MbMaster σ :=
  match rtTimerStart s.tick ticks with
  | some timeout => { s with eMasterCurTimerMode := mode, timer := some timeout }
  | none => { s with eMasterCurTimerMode := mode, fault := true }

/-- `vMBMasterPortTimersT35Enable` -/
def timersT35Enable (s : MbMaster σ) : MbMaster σ :=
  s.startTimer .t35
    (50 * s.usT35TimeOut50us.setWidth 32 / (1000 * 1000 / rtTickPerSecond))

/-- `vMBMasterPortTimersConvertDelayEnable` -/
def timersConvertDelayEnable (s : MbMaster σ) : MbMaster σ :=
  s.startTimer .convertDelay (mbMasterDelayMsConvert * rtTickPerSecond / 1000)

/-- `vMBMasterPortTimersRespondTimeoutEnable` -/
def timersRespondTimeoutEnable (s : MbMaster σ) : MbMaster σ :=
  s.startTimer .respondTimeout (mbMasterTimeoutMsRespond * rtTickPerSecond / 1000)

/-- `vMBMasterPortTimersDisable` -/
def timersDisable (s : MbMaster σ) : MbMaster σ := { s with timer := none }

/-- `vMBMasterPortSerialEnable` -/
def serialEnable (s : MbMaster σ) (xRxEnable xTxEnable : Bool) : MbMaster σ :=
  { s with rxEnabled := xRxEnable, transStart := xTxEnable }

/-! ## The receiver and the transmitter -/

/-- `eMBMasterRTUReceive`; true for `MB_ENOERR`. -/
def rtuReceive (s : MbMaster σ) : Bool × MbMaster σ :=
  let s := s.assert (s.usMasterRcvBufferPos < mbSerPduSizeMax)
  if mbSerPduSizeMin ≤ s.usMasterRcvBufferPos ∧
      usMBCRC16 (Memory.read s.data.ucMasterRTURcvBuf 0 s.usMasterRcvBufferPos) = 0 then
    (true, { s with
      ucRcvAddress := s.data.ucMasterRTURcvBuf 0
      usLength := s.usMasterRcvBufferPos - 3
      ucMBFrame := .rcv })
  else (false, s)

/-- `eMBMasterRTUSend` of the PDU in the send buffer. Its error codes are not looked at. -/
def rtuSend (s : MbMaster σ) (ucSlaveAddress : UInt8) (usLength : Nat) : MbMaster σ :=
  if mbMasterTotalSlaveNum < ucSlaveAddress then s
  else
    match s.eRcvState with
    | .rxIdle =>
      let sndBuf := Memory.write s.data.ucMasterRTUSndBuf 0 [ucSlaveAddress]
      let count := 1 + usLength
      let crc := crcBytes (Memory.read sndBuf 0 count)
      ({ s with
        data := { s.data with ucMasterRTUSndBuf := Memory.write sndBuf count crc }
        sndBufferCur := 0
        usMasterSndBufferCount := count + 2
        eSndState := .txXmit }.serialEnable false true).assert (count + 2 ≤ mbPduSizeMax)
    | _ => s

/-- `xMBMasterRTUReceiveFSM` -/
def receiveFSM (s : MbMaster σ) (ucByte : UInt8) : MbMaster σ :=
  let s := s.assert (s.eSndState ≠ .txXmit)
  match s.eRcvState with
  | .rxInit | .rxError => s.timersT35Enable
  | .rxIdle =>
    { s.timersDisable with
      eSndState := .txIdle
      data := { s.data with
        ucMasterRTURcvBuf := Memory.write s.data.ucMasterRTURcvBuf 0 [ucByte] }
      usMasterRcvBufferPos := 1
      eRcvState := .rxRcv }.timersT35Enable
  | .rxRcv =>
    if s.usMasterRcvBufferPos < mbSerPduSizeMax then
      { s with
        data := { s.data with
          ucMasterRTURcvBuf :=
            Memory.write s.data.ucMasterRTURcvBuf s.usMasterRcvBufferPos [ucByte] }
        usMasterRcvBufferPos := s.usMasterRcvBufferPos + 1 }.timersT35Enable
    else { s with eRcvState := .rxError }.timersT35Enable

/-- `xMBMasterRTUTransmitFSM` -/
def transmitFSM (s : MbMaster σ) : MbMaster σ :=
  let s := s.assert (s.eRcvState = .rxIdle)
  match s.eSndState with
  | .txIdle => s.serialEnable true false
  | .txXmit =>
    if s.usMasterSndBufferCount ≠ 0 then
      { s with
        line := s.line ++ [s.data.ucMasterRTUSndBuf s.sndBufferCur]
        sndBufferCur := s.sndBufferCur + 1
        usMasterSndBufferCount := s.usMasterSndBufferCount - 1 }
    else
      let broadcast := decide (s.data.ucMasterRTUSndBuf 0 = mbAddressBroadcast)
      let s := { s.serialEnable true false with xFrameIsBroadcast := broadcast, eSndState := .txXfwr }
      if broadcast then s.timersConvertDelayEnable else s.timersRespondTimeoutEnable
  | .txXfwr => s

/-- The case for the receiver in `xMBMasterRTUTimerExpired`. -/
def receiverExpired (s : MbMaster σ) : MbMaster σ :=
  match s.eRcvState with
  | .rxInit => s.eventPost evMasterReady
  | .rxIdle => s
  | .rxRcv => s.eventPost evMasterFrameReceived
  | .rxError => { s with eMBMasterCurErrorType := .receiveData }.eventPost evMasterErrorProcess

/-- The case for the transmitter there. -/
def transmitterExpired (s : MbMaster σ) : MbMaster σ :=
  match s.eSndState with
  | .txIdle => s
  | .txXmit => s.assert false
  | .txXfwr =>
    if s.xFrameIsBroadcast then s
    else { s with eMBMasterCurErrorType := .respondTimeout }.eventPost evMasterErrorProcess

/-- `xMBMasterRTUTimerExpired` -/
def timerExpired (s : MbMaster σ) : MbMaster σ :=
  let s := { s.receiverExpired with eRcvState := .rxIdle }
  let s := { s.transmitterExpired with eSndState := .txIdle }.timersDisable
  if s.eMasterCurTimerMode = .convertDelay then s.eventPost evMasterExecute else s

/-! ## The poll loop and the requests -/

/-- The case `EV_MASTER_FRAME_RECEIVED` of `eMBMasterPoll`. -/
def frameReceived (s : MbMaster σ) : MbMaster σ :=
  let (eStatus, s) := s.rtuReceive
  if eStatus ∧ s.ucRcvAddress = s.data.ucMBMasterDestAddress then s.eventPost evMasterExecute
  else { s with eMBMasterCurErrorType := .receiveData }.eventPost evMasterErrorProcess

/-- `vMBMasterRunResRelease` -/
def runResRelease (s : MbMaster σ) : MbMaster σ :=
  { s with releasing := false, xMasterRunRes := s.xMasterRunRes + 1 }

/-- `rt_event_send` of the result to the requester, which may run before the poll thread comes to
the release behind it. -/
def resultPost (s : MbMaster σ) (eEvent : BitVec 32) : MbMaster σ :=
  { s.eventPost eEvent with releasing := true }

/-- The case `EV_MASTER_EXECUTE`, up to the release. -/
def executeFrame (handlers : List (UInt8 × MbHandler σ)) (s : MbMaster σ) : MbMaster σ :=
  let s := s.assert (s.ucMBFrame ≠ .null)
  match execute handlers s.ucMBFrame s.usLength s.usMasterSendPDULength s.xFrameIsBroadcast
    s.data with
  | none => s.assert false
  | some (eException, usLength, data) =>
    let s := { s with usLength := usLength, data := data }
    if eException ≠ mbExNone then
      { s with eMBMasterCurErrorType := .executeFunction }.eventPost evMasterErrorProcess
    else s.resultPost evMasterProcessSuccess

/-- The case `EV_MASTER_FRAME_SENT`. -/
def frameSent (s : MbMaster σ) : MbMaster σ :=
  { s with ucMBFrame := .snd }.rtuSend s.data.ucMBMasterDestAddress s.usMasterSendPDULength

/-- The case `EV_MASTER_ERROR_PROCESS`, up to the release. -/
def errorProcess (s : MbMaster σ) : MbMaster σ :=
  { s with ucMBFrame := .snd }.resultPost s.eMBMasterCurErrorType.callback

/-- `eMBMasterPoll` with what `rt_event_recv` has returned in `xMBMasterPortEventGet`. Two events
at once match none of the cases there, and `eEvent` is not set. -/
def pollEvent (handlers : List (UInt8 × MbHandler σ)) (s : MbMaster σ) (recvedEvent : BitVec 32) :
    MbMaster σ :=
  if recvedEvent = evMasterReady then s
  else if recvedEvent = evMasterFrameReceived then s.frameReceived
  else if recvedEvent = evMasterExecute then s.executeFrame handlers
  else if recvedEvent = evMasterFrameSent then s.frameSent
  else if recvedEvent = evMasterErrorProcess then s.errorProcess
  else s.assert false

/-- What the functions `eMBMasterReq...` share: the check of the address, `xMBMasterRunResTake`, the
PDU that goes into the send buffer, and the event. -/
def request (s : MbMaster σ) (ucSndAddr : UInt8) (pdu : List UInt8) : Option (MbMaster σ) :=
  if s.calling then none
  else if mbMasterTotalSlaveNum < ucSndAddr then
    some { s with returned := s.returned ++ [.illArg] }
  else if s.xMasterRunRes = 0 then none
  else
    some (({ s with
      calling := true
      requester := .away
      xMasterRunRes := s.xMasterRunRes - 1
      data := { s.data with
        ucMBMasterDestAddress := ucSndAddr
        ucMasterRTUSndBuf := Memory.write s.data.ucMasterRTUSndBuf 1 pdu }
      usMasterSendPDULength := pdu.length }.assert (1 + pdu.length ≤ mbPduSizeMax)).eventPost
        evMasterFrameSent)

instance (current timeout : BitVec 32) : Decidable (rtTimerExpired current timeout) :=
  inferInstanceAs (Decidable (_ < _))

/-- `rt_tick_increase` with `rt_timer_check`. -/
def tickIncrease (s : MbMaster σ) : MbMaster σ :=
  let s := { s with tick := s.tick + 1 }
  match s.timer with
  | none => s
  | some timeout =>
    if rtTimerExpired s.tick timeout then { s with timer := none }.timerExpired else s

end MbMaster

/-- One step: an interrupt, a turn of the transmitter thread, of the poll thread into or out of
`rt_event_recv` or past the release of `xMasterRunRes`, or of the requesting thread. -/
inductive MbAction where
  | tick
  | byte (b : UInt8)
  | transmit
  | pollRecv
  | poll
  | runResRelease
  | request (ucSndAddr : UInt8) (pdu : List UInt8)
  /-- `xMBMasterRunResTake` gives up -/
  | requestBusy (ucSndAddr : UInt8)
  | requestRecv
  | finish
  deriving DecidableEq, Repr

namespace MbMaster

/-- A step of the master, if it is enabled. After a fault none is. -/
def step (handlers : List (UInt8 × MbHandler σ)) (s : MbMaster σ) (a : MbAction) :
    Option (MbMaster σ) :=
  if s.fault then none
  else
    match a with
    | .tick => some s.tickIncrease
    | .byte b => if s.rxEnabled then some (s.receiveFSM b) else none
    | .transmit => if s.transStart then some s.transmitFSM else none
    | .pollRecv =>
      if s.poll = .away ∧ s.releasing = false then
        let r := receive pollSet s.event
        some { s with event := r.1, poll := r.2 }
      else none
    | .poll =>
      match s.poll with
      | .resumed recvedEvent => some ({ s with poll := .away }.pollEvent handlers recvedEvent)
      | _ => none
    | .runResRelease => if s.releasing then some s.runResRelease else none
    | .request ucSndAddr pdu => s.request ucSndAddr pdu
    | .requestBusy ucSndAddr =>
      if ¬ s.calling ∧ ucSndAddr ≤ mbMasterTotalSlaveNum ∧ s.xMasterRunRes = 0 then
        some { s with returned := s.returned ++ [.masterBusy] }
      else none
    | .requestRecv =>
      if s.calling ∧ s.requester = .away then
        let r := receive requestSet s.event
        some { s with event := r.1, requester := r.2 }
      else none
    | .finish =>
      match s.requester with
      | .resumed recvedEvent =>
        some { s with
          calling := false
          requester := .away
          returned := s.returned ++ [waitRequestFinish recvedEvent] }
      | _ => none

/-- `usTimerT35_50us` of `eMBMasterRTUInit`. -/
def timerT35 (ulBaudRate : Nat) : BitVec 16 :=
  BitVec.ofNat 16 (if 19200 < ulBaudRate then 35 else 7 * 220000 / (2 * ulBaudRate))

/-- After `eMBMasterInit(MB_RTU, 2, ulBaudRate, MB_PAR_EVEN)` and `eMBMasterEnable()`. -/
def start (ulBaudRate : Nat) (tick : BitVec 32) (regs : σ) : MbMaster σ :=
  ({ eRcvState := .rxInit
     eSndState := .txIdle
     data := ⟨fun _ => 0, fun _ => 0, 0, regs⟩
     usMasterSendPDULength := 0
     sndBufferCur := 0
     usMasterSndBufferCount := 0
     usMasterRcvBufferPos := 0
     xFrameIsBroadcast := false
     eMasterCurTimerMode := .t35
     usT35TimeOut50us := timerT35 ulBaudRate
     tick := tick
     timer := none
     rxEnabled := false
     transStart := false
     line := []
     event := 0
     poll := .away
     releasing := false
     calling := false
     requester := .away
     xMasterRunRes := 1
     eMBMasterCurErrorType := .respondTimeout
     ucMBFrame := .null
     ucRcvAddress := 0
     usLength := 0
     returned := []
     fault := false : MbMaster σ }.serialEnable true false).timersT35Enable

end MbMaster

end ControlBoard
