import ControlBoard.JoinConfig
import ControlBoard.Lib.EventObject
import Mathlib.Logic.Function.Basic
import Mathlib.Tactic.Simps.Basic

/-!
# The radio thread and its callers

The part of `applications/radio_control.c` that several threads see: `radio_send`, the
status timer, and the loop of `radio_thread_entry`. The thread is interrupted only where it
blocks (`rt_event_recv`, the wait in an AT command, `rt_thread_mdelay`), so one of its steps
runs it from one such point to the next, with the answers to its calls of `Io` coming from
outside. While it is suspended in `rt_event_recv`, what is sent is handed to it and leaves the
flag word at once. A step that goes through a pointer which designates no allocated block, or
stores behind an array, ends the run in a fault.
-/

namespace ControlBoard

open EventObject

/-- `RADIO_EVENT_SEND`, `(uint32_t)1<<1` -/
def radioEventSend : BitVec 32 := 2

/-- `RADIO_EVENT_CHECK_STATUE`, `(uint32_t)1<<2` -/
def radioEventCheckStatue : BitVec 32 := 4

/-- The flags that the radio thread receives. -/
def radioEvents : BitVec 32 := radioEventSend ||| radioEventCheckStatue

/-- An allocated `Data_s`, and the call of `radio_send` that obtained it, by the order of the
calls that returned 0. -/
structure DataS where
  ptr : Nat
  size : UInt8
  call : Nat
  deriving DecidableEq, Repr

/-- A call of `radio_send` that returned 0, with the bytes `data[0..size)` at that time. -/
structure SendCall where
  data : Nat
  size : UInt8
  bytes : List UInt8
  deriving DecidableEq, Repr

/-- What the thread does for a received `RADIO_EVENT_SEND`: an `at_radio_send_hex` with the
fields of the block of `call`, which then hold `bytes`, or the branch "send be not allowed". -/
inductive Handled where
  | sent (call : Nat) (ptr : Nat) (size : UInt8) (bytes : List UInt8) (handling : List Nat)
  | refused (statue : AtRadioStatue)
  deriving DecidableEq, Repr

/-- The uses of `RadioBuffer` by the thread: the block, the call that had obtained it, and the
calls whose event is being handled. `passed` is the block that `at_radio_send_hex` was called
with. -/
inductive Access where
  | read (block owner : Nat) (handling : List Nat)
  | free (block owner : Option Nat) (passed : Nat) (handling : List Nat)
  deriving DecidableEq, Repr

inductive Fault where
  | nullStore
  | deadRead
  | deadFree
  /-- the token of a status reply does not fit `str[10]` -/
  | strOverrun
  deriving DecidableEq, Repr

/-- Where the thread is. All but `handle` are points at which it blocks. -/
inductive Pc where
  /-- `rt_thread_mdelay(5000)` before the loop -/
  | bootDelay
  | firstQuery (p : Prog Io (Option (AtError × AtRadioStatue)))
  | join (p : Prog Io AtError)
  /-- `rt_thread_mdelay(5000)` after a join -/
  | joinDelay
  /-- at `rt_event_recv`: about to call it, suspended in it, or given its flags -/
  | recv (waiter : Waiter 32)
  | query (event : BitVec 32) (p : Prog Io (Option (AtError × AtRadioStatue)))
  /-- at the test `event & RADIO_EVENT_SEND` -/
  | handle (event : BitVec 32)
  | send (block : Nat) (p : Prog Io AtError)
  | fault (f : Fault)

/-- The state that the threads share, the thread's position, and the history: the accepted
calls, those whose event is in the flag word and those whose event the thread was given last, what
was handled, and the uses of `RadioBuffer`. -/
structure RadioSys where
  event : BitVec 32
  radioBuffer : Option Nat
  radioStatue : AtRadioStatue
  checkTimer : Bool
  heap : Nat → Option DataS
  memory : Nat → UInt8
  pc : Pc
  accepted : List SendCall
  raised : List Nat
  handling : List Nat
  handled : List Handled
  accesses : List Access

/-- What the thread meets on its way to the next blocking point: the answers to its calls, what
its uninitialised locals hold, and what `vsscanf` returns at the end of its input. -/
structure Env where
  query : Answers Io
  send : Answers Io
  join : Answers Io
  str : List UInt8
  eof : Int
  useInfo : RadioInfo

/-- One step of some thread. -/
inductive Action where
  /-- `radio_send(data, size)`; `block` is what `rt_malloc` returns in it -/
  | radioSend (data : Nat) (size : UInt8) (block : Option Nat)
  /-- `radio_check_statue_timer_irq` -/
  | timer
  /-- a caller of `radio_send` writes its memory -/
  | write (addr : Nat) (value : UInt8)
  | thread (env : Env)

namespace RadioSys

variable (fal : Bool) (env : Env)

/-- `RADIO_EVENT_SEND` is pending. -/
def Pending (s : RadioSys) : Prop := Flags.Raised s.event radioEventSend

instance (s : RadioSys) : Decidable s.Pending := inferInstanceAs (Decidable (Flags.Raised _ _))

/-- The block that `RadioBuffer` designates, if it designates one. -/
def slot (s : RadioSys) : Option (Nat × DataS) := do
  let b ← s.radioBuffer
  let d ← s.heap b
  return (b, d)

/-- `radioStatue != AT_RADIO_STATUE_LOSE && radioStatue != AT_RADIO_STATUE_WAIT` -/
def SendAllowed (s : RadioSys) : Prop := s.radioStatue ≠ .lose ∧ s.radioStatue ≠ .wait

instance (s : RadioSys) : Decidable s.SendAllowed := inferInstanceAs (Decidable (_ ∧ _))

/-- The thread waits in `rt_event_recv`, or is about to, with no `RADIO_EVENT_SEND` pending. -/
def Idle (s : RadioSys) : Prop :=
  (s.pc = .recv .suspended ∨ s.pc = .recv .away) ∧ ¬ s.Pending

/-! ## The thread from point to point -/

@[simps] def goto (s : RadioSys) (pc : Pc) : RadioSys := { s with pc := pc }

/-- Behind `raido_join_config_join(RT_NULL)`. -/
def joined (s : RadioSys) : Prog Io AtError → RadioSys
  | .ret _ => s.goto .joinDelay
  | p => s.goto (.join p)

/-- The head of the loop. -/
def loopHead (s : RadioSys) : RadioSys :=
  if s.radioStatue = .wait then
    s.joined ((raidoJoinConfigJoin fal env.useInfo none).settle IoOp.blocks env.join)
  else s.goto (.recv .away)

/-- Behind the first `at_radio_get_statue`. -/
def firstQueried (s : RadioSys) : Prog Io (Option (AtError × AtRadioStatue)) → RadioSys
  | .ret (some r) => loopHead fal env { s with radioStatue := r.2, checkTimer := true }
  | .ret none => s.goto (.fault .strOverrun)
  | p => s.goto (.firstQuery p)

/-- Behind the `at_radio_get_statue` of the loop. -/
def queried (event : BitVec 32) (s : RadioSys) :
    Prog Io (Option (AtError × AtRadioStatue)) → RadioSys
  | .ret (some r) => { s with radioStatue := r.2, pc := .handle event }
  | .ret none => s.goto (.fault .strOverrun)
  | p => s.goto (.query event p)

/-- The thread is given the flags `event`, and `left` stay in the word. -/
@[simps] def take (s : RadioSys) (left event : BitVec 32) : RadioSys :=
  { s with event := left, raised := [], handling := s.raised, pc := .recv (.resumed event) }

/-- At the event object the thread is given its flags, or suspended. -/
def arrive (s : RadioSys) : BitVec 32 × Waiter 32 → RadioSys
  | (left, .resumed event) => s.take left event
  | (left, waiter) => { s with event := left, pc := .recv waiter }

@[simps] def raise (s : RadioSys) (set : BitVec 32) : RadioSys :=
  { s with event := rtEventSend s.event set }

/-- `rt_event_send(&radio_event, set)` -/
def sendEvent (set : BitVec 32) (s : RadioSys) : RadioSys :=
  match s.pc with
  | .recv .suspended => s.arrive (wake radioEvents (s.raise set).event .suspended)
  | _ => s.raise set

/-- Behind `rt_event_recv`: the query, if the flags ask for one. -/
def received (event : BitVec 32) (s : RadioSys) : RadioSys :=
  if Flags.Raised event radioEventCheckStatue then
    s.queried event
      ((atRadioGetStatue env.eof env.str s.radioStatue).settle IoOp.blocks env.query)
  else s.goto (.handle event)

/-- `rt_free` of an allocated block. -/
@[simps] def release (s : RadioSys) (b : Nat) (d : DataS) (passed : Nat) : RadioSys :=
  { s with
    heap := Function.update s.heap b none
    accesses := s.accesses ++ [.free (some b) (some d.call) passed s.handling] }

/-- `rt_free(RT_NULL)` does nothing. -/
@[simps] def releaseNull (s : RadioSys) (passed : Nat) : RadioSys :=
  { s with accesses := s.accesses ++ [.free none none passed s.handling] }

/-- `rt_free(RadioBuffer)` -/
def rtFree (passed : Nat) (s : RadioSys) : Except Fault RadioSys :=
  match s.radioBuffer with
  | none => .ok (s.releaseNull passed)
  | some b =>
    match s.heap b with
    | none => .error .deadFree
    | some d => .ok (s.release b d passed)

/-- Behind `at_radio_send_hex`. -/
def sent (block : Nat) (s : RadioSys) : Prog Io AtError → Except Fault RadioSys
  | .ret _ => do
    let s ← s.rtFree block
    return loopHead fal env s
  | p => .ok (s.goto (.send block p))

/-- `RadioBuffer->ptr` and `RadioBuffer->size` are read for `at_radio_send_hex`. -/
@[simps] def readSlot (s : RadioSys) (b : Nat) (d : DataS) : RadioSys :=
  { s with
    handled := s.handled ++
      [.sent d.call d.ptr d.size (Memory.read s.memory d.ptr d.size.toNat) s.handling]
    accesses := s.accesses ++ [.read b d.call s.handling] }

/-- The branch "send be not allowed". -/
@[simps] def refuse (s : RadioSys) : RadioSys :=
  { s with handled := s.handled ++ [.refused s.radioStatue] }

/-- From the test `event & RADIO_EVENT_SEND` on. -/
def handleSend (event : BitVec 32) (s : RadioSys) : Except Fault RadioSys :=
  if Flags.Raised event radioEventSend then
    if s.SendAllowed then
      match s.slot with
      | none => .error .deadRead
      | some (b, d) =>
        let bytes := Memory.read s.memory d.ptr d.size.toNat
        sent fal env b (s.readSlot b d) ((atRadioSendHex bytes).settle IoOp.blocks env.send)
    else .ok (loopHead fal env s.refuse)
  else .ok (loopHead fal env s)

/-- A fault ends everything where it occurs. -/
def commit (s : RadioSys) : Except Fault RadioSys → RadioSys
  | .ok s' => s'
  | .error f => s.goto (.fault f)

/-- Go on behind the query, if the thread is there. -/
def finish (s : RadioSys) : RadioSys :=
  match s.pc with
  | .handle event => s.commit (handleSend fal env event s)
  | _ => s

/-- The thread up to the query of the loop or behind it. -/
def toBranch (s : RadioSys) : Option RadioSys :=
  match s.pc with
  | .recv (.resumed event) => some (received env event s)
  | .query event p => some (s.queried event (p.resume IoOp.blocks env.query))
  | _ => none

/-- One step of the radio thread; none while it is suspended. -/
def threadStep (s : RadioSys) : Option RadioSys :=
  match s.pc with
  | .bootDelay =>
    some (firstQueried fal env s
      ((atRadioGetStatue env.eof env.str s.radioStatue).settle IoOp.blocks env.query))
  | .firstQuery p => some (firstQueried fal env s (p.resume IoOp.blocks env.query))
  | .join p => some (s.joined (p.resume IoOp.blocks env.join))
  | .joinDelay => some (s.goto (.recv .away))
  | .recv .away => some (s.arrive (receive radioEvents s.event))
  | .recv .suspended => none
  | .recv (.resumed _) => (toBranch env s).map (finish fal env)
  | .query _ _ => (toBranch env s).map (finish fal env)
  | .send b p => some (s.commit (sent fal env b s (p.resume IoOp.blocks env.send)))
  | .handle _ => none
  | .fault _ => none

/-- `radio_send` has stored to the block `b`, and the call counts as raised. -/
@[simps] def post (s : RadioSys) (data : Nat) (size : UInt8) (b : Nat) : RadioSys :=
  { s with
    radioBuffer := some b
    heap := Function.update s.heap b (some ⟨data, size, s.accepted.length⟩)
    accepted := s.accepted ++ [⟨data, size, Memory.read s.memory data size.toNat⟩]
    raised := s.raised ++ [s.accepted.length] }

/-- `radio_send` (`radio_control.c:68-80`). `rt_malloc` returns `RT_NULL` or a block that is
not allocated. -/
def radioSend (data : Nat) (size : UInt8) (block : Option Nat) (s : RadioSys) : Option RadioSys :=
  if size ≥ 50 then some s
  else
    match block with
    | none => some { s with radioBuffer := none, pc := .fault .nullStore }
    | some b =>
      if (s.heap b).isSome then none
      else some ((s.post data size b).sendEvent radioEventSend)

/-- The thread runs into no more steps, and nothing else does. -/
def halted (s : RadioSys) : Bool :=
  match s.pc with
  | .fault _ => true
  | _ => false

/-- One step of the board. -/
def step (s : RadioSys) (a : Action) : Option RadioSys :=
  if s.halted then none
  else
    match a with
    | .radioSend data size block => s.radioSend data size block
    | .timer =>
      if s.checkTimer then some (s.sendEvent radioEventCheckStatue) else none
    | .write addr value => some { s with memory := Function.update s.memory addr value }
    | .thread env => threadStep fal env s

/-- After `radio_thread_init`. -/
def start (memory : Nat → UInt8) : RadioSys where
  event := 0
  radioBuffer := none
  radioStatue := .lose
  checkTimer := false
  heap := fun _ => none
  memory := memory
  pc := .bootDelay
  accepted := []
  raised := []
  handling := []
  handled := []
  accesses := []

end RadioSys

/-! ## Sample surroundings -/

/-- Memory is there, and every command ends like this. -/
def answers (re : ExecReply) : Answers Io
  | .atCreateResp .. => some 0
  | .atDeleteResp _ => ()
  | .atExecCmd .. => re
  | .rtThreadMdelay _ => ()
  | .falPartitionFind _ => false
  | .falPartitionRead .. => none
  | .falPartitionErase .. => (-1 : Int)
  | .falPartitionWrite .. => (-1 : Int)

/-- A module in the given state that acknowledges every command. -/
def Env.reports (statue : List UInt8) : Env where
  query := answers ⟨.success, ascii "+STATUE:" ++ statue ++ [0], 1⟩
  send := answers ⟨.success, [], 0⟩
  join := answers ⟨.success, [], 0⟩
  str := []
  eof := -1
  useInfo := RadioInfo.ofBytes (List.replicate RadioInfo.size 0) (List.length_replicate)

/-- A module that does not answer. -/
def Env.silent : Env := { Env.reports [] with query := answers ⟨.timeout, [], 0⟩ }

def Env.joined : Env := .reports (ascii "LORA_JOIN")

/-- The thread starts, and waits in `rt_event_recv` with the module in the net. -/
def Action.boot : List Action := [.thread .joined, .thread .joined, .thread .joined]

/-- After it one upload, from the call to the next wait in `rt_event_recv`. -/
def Action.upload (data block : Nat) : List Action :=
  [.radioSend data 12 (some block), .thread .joined, .thread .joined, .thread .joined]

end ControlBoard
