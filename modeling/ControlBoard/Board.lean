import ControlBoard.AtClientRadio
import ControlBoard.AtOutput

/-!
# The board around a sequential call

The state that the calls of `Io` act on when one thread runs them to the end: the response
objects of the AT client, the radio module behind the UART, and the flash with the partition
table. What the surroundings decide, namely whether memory is available, how each command
ends and whether a flash operation works, is a script fixed in advance.
-/

namespace ControlBoard

/-! ## Response objects -/

/-- The response objects created so far: the next name, those that are allocated, and every
argument of `at_delete_resp`. Names in use are below the next one. -/
structure RespPool where
  next : Nat
  live : List Nat
  deleted : List Nat
  live_lt : ∀ r ∈ live, r < next
  deleted_lt : ∀ r ∈ deleted, r < next

namespace RespPool

def empty : RespPool := ⟨0, [], [], by simp, by simp⟩

/-- `at_create_resp` with memory: one fresh object. -/
def create (p : RespPool) : RespPool where
  next := p.next + 1
  live := p.next :: p.live
  deleted := p.deleted
  live_lt := by
    intro r hr
    rcases List.mem_cons.mp hr with rfl | hr
    · omega
    · have := p.live_lt r hr
      omega
  deleted_lt := by
    intro r hr
    have := p.deleted_lt r hr
    omega

/-- `at_delete_resp`. Names that were never created do not occur. -/
def delete (p : RespPool) (r : Nat) : RespPool where
  next := max p.next (r + 1)
  live := p.live.erase r
  deleted := r :: p.deleted
  live_lt := by
    intro r' hr'
    have := p.live_lt r' (List.mem_of_mem_erase hr')
    omega
  deleted_lt := by
    intro r' hr'
    rcases List.mem_cons.mp hr' with rfl | hr'
    · omega
    · have := p.deleted_lt r' hr'
      omega

end RespPool

/-! ## The radio module -/

/-- The OTAA identity that the radio module holds. -/
structure RadioModule where
  devEui : List UInt8
  appEui : List UInt8
  appKey : List UInt8
  deriving DecidableEq, Repr

/-- The module's side of a line that it acknowledges: a component is replaced by the text behind
the name of its command. -/
def RadioModule.acknowledge (m : RadioModule) (line : List UInt8) : RadioModule :=
  if (ascii "AT+DEVEUI=").isPrefixOf line then { m with devEui := line.drop 10 }
  else if (ascii "AT+APPEUI=").isPrefixOf line then { m with appEui := line.drop 10 }
  else if (ascii "AT+APPKEY=").isPrefixOf line then { m with appKey := line.drop 10 }
  else m

/-! ## The flash -/

/-- A partition table entry, `struct fal_partition`. -/
structure FalPartition where
  name : List UInt8
  offset : Nat
  len : Nat
  deriving DecidableEq, Repr

/-- The table of `fal_cfg.h`. -/
def eeprom : FalPartition := ⟨ascii "eeprom", 0, 1024 + 512⟩
def eeprom2 : FalPartition := ⟨ascii "eeprom2", 1024 + 512, 512⟩

/-- The flash device, what its bytes read after an erase, and the partition table on it. -/
structure Flash where
  table : List FalPartition
  bytes : Nat → UInt8
  erased : UInt8

namespace Flash

/-- `fal_partition_find` (`fal_partition.c:295-310`). -/
def find (f : Flash) (name : List UInt8) : Option FalPartition :=
  f.table.find? fun p => p.name = name

/-- `fal_partition_read` (`fal_partition.c:356-384`); `works` is the result of the device. -/
def partitionRead (f : Flash) (works : Bool) (part : FalPartition) (addr size : Nat) :
    Option {bs : List UInt8 // bs.length = size} :=
  if addr + size > part.len then none
  else if works then some ⟨Memory.read f.bytes (part.offset + addr) size, Memory.length_read⟩
  else none

/-- `fal_partition_write` (`fal_partition.c:397-425`). -/
def partitionWrite (f : Flash) (works : Bool) (part : FalPartition) (addr : Nat)
    (data : List UInt8) : Int × Flash :=
  if addr + data.length > part.len then (-1, f)
  else if works then
    (data.length, { f with bytes := Memory.write f.bytes (part.offset + addr) data })
  else (-1, f)

/-- `fal_partition_erase` (`fal_partition.c:437-464`). -/
def partitionErase (f : Flash) (works : Bool) (part : FalPartition) (addr size : Nat) :
    Int × Flash :=
  if addr + size > part.len then (-1, f)
  else if works then
    (size,
      { f with bytes := Memory.write f.bytes (part.offset + addr) (List.replicate size f.erased) })
  else (-1, f)

end Flash

/-! ## Scripts -/

/-- What the surroundings decide: call by call whether `at_create_resp` finds memory, how
`at_exec_cmd` ends and whether the flash device works; and what printf makes of the directives in
a command, and of one in which a percent sign has no directive. -/
structure Script where
  creates : Nat → Bool
  execs : Nat → ExecReply
  flash : Nat → Bool
  convert : Format.Convert
  undefined : List UInt8 → List UInt8

namespace Script

def dropCreate (s : Script) : Script := { s with creates := fun n => s.creates (n + 1) }
def dropExec (s : Script) : Script := { s with execs := fun n => s.execs (n + 1) }
def dropFlash (s : Script) : Script := { s with flash := fun n => s.flash (n + 1) }

end Script

/-! ## The handler -/

/-- The surroundings of a sequential call. `output` is the AT client's, and `sent` records the
command strings handed to `at_exec_cmd`. -/
structure Board where
  resps : RespPool
  radio : RadioModule
  flash : Flash
  script : Script
  output : AtOutput
  sent : List (List UInt8)

namespace Board

/-- The partition the node information lives in, once it has been found. -/
def partition (b : Board) : FalPartition := (b.flash.find (ascii "eeprom2")).getD eeprom2

/-- `at_create_resp`: `RT_NULL` or one fresh object. -/
def createResp (b : Board) : Option Nat × Board :=
  if b.script.creates 0 then
    (some b.resps.next, { b with resps := b.resps.create, script := b.script.dropCreate })
  else (none, { b with script := b.script.dropCreate })

/-- The line that the AT client writes for a command, which is a format to it, and its output
behind that. Of an undefined format only the part in front of the percent sign is certain. -/
def writeLine (b : Board) (cmd : List UInt8) : List UInt8 × AtOutput :=
  match atExecOutput b.script.convert cmd b.output with
  | some output => (output.line, output)
  | none => (cmd.takeWhile (· ≠ 37) ++ b.script.undefined cmd, b.output)

def line (b : Board) (cmd : List UInt8) : List UInt8 := (b.writeLine cmd).1

/-- `at_exec_cmd`: the module acts on the lines it acknowledges with success. -/
def execCmd (b : Board) (cmd : List UInt8) : ExecReply × Board :=
  (b.script.execs 0,
    { b with
      radio :=
        if (b.script.execs 0).result = .success then b.radio.acknowledge (b.line cmd) else b.radio
      script := b.script.dropExec
      output := (b.writeLine cmd).2
      sent := b.sent ++ [cmd] })

/-- The answer to every call of `Io`. -/
def handler : Handler Io Board
  | .atCreateResp _ _ _, b => b.createResp
  | .atDeleteResp resp, b => ((), { b with resps := b.resps.delete resp })
  | .atExecCmd _ cmd, b => b.execCmd cmd
  | .rtThreadMdelay _, b => ((), b)
  | .falPartitionFind name, b => ((b.flash.find name).isSome, b)
  | .falPartitionRead addr size, b =>
    (b.flash.partitionRead (b.script.flash 0) b.partition addr size,
      { b with script := b.script.dropFlash })
  | .falPartitionErase addr size, b =>
    let (ret, flash) := b.flash.partitionErase (b.script.flash 0) b.partition addr size
    (ret, { b with flash := flash, script := b.script.dropFlash })
  | .falPartitionWrite addr data, b =>
    let (ret, flash) := b.flash.partitionWrite (b.script.flash 0) b.partition addr data
    (ret, { b with flash := flash, script := b.script.dropFlash })

@[simp] theorem handler_atCreateResp (n l : Nat) (t : BitVec 32) (b : Board) :
    handler (.atCreateResp n l t) b = b.createResp := rfl

@[simp] theorem handler_atDeleteResp (r : Nat) (b : Board) :
    handler (.atDeleteResp r) b = ((), { b with resps := b.resps.delete r }) := rfl

@[simp] theorem handler_atExecCmd (r : Nat) (cmd : List UInt8) (b : Board) :
    handler (.atExecCmd r cmd) b = b.execCmd cmd := rfl

@[simp] theorem handler_rtThreadMdelay (ms : BitVec 32) (b : Board) :
    handler (.rtThreadMdelay ms) b = ((), b) := rfl

/-- A board with memory, a module that acknowledges every command, and an erased flash. -/
def factory : Board where
  resps := .empty
  radio := ⟨[], [], []⟩
  flash := ⟨[eeprom, eeprom2], fun _ => 0xFF, 0xFF⟩
  script := ⟨fun _ => true, fun _ => ⟨.success, [], 0⟩, fun _ => true, fun _ _ => [], fun _ => []⟩
  output := ⟨fun _ => 0, 0, [], 0⟩
  sent := []

end Board

end ControlBoard
