import ControlBoard.Kernel
import ControlBoard.Lib.Memory
import ControlBoard.Lib.Prog
import Mathlib.Data.List.Basic

/-!
# The AT client, seen from the applications

The interface `Io` holds the calls that leave the application code: response objects and AT
commands of `pck/at/src/at_client.c`, delays, and the flash partition calls of
`pck/fal/src/fal_partition.c`. The reply of a command carries the filled buffer of its
response object, and the `at_resp_*` helpers are the functions on it that the client defines.
-/

namespace ControlBoard

/-- What `at_obj_exec_cmd` returns (`at_client.c:273-275`). -/
inductive ExecResult where
  | success
  | statusError
  | timeout
  deriving DecidableEq, Repr

/-- `RT_EOK`, `-RT_ERROR` and `-RT_ETIMEOUT`. -/
def ExecResult.code : ExecResult → Int
  | .success => 0
  | .statusError => -1
  | .timeout => -2

/-- The end of an `at_exec_cmd`: its result, and the response object as the receiving thread
has filled it, `line_counts` texts separated by NULs. -/
structure ExecReply where
  result : ExecResult
  buf : List UInt8
  lineCounts : Nat
  deriving DecidableEq, Repr

/-- The calls that leave the application code. A response object is named by the order of its
creation. -/
inductive IoOp where
  | atCreateResp (bufSize lineNum : Nat) (timeout : BitVec 32)
  | atDeleteResp (resp : Nat)
  | atExecCmd (resp : Nat) (cmd : List UInt8)
  | rtThreadMdelay (ms : BitVec 32)
  | falPartitionFind (name : List UInt8)
  | falPartitionRead (addr size : Nat)
  | falPartitionErase (addr size : Nat)
  | falPartitionWrite (addr : Nat) (data : List UInt8)
  deriving DecidableEq, Repr

/-- The answers: `RT_NULL` is `none`, a failed partition read leaves the caller's buffer
alone, and the other partition calls answer their return value. -/
@[reducible] def IoOp.Ans : IoOp → Type
  | .atCreateResp .. => Option Nat
  | .atDeleteResp _ => Unit
  | .atExecCmd .. => ExecReply
  | .rtThreadMdelay _ => Unit
  | .falPartitionFind _ => Bool
  | .falPartitionRead _ size => Option {bs : List UInt8 // bs.length = size}
  | .falPartitionErase .. => Int
  | .falPartitionWrite .. => Int

abbrev Io : Interface := ⟨IoOp, IoOp.Ans⟩

/-- The calls in which a thread waits: the reply of a command (and the client's lock before
it), and a delay. -/
def IoOp.blocks : IoOp → Bool
  | .atExecCmd .. => true
  | .rtThreadMdelay _ => true
  | _ => false

def atCreateResp (bufSize lineNum : Nat) (timeout : BitVec 32) : Prog Io (Option Nat) :=
  @Prog.ask Io (.atCreateResp bufSize lineNum timeout)

def atDeleteResp (resp : Nat) : Prog Io Unit := @Prog.ask Io (.atDeleteResp resp)

def atExecCmd (resp : Nat) (cmd : List UInt8) : Prog Io ExecReply :=
  @Prog.ask Io (.atExecCmd resp cmd)

def rtThreadMdelay (ms : BitVec 32) : Prog Io Unit := @Prog.ask Io (.rtThreadMdelay ms)

def falPartitionFind (name : List UInt8) : Prog Io Bool :=
  @Prog.ask Io (.falPartitionFind name)

def falPartitionRead (addr size : Nat) : Prog Io (Option {bs : List UInt8 // bs.length = size}) :=
  @Prog.ask Io (.falPartitionRead addr size)

def falPartitionErase (addr size : Nat) : Prog Io Int :=
  @Prog.ask Io (.falPartitionErase addr size)

def falPartitionWrite (addr : Nat) (data : List UInt8) : Prog Io Int :=
  @Prog.ask Io (.falPartitionWrite addr data)

/-! ## Scanning a reply -/

/-- The directives of the two expressions the board scans replies with. -/
inductive Directive where
  /-- `%*[^c]`: one or more characters other than `c`, not assigned. -/
  | skipUntil (c : UInt8)
  | lit (c : UInt8)
  /-- `%d` -/
  | int
  /-- `%s` -/
  | str
  deriving DecidableEq, Repr

/-- An assigned field. -/
inductive ScanField where
  | int (v : Int)
  | str (s : List UInt8)
  deriving DecidableEq, Repr

def isSpace (b : UInt8) : Bool := b == 32 || (9 ≤ b && b ≤ 13)

def isDigit (b : UInt8) : Bool := 48 ≤ b && b ≤ 57

/-- The decimal number of a digit string. -/
def decimal (digits : List UInt8) : Nat := digits.foldl (fun n d => 10 * n + (d.toNat - 48)) 0

/-- The value that `%d` stores: `strtol` stops at the ends of the 32-bit range. -/
def clampInt (v : Int) : Int := max (-2147483648) (min v 2147483647)

/-- `%d` behind its white space: a sign and at least one digit. -/
def scanInt (s : List UInt8) : Option (Int × List UInt8) :=
  let neg := s.head? = some 45
  let body := if s.head? = some 45 ∨ s.head? = some 43 then s.tail else s
  let digits := body.takeWhile isDigit
  if digits = [] then none
  else
    some (clampInt (if neg then -(decimal digits : Int) else decimal digits),
      body.drop digits.length)

/-- The fields assigned before the first directive that fails, and whether it fails because the
input has ended. -/
def scan : List Directive → List UInt8 → List ScanField × Bool
  | [], _ => ([], false)
  | .skipUntil c :: ds, s =>
    if s.head? = some c ∨ s = [] then ([], s.isEmpty) else scan ds (s.dropWhile (· ≠ c))
  | .lit c :: ds, s => if s.head? = some c then scan ds s.tail else ([], s.isEmpty)
  | .int :: ds, s =>
    match scanInt (s.dropWhile isSpace) with
    | none => ([], (s.dropWhile isSpace).isEmpty)
    | some (v, rest) => (.int v :: (scan ds rest).1, (scan ds rest).2)
  | .str :: ds, s =>
    let token := (s.dropWhile isSpace).takeWhile fun b => !isSpace b
    let rest := (s.dropWhile isSpace).drop token.length
    if token = [] then ([], true) else (.str token :: (scan ds rest).1, (scan ds rest).2)

/-- `vsscanf`: the number of fields with the fields. `eof` is what it returns where the input ends
before the first of them: `EOF` by the standard, while the comments of the `at_resp_parse`
functions expect 0. -/
def vsscanf (eof : Int) (expr : List Directive) (s : List UInt8) : Int × List ScanField :=
  (if (scan expr s).1 = [] ∧ (scan expr s).2 = true then eof else (scan expr s).1.length,
    (scan expr s).1)

/-- The buffer behind the text at its front: `resp_buf += strlen(resp_buf) + 1`. -/
def nextLine (buf : List UInt8) : List UInt8 := buf.drop ((cstr buf).length + 1)

/-- The buffer behind its first `n` texts. -/
def skipLines : Nat → List UInt8 → List UInt8
  | 0, buf => buf
  | n + 1, buf => skipLines n (nextLine buf)

/-- `at_resp_get_line` (`at_client.c:136-163`), as the text it points to. -/
def atRespGetLine (resp : ExecReply) (respLine : Nat) : Option (List UInt8) :=
  if respLine > resp.lineCounts ∨ respLine = 0 then none
  else some (cstr (skipLines (respLine - 1) resp.buf))

/-- `strstr(s, keyword) != NULL` -/
def strstr (s keyword : List UInt8) : Bool := s.tails.any fun t => keyword.isPrefixOf t

/-- The loop of `at_resp_get_line_by_kw` over the `n` lines from `buf` on. -/
def findLineByKw (keyword : List UInt8) : Nat → List UInt8 → Option (List UInt8)
  | 0, _ => none
  | n + 1, buf =>
    if strstr (cstr buf) keyword then some (cstr buf) else findLineByKw keyword n (nextLine buf)

/-- `at_resp_get_line_by_kw` (`at_client.c:174-196`). -/
def atRespGetLineByKw (resp : ExecReply) (keyword : List UInt8) : Option (List UInt8) :=
  findLineByKw keyword resp.lineCounts resp.buf

/-- What a parse of a line returns, `-1` for a line that is not there. -/
def parseLine (eof : Int) (respExpr : List Directive) : Option (List UInt8) → Int × List ScanField
  | none => (-1, [])
  | some line => vsscanf eof respExpr line

/-- `at_resp_parse_line_args` (`at_client.c:209-230`). -/
def atRespParseLineArgs (eof : Int) (resp : ExecReply) (respLine : Nat)
    (respExpr : List Directive) : Int × List ScanField :=
  parseLine eof respExpr (atRespGetLine resp respLine)

/-- `at_resp_parse_line_args_by_kw` (`at_client.c:243-264`). -/
def atRespParseLineArgsByKw (eof : Int) (resp : ExecReply) (keyword : List UInt8)
    (respExpr : List Directive) : Int × List ScanField :=
  parseLine eof respExpr (atRespGetLineByKw resp keyword)

end ControlBoard
