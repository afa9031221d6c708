import ControlBoard.AtClient

/-!
# The AT commands of the radio module

The functions of `applications/AT_client_radio.c`, as programs over `Io`. A parameter that
the C function fills through a pointer is passed in and returned; an uninitialised local
whose content can matter is a parameter too.
-/

namespace ControlBoard

/-- `AtError_t` -/
inductive AtError where
  | ok
  | creatResp
  | sendError
  | sendTimeout
  | getLine
  | getKw
  | parseLine
  | parseKw
  | other
  deriving DecidableEq, Repr

/-- `AtUartCfg_t` -/
structure AtUartCfg where
  baudrate : Int
  databits : Int
  stopbits : Int
  parity : Int
  control : Int
  deriving DecidableEq, Repr

/-- `AtRadioStatue_t` -/
inductive AtRadioStatue where
  | sleep
  | join
  | send
  | cycleSend
  | null
  | wait
  | lose
  deriving DecidableEq, Repr

/-- `AtRadioInfo_t`: three character arrays, one behind the other. -/
structure AtRadioInfo where
  devEui : List UInt8
  appEui : List UInt8
  appKey : List UInt8
  devEui_length : devEui.length = 17
  appEui_length : appEui.length = 17
  appKey_length : appKey.length = 33
  deriving DecidableEq

/-- A character array of `n` bytes initialised with a text; the rest is zero. -/
def charArray (n : Nat) (init : List UInt8) : List UInt8 :=
  init ++ List.replicate (n - init.length) 0

/-- The second loop of `strcat_m`: copy up to and including the terminator. -/
def copyString : List UInt8 → List UInt8 → List UInt8
  | dest, [] => dest
  | dest, s :: str => if s ≠ 0 then s :: copyString dest.tail str else s :: dest.tail

/-- `strcat_m` (`AT_client_radio.c:160-169`), on the bytes from `dest` and from `str` on. A
result longer than `dest` is a write past its end. -/
def strcatM : List UInt8 → List UInt8 → List UInt8
  | [], str => copyString [] str
  | d :: dest, str => if d ≠ 0 then d :: strcatM dest str else copyString (d :: dest) str

/-- The text digit of a nibble: `+= 0x30`, and `+ 0x07` above `'9'`. -/
def hexDigit (nibble : UInt8) : UInt8 :=
  if nibble + 0x30 > 0x39 then nibble + 0x30 + 0x07 else nibble + 0x30

/-- `byte_2_hexstr` (`AT_client_radio.c:132-156`), on the bytes from `dest` on. -/
def byte2Hexstr : List UInt8 → List UInt8 → List UInt8
  | [], dest => dest
  | b :: source, dest =>
    hexDigit (b >>> 4) :: hexDigit (b &&& 0x0f) :: byte2Hexstr source (dest.drop 2)

/-- The `%*[^=]=%d,%d,%d,%d,%d` of `at_radio_find_uart_config`. -/
def uartExpr : List Directive :=
  [.skipUntil 61, .lit 61, .int, .lit 44, .int, .lit 44, .int, .lit 44, .int, .lit 44, .int]

/-- The `%*[^:]:%s` of `at_radio_get_statue`. -/
def statueExpr : List Directive := [.skipUntil 58, .lit 58, .str]

/-- The fields of a scan with `uartExpr`, stored in order; a missing one stays as it was. -/
def AtUartCfg.store (cfg : AtUartCfg) (fields : List ScanField) : AtUartCfg :=
  let value (i : Nat) (old : Int) : Int :=
    match fields[i]? with
    | some (.int v) => v
    | _ => old
  { baudrate := value 0 cfg.baudrate
    databits := value 1 cfg.databits
    stopbits := value 2 cfg.stopbits
    parity := value 3 cfg.parity
    control := value 4 cfg.control }

/-- `at_radio_find_uart_config` (`AT_client_radio.c:14-37`). -/
def atRadioFindUartConfig (eof : Int) (uartCfg : AtUartCfg) : Prog Io (AtError × AtUartCfg) := do
  match ← atCreateResp 64 0 (rtTickFromMillisecond 5000) with
  | none => return (.creatResp, uartCfg)
  | some resp =>
    let re ← atExecCmd resp (ascii "AT+UART?")
    if re.result.code = -1 then return (.sendError, uartCfg)
    if re.result.code = -2 then return (.sendTimeout, uartCfg)
    let (count, fields) := atRespParseLineArgs eof re 1 uartExpr
    -- the test is against RT_NULL, so a line that is not there (-1) passes it
    if count = 0 then return (.parseLine, uartCfg.store fields)
    atDeleteResp resp
    return (.ok, uartCfg.store fields)

/-- The `rt_strcmp` chain of `at_radio_get_statue`. -/
def statueOfName (str : List UInt8) : Option AtRadioStatue :=
  if str = ascii "LORA_SLEEP" then some .sleep
  else if str = ascii "LORA_JOIN" then some .join
  else if str = ascii "LORA_SEND" then some .send
  else if str = ascii "LORA_CYCLE_SEND" then some .cycleSend
  else if str = ascii "LORA_NULL" then some .null
  else if str = ascii "LORA_WAIT_JOIN" then some .wait
  else none

/-- `str` after a scan with `statueExpr`. -/
def storeStr (str : List UInt8) (fields : List ScanField) : List UInt8 :=
  match fields.head? with
  | some (.str token) => token
  | _ => str

/-- A text that the scan stores ends inside of `str[10]`. -/
def FitsStr (fields : List ScanField) : Prop :=
  match fields.head? with
  | some (.str token) => token.length < 10
  | _ => True

instance (fields : List ScanField) : Decidable (FitsStr fields) := by
  unfold FitsStr
  split <;> infer_instance

/-- `at_radio_get_statue` (`AT_client_radio.c:41-93`). `str` is the text that the
uninitialised local array holds on entry. What comes back is not determined (`none`) once the
scan has stored behind the array. -/
def atRadioGetStatue (eof : Int) (str : List UInt8) (statue : AtRadioStatue) :
    Prog Io (Option (AtError × AtRadioStatue)) := do
  match ← atCreateResp 64 0 (rtTickFromMillisecond 5000) with
  | none => return some (.creatResp, statue)
  | some resp =>
    let re ← atExecCmd resp (ascii "AT+STATUE")
    if re.result.code = -1 then return some (.sendError, statue)
    if re.result.code = -2 then return some (.sendTimeout, .lose)
    let (count, fields) := atRespParseLineArgsByKw eof re (ascii "+STATUE") statueExpr
    if count = 0 then return some (.parseKw, statue)
    let statue := (statueOfName (storeStr str fields)).getD statue
    atDeleteResp resp
    return if FitsStr fields then some (.ok, statue) else none

/-- What every command of the file without a parsed reply does: a response object, the
command, the two early returns, and the release of the object. -/
def sendCommand (bufSize : Nat) (cmd : List UInt8) : Prog Io AtError := do
  match ← atCreateResp bufSize 0 (rtTickFromMillisecond 5000) with
  | none => return .creatResp
  | some resp =>
    let re ← atExecCmd resp cmd
    -- both returns leave the response object behind
    if re.result.code = -1 then return .sendError
    if re.result.code = -2 then return .sendTimeout
    atDeleteResp resp
    return .ok

/-- `at_radio_join_net` (`AT_client_radio.c:99-129`). -/
def atRadioJoinNet : Prog Io AtError := do
  let re ← sendCommand 10 (ascii "AT+JOIN=60,1")
  if re ≠ .ok then return re
  sendCommand 64 (ascii "AT+JOIN")

/-- `at_radio_send_hex` (`AT_client_radio.c:173-199`); `data` are the `size` bytes that
`byte_2_hexstr` reads. -/
def atRadioSendHex (data : List UInt8) : Prog Io AtError :=
  sendCommand 64
    (cstr (strcatM (charArray 512 (ascii "AT+SENDHEX=")) (byte2Hexstr data (charArray 256 []))))

/-- `at_radio_set_autojoin` (`AT_client_radio.c:203-226`). -/
def atRadioSetAutojoin (mode : UInt8) : Prog Io AtError :=
  sendCommand 64
    (cstr (strcatM (charArray 50 (ascii "AT+AUTOJOIN="))
      (charArray 2 (if mode = 1 then ascii "1" else ascii "0"))))

/-- The bytes that `strcat_m` can read from each of the three arrays on: it stops at a NUL,
not at the end of the array. -/
def AtRadioInfo.fromDevEui (info : AtRadioInfo) : List UInt8 :=
  info.devEui ++ info.appEui ++ info.appKey
def AtRadioInfo.fromAppEui (info : AtRadioInfo) : List UInt8 := info.appEui ++ info.appKey
def AtRadioInfo.fromAppKey (info : AtRadioInfo) : List UInt8 := info.appKey

/-- `str[i]` of `at_radio_set_OTAA_info` once `strcat_m` has appended to it. -/
def otaaCommand (name : List UInt8) (value : List UInt8) : List UInt8 :=
  cstr (strcatM (charArray 100 name) value)

/-- `at_radio_set_OTAA_info` (`AT_client_radio.c:229-272`); `none` is `RT_NULL`. -/
def atRadioSetOTAAInfo : Option AtRadioInfo → Prog Io AtError
  | none => return .other
  | some info => do
    let re ← sendCommand 64 (otaaCommand (ascii "AT+DEVEUI=") info.fromDevEui)
    if re ≠ .ok then return re
    let re ← sendCommand 64 (otaaCommand (ascii "AT+APPEUI=") info.fromAppEui)
    if re ≠ .ok then return re
    sendCommand 100 (otaaCommand (ascii "AT+APPKEY=") info.fromAppKey)

end ControlBoard
