import ControlBoard.AtOutput
import ControlBoard.Lib.Transition
import Mathlib.Logic.Function.Basic

/-!
# The serial devices and the start-up

The board's UARTs as the serial driver keeps them (`drivers/serial/serial.c`), and the parties
that open them: `main` in `radio_thread_init` and `sensor_thread_init`, the Modbus thread, the
receive interrupt, the parser thread of the AT client and the shell command `at client`. A device
has one receive callback and one line configuration, whoever opens it.
-/

namespace ControlBoard

/-- The UARTs compiled in: `RT_USING_UART1` and `RT_USING_UART2`. -/
inductive Uart where
  | uart1
  | uart2
  deriving DecidableEq, Repr

/-- `rt_device_find`, on the names under which `rt_hw_usart_init` registers the UARTs. -/
def uartFind : String → Option Uart
  | "uart1" => some .uart1
  | "uart2" => some .uart2
  | _ => none

/-- The choice of `serial` in `xMBMasterPortSerialInit`. `RT_USING_UART3` is not defined, so
port 3 chooses nothing. -/
def mbPortUart : Nat → Option Uart
  | 1 => some .uart1
  | 2 => some .uart2
  | _ => none

/-- `PARITY_NONE`, `PARITY_ODD` and `PARITY_EVEN`; the values of `eMBParity` are the same three. -/
inductive Parity where
  | none
  | odd
  | even
  deriving DecidableEq, Repr

/-- `struct serial_configure`, without the bit order and the inversion, which nothing changes. -/
structure SerialConfigure where
  baudRate : Nat
  dataBits : Nat
  stopBits : Nat
  parity : Parity
  bufsz : Nat
  deriving DecidableEq, Repr

/-- `RT_SERIAL_CONFIG_DEFAULT`, with `RT_SERIAL_RB_BUFSZ` for the buffer. -/
def serialConfigDefault : SerialConfigure := ⟨115200, 8, 1, .none, 64⟩

/-- The functions that are passed to `rt_device_set_rx_indicate` for the radio's UART. -/
inductive RxIndicate where
  | atClientRxInd
  | clientGetcharRxInd
  | serialRxInd
  deriving DecidableEq, Repr

/-- `struct rt_serial_device`. `rxFifo` is `serial_rx`, with what lies between the two indices of
the buffer; `rxInt` tells whether the receive interrupt is enabled. -/
structure SerialDevice where
  config : SerialConfigure
  rxIndicate : Option RxIndicate
  refCount : Nat
  rxFifo : Option (List UInt8)
  rxInt : Bool
  deriving DecidableEq, Repr

namespace SerialDevice

variable (d : SerialDevice)

/-- `rt_device_open` with `RT_DEVICE_FLAG_INT_RX`. The devices are not standalone, so this
succeeds whether or not the device is open. -/
def rtDeviceOpen : SerialDevice :=
  match d.rxFifo with
  | none => { d with rxFifo := some [], rxInt := true, refCount := d.refCount + 1 }
  | some _ => { d with refCount := d.refCount + 1 }

@[simp] theorem rtDeviceOpen_config : d.rtDeviceOpen.config = d.config := by
  unfold rtDeviceOpen
  split <;> rfl

@[simp] theorem rtDeviceOpen_rxIndicate : d.rtDeviceOpen.rxIndicate = d.rxIndicate := by
  unfold rtDeviceOpen
  split <;> rfl

/-- `rt_device_close`: the last close frees the buffer and disables the interrupt. -/
def rtDeviceClose : SerialDevice :=
  match d.refCount with
  | 0 => d
  | 1 => { d with refCount := 0, rxFifo := none, rxInt := false }
  | n + 2 => { d with refCount := n + 1 }

@[simp] theorem rtDeviceClose_config : d.rtDeviceClose.config = d.config := by
  unfold rtDeviceClose
  split <;> rfl

@[simp] theorem rtDeviceClose_rxIndicate : d.rtDeviceClose.rxIndicate = d.rxIndicate := by
  unfold rtDeviceClose
  split <;> rfl

/-- One byte into the buffer; at the last place the oldest byte is discarded. -/
def push (bufsz : Nat) (fifo : List UInt8) (b : UInt8) : List UInt8 :=
  if fifo.length + 1 < bufsz then fifo ++ [b] else (fifo ++ [b]).tail

/-- `rt_hw_serial_isr` up to the callback: the bytes go into the buffer. The result has the
`rx_length` for the callback, or is `none` where `RT_ASSERT(rx_fifo != RT_NULL)` stops. -/
def rtHwSerialIsr (bytes : List UInt8) : Option (SerialDevice × Nat) :=
  d.rxFifo.map fun fifo =>
    let fifo := bytes.foldl (push d.config.bufsz) fifo
    ({ d with rxFifo := some fifo }, fifo.length)

theorem push_ne_nil {bufsz : Nat} (h : 2 < bufsz) (fifo : List UInt8) (b : UInt8) :
    push bufsz fifo b ≠ [] := by
  unfold push
  split
  · simp
  · rw [← List.length_pos_iff, List.length_tail, List.length_append, List.length_singleton]
    omega

theorem foldl_push_ne_nil {bufsz : Nat} (h : 2 < bufsz) {bytes : List UInt8} (hbytes : bytes ≠ [])
    (fifo : List UInt8) : bytes.foldl (push bufsz) fifo ≠ [] := by
  obtain ⟨bytes, b, rfl⟩ := (List.eq_nil_or_concat' bytes).resolve_left hbytes
  rw [List.foldl_append]
  exact push_ne_nil h _ b

/-- The interrupt changes nothing but the buffer. -/
theorem rtHwSerialIsr_eq_some {d d' : SerialDevice} {bytes : List UInt8} {size : Nat}
    (h : d.rtHwSerialIsr bytes = some (d', size)) :
    d.rxFifo.isSome = true ∧ ∃ fifo, d' = { d with rxFifo := some fifo } := by
  obtain ⟨fifo, hfifo, h⟩ := Option.map_eq_some_iff.mp h
  rw [Prod.mk.injEq] at h
  exact ⟨by rw [hfifo]; rfl, _, h.1.symm⟩

/-- Of an open device, every interrupt with bytes calls the callback. -/
theorem rtHwSerialIsr_of_open {d : SerialDevice} {bytes : List UInt8}
    (hbufsz : 2 < d.config.bufsz) (hopen : d.rxFifo.isSome = true) (hbytes : bytes ≠ []) :
    ∃ fifo, fifo ≠ [] ∧
      d.rtHwSerialIsr bytes = some ({ d with rxFifo := some fifo }, fifo.length) := by
  obtain ⟨fifo, hfifo⟩ := Option.isSome_iff_exists.mp hopen
  refine ⟨_, foldl_push_ne_nil hbufsz hbytes fifo, ?_⟩
  rw [rtHwSerialIsr, hfifo]
  rfl

/-- `rt_device_read(dev, 0, &ch, 1)` -/
def rtDeviceRead : Option UInt8 × SerialDevice :=
  match d.rxFifo with
  | some (b :: fifo) => (some b, { d with rxFifo := some fifo })
  | _ => (none, d)

/-- Reading changes nothing but the buffer, and leaves it allocated. -/
theorem rtDeviceRead_frame :
    ∃ fifo, d.rtDeviceRead.2 = { d with rxFifo := fifo } ∧ fifo.isSome = d.rxFifo.isSome := by
  unfold rtDeviceRead
  split
  · next b fifo hfifo => exact ⟨some fifo, rfl, by rw [hfifo]; rfl⟩
  · exact ⟨d.rxFifo, rfl, rfl⟩

end SerialDevice

/-- `at_client_table[0]`, the only entry: its device, and whether its semaphore `rx_notice`
exists. -/
structure ClientEntry where
  device : Option Uart
  rxNotice : Bool
  deriving DecidableEq, Repr

/-- Where `main` is: before `rt_device_open`, `rt_device_set_rx_indicate` and
`at_client_para_init` of `at_client_init`, before the start of the Modbus thread in
`sensor_thread_init`, or past it. The creation of events and of the other threads does not touch
the UARTs and has no place of its own. -/
inductive MainPc where
  | atOpen
  | atSetRxIndicate
  | atParaInit
  | sensorInit
  | done
  deriving DecidableEq, Repr

/-- Where the Modbus thread is: not started, before `eMBMasterInit`, before `eMBMasterEnable`,
or in its loop. -/
inductive ModbusPc where
  | suspended
  | init
  | enable
  | polling
  deriving DecidableEq, Repr

/-- The UARTs, the state of those who use them, and the history of the radio's UART since
`at_client_init` set its callback: the bytes received, the bytes signalled to the AT client and
the bytes read by the receive state machine of the Modbus master. -/
structure PortSys where
  uart : Uart → SerialDevice
  client : ClientEntry
  main : MainPc
  modbus : ModbusPc
  /-- `static rt_serial_t *serial` of the Modbus port layer -/
  serial : Option Uart
  /-- the callback that the shell session `at client` puts back at its end -/
  session : Option (Option RxIndicate)
  /-- an `RT_ASSERT` has failed -/
  stopped : Bool
  /-- what has gone out on the radio's UART -/
  sent : List UInt8
  openedWith : Option SerialConfigure
  claimed : Bool
  received : List UInt8
  signalled : List UInt8
  consumed : List UInt8

/-- One step of some party. -/
inductive PortAction where
  /-- the next step of `main`; with `enomem`, a creation in `at_client_para_init` fails -/
  | main (enomem : Bool)
  | modbus
  /-- `vMBMasterPortSerialEnable`, as the Modbus master calls it to send and to receive -/
  | serialEnable (xRxEnable : Bool)
  /-- bytes from the radio module arrive in one interrupt -/
  | receive (bytes : List UInt8)
  /-- `at_client_getchar` of the parser thread reads a byte -/
  | getchar
  /-- `at_obj_exec_cmd` sends a line -/
  | execCmd (line : List UInt8)
  /-- the shell command `at client`; with `enomem`, it has no memory -/
  | cliEnter (enomem : Bool)
  /-- the escape key in the shell session -/
  | cliLeave

namespace PortSys

def setUart (s : PortSys) (u : Uart) (d : SerialDevice) : PortSys :=
  { s with uart := Function.update s.uart u d }

@[simp] theorem setUart_uart (s : PortSys) (u : Uart) (d : SerialDevice) :
    (s.setUart u d).uart u = d := by
  simp [setUart]

@[simp] theorem setUart_openedWith (s : PortSys) (u : Uart) (d : SerialDevice) :
    (s.setUart u d).openedWith = s.openedWith := rfl

/-- `rt_device_set_rx_indicate` -/
def setRxIndicate (s : PortSys) (u : Uart) (ind : Option RxIndicate) : PortSys :=
  s.setUart u { s.uart u with rxIndicate := ind }

@[simp] theorem setRxIndicate_uart (s : PortSys) (u : Uart) (ind : Option RxIndicate) :
    (s.setRxIndicate u ind).uart u = { s.uart u with rxIndicate := ind } :=
  setUart_uart s u _

@[simp] theorem setRxIndicate_openedWith (s : PortSys) (u : Uart) (ind : Option RxIndicate) :
    (s.setRxIndicate u ind).openedWith = s.openedWith := rfl

/-- `at_client_init(dev_name, ..)` up to the open. With DMA it fails with `-RT_EIO`, so the device
is opened with interrupts. -/
def atClientOpen (s : PortSys) (devName : String) : PortSys :=
  match s.client.device, uartFind devName with
  | none, some u =>
    { s.setUart u (s.uart u).rtDeviceOpen with
      client := ⟨some u, false⟩
      openedWith := some (s.uart u).config
      main := .atSetRxIndicate }
  | _, _ => { s with main := .sensorInit }

/-- `rt_device_set_rx_indicate(client->device, at_client_rx_ind)`; here the history begins. -/
def atClientSetRxIndicate (s : PortSys) : PortSys :=
  match s.client.device with
  | some u =>
    { s.setRxIndicate u (some .atClientRxInd) with
      claimed := true
      received := []
      signalled := []
      consumed := []
      main := .atParaInit }
  | none => { s with stopped := true }

/-- `at_client_para_init`: without memory it closes the device and clears the entry. -/
def atClientParaInit (s : PortSys) (enomem : Bool) : PortSys :=
  match s.client.device, enomem with
  | some u, true =>
    { s.setUart u (s.uart u).rtDeviceClose with client := ⟨none, false⟩, main := .sensorInit }
  | none, true => { s with client := ⟨none, false⟩, main := .sensorInit }
  | device, false => { s with client := ⟨device, true⟩, main := .sensorInit }

def mainStep (s : PortSys) (enomem : Bool) : Option PortSys :=
  match s.main with
  | .atOpen => some (s.atClientOpen "uart2")
  | .atSetRxIndicate => some s.atClientSetRxIndicate
  | .atParaInit => some (s.atClientParaInit enomem)
  | .sensorInit => some { s with modbus := .init, main := .done }
  | .done => none

/-- `xMBMasterPortSerialInit` (`portserial_m.c:53-123`). Nine data bits hold eight and a parity
bit. Port 3 leaves `serial` a null pointer. -/
def mbPortSerialInit (s : PortSys) (ucPort ulBaudRate : Nat) (eParity : Parity) : PortSys :=
  match mbPortUart ucPort with
  | some u =>
    let d := s.uart u
    let dataBits := if eParity = .none then 8 else 9
    let d := { d with config := ⟨ulBaudRate, dataBits, 1, eParity, d.config.bufsz⟩ }
    let s := { s.setUart u d.rtDeviceOpen with serial := some u }
    s.setRxIndicate u (some .serialRxInd)
  | none => { s with stopped := true }

/-- `vMBMasterPortSerialEnable`, on the receive interrupt. -/
def mbPortSerialEnable (s : PortSys) (xRxEnable : Bool) : PortSys :=
  match s.serial with
  | some u => s.setUart u { s.uart u with rxInt := xRxEnable }
  | none => { s with stopped := true }

/-- `thread_entry_ModbusMasterPoll`: `eMBMasterInit(MB_RTU, 2, 9600, MB_PAR_EVEN)`, then
`eMBMasterEnable`. The loop touches the port through `vMBMasterPortSerialEnable` only. -/
def modbusStep (s : PortSys) : Option PortSys :=
  match s.modbus with
  | .suspended => none
  | .init => some { s.mbPortSerialInit 2 9600 .even with modbus := .enable }
  | .enable => some { s.mbPortSerialEnable true with modbus := .polling }
  | .polling => none

/-- `at_client_rx_ind`: the semaphore of the entry with this device is released. -/
def atClientRxInd (s : PortSys) (u : Uart) (size : Nat) (bytes : List UInt8) : PortSys :=
  if s.client.device = some u ∧ 0 < size then
    if s.client.rxNotice then { s with signalled := s.signalled ++ bytes }
    else { s with stopped := true }
  else s

/-- `serial_rx_ind`: `xMBMasterRTUReceiveFSM` reads a byte in each of its states. -/
def serialRxInd (s : PortSys) : PortSys :=
  match s.serial with
  | some u =>
    let (b, d) := (s.uart u).rtDeviceRead
    { s.setUart u d with consumed := s.consumed ++ b.toList }
  | none => { s with stopped := true }

/-- `client_getchar_rx_ind` reads `size` bytes, which is all there are, for the shell. -/
def clientGetcharRxInd (s : PortSys) (u : Uart) : PortSys :=
  s.setUart u { s.uart u with rxFifo := some [] }

/-- The receive interrupt of the radio's UART, with the callback at its end. While the interrupt
is disabled, what arrives is lost. -/
def receive (s : PortSys) (bytes : List UInt8) : PortSys :=
  let s := { s with received := s.received ++ bytes }
  if bytes = [] ∨ (s.uart .uart2).rxInt = false then s
  else
    match (s.uart .uart2).rtHwSerialIsr bytes with
    | none => { s with stopped := true }
    | some (d, size) =>
      let s := s.setUart .uart2 d
      if size = 0 then s
      else
        match d.rxIndicate with
        | none => s
        | some .atClientRxInd => s.atClientRxInd .uart2 size bytes
        | some .clientGetcharRxInd => s.clientGetcharRxInd .uart2
        | some .serialRxInd => s.serialRxInd

/-- `client_cli_parser` up to its loop. It takes the callback before it asks for memory, and
without memory it does not put the callback back. -/
def cliEnter (s : PortSys) (enomem : Bool) : PortSys :=
  match s.client.device with
  | none => s
  | some u =>
    { s.setRxIndicate u (some .clientGetcharRxInd) with
      session := if enomem then none else some (s.uart u).rxIndicate }

/-- The end of `client_cli_parser`. -/
def cliLeave (s : PortSys) (ind : Option RxIndicate) : PortSys :=
  match s.client.device with
  | none => { s with stopped := true }
  | some u => { s.setRxIndicate u ind with session := none }

/-- One step of the board. -/
def step (s : PortSys) (a : PortAction) : Option PortSys :=
  if s.stopped then none
  else
    match a with
    | .main enomem => s.mainStep enomem
    | .modbus => s.modbusStep
    | .serialEnable xRxEnable =>
      if s.modbus = .polling then some (s.mbPortSerialEnable xRxEnable) else none
    | .receive bytes => some (s.receive bytes)
    | .getchar =>
      match s.client.device with
      | some u => if s.client.rxNotice then some (s.setUart u (s.uart u).rtDeviceRead.2) else none
      | none => none
    | .execCmd line =>
      if s.client.rxNotice then some { s with sent := s.sent ++ line ++ crlf } else none
    | .cliEnter enomem => if s.session.isSome then none else some (s.cliEnter enomem)
    | .cliLeave => s.session.map s.cliLeave

/-- The state when `main` begins. -/
def start : PortSys where
  uart _ := ⟨serialConfigDefault, none, 0, none, false⟩
  client := ⟨none, false⟩
  main := .atOpen
  modbus := .suspended
  serial := none
  session := none
  stopped := false
  sent := []
  openedWith := none
  claimed := false
  received := []
  signalled := []
  consumed := []

end PortSys

end ControlBoard
