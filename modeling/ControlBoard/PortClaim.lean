import ControlBoard.SerialPort

/-!
# Who holds the radio's UART

What the AT client relies on once it has opened the radio's UART, exactly which steps take it
away, and what that means for the start-up: the Modbus thread opens the same UART for itself.
-/

namespace ControlBoard

namespace PortSys

variable {s t : PortSys} {a : PortAction} {bytes : List UInt8}

/-- The UART is as `at_client_init` left it, and what has arrived since was signalled to the AT
client and not read by the Modbus master. -/
structure PortHeld (s : PortSys) : Prop where
  rxIndicate : (s.uart .uart2).rxIndicate = some .atClientRxInd
  config : s.openedWith = some (s.uart .uart2).config
  signalled : s.signalled = s.received
  consumed : s.consumed = []

/-- Once `at_client_init` has opened the UART and set its callback, the AT client holds it. -/
def PortKept (s : PortSys) : Prop := s.claimed = true → s.PortHeld

/-- The step does not disturb the AT client: the Modbus thread does not initialize its port, no
byte arrives while the client has no semaphore, and no shell session begins or ends while the
client has its device. -/
def Undisturbed (s : PortSys) (a : PortAction) : Prop :=
  s.claimed = true →
    match a with
    | .modbus => s.modbus ≠ .init
    | .receive bytes => bytes = [] ∨ s.client.rxNotice = true
    | .cliEnter _ | .cliLeave => s.client.device = none
    | _ => True

instance (s : PortSys) : (a : PortAction) → Decidable (Undisturbed s a)
  | .modbus => inferInstanceAs (Decidable (s.claimed = true → s.modbus ≠ .init))
  | .receive bytes =>
    inferInstanceAs (Decidable (s.claimed = true → bytes = [] ∨ s.client.rxNotice = true))
  | .cliEnter _ | .cliLeave =>
    inferInstanceAs (Decidable (s.claimed = true → s.client.device = none))
  | .main _ | .serialEnable _ | .getchar | .execCmd _ => isTrue fun _ => trivial

/-! ## What a run is in while the port is held -/

/-- How far the start-up is. -/
inductive Stage (s : PortSys) : Prop where
  | atOpen (main : s.main = .atOpen) (client : s.client = ⟨none, false⟩)
      (claimed : s.claimed = false) (modbus : s.modbus = .suspended)
  | atSetRxIndicate (main : s.main = .atSetRxIndicate) (client : s.client = ⟨some .uart2, false⟩)
      (claimed : s.claimed = false) (modbus : s.modbus = .suspended)
  | atParaInit (main : s.main = .atParaInit) (client : s.client = ⟨some .uart2, false⟩)
      (claimed : s.claimed = true) (modbus : s.modbus = .suspended)
  | returned (main : s.main = .sensorInit ∧ s.modbus = .suspended ∨
        s.main = .done ∧ s.modbus = .init)
      (client : s.client = ⟨some .uart2, true⟩ ∨ s.client = ⟨none, false⟩)
      (claimed : s.claimed = true)

/-- The start-up before the Modbus thread has initialized its port. -/
structure StartingUp (s : PortSys) : Prop where
  stage : Stage s
  closed : s.main = .atOpen → (s.uart .uart2).rxFifo = none
  opened : s.client.device.isSome = true →
    (s.uart .uart2).rxFifo.isSome = true ∧ (s.uart .uart2).rxInt = true ∧
      s.openedWith = some (s.uart .uart2).config
  config : (s.uart .uart2).config = serialConfigDefault
  unclaimed : s.claimed = false → (s.uart .uart2).rxIndicate ≠ some .atClientRxInd
  session : s.session ≠ some (some .atClientRxInd)

theorem startingUp_start : StartingUp start where
  stage := .atOpen rfl rfl rfl rfl
  closed _ := rfl
  opened h := by cases h
  config := rfl
  unclaimed _ := by simp [start]
  session := by simp [start]

/-- The step leaves the parties where they are, and of the UART changes at most the bytes in the
buffer. -/
structure SamePlaces (s t : PortSys) : Prop where
  main : t.main = s.main
  modbus : t.modbus = s.modbus
  client : t.client = s.client
  claimed : t.claimed = s.claimed
  session : t.session = s.session
  openedWith : t.openedWith = s.openedWith
  config : (t.uart .uart2).config = (s.uart .uart2).config
  rxIndicate : (t.uart .uart2).rxIndicate = (s.uart .uart2).rxIndicate
  rxInt : (t.uart .uart2).rxInt = (s.uart .uart2).rxInt
  rxFifo : (t.uart .uart2).rxFifo.isSome = (s.uart .uart2).rxFifo.isSome

namespace SamePlaces

theorem refl (s : PortSys) : SamePlaces s s := ⟨rfl, rfl, rfl, rfl, rfl, rfl, rfl, rfl, rfl, rfl⟩

theorem trans {u : PortSys} (h : SamePlaces s t) (h' : SamePlaces t u) : SamePlaces s u where
  main := h'.main.trans h.main
  modbus := h'.modbus.trans h.modbus
  client := h'.client.trans h.client
  claimed := h'.claimed.trans h.claimed
  session := h'.session.trans h.session
  openedWith := h'.openedWith.trans h.openedWith
  config := h'.config.trans h.config
  rxIndicate := h'.rxIndicate.trans h.rxIndicate
  rxInt := h'.rxInt.trans h.rxInt
  rxFifo := h'.rxFifo.trans h.rxFifo

theorem startingUp (hsame : SamePlaces s t) (h : StartingUp s) : StartingUp t where
  stage := by
    cases h.stage with
    | atOpen main client claimed modbus =>
      exact .atOpen (hsame.main.trans main) (hsame.client.trans client)
        (hsame.claimed.trans claimed) (hsame.modbus.trans modbus)
    | atSetRxIndicate main client claimed modbus =>
      exact .atSetRxIndicate (hsame.main.trans main) (hsame.client.trans client)
        (hsame.claimed.trans claimed) (hsame.modbus.trans modbus)
    | atParaInit main client claimed modbus =>
      exact .atParaInit (hsame.main.trans main) (hsame.client.trans client)
        (hsame.claimed.trans claimed) (hsame.modbus.trans modbus)
    | returned main client claimed =>
      rw [← hsame.main, ← hsame.modbus] at main
      rw [← hsame.client] at client
      exact .returned main client (hsame.claimed.trans claimed)
  closed hmain := by
    have hnone : (s.uart .uart2).rxFifo = none := h.closed (hsame.main.symm.trans hmain)
    have hsome := hsame.rxFifo
    rw [hnone] at hsome
    simpa using hsome
  opened hdevice := by
    rw [hsame.rxFifo, hsame.rxInt, hsame.openedWith, hsame.config]
    exact h.opened (hsame.client ▸ hdevice)
  config := hsame.config.trans h.config
  unclaimed hclaimed := by
    rw [hsame.rxIndicate]
    exact h.unclaimed (hsame.claimed.symm.trans hclaimed)
  session := by
    rw [hsame.session]
    exact h.session

/-- What such a step can take away is only in the history. -/
theorem portKept_iff (hsame : SamePlaces s t) (hkept : PortKept s) :
    PortKept t ↔ (s.claimed = true → t.signalled = t.received ∧ t.consumed = []) := by
  unfold PortKept
  rw [hsame.claimed]
  refine forall_congr' fun hclaimed => ?_
  have hheld : s.PortHeld := hkept hclaimed
  constructor
  · intro h
    exact ⟨h.signalled, h.consumed⟩
  · rintro ⟨hsignalled, hconsumed⟩
    refine ⟨hsame.rxIndicate.trans hheld.rxIndicate, ?_, hsignalled, hconsumed⟩
    rw [hsame.openedWith, hsame.config]
    exact hheld.config

end SamePlaces

/-- Only the buffer of a UART has changed. -/
theorem samePlaces_setUart (s : PortSys) (u : Uart) {fifo : Option (List UInt8)}
    (hfifo : fifo.isSome = (s.uart u).rxFifo.isSome) :
    SamePlaces s (s.setUart u { s.uart u with rxFifo := fifo }) := by
  cases u with
  | uart1 => exact ⟨rfl, rfl, rfl, rfl, rfl, rfl, rfl, rfl, rfl, rfl⟩
  | uart2 => exact ⟨rfl, rfl, rfl, rfl, rfl, rfl, rfl, rfl, rfl, hfifo⟩

/-- Only the history has changed, or the board has stopped. -/
theorem samePlaces_history (s : PortSys) (stopped : Bool)
    (sent received signalled consumed : List UInt8) :
    SamePlaces s
      { s with
        stopped := stopped
        sent := sent
        received := received
        signalled := signalled
        consumed := consumed } :=
  ⟨rfl, rfl, rfl, rfl, rfl, rfl, rfl, rfl, rfl, rfl⟩

theorem samePlaces_stopped (s : PortSys) : SamePlaces s { s with stopped := true } :=
  samePlaces_history s true s.sent s.received s.signalled s.consumed

theorem samePlaces_getchar (s : PortSys) (u : Uart) :
    SamePlaces s (s.setUart u (s.uart u).rtDeviceRead.2) := by
  obtain ⟨fifo, hread, hsome⟩ := (s.uart u).rtDeviceRead_frame
  rw [hread]
  exact samePlaces_setUart s u hsome

theorem samePlaces_atClientRxInd (s : PortSys) (u : Uart) (size : Nat) (bytes : List UInt8) :
    SamePlaces s (s.atClientRxInd u size bytes) := by
  unfold atClientRxInd
  split
  · split
    · exact samePlaces_history s s.stopped s.sent s.received _ s.consumed
    · exact samePlaces_stopped s
  · exact .refl s

theorem samePlaces_serialRxInd (s : PortSys) : SamePlaces s s.serialRxInd := by
  unfold serialRxInd
  split
  · next u hu => exact (samePlaces_getchar s u).trans (samePlaces_history _ _ _ _ _ _)
  · exact samePlaces_stopped s

/-- The receive interrupt, whatever the callback is. -/
theorem samePlaces_receive (s : PortSys) (bytes : List UInt8) :
    SamePlaces s (s.receive bytes) := by
  have hreceived : SamePlaces s { s with received := s.received ++ bytes } :=
    samePlaces_history s s.stopped s.sent _ s.signalled s.consumed
  refine hreceived.trans ?_
  unfold receive
  generalize { s with received := s.received ++ bytes } = r
  dsimp only
  split
  · exact .refl r
  · split
    · exact samePlaces_stopped r
    · next d size hisr =>
      obtain ⟨hopen, fifo, rfl⟩ := SerialDevice.rtHwSerialIsr_eq_some hisr
      have hbuffered : SamePlaces r
          (r.setUart .uart2 { r.uart .uart2 with rxFifo := some fifo }) :=
        samePlaces_setUart r .uart2 hopen.symm
      split
      · exact hbuffered
      · split
        · exact hbuffered
        · exact hbuffered.trans (samePlaces_atClientRxInd _ _ _ _)
        · refine hbuffered.trans (samePlaces_setUart _ .uart2 ?_)
          rw [setUart_uart]
          rfl
        · exact hbuffered.trans (samePlaces_serialRxInd _)

/-! ## The history under the callback of the AT client -/

/-- What arrives is recorded and not consumed, and signalled only if the client has its
semaphore. -/
theorem receive_history (hrx : (s.uart .uart2).rxIndicate = some .atClientRxInd)
    (bytes : List UInt8) :
    (s.receive bytes).received = s.received ++ bytes ∧
      (s.receive bytes).consumed = s.consumed ∧
      (s.client.rxNotice = false → (s.receive bytes).signalled = s.signalled) := by
  unfold receive
  dsimp only
  split
  · exact ⟨rfl, rfl, fun _ => rfl⟩
  · split
    · exact ⟨rfl, rfl, fun _ => rfl⟩
    · next d size hisr =>
      obtain ⟨-, fifo, rfl⟩ := SerialDevice.rtHwSerialIsr_eq_some hisr
      simp only [hrx]
      split
      · exact ⟨rfl, rfl, fun _ => rfl⟩
      · unfold atClientRxInd
        split
        · split
          · next hnotice =>
            refine ⟨rfl, rfl, fun hnone => ?_⟩
            cases hnotice.symm.trans hnone
          · exact ⟨rfl, rfl, fun _ => rfl⟩
        · exact ⟨rfl, rfl, fun _ => rfl⟩

/-- With the UART open and the semaphore there, everything that arrives is signalled. -/
theorem receive_signalled (hrx : (s.uart .uart2).rxIndicate = some .atClientRxInd)
    (hbufsz : 2 < (s.uart .uart2).config.bufsz) (hopen : (s.uart .uart2).rxFifo.isSome = true)
    (hint : (s.uart .uart2).rxInt = true) (hclient : s.client = ⟨some .uart2, true⟩) :
    (s.receive bytes).signalled = s.signalled ++ bytes := by
  by_cases hbytes : bytes = []
  · simp [receive, hbytes]
  · obtain ⟨fifo, hfifo, hisr⟩ := SerialDevice.rtHwSerialIsr_of_open hbufsz hopen hbytes
    have hsize : fifo.length ≠ 0 := by simpa using hfifo
    have hpos : 0 < fifo.length := Nat.pos_of_ne_zero hsize
    simp [receive, hbytes, hint, hisr, hsize, hpos, hrx, atClientRxInd, hclient, setUart]

/-! ## The steps of `main` -/

theorem portKept_of_unclaimed (h : s.claimed = false) : PortKept s := by
  intro hclaimed
  cases h.symm.trans hclaimed

theorem atClientOpen_eq (hclient : s.client = ⟨none, false⟩) :
    s.atClientOpen "uart2" =
      { s.setUart .uart2 (s.uart .uart2).rtDeviceOpen with
        client := ⟨some .uart2, false⟩
        openedWith := some (s.uart .uart2).config
        main := .atSetRxIndicate } := by
  simp only [atClientOpen, hclient, uartFind]

theorem startingUp_atClientOpen (h : StartingUp s) (hmain : s.main = .atOpen)
    (hclient : s.client = ⟨none, false⟩) (hclaimed : s.claimed = false)
    (hmodbus : s.modbus = .suspended) : StartingUp (s.atClientOpen "uart2") := by
  have hnone : (s.uart .uart2).rxFifo = none := h.closed hmain
  rw [atClientOpen_eq hclient]
  refine ⟨.atSetRxIndicate rfl rfl hclaimed hmodbus, nofun, fun _ => ?_, ?_, fun _ => ?_,
    h.session⟩
  · simp [SerialDevice.rtDeviceOpen, hnone]
  · simpa using h.config
  · simpa using h.unclaimed hclaimed

theorem atClientSetRxIndicate_eq (hclient : s.client = ⟨some .uart2, false⟩) :
    s.atClientSetRxIndicate =
      { s.setRxIndicate .uart2 (some .atClientRxInd) with
        claimed := true
        received := []
        signalled := []
        consumed := []
        main := .atParaInit } := by
  simp only [atClientSetRxIndicate, hclient]

theorem startingUp_atClientSetRxIndicate (h : StartingUp s)
    (hclient : s.client = ⟨some .uart2, false⟩) (hmodbus : s.modbus = .suspended) :
    StartingUp s.atClientSetRxIndicate ∧ PortKept s.atClientSetRxIndicate := by
  have hopened := h.opened (by rw [hclient]; rfl)
  rw [atClientSetRxIndicate_eq hclient]
  constructor
  · refine ⟨.atParaInit rfl hclient rfl hmodbus, nofun, fun _ => ?_, ?_, nofun, h.session⟩
    · simpa using hopened
    · simpa using h.config
  · intro _
    exact ⟨by simp, by simpa using hopened.2.2, rfl, rfl⟩

/-- `at_client_para_init` either makes the client ready or gives the device back, and leaves the
callback and the line as they are. -/
theorem startingUp_atClientParaInit (h : StartingUp s) (hkept : PortKept s)
    (hclient : s.client = ⟨some .uart2, false⟩) (hclaimed : s.claimed = true)
    (hmodbus : s.modbus = .suspended) (enomem : Bool) :
    StartingUp (s.atClientParaInit enomem) ∧ PortKept (s.atClientParaInit enomem) := by
  have hheld : s.PortHeld := hkept hclaimed
  cases enomem with
  | true =>
    have heq : s.atClientParaInit true =
        { s.setUart .uart2 (s.uart .uart2).rtDeviceClose with
          client := ⟨none, false⟩
          main := .sensorInit } := by
      simp only [atClientParaInit, hclient]
    rw [heq]
    constructor
    · refine ⟨.returned (.inl ⟨rfl, hmodbus⟩) (.inr rfl) hclaimed, nofun, nofun, ?_, ?_, h.session⟩
      · simpa using h.config
      · intro hnot
        cases hclaimed.symm.trans hnot
    · intro _
      exact ⟨by simpa using hheld.rxIndicate, by simpa using hheld.config, hheld.signalled,
        hheld.consumed⟩
  | false =>
    have heq : s.atClientParaInit false =
        { s with client := ⟨some .uart2, true⟩, main := .sensorInit } := by
      simp only [atClientParaInit, hclient]
    rw [heq]
    constructor
    · refine ⟨.returned (.inl ⟨rfl, hmodbus⟩) (.inl rfl) hclaimed, nofun, fun _ => ?_, h.config,
        h.unclaimed, h.session⟩
      exact h.opened (by rw [hclient]; rfl)
    · intro _
      exact ⟨hheld.rxIndicate, hheld.config, hheld.signalled, hheld.consumed⟩

theorem startingUp_main {enomem : Bool} (h : StartingUp s) (hkept : PortKept s)
    (hstep : s.mainStep enomem = some t) : StartingUp t ∧ PortKept t := by
  unfold mainStep at hstep
  cases h.stage with
  | atOpen main client claimed modbus =>
    simp only [main, Option.some.injEq] at hstep
    subst hstep
    have hnext := startingUp_atClientOpen h main client claimed modbus
    rw [atClientOpen_eq client] at hnext ⊢
    exact ⟨hnext, portKept_of_unclaimed claimed⟩
  | atSetRxIndicate main client claimed modbus =>
    simp only [main, Option.some.injEq] at hstep
    subst hstep
    exact startingUp_atClientSetRxIndicate h client modbus
  | atParaInit main client claimed modbus =>
    simp only [main, Option.some.injEq] at hstep
    subst hstep
    exact startingUp_atClientParaInit h hkept client claimed modbus enomem
  | returned main client claimed =>
    obtain ⟨main, -⟩ | ⟨main, -⟩ := main
    · simp only [main, Option.some.injEq] at hstep
      subst hstep
      have hheld : s.PortHeld := hkept claimed
      constructor
      · exact ⟨.returned (.inr ⟨rfl, rfl⟩) client claimed, nofun, h.opened, h.config, h.unclaimed,
          h.session⟩
      · exact fun _ => ⟨hheld.rxIndicate, hheld.config, hheld.signalled, hheld.consumed⟩
    · simp only [main] at hstep
      cases hstep

/-! ## The steps that take the port away -/

/-- Under another callback the port is not held. -/
theorem portKept_iff_unclaimed (hrx : (s.uart .uart2).rxIndicate ≠ some .atClientRxInd) :
    PortKept s ↔ s.claimed = false := by
  constructor
  · intro hkept
    by_contra hclaimed
    exact hrx (hkept (by simpa using hclaimed)).rxIndicate
  · exact portKept_of_unclaimed

/-- The next step of the Modbus thread is `eMBMasterInit`, and the port is claimed by then. -/
theorem StartingUp.modbus_init (h : StartingUp s) (hstep : s.modbusStep = some t) :
    s.modbus = .init ∧ s.claimed = true := by
  cases h.stage with
  | atOpen main client claimed modbus => simp [modbusStep, modbus] at hstep
  | atSetRxIndicate main client claimed modbus => simp [modbusStep, modbus] at hstep
  | atParaInit main client claimed modbus => simp [modbusStep, modbus] at hstep
  | returned main client claimed =>
    obtain ⟨-, modbus⟩ | ⟨-, modbus⟩ := main
    · simp [modbusStep, modbus] at hstep
    · exact ⟨modbus, claimed⟩

theorem StartingUp.not_polling (h : StartingUp s) : s.modbus ≠ .polling := by
  cases h.stage with
  | atOpen main client claimed modbus => simp [modbus]
  | atSetRxIndicate main client claimed modbus => simp [modbus]
  | atParaInit main client claimed modbus => simp [modbus]
  | returned main client claimed =>
    obtain ⟨-, modbus⟩ | ⟨-, modbus⟩ := main
    · simp [modbus]
    · simp [modbus]

/-- The Modbus thread sets its own callback. -/
theorem portKept_modbus_iff (h : StartingUp s) (hstep : s.modbusStep = some t) :
    PortKept t ↔ (s.claimed = true → s.modbus ≠ .init) := by
  obtain ⟨hinit, hclaimed⟩ := h.modbus_init hstep
  simp only [modbusStep, hinit, Option.some.injEq] at hstep
  subst hstep
  rw [portKept_iff_unclaimed (by simp [mbPortSerialInit, mbPortUart])]
  have hsame : (s.mbPortSerialInit 2 9600 .even).claimed = s.claimed := rfl
  simp [hsame, hclaimed, hinit]

theorem StartingUp.device (h : StartingUp s) :
    s.client.device = none ∨ s.client.device = some .uart2 := by
  cases h.stage with
  | atOpen main client => exact .inl (by rw [client])
  | atSetRxIndicate main client => exact .inr (by rw [client])
  | atParaInit main client => exact .inr (by rw [client])
  | returned main client =>
    obtain client | client := client
    · exact .inr (by rw [client])
    · exact .inl (by rw [client])

/-- Between the open and the setting of the callback, another callback may come and go. -/
theorem StartingUp.setCallback (h : StartingUp s) (hdevice : s.client.device = some .uart2)
    (hunclaimed : s.claimed = false) {ind : Option RxIndicate}
    {session : Option (Option RxIndicate)} (hind : ind ≠ some .atClientRxInd)
    (hsession : session ≠ some (some .atClientRxInd)) :
    StartingUp { s.setRxIndicate .uart2 ind with session := session } := by
  have hopened := h.opened (by rw [hdevice]; rfl)
  cases h.stage with
  | atOpen main client => cases hdevice.symm.trans (congrArg ClientEntry.device client)
  | atSetRxIndicate main client claimed modbus =>
    refine ⟨.atSetRxIndicate main client claimed modbus, fun hopen => ?_, fun _ => ?_, ?_,
      fun _ => ?_, hsession⟩
    · cases main.symm.trans hopen
    · simpa using hopened
    · simpa using h.config
    · simpa using hind
  | atParaInit main client claimed => cases hunclaimed.symm.trans claimed
  | returned main client claimed => cases hunclaimed.symm.trans claimed

/-- Where a shell session may begin or end, the AT client does not hold the port or has given its
device back. -/
theorem unclaimed_of_device (hdevice : s.client.device = some .uart2)
    (hfree : s.claimed = true → s.client.device = none) : s.claimed = false := by
  by_contra hclaimed
  cases hdevice.symm.trans (hfree (by simpa using hclaimed))

theorem cliEnter_eq (hdevice : s.client.device = some .uart2) (enomem : Bool) :
    s.cliEnter enomem =
      { s.setRxIndicate .uart2 (some .clientGetcharRxInd) with
        session := if enomem then none else some (s.uart .uart2).rxIndicate } := by
  simp only [cliEnter, hdevice]

theorem cliEnter_of_free (hdevice : s.client.device = none) (enomem : Bool) :
    s.cliEnter enomem = s := by
  simp only [cliEnter, hdevice]

/-- A shell session takes the callback, if the client has its device. -/
theorem portKept_cliEnter_iff (h : StartingUp s) (hkept : PortKept s) (enomem : Bool) :
    PortKept (s.cliEnter enomem) ↔ (s.claimed = true → s.client.device = none) := by
  obtain hdevice | hdevice := h.device
  · rw [cliEnter_of_free hdevice]
    exact iff_of_true hkept fun _ => hdevice
  · rw [cliEnter_eq hdevice, portKept_iff_unclaimed (by simp)]
    simp [hdevice, setRxIndicate, setUart]

theorem startingUp_cliEnter (h : StartingUp s) {enomem : Bool}
    (hfree : s.claimed = true → s.client.device = none) : StartingUp (s.cliEnter enomem) := by
  obtain hdevice | hdevice := h.device
  · rwa [cliEnter_of_free hdevice]
  · have hunclaimed : s.claimed = false := unclaimed_of_device hdevice hfree
    rw [cliEnter_eq hdevice]
    apply h.setCallback hdevice hunclaimed (by simp)
    cases enomem with
    | true => simp
    | false => simpa using h.unclaimed hunclaimed

theorem cliLeave_eq (hdevice : s.client.device = some .uart2) (ind : Option RxIndicate) :
    s.cliLeave ind = { s.setRxIndicate .uart2 ind with session := none } := by
  simp only [cliLeave, hdevice]

theorem cliLeave_of_free (hdevice : s.client.device = none) (ind : Option RxIndicate) :
    s.cliLeave ind = { s with stopped := true } := by
  simp only [cliLeave, hdevice]

/-- An open session has not saved the callback of the client. -/
theorem StartingUp.session_ne (h : StartingUp s) {ind : Option RxIndicate}
    (hsession : s.session = some ind) : ind ≠ some .atClientRxInd := by
  rintro rfl
  exact h.session hsession

/-- The session puts back what was there before the callback of the client. -/
theorem portKept_cliLeave_iff (h : StartingUp s) (hkept : PortKept s) {ind : Option RxIndicate}
    (hsession : s.session = some ind) :
    PortKept (s.cliLeave ind) ↔ (s.claimed = true → s.client.device = none) := by
  have hind := h.session_ne hsession
  obtain hdevice | hdevice := h.device
  · rw [cliLeave_of_free hdevice, (samePlaces_stopped s).portKept_iff hkept]
    exact iff_of_true (fun hclaimed => ⟨(hkept hclaimed).signalled, (hkept hclaimed).consumed⟩)
      fun _ => hdevice
  · rw [cliLeave_eq hdevice, portKept_iff_unclaimed (by simpa using hind)]
    simp [hdevice, setRxIndicate, setUart]

theorem startingUp_cliLeave (h : StartingUp s) {ind : Option RxIndicate}
    (hsession : s.session = some ind) (hfree : s.claimed = true → s.client.device = none) :
    StartingUp (s.cliLeave ind) := by
  have hind := h.session_ne hsession
  obtain hdevice | hdevice := h.device
  · rw [cliLeave_of_free hdevice]
    exact (samePlaces_stopped s).startingUp h
  · rw [cliLeave_eq hdevice]
    exact h.setCallback hdevice (unclaimed_of_device hdevice hfree) hind (by simp)

/-! ## One step, and a whole run -/

/-- The receive interrupt, while the client holds the port. -/
theorem portKept_receive_iff (h : StartingUp s) (hkept : PortKept s) (bytes : List UInt8) :
    PortKept (s.receive bytes) ↔
      (s.claimed = true → bytes = [] ∨ s.client.rxNotice = true) := by
  rw [(samePlaces_receive s bytes).portKept_iff hkept]
  refine forall_congr' fun hclaimed => ?_
  have hheld : s.PortHeld := hkept hclaimed
  obtain ⟨hreceived, hconsumed, hunnoticed⟩ := receive_history hheld.rxIndicate bytes
  rw [hreceived, hconsumed, and_iff_left hheld.consumed]
  cases hnotice : s.client.rxNotice with
  | false =>
    rw [hunnoticed hnotice, hheld.signalled]
    simp
  | true =>
    have hclient : s.client = ⟨some .uart2, true⟩ := by
      cases h.stage with
      | atOpen main client => simp [client] at hnotice
      | atSetRxIndicate main client => simp [client] at hnotice
      | atParaInit main client => simp [client] at hnotice
      | returned main client => exact client.resolve_right fun hfree => by simp [hfree] at hnotice
    have hopened := h.opened (by rw [hclient]; rfl)
    have hbufsz : 2 < (s.uart .uart2).config.bufsz := by
      rw [h.config]
      decide
    rw [receive_signalled hheld.rxIndicate hbufsz hopened.1 hopened.2.1 hclient, hheld.signalled]
    simp

/-- What a step is, if the board has not stopped. -/
theorem step_eq_some (hstep : s.step a = some t) :
    match a with
    | .main enomem => s.mainStep enomem = some t
    | .modbus => s.modbusStep = some t
    | .serialEnable _ => s.modbus = .polling
    | .receive bytes => t = s.receive bytes
    | .getchar | .execCmd _ =>
      SamePlaces s t ∧ t.received = s.received ∧ t.signalled = s.signalled ∧
        t.consumed = s.consumed
    | .cliEnter enomem => t = s.cliEnter enomem
    | .cliLeave => ∃ ind, s.session = some ind ∧ t = s.cliLeave ind := by
  unfold step at hstep
  split at hstep
  · cases hstep
  · cases a with
    | main enomem => exact hstep
    | modbus => exact hstep
    | serialEnable xRxEnable =>
      dsimp only at hstep ⊢
      split at hstep
      · assumption
      · cases hstep
    | receive bytes => exact (Option.some.inj hstep).symm
    | getchar =>
      dsimp only at hstep ⊢
      split at hstep
      · next u hu =>
        split at hstep
        · cases hstep
          exact ⟨samePlaces_getchar s u, rfl, rfl, rfl⟩
        · cases hstep
      · cases hstep
    | execCmd line =>
      dsimp only at hstep ⊢
      split at hstep
      · cases hstep
        exact ⟨samePlaces_history s s.stopped _ s.received s.signalled s.consumed, rfl, rfl, rfl⟩
      · cases hstep
    | cliEnter enomem =>
      dsimp only at hstep ⊢
      split at hstep
      · cases hstep
      · exact (Option.some.inj hstep).symm
    | cliLeave =>
      obtain ⟨ind, hind, ht⟩ := Option.map_eq_some_iff.mp hstep
      exact ⟨ind, hind, ht.symm⟩

/-- Exactly the undisturbed steps leave the port with the AT client. -/
theorem step_portKept_iff (h : StartingUp s) (hkept : PortKept s) (hstep : s.step a = some t) :
    PortKept t ↔ Undisturbed s a := by
  have hcases := step_eq_some hstep
  cases a with
  | main enomem => exact iff_of_true (startingUp_main h hkept hcases).2 fun _ => trivial
  | modbus => exact portKept_modbus_iff h hcases
  | serialEnable xRxEnable => exact absurd hcases h.not_polling
  | receive bytes =>
    have ht : t = s.receive bytes := hcases
    rw [ht]
    exact portKept_receive_iff h hkept bytes
  | getchar | execCmd line =>
    obtain ⟨hsame, hreceived, hsignalled, hconsumed⟩ := hcases
    refine iff_of_true ((hsame.portKept_iff hkept).mpr fun hclaimed => ?_) fun _ => trivial
    rw [hreceived, hsignalled, hconsumed]
    exact ⟨(hkept hclaimed).signalled, (hkept hclaimed).consumed⟩
  | cliEnter enomem =>
    have ht : t = s.cliEnter enomem := hcases
    rw [ht]
    exact portKept_cliEnter_iff h hkept enomem
  | cliLeave =>
    obtain ⟨ind, hsession, rfl⟩ := hcases
    exact portKept_cliLeave_iff h hkept hsession

/-- The start-up goes on as long as the port is held. -/
theorem step_startingUp (h : StartingUp s) (hkept : PortKept s) (hstep : s.step a = some t)
    (hkept' : PortKept t) : StartingUp t := by
  have hcases := step_eq_some hstep
  have hundisturbed : Undisturbed s a := (step_portKept_iff h hkept hstep).mp hkept'
  cases a with
  | main enomem => exact (startingUp_main h hkept hcases).1
  | modbus =>
    obtain ⟨hinit, hclaimed⟩ := h.modbus_init hcases
    exact absurd hinit (hundisturbed hclaimed)
  | serialEnable xRxEnable => exact absurd hcases h.not_polling
  | receive bytes =>
    have ht : t = s.receive bytes := hcases
    rw [ht]
    exact (samePlaces_receive s bytes).startingUp h
  | getchar | execCmd line => exact hcases.1.startingUp h
  | cliEnter enomem =>
    have ht : t = s.cliEnter enomem := hcases
    rw [ht]
    exact startingUp_cliEnter h hundisturbed
  | cliLeave =>
    obtain ⟨ind, hsession, rfl⟩ := hcases
    exact startingUp_cliLeave h hsession hundisturbed

/-- In every run of the board the AT client keeps the UART that it has opened, exactly if no step
disturbs it. -/
theorem radioPort_kept_iff {actions : List PortAction}
    (hrun : Transition.run step start actions = some t) :
    Transition.Always step PortKept start actions ↔
      Transition.StepsMeet step Undisturbed start actions :=
  Transition.always_iff_stepsMeet_of_inv (fun _ _ _ => step_startingUp)
    (fun _ _ _ => step_portKept_iff) startingUp_start (portKept_of_unclaimed rfl) hrun

/-- The start-up with the Modbus thread held back, then a line and its answer. -/
def readyActions : List PortAction :=
  [.main false, .main false, .main false, .main false, .execCmd (ascii "AT"),
    .receive (ascii "OK"), .getchar]

theorem radioPort_kept_ready :
    ∃ t, Transition.run step start readyActions = some t ∧
      Transition.Always step PortKept start readyActions := by
  have hruns : (Transition.run step start readyActions).isSome := by decide +kernel
  obtain ⟨t, ht⟩ := Option.isSome_iff_exists.mp hruns
  have hmeet : Transition.StepsMeet step Undisturbed start readyActions := by decide +kernel
  exact ⟨t, ht, (radioPort_kept_iff ht).mpr hmeet⟩

/-- Once the Modbus thread is in its loop, the AT client has lost the port. -/
theorem not_kept_of_polling {actions : List PortAction}
    (hrun : Transition.run step start actions = some t) (hmodbus : t.modbus = .polling) :
    ¬ Transition.Always step PortKept start actions := by
  intro hkept
  have hend := hkept.invariant (fun _ _ _ => step_startingUp) startingUp_start hrun
  exact hend.1.not_polling hmodbus

/-- The whole start-up, then an answer of the radio module. -/
def startUpActions : List PortAction :=
  [.main false, .main false, .main false, .main false, .modbus, .modbus, .receive (ascii "OK")]

/-- The answer is not signalled to the AT client, and the Modbus master reads its first byte. -/
theorem modbus_takes_radioPort :
    ∃ t, Transition.run step start startUpActions = some t ∧
      ¬ Transition.Always step PortKept start startUpActions ∧
      (t.uart .uart2).rxIndicate = some .serialRxInd ∧
      (t.uart .uart2).config = ⟨9600, 9, 1, .even, 64⟩ ∧
      t.received = ascii "OK" ∧ t.signalled = [] ∧ t.consumed = ascii "O" := by
  have hrun : (Transition.run step start startUpActions).map (fun t =>
      (t.modbus, t.uart .uart2, t.received, t.signalled, t.consumed)) =
      some (.polling, ⟨⟨9600, 9, 1, .even, 64⟩, some .serialRxInd, 2, some (ascii "K"), true⟩,
        ascii "OK", [], ascii "O") := by
    decide +kernel
  obtain ⟨t, ht, hend⟩ := Option.map_eq_some_iff.mp hrun
  simp only [Prod.mk.injEq] at hend
  obtain ⟨hmodbus, huart, hreceived, hsignalled, hconsumed⟩ := hend
  refine ⟨t, ht, not_kept_of_polling ht hmodbus, ?_, ?_, hreceived, hsignalled, hconsumed⟩
  · rw [huart]
  · rw [huart]

end PortSys

end ControlBoard
