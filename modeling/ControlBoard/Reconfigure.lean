import ControlBoard.NodeInfoStore
import ControlBoard.OtaaText

/-!
# Reconfiguring the node

`raido_join_config_join` with a new info writes the flash first and then issues six commands,
of which the first three replace one component of the module's identity each. Nothing is
undone on an error, so what a failure leaves behind is told by the number of commands that
were acknowledged before it.
-/

namespace ControlBoard

/-- `at_radio_set_autojoin(1)` as it is sent. -/
def autojoinCommand : List UInt8 :=
  cstr (strcatM (charArray 50 (ascii "AT+AUTOJOIN=")) (charArray 2 (ascii "1")))

/-- The commands of `raido_join_config_join(info)` with their buffer sizes. -/
def joinCommands (info : AtRadioInfo) : List (Nat × List UInt8) :=
  [(64, otaaCommand (ascii "AT+DEVEUI=") info.fromDevEui),
    (64, otaaCommand (ascii "AT+APPEUI=") info.fromAppEui),
    (100, otaaCommand (ascii "AT+APPKEY=") info.fromAppKey),
    (64, autojoinCommand), (10, ascii "AT+JOIN=60,1"), (64, ascii "AT+JOIN")]

theorem setOTAAInfo_eq_sendAll (info : AtRadioInfo) :
    atRadioSetOTAAInfo (some info) = sendAll ((joinCommands info).take 3) := by
  simp only [atRadioSetOTAAInfo, joinCommands, List.take_succ_cons, List.take_zero]
  rw [sendAll, sendAll, sendAll_singleton]

theorem joinNet_eq_sendAll (info : AtRadioInfo) :
    atRadioJoinNet = sendAll ((joinCommands info).drop 4) := by
  simp only [atRadioJoinNet, joinCommands, List.drop_succ_cons, List.drop_zero]
  rw [sendAll, sendAll_singleton]

/-- Behind the flash, the join sequence is its six commands. -/
theorem raidoJoinGiven_eq_sendAll (fal : Bool) (info : RadioInfo) :
    raidoJoinGiven fal info = (do
      if fal then
        let _ ← saveNodeInfo info
      sendAll (joinCommands info.OTAA)) := by
  have hsplit : sendAll (joinCommands info.OTAA) = (do
      let re ← atRadioSetOTAAInfo (some info.OTAA)
      if re ≠ .ok then return re
      let re ← atRadioSetAutojoin 1
      if re ≠ .ok then return re
      atRadioJoinNet) := by
    rw [← List.take_append_drop 3 (joinCommands info.OTAA), sendAll_append,
      ← setOTAAInfo_eq_sendAll, joinNet_eq_sendAll info.OTAA]
    rfl
  rw [hsplit, raidoJoinGiven]

/-- The line of a command behind the first three is the command. -/
theorem line_behindOtaa (b : Board) : b.line autojoinCommand = autojoinCommand ∧
    b.line (ascii "AT+JOIN=60,1") = ascii "AT+JOIN=60,1" ∧
      b.line (ascii "AT+JOIN") = ascii "AT+JOIN" :=
  ⟨Board.line_plain (by decide) (by decide), Board.line_plain (by decide) (by decide),
    Board.line_plain (by decide) (by decide)⟩

/-- Saving an info sends nothing and leaves the fate of the commands open. -/
theorem saveNodeInfo_frame (info : RadioInfo) (b : Board) :
    ((saveNodeInfo info).run Board.handler b).2.radio = b.radio ∧
    ((saveNodeInfo info).run Board.handler b).2.script.creates = b.script.creates ∧
    ((saveNodeInfo info).run Board.handler b).2.script.execs = b.script.execs ∧
    ((saveNodeInfo info).run Board.handler b).2.sent = b.sent := by
  simp only [saveNodeInfo, falPartitionFind, falPartitionErase, rtThreadMdelay, falPartitionWrite,
    Prog.ask_bind, Prog.run_call]
  split
  · exact ⟨rfl, rfl, rfl, rfl⟩
  · exact ⟨rfl, rfl, rfl, rfl⟩

end ControlBoard
