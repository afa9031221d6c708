import ControlBoard.JoinConfig

/-!
# The node information in flash

What `save_node_info`, `clear_node_info` and `read_node_info` do to the bytes of `eeprom2`
while the flash works, and from it what a later read returns after any history of saves,
clears and reboots. The abstract store is one cell that holds the info of the last save, or
nothing since the last clear.
-/

namespace ControlBoard

/-- The partition is there and every flash operation succeeds. -/
structure Board.FlashWorks (b : Board) : Prop where
  found : b.flash.find (ascii "eeprom2") = some eeprom2
  works : ∀ n, b.script.flash n = true

/-- The bytes of `eeprom2` that the node information occupies. -/
def Board.nodeInfo (b : Board) : List UInt8 :=
  Memory.read b.flash.bytes eeprom2.offset RadioInfo.size

theorem Board.partition_eq {b : Board} (h : b.FlashWorks) : b.partition = eeprom2 := by
  simp [Board.partition, h.found]

theorem Board.size_le : RadioInfo.size ≤ eeprom2.len := by decide

namespace Board

/-- `fal_partition_erase(bli, 0, sizeof(RadioInfo_s))` -/
def eraseNodeInfo (b : Board) : Board :=
  { b with
    flash := { b.flash with
      bytes := Memory.write b.flash.bytes eeprom2.offset
        (List.replicate RadioInfo.size b.flash.erased) }
    script := b.script.dropFlash }

/-- `fal_partition_write(bli, 0, info, sizeof(RadioInfo_s))` -/
def writeNodeInfo (b : Board) (info : RadioInfo) : Board :=
  { b with
    flash := { b.flash with bytes := Memory.write b.flash.bytes eeprom2.offset info.toBytes }
    script := b.script.dropFlash }

variable {b : Board} (h : b.FlashWorks)
include h

theorem FlashWorks.erase : b.eraseNodeInfo.FlashWorks := ⟨h.found, fun n => h.works (n + 1)⟩

theorem FlashWorks.write (info : RadioInfo) : (b.writeNodeInfo info).FlashWorks :=
  ⟨h.found, fun n => h.works (n + 1)⟩

theorem handler_erase :
    handler (.falPartitionErase 0 RadioInfo.size) b =
      ((RadioInfo.size : Int), b.eraseNodeInfo) := by
  have hbound : ¬ 0 + RadioInfo.size > eeprom2.len := by decide
  simp only [handler, Flash.partitionErase, partition_eq h, if_neg hbound, h.works, if_true]
  rfl

theorem handler_write (info : RadioInfo) :
    handler (.falPartitionWrite 0 info.toBytes) b =
      ((RadioInfo.size : Int), b.writeNodeInfo info) := by
  have hbound : ¬ 0 + info.toBytes.length > eeprom2.len := by
    rw [RadioInfo.length_toBytes]
    decide
  simp only [handler, Flash.partitionWrite, partition_eq h, h.works, if_true,
    RadioInfo.length_toBytes]
  rfl

omit h in
@[simp] theorem nodeInfo_eraseNodeInfo (b : Board) :
    b.eraseNodeInfo.nodeInfo = List.replicate RadioInfo.size b.flash.erased := by
  rw [nodeInfo, eraseNodeInfo]
  nth_rewrite 2 [← List.length_replicate (n := RadioInfo.size) (a := b.flash.erased)]
  exact Memory.read_write_same

omit h in
@[simp] theorem nodeInfo_writeNodeInfo (b : Board) (info : RadioInfo) :
    (b.writeNodeInfo info).nodeInfo = info.toBytes := by
  rw [nodeInfo, writeNodeInfo, ← info.length_toBytes]
  exact Memory.read_write_same

end Board

/-! ## One call -/

section Calls

variable {b : Board} (h : b.FlashWorks)
include h

theorem handler_read :
    Board.handler (.falPartitionRead 0 RadioInfo.size) b =
      (some ⟨b.nodeInfo, Memory.length_read⟩, { b with script := b.script.dropFlash }) := by
  have hbound : ¬ 0 + RadioInfo.size > eeprom2.len := by decide
  simp only [Board.handler, Flash.partitionRead, Board.partition_eq h, if_neg hbound, h.works,
    if_true]
  rfl

theorem handler_find : Board.handler (.falPartitionFind (ascii "eeprom2")) b = (true, b) := by
  simp [Board.handler, h.found]

theorem saveNodeInfo_run (info : RadioInfo) :
    (saveNodeInfo info).run Board.handler b = (0, b.eraseNodeInfo.writeNodeInfo info) := by
  simp only [saveNodeInfo, falPartitionFind, falPartitionErase, rtThreadMdelay, falPartitionWrite,
    Prog.ask_bind, Prog.run_call, handler_find h, if_true, Board.handler_erase h,
    Board.handler_rtThreadMdelay, Board.handler_write h.erase]
  rfl

theorem clearNodeInfo_run : clearNodeInfo.run Board.handler b = (0, b.eraseNodeInfo) := by
  simp only [clearNodeInfo, falPartitionFind, falPartitionErase, Prog.ask_bind, Prog.run_call,
    handler_find h, if_true, Board.handler_erase h]
  rfl

/-- `read_node_info` fills the caller's structure from the partition, and calls what it read
missing exactly if the first character of `appEui` is not NUL. -/
theorem readNodeInfo_run (x : RadioInfo) :
    ((readNodeInfo x).run Board.handler b).1 =
      (if (RadioInfo.ofBytes b.nodeInfo Memory.length_read).OTAA.appEui.head? ≠ some 0 then 3
        else 0, RadioInfo.ofBytes b.nodeInfo Memory.length_read) := by
  simp only [readNodeInfo, falPartitionFind, falPartitionRead, Prog.ask_bind, Prog.run_call,
    handler_find h, if_true, handler_read h]
  split
  · rfl
  · rfl

end Calls

/-! ## Histories -/

/-- What can happen to the partition between two reads. -/
inductive NodeInfoOp where
  | save (args : OtaaArgs)
  | clear
  | reboot

/-- A reboot loses what is in memory: the response objects, and here the record of the
commands sent. -/
def NodeInfoOp.run (b : Board) : NodeInfoOp → Board
  | .save args => ((saveNodeInfo args.info).run Board.handler b).2
  | .clear => (clearNodeInfo.run Board.handler b).2
  | .reboot => { b with resps := .empty, sent := [] }

/-- The abstract store: the arguments of the last save, unless a clear came after it. -/
def NodeInfoOp.apply (cell : Option OtaaArgs) : NodeInfoOp → Option OtaaArgs
  | .save args => some args
  | .clear => none
  | .reboot => cell

/-- The bytes that stand for the content of the abstract store. -/
def encodeCell : Option OtaaArgs → List UInt8
  | some args => args.info.toBytes
  | none => List.replicate RadioInfo.size 0xFF

/-- The board's flash holds the content of the abstract store. -/
structure Stores (b : Board) (cell : Option OtaaArgs) : Prop where
  flashWorks : b.FlashWorks
  erased : b.flash.erased = 0xFF
  nodeInfo : b.nodeInfo = encodeCell cell

theorem Stores.step {b : Board} {cell : Option OtaaArgs} (h : Stores b cell) (op : NodeInfoOp) :
    Stores (op.run b) (op.apply cell) := by
  cases op with
  | save args =>
    have hrun : (NodeInfoOp.save args).run b = b.eraseNodeInfo.writeNodeInfo args.info :=
      congrArg Prod.snd (saveNodeInfo_run h.flashWorks args.info)
    rw [hrun]
    exact ⟨(h.flashWorks.erase).write args.info, h.erased, Board.nodeInfo_writeNodeInfo _ _⟩
  | clear =>
    have hrun : NodeInfoOp.clear.run b = b.eraseNodeInfo :=
      congrArg Prod.snd (clearNodeInfo_run h.flashWorks)
    rw [hrun]
    refine ⟨h.flashWorks.erase, h.erased, ?_⟩
    rw [Board.nodeInfo_eraseNodeInfo, h.erased]
    rfl
  | reboot => exact ⟨⟨h.flashWorks.found, h.flashWorks.works⟩, h.erased, h.nodeInfo⟩

theorem Stores.history {b : Board} {cell : Option OtaaArgs} (h : Stores b cell)
    (ops : List NodeInfoOp) :
    Stores (ops.foldl NodeInfoOp.run b) (ops.foldl NodeInfoOp.apply cell) := by
  induction ops generalizing b cell with
  | nil => exact h
  | cons op ops ih => exact ih (h.step op)

/-- What a read should return: the saved info, or 3 when there is none. -/
def ReadsBack : Option OtaaArgs → Int × RadioInfo → Prop
  | some args, res => res = (0, args.info)
  | none, res => res.1 = 3

theorem OtaaArgs.appEui_head (args : OtaaArgs) : args.info.OTAA.appEui.head? ≠ some 0 := by
  have hlen := args.appeui_length
  have hnul := args.appeui.2
  cases hs : args.appeui.1 with
  | nil => simp [hs] at hlen
  | cons c cs =>
    simp only [hs, List.mem_cons, not_or] at hnul
    simpa [OtaaArgs.info, hs] using Ne.symm hnul.1

/-- Erased bytes do not start with a NUL. -/
theorem RadioInfo.erased_appEui_head (h : (List.replicate size (0xFF : UInt8)).length = size) :
    (ofBytes (List.replicate size 0xFF) h).OTAA.appEui.head? ≠ some 0 := by
  show ((((List.replicate 67 (0xFF : UInt8)).drop 17).take 17).head? ≠ some 0)
  decide

/-- A saved info is filled in and reported missing. -/
theorem Stores.read_saved {b : Board} {args : OtaaArgs} (h : Stores b (some args)) (x : RadioInfo) :
    ((readNodeInfo x).run Board.handler b).1 = (3, args.info) := by
  have hbytes : b.nodeInfo = args.info.toBytes := h.nodeInfo
  have hinfo : RadioInfo.ofBytes b.nodeInfo Memory.length_read = args.info := by
    simp only [hbytes]
    exact RadioInfo.ofBytes_toBytes _ _
  rw [readNodeInfo_run h.flashWorks, hinfo, if_pos args.appEui_head]

theorem Stores.read_none {b : Board} (h : Stores b none) (x : RadioInfo) :
    ((readNodeInfo x).run Board.handler b).1.1 = 3 := by
  have hbytes : b.nodeInfo = List.replicate RadioInfo.size 0xFF := h.nodeInfo
  have hhead : (RadioInfo.ofBytes b.nodeInfo Memory.length_read).OTAA.appEui.head? ≠ some 0 := by
    simp only [hbytes]
    exact RadioInfo.erased_appEui_head _
  rw [readNodeInfo_run h.flashWorks, if_pos hhead]

/-- An erase sets the bytes to `0xFF`, and the partition comes erased. -/
structure Board.Erased (b : Board) : Prop where
  byte : b.flash.erased = 0xFF
  bytes : ∀ i < eeprom2.len, b.flash.bytes (eeprom2.offset + i) = 0xFF

theorem Stores.of_erased {b : Board} (h : b.FlashWorks) (herased : b.Erased) : Stores b none := by
  refine ⟨h, herased.byte, ?_⟩
  apply List.ext_getElem
  · simp [Board.nodeInfo, encodeCell]
  · intro i hi _
    have hlt : i < eeprom2.len := lt_of_lt_of_le (by simpa [Board.nodeInfo] using hi) Board.size_le
    simpa [Board.nodeInfo, encodeCell] using herased.bytes i hlt

/-- After any history on an erased partition, `read_node_info` tells the truth exactly when
there is nothing to be found: no save, or a clear after the last one. -/
theorem readNodeInfo_history_iff {b : Board} (h : b.FlashWorks) (herased : b.Erased)
    (ops : List NodeInfoOp) (x : RadioInfo) :
    ReadsBack (ops.foldl NodeInfoOp.apply none)
        ((readNodeInfo x).run Board.handler (ops.foldl NodeInfoOp.run b)).1 ↔
      ops.foldl NodeInfoOp.apply none = none := by
  have hend := (Stores.of_erased h herased).history ops
  cases hcell : ops.foldl NodeInfoOp.apply none with
  | some args =>
    rw [hcell] at hend
    simp [ReadsBack, hend.read_saved x]
  | none =>
    rw [hcell] at hend
    simpa [ReadsBack] using hend.read_none x

theorem Board.factory_flashWorks : Board.factory.FlashWorks := ⟨by decide, fun _ => rfl⟩

theorem Board.factory_erased : Board.factory.Erased := ⟨rfl, fun _ _ => rfl⟩

/-- The arguments of the comment above `radio_set`. -/
def OtaaArgs.sample : OtaaArgs where
  deveui := ⟨ascii "1122334455667788", by decide⟩
  appeui := ⟨ascii "8877665544332211", by decide⟩
  appkey := ⟨ascii "11112222333344445555666677778888", by decide⟩
  deveui_length := by decide
  appeui_length := by decide
  appkey_length := by decide

theorem readNodeInfo_history_factory :
    ReadsBack none ((readNodeInfo OtaaArgs.sample.info).run Board.handler
      ([.save .sample, .clear].foldl NodeInfoOp.run Board.factory)).1 :=
  (readNodeInfo_history_iff Board.factory_flashWorks Board.factory_erased [.save .sample, .clear]
    OtaaArgs.sample.info).mpr rfl

/-- One save, and the info is reported missing. -/
theorem readNodeInfo_not_found_after_save :
    ¬ ReadsBack ([NodeInfoOp.save .sample].foldl NodeInfoOp.apply none)
      ((readNodeInfo OtaaArgs.sample.info).run Board.handler
        ([NodeInfoOp.save .sample].foldl NodeInfoOp.run Board.factory)).1 := by
  have hstores : Stores Board.factory none :=
    Stores.of_erased Board.factory_flashWorks Board.factory_erased
  have hread := (hstores.step (.save .sample)).read_saved OtaaArgs.sample.info
  simp only [List.foldl_cons, List.foldl_nil, hread]
  simp [NodeInfoOp.apply, ReadsBack]

end ControlBoard
