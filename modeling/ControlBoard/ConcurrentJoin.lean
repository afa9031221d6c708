import ControlBoard.Lib.Registers
import ControlBoard.Lib.Transition
import ControlBoard.Reconfigure

/-!
# Two joins at once

The shell thread runs `radio_set` while the radio thread runs
`raido_join_config_join(RT_NULL)`. The AT client locks one command at a time
(`at_obj_exec_cmd`, `pck/at/src/at_client.c:277-327`), so the two sequences interleave call by
call. Abstractly they are two threads that assign four registers, the components of the
module's identity and the node information in flash: each register ends up with the value of
the last thread that assigned it, and which thread that is can be told from the order of their
calls.
-/

namespace ControlBoard

inductive Thread where
  | shell
  | radio
  deriving DecidableEq, Repr

/-- The places that a join writes. -/
inductive Store where
  | devEui
  | appEui
  | appKey
  | flash
  deriving DecidableEq, Repr

/-- What an info means for a store. -/
def RadioInfo.value (info : RadioInfo) : Store → List UInt8
  | .devEui => cstr info.OTAA.fromDevEui
  | .appEui => cstr info.OTAA.fromAppEui
  | .appKey => cstr info.OTAA.fromAppKey
  | .flash => info.toBytes

/-- What the board holds in a store. -/
def Board.held (b : Board) : Store → List UInt8
  | .devEui => b.radio.devEui
  | .appEui => b.radio.appEui
  | .appKey => b.radio.appKey
  | .flash => b.nodeInfo

/-- What the join with an info puts into a store. The module is given what the AT client makes of
the command. -/
def Board.gives (b : Board) (info : RadioInfo) : Store → List UInt8
  | .devEui => (b.given info.OTAA).devEui
  | .appEui => (b.given info.OTAA).appEui
  | .appKey => (b.given info.OTAA).appKey
  | .flash => info.toBytes

/-- The store that an acknowledged line assigns, and the value. -/
def lineAssigns (line : List UInt8) : Option (Store × List UInt8) :=
  if (ascii "AT+DEVEUI=").isPrefixOf line then some (.devEui, line.drop 10)
  else if (ascii "AT+APPEUI=").isPrefixOf line then some (.appEui, line.drop 10)
  else if (ascii "AT+APPKEY=").isPrefixOf line then some (.appKey, line.drop 10)
  else none

/-- The store that a successful call assigns, and the value: `line` is what the AT client makes of
a command, and erased bytes read `0xFF`. -/
def IoOp.assigns (line : List UInt8 → List UInt8) : IoOp → Option (Store × List UInt8)
  | .atExecCmd _ cmd => lineAssigns (line cmd)
  | .falPartitionErase _ size => some (.flash, List.replicate size 0xFF)
  | .falPartitionWrite _ data => some (.flash, data)
  | _ => none

/-- The radio thread's join (`radio_control.c:244`), whose result it drops. -/
def radioJoin (useInfo : RadioInfo) : Prog Io Unit := do
  let _ ← raidoJoinConfigJoin true useInfo none

/-- The two threads on the board, and the calls they have made so far, each with its assignment. -/
structure JoinSys where
  prog : Thread → Prog Io Unit
  board : Board
  log : List (Thread × Option (Store × List UInt8))

namespace JoinSys

/-- The next call of thread `t`; a thread that has returned makes none. -/
def step (s : JoinSys) (t : Thread) : Option JoinSys := do
  let op ← (s.prog t).next
  let (p, b) ← (s.prog t).step Board.handler s.board
  return { prog := Function.update s.prog t p
           board := b
           log := s.log ++ [(t, op.assigns s.board.line)] }

/-- The shell is about to run `radio_set`, the radio thread the join with what it reads from
flash. The two infos are what the locals `UseInfo` hold. -/
def start (b : Board) (name : CString) (args : OtaaArgs) (shellInfo radioInfo : RadioInfo) :
    JoinSys where
  prog
    | .shell => radioSet true shellInfo [name, args.deveui, args.appeui, args.appkey]
    | .radio => radioJoin radioInfo
  board := b
  log := []

theorem step_eq {s s' : JoinSys} {t : Thread} (h : s.step t = some s') :
    ∃ op k, s.prog t = .call op k ∧
      s' = { prog := Function.update s.prog t (k (Board.handler op s.board).1)
             board := (Board.handler op s.board).2
             log := s.log ++ [(t, op.assigns s.board.line)] } := by
  cases hp : s.prog t with
  | ret a => simp [step, hp, Prog.next] at h
  | call op k =>
    refine ⟨op, k, rfl, ?_⟩
    simp only [step, hp, Prog.next, Prog.step] at h
    exact (Option.some_inj.mp h).symm

/-- The log has the threads of the schedule. -/
theorem log_threads {s s' : JoinSys} {schedule : List Thread}
    (hrun : Transition.run step s schedule = some s') :
    s'.log.map Prod.fst = s.log.map Prod.fst ++ schedule := by
  induction schedule generalizing s with
  | nil =>
    rw [Transition.run_nil] at hrun
    cases hrun
    rw [List.append_nil]
  | cons t schedule ih =>
    obtain ⟨u, hu, hrun⟩ := Transition.run_cons.mp hrun
    obtain ⟨op, k, -, rfl⟩ := step_eq hu
    rw [ih hrun, List.map_append, List.append_assoc]
    rfl

end JoinSys

/-! ## The calls on a board where everything succeeds -/

/-- Memory is there, every command is acknowledged and the flash works; erased, it reads `0xFF`. -/
structure Board.Succeeds (b : Board) : Prop where
  flashWorks : b.FlashWorks
  erased : b.flash.erased = 0xFF
  creates : ∀ n, b.script.creates n = true
  execs : ∀ n, (b.script.execs n).result = .success

/-- The partition calls are about the node information. -/
def IoOp.OnNodeInfo : IoOp → Prop
  | .falPartitionFind name => name = ascii "eeprom2"
  | .falPartitionRead addr size => addr = 0 ∧ size = RadioInfo.size
  | .falPartitionErase addr size => addr = 0 ∧ size = RadioInfo.size
  | .falPartitionWrite addr data => addr = 0 ∧ ∃ info : RadioInfo, data = info.toBytes
  | _ => True

/-- The answers on such a board. -/
def Expected : (op : IoOp) → op.Ans → Prop
  | .atCreateResp .., r => r ≠ none
  | .atExecCmd .., r => r.result = .success
  | .falPartitionFind _, r => r = true
  | .falPartitionRead .., r => r ≠ none
  | _, _ => True

theorem expected_total (op : IoOp) : ∃ r, Expected op r := by
  cases op with
  | atCreateResp n l t => exact ⟨some 0, Option.some_ne_none 0⟩
  | atDeleteResp r => exact ⟨(), trivial⟩
  | atExecCmd r cmd => exact ⟨⟨.success, [], 0⟩, rfl⟩
  | rtThreadMdelay ms => exact ⟨(), trivial⟩
  | falPartitionFind name => exact ⟨true, rfl⟩
  | falPartitionRead addr size =>
    exact ⟨some ⟨List.replicate size 0, List.length_replicate⟩, Option.some_ne_none _⟩
  | falPartitionErase addr size => exact ⟨(0 : Int), trivial⟩
  | falPartitionWrite addr data => exact ⟨(0 : Int), trivial⟩

/-- An acknowledged line assigns the component it names, and no other store. -/
theorem held_acknowledge {b c : Board} (line : List UInt8)
    (hradio : c.radio = b.radio.acknowledge line) (hnode : c.nodeInfo = b.nodeInfo) :
    c.held = Registers.assign b.held (lineAssigns line) := by
  funext st
  rw [RadioModule.acknowledge] at hradio
  rw [lineAssigns]
  by_cases hdev : (ascii "AT+DEVEUI=").isPrefixOf line = true
  · rw [if_pos hdev] at hradio ⊢
    cases st <;> simp [Registers.assign, Board.held, hradio, hnode]
  rw [if_neg hdev] at hradio ⊢
  by_cases happ : (ascii "AT+APPEUI=").isPrefixOf line = true
  · rw [if_pos happ] at hradio ⊢
    cases st <;> simp [Registers.assign, Board.held, hradio, hnode]
  rw [if_neg happ] at hradio ⊢
  by_cases hkey : (ascii "AT+APPKEY=").isPrefixOf line = true
  · rw [if_pos hkey] at hradio ⊢
    cases st <;> simp [Registers.assign, Board.held, hradio, hnode]
  · rw [if_neg hkey] at hradio ⊢
    cases st <;> simp [Registers.assign, Board.held, hradio, hnode]

/-- New node information is the only thing such a board then holds anew. -/
theorem held_nodeInfo {b c : Board} {info : List UInt8} (hradio : c.radio = b.radio)
    (hnode : c.nodeInfo = info) : c.held = Registers.assign b.held (some (.flash, info)) := by
  funext st
  cases st with
  | devEui => exact congrArg RadioModule.devEui hradio
  | appEui => exact congrArg RadioModule.appEui hradio
  | appKey => exact congrArg RadioModule.appKey hradio
  | flash => exact hnode

/-- One call: its answer is as expected, and the board holds what the call assigned. -/
theorem handler_succeeds {b : Board} (h : b.Succeeds) {op : IoOp} (hop : op.OnNodeInfo) :
    Expected op (Board.handler op b).1 ∧ (Board.handler op b).2.Succeeds ∧
      (Board.handler op b).2.held = Registers.assign b.held (op.assigns b.line) := by
  have hshift : ∀ c : Board, c.flash = b.flash → c.script.flash = b.script.flash →
      (∀ n, c.script.creates n = true) → (∀ n, (c.script.execs n).result = .success) →
      c.Succeeds := by
    intro c hflash hworks hcreates hexecs
    refine ⟨⟨?_, ?_⟩, ?_, hcreates, hexecs⟩
    · rw [hflash]
      exact h.flashWorks.found
    · rw [hworks]
      exact h.flashWorks.works
    · rw [hflash]
      exact h.erased
  cases op with
  | atCreateResp n l t =>
    simp only [Board.handler_atCreateResp, Board.createResp, if_pos (h.creates 0)]
    refine ⟨Option.some_ne_none _, ?_, rfl⟩
    exact hshift _ rfl rfl (fun n => h.creates (n + 1)) h.execs
  | atDeleteResp r => exact ⟨trivial, hshift _ rfl rfl h.creates h.execs, rfl⟩
  | atExecCmd r cmd =>
    refine ⟨h.execs 0, hshift _ rfl rfl h.creates fun n => h.execs (n + 1), ?_⟩
    have hradio : (Board.handler (.atExecCmd r cmd) b).2.radio =
        b.radio.acknowledge (b.line cmd) := by
      simp [Board.execCmd, h.execs 0]
    exact held_acknowledge (b.line cmd) hradio rfl
  | rtThreadMdelay ms => exact ⟨trivial, h, rfl⟩
  | falPartitionFind name =>
    obtain rfl : name = ascii "eeprom2" := hop
    rw [handler_find h.flashWorks]
    exact ⟨rfl, h, rfl⟩
  | falPartitionRead addr size =>
    obtain ⟨rfl, rfl⟩ : addr = 0 ∧ size = RadioInfo.size := hop
    rw [handler_read h.flashWorks]
    refine ⟨Option.some_ne_none _, ?_, rfl⟩
    exact ⟨⟨h.flashWorks.found, fun n => h.flashWorks.works (n + 1)⟩, h.erased, h.creates, h.execs⟩
  | falPartitionErase addr size =>
    obtain ⟨rfl, rfl⟩ : addr = 0 ∧ size = RadioInfo.size := hop
    rw [Board.handler_erase h.flashWorks]
    refine ⟨trivial, ⟨h.flashWorks.erase, h.erased, h.creates, h.execs⟩, ?_⟩
    exact held_nodeInfo rfl (h.erased ▸ Board.nodeInfo_eraseNodeInfo b)
  | falPartitionWrite addr data =>
    obtain ⟨rfl, info, rfl⟩ : addr = 0 ∧ ∃ info : RadioInfo, data = info.toBytes := hop
    rw [Board.handler_write h.flashWorks]
    refine ⟨trivial, ⟨h.flashWorks.write info, h.erased, h.creates, h.execs⟩, ?_⟩
    exact held_nodeInfo rfl (Board.nodeInfo_writeNodeInfo b info)

/-! ## What each thread assigns -/

/-- The calls of one whole join: `save_node_info`, and three calls for each of the six commands. -/
def joinCalls (b : Board) (info : RadioInfo) : List (Option (Store × List UInt8)) :=
  [none, some (.flash, List.replicate RadioInfo.size 0xFF), none, some (.flash, info.toBytes),
    none, some (.devEui, b.gives info .devEui), none,
    none, some (.appEui, b.gives info .appEui), none,
    none, some (.appKey, b.gives info .appKey), none] ++ List.replicate 9 none

/-- The call of a join that assigns a store for good. -/
def callOf : Store → Nat
  | .flash => 3
  | .devEui => 5
  | .appEui => 8
  | .appKey => 11

/-- The stores that the calls of a join assign. -/
def callStores : List (Option Store) :=
  [none, some .flash, none, some .flash, none, some .devEui, none, none, some .appEui, none, none,
    some .appKey, none] ++ List.replicate 9 none

theorem map_joinCalls (b : Board) (info : RadioInfo) :
    (joinCalls b info).map (Option.map Prod.fst) = callStores := rfl

/-- The last assignment of a join to a store is what its info gives. -/
theorem lastAt_joinCalls (b : Board) (info : RadioInfo) (st : Store) :
    Registers.LastAt st (joinCalls b info) (callOf st) (b.gives info st) where
  assigns := by cases st <;> rfl
  last m v h := by
    have hstore : callStores[m]? = some (some st) := by
      rw [← map_joinCalls b info, List.getElem?_map, h]
      rfl
    have hlt : m < 22 := (List.getElem?_eq_some_iff.mp hstore).1
    have hlast : ∀ st, ∀ m < 22, callStores[m]? = some (some st) → m ≤ callOf st := by
      intro st
      cases st <;> decide
    exact hlast st m hlt hstore

theorem lastAt_cons {st : Store} {calls : List (Option (Store × List UInt8))} {n : Nat}
    {v : List UInt8} (h : Registers.LastAt st calls n v) :
    Registers.LastAt st (none :: calls) (n + 1) v where
  assigns := h.assigns
  last m v' hm := by
    cases m with
    | zero => cases hm
    | succ m => exact Nat.succ_le_succ (h.last m v' hm)

/-- What a join stores in the flash. -/
theorem flash_mem_joinCalls {b : Board} {info : RadioInfo} {bs : List UInt8}
    (h : some (Store.flash, bs) ∈ joinCalls b info) :
    bs = List.replicate RadioInfo.size 0xFF ∨ bs = info.toBytes := by
  simpa [joinCalls] using h

/-- The calls `ops` of a program make these assignments, and touch no other part of the flash. -/
structure Issues (b : Board) (calls : List (Option (Store × List UInt8))) (ops : List IoOp) :
    Prop where
  onNodeInfo : ∀ op ∈ ops, op.OnNodeInfo
  assigns : ops.map (IoOp.assigns b.line) = calls

variable {b : Board}

theorem Issues.nil : Issues b [] [] := ⟨by simp, rfl⟩

theorem Issues.append {calls calls' : List (Option (Store × List UInt8))} {ops ops' : List IoOp}
    (h : Issues b calls ops) (h' : Issues b calls' ops') :
    Issues b (calls ++ calls') (ops ++ ops') where
  onNodeInfo op hop := by
    rcases List.mem_append.mp hop with hop | hop
    · exact h.onNodeInfo op hop
    · exact h'.onNodeInfo op hop
  assigns := by rw [List.map_append, h.assigns, h'.assigns]

/-- The three calls of an acknowledged command. -/
def commandCalls (b : Board) (cmd : List UInt8) : List (Option (Store × List UInt8)) :=
  [none, lineAssigns (b.line cmd), none]

/-- The first three commands of a join assign one component each. -/
theorem commandCalls_otaa (b : Board) (value : List UInt8) :
    commandCalls b (otaaCommand (ascii "AT+DEVEUI=") value) =
        [none, some (.devEui, (b.line (otaaCommand (ascii "AT+DEVEUI=") value)).drop 10), none] ∧
      commandCalls b (otaaCommand (ascii "AT+APPEUI=") value) =
        [none, some (.appEui, (b.line (otaaCommand (ascii "AT+APPEUI=") value)).drop 10), none] ∧
      commandCalls b (otaaCommand (ascii "AT+APPKEY=") value) =
        [none, some (.appKey, (b.line (otaaCommand (ascii "AT+APPKEY=") value)).drop 10), none] := by
  have hdev := b.prefix_line_otaaCommand (ascii "AT+DEVEUI=") value (by decide) (by decide)
    (by decide)
  have happ := b.prefix_line_otaaCommand (ascii "AT+APPEUI=") value (by decide) (by decide)
    (by decide)
  have hkey := b.prefix_line_otaaCommand (ascii "AT+APPKEY=") value (by decide) (by decide)
    (by decide)
  have hnot {line name : List UInt8} (h : name <+: line) (name' : List UInt8) :=
    RadioModule.not_isPrefixOf h name'
  refine ⟨?_, ?_, ?_⟩
  · rw [commandCalls, lineAssigns, if_pos (List.isPrefixOf_iff_prefix.mpr hdev)]
  · rw [commandCalls, lineAssigns, if_neg (hnot happ (ascii "AT+DEVEUI=") (by decide) (by decide)),
      if_pos (List.isPrefixOf_iff_prefix.mpr happ)]
  · rw [commandCalls, lineAssigns, if_neg (hnot hkey (ascii "AT+DEVEUI=") (by decide) (by decide)),
      if_neg (hnot hkey (ascii "AT+APPEUI=") (by decide) (by decide)),
      if_pos (List.isPrefixOf_iff_prefix.mpr hkey)]

/-- The other three assign nothing. -/
theorem commandCalls_behindOtaa (b : Board) :
    commandCalls b autojoinCommand = [none, none, none] ∧
      commandCalls b (ascii "AT+JOIN=60,1") = [none, none, none] ∧
      commandCalls b (ascii "AT+JOIN") = [none, none, none] := by
  obtain ⟨hauto, hset, hjoin⟩ := line_behindOtaa b
  have hnone : lineAssigns autojoinCommand = none := by
    rw [autojoinCommand, cstr_strcatM (by decide)]
    simp [lineAssigns, ascii]
  rw [commandCalls, commandCalls, commandCalls, hauto, hset, hjoin, hnone]
  exact ⟨rfl, rfl, rfl⟩

theorem joinCalls_eq (b : Board) (info : RadioInfo) :
    joinCalls b info = [none, some (.flash, List.replicate RadioInfo.size 0xFF), none,
      some (.flash, info.toBytes)] ++
        (joinCommands info.OTAA).flatMap fun c => commandCalls b c.2 := by
  obtain ⟨hauto, hset, hjoin⟩ := commandCalls_behindOtaa b
  simp only [joinCommands, List.flatMap_cons, List.flatMap_nil, hauto, hset, hjoin,
    (commandCalls_otaa b _).1, (commandCalls_otaa b _).2.1, (commandCalls_otaa b _).2.2]
  rfl

theorem ensures_sendCommand (b : Board) (bufSize : Nat) (cmd : List UInt8) :
    (sendCommand bufSize cmd).Ensures Expected fun ops re =>
      re = .ok ∧ Issues b (commandCalls b cmd) ops := by
  simp only [sendCommand, atCreateResp, atExecCmd, atDeleteResp, Prog.ask_bind]
  intro r hr
  cases r with
  | none => exact absurd rfl hr
  | some resp =>
    intro re hre
    have hre : re.result = .success := hre
    simp only [hre, ExecResult.code]
    intro _ _
    exact ⟨rfl, by simp [IoOp.OnNodeInfo], rfl⟩

theorem ensures_sendAll (b : Board) (cs : List (Nat × List UInt8)) :
    (sendAll cs).Ensures Expected fun ops re =>
      re = .ok ∧ Issues b (cs.flatMap fun c => commandCalls b c.2) ops := by
  induction cs with
  | nil => exact ⟨rfl, .nil⟩
  | cons c cs ih =>
    refine (ensures_sendCommand b c.1 c.2).bind ?_
    intro ops re hcommand
    obtain ⟨rfl, hops⟩ := hcommand
    refine ih.mono ?_
    intro ops' re hrest
    obtain ⟨hre, hops'⟩ := hrest
    rw [List.flatMap_cons]
    exact ⟨hre, hops.append hops'⟩

theorem ensures_saveNodeInfo (b : Board) (info : RadioInfo) :
    (saveNodeInfo info).Ensures Expected fun ops _ =>
      Issues b [none, some (.flash, List.replicate RadioInfo.size 0xFF), none,
        some (.flash, info.toBytes)] ops := by
  simp only [saveNodeInfo, falPartitionFind, falPartitionErase, rtThreadMdelay, falPartitionWrite,
    Prog.ask_bind]
  intro found hfound
  obtain rfl : found = true := hfound
  intro _ _ _ _ _ _
  refine ⟨?_, rfl⟩
  simp [IoOp.OnNodeInfo]

theorem ensures_raidoJoinGiven (b : Board) (info : RadioInfo) :
    (raidoJoinGiven true info).Ensures Expected fun ops _ => Issues b (joinCalls b info) ops := by
  rw [raidoJoinGiven_eq_sendAll, if_pos rfl, joinCalls_eq]
  refine (ensures_saveNodeInfo b info).bind ?_
  intro ops _ hops
  refine (ensures_sendAll b (joinCommands info.OTAA)).mono ?_
  intro ops' re hsent
  exact hops.append hsent.2

theorem ensures_shell (b : Board) (name : CString) (args : OtaaArgs) (useInfo : RadioInfo) :
    (radioSet true useInfo [name, args.deveui, args.appeui, args.appkey]).Ensures Expected
      fun ops _ => Issues b (joinCalls b args.info) ops := by
  rw [radioSet_args]
  refine (ensures_raidoJoinGiven b args.info).bind ?_
  intro ops _ hops
  rw [Prog.pure_eq, Prog.Ensures, List.append_nil]
  exact hops

/-! ## The radio thread up to its read -/

/-- Behind the read: the thread joins with an info whose `appEui` is empty. -/
def radioJoinRead (info : RadioInfo) : Prog Io Unit :=
  if info.OTAA.appEui.head? = some 0 then do
    let _ ← raidoJoinGiven true info
  else return

/-- Before the read. -/
def radioReads (useInfo : RadioInfo) : Prog Io Unit :=
  @Prog.call Io Unit (.falPartitionRead 0 RadioInfo.size) fun
    | some ⟨bs, hsize⟩ => radioJoinRead (RadioInfo.ofBytes bs hsize)
    | none => radioJoinRead useInfo

/-- The radio thread makes two calls of its own in front of a join. -/
theorem radioJoin_eq (useInfo : RadioInfo) :
    radioJoin useInfo = @Prog.call Io Unit (.falPartitionFind (ascii "eeprom2")) fun found =>
      if found then radioReads useInfo else .ret () := by
  rw [radioJoin, raidoJoinConfigJoin, if_pos rfl]
  simp only [readNodeInfo, falPartitionFind, falPartitionRead, Prog.ask_bind, Prog.call_bind]
  congr 1
  funext found
  cases found with
  | false => rfl
  | true =>
    simp only [if_true, radioReads, Prog.call_bind]
    congr 1
    funext r
    cases r with
    | none =>
      by_cases hhead : useInfo.OTAA.appEui.head? = some 0
      · simp [radioJoinRead, hhead, Prog.bind_assoc]
      · simp [radioJoinRead, hhead]
    | some bs =>
      by_cases hhead : (RadioInfo.ofBytes bs.1 bs.2).OTAA.appEui.head? = some 0
      · simp [radioJoinRead, hhead, Prog.bind_assoc]
      · simp [radioJoinRead, hhead]

/-! ## Interleaved -/

theorem Board.length_nodeInfo (b : Board) : b.nodeInfo.length = RadioInfo.size := Memory.length_read

/-- The info a thread joins with: the one typed at the shell, the one found in flash. -/
def joinInfo (b : Board) (args : OtaaArgs) : Thread → RadioInfo
  | .shell => args.info
  | .radio => RadioInfo.ofBytes b.nodeInfo b.length_nodeInfo

/-- The radio thread finds the info that was in flash at first: its `appEui` is empty, and when the
thread reads it the shell has not made its erase, the second of its calls. -/
def Finds (info : RadioInfo) (schedule : List Thread) : Prop :=
  info.OTAA.appEui.head? = some 0 ∧ ¬ Registers.Follows schedule .radio 1 .shell 1

/-- The calls of the radio thread. -/
structure RadioCalls (b : Board) (info : RadioInfo) (schedule : List Thread)
    (calls : List (Option (Store × List UInt8))) : Prop where
  found : Finds info schedule → calls = none :: none :: joinCalls b info
  missed : ¬ Finds info schedule → calls = [none, none]

/-- Where the radio thread is, by the calls it has made. -/
inductive RadioStage (b : Board) (infoB useInfo : RadioInfo) (s : JoinSys) : Prop where
  | asks (hown : Registers.own .radio s.log = []) (hprog : s.prog .radio = radioJoin useInfo)
  | reads (hown : Registers.own .radio s.log = [none]) (hprog : s.prog .radio = radioReads useInfo)
  | joins (hread : 2 ≤ (s.log.map Prod.fst).count .radio)
      (hends : (s.prog .radio).Ensures Expected fun ops _ => (∀ op ∈ ops, op.OnNodeInfo) ∧
        RadioCalls b infoB (s.log.map Prod.fst)
          (Registers.own .radio s.log ++ ops.map (IoOp.assigns b.line)))

/-- What holds at every point of the two joins that started on `b`: the stores are as the
assignments so far left them, and each thread goes on to complete its own calls. -/
structure JoinInv (b : Board) (args : OtaaArgs) (useInfo : RadioInfo) (s : JoinSys) : Prop where
  succeeds : s.board.Succeeds
  line : s.board.line = b.line
  held : s.board.held = Registers.replay b.held s.log
  shell : (s.prog .shell).Ensures Expected fun ops _ => (∀ op ∈ ops, op.OnNodeInfo) ∧
    Registers.own .shell s.log ++ ops.map (IoOp.assigns b.line) = joinCalls b args.info
  radio : RadioStage b (joinInfo b args .radio) useInfo s

section Interleaved

variable {args : OtaaArgs} {useInfo : RadioInfo} {s s' : JoinSys}

theorem joinInv_start (h : b.Succeeds) (name : CString) (shellInfo radioInfo : RadioInfo) :
    JoinInv b args radioInfo (.start b name args shellInfo radioInfo) where
  succeeds := h
  line := rfl
  held := rfl
  shell := (ensures_shell b name args shellInfo).mono fun _ _ hops =>
    ⟨hops.onNodeInfo, hops.assigns⟩
  radio := .asks rfl rfl

/-- A program that is about to make a call goes on behind it as it would have. -/
theorem ensures_call {α : Type} {op : IoOp} {k : op.Ans → Prog Io α} {Q : List IoOp → α → Prop}
    (h : Prog.Ensures Expected (@Prog.call Io α op k) fun ops a =>
      (∀ op ∈ ops, op.OnNodeInfo) ∧ Q ops a) :
    op.OnNodeInfo ∧ ∀ r, Expected op r → (k r).Ensures Expected fun ops a =>
      (∀ op ∈ ops, op.OnNodeInfo) ∧ Q (op :: ops) a := by
  constructor
  · obtain ⟨r, hr⟩ := expected_total op
    obtain ⟨ops, a, hops, -⟩ := (h r hr).exists expected_total
    exact hops op List.mem_cons_self
  · intro r hr
    refine (h r hr).mono fun ops a hQ => ?_
    exact ⟨fun op' hmem => hQ.1 op' (List.mem_cons_of_mem _ hmem), hQ.2⟩

/-- The shell has made the first calls of its join. -/
theorem JoinInv.shell_prefix (h : JoinInv b args useInfo s) :
    Registers.own .shell s.log <+: joinCalls b args.info := by
  obtain ⟨ops, _, -, hcalls⟩ := h.shell.exists expected_total
  exact ⟨_, hcalls⟩

/-- What the radio thread reads: the first info until the shell has erased it, then the shell's or
nothing. -/
theorem JoinInv.nodeInfo (h : JoinInv b args useInfo s)
    (hown : Registers.own .radio s.log = [none]) :
    ((s.log.map Prod.fst).count .shell ≤ 1 → s.board.nodeInfo = b.nodeInfo) ∧
      (1 < (s.log.map Prod.fst).count .shell →
        s.board.nodeInfo = List.replicate RadioInfo.size 0xFF ∨
          s.board.nodeInfo = args.info.toBytes) := by
  have hflash : s.board.nodeInfo = Registers.replay b.held s.log .flash := congrFun h.held .flash
  have hradio : ∀ v, (Thread.radio, some (Store.flash, v)) ∉ s.log := by
    intro v hmem
    have hmem := Registers.mem_own.mpr hmem
    rw [hown] at hmem
    simp at hmem
  have hprefix := h.shell_prefix
  have hget : ∀ n < (Registers.own .shell s.log).length,
      (Registers.own .shell s.log)[n]? = (joinCalls b args.info)[n]? := by
    intro n hn
    obtain ⟨rest, hrest⟩ := hprefix
    rw [← hrest, List.getElem?_append_left hn]
  rw [← Registers.length_own, hflash]
  constructor
  · intro hshort
    apply Registers.replay_of_not_assigned
    rintro ⟨t, a⟩ hmem v rfl
    cases t with
    | radio => exact hradio v hmem
    | shell =>
      -- the first call of the shell assigns nothing
      obtain ⟨n, hn⟩ := List.getElem?_of_mem (Registers.mem_own.mpr hmem)
      have hlt : n < (Registers.own .shell s.log).length := (List.getElem?_eq_some_iff.mp hn).1
      have hzero : n = 0 := by omega
      rw [hget n hlt, hzero] at hn
      cases hn
  · intro hlong
    have herase : (Registers.own .shell s.log)[1]? =
        some (some (.flash, List.replicate RadioInfo.size 0xFF)) := hget 1 hlong
    obtain ⟨u, w, hu, hw⟩ := Registers.exists_replay_eq
      (r := b.held) (Registers.mem_own.mp (List.mem_of_getElem? herase))
    rw [hw]
    cases u with
    | radio => exact absurd hu (hradio w)
    | shell => exact flash_mem_joinCalls ( hprefix.subset (Registers.mem_own.mpr hu))

/-- A call of the shell. -/
theorem JoinInv.shell_step (h : JoinInv b args useInfo s) {op : IoOp} {k : op.Ans → Prog Io Unit}
    (hprog : s.prog .shell = .call op k) :
    JoinInv b args useInfo
      { prog := Function.update s.prog .shell (k (Board.handler op s.board).1)
        board := (Board.handler op s.board).2
        log := s.log ++ [(.shell, op.assigns s.board.line)] } := by
  have hnext := h.shell
  rw [hprog] at hnext
  obtain ⟨hop, hnext⟩ := ensures_call hnext
  obtain ⟨hexpected, hsucceeds, hheld⟩ := handler_succeeds h.succeeds hop
  refine ⟨hsucceeds, (Board.line_handler op s.board).trans h.line, ?_, ?_, ?_⟩
  · rw [Registers.replay_append, ← h.held]
    exact hheld
  · simp only [Function.update_self]
    refine (hnext _ hexpected).mono fun ops _ hrest => ⟨hrest.1, ?_⟩
    rw [Registers.own_append, Registers.own_singleton, if_pos rfl, List.append_assoc, h.line]
    exact hrest.2
  · have hown : Registers.own .radio (s.log ++ [(.shell, op.assigns s.board.line)]) =
        Registers.own .radio s.log := by
      rw [Registers.own_append, Registers.own_singleton, if_neg (by decide), List.append_nil]
    cases h.radio with
    | asks hasks hradio => exact .asks (hown.trans hasks) hradio
    | reads hreads hradio => exact .reads (hown.trans hreads) hradio
    | joins hread hends =>
      have hfinds : Finds (joinInfo b args .radio) (s.log.map Prod.fst ++ [.shell]) ↔
          Finds (joinInfo b args .radio) (s.log.map Prod.fst) := by
        rw [Finds, Finds, Registers.follows_concat]
        simp
      refine .joins ?_ ?_
      · rw [List.map_append, List.count_append]
        exact Nat.le_add_right_of_le hread
      · simp only [Function.update_of_ne (by decide : Thread.radio ≠ .shell), hown]
        refine hends.mono fun ops _ hrest => ⟨hrest.1, ?_⟩
        rw [List.map_append, List.map_singleton]
        exact ⟨fun hf => hrest.2.found (hfinds.mp hf), fun hf => hrest.2.missed (mt hfinds.mpr hf)⟩

theorem ofBytes_congr {bs bs' : List UInt8} (h : bs = bs') (hlen : bs.length = RadioInfo.size)
    (hlen' : bs'.length = RadioInfo.size) :
    RadioInfo.ofBytes bs hlen = RadioInfo.ofBytes bs' hlen' := by
  subst h
  rfl

/-- With its read the radio thread finds the first info, or one whose `appEui` is not empty. -/
theorem JoinInv.read (h : JoinInv b args useInfo s) (hown : Registers.own .radio s.log = [none]) :
    (Finds (joinInfo b args .radio) (s.log.map Prod.fst ++ [.radio]) →
      (joinInfo b args .radio).OTAA.appEui.head? = some 0 ∧
        RadioInfo.ofBytes s.board.nodeInfo s.board.length_nodeInfo = joinInfo b args .radio) ∧
    (¬ Finds (joinInfo b args .radio) (s.log.map Prod.fst ++ [.radio]) →
      (RadioInfo.ofBytes s.board.nodeInfo s.board.length_nodeInfo).OTAA.appEui.head? ≠ some 0) := by
  have hcount : (s.log.map Prod.fst).count Thread.radio = 1 := by
    rw [← Registers.length_own, hown]
    rfl
  have hfollows : Registers.Follows (s.log.map Prod.fst ++ [.radio]) .radio 1 .shell 1 ↔
      1 < (s.log.map Prod.fst).count .shell := by
    rw [Registers.follows_concat,
      or_iff_right (Registers.not_follows_of_count_le (Nat.le_of_eq hcount))]
    simp [hcount]
  obtain ⟨hfirst, hlater⟩ := h.nodeInfo hown
  have hsame : (s.log.map Prod.fst).count Thread.shell ≤ 1 →
      RadioInfo.ofBytes s.board.nodeInfo s.board.length_nodeInfo = joinInfo b args .radio :=
    fun hshort => ofBytes_congr (hfirst hshort) s.board.length_nodeInfo b.length_nodeInfo
  rw [Finds, hfollows, Nat.not_lt]
  constructor
  · intro hfinds
    exact ⟨hfinds.1, hsame hfinds.2⟩
  · intro hmisses
    rcases Nat.lt_or_ge 1 ((s.log.map Prod.fst).count Thread.shell) with hlong | hshort
    · rcases hlater hlong with herased | hshell
      · rw [ofBytes_congr herased _ List.length_replicate]
        exact RadioInfo.erased_appEui_head _
      · rw [ofBytes_congr hshell _ args.info.length_toBytes, RadioInfo.ofBytes_toBytes]
        exact args.appEui_head
    · rw [hsame hshort]
      exact fun hhead => hmisses ⟨hhead, hshort⟩

/-- A call of the radio thread. -/
theorem JoinInv.radio_step (h : JoinInv b args useInfo s) {op : IoOp} {k : op.Ans → Prog Io Unit}
    (hprog : s.prog .radio = .call op k) :
    JoinInv b args useInfo
      { prog := Function.update s.prog .radio (k (Board.handler op s.board).1)
        board := (Board.handler op s.board).2
        log := s.log ++ [(.radio, op.assigns s.board.line)] } := by
  have hshell : Registers.own .shell (s.log ++ [(.radio, op.assigns s.board.line)]) =
      Registers.own .shell s.log := by
    rw [Registers.own_append, Registers.own_singleton, if_neg (by decide), List.append_nil]
  have hown : Registers.own .radio (s.log ++ [(.radio, op.assigns s.board.line)]) =
      Registers.own .radio s.log ++ [op.assigns b.line] := by
    rw [Registers.own_append, Registers.own_singleton, if_pos rfl, h.line]
  have hrest (hop : op.OnNodeInfo) (hradio : RadioStage b (joinInfo b args .radio) useInfo
      { prog := Function.update s.prog .radio (k (Board.handler op s.board).1)
        board := (Board.handler op s.board).2
        log := s.log ++ [(.radio, op.assigns s.board.line)] }) :
      JoinInv b args useInfo
        { prog := Function.update s.prog .radio (k (Board.handler op s.board).1)
          board := (Board.handler op s.board).2
          log := s.log ++ [(.radio, op.assigns s.board.line)] } := by
    obtain ⟨-, hsucceeds, hheld⟩ := handler_succeeds h.succeeds hop
    refine ⟨hsucceeds, (Board.line_handler op s.board).trans h.line, ?_, ?_, hradio⟩
    · rw [Registers.replay_append, ← h.held]
      exact hheld
    · simp only [Function.update_of_ne (by decide : Thread.shell ≠ .radio), hshell]
      exact h.shell
  cases h.radio with
  | asks hasks hradio =>
    rw [hradio, radioJoin_eq] at hprog
    cases hprog
    refine hrest rfl (.reads ?_ ?_)
    · rw [hown, hasks]
      rfl
    · simp only [Function.update_self, handler_find h.succeeds.flashWorks, if_true]
  | reads hreads hradio =>
    rw [hradio, radioReads] at hprog
    cases hprog
    obtain ⟨hfound, hmissed⟩ := h.read hreads
    refine hrest ⟨rfl, rfl⟩ (.joins ?_ ?_)
    · rw [← Registers.length_own, hown, hreads]
      exact Nat.le_refl 2
    · simp only [Function.update_self, handler_read h.succeeds.flashWorks, hown, hreads,
        List.map_append, List.map_singleton]
      by_cases hfinds : Finds (joinInfo b args .radio) (s.log.map Prod.fst ++ [.radio])
      · obtain ⟨hhead, hinfo⟩ := hfound hfinds
        rw [hinfo, radioJoinRead, if_pos hhead]
        refine (ensures_raidoJoinGiven b _).bind fun ops _ hops => ?_
        rw [Prog.pure_eq, Prog.Ensures, List.append_nil, hops.assigns]
        exact ⟨hops.onNodeInfo, fun _ => rfl, fun hnot => absurd hfinds hnot⟩
      · rw [radioJoinRead, if_neg (hmissed hfinds)]
        exact ⟨by simp, fun hf => absurd hf hfinds, fun _ => rfl⟩
  | joins hread hends =>
    rw [hprog] at hends
    obtain ⟨hop, hnext⟩ := ensures_call hends
    obtain ⟨hexpected, -, -⟩ := handler_succeeds h.succeeds hop
    have hfinds : Finds (joinInfo b args .radio) (s.log.map Prod.fst ++ [.radio]) ↔
        Finds (joinInfo b args .radio) (s.log.map Prod.fst) := by
      have hlast : (s.log.map Prod.fst).count Thread.radio ≠ 1 := by omega
      rw [Finds, Finds, Registers.follows_concat]
      simp [hlast]
    refine hrest hop (.joins ?_ ?_)
    · rw [List.map_append, List.count_append]
      exact Nat.le_add_right_of_le hread
    · simp only [Function.update_self]
      refine (hnext _ hexpected).mono fun ops _ hends => ⟨hends.1, ?_⟩
      rw [hown, List.append_assoc, List.map_append, List.map_singleton]
      exact ⟨fun hf => hends.2.found (hfinds.mp hf), fun hf => hends.2.missed (mt hfinds.mpr hf)⟩

theorem JoinInv.step {t : Thread} (h : JoinInv b args useInfo s) (hstep : s.step t = some s') :
    JoinInv b args useInfo s' := by
  obtain ⟨op, k, hprog, rfl⟩ := JoinSys.step_eq hstep
  cases t with
  | shell => exact h.shell_step hprog
  | radio => exact h.radio_step hprog

/-- The thread that is the last to assign a store: the radio thread if it finds an info and makes its
call for the store when the shell has made its own. Two calls are in front of the radio thread's
join. -/
def LastToAssign (info : RadioInfo) (schedule : List Thread) (st : Store) : Thread → Prop
  | .radio => Finds info schedule ∧
    Registers.Follows schedule .radio (callOf st + 2) .shell (callOf st)
  | .shell => ¬ (Finds info schedule ∧
    Registers.Follows schedule .radio (callOf st + 2) .shell (callOf st))

theorem LastToAssign.unique {info : RadioInfo} {schedule : List Thread} {st : Store} {t u : Thread}
    (ht : LastToAssign info schedule st t) (hu : LastToAssign info schedule st u) : t = u := by
  cases t with
  | shell =>
    cases u with
    | shell => rfl
    | radio => exact absurd hu ht
  | radio =>
    cases u with
    | shell => exact absurd ht hu
    | radio => rfl

/-- Once both threads have returned, a store holds what the last of them to assign it gives it. -/
theorem JoinInv.final (h : JoinInv b args useInfo s) (hdone : ∀ t, (s.prog t).returned = true)
    (st : Store) : ∃ u, LastToAssign (joinInfo b args .radio) (s.log.map Prod.fst) st u ∧
      s.board.held st = b.gives (joinInfo b args u) st := by
  have hret : ∀ t, s.prog t = .ret () := by
    intro t
    have := hdone t
    cases hp : s.prog t with
    | ret _ => rfl
    | call op k =>
      rw [hp] at this
      cases this
  have hshell : Registers.own .shell s.log = joinCalls b args.info := by
    have hends := h.shell
    rw [hret] at hends
    simpa using hends.2
  have hradio : RadioCalls b (joinInfo b args .radio) (s.log.map Prod.fst)
      (Registers.own .radio s.log) := by
    cases h.radio with
    | asks hasks hprog =>
      rw [hret, radioJoin_eq] at hprog
      cases hprog
    | reads hreads hprog =>
      rw [hret, radioReads] at hprog
      cases hprog
    | joins hread hends =>
      rw [hret] at hends
      simpa using hends.2
  have hlast : Registers.LastAt st (Registers.own .shell s.log) (callOf st)
      (b.gives args.info st) := hshell ▸ lastAt_joinCalls b args.info st
  have hfound (hf : Finds (joinInfo b args .radio) (s.log.map Prod.fst)) :
      Registers.LastAt st (Registers.own .radio s.log) (callOf st + 2)
        (b.gives (joinInfo b args .radio) st) :=
    hradio.found hf ▸ lastAt_cons (lastAt_cons (lastAt_joinCalls b _ st))
  rw [h.held]
  by_cases hbehind : Finds (joinInfo b args .radio) (s.log.map Prod.fst) ∧
      Registers.Follows (s.log.map Prod.fst) .radio (callOf st + 2) .shell (callOf st)
  · refine ⟨.radio, hbehind, Registers.replay_of_follows (hfound hbehind.1) fun t' ht => .inr ?_⟩
    cases t' with
    | shell => exact ⟨_, _, hlast, hbehind.2⟩
    | radio => exact absurd rfl ht
  · refine ⟨.shell, hbehind, Registers.replay_of_follows hlast fun t' ht => ?_⟩
    cases t' with
    | shell => exact absurd rfl ht
    | radio =>
      by_cases hf : Finds (joinInfo b args .radio) (s.log.map Prod.fst)
      · refine .inr ⟨_, _, hfound hf, ?_⟩
        have hcount {t : Thread} {n : Nat} {v : List UInt8}
            (hl : Registers.LastAt st (Registers.own t s.log) n v) :
            n < (s.log.map Prod.fst).count t := by
          rw [← Registers.length_own]
          exact (List.getElem?_eq_some_iff.mp hl.assigns).1
        have htotal := Registers.follows_total (by decide : Thread.radio ≠ .shell)
          (hcount (hfound hf)) (hcount hlast)
        exact htotal.resolve_left fun hfollows => hbehind ⟨hf, hfollows⟩
      · refine .inl fun v hmem => ?_
        rw [hradio.missed hf] at hmem
        simp at hmem

end Interleaved

/-- The end of two joins on a board where everything succeeds. -/
theorem joins_held {b : Board} (h : b.Succeeds) (name : CString) (args : OtaaArgs)
    (shellInfo radioInfo : RadioInfo) {schedule : List Thread} {s : JoinSys}
    (hrun : Transition.run JoinSys.step (.start b name args shellInfo radioInfo) schedule = some s)
    (hdone : ∀ t, (s.prog t).returned = true) (st : Store) :
    ∃ u, LastToAssign (joinInfo b args .radio) schedule st u ∧
      s.board.held st = b.gives (joinInfo b args u) st := by
  have hinv : JoinInv b args radioInfo s :=
    Transition.run_invariant (fun _ _ _ => JoinInv.step) (joinInv_start h name _ _) hrun
  have hthreads : s.log.map Prod.fst = schedule := JoinSys.log_threads hrun
  rw [← hthreads]
  exact hinv.final hdone st

/-- A plain info is what its join puts into the stores. -/
theorem AtRadioInfo.Plain.gives {info : RadioInfo} (h : info.OTAA.Plain) (b : Board) (st : Store) :
    b.gives info st = info.value st := by
  cases st with
  | flash => rfl
  | devEui => exact congrArg RadioModule.devEui (h.given b)
  | appEui => exact congrArg RadioModule.appEui (h.given b)
  | appKey => exact congrArg RadioModule.appKey (h.given b)

/-- For two plain infos that differ in every store, the identity is one exactly if one thread is the
last to assign all stores. -/
theorem joins_agree_plain_iff {b : Board} (h : b.Succeeds) (name : CString) (args : OtaaArgs)
    (shellInfo radioInfo : RadioInfo) {schedule : List Thread} {s : JoinSys}
    (hrun : Transition.run JoinSys.step (.start b name args shellInfo radioInfo) schedule = some s)
    (hdone : ∀ t, (s.prog t).returned = true) (hplain : ∀ t, (joinInfo b args t).OTAA.Plain)
    (hdiffer : ∀ st, (joinInfo b args .shell).value st ≠ (joinInfo b args .radio).value st) :
    (∃ t, ∀ st, s.board.held st = (joinInfo b args t).value st) ↔
      ∃ t, ∀ st, LastToAssign (joinInfo b args .radio) schedule st t := by
  apply exists_congr
  intro t
  apply forall_congr'
  intro st
  obtain ⟨u, hu, hval⟩ := joins_held h name args shellInfo radioInfo hrun hdone st
  rw [hval, (hplain u).gives]
  constructor
  · intro hsame
    have htu : u = t := by
      cases u with
      | shell =>
        cases t with
        | shell => rfl
        | radio => exact absurd hsame (hdiffer st)
      | radio =>
        cases t with
        | shell => exact absurd hsame.symm (hdiffer st)
        | radio => rfl
    exact htu ▸ hu
  · intro ht
    rw [hu.unique ht]

end ControlBoard
