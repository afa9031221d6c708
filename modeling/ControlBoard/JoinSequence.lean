import ControlBoard.Reconfigure

/-!
# The sequence of `radio_set`

Which commands `radio_set` hands to `at_exec_cmd`, in which order, and what comes back: the
six commands of `raido_join_config_join` up to the first step that fails, and the error of
that step. From the same facts, what `raido_join_config_join(RT_NULL)` makes of a saved info.
-/

namespace ControlBoard

/-! ## The first failure -/

/-- What step `i` of a sequence of commands returns if the steps before it went through. -/
def Script.stepResult (s : Script) (i : Nat) : AtError :=
  if s.creates i = true then
    match (s.execs i).result with
    | .success => .ok
    | .statusError => .sendError
    | .timeout => .sendTimeout
  else .creatResp

/-- Of `n` steps, `k` is the first that fails; it is `n` if none does. -/
structure Script.FirstFailure (s : Script) (n k : Nat) : Prop where
  le : k ≤ n
  before : ∀ i < k, s.stepResult i = .ok
  fails : k < n → s.stepResult k ≠ .ok

theorem Script.stepResult_eq_ok {s : Script} {i : Nat} :
    s.stepResult i = .ok ↔ s.creates i = true ∧ (s.execs i).result = .success := by
  unfold stepResult
  by_cases hc : s.creates i = true
  · rw [if_pos hc]
    cases (s.execs i).result <;> simp [hc]
  · rw [if_neg hc]
    simp [hc]

theorem Script.firstFailure_zero {s : Script} (h : s.stepResult 0 ≠ .ok) (n : Nat) :
    s.FirstFailure n 0 where
  le := Nat.zero_le n
  before i hi := absurd hi (Nat.not_lt_zero i)
  fails _ := h

/-- Behind a step that went through, the rest of the script counts. -/
theorem Script.FirstFailure.succ {s : Script} {n k : Nat} (hzero : s.stepResult 0 = .ok)
    (h : s.dropCreate.dropExec.FirstFailure n k) : s.FirstFailure (n + 1) (k + 1) where
  le := Nat.succ_le_succ h.le
  before i hi := by
    cases i with
    | zero => exact hzero
    | succ i => exact h.before i (Nat.lt_of_succ_lt_succ hi)
  fails hk := h.fails (Nat.lt_of_succ_lt_succ hk)

/-- How many of a sequence of commands are executed if step `k` is the first that fails: that
step executes its own unless it has no response object. -/
def Script.issued (s : Script) (n k : Nat) : Nat :=
  if k < n ∧ s.creates k = true then k + 1 else k

/-- The commands up to the first failure are executed, and its error is returned. -/
theorem sendAll_sequence (cs : List (Nat × List UInt8)) (b : Board) :
    ∃ k, b.script.FirstFailure cs.length k ∧
      ((sendAll cs).run Board.handler b).1 =
        (if k < cs.length then b.script.stepResult k else .ok) ∧
      ((sendAll cs).run Board.handler b).2.sent =
        b.sent ++ (cs.map Prod.snd).take (b.script.issued cs.length k) := by
  induction cs generalizing b with
  | nil =>
    refine ⟨0, ⟨Nat.le_refl 0, ?_, fun h => absurd h (Nat.lt_irrefl 0)⟩, rfl, by simp [sendAll]⟩
    exact fun i hi => absurd hi (Nat.not_lt_zero i)
  | cons c cs ih =>
    rw [sendAll, Prog.run_bind]
    rcases sendCommand_cases c.1 c.2 b with ⟨hc, h⟩ | ⟨hc, hr, h⟩ | ⟨hc, hr, h⟩ | ⟨hc, hr, h⟩
    · have hstep : b.script.stepResult 0 = .creatResp := by simp [Script.stepResult, hc]
      refine ⟨0, Script.firstFailure_zero (by simp [hstep]) _, ?_, ?_⟩
      · simp [h, hstep]
      · simp [h, Script.issued, hc, Board.noMemory]
    · have hstep : b.script.stepResult 0 = .sendError := by simp [Script.stepResult, hc, hr]
      refine ⟨0, Script.firstFailure_zero (by simp [hstep]) _, ?_, ?_⟩
      · simp [h, hstep]
      · simp [h, Script.issued, hc, Board.issue]
    · have hstep : b.script.stepResult 0 = .sendTimeout := by simp [Script.stepResult, hc, hr]
      refine ⟨0, Script.firstFailure_zero (by simp [hstep]) _, ?_, ?_⟩
      · simp [h, hstep]
      · simp [h, Script.issued, hc, Board.issue]
    · have hstep : b.script.stepResult 0 = .ok := Script.stepResult_eq_ok.mpr ⟨hc, hr⟩
      obtain ⟨k, hfirst, hret, hsent⟩ := ih ((b.issue c.2).release b.resps.next)
      have hscript : ((b.issue c.2).release b.resps.next).script =
          b.script.dropCreate.dropExec := rfl
      have hsent₀ : ((b.issue c.2).release b.resps.next).sent = b.sent ++ [c.2] := rfl
      rw [hscript] at hfirst hret hsent
      simp only [h, ne_eq, not_true_eq_false, if_false]
      refine ⟨k + 1, hfirst.succ hstep, ?_, ?_⟩
      · rw [hret, List.length_cons]
        simp only [Nat.succ_lt_succ_iff]
        rfl
      · have hissued : b.script.issued (c :: cs).length (k + 1) =
            b.script.dropCreate.dropExec.issued cs.length k + 1 := by
          simp only [Script.issued, List.length_cons, Nat.succ_lt_succ_iff]
          split
          · rw [if_pos ‹_›]
          · rw [if_neg ‹_›]
        rw [hsent, hsent₀, hissued, List.map_cons, List.take_succ_cons, List.append_assoc]
        rfl

/-- Nothing of it depends on what the flash does. -/
theorem Script.stepResult_congr {s t : Script} (hc : s.creates = t.creates)
    (he : s.execs = t.execs) : s.stepResult = t.stepResult := by
  funext i
  simp only [stepResult, hc, he]

/-! ## The six commands -/

/-- The commands of a join for accepted arguments. -/
def OtaaArgs.commands (args : OtaaArgs) : List (List UInt8) :=
  [ascii "AT+DEVEUI=" ++ args.deveui.1, ascii "AT+APPEUI=" ++ args.appeui.1,
    ascii "AT+APPKEY=" ++ args.appkey.1, ascii "AT+AUTOJOIN=1", ascii "AT+JOIN=60,1",
    ascii "AT+JOIN"]

theorem map_joinCommands (args : OtaaArgs) :
    (joinCommands args.info.OTAA).map Prod.snd = args.commands := by
  have htexts := RadioModule.ofInfo_args args
  simp only [RadioModule.ofInfo, RadioModule.mk.injEq] at htexts
  obtain ⟨hdeveui, happeui, happkey⟩ := htexts
  have hauto : autojoinCommand = ascii "AT+AUTOJOIN=1" := by decide
  simp only [joinCommands, List.map_cons, List.map_nil, OtaaArgs.commands, hauto]
  rw [otaaCommand_eq (by decide), otaaCommand_eq (by decide), otaaCommand_eq (by decide), hdeveui,
    happeui, happkey]

/-- The arguments fit the arrays of `info`, and the texts with them the arrays that they are
appended in. -/
structure OtaaArgs.CommandsFit (args : OtaaArgs) : Prop where
  devEui : Holds 17 args.info.OTAA.devEui args.deveui.1
  appEui : Holds 17 args.info.OTAA.appEui args.appeui.1
  appKey : Holds 33 args.info.OTAA.appKey args.appkey.1
  devEuiCommand : Holds 100
    (strcatM (charArray 100 (ascii "AT+DEVEUI=")) args.info.OTAA.fromDevEui)
    (ascii "AT+DEVEUI=" ++ args.deveui.1)
  appEuiCommand : Holds 100
    (strcatM (charArray 100 (ascii "AT+APPEUI=")) args.info.OTAA.fromAppEui)
    (ascii "AT+APPEUI=" ++ args.appeui.1)
  appKeyCommand : Holds 100
    (strcatM (charArray 100 (ascii "AT+APPKEY=")) args.info.OTAA.fromAppKey)
    (ascii "AT+APPKEY=" ++ args.appkey.1)
  autojoinCommand : Holds 50
    (strcatM (charArray 50 (ascii "AT+AUTOJOIN=")) (charArray 2 (ascii "1")))
    (ascii "AT+AUTOJOIN=1")

theorem OtaaArgs.commandsFit (args : OtaaArgs) : args.CommandsFit where
  devEui := ⟨args.info.OTAA.devEui_length, [], rfl⟩
  appEui := ⟨args.info.OTAA.appEui_length, [], rfl⟩
  appKey := ⟨args.info.OTAA.appKey_length, [], rfl⟩
  devEuiCommand := by
    simp only [info, AtRadioInfo.fromDevEui, List.append_assoc, List.singleton_append]
    apply holds_strcatM (by decide) args.deveui.2
    rw [args.deveui_length]
    decide
  appEuiCommand := by
    simp only [info, AtRadioInfo.fromAppEui, List.append_assoc, List.singleton_append]
    apply holds_strcatM (by decide) args.appeui.2
    rw [args.appeui_length]
    decide
  appKeyCommand := by
    simp only [info, AtRadioInfo.fromAppKey]
    apply holds_strcatM (by decide) args.appkey.2
    rw [args.appkey_length]
    decide
  autojoinCommand := holds_strcatM (by decide) (by decide) (by decide) []

/-! ## `raido_join_config_join` -/

/-- The result and the commands of a join: those up to the first step that fails, and the error
of that step. -/
structure JoinOutcome (s : Script) (args : OtaaArgs) (ret : AtError) (issued : List (List UInt8)) :
    Prop where
  upToFailure : ∃ k, s.FirstFailure 6 k ∧ ret = (if k < 6 then s.stepResult k else .ok) ∧
    issued = args.commands.take (s.issued 6 k)
  ok_iff : ret = .ok ↔ issued = args.commands ∧ ∀ i < 6, s.stepResult i = .ok

/-- Behind the flash it is the sequence, on a board with the same answers to come. -/
theorem raidoJoinGiven_run (fal : Bool) (info : RadioInfo) (b : Board) :
    ∃ b' : Board, (raidoJoinGiven fal info).run Board.handler b =
        (sendAll (joinCommands info.OTAA)).run Board.handler b' ∧
      b'.script.creates = b.script.creates ∧ b'.script.execs = b.script.execs ∧
      b'.sent = b.sent := by
  rw [raidoJoinGiven_eq_sendAll]
  cases fal with
  | true =>
    obtain ⟨-, hcreates, hexecs, hsent⟩ := saveNodeInfo_frame info b
    refine ⟨_, ?_, hcreates, hexecs, hsent⟩
    rw [if_pos rfl, Prog.run_bind]
  | false => exact ⟨b, rfl, rfl, rfl, rfl⟩

theorem raidoJoinConfigJoin_outcome (fal : Bool) (useInfo : RadioInfo) (args : OtaaArgs)
    (b : Board) :
    let final := (raidoJoinConfigJoin fal useInfo (some args.info)).run Board.handler b
    ∃ issued, final.2.sent = b.sent ++ issued ∧ JoinOutcome b.script args final.1 issued := by
  intro final
  obtain ⟨b', hfinal, hcreates, hexecs, hsent'⟩ := raidoJoinGiven_run fal args.info b
  have hfinal : final = (sendAll (joinCommands args.info.OTAA)).run Board.handler b' := hfinal
  obtain ⟨k, hfirst, hret, hsent⟩ := sendAll_sequence (joinCommands args.info.OTAA) b'
  have hlen : (joinCommands args.info.OTAA).length = 6 := rfl
  have hstep := Script.stepResult_congr hcreates hexecs
  have hissued : b'.script.issued 6 k = b.script.issued 6 k := by
    simp only [Script.issued, hcreates]
  rw [hlen] at hfirst hret hsent
  rw [hstep] at hret
  rw [hsent', map_joinCommands, hissued] at hsent
  have hfirst' : b.script.FirstFailure 6 k :=
    ⟨hfirst.le, fun i hi => hstep ▸ hfirst.before i hi, fun hk => hstep ▸ hfirst.fails hk⟩
  rw [hfinal]
  refine ⟨_, hsent, ⟨k, hfirst', hret, rfl⟩, ?_⟩
  rw [hret]
  by_cases hk : k < 6
  · rw [if_pos hk]
    constructor
    · intro h
      exact absurd h (hfirst'.fails hk)
    · intro h
      exact h.2 k hk
  · have hsix : k = 6 := by
      have := hfirst'.le
      omega
    subst hsix
    rw [if_neg hk]
    refine iff_of_true rfl ⟨?_, hfirst'.before⟩
    rw [Script.issued, if_neg (by omega)]
    rfl

/-- `radio_set`: without three arguments of the lengths 16, 16 and 32 nothing happens at all, no
command and no save. With them the six commands go out in order up to the first step that fails,
each fits the array it is built in, and `raido_join_config_join` returns the error of that step,
and 0 exactly if all six were executed with success. -/
theorem radioSet_sequence (fal : Bool) (useInfo : RadioInfo) (argv : List CString) (b : Board) :
    ((¬ ∃ name deveui appeui appkey : CString, argv = [name, deveui, appeui, appkey] ∧
        deveui.1.length = 16 ∧ appeui.1.length = 16 ∧ appkey.1.length = 32) →
      (radioSet fal useInfo argv).run Board.handler b = ((), b)) ∧
    ∀ (name : CString) (args : OtaaArgs), argv = [name, args.deveui, args.appeui, args.appkey] →
      let join := (raidoJoinConfigJoin fal useInfo (some args.info)).run Board.handler b
      (radioSet fal useInfo argv).run Board.handler b = ((), join.2) ∧ args.CommandsFit ∧
      ∃ issued, join.2.sent = b.sent ++ issued ∧ JoinOutcome b.script args join.1 issued := by
  refine ⟨?_, ?_⟩
  · intro hnot
    unfold radioSet
    split
    · rename_i name deveui appeui appkey
      split
      · rfl
      · split
        · rfl
        · split
          · rfl
          · rename_i hd ha hk
            exact absurd ⟨name, deveui, appeui, appkey, rfl, not_not.mp hd, not_not.mp ha,
              not_not.mp hk⟩ hnot
    · rfl
  · intro name args hargv
    refine ⟨?_, args.commandsFit, raidoJoinConfigJoin_outcome fal useInfo args b⟩
    rw [hargv, radioSet_args, Prog.run_bind]
    rfl

/-! ## Joining with the saved info -/

/-- `read_node_info` returns 0 only for an info whose `appEui` is empty, and it sends nothing. -/
theorem readNodeInfo_zero (x : RadioInfo) (b : Board) :
    let final := (readNodeInfo x).run Board.handler b
    (final.1.1 = 0 → final.1.2.OTAA.appEui.head? = some 0) ∧ final.2.sent = b.sent ∧
      final.2.script.creates = b.script.creates ∧ final.2.script.execs = b.script.execs := by
  have htest (u : RadioInfo) (c : Board) :
      let end_ := (if u.OTAA.appEui.head? ≠ some 0 then return (3, u) else return (0, u) :
        Prog Io (Int × RadioInfo)).run Board.handler c
      (end_.1.1 = 0 → end_.1.2.OTAA.appEui.head? = some 0) ∧ end_.2.sent = c.sent ∧
        end_.2.script.creates = c.script.creates ∧ end_.2.script.execs = c.script.execs := by
    by_cases hhead : u.OTAA.appEui.head? = some 0
    · simp [hhead]
    · simp [hhead]
  have hfind : (Board.handler (.falPartitionFind (ascii "eeprom2")) b).2 = b := rfl
  simp only [readNodeInfo, falPartitionFind, falPartitionRead, Prog.ask_bind, Prog.run_call, hfind]
  split
  · exact htest _ _
  · exact ⟨fun h => by simp at h, rfl, rfl, rfl⟩

/-- The commands for an info with an empty `appEui` are not those for accepted arguments. -/
theorem map_joinCommands_ne {info : AtRadioInfo} (h : info.appEui.head? = some 0)
    (args : OtaaArgs) : (joinCommands info).map Prod.snd ≠ args.commands := by
  intro heq
  have hempty : cstr info.fromAppEui = [] := by
    obtain ⟨rest, hrest⟩ := List.head?_eq_some_iff.mp h
    simp [AtRadioInfo.fromAppEui, hrest, cstr]
  have hsecond := congrArg (fun cmds => cmds[1]?) heq
  simp only [joinCommands, OtaaArgs.commands, List.map_cons, List.getElem?_cons_succ,
    List.getElem?_cons_zero, Option.some_inj] at hsecond
  rw [otaaCommand_eq (by decide), List.append_cancel_left_eq, hempty] at hsecond
  have hlen := args.appeui_length
  rw [← hsecond] at hlen
  cases hlen

/-- Whatever it finds, `raido_join_config_join(RT_NULL)` returns 0, and it does not send the
commands for accepted arguments. -/
theorem raidoJoinConfigJoin_null (useInfo : RadioInfo) (b : Board) :
    let final := (raidoJoinConfigJoin true useInfo none).run Board.handler b
    final.1 = .ok ∧ ((∀ i < 6, b.script.stepResult i = .ok) → ∀ args : OtaaArgs,
      final.2.sent ≠ b.sent ++ args.commands) := by
  obtain ⟨hzero, hsent, hcreates, hexecs⟩ := readNodeInfo_zero useInfo b
  simp only [raidoJoinConfigJoin, if_true, Prog.run_bind]
  generalize (readNodeInfo useInfo).run Board.handler b = r at hzero hsent hcreates hexecs
  split
  · rename_i hret
    obtain ⟨b', hrun, hcreates', hexecs', hsent'⟩ := raidoJoinGiven_run true r.1.2 r.2
    refine ⟨by simp [Prog.run_bind], fun hall args => ?_⟩
    obtain ⟨k, hfirst, -, hissued⟩ := sendAll_sequence (joinCommands r.1.2.OTAA) b'
    have hstep : b'.script.stepResult = b.script.stepResult :=
      Script.stepResult_congr (hcreates'.trans hcreates) (hexecs'.trans hexecs)
    have hsix : (joinCommands r.1.2.OTAA).length ≤ k := by
      by_contra hk
      exact hfirst.fails (by omega) (hstep ▸ hall k (by simp [joinCommands] at hk; omega))
    have hall' : ((joinCommands r.1.2.OTAA).map Prod.snd).take
        (b'.script.issued (joinCommands r.1.2.OTAA).length k) =
          (joinCommands r.1.2.OTAA).map Prod.snd := by
      apply List.take_of_length_le
      rw [List.length_map, Script.issued, if_neg (by omega)]
      exact hsix
    rw [Prog.run_bind, hrun, Prog.pure_eq, Prog.run_ret, hissued, hall', hsent', hsent]
    intro heq
    exact map_joinCommands_ne (hzero hret) args (List.append_cancel_left heq)
  · refine ⟨rfl, fun _ args heq => ?_⟩
    have hnone : b.sent ++ args.commands = b.sent := heq.symm.trans hsent
    simp [OtaaArgs.commands] at hnone

/-- What `raido_join_config_join(RT_NULL)` is for. With a saved info in flash it does what
`raido_join_config_join(&info)` does, command by command, and returns the same; with none it
sends nothing and returns an error. Either way the saved info stays. -/
structure ReplaysSaved (useInfo : RadioInfo) (b : Board) : Prop where
  saved : ∀ args : OtaaArgs, b.nodeInfo = args.info.toBytes →
    ((raidoJoinConfigJoin true useInfo none).run Board.handler b).1 =
        ((raidoJoinConfigJoin true useInfo (some args.info)).run Board.handler b).1 ∧
      ((raidoJoinConfigJoin true useInfo none).run Board.handler b).2.sent =
        ((raidoJoinConfigJoin true useInfo (some args.info)).run Board.handler b).2.sent
  none_saved : (∀ args : OtaaArgs, b.nodeInfo ≠ args.info.toBytes) →
    ((raidoJoinConfigJoin true useInfo none).run Board.handler b).1 ≠ .ok ∧
      ((raidoJoinConfigJoin true useInfo none).run Board.handler b).2.sent = b.sent
  kept : ((raidoJoinConfigJoin true useInfo none).run Board.handler b).2.nodeInfo = b.nodeInfo

/-- It does so for no content of the flash and no outcome of the commands. -/
theorem not_replaysSaved (useInfo : RadioInfo) (b : Board) : ¬ ReplaysSaved useInfo b := by
  intro h
  obtain ⟨hret, hsent⟩ := raidoJoinConfigJoin_null useInfo b
  by_cases hsaved : ∃ args : OtaaArgs, b.nodeInfo = args.info.toBytes
  · obtain ⟨args, hargs⟩ := hsaved
    obtain ⟨issued, hissued, houtcome⟩ := raidoJoinConfigJoin_outcome true useInfo args b
    obtain ⟨hsame, hsame'⟩ := h.saved args hargs
    -- 0 is the result of the other call only if all its commands went through
    obtain ⟨hall, hsteps⟩ := houtcome.ok_iff.mp (hsame.symm.trans hret)
    exact hsent hsteps args (hsame'.trans (hall ▸ hissued))
  · have hnone := h.none_saved fun args hargs => hsaved ⟨args, hargs⟩
    exact hnone.1 hret

/-- A board whose flash holds the info of the comment above `radio_set`. -/
def Board.configured : Board := ((saveNodeInfo OtaaArgs.sample.info).run handler factory).2

/-- Nothing is sent for a saved info, and the result is 0 all the same. -/
theorem saved_not_replayed :
    Board.configured.nodeInfo = OtaaArgs.sample.info.toBytes ∧
      ¬ ReplaysSaved OtaaArgs.sample.info Board.configured := by
  have hsaved : Board.configured.nodeInfo = OtaaArgs.sample.info.toBytes := by
    rw [Board.configured, saveNodeInfo_run Board.factory_flashWorks]
    exact Board.nodeInfo_writeNodeInfo _ _
  have hauto : ((raidoJoinConfigJoin true OtaaArgs.sample.info none).run Board.handler
      Board.configured).2.sent = [] := by
    decide +kernel
  have hgiven : ((raidoJoinConfigJoin true OtaaArgs.sample.info
      (some OtaaArgs.sample.info)).run Board.handler Board.configured).2.sent.length = 6 := by
    decide +kernel
  refine ⟨hsaved, fun h => ?_⟩
  rw [← (h.saved .sample hsaved).2, hauto] at hgiven
  cases hgiven

end ControlBoard
