import ControlBoard.Board

/-!
# Replies to the two queries

`at_radio_get_statue` and `at_radio_find_uart_config` test the result of their parse against
`RT_NULL`, so only a scan that is reported as one without a field counts as a failure: a line that
is not there (-1) and a line with too few fields pass for success. What the first then compares is
a local array that nothing was stored in, or one too small for half of the names it is compared
with.
-/

namespace ControlBoard

/-- A query on this board gets a response object, and its command ends with the reply `re`. -/
structure Board.Answers (b : Board) (re : ExecReply) : Prop where
  creates : b.script.creates 0 = true
  replies : b.script.execs 0 = re
  success : re.result = .success

variable {b : Board} {re : ExecReply}

/-! ## The status -/

/-- The word behind the first colon of a line that has text before it. -/
def wordBehindColon (line : List UInt8) : Option (List UInt8) :=
  if line.head? = some 58 then none
  else
    let word := (((line.dropWhile (· ≠ 58)).drop 1).dropWhile isSpace).takeWhile fun c => !isSpace c
    if word = [] then none else some word

/-- `%*[^:]:%s` assigns that word, or nothing: then the input has ended, except where the line
begins with the colon. -/
theorem scan_statueExpr (line : List UInt8) :
    scan statueExpr line =
      match wordBehindColon line with
      | none => ([], decide (line.head? ≠ some 58))
      | some word => ([.str word], false) := by
  unfold statueExpr wordBehindColon
  rw [scan]
  by_cases hhead : line.head? = some 58
  · have hne : line ≠ [] := by
      rintro rfl
      cases hhead
    rw [if_pos (.inl hhead), if_pos hhead]
    simp [hhead, hne]
  · rw [if_neg hhead]
    cases hrest : line.dropWhile (· ≠ 58) with
    | nil =>
      -- there is no colon
      rw [scan]
      split <;> simp_all
    | cons c rest =>
      have hcolon : c = 58 := by
        have := List.head?_dropWhile_not (· ≠ 58) line
        rw [hrest] at this
        simpa using this
      have hne : line ≠ [] := by
        intro hnil
        rw [hnil] at hrest
        cases hrest
      rw [if_neg (by simp [hhead, hne]), scan, hcolon, List.head?_cons, if_pos rfl,
        List.tail_cons, List.drop_one, List.tail_cons, scan]
      simp only
      split
      · simp [hhead]
      · rw [scan]

/-- What the module says of its state: the word behind the colon of the first line that contains
`+STATUE`. -/
def replyToken (re : ExecReply) : Option (List UInt8) :=
  (atRespGetLineByKw re (ascii "+STATUE")).bind wordBehindColon

/-- A query of the status reports success exactly for a token, and the status is then told by the
token alone. -/
def StatueTruthful (re : ExecReply) (statue : AtRadioStatue)
    (out : Option (AtError × AtRadioStatue)) : Prop :=
  out = some (match replyToken re with
    | some token => (.ok, (statueOfName token).getD statue)
    | none => (.parseKw, statue))

variable {eof : Int}

/-- A line with `+STATUE` that has no token is refused if it begins with the colon, or if the end
of the input counts as no field. -/
def StatueRefused (eof : Int) (re : ExecReply) : Prop :=
  ∃ line ∈ atRespGetLineByKw re (ascii "+STATUE"),
    wordBehindColon line = none ∧ (line.head? = some 58 ∨ eof = 0)

/-- The fields of the scan for the status are its token. -/
theorem parseLineArgsByKw_statue (eof : Int) (re : ExecReply) :
    (atRespParseLineArgsByKw eof re (ascii "+STATUE") statueExpr).2 =
      ((replyToken re).map ScanField.str).toList := by
  rw [atRespParseLineArgsByKw, replyToken]
  cases atRespGetLineByKw re (ascii "+STATUE") with
  | none => rfl
  | some line =>
    rw [parseLine, vsscanf, scan_statueExpr, Option.bind_some]
    cases wordBehindColon line with
    | none => rfl
    | some word => rfl

/-- The scan for the status counts no field exactly for a line that is refused. -/
theorem parseLineArgsByKw_eq_zero :
    (atRespParseLineArgsByKw eof re (ascii "+STATUE") statueExpr).1 = 0 ↔
      StatueRefused eof re := by
  rw [atRespParseLineArgsByKw, StatueRefused]
  cases atRespGetLineByKw re (ascii "+STATUE") with
  | none => simp [parseLine]
  | some line =>
    rw [parseLine, vsscanf, scan_statueExpr]
    cases hword : wordBehindColon line with
    | none =>
      by_cases hhead : line.head? = some 58
      · simp [hword, hhead]
      · simp [hword, hhead]
    | some word => simp [hword]

theorem StatueRefused.noToken (h : StatueRefused eof re) : replyToken re = none := by
  obtain ⟨line, hline, hword, -⟩ := h
  rw [replyToken, Option.mem_def.mp hline, Option.bind_some, hword]

/-- The end of a query that is answered. -/
theorem getStatue_run (h : b.Answers re) (str : List UInt8) (statue : AtRadioStatue) :
    (StatueRefused eof re → ((atRadioGetStatue eof str statue).run Board.handler b).1 =
      some (.parseKw, statue)) ∧
    (¬ StatueRefused eof re → ((atRadioGetStatue eof str statue).run Board.handler b).1 =
      match replyToken re with
      | some token =>
        if token.length < 10 then some (.ok, (statueOfName token).getD statue) else none
      | none => some (.ok, (statueOfName str).getD statue)) := by
  have hre : b.script.dropCreate.execs 0 = re := h.replies
  have hfields := parseLineArgsByKw_statue eof re
  simp only [atRadioGetStatue, atCreateResp, atExecCmd, atDeleteResp, Prog.ask_bind, Prog.run_call,
    Board.handler_atCreateResp, Board.createResp, h.creates, if_true, Board.handler_atExecCmd,
    Board.execCmd, hre, h.success, ExecResult.code, hfields, ← parseLineArgsByKw_eq_zero]
  constructor
  · intro hzero
    simp [hzero]
  · intro hcount
    cases htoken : replyToken re with
    | none => simp [hcount, FitsStr, storeStr]
    | some token =>
      simp only [hcount, if_false, Option.map_some, Option.toList_some, FitsStr, storeStr,
        List.head?_cons]
      rfl

/-- A status query is truthful exactly if the reply has a token of at most nine characters, or its
line is refused. -/
theorem getStatue_truthful_iff (h : b.Answers re) (str : List UInt8) (statue : AtRadioStatue) :
    StatueTruthful re statue ((atRadioGetStatue eof str statue).run Board.handler b).1 ↔
      (∃ token ∈ replyToken re, token.length ≤ 9) ∨ StatueRefused eof re := by
  rw [StatueTruthful]
  by_cases hrefused : StatueRefused eof re
  · rw [(getStatue_run h str statue).1 hrefused, hrefused.noToken]
    exact iff_of_true rfl (.inr hrefused)
  · rw [(getStatue_run h str statue).2 hrefused, or_iff_left hrefused]
    cases htoken : replyToken re with
    | none => simp
    | some token =>
      by_cases hlen : token.length < 10
      · simp [hlen, Nat.le_of_lt_succ hlen]
      · have hlong : ¬ token.length ≤ 9 := by omega
        simp [hlen, hlong]

/-! ## The UART configuration -/

/-- A scan for numbers assigns numbers, and at most one for each directive. -/
theorem scan_ints {ds : List Directive} (hds : .str ∉ ds) (s : List UInt8) :
    ∃ vs : List Int, (scan ds s).1 = vs.map .int ∧ vs.length ≤ ds.count .int := by
  induction ds generalizing s with
  | nil => exact ⟨[], rfl, Nat.le_refl 0⟩
  | cons d ds ih =>
    rw [List.mem_cons, not_or] at hds
    cases d with
    | skipUntil c =>
      rw [scan]
      split
      · exact ⟨[], rfl, Nat.zero_le _⟩
      · obtain ⟨vs, hvs, hlen⟩ := ih hds.2 (s.dropWhile (· ≠ c))
        exact ⟨vs, hvs, by simpa using hlen⟩
    | lit c =>
      rw [scan]
      split
      · obtain ⟨vs, hvs, hlen⟩ := ih hds.2 s.tail
        exact ⟨vs, hvs, by simpa using hlen⟩
      · exact ⟨[], rfl, Nat.zero_le _⟩
    | int =>
      rw [scan]
      cases scanInt (s.dropWhile isSpace) with
      | none => exact ⟨[], rfl, Nat.zero_le _⟩
      | some r =>
        obtain ⟨vs, hvs, hlen⟩ := ih hds.2 r.2
        refine ⟨r.1 :: vs, ?_, ?_⟩
        · simp only [hvs, List.map_cons]
        · simp only [List.length_cons, List.count_cons_self]
          omega
    | str => exact absurd rfl hds.1

/-- The numbers that the scan of line 1 assigns. -/
def uartNumbers (re : ExecReply) : List Int :=
  (((atRespGetLine re 1).map fun line => (scan uartExpr line).1).getD []).filterMap fun
    | .int v => some v
    | .str _ => none

/-- A query of the UART configuration reports success exactly if line 1 gives all five numbers,
and it fills in all or none. -/
def UartTruthful (re : ExecReply) (uartCfg : AtUartCfg) (out : AtError × AtUartCfg) : Prop :=
  out = match uartNumbers re with
    | [baudrate, databits, stopbits, parity, control] =>
      (.ok, ⟨baudrate, databits, stopbits, parity, control⟩)
    | _ => (.parseLine, uartCfg)

theorem parseLineArgs_uart (eof : Int) (re : ExecReply) :
    (atRespParseLineArgs eof re 1 uartExpr).2 = (uartNumbers re).map .int ∧
      (uartNumbers re).length ≤ 5 := by
  have hints : ∃ vs : List Int, (atRespParseLineArgs eof re 1 uartExpr).2 = vs.map .int ∧
      ((atRespGetLine re 1).map fun line => (scan uartExpr line).1).getD [] = vs.map .int ∧
      vs.length ≤ 5 := by
    unfold atRespParseLineArgs
    cases atRespGetLine re 1 with
    | none => exact ⟨[], rfl, rfl, Nat.zero_le 5⟩
    | some line =>
      obtain ⟨vs, hvs, hlen⟩ := scan_ints (by decide : Directive.str ∉ uartExpr) line
      exact ⟨vs, hvs, hvs, hlen⟩
  obtain ⟨vs, hvs, hscan, hlen⟩ := hints
  have hnumbers : uartNumbers re = vs := by
    rw [uartNumbers, hscan, List.filterMap_map]
    exact List.filterMap_some
  rw [hnumbers]
  exact ⟨hvs, hlen⟩

/-- Line 1 is refused if no number is scanned from it and the scan stops at a character, or the
end of the input counts as no field. -/
def UartRefused (eof : Int) (re : ExecReply) : Prop :=
  ∃ line ∈ atRespGetLine re 1,
    (scan uartExpr line).1 = [] ∧ ((scan uartExpr line).2 = false ∨ eof = 0)

/-- The scan of line 1 counts no field exactly if the line is refused. -/
theorem parseLineArgs_eq_zero :
    (atRespParseLineArgs eof re 1 uartExpr).1 = 0 ↔ UartRefused eof re := by
  rw [atRespParseLineArgs, UartRefused]
  cases atRespGetLine re 1 with
  | none => simp [parseLine]
  | some line =>
    rw [parseLine, vsscanf]
    by_cases hnone : (scan uartExpr line).1 = []
    · by_cases hended : (scan uartExpr line).2 = true
      · simp [hnone, hended]
      · simp [hnone, hended]
    · simp [hnone]

theorem UartRefused.numbers_eq_nil (h : UartRefused eof re) : uartNumbers re = [] := by
  obtain ⟨line, hline, hfields, -⟩ := h
  rw [uartNumbers, Option.mem_def.mp hline, Option.map_some, Option.getD_some, hfields,
    List.filterMap_nil]

theorem findUartConfig_run (h : b.Answers re) (uartCfg : AtUartCfg) :
    (UartRefused eof re →
      ((atRadioFindUartConfig eof uartCfg).run Board.handler b).1 = (.parseLine, uartCfg)) ∧
    (¬ UartRefused eof re → ((atRadioFindUartConfig eof uartCfg).run Board.handler b).1 =
      (.ok, uartCfg.store ((uartNumbers re).map .int))) := by
  have hre : b.script.dropCreate.execs 0 = re := h.replies
  obtain ⟨hfields, -⟩ := parseLineArgs_uart eof re
  simp only [atRadioFindUartConfig, atCreateResp, atExecCmd, atDeleteResp, Prog.ask_bind,
    Prog.run_call, Board.handler_atCreateResp, Board.createResp, h.creates, if_true,
    Board.handler_atExecCmd, Board.execCmd, hre, h.success, ExecResult.code, hfields]
  constructor
  · intro hrefused
    have hempty : uartCfg.store [] = uartCfg := rfl
    simp [parseLineArgs_eq_zero.mpr hrefused, hrefused.numbers_eq_nil, hempty]
  · intro hkept
    simp [mt parseLineArgs_eq_zero.mp hkept]

/-- A UART query is truthful exactly if the scan of line 1 assigns all five fields, or the line is
refused. -/
theorem findUartConfig_truthful_iff (h : b.Answers re) (uartCfg : AtUartCfg) :
    UartTruthful re uartCfg ((atRadioFindUartConfig eof uartCfg).run Board.handler b).1 ↔
      (uartNumbers re).length = 5 ∨ UartRefused eof re := by
  rw [UartTruthful]
  obtain ⟨-, hlen⟩ := parseLineArgs_uart eof re
  by_cases hrefused : UartRefused eof re
  · rw [(findUartConfig_run h uartCfg).1 hrefused, hrefused.numbers_eq_nil]
    exact iff_of_true rfl (.inr hrefused)
  · rw [(findUartConfig_run h uartCfg).2 hrefused, or_iff_left hrefused]
    generalize uartNumbers re = vs at hlen
    rcases vs with _ | ⟨baudrate, _ | ⟨databits, _ | ⟨stopbits, _ | ⟨parity, _ | ⟨control, vs⟩⟩⟩⟩⟩
    · simp
    · simp
    · simp
    · simp
    · simp
    · cases vs with
      | nil => simp [AtUartCfg.store]
      | cons v vs =>
        simp only [List.length_cons] at hlen
        omega

/-- What each of the two queries does with a reply of the module. The status query is truthful
exactly if there is a token that fits `str[10]`, the UART query exactly if line 1 gives all five
numbers; and each of them if its line is refused. -/
theorem queries_truthful_iff (h : b.Answers re) (eof : Int) (str : List UInt8)
    (statue : AtRadioStatue) (uartCfg : AtUartCfg) :
    (StatueTruthful re statue ((atRadioGetStatue eof str statue).run Board.handler b).1 ↔
        (∃ token ∈ replyToken re, token.length ≤ 9) ∨ StatueRefused eof re) ∧
      (UartTruthful re uartCfg ((atRadioFindUartConfig eof uartCfg).run Board.handler b).1 ↔
        (uartNumbers re).length = 5 ∨ UartRefused eof re) :=
  ⟨getStatue_truthful_iff h str statue, findUartConfig_truthful_iff h uartCfg⟩

/-- A module that replies to every command with these lines. -/
def Board.replying (lines : List (List UInt8)) : Board :=
  { factory with
    script :=
      { factory.script with
        execs := fun _ => ⟨.success, lines.flatMap fun line => line ++ [0], lines.length⟩ } }

theorem queries_truthful_joined :
    (StatueTruthful ((Board.replying [ascii "+STATUE:LORA_JOIN"]).script.execs 0) .lose
        ((atRadioGetStatue (-1) [] .lose).run Board.handler
          (Board.replying [ascii "+STATUE:LORA_JOIN"])).1 ↔
        (∃ token ∈ replyToken ((Board.replying [ascii "+STATUE:LORA_JOIN"]).script.execs 0),
            token.length ≤ 9) ∨
          StatueRefused (-1) ((Board.replying [ascii "+STATUE:LORA_JOIN"]).script.execs 0)) ∧
      (UartTruthful ((Board.replying [ascii "+STATUE:LORA_JOIN"]).script.execs 0)
        ⟨0, 0, 0, 0, 0⟩ ((atRadioFindUartConfig (-1) ⟨0, 0, 0, 0, 0⟩).run Board.handler
          (Board.replying [ascii "+STATUE:LORA_JOIN"])).1 ↔
        (uartNumbers ((Board.replying [ascii "+STATUE:LORA_JOIN"]).script.execs 0)).length = 5 ∨
          UartRefused (-1) ((Board.replying [ascii "+STATUE:LORA_JOIN"]).script.execs 0)) :=
  queries_truthful_iff ⟨rfl, rfl, rfl⟩ (-1) [] .lose ⟨0, 0, 0, 0, 0⟩

/-- A bare `OK` makes the status what the stack happened to hold, and two numbers pass for five. -/
theorem queries_not_truthful :
    ¬ StatueTruthful ((Board.replying [ascii "OK"]).script.execs 0) .lose
        ((atRadioGetStatue 0 (ascii "LORA_JOIN") .lose).run Board.handler
          (Board.replying [ascii "OK"])).1 ∧
      ¬ UartTruthful ((Board.replying [ascii "+UART=9600,8", ascii "OK"]).script.execs 0)
        ⟨0, 0, 0, 0, 0⟩ ((atRadioFindUartConfig 0 ⟨0, 0, 0, 0, 0⟩).run Board.handler
          (Board.replying [ascii "+UART=9600,8", ascii "OK"])).1 := by
  unfold StatueTruthful UartTruthful
  refine ⟨?_, ?_⟩
  · decide +kernel
  · decide +kernel

end ControlBoard
