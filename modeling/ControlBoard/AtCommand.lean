import ControlBoard.Board

/-!
# Commands on the board

What a single `sendCommand` does to the board, case by case, and what a sequence of them does
that stops at the first one that is not acknowledged.
-/

namespace ControlBoard

namespace Board

/-- `at_create_resp` returned `RT_NULL`. -/
def noMemory (b : Board) : Board := { b with script := b.script.dropCreate }

/-- A response object was created and the command executed. -/
def issue (b : Board) (cmd : List UInt8) : Board :=
  { b with
    resps := b.resps.create
    radio :=
      if (b.script.execs 0).result = .success then b.radio.acknowledge (b.line cmd) else b.radio
    script := b.script.dropCreate.dropExec
    output := (b.writeLine cmd).2
    sent := b.sent ++ [cmd] }

/-- The object that `issue` created was deleted again. -/
def release (b : Board) (resp : Nat) : Board := { b with resps := b.resps.delete resp }

end Board

/-! ## The line of a command -/

namespace Board

variable {b : Board} {cmd name : List UInt8}

theorem line_of_output {o : Format.Output} (h : Format.output b.script.convert cmd = some o) :
    b.line cmd = (b.output.afterCommand o).line := by
  rw [line, writeLine, atExecOutput_eq, h, Option.map_some]

theorem line_of_undefined (h : Format.output b.script.convert cmd = none) :
    b.line cmd = cmd.takeWhile (· ≠ 37) ++ b.script.undefined cmd := by
  rw [line, writeLine, atExecOutput_eq, h, Option.map_none]

/-- A command without a percent sign that fits `send_buf` is the line. -/
theorem line_plain (h : 37 ∉ cmd) (hlen : cmd.length < atCmdMaxLen) : b.line cmd = cmd := by
  rw [line_of_output ((Format.output_verbatim_iff b.script.convert cmd).mpr h)]
  exact b.output.line_afterCommand hlen

/-- What stands in front of the first percent sign begins the line. -/
theorem prefix_line (h : 37 ∉ name) (hlen : name.length < atCmdMaxLen) (value : List UInt8) :
    name <+: b.line (name ++ value) := by
  have hcopied := Format.render_append_plain b.script.convert h value 0
  cases ho : Format.output b.script.convert (name ++ value) with
  | none =>
    have hplain : ∀ c ∈ name, (decide (c ≠ 37)) = true := by
      intro c hc
      rw [decide_eq_true_eq]
      rintro rfl
      exact h hc
    rw [line_of_undefined ho, List.takeWhile_append_of_pos hplain, List.append_assoc]
    exact List.prefix_append name _
  | some o =>
    rw [← Format.output, ho] at hcopied
    obtain ⟨rest, -, rfl⟩ := Option.map_eq_some_iff.mp hcopied.symm
    rw [line_of_output ho]
    exact b.output.prefix_line hlen (List.prefix_append name rest.text)

/-- Two boards print commands alike. -/
structure PrintsAlike (b c : Board) : Prop where
  convert : c.script.convert = b.script.convert
  undefined : c.script.undefined = b.script.undefined
  output : c.output.SameBehind b.output

theorem PrintsAlike.line {c : Board} (h : PrintsAlike b c) : c.line = b.line := by
  funext cmd
  cases ho : Format.output b.script.convert cmd with
  | none =>
    have ho' : Format.output c.script.convert cmd = none := by rw [h.convert, ho]
    rw [line_of_undefined ho, line_of_undefined ho', h.undefined]
  | some o =>
    have ho' : Format.output c.script.convert cmd = some o := by rw [h.convert, ho]
    rw [line_of_output ho, line_of_output ho']
    exact AtOutput.line_congr h.output o

theorem writeLine_sameBehind (b : Board) (cmd : List UInt8) :
    (b.writeLine cmd).2.SameBehind b.output := by
  rw [writeLine, atExecOutput_eq]
  cases Format.output b.script.convert cmd with
  | none => exact fun _ _ => rfl
  | some o => exact b.output.afterCommand_sameBehind o

/-- A call leaves the lines of the commands to come as they are. -/
theorem line_handler (op : IoOp) (b : Board) : (Board.handler op b).2.line = b.line := by
  apply PrintsAlike.line
  cases op with
  | atExecCmd r cmd => exact ⟨rfl, rfl, b.writeLine_sameBehind cmd⟩
  | atCreateResp n l t =>
    rw [handler_atCreateResp, createResp]
    split
    · exact ⟨rfl, rfl, fun _ _ => rfl⟩
    · exact ⟨rfl, rfl, fun _ _ => rfl⟩
  | _ => exact ⟨rfl, rfl, fun _ _ => rfl⟩

end Board

/-- Everything one command can do. -/
theorem sendCommand_cases (bufSize : Nat) (cmd : List UInt8) (b : Board) :
    (b.script.creates 0 = false ∧
      (sendCommand bufSize cmd).run Board.handler b = (.creatResp, b.noMemory)) ∨
    (b.script.creates 0 = true ∧ (b.script.execs 0).result = .statusError ∧
      (sendCommand bufSize cmd).run Board.handler b = (.sendError, b.issue cmd)) ∨
    (b.script.creates 0 = true ∧ (b.script.execs 0).result = .timeout ∧
      (sendCommand bufSize cmd).run Board.handler b = (.sendTimeout, b.issue cmd)) ∨
    (b.script.creates 0 = true ∧ (b.script.execs 0).result = .success ∧
      (sendCommand bufSize cmd).run Board.handler b =
        (.ok, (b.issue cmd).release b.resps.next)) := by
  simp only [sendCommand, atCreateResp, atExecCmd, atDeleteResp, Prog.ask_bind, Prog.run_call,
    Board.handler_atCreateResp, Board.createResp]
  cases hc : b.script.creates 0 with
  | false => exact .inl ⟨rfl, rfl⟩
  | true =>
    right
    cases hr : (b.script.execs 0).result with
    | success =>
      refine .inr (.inr ⟨rfl, rfl, ?_⟩)
      simp [Board.execCmd, Board.issue, Board.release, Board.line, Board.writeLine, hr,
        Script.dropCreate, ExecResult.code]
    | statusError =>
      refine .inl ⟨rfl, rfl, ?_⟩
      simp [Board.execCmd, Board.issue, Board.writeLine, hr, Script.dropCreate, ExecResult.code]
    | timeout =>
      refine .inr (.inl ⟨rfl, rfl, ?_⟩)
      simp [Board.execCmd, Board.issue, Board.writeLine, hr, Script.dropCreate, ExecResult.code]

/-! ## Sequences of commands -/

/-- The commands one after the other, up to the first that does not return `AT_OK`. -/
def sendAll : List (Nat × List UInt8) → Prog Io AtError
  | [] => return .ok
  | c :: cs => do
    let re ← sendCommand c.1 c.2
    if re ≠ .ok then return re
    sendAll cs

/-- Where a sequence is cut, its second part follows the first if that went through. -/
theorem sendAll_append (cs ds : List (Nat × List UInt8)) :
    sendAll (cs ++ ds) = (do
      let re ← sendAll cs
      if re ≠ .ok then return re
      sendAll ds) := by
  induction cs with
  | nil => simp [sendAll]
  | cons c cs ih =>
    simp only [List.cons_append, sendAll, ih, Prog.bind_assoc]
    congr 1
    funext re
    split
    · simp_all
    · rfl

theorem sendAll_singleton (bufSize : Nat) (cmd : List UInt8) :
    sendAll [(bufSize, cmd)] = sendCommand bufSize cmd := by
  have hret : (fun re : AtError => if re ≠ .ok then (pure re : Prog Io AtError) else sendAll []) =
      pure := by
    funext re
    by_cases h : re = .ok
    · simp [h, sendAll]
    · simp [h]
  rw [sendAll, hret, Prog.bind_pure]

end ControlBoard
