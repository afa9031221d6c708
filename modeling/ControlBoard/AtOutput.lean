import ControlBoard.Lib.Format
import ControlBoard.Lib.Memory

/-!
# What the AT client writes to its device

`at_vprintf` and `at_vprintfln` of `pck/at/src/at_utils.c`. The command string of
`at_obj_exec_cmd` is a printf format, so it reaches the device as it is only if it has no
percent sign and fits `send_buf`.
-/

namespace ControlBoard

/-- `AT_CMD_MAX_LEN` (`at.h`) -/
def atCmdMaxLen : Nat := 128

def crlf : List UInt8 := [13, 10]

/-- The statics of `at_utils.c` with `send_buf` as the memory from the array on, the characters
written to the device, and the number of arguments taken behind the command strings. -/
structure AtOutput where
  sendBuf : Nat → UInt8
  lastCmdLen : Nat
  written : List UInt8
  consumed : Nat

variable (convert : Format.Convert)

/-- `at_vprintf` (`at_utils.c:68-77`); none if the behaviour of `vsnprintf` is undefined. The
write has the length of the whole text, also where `send_buf` holds less of it. -/
def atVprintf (format : List UInt8) (u : AtOutput) : Option (Nat × AtOutput) :=
  (Format.vsnprintf convert atCmdMaxLen format).map fun p =>
    let sendBuf := Memory.write u.sendBuf 0 p.stored
    (p.ret,
      { sendBuf := sendBuf
        lastCmdLen := p.ret
        written := u.written ++ Memory.read sendBuf 0 p.ret
        consumed := u.consumed + p.consumed })

/-- `at_vprintfln` (`at_utils.c:79-88`) -/
def atVprintfln (format : List UInt8) (u : AtOutput) : Option (Nat × AtOutput) :=
  (atVprintf convert format u).map fun (len, u) =>
    (len + 2, { u with written := u.written ++ crlf })

/-- The output of `at_obj_exec_cmd` (`at_client.c:277-300`), which passes its `cmd_expr` on as
the format and drops the length. -/
def atExecOutput (cmd : List UInt8) (u : AtOutput) : Option AtOutput :=
  (atVprintfln convert cmd u).map Prod.snd

/-- The device is given exactly the command and a line end, no argument is taken, and
`send_buf` holds the command with its NUL. -/
structure Verbatim (cmd : List UInt8) (u u' : AtOutput) : Prop where
  written : u'.written = u.written ++ cmd ++ crlf
  consumed : u'.consumed = u.consumed
  sendBuf : Memory.read u'.sendBuf 0 (cmd.length + 1) = cmd ++ [0]
  fits : cmd.length + 1 ≤ atCmdMaxLen

/-- The statics after a command of which `vsnprintf` made `o`. -/
def AtOutput.afterCommand (u : AtOutput) (o : Format.Output) : AtOutput :=
  let sendBuf := Memory.write u.sendBuf 0 (o.text.take (atCmdMaxLen - 1) ++ [0])
  { sendBuf := sendBuf
    lastCmdLen := o.text.length
    written := u.written ++ Memory.read sendBuf 0 o.text.length ++ crlf
    consumed := u.consumed + o.consumed }

/-- The line that the last command gave, without its end. -/
def AtOutput.line (u : AtOutput) : List UInt8 := Memory.read u.sendBuf 0 u.lastCmdLen

theorem atExecOutput_eq (cmd : List UInt8) (u : AtOutput) :
    atExecOutput convert cmd u = (Format.output convert cmd).map u.afterCommand := by
  simp only [atExecOutput, atVprintfln, atVprintf, Format.vsnprintf, Option.map_map]
  rfl

/-- A text that fits is in `send_buf` with its NUL. -/
theorem AtOutput.sendBuf_afterCommand (u : AtOutput) {o : Format.Output}
    (h : o.text.length < atCmdMaxLen) :
    Memory.read (u.afterCommand o).sendBuf 0 (o.text.length + 1) = o.text ++ [0] := by
  have hcut : o.text.take (atCmdMaxLen - 1) = o.text := List.take_of_length_le (by omega)
  have hsame : Memory.read (Memory.write u.sendBuf 0 (o.text ++ [0])) 0 (o.text ++ [0]).length =
      o.text ++ [0] := Memory.read_write_same
  rw [List.length_append, List.length_singleton] at hsame
  simp only [afterCommand, hcut]
  exact hsame

/-- So that text is the line. -/
theorem AtOutput.line_afterCommand (u : AtOutput) {o : Format.Output}
    (h : o.text.length < atCmdMaxLen) : (u.afterCommand o).line = o.text := by
  have hbuf := u.sendBuf_afterCommand h
  rw [Memory.read_add] at hbuf
  exact (List.append_inj hbuf (by simp)).1

/-- And it is what the device is given. -/
theorem AtOutput.written_afterCommand (u : AtOutput) {o : Format.Output}
    (h : o.text.length < atCmdMaxLen) :
    (u.afterCommand o).written = u.written ++ o.text ++ crlf := by
  have hwritten : (u.afterCommand o).written =
      u.written ++ (u.afterCommand o).line ++ crlf := rfl
  rw [hwritten, u.line_afterCommand h]

/-- Two outputs have the same memory behind `send_buf`. -/
def AtOutput.SameBehind (u u' : AtOutput) : Prop :=
  ∀ i, atCmdMaxLen ≤ i → u.sendBuf i = u'.sendBuf i

theorem AtOutput.length_stored_le (o : Format.Output) :
    (o.text.take (atCmdMaxLen - 1) ++ [0]).length ≤ atCmdMaxLen := by
  rw [List.length_append, List.length_take, List.length_singleton, atCmdMaxLen]
  omega

/-- No command stores behind `send_buf`. -/
theorem AtOutput.afterCommand_sameBehind (u : AtOutput) (o : Format.Output) :
    (u.afterCommand o).SameBehind u := by
  intro i hi
  have hlen := length_stored_le o
  exact Memory.write_of_ge (by omega)

/-- A line that is too long for `send_buf` ends with what lies behind it, so it is the same as long
as that is. -/
theorem AtOutput.line_congr {u u' : AtOutput} (h : u.SameBehind u') (o : Format.Output) :
    (u.afterCommand o).line = (u'.afterCommand o).line := by
  by_cases hfits : o.text.length < atCmdMaxLen
  · rw [u.line_afterCommand hfits, u'.line_afterCommand hfits]
  · apply Memory.read_congr
    intro i _
    have hlen := length_stored_le o
    have hstored : (o.text.take (atCmdMaxLen - 1) ++ [0]).length = atCmdMaxLen := by
      rw [List.length_append, List.length_take, List.length_singleton, atCmdMaxLen] at *
      omega
    simp only [afterCommand, Nat.zero_add]
    rcases Nat.lt_or_ge i atCmdMaxLen with hi | hi
    · rw [Memory.write, Memory.write, dif_pos (by omega), dif_pos (by omega)]
    · rw [Memory.write_of_ge (by omega), Memory.write_of_ge (by omega)]
      exact h i hi

/-- A short beginning of the text is the beginning of the line. -/
theorem AtOutput.prefix_line (u : AtOutput) {name : List UInt8} {o : Format.Output}
    (hname : name.length < atCmdMaxLen) (h : name <+: o.text) : name <+: (u.afterCommand o).line := by
  have hlen := h.length_le
  rw [List.prefix_iff_eq_take] at h ⊢
  have hstored : name.length ≤ (o.text.take (atCmdMaxLen - 1) ++ [0]).length := by
    rw [List.length_append, List.length_take]
    omega
  rw [line, Memory.take_read]
  simp only [afterCommand, Nat.min_eq_left hlen]
  rw [Memory.read_write_take hstored,
    List.take_append_of_le_length (by rw [List.length_take]; omega), List.take_take,
    Nat.min_eq_left (by omega)]
  exact h

variable {convert} {cmd : List UInt8}

/-- A command that fits `send_buf` is written as it is exactly if it has no percent sign. -/
theorem verbatim_iff (hfits : cmd.length < atCmdMaxLen) (u : AtOutput) :
    (∃ u', atExecOutput convert cmd u = some u' ∧ Verbatim cmd u u') ↔ 37 ∉ cmd := by
  rw [atExecOutput_eq, ← Format.output_verbatim_iff convert cmd]
  constructor
  · intro h
    obtain ⟨u', hexec, h⟩ := h
    obtain ⟨o, ho, rfl⟩ := Option.map_eq_some_iff.mp hexec
    have hwritten := congrArg List.length h.written
    have hconsumed : u.consumed + o.consumed = u.consumed := h.consumed
    simp only [AtOutput.afterCommand, List.length_append, Memory.length_read] at hwritten
    have hlen : o.text.length = cmd.length := by omega
    have htext : o.text = cmd := by
      have hsame := (u.written_afterCommand (hlen ▸ hfits)).symm.trans h.written
      simpa using hsame
    have hnone : o.consumed = 0 := by omega
    rw [ho, ← htext, ← hnone]
  · intro h
    refine ⟨_, by rw [h, Option.map_some], ?_⟩
    exact
      { written := u.written_afterCommand hfits
        consumed := rfl
        sendBuf := u.sendBuf_afterCommand hfits
        fits := hfits }

end ControlBoard
