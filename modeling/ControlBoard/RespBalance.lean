import ControlBoard.AtCommand

/-!
# Response objects of the AT functions

Each function of `AT_client_radio.c` creates its response objects one after the other and
deletes each on the path that goes on; every early return in between leaves one behind. So a
call is balanced exactly when no command for which there was an object fails, and no reply
it parses matches nothing; a leaked object stays for ever, as only the function that created
it knows it.
-/

namespace ControlBoard

namespace RespPool

/-- Every object created between `p` and `q` was deleted exactly once, and what was live
before is live after. -/
structure Returned (p q : RespPool) : Prop where
  live : q.live = p.live
  next_le : p.next ≤ q.next
  once : ∀ r, p.next ≤ r → r < q.next → q.deleted.count r = 1
  others : ∀ r < p.next, q.deleted.count r = p.deleted.count r

/-- An object created between `p` and `q` was never deleted. -/
structure Leaked (p q : RespPool) : Prop where
  live : p.live.length < q.live.length
  never : ∃ r, p.next ≤ r ∧ r < q.next ∧ q.deleted.count r = 0

theorem Returned.refl (p : RespPool) : Returned p p :=
  ⟨rfl, le_rfl, fun r hle hlt => by omega, fun _ _ => rfl⟩

theorem Returned.trans {p q r : RespPool} (hpq : Returned p q) (hqr : Returned q r) :
    Returned p r where
  live := hqr.live.trans hpq.live
  next_le := hpq.next_le.trans hqr.next_le
  once x hle hlt := by
    by_cases hx : x < q.next
    · rw [hqr.others x hx]
      exact hpq.once x hle hx
    · exact hqr.once x (by omega) hlt
  others x hx := by
    rw [hqr.others x (lt_of_lt_of_le hx hpq.next_le)]
    exact hpq.others x hx

theorem Returned.leaked {p q r : RespPool} (hpq : Returned p q) (hqr : Leaked q r) :
    Leaked p r where
  live := by
    rw [← hpq.live]
    exact hqr.live
  never := by
    obtain ⟨x, hle, hlt, hcount⟩ := hqr.never
    exact ⟨x, hpq.next_le.trans hle, hlt, hcount⟩

theorem Leaked.not_once {p q : RespPool} (h : Leaked p q) :
    ¬ ∀ r, p.next ≤ r → r < q.next → q.deleted.count r = 1 := by
  obtain ⟨r, hle, hlt, hcount⟩ := h.never
  intro honce
  rw [honce r hle hlt] at hcount
  omega

theorem next_notMem_deleted (p : RespPool) : p.next ∉ p.deleted :=
  fun h => absurd (p.deleted_lt _ h) (lt_irrefl _)

theorem leaked_create (p : RespPool) : Leaked p p.create where
  live := by simp [create]
  never := ⟨p.next, le_rfl, by simp [create], List.count_eq_zero.mpr p.next_notMem_deleted⟩

theorem returned_create_delete (p : RespPool) : Returned p (p.create.delete p.next) where
  live := by simp [create, delete]
  next_le := by simp [create, delete]
  once r hle hlt := by
    have hr : r = p.next := by
      simp only [create, delete, max_self] at hlt
      omega
    subst hr
    simp [create, delete, List.count_eq_zero.mpr p.next_notMem_deleted]
  others r hr := by
    have hne : p.next ≠ r := by omega
    simp [create, delete, List.count_cons_of_ne hne]

end RespPool

/-! ## One call -/

/-- Walk through the commands of a call, each with the test its reply has to pass for the
call to go on: the first one without memory ends the walk, and none before it fails. -/
def Clean : List (ExecReply → Bool) → Script → Prop
  | [], _ => True
  | passes :: rest, s =>
    s.creates 0 = true → passes (s.execs 0) = true ∧ Clean rest s.dropCreate.dropExec

/-- The reply is neither an error nor a timeout. -/
def ExecReply.answered (re : ExecReply) : Bool := re.result = .success

/-- Both ways a call can end. -/
def Settles (tests : List (ExecReply → Bool)) (s : Script) (p q : RespPool) : Prop :=
  (Clean tests s ∧ p.Returned q) ∨ (¬ Clean tests s ∧ p.Leaked q)

theorem Settles.balanced_iff {tests : List (ExecReply → Bool)} {s : Script} {p q : RespPool}
    (h : Settles tests s p q) :
    (∀ r, p.next ≤ r → r < q.next → q.deleted.count r = 1) ↔ Clean tests s := by
  rcases h with ⟨hclean, hret⟩ | ⟨hdirty, hleak⟩
  · exact iff_of_true hret.once hclean
  · exact iff_of_false hleak.not_once hdirty

theorem settles_noMemory {tests : List (ExecReply → Bool)} {s : Script}
    (hc : s.creates 0 = false) (p : RespPool) : Settles tests s p p := by
  refine .inl ⟨?_, .refl p⟩
  cases tests with
  | nil => trivial
  | cons passes rest => simp [Clean, hc]

theorem settles_failed {passes : ExecReply → Bool} {rest : List (ExecReply → Bool)} {s : Script}
    (hc : s.creates 0 = true) (hp : passes (s.execs 0) = false) (p : RespPool) :
    Settles (passes :: rest) s p p.create :=
  .inr ⟨by simp [Clean, hc, hp], p.leaked_create⟩

/-- A command that passes hands the rest of the walk on. -/
theorem Settles.cons {passes : ExecReply → Bool} {rest : List (ExecReply → Bool)} {s : Script}
    {p q : RespPool} (hc : s.creates 0 = true) (hp : passes (s.execs 0) = true)
    (h : Settles rest s.dropCreate.dropExec (p.create.delete p.next) q) :
    Settles (passes :: rest) s p q := by
  have hiff : Clean (passes :: rest) s ↔ Clean rest s.dropCreate.dropExec := by
    simp [Clean, hc, hp]
  rw [Settles, hiff]
  rcases h with ⟨hclean, hret⟩ | ⟨hdirty, hleak⟩
  · exact .inl ⟨hclean, p.returned_create_delete.trans hret⟩
  · exact .inr ⟨hdirty, p.returned_create_delete.leaked hleak⟩

theorem settles_nil (s : Script) (p : RespPool) : Settles [] s p p := .inl ⟨trivial, .refl p⟩

/-- A command either ends the walk, or passes and leaves the rest to what follows. -/
theorem sendCommand_settles (bufSize : Nat) (cmd : List UInt8) (b : Board) :
    (((sendCommand bufSize cmd).run Board.handler b).1 ≠ .ok ∧
      ∀ tests, Settles (ExecReply.answered :: tests) b.script b.resps
        ((sendCommand bufSize cmd).run Board.handler b).2.resps) ∨
    (((sendCommand bufSize cmd).run Board.handler b).1 = .ok ∧
      ∀ tests q,
        Settles tests ((sendCommand bufSize cmd).run Board.handler b).2.script
          ((sendCommand bufSize cmd).run Board.handler b).2.resps q →
        Settles (ExecReply.answered :: tests) b.script b.resps q) := by
  rcases sendCommand_cases bufSize cmd b with ⟨hc, h⟩ | ⟨hc, hr, h⟩ | ⟨hc, hr, h⟩ | ⟨hc, hr, h⟩
  · rw [h]
    exact .inl ⟨nofun, fun tests => settles_noMemory hc b.resps⟩
  · rw [h]
    exact .inl ⟨nofun, fun tests =>
      settles_failed hc (by simp [ExecReply.answered, hr]) b.resps⟩
  · rw [h]
    exact .inl ⟨nofun, fun tests =>
      settles_failed hc (by simp [ExecReply.answered, hr]) b.resps⟩
  · rw [h]
    exact .inr ⟨rfl, fun tests q hrest =>
      Settles.cons hc (by simp [ExecReply.answered, hr]) hrest⟩

theorem settles_sendCommand (bufSize : Nat) (cmd : List UInt8) (b : Board) :
    Settles [ExecReply.answered] b.script b.resps
      ((sendCommand bufSize cmd).run Board.handler b).2.resps := by
  rcases sendCommand_settles bufSize cmd b with ⟨-, h⟩ | ⟨-, h⟩
  · exact h []
  · exact h [] _ (settles_nil _ _)

/-- A command, and what follows it if it succeeds. -/
theorem settles_sendCommand_then {tests : List (ExecReply → Bool)} (bufSize : Nat)
    (cmd : List UInt8) (rest : Prog Io AtError) (b : Board)
    (hrest : ∀ b : Board, Settles tests b.script b.resps (rest.run Board.handler b).2.resps) :
    Settles (ExecReply.answered :: tests) b.script b.resps
      ((sendCommand bufSize cmd >>= fun re => if re ≠ .ok then pure re else rest).run
        Board.handler b).2.resps := by
  rw [Prog.run_bind]
  rcases sendCommand_settles bufSize cmd b with ⟨hne, h⟩ | ⟨hok, h⟩
  · rw [if_pos hne]
    exact h tests
  · rw [if_neg (not_not.mpr hok)]
    exact h tests _ (hrest _)

/-- The shape of the two queries; what they return plays no role here. -/
def query {β : Type} (cmd : List UInt8) (fails : ExecReply → Prop) [DecidablePred fails]
    (unanswered : AtError → β) (failed passed : ExecReply → β) : Prog Io β := do
  match ← atCreateResp 64 0 (rtTickFromMillisecond 5000) with
  | none => return unanswered .creatResp
  | some resp =>
    let re ← atExecCmd resp cmd
    if re.result.code = -1 then return unanswered .sendError
    if re.result.code = -2 then return unanswered .sendTimeout
    if fails re then return failed re
    atDeleteResp resp
    return passed re

theorem settles_query {β : Type} (cmd : List UInt8) (fails : ExecReply → Prop)
    [DecidablePred fails] (unanswered : AtError → β) (failed passed : ExecReply → β) (b : Board) :
    Settles [fun re => re.answered && !decide (fails re)] b.script b.resps
      ((query cmd fails unanswered failed passed).run Board.handler b).2.resps := by
  simp only [query, atCreateResp, atExecCmd, atDeleteResp, Prog.ask_bind, Prog.run_call,
    Board.handler_atCreateResp, Board.createResp]
  cases hc : b.script.creates 0 with
  | false => exact settles_noMemory hc b.resps
  | true =>
    have hexec : b.script.dropCreate.execs 0 = b.script.execs 0 := rfl
    simp only [if_true, Prog.run_call, Board.handler_atExecCmd, Board.execCmd, hexec]
    cases hr : (b.script.execs 0).result with
    | statusError => exact settles_failed hc (by simp [ExecReply.answered, hr]) b.resps
    | timeout => exact settles_failed hc (by simp [ExecReply.answered, hr]) b.resps
    | success =>
      by_cases hf : fails (b.script.execs 0)
      · simp only [if_pos hf]
        exact settles_failed hc (by simp [ExecReply.answered, hr, hf]) b.resps
      · simp only [if_neg hf]
        exact Settles.cons hc (by simp [ExecReply.answered, hr, hf]) (settles_nil _ _)

/-- The reply of `AT+UART?` passes unless its first line holds none of the fields. -/
def uartFails (eof : Int) (re : ExecReply) : Prop := (atRespParseLineArgs eof re 1 uartExpr).1 = 0

/-- The same for the status line of `AT+STATUE`. -/
def statueFails (eof : Int) (re : ExecReply) : Prop :=
  (atRespParseLineArgsByKw eof re (ascii "+STATUE") statueExpr).1 = 0

instance (eof : Int) : DecidablePred (uartFails eof) := fun _ => inferInstanceAs (Decidable (_ = _))
instance (eof : Int) : DecidablePred (statueFails eof) := fun _ =>
  inferInstanceAs (Decidable (_ = _))

theorem findUartConfig_eq_query (eof : Int) (uartCfg : AtUartCfg) :
    atRadioFindUartConfig eof uartCfg =
      query (ascii "AT+UART?") (uartFails eof) (fun e => (e, uartCfg))
        (fun re => (.parseLine, uartCfg.store (atRespParseLineArgs eof re 1 uartExpr).2))
        (fun re => (.ok, uartCfg.store (atRespParseLineArgs eof re 1 uartExpr).2)) := rfl

theorem getStatue_eq_query (eof : Int) (str : List UInt8) (statue : AtRadioStatue) :
    atRadioGetStatue eof str statue =
      query (ascii "AT+STATUE") (statueFails eof)
        (fun e => some (e, if e = .sendTimeout then .lose else statue))
        (fun _ => some (.parseKw, statue))
        (fun re =>
          let fields := (atRespParseLineArgsByKw eof re (ascii "+STATUE") statueExpr).2
          if FitsStr fields then
            some (.ok, (statueOfName (storeStr str fields)).getD statue)
          else none) := rfl

/-! ## Sequences of calls -/

/-- A call of one of the six functions. -/
inductive AtCall where
  | findUartConfig (eof : Int) (uartCfg : AtUartCfg)
  | getStatue (eof : Int) (str : List UInt8) (statue : AtRadioStatue)
  | joinNet
  | sendHex (data : List UInt8)
  | setAutojoin (mode : UInt8)
  | setOTAAInfo (info : Option AtRadioInfo)

namespace AtCall

def run (b : Board) : AtCall → Board
  | .findUartConfig eof uartCfg => ((atRadioFindUartConfig eof uartCfg).run Board.handler b).2
  | .getStatue eof str statue => ((atRadioGetStatue eof str statue).run Board.handler b).2
  | .joinNet => (atRadioJoinNet.run Board.handler b).2
  | .sendHex data => ((atRadioSendHex data).run Board.handler b).2
  | .setAutojoin mode => ((atRadioSetAutojoin mode).run Board.handler b).2
  | .setOTAAInfo info => ((atRadioSetOTAAInfo info).run Board.handler b).2

/-- The tests that the replies to the commands of a call have to pass, in order. -/
def tests : AtCall → List (ExecReply → Bool)
  | .findUartConfig eof _ => [fun re => re.answered && !decide (uartFails eof re)]
  | .getStatue eof _ _ => [fun re => re.answered && !decide (statueFails eof re)]
  | .joinNet => [ExecReply.answered, ExecReply.answered]
  | .sendHex _ => [ExecReply.answered]
  | .setAutojoin _ => [ExecReply.answered]
  | .setOTAAInfo none => []
  | .setOTAAInfo (some _) => [ExecReply.answered, ExecReply.answered, ExecReply.answered]

theorem settles (c : AtCall) (b : Board) :
    Settles c.tests b.script b.resps (c.run b).resps := by
  cases c with
  | findUartConfig eof uartCfg =>
    rw [run, findUartConfig_eq_query]
    exact settles_query _ (uartFails eof) _ _ _ b
  | getStatue eof str statue =>
    rw [run, getStatue_eq_query]
    exact settles_query _ (statueFails eof) _ _ _ b
  | joinNet =>
    exact settles_sendCommand_then 10 _ _ b fun b => settles_sendCommand 64 _ b
  | sendHex data => exact settles_sendCommand 64 _ b
  | setAutojoin mode => exact settles_sendCommand 64 _ b
  | setOTAAInfo info =>
    cases info with
    | none => exact settles_nil _ _
    | some info =>
      refine settles_sendCommand_then 64 _ _ b fun b => ?_
      refine settles_sendCommand_then 64 _ _ b fun b => ?_
      exact settles_sendCommand 100 _ b

end AtCall

/-- A call and what its surroundings do during it. -/
abbrev ScriptedCall := AtCall × Script

def ScriptedCall.run (b : Board) (c : ScriptedCall) : Board := c.1.run { b with script := c.2 }

/-- In every call of the sequence, each response object created during the call was passed to
`at_delete_resp` exactly once by the time the call returned. -/
def EveryCallBalanced : List ScriptedCall → Board → Prop
  | [], _ => True
  | c :: cs, b =>
    (∀ r, b.resps.next ≤ r → r < (c.run b).resps.next → (c.run b).resps.deleted.count r = 1) ∧
      EveryCallBalanced cs (c.run b)

theorem ScriptedCall.settles (c : ScriptedCall) (b : Board) :
    Settles c.1.tests c.2 b.resps (c.run b).resps :=
  c.1.settles { b with script := c.2 }

/-- Live objects never become fewer from call to call, and more exactly in a leaking one. -/
theorem live_length_run (cs : List ScriptedCall) (b : Board) :
    b.resps.live.length ≤ (cs.foldl ScriptedCall.run b).resps.live.length ∧
      ((cs.foldl ScriptedCall.run b).resps.live.length = b.resps.live.length ↔
        ∀ c ∈ cs, Clean c.1.tests c.2) := by
  induction cs generalizing b with
  | nil => simp
  | cons c cs ih =>
    obtain ⟨hle, hiff⟩ := ih (c.run b)
    rw [List.foldl_cons, List.forall_mem_cons]
    rcases c.settles b with ⟨hclean, hret⟩ | ⟨hdirty, hleak⟩
    · have hlen : (c.run b).resps.live.length = b.resps.live.length := by rw [hret.live]
      rw [hlen] at hle hiff
      exact ⟨hle, by rw [hiff, and_iff_right hclean]⟩
    · have hlt := hleak.live
      refine ⟨by omega, ?_⟩
      constructor
      · intro heq
        omega
      · intro h
        exact absurd h.1 hdirty

theorem everyCallBalanced_iff (cs : List ScriptedCall) (b : Board) :
    EveryCallBalanced cs b ↔ ∀ c ∈ cs, Clean c.1.tests c.2 := by
  induction cs generalizing b with
  | nil => simp [EveryCallBalanced]
  | cons c cs ih =>
    rw [EveryCallBalanced, List.forall_mem_cons, ih, (c.settles b).balanced_iff]

/-- Response objects are balanced, in every call and over the whole sequence, exactly when no
call of the sequence returns early with an object in hand. -/
theorem responses_balanced_iff (cs : List ScriptedCall) (b : Board) :
    (EveryCallBalanced cs b ∧
        (cs.foldl ScriptedCall.run b).resps.live.length = b.resps.live.length) ↔
      ∀ c ∈ cs, Clean c.1.tests c.2 := by
  rw [everyCallBalanced_iff, (live_length_run cs b).2, and_self]

/-- A status query that a silent module lets time out. -/
def silentQuery : ScriptedCall :=
  (.getStatue (-1) [] .lose,
    { Board.factory.script with execs := fun _ => ⟨.timeout, [], 0⟩ })

theorem silentQuery_leaks :
    ¬ (EveryCallBalanced [silentQuery] Board.factory ∧
      ([silentQuery].foldl ScriptedCall.run Board.factory).resps.live.length =
        Board.factory.resps.live.length) := by
  intro hbalanced
  obtain ⟨-, h⟩ := hbalanced
  revert h
  decide

end ControlBoard
