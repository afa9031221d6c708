import ControlBoard.ClientParser
import ControlBoard.Lib.Transition
import Mathlib.Logic.Function.Basic

/-!
# Commands and their replies

The AT client between its callers, its parser thread and the module. A caller of `at_obj_exec_cmd`
attaches its response object and waits for `resp_notice`; the parser thread fills the object that
is attached when a line comes in, whichever command the line answers. Here the three take their
steps in any order, and the module answers the commands one after the other with lines of which
the last one ends the reply.
-/

namespace ControlBoard

/-- Where the caller in `at_obj_exec_cmd` is, with the number of its call: before the command is
written, before `resp->line_counts = 0`, in `rt_sem_take`, behind it, or before
`client->resp = RT_NULL` with its result. The lock lets in one at a time. -/
inductive CallerPc where
  | idle
  | attached (n : Nat)
  | written (n : Nat)
  | waiting (n : Nat)
  | notified (n : Nat)
  | leaving (n : Nat) (result : ExecResult)
  deriving DecidableEq, Repr

/-- The caller has waited in vain. -/
def CallerPc.GaveUp : CallerPc → Prop
  | .leaving _ .timeout => True
  | _ => False

instance : DecidablePred CallerPc.GaveUp
  | .leaving _ .timeout => isTrue trivial
  | .leaving _ .success | .leaving _ .statusError => isFalse not_false
  | .idle | .attached _ | .written _ | .waiting _ | .notified _ => isFalse not_false

/-- Where `client_parser` is: in `at_recv_readline`, with a line for the attached object, before
`client->resp = RT_NULL`, before the release of `resp_notice`, or stopped by a null pointer. -/
inductive ParserPc where
  | recv
  | got (line : List UInt8)
  | ended
  | release
  | fault
  deriving DecidableEq, Repr

/-- The client, its two threads, the response objects by the number of their call, and the module
with the commands it has not answered in full. A line is kept with the command it answers: on its
way in `wire`, and for good in `sent`. -/
structure AtLink where
  resp : Option Nat
  respStatus : AtRespStatus
  respNotice : Nat
  respBufLen : Nat
  lineCounts : Nat
  parser : ParserPc
  caller : CallerPc
  calls : Nat
  objects : Nat → AtResponse
  pending : List Nat
  wire : List (Nat × List UInt8)
  sent : List (Nat × List UInt8)
  returned : List (Nat × ExecResult)

/-- One step of the caller, of the module or of the parser thread. -/
inductive LinkAction where
  /-- `at_create_resp`, and `at_obj_exec_cmd` up to `client->resp = resp` -/
  | begin (bufSize : Nat)
  | write
  | clear
  | take
  | timeout
  | check
  | leave
  /-- the module sends a line of its reply to the oldest command -/
  | module (line : List UInt8)
  /-- `at_recv_readline` returns, and `client->resp` is tested -/
  | read
  | store
  | finish
  | release
  deriving DecidableEq, Repr

namespace AtLink

/-- The object of call `n` with the parser's view of it. -/
def parsing (s : AtLink) (n : Nat) : ReplyParse :=
  ⟨s.objects n, s.respStatus, s.respBufLen, s.lineCounts⟩

/-- The steps of the caller. -/
def callerStep (s : AtLink) : LinkAction → Option AtLink
  | .begin bufSize =>
    if s.caller = .idle then
      some { s with
        resp := some s.calls
        respStatus := .ok
        caller := .attached s.calls
        calls := s.calls + 1
        objects := Function.update s.objects s.calls (.create bufSize 0) }
    else none
  | .write =>
    match s.caller with
    | .attached n => some { s with caller := .written n, pending := s.pending ++ [n] }
    | _ => none
  | .clear =>
    match s.caller with
    | .written n =>
      some { s with
        caller := .waiting n
        objects := Function.update s.objects n { s.objects n with lineCounts := 0 } }
    | _ => none
  | .take =>
    match s.caller with
    | .waiting n =>
      if 0 < s.respNotice then
        some { s with caller := .notified n, respNotice := s.respNotice - 1 }
      else none
    | _ => none
  | .timeout =>
    match s.caller with
    | .waiting n =>
      if s.respNotice = 0 then
        some { s with caller := .leaving n .timeout, respStatus := .timeout }
      else none
    | _ => none
  | .check =>
    match s.caller with
    | .notified n =>
      some { s with
        caller := .leaving n (if s.respStatus = .ok then .success else .statusError) }
    | _ => none
  | .leave =>
    match s.caller with
    | .leaving n result =>
      some { s with caller := .idle, resp := none, returned := s.returned ++ [(n, result)] }
    | _ => none
  | _ => none

/-- The module answers the oldest command. -/
def moduleStep (s : AtLink) (line : List UInt8) : Option AtLink :=
  match s.pending with
  | [] => none
  | n :: rest =>
    some { s with
      pending := if (lineEnd 0 0 line).isSome then rest else n :: rest
      wire := s.wire ++ [(n, line)]
      sent := s.sent ++ [(n, line)] }

/-- The steps of `client_parser`. -/
def parserStep (s : AtLink) : LinkAction → Option AtLink
  | .read =>
    match s.parser, s.wire with
    | .recv, w :: rest =>
      some { s with wire := rest, parser := if s.resp = none then .recv else .got w.2 }
    | _, _ => none
  | .store =>
    match s.parser with
    | .got line =>
      match s.resp with
      | none => some { s with parser := .fault }
      | some n =>
        let a := (s.parsing n).store line
        let s := { s with
          objects := Function.update s.objects n a.resp
          respStatus := a.respStatus
          respBufLen := a.respBufLen
          lineCounts := a.lineCounts }
        match lineEnd a.resp.lineNum a.lineCounts line with
        | none => some { s with parser := .recv }
        | some status => some { s with parser := .ended, respStatus := status }
    | _ => none
  | .finish =>
    match s.parser with
    | .ended =>
      match s.resp with
      | none => some { s with parser := .fault }
      | some n =>
        some { s with
          parser := .release
          resp := none
          objects := Function.update s.objects n { s.objects n with lineCounts := s.lineCounts } }
    | _ => none
  | .release =>
    match s.parser with
    | .release =>
      some { s with
        parser := .recv
        respNotice := s.respNotice + 1
        respBufLen := 0
        lineCounts := 0 }
    | _ => none
  | _ => none

def step (s : AtLink) : LinkAction → Option AtLink
  | .module line => s.moduleStep line
  | .read => s.parserStep .read
  | .store => s.parserStep .store
  | .finish => s.parserStep .finish
  | .release => s.parserStep .release
  | a => s.callerStep a

def start : AtLink where
  resp := none
  respStatus := .ok
  respNotice := 0
  respBufLen := 0
  lineCounts := 0
  parser := .recv
  caller := .idle
  calls := 0
  objects _ := .create 0 0
  pending := []
  wire := []
  sent := []
  returned := []

/-- The lines that the module has sent for a command. -/
def replyTo (s : AtLink) (n : Nat) : List (List UInt8) :=
  (s.sent.filter fun w => w.1 = n).map Prod.snd

/-- A call begins when every command before it has been answered, and all of the answers read; its
reply is not complete before it waits; and where it gave up waiting, it leaves with nothing of its
reply taken in. -/
def InTime (s : AtLink) : LinkAction → Prop
  | .begin _ => s.pending = [] ∧ s.wire = []
  | .clear => s.resp ≠ none
  | .leave => s.caller.GaveUp →
      s.parser = .recv ∧ s.respNotice = 0 ∧ s.respBufLen = 0 ∧ s.lineCounts = 0
  | _ => True

instance (s : AtLink) : DecidablePred s.InTime
  | .begin _ => inferInstanceAs (Decidable (_ ∧ _))
  | .clear => inferInstanceAs (Decidable (_ ≠ _))
  | .leave => inferInstanceAs (Decidable (_ → _))
  | .write | .take | .timeout | .check | .module _ | .read | .store | .finish | .release =>
    isTrue trivial

/-! ## What one reply goes through -/

/-- The lines of a reply, of which the last one and no other ends it. -/
def Whole (lines : List (List UInt8)) (status : AtRespStatus) : Prop :=
  ∃ init last, lines = init ++ [last] ∧ (∀ l ∈ init, lineEnd 0 0 l = none) ∧
    lineEnd 0 0 last = some status

/-- The lines after which the object of call `n`, with the parser's locals, is as it is now. -/
def Taken (s : AtLink) (n : Nat) (lines : List (List UInt8)) : Prop :=
  (s.parsing n).Same (lines.foldl ReplyParse.store (.start (s.objects n).bufSize))

/-- What is in an object when its reply has been taken in. -/
def wholeResponse (bufSize : Nat) (lines : List (List UInt8)) : AtResponse :=
  { (lines.foldl ReplyParse.store (.start bufSize)).resp with
    lineCounts := (lines.foldl ReplyParse.store (.start bufSize)).lineCounts }

/-- The parser is between two lines, and nothing of a reply is left from before. -/
structure Rests (s : AtLink) : Prop where
  parser : s.parser = .recv
  respNotice : s.respNotice = 0
  respBufLen : s.respBufLen = 0
  lineCounts : s.lineCounts = 0

/-- The module is in the middle of its reply to call `n`, or has sent all of it. -/
def Replies (s : AtLink) (n : Nat) : Prop :=
  s.pending = [n] ∧ (∀ l ∈ s.replyTo n, lineEnd 0 0 l = none) ∨
    s.pending = [] ∧ ∃ status, Whole (s.replyTo n) status

/-- Nothing is on its way any more. -/
structure Quiet (s : AtLink) : Prop where
  pending : s.pending = []
  wire : s.wire = []

/-- The stages of the reply to call `n`. As long as the caller has not given up, the status is the
one of the last line. -/
inductive Answering (s : AtLink) (n : Nat) : Prop where
  | recv (done : List (List UInt8)) (hresp : s.resp = some n) (hnotice : s.respNotice = 0)
      (hparser : s.parser = .recv) (hmodule : s.Replies n)
      (hreply : s.replyTo n = done ++ s.wire.map Prod.snd)
      (hdone : ∀ l ∈ done, lineEnd 0 0 l = none) (htaken : s.Taken n done)
  | got (done : List (List UInt8)) (line : List UInt8) (hresp : s.resp = some n)
      (hnotice : s.respNotice = 0) (hparser : s.parser = .got line) (hmodule : s.Replies n)
      (hreply : s.replyTo n = done ++ line :: s.wire.map Prod.snd)
      (hdone : ∀ l ∈ done, lineEnd 0 0 l = none) (htaken : s.Taken n done)
  | ended (hresp : s.resp = some n) (hnotice : s.respNotice = 0) (hparser : s.parser = .ended)
      (hquiet : s.Quiet) (htaken : s.Taken n (s.replyTo n))
      (hstatus : s.caller ≠ .leaving n .timeout → Whole (s.replyTo n) s.respStatus)
  | release (hresp : s.resp = none) (hnotice : s.respNotice = 0) (hparser : s.parser = .release)
      (hquiet : s.Quiet)
      (hobject : s.objects n = wholeResponse (s.objects n).bufSize (s.replyTo n))
      (hstatus : s.caller ≠ .leaving n .timeout → Whole (s.replyTo n) s.respStatus)
  | done (hresp : s.resp = none) (hnotice : s.respNotice = 1) (hparser : s.parser = .recv)
      (hlen : s.respBufLen = 0) (hcounts : s.lineCounts = 0) (hquiet : s.Quiet)
      (hobject : s.objects n = wholeResponse (s.objects n).bufSize (s.replyTo n))
      (hstatus : s.caller ≠ .leaving n .timeout → Whole (s.replyTo n) s.respStatus)

/-- Call `n` has returned `result`: its object holds the reply to it, and `result` is what the last
line of that says. -/
def Answered (s : AtLink) (n : Nat) (result : ExecResult) : Prop :=
  ∃ status, Whole (s.replyTo n) status ∧
    s.objects n = wholeResponse (s.objects n).bufSize (s.replyTo n) ∧
    result = if status = .ok then .success else .statusError

/-- Where the three are, together. -/
inductive Control (s : AtLink) : Prop where
  | idle (hcaller : s.caller = .idle) (hresp : s.resp = none) (hrests : s.Rests)
  | attached (n : Nat) (hcaller : s.caller = .attached n) (hresp : s.resp = some n)
      (hrests : s.Rests) (hquiet : s.Quiet) (hreply : s.replyTo n = [])
      (hobject : ∃ bufSize, s.objects n = .create bufSize 0)
  | answering (n : Nat) (hcaller : s.caller = .written n ∨ s.caller = .waiting n ∨
      s.caller = .leaving n .timeout) (hanswering : s.Answering n)
  | finished (n : Nat) (hcaller : s.caller = .notified n ∨
      ∃ result, s.caller = .leaving n result ∧ result ≠ .timeout ∧ s.Answered n result)
      (hresp : s.resp = none) (hrests : s.Rests) (hquiet : s.Quiet)
      (hobject : s.objects n = wholeResponse (s.objects n).bufSize (s.replyTo n))
      (hstatus : Whole (s.replyTo n) s.respStatus)

/-- The call in progress. -/
def call (s : AtLink) : Option Nat :=
  match s.caller with
  | .idle => none
  | .attached n | .written n | .waiting n | .notified n | .leaving n _ => some n

/-- What every step in time keeps. -/
structure InStep (s : AtLink) : Prop where
  control : s.Control
  call_lt : ∀ n ∈ s.call, n < s.calls
  pending_lt : ∀ n ∈ s.pending, n < s.calls
  sent_lt : ∀ w ∈ s.sent, w.1 < s.calls
  answered : ∀ p ∈ s.returned, p.2 ≠ .timeout →
    p.1 < s.calls ∧ s.call ≠ some p.1 ∧ p.1 ∉ s.pending ∧ s.Answered p.1 p.2

variable {s t : AtLink} {n : Nat} {line : List UInt8}

/-! ## The end of a reply -/

/-- A line that ends a reply is the last one. -/
theorem Whole.last {done rest : List (List UInt8)} {status status' : AtRespStatus}
    (h : Whole (done ++ line :: rest) status) (hline : lineEnd 0 0 line = some status') :
    rest = [] ∧ status = status' := by
  obtain ⟨init, last, heq, hinit, hlast⟩ := h
  rcases List.eq_nil_or_concat' rest with rfl | ⟨rest, x, rfl⟩
  · obtain ⟨-, hsame⟩ := List.append_inj' heq rfl
    rw [List.cons.injEq] at hsame
    rw [← hsame.1, hline] at hlast
    exact ⟨rfl, (Option.some_inj.mp hlast).symm⟩
  · have hmem : line ∈ init := by
      rw [← List.cons_append, ← List.append_assoc] at heq
      rw [← (List.append_inj' heq rfl).1]
      simp
    rw [hinit line hmem] at hline
    cases hline

/-- When it has been read, nothing more comes. -/
theorem Replies.last {done : List (List UInt8)} {status : AtRespStatus} (h : s.Replies n)
    (hreply : s.replyTo n = done ++ line :: s.wire.map Prod.snd)
    (hline : lineEnd 0 0 line = some status) : s.Quiet ∧ Whole (s.replyTo n) status := by
  rcases h with ⟨-, hnone⟩ | ⟨hpending, status', hwhole⟩
  · rw [hnone line (by rw [hreply]; simp)] at hline
    cases hline
  · rw [hreply] at hwhole
    obtain ⟨hwire, rfl⟩ := hwhole.last hline
    rw [hreply]
    exact ⟨⟨hpending, List.map_eq_nil_iff.mp hwire⟩, hwhole⟩

theorem Taken.resp_frame {lines : List (List UInt8)} (h : s.Taken n lines) :
    (s.objects n).lineNum = 0 ∧ (s.objects n).lineCounts = 0 := by
  have hresp : s.objects n = _ := h.resp
  rw [ReplyParse.foldl_store_frame] at hresp
  rw [hresp]
  exact ⟨rfl, rfl⟩

/-! ## The parser -/

/-- A line is copied into the object of the call it answers. -/
theorem Taken.store {lines : List (List UInt8)} (h : s.Taken n lines) (line : List UInt8) :
    let a := (s.parsing n).store line
    a.Same ((lines ++ [line]).foldl ReplyParse.store (.start a.resp.bufSize)) := by
  have hsize : ((s.parsing n).store line).resp.bufSize = (s.objects n).bufSize := by
    rw [ReplyParse.store_frame]
    rfl
  simp only [hsize, List.foldl_append, List.foldl_cons, List.foldl_nil]
  exact ReplyParse.Same.store h line

theorem Taken.whole {lines : List (List UInt8)} (h : s.Taken n lines) :
    { s.objects n with lineCounts := s.lineCounts } =
      wholeResponse (s.objects n).bufSize lines := by
  have hresp : s.objects n = _ := h.resp
  have hcounts : s.lineCounts = _ := h.lineCounts
  rw [wholeResponse, ← hcounts]
  exact congrArg (fun o : AtResponse => { o with lineCounts := s.lineCounts }) hresp

/-- The parser touches the attached object and its own state, and nothing else. -/
theorem parserStep_frame {a : LinkAction} (hstep : s.parserStep a = some t) :
    t.caller = s.caller ∧ t.calls = s.calls ∧ t.pending = s.pending ∧ t.sent = s.sent ∧
      t.returned = s.returned ∧ ∀ k, s.resp ≠ some k → t.objects k = s.objects k := by
  unfold parserStep at hstep
  split at hstep
  · split at hstep
    · cases hstep
      exact ⟨rfl, rfl, rfl, rfl, rfl, fun _ _ => rfl⟩
    · cases hstep
  · split at hstep
    · split at hstep
      · cases hstep
        exact ⟨rfl, rfl, rfl, rfl, rfl, fun _ _ => rfl⟩
      · rename_i m hresp
        have hother : ∀ (o : AtResponse) k, s.resp ≠ some k →
            Function.update s.objects m o k = s.objects k := by
          intro o k hk
          exact Function.update_of_ne (fun heq => hk (by rw [heq, hresp])) _ _
        simp only at hstep
        split at hstep
        · cases hstep
          exact ⟨rfl, rfl, rfl, rfl, rfl, hother _⟩
        · cases hstep
          exact ⟨rfl, rfl, rfl, rfl, rfl, hother _⟩
    · cases hstep
  · split at hstep
    · split at hstep
      · cases hstep
        exact ⟨rfl, rfl, rfl, rfl, rfl, fun _ _ => rfl⟩
      · rename_i m hresp
        cases hstep
        refine ⟨rfl, rfl, rfl, rfl, rfl, fun k hk => ?_⟩
        exact Function.update_of_ne (fun heq => hk (by rw [heq, hresp])) _ _
    · cases hstep
  · split at hstep
    · cases hstep
      exact ⟨rfl, rfl, rfl, rfl, rfl, fun _ _ => rfl⟩
    · cases hstep
  · cases hstep

theorem Answering.read (h : s.Answering n) (hstep : s.parserStep .read = some t) :
    t.Answering n := by
  rw [parserStep] at hstep
  split at hstep
  · rename_i w rest hparser hwire
    cases hstep
    cases h with
    | recv done hresp hnotice hparser hmodule hreply hdone htaken =>
      rw [hwire] at hreply
      exact .got done w.2 hresp hnotice (if_neg (by rw [hresp]; simp)) hmodule hreply hdone htaken
    | got done line hresp hnotice hgot => rw [hgot] at hparser; cases hparser
    | ended hresp hnotice hended => rw [hended] at hparser; cases hparser
    | release hresp hnotice hrelease => rw [hrelease] at hparser; cases hparser
    | done hresp hnotice hrecv hlen hcounts hquiet => rw [hquiet.wire] at hwire; cases hwire
  · cases hstep

/-- The state after a line was stored in the object of call `n`. -/
def stored (s : AtLink) (n : Nat) (line : List UInt8) : AtLink :=
  let a := (s.parsing n).store line
  { s with
    objects := Function.update s.objects n a.resp
    respStatus := (lineEnd 0 0 line).getD a.respStatus
    respBufLen := a.respBufLen
    lineCounts := a.lineCounts
    parser := if (lineEnd 0 0 line).isSome then .ended else .recv }

theorem parserStep_store (hparser : s.parser = .got line) (hresp : s.resp = some n)
    (hnum : (s.objects n).lineNum = 0) : s.parserStep .store = some (s.stored n line) := by
  have hend : lineEnd ((s.parsing n).store line).resp.lineNum
      ((s.parsing n).store line).lineCounts line = lineEnd 0 0 line := by
    have hzero : ((s.parsing n).store line).resp.lineNum = 0 := by
      rw [ReplyParse.store_frame]
      exact hnum
    simp [lineEnd, hzero]
  rw [parserStep, hparser]
  simp only [hresp, hend, stored]
  cases lineEnd 0 0 line with
  | none => simp
  | some status => simp

theorem Taken.stored {lines : List (List UInt8)} (h : s.Taken n lines) (line : List UInt8) :
    (s.stored n line).Taken n (lines ++ [line]) := by
  have hcopied := h.store line
  have hobject : (s.stored n line).objects n = ((s.parsing n).store line).resp :=
    Function.update_self n _ s.objects
  rw [Taken, parsing, hobject]
  exact ⟨hcopied.resp, hcopied.respBufLen, hcopied.lineCounts⟩

theorem Answering.store (h : s.Answering n) (hstep : s.parserStep .store = some t) :
    t.Answering n := by
  cases h with
  | got done line hresp hnotice hparser hmodule hreply hdone htaken =>
    rw [parserStep_store hparser hresp htaken.resp_frame.1] at hstep
    cases hstep
    cases hend : lineEnd 0 0 line with
    | none =>
      refine .recv (done ++ [line]) hresp hnotice ?_ hmodule ?_ ?_ (htaken.stored line)
      · simp [AtLink.stored, hend]
      · rw [List.append_assoc]
        exact hreply
      · intro l hl
        rcases List.mem_append.mp hl with hl | hl
        · exact hdone l hl
        · rw [List.mem_singleton.mp hl]
          exact hend
    | some status =>
      obtain ⟨hquiet, hwhole⟩ := hmodule.last hreply hend
      have hall : (s.stored n line).replyTo n = done ++ [line] := by
        rw [hquiet.wire] at hreply
        exact hreply
      refine .ended hresp hnotice ?_ ⟨hquiet.pending, hquiet.wire⟩ ?_ fun _ => ?_
      · simp [AtLink.stored, hend]
      · rw [hall]
        exact htaken.stored line
      · have hstatus : (s.stored n line).respStatus = status := by simp [AtLink.stored, hend]
        rw [hstatus]
        exact hwhole
  | recv _ _ _ hparser => simp [AtLink.parserStep, hparser] at hstep
  | ended _ _ hparser => simp [AtLink.parserStep, hparser] at hstep
  | release _ _ hparser => simp [AtLink.parserStep, hparser] at hstep
  | done _ _ hparser => simp [AtLink.parserStep, hparser] at hstep

theorem Answering.finish (h : s.Answering n) (hstep : s.parserStep .finish = some t) :
    t.Answering n := by
  cases h with
  | ended hresp hnotice hparser hquiet htaken hstatus =>
    simp only [AtLink.parserStep, hparser, hresp, Option.some_inj] at hstep
    rw [← hstep]
    refine .release rfl hnotice rfl ⟨hquiet.pending, hquiet.wire⟩ ?_ hstatus
    simp only [Function.update_self]
    exact htaken.whole
  | recv _ _ _ hparser => simp [AtLink.parserStep, hparser] at hstep
  | got _ _ _ _ hparser => simp [AtLink.parserStep, hparser] at hstep
  | release _ _ hparser => simp [AtLink.parserStep, hparser] at hstep
  | done _ _ hparser => simp [AtLink.parserStep, hparser] at hstep

theorem Answering.release_step (h : s.Answering n) (hstep : s.parserStep .release = some t) :
    t.Answering n := by
  cases h with
  | release hresp hnotice hparser hquiet hobject hstatus =>
    simp only [AtLink.parserStep, hparser, Option.some_inj] at hstep
    rw [← hstep]
    exact .done hresp (congrArg (· + 1) hnotice) rfl rfl rfl ⟨hquiet.pending, hquiet.wire⟩
      hobject hstatus
  | recv _ _ _ hparser => simp [AtLink.parserStep, hparser] at hstep
  | got _ _ _ _ hparser => simp [AtLink.parserStep, hparser] at hstep
  | ended _ _ hparser => simp [AtLink.parserStep, hparser] at hstep
  | done _ _ hparser => simp [AtLink.parserStep, hparser] at hstep

theorem Answering.parserStep {a : LinkAction} (h : s.Answering n)
    (hstep : s.parserStep a = some t) : t.Answering n := by
  cases a with
  | read => exact h.read hstep
  | store => exact h.store hstep
  | finish => exact h.finish hstep
  | release => exact h.release_step hstep
  | begin | write | clear | take | timeout | check | leave | module => cases hstep

/-- A parser that waits for a line reads one. -/
theorem parserStep_of_recv {a : LinkAction} (hparser : s.parser = .recv)
    (hstep : s.parserStep a = some t) : ∃ w rest, s.wire = w :: rest ∧
      t = { s with wire := rest, parser := if s.resp = none then .recv else .got w.2 } := by
  cases a with
  | read =>
    rw [AtLink.parserStep] at hstep
    split at hstep
    · rename_i w rest _ hwire
      cases hstep
      exact ⟨w, rest, hwire, rfl⟩
    · cases hstep
  | store | finish | release => simp [AtLink.parserStep, hparser] at hstep
  | begin | write | clear | take | timeout | check | leave | module => cases hstep

/-! ## The module -/

/-- A line is added to the reply of the oldest command. -/
theorem moduleStep_frame (hstep : s.moduleStep line = some t) :
    ∃ m rest, s.pending = m :: rest ∧
      t = { s with
        pending := if (lineEnd 0 0 line).isSome then rest else m :: rest
        wire := s.wire ++ [(m, line)]
        sent := s.sent ++ [(m, line)] } := by
  rw [moduleStep] at hstep
  split at hstep
  · cases hstep
  · rename_i m rest hpending
    cases hstep
    exact ⟨m, rest, hpending, rfl⟩

theorem replyTo_concat (hsent : t.sent = s.sent ++ [(n, line)]) (k : Nat) :
    t.replyTo k = s.replyTo k ++ if n = k then [line] else [] := by
  simp only [replyTo, hsent, List.filter_append, List.map_append]
  by_cases hk : n = k
  · simp [hk]
  · simp [hk]

theorem Answering.moduleStep (h : s.Answering n) (hstep : s.moduleStep line = some t) :
    t.Answering n := by
  obtain ⟨m, rest, hpending, rfl⟩ := moduleStep_frame hstep
  -- only a reply that is not whole goes on
  have hopen (hmodule : s.Replies n) : m = n ∧ rest = [] ∧
      ∀ l ∈ s.replyTo n, lineEnd 0 0 l = none := by
    rcases hmodule with ⟨hone, hnone⟩ | ⟨hnil, -⟩
    · rw [hone, List.cons.injEq] at hpending
      exact ⟨hpending.1.symm, hpending.2.symm, hnone⟩
    · rw [hnil] at hpending
      cases hpending
  have hreplies (hmodule : s.Replies n) : Replies
      { s with
        pending := if (lineEnd 0 0 line).isSome then rest else m :: rest
        wire := s.wire ++ [(m, line)]
        sent := s.sent ++ [(m, line)] } n := by
    obtain ⟨rfl, rfl, hnone⟩ := hopen hmodule
    rw [Replies, replyTo_concat rfl, if_pos rfl]
    cases hend : lineEnd 0 0 line with
    | none =>
      refine .inl ⟨rfl, fun l hl => ?_⟩
      rcases List.mem_append.mp hl with hl | hl
      · exact hnone l hl
      · rw [List.mem_singleton.mp hl, hend]
    | some status => exact .inr ⟨rfl, status, s.replyTo m, line, rfl, hnone, hend⟩
  cases h with
  | recv done hresp hnotice hparser hmodule hreply hdone htaken =>
    refine .recv done hresp hnotice hparser (hreplies hmodule) ?_ hdone htaken
    rw [replyTo_concat rfl, if_pos (hopen hmodule).1, hreply]
    simp
  | got done line' hresp hnotice hparser hmodule hreply hdone htaken =>
    refine .got done line' hresp hnotice hparser (hreplies hmodule) ?_ hdone htaken
    rw [replyTo_concat rfl, if_pos (hopen hmodule).1, hreply]
    simp
  | ended hresp hnotice hparser hquiet => rw [hquiet.pending] at hpending; cases hpending
  | release hresp hnotice hparser hquiet => rw [hquiet.pending] at hpending; cases hpending
  | done hresp hnotice hparser hlen hcounts hquiet =>
    rw [hquiet.pending] at hpending
    cases hpending

/-! ## The caller -/

/-- The caller goes on without giving up. -/
theorem Answering.goOn (h : s.Answering n) (hcaller : s.caller ≠ .leaving n .timeout)
    (c : CallerPc) : Answering { s with caller := c } n := by
  cases h with
  | recv done hresp hnotice hparser hmodule hreply hdone htaken =>
    exact .recv done hresp hnotice hparser hmodule hreply hdone htaken
  | got done line hresp hnotice hparser hmodule hreply hdone htaken =>
    exact .got done line hresp hnotice hparser hmodule hreply hdone htaken
  | ended hresp hnotice hparser hquiet htaken hstatus =>
    exact .ended hresp hnotice hparser ⟨hquiet.pending, hquiet.wire⟩ htaken
      fun _ => hstatus hcaller
  | release hresp hnotice hparser hquiet hobject hstatus =>
    exact .release hresp hnotice hparser ⟨hquiet.pending, hquiet.wire⟩ hobject
      fun _ => hstatus hcaller
  | done hresp hnotice hparser hlen hcounts hquiet hobject hstatus =>
    exact .done hresp hnotice hparser hlen hcounts ⟨hquiet.pending, hquiet.wire⟩ hobject
      fun _ => hstatus hcaller

/-- The caller gives up: the status does not count any more. -/
theorem Answering.giveUp (h : s.Answering n) :
    Answering { s with caller := .leaving n .timeout, respStatus := .timeout } n := by
  cases h with
  | recv done hresp hnotice hparser hmodule hreply hdone htaken =>
    exact .recv done hresp hnotice hparser hmodule hreply hdone
      ⟨htaken.resp, htaken.respBufLen, htaken.lineCounts⟩
  | got done line hresp hnotice hparser hmodule hreply hdone htaken =>
    exact .got done line hresp hnotice hparser hmodule hreply hdone
      ⟨htaken.resp, htaken.respBufLen, htaken.lineCounts⟩
  | ended hresp hnotice hparser hquiet htaken hstatus =>
    exact .ended hresp hnotice hparser ⟨hquiet.pending, hquiet.wire⟩
      ⟨htaken.resp, htaken.respBufLen, htaken.lineCounts⟩ fun hne => absurd rfl hne
  | release hresp hnotice hparser hquiet hobject hstatus =>
    exact .release hresp hnotice hparser ⟨hquiet.pending, hquiet.wire⟩ hobject
      fun hne => absurd rfl hne
  | done hresp hnotice hparser hlen hcounts hquiet hobject hstatus =>
    exact .done hresp hnotice hparser hlen hcounts ⟨hquiet.pending, hquiet.wire⟩ hobject
      fun hne => absurd rfl hne

/-- As long as an object is attached, its `line_counts` is zero. -/
theorem Answering.lineCounts_zero (h : s.Answering n) (hresp : s.resp ≠ none) :
    (s.objects n).lineCounts = 0 := by
  cases h with
  | recv done _ hnotice hparser hmodule hreply hdone htaken => exact htaken.resp_frame.2
  | got done line _ hnotice hparser hmodule hreply hdone htaken => exact htaken.resp_frame.2
  | ended _ hnotice hparser hquiet htaken hstatus => exact htaken.resp_frame.2
  | release hnone => exact absurd hnone hresp
  | done hnone => exact absurd hnone hresp

/-! ## In step -/

theorem Answered.congr {result : ExecResult} (h : s.Answered n result)
    (hobject : t.objects n = s.objects n) (hreply : t.replyTo n = s.replyTo n) :
    t.Answered n result := by
  rw [Answered, hobject, hreply]
  exact h

theorem Control.call_of_resp (h : s.Control) (hresp : s.resp = some n) : s.call = some n := by
  cases h with
  | idle hcaller hnone => rw [hresp] at hnone; cases hnone
  | attached m hcaller hm =>
    rw [hresp] at hm
    rw [call, hcaller]
    exact hm.symm
  | answering m hcaller hanswering =>
    have hm : s.resp = some m := by
      cases hanswering with
      | recv _ hm => exact hm
      | got _ _ hm => exact hm
      | ended hm => exact hm
      | release hnone => rw [hresp] at hnone; cases hnone
      | done hnone => rw [hresp] at hnone; cases hnone
    rw [hresp] at hm
    rcases hcaller with hcaller | hcaller | hcaller
    · rw [call, hcaller]; exact hm.symm
    · rw [call, hcaller]; exact hm.symm
    · rw [call, hcaller]; exact hm.symm
  | finished m hcaller hnone => rw [hresp] at hnone; cases hnone

theorem inStep_start : start.InStep where
  control := .idle rfl rfl ⟨rfl, rfl, rfl, rfl⟩
  call_lt := nofun
  pending_lt := nofun
  sent_lt := nofun
  answered := nofun

theorem replyTo_eq_nil (h : ∀ w ∈ s.sent, w.1 < n) : s.replyTo n = [] := by
  rw [replyTo, List.map_eq_nil_iff, List.filter_eq_nil_iff]
  intro w hw
  have := h w hw
  simp
  omega

theorem InStep.begin {bufSize : Nat} (h : s.InStep) (hok : s.InTime (.begin bufSize))
    (hstep : s.callerStep (.begin bufSize) = some t) : t.InStep := by
  rw [callerStep] at hstep
  split at hstep
  · rename_i hcaller
    cases hstep
    cases h.control with
    | idle _ hresp hrests =>
      refine
        { control := .attached s.calls rfl rfl
            ⟨hrests.parser, hrests.respNotice, hrests.respBufLen, hrests.lineCounts⟩
            ⟨hok.1, hok.2⟩ (replyTo_eq_nil h.sent_lt)
            ⟨bufSize, Function.update_self s.calls _ s.objects⟩
          call_lt := ?_
          pending_lt := fun m hm => Nat.lt_succ_of_lt (h.pending_lt m hm)
          sent_lt := fun w hw => Nat.lt_succ_of_lt (h.sent_lt w hw)
          answered := ?_ }
      · intro m hm
        cases hm
        exact Nat.lt_succ_self s.calls
      · intro p hp hresult
        obtain ⟨hlt, -, hpending, hanswered⟩ := h.answered p hp hresult
        have hne : p.1 ≠ s.calls := Nat.ne_of_lt hlt
        refine ⟨Nat.lt_succ_of_lt hlt, fun heq => hne (Option.some_inj.mp heq).symm, hpending, ?_⟩
        exact hanswered.congr (Function.update_of_ne hne _ _) rfl
    | attached m hother | answering m hother | finished m hother => simp [hcaller] at hother
  · cases hstep

theorem InStep.write (h : s.InStep) (hstep : s.callerStep .write = some t) : t.InStep := by
  rw [callerStep] at hstep
  split at hstep
  · rename_i n hcaller
    cases hstep
    have hcall : s.call = some n := by rw [call, hcaller]
    cases h.control with
    | idle hother | finished m hother => simp [hcaller] at hother
    | answering m hother => simp [hcaller] at hother
    | attached m hm hresp hrests hquiet hreply hobject =>
      rw [hcaller] at hm
      cases hm
      obtain ⟨bufSize, hobject⟩ := hobject
      refine
        { control := .answering n (.inl rfl) (.recv [] hresp hrests.respNotice hrests.parser
            (.inl ⟨by rw [hquiet.pending]; rfl, fun l hl => ?_⟩) ?_ (by simp) ?_)
          call_lt := fun m hm => h.call_lt m (by rw [hcall]; exact hm)
          pending_lt := ?_
          sent_lt := h.sent_lt
          answered := ?_ }
      · have hnil : l ∈ s.replyTo n := hl
        rw [hreply] at hnil
        cases hnil
      · change s.replyTo n = [] ++ s.wire.map Prod.snd
        rw [hreply, hquiet.wire]
        rfl
      · refine ⟨?_, hrests.respBufLen, hrests.lineCounts⟩
        change s.objects n = AtResponse.create (s.objects n).bufSize 0
        rw [hobject]
        rfl
      · intro m hm
        rcases List.mem_append.mp hm with hm | hm
        · exact h.pending_lt m hm
        · rw [List.mem_singleton.mp hm]
          exact h.call_lt n hcall
      · intro p hp hresult
        obtain ⟨hlt, hne, hpending, hanswered⟩ := h.answered p hp hresult
        rw [hcall] at hne
        refine ⟨hlt, hne, fun hmem => ?_, hanswered⟩
        rcases List.mem_append.mp hmem with hmem | hmem
        · exact hpending hmem
        · exact hne (congrArg some (List.mem_singleton.mp hmem).symm)
  · cases hstep

/-- A step of the caller within one call, which leaves the other objects and the module alone. -/
theorem InStep.within (h : s.InStep) (hcontrol : t.Control) (hcalls : t.calls = s.calls)
    (hcall : t.call = s.call) (hpending : t.pending = s.pending) (hsent : t.sent = s.sent)
    (hreturned : t.returned = s.returned)
    (hobjects : ∀ k, s.call ≠ some k → t.objects k = s.objects k) : t.InStep where
  control := hcontrol
  call_lt := by rw [hcall, hcalls]; exact h.call_lt
  pending_lt := by rw [hpending, hcalls]; exact h.pending_lt
  sent_lt := by rw [hsent, hcalls]; exact h.sent_lt
  answered := by
    rw [hreturned, hcalls, hcall, hpending]
    intro p hp hresult
    obtain ⟨hlt, hne, hnot, hanswered⟩ := h.answered p hp hresult
    exact ⟨hlt, hne, hnot, hanswered.congr (hobjects p.1 hne) (by rw [replyTo, replyTo, hsent])⟩

theorem InStep.clear (h : s.InStep) (hok : s.InTime .clear)
    (hstep : s.callerStep .clear = some t) : t.InStep := by
  rw [callerStep] at hstep
  split at hstep
  · rename_i n hcaller
    cases hstep
    have hcall : s.call = some n := by rw [call, hcaller]
    cases h.control with
    | idle hother | attached m hother | finished m hother => simp [hcaller] at hother
    | answering m hm hanswering =>
      simp only [hcaller, CallerPc.written.injEq, reduceCtorEq, or_false] at hm
      subst hm
      have hsame : Function.update s.objects n { s.objects n with lineCounts := 0 } =
          s.objects := by
        rw [← hanswering.lineCounts_zero hok]
        exact Function.update_eq_self n s.objects
      rw [hsame]
      refine h.within (.answering n (.inr (.inl rfl)) (hanswering.goOn ?_ _)) rfl hcall.symm rfl rfl
        rfl fun _ _ => rfl
      rw [hcaller]
      nofun
  · cases hstep

theorem InStep.take (h : s.InStep) (hstep : s.callerStep .take = some t) : t.InStep := by
  rw [callerStep] at hstep
  split at hstep
  · rename_i n hcaller
    split at hstep
    · rename_i hpos
      cases hstep
      have hcall : s.call = some n := by rw [call, hcaller]
      have hwaits : s.caller ≠ .leaving n .timeout := by
        rw [hcaller]
        nofun
      cases h.control with
      | idle hother | attached m hother | finished m hother => simp [hcaller] at hother
      | answering m hm hanswering =>
        simp only [hcaller, CallerPc.waiting.injEq, reduceCtorEq, or_false, false_or] at hm
        subst hm
        cases hanswering with
        | recv done _ hzero => omega
        | got done line _ hzero => omega
        | ended _ hzero => omega
        | release _ hzero => omega
        | done hresp hone hparser hlen hcounts hquiet hobject hstatus =>
          refine h.within (.finished n (.inl rfl) hresp ⟨hparser, ?_, hlen, hcounts⟩
            ⟨hquiet.pending, hquiet.wire⟩ hobject (hstatus hwaits)) rfl hcall.symm rfl rfl rfl
            fun _ _ => rfl
          exact congrArg (· - 1) hone
    · cases hstep
  · cases hstep

theorem InStep.timeout (h : s.InStep) (hstep : s.callerStep .timeout = some t) : t.InStep := by
  rw [callerStep] at hstep
  split at hstep
  · rename_i n hcaller
    split at hstep
    · cases hstep
      have hcall : s.call = some n := by rw [call, hcaller]
      cases h.control with
      | idle hother | attached m hother | finished m hother => simp [hcaller] at hother
      | answering m hm hanswering =>
        simp only [hcaller, CallerPc.waiting.injEq, reduceCtorEq, or_false, false_or] at hm
        subst hm
        exact h.within (.answering n (.inr (.inr rfl)) hanswering.giveUp) rfl hcall.symm rfl rfl rfl
          fun _ _ => rfl
    · cases hstep
  · cases hstep

theorem InStep.check (h : s.InStep) (hstep : s.callerStep .check = some t) : t.InStep := by
  rw [callerStep] at hstep
  split at hstep
  · rename_i n hcaller
    cases hstep
    have hcall : s.call = some n := by rw [call, hcaller]
    cases h.control with
    | idle hother | attached m hother | answering m hother => simp [hcaller] at hother
    | finished m hm hresp hrests hquiet hobject hstatus =>
      obtain rfl : n = m := by
        rcases hm with hm | ⟨_, hm, -⟩
        · exact CallerPc.notified.inj (hcaller.symm.trans hm)
        · rw [hcaller] at hm
          cases hm
      refine h.within (.finished n (.inr ⟨_, rfl, ?_, s.respStatus, hstatus, hobject, rfl⟩) hresp
        ⟨hrests.parser, hrests.respNotice, hrests.respBufLen, hrests.lineCounts⟩
        ⟨hquiet.pending, hquiet.wire⟩ hobject hstatus) rfl hcall.symm rfl rfl rfl fun _ _ => rfl
      split <;> nofun
  · cases hstep

theorem InStep.leave (h : s.InStep) (hok : s.InTime .leave)
    (hstep : s.callerStep .leave = some t) : t.InStep := by
  rw [callerStep] at hstep
  split at hstep
  · rename_i n result hcaller
    cases hstep
    have hcall : s.call = some n := by rw [call, hcaller]
    -- what has been returned before is still right, and so is the new result
    have hleft (hrests : s.Rests) (hnew : result ≠ .timeout → n ∉ s.pending ∧ s.Answered n result) :
        InStep { s with caller := .idle, resp := none, returned := s.returned ++ [(n, result)] } :=
      { control := .idle rfl rfl
          ⟨hrests.parser, hrests.respNotice, hrests.respBufLen, hrests.lineCounts⟩
        call_lt := nofun
        pending_lt := h.pending_lt
        sent_lt := h.sent_lt
        answered := by
          intro p hp hresult
          rcases List.mem_append.mp hp with hp | hp
          · obtain ⟨hlt, -, hpending, hanswered⟩ := h.answered p hp hresult
            exact ⟨hlt, nofun, hpending, hanswered⟩
          · rw [List.mem_singleton.mp hp] at hresult ⊢
            obtain ⟨hpending, hanswered⟩ := hnew hresult
            exact ⟨h.call_lt n hcall, nofun, hpending, hanswered⟩ }
    cases h.control with
    | idle hother | attached m hother => simp [hcaller] at hother
    | answering m hm hanswering =>
      simp only [hcaller, CallerPc.leaving.injEq, reduceCtorEq, false_or] at hm
      obtain ⟨rfl, rfl⟩ := hm
      obtain ⟨hparser, hnotice, hlen, hcounts⟩ := hok (by rw [hcaller]; trivial)
      exact hleft ⟨hparser, hnotice, hlen, hcounts⟩ fun hne => absurd rfl hne
    | finished m hm hresp hrests hquiet hobject hstatus =>
      simp only [hcaller, reduceCtorEq, CallerPc.leaving.injEq, false_or] at hm
      obtain ⟨result', ⟨rfl, rfl⟩, -, hanswered⟩ := hm
      exact hleft hrests fun _ => ⟨by rw [hquiet.pending]; exact List.not_mem_nil, hanswered⟩
  · cases hstep

theorem InStep.parserStep {a : LinkAction} (h : s.InStep) (hstep : s.parserStep a = some t) :
    t.InStep := by
  obtain ⟨hcaller, hcalls, hpending, hsent, hreturned, hobjects⟩ := parserStep_frame hstep
  have hcall : t.call = s.call := by rw [call, call, hcaller]
  refine h.within ?_ hcalls hcall hpending hsent hreturned fun k hk =>
    hobjects k fun hresp => hk (h.control.call_of_resp hresp)
  cases h.control with
  | idle hidle hresp hrests =>
    obtain ⟨w, rest, hwire, rfl⟩ := parserStep_of_recv hrests.parser hstep
    exact .idle hidle hresp
      ⟨if_pos hresp, hrests.respNotice, hrests.respBufLen, hrests.lineCounts⟩
  | attached n _ hresp hrests hquiet =>
    obtain ⟨w, rest, hwire, rfl⟩ := parserStep_of_recv hrests.parser hstep
    rw [hquiet.wire] at hwire
    cases hwire
  | answering n hn hanswering =>
    exact .answering n (by rw [hcaller]; exact hn) (hanswering.parserStep hstep)
  | finished n _ hresp hrests hquiet =>
    obtain ⟨w, rest, hwire, rfl⟩ := parserStep_of_recv hrests.parser hstep
    rw [hquiet.wire] at hwire
    cases hwire

theorem InStep.moduleStep (h : s.InStep) (hstep : s.moduleStep line = some t) : t.InStep := by
  obtain ⟨m, rest, hpending, ht⟩ := moduleStep_frame hstep
  have hm : m ∈ s.pending := by
    rw [hpending]
    exact List.mem_cons_self
  have hsub : ∀ k ∈ t.pending, k ∈ s.pending := by
    rw [hpending, ht]
    intro k hk
    simp only at hk
    split at hk
    · exact List.mem_cons_of_mem m hk
    · exact hk
  refine
    { control := ?_
      call_lt := by rw [ht]; exact h.call_lt
      pending_lt := fun k hk => by rw [ht]; exact h.pending_lt k (hsub k hk)
      sent_lt := ?_
      answered := ?_ }
  · cases h.control with
    | idle hidle hresp hrests =>
      rw [ht]
      exact .idle hidle hresp
        ⟨hrests.parser, hrests.respNotice, hrests.respBufLen, hrests.lineCounts⟩
    | attached n _ _ _ hquiet => rw [hquiet.pending] at hpending; cases hpending
    | answering n hn hanswering =>
      exact .answering n (by rw [ht]; exact hn) (hanswering.moduleStep hstep)
    | finished n _ _ _ hquiet => rw [hquiet.pending] at hpending; cases hpending
  · rw [ht]
    intro w hw
    rcases List.mem_append.mp hw with hw | hw
    · exact h.sent_lt w hw
    · rw [List.mem_singleton.mp hw]
      exact h.pending_lt m hm
  · intro p hp hresult
    rw [ht] at hp
    obtain ⟨hlt, hne, hnot, hanswered⟩ := h.answered p hp hresult
    have hother : m ≠ p.1 := fun heq => hnot (heq ▸ hm)
    refine ⟨by rw [ht]; exact hlt, by rw [ht]; exact hne, fun hmem => hnot (hsub p.1 hmem), ?_⟩
    rw [ht]
    refine hanswered.congr rfl ?_
    rw [replyTo_concat rfl, if_neg hother, List.append_nil]

theorem InStep.step {a : LinkAction} (h : s.InStep) (hok : s.InTime a) (hstep : s.step a = some t) :
    t.InStep := by
  cases a with
  | begin bufSize => exact h.begin hok hstep
  | write => exact h.write hstep
  | clear => exact h.clear hok hstep
  | take => exact h.take hstep
  | timeout => exact h.timeout hstep
  | check => exact h.check hstep
  | leave => exact h.leave hok hstep
  | module line => exact h.moduleStep hstep
  | read => exact h.parserStep (a := .read) hstep
  | store => exact h.parserStep (a := .store) hstep
  | finish => exact h.parserStep (a := .finish) hstep
  | release => exact h.parserStep (a := .release) hstep

theorem Control.not_fault (h : s.Control) : s.parser ≠ .fault := by
  cases h with
  | idle _ _ hrests => rw [hrests.parser]; nofun
  | attached _ _ _ hrests => rw [hrests.parser]; nofun
  | finished _ _ _ hrests => rw [hrests.parser]; nofun
  | answering n _ hanswering =>
    cases hanswering with
    | recv _ _ _ hparser => rw [hparser]; nofun
    | got _ _ _ _ hparser => rw [hparser]; nofun
    | ended _ _ hparser => rw [hparser]; nofun
    | release _ _ hparser => rw [hparser]; nofun
    | done _ _ hparser => rw [hparser]; nofun

/-- A whole reply is what `client_parser` makes of its lines. -/
theorem Whole.lines {lines : List (List UInt8)} {status : AtRespStatus} (h : Whole lines status)
    (bufSize : Nat) : ∃ a, (ReplyParse.start bufSize).lines lines = some a ∧
      a.resp = wholeResponse bufSize lines ∧ a.respStatus = status := by
  obtain ⟨init, last, rfl, hinit, hlast⟩ := h
  exact ⟨_, ReplyParse.lines_eq rfl hinit hlast, rfl, rfl⟩

/-- In a run whose steps are in time, whatever their order, the parser is never stopped by a null
pointer, and every call that returns without a timeout has in its object the reply to its own
command, with the result that this reply tells. -/
theorem calls_answered {as : List LinkAction}
    (hok : Transition.StepsMeet step InTime start as)
    (hrun : Transition.run step start as = some s) :
    s.parser ≠ .fault ∧ ∀ n result, (n, result) ∈ s.returned → result ≠ .timeout →
      ∃ a, (ReplyParse.start (s.objects n).bufSize).lines (s.replyTo n) = some a ∧
        s.objects n = a.resp ∧
        result = if a.respStatus = .ok then .success else .statusError := by
  have h : s.InStep :=
    Transition.run_preserves (fun _ _ _ h hok hstep => h.step hok hstep) inStep_start hok hrun
  refine ⟨h.control.not_fault, fun n result hreturned hresult => ?_⟩
  obtain ⟨-, -, -, status, hwhole, hobject, hstatus⟩ := h.answered (n, result) hreturned hresult
  obtain ⟨a, ha, hresp, hend⟩ := hwhole.lines (s.objects n).bufSize
  exact ⟨a, ha, by rw [hresp]; exact hobject, by rw [hend]; exact hstatus⟩

/-- The reply to a command whose caller gave up comes while nobody waits; the next command gets its
own. -/
def sample : List LinkAction :=
  [.begin 64, .write, .clear, .timeout, .leave, .module (ascii "OK\r\n"), .read,
    .begin 64, .write, .clear, .module (ascii "+STATUE:LORA_JOIN\r\n"), .read,
    .module (ascii "OK\r\n"), .store, .read, .store, .finish, .release, .take, .check, .leave]

theorem calls_answered_sample : ∃ s, Transition.run step start sample = some s ∧
    s.parser ≠ .fault ∧ ∀ n result, (n, result) ∈ s.returned → result ≠ .timeout →
      ∃ a, (ReplyParse.start (s.objects n).bufSize).lines (s.replyTo n) = some a ∧
        s.objects n = a.resp ∧
        result = if a.respStatus = .ok then .success else .statusError := by
  have hsome : (Transition.run step start sample).isSome := by decide +kernel
  obtain ⟨s, hs⟩ := Option.isSome_iff_exists.mp hsome
  exact ⟨s, hs, calls_answered (by decide +kernel) hs⟩

end AtLink

end ControlBoard
