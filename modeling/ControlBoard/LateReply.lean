import ControlBoard.AtExchange
import Mathlib.Data.List.Induction

/-!
# A reply that comes too late

A line goes to the object that is attached when it is read, and nothing in it says which command
it answers. So a reply that comes after its caller gave up, when the next command has been
written, is taken for the reply to that one; and then the reply to that is still to come.
-/

namespace ControlBoard

namespace AtLink

variable {s t : AtLink} {n k : Nat}

/-- Nobody waits, and the module still owes its whole reply to call `n`, the last one. -/
structure Owes (s : AtLink) (n : Nat) : Prop where
  caller : s.caller = .idle
  rests : s.Rests
  calls : s.calls = n + 1
  pending : s.pending = [n]
  wire : s.wire = []
  sent_lt : ∀ w ∈ s.sent, w.1 < n

/-! ## One line -/

/-- The module sends a line, and the parser stores it. -/
def lineActions (line : List UInt8) : List LinkAction := [.module line, .read, .store]

/-- The state in which the parser has the line, and nothing else is on its way. -/
def handed (s : AtLink) (n k : Nat) (line : List UInt8) : AtLink :=
  { s with
    pending := if (lineEnd 0 0 line).isSome then [k] else [n, k]
    wire := []
    sent := s.sent ++ [(n, line)]
    parser := .got line }

/-- Call `k` waits, and its object has taken in some lines of the reply to call `n`. -/
structure Feeds (s : AtLink) (n k : Nat) (lines : List (List UInt8)) : Prop where
  resp : s.resp = some k
  respNotice : s.respNotice = 0
  parser : s.parser = .recv
  caller : s.caller = .waiting k
  pending : s.pending = [n, k]
  wire : s.wire = []
  reply : s.replyTo n = lines
  sent_le : ∀ w ∈ s.sent, w.1 ≤ n
  taken : s.Taken k lines

theorem replyTo_handed (s : AtLink) (n k : Nat) (line : List UInt8) (m : Nat) :
    (s.handed n k line).replyTo m = s.replyTo m ++ if n = m then [line] else [] :=
  replyTo_concat rfl m

theorem Feeds.run_lineActions {lines : List (List UInt8)} (h : s.Feeds n k lines)
    (line : List UInt8) :
    Transition.run step s (lineActions line) = some ((s.handed n k line).stored k line) := by
  have hmodule : step s (.module line) = some
      { s.handed n k line with wire := [(n, line)], parser := .recv } := by
    simp only [step, moduleStep, h.pending, h.wire, handed, h.parser]
    rfl
  have hread : step { s.handed n k line with wire := [(n, line)], parser := .recv } .read =
      some (s.handed n k line) := by
    have hresp : s.resp ≠ none := by
      rw [h.resp]
      exact Option.some_ne_none k
    simp [step, parserStep, handed, hresp]
  have hstore : step (s.handed n k line) .store = some ((s.handed n k line).stored k line) :=
    parserStep_store (s := s.handed n k line) rfl h.resp h.taken.resp_frame.1
  exact Transition.run_cons.mpr ⟨_, hmodule, Transition.run_cons.mpr ⟨_, hread,
    Transition.run_cons.mpr ⟨_, hstore, rfl⟩⟩⟩

/-- What earlier calls have got stays, and so do the replies to earlier commands. -/
structure Keeps (s t : AtLink) (n k : Nat) : Prop where
  calls : t.calls = s.calls
  returned : s.returned ⊆ t.returned
  objects : ∀ m < k, t.objects m = s.objects m
  bufSize : (t.objects k).bufSize = (s.objects k).bufSize
  replies : ∀ m < n, t.replyTo m = s.replyTo m

theorem Keeps.refl (s : AtLink) (n k : Nat) : s.Keeps s n k :=
  ⟨rfl, List.Subset.refl _, fun _ _ => rfl, rfl, fun _ _ => rfl⟩

theorem Keeps.trans {u : AtLink} (h : s.Keeps t n k) (h' : t.Keeps u n k) : s.Keeps u n k where
  calls := h'.calls.trans h.calls
  returned := List.Subset.trans h.returned h'.returned
  objects m hm := (h'.objects m hm).trans (h.objects m hm)
  bufSize := h'.bufSize.trans h.bufSize
  replies m hm := (h'.replies m hm).trans (h.replies m hm)

theorem keeps_stored (s : AtLink) (n k : Nat) (line : List UInt8) :
    s.Keeps ((s.handed n k line).stored k line) n k where
  calls := rfl
  returned := List.Subset.refl _
  objects m hm := Function.update_of_ne (Nat.ne_of_lt hm) _ _
  bufSize := by
    have hobject : ((s.handed n k line).stored k line).objects k =
        (((s.handed n k line).parsing k).store line).resp := Function.update_self k _ _
    rw [hobject, ReplyParse.store_frame]
    rfl
  replies m hm := by
    have hreply := replyTo_handed s n k line m
    rw [if_neg (Nat.ne_of_gt hm), List.append_nil] at hreply
    exact hreply

theorem sent_le_handed {line : List UInt8} (h : ∀ w ∈ s.sent, w.1 ≤ n) :
    ∀ w ∈ (s.handed n k line).sent, w.1 ≤ n := by
  intro w hw
  rcases List.mem_append.mp hw with hw | hw
  · exact h w hw
  · rw [List.mem_singleton.mp hw]

/-- A line in between is taken in. -/
theorem Feeds.next {lines : List (List UInt8)} {line : List UInt8} (h : s.Feeds n k lines)
    (hline : lineEnd 0 0 line = none) :
    ((s.handed n k line).stored k line).Feeds n k (lines ++ [line]) := by
  have hreply := replyTo_handed s n k line n
  rw [if_pos rfl, h.reply] at hreply
  exact
    { resp := h.resp
      respNotice := h.respNotice
      parser := by simp [stored, hline]
      caller := h.caller
      pending := by simp [stored, handed, hline]
      wire := rfl
      reply := hreply
      sent_le := sent_le_handed (k := k) h.sent_le
      taken := Taken.stored (s := s.handed n k line) h.taken line }

theorem Feeds.lines {lines init : List (List UInt8)} (h : s.Feeds n k lines)
    (hinit : ∀ l ∈ init, lineEnd 0 0 l = none) :
    ∃ t, Transition.run step s (init.flatMap lineActions) = some t ∧
      t.Feeds n k (lines ++ init) ∧ s.Keeps t n k := by
  induction init generalizing s lines with
  | nil => exact ⟨s, rfl, by rwa [List.append_nil], .refl s n k⟩
  | cons line init ih =>
    rw [List.forall_mem_cons] at hinit
    obtain ⟨t, hrun, hfeeds, hkeeps⟩ := ih (h.next hinit.1) hinit.2
    rw [List.append_assoc, List.singleton_append] at hfeeds
    refine ⟨t, ?_, hfeeds, (keeps_stored s n k line).trans hkeeps⟩
    rw [List.flatMap_cons]
    exact Transition.run_append (h.run_lineActions line) hrun

/-! ## One call -/

/-- The rest of a call whose object has taken in the last line. -/
def endActions : List LinkAction := [.finish, .release, .take, .check, .leave]

theorem run_endActions (hparser : s.parser = .ended) (hresp : s.resp = some k)
    (hcaller : s.caller = .waiting k) (hnotice : s.respNotice = 0) :
    Transition.run step s endActions = some
      { s with
        parser := .recv
        resp := none
        objects := Function.update s.objects k { s.objects k with lineCounts := s.lineCounts }
        respNotice := 0
        respBufLen := 0
        lineCounts := 0
        caller := .idle
        returned := s.returned ++
          [(k, if s.respStatus = .ok then .success else .statusError)] } := by
  simp [endActions, Transition.run, step, parserStep, callerStep, hparser, hresp, hcaller, hnotice]

/-- The call returns, and the reply to its own command is owed. -/
theorem Feeds.last {lines : List (List UInt8)} {line : List UInt8} {status : AtRespStatus}
    (h : s.Feeds n k lines) (hcalls : s.calls = k + 1) (hlt : n < k)
    (hline : lineEnd 0 0 line = some status) :
    ∃ t, Transition.run step s (lineActions line ++ endActions) = some t ∧ t.Owes k ∧
      s.Keeps t n k ∧ t.replyTo n = lines ++ [line] ∧
      t.objects k = wholeResponse (s.objects k).bufSize (lines ++ [line]) ∧
      (k, if status = .ok then ExecResult.success else .statusError) ∈ t.returned := by
  have htaken := Taken.stored (s := s.handed n k line) h.taken line
  have hkeeps := keeps_stored s n k line
  have hstatus : ((s.handed n k line).stored k line).respStatus = status := by
    simp [stored, hline]
  have hrun := run_endActions (s := (s.handed n k line).stored k line) (k := k)
    (by simp [stored, hline]) h.resp h.caller h.respNotice
  rw [hstatus] at hrun
  refine ⟨_, Transition.run_append (h.run_lineActions line) hrun, ?_, ?_, ?_, ?_, ?_⟩
  · exact
      { caller := rfl
        rests := ⟨rfl, rfl, rfl, rfl⟩
        calls := hcalls
        pending := by simp [stored, handed, hline]
        wire := rfl
        sent_lt := fun w hw => Nat.lt_of_le_of_lt (sent_le_handed (k := k) h.sent_le w hw) hlt }
  · exact
      { calls := rfl
        returned := fun p hp => List.mem_append_left _ (hkeeps.returned hp)
        objects := fun m hm =>
          (Function.update_of_ne (Nat.ne_of_lt hm) _ _).trans (hkeeps.objects m hm)
        bufSize := by
          simp only [Function.update_self]
          exact hkeeps.bufSize
        replies := hkeeps.replies }
  · have hreply := replyTo_handed s n k line n
    rw [if_pos rfl, h.reply] at hreply
    exact hreply
  · simp only [Function.update_self]
    rw [htaken.whole, hkeeps.bufSize]
  · simp

/-- The start of a call. -/
def beginActions (bufSize : Nat) : List LinkAction := [.begin bufSize, .write, .clear]

/-- A new call waits, and what comes in is the reply to the one before. -/
theorem Owes.begin (h : s.Owes n) (bufSize : Nat) :
    ∃ t, Transition.run step s (beginActions bufSize) = some t ∧ t.Feeds n (n + 1) [] ∧
      s.returned ⊆ t.returned ∧ (∀ m ≤ n, t.objects m = s.objects m) ∧
      (t.objects (n + 1)).bufSize = bufSize ∧ t.calls = n + 2 ∧
      ∀ m, t.replyTo m = s.replyTo m := by
  refine ⟨{ s with
    resp := some (n + 1)
    respStatus := .ok
    caller := .waiting (n + 1)
    calls := n + 2
    pending := [n, n + 1]
    objects := Function.update s.objects (n + 1) (.create bufSize 0) }, ?_, ?_, ?_, ?_, ?_, ?_, ?_⟩
  · simp [beginActions, Transition.run, step, callerStep, h.caller, h.calls, h.pending,
      AtResponse.create]
  · exact
      { resp := rfl
        respNotice := h.rests.respNotice
        parser := h.rests.parser
        caller := rfl
        pending := rfl
        wire := h.wire
        reply := replyTo_eq_nil h.sent_lt
        sent_le := fun w hw => Nat.le_of_lt (h.sent_lt w hw)
        taken := by
          refine ⟨?_, h.rests.respBufLen, h.rests.lineCounts⟩
          simp only [parsing, Function.update_self]
          rfl }
  · exact List.Subset.refl _
  · exact fun m hm => Function.update_of_ne (by omega) _ _
  · simp only [Function.update_self]
    rfl
  · rfl
  · exact fun m => rfl

/-- A call and its answer: what its object holds is the reply to the command before it. -/
theorem Owes.next (h : s.Owes n) (bufSize : Nat) {lines : List (List UInt8)}
    {status : AtRespStatus} (hlines : Whole lines status) :
    ∃ as t, Transition.run step s as = some t ∧ t.Owes (n + 1) ∧ t.replyTo n = lines ∧
      t.objects (n + 1) = wholeResponse bufSize lines ∧
      (n + 1, if status = .ok then ExecResult.success else .statusError) ∈ t.returned ∧
      s.returned ⊆ t.returned ∧ (∀ m ≤ n, t.objects m = s.objects m) ∧
      ∀ m < n, t.replyTo m = s.replyTo m := by
  obtain ⟨init, last, rfl, hinit, hlast⟩ := hlines
  obtain ⟨u, hbegin, hfeeds, hreturned, hobjects, hsize, hcalls, hreplies⟩ := h.begin bufSize
  obtain ⟨v, hmiddle, hfeeds', hkeeps⟩ := hfeeds.lines hinit
  obtain ⟨t, hend, howes, hkeeps', hreply, hobject, hresult⟩ :=
    hfeeds'.last (by rw [hkeeps.calls, hcalls]) (Nat.lt_succ_self n) hlast
  have hall := hkeeps.trans hkeeps'
  rw [List.nil_append] at hreply hobject
  refine ⟨_, t, Transition.run_append hbegin (Transition.run_append hmiddle hend), howes, hreply,
    ?_, hresult, List.Subset.trans hreturned hall.returned, fun m hm => ?_, fun m hm => ?_⟩
  · rw [hobject, hkeeps.bufSize, hsize]
  · rw [hall.objects m (by omega), hobjects m hm]
  · rw [hall.replies m hm, hreplies m]

/-! ## All calls from then on -/

/-- Call 0 has given up, and its reply is owed. -/
theorem owes_start : ∃ as s, Transition.run step start as = some s ∧ s.Owes 0 := by
  refine ⟨beginActions 64 ++ [.timeout, .leave], _, rfl, ?_⟩
  exact ⟨rfl, ⟨rfl, rfl, rfl, rfl⟩, rfl, rfl, rfl, nofun⟩

/-- Call `n + 1` has returned with the reply to call `n`. -/
def Shifted (s : AtLink) (n : Nat) (reply : Nat × List (List UInt8)) : Prop :=
  s.replyTo n = reply.2 ∧ ∃ a, (ReplyParse.start reply.1).lines reply.2 = some a ∧
    s.objects (n + 1) = a.resp ∧
    (n + 1, if a.respStatus = .ok then ExecResult.success else .statusError) ∈ s.returned

theorem owes_after (replies : List (Nat × List (List UInt8)))
    (hwhole : ∀ r ∈ replies, ∃ status, Whole r.2 status) :
    ∃ as s, Transition.run step start as = some s ∧ s.Owes replies.length ∧
      ∀ n r, replies[n]? = some r → s.Shifted n r := by
  induction replies using List.reverseRecOn with
  | nil =>
    obtain ⟨as, s, hrun, howes⟩ := owes_start
    exact ⟨as, s, hrun, howes, nofun⟩
  | append_singleton replies r ih =>
    obtain ⟨as, s, hrun, howes, hshifted⟩ :=
      ih fun r hr => hwhole r (List.mem_append_left _ hr)
    obtain ⟨status, hlines⟩ := hwhole r (by simp)
    obtain ⟨as', t, hrun', howes', hreply, hobject, hresult, hreturned, hobjects, hreplies⟩ :=
      howes.next r.1 hlines
    refine ⟨as ++ as', t, Transition.run_append hrun hrun', ?_, fun n r' hn => ?_⟩
    · rw [List.length_append]
      exact howes'
    · rcases Nat.lt_or_ge n replies.length with hlt | hge
      · -- an earlier call keeps what it has got
        rw [List.getElem?_append_left hlt] at hn
        obtain ⟨hr, a, ha, hobj, hres⟩ := hshifted n r' hn
        refine ⟨by rw [hreplies n hlt, hr], a, ha, ?_, hreturned hres⟩
        rw [hobjects (n + 1) hlt, hobj]
      · rw [List.getElem?_append_right hge, List.getElem?_singleton] at hn
        split at hn
        · obtain rfl : n = replies.length := by omega
          cases hn
          obtain ⟨a, ha, hresp, hstatus⟩ := hlines.lines r.1
          exact ⟨hreply, a, ha, by rw [hobject, hresp], by rw [hstatus]; exact hresult⟩
        · cases hn

/-- However many calls follow one that gave up, and whatever the module answers, there is a run in
which each of them returns with the reply to the command before it. -/
theorem replies_shifted (replies : List (Nat × List (List UInt8)))
    (hwhole : ∀ r ∈ replies, ∃ status, Whole r.2 status) :
    ∃ as s, Transition.run step start as = some s ∧
      ∀ n r, replies[n]? = some r → s.Shifted n r := by
  obtain ⟨as, s, hrun, -, hshifted⟩ := owes_after replies hwhole
  exact ⟨as, s, hrun, hshifted⟩

/-- The answer to `AT+STATUE?` is returned to a call that asked something else. -/
theorem replies_shifted_statue : ∃ as s, Transition.run step start as = some s ∧
    ∀ n r, [(64, [ascii "OK\r\n"]),
      (64, [ascii "+STATUE:LORA_JOIN\r\n", ascii "OK\r\n"])][n]? = some r → s.Shifted n r :=
  replies_shifted _ fun r hr => by
    rcases List.mem_cons.mp hr with rfl | hr
    · exact ⟨.ok, [], ascii "OK\r\n", rfl, nofun, by decide +kernel⟩
    · rw [List.mem_singleton.mp hr]
      exact ⟨.ok, [ascii "+STATUE:LORA_JOIN\r\n"], ascii "OK\r\n", rfl,
        by decide +kernel, by decide +kernel⟩

end AtLink

end ControlBoard
