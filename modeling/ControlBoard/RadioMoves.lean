import ControlBoard.Lib.Transition
import ControlBoard.RadioThread
import Mathlib.Logic.Relation

/-!
# The moves of the radio thread

A step of the thread is a chain of moves, each of which touches the mailbox (the event flag,
`RadioBuffer`, the blocks) in one way only. Invariants are checked move by move. The parameter
`Q` is what a run guarantees wherever the thread tests `radioStatue` for a received
`RADIO_EVENT_SEND`.
-/

namespace ControlBoard

open EventObject

/-! ## Positions -/

namespace Pc

/-- No received `RADIO_EVENT_SEND` is in hand. -/
def Resting : Pc → Prop
  | .recv (.resumed event) => ¬ Flags.Raised event radioEventSend
  | .query event _ => ¬ Flags.Raised event radioEventSend
  | .handle event => ¬ Flags.Raised event radioEventSend
  | .send _ _ => False
  | .fault _ => False
  | _ => True

/-- A `RADIO_EVENT_SEND` was received, or handed over, and is not handled yet. -/
def Holding : Pc → Prop
  | .recv (.resumed event) => Flags.Raised event radioEventSend
  | .query event _ => Flags.Raised event radioEventSend
  | .handle event => Flags.Raised event radioEventSend
  | _ => False

/-- The block that is being sent. -/
def sending : Pc → Option Nat
  | .send b _ => some b
  | _ => none

/-- The thread waits in `rt_event_recv`. -/
def waitsInRecv : Pc → Bool
  | .recv .suspended => true
  | _ => false

theorem eq_of_waitsInRecv {pc : Pc} (h : pc.waitsInRecv = true) : pc = .recv .suspended := by
  unfold waitsInRecv at h
  split at h
  · rfl
  · cases h

instance : DecidablePred Holding := fun pc => by
  unfold Holding
  split <;> infer_instance

theorem Resting.not_holding {pc : Pc} (h : pc.Resting) : ¬ pc.Holding := by
  intro hholding
  unfold Holding at hholding
  split at hholding
  · exact h hholding
  · exact h hholding
  · exact h hholding
  · exact hholding

theorem Resting.sending {pc : Pc} (h : pc.Resting) : pc.sending = none := by
  cases pc with
  | send b p => exact absurd h not_false
  | _ => rfl

theorem Holding.sending {pc : Pc} (h : pc.Holding) : pc.sending = none := by
  cases pc with
  | send b p => exact absurd h not_false
  | _ => rfl

/-- A thread that asks for flags has none in hand. -/
theorem resting_of_asking {pc : Pc} (h : pc = .recv .suspended ∨ pc = .recv .away) :
    pc.Resting := by
  rcases h with rfl | rfl
  · trivial
  · trivial

theorem Resting.ne_fault {pc : Pc} (h : pc.Resting) (f : Fault) : pc ≠ .fault f := by
  rintro rfl
  exact h

theorem Holding.ne_fault {pc : Pc} (h : pc.Holding) (f : Fault) : pc ≠ .fault f := by
  rintro rfl
  exact h

theorem not_holding_of_sending {pc : Pc} {b : Nat} (h : pc.sending = some b) : ¬ pc.Holding := by
  intro hpc
  rw [hpc.sending] at h
  cases h

theorem ne_fault_of_sending {pc : Pc} {b : Nat} (h : pc.sending = some b) (f : Fault) :
    pc ≠ .fault f := by
  rintro rfl
  cases h

end Pc

/-- A call of `radio_send` that returns 0. -/
def Action.Accepted : Action → Prop
  | .radioSend _ size block => size < 50 ∧ block ≠ none
  | _ => False

instance : DecidablePred Action.Accepted := fun a => by
  unfold Action.Accepted
  split <;> infer_instance

namespace RadioSys

/-- The thread is at the test of `radioStatue` for a received `RADIO_EVENT_SEND`. -/
def AtSendBranch (s : RadioSys) : Prop :=
  match s.pc with
  | .handle event => Flags.Raised event radioEventSend
  | _ => False

instance (s : RadioSys) : Decidable s.AtSendBranch := by
  unfold AtSendBranch
  split <;> infer_instance

/-- If the step reaches that test, it does so in a state with `Q`. -/
def BranchMeets (Q : RadioSys → Prop) (env : Env) (s : RadioSys) : Prop :=
  ∀ t ∈ s.toBranch env, t.AtSendBranch → Q t

instance (Q : RadioSys → Prop) [DecidablePred Q] (env : Env) (s : RadioSys) :
    Decidable (BranchMeets Q env s) := inferInstanceAs (Decidable (∀ t ∈ s.toBranch env, _))

/-- The moves of the thread. -/
inductive Move (Q : RadioSys → Prop) : RadioSys → RadioSys → Prop where
  | rest {s : RadioSys} (pc : Pc) (statue : AtRadioStatue) (timer : Bool)
      (hfrom : s.pc.Resting) (hto : pc.Resting) :
      Move Q s { s with pc := pc, radioStatue := statue, checkTimer := timer }
  | take {s : RadioSys} {left event : BitVec 32}
      (hpc : s.pc = .recv .suspended ∨ s.pc = .recv .away)
      (hevent : Flags.Raised event radioEventSend ↔ s.Pending)
      (hleft : ¬ Flags.Raised left radioEventSend) : Move Q s (s.take left event)
  | hold {s : RadioSys} (pc : Pc) (statue : AtRadioStatue) (hfrom : s.pc.Holding)
      (hto : pc.Holding) : Move Q s { s with pc := pc, radioStatue := statue }
  | refuse {s : RadioSys} (hpc : s.pc.Holding) (hQ : Q s) (hrefused : ¬ s.SendAllowed) :
      Move Q s (s.refuse.goto (.recv .away))
  | read {s : RadioSys} {b : Nat} {d : DataS} (p : Prog Io AtError) (hpc : s.pc.Holding)
      (hQ : Q s) (hallowed : s.SendAllowed) (hslot : s.slot = some (b, d)) :
      Move Q s ((s.readSlot b d).goto (.send b p))
  | deadRead {s : RadioSys} (hpc : s.pc.Holding) (hQ : Q s) (hallowed : s.SendAllowed)
      (hslot : s.slot = none) : Move Q s (s.goto (.fault .deadRead))
  | send {s : RadioSys} {b : Nat} (p : Prog Io AtError) (hpc : s.pc.sending = some b) :
      Move Q s (s.goto (.send b p))
  | free {s : RadioSys} {passed b : Nat} {d : DataS} (hpc : s.pc.sending = some passed)
      (hslot : s.slot = some (b, d)) : Move Q s ((s.release b d passed).goto (.recv .away))
  | freeNull {s : RadioSys} {passed : Nat} (hpc : s.pc.sending = some passed)
      (hnull : s.radioBuffer = none) : Move Q s ((s.releaseNull passed).goto (.recv .away))
  | deadFree {s : RadioSys} {passed b : Nat} (hpc : s.pc.sending = some passed)
      (hbuf : s.radioBuffer = some b) (hdead : s.heap b = none) :
      Move Q s (s.goto (.fault .deadFree))
  | overrun {s : RadioSys} (hpc : s.pc.Resting ∨ s.pc.Holding) :
      Move Q s (s.goto (.fault .strOverrun))

/-- What a run guarantees at the test of `radioStatue` is used only there. -/
theorem Move.imp {Q Q' : RadioSys → Prop} {s s' : RadioSys} (h : Move Q s s')
    (himp : s.pc.Holding → Q s → Q' s) : Move Q' s s' := by
  cases h with
  | rest pc statue timer hfrom hto => exact .rest pc statue timer hfrom hto
  | take hpc hevent hleft => exact .take hpc hevent hleft
  | hold pc statue hfrom hto => exact .hold pc statue hfrom hto
  | refuse hpc hQ hrefused => exact .refuse hpc (himp hpc hQ) hrefused
  | read p hpc hQ hallowed hslot => exact .read p hpc (himp hpc hQ) hallowed hslot
  | deadRead hpc hQ hallowed hslot => exact .deadRead hpc (himp hpc hQ) hallowed hslot
  | send p hpc => exact .send p hpc
  | free hpc hslot => exact .free hpc hslot
  | freeNull hpc hnull => exact .freeNull hpc hnull
  | deadFree hpc hbuf hdead => exact .deadFree hpc hbuf hdead
  | overrun hpc => exact .overrun hpc

abbrev Moves (Q : RadioSys → Prop) : RadioSys → RadioSys → Prop := Relation.ReflTransGen (Move Q)

variable {fal : Bool} {env : Env} {Q : RadioSys → Prop} {s s' : RadioSys}

theorem slot_eq_some {b : Nat} {d : DataS} :
    s.slot = some (b, d) ↔ s.radioBuffer = some b ∧ s.heap b = some d := by
  simp only [slot, Option.bind_eq_bind, Option.bind_eq_some_iff, Option.pure_def, Option.some_inj,
    Prod.mk.injEq]
  constructor
  · intro h
    obtain ⟨b', hb, d', hd, rfl, rfl⟩ := h
    exact ⟨hb, hd⟩
  · intro h
    obtain ⟨hb, hd⟩ := h
    exact ⟨b, hb, d, hd, rfl, rfl⟩

theorem joined_moves (h : s.pc.Resting) (p : Prog Io AtError) : Move Q s (s.joined p) := by
  cases p with
  | ret a => exact .rest .joinDelay s.radioStatue s.checkTimer h trivial
  | call op k => exact .rest (.join (.call op k)) s.radioStatue s.checkTimer h trivial

theorem loopHead_moves (h : s.pc.Resting) : Move Q s (loopHead fal env s) := by
  unfold loopHead
  split
  · exact joined_moves h _
  · exact .rest (.recv .away) s.radioStatue s.checkTimer h trivial

theorem firstQueried_moves (h : s.pc.Resting) (p : Prog Io (Option (AtError × AtRadioStatue))) :
    Moves Q s (firstQueried fal env s p) := by
  cases p with
  | ret r =>
    cases r with
    | none => exact .single (.overrun (.inl h))
    | some r =>
      have hrest := Move.rest (Q := Q) s.pc r.2 true h h
      exact .tail (.single hrest) (loopHead_moves h)
  | call op k =>
    exact .single (.rest (.firstQuery (.call op k)) s.radioStatue s.checkTimer h trivial)

/-- The thread has received `event`, with or without a `RADIO_EVENT_SEND`. -/
def AtEvent (s : RadioSys) (event : BitVec 32) : Prop :=
  if Flags.Raised event radioEventSend then s.pc.Holding else s.pc.Resting

theorem atEvent_recv {event : BitVec 32} (h : s.pc = .recv (.resumed event)) : s.AtEvent event := by
  rw [AtEvent, h]
  split
  · assumption
  · assumption

theorem atEvent_query {event : BitVec 32} {p : Prog Io (Option (AtError × AtRadioStatue))}
    (h : s.pc = .query event p) : s.AtEvent event := by
  rw [AtEvent, h]
  split
  · assumption
  · assumption

/-- Where the thread goes with the flags it has received. -/
theorem AtEvent.goto {event : BitVec 32} (h : s.AtEvent event) (pc : Pc) (statue : AtRadioStatue)
    (hholding : Flags.Raised event radioEventSend → pc.Holding)
    (hresting : ¬ Flags.Raised event radioEventSend → pc.Resting) :
    Move Q s { s with pc := pc, radioStatue := statue } := by
  rw [AtEvent] at h
  split at h
  · rename_i hsend
    exact .hold pc statue h (hholding hsend)
  · rename_i hsend
    exact .rest pc statue s.checkTimer h (hresting hsend)

/-- The query of the loop neither takes nor gives back a received flag. -/
theorem queried_moves {event : BitVec 32} (h : s.AtEvent event)
    (p : Prog Io (Option (AtError × AtRadioStatue))) : Move Q s (s.queried event p) := by
  cases p with
  | ret r =>
    cases r with
    | none =>
      refine .overrun ?_
      rw [AtEvent] at h
      split at h
      · exact .inr h
      · exact .inl h
    | some r => exact h.goto (.handle event) r.2 id id
  | call op k => exact h.goto (.query event (.call op k)) s.radioStatue id id

/-- Both ways to come to the handling of a received event. -/
theorem toBranch_moves (h : s.toBranch env = some s') : Move Q s s' := by
  unfold toBranch at h
  split at h
  · rename_i event hpc
    cases h
    rw [received]
    split
    · exact queried_moves (atEvent_recv hpc) _
    · exact (atEvent_recv hpc).goto (.handle event) s.radioStatue id id
  · rename_i event p hpc
    cases h
    exact queried_moves (atEvent_query hpc) _
  · cases h

/-- The head of the loop does not look at where it was reached from. -/
theorem loopHead_goto (s : RadioSys) (pc : Pc) :
    loopHead fal env (s.goto pc) = loopHead fal env s := by
  simp only [loopHead, goto_radioStatue]
  split
  · cases (raidoJoinConfigJoin fal env.useInfo none).settle IoOp.blocks env.join with
    | ret a => rfl
    | call op k => rfl
  · rfl

theorem loopHead_moves_recv (s : RadioSys) :
    Move Q (s.goto (.recv .away)) (loopHead fal env s) := by
  rw [← loopHead_goto s (.recv .away)]
  exact loopHead_moves trivial

theorem rtFree_null (h : s.radioBuffer = none) (passed : Nat) :
    s.rtFree passed = .ok (s.releaseNull passed) := by
  simp only [rtFree, h]

theorem rtFree_dead {b : Nat} (hbuf : s.radioBuffer = some b) (hdead : s.heap b = none)
    (passed : Nat) : s.rtFree passed = .error .deadFree := by
  simp only [rtFree, hbuf, hdead]

theorem rtFree_live {b : Nat} {d : DataS} (h : s.slot = some (b, d)) (passed : Nat) :
    s.rtFree passed = .ok (s.release b d passed) := by
  obtain ⟨hbuf, hheap⟩ := slot_eq_some.mp h
  simp only [rtFree, hbuf, hheap]

/-- The three things `RadioBuffer` can be. -/
theorem slot_cases (s : RadioSys) :
    s.radioBuffer = none ∨ (∃ b, s.radioBuffer = some b ∧ s.heap b = none) ∨
      ∃ b d, s.slot = some (b, d) := by
  cases hbuf : s.radioBuffer with
  | none => exact .inl rfl
  | some b =>
    cases hheap : s.heap b with
    | none => exact .inr (.inl ⟨b, rfl, hheap⟩)
    | some d => exact .inr (.inr ⟨b, d, slot_eq_some.mpr ⟨hbuf, hheap⟩⟩)

theorem sent_moves {b : Nat} (h : s.pc.sending = some b) (p : Prog Io AtError) :
    Moves Q s (s.commit (sent fal env b s p)) := by
  cases p with
  | call op k => exact .single (.send (.call op k) h)
  | ret a =>
    rcases s.slot_cases with hnull | ⟨b', hbuf, hdead⟩ | ⟨b', d, hslot⟩
    · have hfree := Move.freeNull (Q := Q) h hnull
      rw [sent, rtFree_null hnull]
      exact .tail (.single hfree) (loopHead_moves_recv (s.releaseNull b))
    · rw [sent, rtFree_dead hbuf hdead]
      exact .single (.deadFree h hbuf hdead)
    · have hfree := Move.free (Q := Q) h hslot
      rw [sent, rtFree_live hslot]
      exact .tail (.single hfree) (loopHead_moves_recv (s.release b' d b))

/-- Nor does what follows `at_radio_send_hex`. -/
theorem sent_goto (s : RadioSys) (pc : Pc) (b : Nat) (p : Prog Io AtError) :
    sent fal env b (s.goto pc) p = sent fal env b s p := by
  cases p with
  | call op k => rfl
  | ret a =>
    rcases s.slot_cases with hnull | ⟨b', hbuf, hdead⟩ | ⟨b', d, hslot⟩
    · rw [sent, sent, rtFree_null hnull, rtFree_null (s := s.goto pc) hnull]
      exact congrArg Except.ok (loopHead_goto (s.releaseNull b) pc)
    · rw [sent, sent, rtFree_dead hbuf hdead, rtFree_dead (s := s.goto pc) hbuf hdead]
    · rw [sent, sent, rtFree_live hslot, rtFree_live (s := s.goto pc) hslot]
      exact congrArg Except.ok (loopHead_goto (s.release b' d b) pc)

/-- Where the block to be sent is still allocated, the thread cannot fault on freeing it in the
same step; so it does not matter to which state a fault would go back. -/
theorem commit_sent_of_slot {b b' : Nat} {d : DataS} (h : s.slot = some (b', d))
    (p : Prog Io AtError) (t : RadioSys) :
    t.commit (sent fal env b s p) = s.commit (sent fal env b s p) := by
  cases p with
  | call op k => rfl
  | ret a =>
    rw [sent, rtFree_live h]
    rfl

theorem finish_moves (hQ : s.AtSendBranch → Q s) : Moves Q s (finish fal env s) := by
  unfold finish
  split
  · rename_i event hpc
    by_cases hsend : Flags.Raised event radioEventSend
    · have hholding : s.pc.Holding := by
        rw [hpc]
        exact hsend
      have hQs : Q s := by
        apply hQ
        rw [AtSendBranch, hpc]
        exact hsend
      by_cases hallowed : s.SendAllowed
      · cases hslot : s.slot with
        | none =>
          have hfault : s.commit (handleSend fal env event s) =
              (s.goto (.fault .deadRead)) := by
            simp only [handleSend, if_pos hsend, if_pos hallowed, hslot]
            rfl
          rw [hfault]
          exact .single (.deadRead hholding hQs hallowed hslot)
        | some bd =>
          obtain ⟨b, d⟩ := bd
          simp only [handleSend, if_pos hsend, if_pos hallowed, hslot]
          generalize (atRadioSendHex (Memory.read s.memory d.ptr d.size.toNat)).settle IoOp.blocks
            env.send = p
          have hread := Move.read (Q := Q) p hholding hQs hallowed hslot
          have hslot' : ((s.readSlot b d).goto (.send b p)).slot = some (b, d) := hslot
          rw [← sent_goto _ (.send b p), commit_sent_of_slot hslot' p s]
          exact .trans (.single hread) (sent_moves rfl p)
      · have hrefuse : s.commit (handleSend fal env event s) = loopHead fal env
            { s with handled := s.handled ++ [.refused s.radioStatue] } := by
          simp only [handleSend, if_pos hsend, if_neg hallowed]
          rfl
        rw [hrefuse]
        exact .tail (.single (.refuse hholding hQs hallowed)) (loopHead_moves_recv _)
    · have hskip : s.commit (handleSend fal env event s) = loopHead fal env s := by
        simp only [handleSend, if_neg hsend]
        rfl
      have hrest : s.pc.Resting := by
        rw [hpc]
        exact hsend
      rw [hskip]
      exact .single (loopHead_moves hrest)
  · exact .refl

/-! ## At the event object -/

theorem raised_select (event : BitVec 32) :
    Flags.Raised (event &&& radioEvents) radioEventSend ↔ Flags.Raised event radioEventSend :=
  Flags.raised_select (by decide) event

theorem wake_left (event : BitVec 32) :
    ¬ Flags.Raised (event &&& ~~~(event &&& radioEvents)) radioEventSend := by
  have hpart : radioEvents &&& radioEventSend = radioEventSend := by decide
  rw [Flags.Raised, ← hpart, ← BitVec.and_assoc, clear_self radioEvents event, not_not]
  exact BitVec.zero_and

/-- A send hands its flags to a suspended thread. -/
theorem sendEvent_moves (s : RadioSys) (set : BitVec 32) :
    Moves Q (s.raise set) (s.sendEvent set) := by
  unfold sendEvent
  split
  · rename_i hpc
    rw [wake]
    split
    · exact .single (.take (.inl hpc) (raised_select _) (wake_left _))
    · have hstays : s.arrive ((s.raise set).event, .suspended) =
          (s.raise set).goto (.recv .suspended) := rfl
      rw [hstays, ← hpc]
      exact .refl
  · exact .refl

/-- The thread takes its flags, or is suspended. -/
theorem receive_moves (hpc : s.pc = .recv .away) :
    Move Q s (s.arrive (receive radioEvents s.event)) := by
  rw [receive]
  split
  · exact .take (.inr hpc) (raised_select s.event) (Flags.not_raised_clear (by decide) s.event)
  · exact .rest (.recv .suspended) s.radioStatue s.checkTimer
      (Pc.resting_of_asking (.inr hpc)) trivial

/-! ## A step of the thread -/

/-- A step of the thread is a chain of moves. -/
theorem threadStep_moves (h : threadStep fal env s = some s') (hQ : BranchMeets Q env s) :
    Moves Q s s' := by
  have hloop {t : RadioSys} (ht : (toBranch env s).map (finish fal env) = some t) :
      Moves Q s t := by
    obtain ⟨u, hu, rfl⟩ := Option.map_eq_some_iff.mp ht
    exact .trans (.single (toBranch_moves hu)) (finish_moves (hQ u hu))
  have hrest {pc : Pc} (hpc : s.pc = pc) (hpc' : pc.Resting) : s.pc.Resting := hpc ▸ hpc'
  unfold threadStep at h
  split at h
  · rename_i hpc
    cases h
    exact firstQueried_moves (hrest hpc trivial) _
  · rename_i p hpc
    cases h
    exact firstQueried_moves (hrest hpc trivial) _
  · rename_i p hpc
    cases h
    exact .single (joined_moves (hrest hpc trivial) _)
  · rename_i hpc
    cases h
    exact .single (.rest (.recv .away) s.radioStatue s.checkTimer (hrest hpc trivial) trivial)
  · rename_i hpc
    cases h
    exact .single (receive_moves hpc)
  · cases h
  · exact hloop h
  · exact hloop h
  · rename_i b p hpc
    cases h
    exact sent_moves (by rw [hpc]; rfl) _
  · cases h
  · cases h

/-- What every move preserves, a chain of moves preserves. -/
theorem moves_preserve {Inv : RadioSys → Prop} (hmove : ∀ s t, Inv s → Move Q s t → Inv t)
    (hs : Inv s) (h : Moves Q s s') : Inv s' := by
  induction h with
  | refl => exact hs
  | tail _ hlast ih => exact hmove _ _ ih hlast

theorem threadStep_preserves {Inv : RadioSys → Prop} (hmove : ∀ s t, Inv s → Move Q s t → Inv t)
    (hs : Inv s) (h : threadStep fal env s = some s') (hQ : BranchMeets Q env s) : Inv s' :=
  moves_preserve hmove hs (threadStep_moves h hQ)

/-! ## The event flag -/

@[simp] theorem slot_goto (s : RadioSys) (pc : Pc) : (s.goto pc).slot = s.slot := rfl

@[simp] theorem slot_raise (s : RadioSys) (set : BitVec 32) : (s.raise set).slot = s.slot := rfl

theorem slot_release {b : Nat} {d : DataS} (h : s.slot = some (b, d)) (passed : Nat) :
    (s.release b d passed).slot = none := by
  obtain ⟨hbuf, -⟩ := slot_eq_some.mp h
  simp [slot, hbuf]

theorem slot_post (s : RadioSys) (data : Nat) (size : UInt8) (b : Nat) :
    (s.post data size b).slot = some (b, ⟨data, size, s.accepted.length⟩) :=
  slot_eq_some.mpr ⟨rfl, by simp⟩

theorem pending_post (s : RadioSys) (data : Nat) (size : UInt8) (b : Nat) :
    ((s.post data size b).raise radioEventSend).Pending :=
  (Flags.raised_or s.event radioEventSend radioEventSend).mpr (.inr (by decide))

/-- The status timer raises another flag. -/
theorem pending_timer (s : RadioSys) : (s.raise radioEventCheckStatue).Pending ↔ s.Pending := by
  rw [Pending, raise_event, rtEventSend, Flags.raised_or]
  exact or_iff_left (by decide)

/-! ## What one step of the board does -/

/-- Everything one step can do; what the thread does, and what is handed to it, is left to its
moves. -/
theorem step_cases {a : Action} (h : step fal s a = some s') :
    s.halted = false ∧
      ((∃ data size block, a = .radioSend data size block ∧ size ≥ 50 ∧ s' = s) ∨
        (∃ data size, a = .radioSend data size none ∧ size < 50 ∧
          s' = { s with radioBuffer := none, pc := .fault .nullStore }) ∨
        (∃ data size b, a = .radioSend data size (some b) ∧ size < 50 ∧ s.heap b = none ∧
          Moves Q ((s.post data size b).raise radioEventSend) s') ∨
        (a = .timer ∧ Moves Q (s.raise radioEventCheckStatue) s') ∨
        (∃ addr value, a = .write addr value ∧
          s' = { s with memory := Function.update s.memory addr value }) ∨
        ∃ env, a = .thread env ∧ threadStep fal env s = some s') := by
  unfold step at h
  split at h
  · cases h
  · rename_i hhalted
    refine ⟨by simpa using hhalted, ?_⟩
    cases a with
    | radioSend data size block =>
      simp only [radioSend] at h
      split at h
      · rename_i hsize
        exact .inl ⟨data, size, block, rfl, hsize, (Option.some_inj.mp h).symm⟩
      · rename_i hsize
        have hsize : size < 50 := UInt8.not_le.mp hsize
        cases block with
        | none => exact .inr (.inl ⟨data, size, rfl, hsize, (Option.some_inj.mp h).symm⟩)
        | some b =>
          simp only at h
          split at h
          · cases h
          · rename_i hfree
            have hfree : s.heap b = none := by simpa using hfree
            refine .inr (.inr (.inl ⟨data, size, b, rfl, hsize, hfree, ?_⟩))
            rw [← Option.some_inj.mp h]
            exact sendEvent_moves (s.post data size b) radioEventSend
    | timer =>
      simp only at h
      split at h
      · refine .inr (.inr (.inr (.inl ⟨rfl, ?_⟩)))
        rw [← Option.some_inj.mp h]
        exact sendEvent_moves s radioEventCheckStatue
      · cases h
    | write addr value =>
      exact .inr (.inr (.inr (.inr (.inl ⟨addr, value, rfl, (Option.some_inj.mp h).symm⟩))))
    | thread env => exact .inr (.inr (.inr (.inr (.inr ⟨env, rfl, h⟩))))

end RadioSys

/-- If the action is a step of the thread, it meets `Q` at the test of `radioStatue`. -/
def Action.MeetsBranch (Q : RadioSys → Prop) (s : RadioSys) : Action → Prop
  | .thread env => s.BranchMeets Q env
  | _ => True

instance (Q : RadioSys → Prop) [DecidablePred Q] (s : RadioSys) :
    DecidablePred (Action.MeetsBranch Q s) := fun a => by
  unfold Action.MeetsBranch
  split <;> infer_instance

end ControlBoard
