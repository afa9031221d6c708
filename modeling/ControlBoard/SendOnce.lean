import ControlBoard.RadioSlot
import Mathlib.Data.List.Forall2

/-!
# Every accepted send is handled once

What the thread has handled is compared with the calls of `radio_send` that returned 0. The
mailbox holds one call, so the two sequences match as long as no call comes while another one
waits in it.
-/

namespace ControlBoard

/-- How a call is to be handled. -/
def Handles (c : SendCall) : Handled → Prop
  | .sent _ ptr size _ _ => ptr = c.data ∧ size = c.size
  | .refused statue => statue = .lose ∨ statue = .wait

namespace RadioSys

variable {fal : Bool} {s s' : RadioSys} {a : Action}

/-- The mailbox is kept, and not filled while it is full. -/
def OneAtATime (s : RadioSys) (a : Action) : Prop := KeepsSlot s a ∧ (a.Accepted → ¬ s.Pending)

instance : Decidable (OneAtATime s a) := inferInstanceAs (Decidable (_ ∧ _))

/-- Of the accepted calls, in their order, some are handled, at most one is in the thread's
hands, and at most one waits. -/
structure HandledOnce (s : RadioSys) : Prop where
  live : SlotLive s
  resting : ¬ s.pc.Holding → (∀ f, s.pc ≠ .fault f) →
    s.accepted.length = s.handled.length + s.raised.length
  holding : s.pc.Holding → s.accepted.length = s.handled.length + 1 + s.raised.length
  raised : s.raised.length ≤ 1
  handles : List.Forall₂ Handles (s.accepted.take s.handled.length) s.handled

theorem handledOnce_start (memory : Nat → UInt8) : HandledOnce (start memory) where
  live := slotLive_start memory
  resting _ _ := rfl
  holding := nofun
  raised := Nat.zero_le 1
  handles := .nil

/-- One more call was handled. -/
theorem forall₂_handles_concat {accepted : List SendCall} {handled : List Handled} {c : SendCall}
    {e : Handled} (h : List.Forall₂ Handles (accepted.take handled.length) handled)
    (hc : accepted[handled.length]? = some c) (he : Handles c e) :
    List.Forall₂ Handles (accepted.take (handled ++ [e]).length) (handled ++ [e]) := by
  rw [List.length_append, List.length_singleton, List.take_add_one, hc]
  exact List.rel_append h (.cons he .nil)

/-- A call counts as handled once its block has been read. -/
theorem HandledOnce.sending (h : HandledOnce s) {b : Nat} (hpc : s.pc.sending = some b) :
    s.accepted.length = s.handled.length + s.raised.length :=
  h.resting (Pc.not_holding_of_sending hpc) (Pc.ne_fault_of_sending hpc)

theorem HandledOnce.move (h : HandledOnce s)
    (hmove : Move (fun t => t.Pending → ¬ t.SendAllowed) s s') : HandledOnce s' := by
  have hlive := h.live.move hmove
  cases hmove with
  | rest pc statue timer hfrom hto =>
    exact ⟨hlive, fun _ _ => h.resting hfrom.not_holding hfrom.ne_fault,
      fun hpc => absurd hpc hto.not_holding, h.raised, h.handles⟩
  | take hpc hevent hleft =>
    have hrest := Pc.resting_of_asking hpc
    have hcount := h.resting hrest.not_holding hrest.ne_fault
    refine ⟨hlive, ?_, ?_, Nat.zero_le 1, h.handles⟩
    · intro hnot _
      have hnone : s.raised = [] := by
        by_contra hraised
        exact hnot (hevent.mpr (h.live.core.pending.mpr hraised))
      simpa [hnone] using hcount
    · intro hholding
      have hpending := h.live.core.pending.mp (hevent.mp hholding)
      have hlen := List.length_pos_iff.mpr hpending
      have := h.raised
      simp only [take_accepted, take_handled, take_raised, List.length_nil]
      omega
  | hold pc statue hfrom hto =>
    exact ⟨hlive, fun hnot _ => absurd hto hnot, fun _ => h.holding hfrom, h.raised, h.handles⟩
  | refuse hpc hQ hrefused =>
    have hcount := h.holding hpc
    refine ⟨hlive, ?_, nofun, h.raised, ?_⟩
    · intro _ _
      simp only [goto_accepted, goto_handled, goto_raised, refuse_accepted, refuse_handled,
        refuse_raised, List.length_append, List.length_singleton]
      exact hcount
    · have hlt : s.handled.length < s.accepted.length := by omega
      refine forall₂_handles_concat h.handles (List.getElem?_eq_getElem hlt) ?_
      simp only [SendAllowed, not_and_or, not_not] at hrefused
      exact hrefused
  | @read b d p hpc hQ hallowed hslot =>
    have hcount := h.holding hpc
    have hnone : s.raised = [] := by
      by_contra hraised
      exact hQ (h.live.core.pending.mpr hraised) hallowed
    obtain ⟨hcall, bytes, hc⟩ := h.live.core.slot b d hslot
    refine ⟨hlive, ?_, nofun, h.raised, ?_⟩
    · intro _ _
      simp only [goto_accepted, goto_handled, goto_raised, readSlot_accepted, readSlot_handled,
        readSlot_raised, List.length_append, List.length_singleton]
      exact hcount
    · -- the newest call is the one after those handled so far
      have hnext : d.call = s.handled.length := by
        rw [hnone, List.length_nil] at hcount
        omega
      rw [hnext] at hc
      exact forall₂_handles_concat h.handles hc ⟨rfl, rfl⟩
  | deadRead hpc hQ hallowed hslot => exact absurd rfl hlive.noDead.1
  | send p hpc => exact ⟨hlive, fun _ _ => h.sending hpc, nofun, h.raised, h.handles⟩
  | free hpc hslot => exact ⟨hlive, fun _ _ => h.sending hpc, nofun, h.raised, h.handles⟩
  | freeNull hpc hnull => exact ⟨hlive, fun _ _ => h.sending hpc, nofun, h.raised, h.handles⟩
  | deadFree hpc hbuf hdead => exact absurd rfl hlive.noDead.2
  | overrun hpc =>
    exact ⟨hlive, fun _ hfault => absurd rfl (hfault .strOverrun), nofun, h.raised, h.handles⟩

/-- A call that finds the mailbox empty. -/
theorem HandledOnce.post (h : HandledOnce s) (hsending : s.pc.sending = none)
    (hpending : ¬ s.Pending) (data : Nat) (size : UInt8) (b : Nat) :
    HandledOnce ((s.post data size b).raise radioEventSend) := by
  have hnone : s.raised = [] := by
    by_contra hraised
    exact hpending (h.live.core.pending.mpr hraised)
  have hle : s.handled.length ≤ s.accepted.length := by
    have hlen := h.handles.length_eq
    rw [List.length_take] at hlen
    omega
  refine ⟨h.live.post hsending data size b, fun hnot hfault => ?_, fun hpc => ?_, by simp [hnone],
    ?_⟩
  · have := h.resting hnot hfault
    simp only [raise_accepted, raise_handled, raise_raised, post_accepted, post_handled,
      post_raised, List.length_append, List.length_singleton]
    omega
  · have := h.holding hpc
    simp only [raise_accepted, raise_handled, raise_raised, post_accepted, post_handled,
      post_raised, List.length_append, List.length_singleton]
    omega
  · rw [raise_accepted, raise_handled, post_accepted, post_handled,
      List.take_append_of_le_length hle]
    exact h.handles

theorem HandledOnce.step (h : HandledOnce s) (hok : OneAtATime s a)
    (hstep : step fal s a = some s') : HandledOnce s' := by
  have hlive := h.live.step hok.1 hstep
  obtain ⟨hhalted, ⟨data, size, block, -, -, rfl⟩ | ⟨data, size, -, -, rfl⟩ |
    ⟨data, size, b, rfl, hsize, -, hsend⟩ | ⟨-, hsend⟩ | ⟨addr, value, -, rfl⟩ |
    ⟨env, rfl, hthread⟩⟩ := step_cases (Q := fun t => t.Pending → ¬ t.SendAllowed) hstep
  · exact h
  · exact ⟨hlive, fun _ hfault => absurd rfl (hfault .nullStore), nofun, h.raised, h.handles⟩
  · have hpost := h.post (hok.1.1 ⟨hsize, nofun⟩) (hok.2 ⟨hsize, nofun⟩) data size b
    exact moves_preserve (fun _ _ h => h.move) hpost hsend
  · have htimer : HandledOnce (s.raise radioEventCheckStatue) :=
      ⟨h.live.timer, h.resting, h.holding, h.raised, h.handles⟩
    exact moves_preserve (fun _ _ h => h.move) htimer hsend
  · exact ⟨hlive, h.resting, h.holding, h.raised, h.handles⟩
  · exact threadStep_preserves (fun _ _ h => h.move) h hthread hok.1.2

/-- Where no call comes while another one is in the mailbox or being sent, and one that comes
between the reception of a `RADIO_EVENT_SEND` and its handling is not followed by a send for that
event, every accepted call is handled once, in order, and no freed block is used. -/
theorem sends_handled_once {memory : Nat → UInt8} {actions : List Action}
    (hok : Transition.StepsMeet (step fal) OneAtATime (start memory) actions)
    (hrun : Transition.run (step fal) (start memory) actions = some s) :
    (s.pc ≠ .fault .deadRead ∧ s.pc ≠ .fault .deadFree) ∧
      (s.Idle → List.Forall₂ Handles s.accepted s.handled) := by
  have h : HandledOnce s := Transition.run_preserves (fun _ _ _ => HandledOnce.step)
    (handledOnce_start memory) hok hrun
  refine ⟨h.live.noDead, ?_⟩
  intro hidle
  obtain ⟨hpc, hpending⟩ := hidle
  have hnone : s.raised = [] := by
    by_contra hraised
    exact hpending (h.live.core.pending.mpr hraised)
  have hrest := Pc.resting_of_asking hpc
  have hcount := h.resting hrest.not_holding hrest.ne_fault
  rw [hnone, List.length_nil, Nat.add_zero] at hcount
  have hall := h.handles
  rw [← hcount, List.take_length] at hall
  exact hall

/-- The second upload begins when the first is done. -/
theorem sends_handled_once_uploads :
    ∃ s, Transition.run (step true) (start fun _ => 0)
        (Action.boot ++ Action.upload 0 0 ++ Action.upload 100 1) = some s ∧
      (s.pc ≠ .fault .deadRead ∧ s.pc ≠ .fault .deadFree) ∧
        (s.Idle → List.Forall₂ Handles s.accepted s.handled) := by
  obtain ⟨s, hs⟩ := uploads_run
  exact ⟨s, hs, sends_handled_once (by decide +kernel) hs⟩

/-- Two calls while the thread waits for the answer to a status query. -/
def callsDuringQuery : List Action :=
  Action.boot ++ [.timer, .thread .joined, .radioSend 0 12 (some 0), .radioSend 100 12 (some 1)] ++
    List.replicate 5 (.thread .joined)

/-- The two calls were accepted and only one was handled. -/
theorem sends_merged :
    ∃ s, Transition.run (step true) (start fun _ => 0) callsDuringQuery = some s ∧
      s.pc = .recv .suspended ∧ s.Idle ∧ ¬ List.Forall₂ Handles s.accepted s.handled := by
  have hrun : (Transition.run (step true) (start fun _ => 0) callsDuringQuery).map (fun s =>
      (s.pc.waitsInRecv, decide s.Pending, s.accepted.length, s.handled.length)) =
      some (true, false, 2, 1) := by
    decide +kernel
  obtain ⟨s, hs, hend⟩ := Option.map_eq_some_iff.mp hrun
  simp only [Prod.mk.injEq, decide_eq_false_iff_not] at hend
  obtain ⟨hpc, hpending, haccepted, hhandled⟩ := hend
  have hwaits := Pc.eq_of_waitsInRecv hpc
  refine ⟨s, hs, hwaits, ⟨.inl hwaits, hpending⟩, ?_⟩
  intro h
  have hlen := h.length_eq
  omega

end RadioSys

end ControlBoard
