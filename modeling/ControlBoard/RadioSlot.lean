import ControlBoard.RadioMoves

/-!
# The mailbox of the radio thread

`RadioBuffer` and the event flag form a mailbox of one place. Whatever the order of the steps,
an allocated block in it is that of the newest accepted `radio_send` (`Core`). That the place
is not overwritten under the thread's hands, and so always holds what the thread is about to
use (`SlotLive`), takes a condition on the steps (`KeepsSlot`).
-/

namespace ControlBoard

namespace RadioSys

variable {fal : Bool} {Q : RadioSys → Prop} {s s' : RadioSys} {a : Action}

/-- What holds in every run. Calls are numbered in the order of their acceptance, so the newest
is `accepted.length - 1`. -/
structure Core (s : RadioSys) : Prop where
  pending : s.Pending ↔ s.raised ≠ []
  raised : s.raised ≠ [] → s.accepted.length - 1 ∈ s.raised
  holding : s.pc.Holding → ¬ s.Pending → s.accepted.length - 1 ∈ s.handling
  slot : ∀ b d, s.slot = some (b, d) → d.call + 1 = s.accepted.length ∧
    ∃ bytes, s.accepted[d.call]? = some ⟨d.ptr, d.size, bytes⟩

theorem core_start (memory : Nat → UInt8) : Core (start memory) where
  pending := by simp [start, Pending]
  raised h := absurd rfl h
  holding := nofun
  slot b d h := by simp [start, RadioSys.slot] at h

theorem Core.move (h : Core s) (hmove : Move Q s s') : Core s' := by
  cases hmove with
  | rest pc statue timer hfrom hto =>
    exact ⟨h.pending, h.raised, fun hpc => absurd hpc hto.not_holding, h.slot⟩
  | take hpc hevent hleft =>
    refine ⟨iff_of_false hleft (fun hne => hne rfl), fun hne => absurd rfl hne, ?_, h.slot⟩
    intro hholding _
    exact h.raised (h.pending.mp (hevent.mp hholding))
  | hold pc statue hfrom hto => exact ⟨h.pending, h.raised, fun _ => h.holding hfrom, h.slot⟩
  | refuse hpc hQ hrefused => exact ⟨h.pending, h.raised, nofun, h.slot⟩
  | read p hpc hQ hallowed hslot => exact ⟨h.pending, h.raised, nofun, h.slot⟩
  | deadRead hpc hQ hallowed hslot => exact ⟨h.pending, h.raised, nofun, h.slot⟩
  | send p hpc => exact ⟨h.pending, h.raised, nofun, h.slot⟩
  | @free passed b d hpc hslot =>
    refine ⟨h.pending, h.raised, nofun, ?_⟩
    intro b' d' hslot'
    rw [slot_goto, slot_release hslot] at hslot'
    cases hslot'
  | freeNull hpc hnull => exact ⟨h.pending, h.raised, nofun, h.slot⟩
  | deadFree hpc hbuf hdead => exact ⟨h.pending, h.raised, nofun, h.slot⟩
  | overrun hpc => exact ⟨h.pending, h.raised, nofun, h.slot⟩

theorem core_post (s : RadioSys) (data : Nat) (size : UInt8) (b : Nat) :
    Core ((s.post data size b).raise radioEventSend) where
  pending := iff_of_true (s.pending_post data size b) (by simp)
  raised _ := by simp
  holding _ hnot := absurd (s.pending_post data size b) hnot
  slot b' d' hslot := by
    rw [slot_raise, slot_post] at hslot
    cases hslot
    exact ⟨by simp, Memory.read s.memory data size.toNat, by simp⟩

theorem Core.timer (h : Core s) : Core (s.raise radioEventCheckStatue) := by
  have hpending := s.pending_timer
  refine ⟨hpending.trans h.pending, h.raised, fun hpc hnot => ?_, h.slot⟩
  exact h.holding hpc fun hp => hnot (hpending.mpr hp)

theorem Core.step (h : Core s) (hstep : step fal s a = some s') : Core s' := by
  obtain ⟨-, ⟨data, size, block, -, -, rfl⟩ | ⟨data, size, -, -, rfl⟩ |
    ⟨data, size, b, -, -, -, hsend⟩ | ⟨-, hsend⟩ | ⟨addr, value, -, rfl⟩ | ⟨env, -, hthread⟩⟩ :=
    step_cases (Q := fun _ => True) hstep
  · exact h
  · exact ⟨h.pending, h.raised, nofun, by simp [RadioSys.slot]⟩
  · exact moves_preserve (fun _ _ h => h.move) (core_post s data size b) hsend
  · exact moves_preserve (fun _ _ h => h.move) h.timer hsend
  · exact ⟨h.pending, h.raised, h.holding, h.slot⟩
  · exact threadStep_preserves (Q := fun _ => True) (fun _ _ h => h.move) h hthread
      fun _ _ _ => trivial

/-! ## Keeping the slot -/

/-- `radio_send` does not come in while the thread sends; and where it came in between the
reception of an event and its handling, the handling is a refusal. -/
def KeepsSlot (s : RadioSys) (a : Action) : Prop :=
  (a.Accepted → s.pc.sending = none) ∧ a.MeetsBranch (fun t => t.Pending → ¬ t.SendAllowed) s

instance : Decidable (KeepsSlot s a) := inferInstanceAs (Decidable (_ ∧ _))

/-- The thread finds the newest block allocated when it needs it, and frees the block it sent. -/
structure SlotLive (s : RadioSys) : Prop where
  core : Core s
  waiting : s.Pending ∨ s.pc.Holding → s.pc ≠ .fault .nullStore → ∃ b d, s.slot = some (b, d)
  sending : ∀ b, s.pc.sending = some b → ¬ s.Pending ∧ (∃ d, s.slot = some (b, d)) ∧
    s.accepted.length - 1 ∈ s.handling
  noDead : s.pc ≠ .fault .deadRead ∧ s.pc ≠ .fault .deadFree

theorem slotLive_start (memory : Nat → UInt8) : SlotLive (start memory) where
  core := core_start memory
  waiting h _ := by
    rcases h with h | h
    · simp [start, Pending] at h
    · cases h
  sending := nofun
  noDead := ⟨nofun, nofun⟩

/-- While the thread sends, no event is pending; so none waits where it goes from there. -/
theorem SlotLive.not_waiting (h : SlotLive s) {b : Nat} (hsending : s.pc.sending = some b)
    {pc : Pc} (hpc : ¬ pc.Holding) : ¬ (s.Pending ∨ pc.Holding) := by
  rintro (hp | hholding)
  · exact (h.sending b hsending).1 hp
  · exact hpc hholding

theorem SlotLive.move (h : SlotLive s)
    (hmove : Move (fun t => t.Pending → ¬ t.SendAllowed) s s') : SlotLive s' := by
  have hcore := h.core.move hmove
  cases hmove with
  | rest pc statue timer hfrom hto =>
    refine ⟨hcore, ?_, ?_, hto.ne_fault _, hto.ne_fault _⟩
    · intro hwaits _
      rcases hwaits with hp | hpc
      · exact h.waiting (.inl hp) (hfrom.ne_fault _)
      · exact absurd hpc hto.not_holding
    · intro b hb
      rw [hto.sending] at hb
      cases hb
  | take hpc hevent hleft =>
    refine ⟨hcore, ?_, nofun, nofun, nofun⟩
    intro hwaits _
    rcases hwaits with hp | hholding
    · exact absurd hp hleft
    · exact h.waiting (.inl (hevent.mp hholding)) ((Pc.resting_of_asking hpc).ne_fault _)
  | hold pc statue hfrom hto =>
    refine ⟨hcore, fun _ _ => h.waiting (.inr hfrom) (hfrom.ne_fault _), ?_, hto.ne_fault _,
      hto.ne_fault _⟩
    intro b hb
    rw [hto.sending] at hb
    cases hb
  | refuse hpc hQ hrefused =>
    exact ⟨hcore, fun _ _ => h.waiting (.inr hpc) (hpc.ne_fault _), nofun, nofun, nofun⟩
  | @read b d p hpc hQ hallowed hslot =>
    have hnot : ¬ s.Pending := fun hp => hQ hp hallowed
    refine ⟨hcore, fun _ _ => ⟨b, d, hslot⟩, ?_, nofun, nofun⟩
    rintro b' ⟨⟩
    exact ⟨hnot, ⟨d, hslot⟩, h.core.holding hpc hnot⟩
  | deadRead hpc hQ hallowed hslot =>
    -- the slot of a received event is allocated
    obtain ⟨b, d, hlive⟩ := h.waiting (.inr hpc) (hpc.ne_fault _)
    rw [hslot] at hlive
    cases hlive
  | @send b p hpc =>
    refine ⟨hcore, fun hwaits _ => absurd hwaits (h.not_waiting hpc not_false), ?_, nofun, nofun⟩
    rintro b' ⟨⟩
    exact h.sending b hpc
  | @free passed b d hpc hslot =>
    exact ⟨hcore, fun hwaits _ => absurd hwaits (h.not_waiting hpc not_false), nofun, nofun, nofun⟩
  | @freeNull passed hpc hnull =>
    exact ⟨hcore, fun hwaits _ => absurd hwaits (h.not_waiting hpc not_false), nofun, nofun, nofun⟩
  | @deadFree passed b hpc hbuf hdead =>
    -- the block that was passed is still in the slot
    obtain ⟨-, ⟨d, hslot⟩, -⟩ := h.sending passed hpc
    obtain ⟨hbuf', hheap⟩ := slot_eq_some.mp hslot
    rw [hbuf'] at hbuf
    cases hbuf
    rw [hdead] at hheap
    cases hheap
  | overrun hpc =>
    have hfault : s.pc ≠ .fault .nullStore := hpc.elim (·.ne_fault _) (·.ne_fault _)
    refine ⟨hcore, fun hwaits _ => ?_, nofun, nofun, nofun⟩
    rcases hwaits with hp | hholding
    · exact h.waiting (.inl hp) hfault
    · cases hholding

theorem SlotLive.timer (h : SlotLive s) : SlotLive (s.raise radioEventCheckStatue) := by
  have hpending := s.pending_timer
  refine ⟨h.core.timer, ?_, ?_, h.noDead⟩
  · intro hwaits
    rcases hwaits with hp | hpc
    · exact h.waiting (.inl (hpending.mp hp))
    · exact h.waiting (.inr hpc)
  · intro b hb
    obtain ⟨hnot, hrest⟩ := h.sending b hb
    exact ⟨fun hp => hnot (hpending.mp hp), hrest⟩

/-- A call that does not come while the thread sends. -/
theorem SlotLive.post (h : SlotLive s) (hsending : s.pc.sending = none) (data : Nat) (size : UInt8)
    (b : Nat) : SlotLive ((s.post data size b).raise radioEventSend) := by
  refine ⟨core_post s data size b, fun _ _ => ⟨b, _, s.slot_post data size b⟩, ?_, h.noDead⟩
  intro b' hb'
  rw [raise_pc, post_pc, hsending] at hb'
  cases hb'

theorem SlotLive.step (h : SlotLive s) (hok : KeepsSlot s a) (hstep : step fal s a = some s') :
    SlotLive s' := by
  have hcore := h.core.step hstep
  obtain ⟨hhalted, ⟨data, size, block, -, -, rfl⟩ | ⟨data, size, -, -, rfl⟩ |
    ⟨data, size, b, rfl, hsize, -, hsend⟩ | ⟨-, hsend⟩ | ⟨addr, value, -, rfl⟩ |
    ⟨env, rfl, hthread⟩⟩ := step_cases (Q := fun t => t.Pending → ¬ t.SendAllowed) hstep
  · exact h
  · exact ⟨hcore, fun _ hpc => absurd rfl hpc, nofun, nofun, nofun⟩
  · exact moves_preserve (fun _ _ h => h.move) (h.post (hok.1 ⟨hsize, nofun⟩) data size b) hsend
  · exact moves_preserve (fun _ _ h => h.move) h.timer hsend
  · exact ⟨hcore, h.waiting, h.sending, h.noDead⟩
  · exact threadStep_preserves (fun _ _ h => h.move) h hthread hok.2

/-- The steps of two uploads are enabled one after the other. -/
theorem uploads_run :
    ∃ s, Transition.run (step true) (start fun _ => 0)
      (Action.boot ++ Action.upload 0 0 ++ Action.upload 100 1) = some s := by
  apply Option.isSome_iff_exists.mp
  decide +kernel

end RadioSys

end ControlBoard
