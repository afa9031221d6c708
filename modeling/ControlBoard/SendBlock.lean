import ControlBoard.RadioSlot

/-!
# The blocks of `radio_send`

Who owns the `Data_s` blocks. The radio thread reads `RadioBuffer` before `at_radio_send_hex`
and again to free it, so it uses the right block exactly if nothing replaces it in between;
and it frees a block only on the branch that sends, so a block that was refused, or replaced
before it was handled, stays allocated.
-/

namespace ControlBoard

/-- The thread uses a block of a call whose event it is handling, and frees the one it sent. -/
def Access.Owned : Access → Prop
  | .read _ owner handling => owner ∈ handling
  | .free block owner passed handling =>
    block = some passed ∧ ∃ call ∈ handling, owner = some call

/-- `rt_malloc` does not fail. -/
def Action.HasMemory : Action → Prop
  | .radioSend _ size none => 50 ≤ size
  | _ => True

instance : DecidablePred Action.HasMemory := fun a => by
  unfold Action.HasMemory
  split <;> infer_instance

namespace RadioSys

variable {fal : Bool} {s s' : RadioSys} {a : Action}

/-! ## Ownership -/

/-- The slot is kept, and memory is there. -/
def KeepsBlock (s : RadioSys) (a : Action) : Prop := KeepsSlot s a ∧ a.HasMemory

instance : Decidable (KeepsBlock s a) := inferInstanceAs (Decidable (_ ∧ _))

/-- No fault of the memory occurred, and every use of the slot was the owner's. -/
structure BlocksOwned (s : RadioSys) : Prop where
  live : SlotLive s
  noFault : ∀ f, s.pc = .fault f → f = .strOverrun
  owned : ∀ access ∈ s.accesses, access.Owned

theorem blocksOwned_start (memory : Nat → UInt8) : BlocksOwned (start memory) where
  live := slotLive_start memory
  noFault := nofun
  owned := nofun

theorem forall_mem_concat {accesses : List Access} {access : Access}
    (h : ∀ a ∈ accesses, a.Owned) (hnew : access.Owned) :
    ∀ a ∈ accesses ++ [access], a.Owned := by
  intro a ha
  rcases List.mem_append.mp ha with ha | ha
  · exact h a ha
  · rw [List.mem_singleton.mp ha]
    exact hnew

theorem BlocksOwned.move (h : BlocksOwned s)
    (hmove : Move (fun t => t.Pending → ¬ t.SendAllowed) s s') : BlocksOwned s' := by
  have hlive := h.live.move hmove
  cases hmove with
  | rest pc statue timer hfrom hto =>
    exact ⟨hlive, fun f hf => absurd hf (hto.ne_fault f), h.owned⟩
  | take hpc hevent hleft => exact ⟨hlive, nofun, h.owned⟩
  | hold pc statue hfrom hto => exact ⟨hlive, fun f hf => absurd hf (hto.ne_fault f), h.owned⟩
  | refuse hpc hQ hrefused => exact ⟨hlive, nofun, h.owned⟩
  | @read b d p hpc hQ hallowed hslot =>
    have hnot : ¬ s.Pending := fun hp => hQ hp hallowed
    have howner : d.call ∈ s.handling := by
      have hnewest := h.live.core.holding hpc hnot
      rwa [← (h.live.core.slot b d hslot).1, Nat.add_sub_cancel] at hnewest
    exact ⟨hlive, nofun, forall_mem_concat h.owned howner⟩
  | deadRead hpc hQ hallowed hslot => exact absurd rfl hlive.noDead.1
  | send p hpc => exact ⟨hlive, nofun, h.owned⟩
  | @free passed b d hpc hslot =>
    obtain ⟨-, ⟨d', hpassed⟩, hnewest⟩ := h.live.sending passed hpc
    -- the block in the slot is the one that was passed
    rw [hslot] at hpassed
    cases hpassed
    have howner : d.call ∈ s.handling := by
      rwa [← (h.live.core.slot _ d hslot).1, Nat.add_sub_cancel] at hnewest
    exact ⟨hlive, nofun, forall_mem_concat h.owned ⟨rfl, d.call, howner, rfl⟩⟩
  | @freeNull passed hpc hnull =>
    obtain ⟨-, ⟨d, hpassed⟩, -⟩ := h.live.sending passed hpc
    rw [(slot_eq_some.mp hpassed).1] at hnull
    cases hnull
  | deadFree hpc hbuf hdead => exact absurd rfl hlive.noDead.2
  | overrun hpc =>
    refine ⟨hlive, ?_, h.owned⟩
    rintro f ⟨⟩
    rfl

theorem BlocksOwned.step (h : BlocksOwned s) (hok : KeepsBlock s a)
    (hstep : step fal s a = some s') : BlocksOwned s' := by
  have hlive := h.live.step hok.1 hstep
  obtain ⟨-, ⟨data, size, block, -, -, rfl⟩ | ⟨data, size, rfl, hsize, rfl⟩ |
    ⟨data, size, b, rfl, hsize, -, hsend⟩ | ⟨-, hsend⟩ | ⟨addr, value, -, rfl⟩ |
    ⟨env, rfl, hthread⟩⟩ := step_cases (Q := fun t => t.Pending → ¬ t.SendAllowed) hstep
  · exact h
  · exact absurd hok.2 (UInt8.not_le.mpr hsize)
  · have hpost : BlocksOwned ((s.post data size b).raise radioEventSend) :=
      ⟨h.live.post (hok.1.1 ⟨hsize, nofun⟩) data size b, h.noFault, h.owned⟩
    exact moves_preserve (fun _ _ h => h.move) hpost hsend
  · have htimer : BlocksOwned (s.raise radioEventCheckStatue) := ⟨h.live.timer, h.noFault, h.owned⟩
    exact moves_preserve (fun _ _ h => h.move) htimer hsend
  · exact ⟨hlive, h.noFault, h.owned⟩
  · exact threadStep_preserves (fun _ _ h => h.move) h hthread hok.1.2

/-- Where memory is there, no call comes while the thread sends, and one that comes between the
reception of a `RADIO_EVENT_SEND` and its handling is not followed by a send for that event: no null
pointer is written through, no freed block is used, and every block that is read or freed belongs to
a call whose event is being handled, the freed one being the one that was sent. -/
theorem blocks_owned {memory : Nat → UInt8} {actions : List Action}
    (hok : Transition.StepsMeet (step fal) KeepsBlock (start memory) actions)
    (hrun : Transition.run (step fal) (start memory) actions = some s) :
    (s.pc ≠ .fault .nullStore ∧ s.pc ≠ .fault .deadRead ∧ s.pc ≠ .fault .deadFree) ∧
      ∀ access ∈ s.accesses, access.Owned := by
  have h : BlocksOwned s := Transition.run_preserves (fun _ _ _ => BlocksOwned.step)
    (blocksOwned_start memory) hok hrun
  have hstored : s.pc ≠ .fault .nullStore := fun hf => nomatch h.noFault _ hf
  exact ⟨⟨hstored, h.live.noDead⟩, h.owned⟩

/-- A second call while the thread sends the data of the first. -/
def callWhileSending : List Action :=
  Action.boot ++ [.radioSend 0 12 (some 0), .thread .joined, .radioSend 100 12 (some 1),
    .thread .joined, .thread .joined, .thread .joined]

/-- The block of the second call is freed in place of the first one's, and read after that. -/
theorem blocks_confused :
    ∃ s, Transition.run (step true) (start fun _ => 0) callWhileSending = some s ∧
      ¬ ((s.pc ≠ .fault .nullStore ∧ s.pc ≠ .fault .deadRead ∧ s.pc ≠ .fault .deadFree) ∧
        ∀ access ∈ s.accesses, access.Owned) := by
  have hrun : (Transition.run (step true) (start fun _ => 0) callWhileSending).map (fun s =>
      s.accesses) = some [.read 0 0 [0], .free (some 1) (some 1) 0 [0]] := by
    decide +kernel
  obtain ⟨s, hs, haccesses⟩ := Option.map_eq_some_iff.mp hrun
  refine ⟨s, hs, ?_⟩
  intro hkept
  obtain ⟨-, howned⟩ := hkept
  have hfree := howned (.free (some 1) (some 1) 0 [0]) (by simp [haccesses])
  cases hfree.1

theorem blocks_owned_uploads :
    ∃ s, Transition.run (step true) (start fun _ => 0)
        (Action.boot ++ Action.upload 0 0 ++ Action.upload 100 1) = some s ∧
      (s.pc ≠ .fault .nullStore ∧ s.pc ≠ .fault .deadRead ∧ s.pc ≠ .fault .deadFree) ∧
        ∀ access ∈ s.accesses, access.Owned := by
  obtain ⟨s, hs⟩ := uploads_run
  exact ⟨s, hs, blocks_owned (by decide +kernel) hs⟩

/-! ## Leaks -/

/-- The block that the thread is handling. -/
def handledBlock (s : RadioSys) : Option Nat :=
  if s.pc.Holding then s.radioBuffer else s.pc.sending

/-- Calls come one at a time, each when the one before is done, and never in a state in which
sends are refused. -/
def SendsInTurn (s : RadioSys) (a : Action) : Prop :=
  (a.Accepted → ¬ s.Pending ∧ ¬ s.pc.Holding ∧ s.pc.sending = none) ∧
    a.MeetsBranch SendAllowed s

instance : Decidable (SendsInTurn s a) := inferInstanceAs (Decidable (_ ∧ _))

/-- At most one block is allocated, it is the one in the slot, and it is about to be sent. -/
structure BlocksReturned (s : RadioSys) : Prop where
  live : SlotLive s
  taken : s.pc.Holding → ¬ s.Pending
  one : ∀ a b, s.heap a ≠ none → s.heap b ≠ none → a = b
  slot : ∀ a, s.heap a ≠ none → (∀ f, s.pc ≠ .fault f) → s.radioBuffer = some a
  used : ∀ a, s.heap a ≠ none → (∀ f, s.pc ≠ .fault f) →
    s.Pending ∨ s.pc.Holding ∨ s.pc.sending ≠ none

theorem blocksReturned_start (memory : Nat → UInt8) : BlocksReturned (start memory) where
  live := slotLive_start memory
  taken := nofun
  one _ _ h := absurd rfl h
  slot _ h := absurd rfl h
  used _ h := absurd rfl h

/-- The block in the slot was the only one. -/
theorem BlocksReturned.of_free (h : BlocksReturned s) {b : Nat} {d : DataS}
    (hfault : ∀ f, s.pc ≠ .fault f) (hslot : s.slot = some (b, d)) (a : Nat) :
    Function.update s.heap b none a = none := by
  by_cases ha : a = b
  · rw [ha, Function.update_self]
  · rw [Function.update_of_ne ha]
    by_contra hlive
    have hbuf := h.slot a hlive hfault
    rw [(slot_eq_some.mp hslot).1] at hbuf
    cases hbuf
    exact ha rfl

theorem BlocksReturned.move (h : BlocksReturned s) (hmove : Move SendAllowed s s') :
    BlocksReturned s' := by
  have hlive : SlotLive s' := by
    apply h.live.move
    apply hmove.imp
    intro hholding _ hpending
    exact absurd hpending (h.taken hholding)
  cases hmove with
  | rest pc statue timer hfrom hto =>
    refine ⟨hlive, fun hpc => absurd hpc hto.not_holding, h.one,
      fun a ha _ => h.slot a ha hfrom.ne_fault, fun a ha _ => ?_⟩
    rcases h.used a ha hfrom.ne_fault with hp | hpc | hsend
    · exact .inl hp
    · exact absurd hpc hfrom.not_holding
    · exact absurd hfrom.sending hsend
  | take hpc hevent hleft =>
    have hrest := Pc.resting_of_asking hpc
    refine ⟨hlive, fun _ => hleft, h.one, fun a ha _ => h.slot a ha hrest.ne_fault,
      fun a ha _ => ?_⟩
    rcases h.used a ha hrest.ne_fault with hp | hholding | hsend
    · exact .inr (.inl (hevent.mpr hp))
    · exact absurd hholding hrest.not_holding
    · exact absurd hrest.sending hsend
  | hold pc statue hfrom hto =>
    exact ⟨hlive, fun _ => h.taken hfrom, h.one, fun a ha _ => h.slot a ha hfrom.ne_fault,
      fun _ _ _ => .inr (.inl hto)⟩
  | refuse hpc hQ hrefused => exact absurd hQ hrefused
  | read p hpc hQ hallowed hslot =>
    exact ⟨hlive, nofun, h.one, fun a ha _ => h.slot a ha hpc.ne_fault,
      fun _ _ _ => .inr (.inr nofun)⟩
  | deadRead hpc hQ hallowed hslot => exact absurd rfl hlive.noDead.1
  | send p hpc =>
    exact ⟨hlive, nofun, h.one, fun a ha _ => h.slot a ha (Pc.ne_fault_of_sending hpc),
      fun _ _ _ => .inr (.inr nofun)⟩
  | @free passed b d hpc hslot =>
    have hnone := h.of_free (Pc.ne_fault_of_sending hpc) hslot
    exact ⟨hlive, nofun, fun a _ ha => absurd (hnone a) ha, fun a ha => absurd (hnone a) ha,
      fun a ha => absurd (hnone a) ha⟩
  | @freeNull passed hpc hnull =>
    obtain ⟨-, ⟨d, hpassed⟩, -⟩ := h.live.sending passed hpc
    rw [(slot_eq_some.mp hpassed).1] at hnull
    cases hnull
  | deadFree hpc hbuf hdead => exact absurd rfl hlive.noDead.2
  | overrun hpc =>
    exact ⟨hlive, nofun, h.one, fun _ _ hf => absurd rfl (hf .strOverrun),
      fun _ _ hf => absurd rfl (hf .strOverrun)⟩

/-- The actions of the other threads keep the slot. -/
theorem SendsInTurn.keepsSlot (hok : SendsInTurn s a) (ha : ∀ env, a ≠ .thread env) :
    KeepsSlot s a := by
  refine ⟨fun haccepted => (hok.1 haccepted).2.2, ?_⟩
  cases a with
  | thread env => exact absurd rfl (ha env)
  | radioSend data size block => trivial
  | timer => trivial
  | write addr value => trivial

/-- Nothing is in the mailbox or in the thread's hands, so nothing else is allocated. -/
theorem BlocksReturned.post (h : BlocksReturned s) (hfault : ∀ f, s.pc ≠ .fault f)
    (hpending : ¬ s.Pending) (hholding : ¬ s.pc.Holding) (hsending : s.pc.sending = none)
    (data : Nat) (size : UInt8) (b : Nat) :
    BlocksReturned ((s.post data size b).raise radioEventSend) := by
  have hnone : ∀ a, s.heap a = none := by
    intro a
    by_contra hlive
    rcases h.used a hlive hfault with hp | hpc | hsend
    · exact hpending hp
    · exact hholding hpc
    · exact hsend hsending
  have honly : ∀ a, ((s.post data size b).raise radioEventSend).heap a ≠ none → a = b := by
    intro a ha
    by_contra hne
    rw [raise_heap, post_heap, Function.update_of_ne hne] at ha
    exact ha (hnone a)
  refine ⟨h.live.post hsending data size b, fun hpc => absurd hpc hholding,
    fun a a' ha ha' => (honly a ha).trans (honly a' ha').symm, fun a ha _ => ?_,
    fun _ _ _ => .inl (s.pending_post data size b)⟩
  rw [honly a ha, raise_radioBuffer, post_radioBuffer]

theorem BlocksReturned.timer (h : BlocksReturned s) :
    BlocksReturned (s.raise radioEventCheckStatue) := by
  have hpending := s.pending_timer
  refine ⟨h.live.timer, fun hpc hp => h.taken hpc (hpending.mp hp), h.one, h.slot,
    fun a ha hf => ?_⟩
  rcases h.used a ha hf with hp | hrest
  · exact .inl (hpending.mpr hp)
  · exact .inr hrest

theorem BlocksReturned.step (h : BlocksReturned s) (hok : SendsInTurn s a)
    (hstep : step fal s a = some s') : BlocksReturned s' := by
  have hlive (ha : ∀ env, a ≠ .thread env) : SlotLive s' :=
    h.live.step (hok.keepsSlot ha) hstep
  obtain ⟨hhalted, ⟨data, size, block, rfl, -, rfl⟩ | ⟨data, size, rfl, -, rfl⟩ |
    ⟨data, size, b, rfl, hsize, -, hsend⟩ | ⟨rfl, hsend⟩ | ⟨addr, value, rfl, rfl⟩ |
    ⟨env, rfl, hthread⟩⟩ := step_cases (Q := SendAllowed) hstep
  · exact h
  · exact ⟨hlive nofun, nofun, h.one, fun _ _ hf => absurd rfl (hf _),
      fun _ _ hf => absurd rfl (hf _)⟩
  · obtain ⟨hpending, hholding, hsending⟩ := hok.1 ⟨hsize, nofun⟩
    have hfault : ∀ f, s.pc ≠ .fault f := by
      intro f hf
      simp [halted, hf] at hhalted
    have hpost := h.post hfault hpending hholding hsending data size b
    exact moves_preserve (fun _ _ h => h.move) hpost hsend
  · exact moves_preserve (fun _ _ h => h.move) h.timer hsend
  · exact ⟨hlive nofun, h.taken, h.one, h.slot, h.used⟩
  · exact threadStep_preserves (fun _ _ h => h.move) h hthread hok.2

/-- Where each call comes when the one before is done, and none is refused, at most one block
is allocated beside the one being handled, none while the thread is idle, and no freed block is
used. -/
theorem blocks_returned {memory : Nat → UInt8} {actions : List Action}
    (hok : Transition.StepsMeet (step fal) SendsInTurn (start memory) actions)
    (hrun : Transition.run (step fal) (start memory) actions = some s) :
    (∀ a b, s.heap a ≠ none → s.heap b ≠ none → s.handledBlock ≠ some a →
        s.handledBlock ≠ some b → a = b) ∧
      (s.Idle → ∀ a, s.heap a = none) ∧
      s.pc ≠ .fault .deadRead ∧ s.pc ≠ .fault .deadFree := by
  have h : BlocksReturned s := Transition.run_preserves (fun _ _ _ => BlocksReturned.step)
    (blocksReturned_start memory) hok hrun
  refine ⟨fun a b ha hb _ _ => h.one a b ha hb, ?_, h.live.noDead⟩
  intro hidle a
  obtain ⟨hpc, hpending⟩ := hidle
  have hrest := Pc.resting_of_asking hpc
  by_contra hlive
  rcases h.used a hlive hrest.ne_fault with hp | hholding | hsend
  · exact hpending hp
  · exact hrest.not_holding hholding
  · exact hsend hrest.sending

theorem blocks_returned_uploads :
    ∃ s, Transition.run (step true) (start fun _ => 0)
        (Action.boot ++ Action.upload 0 0 ++ Action.upload 100 1) = some s ∧
      (∀ a b, s.heap a ≠ none → s.heap b ≠ none → s.handledBlock ≠ some a →
          s.handledBlock ≠ some b → a = b) ∧
        (s.Idle → ∀ a, s.heap a = none) ∧
        s.pc ≠ .fault .deadRead ∧ s.pc ≠ .fault .deadFree := by
  obtain ⟨s, hs⟩ := uploads_run
  exact ⟨s, hs, blocks_returned (by decide +kernel) hs⟩

/-- The module does not answer, and a call comes. -/
def callWhileLost : List Action :=
  [.thread .silent, .thread .silent, .thread .silent, .radioSend 0 12 (some 0), .thread .silent,
    .thread .silent]

/-- The call was refused, and its block stays allocated. -/
theorem refused_block_leaks :
    ∃ s, Transition.run (step true) (start fun _ => 0) callWhileLost = some s ∧
      ¬ ((∀ a b, s.heap a ≠ none → s.heap b ≠ none → s.handledBlock ≠ some a →
          s.handledBlock ≠ some b → a = b) ∧
        (s.Idle → ∀ a, s.heap a = none)) := by
  have hrun : (Transition.run (step true) (start fun _ => 0) callWhileLost).map (fun s =>
      (s.pc.waitsInRecv, decide s.Pending, (s.heap 0).isSome)) = some (true, false, true) := by
    decide +kernel
  obtain ⟨s, hs, hend⟩ := Option.map_eq_some_iff.mp hrun
  simp only [Prod.mk.injEq, decide_eq_false_iff_not] at hend
  obtain ⟨hpc, hpending, hlive⟩ := hend
  refine ⟨s, hs, ?_⟩
  intro hreturned
  obtain ⟨-, hidle⟩ := hreturned
  rw [hidle ⟨.inl (Pc.eq_of_waitsInRecv hpc), hpending⟩ 0] at hlive
  cases hlive

end RadioSys

end ControlBoard
