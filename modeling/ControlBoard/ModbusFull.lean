import ControlBoard.ModbusReturn

/-!
# A full receive buffer

The receiver takes as many bytes as its buffer holds, but `eMBMasterRTUReceive` asserts that they
are fewer. Silence after just as many ends there, whatever order the threads run in.
-/

namespace ControlBoard

open EventObject Transition

variable {σ : Type}

namespace MbMaster

variable {handlers : List (UInt8 × MbHandler σ)} {x : MbExchange σ} {s : MbMaster σ}

/-- The poll thread is about to take up what a full buffer holds, and the assertion of
`eMBMasterRTUReceive` is the first that fails. -/
structure ReceivesFull (s : MbMaster σ) : Prop where
  fault : s.fault = false
  poll : s.poll = .resumed evMasterFrameReceived
  pos : s.usMasterRcvBufferPos = mbSerPduSizeMax
  receive : s.taken.rtuReceive.2.fault = true

theorem rtuReceive_full (h : ¬ s.usMasterRcvBufferPos < mbSerPduSizeMax) :
    s.rtuReceive.2.fault = true := by
  rw [rtuReceive, decide_eq_false h]
  split
  · exact Bool.or_true _
  · exact Bool.or_true _

theorem frameReceived_full (h : ¬ s.usMasterRcvBufferPos < mbSerPduSizeMax) :
    s.frameReceived.fault = true := by
  have hreceive := rtuReceive_full h
  rcases hr : s.rtuReceive with ⟨eStatus, u⟩
  rw [hr] at hreceive
  rw [frameReceived, hr]
  dsimp only
  split
  · exact hreceive
  · exact hreceive

/-- As many bytes have been heard as the buffer holds, and the request is still under way. -/
structure Full (s : MbMaster σ) : Prop where
  fault : s.fault = false
  pos : s.usMasterRcvBufferPos = mbSerPduSizeMax
  calling : s.calling = true
  request : Coming requestSet s.event s.requester 0
  transStart : s.transStart = false
  releasing : s.releasing = false

theorem Full.not_lt (h : s.Full) : ¬ s.usMasterRcvBufferPos < mbSerPduSizeMax := by
  rw [h.pos]
  exact Nat.lt_irrefl _

/-- The silence is not over yet, or the poll thread is being told of it: so many turns are left, and
the next is this. -/
inductive Draws (handlers : List (UInt8 × MbHandler σ)) (x : MbExchange σ) (s : MbMaster σ) :
    Nat → MbAction → Prop
  | hears (hin : s.In handlers x .hearing) : Draws handlers x s (2 + s.timeLeft) .tick
  | told (htimer : s.timer = none) (hcoming : Coming pollSet s.event s.poll evMasterFrameReceived) :
    Draws handlers x s (turnsLeft s.poll) (pollTurn s.poll)

def Ends (handlers : List (UInt8 × MbHandler σ)) (x : MbExchange σ) (s : MbMaster σ) (n : Nat)
    (a : MbAction) : Prop := s.Full ∧ Draws handlers x s n a

variable {n : Nat} {a b : MbAction}

/-- What a turn comes to: it is the one that fails, it brings that one nearer, or it is another than
the one that is waited for. -/
def EndsAfter (handlers : List (UInt8 × MbHandler σ)) (x : MbExchange σ) (s : MbMaster σ) (n : Nat)
    (a b : MbAction) (t : MbMaster σ) : Prop :=
  b = .poll ∧ s.ReceivesFull ∧ t.fault = true ∨
    (∃ m < n, ∃ c, Ends handlers x t m c) ∨ b ≠ a ∧ Ends handlers x t n a

theorem Ends.tick (h : Ends handlers x s n a) :
    EndsAfter handlers x s n a .tick s.tickIncrease := by
  obtain ⟨hfull, hdraws⟩ := h
  cases hdraws with
  | hears hin =>
    have hleft := TimerWithin.timeLeft_le hin.timer
    rcases s.tickIncrease_cases with ⟨-, htick⟩ | ⟨hon, htick⟩
    · obtain ⟨event, poll, hpost, hsent⟩ :=
        Mail.post_poll (s := s.expiring) (hin.mail hfull.request) (e := evMasterFrameReceived)
          (by decide)
      obtain ⟨-, -, -, -, -, -, hmode⟩ := hin.holds
      have hu := (receiverExpired_rcv (s := s.expiring) hin.rcv).trans hpost
      have hless : turnsLeft poll < 2 + s.timeLeft := by
        have hle := turnsLeft_le poll
        omega
      rw [htick, timerExpired_of_idle hu hin.snd hmode]
      refine .inr (.inl ⟨_, hless, _, ?_, .told rfl hsent.poll⟩)
      exact ⟨hfull.fault, hfull.pos, hfull.calling, hsent.request, hfull.transStart,
        hfull.releasing⟩
    · have hless := Nat.add_lt_add_left (timeLeft_tick hin.timer hon) 2
      rw [htick]
      refine .inr (.inl ⟨_, hless, _, ?_, .hears (hin.tickOn hon)⟩)
      exact ⟨hfull.fault, hfull.pos, hfull.calling, hfull.request, hfull.transStart,
        hfull.releasing⟩
  | told htimer hcoming =>
    rcases s.tickIncrease_cases with ⟨⟨timeout, hsome, -⟩, -⟩ | ⟨-, htick⟩
    · rw [htimer] at hsome
      cases hsome
    · rw [htick]
      refine .inr (.inr ⟨pollTurn_ne (by decide) (by decide) _, ?_, .told htimer hcoming⟩)
      exact ⟨hfull.fault, hfull.pos, hfull.calling, hfull.request, hfull.transStart,
        hfull.releasing⟩

theorem Ends.pollRecv (h : Ends handlers x s n a) (haway : s.poll = .away) :
    EndsAfter handlers x s n a .pollRecv
      { s with event := (receive pollSet s.event).1, poll := (receive pollSet s.event).2 } := by
  obtain ⟨hfull, hdraws⟩ := h
  have hword : (receive pollSet s.event).1 &&& requestSet = s.event &&& requestSet :=
    receive_and (by decide)
  have hfull' : Full
      { s with event := (receive pollSet s.event).1, poll := (receive pollSet s.event).2 } :=
    ⟨hfull.fault, hfull.pos, hfull.calling, hfull.request.congr hword, hfull.transStart,
      hfull.releasing⟩
  cases hdraws with
  | hears hin =>
    have hother : MbAction.pollRecv ≠ .tick := by decide
    exact .inr (.inr ⟨hother, hfull', .hears (hin.pollRecv hfull.request haway).1⟩)
  | told htimer hcoming =>
    rw [haway] at hcoming
    have hresumed := hcoming.receive_resumed (by decide)
    have hless : turnsLeft (receive pollSet s.event).2 < turnsLeft s.poll := by
      rw [hresumed, haway]
      exact Nat.one_lt_two
    exact .inr (.inl ⟨_, hless, _, hfull', .told htimer hcoming.receive⟩)

/-- The poll thread comes back only to fail. -/
theorem Ends.poll (h : Ends handlers x s n a) {e : BitVec 32} (hpoll : s.poll = .resumed e) :
    EndsAfter handlers x s n a .poll (s.taken.pollEvent handlers e) := by
  obtain ⟨hfull, hdraws⟩ := h
  cases hdraws with
  | hears hin =>
    have hcoming := hin.coming
    rw [hpoll] at hcoming
    obtain ⟨rfl, hne, -⟩ := hcoming.back
    exact absurd rfl hne
  | told htimer hcoming =>
    rw [hpoll] at hcoming
    obtain ⟨rfl, -, -⟩ := hcoming.back
    have hreceive := rtuReceive_full (s := s.taken) hfull.not_lt
    exact .inl ⟨rfl, ⟨hfull.fault, hpoll, hfull.pos, hreceive⟩,
      frameReceived_full (s := s.taken) hfull.not_lt⟩

theorem Ends.requestRecv (h : Ends handlers x s n a) (haway : s.requester = .away) :
    EndsAfter handlers x s n a .requestRecv
      { s with
        event := (receive requestSet s.event).1
        requester := (receive requestSet s.event).2 } := by
  obtain ⟨hfull, hdraws⟩ := h
  have hrequest := hfull.request
  rw [haway] at hrequest
  have hfull' : Full
      { s with
        event := (receive requestSet s.event).1
        requester := (receive requestSet s.event).2 } :=
    ⟨hfull.fault, hfull.pos, hfull.calling, hrequest.receive, hfull.transStart, hfull.releasing⟩
  cases hdraws with
  | hears hin =>
    have hother : MbAction.requestRecv ≠ .tick := by decide
    exact .inr (.inr ⟨hother, hfull', .hears hin.requestRecv⟩)
  | told htimer hcoming =>
    have hother : MbAction.requestRecv ≠ pollTurn s.poll := pollTurn_ne (by decide) (by decide) _
    exact .inr (.inr ⟨hother, hfull', .told htimer (hcoming.congr (receive_and (by decide)))⟩)

/-- The turn that is waited for can be taken. -/
theorem Ends.enabled (h : Ends handlers x s n a) : ∃ t, s.step handlers a = some t := by
  obtain ⟨hfull, hdraws⟩ := h
  cases hdraws with
  | hears => exact ⟨_, step_tick hfull.fault⟩
  | told _ hcoming =>
    rcases hcoming.source (by decide) with ⟨haway, -⟩ | hresumed
    · rw [haway]
      exact ⟨_, step_pollRecv hfull.fault haway hfull.releasing⟩
    · rw [hresumed]
      exact ⟨_, step_poll hfull.fault hresumed⟩

theorem Ends.turn (h : Ends handlers x s n a) (hsilent : b.Silent) :
    EndsAfter handlers x s n a b (turn (step handlers) s b) := by
  have ⟨hfull, _⟩ := h
  cases hstep : s.step handlers b with
  | none =>
    rw [turn_of_none hstep]
    refine .inr (.inr ⟨?_, h⟩)
    rintro rfl
    obtain ⟨t, ht⟩ := h.enabled
    rw [hstep] at ht
    cases ht
  | some t =>
    rw [turn_of_some hstep]
    have htakes := takes_of_step hstep
    cases b with
    | byte c => exact absurd hsilent id
    | tick =>
      cases htakes
      exact h.tick
    | transmit =>
      have hstart := htakes.1
      rw [hfull.transStart] at hstart
      cases hstart
    | pollRecv =>
      obtain ⟨⟨haway, -⟩, rfl⟩ := htakes
      exact h.pollRecv haway
    | poll =>
      obtain ⟨e, hpoll, rfl⟩ := htakes
      exact h.poll hpoll
    | runResRelease =>
      have hreleasing := htakes.1
      rw [hfull.releasing] at hreleasing
      cases hreleasing
    | request addr pdu =>
      have hrequest : s.request addr pdu = some t := htakes
      rw [MbMaster.request, if_pos hfull.calling] at hrequest
      cases hrequest
    | requestBusy addr =>
      have hcalling := htakes.1.1
      rw [hfull.calling] at hcalling
      cases hcalling
    | requestRecv =>
      obtain ⟨⟨-, haway⟩, rfl⟩ := htakes
      exact h.requestRecv haway
    | finish =>
      obtain ⟨e, hrequester, -⟩ := htakes
      have hcoming := hfull.request
      rw [hrequester] at hcoming
      obtain ⟨rfl, hne, -⟩ := hcoming.back
      exact absurd rfl hne

theorem Ends.advances (h : Ends handlers x s n a) (hsilent : b.Silent) :
    Advances (fun t => t.fault = true) (Ends handlers x) n a b (Transition.turn (step handlers) s b)
    := by
  rcases h.turn hsilent with ⟨-, -, hfault⟩ | hrest
  · exact .inl hfault
  · exact .inr hrest

/-- Before the failure there is none. -/
theorem EndsAfter.last {t : MbMaster σ} (h : EndsAfter handlers x s n a b t)
    (hfault : t.fault = true) : b = .poll ∧ s.ReceivesFull := by
  rcases h with ⟨hb, hreceives, -⟩ | ⟨_, -, _, hfull, -⟩ | ⟨-, hfull, -⟩
  · exact ⟨hb, hreceives⟩
  · rw [hfull.fault] at hfault
    cases hfault
  · rw [hfull.fault] at hfault
    cases hfault

/-- Once just as many bytes are heard as the buffer holds, silence ends in the failure of the
assertion of `eMBMasterRTUReceive`, at the latest after 1004 rounds in which the clock counts and
the poll thread has its turns. -/
theorem silence_after_full (hreturn : HandlersReturn handlers) {ulBaudRate : Nat}
    {tick : BitVec 32} {regs : σ} {as : List MbAction}
    (horderly : StepsMeet (step handlers) Orderly (start ulBaudRate tick regs) as)
    (hrun : run (step handlers) (start ulBaudRate tick regs) as = some s)
    (hrcv : s.eRcvState = .rxRcv) (hpos : s.usMasterRcvBufferPos = mbSerPduSizeMax)
    {rounds : List (List MbAction)}
    (hrounds : ∀ r ∈ rounds, (∀ b ∈ r, b.Silent) ∧ ∀ a ∈ [.tick, .pollRecv, .poll], a ∈ r)
    (hlen : 1004 ≤ rounds.length) : ∃ bs cs, rounds.flatten = bs ++ .poll :: cs ∧
      (bs.foldl (Transition.turn (step handlers)) s).ReceivesFull ∧
      (Transition.turn (step handlers) (bs.foldl (Transition.turn (step handlers)) s) .poll).fault =
        true := by
  obtain ⟨-, ph, hin, hcaller⟩ := follows_run hreturn horderly hrun
  have hph : ph = .hearing := by
    rw [hin.rcv] at hrcv
    cases ph with
    | hearing => rfl
    | starting | ready | releasing | rest | posted | sending | waiting | overrun | received
    | executing | failed => cases hrcv
  subst hph
  obtain ⟨hcalling, hrequest, -⟩ := hcaller.waiting trivial
  have hleft := (TimerWithin.timeLeft_le hin.timer).2
  have hends : Ends handlers _ s (2 + s.timeLeft) .tick :=
    ⟨⟨hin.fault, hpos, hcalling, hrequest, hin.transStart, hin.releasing⟩, .hears hin⟩
  have hturns (s : MbMaster σ) (n : Nat) (a : MbAction)
      (h : Ends handlers (as.foldl (MbExchange.step handlers) (.start regs)) s n a) :
      a ∈ [.tick, .pollRecv, .poll] := by
    cases h.2 with
    | hears => decide
    | told => cases s.poll <;> simp [pollTurn]
  have hpasses := passes_of_rounds (fun _ _ _ _ h hsilent => Ends.advances h hsilent) hturns hrounds
    hends (by omega)
  obtain ⟨bs, b, cs, hflat, hbefore, hfault⟩ :=
    hpasses.exists_last (Bool.eq_false_iff.mp hin.fault)
  have hsilent : ∀ b ∈ rounds.flatten, b.Silent := by
    intro b hb
    obtain ⟨r, hr, hb⟩ := List.mem_flatten.mp hb
    exact (hrounds r hr).1 b hb
  rw [hflat] at hsilent
  obtain ⟨hsilent, hrest⟩ := List.forall_mem_append.mp hsilent
  obtain ⟨m, -, c, hends'⟩ :=
    (passes_or_ahead (fun _ _ _ _ h hsilent => Ends.advances h hsilent) hends hsilent).resolve_left
      hbefore
  obtain ⟨rfl, hreceives⟩ := (hends'.turn (hrest b List.mem_cons_self)).last hfault
  exact ⟨bs, cs, hflat, hreceives, hfault⟩

/-- The slave sends as many zeros as the buffer holds. -/
theorem silence_after_full_sample :
    ∃ s bs cs, run (step [(3, sampleHandler)]) (start 9600 0 0)
        ((sampleRun []).take 15 ++ List.replicate 256 (.byte 0)) = some s ∧
      (List.replicate 1004 mbTurns).flatten = bs ++ .poll :: cs ∧
      (bs.foldl (Transition.turn (step [(3, sampleHandler)])) s).ReceivesFull := by
  have hsome : (run (step [(3, sampleHandler)]) (start 9600 0 0)
      ((sampleRun []).take 15 ++ List.replicate 256 (.byte 0))).isSome := by
    decide +kernel
  obtain ⟨s, hs⟩ := Option.isSome_iff_exists.mp hsome
  have hheard : ∀ s ∈ run (step [(3, sampleHandler)]) (start 9600 0 0)
      ((sampleRun []).take 15 ++ List.replicate 256 (.byte 0)),
      s.eRcvState = .rxRcv ∧ s.usMasterRcvBufferPos = mbSerPduSizeMax := by
    decide +kernel
  have hrounds : ∀ r ∈ List.replicate 1004 mbTurns,
      (∀ b ∈ r, b.Silent) ∧ ∀ a ∈ [.tick, .pollRecv, .poll], a ∈ r := by
    intro r hr
    rw [List.eq_of_mem_replicate hr]
    exact ⟨by decide, by decide⟩
  obtain ⟨bs, cs, hflat, hreceives, -⟩ := silence_after_full sampleHandler_returns
    (by decide +kernel) hs (hheard s hs).1 (hheard s hs).2 hrounds (by rw [List.length_replicate])
  exact ⟨s, bs, cs, hs, hflat, hreceives⟩

end MbMaster

end ControlBoard
