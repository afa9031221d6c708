import ControlBoard.ModbusReturn

/-!
# Requests before the start

Until the line has been silent after the start, and the poll thread has taken the event that tells
so, the master is not ready for a request, but accepts it.
-/

namespace ControlBoard

open EventObject Transition

variable {σ : Type}

namespace MbMaster

variable {handlers : List (UInt8 × MbHandler σ)} {x : MbExchange σ} {s t : MbMaster σ}
  {ph : MbPhase} {a : MbAction}

/-- The caller waits, and nothing is under way for it. -/
structure Hung (handlers : List (UInt8 × MbHandler σ)) (x : MbExchange σ) (s : MbMaster σ) :
    Prop where
  calling : s.calling = true
  returned : s.returned = x.returned
  request : Coming requestSet s.event s.requester 0
  phase : ∃ ph, s.In handlers x ph ∧ ¬ ph.Exchanges

theorem Hung.of_kept (h : Hung handlers x s) (hkept : Kept s t 0) (hin : t.In handlers x ph)
    (hph : ¬ ph.Exchanges) : Hung handlers x t :=
  ⟨hkept.calling.trans h.calling, hkept.returned.trans h.returned, hkept.request, ph, hin, hph⟩

theorem Hung.step (hreturn : HandlersReturn handlers) (h : Hung handlers x s)
    (hsilent : a.Silent) (hstep : s.step handlers a = some t) : Hung handlers x t := by
  obtain ⟨ph, hin, hph⟩ := h.phase
  have htakes := takes_of_step hstep
  cases a with
  | byte c => exact absurd hsilent id
  | tick =>
    cases htakes
    have hrcv : s.eRcvState ≠ .rxRcv := by
      rw [hin.rcv]
      cases ph with
      | starting | ready | releasing | rest => decide
      | posted | sending | waiting | hearing | overrun | received | executing | failed =>
        exact absurd trivial hph
    obtain ⟨ph', hin', hex, -, hkept⟩ := hin.tick h.request fun hfull => hrcv hfull.1
    exact h.of_kept hkept hin' (mt hex.mp hph)
  | transmit =>
    obtain ⟨_, -, hex, -⟩ := hin.transmit h.request htakes.1
    exact absurd hex hph
  | pollRecv =>
    obtain ⟨⟨haway, -⟩, rfl⟩ := htakes
    obtain ⟨hin', hkept⟩ := hin.pollRecv h.request haway
    exact h.of_kept hkept hin' hph
  | poll =>
    obtain ⟨e, hpoll, rfl⟩ := htakes
    rcases hin.poll hreturn h.request (fun _ => rfl) hpoll with
      ⟨ph', hin', hex, -, -, hkept⟩ | ⟨hex, -⟩
    · exact h.of_kept hkept hin' (mt hex.mp hph)
    · exact absurd hex hph
  | runResRelease =>
    obtain ⟨hreleasing, rfl⟩ := htakes
    obtain ⟨rfl, hin'⟩ := hin.runResRelease hreleasing
    exact ⟨h.calling, h.returned, h.request, .rest, hin', id⟩
  | request addr pdu =>
    have hrequest : s.request addr pdu = some t := htakes
    rw [MbMaster.request, if_pos h.calling] at hrequest
    cases hrequest
  | requestBusy addr =>
    have hcalling := htakes.1.1
    rw [h.calling] at hcalling
    cases hcalling
  | requestRecv =>
    obtain ⟨⟨-, haway⟩, rfl⟩ := htakes
    have hcoming := h.request
    rw [haway] at hcoming
    exact ⟨h.calling, h.returned, hcoming.receive, ph, hin.requestRecv, hph⟩
  | finish =>
    obtain ⟨e, hrequester, rfl⟩ := htakes
    have hcoming := h.request
    rw [hrequester] at hcoming
    obtain ⟨rfl, hne, -⟩ := hcoming.back
    exact absurd rfl hne

/-- The only timer that can run is the one of the start. -/
theorem Hung.timer (h : Hung handlers x s) (htimer : s.timer ≠ none) :
    s.eRcvState = .rxInit ∧ s.eMasterCurTimerMode = .t35 := by
  obtain ⟨ph, hin, hph⟩ := h.phase
  have hwithin := hin.timer
  rw [TimerWithin] at hwithin
  cases hsome : s.timer with
  | none => exact absurd hsome htimer
  | some timeout =>
    rw [hsome] at hwithin
    have htimed := hwithin.1
    cases ph with
    | starting => exact ⟨hin.rcv, hin.holds.2⟩
    | ready | releasing | rest => cases htimed
    | posted | sending | waiting | hearing | overrun | received | executing | failed =>
      exact absurd trivial hph

theorem Hung.transStart (h : Hung handlers x s) : s.transStart = false := by
  obtain ⟨ph, hin, hph⟩ := h.phase
  rw [hin.transStart]
  cases ph with
  | starting | ready | releasing | rest => rfl
  | posted | sending | waiting | hearing | overrun | received | executing | failed =>
    exact absurd trivial hph

/-- The poll thread has still to take up the request, and the start is not over. -/
structure Early (handlers : List (UInt8 × MbHandler σ)) (x : MbExchange σ) (s : MbMaster σ) :
    Prop where
  calling : s.calling = true
  returned : s.returned = x.returned
  request : Coming requestSet s.event s.requester 0
  coming : Coming pollSet s.event s.poll evMasterFrameSent
  starting : ∃ event poll, { s with event := event, poll := poll }.In handlers x .starting

/-- The state behind a request that is made at rest, or before. -/
theorem requested {addr : UInt8} {pdu : List UInt8} (hcaller : Caller handlers x s ph)
    (hcalling : s.calling = false) (hreleasing : s.releasing = false)
    (hpoll : Coming pollSet s.event s.poll 0) (haddr : addr ≤ mbMasterTotalSlaveNum)
    (hlen : pdu.length + 3 ≤ mbPduSizeMax) (hrequest : s.request addr pdu = some t) :
    ∃ event poll, t = { s.asking addr pdu with event := event, poll := poll } ∧
      Mail event poll .away evMasterFrameSent 0 := by
  cases hcaller with
  | waits hyes | answered hyes =>
    rw [hcalling] at hyes
    cases hyes
  | idle _ hmail hres =>
    obtain ⟨event, poll, hpost, hsent⟩ := Mail.post_poll (s := s.asking addr pdu)
      (e := evMasterFrameSent) ⟨hpoll, .away hmail.none⟩ (by decide)
    rw [hreleasing] at hres
    rw [request_eq hcalling (UInt8.not_lt.mpr haddr) hres hlen, hpost] at hrequest
    exact ⟨event, poll, (Option.some.inj hrequest).symm, hsent⟩

/-- During the start nothing is sent. -/
theorem frameSent_of_init (h : s.eRcvState = .rxInit) :
    s.frameSent = { s with ucMBFrame := .snd } := by
  rw [frameSent, rtuSend]
  split
  · rfl
  · simp only [h]

theorem Early.rcv (h : Early handlers x s) : s.eRcvState = .rxInit := by
  obtain ⟨event, poll, hin⟩ := h.starting
  exact hin.rcv

/-- The poll thread cannot send the frame, and does not look at the error. -/
theorem Early.poll (h : Early handlers x s) {e : BitVec 32} (hpoll : s.poll = .resumed e) :
    Hung handlers x (s.taken.pollEvent handlers e) := by
  have hcoming := h.coming
  rw [hpoll] at hcoming
  obtain ⟨rfl, -, haway⟩ := hcoming.back
  obtain ⟨event, poll, hin⟩ := h.starting
  have hunsent : s.taken.pollEvent handlers evMasterFrameSent =
      { s.taken with ucMBFrame := .snd } := frameSent_of_init h.rcv
  rw [hunsent]
  exact ⟨h.calling, h.returned, h.request, .starting, ⟨hin.fault, hin.rcv, hin.snd, hin.rxEnabled,
    hin.transStart, hin.releasing, hin.timer, haway, False.elim, hin.holds⟩, id⟩

/-- As long as the start lasts, the request waits for the poll thread or is lost. -/
def Pends (handlers : List (UInt8 × MbHandler σ)) (x : MbExchange σ) (s : MbMaster σ) : Prop :=
  s.eRcvState = .rxInit → Early handlers x s ∨ Hung handlers x s

theorem Early.step (h : Early handlers x s) (hsilent : a.Silent)
    (hstep : s.step handlers a = some t) (hinit : t.eRcvState = .rxInit) :
    Early handlers x t ∨ Hung handlers x t := by
  obtain ⟨event, poll, hin⟩ := h.starting
  have htakes := takes_of_step hstep
  cases a with
  | byte c => exact absurd hsilent id
  | tick =>
    cases htakes
    rcases s.tickIncrease_cases with ⟨-, htick⟩ | ⟨hon, htick⟩
    · have hover := timerExpired_of_idle (receiverExpired_init (s := s.expiring) hin.rcv) hin.snd
        hin.holds.2
      rw [htick, hover] at hinit
      cases hinit
    · rw [htick]
      exact .inl ⟨h.calling, h.returned, h.request, h.coming, event, poll, hin.tickOn hon⟩
  | transmit =>
    have hstart : s.transStart = false := hin.transStart
    rw [htakes.1] at hstart
    cases hstart
  | pollRecv =>
    obtain ⟨⟨haway, -⟩, rfl⟩ := htakes
    have hcoming := h.coming
    rw [haway] at hcoming
    exact .inl ⟨h.calling, h.returned, h.request.congr (receive_and (by decide)), hcoming.receive,
      event, poll, hin⟩
  | poll =>
    obtain ⟨e, hpoll, rfl⟩ := htakes
    exact .inr (h.poll hpoll)
  | runResRelease =>
    have hreleasing : s.releasing = false := hin.releasing
    rw [htakes.1] at hreleasing
    cases hreleasing
  | request addr pdu =>
    have hrequest : s.request addr pdu = some t := htakes
    rw [MbMaster.request, if_pos h.calling] at hrequest
    cases hrequest
  | requestBusy addr =>
    have hcalling := htakes.1.1
    rw [h.calling] at hcalling
    cases hcalling
  | requestRecv =>
    obtain ⟨⟨-, haway⟩, rfl⟩ := htakes
    have hrequest := h.request
    rw [haway] at hrequest
    have hin' : { s with
        event := event
        poll := poll
        requester := (receive requestSet s.event).2 }.In handlers x .starting :=
      hin.caller hin.coming
    exact .inl ⟨h.calling, h.returned, hrequest.receive, h.coming.congr (receive_and (by decide)),
      event, poll, hin'⟩
  | finish =>
    obtain ⟨e, hrequester, -⟩ := htakes
    have hcoming := h.request
    rw [hrequester] at hcoming
    obtain ⟨rfl, hne, -⟩ := hcoming.back
    exact absurd rfl hne

theorem Pends.step (hreturn : HandlersReturn handlers) (h : Pends handlers x s)
    (hok : a.Silent ∧ s.eRcvState = .rxInit) (hstep : s.step handlers a = some t) :
    Pends handlers x t := by
  intro hinit
  rcases h hok.2 with hearly | hhung
  · exact hearly.step hok.1 hstep hinit
  · exact .inr (hhung.step hreturn hok.1 hstep)

/-- A request that the poll thread comes to handle before the start is over never returns, as long
as the line is silent: its frame is not sent, and no timer runs for it. -/
theorem request_before_start (hreturn : HandlersReturn handlers) {ulBaudRate : Nat}
    {tick : BitVec 32} {regs : σ} {as bs cs : List MbAction} {u : MbMaster σ}
    (horderly : StepsMeet (step handlers) Orderly (start ulBaudRate tick regs) as)
    (hrun : run (step handlers) (start ulBaudRate tick regs) as = some s)
    (hcalling : s.calling = false) {addr : UInt8} {pdu : List UInt8}
    (haddr : addr ≤ mbMasterTotalSlaveNum) (hlen : pdu.length + 3 ≤ mbPduSizeMax)
    (hinit : StepsMeet (step handlers) (fun v b => b.Silent ∧ v.eRcvState = .rxInit) s
      (.request addr pdu :: bs))
    (hposted : run (step handlers) s (.request addr pdu :: bs) = some u)
    (hstill : u.eRcvState = .rxInit) (hsilent : ∀ c ∈ cs, c.Silent)
    (hlater : run (step handlers) u (.poll :: cs) = some t) :
    t.calling = true ∧ t.returned = s.returned ∧ t.line = s.line ∧ t.transStart = false ∧
      (t.timer ≠ none → t.eRcvState = .rxInit ∧ t.eMasterCurTimerMode = .t35) ∧
      t.fault = false := by
  obtain ⟨x, hx⟩ : ∃ x, as.foldl (MbExchange.step handlers) (.start regs) = x := ⟨_, rfl⟩
  have hfollows := follows_run hreturn horderly hrun
  rw [hx] at hfollows
  obtain ⟨hreturned, ph, hin, hcaller⟩ := hfollows
  obtain ⟨⟨-, hrcv⟩, hinit⟩ := hinit
  have hph : ph = .starting := by
    rw [hin.rcv] at hrcv
    cases ph with
    | starting => rfl
    | ready | releasing | rest | posted | sending | waiting | hearing | overrun | received
    | executing | failed => cases hrcv
  subst hph
  obtain ⟨v, hv, hposted⟩ := run_cons.mp hposted
  obtain ⟨w, hw, hlater⟩ := run_cons.mp hlater
  obtain ⟨event, poll, hasked, hsent⟩ :=
    requested hcaller hcalling hin.releasing hin.coming haddr hlen (takes_of_step hv)
  have hearly : Early handlers x v := by
    rw [hasked]
    exact ⟨rfl, hreturned, hsent.request, hsent.poll, s.event, s.poll, ⟨hin.fault, hin.rcv, hin.snd,
      hin.rxEnabled, hin.transStart, hin.releasing, hin.timer, hin.coming, False.elim, hin.holds⟩⟩
  have hpends : Pends handlers x u :=
    run_preserves (fun _ _ _ h hok hstep => Pends.step hreturn h hok hstep) (fun _ => .inl hearly)
      (hinit v hv) hposted
  have hhung : Hung handlers x w := by
    rcases hpends hstill with hearly | hhung
    · obtain ⟨e, hpoll, rfl⟩ := takes_of_step hw
      exact hearly.poll hpoll
    · have hsilent : MbAction.poll.Silent := trivial
      exact hhung.step hreturn hsilent hw
  have hlast := run_preserves (fun _ _ _ h hsilent hstep => Hung.step hreturn h hsilent hstep) hhung
    (stepsMeet_of_mem hsilent _) hlater
  obtain ⟨ph, hin', hph⟩ := hlast.phase
  exact ⟨hlast.calling, hlast.returned.trans hreturned.symm,
    (hin'.line_eq hph).trans (hin.line_eq id).symm, hlast.transStart, hlast.timer, hin'.fault⟩

/-- A register is asked for at once, and the caller waits before the poll thread has come to it. -/
theorem request_before_start_sample :
    ∃ s u t, run (step [(3, sampleHandler)]) (start 9600 0 0) [] = some s ∧
      run (step [(3, sampleHandler)]) s
        [.request 1 [3, 0, 0, 0, 1], .requestRecv, .pollRecv] = some u ∧
      run (step [(3, sampleHandler)]) u (.poll :: List.replicate 100 .tick) = some t ∧
      t.calling = true ∧ t.returned = s.returned ∧ t.line = s.line := by
  have hsome : ((run (step [(3, sampleHandler)]) (start 9600 0 0)
      [.request 1 [3, 0, 0, 0, 1], .requestRecv, .pollRecv]).bind fun u =>
        run (step [(3, sampleHandler)]) u (.poll :: List.replicate 100 .tick)).isSome := by
    decide +kernel
  obtain ⟨t, ht⟩ := Option.isSome_iff_exists.mp hsome
  obtain ⟨u, hu, ht⟩ := Option.bind_eq_some_iff.mp ht
  have hstill : ∀ u ∈ run (step [(3, sampleHandler)]) (start 9600 0 0)
      [.request 1 [3, 0, 0, 0, 1], .requestRecv, .pollRecv], u.eRcvState = .rxInit := by
    decide +kernel
  have hsilent : ∀ c ∈ List.replicate 100 MbAction.tick, c.Silent := by decide
  have hnothing : StepsMeet (step [(3, sampleHandler)]) Orderly (start 9600 0 0) [] := trivial
  have hhangs := request_before_start sampleHandler_returns hnothing rfl rfl (by decide) (by decide)
    (by decide +kernel) hu (hstill u hu) hsilent ht
  exact ⟨_, u, t, rfl, hu, ht, hhangs.1, hhangs.2.1, hhangs.2.2.1⟩

/-! ## The event of the start -/

theorem eventPost_away {e : BitVec 32} (hpoll : s.poll = .away) (hrequester : s.requester = .away) :
    s.eventPost e = { s with event := s.event ||| e } := by
  cases s
  cases hpoll
  cases hrequester
  rfl

/-- What the poll thread finds if it has been asked for two things. -/
theorem receive_both {event e f : BitVec 32} (h : event &&& pollSet = e) (hf : f &&& pollSet = f)
    (hne : e ||| f ≠ 0) : (receive pollSet (event ||| f)).2 = .resumed (e ||| f) := by
  have hword : (event ||| f) &&& pollSet = e ||| f := by
    rw [BitVec.and_comm, BitVec.and_or_distrib_left, BitVec.and_comm pollSet event, h,
      BitVec.and_comm, hf]
  have hraised : Flags.Raised (event ||| f) pollSet := by rwa [Flags.Raised, hword]
  rw [receive, if_pos hraised, hword]

/-- A request made before the poll thread has come back for the event of the start: the thread
takes both events at once, which match none of its cases. -/
theorem request_with_ready (hreturn : HandlersReturn handlers) {ulBaudRate : Nat}
    {tick : BitVec 32} {regs : σ} {as : List MbAction}
    (horderly : StepsMeet (step handlers) Orderly (start ulBaudRate tick regs) as)
    (hrun : run (step handlers) (start ulBaudRate tick regs) as = some s)
    (hcalling : s.calling = false) (hpoll : s.poll = .away)
    (hready : Flags.Raised s.event evMasterReady) {addr : UInt8} {pdu : List UInt8}
    (haddr : addr ≤ mbMasterTotalSlaveNum) (hlen : pdu.length + 3 ≤ mbPduSizeMax) :
    ∃ u t, run (step handlers) s [.request addr pdu, .pollRecv] = some u ∧ u.fault = false ∧
      u.poll = .resumed (evMasterReady ||| evMasterFrameSent) ∧
      u.step handlers .poll = some t ∧ t.fault = true := by
  obtain ⟨-, ph, hin, hcaller⟩ := follows_run hreturn horderly hrun
  have hcoming := hin.coming
  rw [hpoll] at hcoming
  have hnothing : ¬ Coming pollSet s.event .away 0 := by
    intro hzero
    have hpart : pollSet &&& evMasterReady = evMasterReady := by decide
    refine hready ?_
    rw [← hpart, ← BitVec.and_assoc, hzero.none]
    exact BitVec.zero_and
  cases hcaller with
  | waits hyes | answered hyes =>
    rw [hcalling] at hyes
    cases hyes
  | idle _ hmail hres _ hph =>
    cases ph with
    | posted | sending | waiting | hearing | overrun | received | executing | failed =>
      exact absurd trivial hph
    | starting | releasing | rest => exact absurd hcoming hnothing
    | ready =>
      have hword : s.event &&& pollSet = evMasterReady := by
        cases hcoming with
        | away h => exact h
      have hreleasing : s.releasing = false := hin.releasing
      rw [hreleasing] at hres
      have hask : s.step handlers (.request addr pdu) =
          some { s.asking addr pdu with event := s.event ||| evMasterFrameSent } := by
        rw [step_request hin.fault, request_eq hcalling (UInt8.not_lt.mpr haddr) hres hlen]
        exact congrArg some (eventPost_away hpoll rfl)
      have hrecv : MbMaster.step handlers _ .pollRecv = _ :=
        step_pollRecv (s := { s.asking addr pdu with event := s.event ||| evMasterFrameSent })
          hin.fault hpoll hreleasing
      have htaken : (receive pollSet (s.event ||| evMasterFrameSent)).2 =
          .resumed (evMasterReady ||| evMasterFrameSent) :=
        receive_both hword (by decide) (by decide)
      have hboth : MbMaster.step handlers _ .poll = _ :=
        step_poll
          (s := { s.asking addr pdu with
            event := (receive pollSet (s.event ||| evMasterFrameSent)).1
            poll := (receive pollSet (s.event ||| evMasterFrameSent)).2 }) hin.fault htaken
      refine ⟨_, _, run_cons.mpr ⟨_, hask, run_cons.mpr ⟨_, hrecv, rfl⟩⟩, hin.fault, htaken, hboth,
        ?_⟩
      exact Bool.or_true _

/-- A register is asked for when the silence is over, and the poll thread is late. -/
theorem request_with_ready_sample :
    ∃ s u, run (step [(3, sampleHandler)]) (start 9600 0 0) [.tick] = some s ∧
      run (step [(3, sampleHandler)]) s [.request 1 [3, 0, 0, 0, 1], .pollRecv] = some u ∧
      u.poll = .resumed (evMasterReady ||| evMasterFrameSent) := by
  have hsome : (run (step [(3, sampleHandler)]) (start 9600 0 0) [.tick]).isSome := by
    decide +kernel
  obtain ⟨s, hs⟩ := Option.isSome_iff_exists.mp hsome
  have htick : ∀ s ∈ run (step [(3, sampleHandler)]) (start 9600 0 0) [.tick],
      s.calling = false ∧ s.poll = .away ∧ Flags.Raised s.event evMasterReady := by
    decide +kernel
  obtain ⟨hcalling, hpoll, hready⟩ := htick s hs
  obtain ⟨u, t, hu, -, hboth, -, -⟩ := request_with_ready sampleHandler_returns (by decide +kernel)
    hs hcalling hpoll hready (show (1 : UInt8) ≤ mbMasterTotalSlaveNum by decide)
    (show [3, 0, 0, 0, 1].length + 3 ≤ mbPduSizeMax by decide)
  exact ⟨s, u, hs, hu, hboth⟩

end MbMaster

end ControlBoard
