import ControlBoard.ModbusExchange

/-!
# The steps of a Modbus exchange

What a tick, a byte, a turn of the transmitter and a turn of the poll loop do to a master that is in
some phase of an exchange. None of them asks where the caller is: they only leave a result on its
way to it.
-/

namespace ControlBoard

open EventObject

variable {σ : Type}

namespace MbMaster

variable {handlers : List (UInt8 × MbHandler σ)} {x : MbExchange σ} {s : MbMaster σ}

/-- A step that does not concern the caller. -/
structure Kept (s s' : MbMaster σ) (requested : BitVec 32) : Prop where
  calling : s'.calling = s.calling
  runRes : s'.xMasterRunRes = s.xMasterRunRes
  releasing : s'.releasing = s.releasing
  returned : s'.returned = s.returned
  requester : s'.requester = s.requester
  request : Coming requestSet s'.event s'.requester requested

variable {ph : MbPhase} {requested : BitVec 32}

theorem In.mail (h : s.In handlers x ph) (hr : Coming requestSet s.event s.requester requested) :
    Mail s.event s.poll s.requester ph.coming requested := ⟨h.coming, hr⟩

theorem Asked.congr {s' : MbMaster σ} (h : s.Asked x)
    (hsame : s'.usMasterSendPDULength = s.usMasterSendPDULength) : s'.Asked x :=
  ⟨h.dest, h.length, hsame.trans h.sndLength, h.sndBuf⟩

/-- The silence behind a frame has passed, or the start. -/
theorem timerExpired_of_idle {u : MbMaster σ} (hu : s.receiverExpired = u)
    (hsnd : u.eSndState = .txIdle) (hmode : u.eMasterCurTimerMode = .t35) : s.timerExpired =
      { u with eRcvState := .rxIdle, eSndState := .txIdle, timer := none } := by
  subst hu
  simp only [timerExpired, transmitterExpired, hsnd, timersDisable, hmode, reduceCtorEq, if_false]

theorem receiverExpired_init (h : s.eRcvState = .rxInit) :
    s.receiverExpired = s.eventPost evMasterReady := by
  simp only [receiverExpired, h]

theorem receiverExpired_idle (h : s.eRcvState = .rxIdle) : s.receiverExpired = s := by
  simp only [receiverExpired, h]

theorem receiverExpired_rcv (h : s.eRcvState = .rxRcv) :
    s.receiverExpired = s.eventPost evMasterFrameReceived := by
  simp only [receiverExpired, h]

theorem receiverExpired_error (h : s.eRcvState = .rxError) : s.receiverExpired =
    { s with eMBMasterCurErrorType := .receiveData }.eventPost evMasterErrorProcess := by
  simp only [receiverExpired, h]

/-- The tick at which the timer runs out. -/
abbrev expiring (s : MbMaster σ) : MbMaster σ := { s with tick := s.tick + 1, timer := none }

theorem In.startExpired (h : s.In handlers x .starting)
    (hr : Coming requestSet s.event s.requester requested) :
    s.expiring.timerExpired.In handlers x .ready ∧ s.expiring.timerExpired.data = s.data ∧
      Kept s s.expiring.timerExpired requested := by
  obtain ⟨event, poll, hpost, hmail⟩ :=
    Mail.post_poll (s := s.expiring) (h.mail hr) (e := evMasterReady) (by decide)
  have hu := (receiverExpired_init (s := s.expiring) h.rcv).trans hpost
  rw [timerExpired_of_idle hu h.snd h.holds.2]
  exact ⟨{
    fault := h.fault
    rcv := rfl
    snd := rfl
    rxEnabled := h.rxEnabled
    transStart := h.transStart
    releasing := h.releasing
    timer := rfl
    coming := hmail.poll
    asked := False.elim
    holds := h.holds.1 }, rfl, ⟨rfl, rfl, rfl, rfl, rfl, hmail.request⟩⟩

/-- The silence behind the bytes of a reply. -/
theorem In.hearingExpired (h : s.In handlers x .hearing)
    (hr : Coming requestSet s.event s.requester requested)
    (hlen : s.usMasterRcvBufferPos ≠ mbSerPduSizeMax) :
    s.expiring.timerExpired.In handlers x .received ∧ Kept s s.expiring.timerExpired requested := by
  obtain ⟨event, poll, hpost, hmail⟩ :=
    Mail.post_poll (s := s.expiring) (h.mail hr) (e := evMasterFrameReceived) (by decide)
  obtain ⟨hline, hdata, hpos, hne, hmax, hbroadcast, hmode⟩ := h.holds
  have hu := (receiverExpired_rcv (s := s.expiring) h.rcv).trans hpost
  rw [timerExpired_of_idle hu h.snd hmode]
  rw [hpos] at hlen
  exact ⟨{
    fault := h.fault
    rcv := rfl
    snd := rfl
    rxEnabled := h.rxEnabled
    transStart := h.transStart
    releasing := h.releasing
    timer := rfl
    coming := hmail.poll
    asked := fun _ => (h.asked trivial).congr rfl
    holds := ⟨hline, hdata, hpos, hne, Nat.lt_of_le_of_ne hmax hlen, hbroadcast⟩ },
    ⟨rfl, rfl, rfl, rfl, rfl, hmail.request⟩⟩

/-- What is longer than the buffer is not a frame. -/
theorem verdict_of_overrun (h : mbSerPduSizeMax < x.heard.length) :
    x.verdict handlers = (.revData, x.stored) := by
  have hnot : ¬ x.heard.length < mbSerPduSizeMax := Nat.not_lt_of_lt h
  rw [MbExchange.verdict]
  split
  · rename_i hnil
    rw [hnil] at h
    exact absurd h (Nat.not_lt_zero _)
  · exact if_neg hnot

theorem In.overrunExpired (h : s.In handlers x .overrun)
    (hr : Coming requestSet s.event s.requester requested) :
    s.expiring.timerExpired.In handlers x .failed ∧ Kept s s.expiring.timerExpired requested := by
  obtain ⟨event, poll, hpost, hmail⟩ :=
    Mail.post_poll (s := { s.expiring with eMBMasterCurErrorType := .receiveData })
      (e := evMasterErrorProcess) (h.mail hr) (by decide)
  obtain ⟨hline, hdata, hmax, hmode⟩ := h.holds
  have hu := (receiverExpired_error (s := s.expiring) h.rcv).trans hpost
  rw [timerExpired_of_idle hu h.snd hmode]
  exact ⟨{
    fault := h.fault
    rcv := rfl
    snd := rfl
    rxEnabled := h.rxEnabled
    transStart := h.transStart
    releasing := h.releasing
    timer := rfl
    coming := hmail.poll
    asked := fun _ => (h.asked trivial).congr rfl
    holds := ⟨hline, (verdict_of_overrun hmax).trans (congrArg _ hdata.symm)⟩ },
    ⟨rfl, rfl, rfl, rfl, rfl, hmail.request⟩⟩

theorem verdict_of_silence (h : x.heard = []) : x.verdict handlers =
    if x.broadcast then
      executed x.data (execute handlers .snd x.pdu.length x.pdu.length true x.data)
    else (.timedout, x.data) := by
  rw [MbExchange.verdict, h]

/-- An executed frame that comes from the send buffer has the length of the PDU there. -/
theorem executed_broadcast (frame : MbFrame) (usLength usLength' sndLength : Nat) (d : MbData σ) :
    executed d (execute handlers frame usLength sndLength true d) =
      executed d (execute handlers frame usLength' sndLength true d) := by
  simp only [execute, if_true]
  by_cases hexception : d.frameByte frame 0 >>> 7 ≠ 0
  · simp only [if_pos hexception]
    rfl
  · simp only [if_neg hexception]
    cases findHandler handlers (d.frameByte frame 0) <;> rfl

theorem transmitterExpired_waiting (hsnd : s.eSndState = .txXfwr)
    (hbroadcast : s.xFrameIsBroadcast = false) : s.transmitterExpired =
      { s with eMBMasterCurErrorType := .respondTimeout }.eventPost evMasterErrorProcess := by
  simp only [transmitterExpired, hsnd, hbroadcast, Bool.false_eq_true, if_false]

theorem transmitterExpired_broadcast (hsnd : s.eSndState = .txXfwr)
    (hbroadcast : s.xFrameIsBroadcast = true) : s.transmitterExpired = s := by
  simp only [transmitterExpired, hsnd, hbroadcast, if_true]

theorem with_rcv {eRcvState : MbMasterRcvState} (h : s.eRcvState = eRcvState) :
    { s with eRcvState := eRcvState } = s := by
  subst h
  rfl

/-- No slave has answered. -/
theorem timerExpired_of_waiting (hrcv : s.eRcvState = .rxIdle) (hsnd : s.eSndState = .txXfwr)
    (hbroadcast : s.xFrameIsBroadcast = false) (hmode : s.eMasterCurTimerMode ≠ .convertDelay)
    {event : BitVec 32} {poll : Waiter 32}
    (hpost : { s with eMBMasterCurErrorType := .respondTimeout }.eventPost evMasterErrorProcess =
      { s with eMBMasterCurErrorType := .respondTimeout, event := event, poll := poll }) :
    s.timerExpired =
      { s with
        eMBMasterCurErrorType := .respondTimeout
        event := event
        poll := poll
        eRcvState := .rxIdle
        eSndState := .txIdle
        timer := none } := by
  have hu := (transmitterExpired_waiting hsnd hbroadcast).trans hpost
  rw [timerExpired, receiverExpired_idle hrcv, with_rcv hrcv, hu]
  simp only [timersDisable, hmode, if_false, hrcv]

/-- The time for a broadcast has passed. -/
theorem timerExpired_of_broadcast (hrcv : s.eRcvState = .rxIdle) (hsnd : s.eSndState = .txXfwr)
    (hbroadcast : s.xFrameIsBroadcast = true) (hmode : s.eMasterCurTimerMode = .convertDelay) :
    s.timerExpired =
      { s with eRcvState := .rxIdle, eSndState := .txIdle, timer := none }.eventPost
        evMasterExecute := by
  rw [timerExpired, receiverExpired_idle hrcv, with_rcv hrcv,
    transmitterExpired_broadcast hsnd hbroadcast]
  simp only [timersDisable, hmode, if_true, hrcv]

/-- Nothing was heard in time. -/
theorem In.waitingExpired (h : s.In handlers x .waiting)
    (hr : Coming requestSet s.event s.requester requested) :
    ∃ ph, s.expiring.timerExpired.In handlers x ph ∧ ph.Exchanges ∧
      ph.most ≤ MbPhase.waiting.least ∧ Kept s s.expiring.timerExpired requested := by
  obtain ⟨hline, hdata, hframe, hheard, hbroadcast, hmode⟩ := h.holds
  have hverdict : x.verdict handlers = _ := verdict_of_silence hheard
  have hasked := h.asked trivial
  cases hx : x.broadcast with
  | false =>
    obtain ⟨event, poll, hpost, hmail⟩ :=
      Mail.post_poll (s := { s.expiring with eMBMasterCurErrorType := .respondTimeout })
        (e := evMasterErrorProcess) (h.mail hr) (by decide)
    rw [hx] at hbroadcast hmode hverdict
    have hmode' : s.eMasterCurTimerMode ≠ .convertDelay := fun hc => by cases hmode.mp hc
    refine ⟨.failed, ?_, trivial, by decide, ?_⟩
    · rw [timerExpired_of_waiting (s := s.expiring) h.rcv h.snd hbroadcast hmode' hpost]
      exact
        { fault := h.fault
          rcv := rfl
          snd := rfl
          rxEnabled := h.rxEnabled
          transStart := h.transStart
          releasing := h.releasing
          timer := rfl
          coming := hmail.poll
          asked := fun _ => hasked.congr rfl
          holds := by
            rw [if_neg Bool.false_ne_true, ← hdata] at hverdict
            exact ⟨hline, hverdict⟩ }
    · rw [timerExpired_of_waiting (s := s.expiring) h.rcv h.snd hbroadcast hmode' hpost]
      exact ⟨rfl, rfl, rfl, rfl, rfl, hmail.request⟩
  | true =>
    rw [hx] at hbroadcast hmode hverdict
    obtain ⟨event, poll, hpost, hmail⟩ :=
      Mail.post_poll
        (s := { s.expiring with eRcvState := .rxIdle, eSndState := .txIdle, timer := none })
        (e := evMasterExecute) (h.mail hr) (by decide)
    rw [timerExpired_of_broadcast (s := s.expiring) h.rcv h.snd hbroadcast (hmode.mpr rfl), hpost]
    refine ⟨.executing, ?_, trivial, Nat.le_refl _, ⟨rfl, rfl, rfl, rfl, rfl, hmail.request⟩⟩
    exact
      { fault := h.fault
        rcv := rfl
        snd := rfl
        rxEnabled := h.rxEnabled
        transStart := h.transStart
        releasing := h.releasing
        timer := rfl
        coming := hmail.poll
        asked := fun _ => hasked.congr rfl
        holds := by
          refine ⟨hline, ?_, hbroadcast.trans hx.symm, ?_, ?_⟩
          · rw [hframe]
            decide
          · rw [hdata]
            rfl
          · rw [hverdict, if_pos rfl, hx, hframe, hdata]
            exact executed_broadcast _ _ _ _ _ }

theorem Expires.timed {timed : Bool} (hexpires : s.Expires) (h : s.TimerWithin timed) :
    timed = true := by
  obtain ⟨timeout, htimer, -⟩ := hexpires
  rw [TimerWithin, htimer] at h
  exact h.1

/-- A tick that ends no timer. -/
theorem In.tickOn (h : s.In handlers x ph) (hon : ¬ s.Expires) :
    { s with tick := s.tick + 1 }.In handlers x ph := by
  have hholds : { s with tick := s.tick + 1 }.Holds handlers x ph := by
    have := h.holds
    cases ph <;> exact this
  refine ⟨h.fault, h.rcv, h.snd, h.rxEnabled, h.transStart, h.releasing, ?_, h.coming,
    fun hex => (h.asked hex).congr rfl, hholds⟩
  have hin := h.timer
  rw [TimerWithin] at hin ⊢
  cases ht : s.timer with
  | none => rwa [ht] at hin
  | some timeout =>
    rw [ht] at hin
    have hnext := (timer_tick hin.2).2 fun hexpired => hon ⟨timeout, ht, hexpired⟩
    refine ⟨hin.1, ?_⟩
    have hle := hin.2
    dsimp only
    omega

/-- A tick ends the timer, or it only counts. -/
theorem tickIncrease_cases (s : MbMaster σ) :
    s.Expires ∧ s.tickIncrease = s.expiring.timerExpired ∨
      ¬ s.Expires ∧ s.tickIncrease = { s with tick := s.tick + 1 } := by
  rw [tickIncrease, Expires]
  dsimp only
  cases htimer : s.timer with
  | none =>
    refine .inr ⟨?_, rfl⟩
    rintro ⟨timeout, hnone, -⟩
    cases hnone
  | some timeout =>
    dsimp only
    by_cases hexpired : rtTimerExpired (s.tick + 1) timeout
    · exact .inl ⟨⟨timeout, rfl, hexpired⟩, if_pos hexpired⟩
    · refine .inr ⟨?_, if_neg hexpired⟩
      rintro ⟨timeout', htimeout, hexpired'⟩
      cases htimeout
      exact hexpired hexpired'

/-- The clock moves the master on by itself at the end of the start, and when it has waited for or
heard a reply. -/
theorem In.expired (h : s.In handlers x ph)
    (hr : Coming requestSet s.event s.requester requested)
    (hlen : ¬ (s.eRcvState = .rxRcv ∧ s.usMasterRcvBufferPos = mbSerPduSizeMax))
    (hexpires : s.Expires) :
    ∃ ph', s.expiring.timerExpired.In handlers x ph' ∧ (ph'.Exchanges ↔ ph.Exchanges) ∧
      (¬ ph.Exchanges → s.expiring.timerExpired.data = s.data) ∧
      (ph.Exchanges → ph'.most ≤ ph.least) ∧ Kept s s.expiring.timerExpired requested := by
  have htimed := hexpires.timed h.timer
  cases ph with
  | starting =>
    obtain ⟨hin, hdata, hkept⟩ := h.startExpired hr
    exact ⟨.ready, hin, Iff.rfl, fun _ => hdata, False.elim, hkept⟩
  | waiting =>
    obtain ⟨ph', hin, hex, hmost, hkept⟩ := h.waitingExpired hr
    exact ⟨ph', hin, iff_of_true hex trivial, fun hno => absurd trivial hno, fun _ => hmost, hkept⟩
  | hearing =>
    obtain ⟨hin, hkept⟩ := h.hearingExpired hr fun hfull => hlen ⟨h.rcv, hfull⟩
    exact ⟨.received, hin, Iff.rfl, fun hno => absurd trivial hno, fun _ => Nat.le_refl _, hkept⟩
  | overrun =>
    obtain ⟨hin, hkept⟩ := h.overrunExpired hr
    exact ⟨.failed, hin, Iff.rfl, fun hno => absurd trivial hno, fun _ => Nat.le_refl _, hkept⟩
  | ready | releasing | rest | posted | sending | received | executing | failed => cases htimed

theorem In.tick (h : s.In handlers x ph)
    (hr : Coming requestSet s.event s.requester requested) (horderly : s.Orderly .tick) :
    ∃ ph', s.tickIncrease.In handlers x ph' ∧ (ph'.Exchanges ↔ ph.Exchanges) ∧
      (¬ ph.Exchanges → s.tickIncrease.data = s.data) ∧ Kept s s.tickIncrease requested := by
  rcases s.tickIncrease_cases with ⟨hexpires, htick⟩ | ⟨hon, htick⟩
  · obtain ⟨ph', hin, hex, hdata, -, hkept⟩ :=
      h.expired hr (fun hfull => horderly ⟨hfull.1, hfull.2, hexpires⟩) hexpires
    rw [htick]
    exact ⟨ph', hin, hex, hdata, hkept⟩
  · rw [htick]
    exact ⟨ph, h.tickOn hon, Iff.rfl, fun _ => rfl, ⟨rfl, rfl, rfl, rfl, rfl, hr⟩⟩

/-! ### A byte -/

theorem stored_hear_of_lt {b : UInt8} (h : x.heard.length < mbSerPduSizeMax) : (x.hear b).stored =
    { x.stored with
      ucMasterRTURcvBuf := Memory.write x.stored.ucMasterRTURcvBuf x.heard.length [b] } := by
  have hlen : (x.heard ++ [b]).length ≤ mbSerPduSizeMax := by
    rw [List.length_append]
    exact h
  have hwrite : Memory.write (Memory.write x.data.ucMasterRTURcvBuf 0 x.heard)
      (0 + x.heard.length) [b] = Memory.write x.data.ucMasterRTURcvBuf 0 (x.heard ++ [b]) :=
    Memory.write_write_append
  rw [Nat.zero_add] at hwrite
  simp only [MbExchange.stored, MbExchange.hear, List.take_of_length_le hlen,
    List.take_of_length_le (Nat.le_of_lt h), hwrite]

theorem stored_hear_of_ge {b : UInt8} (h : mbSerPduSizeMax ≤ x.heard.length) :
    (x.hear b).stored = x.stored := by
  have htake : (x.heard ++ [b]).take mbSerPduSizeMax = x.heard.take mbSerPduSizeMax :=
    List.take_append_of_le_length h
  simp only [MbExchange.stored, MbExchange.hear, htake]

theorem length_hear (b : UInt8) : (x.hear b).heard.length = x.heard.length + 1 :=
  List.length_append

theorem Asked.hear (h : s.Asked x) (b : UInt8) : s.Asked (x.hear b) :=
  ⟨h.dest, h.length, h.sndLength, h.sndBuf⟩

theorem assert_snd (h : s.eSndState ≠ .txXmit) : s.assert (decide (s.eSndState ≠ .txXmit)) = s := by
  rw [decide_eq_true h, assert_true]

theorem receiveFSM_idle (b : UInt8) (hrcv : s.eRcvState = .rxIdle) (hsnd : s.eSndState ≠ .txXmit) :
    s.receiveFSM b =
      { s with
        eSndState := .txIdle
        data := { s.data with
          ucMasterRTURcvBuf := Memory.write s.data.ucMasterRTURcvBuf 0 [b] }
        usMasterRcvBufferPos := 1
        eRcvState := .rxRcv
        eMasterCurTimerMode := .t35
        timer := some (s.tick + s.t35Ticks) } := by
  rw [receiveFSM, assert_snd hsnd]
  simp only [hrcv, timersT35Enable_eq, timersDisable]
  rfl

theorem receiveFSM_rcv (b : UInt8) (hrcv : s.eRcvState = .rxRcv) (hsnd : s.eSndState ≠ .txXmit)
    (hpos : s.usMasterRcvBufferPos < mbSerPduSizeMax) : s.receiveFSM b =
      { s with
        data := { s.data with
          ucMasterRTURcvBuf :=
            Memory.write s.data.ucMasterRTURcvBuf s.usMasterRcvBufferPos [b] }
        usMasterRcvBufferPos := s.usMasterRcvBufferPos + 1
        eMasterCurTimerMode := .t35
        timer := some (s.tick + s.t35Ticks) } := by
  rw [receiveFSM, assert_snd hsnd]
  simp only [hrcv, hpos, if_true, timersT35Enable_eq]
  rfl

theorem receiveFSM_full (b : UInt8) (hrcv : s.eRcvState = .rxRcv) (hsnd : s.eSndState ≠ .txXmit)
    (hpos : ¬ s.usMasterRcvBufferPos < mbSerPduSizeMax) : s.receiveFSM b =
      { s with
        eRcvState := .rxError
        eMasterCurTimerMode := .t35
        timer := some (s.tick + s.t35Ticks) } := by
  rw [receiveFSM, assert_snd hsnd]
  simp only [hrcv, hpos, if_false, timersT35Enable_eq]
  rfl

theorem receiveFSM_error (b : UInt8) (hrcv : s.eRcvState = .rxError)
    (hsnd : s.eSndState ≠ .txXmit) : s.receiveFSM b =
      { s with eMasterCurTimerMode := .t35, timer := some (s.tick + s.t35Ticks) } := by
  rw [receiveFSM, assert_snd hsnd]
  simp only [hrcv, timersT35Enable_eq]

theorem timerWithin_t35 {u : MbMaster σ} (hu : u.timer = some (u.tick + s.t35Ticks)) :
    u.TimerWithin true := by
  rw [TimerWithin, hu]
  refine ⟨rfl, ?_⟩
  rw [BitVec.add_comm, BitVec.add_sub_cancel]
  exact s.t35Ticks_le

/-- A byte of a reply. -/
theorem In.byte (h : s.In handlers x ph) (hr : Coming requestSet s.event s.requester requested)
    (b : UInt8)
    (hbyte : s.eSndState = .txXfwr ∨ s.eRcvState = .rxRcv ∨ s.eRcvState = .rxError) :
    ∃ ph', (s.receiveFSM b).In handlers (x.hear b) ph' ∧ ph.Exchanges ∧ ph'.Exchanges ∧
      Kept s (s.receiveFSM b) requested := by
  rw [h.snd, h.rcv] at hbyte
  cases ph with
  | waiting =>
    obtain ⟨hline, hdata, hframe, hheard, hbroadcast, hmode⟩ := h.holds
    have hsnd : s.eSndState ≠ .txXmit := by
      rw [h.snd]
      decide
    have hempty : x.heard.length < mbSerPduSizeMax := by
      rw [hheard]
      decide
    rw [receiveFSM_idle b h.rcv hsnd]
    refine ⟨.hearing, ?_, trivial, trivial, ⟨rfl, rfl, rfl, rfl, rfl, hr⟩⟩
    exact
      { fault := h.fault
        rcv := rfl
        snd := rfl
        rxEnabled := h.rxEnabled
        transStart := h.transStart
        releasing := h.releasing
        timer := timerWithin_t35 rfl
        coming := h.coming
        asked := fun _ => ((h.asked trivial).hear b).congr rfl
        holds := by
          have hstored := stored_hear_of_lt (b := b) hempty
          have hnone : x.stored = x.data := by
            rw [MbExchange.stored, hheard, List.take_nil, Memory.write_nil]
          rw [hheard, hnone, List.length_nil] at hstored
          refine ⟨hline, ?_, ?_, ?_, ?_, hbroadcast, rfl⟩
          · rw [hstored, hdata]
          · rw [length_hear, hheard]
            rfl
          · exact List.append_ne_nil_of_right_ne_nil _ (List.cons_ne_nil _ _)
          · rw [length_hear]
            exact hempty }
  | hearing =>
    obtain ⟨hline, hdata, hpos, hne, hmax, hbroadcast, hmode⟩ := h.holds
    have hsnd : s.eSndState ≠ .txXmit := by
      rw [h.snd]
      decide
    by_cases hlt : s.usMasterRcvBufferPos < mbSerPduSizeMax
    · rw [receiveFSM_rcv b h.rcv hsnd hlt]
      rw [hpos] at hlt
      refine ⟨.hearing, ?_, trivial, trivial, ⟨rfl, rfl, rfl, rfl, rfl, hr⟩⟩
      exact
        { fault := h.fault
          rcv := h.rcv
          snd := h.snd
          rxEnabled := h.rxEnabled
          transStart := h.transStart
          releasing := h.releasing
          timer := timerWithin_t35 rfl
          coming := h.coming
          asked := fun _ => ((h.asked trivial).hear b).congr rfl
          holds := by
            refine ⟨hline, ?_, ?_, ?_, ?_, hbroadcast, rfl⟩
            · rw [stored_hear_of_lt hlt, hdata, hpos]
            · rw [length_hear, ← hpos]
            · exact List.append_ne_nil_of_right_ne_nil _ (List.cons_ne_nil _ _)
            · rw [length_hear]
              exact hlt }
    · rw [receiveFSM_full b h.rcv hsnd hlt]
      rw [hpos] at hlt
      have hge := Nat.le_of_not_lt hlt
      refine ⟨.overrun, ?_, trivial, trivial, ⟨rfl, rfl, rfl, rfl, rfl, hr⟩⟩
      exact
        { fault := h.fault
          rcv := rfl
          snd := h.snd
          rxEnabled := h.rxEnabled
          transStart := h.transStart
          releasing := h.releasing
          timer := timerWithin_t35 rfl
          coming := h.coming
          asked := fun _ => ((h.asked trivial).hear b).congr rfl
          holds := by
            refine ⟨hline, ?_, ?_, rfl⟩
            · rw [stored_hear_of_ge hge, hdata]
            · rw [length_hear]
              exact Nat.lt_succ_of_le hge }
  | overrun =>
    obtain ⟨hline, hdata, hmax, hmode⟩ := h.holds
    have hsnd : s.eSndState ≠ .txXmit := by
      rw [h.snd]
      decide
    rw [receiveFSM_error b h.rcv hsnd]
    refine ⟨.overrun, ?_, trivial, trivial, ⟨rfl, rfl, rfl, rfl, rfl, hr⟩⟩
    exact
      { fault := h.fault
        rcv := h.rcv
        snd := h.snd
        rxEnabled := h.rxEnabled
        transStart := h.transStart
        releasing := h.releasing
        timer := timerWithin_t35 rfl
        coming := h.coming
        asked := fun _ => ((h.asked trivial).hear b).congr rfl
        holds := by
          refine ⟨hline, ?_, ?_, rfl⟩
          · rw [stored_hear_of_ge (Nat.le_of_lt hmax), hdata]
          · rw [length_hear]
            exact Nat.lt_succ_of_lt hmax }
  | starting | ready | releasing | rest | posted | sending | received | executing | failed =>
    rcases hbyte with hc | hc | hc <;> cases hc

/-! ### The transmitter -/

theorem transmitFSM_byte (hrcv : s.eRcvState = .rxIdle) (hsnd : s.eSndState = .txXmit)
    (hcount : s.usMasterSndBufferCount ≠ 0) : s.transmitFSM =
      { s with
        line := s.line ++ [s.data.ucMasterRTUSndBuf s.sndBufferCur]
        sndBufferCur := s.sndBufferCur + 1
        usMasterSndBufferCount := s.usMasterSndBufferCount - 1 } := by
  have hassert : s.assert (decide (s.eRcvState = .rxIdle)) = s := by
    rw [decide_eq_true hrcv, assert_true]
  rw [transmitFSM, hassert]
  simp only [hsnd, ne_eq, hcount, not_false_eq_true, if_true]

/-- How long the master waits. -/
theorem transmitFSM_end (hrcv : s.eRcvState = .rxIdle) (hsnd : s.eSndState = .txXmit)
    (hcount : s.usMasterSndBufferCount = 0) : ∃ mode timeout,
      s.transmitFSM =
        { s with
          rxEnabled := true
          transStart := false
          xFrameIsBroadcast := decide (s.data.ucMasterRTUSndBuf 0 = mbAddressBroadcast)
          eSndState := .txXfwr
          eMasterCurTimerMode := mode
          timer := some timeout } ∧
      (timeout - s.tick).toNat ≤ 1000 ∧
      (mode = .convertDelay ↔ s.data.ucMasterRTUSndBuf 0 = mbAddressBroadcast) := by
  have hassert : s.assert (decide (s.eRcvState = .rxIdle)) = s := by
    rw [decide_eq_true hrcv, assert_true]
  rw [transmitFSM, hassert]
  by_cases hbroadcast : s.data.ucMasterRTUSndBuf 0 = mbAddressBroadcast
  · refine ⟨.convertDelay, s.tick + mbMasterDelayMsConvert * rtTickPerSecond / 1000, ?_, ?_, ?_⟩
    · simp only [hsnd, ne_eq, hcount, not_true_eq_false, if_false, hbroadcast, decide_true, if_true,
        serialEnable]
      exact startTimer_eq _ _ (by decide)
    · rw [BitVec.add_comm, BitVec.add_sub_cancel]
      decide
    · exact iff_of_true rfl hbroadcast
  · refine ⟨.respondTimeout, s.tick + mbMasterTimeoutMsRespond * rtTickPerSecond / 1000, ?_, ?_, ?_⟩
    · simp only [hsnd, ne_eq, hcount, not_true_eq_false, if_false, hbroadcast, decide_false,
        Bool.false_eq_true, serialEnable]
      exact startTimer_eq _ _ (by decide)
    · rw [BitVec.add_comm, BitVec.add_sub_cancel]
      decide
    · exact iff_of_false (fun hc => by cases hc) hbroadcast

/-- The frame lies in the send buffer. -/
theorem Asked.sndBuf_eq (h : s.Asked x) {k : Nat} (hk : k < x.frame.length) :
    x.data.ucMasterRTUSndBuf k = x.frame[k] := by
  obtain ⟨old, hold⟩ := h.sndBuf
  have hbyte : Memory.write old 0 x.frame (0 + k) = x.frame[k] := Memory.write_add hk
  rwa [Nat.zero_add, ← hold] at hbyte

theorem Asked.sndBuf_zero (h : s.Asked x) : x.data.ucMasterRTUSndBuf 0 = x.dest := by
  have hpos : 0 < x.frame.length := by
    rw [MbExchange.frame, length_encodeFrame]
    exact Nat.succ_pos _
  exact h.sndBuf_eq hpos

/-- One byte more is on the line, or the frame is out. -/
theorem In.transmit (h : s.In handlers x ph)
    (hr : Coming requestSet s.event s.requester requested) (hstart : s.transStart = true) :
    ∃ ph', s.transmitFSM.In handlers x ph' ∧ ph.Exchanges ∧ ph'.Exchanges ∧
      (ph'.most ≤ ph.least ∨ ∃ k j, ph = .sending k ∧ ph' = .sending j ∧
        s.transmitFSM.usMasterSndBufferCount < s.usMasterSndBufferCount) ∧
      Kept s s.transmitFSM requested := by
  rw [h.transStart] at hstart
  cases ph with
  | sending k =>
    obtain ⟨hline, hheard, hdata, hframe, hcur, hcount⟩ := h.holds
    have hasked := h.asked trivial
    by_cases hzero : s.usMasterSndBufferCount = 0
    · obtain ⟨mode, timeout, heq, htimeout, hmode⟩ := transmitFSM_end h.rcv h.snd hzero
      rw [hzero, Nat.zero_add] at hcount
      have hbroadcast : x.broadcast = decide (s.data.ucMasterRTUSndBuf 0 = mbAddressBroadcast) := by
        rw [hdata, hasked.sndBuf_zero]
        rfl
      rw [heq]
      refine ⟨.waiting, ?_, trivial, trivial, .inl (Nat.le_refl _), ⟨rfl, rfl, rfl, rfl, rfl, hr⟩⟩
      exact
        { fault := h.fault
          rcv := h.rcv
          snd := rfl
          rxEnabled := rfl
          transStart := rfl
          releasing := h.releasing
          timer := ⟨rfl, htimeout⟩
          coming := h.coming
          asked := fun _ => hasked.congr rfl
          holds := by
            refine ⟨?_, hdata, hframe, hheard, hbroadcast.symm, ?_⟩
            · rw [hcount, List.drop_length, List.append_nil] at hline
              exact hline
            · rw [hbroadcast, decide_eq_true_iff]
              exact hmode }
    · rw [transmitFSM_byte h.rcv h.snd hzero]
      have hk : k < x.frame.length := by omega
      have hless : s.usMasterSndBufferCount - 1 < s.usMasterSndBufferCount := by omega
      refine ⟨.sending (k + 1), ?_, trivial, trivial, .inr ⟨k, k + 1, rfl, rfl, hless⟩,
        ⟨rfl, rfl, rfl, rfl, rfl, hr⟩⟩
      exact
        { fault := h.fault
          rcv := h.rcv
          snd := h.snd
          rxEnabled := h.rxEnabled
          transStart := h.transStart
          releasing := h.releasing
          timer := h.timer
          coming := h.coming
          asked := fun _ => hasked.congr rfl
          holds := by
            refine ⟨?_, hheard, hdata, hframe, ?_, ?_⟩
            · dsimp only
              rw [hcur, hdata, hasked.sndBuf_eq hk, List.append_assoc, List.singleton_append,
                ← List.drop_eq_getElem_cons hk, hline]
            · dsimp only
              rw [hcur]
            · dsimp only
              omega }
  | starting | ready | releasing | rest | posted | waiting | hearing | overrun | received | executing
  | failed => cases hstart

/-! ### The poll loop -/

/-- To wait for an event or to find one is no progress. -/
theorem In.pollRecv (h : s.In handlers x ph)
    (hr : Coming requestSet s.event s.requester requested) (haway : s.poll = .away) :
    { s with event := (receive pollSet s.event).1, poll := (receive pollSet s.event).2 }.In
        handlers x ph ∧
      Kept s { s with event := (receive pollSet s.event).1, poll := (receive pollSet s.event).2 }
        requested := by
  have hcoming := h.coming
  rw [haway] at hcoming
  have hholds : { s with
      event := (receive pollSet s.event).1
      poll := (receive pollSet s.event).2 }.Holds handlers x ph := by
    have := h.holds
    cases ph <;> exact this
  exact ⟨⟨h.fault, h.rcv, h.snd, h.rxEnabled, h.transStart, h.releasing, h.timer, hcoming.receive,
    fun hex => (h.asked hex).congr rfl, hholds⟩, rfl, rfl, rfl, rfl, rfl,
    hr.congr (receive_and (by decide))⟩

/-- The frame of a request in the send buffer. -/
theorem write_frame {old : Nat → UInt8} {addr : UInt8} {pdu : List UInt8} :
    Memory.write (Memory.write (Memory.write old 1 pdu) 0 [addr]) (1 + pdu.length)
      (crcBytes (Memory.read (Memory.write (Memory.write old 1 pdu) 0 [addr]) 0 (1 + pdu.length))) =
    Memory.write old 0 (encodeFrame addr pdu) := by
  have hfront : Memory.write (Memory.write old 1 pdu) 0 [addr] =
      Memory.write old 0 (addr :: pdu) := by
    have hcomm : Memory.write (Memory.write old 0 [addr]) 1 pdu =
        Memory.write (Memory.write old 1 pdu) 0 [addr] := Memory.write_comm (Nat.le_refl 1)
    rw [← hcomm]
    exact Memory.write_write_append
  have hread : Memory.read (Memory.write old 0 (addr :: pdu)) 0 (addr :: pdu).length =
      addr :: pdu := Memory.read_write_same
  have hlen : 1 + pdu.length = (addr :: pdu).length := Nat.add_comm 1 pdu.length
  rw [hfront, hlen, hread, encodeFrame, ← Memory.write_write_append, Nat.zero_add]

/-- The poll thread has taken its event. -/
abbrev taken (s : MbMaster σ) : MbMaster σ := { s with poll := .away }

/-- The request is found in the send buffer, and the transmitter is started. -/
theorem In.frameSent (h : s.In handlers x .posted) : s.taken.frameSent =
    { s.taken with
      ucMBFrame := .snd
      data := x.data
      sndBufferCur := 0
      usMasterSndBufferCount := x.frame.length
      eSndState := .txXmit
      rxEnabled := false
      transStart := true } := by
  obtain ⟨hline, hheard, old, hold, hdata⟩ := h.holds
  have hasked := h.asked trivial
  have hdest : s.data.ucMBMasterDestAddress = x.dest := by
    rw [hdata]
    rfl
  have hsent : s.data.ucMasterRTUSndBuf = Memory.write old 1 x.pdu := by rw [hdata]
  have hbuf : { s.data with ucMasterRTUSndBuf := Memory.write old 0 x.frame } = x.data := by
    rw [← hold, hdata]
  have hcount : 1 + x.pdu.length + 2 = x.frame.length := by
    rw [MbExchange.frame, length_encodeFrame]
    omega
  have haddr : s.data.ucMBMasterDestAddress ≤ mbMasterTotalSlaveNum := by
    rw [hdest]
    exact hasked.dest
  have hlen : s.usMasterSendPDULength + 3 ≤ mbPduSizeMax := by
    rw [hasked.sndLength]
    exact hasked.length
  have hdata' : { s.data with
      ucMasterRTUSndBuf :=
        Memory.write (Memory.write s.data.ucMasterRTUSndBuf 0 [s.data.ucMBMasterDestAddress])
          (1 + s.usMasterSendPDULength)
          (crcBytes (Memory.read
            (Memory.write s.data.ucMasterRTUSndBuf 0 [s.data.ucMBMasterDestAddress]) 0
            (1 + s.usMasterSendPDULength))) } = x.data := by
    rw [hsent, hdest, hasked.sndLength, write_frame]
    exact hbuf
  have hcount' : 1 + s.usMasterSendPDULength + 2 = x.frame.length := by
    rw [hasked.sndLength, hcount]
  rw [← hdata', ← hcount']
  exact rtuSend_idle (s := { s.taken with ucMBFrame := .snd }) h.rcv haddr hlen

theorem verdict_of_heard (hne : x.heard ≠ []) (hlen : x.heard.length < mbSerPduSizeMax) :
    x.verdict handlers =
      match decodeFrame x.heard with
      | some (addr, pdu) =>
        if addr = x.dest then
          executed x.stored (execute handlers .rcv pdu.length x.pdu.length x.broadcast x.stored)
        else (.revData, x.stored)
      | none => (.revData, x.stored) := by
  rw [MbExchange.verdict]
  split
  · rename_i hnil
    exact absurd hnil hne
  · exact if_pos hlen

theorem heard_stored (hdata : s.data = x.stored) (hpos : s.usMasterRcvBufferPos = x.heard.length)
    (hlen : x.heard.length < mbSerPduSizeMax) : s.heard = x.heard := by
  have htake : x.heard.take mbSerPduSizeMax = x.heard := List.take_of_length_le (Nat.le_of_lt hlen)
  rw [heard, hdata, hpos, MbExchange.stored]
  dsimp only
  rw [htake, Memory.read_write_same]

/-- What was heard is no frame of the slave. -/
abbrev refusing (s : MbMaster σ) (addr : UInt8) (usLength : Nat) (frame : MbFrame) : MbMaster σ :=
  { s.taken with
    eMBMasterCurErrorType := .receiveData
    ucRcvAddress := addr
    usLength := usLength
    ucMBFrame := frame }

theorem In.refused (h : s.In handlers x .received) (addr : UInt8) (usLength : Nat)
    (frame : MbFrame) (hmail : Mail s.event .away s.requester 0 requested)
    (hverdict : x.verdict handlers = (.revData, x.stored)) :
    ((s.refusing addr usLength frame).eventPost evMasterErrorProcess).In handlers x .failed ∧
      Kept s ((s.refusing addr usLength frame).eventPost evMasterErrorProcess) requested := by
  obtain ⟨hline, hdata, -⟩ := h.holds
  obtain ⟨event, poll, hpost, hmail⟩ :=
    Mail.post_poll (s := s.refusing addr usLength frame) (e := evMasterErrorProcess) hmail
      (by decide)
  rw [hpost]
  exact ⟨{
    fault := h.fault
    rcv := h.rcv
    snd := h.snd
    rxEnabled := h.rxEnabled
    transStart := h.transStart
    releasing := h.releasing
    timer := h.timer
    coming := hmail.poll
    asked := fun _ => (h.asked trivial).congr rfl
    holds := ⟨hline, hverdict.trans (congrArg _ hdata.symm)⟩ }, ⟨rfl, rfl, rfl, rfl, rfl, hmail.request⟩⟩

/-- The bytes heard are looked at. -/
theorem In.frameReceived (h : s.In handlers x .received)
    (hmail : Mail s.event .away s.requester 0 requested) :
    ∃ ph', s.taken.frameReceived.In handlers x ph' ∧ ph'.Exchanges ∧
      ph'.most ≤ MbPhase.received.least ∧ Kept s s.taken.frameReceived requested := by
  obtain ⟨hline, hdata, hpos, hne, hlen, hbroadcast⟩ := h.holds
  have hmax : s.taken.usMasterRcvBufferPos < mbSerPduSizeMax := by
    rw [← hpos] at hlen
    exact hlen
  have hheard : s.taken.heard = x.heard := heard_stored (s := s.taken) hdata hpos hlen
  have hverdict : x.verdict handlers = _ := verdict_of_heard hne hlen
  rw [MbMaster.frameReceived, rtuReceive_eq hmax, hheard]
  cases hdecode : decodeFrame x.heard with
  | none =>
    rw [hdecode] at hverdict
    obtain ⟨hin, hkept⟩ := h.refused s.ucRcvAddress s.usLength s.ucMBFrame hmail hverdict
    exact ⟨.failed, hin, trivial, by decide, hkept⟩
  | some reply =>
    obtain ⟨addr, pdu⟩ := reply
    rw [hdecode] at hverdict
    dsimp only at hverdict ⊢
    have hdest : s.data.ucMBMasterDestAddress = x.dest := by
      rw [hdata]
      rfl
    by_cases haddr : addr = x.dest
    · rw [if_pos haddr] at hverdict
      rw [if_pos ⟨rfl, haddr.trans hdest.symm⟩]
      obtain ⟨event, poll, hpost, hmail⟩ :=
        Mail.post_poll
          (s := { s.taken with ucRcvAddress := addr, usLength := pdu.length, ucMBFrame := .rcv })
          (e := evMasterExecute) hmail (by decide)
      rw [hpost]
      refine ⟨.executing, ?_, trivial, Nat.le_refl _, ⟨rfl, rfl, rfl, rfl, rfl, hmail.request⟩⟩
      exact
        { fault := h.fault
          rcv := h.rcv
          snd := h.snd
          rxEnabled := h.rxEnabled
          transStart := h.transStart
          releasing := h.releasing
          timer := h.timer
          coming := hmail.poll
          asked := fun _ => (h.asked trivial).congr rfl
          holds := by
            have hframe : MbFrame.rcv ≠ .null := by decide
            refine ⟨hline, hframe, hbroadcast, hdest, ?_⟩
            dsimp only
            rw [hverdict, hdata] }
    · have hother : ¬ (true = true ∧ addr = s.data.ucMBMasterDestAddress) := by
        rw [hdest]
        exact fun hc => haddr hc.2
      rw [if_neg haddr] at hverdict
      rw [if_neg hother]
      obtain ⟨hin, hkept⟩ := h.refused addr pdu.length .rcv hmail hverdict
      exact ⟨.failed, hin, trivial, by decide, hkept⟩

/-! ### The end of an exchange -/

/-- The result of the exchange is on its way to the requester. -/
structure Done (handlers : List (UInt8 × MbHandler σ)) (x : MbExchange σ) (s s' : MbMaster σ) :
    Prop where
  calling : s'.calling = s.calling
  runRes : s'.xMasterRunRes = s.xMasterRunRes
  releasing : s'.releasing = true
  returned : s'.returned = s.returned
  request : ∃ e, Coming requestSet s'.event s'.requester e ∧ e ≠ 0 ∧
    x.verdict handlers = (waitRequestFinish e, s'.data)

theorem In.errorProcess (h : s.In handlers x .failed)
    (hmail : Mail s.event .away s.requester 0 0) :
    s.taken.errorProcess.In handlers x .releasing ∧ Done handlers x s s.taken.errorProcess := by
  obtain ⟨hline, hverdict⟩ := h.holds
  have hcallback (err : MbMasterErrorEvent) : err.callback &&& requestSet = err.callback ∧
      err.callback ≠ 0 ∧ err.callback &&& pollSet = 0 := by
    cases err <;> decide
  obtain ⟨hset, hne, hother⟩ := hcallback s.eMBMasterCurErrorType
  obtain ⟨event, requester, hpost, hmail⟩ :=
    Mail.post_request (s := { s.taken with ucMBFrame := .snd })
      (e := s.eMBMasterCurErrorType.callback) hmail hset hne hother
  rw [MbMaster.errorProcess, resultPost, hpost]
  exact ⟨{
    fault := h.fault
    rcv := h.rcv
    snd := h.snd
    rxEnabled := h.rxEnabled
    transStart := h.transStart
    releasing := rfl
    timer := h.timer
    coming := hmail.poll
    asked := False.elim
    holds := hline }, ⟨rfl, rfl, rfl, rfl, _, hmail.request, hne, hverdict⟩⟩

theorem mem_of_findHandler {c : UInt8} {f : MbHandler σ} (h : findHandler handlers c = some f) :
    ∃ c', (c', f) ∈ handlers := by
  rw [findHandler, Option.map_eq_some_iff] at h
  obtain ⟨⟨c', f'⟩, hfind, rfl⟩ := h
  have hmem := List.mem_of_find?_eq_some hfind
  exact ⟨c', List.mem_of_mem_take (List.takeWhile_subset _ hmem)⟩

theorem of_mem_mbSlaves {j : UInt8} (h : j ∈ mbSlaves) : 1 ≤ j ∧ j ≤ mbMasterTotalSlaveNum := by
  obtain ⟨i, hi, rfl⟩ := List.mem_map.mp h
  have hi : i < 16 := List.mem_range.mp hi
  rw [UInt8.le_iff_toNat_le, UInt8.le_iff_toNat_le, UInt8.toNat_ofNat']
  have hone : (1 : UInt8).toNat = 1 := rfl
  have hnum : mbMasterTotalSlaveNum.toNat = 16 := rfl
  omega

theorem callForSlaves_returns {f : MbHandler σ} {frame : MbFrame}
    (hf : ∀ usLength broadcast (d : MbData σ), 1 ≤ d.ucMBMasterDestAddress →
      d.ucMBMasterDestAddress ≤ mbMasterTotalSlaveNum → ∃ r, f frame usLength broadcast d = some r)
    {slaves : List UInt8} (hslaves : ∀ j ∈ slaves, 1 ≤ j ∧ j ≤ mbMasterTotalSlaveNum)
    (r : UInt8 × Nat × MbData σ) : ∃ r', callForSlaves f frame slaves r = some r' := by
  induction slaves generalizing r with
  | nil => exact ⟨r, rfl⟩
  | cons j slaves ih =>
    obtain ⟨hj, hrest⟩ := List.forall_mem_cons.mp hslaves
    obtain ⟨e, n, d⟩ := r
    obtain ⟨r, hr⟩ := hf n true { d with ucMBMasterDestAddress := j } hj.1 hj.2
    rw [callForSlaves, hr, Option.bind_some]
    exact ih hrest r

theorem execute_returns (hreturn : HandlersReturn handlers) {frame : MbFrame} {broadcast : Bool}
    {d : MbData σ} (hframe : frame ≠ .null)
    (hdest : broadcast = false → 1 ≤ d.ucMBMasterDestAddress ∧
      d.ucMBMasterDestAddress ≤ mbMasterTotalSlaveNum) (usLength sndLength : Nat) :
    ∃ r, execute handlers frame usLength sndLength broadcast d = some r := by
  simp only [execute]
  split
  · exact ⟨_, rfl⟩
  · split
    · exact ⟨_, rfl⟩
    · rename_i f hfind
      obtain ⟨c, hmem⟩ := mem_of_findHandler hfind
      cases broadcast with
      | true =>
        rw [if_pos rfl]
        exact callForSlaves_returns (fun n b d => hreturn c f hmem frame n b d hframe)
          (fun _ => of_mem_mbSlaves) _
      | false => exact hreturn c f hmem frame usLength false d hframe (hdest rfl).1 (hdest rfl).2

theorem executeFrame_eq (hframe : s.ucMBFrame ≠ .null) {eException : UInt8} {usLength : Nat}
    {d : MbData σ}
    (hexecute : execute handlers s.ucMBFrame s.usLength s.usMasterSendPDULength s.xFrameIsBroadcast
      s.data = some (eException, usLength, d)) : s.executeFrame handlers =
    if eException ≠ mbExNone then
      { s with usLength := usLength, data := d, eMBMasterCurErrorType := .executeFunction }.eventPost
        evMasterErrorProcess
    else { s with usLength := usLength, data := d }.resultPost evMasterProcessSuccess := by
  have hassert : s.assert (decide (s.ucMBFrame ≠ .null)) = s := by
    rw [decide_eq_true hframe, assert_true]
  rw [MbMaster.executeFrame, hassert]
  simp only [hexecute]

/-- A frame is executed: its result is due, or first its error. -/
theorem In.executeFrame (hreturn : HandlersReturn handlers) (h : s.In handlers x .executing)
    (hmail : Mail s.event .away s.requester 0 0) :
    (s.taken.executeFrame handlers).In handlers x .failed ∧
        Kept s (s.taken.executeFrame handlers) 0 ∨
      (s.taken.executeFrame handlers).In handlers x .releasing ∧
        Done handlers x s (s.taken.executeFrame handlers) := by
  obtain ⟨hline, hframe, hbroadcast, hdest, hverdict⟩ := h.holds
  have hasked := h.asked trivial
  have hslave : x.broadcast = false → 1 ≤ s.data.ucMBMasterDestAddress ∧
      s.data.ucMBMasterDestAddress ≤ mbMasterTotalSlaveNum := by
    intro hno
    rw [hdest]
    rw [MbExchange.broadcast, decide_eq_false_iff_not] at hno
    refine ⟨?_, hasked.dest⟩
    rw [UInt8.le_iff_toNat_le]
    exact Nat.one_le_iff_ne_zero.mpr fun hzero => hno (UInt8.toNat_inj.mp hzero)
  obtain ⟨⟨eException, n, d⟩, hexecute⟩ :=
    execute_returns hreturn hframe hslave s.usLength x.pdu.length
  rw [hexecute] at hverdict
  rw [← hbroadcast, ← hasked.sndLength] at hexecute
  rw [executeFrame_eq (s := s.taken) hframe hexecute]
  by_cases hexception : eException ≠ mbExNone
  · obtain ⟨event, poll, hpost, hmail⟩ :=
      Mail.post_poll
        (s := { s.taken with
          usLength := n
          data := d
          eMBMasterCurErrorType := .executeFunction })
        (e := evMasterErrorProcess) hmail (by decide)
    rw [executed, if_pos hexception] at hverdict
    rw [if_pos hexception, hpost]
    exact .inl ⟨{
      fault := h.fault
      rcv := h.rcv
      snd := h.snd
      rxEnabled := h.rxEnabled
      transStart := h.transStart
      releasing := h.releasing
      timer := h.timer
      coming := hmail.poll
      asked := fun _ => hasked.congr rfl
      holds := ⟨hline, hverdict⟩ }, ⟨rfl, rfl, rfl, rfl, rfl, hmail.request⟩⟩
  · obtain ⟨event, requester, hpost, hmail⟩ :=
      Mail.post_request (s := { s.taken with usLength := n, data := d })
        (e := evMasterProcessSuccess) hmail (by decide) (by decide) (by decide)
    have hne : evMasterProcessSuccess ≠ 0 := by decide
    rw [executed, if_neg hexception] at hverdict
    rw [if_neg hexception, resultPost, hpost]
    exact .inr ⟨{
      fault := h.fault
      rcv := h.rcv
      snd := h.snd
      rxEnabled := h.rxEnabled
      transStart := h.transStart
      releasing := rfl
      timer := h.timer
      coming := hmail.poll
      asked := False.elim
      holds := hline }, ⟨rfl, rfl, rfl, rfl, _, hmail.request, hne, hverdict⟩⟩

/-- One event more is handled. The last one ends the exchange. -/
theorem In.poll (hreturn : HandlersReturn handlers) (h : s.In handlers x ph)
    (hr : Coming requestSet s.event s.requester requested)
    (hrequested : ph.Exchanges → requested = 0) {e : BitVec 32} (hpoll : s.poll = .resumed e) :
    (∃ ph', (s.taken.pollEvent handlers e).In handlers x ph' ∧ (ph'.Exchanges ↔ ph.Exchanges) ∧
        (¬ ph.Exchanges → (s.taken.pollEvent handlers e).data = s.data) ∧
        (ph.Exchanges → ph'.most ≤ ph.least) ∧
        Kept s (s.taken.pollEvent handlers e) requested) ∨
      ph.Exchanges ∧ (s.taken.pollEvent handlers e).In handlers x .releasing ∧
        MbPhase.releasing.most ≤ ph.least ∧ Done handlers x s (s.taken.pollEvent handlers e) := by
  have hcoming := h.coming
  rw [hpoll] at hcoming
  obtain ⟨rfl, hne, haway⟩ := hcoming.back
  have hmail : Mail s.event .away s.requester 0 requested := ⟨haway, hr⟩
  cases ph with
  | starting | releasing | rest | sending | waiting | hearing | overrun =>
    exact absurd rfl hne
  | ready =>
    refine .inl ⟨.rest, ?_, Iff.rfl, fun _ => rfl, False.elim, ⟨rfl, rfl, rfl, rfl, rfl, hr⟩⟩
    exact ⟨h.fault, h.rcv, h.snd, h.rxEnabled, h.transStart, h.releasing, h.timer, haway,
      False.elim, h.holds⟩
  | posted =>
    have hsent : s.taken.pollEvent handlers evMasterFrameSent = _ := h.frameSent
    obtain ⟨hline, hheard, -⟩ := h.holds
    have hin : (s.taken.pollEvent handlers evMasterFrameSent).In handlers x (.sending 0) := by
      rw [hsent]
      exact
        { fault := h.fault
          rcv := h.rcv
          snd := rfl
          rxEnabled := rfl
          transStart := rfl
          releasing := h.releasing
          timer := h.timer
          coming := haway
          asked := fun _ => (h.asked trivial).congr rfl
          holds := ⟨hline, hheard, rfl, rfl, rfl, rfl⟩ }
    have hkept : Kept s (s.taken.pollEvent handlers evMasterFrameSent) requested := by
      rw [hsent]
      exact ⟨rfl, rfl, rfl, rfl, rfl, hr⟩
    exact .inl ⟨.sending 0, hin, Iff.rfl, fun hno => absurd trivial hno, fun _ => Nat.le_refl _,
      hkept⟩
  | received =>
    obtain ⟨ph', hin, hex, hmost, hkept⟩ := h.frameReceived hmail
    exact .inl ⟨ph', hin, iff_of_true hex trivial, fun hno => absurd trivial hno, fun _ => hmost,
      hkept⟩
  | executing =>
    obtain rfl := hrequested trivial
    rcases h.executeFrame hreturn hmail with ⟨hin, hkept⟩ | ⟨hin, hdone⟩
    · exact .inl ⟨.failed, hin, Iff.rfl, fun hno => absurd trivial hno, fun _ => Nat.le_refl _,
        hkept⟩
    · exact .inr ⟨trivial, hin, by decide, hdone⟩
  | failed =>
    obtain rfl := hrequested trivial
    obtain ⟨hin, hdone⟩ := h.errorProcess hmail
    exact .inr ⟨trivial, hin, Nat.le_refl _, hdone⟩

/-- The next request may come in. -/
theorem In.runResRelease (h : s.In handlers x ph) (hreleasing : s.releasing = true) :
    ph = .releasing ∧ s.runResRelease.In handlers x .rest := by
  rw [h.releasing] at hreleasing
  cases ph with
  | releasing =>
    refine ⟨rfl, ?_⟩
    exact
      { fault := h.fault
        rcv := h.rcv
        snd := h.snd
        rxEnabled := h.rxEnabled
        transStart := h.transStart
        releasing := rfl
        timer := h.timer
        coming := h.coming
        asked := False.elim
        holds := h.holds }
  | starting | ready | rest | posted | sending | waiting | hearing | overrun | received | executing
  | failed => cases hreleasing

/-! ### Single actions -/

theorem step_tick (hfault : s.fault = false) : s.step handlers .tick = some s.tickIncrease := by
  unfold MbMaster.step
  rw [if_neg (Bool.eq_false_iff.mp hfault)]

theorem step_request (hfault : s.fault = false) (addr : UInt8) (pdu : List UInt8) :
    s.step handlers (.request addr pdu) = s.request addr pdu := by
  unfold MbMaster.step
  rw [hfault, if_neg Bool.false_ne_true]

theorem step_pollRecv (hfault : s.fault = false) (hpoll : s.poll = .away)
    (hreleasing : s.releasing = false) :
    s.step handlers .pollRecv =
      some { s with
        event := (receive pollSet s.event).1
        poll := (receive pollSet s.event).2 } := by
  unfold MbMaster.step
  rw [if_neg (Bool.eq_false_iff.mp hfault)]
  exact if_pos ⟨hpoll, hreleasing⟩

theorem step_poll (hfault : s.fault = false) {e : BitVec 32} (hpoll : s.poll = .resumed e) :
    s.step handlers .poll = some (s.taken.pollEvent handlers e) := by
  unfold MbMaster.step
  rw [if_neg (Bool.eq_false_iff.mp hfault)]
  simp only [hpoll]

end MbMaster

end ControlBoard
