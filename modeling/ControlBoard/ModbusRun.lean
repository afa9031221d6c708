import ControlBoard.ModbusSteps

/-!
# Runs of the Modbus master

The master with its caller. On a quiet line the two are in step: a request is made when the result
of the one before has been fetched, and what is fetched is the result of the exchange in between.
-/

namespace ControlBoard

open EventObject Transition

variable {σ : Type}

namespace MbMaster

variable {handlers : List (UInt8 × MbHandler σ)} {x : MbExchange σ} {s t : MbMaster σ}
  {ph : MbPhase}

/-- Where the caller is in the exchange. -/
inductive Caller (handlers : List (UInt8 × MbHandler σ)) (x : MbExchange σ) (s : MbMaster σ)
    (ph : MbPhase) : Prop where
  | idle (hcalling : s.calling = false) (hmail : Coming requestSet s.event s.requester 0)
    (hres : s.xMasterRunRes + s.releasing.toNat = 1) (hdata : s.data = x.data)
    (hph : ¬ ph.Exchanges)
  | waits (hcalling : s.calling = true) (hmail : Coming requestSet s.event s.requester 0)
    (hres : s.xMasterRunRes = 0) (hph : ph.Exchanges)
  | answered {e : BitVec 32} (hcalling : s.calling = true)
    (hmail : Coming requestSet s.event s.requester e) (he : e ≠ 0)
    (hres : s.xMasterRunRes + s.releasing.toNat = 1)
    (hverdict : x.verdict handlers = (waitRequestFinish e, s.data)) (hph : ¬ ph.Exchanges)

/-- The master follows the exchanges. -/
def Follows (handlers : List (UInt8 × MbHandler σ)) (s : MbMaster σ) (x : MbExchange σ) : Prop :=
  s.returned = x.returned ∧ ∃ ph, s.In handlers x ph ∧ Caller handlers x s ph

/-- It is released or about to be. -/
theorem Kept.available {c : BitVec 32} (h : Kept s t c)
    (hres : s.xMasterRunRes + s.releasing.toNat = 1) :
    t.xMasterRunRes + t.releasing.toNat = 1 := by
  rw [h.runRes, h.releasing, hres]

/-- A step that does not concern the caller leaves it where it is. -/
theorem Caller.mail (h : Caller handlers x s ph) :
    ∃ c, Coming requestSet s.event s.requester c ∧ (ph.Exchanges → c = 0) ∧
      ∀ s' ph', Kept s s' c → (ph'.Exchanges ↔ ph.Exchanges) →
        (¬ ph.Exchanges → s'.data = s.data) → Caller handlers x s' ph' := by
  cases h with
  | idle hcalling hmail hres hdata hph =>
    refine ⟨0, hmail, fun _ => rfl, fun s' ph' hkept hex hsame => ?_⟩
    exact .idle (hkept.calling.trans hcalling) hkept.request (hkept.available hres)
      ((hsame hph).trans hdata) (mt hex.mp hph)
  | waits hcalling hmail hres hph =>
    refine ⟨0, hmail, fun _ => rfl, fun s' ph' hkept hex hsame => ?_⟩
    exact .waits (hkept.calling.trans hcalling) hkept.request (hkept.runRes.trans hres)
      (hex.mpr hph)
  | answered hcalling hmail he hres hverdict hph =>
    refine ⟨_, hmail, fun hex => absurd hex hph, fun s' ph' hkept hex hsame => ?_⟩
    refine .answered (hkept.calling.trans hcalling) hkept.request he (hkept.available hres) ?_
      (mt hex.mp hph)
    rw [hsame hph]
    exact hverdict

/-- In the middle of an exchange the caller waits. -/
theorem Caller.waiting (h : Caller handlers x s ph) (hph : ph.Exchanges) :
    s.calling = true ∧ Coming requestSet s.event s.requester 0 ∧ s.xMasterRunRes = 0 := by
  cases h with
  | idle _ _ _ _ hno => exact absurd hph hno
  | waits hcalling hmail hres => exact ⟨hcalling, hmail, hres⟩
  | answered _ _ _ _ _ hno => exact absurd hph hno

/-- Between exchanges only the line matters. -/
theorem In.other (h : s.In handlers x ph) (hph : ¬ ph.Exchanges) {x' : MbExchange σ}
    (hline : x'.line = x.line) : s.In handlers x' ph := by
  refine ⟨h.fault, h.rcv, h.snd, h.rxEnabled, h.transStart, h.releasing, h.timer, h.coming,
    fun hex => absurd hex hph, ?_⟩
  have hholds := h.holds
  cases ph with
  | starting => exact ⟨hholds.1.trans hline.symm, hholds.2⟩
  | ready | releasing | rest => exact hholds.trans hline.symm
  | posted | sending | waiting | hearing | overrun | received | executing | failed =>
    exact absurd trivial hph

/-- After the start and between exchanges the master rests, once it may be asked again. -/
theorem In.started (h : s.In handlers x ph) (hph : ¬ ph.Exchanges) (hstarted : s.Started)
    (hreleasing : s.releasing = false) : ph = .rest := by
  obtain ⟨hrcv, hevent, hpoll⟩ := hstarted
  cases ph with
  | rest => rfl
  | releasing =>
    rw [h.releasing] at hreleasing
    cases hreleasing
  | starting => exact absurd h.rcv hrcv
  | ready =>
    have hcoming : Coming pollSet s.event s.poll evMasterReady := h.coming
    rcases hcoming.source (by decide) with ⟨-, hword⟩ | hresumed
    · have hready : pollSet &&& evMasterReady = evMasterReady := by decide
      have hboth : s.event &&& evMasterReady = evMasterReady := by
        rw [← hready, ← BitVec.and_assoc, hword]
        decide
      refine absurd ?_ hevent
      rw [Flags.Raised, hboth]
      decide
    · exact absurd hresumed hpoll
  | posted | sending | waiting | hearing | overrun | received | executing | failed =>
    exact absurd trivial hph

/-! ## The steps of the caller -/

theorem step_request_of_gt {addr : UInt8} {pdu : List UInt8} (h : mbMasterTotalSlaveNum < addr) :
    x.step handlers (.request addr pdu) = { x with returned := x.returned ++ [.illArg] } :=
  if_pos h

theorem step_request_of_le {addr : UInt8} {pdu : List UInt8} (h : ¬ mbMasterTotalSlaveNum < addr) :
    x.step handlers (.request addr pdu) =
      { x with
        data := { x.data with
          ucMBMasterDestAddress := addr
          ucMasterRTUSndBuf := Memory.write x.data.ucMasterRTUSndBuf 0 (encodeFrame addr pdu) }
        pdu := pdu
        heard := []
        line := x.line ++ encodeFrame addr pdu } :=
  if_neg h

theorem step_finish {result : MbMasterReqErrCode} {data : MbData σ}
    (h : x.verdict handlers = (result, data)) : x.step handlers .finish =
      { x with data := data, returned := x.returned ++ [result] } := by
  have hstep : x.step handlers .finish =
      { x with
        data := (x.verdict handlers).2
        returned := x.returned ++ [(x.verdict handlers).1] } := rfl
  rw [hstep, h]

/-- The caller's own variables and its flags are no part of a phase. -/
theorem In.caller (h : s.In handlers x ph) {event : BitVec 32} {calling : Bool}
    {requester : Waiter 32} {returned : List MbMasterReqErrCode}
    (hevent : Coming pollSet event s.poll ph.coming) :
    { s with
      event := event
      calling := calling
      requester := requester
      returned := returned }.In handlers x ph := by
  refine ⟨h.fault, h.rcv, h.snd, h.rxEnabled, h.transStart, h.releasing, h.timer, hevent,
    fun hex => (h.asked hex).congr rfl, ?_⟩
  have := h.holds
  cases ph <;> exact this

/-- A request that is about to be posted. -/
abbrev asking (s : MbMaster σ) (addr : UInt8) (pdu : List UInt8) : MbMaster σ :=
  { s with
    calling := true
    requester := .away
    xMasterRunRes := 0
    data := { s.data with
      ucMBMasterDestAddress := addr
      ucMasterRTUSndBuf := Memory.write s.data.ucMasterRTUSndBuf 1 pdu }
    usMasterSendPDULength := pdu.length }

theorem request_eq {addr : UInt8} {pdu : List UInt8} (hcalling : s.calling = false)
    (haddr : ¬ mbMasterTotalSlaveNum < addr) (hres : s.xMasterRunRes = 1)
    (hlen : pdu.length + 3 ≤ mbPduSizeMax) : s.request addr pdu =
      some ((s.asking addr pdu).eventPost evMasterFrameSent) := by
  have hfits : 1 + pdu.length ≤ mbPduSizeMax := by omega
  rw [request, if_neg (by simp [hcalling]), if_neg haddr, hres, if_neg Nat.one_ne_zero,
    decide_eq_true hfits, assert_true]

/-- A request comes in only when `xMasterRunRes` is there to be taken. -/
theorem runRes_of_request {addr : UInt8} {pdu : List UInt8} (hcalling : s.calling = false)
    (haddr : ¬ mbMasterTotalSlaveNum < addr) (hrequest : s.request addr pdu = some t) :
    s.xMasterRunRes ≠ 0 := by
  intro hres
  rw [MbMaster.request, if_neg (by simp [hcalling]), if_neg haddr, if_pos hres] at hrequest
  cases hrequest

theorem available_of_ne (hres : s.xMasterRunRes + s.releasing.toNat = 1)
    (hne : s.xMasterRunRes ≠ 0) : s.xMasterRunRes = 1 ∧ s.releasing = false := by
  cases hreleasing : s.releasing with
  | false =>
    rw [hreleasing] at hres
    exact ⟨hres, rfl⟩
  | true =>
    rw [hreleasing] at hres
    exact absurd (Nat.succ.inj hres) hne

theorem Follows.request (hfollows : Follows handlers s x) {addr : UInt8} {pdu : List UInt8}
    (hstarted : s.Started) (hlen : pdu.length + 3 ≤ mbPduSizeMax)
    (hrequest : s.request addr pdu = some t) :
    Follows handlers t (x.step handlers (.request addr pdu)) := by
  obtain ⟨hreturned, ph, hin, hcaller⟩ := hfollows
  cases hcaller with
  | waits hcalling | answered hcalling =>
    rw [MbMaster.request, if_pos hcalling] at hrequest
    cases hrequest
  | idle hcalling hmail hres hdata hph =>
    by_cases haddr : mbMasterTotalSlaveNum < addr
    · rw [MbMaster.request, if_neg (by simp [hcalling]), if_pos haddr] at hrequest
      cases hrequest
      rw [step_request_of_gt haddr]
      refine ⟨congrArg (· ++ [.illArg]) hreturned, ph, ?_, .idle hcalling hmail hres hdata hph⟩
      exact (hin.caller hin.coming).other hph rfl
    · obtain ⟨hres, hreleasing⟩ :=
        available_of_ne hres (runRes_of_request hcalling haddr hrequest)
      obtain rfl := hin.started hph hstarted hreleasing
      rw [request_eq hcalling haddr hres hlen] at hrequest
      cases hrequest
      rw [step_request_of_le haddr]
      obtain ⟨event, poll, hpost, hsent⟩ := Mail.post_poll (s := s.asking addr pdu)
        (e := evMasterFrameSent) ⟨hin.coming, .away hmail.none⟩ (by decide)
      rw [hpost]
      refine ⟨hreturned, .posted, ?_, .waits rfl hsent.request rfl trivial⟩
      exact {
        fault := hin.fault
        rcv := hin.rcv
        snd := hin.snd
        rxEnabled := hin.rxEnabled
        transStart := hin.transStart
        releasing := hin.releasing
        timer := hin.timer
        coming := hsent.poll
        asked := fun _ => ⟨UInt8.not_lt.mp haddr, hlen, rfl, _, rfl⟩
        holds := by
          have hline : s.line = x.line := hin.holds
          refine ⟨congrArg (· ++ encodeFrame addr pdu) hline, rfl, _, rfl, ?_⟩
          change MbData.mk _ _ _ _ = MbData.mk _ _ _ _
          rw [hdata] }

/-- The caller begins to wait, or finds its result. -/
theorem In.requestRecv (h : s.In handlers x ph) :
    { s with
      event := (receive requestSet s.event).1
      requester := (receive requestSet s.event).2 }.In handlers x ph :=
  h.caller (h.coming.congr (receive_and (by decide)))

theorem Caller.requestRecv (h : Caller handlers x s ph) (hcalling : s.calling = true)
    (haway : s.requester = .away) :
    Caller handlers x
      { s with
        event := (receive requestSet s.event).1
        requester := (receive requestSet s.event).2 } ph := by
  cases h with
  | idle hidle =>
    rw [hidle] at hcalling
    cases hcalling
  | waits _ hmail hres hph =>
    rw [haway] at hmail
    exact .waits hcalling hmail.receive hres hph
  | answered _ hmail he hres hverdict hph =>
    rw [haway] at hmail
    exact .answered hcalling hmail.receive he hres hverdict hph

/-- The exchange is over for the caller. -/
theorem Caller.done (h : Caller handlers x s ph) (hph : ph.Exchanges) (hdone : Done handlers x s t) :
    Caller handlers x t .releasing := by
  obtain ⟨hcalling, -, hres⟩ := h.waiting hph
  obtain ⟨e, hcoming, hne, hverdict⟩ := hdone.request
  refine .answered (hdone.calling.trans hcalling) hcoming hne ?_ hverdict id
  rw [hdone.runRes, hdone.releasing, hres]
  rfl

theorem Caller.runResRelease (h : Caller handlers x s .releasing) (hreleasing : s.releasing = true) :
    Caller handlers x s.runResRelease .rest := by
  have hreleased (hres : s.xMasterRunRes + s.releasing.toNat = 1) : s.xMasterRunRes + 1 = 1 := by
    rwa [hreleasing] at hres
  cases h with
  | idle hcalling hmail hres hdata => exact .idle hcalling hmail (hreleased hres) hdata id
  | waits _ _ _ hph => exact absurd hph id
  | answered hcalling hmail he hres hverdict =>
    exact .answered hcalling hmail he (hreleased hres) hverdict id

/-- What the request returns is the verdict of the exchange. -/
theorem Follows.finish (hfollows : Follows handlers s x) {e : BitVec 32}
    (hrequester : s.requester = .resumed e) :
    Follows handlers
      { s with
        calling := false
        requester := .away
        returned := s.returned ++ [waitRequestFinish e] } (x.step handlers .finish) := by
  obtain ⟨hreturned, ph, hin, hcaller⟩ := hfollows
  cases hcaller with
  | idle _ hmail | waits _ hmail =>
    rw [hrequester] at hmail
    obtain ⟨rfl, hne, -⟩ := hmail.back
    exact absurd rfl hne
  | answered _ hmail _ hres hverdict hph =>
    rw [hrequester] at hmail
    obtain ⟨rfl, -, haway⟩ := hmail.back
    rw [step_finish hverdict, hreturned]
    refine ⟨rfl, ph, (hin.caller hin.coming).other hph rfl, ?_⟩
    exact .idle rfl haway hres rfl hph

/-! ## Runs -/

/-- What a step does, and when it is possible. -/
def Takes (handlers : List (UInt8 × MbHandler σ)) (s : MbMaster σ) (a : MbAction)
    (t : MbMaster σ) : Prop :=
  match a with
  | .tick => t = s.tickIncrease
  | .byte b => s.rxEnabled = true ∧ t = s.receiveFSM b
  | .transmit => s.transStart = true ∧ t = s.transmitFSM
  | .pollRecv => (s.poll = .away ∧ s.releasing = false) ∧
    t = { s with event := (receive pollSet s.event).1, poll := (receive pollSet s.event).2 }
  | .poll => ∃ e, s.poll = .resumed e ∧ t = s.taken.pollEvent handlers e
  | .runResRelease => s.releasing = true ∧ t = s.runResRelease
  | .request addr pdu => s.request addr pdu = some t
  | .requestBusy _ => (s.calling = false ∧ s.xMasterRunRes = 0) ∧
    t = { s with returned := s.returned ++ [.masterBusy] }
  | .requestRecv => (s.calling = true ∧ s.requester = .away) ∧
    t = { s with
      event := (receive requestSet s.event).1
      requester := (receive requestSet s.event).2 }
  | .finish => ∃ e, s.requester = .resumed e ∧
    t = { s with
      calling := false
      requester := .away
      returned := s.returned ++ [waitRequestFinish e] }

theorem takes_of_step {a : MbAction} (h : s.step handlers a = some t) : Takes handlers s a t := by
  unfold MbMaster.step at h
  split at h
  · cases h
  · cases a with
    | tick => exact (Option.some.inj h).symm
    | byte | transmit | pollRecv | runResRelease | requestRecv =>
      obtain ⟨henabled, ht⟩ := Option.ite_none_right_eq_some.mp h
      exact ⟨henabled, (Option.some.inj ht).symm⟩
    | poll =>
      cases hpoll : s.poll with
      | away | suspended => simp only [hpoll, reduceCtorEq] at h
      | resumed e =>
        simp only [hpoll] at h
        exact ⟨e, hpoll, (Option.some.inj h).symm⟩
    | request addr pdu => exact h
    | requestBusy addr =>
      obtain ⟨⟨hcalling, -, hzero⟩, ht⟩ := Option.ite_none_right_eq_some.mp h
      exact ⟨⟨Bool.eq_false_iff.mpr hcalling, hzero⟩, (Option.some.inj ht).symm⟩
    | finish =>
      cases hrequester : s.requester with
      | away | suspended => simp only [hrequester, reduceCtorEq] at h
      | resumed e =>
        simp only [hrequester] at h
        exact ⟨e, hrequester, (Option.some.inj h).symm⟩

theorem Follows.step (hreturn : HandlersReturn handlers) (hfollows : Follows handlers s x)
    {a : MbAction} (horderly : s.Orderly a) (hstep : s.step handlers a = some t) :
    Follows handlers t (x.step handlers a) := by
  have ⟨hreturned, ph, hin, hcaller⟩ := hfollows
  obtain ⟨c, hmail, hwait, hsame⟩ := hcaller.mail
  have htakes := takes_of_step hstep
  cases a with
  | tick =>
    cases htakes
    obtain ⟨ph', hin', hex, hdata, hkept⟩ := hin.tick hmail horderly
    exact ⟨hkept.returned.trans hreturned, ph', hin', hsame _ ph' hkept hex hdata⟩
  | byte b =>
    obtain ⟨-, rfl⟩ := htakes
    obtain ⟨ph', hin', hex, hex', hkept⟩ := hin.byte hmail b horderly
    obtain ⟨hcalling, -, hres⟩ := hcaller.waiting hex
    obtain rfl := hwait hex
    refine ⟨hkept.returned.trans hreturned, ph', hin', ?_⟩
    exact .waits (hkept.calling.trans hcalling) hkept.request (hkept.runRes.trans hres) hex'
  | transmit =>
    obtain ⟨hstart, rfl⟩ := htakes
    obtain ⟨ph', hin', hex, hex', -, hkept⟩ := hin.transmit hmail hstart
    refine ⟨hkept.returned.trans hreturned, ph', hin', ?_⟩
    exact hsame _ ph' hkept (iff_of_true hex' hex) fun hno => absurd hex hno
  | pollRecv =>
    obtain ⟨⟨haway, -⟩, rfl⟩ := htakes
    obtain ⟨hin', hkept⟩ := hin.pollRecv hmail haway
    exact ⟨hreturned, ph, hin', hsame _ ph hkept Iff.rfl fun _ => rfl⟩
  | poll =>
    obtain ⟨e, hpoll, rfl⟩ := htakes
    rcases hin.poll hreturn hmail hwait hpoll with
      ⟨ph', hin', hex, hdata, -, hkept⟩ | ⟨hex, hin', -, hdone⟩
    · exact ⟨hkept.returned.trans hreturned, ph', hin', hsame _ ph' hkept hex hdata⟩
    · exact ⟨hdone.returned.trans hreturned, .releasing, hin', hcaller.done hex hdone⟩
  | runResRelease =>
    obtain ⟨hreleasing, rfl⟩ := htakes
    obtain ⟨rfl, hin'⟩ := hin.runResRelease hreleasing
    exact ⟨hreturned, .rest, hin', hcaller.runResRelease hreleasing⟩
  | request addr pdu => exact hfollows.request horderly.1 horderly.2 htakes
  | requestBusy addr =>
    obtain ⟨⟨hcalling, -⟩, rfl⟩ := htakes
    cases hcaller with
    | idle _ hmail hres hdata hph =>
      refine ⟨congrArg (· ++ [.masterBusy]) hreturned, ph, ?_, .idle hcalling hmail hres hdata hph⟩
      exact (hin.caller hin.coming).other hph rfl
    | waits hyes | answered hyes =>
      rw [hcalling] at hyes
      cases hyes
  | requestRecv =>
    obtain ⟨⟨hcalling, haway⟩, rfl⟩ := htakes
    exact ⟨hreturned, ph, hin.requestRecv, hcaller.requestRecv hcalling haway⟩
  | finish =>
    obtain ⟨e, hrequester, rfl⟩ := htakes
    exact hfollows.finish hrequester

theorem follows_start (handlers : List (UInt8 × MbHandler σ)) (ulBaudRate : Nat)
    (tick : BitVec 32) (regs : σ) :
    Follows handlers (start ulBaudRate tick regs) (MbExchange.start regs) := by
  have hnothing (set : BitVec 32) : (0 : BitVec 32) &&& set = 0 := BitVec.zero_and
  rw [start, timersT35Enable_eq]
  refine ⟨rfl, .starting, ?_, .idle rfl (.away (hnothing requestSet)) rfl rfl id⟩
  exact {
    fault := rfl
    rcv := rfl
    snd := rfl
    rxEnabled := rfl
    transStart := rfl
    releasing := rfl
    timer := timerWithin_t35 rfl
    coming := .away (hnothing pollSet)
    asked := False.elim
    holds := ⟨rfl, rfl⟩ }

/-- Of the exchange under way a part may not be on the line yet. -/
theorem In.line_prefix (h : s.In handlers x ph) : s.line <+: x.line := by
  have hholds := h.holds
  cases ph with
  | posted | sending => exact ⟨_, hholds.1⟩
  | ready | releasing | rest => exact ⟨[], (List.append_nil _).trans hholds⟩
  | starting | waiting | hearing | overrun | received | executing | failed =>
    exact ⟨[], (List.append_nil _).trans hholds.1⟩

theorem In.line_eq (h : s.In handlers x ph) (hph : ¬ ph.Exchanges) : s.line = x.line := by
  have hholds := h.holds
  cases ph with
  | starting => exact hholds.1
  | ready | releasing | rest => exact hholds
  | posted | sending | waiting | hearing | overrun | received | executing | failed =>
    exact absurd trivial hph

theorem Follows.settled (hfollows : Follows handlers s x) (hcalling : s.calling = false) :
    s.line = x.line ∧ s.data = x.data := by
  obtain ⟨-, ph, hin, hcaller⟩ := hfollows
  cases hcaller with
  | idle _ _ _ hdata hph => exact ⟨hin.line_eq hph, hdata⟩
  | waits hyes | answered hyes =>
    rw [hcalling] at hyes
    cases hyes

theorem follows_run (hreturn : HandlersReturn handlers) {ulBaudRate : Nat} {tick : BitVec 32}
    {regs : σ} {as : List MbAction}
    (horderly : StepsMeet (step handlers) Orderly (start ulBaudRate tick regs) as)
    (hrun : run (step handlers) (start ulBaudRate tick regs) as = some s) :
    Follows handlers s (as.foldl (MbExchange.step handlers) (.start regs)) :=
  run_follows (fun _ _ _ _ hfollows horderly hstep => hfollows.step hreturn horderly hstep)
    (follows_start handlers ulBaudRate tick regs) horderly hrun

/-- Between requests the next one is too early only while the poll thread has not come to the
release. -/
theorem Caller.runRes_eq_zero (h : Caller handlers x s ph) (hcalling : s.calling = false) :
    s.xMasterRunRes = 0 ↔ s.releasing = true := by
  cases h with
  | idle _ _ hres =>
    cases hreleasing : s.releasing with
    | false =>
      rw [hreleasing] at hres
      have hone : s.xMasterRunRes = 1 := hres
      simp [hone]
    | true =>
      rw [hreleasing] at hres
      exact iff_of_true (Nat.succ.inj hres) rfl
  | waits hyes | answered hyes =>
    rw [hcalling] at hyes
    cases hyes

/-- The requests return what the exchanges come to. Nothing but their frames is sent, and when no
request is under way all of it has been sent, the data are those the exchanges leave, and the next
request is told that the master is busy only before the release. -/
theorem run_exchanges (hreturn : HandlersReturn handlers) {ulBaudRate : Nat} {tick : BitVec 32}
    {regs : σ} {as : List MbAction}
    (horderly : StepsMeet (step handlers) Orderly (start ulBaudRate tick regs) as)
    (hrun : run (step handlers) (start ulBaudRate tick regs) as = some s)
    (hx : as.foldl (MbExchange.step handlers) (.start regs) = x) :
    s.fault = false ∧ s.returned = x.returned ∧ s.line <+: x.line ∧
      (s.calling = false →
        s.line = x.line ∧ s.data = x.data ∧ (s.xMasterRunRes = 0 ↔ s.releasing = true)) := by
  subst hx
  have hfollows := follows_run hreturn horderly hrun
  have ⟨hreturned, ph, hin, hcaller⟩ := hfollows
  refine ⟨hin.fault, hreturned, hin.line_prefix, fun hcalling => ?_⟩
  obtain ⟨hline, hdata⟩ := hfollows.settled hcalling
  exact ⟨hline, hdata, hcaller.runRes_eq_zero hcalling⟩

/-- A handler that keeps the first register of a reply. -/
def sampleHandler : MbHandler UInt8 :=
  fun frame usLength _ d => some (mbExNone, usLength, { d with regs := d.frameByte frame 3 })

/-- The start, and a register asked of slave 1, up to the return. -/
def sampleRun (reply : List UInt8) : List MbAction :=
  [.tick, .pollRecv, .poll, .request 1 [3, 0, 0, 0, 1], .pollRecv, .poll] ++
    List.replicate 9 .transmit ++ reply.map .byte ++
    [.tick, .pollRecv, .poll, .pollRecv, .poll, .requestRecv]

theorem sampleHandler_returns : HandlersReturn [(3, sampleHandler)] := by
  intro c h hmem frame usLength broadcast d _ _ _
  cases List.mem_singleton.mp hmem
  exact ⟨_, rfl⟩

/-- The caller asks again before the release, and after it. -/
theorem run_exchanges_sample :
    ∃ s, run (step [(3, sampleHandler)]) (start 9600 0 0)
        (sampleRun (encodeFrame 1 [3, 2, 0, 7]) ++
          [.finish, .requestBusy 1, .runResRelease]) = some s ∧
      s.returned = [.noErr, .masterBusy] ∧ s.data.regs = 7 ∧ s.xMasterRunRes ≠ 0 := by
  have hsome : (run (step [(3, sampleHandler)]) (start 9600 0 0)
      (sampleRun (encodeFrame 1 [3, 2, 0, 7]) ++
        [.finish, .requestBusy 1, .runResRelease])).isSome := by
    decide +kernel
  obtain ⟨s, hs⟩ := Option.isSome_iff_exists.mp hsome
  obtain ⟨-, hreturned, -, hsettled⟩ :=
    run_exchanges sampleHandler_returns (by decide +kernel) hs rfl
  have hend : ∀ s ∈ run (step [(3, sampleHandler)]) (start 9600 0 0)
      (sampleRun (encodeFrame 1 [3, 2, 0, 7]) ++
        [.finish, .requestBusy 1, .runResRelease]),
      s.calling = false ∧ s.releasing = false := by
    decide +kernel
  obtain ⟨hcalling, hreleasing⟩ := hend s hs
  obtain ⟨-, hdata, hres⟩ := hsettled hcalling
  refine ⟨s, hs, hreturned.trans (by decide +kernel), ?_, fun hzero => ?_⟩
  · rw [hdata]
    decide +kernel
  · rw [hres.mp hzero] at hreleasing
    cases hreleasing

/-! ## A disturbed reply -/

theorem decodeFrame_eq_none {heard : List UInt8} (h : usMBCRC16 heard ≠ 0) :
    decodeFrame heard = none := by
  cases heard with
  | nil => rfl
  | cons addr rest => rw [decodeFrame, if_neg fun hvalid => h hvalid.2]

theorem verdict_of_invalid (hne : x.heard ≠ []) (h : usMBCRC16 x.heard ≠ 0) :
    x.verdict handlers = (.revData, x.stored) := by
  rw [MbExchange.verdict]
  split
  · rename_i hnil
    exact absurd hnil hne
  · rw [decodeFrame_eq_none h, ite_self]

theorem calling_of_finish (h : s.step handlers .finish = some t) : t.calling = false := by
  obtain ⟨e, -, rfl⟩ := takes_of_step h
  rfl

/-- A request whose reply was disturbed on the line in a way that is notable returns so, and its
registers stay as they were. -/
theorem run_disturbed (hreturn : HandlersReturn handlers) {ulBaudRate : Nat} {tick : BitVec 32}
    {regs : σ} {as : List MbAction}
    (horderly : StepsMeet (step handlers) Orderly (start ulBaudRate tick regs) as)
    (hrun : run (step handlers) (start ulBaudRate tick regs) as = some s)
    (hx : as.foldl (MbExchange.step handlers) (.start regs) = x) {sent : List UInt8}
    (hvalid : usMBCRC16 sent = 0) (hmax : sent.length ≤ mbSerPduSizeMax)
    (hlen : x.heard.length = sent.length) (herror : Crc.Notable 16 (flips sent x.heard))
    (hfinish : s.step handlers .finish = some t) :
    t.returned = s.returned ++ [.revData] ∧ t.data.regs = x.data.regs := by
  subst hx
  have hfollows := follows_run hreturn horderly hrun
  have hnext := hfollows.step hreturn (a := .finish) trivial hfinish
  have hcrc := usMBCRC16_ne_zero hlen hmax hvalid herror
  have hne : (as.foldl (MbExchange.step handlers) (.start regs)).heard ≠ [] := by
    intro hnil
    rw [hnil, List.length_nil] at hlen
    rw [List.eq_nil_of_length_eq_zero hlen.symm] at hvalid
    exact absurd hvalid (by decide)
  have hverdict : MbExchange.verdict handlers _ = _ := verdict_of_invalid hne hcrc
  have hdata := (hnext.settled (calling_of_finish hfinish)).2
  rw [step_finish hverdict] at hdata hnext
  have hregs : t.data.regs = _ := congrArg MbData.regs hdata
  refine ⟨hnext.1.trans ?_, hregs⟩
  rw [hfollows.1]

/-- One bit of the register is flipped. -/
theorem run_disturbed_sample :
    ∃ s t, run (step [(3, sampleHandler)]) (start 9600 0 0)
        (sampleRun (1 :: 3 :: 2 :: 0 :: 6 :: crcBytes [1, 3, 2, 0, 7])) = some s ∧
      s.step [(3, sampleHandler)] .finish = some t ∧
      t.returned = s.returned ++ [.revData] ∧ t.data.regs = 0 := by
  have hsome : ((run (step [(3, sampleHandler)]) (start 9600 0 0)
      (sampleRun (1 :: 3 :: 2 :: 0 :: 6 :: crcBytes [1, 3, 2, 0, 7]))).bind fun s =>
        s.step [(3, sampleHandler)] .finish).isSome := by
    decide +kernel
  obtain ⟨t, ht⟩ := Option.isSome_iff_exists.mp hsome
  obtain ⟨s, hs, ht⟩ := Option.bind_eq_some_iff.mp ht
  have hsent : usMBCRC16 (encodeFrame 1 [3, 2, 0, 7]) = 0 := by decide +kernel
  have hfails := run_disturbed sampleHandler_returns (by decide +kernel) hs rfl hsent (by decide)
    rfl (.inl (by decide +kernel)) ht
  exact ⟨s, t, hs, ht, hfails.1, hfails.2.trans (by decide +kernel)⟩

end MbMaster

end ControlBoard
