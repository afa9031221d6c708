import ControlBoard.Lib.Rounds
import ControlBoard.ModbusRun

/-!
# Requests of the Modbus master return

While a request is under way and the line is silent, the master always waits for one action: of the
transmitter, of the poll thread, of the caller, or of the clock. Each of them brings the end of the
request nearer, and no other action takes that away.
-/

namespace ControlBoard

open EventObject Transition

variable {σ : Type}

/-- Everything but a byte on the line. -/
def MbAction.Silent : MbAction → Prop
  | .byte _ => False
  | _ => True

instance : ∀ a : MbAction, Decidable a.Silent
  | .byte _ => isFalse id
  | .tick | .transmit | .pollRecv | .poll | .runResRelease | .request _ _ | .requestBusy _
  | .requestRecv | .finish => isTrue trivial

/-- The actions that a request can wait for. -/
def mbTurns : List MbAction := [.transmit, .pollRecv, .poll, .requestRecv, .finish, .tick]

/-- The turns of a thread up to the end of its wait. -/
def turnsLeft : Waiter 32 → Nat
  | .resumed _ => 1
  | _ => 2

/-- The turn of the poll thread that is next. -/
def pollTurn : Waiter 32 → MbAction
  | .resumed _ => .poll
  | _ => .pollRecv

/-- The turn of the caller that is next. -/
def requestTurn : Waiter 32 → MbAction
  | .resumed _ => .finish
  | _ => .requestRecv

namespace MbMaster

variable {handlers : List (UInt8 × MbHandler σ)} {x : MbExchange σ} {s t : MbMaster σ}
  {ph : MbPhase}

/-- The ticks up to the end of the timer. -/
def timeLeft (s : MbMaster σ) : Nat :=
  match s.timer with
  | none => 0
  | some timeout => (timeout - s.tick).toNat + 1

/-- The turns that are left of a request. -/
def left (s : MbMaster σ) (ph : MbPhase) : Nat :=
  ph.least +
    match ph with
    | .starting | .ready | .releasing | .rest => turnsLeft s.requester
    | .posted | .received | .executing | .failed => turnsLeft s.poll
    | .sending _ => s.usMasterSndBufferCount + 1
    | .waiting | .hearing | .overrun => s.timeLeft

/-- The turn that it waits for. -/
def awaited (s : MbMaster σ) : MbPhase → MbAction
  | .starting | .ready | .releasing | .rest => requestTurn s.requester
  | .posted | .received | .executing | .failed => pollTurn s.poll
  | .sending _ => .transmit
  | .waiting | .hearing | .overrun => .tick

theorem turnsLeft_pos (w : Waiter 32) : 0 < turnsLeft w := by
  cases w <;> simp [turnsLeft]

theorem turnsLeft_le (w : Waiter 32) : turnsLeft w ≤ 2 := by
  cases w <;> simp [turnsLeft]

theorem TimerWithin.timeLeft_le (h : s.TimerWithin true) :
    0 < s.timeLeft ∧ s.timeLeft ≤ 1001 := by
  rw [TimerWithin] at h
  rw [timeLeft]
  cases htimer : s.timer with
  | none =>
    rw [htimer] at h
    cases h
  | some timeout =>
    rw [htimer] at h
    have hle := h.2
    dsimp only
    omega

/-- The bounds of a phase. -/
theorem In.left_bounds (h : s.In handlers x ph) : ph.least < s.left ph ∧ s.left ph ≤ ph.most := by
  have hpoll := turnsLeft_pos s.poll
  have hpoll' := turnsLeft_le s.poll
  have hrequest := turnsLeft_pos s.requester
  have hrequest' := turnsLeft_le s.requester
  have htimer := h.timer
  cases ph with
  | starting | ready | releasing | rest | posted | received | executing | failed =>
    simp only [left, MbPhase.least, MbPhase.most]
    omega
  | waiting | hearing | overrun =>
    have htime := TimerWithin.timeLeft_le htimer
    simp only [left, MbPhase.least, MbPhase.most]
    omega
  | sending k =>
    obtain ⟨-, -, -, -, -, hcount⟩ := h.holds
    have hlen := (h.asked trivial).length
    have hframe : x.frame.length = x.pdu.length + 3 := length_encodeFrame _ _
    simp only [left, MbPhase.least, MbPhase.most]
    simp only [mbPduSizeMax] at hlen
    omega

/-- The master is so many turns away from the end of the request, and waits for `a`. -/
def Ahead (handlers : List (UInt8 × MbHandler σ)) (x : MbExchange σ) (s : MbMaster σ) (n : Nat)
    (a : MbAction) : Prop :=
  s.returned = x.returned ∧ s.calling = true ∧
    ∃ ph, s.In handlers x ph ∧ Caller handlers x s ph ∧ s.left ph = n ∧ s.awaited ph = a

/-- The request has returned what the exchange comes to. -/
def Returned (handlers : List (UInt8 × MbHandler σ)) (x : MbExchange σ) (s : MbMaster σ) : Prop :=
  s.calling = false ∧ s.returned = x.returned ++ [(x.verdict handlers).1]

theorem pollTurn_ne {b : MbAction} (hpoll : b ≠ .poll) (hrecv : b ≠ .pollRecv) (w : Waiter 32) :
    b ≠ pollTurn w := by
  cases w with
  | away | suspended => exact hrecv
  | resumed => exact hpoll

theorem requestTurn_ne {b : MbAction} (hfinish : b ≠ .finish) (hrecv : b ≠ .requestRecv)
    (w : Waiter 32) : b ≠ requestTurn w := by
  cases w with
  | away | suspended => exact hrecv
  | resumed => exact hfinish

/-- Between exchanges only the caller is waited for. -/
theorem left_of_not_exchanges (s : MbMaster σ) (h : ¬ ph.Exchanges) :
    s.left ph = turnsLeft s.requester ∧ s.awaited ph = requestTurn s.requester := by
  cases ph with
  | starting | ready | releasing | rest => exact ⟨Nat.zero_add _, rfl⟩
  | posted | sending | waiting | hearing | overrun | received | executing | failed =>
    exact absurd trivial h

/-! ## One turn -/

variable {n : Nat} {a b : MbAction}

/-- A later phase is nearer to the end. -/
theorem In.nearer (h : s.In handlers x ph) {ph' : MbPhase} (ht : t.In handlers x ph')
    (hmost : ph'.most ≤ ph.least) : t.left ph' < s.left ph := by
  have hs := h.left_bounds.1
  have ht := ht.left_bounds.2
  omega

theorem advances_of_nearer (hreturned : t.returned = x.returned) (hcalling : t.calling = true)
    (hin : t.In handlers x ph) (hcaller : Caller handlers x t ph) (hless : t.left ph < n) :
    Advances (Returned handlers x) (Ahead handlers x) n a b t :=
  .inr (.inl ⟨_, hless, _, hreturned, hcalling, ph, hin, hcaller, rfl, rfl⟩)

theorem advances_of_same (hreturned : t.returned = x.returned) (hcalling : t.calling = true)
    (hin : t.In handlers x ph) (hcaller : Caller handlers x t ph) (hleft : t.left ph = n)
    (hawaited : t.awaited ph = a) (hother : b ≠ a) :
    Advances (Returned handlers x) (Ahead handlers x) n a b t :=
  .inr (.inr ⟨hother, hreturned, hcalling, ph, hin, hcaller, hleft, hawaited⟩)

/-- A step after which the phase is a later one, or lies between exchanges as before. -/
theorem advances_of_phase (hcalling : s.calling = true) (hreturned : s.returned = x.returned)
    (hin : s.In handlers x ph) {ph' : MbPhase} (hin' : t.In handlers x ph')
    (hcaller : Caller handlers x t ph') (hex : ph'.Exchanges ↔ ph.Exchanges)
    (hmost : ph.Exchanges → ph'.most ≤ ph.least) {c : BitVec 32} (hkept : Kept s t c)
    (hfinish : b ≠ .finish) (hrecv : b ≠ .requestRecv) :
    Advances (Returned handlers x) (Ahead handlers x) (s.left ph) (s.awaited ph) b t := by
  have hreturned' := hkept.returned.trans hreturned
  have hcalling' := hkept.calling.trans hcalling
  by_cases hph : ph.Exchanges
  · exact advances_of_nearer hreturned' hcalling' hin' hcaller (hin.nearer hin' (hmost hph))
  · obtain ⟨hleft, hawaited⟩ := left_of_not_exchanges s hph
    obtain ⟨hleft', hawaited'⟩ := left_of_not_exchanges t (mt hex.mp hph)
    rw [hkept.requester] at hleft' hawaited'
    rw [hleft, hawaited]
    exact advances_of_same hreturned' hcalling' hin' hcaller hleft' hawaited'
      (requestTurn_ne hfinish hrecv _)

/-- A tick on the way of the timer. -/
theorem timeLeft_tick (h : s.TimerWithin true) (hon : ¬ s.Expires) :
    { s with tick := s.tick + 1 }.timeLeft < s.timeLeft := by
  rw [timeLeft, timeLeft]
  rw [TimerWithin] at h
  cases htimer : s.timer with
  | none =>
    rw [htimer] at h
    cases h
  | some timeout =>
    rw [htimer] at h
    have hnext := (timer_tick h.2).2 fun hexpired => hon ⟨timeout, htimer, hexpired⟩
    dsimp only
    omega

theorem Ahead.tick (hroom : x.heard.length ≠ mbSerPduSizeMax) (h : Ahead handlers x s n a) :
    Advances (Returned handlers x) (Ahead handlers x) n a .tick s.tickIncrease := by
  obtain ⟨hreturned, hcalling, ph, hin, hcaller, rfl, rfl⟩ := h
  obtain ⟨c, hmail, hwait, hsame⟩ := hcaller.mail
  have hlen : ¬ (s.eRcvState = .rxRcv ∧ s.usMasterRcvBufferPos = mbSerPduSizeMax) := by
    rintro ⟨hrcv, hpos⟩
    rw [hin.rcv] at hrcv
    cases ph with
    | hearing =>
      obtain ⟨-, -, hheard, -⟩ := hin.holds
      exact hroom (hheard.symm.trans hpos)
    | starting | ready | releasing | rest | posted | sending | waiting | overrun | received | executing
    | failed => cases hrcv
  rcases s.tickIncrease_cases with ⟨hexpires, htick⟩ | ⟨hon, htick⟩
  · obtain ⟨ph', hin', hex, hdata, hmost, hkept⟩ := hin.expired hmail hlen hexpires
    rw [htick]
    exact advances_of_phase hcalling hreturned hin hin' (hsame _ ph' hkept hex hdata) hex hmost
      hkept (by decide) (by decide)
  · have hin' := hin.tickOn hon
    have hcaller' : Caller handlers x { s with tick := s.tick + 1 } ph :=
      hsame _ ph ⟨rfl, rfl, rfl, rfl, rfl, hmail⟩ Iff.rfl fun _ => rfl
    rw [htick]
    cases ph with
    | waiting | hearing | overrun =>
      refine advances_of_nearer hreturned hcalling hin' hcaller' ?_
      exact Nat.add_lt_add_left (timeLeft_tick hin.timer hon) _
    | sending k =>
      have hother : MbAction.tick ≠ .transmit := by decide
      exact advances_of_same hreturned hcalling hin' hcaller' rfl rfl hother
    | posted | received | executing | failed =>
      exact advances_of_same hreturned hcalling hin' hcaller' rfl rfl
        (pollTurn_ne (by decide) (by decide) _)
    | starting | ready | releasing | rest =>
      exact advances_of_same hreturned hcalling hin' hcaller' rfl rfl
        (requestTurn_ne (by decide) (by decide) _)

theorem Ahead.transmit (h : Ahead handlers x s n a) (hstart : s.transStart = true) :
    Advances (Returned handlers x) (Ahead handlers x) n a .transmit s.transmitFSM := by
  obtain ⟨hreturned, hcalling, ph, hin, hcaller, rfl, rfl⟩ := h
  obtain ⟨c, hmail, hwait, hsame⟩ := hcaller.mail
  obtain ⟨ph', hin', hex, hex', hnext, hkept⟩ := hin.transmit hmail hstart
  have hcaller' := hsame _ ph' hkept (iff_of_true hex' hex) fun hno => absurd hex hno
  refine advances_of_nearer (hkept.returned.trans hreturned) (hkept.calling.trans hcalling) hin'
    hcaller' ?_
  rcases hnext with hmost | ⟨k, j, rfl, rfl, hless⟩
  · exact hin.nearer hin' hmost
  · exact Nat.add_lt_add_left (Nat.succ_lt_succ hless) _

theorem Ahead.pollRecv (h : Ahead handlers x s n a) (haway : s.poll = .away) :
    Advances (Returned handlers x) (Ahead handlers x) n a .pollRecv
      { s with event := (receive pollSet s.event).1, poll := (receive pollSet s.event).2 } := by
  obtain ⟨hreturned, hcalling, ph, hin, hcaller, rfl, rfl⟩ := h
  obtain ⟨c, hmail, hwait, hsame⟩ := hcaller.mail
  obtain ⟨hin', hkept⟩ := hin.pollRecv hmail haway
  have hcaller' := hsame _ ph hkept Iff.rfl fun _ => rfl
  have hcoming := hin.coming
  rw [haway] at hcoming
  cases ph with
  | posted | received | executing | failed =>
    refine advances_of_nearer hreturned hcalling hin' hcaller' ?_
    have hresumed := hcoming.receive_resumed (by decide)
    simp only [left, haway, hresumed, turnsLeft]
    omega
  | sending k =>
    have hother : MbAction.pollRecv ≠ .transmit := by decide
    exact advances_of_same hreturned hcalling hin' hcaller' rfl rfl hother
  | waiting | hearing | overrun =>
    have hother : MbAction.pollRecv ≠ .tick := by decide
    exact advances_of_same hreturned hcalling hin' hcaller' rfl rfl hother
  | starting | ready | releasing | rest =>
    exact advances_of_same hreturned hcalling hin' hcaller' rfl rfl
      (requestTurn_ne (by decide) (by decide) _)

theorem Ahead.poll (hreturn : HandlersReturn handlers) (h : Ahead handlers x s n a)
    {e : BitVec 32} (hpoll : s.poll = .resumed e) :
    Advances (Returned handlers x) (Ahead handlers x) n a .poll
      (s.taken.pollEvent handlers e) := by
  obtain ⟨hreturned, hcalling, ph, hin, hcaller, rfl, rfl⟩ := h
  obtain ⟨c, hmail, hwait, hsame⟩ := hcaller.mail
  rcases hin.poll hreturn hmail hwait hpoll with
    ⟨ph', hin', hex, hdata, hmost, hkept⟩ | ⟨hex, hin', hmost, hdone⟩
  · exact advances_of_phase hcalling hreturned hin hin' (hsame _ ph' hkept hex hdata) hex hmost
      hkept (by decide) (by decide)
  · exact advances_of_nearer (hdone.returned.trans hreturned) (hdone.calling.trans hcalling) hin'
      (hcaller.done hex hdone) (hin.nearer hin' hmost)

theorem Ahead.requestRecv (h : Ahead handlers x s n a) (haway : s.requester = .away) :
    Advances (Returned handlers x) (Ahead handlers x) n a .requestRecv
      { s with
        event := (receive requestSet s.event).1
        requester := (receive requestSet s.event).2 } := by
  obtain ⟨hreturned, hcalling, ph, hin, hcaller, rfl, rfl⟩ := h
  have hcaller' := hcaller.requestRecv hcalling haway
  cases hcaller with
  | idle hidle =>
    rw [hidle] at hcalling
    cases hcalling
  | waits _ _ _ hph =>
    cases ph with
    | starting | ready | releasing | rest => exact absurd hph id
    | sending k =>
      have hother : MbAction.requestRecv ≠ .transmit := by decide
      exact advances_of_same hreturned hcalling hin.requestRecv hcaller' rfl rfl hother
    | waiting | hearing | overrun =>
      have hother : MbAction.requestRecv ≠ .tick := by decide
      exact advances_of_same hreturned hcalling hin.requestRecv hcaller' rfl rfl hother
    | posted | received | executing | failed =>
      exact advances_of_same hreturned hcalling hin.requestRecv hcaller' rfl rfl
        (pollTurn_ne (by decide) (by decide) _)
  | answered _ hmail he _ _ hph =>
    rw [haway] at hmail
    have hresumed := hmail.receive_resumed he
    refine advances_of_nearer hreturned hcalling hin.requestRecv hcaller' ?_
    rw [(left_of_not_exchanges _ hph).1, (left_of_not_exchanges _ hph).1, haway, hresumed]
    exact Nat.one_lt_two

/-- The release is not waited for. -/
theorem Ahead.runResRelease (h : Ahead handlers x s n a) (hreleasing : s.releasing = true) :
    Advances (Returned handlers x) (Ahead handlers x) n a .runResRelease s.runResRelease := by
  obtain ⟨hreturned, hcalling, ph, hin, hcaller, rfl, rfl⟩ := h
  obtain ⟨rfl, hin'⟩ := hin.runResRelease hreleasing
  have hcaller' := hcaller.runResRelease hreleasing
  exact advances_of_same hreturned hcalling hin' hcaller' rfl rfl
    (requestTurn_ne (by decide) (by decide) _)

/-- The turn that is waited for can be taken. -/
theorem Ahead.enabled (h : Ahead handlers x s n a) : ∃ t, s.step handlers a = some t := by
  obtain ⟨-, hcalling, ph, hin, hcaller, -, rfl⟩ := h
  have hnone : ¬ s.fault = true := by
    rw [hin.fault]
    exact Bool.false_ne_true
  unfold MbMaster.step
  rw [if_neg hnone]
  cases ph with
  | sending k =>
    have hstart : s.transStart = true := hin.transStart
    exact ⟨_, if_pos hstart⟩
  | waiting | hearing | overrun => exact ⟨_, rfl⟩
  | posted | received | executing | failed =>
    rcases hin.coming.source (by decide) with ⟨haway, -⟩ | hresumed
    · rw [awaited, haway]
      exact ⟨_, if_pos ⟨rfl, hin.releasing⟩⟩
    · rw [awaited, hresumed]
      exact ⟨_, rfl⟩
  | starting | ready | releasing | rest =>
    cases hcaller with
    | idle hidle =>
      rw [hidle] at hcalling
      cases hcalling
    | waits _ _ _ hph => exact absurd hph id
    | answered _ hmail he =>
      rcases hmail.source he with ⟨haway, -⟩ | hresumed
      · rw [awaited, haway]
        exact ⟨_, if_pos ⟨hcalling, rfl⟩⟩
      · rw [awaited, hresumed]
        exact ⟨_, rfl⟩

theorem Ahead.finish (h : Ahead handlers x s n a) {e : BitVec 32}
    (hrequester : s.requester = .resumed e) :
    Advances (Returned handlers x) (Ahead handlers x) n a .finish
      { s with
        calling := false
        requester := .away
        returned := s.returned ++ [waitRequestFinish e] } := by
  obtain ⟨hreturned, hcalling, ph, hin, hcaller, rfl, rfl⟩ := h
  have hfollows : Follows handlers s x := ⟨hreturned, ph, hin, hcaller⟩
  exact .inl ⟨rfl, (hfollows.finish hrequester).1⟩

/-- A turn brings the end of the request nearer, or it is not the one that is waited for. -/
theorem Ahead.turn (hreturn : HandlersReturn handlers) (hroom : x.heard.length ≠ mbSerPduSizeMax)
    (h : Ahead handlers x s n a) (hsilent : b.Silent) :
    Advances (Returned handlers x) (Ahead handlers x) n a b (turn (step handlers) s b) := by
  cases hstep : s.step handlers b with
  | none =>
    rw [turn_of_none hstep]
    refine .inr (.inr ⟨?_, h⟩)
    rintro rfl
    obtain ⟨t, ht⟩ := h.enabled
    rw [hstep] at ht
    cases ht
  | some t =>
    rw [turn_of_some hstep]
    have ⟨_, hcalling, _⟩ := h
    have htakes := takes_of_step hstep
    cases b with
    | byte c => exact absurd hsilent id
    | tick =>
      cases htakes
      exact h.tick hroom
    | transmit =>
      obtain ⟨hstart, rfl⟩ := htakes
      exact h.transmit hstart
    | pollRecv =>
      obtain ⟨⟨haway, -⟩, rfl⟩ := htakes
      exact h.pollRecv haway
    | poll =>
      obtain ⟨e, hpoll, rfl⟩ := htakes
      exact h.poll hreturn hpoll
    | runResRelease =>
      obtain ⟨hreleasing, rfl⟩ := htakes
      exact h.runResRelease hreleasing
    | request addr pdu =>
      have hrequest : s.request addr pdu = some t := htakes
      rw [MbMaster.request, if_pos hcalling] at hrequest
      cases hrequest
    | requestBusy addr =>
      rw [htakes.1.1] at hcalling
      cases hcalling
    | requestRecv =>
      obtain ⟨⟨-, haway⟩, rfl⟩ := htakes
      exact h.requestRecv haway
    | finish =>
      obtain ⟨e, hrequester, rfl⟩ := htakes
      exact h.finish hrequester

theorem Ahead.mem_turns (h : Ahead handlers x s n a) : a ∈ mbTurns := by
  obtain ⟨-, -, ph, -, -, -, rfl⟩ := h
  cases ph with
  | sending k =>
    have hmem : MbAction.transmit ∈ mbTurns := by decide
    exact hmem
  | waiting | hearing | overrun =>
    have hmem : MbAction.tick ∈ mbTurns := by decide
    exact hmem
  | posted | received | executing | failed =>
    rw [awaited]
    cases s.poll <;> simp [pollTurn, mbTurns]
  | starting | ready | releasing | rest =>
    rw [awaited]
    cases s.requester <;> simp [requestTurn, mbTurns]

/-- A request returns what its exchange comes to, at the latest after 1264 rounds in which the line
is silent, each thread has its turns and the clock counts. -/
theorem run_returns (hreturn : HandlersReturn handlers) {ulBaudRate : Nat} {tick : BitVec 32}
    {regs : σ} {as : List MbAction}
    (horderly : StepsMeet (step handlers) Orderly (start ulBaudRate tick regs) as)
    (hrun : run (step handlers) (start ulBaudRate tick regs) as = some s)
    (hx : as.foldl (MbExchange.step handlers) (.start regs) = x) (hcalling : s.calling = true)
    (hroom : x.heard.length ≠ mbSerPduSizeMax) {rounds : List (List MbAction)}
    (hrounds : ∀ r ∈ rounds, (∀ b ∈ r, b.Silent) ∧ ∀ a ∈ mbTurns, a ∈ r)
    (hlen : 1264 ≤ rounds.length) :
    Passes (step handlers)
      (fun t => t.calling = false ∧ t.returned = s.returned ++ [(x.verdict handlers).1]) s
      rounds.flatten := by
  subst hx
  obtain ⟨hreturned, ph, hin, hcaller⟩ := follows_run hreturn horderly hrun
  rw [hreturned]
  have hmost : s.left ph ≤ 1263 := by
    have hbound := hin.left_bounds.2
    have hphase : ph.most ≤ 1263 := by
      cases ph <;> simp [MbPhase.most]
    omega
  have hahead : Ahead handlers _ s (s.left ph) (s.awaited ph) :=
    ⟨hreturned, hcalling, ph, hin, hcaller, rfl, rfl⟩
  have hpasses : Passes (step handlers) (Returned handlers _) s rounds.flatten :=
    passes_of_rounds (fun _ _ _ _ h hsilent => Ahead.turn hreturn hroom h hsilent)
      (fun _ _ _ h => Ahead.mem_turns h) hrounds hahead (by omega)
  exact hpasses

/-- Nothing answers. -/
theorem run_returns_sample :
    ∃ s, run (step [(3, sampleHandler)]) (start 9600 0 0)
        [.tick, .pollRecv, .poll, .request 1 [3, 0, 0, 0, 1]] = some s ∧
      Passes (step [(3, sampleHandler)])
        (fun t => t.calling = false ∧ t.returned = s.returned ++ [.timedout]) s
        (List.replicate 1264 mbTurns).flatten := by
  have hsome : (run (step [(3, sampleHandler)]) (start 9600 0 0)
      [.tick, .pollRecv, .poll, .request 1 [3, 0, 0, 0, 1]]).isSome := by
    decide +kernel
  obtain ⟨s, hs⟩ := Option.isSome_iff_exists.mp hsome
  have hcalling : ∀ s ∈ run (step [(3, sampleHandler)]) (start 9600 0 0)
      [.tick, .pollRecv, .poll, .request 1 [3, 0, 0, 0, 1]], s.calling = true := by
    decide +kernel
  have hrounds : ∀ r ∈ List.replicate 1264 mbTurns,
      (∀ b ∈ r, b.Silent) ∧ ∀ a ∈ mbTurns, a ∈ r := by
    intro r hr
    rw [List.eq_of_mem_replicate hr]
    exact ⟨by decide, fun _ ha => ha⟩
  exact ⟨s, hs, run_returns sampleHandler_returns (by decide +kernel) hs rfl (hcalling s hs)
    (by decide +kernel) hrounds (by rw [List.length_replicate])⟩

end MbMaster

end ControlBoard
