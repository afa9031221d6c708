import ControlBoard.OtaaText
import ControlBoard.RadioSlot

/-!
# The payload of a send

`radio_send` passes on a pointer, so the bytes that go out are those behind it when the thread
handles the event. They are the bytes of the call if its caller leaves them alone until then.
-/

namespace ControlBoard

/-! ## The text of `AT+SENDHEX` -/

/-- Two digits a byte. -/
def hexText (data : List UInt8) : List UInt8 :=
  data.flatMap fun (b : UInt8) => [hexDigit (b >>> 4), hexDigit (b &&& 0x0f)]

/-- The value of a digit of `hexDigit`. -/
def hexValue (digit : UInt8) : UInt8 := if digit > 0x39 then digit - 0x37 else digit - 0x30

theorem byte2Hexstr_eq (data dest : List UInt8) :
    byte2Hexstr data dest = hexText data ++ dest.drop (2 * data.length) := by
  induction data generalizing dest with
  | nil => rfl
  | cons b data ih =>
    rw [byte2Hexstr, ih, List.drop_drop, List.length_cons, Nat.mul_succ, Nat.add_comm 2]
    rfl

theorem hexDigit_ne_zero (b : UInt8) : hexDigit (b >>> 4) ≠ 0 ∧ hexDigit (b &&& 0x0f) ≠ 0 := by
  obtain ⟨b⟩ := b
  revert b
  decide +kernel

theorem hexValue_hexDigit (b : UInt8) :
    hexValue (hexDigit (b >>> 4)) * 16 + hexValue (hexDigit (b &&& 0x0f)) = b := by
  obtain ⟨b⟩ := b
  revert b
  decide +kernel

theorem zero_notMem_hexText (data : List UInt8) : 0 ∉ hexText data := by
  intro h
  obtain ⟨b, -, hb⟩ := List.mem_flatMap.mp h
  obtain ⟨hhigh, hlow⟩ := hexDigit_ne_zero b
  rcases List.mem_cons.mp hb with hb | hb
  · exact hhigh hb.symm
  · exact hlow (List.mem_singleton.mp hb).symm

/-- The command that `at_radio_send_hex` sends. -/
theorem atRadioSendHex_eq (data : List UInt8) :
    atRadioSendHex data = sendCommand 64 (ascii "AT+SENDHEX=" ++ hexText data) := by
  have hzero : (charArray 256 []).drop (2 * data.length) =
      List.replicate (256 - 2 * data.length) 0 := by
    rw [charArray, List.nil_append, List.length_nil, Nat.sub_zero, List.drop_replicate]
  have htext : cstr (byte2Hexstr data (charArray 256 [])) = hexText data := by
    rw [byte2Hexstr_eq, hzero, cstr_append (zero_notMem_hexText data), cstr_replicate_zero,
      List.append_nil]
  rw [atRadioSendHex, cstr_strcatM (by decide), htext]

/-- Different bytes are different commands. -/
theorem hexText_injective : Function.Injective hexText := by
  intro data data' h
  induction data generalizing data' with
  | nil =>
    cases data' with
    | nil => rfl
    | cons b data' => cases h
  | cons b data ih =>
    cases data' with
    | nil => cases h
    | cons b' data' =>
      simp only [hexText, List.flatMap_cons, List.cons_append, List.nil_append,
        List.cons.injEq] at h
      obtain ⟨hhigh, hlow, htail⟩ := h
      have hbyte : b = b' := by
        rw [← hexValue_hexDigit b, ← hexValue_hexDigit b', hhigh, hlow]
      rw [hbyte, ih htail]

/-! ## Bytes in transit -/

namespace RadioSys

variable {fal : Bool} {s s' : RadioSys} {a : Action}

/-- A send that was handed to `at_radio_send_hex` is one of the calls whose event is handled,
with the pointer, the size and the bytes of that call. -/
def Faithful (accepted : List SendCall) : Handled → Prop
  | .sent call ptr size bytes handling =>
    call ∈ handling ∧ accepted[call]? = some ⟨ptr, size, bytes⟩
  | .refused _ => True

/-- The write leaves the bytes of the newest call as they are until its event is handled. -/
def KeepsBytes (s : RadioSys) : Action → Prop
  | .write addr value => s.Pending ∨ s.pc.Holding → ∀ c ∈ s.accepted.getLast?,
      c.data ≤ addr → addr < c.data + c.size.toNat → value = s.memory addr
  | _ => True

instance : DecidablePred (KeepsBytes s) := fun a => by
  unfold KeepsBytes
  split <;> infer_instance

/-- The callers leave the bytes alone, and the slot is kept. -/
def KeepsPayload (s : RadioSys) (a : Action) : Prop := KeepsBytes s a ∧ KeepsSlot s a

instance : Decidable (KeepsPayload s a) := inferInstanceAs (Decidable (_ ∧ _))

/-- What is behind the pointer in the slot is what the newest call had there. -/
structure PayloadKept (s : RadioSys) : Prop where
  live : SlotLive s
  fresh : s.Pending ∨ s.pc.Holding → ∀ b d, s.slot = some (b, d) →
    s.accepted[d.call]? = some ⟨d.ptr, d.size, Memory.read s.memory d.ptr d.size.toNat⟩
  faithful : ∀ e ∈ s.handled, Faithful s.accepted e

theorem payloadKept_start (memory : Nat → UInt8) : PayloadKept (start memory) where
  live := slotLive_start memory
  fresh _ b d h := by simp [start, RadioSys.slot] at h
  faithful := nofun

theorem forall_faithful_concat {accepted : List SendCall} {handled : List Handled} {e : Handled}
    (h : ∀ e ∈ handled, Faithful accepted e) (he : Faithful accepted e) :
    ∀ e' ∈ handled ++ [e], Faithful accepted e' := by
  intro e' he'
  rcases List.mem_append.mp he' with he' | he'
  · exact h e' he'
  · rw [List.mem_singleton.mp he']
    exact he

/-- More calls do not change what was sent for the earlier ones. -/
theorem Faithful.append {accepted : List SendCall} {e : Handled} (h : Faithful accepted e)
    (c : SendCall) : Faithful (accepted ++ [c]) e := by
  cases e with
  | refused statue => trivial
  | sent call ptr size bytes handling =>
    obtain ⟨hcall, hc⟩ := h
    obtain ⟨hlt, -⟩ := List.getElem?_eq_some_iff.mp hc
    exact ⟨hcall, by rw [List.getElem?_append_left hlt, hc]⟩

theorem PayloadKept.move (h : PayloadKept s)
    (hmove : Move (fun t => t.Pending → ¬ t.SendAllowed) s s') : PayloadKept s' := by
  have hlive := h.live.move hmove
  cases hmove with
  | rest pc statue timer hfrom hto =>
    refine ⟨hlive, ?_, h.faithful⟩
    intro hwaits
    rcases hwaits with hp | hpc
    · exact h.fresh (.inl hp)
    · exact absurd hpc hto.not_holding
  | take hpc hevent hleft =>
    refine ⟨hlive, ?_, h.faithful⟩
    intro hwaits
    rcases hwaits with hp | hholding
    · exact absurd hp hleft
    · exact h.fresh (.inl (hevent.mp hholding))
  | hold pc statue hfrom hto => exact ⟨hlive, fun _ => h.fresh (.inr hfrom), h.faithful⟩
  | refuse hpc hQ hrefused =>
    exact ⟨hlive, fun _ => h.fresh (.inr hpc), forall_faithful_concat h.faithful trivial⟩
  | @read b d p hpc hQ hallowed hslot =>
    have hnot : ¬ s.Pending := fun hp => hQ hp hallowed
    have howner : d.call ∈ s.handling := by
      have hnewest := h.live.core.holding hpc hnot
      rwa [← (h.live.core.slot b d hslot).1, Nat.add_sub_cancel] at hnewest
    exact ⟨hlive, fun _ => h.fresh (.inr hpc),
      forall_faithful_concat h.faithful ⟨howner, h.fresh (.inr hpc) b d hslot⟩⟩
  | deadRead hpc hQ hallowed hslot => exact absurd rfl hlive.noDead.1
  | send p hpc =>
    exact ⟨hlive, fun hwaits => absurd hwaits (h.live.not_waiting hpc not_false), h.faithful⟩
  | @free passed b d hpc hslot =>
    refine ⟨hlive, fun _ b' d' hslot' => ?_, h.faithful⟩
    rw [slot_goto, slot_release hslot] at hslot'
    cases hslot'
  | freeNull hpc hnull =>
    exact ⟨hlive, fun hwaits => absurd hwaits (h.live.not_waiting hpc not_false), h.faithful⟩
  | deadFree hpc hbuf hdead => exact absurd rfl hlive.noDead.2
  | overrun hpc =>
    refine ⟨hlive, ?_, h.faithful⟩
    intro hwaits
    rcases hwaits with hp | hholding
    · exact h.fresh (.inl hp)
    · cases hholding

/-- A call leaves its pointer, and what is behind it, in the slot. -/
theorem PayloadKept.post (h : PayloadKept s) (hsending : s.pc.sending = none) (data : Nat)
    (size : UInt8) (b : Nat) : PayloadKept ((s.post data size b).raise radioEventSend) := by
  refine ⟨h.live.post hsending data size b, fun _ b' d hslot => ?_,
    fun e he => (h.faithful e he).append _⟩
  rw [slot_raise, slot_post] at hslot
  cases hslot
  rw [raise_accepted, post_accepted, List.getElem?_concat_length]
  rfl

theorem PayloadKept.timer (h : PayloadKept s) : PayloadKept (s.raise radioEventCheckStatue) := by
  refine ⟨h.live.timer, ?_, h.faithful⟩
  intro hwaits
  rcases hwaits with hp | hpc
  · exact h.fresh (.inl (s.pending_timer.mp hp))
  · exact h.fresh (.inr hpc)

theorem PayloadKept.step (h : PayloadKept s) (hok : KeepsPayload s a)
    (hstep : step fal s a = some s') : PayloadKept s' := by
  have hlive := h.live.step hok.2 hstep
  obtain ⟨-, ⟨data, size, block, -, -, rfl⟩ | ⟨data, size, -, -, rfl⟩ |
    ⟨data, size, b, rfl, hsize, -, hsend⟩ | ⟨-, hsend⟩ | ⟨addr, value, rfl, rfl⟩ |
    ⟨env, rfl, hthread⟩⟩ := step_cases (Q := fun t => t.Pending → ¬ t.SendAllowed) hstep
  · exact h
  · exact ⟨hlive, fun _ b d hslot => by simp [RadioSys.slot] at hslot, h.faithful⟩
  · have hpost := h.post (hok.2.1 ⟨hsize, Option.some_ne_none b⟩) data size b
    exact moves_preserve (fun _ _ h => h.move) hpost hsend
  · exact moves_preserve (fun _ _ h => h.move) h.timer hsend
  · refine ⟨hlive, fun hout b d hslot => ?_, h.faithful⟩
    have hfresh := h.fresh hout b d hslot
    have hlast : s.accepted.getLast? =
        some ⟨d.ptr, d.size, Memory.read s.memory d.ptr d.size.toNat⟩ := by
      rw [List.getLast?_eq_getElem?, ← (h.live.core.slot b d hslot).1, Nat.add_sub_cancel, hfresh]
    have hread : Memory.read (Function.update s.memory addr value) d.ptr d.size.toNat =
        Memory.read s.memory d.ptr d.size.toNat := by
      apply Memory.read_congr
      intro i hi
      by_cases haddr : d.ptr + i = addr
      · subst haddr
        rw [Function.update_self]
        exact hok.1 hout _ hlast (Nat.le_add_right d.ptr i) (Nat.add_lt_add_left hi d.ptr)
      · rw [Function.update_of_ne haddr]
    simp only [hread]
    exact hfresh
  · exact threadStep_preserves (fun _ _ h => h.move) h hthread hok.2.2

/-- What `at_radio_send_hex` is given comes from an allocated block and is what the call had
behind its pointer, as long as no caller writes to the bytes of the newest call before its event
is handled, no call comes while the thread sends, and one that comes between the reception of a
`RADIO_EVENT_SEND` and its handling is not followed by a send for that event. -/
theorem payload_kept {memory : Nat → UInt8} {actions : List Action}
    (hok : Transition.StepsMeet (step fal) KeepsPayload (start memory) actions)
    (hrun : Transition.run (step fal) (start memory) actions = some s) :
    (s.pc ≠ .fault .deadRead ∧ s.pc ≠ .fault .deadFree) ∧
      ∀ e ∈ s.handled, Faithful s.accepted e := by
  have h : PayloadKept s := Transition.run_preserves (fun _ _ _ => PayloadKept.step)
    (payloadKept_start memory) hok hrun
  exact ⟨h.live.noDead, h.faithful⟩

theorem payload_kept_uploads :
    ∃ s, Transition.run (step true) (start fun _ => 0)
        (Action.boot ++ Action.upload 0 0 ++ Action.upload 100 1) = some s ∧
      (s.pc ≠ .fault .deadRead ∧ s.pc ≠ .fault .deadFree) ∧
        ∀ e ∈ s.handled, Faithful s.accepted e := by
  obtain ⟨s, hs⟩ := uploads_run
  exact ⟨s, hs, payload_kept (by decide +kernel) hs⟩

/-- The caller clears its buffer for the next period before the thread comes to send. -/
def bufferReused : List Action :=
  Action.boot ++ [.radioSend 0 1 (some 0), .write 0 0, .thread .joined]

/-- The call was made with the byte 7, and the command is built from a zero. -/
theorem payload_overwritten :
    ∃ s, Transition.run (step true) (start fun _ => 7) bufferReused = some s ∧
      ¬ ∀ e ∈ s.handled, Faithful s.accepted e := by
  have hrun : (Transition.run (step true) (start fun _ => 7) bufferReused).map (fun s =>
      (s.accepted, s.handled)) = some ([⟨0, 1, [7]⟩], [.sent 0 0 1 [0] [0]]) := by
    decide +kernel
  obtain ⟨s, hs, hend⟩ := Option.map_eq_some_iff.mp hrun
  obtain ⟨haccepted, hhandled⟩ := Prod.mk.inj hend
  refine ⟨s, hs, fun h => ?_⟩
  have hsent := h (.sent 0 0 1 [0] [0]) (by rw [hhandled]; exact List.mem_singleton_self _)
  rw [haccepted] at hsent
  exact absurd hsent.2 (by decide)

end RadioSys

end ControlBoard
