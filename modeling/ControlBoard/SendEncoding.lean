import ControlBoard.AtOutput
import ControlBoard.Lib.Hex
import ControlBoard.SendPayload

/-!
# A send from the bytes to the device

`radio_send` accepts fewer than 50 bytes, and `send_buf` of the AT client has room for 127
characters: the name of the command and two digits a byte fit. The command is directive-free,
so the characters on the wire are the digits of the bytes.
-/

namespace ControlBoard

/-- The command for some bytes. -/
def sendHexCommand (data : List UInt8) : List UInt8 := ascii "AT+SENDHEX=" ++ Hex.encode data

/-! ## The text -/

/-- The two additions of `byte_2_hexstr` give the digits. -/
theorem hexDigit_eq_digit (b : UInt8) : hexDigit (b >>> 4) = Hex.digit (b.toNat / 16) ∧
    hexDigit (b &&& 0x0f) = Hex.digit (b.toNat % 16) := by
  obtain ⟨b⟩ := b
  revert b
  decide +kernel

theorem hexText_eq_encode (data : List UInt8) : hexText data = Hex.encode data := by
  induction data with
  | nil => rfl
  | cons b data ih =>
    obtain ⟨hhigh, hlow⟩ := hexDigit_eq_digit b
    rw [hexText, List.flatMap_cons, hhigh, hlow, Hex.encode_cons, ← ih]
    rfl

theorem zero_notMem_encode (bs : List UInt8) : 0 ∉ Hex.encode bs := by
  rw [← hexText_eq_encode]
  exact zero_notMem_hexText bs

theorem length_sendHexCommand (data : List UInt8) :
    (sendHexCommand data).length = 11 + 2 * data.length := by
  rw [sendHexCommand, List.length_append, Hex.length_encode]
  rfl

/-- No character of the command is a percent sign. -/
theorem percent_notMem_sendHexCommand (data : List UInt8) : 37 ∉ sendHexCommand data := by
  intro h
  rcases List.mem_append.mp h with h | h
  · exact absurd h (by decide)
  · exact absurd (Hex.mem_digits_of_mem_encode h) (by decide)

theorem atRadioSendHex_eq_sendHexCommand (data : List UInt8) :
    atRadioSendHex data = sendCommand 64 (sendHexCommand data) := by
  rw [atRadioSendHex_eq, hexText_eq_encode]
  rfl

/-- `str` after `byte_2_hexstr`: the digits and zeros up to the end of the array. -/
theorem byte2Hexstr_array (data : List UInt8) : byte2Hexstr data (charArray 256 []) =
    Hex.encode data ++ List.replicate (256 - 2 * data.length) 0 := by
  rw [byte2Hexstr_eq, hexText_eq_encode, charArray, List.nil_append, List.length_nil, Nat.sub_zero,
    List.drop_replicate]

/-! ## Where a send waits -/

/-- `at_radio_send_hex` from its `at_exec_cmd` on. -/
def awaitReply (resp : Nat) (cmd : List UInt8) : Prog Io AtError := do
  let re ← atExecCmd resp cmd
  if re.result.code = -1 then return .sendError
  if re.result.code = -2 then return .sendTimeout
  atDeleteResp resp
  return .ok

/-- The `at_create_resp` of `at_radio_send_hex`. -/
def sendHexResp : IoOp := .atCreateResp 64 0 (rtTickFromMillisecond 5000)

/-- With a response object the command is executed, and otherwise nothing is. -/
theorem settle_sendHex (answer : Answers Io) (data : List UInt8) :
    (atRadioSendHex data).settle IoOp.blocks answer =
      match answer sendHexResp with
      | none => .ret .creatResp
      | some resp => awaitReply resp (sendHexCommand data) := by
  rw [atRadioSendHex_eq_sendHexCommand]
  simp only [sendCommand, atCreateResp, Prog.ask_bind, Prog.settle, IoOp.blocks, sendHexResp]
  cases answer (.atCreateResp 64 0 (rtTickFromMillisecond 5000)) with
  | none => rfl
  | some resp => rfl

namespace RadioSys

variable {fal : Bool} {env : Env} {s s' : RadioSys} {a : Action}

theorem loopHead_sending (s : RadioSys) : (loopHead fal env s).pc.sending = none := by
  unfold loopHead
  split
  · cases (raidoJoinConfigJoin fal env.useInfo none).settle IoOp.blocks env.join with
    | ret e => rfl
    | call op k => rfl
  · rfl

/-- Once `at_radio_send_hex` has returned, the thread does not wait in it. -/
theorem commit_sent_ret_sending (t : RadioSys) (b : Nat) (e : AtError) :
    (t.commit (sent fal env b s (.ret e))).pc.sending = none := by
  rcases s.slot_cases with hnull | ⟨b', hbuf, hdead⟩ | ⟨b', d, hslot⟩
  · rw [sent, rtFree_null hnull]
    exact loopHead_sending _
  · rw [sent, rtFree_dead hbuf hdead]
    rfl
  · rw [sent, rtFree_live hslot]
    exact loopHead_sending _

/-! ### What was handled before -/

theorem joined_handled (p : Prog Io AtError) : (s.joined p).handled = s.handled := by
  cases p with
  | ret e => rfl
  | call op k => rfl

theorem loopHead_handled (s : RadioSys) : (loopHead fal env s).handled = s.handled := by
  unfold loopHead
  split
  · exact joined_handled _
  · rfl

theorem firstQueried_handled (p : Prog Io (Option (AtError × AtRadioStatue))) :
    (firstQueried fal env s p).handled = s.handled := by
  cases p with
  | ret r =>
    cases r with
    | none => rfl
    | some r => exact loopHead_handled _
  | call op k => rfl

theorem queried_handled (event : BitVec 32) (p : Prog Io (Option (AtError × AtRadioStatue))) :
    (s.queried event p).handled = s.handled := by
  cases p with
  | ret r =>
    cases r with
    | none => rfl
    | some r => rfl
  | call op k => rfl

theorem arrive_handled (r : BitVec 32 × EventObject.Waiter 32) :
    (s.arrive r).handled = s.handled := by
  obtain ⟨left, waiter⟩ := r
  cases waiter with
  | away => rfl
  | suspended => rfl
  | resumed event => rfl

theorem toBranch_handled (h : s.toBranch env = some s') : s'.handled = s.handled := by
  unfold toBranch at h
  split at h
  · cases h
    rw [received]
    split
    · exact queried_handled _ _
    · rfl
  · cases h
    exact queried_handled _ _
  · cases h

/-- What follows the command adds nothing. -/
theorem commit_sent_handled (b : Nat) (p : Prog Io AtError) :
    (s.commit (sent fal env b s p)).handled = s.handled := by
  cases p with
  | call op k => rfl
  | ret e =>
    rcases s.slot_cases with hnull | ⟨b', hbuf, hdead⟩ | ⟨b', d, hslot⟩
    · rw [sent, rtFree_null hnull]
      exact loopHead_handled _
    · rw [sent, rtFree_dead hbuf hdead]
      rfl
    · rw [sent, rtFree_live hslot]
      exact loopHead_handled _

/-- A step that handles a send goes into `at_radio_send_hex` with the bytes of the slot. -/
theorem threadStep_sends (h : threadStep fal env s = some s') {call ptr : Nat} {size : UInt8}
    {bytes : List UInt8} {handling : List Nat}
    (hsent : s'.handled = s.handled ++ [.sent call ptr size bytes handling]) :
    ∃ (t u : RadioSys) (b : Nat), s' = t.commit (sent fal env b u
      ((atRadioSendHex bytes).settle IoOp.blocks env.send)) := by
  have hsame {t : RadioSys} (ht : t.handled = s.handled) : t ≠ s' := by
    rintro rfl
    simp [ht] at hsent
  have hloop (hmap : (toBranch env s).map (finish fal env) = some s') :
      ∃ (t u : RadioSys) (b : Nat), s' = t.commit (sent fal env b u
        ((atRadioSendHex bytes).settle IoOp.blocks env.send)) := by
    obtain ⟨t, ht, hfinish⟩ := Option.map_eq_some_iff.mp hmap
    have hbefore := toBranch_handled ht
    unfold finish at hfinish
    split at hfinish
    · rename_i event hpc
      unfold handleSend at hfinish
      split at hfinish
      · split at hfinish
        · cases hslot : t.slot with
          | none =>
            rw [hslot] at hfinish
            exact absurd hfinish (hsame hbefore)
          | some bd =>
            obtain ⟨b, d⟩ := bd
            rw [hslot] at hfinish
            -- the bytes that were read are those of the entry
            have hread : (t.readSlot b d).handled = s'.handled := by
              rw [← hfinish]
              simp only
              rw [commit_sent_of_slot (s := t.readSlot b d) hslot]
              exact (commit_sent_handled b _).symm
            rw [hsent, readSlot_handled, hbefore, List.append_cancel_left_eq, List.cons.injEq,
              Handled.sent.injEq] at hread
            obtain ⟨⟨-, -, -, hbytes, -⟩, -⟩ := hread
            rw [← hbytes]
            exact ⟨t, t.readSlot b d, b, hfinish.symm⟩
        · -- a refusal is another entry
          have hrefused : (loopHead fal env t.refuse).handled = s'.handled :=
            congrArg RadioSys.handled hfinish
          rw [loopHead_handled, hsent, refuse_handled, hbefore, List.append_cancel_left_eq,
            List.cons.injEq] at hrefused
          cases hrefused.1
      · exact absurd hfinish (hsame ((loopHead_handled t).trans hbefore))
    · exact absurd hfinish (hsame hbefore)
  unfold threadStep at h
  split at h
  · exact absurd (Option.some_inj.mp h) (hsame (firstQueried_handled _))
  · exact absurd (Option.some_inj.mp h) (hsame (firstQueried_handled _))
  · exact absurd (Option.some_inj.mp h) (hsame (joined_handled _))
  · exact absurd (Option.some_inj.mp h) (hsame rfl)
  · exact absurd (Option.some_inj.mp h) (hsame (arrive_handled _))
  · cases h
  · exact hloop h
  · exact hloop h
  · exact absurd (Option.some_inj.mp h) (hsame (commit_sent_handled _ _))
  · cases h
  · cases h

/-! ## What the thread is given -/

/-- A block of `radio_send`, and what was sent from one, holds less than 50 bytes. -/
structure SmallPayloads (s : RadioSys) : Prop where
  heap : ∀ b d, s.heap b = some d → d.size.toNat < 50
  handled : ∀ call ptr size bytes handling, .sent call ptr size bytes handling ∈ s.handled →
    bytes.length < 50

theorem smallPayloads_start (memory : Nat → UInt8) : SmallPayloads (start memory) where
  heap := nofun
  handled := nofun

theorem SmallPayloads.release (h : SmallPayloads s) (b : Nat) (d : DataS) (passed : Nat) :
    SmallPayloads (s.release b d passed) := by
  refine ⟨?_, h.handled⟩
  intro b' d' hd
  by_cases hb : b' = b
  · simp [hb] at hd
  · rw [release_heap, Function.update_of_ne hb] at hd
    exact h.heap b' d' hd

theorem SmallPayloads.move {Q : RadioSys → Prop} (h : SmallPayloads s) (hmove : Move Q s s') :
    SmallPayloads s' := by
  cases hmove with
  | rest pc statue timer hfrom hto => exact ⟨h.heap, h.handled⟩
  | take hpc hevent hleft => exact ⟨h.heap, h.handled⟩
  | hold pc statue hfrom hto => exact ⟨h.heap, h.handled⟩
  | refuse hpc hQ hrefused =>
    refine ⟨h.heap, ?_⟩
    intro call ptr size bytes handling hsent
    rcases List.mem_append.mp hsent with hsent | hsent
    · exact h.handled call ptr size bytes handling hsent
    · cases List.mem_singleton.mp hsent
  | @read b d p hpc hQ hallowed hslot =>
    refine ⟨h.heap, ?_⟩
    intro call ptr size bytes handling hsent
    rcases List.mem_append.mp hsent with hsent | hsent
    · exact h.handled call ptr size bytes handling hsent
    · cases List.mem_singleton.mp hsent
      rw [Memory.length_read]
      exact h.heap b d (slot_eq_some.mp hslot).2
  | deadRead hpc hQ hallowed hslot => exact ⟨h.heap, h.handled⟩
  | send p hpc => exact ⟨h.heap, h.handled⟩
  | @free passed b d hpc hslot =>
    have hrelease := h.release b d passed
    exact ⟨hrelease.heap, hrelease.handled⟩
  | freeNull hpc hnull => exact ⟨h.heap, h.handled⟩
  | deadFree hpc hbuf hdead => exact ⟨h.heap, h.handled⟩
  | overrun hpc => exact ⟨h.heap, h.handled⟩

theorem SmallPayloads.post (h : SmallPayloads s) (data : Nat) {size : UInt8} (hsize : size < 50)
    (b : Nat) : SmallPayloads ((s.post data size b).raise radioEventSend) := by
  refine ⟨?_, h.handled⟩
  intro b' d hd
  by_cases hb : b' = b
  · rw [hb, raise_heap, post_heap, Function.update_self] at hd
    cases hd
    exact UInt8.lt_iff_toNat_lt.mp hsize
  · rw [raise_heap, post_heap, Function.update_of_ne hb] at hd
    exact h.heap b' d hd

theorem SmallPayloads.step (h : SmallPayloads s) (hstep : step fal s a = some s') :
    SmallPayloads s' := by
  obtain ⟨-, ⟨data, size, block, -, -, rfl⟩ | ⟨data, size, -, -, rfl⟩ |
    ⟨data, size, b, -, hsize, -, hsend⟩ | ⟨-, hsend⟩ | ⟨addr, value, -, rfl⟩ |
    ⟨env, -, hthread⟩⟩ := step_cases (Q := fun _ => True) hstep
  · exact h
  · exact ⟨h.heap, h.handled⟩
  · exact moves_preserve (fun _ _ h => h.move) (h.post data hsize b) hsend
  · have htimer : SmallPayloads (s.raise radioEventCheckStatue) := ⟨h.heap, h.handled⟩
    exact moves_preserve (fun _ _ h => h.move) htimer hsend
  · exact ⟨h.heap, h.handled⟩
  · exact threadStep_preserves (Q := fun _ => True) (fun _ _ h => h.move) h hthread
      fun _ _ _ => trivial

/-- What the thread hands to `at_radio_send_hex` has a length that `radio_send` accepts. -/
theorem handled_length_lt {memory : Nat → UInt8} {actions : List Action}
    (hrun : Transition.run (step fal) (start memory) actions = some s) {call ptr : Nat}
    {size : UInt8} {bytes : List UInt8} {handling : List Nat}
    (hsent : .sent call ptr size bytes handling ∈ s.handled) : bytes.length < 50 :=
  have h : SmallPayloads s :=
    Transition.run_invariant (fun _ _ _ => SmallPayloads.step) (smallPayloads_start memory) hrun
  h.handled call ptr size bytes handling hsent

end RadioSys

/-! ## From end to end -/

/-- The way of some bytes to the device: the text in `str`, in `sendStr` and in `send_buf`, and the
characters written. -/
structure SendEncoding (convert : Format.Convert) (data : List UInt8) : Prop where
  str : Holds 256 (byte2Hexstr data (charArray 256 [])) (Hex.encode data)
  sendStr : Holds 512
    (strcatM (charArray 512 (ascii "AT+SENDHEX=")) (byte2Hexstr data (charArray 256 [])))
    (sendHexCommand data)
  plain : 37 ∉ sendHexCommand data
  written : ∀ u, ∃ u', atExecOutput convert (sendHexCommand data) u = some u' ∧
    Verbatim (sendHexCommand data) u u'
  decodes : Hex.decode (Hex.encode data) = some data
  injective : ∀ data', sendHexCommand data' = sendHexCommand data → data' = data

theorem sendEncoding_of_lt (convert : Format.Convert) {data : List UInt8} (h : data.length < 50) :
    SendEncoding convert data := by
  have hstr : ∃ rest, byte2Hexstr data (charArray 256 []) = Hex.encode data ++ 0 :: rest := by
    rw [byte2Hexstr_array, show 256 - 2 * data.length = 255 - 2 * data.length + 1 by omega]
    exact ⟨_, rfl⟩
  have hfits : (sendHexCommand data).length < atCmdMaxLen := by
    rw [length_sendHexCommand, atCmdMaxLen]
    omega
  refine
    { str := ⟨?_, hstr⟩
      sendStr := ?_
      plain := percent_notMem_sendHexCommand data
      written := fun u => (verbatim_iff hfits u).mpr (percent_notMem_sendHexCommand data)
      decodes := Hex.decode_encode data
      injective := ?_ }
  · rw [byte2Hexstr_array, List.length_append, Hex.length_encode, List.length_replicate]
    omega
  · obtain ⟨rest, hrest⟩ := hstr
    rw [hrest]
    apply holds_strcatM (by decide) (zero_notMem_encode data)
    rw [Hex.length_encode, ascii]
    simp only [List.length_map, String.length_toList]
    have hname : "AT+SENDHEX=".length = 11 := rfl
    omega
  · intro data' heq
    exact Hex.encode_injective (List.append_cancel_left heq)

/-- Behind the handling of a send the thread waits for the reply to the command of its bytes, or,
if there was no response object, is not in `at_radio_send_hex` any more. -/
def RadioSys.Executes (s : RadioSys) (data : List UInt8) : Option Nat → Prop
  | some resp => ∃ block, s.pc = .send block (awaitReply resp (sendHexCommand data))
  | none => s.pc.sending = none

/-- Whatever the thread handles as a send in a run has a length that `radio_send` accepts, and is
written to the device as `AT+SENDHEX=`, two uppercase digits a byte and a line end, if there is a
response object for the command. -/
theorem send_encoded (convert : Format.Convert) {fal : Bool} {memory : Nat → UInt8}
    {actions : List Action} {s s' : RadioSys} {env : Env}
    (hrun : Transition.run (RadioSys.step fal) (RadioSys.start memory) actions = some s)
    (hstep : RadioSys.step fal s (.thread env) = some s') {call ptr : Nat} {size : UInt8}
    {data : List UInt8} {handling : List Nat}
    (hsent : s'.handled = s.handled ++ [.sent call ptr size data handling]) :
    data.length < 50 ∧ SendEncoding convert data ∧ s'.Executes data (env.send sendHexResp) := by
  have hrun' : Transition.run (RadioSys.step fal) (RadioSys.start memory)
      (actions ++ [.thread env]) = some s' :=
    Transition.run_append hrun (Transition.run_cons.mpr ⟨s', hstep, rfl⟩)
  have hlen : data.length < 50 := RadioSys.handled_length_lt hrun'
    (by rw [hsent]; exact List.mem_append_right _ (List.mem_singleton_self _))
  have hthread : RadioSys.threadStep fal env s = some s' := by
    unfold RadioSys.step at hstep
    split at hstep
    · cases hstep
    · exact hstep
  refine ⟨hlen, sendEncoding_of_lt convert hlen, ?_⟩
  obtain ⟨t, u, b, rfl⟩ := RadioSys.threadStep_sends hthread hsent
  rw [settle_sendHex]
  cases env.send sendHexResp with
  | none => exact RadioSys.commit_sent_ret_sending t b .creatResp
  | some resp => exact ⟨b, rfl⟩

/-- A call with the twelve bytes from address 0 on; the thread is handed its event. -/
def callTwelve : List Action := Action.boot ++ [.radioSend 0 12 (some 0)]

theorem send_encoded_twelve :
    ∃ s s', Transition.run (RadioSys.step true) (RadioSys.start fun i => UInt8.ofNat i)
        callTwelve = some s ∧
      RadioSys.step true s (.thread .joined) = some s' ∧
      [0, 1, 2, 3, 4, 5, 6, 7, 8, 9, 10, 11].length < 50 ∧
      SendEncoding (fun _ _ => []) [0, 1, 2, 3, 4, 5, 6, 7, 8, 9, 10, 11] ∧
      s'.Executes [0, 1, 2, 3, 4, 5, 6, 7, 8, 9, 10, 11] (some 0) := by
  have hrun : ((Transition.run (RadioSys.step true) (RadioSys.start fun i => UInt8.ofNat i)
      callTwelve).bind fun s => (RadioSys.step true s (.thread .joined)).map fun s' =>
        (s.handled, s'.handled)) =
      some ([], [.sent 0 0 12 [0, 1, 2, 3, 4, 5, 6, 7, 8, 9, 10, 11] [0]]) := by
    decide +kernel
  obtain ⟨s, hs, hnext⟩ := Option.bind_eq_some_iff.mp hrun
  obtain ⟨s', hs', hend⟩ := Option.map_eq_some_iff.mp hnext
  obtain ⟨hbefore, hafter⟩ := Prod.mk.inj hend
  exact ⟨s, s', hs, hs', send_encoded _ hs hs' (hafter.trans (by rw [hbefore]; rfl))⟩

/-- A module in the net, with no memory for a response object at the next send. -/
def Env.noResponse : Env :=
  { Env.joined with
    send := fun
      | .atCreateResp .. => none
      | op => answers ⟨.success, [], 0⟩ op }

/-- The send is handled, and no command is executed for it. -/
theorem send_not_written :
    ∃ s s', Transition.run (RadioSys.step true) (RadioSys.start fun i => UInt8.ofNat i)
        callTwelve = some s ∧
      RadioSys.step true s (.thread .noResponse) = some s' ∧
      s'.handled = s.handled ++ [.sent 0 0 12 [0, 1, 2, 3, 4, 5, 6, 7, 8, 9, 10, 11] [0]] ∧
      ¬ ∃ resp, s'.Executes [0, 1, 2, 3, 4, 5, 6, 7, 8, 9, 10, 11] (some resp) := by
  have hrun : ((Transition.run (RadioSys.step true) (RadioSys.start fun i => UInt8.ofNat i)
      callTwelve).bind fun s => (RadioSys.step true s (.thread .noResponse)).map fun s' =>
        (s.handled, s'.handled, s'.pc.sending)) =
      some ([], [.sent 0 0 12 [0, 1, 2, 3, 4, 5, 6, 7, 8, 9, 10, 11] [0]], none) := by
    decide +kernel
  obtain ⟨s, hs, hnext⟩ := Option.bind_eq_some_iff.mp hrun
  obtain ⟨s', hs', hend⟩ := Option.map_eq_some_iff.mp hnext
  simp only [Prod.mk.injEq] at hend
  obtain ⟨hbefore, hafter, hsending⟩ := hend
  refine ⟨s, s', hs, hs', by rw [hbefore, hafter]; rfl, ?_⟩
  rintro ⟨resp, block, hpc⟩
  rw [hpc] at hsending
  cases hsending

example : sendHexCommand [1, 0xAF, 35] = ascii "AT+SENDHEX=01AF23" := by decide

end ControlBoard
