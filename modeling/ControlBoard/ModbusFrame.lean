import ControlBoard.ModbusMaster
import Mathlib.Data.List.Basic

/-!
# Frames of Modbus RTU

A PDU goes over the line behind the address of the slave and before the two bytes of the checksum.
-/

namespace ControlBoard

/-- The frame of a PDU. -/
def encodeFrame (addr : UInt8) (pdu : List UInt8) : List UInt8 :=
  addr :: pdu ++ crcBytes (addr :: pdu)

/-- The address and the PDU of a frame that is long enough and has the checksum 0. -/
def decodeFrame : List UInt8 → Option (UInt8 × List UInt8)
  | [] => none
  | addr :: rest =>
    if 3 ≤ rest.length ∧ usMBCRC16 (addr :: rest) = 0 then some (addr, rest.take (rest.length - 2))
    else none

theorem length_crcBytes (frame : List UInt8) : (crcBytes frame).length = 2 := rfl

theorem length_encodeFrame (addr : UInt8) (pdu : List UInt8) :
    (encodeFrame addr pdu).length = pdu.length + 3 := by
  rw [encodeFrame, List.length_append, length_crcBytes, List.length_cons]

/-- A list with two last elements. -/
theorem exists_last_two {rest : List UInt8} (h : 2 ≤ rest.length) :
    ∃ lo hi, rest = rest.take (rest.length - 2) ++ [lo, hi] := by
  have hdrop : (rest.drop (rest.length - 2)).length = 2 := by
    rw [List.length_drop]
    omega
  obtain ⟨lo, hi, hlast⟩ := List.length_eq_two.mp hdrop
  refine ⟨lo, hi, ?_⟩
  rw [← hlast, List.take_append_drop]

/-- Decoding undoes encoding, and nothing else decodes. -/
theorem decodeFrame_eq_some {heard : List UInt8} {addr : UInt8} {pdu : List UInt8} :
    decodeFrame heard = some (addr, pdu) ↔ pdu ≠ [] ∧ heard = encodeFrame addr pdu := by
  constructor
  · intro h
    cases heard with
    | nil => cases h
    | cons a rest =>
      rw [decodeFrame] at h
      split at h
      · rename_i hvalid
        obtain ⟨lo, hi, hrest⟩ := exists_last_two (Nat.le_of_succ_le hvalid.1)
        have hpair := Option.some.inj h
        obtain rfl : a = addr := congrArg Prod.fst hpair
        have hpdu : rest.take (rest.length - 2) = pdu := congrArg Prod.snd hpair
        rw [hpdu] at hrest
        refine ⟨?_, ?_⟩
        · rintro rfl
          rw [List.nil_append] at hrest
          rw [hrest] at hvalid
          exact absurd hvalid.1 (Nat.not_succ_le_self 2)
        · have hcrc := hvalid.2
          rw [hrest, ← List.cons_append, usMBCRC16_append_eq_zero] at hcrc
          rw [encodeFrame, hrest, ← hcrc, List.cons_append]
      · cases h
  · rintro ⟨hne, rfl⟩
    have hlen : (pdu ++ crcBytes (addr :: pdu)).length = pdu.length + 2 := by
      rw [List.length_append, length_crcBytes]
    have hpos : 0 < pdu.length := List.length_pos_iff.mpr hne
    have hcrc : usMBCRC16 (addr :: (pdu ++ crcBytes (addr :: pdu))) = 0 := by
      rw [← List.cons_append]
      exact (usMBCRC16_append_eq_zero _ _ _).mpr rfl
    rw [encodeFrame, List.cons_append, decodeFrame, if_pos ⟨by omega, hcrc⟩, hlen,
      Nat.add_sub_cancel, List.take_left]

namespace MbMaster

variable {σ : Type} {s : MbMaster σ}

/-- The bytes in the receive buffer. -/
def heard (s : MbMaster σ) : List UInt8 :=
  Memory.read s.data.ucMasterRTURcvBuf 0 s.usMasterRcvBufferPos

theorem assert_true (s : MbMaster σ) : s.assert true = s := by
  simp [assert]

theorem heard_cons (h : 0 < s.usMasterRcvBufferPos) : s.heard =
    s.data.ucMasterRTURcvBuf 0 ::
      Memory.read s.data.ucMasterRTURcvBuf 1 (s.usMasterRcvBufferPos - 1) := by
  obtain ⟨n, hn⟩ := Nat.exists_eq_add_of_lt h
  have hone : Memory.read s.data.ucMasterRTURcvBuf 0 1 = [s.data.ucMasterRTURcvBuf 0] := rfl
  rw [heard, hn, Nat.zero_add, Nat.add_comm n 1, Memory.read_add, hone, Nat.add_sub_cancel_left]
  rfl

/-- The receiver hands on what is a frame, and nothing else. -/
theorem rtuReceive_eq (hpos : s.usMasterRcvBufferPos < mbSerPduSizeMax) : s.rtuReceive =
    match decodeFrame s.heard with
    | some (addr, pdu) =>
      (true, { s with ucRcvAddress := addr, usLength := pdu.length, ucMBFrame := .rcv })
    | none => (false, s) := by
  have hassert : s.assert (s.usMasterRcvBufferPos < mbSerPduSizeMax) = s := by
    rw [decide_eq_true hpos, assert_true]
  rw [rtuReceive, hassert]
  rcases Nat.eq_zero_or_pos s.usMasterRcvBufferPos with hzero | hsome
  · have hnil : s.heard = [] := by
      rw [heard, hzero]
      rfl
    have hshort : ¬ mbSerPduSizeMin ≤ s.usMasterRcvBufferPos := by
      rw [hzero]
      decide
    simp only [hnil, decodeFrame, hshort, false_and, if_false]
  · have hdecode : decodeFrame s.heard = _ := congrArg decodeFrame (heard_cons hsome)
    rw [decodeFrame, Memory.length_read, ← heard_cons hsome] at hdecode
    by_cases hvalid : mbSerPduSizeMin ≤ s.usMasterRcvBufferPos ∧ usMBCRC16 s.heard = 0
    · have hmin : 3 ≤ s.usMasterRcvBufferPos - 1 := Nat.le_sub_one_of_lt hvalid.1
      have hlen : ((Memory.read s.data.ucMasterRTURcvBuf 1 (s.usMasterRcvBufferPos - 1)).take
          (s.usMasterRcvBufferPos - 1 - 2)).length = s.usMasterRcvBufferPos - 3 := by
        rw [List.length_take, Memory.length_read]
        omega
      rw [hdecode.trans (if_pos ⟨hmin, hvalid.2⟩)]
      refine (if_pos hvalid).trans ?_
      simp only [hlen]
    · have hinvalid : ¬ (3 ≤ s.usMasterRcvBufferPos - 1 ∧ usMBCRC16 s.heard = 0) := fun h =>
        hvalid ⟨Nat.succ_le_of_lt (Nat.lt_of_le_pred hsome h.1), h.2⟩
      rw [hdecode.trans (if_neg hinvalid)]
      exact if_neg hvalid

/-! ## What is sent is what is received -/

/-- A frame is made in place, around the PDU that is in the buffer. -/
theorem read_frame (buf : Nat → UInt8) (addr : UInt8) (n : Nat) :
    Memory.read
      (Memory.write (Memory.write buf 0 [addr]) (1 + n)
        (crcBytes (Memory.read (Memory.write buf 0 [addr]) 0 (1 + n)))) 0 (1 + n + 2) =
      encodeFrame addr (Memory.read buf 1 n) := by
  have haddr : Memory.read (Memory.write buf 0 [addr]) 0 1 = [addr] :=
    Memory.read_write_same
  have hpdu : Memory.read (Memory.write buf 0 [addr]) (0 + 1) n = Memory.read buf 1 n :=
    Memory.read_write_disjoint (.inr (Nat.le_refl 1))
  have hfront : Memory.read (Memory.write buf 0 [addr]) 0 (1 + n) =
      addr :: Memory.read buf 1 n := by
    rw [Memory.read_add, haddr, hpdu]
    rfl
  have hcrc (mem : Nat → UInt8) (crc : List UInt8) (hlen : crc.length = 2) :
      Memory.read (Memory.write mem (1 + n) crc) (0 + (1 + n)) 2 = crc := by
    rw [Nat.zero_add, ← hlen]
    exact Memory.read_write_same
  rw [hfront, Memory.read_add, Memory.read_write_disjoint (.inl (Nat.zero_add _).le), hfront,
    hcrc _ _ rfl, encodeFrame]

theorem rtuSend_idle {addr : UInt8} {n : Nat} (hrcv : s.eRcvState = .rxIdle)
    (haddr : addr ≤ mbMasterTotalSlaveNum) (hlen : n + 3 ≤ mbPduSizeMax) : s.rtuSend addr n =
      { s with
        data := { s.data with
          ucMasterRTUSndBuf :=
            Memory.write (Memory.write s.data.ucMasterRTUSndBuf 0 [addr]) (1 + n)
              (crcBytes (Memory.read (Memory.write s.data.ucMasterRTUSndBuf 0 [addr]) 0 (1 + n))) }
        sndBufferCur := 0
        usMasterSndBufferCount := 1 + n + 2
        eSndState := .txXmit
        rxEnabled := false
        transStart := true } := by
  have hcount : 1 + n + 2 ≤ mbPduSizeMax := by omega
  simp only [rtuSend, if_neg (UInt8.not_lt.mpr haddr), hrcv, serialEnable, assert, hcount,
    decide_true, Bool.not_true, Bool.or_false]

theorem pdu_of_heard {addr : UInt8} {pdu : List UInt8} (h : s.heard = encodeFrame addr pdu) :
    Memory.read s.data.ucMasterRTURcvBuf 1 pdu.length = pdu := by
  have hlen : s.usMasterRcvBufferPos = 1 + (pdu.length + 2) := by
    have hsame := congrArg List.length h
    rw [heard, Memory.length_read, length_encodeFrame] at hsame
    omega
  have hfirst : Memory.read s.data.ucMasterRTURcvBuf 0 1 = [s.data.ucMasterRTURcvBuf 0] := rfl
  rw [heard, hlen, Memory.read_add, Memory.read_add, hfirst, encodeFrame, List.cons_append,
    List.cons_append, List.nil_append] at h
  exact List.append_inj_left (List.cons.inj h).2 (Memory.length_read ..)

/-- The bytes that are sent for an address and a PDU are received as these, and no others are. -/
theorem received_iff_sent {u : MbMaster σ} {addr : UInt8} {n : Nat} (hidle : u.eRcvState = .rxIdle)
    (haddr : addr ≤ mbMasterTotalSlaveNum) (hn : 0 < n) (hlen : n + 3 ≤ mbPduSizeMax)
    (hpos : s.usMasterRcvBufferPos < mbSerPduSizeMax) :
    (s.rtuReceive.1 = true ∧ s.rtuReceive.2.ucRcvAddress = addr ∧
        Memory.read s.data.ucMasterRTURcvBuf 1 s.rtuReceive.2.usLength =
          Memory.read u.data.ucMasterRTUSndBuf 1 n) ↔
      s.heard = Memory.read (u.rtuSend addr n).data.ucMasterRTUSndBuf 0
        (u.rtuSend addr n).usMasterSndBufferCount := by
  have hsent : Memory.read (u.rtuSend addr n).data.ucMasterRTUSndBuf 0
      (u.rtuSend addr n).usMasterSndBufferCount =
        encodeFrame addr (Memory.read u.data.ucMasterRTUSndBuf 1 n) := by
    rw [rtuSend_idle hidle haddr hlen]
    exact read_frame _ _ _
  have hsome : Memory.read u.data.ucMasterRTUSndBuf 1 n ≠ [] :=
    List.ne_nil_of_length_pos (by rwa [Memory.length_read])
  rw [hsent, rtuReceive_eq hpos]
  cases hdecode : decodeFrame s.heard with
  | none =>
    refine iff_of_false (fun h => Bool.false_ne_true h.1) fun hheard => ?_
    rw [decodeFrame_eq_some.mpr ⟨hsome, hheard⟩] at hdecode
    cases hdecode
  | some frame =>
    obtain ⟨addr', pdu⟩ := frame
    obtain ⟨-, hheard⟩ := decodeFrame_eq_some.mp hdecode
    have hread : Memory.read s.data.ucMasterRTURcvBuf 1 pdu.length = pdu := pdu_of_heard hheard
    dsimp only
    rw [hread]
    constructor
    · rintro ⟨-, rfl, rfl⟩
      exact hheard
    · intro h
      have hpair := decodeFrame_eq_some.mpr ⟨hsome, h⟩
      rw [hdecode, Option.some.injEq, Prod.mk.injEq] at hpair
      exact ⟨rfl, hpair⟩

/-- A reply with the value of one register. -/
theorem received_iff_sent_sample :
    ∃ s : MbMaster Unit, s.heard = encodeFrame 1 [3, 2, 0, 7] ∧ s.rtuReceive.1 = true ∧
      s.rtuReceive.2.ucRcvAddress = 1 ∧
      Memory.read s.data.ucMasterRTURcvBuf 1 s.rtuReceive.2.usLength = [3, 2, 0, 7] := by
  have hheard : { start 9600 0 () with
      data := ⟨fun _ => 0, Memory.write (fun _ => 0) 0 (encodeFrame 1 [3, 2, 0, 7]), 0, ()⟩
      usMasterRcvBufferPos := 7 }.heard = encodeFrame 1 [3, 2, 0, 7] := by
    decide +kernel
  have hsent : Memory.read
      ({ start 9600 0 () with
        data := ⟨Memory.write (fun _ => 0) 1 [3, 2, 0, 7], fun _ => 0, 0, ()⟩
        eRcvState := .rxIdle }.rtuSend 1 4).data.ucMasterRTUSndBuf 0 7 =
        encodeFrame 1 [3, 2, 0, 7] := by
    decide +kernel
  have hreceived := (received_iff_sent
    (u := { start 9600 0 () with
      data := ⟨Memory.write (fun _ => 0) 1 [3, 2, 0, 7], fun _ => 0, 0, ()⟩
      eRcvState := .rxIdle })
    (n := 4) rfl (show (1 : UInt8) ≤ mbMasterTotalSlaveNum by decide) (by decide) (by decide)
    (by decide)).mpr (hheard.trans hsent.symm)
  exact ⟨_, hheard, hreceived.1, hreceived.2.1, hreceived.2.2.trans (by decide)⟩

end MbMaster

end ControlBoard
