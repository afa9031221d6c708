import ControlBoard.NodeInfoStore

/-!
# Saving over an earlier configuration

`save_node_info` erases the partition, waits, and writes the new info in place; it looks at
none of the results. So the old configuration is gone before the new one is there, and the call
returns 0 whatever became of it.
-/

namespace ControlBoard

/-- `fal_init` has read the table of `fal_cfg.h`, or it has failed. -/
def Board.FalTable (b : Board) : Prop := b.flash.table = [eeprom, eeprom2] ∨ b.flash.table = []

instance (b : Board) : Decidable b.FalTable := inferInstanceAs (Decidable (_ ∨ _))

namespace Board

/-- The flash device works for the erase of the next save. -/
def Erases (b : Board) : Prop := b.script.flash 0 = true

/-- The flash device works for the write behind it. -/
def Writes (b : Board) : Prop := b.script.flash 1 = true

instance (b : Board) : Decidable b.Erases := inferInstanceAs (Decidable (_ = _))
instance (b : Board) : Decidable b.Writes := inferInstanceAs (Decidable (_ = _))

/-- A flash operation that fails leaves the partition as it was. -/
def failFlash (b : Board) : Board := { b with script := b.script.dropFlash }

/-- Behind the `fal_partition_erase` of a save. -/
def tryErase (b : Board) : Board :=
  if b.Erases then b.eraseNodeInfo else b.failFlash

/-- Behind its `fal_partition_write`. -/
def tryWrite (b : Board) (info : RadioInfo) : Board :=
  if b.script.flash 0 = true then b.writeNodeInfo info else b.failFlash

@[simp] theorem nodeInfo_failFlash (b : Board) : b.failFlash.nodeInfo = b.nodeInfo := rfl

theorem table_tryErase (b : Board) : b.tryErase.flash.table = b.flash.table := by
  unfold tryErase
  split
  · rfl
  · rfl

theorem flash_tryErase (b : Board) : b.tryErase.script.flash 0 = b.script.flash 1 := by
  unfold tryErase
  split
  · rfl
  · rfl

theorem nodeInfo_tryErase (b : Board) : b.tryErase.nodeInfo =
    if b.Erases then List.replicate RadioInfo.size b.flash.erased else b.nodeInfo := by
  by_cases h : b.Erases
  · rw [tryErase, if_pos h, if_pos h, nodeInfo_eraseNodeInfo]
  · rw [tryErase, if_neg h, if_neg h, nodeInfo_failFlash]

theorem nodeInfo_tryWrite (b : Board) (info : RadioInfo) : (b.tryErase.tryWrite info).nodeInfo =
    if b.Writes then info.toBytes else b.tryErase.nodeInfo := by
  rw [tryWrite, flash_tryErase]
  by_cases h : b.Writes
  · rw [if_pos h]
    unfold Writes at h
    rw [if_pos h, nodeInfo_writeNodeInfo]
  · rw [if_neg h]
    unfold Writes at h
    rw [if_neg h, nodeInfo_failFlash]

section Found

variable {b : Board} (h : b.flash.table = [eeprom, eeprom2])
include h

theorem find_of_table : b.flash.find (ascii "eeprom2") = some eeprom2 := by
  rw [Flash.find, h]
  decide

theorem partition_of_table : b.partition = eeprom2 := by
  simp [partition, find_of_table h]

theorem handler_erase_snd :
    (handler (.falPartitionErase 0 RadioInfo.size) b).2 = b.tryErase := by
  have hbound : ¬ 0 + RadioInfo.size > eeprom2.len := by decide
  by_cases he : b.Erases
  · rw [tryErase, if_pos he]
    unfold Erases at he
    simp only [handler, Flash.partitionErase, partition_of_table h, if_neg hbound, if_pos he]
    rfl
  · rw [tryErase, if_neg he]
    unfold Erases at he
    simp only [handler, Flash.partitionErase, partition_of_table h, if_neg hbound, if_neg he]
    rfl

theorem handler_write_snd (info : RadioInfo) :
    (handler (.falPartitionWrite 0 info.toBytes) b).2 = b.tryWrite info := by
  have hbound : ¬ 0 + RadioInfo.size > eeprom2.len := by decide
  simp only [handler, Flash.partitionWrite, partition_of_table h, RadioInfo.length_toBytes,
    if_neg hbound, tryWrite]
  split
  · rfl
  · rfl

end Found

end Board

/-- Everything a save can do: without a partition nothing, and otherwise its two operations
with the result 0. The states it can be cut off in are those before each of its calls. -/
theorem saveNodeInfo_cases (b : Board) (info : RadioInfo) (h : b.FalTable) :
    (b.flash.table = [] ∧ (saveNodeInfo info).run Board.handler b = (1, b) ∧
      (saveNodeInfo info).cuts Board.handler b = [b]) ∨
    (b.flash.table = [eeprom, eeprom2] ∧
      (saveNodeInfo info).run Board.handler b = (0, b.tryErase.tryWrite info) ∧
      (saveNodeInfo info).cuts Board.handler b = [b, b, b.tryErase, b.tryErase]) := by
  have hfind : (Board.handler (.falPartitionFind (ascii "eeprom2")) b).2 = b := rfl
  rcases h with h | h
  · right
    have hfound : (Board.handler (.falPartitionFind (ascii "eeprom2")) b).1 = true := by
      simp [Board.handler, Board.find_of_table h]
    have h' : b.tryErase.flash.table = [eeprom, eeprom2] := b.table_tryErase.trans h
    simp only [saveNodeInfo, falPartitionFind, falPartitionErase, rtThreadMdelay,
      falPartitionWrite, Prog.ask_bind, Prog.run_call, Prog.cuts_call, hfind, hfound, if_true,
      Board.handler_erase_snd h, Board.handler_rtThreadMdelay, Board.handler_write_snd h',
      Prog.pure_eq, Prog.run_ret, Prog.cuts_ret]
    exact ⟨h, trivial, trivial⟩
  · left
    have hmissing : (Board.handler (.falPartitionFind (ascii "eeprom2")) b).1 = false := by
      simp [Board.handler, Flash.find, h]
    simp only [saveNodeInfo, falPartitionFind, Prog.ask_bind, Prog.run_call, Prog.cuts_call, hfind,
      hmissing]
    exact ⟨h, rfl, rfl⟩

/-- The partition holds one of two infos. -/
def Board.HoldsEither (b : Board) (old new : RadioInfo) : Prop :=
  b.nodeInfo = old.toBytes ∨ b.nodeInfo = new.toBytes

/-- A save over `old` that tells the truth and loses nothing: it returns 0 only if the new info
is in flash, and where it returns an error or is cut off, one of the two is. -/
structure SavesSafely (b : Board) (old new : RadioInfo) : Prop where
  truthful : ((saveNodeInfo new).run Board.handler b).1 = 0 →
    ((saveNodeInfo new).run Board.handler b).2.nodeInfo = new.toBytes
  failed : ((saveNodeInfo new).run Board.handler b).1 ≠ 0 →
    ((saveNodeInfo new).run Board.handler b).2.HoldsEither old new
  powerLoss : ∀ c ∈ (saveNodeInfo new).cuts Board.handler b, c.HoldsEither old new

/-- The bytes of an erased partition, as an info. No accepted arguments have them. -/
def RadioInfo.Erased (info : RadioInfo) (b : Board) : Prop :=
  info.toBytes = List.replicate size b.flash.erased

theorem RadioInfo.toBytes_inj {info info' : RadioInfo} :
    info.toBytes = info'.toBytes ↔ info = info' := by
  constructor
  · intro h
    rw [← ofBytes_toBytes info info.length_toBytes, ← ofBytes_toBytes info' info'.length_toBytes]
    simp only [h]
  · intro h
    rw [h]

/-- With a partition, what counts is what is in it behind the erase and at the end. -/
theorem savesSafely_found {b : Board} {old new : RadioInfo} (hold : b.nodeInfo = old.toBytes)
    (hrun : (saveNodeInfo new).run Board.handler b = (0, b.tryErase.tryWrite new))
    (hcuts : (saveNodeInfo new).cuts Board.handler b = [b, b, b.tryErase, b.tryErase]) :
    SavesSafely b old new ↔
      (b.tryErase.tryWrite new).nodeInfo = new.toBytes ∧ b.tryErase.HoldsEither old new := by
  constructor
  · intro h
    have hend := h.truthful
    rw [hrun] at hend
    exact ⟨hend rfl, h.powerLoss b.tryErase (by simp [hcuts])⟩
  · intro h
    obtain ⟨hend, herased⟩ := h
    refine ⟨?_, ?_, ?_⟩
    · rw [hrun]
      exact fun _ => hend
    · rw [hrun]
      exact fun h => absurd rfl h
    · rw [hcuts]
      intro c hc
      simp only [List.mem_cons, List.not_mem_nil, or_false] at hc
      rcases hc with rfl | rfl | rfl | rfl
      · exact .inl hold
      · exact .inl hold
      · exact herased
      · exact herased

/-- A save is safe exactly if there is no partition; or it is not erased, and then either
written or not to be changed; or the erased bytes are themselves one of the infos. -/
theorem saveNodeInfo_safe_iff {b : Board} (htable : b.FalTable) {old : RadioInfo}
    (hold : b.nodeInfo = old.toBytes) (new : RadioInfo) :
    SavesSafely b old new ↔
      b.flash.table = [] ∨ (¬ b.Erases ∧ (b.Writes ∨ old = new)) ∨
        (b.Erases ∧ (new.Erased b ∨ (b.Writes ∧ old.Erased b))) := by
  rcases saveNodeInfo_cases b new htable with ⟨hempty, hrun, hcuts⟩ | ⟨hfull, hrun, hcuts⟩
  · refine iff_of_true ⟨?_, ?_, ?_⟩ (.inl hempty)
    · rw [hrun]
      exact fun h => absurd h Int.one_ne_zero
    · rw [hrun]
      exact fun _ => .inl hold
    · rw [hcuts]
      intro c hc
      rw [List.mem_singleton.mp hc]
      exact .inl hold
  · have hsome : ¬ b.flash.table = [] := by simp [hfull]
    rw [or_iff_right hsome, savesSafely_found hold hrun hcuts, Board.nodeInfo_tryWrite,
      Board.HoldsEither, Board.nodeInfo_tryErase, hold]
    by_cases he : b.Erases
    · by_cases hw : b.Writes
      · simp [he, hw, RadioInfo.Erased, eq_comm, or_comm]
      · simp [he, hw, RadioInfo.Erased, eq_comm]
        tauto
    · by_cases hw : b.Writes
      · simp [he, hw]
      · simp [he, hw, RadioInfo.toBytes_inj]

/-- A configured board whose next erase fails. -/
def Board.worn : Board :=
  { Board.factory.writeNodeInfo OtaaArgs.sample.info with
    script := { factory.script with flash := fun n => n ≠ 0 } }

/-- The arguments for another node. -/
def OtaaArgs.other : OtaaArgs :=
  { OtaaArgs.sample with
    deveui := ⟨ascii "00AA11BB22CC33DD", by decide⟩
    deveui_length := by decide }

theorem saveNodeInfo_safe_worn :
    SavesSafely Board.worn OtaaArgs.sample.info OtaaArgs.other.info ↔
      Board.worn.flash.table = [] ∨
        (¬ Board.worn.Erases ∧ (Board.worn.Writes ∨ OtaaArgs.sample.info = OtaaArgs.other.info)) ∨
        (Board.worn.Erases ∧ (OtaaArgs.other.info.Erased Board.worn ∨
          (Board.worn.Writes ∧ OtaaArgs.sample.info.Erased Board.worn))) := by
  have hold : Board.worn.nodeInfo = OtaaArgs.sample.info.toBytes :=
    Board.nodeInfo_writeNodeInfo Board.factory OtaaArgs.sample.info
  exact saveNodeInfo_safe_iff (by decide) hold OtaaArgs.other.info

/-- Power is lost between the erase and the write, and there is no configuration left. -/
theorem saveNodeInfo_power_loss :
    (Board.factory.writeNodeInfo OtaaArgs.sample.info).nodeInfo = OtaaArgs.sample.info.toBytes ∧
      ¬ SavesSafely (Board.factory.writeNodeInfo OtaaArgs.sample.info) OtaaArgs.sample.info
        OtaaArgs.sample.info := by
  refine ⟨Board.nodeInfo_writeNodeInfo _ _, fun h => ?_⟩
  have hcut : (Board.factory.writeNodeInfo OtaaArgs.sample.info).eraseNodeInfo ∈
      (saveNodeInfo OtaaArgs.sample.info).cuts Board.handler
        (Board.factory.writeNodeInfo OtaaArgs.sample.info) := by
    rcases saveNodeInfo_cases (Board.factory.writeNodeInfo OtaaArgs.sample.info)
        OtaaArgs.sample.info (by decide) with ⟨hempty, -⟩ | ⟨-, -, hcuts⟩
    · exact absurd hempty (by decide)
    · rw [hcuts, Board.tryErase, if_pos (by decide)]
      simp
  have hbytes := h.powerLoss _ hcut
  rw [Board.HoldsEither, or_self, Board.nodeInfo_eraseNodeInfo] at hbytes
  exact absurd hbytes (by decide)

end ControlBoard
