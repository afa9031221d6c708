import ControlBoard.QueryReply

/-!
# The local array of the status query

`at_radio_get_statue` scans the token of the reply into `str[10]` and compares it with six names
of up to 15 characters. Here `str` is the memory from the array on, and the query is followed
index by index: what the scan stores, and what the comparisons read.
-/

namespace ControlBoard

/-- The names in the order of the comparisons. -/
def statueNames : List (List UInt8 × AtRadioStatue) :=
  [(ascii "LORA_SLEEP", .sleep), (ascii "LORA_JOIN", .join), (ascii "LORA_SEND", .send),
    (ascii "LORA_CYCLE_SEND", .cycleSend), (ascii "LORA_NULL", .null),
    (ascii "LORA_WAIT_JOIN", .wait)]

/-- The chain of comparisons. -/
def statueOfMemory (str : Nat → UInt8) : List (List UInt8 × AtRadioStatue) → Option AtRadioStatue
  | [] => none
  | n :: names => if rtStrcmp str n.1 = 0 then some n.2 else statueOfMemory str names

/-- The offsets of `str` that the chain reads. -/
def comparedOffsets (str : Nat → UInt8) : List (List UInt8 × AtRadioStatue) → List Nat
  | [] => []
  | n :: names =>
    List.range ((rtStrcmpFrom str 0 n.1).1 + 1) ++
      if rtStrcmp str n.1 = 0 then [] else comparedOffsets str names

/-- What one query stores in `str`, what `str` then holds, and the offsets read from it. -/
structure StrUse where
  written : List Nat
  str : Nat → UInt8
  read : List Nat

/-- The scan and the comparisons of `at_radio_get_statue`. -/
def statueStrUse (eof : Int) (str : Nat → UInt8) (re : ExecReply) : StrUse :=
  let (count, fields) := atRespParseLineArgsByKw eof re (ascii "+STATUE") statueExpr
  let stored :=
    match fields.head? with
    | some (.str token) => token ++ [0]
    | _ => []
  let str := Memory.write str 0 stored
  { written := List.range stored.length
    str := str
    read := if count = 0 then [] else comparedOffsets str statueNames }

/-- Every offset stored to lies in `str[10]`, and only what was stored is read. -/
def StrUse.Safe (use : StrUse) : Prop :=
  (∀ i ∈ use.written, i < 10) ∧ ∀ i ∈ use.read, i ∈ use.written

variable {b : Board} {eof : Int} {re : ExecReply} {str : Nat → UInt8}

/-! ## The chain -/

/-- The chain finds the name that the text is. -/
theorem statueOfMemory_eq {text : List UInt8} (h : TextAt str 0 text) (htext : 0 ∉ text) :
    statueOfMemory str statueNames = statueOfName text := by
  have hcompare (name : List UInt8) (hname : 0 ∉ name) : rtStrcmp str name = 0 ↔ text = name :=
    rtStrcmpFrom_eq_zero h htext hname
  simp only [statueNames, statueOfMemory, statueOfName, hcompare (ascii "LORA_SLEEP") (by decide),
    hcompare (ascii "LORA_JOIN") (by decide), hcompare (ascii "LORA_SEND") (by decide),
    hcompare (ascii "LORA_CYCLE_SEND") (by decide), hcompare (ascii "LORA_NULL") (by decide),
    hcompare (ascii "LORA_WAIT_JOIN") (by decide)]

theorem comparedOffsets_le {text : List UInt8} (h : TextAt str 0 text)
    (names : List (List UInt8 × AtRadioStatue)) : ∀ i ∈ comparedOffsets str names,
      i ≤ text.length := by
  induction names with
  | nil => simp [comparedOffsets]
  | cons n names ih =>
    intro i hi
    rw [comparedOffsets] at hi
    rcases List.mem_append.mp hi with hi | hi
    · have hle := rtStrcmpFrom_le h n.1
      have := List.mem_range.mp hi
      omega
    · split at hi
      · cases hi
      · exact ih i hi

/-! ## The query -/

/-- A token is stored and compared; without one `str` is compared as it was, or not at all. -/
theorem statueStrUse_eq (eof : Int) (str : Nat → UInt8) (re : ExecReply) :
    (StatueRefused eof re → statueStrUse eof str re = ⟨[], str, []⟩) ∧
    (¬ StatueRefused eof re → statueStrUse eof str re =
      match replyToken re with
      | none => ⟨[], str, comparedOffsets str statueNames⟩
      | some token =>
        ⟨List.range (token.length + 1), Memory.write str 0 (token ++ [0]),
          comparedOffsets (Memory.write str 0 (token ++ [0])) statueNames⟩) := by
  have hfields := parseLineArgsByKw_statue eof re
  simp only [statueStrUse, hfields, ← parseLineArgsByKw_eq_zero]
  constructor
  · intro hzero
    rw [(parseLineArgsByKw_eq_zero.mp hzero).noToken]
    simp [hzero]
  · intro hcount
    cases replyToken re with
    | none => simp [hcount]
    | some token => simp [hcount]

theorem zero_notMem_cstr (mem : List UInt8) : 0 ∉ cstr mem := by
  intro h
  simpa using List.mem_takeWhile_imp h

theorem findLineByKw_eq_cstr {keyword line : List UInt8} {n : Nat} {buf : List UInt8}
    (h : findLineByKw keyword n buf = some line) : ∃ mem, line = cstr mem := by
  induction n generalizing buf with
  | zero => cases h
  | succ n ih =>
    rw [findLineByKw] at h
    split at h
    · exact ⟨buf, (Option.some_inj.mp h).symm⟩
    · exact ih h

theorem wordBehindColon_subset {line word : List UInt8} (h : wordBehindColon line = some word) :
    word ⊆ line := by
  unfold wordBehindColon at h
  split at h
  · cases h
  · simp only at h
    split at h
    · cases h
    · rw [← Option.some_inj.mp h]
      intro c hc
      have hbehind := (List.dropWhile_suffix _).subset ((List.takeWhile_prefix _).subset hc)
      exact (List.dropWhile_suffix _).subset (List.mem_of_mem_drop hbehind)

/-- A token has no terminator in it. -/
theorem zero_notMem_replyToken {token : List UInt8} (h : replyToken re = some token) :
    0 ∉ token := by
  obtain ⟨line, hline, hword⟩ := Option.bind_eq_some_iff.mp h
  obtain ⟨mem, rfl⟩ := findLineByKw_eq_cstr hline
  exact fun hmem => zero_notMem_cstr mem (wordBehindColon_subset hword hmem)

/-- As long as the token ends inside of the array, the status that the query reports is the one
that the chain finds in memory. -/
theorem getStatue_run_memory (h : b.Answers re) {text : List UInt8} (htext : TextAt str 0 text)
    (hnul : 0 ∉ text) (hfits : ∀ token ∈ replyToken re, token.length ≤ 9)
    (statue : AtRadioStatue) :
    (StatueRefused eof re → ((atRadioGetStatue eof text statue).run Board.handler b).1 =
      some (.parseKw, statue)) ∧
    (¬ StatueRefused eof re → ((atRadioGetStatue eof text statue).run Board.handler b).1 =
      some (.ok, (statueOfMemory (statueStrUse eof str re).str statueNames).getD statue)) := by
  refine ⟨(getStatue_run h text statue).1, fun hrefused => ?_⟩
  rw [(getStatue_run h text statue).2 hrefused, (statueStrUse_eq eof str re).2 hrefused]
  cases htoken : replyToken re with
  | none => simp only [statueOfMemory_eq htext hnul]
  | some token =>
    have hlen : token.length < 10 := Nat.lt_succ_of_le (hfits token htoken)
    have hchain := statueOfMemory_eq (textAt_write str token) (zero_notMem_replyToken htoken)
    simp only [hlen, if_true, hchain]

/-- A status query keeps to its array exactly if the reply has a token of at most nine characters,
or its line is refused. -/
theorem statueStr_safe_iff (eof : Int) (str : Nat → UInt8) (re : ExecReply) :
    (statueStrUse eof str re).Safe ↔
      (∃ token ∈ replyToken re, token.length ≤ 9) ∨ StatueRefused eof re := by
  rw [StrUse.Safe]
  by_cases hrefused : StatueRefused eof re
  · rw [(statueStrUse_eq eof str re).1 hrefused]
    exact iff_of_true ⟨by simp, by simp⟩ (.inr hrefused)
  · rw [(statueStrUse_eq eof str re).2 hrefused, or_iff_left hrefused]
    cases replyToken re with
    | none =>
      -- the first character compared was never stored
      refine iff_of_false (fun h => ?_) (by simp)
      have hfirst : 0 ∈ comparedOffsets str statueNames := by simp [statueNames, comparedOffsets]
      exact absurd (h.2 0 hfirst) (by simp)
    | some token =>
      have hle := comparedOffsets_le (textAt_write str token) statueNames
      constructor
      · intro h
        have := h.1 token.length (List.mem_range.mpr (Nat.lt_succ_self _))
        exact ⟨token, rfl, by omega⟩
      · rintro ⟨token', htoken, hlen⟩
        cases htoken
        refine ⟨fun i hi => ?_, fun i hi => ?_⟩
        · have := List.mem_range.mp hi
          omega
        · have := hle i hi
          exact List.mem_range.mpr (by omega)

/-- `LORA_SLEEP` has ten characters, and the terminator goes behind the array. -/
theorem statueStr_overrun :
    ¬ (statueStrUse 0 (fun _ => 0)
        ((Board.replying [ascii "+STATUE:LORA_SLEEP"]).script.execs 0)).Safe := by
  intro h
  have hten : 10 ∈ (statueStrUse 0 (fun _ => 0)
      ((Board.replying [ascii "+STATUE:LORA_SLEEP"]).script.execs 0)).written := by
    decide +kernel
  exact absurd (h.1 10 hten) (by decide)

end ControlBoard
