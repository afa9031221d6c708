import ControlBoard.AtClient
import ControlBoard.AtReadLine

/-!
# Replies put together from lines

`client_parser` of `pck/at/src/at_client.c` copies the lines of a reply one behind the other into
the response object, each with its last character made a terminator, until a line says how the
command has ended. A line that does not fit is left out and the next one is tried. What the
`at_resp_*` functions find there are the lines that fitted, as long as none has a NUL in it.
-/

namespace ControlBoard

/-- `at_resp_status_t` -/
inductive AtRespStatus where
  | ok
  | error
  | timeout
  | buffFull
  deriving DecidableEq, Repr

/-- `struct at_response`, with `buf` as the memory from the buffer on. -/
structure AtResponse where
  buf : Nat → UInt8
  bufSize : Nat
  lineNum : Nat
  lineCounts : Nat

/-- `at_create_resp` (`at_client.c:46-71`) with memory. -/
def AtResponse.create (bufSize lineNum : Nat) : AtResponse := ⟨fun _ => 0, bufSize, lineNum, 0⟩

/-- The response object as its reader has it. -/
def AtResponse.reply (resp : AtResponse) (result : ExecResult) : ExecReply :=
  ⟨result, Memory.read resp.buf 0 resp.bufSize, resp.lineCounts⟩

/-- The object that `client->resp` points to, `resp_status`, and the locals `resp_buf_len` and
`line_counts` of `client_parser`. -/
structure ReplyParse where
  resp : AtResponse
  respStatus : AtRespStatus
  respBufLen : Nat
  lineCounts : Nat

/-- What is copied of a line: `recv_buffer[cur_recv_len - 1] = '\0'`. -/
def lineText (line : List UInt8) : List UInt8 := line.dropLast ++ [0]

/-- The copy of a line (`at_client.c:672-686`). -/
def ReplyParse.store (a : ReplyParse) (line : List UInt8) : ReplyParse :=
  if a.respBufLen + line.length < a.resp.bufSize then
    { a with
      resp := { a.resp with buf := Memory.write a.resp.buf a.respBufLen (lineText line) }
      respBufLen := a.respBufLen + line.length
      lineCounts := a.lineCounts + 1 }
  else { a with respStatus := .buffFull }

/-- How the line ends the reply, or that it does not (`at_client.c:687-705`). Behind the line
`recv_buffer` is zero. -/
def lineEnd (lineNum lineCounts : Nat) (line : List UInt8) : Option AtRespStatus :=
  if (ascii "OK").isPrefixOf (lineText line) ∧ lineNum = 0 then some .ok
  else if strstr (cstr (lineText line)) (ascii "ERROR") ∨
      (ascii "FAIL").isPrefixOf (lineText line) then some .error
  else if lineCounts = lineNum ∧ lineNum ≠ 0 then some .ok
  else none

/-- What follows the copy: the status if the reply is complete. -/
def ReplyParse.finish (a : ReplyParse) (line : List UInt8) : Option ReplyParse :=
  (lineEnd a.resp.lineNum a.lineCounts line).map fun status =>
    { a with
      resp := { a.resp with lineCounts := a.lineCounts }
      respStatus := status }

/-! ## The lines that fit -/

/-- Behind `used` bytes of a buffer, the lines that find room there. -/
def keptLines (bufSize : Nat) : Nat → List (List UInt8) → List (List UInt8)
  | _, [] => []
  | used, line :: lines =>
    if used + line.length < bufSize then line :: keptLines bufSize (used + line.length) lines
    else keptLines bufSize used lines

/-- They fill less than the buffer. -/
theorem length_keptLines {bufSize used : Nat} (h : used < bufSize) (lines : List (List UInt8)) :
    used + (keptLines bufSize used lines).flatten.length < bufSize := by
  induction lines generalizing used with
  | nil => simpa [keptLines] using h
  | cons line lines ih =>
    rw [keptLines]
    split
    · rename_i hroom
      rw [List.flatten_cons, List.length_append, ← Nat.add_assoc]
      exact ih hroom
    · exact ih h

/-- Lines that are shorter than the buffer are kept, all of them. -/
theorem keptLines_eq_self {bufSize used : Nat} {lines : List (List UInt8)}
    (h : used + lines.flatten.length < bufSize) : keptLines bufSize used lines = lines := by
  induction lines generalizing used with
  | nil => rfl
  | cons line lines ih =>
    rw [List.flatten_cons, List.length_append, ← Nat.add_assoc] at h
    rw [keptLines, if_pos (by omega), ih h]

theorem keptLines_sublist (bufSize used : Nat) (lines : List (List UInt8)) :
    (keptLines bufSize used lines).Sublist lines := by
  induction lines generalizing used with
  | nil => exact .slnil
  | cons line lines ih =>
    rw [keptLines]
    split
    · exact (ih _).cons_cons line
    · exact (ih used).cons line

theorem length_lineText {line : List UInt8} (h : line ≠ []) :
    (lineText line).length = line.length := by
  have := List.length_pos_iff.mpr h
  rw [lineText, List.length_append, List.length_dropLast, List.length_singleton]
  omega

theorem length_flatMap_lineText {lines : List (List UInt8)} (h : ∀ l ∈ lines, l ≠ []) :
    (lines.flatMap lineText).length = lines.flatten.length := by
  induction lines with
  | nil => rfl
  | cons line lines ih =>
    rw [List.forall_mem_cons] at h
    rw [List.flatMap_cons, List.length_append, length_lineText h.1, ih h.2, List.flatten_cons,
      List.length_append]

namespace ReplyParse

variable {a b : ReplyParse} {lines : List (List UInt8)}

/-- The same but for the status, which no copy looks at. -/
structure Same (a b : ReplyParse) : Prop where
  resp : a.resp = b.resp
  respBufLen : a.respBufLen = b.respBufLen
  lineCounts : a.lineCounts = b.lineCounts

theorem Same.store (h : a.Same b) (line : List UInt8) : (a.store line).Same (b.store line) := by
  unfold ReplyParse.store
  rw [h.resp, h.respBufLen, h.lineCounts]
  split
  · exact ⟨rfl, rfl, rfl⟩
  · exact ⟨rfl, rfl, rfl⟩

/-- Copies keep to the buffer: the rest of the object is as it was. -/
theorem store_frame (a : ReplyParse) (line : List UInt8) :
    (a.store line).resp = { a.resp with buf := (a.store line).resp.buf } := by
  rw [store]
  split <;> rfl

theorem foldl_store_frame (a : ReplyParse) (lines : List (List UInt8)) :
    (lines.foldl store a).resp = { a.resp with buf := (lines.foldl store a).resp.buf } := by
  induction lines generalizing a with
  | nil => rfl
  | cons line lines ih =>
    rw [List.foldl_cons, ih, store_frame]

/-- The copies of some lines: those that fit are one behind the other, and nothing else is stored
to. -/
theorem foldl_store (hlines : ∀ l ∈ lines, l ≠ []) :
    (lines.foldl store a).resp =
      { a.resp with
        buf := Memory.write a.resp.buf a.respBufLen
          ((keptLines a.resp.bufSize a.respBufLen lines).flatMap lineText) } ∧
    (lines.foldl store a).respBufLen =
      a.respBufLen + (keptLines a.resp.bufSize a.respBufLen lines).flatten.length ∧
    (lines.foldl store a).lineCounts =
      a.lineCounts + (keptLines a.resp.bufSize a.respBufLen lines).length := by
  induction lines generalizing a with
  | nil => simp [keptLines]
  | cons line lines ih =>
    rw [List.forall_mem_cons] at hlines
    rw [List.foldl_cons, keptLines]
    obtain ⟨hresp, hlen, hcounts⟩ := ih (a := a.store line) hlines.2
    rw [hresp, hlen, hcounts, store]
    split
    · refine ⟨?_, ?_, ?_⟩
      · rw [List.flatMap_cons, ← Memory.write_write_append, length_lineText hlines.1]
      · rw [List.flatten_cons, List.length_append, Nat.add_assoc]
      · rw [List.length_cons, Nat.add_right_comm, Nat.add_assoc]
    · exact ⟨rfl, rfl, rfl⟩

end ReplyParse

/-! ## The lines that are found -/

theorem skipLines_lineText {lines : List (List UInt8)} (h : ∀ l ∈ lines, 0 ∉ l.dropLast)
    (rest : List UInt8) (n : Nat) (hn : n ≤ lines.length) :
    skipLines n (lines.flatMap lineText ++ rest) = (lines.drop n).flatMap lineText ++ rest := by
  induction n generalizing lines with
  | zero => rfl
  | succ n ih =>
    cases lines with
    | nil => cases hn
    | cons line lines =>
      rw [List.forall_mem_cons] at h
      have hnext : nextLine ((line :: lines).flatMap lineText ++ rest) =
          lines.flatMap lineText ++ rest := by
        have hlen : (line.dropLast ++ [0]).length = line.dropLast.length + 1 := by simp
        rw [List.flatMap_cons, lineText, List.append_assoc, nextLine, List.append_assoc,
          List.singleton_append, cstr_append_nul h.1, ← List.singleton_append, ← List.append_assoc,
          ← hlen, List.drop_left]
      rw [skipLines, hnext, ih h.2 (Nat.le_of_succ_le_succ hn), List.drop_succ_cons]

/-- Line after line, the reply is what was kept. -/
theorem atRespGetLine_lineText {lines : List (List UInt8)} (h : ∀ l ∈ lines, 0 ∉ l.dropLast)
    (result : ExecResult) (rest : List UInt8) (n : Nat) :
    atRespGetLine ⟨result, lines.flatMap lineText ++ rest, lines.length⟩ (n + 1) =
      lines[n]?.map List.dropLast := by
  rw [atRespGetLine]
  by_cases hn : n < lines.length
  · have hline : 0 ∉ lines[n].dropLast := h _ (List.getElem_mem hn)
    rw [if_neg (by simp; omega), Nat.add_sub_cancel, skipLines_lineText h rest n (Nat.le_of_lt hn),
      List.drop_eq_getElem_cons hn, List.flatMap_cons, lineText, List.append_assoc,
      List.append_assoc, List.singleton_append, cstr_append_nul hline, List.getElem?_eq_getElem hn]
    rfl
  · rw [if_pos (.inl (by simp only; omega)), List.getElem?_eq_none (by omega)]
    rfl

/-- And by a keyword, the first kept line that has it. -/
theorem findLineByKw_lineText {lines : List (List UInt8)} (h : ∀ l ∈ lines, 0 ∉ l.dropLast)
    (keyword rest : List UInt8) :
    findLineByKw keyword lines.length (lines.flatMap lineText ++ rest) =
      (lines.map List.dropLast).find? fun l => strstr l keyword := by
  induction lines with
  | nil => rfl
  | cons line lines ih =>
    have hnext := skipLines_lineText h rest 1 (by simp)
    rw [List.forall_mem_cons] at h
    have hfirst : cstr ((line :: lines).flatMap lineText ++ rest) = line.dropLast := by
      rw [List.flatMap_cons, lineText, List.append_assoc, List.append_assoc, List.singleton_append,
        cstr_append_nul h.1]
    rw [skipLines, skipLines, List.drop_one, List.tail_cons] at hnext
    rw [List.length_cons, findLineByKw, hfirst, hnext, ih h.2, List.map_cons, List.find?_cons]
    cases strstr line.dropLast keyword with
    | true => rfl
    | false => rfl

/-! ## Whole replies -/

/-- The turns of `client_parser` for an attached object, until a line completes the reply. -/
def ReplyParse.lines : ReplyParse → List (List UInt8) → Option ReplyParse
  | _, [] => none
  | a, line :: lines =>
    match (a.store line).finish line with
    | some a => some a
    | none => ReplyParse.lines (a.store line) lines

/-- The parser at the first line for a new object. The locals are what the last reply left in them:
a reply that was given up in its middle is not taken off. -/
def ReplyParse.startAt (bufSize respBufLen lineCounts : Nat) : ReplyParse :=
  ⟨.create bufSize 0, .ok, respBufLen, lineCounts⟩

/-- And behind a reply that was finished. -/
def ReplyParse.start (bufSize : Nat) : ReplyParse := ⟨.create bufSize 0, .ok, 0, 0⟩

theorem ReplyParse.store_lineNum (a : ReplyParse) (line : List UInt8) :
    (a.store line).resp.lineNum = a.resp.lineNum := by
  rw [store]
  split <;> rfl

theorem ReplyParse.finish_of_lineNum {a : ReplyParse} (h : a.resp.lineNum = 0) (line : List UInt8) :
    a.finish line = (lineEnd 0 0 line).map fun status =>
      { a with resp := { a.resp with lineCounts := a.lineCounts }, respStatus := status } := by
  simp [finish, lineEnd, h]

/-- A reply ends with the first line that ends it. -/
theorem ReplyParse.lines_eq {a : ReplyParse} {init : List (List UInt8)} {last : List UInt8}
    {status : AtRespStatus} (h : a.resp.lineNum = 0) (hinit : ∀ l ∈ init, lineEnd 0 0 l = none)
    (hlast : lineEnd 0 0 last = some status) :
    a.lines (init ++ [last]) =
      some { (init ++ [last]).foldl store a with
        resp := { ((init ++ [last]).foldl store a).resp with
          lineCounts := ((init ++ [last]).foldl store a).lineCounts }
        respStatus := status } := by
  induction init generalizing a with
  | nil =>
    have hnum : (a.store last).resp.lineNum = 0 := by rw [store_lineNum, h]
    rw [List.nil_append, lines, finish_of_lineNum hnum, hlast]
    rfl
  | cons line init ih =>
    rw [List.forall_mem_cons] at hinit
    have hnum : (a.store line).resp.lineNum = 0 := by rw [store_lineNum, h]
    rw [List.cons_append, lines, finish_of_lineNum hnum, hinit.1, Option.map_none]
    exact ih hnum hinit.2

/-- A buffer of no bytes takes no line. -/
theorem keptLines_zero (used : Nat) (lines : List (List UInt8)) : keptLines 0 used lines = [] := by
  induction lines with
  | nil => rfl
  | cons line lines ih => rw [keptLines, if_neg (Nat.not_lt_zero _), ih]

theorem length_keptLines_le {bufSize used : Nat} (h : used ≤ bufSize)
    (lines : List (List UInt8)) :
    used + (keptLines bufSize used lines).flatten.length ≤ bufSize := by
  rcases Nat.lt_or_eq_of_le h with hlt | rfl
  · exact Nat.le_of_lt (length_keptLines hlt lines)
  · induction lines with
    | nil => exact Nat.le_refl _
    | cons line lines ih =>
      rw [keptLines]
      split
      · omega
      · exact ih

/-- No line is left out exactly if all of them together are shorter than the buffer. -/
theorem keptLines_eq_self_iff {bufSize : Nat} {lines : List (List UInt8)} (h : lines ≠ []) :
    keptLines bufSize 0 lines = lines ↔ lines.flatten.length < bufSize := by
  constructor
  · intro hkept
    rcases Nat.eq_zero_or_pos bufSize with rfl | hpos
    · rw [keptLines_zero] at hkept
      exact absurd hkept.symm h
    · have hlen := length_keptLines hpos lines
      rwa [hkept, Nat.zero_add] at hlen
  · intro hlen
    exact keptLines_eq_self (by rwa [Nat.zero_add])

/-- The buffer of a new object after some lines: in front of them stand as many zeros as the parser
had bytes of an earlier reply. -/
theorem read_foldl_store {bufSize used : Nat} (counts : Nat) (hused : used ≤ bufSize)
    {lines : List (List UInt8)} (h : ∀ l ∈ lines, l ≠ []) :
    ∃ rest,
      Memory.read (lines.foldl ReplyParse.store (.startAt bufSize used counts)).resp.buf 0 bufSize =
        List.replicate used 0 ++ (keptLines bufSize used lines).flatMap lineText ++ rest := by
  have hkept : ∀ l ∈ keptLines bufSize used lines, l ≠ [] := fun l hl =>
    h l ((keptLines_sublist bufSize used lines).subset hl)
  have hlen := length_keptLines_le hused lines
  have hzeros : Memory.write (fun _ => 0) 0 (List.replicate used 0) = fun _ => (0 : UInt8) := by
    funext i
    simp [Memory.write]
  have hfront : Memory.write (Memory.write (fun _ => 0) 0 (List.replicate used 0))
      (0 + (List.replicate used (0 : UInt8)).length)
      ((keptLines bufSize used lines).flatMap lineText) =
        Memory.write (fun _ => 0) 0
          (List.replicate used 0 ++ (keptLines bufSize used lines).flatMap lineText) :=
    Memory.write_write_append
  rw [hzeros, Nat.zero_add, List.length_replicate] at hfront
  rw [(ReplyParse.foldl_store h).1]
  simp only [ReplyParse.startAt, AtResponse.create, hfront]
  refine ⟨_, Memory.read_write_of_le ?_⟩
  rwa [List.length_append, List.length_replicate, length_flatMap_lineText hkept]

/-- What is in a new object after a reply, wherever the parser was. -/
theorem lines_startAt {bufSize used : Nat} (counts : Nat) (hused : used ≤ bufSize)
    {init : List (List UInt8)} {last : List UInt8} {status : AtRespStatus}
    (hlines : ∀ l ∈ init ++ [last], l ≠ [])
    (hinit : ∀ l ∈ init, lineEnd 0 0 l = none) (hlast : lineEnd 0 0 last = some status) :
    ∃ a rest, (ReplyParse.startAt bufSize used counts).lines (init ++ [last]) = some a ∧
      a.respStatus = status ∧ ∀ result, a.resp.reply result =
        ⟨result, List.replicate used 0 ++
            (keptLines bufSize used (init ++ [last])).flatMap lineText ++ rest,
          counts + (keptLines bufSize used (init ++ [last])).length⟩ := by
  obtain ⟨hresp, -, hcounts⟩ :=
    ReplyParse.foldl_store (a := .startAt bufSize used counts) hlines
  obtain ⟨rest, hread⟩ := read_foldl_store counts hused hlines
  have hsize : ((init ++ [last]).foldl ReplyParse.store
      (.startAt bufSize used counts)).resp.bufSize = bufSize := by rw [hresp]; rfl
  refine ⟨_, rest, ReplyParse.lines_eq rfl hinit hlast, rfl, fun result => ?_⟩
  simp only [AtResponse.reply, hsize, hread, hcounts]
  rfl

/-- What is in a new object after a reply behind a finished one. -/
theorem lines_start (bufSize : Nat) {init : List (List UInt8)} {last : List UInt8}
    {status : AtRespStatus} (hlines : ∀ l ∈ init ++ [last], l ≠ [])
    (hinit : ∀ l ∈ init, lineEnd 0 0 l = none) (hlast : lineEnd 0 0 last = some status) :
    ∃ a rest, (ReplyParse.start bufSize).lines (init ++ [last]) = some a ∧ a.respStatus = status ∧
      ∀ result, a.resp.reply result =
        ⟨result, (keptLines bufSize 0 (init ++ [last])).flatMap lineText ++ rest,
          (keptLines bufSize 0 (init ++ [last])).length⟩ := by
  have h := lines_startAt 0 (Nat.zero_le bufSize) hlines hinit hlast
  simp only [List.replicate_zero, List.nil_append, Nat.zero_add] at h
  exact h

theorem skipLines_add (m n : Nat) (buf : List UInt8) :
    skipLines (m + n) buf = skipLines n (skipLines m buf) := by
  induction m generalizing buf with
  | zero => rw [Nat.zero_add, skipLines]
  | succ m ih => rw [Nat.succ_add, skipLines, skipLines, ih]

/-- Every zero in front is an empty text. -/
theorem skipLines_zeros {used n : Nat} (h : n ≤ used) (buf : List UInt8) :
    skipLines n (List.replicate used 0 ++ buf) = List.replicate (used - n) 0 ++ buf := by
  induction n generalizing used with
  | zero => rfl
  | succ n ih =>
    obtain ⟨k, rfl⟩ := Nat.exists_eq_add_of_lt h
    have hnext : nextLine (List.replicate (n + k + 1) 0 ++ buf) =
        List.replicate (n + k) 0 ++ buf := by
      simp [nextLine, List.replicate_succ, cstr]
    rw [skipLines, hnext, ih (Nat.le_add_right n k)]
    congr 2
    omega

/-- The lines of a reply behind `used` zeros. -/
theorem atRespGetLine_zeros {used counts : Nat} {lines : List (List UInt8)}
    (h : ∀ l ∈ lines, 0 ∉ l.dropLast) (hcounts : counts ≤ used) (result : ExecResult)
    (rest : List UInt8) (n : Nat) :
    atRespGetLine ⟨result, List.replicate used 0 ++ lines.flatMap lineText ++ rest,
        counts + lines.length⟩ (n + 1) =
      ((List.replicate used [] ++ lines.map List.dropLast).take (counts + lines.length))[n]? := by
  by_cases hn : n < counts + lines.length
  · rw [atRespGetLine, if_neg (by simp only; omega), Nat.add_sub_cancel, List.append_assoc,
      List.getElem?_take_of_lt hn]
    rcases Nat.lt_or_ge n used with hfront | hbehind
    · obtain ⟨k, hk⟩ := Nat.exists_eq_add_of_lt hfront
      rw [skipLines_zeros (Nat.le_of_lt hfront), List.getElem?_append_left (by simpa using hfront),
        List.getElem?_replicate_of_lt hfront, hk, Nat.add_assoc, Nat.add_sub_cancel_left,
        List.replicate_succ, List.cons_append]
      rfl
    · obtain ⟨i, rfl⟩ := Nat.exists_eq_add_of_le hbehind
      have hi : i < lines.length := by omega
      have hget := atRespGetLine_lineText h result rest i
      rw [atRespGetLine, if_neg (by simp only; omega), Nat.add_sub_cancel] at hget
      rw [skipLines_add, skipLines_zeros (Nat.le_refl used), Nat.sub_self, List.replicate_zero,
        List.nil_append, hget, List.getElem?_append_right (by simp), List.length_replicate,
        Nat.add_sub_cancel_left, List.getElem?_map]
  · rw [atRespGetLine, if_pos (.inl (by simp only; omega)), List.getElem?_eq_none]
    rw [List.length_take]
    omega

/-- Whatever lines a reply has and wherever in the buffer the parser was left, the object gives back
one empty line for each byte in front and then the lines that fit, in their order, as many as were
counted. A parser that was left at the front gives back all lines exactly if they are shorter than
the buffer. In both cases the status is the one that the last line tells. -/
theorem reply_lines {bufSize used counts : Nat} (hused : used ≤ bufSize) (hcounts : counts ≤ used)
    {init : List (List UInt8)} {last : List UInt8} {status : AtRespStatus}
    (hlines : ∀ l ∈ init ++ [last], l ≠ [] ∧ 0 ∉ l.dropLast)
    (hinit : ∀ l ∈ init, lineEnd 0 0 l = none) (hlast : lineEnd 0 0 last = some status) :
    ∃ a, (ReplyParse.startAt bufSize used counts).lines (init ++ [last]) = some a ∧
      a.respStatus = status ∧ ∀ result,
        (∀ n, atRespGetLine (a.resp.reply result) (n + 1) =
          ((List.replicate used [] ++ (keptLines bufSize used (init ++ [last])).map
            List.dropLast).take (counts + (keptLines bufSize used (init ++ [last])).length))[n]?) ∧
        (used = 0 → ((∀ n, atRespGetLine (a.resp.reply result) (n + 1) =
            (init ++ [last])[n]?.map List.dropLast) ↔
          (init ++ [last]).flatten.length < bufSize)) := by
  have hkept : ∀ l ∈ keptLines bufSize used (init ++ [last]), 0 ∉ l.dropLast := fun l hl =>
    (hlines l ((keptLines_sublist bufSize used _).subset hl)).2
  obtain ⟨a, rest, ha, hstatus, hreply⟩ :=
    lines_startAt counts hused (fun l hl => (hlines l hl).1) hinit hlast
  refine ⟨a, ha, hstatus, fun result => ?_⟩
  have hget (n : Nat) := atRespGetLine_zeros hkept hcounts result rest n
  simp only [← hreply] at hget
  refine ⟨hget, ?_⟩
  rintro rfl
  obtain rfl : counts = 0 := Nat.le_zero.mp hcounts
  simp only [List.replicate_zero, List.nil_append, Nat.zero_add, ← List.map_take,
    List.take_length, List.getElem?_map] at hget
  rw [← keptLines_eq_self_iff (by simp)]
  constructor
  · intro hall
    have hlen : (init ++ [last]).length ≤ (keptLines bufSize 0 (init ++ [last])).length := by
      by_contra hshort
      have hn := (hget _).symm.trans (hall (keptLines bufSize 0 (init ++ [last])).length)
      rw [List.getElem?_eq_none (Nat.le_refl _), List.getElem?_eq_getElem (by omega)] at hn
      cases hn
    exact (keptLines_sublist bufSize 0 _).eq_of_length_le hlen
  · intro hself n
    rw [hget n, hself]

/-- The lines of a status reply in an object of 20 bytes, behind a line of two bytes of a reply that
was given up: the first of them does not fit. -/
theorem reply_lines_cut :
    ∃ a, (ReplyParse.startAt 20 2 1).lines ([ascii "+STATUE:LORA_SLEEP\r\n", ascii "+ID:1\r\n"] ++
        [ascii "OK\r\n"]) = some a ∧ a.respStatus = .ok ∧ ∀ result,
        (∀ n, atRespGetLine (a.resp.reply result) (n + 1) =
          ((List.replicate 2 [] ++ (keptLines 20 2 ([ascii "+STATUE:LORA_SLEEP\r\n",
            ascii "+ID:1\r\n"] ++ [ascii "OK\r\n"])).map List.dropLast).take
              (1 + (keptLines 20 2 ([ascii "+STATUE:LORA_SLEEP\r\n", ascii "+ID:1\r\n"] ++
                [ascii "OK\r\n"])).length))[n]?) ∧
        (2 = 0 → ((∀ n, atRespGetLine (a.resp.reply result) (n + 1) =
            ([ascii "+STATUE:LORA_SLEEP\r\n", ascii "+ID:1\r\n"] ++
              [ascii "OK\r\n"])[n]?.map List.dropLast) ↔
          ([ascii "+STATUE:LORA_SLEEP\r\n", ascii "+ID:1\r\n"] ++
            [ascii "OK\r\n"]).flatten.length < 20)) :=
  reply_lines (by decide) (by decide) (by decide) (by decide) (by decide)

end ControlBoard
