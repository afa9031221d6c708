import ControlBoard.ClientParser
import ControlBoard.StatueBuffer

/-!
# The status, from the bytes of the module

The three stages of a status query together: the bytes that come in on the UART are cut into
lines, the lines are put together in the response object, and `at_radio_get_statue` finds the
name of a status in it.
-/

namespace ControlBoard

/-- A line as the module sends it. -/
def sentLine (text : List UInt8) : List UInt8 := text ++ [13, 10]

/-- The client as `at_client_init("uart2", 512)` sets it up; nothing in the program sets an end
sign or a URC table. -/
def radioReceiver : AtReceiver := ⟨512, 0, []⟩

theorem dropLast_sentLine (text : List UInt8) : (sentLine text).dropLast = text ++ [13] := by
  have hsplit : sentLine text = text ++ [13] ++ [10] := by simp [sentLine]
  rw [hsplit, List.dropLast_concat]

theorem sentLine_ne_nil (text : List UInt8) : sentLine text ≠ [] := by
  simp [sentLine]

theorem zero_notMem_sentLine {text : List UInt8} (h : 0 ∉ text) :
    0 ∉ (sentLine text).dropLast := by
  rw [dropLast_sentLine]
  simp [h]

/-- Without an end sign and a URC table, only a line feed behind a carriage return ends a line. -/
theorem endsLine_radioReceiver (p : List UInt8) :
    radioReceiver.endsLine p = [13, 10].isSuffixOf p := by
  simp [AtReceiver.endsLine, radioReceiver, AtReceiver.getUrcObj]

theorem isLine_sentLine {text : List UInt8} (h : 10 ∉ text) :
    Cut.IsLine radioReceiver.endsLine (sentLine text) := by
  refine ⟨text ++ [13], 10, by simp [sentLine], ?_, ?_⟩
  · intro q a hq
    rw [endsLine_radioReceiver, Bool.eq_false_iff]
    intro hends
    rw [(AtReceiver.suffix_crlf.mp hends).1] at hq
    have hmem : (10 : UInt8) ∈ text ++ [13] := hq.subset (by simp)
    simp [h] at hmem
  · rw [endsLine_radioReceiver]
    exact AtReceiver.suffix_crlf.mpr ⟨rfl, by simp⟩

/-- Texts that are short enough arrive as they were sent. -/
theorem readline_sentLines (texts : List (List UInt8))
    (h : ∀ text ∈ texts, 10 ∉ text ∧ text.length + 2 ≤ 512) :
    Cut.read radioReceiver.readlineStep .fresh (texts.flatMap sentLine) =
      (.fresh, texts.map fun text => .line (sentLine text)) := by
  have hlines : ∀ l ∈ texts.map sentLine, Cut.IsLine radioReceiver.endsLine l := by
    intro l hl
    obtain ⟨text, htext, rfl⟩ := List.mem_map.mp hl
    exact isLine_sentLine (h text htext).1
  have hcut := Cut.feed_flatten hlines (Cut.unfinished_nil radioReceiver.endsLine)
  have hread := Cut.read_eq_feed
    (fun p ch _ => radioReceiver.readlineStep_midLine p ch) (Cut.unfinished_nil _)
    ((texts.map sentLine).flatten ++ [])
  rw [hcut, AtReceiver.midLine_nil, List.append_nil, ← List.flatMap_def, List.map_map] at hread
  rw [hread]
  congr 1
  apply List.map_congr_left
  intro text htext
  have hlen := (h text htext).2
  rw [Function.comp_apply, AtReceiver.received, if_neg]
  simp only [sentLine, radioReceiver, List.length_append, List.length_cons, List.length_nil]
  omega

theorem statueName_found : ∀ n ∈ statueNames,
    wordBehindColon (ascii "+STATUE:" ++ n.1 ++ [13]) = some n.1 ∧ statueOfName n.1 = some n.2 ∧
      lineEnd 0 0 (sentLine (ascii "+STATUE:" ++ n.1)) = none ∧
      strstr (ascii "+STATUE:" ++ n.1 ++ [13]) (ascii "+STATUE") = true ∧
      0 ∉ ascii "+STATUE:" ++ n.1 ∧ 10 ∉ ascii "+STATUE:" ++ n.1 := by
  decide

/-- The texts of a reply to the query. -/
def statueReply (before : List (List UInt8)) (name : List UInt8) : List (List UInt8) :=
  before ++ [ascii "+STATUE:" ++ name, ascii "OK"]

/-- The line with the keyword is the one with the status. -/
theorem find_statueReply {before : List (List UInt8)} {name : List UInt8}
    (hbefore : ∀ text ∈ before, strstr (text ++ [13]) (ascii "+STATUE") = false)
    (hname : strstr (ascii "+STATUE:" ++ name ++ [13]) (ascii "+STATUE") = true) :
    (((statueReply before name).map sentLine).map List.dropLast).find?
        (fun l => strstr l (ascii "+STATUE")) = some (ascii "+STATUE:" ++ name ++ [13]) := by
  rw [List.map_map, statueReply, List.map_append, List.find?_append,
    List.find?_eq_none.mpr, Option.none_or, List.map_cons, List.find?_cons_of_pos,
    Function.comp_apply, dropLast_sentLine]
  · rw [Function.comp_apply, dropLast_sentLine, hname]
  · intro l hl
    obtain ⟨text, htext, rfl⟩ := List.mem_map.mp hl
    rw [Function.comp_apply, dropLast_sentLine, hbefore text htext]
    exact Bool.false_ne_true

/-- A module that answers with its status, whatever it sends before as long as that is not about
the status and does not end the reply, is understood: `at_radio_get_statue` returns the status from
the bytes on the UART if its name ends inside of `str[10]`. The three longer names do not. -/
theorem getStatue_of_bytes {before : List (List UInt8)} {name : List UInt8}
    {statue : AtRadioStatue} (hname : (name, statue) ∈ statueNames)
    (hbefore : ∀ text ∈ before, 0 ∉ text ∧ 10 ∉ text ∧ lineEnd 0 0 (sentLine text) = none ∧
      strstr (text ++ [13]) (ascii "+STATUE") = false)
    (hfits : ((statueReply before name).flatMap sentLine).length < 64) :
    ∃ lines a,
      Cut.read radioReceiver.readlineStep .fresh ((statueReply before name).flatMap sentLine) =
        (.fresh, lines.map .line) ∧
      (ReplyParse.start 64).lines lines = some a ∧ a.respStatus = .ok ∧
      ∀ b eof str old, b.Answers (a.resp.reply .success) →
        ((atRadioGetStatue eof str old).run Board.handler b).1 =
          if name.length < 10 then some (.ok, statue) else none := by
  obtain ⟨hword, hof, hend, hkw, hnul, hlf⟩ := statueName_found (name, statue) hname
  have htexts : ∀ text ∈ statueReply before name, 0 ∉ text ∧ 10 ∉ text := by
    intro text htext
    rcases List.mem_append.mp htext with htext | htext
    · exact ⟨(hbefore text htext).1, (hbefore text htext).2.1⟩
    · rcases List.mem_pair.mp htext with rfl | rfl
      · exact ⟨hnul, hlf⟩
      · exact ⟨by decide, by decide⟩
  have hread := readline_sentLines (statueReply before name) fun text htext => by
    have hlen := (List.sublist_flatten_of_mem (List.mem_map_of_mem (f := sentLine) htext)).length_le
    rw [← List.flatMap_def, sentLine, List.length_append] at hlen
    exact ⟨(htexts text htext).2, by simp only [List.length_cons, List.length_nil] at hlen; omega⟩
  have hlines : (statueReply before name).map sentLine =
      (before ++ [ascii "+STATUE:" ++ name]).map sentLine ++ [sentLine (ascii "OK")] := by
    simp [statueReply]
  have hne : ∀ l ∈ (before ++ [ascii "+STATUE:" ++ name]).map sentLine ++ [sentLine (ascii "OK")],
      l ≠ [] := by
    rw [← hlines]
    simp [sentLine_ne_nil]
  have hinit : ∀ l ∈ (before ++ [ascii "+STATUE:" ++ name]).map sentLine,
      lineEnd 0 0 l = none := by
    intro l hl
    obtain ⟨text, htext, rfl⟩ := List.mem_map.mp hl
    rcases List.mem_append.mp htext with htext | htext
    · exact (hbefore text htext).2.2.1
    · rw [List.mem_singleton.mp htext]
      exact hend
  have hlast : lineEnd 0 0 (sentLine (ascii "OK")) = some .ok := by decide
  obtain ⟨a, rest, ha, hstatus, hreply⟩ := lines_start 64 hne hinit hlast
  refine ⟨(statueReply before name).map sentLine, a, by rw [hread, List.map_map]; rfl,
    by rw [hlines]; exact ha, hstatus, fun b eof str old hanswers => ?_⟩
  have hkept : keptLines 64 0 ((statueReply before name).map sentLine) =
      (statueReply before name).map sentLine :=
    keptLines_eq_self (by rwa [Nat.zero_add, ← List.flatMap_def])
  rw [← hlines, hkept] at hreply
  have hfound : atRespGetLineByKw (a.resp.reply .success) (ascii "+STATUE") =
      some (ascii "+STATUE:" ++ name ++ [13]) := by
    rw [atRespGetLineByKw, hreply]
    simp only
    rw [findLineByKw_lineText (fun l hl => by
      obtain ⟨text, htext, rfl⟩ := List.mem_map.mp hl
      exact zero_notMem_sentLine (htexts text htext).1)]
    exact find_statueReply (fun text htext => (hbefore text htext).2.2.2) hkw
  have htoken : replyToken (a.resp.reply .success) = some name := by
    rw [replyToken, hfound, Option.bind_some, hword]
  have hparsed : ¬ StatueRefused eof (a.resp.reply .success) := by
    intro hrefused
    rw [hrefused.noToken] at htoken
    cases htoken
  rw [(getStatue_run hanswers str old).2 hparsed, htoken]
  simp only [hof, Option.getD_some]

theorem getStatue_of_bytes_join :
    ∃ lines a,
      Cut.read radioReceiver.readlineStep .fresh
          ((statueReply [[]] (ascii "LORA_JOIN")).flatMap sentLine) = (.fresh, lines.map .line) ∧
      (ReplyParse.start 64).lines lines = some a ∧ a.respStatus = .ok ∧
      ∀ b eof str old, b.Answers (a.resp.reply .success) →
        ((atRadioGetStatue eof str old).run Board.handler b).1 =
          if (ascii "LORA_JOIN").length < 10 then some (.ok, .join) else none :=
  getStatue_of_bytes (by decide) (by decide) (by decide)

end ControlBoard
