import Octet.Proofs.CodePoints
import Octet.Proofs.ScanStates

/-!
# Scanning is local to lines

What is found on a line does not depend on the lines after it, and depends on the lines before it
only through the places of the tokens. So two texts with a line feed between them are scanned one
after the other, and the first fault is that of the one text or of the other.

* `Token.moved`, `Fault.moved` — a token or a fault of a text that stands further down in another;
* `Source.lineAt_before`, `Source.lineAt_after` — the lines that faults quote;
* `Token.Scanning.before_line`, `Token.Scanning.after` — **the states of either text are states of
  the joined text**;
* `Token.scan_joined_lines` — **the tokens of the joined text are those of both texts with a line
  end between them**.
-/

namespace Octet

/-! ## Lines of joined texts -/

namespace Source

/-- What follows a line feed does not change the lines before it. -/
theorem lineAt_before (a b : Text) {offset : Nat} (h : offset ≤ a.length) :
    lineAt (a ++ Text.lf :: b) offset = lineAt a offset := by
  have hstart : lineStart (a ++ Text.lf :: b) offset = lineStart a offset := by
    rw [lineStart, lineStart, List.take_append_of_le_length h]
  have hle : lineStart a offset ≤ a.length := by
    simp only [lineStart, List.length_take]
    omega
  rw [lineAt, lineAt, hstart, List.drop_append_of_le_length hle,
    Token.takeWhile_append_lineEnd (by decide)]

/-- What stands before a line feed does not change the lines after it. -/
theorem lineAt_after (a b : Text) (offset : Nat) :
    lineAt (a ++ Text.lf :: b) (a.length + 1 + offset) = lineAt b offset := by
  have hjoined : a ++ Text.lf :: b = a ++ [Text.lf] ++ b := by simp
  have hlength : (a ++ [Text.lf]).length = a.length + 1 := by simp
  have htake :
      (a ++ Text.lf :: b).take (a.length + 1 + offset) = a ++ [Text.lf] ++ b.take offset := by
    rw [hjoined, ← hlength, List.take_length_add_append]
  have hrun : ((a ++ [Text.lf] ++ b.take offset).reverse.takeWhile (· != Text.lf)) =
      (b.take offset).reverse.takeWhile (· != Text.lf) := by
    rw [List.reverse_append, List.reverse_append, List.reverse_singleton, List.singleton_append]
    exact Token.takeWhile_append_lineEnd (by simp) _
  have hstart : lineStart (a ++ Text.lf :: b) (a.length + 1 + offset) =
      a.length + 1 + lineStart b offset := by
    have hle :
        ((b.take offset).reverse.takeWhile (· != Text.lf)).length ≤ (b.take offset).length := by
      simpa using (List.takeWhile_prefix (· != Text.lf) (l := (b.take offset).reverse)).length_le
    simp only [lineStart]
    rw [htake, hrun, List.length_append, hlength]
    omega
  rw [lineAt, lineAt, hstart, hjoined, ← hlength, List.drop_length_add_append]

end Source

/-- A token of a text that starts further down, by as many bytes and lines. -/
def Token.moved (bytes lines : Nat) (t : Token) : Token :=
  { t with offset := t.offset + bytes, line := t.line + lines }

/-- A fault of a text that starts further down, by as many bytes and lines. -/
def Fault.moved (bytes lines : Nat) : Fault → Fault
  | located file offset line lineText inner =>
    located file (offset + bytes) (line + lines) lineText inner
  | f => f

namespace Token

open Text (isLineEnd lineFeeds)

/-! ## The text before the line feed -/

variable {file source a b input : Text} {offset line : Nat} {found : List Token}

/-- A piece of a text that does not end with a line end is the same when other lines follow. -/
theorem Taken.before_line {kind : Option TokenKind} {x rest : Text} (h : Taken kind x rest)
    (hlast : ∀ e ∈ (x ++ rest).getLast?, isLineEnd e = false) {e : UInt8} (he : isLineEnd e = true)
    (y : Text) :
    Taken kind x (rest ++ e :: y) where
  nonempty := h.nonempty
  first := by
    rw [← h.first, ← List.append_assoc]
    obtain ⟨c, more, rfl⟩ := List.exists_cons_of_ne_nil h.nonempty
    simp only [List.cons_append] at hlast ⊢
    cases hc : isLineEnd c with
    | false => exact firstMatch?_append hc he (more ++ rest) y
    | true =>
      -- A run of line ends does not reach the end of the text.
      have hstop : (more ++ rest).takeWhile isLineEnd ≠ more ++ rest := by
        intro hall
        have hends : ∀ d ∈ c :: (more ++ rest), isLineEnd d = true :=
          List.forall_mem_cons.2 ⟨hc, List.takeWhile_eq_self_iff.1 hall⟩
        have hne : c :: (more ++ rest) ≠ [] := List.cons_ne_nil _ _
        have hlast := hlast _ (List.getLast?_eq_some_getLast hne)
        rw [hends _ (List.getLast_mem hne)] at hlast
        cases hlast
      rw [firstMatch?_lineEnd hc, firstMatch?_lineEnd hc, List.takeWhile_append, if_neg]
      intro hlength
      exact hstop ((List.takeWhile_prefix isLineEnd).eq_of_length hlength)

/-- **The states of a text that does not end with a line end are states of the text with more
lines.** -/
theorem Scanning.before_line (h : Scanning file a offset line found input)
    (ha : ∀ e ∈ a.getLast?, isLineEnd e = false) {e : UInt8} (he : isLineEnd e = true) (y : Text) :
    Scanning file (a ++ e :: y) offset line found (input ++ e :: y) := by
  induction h with
  | start => exact .start
  | @step offset line found kind x rest h hx ih =>
    rw [List.append_assoc] at ih
    refine .step ih (hx.before_line ?_ he y)
    intro c hc
    rw [← h.reached.input, List.getLast?_drop] at hc
    split at hc
    · cases hc
    · exact ha c hc

/-! ## The text after the line feed -/

theorem tokensOf_moved (file : Text) (bytes lines offset line : Nat) (kind : Option TokenKind)
    (x : Text) :
    tokensOf file (bytes + offset) (lines + line) kind x =
      (tokensOf file offset line kind x).map (moved bytes lines) := by
  cases kind with
  | none => rfl
  | some kind =>
    simp only [tokensOf, Option.toList_some, List.map_cons, List.map_nil, moved, Int.natCast_add]
    rw [Int.add_comm, Int.add_comm lines]

/-- **Where scanning comes to another text, it goes on through the states of that text**, further
down. -/
theorem Scanning.after {bytes lines : Nat} {before : List Token}
    (hbefore : Scanning file source bytes (lines + 1) before b)
    (h : Scanning file b offset line found input) :
    Scanning file source (bytes + offset) (lines + line) (before ++ found.map (moved bytes lines))
      input := by
  induction h with
  | start => simpa using hbefore
  | @step offset line found kind x rest _ hx ih =>
    have hnext := ih.step hx
    rw [tokensOf_moved, List.append_assoc, ← List.map_append] at hnext
    simpa only [Nat.add_assoc] using hnext

/-! ## Joined texts -/

/-- The line feed between two texts. -/
def joint (file a : Text) : Token := ⟨.newline, [Text.lf], file, a.length, lineFeeds a + 1⟩

/-- After the first text and the line feed, the second text is scanned. -/
theorem Scanning.at_joint (h : Scanning file a offset line found [])
    (ha : ∀ e ∈ a.getLast?, isLineEnd e = false) (hb : ∀ e ∈ b.head?, isLineEnd e = false) :
    Scanning file (a ++ Text.lf :: b) (a.length + 1) (lineFeeds a + 1 + 1) (found ++ [joint file a])
      b := by
  have hoffset := h.reached.offset_eq
  have hline := h.reached.line
  have hstate : Scanning file (a ++ Text.lf :: b) offset line found ([Text.lf] ++ b) :=
    h.before_line ha (by decide) b
  have hlf : Run isLineEnd [Text.lf] := ⟨List.cons_ne_nil _ _, List.forall_mem_singleton.2 rfl⟩
  have hnext := hstate.step (taken_newline hlf hb)
  rw [hoffset, Source.lineOf, List.take_length] at hline
  subst hoffset hline
  exact hnext

theorem unmatched_before {offset : Nat} (h : offset ≤ a.length) (file : Text) (line : Nat)
    (c : UInt8) (rest b : Text) :
    unmatched file (a ++ Text.lf :: b) offset line c (rest ++ Text.lf :: b) =
      unmatched file a offset line c rest := by
  rw [unmatched, unmatched, Source.lineAt_before a b h, Text.firstPoint_append (by decide)]

theorem unmatched_after (file a b : Text) (lines offset line : Nat) (c : UInt8) (rest : Text) :
    unmatched file (a ++ Text.lf :: b) (a.length + 1 + offset) (lines + line) c rest =
      (unmatched file b offset line c rest).moved (a.length + 1) lines := by
  simp only [unmatched, Source.lineAt_after, Fault.moved, Int.natCast_add]
  rw [Int.add_comm _ (offset : Int), Int.add_comm lines]

/-- **Two texts with a line feed between them are scanned one after the other.** The first text
gives its tokens or its fault, unchanged; after the line feed, the second text gives its own,
further down. -/
theorem scan_joined_lines (file a b : Text) (ha : ∀ e ∈ a.getLast?, isLineEnd e = false)
    (hb : ∀ e ∈ b.head?, isLineEnd e = false) :
    scan file (a ++ Text.lf :: b) = do
      let ts ← scan file a
      let us ← (scan file b).mapError (Fault.moved (a.length + 1) (lineFeeds a + 1))
      return ts ++ joint file a :: us.map (moved (a.length + 1) (lineFeeds a + 1)) := by
  cases hscan : scan file a with
  | error f =>
    obtain ⟨offset, line, found, c, rest, hstuck, hm, rfl⟩ := scan_eq_error.1 hscan
    have hlf : isLineEnd Text.lf = true := by decide
    have hc : isLineEnd c = false := by
      rw [Bool.eq_false_iff]
      intro hc
      rw [firstMatch?_lineEnd hc] at hm
      cases hm
    have hstate := hstuck.before_line ha hlf b
    rw [List.cons_append] at hstate
    rw [hstate.scan_error (by rw [firstMatch?_append hc hlf, hm]),
      unmatched_before hstuck.reached.inside]
    rfl
  | ok ts =>
    obtain ⟨offset, line, hend⟩ := scan_eq_ok.1 hscan
    have hjoint := hend.at_joint ha hb
    cases hscan' : scan file b with
    | error f =>
      obtain ⟨offset', line', found, c, rest, hstuck, hm, rfl⟩ := scan_eq_error.1 hscan'
      rw [(hjoint.after hstuck).scan_error hm, unmatched_after]
      rfl
    | ok us =>
      obtain ⟨offset', line', hend'⟩ := scan_eq_ok.1 hscan'
      rw [(hjoint.after hend').scan_ok, List.append_assoc]
      rfl

/-- The first text ends in a comment, the second one starts with a name and has a formula. -/
theorem scan_joined_lines_after_a_comment :
    ∃ ts us, scan [] (utf8 "$l:\r\nmov ; \"x") = .ok ts ∧ scan [] (utf8 "r10,#(1+(2))") = .ok us ∧
      ts.length = 4 ∧ us.length = 3 ∧
      scan [] (utf8 "$l:\r\nmov ; \"x" ++ Text.lf :: utf8 "r10,#(1+(2))") =
        .ok (ts ++ joint [] (utf8 "$l:\r\nmov ; \"x") :: us.map (moved 14 2)) := by
  have hfirst : (scan [] (utf8 "$l:\r\nmov ; \"x")).toOption.map List.length = some 4 := by
    decide +kernel
  have hsecond : (scan [] (utf8 "r10,#(1+(2))")).toOption.map List.length = some 3 := by
    decide +kernel
  obtain ⟨ts, hts, htslength⟩ := Option.map_eq_some_iff.1 hfirst
  obtain ⟨us, hus, huslength⟩ := Option.map_eq_some_iff.1 hsecond
  have hts := Except.toOption_eq_some.1 hts
  have hus := Except.toOption_eq_some.1 hus
  refine ⟨ts, us, hts, hus, htslength, huslength, ?_⟩
  rw [scan_joined_lines [] _ _ (by decide +kernel) (by decide +kernel), hts, hus]
  rfl

end Token

end Octet
