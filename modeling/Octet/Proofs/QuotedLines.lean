import Octet.Proofs.CodePoints
import Octet.Proofs.ScanStates

/-!
# The lines that faults quote

A fault quotes the line of its token: what stands after the last line feed before the token, up to
the next line end, without white space around it. Tokens start and end with visible bytes, so
trimming leaves them whole. But a carriage return that no line feed follows ends a line as well, and
the search for the start of the line passes over it. Then the text up to the first such carriage
return is quoted, which stands before the token.

* `Source.sinceFeed` — the text between the last line feed and an offset;
* `Source.lineAt_of_line`, `Source.lineAt_of_return` — the line that is quoted, without and with a
  carriage return there;
* `Token.Form.framed` — tokens other than line ends start and end with visible bytes;
* `quoted_line_holds_token` — **the quoted line holds the token, unless a carriage return stands
  between the last line feed and the token**; then it is the text before that.
-/

namespace Octet

namespace Source

open Text (isLineEnd)

/-- The text between the last line feed before the offset, or the start of the source, and the
offset. -/
def sinceFeed (source : Text) (n : Nat) : Text :=
  ((source.take n).reverse.takeWhile (· != Text.lf)).reverse

theorem lf_not_mem_sinceFeed (source : Text) (n : Nat) : Text.lf ∉ sinceFeed source n := by
  intro hmem
  have hlf := List.mem_takeWhile_imp (List.mem_reverse.1 hmem)
  simp at hlf

/-- **The line of an offset starts after the last line feed before it.** -/
theorem drop_lineStart (source : Text) (n : Nat) :
    source.drop (lineStart source n) = sinceFeed source n ++ source.drop n := by
  -- Read backwards from the offset, the line is a run of bytes that are no line feeds.
  obtain ⟨lines, hlines⟩ := List.takeWhile_prefix (· != Text.lf) (l := (source.take n).reverse)
  have htake : source.take n = lines.reverse ++ sinceFeed source n := by
    rw [sinceFeed, ← List.reverse_append, hlines, List.reverse_reverse]
  have hstart : lineStart source n = lines.reverse.length := by
    have hdef : lineStart source n = (source.take n).length - (sinceFeed source n).length := by
      rw [sinceFeed, List.length_reverse]
      rfl
    rw [hdef, htake, List.length_append, Nat.add_sub_cancel]
  have hsource : source = lines.reverse ++ (sinceFeed source n ++ source.drop n) := by
    rw [← List.append_assoc, ← htake, List.take_append_drop]
  rw [hstart]
  conv_lhs => rw [hsource]
  exact List.drop_left

section

variable {source : Text} {n : Nat}

/-- What stands since the last line feed is one line up to the first carriage return. -/
theorem oneLine_sinceFeed {piece : Text} (h : ∀ b ∈ piece, b ∈ sinceFeed source n)
    (hcr : Text.cr ∉ piece) :
    ∀ b ∈ piece, (!isLineEnd b) = true := by
  intro b hb
  have hne : b ≠ Text.cr := fun he => hcr (he ▸ hb)
  have hnf : b ≠ Text.lf := fun he => lf_not_mem_sinceFeed source n (he ▸ h b hb)
  simp [isLineEnd, hne, hnf]

/-- Without a carriage return since the last line feed, the line goes on at the offset. -/
theorem lineAt_of_line (hcr : Text.cr ∉ sinceFeed source n) :
    lineAt source n =
      Text.trim (sinceFeed source n ++ (source.drop n).takeWhile fun b => !isLineEnd b) := by
  rw [lineAt, drop_lineStart, List.takeWhile_append_of_pos (oneLine_sinceFeed (fun _ hb => hb) hcr)]

/-- With a carriage return since the last line feed, the line ends before the first of them. -/
theorem lineAt_of_return {piece more : Text} (hline : sinceFeed source n = piece ++ Text.cr :: more)
    (hcr : Text.cr ∉ piece) : lineAt source n = Text.trim piece := by
  have hpiece : ∀ b ∈ piece, b ∈ sinceFeed source n := by
    rw [hline]
    exact fun _ hb => List.mem_append_left _ hb
  rw [lineAt, drop_lineStart, hline, List.append_assoc,
    List.takeWhile_append_of_pos (oneLine_sinceFeed hpiece hcr), List.cons_append,
    List.takeWhile_cons_of_neg (by decide), List.append_nil]

end

end Source

namespace Token

open Text (isVisible Framed framed_of_all framed_of_ends)

/-! ## Tokens and white space -/

theorem isVisible_of_range {b : UInt8} (hlo : 0x21 ≤ b.toNat) (hhi : b.toNat < 0x80) :
    isVisible b = true := by
  have hlt : b < 0x80 := hhi
  simp only [isVisible, Text.isSpace, hlt, decide_true, Bool.true_and, Bool.not_eq_true',
    Bool.or_eq_false_iff, Bool.and_eq_false_iff, decide_eq_false_iff_not, beq_eq_false_iff_ne]
  omega

theorem isVisible_of_isWordByte {b : UInt8} (h : isWordByte b = true) : isVisible b = true := by
  simp only [isWordByte, isWordStart, Text.isAsciiLetter, Text.isDigit, Bool.or_eq_true,
    Bool.and_eq_true, decide_eq_true_eq, beq_iff_eq, UInt8.le_iff_toNat_le] at h
  have ha : 'a'.toUInt8.toNat = 0x61 := rfl
  have hz : 'z'.toUInt8.toNat = 0x7A := rfl
  have hA : 'A'.toUInt8.toNat = 0x41 := rfl
  have hZ : 'Z'.toUInt8.toNat = 0x5A := rfl
  have h0 : '0'.toUInt8.toNat = 0x30 := rfl
  have h9 : '9'.toUInt8.toNat = 0x39 := rfl
  rcases h with ((h | h) | rfl) | h
  · exact isVisible_of_range (by omega) (by omega)
  · exact isVisible_of_range (by omega) (by omega)
  · decide
  · exact isVisible_of_range (by omega) (by omega)

theorem framed_of_wordBytes {x : Text} (hne : x ≠ []) (h : ∀ b ∈ x, isWordByte b = true) :
    Framed x :=
  framed_of_all hne fun b hb => isVisible_of_isWordByte (h b hb)

/-- A mark in front of word bytes. -/
theorem framed_of_mark {b : UInt8} {x : Text} (hb : isVisible b = true)
    (h : ∀ c ∈ x, isWordByte c = true) :
    Framed (b :: x) :=
  framed_of_all (List.cons_ne_nil _ _)
    (List.forall_mem_cons.2 ⟨hb, fun c hc => isVisible_of_isWordByte (h c hc)⟩)

/-- **Tokens other than line ends start and end with visible bytes.** -/
theorem Form.framed {kind : TokenKind} {x rest : Text} (h : Form (some kind) x rest)
    (hk : kind ≠ .newline) :
    Framed x := by
  have hparam (letter : UInt8) (hletter : isWordByte letter = true) {ds : Text}
      (hds : Run Text.isDigit ds) :
      Framed ('%'.toUInt8 :: letter :: ds) :=
    framed_of_mark (by decide)
      (List.forall_mem_cons.2 ⟨hletter, fun b hb => isWordByte_of_isDigit (hds.all b hb)⟩)
  cases h with
  | register h _ =>
    obtain ⟨b, hb, -⟩ := first_of_registerName x h
    exact framed_of_wordBytes (by rintro rfl; cases hb) (isWordByte_of_registerName x h)
  | instruction h _ =>
    obtain ⟨b, hb, -⟩ := first_of_mnemonic x h
    exact framed_of_wordBytes (by rintro rfl; cases hb) (isWordByte_of_mnemonic x h)
  | word h => exact framed_of_wordBytes (by rintro rfl; cases h) h.all
  | directive h => exact framed_of_mark (by decide) h.all
  | label h => exact framed_of_mark (by decide) h.all
  | registerParam h => exact hparam _ (by decide) h
  | literalParam h => exact hparam _ (by decide) h
  | string _ => exact framed_of_ends (by decide) (by decide) _
  | comma => exact framed_of_mark (by decide) (List.forall_mem_nil _)
  | colon => exact framed_of_mark (by decide) (List.forall_mem_nil _)
  | newline _ => exact absurd rfl hk
  | numeral h _ => exact framed_of_mark (by decide) h.all
  | @formula body _ _ => exact framed_of_ends (by decide) (by decide) ('('.toUInt8 :: body)

end Token

/-! ## Quoted lines -/

open Source (sinceFeed lineAt)

/-- **The quoted line holds the token, unless a carriage return stands between the last line feed
and the token.** With none there, the line around the token is quoted; otherwise the text between
that line feed and the first such carriage return. -/
theorem quoted_line_holds_token (file source : Text) (ts : List Token)
    (h : Token.scan file source = .ok ts) :
    ∀ t ∈ ts, t.kind ≠ .newline → ∃ n : Nat, t.offset = n ∧ t.spelling <+: source.drop n ∧
      (Text.cr ∉ sinceFeed source n → t.spelling <:+: lineAt source n ∧
        lineAt source n =
          Text.trim (sinceFeed source n ++ (source.drop n).takeWhile fun b => !Text.isLineEnd b)) ∧
      ∀ piece more, sinceFeed source n = piece ++ Text.cr :: more → Text.cr ∉ piece →
        lineAt source n = Text.trim piece := by
  intro t ht hk
  obtain ⟨offset, line, hend⟩ := Token.scan_eq_ok.1 h
  obtain ⟨n, l, found, kind, x, rest, hstate, hx, rfl⟩ := hend.origin ht
  have hform := hx.form
  have hinput : source.drop n = x ++ rest := hstate.reached.input
  rw [hform.spelling]
  refine ⟨n, rfl, ⟨rest, hinput.symm⟩, ?_, fun piece more => Source.lineAt_of_return⟩
  intro hcr
  refine ⟨?_, Source.lineAt_of_line hcr⟩
  -- The token has no line end in it, so the line goes on behind it.
  have hall : ∀ b ∈ x, (!Text.isLineEnd b) = true := by simpa using hform.oneLine hk
  rw [Source.lineAt_of_line hcr, hinput, List.takeWhile_append_of_pos hall]
  exact (hform.framed hk).infix_trim _ _

/-- A string with a blank at its end, after a line that ends with both bytes. -/
theorem quoted_line_holds_token_of_string :
    ∃ (ts : List Token) (t : Token) (n : Nat),
      Token.scan [] (utf8 "a\r\n\tb \"c \" ;d\r") = .ok ts ∧ t ∈ ts ∧
      t.offset = n ∧ t.spelling = utf8 "\"c \"" ∧
        t.spelling <:+: lineAt (utf8 "a\r\n\tb \"c \" ;d\r") n := by
  have hscan : ((Token.scan [] (utf8 "a\r\n\tb \"c \" ;d\r")).toOption.bind (·[3]?)) =
      some ⟨.string, utf8 "c ", [], 6, 2⟩ := by
    decide +kernel
  obtain ⟨ts, hts, hget⟩ := Option.bind_eq_some_iff.1 hscan
  have hok := Except.toOption_eq_some.1 hts
  have hmem := List.mem_of_getElem? hget
  obtain ⟨n, hoffset, -, hholds, -⟩ := quoted_line_holds_token [] _ ts hok _ hmem (by decide)
  obtain rfl : 6 = n := Int.ofNat_inj.1 hoffset
  exact ⟨ts, _, 6, hok, hmem, rfl, by decide +kernel, (hholds (by decide +kernel)).1⟩

/-- **The quoted line need not hold the token**: after a lone carriage return, the line before it is
quoted. -/
theorem quoted_line_lacks_token :
    ∃ (ts : List Token) (t : Token) (n : Nat), Token.scan [] (utf8 "mov r1, #5\rbogus\n") = .ok ts ∧
      t ∈ ts ∧ t.kind ≠ .newline ∧ t.offset = n ∧ t.spelling = utf8 "bogus" ∧
      lineAt (utf8 "mov r1, #5\rbogus\n") n = utf8 "mov r1, #5" ∧
      ¬ t.spelling <:+: lineAt (utf8 "mov r1, #5\rbogus\n") n := by
  have hscan : ((Token.scan [] (utf8 "mov r1, #5\rbogus\n")).toOption.bind (·[5]?)) =
      some ⟨.word, utf8 "bogus", [], 11, 1⟩ := by
    decide +kernel
  obtain ⟨ts, hts, hget⟩ := Option.bind_eq_some_iff.1 hscan
  have hline : lineAt (utf8 "mov r1, #5\rbogus\n") 11 = utf8 "mov r1, #5" := by decide +kernel
  refine ⟨ts, _, 11, Except.toOption_eq_some.1 hts, List.mem_of_getElem? hget, by decide, rfl, rfl,
    hline, ?_⟩
  rw [hline]
  intro hinfix
  have hmem : 'b'.toUInt8 ∈ utf8 "mov r1, #5" := hinfix.mem (by decide +kernel)
  revert hmem
  decide +kernel

end Octet
