import Octet.Proofs.ScanStates

/-!
# Tokens tile their source

The bytes of a source are those of its tokens, in order, and what is skipped between them: blanks
and comments. Every token knows its own place. If a source is rejected, this holds up to the place
of the fault, where nothing can be read.

* `Token.Located` — a token that is a text of its class at its own place;
* `Token.Skipped` — a byte between tokens;
* `Token.Tiled` — a source that is tiled up to an offset;
* `Token.Tiled.push`, `Token.Tiled.skip` — the tiling grows by a token, or by what is skipped;
* `Token.scan_tiles_source` — **scanned tokens tile their source, or the text before the fault**.
-/

namespace Octet.Token

open Text (isLineEnd)

/-! ## Tilings -/

/-- Where the bytes of a token end. -/
def stop (t : Token) : Int := t.offset + t.spelling.length

/-- The byte with an index is one of the token's. -/
def Covers (t : Token) (i : Nat) : Prop := t.offset ≤ i ∧ i < t.stop

/-- The token is a text of its class that stands in the source at its own place. -/
structure Located (t : Token) (file source : Text) : Prop where
  file : t.file = file
  place : ∃ (n : Nat) (rest : Text), t.offset = n ∧ t.line = Source.lineOf source n ∧
    source.drop n = t.spelling ++ rest ∧ Form (some t.kind) t.spelling rest
  oneLine : t.kind ≠ .newline → ∀ c ∈ t.spelling, isLineEnd c = false

/-- The bytes from `start` up to `stop` are a comment: a semicolon and all that follows on its
line. -/
structure CommentAt (source : Text) (start stop : Nat) : Prop where
  mark : source[start]? = some ';'.toUInt8
  nonempty : start < stop
  line : ∀ i, start ≤ i → i < stop → ∀ c ∈ source[i]?, isLineEnd c = false
  ends : ∀ c ∈ source[stop]?, isLineEnd c = true

/-- The byte with an index is skipped: it is a blank, or it belongs to a comment before the limit,
of which no byte is one of a token's. -/
inductive Skipped (source : Text) (ts : List Token) (limit i : Nat) : Prop
  | blank {b : UInt8} (hi : source[i]? = some b) (hb : isBlank b = true)
  | comment {start stop : Nat} (h : CommentAt source start stop) (hstart : start ≤ i)
    (hstop : i < stop)
    (hlimit : stop ≤ limit) (hfree : ∀ t ∈ ts, t.stop ≤ start ∨ stop ≤ t.offset)

/-- Up to the limit, the source is made of the tokens, which follow each other, and of what is
skipped. -/
structure Tiled (file source : Text) (limit : Nat) (ts : List Token) : Prop where
  inside : limit ≤ source.length
  located : ∀ t ∈ ts, t.Located file source
  ordered : ts.Pairwise fun t u => t.stop ≤ u.offset
  before : ∀ t ∈ ts, t.stop ≤ limit
  complete : ∀ i < limit, (∃ t ∈ ts, t.Covers i) ∨ Skipped source ts limit i

/-! ## How a tiling grows -/

variable {file source : Text} {limit : Nat} {ts : List Token}

theorem Tiled.start (file source : Text) : Tiled file source 0 [] where
  inside := Nat.zero_le _
  located := by simp
  ordered := .nil
  before := by simp
  complete := by simp

theorem Skipped.mono {i limit' : Nat} (h : Skipped source ts limit i) (hle : limit ≤ limit') :
    Skipped source ts limit' i := by
  cases h with
  | blank hi hb => exact .blank hi hb
  | comment h hstart hstop hlimit hfree =>
    exact .comment h hstart hstop (Nat.le_trans hlimit hle) hfree

theorem Skipped.push {i : Nat} {t : Token} (h : Skipped source ts limit i) (ht : limit ≤ t.offset) :
    Skipped source (ts ++ [t]) limit i := by
  cases h with
  | blank hi hb => exact .blank hi hb
  | @comment start stop h hstart hstop hlimit hfree =>
    refine .comment h hstart hstop hlimit (List.forall_mem_append.2 ⟨hfree, ?_⟩)
    intro u hu
    rw [List.mem_singleton.1 hu]
    exact .inr (by omega)

/-- A token that starts at the limit belongs to the tiling. -/
theorem Tiled.push (h : Tiled file source limit ts) {t : Token} {limit' : Nat}
    (ht : t.Located file source) (hoffset : t.offset = limit) (hstop : t.stop = limit')
    (hinside : limit' ≤ source.length) :
    Tiled file source limit' (ts ++ [t]) where
  inside := hinside
  located := List.forall_mem_append.2 ⟨h.located, by simpa using ht⟩
  ordered := by
    refine List.pairwise_append.2 ⟨h.ordered, List.pairwise_singleton _ _, ?_⟩
    intro u hu v hv
    rw [List.mem_singleton.1 hv, hoffset]
    exact h.before u hu
  before := by
    refine List.forall_mem_append.2 ⟨?_, by simp [hstop]⟩
    intro u hu
    have hbefore := h.before u hu
    have : t.offset ≤ t.stop := by
      rw [stop]
      omega
    omega
  complete := by
    have hle : limit ≤ limit' := by
      rw [stop] at hstop
      omega
    intro i hi
    by_cases hold : i < limit
    · rcases h.complete i hold with ⟨u, hu, hcovers⟩ | hskipped
      · exact .inl ⟨u, List.mem_append_left _ hu, hcovers⟩
      · exact .inr ((hskipped.push (by omega)).mono hle)
    · exact .inl ⟨t, by simp, by omega, by omega⟩

/-- What is skipped at the limit belongs to the tiling. -/
theorem Tiled.skip (h : Tiled file source limit ts) {limit' : Nat} (hle : limit ≤ limit')
    (hinside : limit' ≤ source.length)
    (hskipped : ∀ i, limit ≤ i → i < limit' → Skipped source ts limit' i) :
    Tiled file source limit' ts where
  inside := hinside
  located := h.located
  ordered := h.ordered
  before t ht := by
    have hbefore := h.before t ht
    omega
  complete := by
    intro i hi
    by_cases hold : i < limit
    · exact (h.complete i hold).imp_right fun hskip => hskip.mono hle
    · exact .inr (hskipped i (by omega) hi)

/-! ## What is skipped -/

section

variable {n : Nat} {x rest : Text}

theorem getElem?_piece (h : source.drop n = x ++ rest) {i : Nat} (hle : n ≤ i)
    (hlt : i < n + x.length) :
    source[i]? = x[i - n]? := by
  have hdrop : (source.drop n)[i - n]? = source[n + (i - n)]? := List.getElem?_drop
  rw [h, List.getElem?_append_left (by omega), Nat.add_sub_cancel' hle] at hdrop
  exact hdrop.symm

theorem getElem?_after (h : source.drop n = x ++ rest) : source[n + x.length]? = rest.head? := by
  rw [← List.getElem?_drop, h, List.getElem?_append_right (Nat.le_refl _), Nat.sub_self,
    List.head?_eq_getElem?]

theorem commentAt_of_drop {body : Text} (h : source.drop n = ';'.toUInt8 :: body ++ rest)
    (hbody : ∀ c ∈ body, isLineEnd c = false) (hrest : ∀ c ∈ rest.head?, isLineEnd c = true) :
    CommentAt source n (n + (';'.toUInt8 :: body).length) where
  mark := by rw [getElem?_piece h (Nat.le_refl n) (by simp), Nat.sub_self, List.getElem?_cons_zero]
  nonempty := by simp
  line i hle hlt c hc := by
    rw [getElem?_piece h hle hlt] at hc
    have hall : ∀ c ∈ ';'.toUInt8 :: body, isLineEnd c = false :=
      List.forall_mem_cons.2 ⟨by decide, hbody⟩
    exact hall c (List.mem_of_getElem? hc)
  ends := by
    rw [getElem?_after h]
    exact hrest

/-- Blanks and comments at the limit are skipped. -/
theorem Form.skipped (hform : Form none x rest) (h : source.drop n = x ++ rest)
    (hbefore : ∀ t ∈ ts, t.stop ≤ n) :
    ∀ i, n ≤ i → i < n + x.length → Skipped source ts (n + x.length) i := by
  intro i hle hlt
  cases hform with
  | comment hbody hrest =>
    exact .comment (commentAt_of_drop h hbody hrest) hle hlt (Nat.le_refl _) fun t ht =>
      .inl (hbefore t ht)
  | blanks hx =>
    have hi : source[i]? = some x[i - n] := by
      rw [getElem?_piece h hle hlt, List.getElem?_eq_getElem (by omega)]
    exact .blank hi (hx.all _ (List.getElem_mem _))

end

/-! ## Scanned tokens -/

/-- **The tokens of every state tile the source up to its offset.** -/
theorem Scanning.tiled {offset line : Nat} {input : Text}
    (h : Scanning file source offset line ts input) :
    Tiled file source offset ts := by
  induction h with
  | start => exact Tiled.start file source
  | @step offset line found kind x rest h hx ih =>
    have hreached := h.reached
    have hform := hx.form
    have hinside : offset + x.length ≤ source.length := by
      have hlength := congrArg List.length hreached.input
      rw [List.length_drop, List.length_append] at hlength
      have := hreached.inside
      omega
    cases kind with
    | none =>
      rw [tokensOf, Option.toList_none, List.map_nil, List.append_nil]
      exact ih.skip (Nat.le_add_right ..) hinside (hform.skipped hreached.input ih.before)
    | some kind =>
      have hspelling := hform.spelling file offset line
      refine ih.push ⟨rfl, ⟨offset, rest, rfl, ?_, ?_, ?_⟩, ?_⟩ rfl ?_ hinside
      · rw [hreached.line]
      · rw [hspelling]
        exact hreached.input
      · rw [hspelling]
        exact hform
      · rw [hspelling]
        exact hform.oneLine
      · rw [stop, hspelling]
        exact (Int.natCast_add _ _).symm

/-- **Scanned tokens tile their source. If a source is rejected, this holds of the text before the
place of the fault, where no text of a class stands.** -/
theorem scan_tiles_source (file source : Text) :
    (∀ ts, scan file source = .ok ts → Tiled file source source.length ts) ∧
      ∀ f, scan file source = .error f → ∃ (n : Nat) (ts : List Token) (b : UInt8) (rest : Text),
        f = .located file n (Source.lineOf source n) (Source.lineAt source n)
          (.all [.cause .lex, .character ((Text.firstPoint b rest).code.getD Text.replacement)]) ∧
        Tiled file source n ts ∧ source.drop n = b :: rest ∧
        ∀ kind x after, b :: rest = x ++ after → ¬ Form kind x after := by
  constructor
  · intro ts h
    obtain ⟨offset, line, hend⟩ := scan_eq_ok.1 h
    rw [← hend.reached.offset_eq]
    exact hend.tiled
  · intro f h
    obtain ⟨offset, line, found, b, rest, hstuck, hm, rfl⟩ := scan_eq_error.1 h
    have hreached := hstuck.reached
    refine ⟨offset, found, b, rest, ?_, hstuck.tiled, hreached.input, firstMatch?_eq_none_iff.1 hm⟩
    rw [unmatched, hreached.line]

/-- A source with comments, a string and a formula, and one with a string that is not closed. -/
theorem scan_tiles_source_with_comments :
    (∃ ts, scan [] (utf8 "a ;\"b\r\n\t\";c\"#((1))x;") = .ok ts ∧ ts.length = 5 ∧
      Tiled [] (utf8 "a ;\"b\r\n\t\";c\"#((1))x;") 20 ts) ∧
      ∃ f, scan [] (utf8 "r1 ;c\n \"d;") = .error f ∧
        ∃ (n : Nat) (ts : List Token) (b : UInt8) (rest : Text),
        f = .located [] n (Source.lineOf (utf8 "r1 ;c\n \"d;") n)
          (Source.lineAt (utf8 "r1 ;c\n \"d;") n)
          (.all [.cause .lex, .character ((Text.firstPoint b rest).code.getD Text.replacement)]) ∧
        Tiled [] (utf8 "r1 ;c\n \"d;") n ts ∧ (utf8 "r1 ;c\n \"d;").drop n = b :: rest ∧
        ∀ kind x after, b :: rest = x ++ after → ¬ Form kind x after := by
  constructor
  · have hscan : (scan [] (utf8 "a ;\"b\r\n\t\";c\"#((1))x;")).toOption.map List.length = some 5 :=
      by decide +kernel
    obtain ⟨ts, hts, hlength⟩ := Option.map_eq_some_iff.1 hscan
    have hok := Except.toOption_eq_some.1 hts
    exact ⟨ts, hok, hlength, (scan_tiles_source [] _).1 ts hok⟩
  · have hscan : (scan [] (utf8 "r1 ;c\n \"d;")).toOption.isSome = false := by decide +kernel
    cases hresult : scan [] (utf8 "r1 ;c\n \"d;") with
    | ok ts =>
      rw [hresult] at hscan
      cases hscan
    | error f => exact ⟨f, rfl, (scan_tiles_source [] _).2 f hresult⟩

end Octet.Token
