import Octet.Proofs.PlaceIndependence

/-!
# Including a source means pasting its text

A line with an include can be replaced by the text that the include names, and the program stays the
same.

* `Grammar.includeLine` — the include of a path as source text;
* `Grammar.Denotes.paste` — a text with such a line, and the text with another in the place of the
  line;
* `assemble_paste_include` — **the assembled program is the same, up to the places of its rows**.
-/

namespace Octet

namespace Grammar

open Text (isLineEnd)
open Token (quoteMark)

/-- The include of a path as source text. -/
def includeLine (path : Text) : Text := utf8 "@include \"" ++ path ++ utf8 "\""

/-- A path that can be written between quotes on one line. -/
def Quotable (path : Text) : Prop := ∀ c ∈ path, c ≠ quoteMark ∧ isLineEnd c = false

instance (path : Text) : Decidable (Quotable path) :=
  inferInstanceAs (Decidable (∀ c ∈ path, c ≠ quoteMark ∧ isLineEnd c = false))

variable {path : Text} (hpath : Quotable path)
include hpath

/-! ## The tokens of an include -/

theorem firstMatch?_string :
    Token.firstMatch? (quoteMark :: (path ++ [quoteMark])) =
      some ⟨some .string, path.length + 1⟩ := by
  -- The seven rules before the one for strings do not match a quote.
  have hbefore (c : UInt8) (z : Text) :
      (Token.rules.take 7).findSome? (·.match? (quoteMark :: c :: z)) = none := rfl
  have hsplit : Token.rules =
      Token.rules.take 7 ++ ⟨some .string, Token.stringLength⟩ :: Token.rules.drop 8 := rfl
  have hbody :
      ((path ++ [quoteMark]).takeWhile fun c => c != quoteMark && !isLineEnd c) = path := by
    rw [List.takeWhile_append_of_pos, List.takeWhile_cons_of_neg (by simp), List.append_nil]
    intro c hc
    simp [(hpath c hc).1, (hpath c hc).2]
  have hlength : Token.stringLength (quoteMark :: (path ++ [quoteMark])) = path.length + 2 := by
    simp only [Token.stringLength, hbody, List.drop_left]
    rfl
  obtain ⟨c, z, hz⟩ : ∃ c z, path ++ [quoteMark] = c :: z := List.exists_cons_of_ne_nil (by simp)
  rw [Token.firstMatch?, hsplit, List.findSome?_append, hz, hbefore,
    ← hz, Option.none_or, List.findSome?_cons]
  simp only [Token.Rule.match?, hlength]

theorem lexemes_includeLine :
    Token.lexemes (includeLine path) =
      some [⟨.directive, utf8 "@include", [], 0, 0⟩, ⟨.string, path, [], 0, 0⟩] := by
  have hname (z : Text) :
      Token.firstMatch? ('@'.toUInt8 :: (utf8 "include" ++ 0x20 :: z)) =
        some ⟨some .directive, 7⟩ := rfl
  have hblank (z : Text) : Token.firstMatch? (0x20 :: quoteMark :: z) = some ⟨none, 0⟩ := rfl
  have htext : includeLine path =
      '@'.toUInt8 :: (utf8 "include" ++ 0x20 :: quoteMark :: (path ++ [quoteMark])) := by
    simp only [includeLine, List.append_assoc]
    rfl
  rw [htext, Token.lexemes_some rfl (hname _)]
  show (Token.lexemes (0x20 :: quoteMark :: (path ++ [quoteMark]))).map
    (⟨.directive, utf8 "@include", [], 0, 0⟩ :: ·) = _
  rw [Token.lexemes_some rfl (hblank _)]
  show ((Token.lexemes (quoteMark :: (path ++ [quoteMark]))).map ([] ++ ·)).map _ = _
  rw [Token.lexemes_some rfl (firstMatch?_string hpath)]
  have hall : (path ++ [quoteMark]).take (path.length + 1) = path ++ [quoteMark] :=
    List.take_of_length_le (by simp)
  simp [Token.lexeme, Token.keptText, Token.lexemes_nil, hall]

/-! ## Texts with an include -/

variable {formulas : Formulas} {gists : List Node} {x y : Text} {c d : UInt8}

/-- A text that starts with an include denotes the include and what follows. -/
theorem Denotes.of_include (hc : isLineEnd c = true)
    (h : Denotes formulas (includeLine path ++ c :: y) gists) :
    ∃ last, gists = .splice path .blank :: last ∧ Denotes formulas y last := by
  obtain ⟨ts, nodes, hts, hs, rfl⟩ := h
  rw [Token.lexemes_append hc, lexemes_includeLine hpath, Option.bind_some] at hts
  obtain ⟨us, hus, rfl⟩ := Option.map_eq_some_iff.1 hts
  cases hs with
  | newline hk _ => cases hk
  | element hn hrest =>
    cases hn with
    | definition _ ht _ => exact absurd ht (by decide)
    | stmt hstmt =>
      obtain ⟨_, _, heq, -, hdir⟩ := hstmt.kind_ne
      cases heq
      exact absurd rfl hdir
    | splice _ _ _ _ =>
      cases hrest with
      | newline _ hus' => exact ⟨_, rfl, us, _, hus, hus', rfl⟩
      | element hn _ =>
        obtain ⟨_, _, heq, hnl⟩ := hn.kind_ne
        cases heq
        exact absurd rfl hnl

/-- A text with an include on a line of its own denotes what stands before it, the include, and what
follows. -/
theorem Denotes.split_include (hc : isLineEnd c = true) (hd : isLineEnd d = true)
    (h : Denotes formulas (x ++ c :: (includeLine path ++ d :: y)) gists) :
    ∃ first last, gists = first ++ .splice path .blank :: last ∧ Denotes formulas x first ∧
      Denotes formulas y last := by
  obtain ⟨ts, nodes, hts, hs, rfl⟩ := h
  rw [Token.lexemes_append hc] at hts
  obtain ⟨xs, hxs, hts⟩ := Option.bind_eq_some_iff.1 hts
  obtain ⟨zs, hzs, rfl⟩ := Option.map_eq_some_iff.1 hts
  have hz : StartsDirective zs := by
    rw [Token.lexemes_append hd, lexemes_includeLine hpath, Option.bind_some] at hzs
    obtain ⟨us, -, rfl⟩ := Option.map_eq_some_iff.1 hzs
    exact ⟨_, _, rfl, rfl, by decide⟩
  obtain ⟨first, last, rfl, hfirst, hlast⟩ := hs.split rfl hz
  obtain ⟨last', hgist, hy⟩ := Denotes.of_include hpath hd ⟨zs, last, hzs, hlast, rfl⟩
  exact ⟨first.map Node.gist, last', by rw [List.map_append, hgist], ⟨xs, first, hxs, hfirst, rfl⟩,
    hy⟩

/-- **The line of an include can be replaced by another text.** What the text then denotes has the
nodes of the other text in the place of the include. -/
theorem Denotes.paste {a b : Text} (ha : ∀ c ∈ a.getLast?, isLineEnd c = true)
    (h : Denotes formulas (a ++ (includeLine path ++ Text.lf :: b)) gists) :
    ∃ first last, gists = first ++ .splice path .blank :: last ∧
      ∀ text inner, Denotes formulas text inner →
        Denotes formulas (a ++ (text ++ Text.lf :: b)) (first ++ (inner ++ last)) := by
  obtain rfl | ⟨x, c, rfl⟩ := List.eq_nil_or_concat a
  · obtain ⟨last, hg, hb⟩ := Denotes.of_include hpath rfl h
    exact ⟨[], last, hg, fun text inner hinner => hinner.append rfl hb⟩
  · have hc : isLineEnd c = true := ha c (by simp)
    rw [List.concat_eq_append, List.append_assoc] at h
    obtain ⟨first, last, hg, hx, hb⟩ := Denotes.split_include hpath hc rfl h
    refine ⟨first, last, hg, ?_⟩
    intro text inner hinner
    rw [List.concat_eq_append, List.append_assoc]
    exact hx.append hc (hinner.append rfl hb)

end Grammar

/-! ## Programs -/

open Grammar Expansion

theorem image_of_gist {p q : Program} (h : q.rows.map Row.gist = p.rows.map Row.gist) :
    q.image = p.image := by
  have hbytes (rows : List Row) :
      (rows.flatMap fun r => r.code.bytes) = (rows.map Row.gist).flatMap fun r => r.code.bytes := by
    rw [List.flatMap_map]
    rfl
  rw [Program.image, Program.image, hbytes, h, ← hbytes]

/-- **Including a source means pasting its text.** If a program with an include on a line of its own
assembles, then so does the program with the included text in the place of the include, to the same
image and with the same labels; the rows differ only by the places that they name. -/
theorem assemble_paste_include (s : Settings) (a b path text : Text) (p : Program)
    (ha : ∀ c ∈ a.getLast?, Text.isLineEnd c = true) (hpath : Quotable path)
    (hfind : s.resolver.find path = some text)
    (h : (assemble s (a ++ (includeLine path ++ Text.lf :: b))).result = .ok p) :
    ∃ q, (assemble s (a ++ (text ++ Text.lf :: b))).result = .ok q ∧ q.image = p.image ∧
      q.labels = p.labels ∧ q.rows.map Row.gist = p.rows.map Row.gist := by
  obtain ⟨nodes, items, hnodes, hspliced, hbuilt⟩ := assemble_eq_ok_built.1 h
  obtain ⟨first, last, hg, hpaste⟩ :=
    Denotes.paste hpath ha ((denotes_iff []).2 ⟨nodes, hnodes, rfl⟩)
  obtain ⟨inner, hinner, hinline⟩ := hspliced.inline hfind hg
  obtain ⟨nodes', hnodes', hg'⟩ := (denotes_iff []).1 (hpaste text inner hinner)
  obtain ⟨items', hspliced', hitems⟩ := hinline nodes' hg'
  obtain ⟨q, hq, hlabels, hrows⟩ := hbuilt.congr hitems
  exact ⟨q, assemble_eq_ok_built.2 ⟨nodes', items', hnodes', hspliced', hq⟩, image_of_gist hrows,
    hlabels, hrows⟩

theorem assemble_paste_include_pairs :
    ∃ p q,
      (assemble
        { resolver := .ofTable
            [(utf8 "pairs", utf8 "@macro two %r0\npsh %r0\npop %r0\n@endmacro ; twice")] }
        (utf8 "$top: two r1\n" ++
          (includeLine (utf8 "pairs") ++ Text.lf :: utf8 "lda $end\n$end:"))).result = .ok p ∧
      (assemble
        { resolver := .ofTable
            [(utf8 "pairs", utf8 "@macro two %r0\npsh %r0\npop %r0\n@endmacro ; twice")] }
        (utf8 "$top: two r1\n" ++ (utf8 "@macro two %r0\npsh %r0\npop %r0\n@endmacro ; twice" ++
          Text.lf :: utf8 "lda $end\n$end:"))).result = .ok q ∧
      p.image = [0x51, 0x61, 0x40, 0, 5] ∧ q.image = p.image ∧ q.labels = p.labels := by
  have himage :
      (assemble
        { resolver := .ofTable
            [(utf8 "pairs", utf8 "@macro two %r0\npsh %r0\npop %r0\n@endmacro ; twice")] }
        (utf8 "$top: two r1\n" ++ (includeLine (utf8 "pairs") ++ Text.lf :: utf8 "lda $end\n$end:"))
      ).result.toOption.map Program.image = some [0x51, 0x61, 0x40, 0, 5] := by
    simp only [assemble, expandIncludes, expandMacros, Worklist.expand_eq_nested]
    decide +kernel
  obtain ⟨p, hp, hi⟩ := Option.map_eq_some_iff.1 himage
  have hok := Except.toOption_eq_some.1 hp
  obtain ⟨q, hq, himg, hlabels, -⟩ :=
    assemble_paste_include _ _ _ _ (utf8 "@macro two %r0\npsh %r0\npop %r0\n@endmacro ; twice") p
      (by decide +kernel) (by decide +kernel) rfl hok
  exact ⟨p, q, hok, hq, hi, himg, hlabels⟩

end Octet
