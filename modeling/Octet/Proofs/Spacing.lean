import Octet.Proofs.Pasting

/-!
# Spacing and comments do not matter

Blanks, comments and line ends move tokens about and change nothing else of them. Every token,
statement, argument and macro call carries its place along, but the places reach only faults and the
places of rows.

* `Source.SameTokens` — sources that differ in spacing and comments;
* `Node.ofSource_same_tokens` — such sources have the same nodes, up to places;
* `assemble_spacing_irrelevant` — **they assemble to the same program, or not at all**.
-/

namespace Octet

/-- The outline of a token list is a matter of the gists of its tokens. -/
theorem Token.outline_of_gists {ts us : List Token} (h : us.map gist = ts.map gist) :
    outline us = outline ts := by
  induction ts generalizing us with
  | nil =>
    rw [List.map_nil, List.map_eq_nil_iff] at h
    rw [h]
  | cons t ts ih =>
    obtain ⟨u, vs, rfl, hu, hv⟩ := List.map_eq_cons_iff.1 h
    rw [outline, outline, ih hv, hu, kind_of_gist hu]

/-- The sources have tokens of the same classes and texts, in the same order, apart from the texts
of line ends; or neither of them can be scanned. -/
def Source.SameTokens (source source' : Text) : Prop :=
  (Token.scan [] source').toOption.map (List.map Token.gist) =
    (Token.scan [] source).toOption.map (List.map Token.gist)

instance (source source' : Text) : Decidable (Source.SameTokens source source') :=
  inferInstanceAs (Decidable (_ = _))

section

variable {source source' : Text}

theorem Source.SameTokens.symm (h : SameTokens source source') : SameTokens source' source :=
  Eq.symm h

theorem Source.SameTokens.scan (h : SameTokens source source') {ts : List Token}
    (hscan : Token.scan [] source = .ok ts) :
    ∃ us, Token.scan [] source' = .ok us ∧ us.map Token.gist = ts.map Token.gist := by
  rw [SameTokens, hscan] at h
  obtain ⟨us, hus, hgists⟩ := Option.map_eq_some_iff.1 h
  exact ⟨us, Except.toOption_eq_some.1 hus, hgists⟩

theorem Node.ofSource_same_tokens (h : Source.SameTokens source source') {formulas : Formulas}
    {nodes : List Node} (hnodes : Node.ofSource [] source formulas = .ok nodes) :
    ∃ nodes', Node.ofSource [] source' formulas = .ok nodes' ∧
      nodes'.map Node.gist = nodes.map Node.gist := by
  obtain ⟨ts, hscan, hread⟩ := Grammar.ofSource_eq_ok.1 hnodes
  obtain ⟨us, hscan', hgists⟩ := h.scan hscan
  obtain ⟨nodes', hread', hg⟩ := hread.congr (Token.outline_of_gists hgists)
  exact ⟨nodes', Grammar.ofSource_eq_ok.2 ⟨us, hscan', hread'⟩, hg⟩

theorem words_of_gist {rows rows' : List Row} (h : rows'.map Row.gist = rows.map Row.gist) :
    rows'.map Row.words = rows.map Row.words := by
  have hwords : Row.words = Row.words ∘ Row.gist := rfl
  rw [hwords, ← List.map_map, h, List.map_map]

/-- A source that assembles does so with other spacing. What is logged on the way does not matter
either. -/
theorem assemble_ok_of_same_tokens (h : Source.SameTokens source source') {s : Settings}
    {p : Program} (hp : (assemble s source).result = .ok p) (verbose : Bool) :
    ∃ q, (assemble { s with verbose := verbose } source').result = .ok q ∧ q.labels = p.labels ∧
      q.rows.map Row.gist = p.rows.map Row.gist := by
  obtain ⟨nodes, items, hnodes, hspliced, hbuilt⟩ := assemble_eq_ok_built.1 hp
  obtain ⟨nodes', hnodes', hg⟩ := Node.ofSource_same_tokens h hnodes
  obtain ⟨items', hspliced', hitems⟩ := hspliced.relocate hg (fun _ hpath => hpath) (Nat.le_refl _)
  obtain ⟨q, hq, hlabels, hrows⟩ := hbuilt.congr hitems
  exact ⟨q, assemble_eq_ok_built.2 ⟨nodes', items', hnodes', hspliced', hq⟩, hlabels, hrows⟩

end

/-- **Spacing and comments do not matter.** Two sources with the same tokens both assemble, to the
same image, the same labels and the same words in each row, or both fail. -/
theorem assemble_spacing_irrelevant (s : Settings) (verbose : Bool) (source source' : Text)
    (h : Source.SameTokens source source') :
    (∃ p q, (assemble s source).result = .ok p ∧
      (assemble { s with verbose := verbose } source').result = .ok q ∧
        q.image = p.image ∧ q.labels = p.labels ∧ q.rows.map Row.words = p.rows.map Row.words) ∨
      ∃ f g, (assemble s source).result = .error f ∧
        (assemble { s with verbose := verbose } source').result = .error g := by
  cases hp : (assemble s source).result with
  | ok p =>
    obtain ⟨q, hq, hlabels, hrows⟩ := assemble_ok_of_same_tokens h hp verbose
    exact .inl ⟨p, q, rfl, hq, image_of_gist hrows, hlabels, words_of_gist hrows⟩
  | error f =>
    cases hq : (assemble { s with verbose := verbose } source').result with
    | error g => exact .inr ⟨f, g, rfl, rfl⟩
    | ok q =>
      obtain ⟨p, hp', -, -⟩ := assemble_ok_of_same_tokens h.symm hq s.verbose
      cases hp'.symm.trans hp

/-- A macro, a label and an include in few bytes. -/
def dense : Text :=
  utf8 "@macro set %r0,%l0\nmov %r0,%l0\n@endmacro\n@include\"lib\"\n$a:set r1,#7\nlda $a"

/-- The same with room around the tokens. -/
def spacious : Text :=
  utf8 "@macro set %r0 , %l0 ; a byte\r\n\n\tmov %r0, %l0\n@endmacro ; set\n" ++
    utf8 "  @include \"lib\"\n$a :\tset r1, #7\r\n lda $a "

theorem assemble_spacing_irrelevant_around_a_macro :
    Source.SameTokens dense spacious ∧
      ∃ p q,
        (assemble { resolver := .ofTable [(utf8 "lib", utf8 "not r2\n")] } dense).result = .ok p ∧
        (assemble { resolver := .ofTable [(utf8 "lib", utf8 "not r2\n")], verbose := true }
          spacious).result = .ok q ∧
        p.image = [0xE2, 0x11, 7, 0x40, 0, 1] ∧ q.image = p.image ∧ q.labels = p.labels ∧
        q.rows.map Row.words = p.rows.map Row.words := by
  have htokens : Source.SameTokens dense spacious := by decide +kernel
  have himage :
      (assemble { resolver := .ofTable [(utf8 "lib", utf8 "not r2\n")] } dense).result.toOption.map
      Program.image = some [0xE2, 0x11, 7, 0x40, 0, 1] := by
    simp only [assemble, Expansion.expandIncludes, Expansion.expandMacros,
      Worklist.expand_eq_nested]
    decide +kernel
  obtain ⟨p, hp, hi⟩ := Option.map_eq_some_iff.1 himage
  have hok := Except.toOption_eq_some.1 hp
  obtain ⟨p', q, hp', hq, himg, hlabels, hwords⟩ | ⟨f, -, hf, -⟩ :=
    assemble_spacing_irrelevant { resolver := .ofTable [(utf8 "lib", utf8 "not r2\n")] } true dense
      spacious htokens
  · cases hp'.symm.trans hok
    exact ⟨htokens, p, q, hok, hq, hi, himg, hlabels, hwords⟩
  · cases hf.symm.trans hok

end Octet
