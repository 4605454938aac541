import Octet.Assembler
import Octet.Proofs.Layout
import Octet.Proofs.MacroExpansion

/-!
# Assembly by stages

An assembly succeeds if each of its stages does, and the program is what the last of them leaves.

* `expanded?` — the stages before the layout;
* `assemble_eq_ok` — when an assembly succeeds, and with which program;
* `assemble_passes_agree` — **the addresses of rows, labels and references agree**;
* `assemble_rows` — rows follow one another and hold nothing beyond what they encode.
-/

namespace Octet

open Expansion Layout

/-- What the stages of an assembly before its layout leave: the sources that were read, and what is
placed. -/
structure Expanded where
  sources : Table Text
  placed : List Placed

/-- Reads a source, splices its includes in and expands its macro calls. -/
def expanded? (s : Settings) (source : Text) : Option Expanded := do
  let nodes ← (Node.ofSource [] source s.formulas).toOption
  let included ← (expandIncludes s.includeContext source nodes).toOption
  let (macros, stmts) ← (collectMacros included.sources [] #[] included.items.toList).toOption
  let placed ←
    (outcome (expandMacros ⟨included.sources, macros, s.maxDepth, s.verbose⟩ stmts)).toOption
  some ⟨included.sources, placed⟩

/-- The layout succeeds exactly if the labels fit and the instructions can be encoded with them. -/
theorem layout_eq_ok {sources : Table Text} {verbose : Bool} {log : Array Text}
    {placed : List Placed} {p : Program} :
    (∃ found, assignLabels sources verbose ⟨[], log⟩ 0 placed = .ok found ∧
        (emit sources found.labels #[] 0 placed).map (⟨·, found.labels⟩) = .ok p) ↔
      Fits [] (addresses 0 placed) ∧ p.labels = tableOf (addresses 0 placed) ∧
        Emitted sources p.labels 0 placed p.rows := by
  constructor
  · rintro ⟨found, hfound, h⟩
    obtain ⟨hfits, htable⟩ := assignLabels_eq_ok.1 ⟨found, hfound, rfl⟩
    obtain ⟨rows, hrows, rfl⟩ := Except.map_eq_ok.1 h
    obtain ⟨new, hnew, rfl⟩ := emit_eq_ok.1 hrows
    exact ⟨hfits, by simpa using htable, hnew⟩
  · rintro ⟨hfits, htable, hrows⟩
    obtain ⟨found, hfound, hlabels⟩ := assignLabels_eq_ok.2 ⟨hfits, rfl⟩
    refine ⟨found, hfound, Except.map_eq_ok.2 ⟨p.rows, emit_eq_ok.2 ⟨p.rows, ?_, rfl⟩, ?_⟩⟩
    · rw [hlabels, List.append_nil, ← htable]
      exact hrows
    · rw [hlabels, List.append_nil, ← htable]

/-- **An assembly succeeds** exactly if the expansion does, the labels fit and the instructions can
be encoded. -/
theorem assemble_eq_ok {s : Settings} {source : Text} {p : Program} :
    (assemble s source).result = .ok p ↔
      ∃ x, expanded? s source = some x ∧ Fits [] (addresses 0 x.placed) ∧
        p.labels = tableOf (addresses 0 x.placed) ∧
          Emitted x.sources p.labels 0 x.placed p.rows := by
  unfold assemble expanded?
  cases hn : Node.ofSource [] source s.formulas with
  | error f => simp [Except.toOption]
  | ok nodes =>
    cases hi : expandIncludes s.includeContext source nodes with
    | error e => simp [Except.toOption, hi]
    | ok included =>
      cases hc : collectMacros included.sources [] #[] included.items.toList with
      | error e => simp [Except.toOption, hi, hc]
      | ok r =>
        obtain ⟨macros, stmts⟩ := r
        cases hm : expandMacros ⟨included.sources, macros, s.maxDepth, s.verbose⟩ stmts with
        | error e => simp [Except.toOption, hi, hc, hm, outcome]
        | ok expanded =>
          simp only [Except.toOption, hi, hc, hm, outcome, Option.bind_eq_bind, Option.bind_some,
            Option.some.injEq, exists_eq_left']
          rw [← layout_eq_ok]
          cases assignLabels included.sources s.verbose ⟨[], included.log ++ expanded.log⟩ 0
            expanded.placed.toList with
          | error e => simp
          | ok found => simp

/-- Every instruction of an expansion is the one that its call selects. -/
theorem expanded?_selected {s : Settings} {source : Text} {x : Expanded}
    (h : expanded? s source = some x) :
    Selected x.placed := by
  unfold expanded? at h
  simp only [Option.bind_eq_bind, Option.bind_eq_some_iff] at h
  obtain ⟨nodes, -, included, -, ⟨macros, stmts⟩, -, placed, hplaced, hx⟩ := h
  cases hx
  rw [outcome_expandMacros] at hplaced
  intro entry c calls hmem
  exact (inlined_of_inlineCalls (Except.toOption_eq_some.1 hplaced)).entry hmem

/-- **The passes of an assembly agree.** The rows of an assembled program follow one another without
a gap, its image is made of their bytes, its labels are those of the expanded source, each with the
exact number of bytes before it, and every load of a label's address holds it. -/
theorem assemble_passes_agree (s : Settings) (source : Text) (p : Program)
    (h : (assemble s source).result = .ok p) :
    ∃ x, expanded? s source = some x ∧ Agrees x.placed p := by
  obtain ⟨x, hx, hfits, hlabels, hrows⟩ := assemble_eq_ok.1 h
  obtain ⟨rows, labels⟩ := p
  subst hlabels
  exact ⟨x, hx, agrees_of_passes (expanded?_selected hx) hfits hrows⟩

theorem assemble_passes_agree_forward_and_back :
    ∃ p, (assemble {} (utf8
      "$a: lda $b\n@macro two %r0\npsh %r0\npop %r0\n@endmacro\ntwo r1\n$b: lda $a\n")).result =
        .ok p ∧ p.image = [0x40, 0, 5, 0x51, 0x61, 0x40, 0, 0] ∧
      ∃ x, expanded? {}
        (utf8 "$a: lda $b\n@macro two %r0\npsh %r0\npop %r0\n@endmacro\ntwo r1\n$b: lda $a\n") =
        some x ∧ Agrees x.placed p := by
  have himage : (assemble {}
      (utf8 "$a: lda $b\n@macro two %r0\npsh %r0\npop %r0\n@endmacro\ntwo r1\n$b: lda $a\n")
      ).result.toOption.map Program.image = some [0x40, 0, 5, 0x51, 0x61, 0x40, 0, 0] := by
    simp only [assemble, expandIncludes, expandMacros, Worklist.expand_eq_nested]
    decide +kernel
  obtain ⟨p, hp, hi⟩ := Option.map_eq_some_iff.1 himage
  have hok := Except.toOption_eq_some.1 hp
  exact ⟨p, hok, hi, assemble_passes_agree _ _ p hok⟩

/-- The rows of an assembled program follow one another, and hold nothing beyond what they
encode. -/
theorem assemble_rows {s : Settings} {source : Text} {p : Program}
    (h : (assemble s source).result = .ok p) :
    Contiguous 0 p.rows ∧ ∀ r ∈ p.rows, r.code.Canonical := by
  obtain ⟨x, hx, -, -, hrows⟩ := assemble_eq_ok.1 h
  have hsel := expanded?_selected hx
  refine ⟨hrows.contiguous hsel, ?_⟩
  intro r hr
  obtain ⟨entry, c, calls, hmem, hcode, -⟩ := hrows.of_mem hr
  exact (encode_canonical (Instruction.mem_of_find? (hsel _ _ _ hmem)) hcode).1

end Octet
