import Octet.Proofs.Assembly
import Octet.Proofs.IncludeExpansion

/-!
# Places do not matter

Where statements stand, and in which source, tells rows and faults where they come from, and nothing
else.

* `Expansion.collectMacros_eq_ok` — the macros and the statements of a program;
* `Built` — items and the program that they become;
* `assemble_eq_ok_built` — an assembly reads nodes, splices them to items and builds the program of
  these;
* `Built.congr` — **items with the same gists become the same program, up to the places of its
  rows**.
-/

namespace Octet

/-! ## Definitions and statements -/

namespace Expansion

/-- The definitions among items. -/
def definitions (items : List Item) : List Macro :=
  items.filterMap fun
    | .definition m => some m
    | .stmt _ => none

/-- The statements among items. -/
def statements (items : List Item) : List Stmt :=
  items.filterMap fun
    | .definition _ => none
    | .stmt s => some s

/-- Macros by key; the last comes first. -/
def macroTable (macros : List Macro) : Table Macro := (macros.map fun m => (m.key, m)).reverse

/-- **Definitions are collected** exactly if their keys can be added to the macros. -/
theorem collectMacros_eq_ok {sources : Table Text} {macros : Table Macro} {stmts : Array Stmt}
    {items : List Item} {r : Table Macro × List Stmt} :
    collectMacros sources macros stmts items = .ok r ↔
      macros.Fresh ((definitions items).map Macro.key) ∧
        r = (macroTable (definitions items) ++ macros, stmts.toList ++ statements items) := by
  induction items generalizing macros stmts with
  | nil =>
    constructor
    · intro h
      cases h
      exact ⟨Table.fresh_nil, by simp [definitions, statements, macroTable]⟩
    · rintro ⟨-, rfl⟩
      simp [collectMacros, definitions, statements, macroTable]
  | cons i items ih =>
    cases i with
    | stmt s =>
      rw [collectMacros, ih]
      simp [definitions, statements]
    | definition m =>
      have hdefs : definitions (.definition m :: items) = m :: definitions items := rfl
      have htable : macroTable (m :: definitions items) ++ macros =
          macroTable (definitions items) ++ (m.key, m) :: macros := by simp [macroTable]
      rw [collectMacros, hdefs, htable, List.map_cons, Table.fresh_cons m]
      cases hfind : macros.find? m.key with
      | some m' => simp
      | none =>
        simp only [Option.isSome_none, Bool.false_eq_true, if_false, true_and]
        exact ih

theorem definitions_gist (items : List Item) :
    definitions (items.map Item.gist) = (definitions items).map Macro.gist := by
  induction items with
  | nil => rfl
  | cons i items ih => cases i <;> simp_all [definitions, Item.gist]

theorem statements_gist (items : List Item) :
    statements (items.map Item.gist) = (statements items).map Stmt.gist := by
  induction items with
  | nil => rfl
  | cons i items ih => cases i <;> simp_all [statements, Item.gist]

theorem macroTable_gist (macros : List Macro) (key : Text) :
    (macroTable (macros.map Macro.gist)).find? key =
      ((macroTable macros).find? key).map Macro.gist := by
  rw [← Table.find?_map]
  simp [macroTable, Function.comp_def, Macro.key_gist]

/-! ## Macro calls -/

/-- A placed statement without its place and the calls that led to it. -/
def Placed.gist : Placed → Placed
  | .label name _ _ => .label name .blank []
  | .instruction entry c _ => .instruction entry c.gist []

/-- What statements expand to does not depend on places. -/
theorem Inlined.congr {macros macros' : Table Macro} {limit : Nat} {calls calls' : List Site}
    {stmts stmts' : List Stmt} {out : List Placed} (h : Inlined macros limit calls stmts out)
    (hm : ∀ key, (macros'.find? key).map Macro.gist = (macros.find? key).map Macro.gist)
    (hs : stmts'.map Stmt.gist = stmts.map Stmt.gist) (hc : calls'.length = calls.length) :
    ∃ out', Inlined macros' limit calls' stmts' out' ∧
      out'.map Placed.gist = out.map Placed.gist := by
  induction h generalizing stmts' calls' with
  | nil =>
    rw [List.map_nil, List.map_eq_nil_iff] at hs
    subst hs
    exact ⟨[], .nil, rfl⟩
  | label _ ih =>
    obtain ⟨s, rest', rfl, hsg, hrest⟩ := List.map_eq_cons_iff.1 hs
    obtain ⟨u, rfl⟩ := Stmt.gist_eq_label hsg
    obtain ⟨out', hout', hg⟩ := ih hrest hc
    exact ⟨_, .label hout', by simp [hg, Placed.gist]⟩
  | instruction he _ ih =>
    obtain ⟨s, rest', rfl, hsg, hrest⟩ := List.map_eq_cons_iff.1 hs
    obtain ⟨d, rfl, hd⟩ := Stmt.gist_eq_call hsg
    obtain ⟨out', hout', hg⟩ := ih hrest hc
    have hkey := Call.key_of_gist hd
    exact ⟨_, .instruction (by rw [hkey]; exact he) hout', by simp [hg, Placed.gist, hd]⟩
  | @call calls c m rest body out he hfind hdepth _ _ ihbody ihrest =>
    obtain ⟨s, rest', rfl, hsg, hrest⟩ := List.map_eq_cons_iff.1 hs
    obtain ⟨d, rfl, hd⟩ := Stmt.gist_eq_call hsg
    have hkey := Call.key_of_gist hd
    obtain ⟨m', hfind', hmg⟩ : ∃ m', macros'.find? c.key = some m' ∧ m'.gist = m.gist := by
      have := hm c.key
      rw [hfind] at this
      exact Option.map_eq_some_iff.1 this
    have hbind : (m'.bind d.args).map Stmt.gist = (m.bind c.args).map Stmt.gist := by
      rw [← Macro.bind_gist, ← Macro.bind_gist, hmg, Call.args_of_gist hd]
    have hdepth' :
        (⟨d.key, d.token⟩ :: calls' : List Site).length =
          (⟨c.key, c.token⟩ :: calls : List Site).length := by
      simp [hc]
    obtain ⟨body', hbody', hbg⟩ := ihbody hbind hdepth'
    obtain ⟨out', hout', hg⟩ := ihrest hrest hc
    exact ⟨body' ++ out',
      .call (by rw [hkey]; exact he) (by rw [hkey]; exact hfind') (by omega) hbody' hout',
      by simp [hbg, hg]⟩

end Expansion

/-! ## Layout -/

/-- A row without its place. -/
def Row.gist (r : Row) : Row := { r with file := [], line := 0 }

namespace Layout

open Expansion (Placed)

theorem addresses_gist (address : Nat) (placed : List Placed) :
    addresses address (placed.map Placed.gist) = addresses address placed := by
  induction placed generalizing address with
  | nil => rfl
  | cons x placed ih => cases x <;> simp [addresses, Placed.gist, ih]

theorem registerByte_gist (a : Arg) : registerByte a.gist = registerByte a := by cases a <;> rfl

variable {sources sources' : Table Text} {labels : Table UInt16} {entry : Instruction} {c d : Call}
  {calls calls' : List Site}

theorem addressOf_gist (a : Arg) :
    (addressOf sources labels calls a).toOption = (addressOf [] labels [] a.gist).toOption := by
  cases a with
  | label name t =>
    simp only [addressOf, Arg.gist]
    cases labels.find? name <;> rfl
  | _ => rfl

theorem encode_gist :
    (encode sources labels entry c calls).toOption =
      (encode [] labels entry c.gist []).toOption := by
  have hargs : c.gist.args = c.args.map Arg.gist := rfl
  unfold encode
  rw [hargs]
  cases entry.shape with
  | registerRegister =>
    rcases c.args with _ | ⟨a, _ | ⟨b, rest⟩⟩
    · rfl
    · rfl
    · simp [registerByte_gist, Except.toOption]
  | registerLiteral =>
    rcases c.args with _ | ⟨a, _ | ⟨b, rest⟩⟩
    · rfl
    · rfl
    · cases b with
      | literal value t =>
        have hb : (Arg.literal value t).gist = .literal value .blank := rfl
        simp only [List.map_cons, hb, registerByte_gist]
        split <;> rfl
      | _ => rfl
  | register =>
    rcases c.args with _ | ⟨a, rest⟩
    · rfl
    · simp [registerByte_gist, Except.toOption]
  | literal =>
    rcases c.args with _ | ⟨a, rest⟩
    · rfl
    · simp only [List.map_cons, Except.toOption_bind]
      rw [addressOf_gist]
      congr 1
      funext value
      split <;> rfl
  | undefined => rfl

theorem encode_eq_ok_gist {code : Code} :
    encode sources labels entry c calls = .ok code ↔
      encode [] labels entry c.gist [] = .ok code := by
  rw [← Except.toOption_eq_some, encode_gist, Except.toOption_eq_some]

theorem encode_congr {code : Code} (h : encode sources labels entry c calls = .ok code)
    (hg : d.gist = c.gist) :
    encode sources' labels entry d calls' = .ok code := by
  rw [encode_eq_ok_gist, hg]
  exact encode_eq_ok_gist.1 h

/-- The sources are used for faults only. -/
theorem Emitted.of_sources {address : Nat} {placed : List Placed} {rows : List Row}
    (h : Emitted sources labels address placed rows) :
    Emitted sources' labels address placed rows := by
  induction h with
  | nil => exact .nil
  | label _ ih => exact .label ih
  | instruction hcode _ ih => exact .instruction (encode_congr hcode rfl) ih

/-- Rows differ by their places only. -/
theorem Emitted.congr {address : Nat} {placed placed' : List Placed} {rows : List Row}
    (h : Emitted sources labels address placed rows)
    (hg : placed'.map Placed.gist = placed.map Placed.gist) :
    ∃ rows', Emitted sources' labels address placed' rows' ∧
      rows'.map Row.gist = rows.map Row.gist := by
  induction h generalizing placed' with
  | nil =>
    rw [List.map_nil, List.map_eq_nil_iff] at hg
    subst hg
    exact ⟨[], .nil, rfl⟩
  | label _ ih =>
    obtain ⟨x, rest', rfl, hx, hrest⟩ := List.map_eq_cons_iff.1 hg
    obtain ⟨rows', hrows', hrg⟩ := ih hrest
    cases x with
    | instruction entry d calls => cases hx
    | label name t calls => exact ⟨rows', .label hrows', hrg⟩
  | @instruction address entry c calls code rest rows hcode _ ih =>
    obtain ⟨x, rest', rfl, hx, hrest⟩ := List.map_eq_cons_iff.1 hg
    obtain ⟨rows', hrows', hrg⟩ := ih hrest
    cases x with
    | label name t calls => cases hx
    | instruction entry' d calls' =>
      obtain ⟨rfl, hd, -⟩ := Placed.instruction.inj hx
      have hwords : d.words = c.words := by rw [← Call.words_gist, hd, Call.words_gist]
      exact ⟨_, .instruction (encode_congr hcode hd) hrows', by simp [hrg, Row.gist, hwords]⟩

end Layout

/-! ## Programs -/

open Expansion Layout

/-- `Built limit items p`: the items become the program, with macros nested within the limit. -/
structure Built (limit : Nat) (items : List Item) (p : Program) : Prop where
  keys : Table.Fresh ([] : Table Macro) ((definitions items).map Macro.key)
  layout : ∃ placed, Inlined (macroTable (definitions items)) limit [] (statements items) placed ∧
    Fits [] (addresses 0 placed) ∧ p.labels = tableOf (addresses 0 placed) ∧
      Emitted [] p.labels 0 placed p.rows

/-- **An assembly** reads nodes, splices them to items and builds the program of these. -/
theorem assemble_eq_ok_built {s : Settings} {source : Text} {p : Program} :
    (assemble s source).result = .ok p ↔
      ∃ nodes items, Node.ofSource [] source s.formulas = .ok nodes ∧
        Spliced s.resolver s.formulas (Stack.capacityOf s.maxDepth) [] nodes items ∧
        Built (Stack.capacityOf s.maxDepth) items p := by
  rw [assemble_eq_ok]
  constructor
  · rintro ⟨x, hx, hfits, hlabels, hrows⟩
    simp only [expanded?, Option.bind_eq_bind, Option.bind_eq_some_iff,
      Except.toOption_eq_some] at hx
    obtain ⟨nodes, hnodes, included, hincluded, ⟨macros, stmts⟩, hcollect, placed, hplaced, hx⟩ :=
      hx
    cases hx
    rw [outcome_expandMacros] at hplaced
    obtain ⟨hkeys, hcollected⟩ := collectMacros_eq_ok.1 hcollect
    cases hcollected
    refine ⟨nodes, included.items.toList, hnodes,
      (expandIncludes_eq_ok _ _).1 ⟨included, hincluded, rfl⟩, hkeys,
      placed, ?_, hfits, hlabels, hrows.of_sources⟩
    simpa using inlined_of_inlineCalls hplaced
  · rintro ⟨nodes, items, hnodes, hspliced, hkeys, placed, hplaced, hfits, hlabels, hrows⟩
    obtain ⟨included, hincluded, rfl⟩ :=
      (expandIncludes_eq_ok s.includeContext source).2 hspliced
    refine ⟨⟨included.sources, placed⟩, ?_, hfits, hlabels, hrows.of_sources⟩
    simp only [expanded?, Option.bind_eq_bind, Option.bind_eq_some_iff, Except.toOption_eq_some]
    refine ⟨nodes, hnodes, included, hincluded, _, collectMacros_eq_ok.2 ⟨hkeys, rfl⟩, placed, ?_,
      rfl⟩
    rw [outcome_expandMacros]
    exact inlineCalls_of_inlined (by simpa using hplaced)

/-- **Items with the same gists become the same program**, up to the places of its rows. -/
theorem Built.congr {limit : Nat} {items items' : List Item} {p : Program} (h : Built limit items p)
    (hg : items'.map Item.gist = items.map Item.gist) :
    ∃ q, Built limit items' q ∧ q.labels = p.labels ∧
      q.rows.map Row.gist = p.rows.map Row.gist := by
  have hdefs : (definitions items').map Macro.gist = (definitions items).map Macro.gist := by
    rw [← definitions_gist, hg, definitions_gist]
  have hstmts : (statements items').map Stmt.gist = (statements items).map Stmt.gist := by
    rw [← statements_gist, hg, statements_gist]
  have hkeys : (definitions items').map Macro.key = (definitions items).map Macro.key := by
    have hkey : Macro.key = Macro.key ∘ Macro.gist := rfl
    rw [hkey, ← List.map_map, hdefs, List.map_map]
  have hfind (key : Text) : ((macroTable (definitions items')).find? key).map Macro.gist =
      ((macroTable (definitions items)).find? key).map Macro.gist := by
    rw [← macroTable_gist, hdefs, macroTable_gist]
  obtain ⟨placed, hplaced, hfits, hlabels, hrows⟩ := h.layout
  obtain ⟨placed', hplaced', hpg⟩ := hplaced.congr hfind hstmts rfl
  obtain ⟨rows', hrows', hrg⟩ := hrows.congr hpg
  have haddresses : addresses 0 placed' = addresses 0 placed := by
    rw [← addresses_gist, hpg, addresses_gist]
  refine ⟨⟨rows', p.labels⟩, ⟨by rw [hkeys]; exact h.keys, placed', hplaced', ?_, ?_, hrows'⟩, rfl,
    hrg⟩
  · rw [haddresses]
    exact hfits
  · rw [haddresses]
    exact hlabels

end Octet
