import Octet.Proofs.RenderedCalls
import Octet.Proofs.StandardLibrary

/-!
# Sources with one standard call

Every call of a standard macro can be written, and a source that includes the standard library and
makes the call is assembled. A call that goes to a label has the label in front of it.

* `WrittenArg` — the arguments of a call as they are written; `WrittenArg.text_arg`: **they are
  rendered in the same way**;
* `Routine.text`, `Routine.denotes_text` — the call of a routine as source text;
* `Routine.Asked.inlined` — **a call is expanded if there is room for one call inside of it**;
* `Routine.assembles` — **a source that includes the library and makes a call becomes a program**.
-/

namespace Octet

open Token (Plain IsWord written)

/-! ## Arguments -/

/-- An argument of a call as it is written. -/
inductive WrittenArg where
  | register (r : Register)
  | literal (n : UInt8)
  | label (name : Text)

namespace WrittenArg

def token : WrittenArg → Token
  | register r => written .register r.name
  | literal n => written .literal (Radix.decimal.numeral (Text.digits 10 n.toNat))
  | label name => written .label ('$'.toUInt8 :: name)

/-- The argument that is meant. -/
def arg : WrittenArg → Arg
  | register r => .register r.name r (register r).token
  | literal n => .literal n.toUInt32 (literal n).token
  | label name => .label name (label name).token

/-- Only words can be written as labels. -/
def Proper (a : WrittenArg) : Prop := ∀ name, a = label name → IsWord name

theorem writable {a : WrittenArg} (h : a.Proper) (slots : Option Slots) : a.arg.Writable slots := by
  cases a with
  | register r =>
    have hr : (Register.ofName? r.name).getD .r0 = r := by
      rw [Operand.ofName?_name, Option.getD_some]
    have hw : Arg.Writable slots
        (.register r.name ((Register.ofName? r.name).getD .r0) (register r).token) :=
      .register (Operand.name_mem r)
    rwa [hr] at hw
  | literal n => exact .literal
  | label name => exact .label (h name rfl)

/-- **An argument is rendered as it is written.** -/
theorem text_arg (a : WrittenArg) : a.arg.text = a.token.text := by
  cases a with
  | register r => rfl
  | literal n =>
    show utf8 "#" ++ Text.decimal n.toUInt32.toNat = Radix.decimal.numeral (Text.digits 10 n.toNat)
    rw [UInt8.toNat_toUInt32, Text.decimal_natCast, Radix.numeral, Radix.mark, List.append_nil]
    rfl
  | label name => rfl

end WrittenArg

/-! ## Lines -/

namespace Grammar

variable {formulas : Formulas}

/-- A label as it is written at its place. -/
def labelLine (name : Text) : Text := '$'.toUInt8 :: name ++ [':'.toUInt8]

theorem denotes_labelLine {name : Text} (h : IsWord name) :
    Denotes formulas (labelLine name) [.item (.stmt (.label name .blank))] := by
  have hlabel := Token.plain_label h
  have hlex := hlabel.lexemes (show Token.atBoundary [':'.toUInt8] = true from rfl)
  have hcolon := (Token.readAs_colon : Token.ReadAs _ _ []).lexemes_written (by decide)
  rw [List.append_nil, Token.lexemes_nil] at hcolon
  rw [hcolon] at hlex
  exact ⟨_, _, hlex, .element (.stmt (.label rfl rfl)) .nil, rfl⟩

theorem denotes_includeLine {path : Text} (h : Quotable path) :
    Denotes formulas (includeLine path) [.splice path .blank] :=
  ⟨_, _, lexemes_includeLine h, .element (.splice rfl rfl rfl (by simp [LineEnds])) .nil, rfl⟩

end Grammar

namespace Expansion

/-- Nodes that are items up to their places are items. -/
theorem items_of_gists {nodes : List Node} (gists : List Item)
    (h : nodes.map Node.gist = gists.map .item) :
    ∃ items : List Item, nodes = items.map .item ∧ items.map Item.gist = gists := by
  induction nodes generalizing gists with
  | nil =>
    cases gists with
    | nil => exact ⟨[], rfl, rfl⟩
    | cons g gists => cases h
  | cons n nodes ih =>
    obtain ⟨g, gists, rfl, hg, hrest⟩ := List.map_eq_cons_iff.1 h.symm
    obtain ⟨items, rfl, rfl⟩ := ih gists hrest.symm
    cases n with
    | splice path t => cases hg
    | item i =>
      cases hg
      exact ⟨i :: items, rfl, rfl⟩

end Expansion

theorem Standard.isWord_name {m : Macro} (hm : m ∈ macros) : IsWord m.name := by
  have hbytes : ∀ m ∈ macros, m.name.head?.any Token.isWordStart = true ∧
      ∀ b ∈ m.name, Token.isWordByte b = true := by
    decide +kernel
  obtain ⟨hfirst, hall⟩ := hbytes m hm
  cases hname : m.name with
  | nil => simp [hname] at hfirst
  | cons b rest =>
    rw [hname] at hfirst hall
    exact .intro (by simpa using hfirst) (List.forall_mem_cons.1 hall).2

namespace Routine

open Grammar (nameKind labelLine includeLine)

/-- The arguments of a routine as they are written. -/
def writtenArgs : Routine → List WrittenArg
  | add r n | sub r n => [.register r, .literal n]
  | inc r | dec r => [.register r]
  | jmp label => [.label label]
  | jnz r label => [.register r, .label label]
  | hlt | nop => []

/-- Three of the macros are named like instructions. -/
def form : Routine → CallForm
  | add .. | sub .. | jnz .. => .mnemonic
  | _ => .word

def nameToken (x : Routine) : Token := written (nameKind x.form) x.definition.name

/-- The call of a routine. -/
def call (x : Routine) : Call :=
  ⟨x.form, x.definition.name, x.writtenArgs.map WrittenArg.arg, x.nameToken⟩

/-- The call of a routine as it is written: the name, and the arguments after it. -/
def text (x : Routine) : Text :=
  if x.writtenArgs = [] then x.definition.name
  else x.definition.name ++ utf8 " " ++ Token.listText (x.writtenArgs.map WrittenArg.token)

/-- Only words can be written as labels. -/
def Writable (x : Routine) : Prop := ∀ label ∈ x.label?, IsWord label

variable {x : Routine}

theorem asked_call (x : Routine) : x.Asked x.call.gist := by
  cases x <;> constructor

theorem names_definition (x : Routine) : x.form.Names x.definition.name := by
  have hmnemonic : ∀ m ∈ [Standard.add, Standard.sub, Standard.jnz], m.name ∈ mnemonics := by
    decide +kernel
  have hother : ∀ m ∈ [Standard.inc, Standard.dec, Standard.jmp, Standard.hlt, Standard.nop],
      m.name ∉ Token.registerNames ∧ m.name ∉ mnemonics := by decide +kernel
  have hword {y : Routine}
      (h : y.definition ∈ [Standard.inc, Standard.dec, Standard.jmp, Standard.hlt, Standard.nop]) :
      CallForm.word.Names y.definition.name := ⟨Standard.isWord_name y.definition_mem, hother _ h⟩
  cases x with
  | add | sub | jnz => exact hmnemonic _ (by simp [definition])
  | inc | dec | jmp | hlt | nop => exact hword (by simp [definition])

theorem Writable.args (h : x.Writable) : ∀ a ∈ x.writtenArgs, a.Proper := by
  cases x <;> simp_all [Writable, writtenArgs, WrittenArg.Proper, label?]

theorem Writable.call (h : x.Writable) : x.call.Writable none :=
  ⟨names_definition x, List.forall_mem_map.2 fun a ha => WrittenArg.writable (h.args a ha) none⟩

theorem text_call (x : Routine) : x.call.text = x.text := by
  have hargs : (x.writtenArgs.map WrittenArg.arg).map Arg.text =
      (x.writtenArgs.map WrittenArg.token).map Token.text := by
    rw [List.map_map, List.map_map]
    exact List.map_congr_left fun a _ => a.text_arg
  unfold text Call.text
  simp only [call, hargs, Token.listText, List.isEmpty_iff, List.map_eq_nil_iff]

/-- **The text of a routine denotes its call.** -/
theorem denotes_text (h : x.Writable) (formulas : Formulas) :
    Grammar.Denotes formulas x.text [(Node.item (.stmt (.call x.call))).gist] :=
  text_call x ▸ h.call.denotes formulas

/-- A source that includes a path and makes the call of a routine, with the label that it goes to in
front. -/
def sourceWith (path : Text) (x : Routine) : Text :=
  (utf8 "\n").intercalate (includeLine path :: (x.label?.toList.map labelLine ++ [x.text]))

/-- The statements of such a source. -/
def stmts (x : Routine) : List Stmt := x.label?.toList.map (.label · .blank) ++ [.call x.call]

theorem denotes_sourceWith (h : x.Writable) {path : Text} (hpath : Grammar.Quotable path)
    (formulas : Formulas) :
    Grammar.Denotes formulas (x.sourceWith path)
      (.splice path .blank :: x.stmts.map fun stmt => (Node.item (.stmt stmt)).gist) := by
  apply Grammar.denotes_lines
  refine .cons (Grammar.denotes_includeLine hpath) ?_
  rw [stmts, List.map_append]
  refine List.rel_append ?_ (.cons (denotes_text h formulas) .nil)
  rw [List.map_map, List.forall₂_map_left_iff, List.forall₂_map_right_iff, List.forall₂_same]
  exact fun label hlabel => Grammar.denotes_labelLine (h label (by simpa using hlabel))

/-! ## Expansions -/

open Expansion Layout

variable {table : Table Macro} {limit : Nat} {calls : List Site} {c : Call}

/-- The label of a routine, at the first address. -/
def labels (x : Routine) : Table UInt16 := x.label?.toList.map fun label => (label, 0)

theorem aims_labels (x : Routine) : x.Aims x.labels 0 := by
  intro label hlabel
  rw [labels, Option.mem_def.1 hlabel]
  simp [Table.find?]

/-- Statements that are encoded expand to themselves, with no label among them. -/
theorem inlined_of_encodesTo {labels : Table UInt16} {stmts : List Stmt} {codes : List Code}
    (h : List.Forall₂ (EncodesTo labels) (stmts.map Stmt.gist) codes) :
    ∃ placed, Inlined table limit calls stmts placed ∧
      ∀ address, addresses address placed = [] := by
  induction stmts generalizing codes with
  | nil => exact ⟨[], .nil, fun _ => rfl⟩
  | cons stmt stmts ih =>
    rw [List.map_cons] at h
    cases h with
    | cons hcode hrest =>
      obtain ⟨placed, hplaced, hlabels⟩ := ih hrest
      obtain ⟨d, entry, hcall, hfind, -⟩ := hcode
      cases stmt with
      | label name t => cases hcall
      | call c =>
        cases hcall
        rw [Call.key_gist] at hfind
        exact ⟨_, .instruction hfind hplaced, fun _ => hlabels _⟩

/-- A call of a macro whose body is encoded is expanded if there is room for it. -/
theorem Asked.inlined_of_no_inner (hstd : Standard.In table) (h : x.Asked c.gist)
    (hinner : x.inner? = none) (calls : List Site) (hroom : calls.length + 1 < limit) :
    ∃ placed, Inlined table limit calls [.call c] placed ∧
      ∀ address, addresses address placed = [] := by
  obtain ⟨m, hnone, hfind, hbody⟩ := h.bind hstd
  -- Expansion does not look at addresses, so any will do.
  have hcoded := (h.coded hinner).encoded x.labels 0 x.aims_labels
  rw [← hbody] at hcoded
  obtain ⟨placed, hplaced, hlabels⟩ := inlined_of_encodesTo hcoded
  exact ⟨_, .call hnone hfind hroom hplaced .nil, by simpa using hlabels⟩

/-- **A call is expanded if there is room for one call inside of it.** -/
theorem Asked.inlined (hstd : Standard.In table) (h : x.Asked c.gist) (calls : List Site)
    (hroom : calls.length + 2 < limit) :
    ∃ placed, Inlined table limit calls [.call c] placed ∧
      ∀ address, addresses address placed = [] := by
  cases hinner : x.inner? with
  | none => exact h.inlined_of_no_inner hstd hinner calls (by omega)
  | some y =>
    obtain ⟨m, d, hnone, hfind, hbind, hd⟩ := h.bind_inner hstd hinner
    obtain ⟨placed, hplaced, hlabels⟩ :=
      hd.inlined_of_no_inner hstd (inner?_of_inner? hinner) (⟨c.key, c.token⟩ :: calls) hroom
    rw [← hbind] at hplaced
    exact ⟨_, .call hnone hfind (by omega) hplaced .nil, by simpa using hlabels⟩

/-! ## Programs -/

/-- The items of a source that includes the library and makes the call of a routine. -/
def items (x : Routine) : List Item := Standard.macros.map .definition ++ x.stmts.map .stmt

theorem definitions_items (x : Routine) : definitions x.items = Standard.macros := by
  simp [items, definitions]

theorem statements_items (x : Routine) : statements x.items = x.stmts := by
  simp [items, statements]

theorem in_macroTable : Standard.In (macroTable Standard.macros) := by
  have hall : ∀ m ∈ Standard.macros, (macroTable Standard.macros).find? m.key = some m ∧
      m.gist = m := by decide +kernel
  exact fun m hm => ⟨m, hall m hm⟩

/-- **The items become a program.** -/
theorem built_items (x : Routine) (hroom : 2 < limit) : ∃ p, Built limit x.items p := by
  obtain ⟨placed, hplaced, hnone⟩ := x.asked_call.inlined in_macroTable [] hroom
  obtain ⟨_, body, hbody, hcoded⟩ := x.asked_call.expansion in_macroTable hplaced
  obtain ⟨rows, hrows, -⟩ := rows_of_encodesTo hbody (hcoded.encoded x.labels 0 x.aims_labels) 0
  refine ⟨⟨rows, x.labels⟩, ⟨?_, ?_⟩⟩
  · rw [definitions_items]
    exact ⟨Standard.keys_nodup, fun _ _ => rfl⟩
  rw [definitions_items, statements_items]
  unfold stmts labels at *
  cases hlabel : x.label? with
  | none =>
    rw [hlabel] at hrows
    refine ⟨placed, hplaced, ?_, ?_, hrows⟩ <;> rw [hnone]
    · exact ⟨Table.fresh_nil, by simp⟩
    · rfl
  | some label =>
    rw [hlabel] at hrows
    have haddresses : addresses 0 (.label label .blank [] :: placed) = [(label, 0)] := by
      rw [addresses, hnone]
    refine ⟨.label label .blank [] :: placed, .label hplaced, ?_, ?_, .label hrows⟩ <;>
      rw [haddresses]
    · exact fits_cons.2 ⟨rfl, Nat.zero_le _, Table.fresh_nil, by simp⟩
    · rfl

theorem gist_items (x : Routine) {content : List Item}
    (h : content.map Item.gist = Standard.macros.map .definition) :
    (content ++ x.stmts.map Item.stmt).map Item.gist = x.items.map Item.gist := by
  have hmacros :
      (Standard.macros.map Item.definition).map Item.gist = Standard.macros.map .definition := by
    decide +kernel
  rw [items, List.map_append, List.map_append, h, hmacros]

/-- The source of a routine has the items of the routine, up to their places. -/
theorem exists_sourceItems (h : x.Writable) {s : Settings} {path : Text}
    (hpath : Grammar.Quotable path) (hfind : s.resolver.find path = some standardSource)
    (hroom : 1 < Stack.capacityOf s.maxDepth) :
    ∃ a : SourceItems s (x.sourceWith path), a.IncludesStandard ∧
      a.items.map Item.gist = x.items.map Item.gist := by
  obtain ⟨nodes, hnodes, hgists⟩ :=
    (Grammar.denotes_iff []).1 (denotes_sourceWith h hpath s.formulas)
  obtain ⟨inner, hinner, hlibrary⟩ :=
    (Grammar.denotes_iff path).1 (Standard.denotes_source s.formulas)
  have hdefinitions : inner.map Node.gist = (Standard.macros.map Item.definition).map .item := by
    rw [hlibrary, List.map_map]
    rfl
  obtain ⟨content, rfl, hcontent⟩ := items_of_gists _ hdefinitions
  have hspliced : Spliced s.resolver s.formulas (Stack.capacityOf s.maxDepth) []
      (.splice path .blank :: (x.stmts.map .stmt).map .item) (content ++ x.stmts.map .stmt) :=
    .splice List.not_mem_nil hfind hinner hroom (spliced_stmts _ _ _ _ content)
      (spliced_stmts _ _ _ _ _)
  have hsame : nodes.map Node.gist =
      (Node.splice path .blank :: (x.stmts.map Item.stmt).map .item).map Node.gist := by
    rw [hgists]
    simp [Node.gist]
  obtain ⟨items, hitems, hg⟩ := hspliced.relocate hsame (fun _ hp => hp) (Nat.le_refl _)
  refine ⟨⟨nodes, items, hnodes, hitems⟩, ?_, hg.trans (x.gist_items hcontent)⟩
  obtain ⟨n, rest, rfl, hn, -⟩ := List.map_eq_cons_iff.1 hgists
  cases n with
  | item i => cases hn
  | splice path' t =>
    cases hn
    exact ⟨_, t, List.mem_cons_self .., hfind⟩

/-- The call of the routine stands in its source. -/
theorem exists_call {items : List Item} (h : items.map Item.gist = x.items.map Item.gist) :
    ∃ c, .call c ∈ statements items ∧ x.Asked c.gist := by
  have hstmts : (statements items).map Stmt.gist = x.stmts.map Stmt.gist := by
    rw [← statements_gist, h, statements_gist, statements_items]
  have hmem : Stmt.call x.call.gist ∈ (statements items).map Stmt.gist := by
    rw [hstmts, stmts]
    simp [Stmt.gist]
  obtain ⟨stmt, hstmt, hg⟩ := List.mem_map.1 hmem
  cases stmt with
  | label name t => cases hg
  | call c => exact ⟨c, hstmt, Stmt.call.inj hg ▸ x.asked_call⟩

/-- **A source that includes the library and makes a call becomes a program.** -/
theorem assembles (h : x.Writable) {s : Settings} {path : Text} (hpath : Grammar.Quotable path)
    (hfind : s.resolver.find path = some standardSource) (hroom : 2 < Stack.capacityOf s.maxDepth) :
    ∃ (p : Program) (a : SourceItems s (x.sourceWith path)) (c : Call),
      (assemble s (x.sourceWith path)).result = .ok p ∧ a.IncludesStandard ∧
        Encloses a.macros a.stmts [] (.call c) ∧ x.Asked c.gist := by
  obtain ⟨a, hincludes, hitems⟩ := exists_sourceItems h hpath hfind (by omega)
  obtain ⟨p, hp⟩ := x.built_items hroom
  obtain ⟨q, hq, -⟩ := hp.congr hitems
  obtain ⟨c, hc, hasked⟩ := exists_call hitems
  exact ⟨q, a, c, assemble_eq_ok_built.2 ⟨a.nodes, a.items, a.read, a.spliced, hq⟩, hincludes,
    .here hc, hasked⟩

end Routine

end Octet
