import Octet.Library.Standard
import Octet.Proofs.Disassembly
import Octet.Proofs.NumeralValues
import Octet.Proofs.Pasting

/-!
# The standard library

The macros of the standard library, and the instructions that their calls become.

* `Standard.macros` — the macros without their places, which `Standard.denotes_source` reads off the
  source;
* `SourceItems` — the items of a source, with includes spliced in; `SourceItems.standard`: a source
  that includes the library has its macros, which no other macro can replace;
* `Routine` — the calls of the macros, with what their arguments stand for;
* `Routine.codes_of_expansion` — **a call becomes the codes of its routine**, wherever it stands.
-/

namespace Octet

open Expansion Layout

/-! ## The macros -/

namespace Standard

/-- A call of a mnemonic. -/
def call (mnemonic : String) (args : List Arg) : Stmt :=
  .call ⟨.mnemonic, utf8 mnemonic, args, .blank⟩

def scratch : Arg := .register (utf8 "rv") .rv .blank

def flags : Arg := .register (utf8 "rf") .rf .blank

def first : Arg := .register (utf8 "r0") .r0 .blank

def one : Arg := .literal 1 .blank

def register : Arg := .registerParam 0 .blank

def literal : Arg := .literalParam 0 .blank

def hlt : Macro := ⟨utf8 "hlt", [], [call "mov" [scratch, one], call "or" [flags, scratch]], .blank⟩

def add : Macro :=
  ⟨utf8 "add", [.register, .literal],
    [call "mov" [scratch, literal], call "add" [register, scratch]], .blank⟩

def sub : Macro :=
  ⟨utf8 "sub", [.register, .literal],
    [call "mov" [scratch, literal], call "sub" [register, scratch]], .blank⟩

def inc : Macro := ⟨utf8 "inc", [.register], [call "add" [register, one]], .blank⟩

def dec : Macro := ⟨utf8 "dec", [.register], [call "sub" [register, one]], .blank⟩

def jnz : Macro :=
  ⟨utf8 "jnz", [.register, .literal], [call "lda" [literal], call "jnz" [register]], .blank⟩

def jmp : Macro :=
  ⟨utf8 "jmp", [.literal], [call "lda" [literal], call "mov" [scratch, one], call "jnz" [scratch]],
    .blank⟩

def nop : Macro := ⟨utf8 "nop", [], [call "or" [first, first]], .blank⟩

/-- The macros of the standard library, without their places. -/
def macros : List Macro := [hlt, add, sub, inc, dec, jnz, jmp, nop]

/-- **The source of the standard library denotes its macros**, whatever is defined. -/
theorem denotes_source (formulas : Formulas) :
    Grammar.Denotes formulas standardSource (macros.map fun m => .item (.definition m)) := by
  have hread : (Node.ofSource [] standardSource .valueless).toOption.map (List.map Node.gist) =
      some (macros.map fun m => .item (.definition m)) := by decide +kernel
  have hplain : ∀ ts ∈ Token.lexemes standardSource, ∀ t ∈ ts, Grammar.NoFormula t := by
    decide +kernel
  obtain ⟨nodes, hnodes, hgists⟩ := Option.map_eq_some_iff.1 hread
  obtain ⟨ts, nodes', hts, hsource, hg⟩ :=
    (Grammar.denotes_iff []).2 ⟨nodes, Except.toOption_eq_some.1 hnodes, hgists⟩
  exact ⟨ts, nodes', hts, hsource.redefine (hplain ts hts), hg⟩

theorem keys_nodup : (macros.map Macro.key).Nodup := by decide +kernel

/-- A table with the macros of the standard library. -/
def In (table : Table Macro) : Prop := ∀ m ∈ macros, ∃ m', table.find? m.key = some m' ∧ m'.gist = m

end Standard

/-! ## Sources that include it -/

/-- The items of a source, with includes spliced in. -/
structure SourceItems (s : Settings) (source : Text) where
  nodes : List Node
  items : List Item
  read : Node.ofSource [] source s.formulas = .ok nodes
  spliced : Spliced s.resolver s.formulas (Stack.capacityOf s.maxDepth) [] nodes items

namespace SourceItems

variable {s : Settings} {source : Text}

def macros (a : SourceItems s source) : Table Macro := macroTable (definitions a.items)

def stmts (a : SourceItems s source) : List Stmt := statements a.items

/-- The standard library is included, under a path that the resolver knows it by. -/
def IncludesStandard (a : SourceItems s source) : Prop :=
  ∃ path t, .splice path t ∈ a.nodes ∧ s.resolver.find path = some standardSource

/-- The items are what an assembly builds the program of. -/
theorem built (a : SourceItems s source) {p : Program} (hp : (assemble s source).result = .ok p) :
    Built (Stack.capacityOf s.maxDepth) a.items p := by
  obtain ⟨nodes, items, hnodes, hspliced, hbuilt⟩ := assemble_eq_ok_built.1 hp
  cases hnodes.symm.trans a.read
  let ctx : IncludeContext := s.includeContext
  obtain ⟨x, hx, rfl⟩ := (expandIncludes_eq_ok ctx source).2 hspliced
  obtain ⟨y, hy, hitems⟩ := (expandIncludes_eq_ok ctx source).2 a.spliced
  cases hx.symm.trans hy
  rwa [← hitems]

/-- **A source that includes the standard library has its macros**: an assembly takes no second
macro of a key. -/
theorem standard (a : SourceItems s source) (hkeys : ((definitions a.items).map Macro.key).Nodup)
    (h : a.IncludesStandard) : Standard.In a.macros := by
  obtain ⟨path, t, hmem, hpath⟩ := h
  obtain ⟨text, inner, content, hfind, hinner, hcontent, hsub⟩ := a.spliced.content hmem
  cases hpath.symm.trans hfind
  obtain ⟨nodes, hnodes, hgists⟩ :=
    (Grammar.denotes_iff path).1 (Standard.denotes_source s.formulas)
  cases hnodes.symm.trans hinner
  intro m hm
  -- The definition stands in the library, and so among the items.
  have hgist : Node.item (.definition m) ∈ inner.map Node.gist := by
    rw [hgists]
    exact List.mem_map.2 ⟨m, hm, rfl⟩
  obtain ⟨n, hn, hng⟩ := List.mem_map.1 hgist
  obtain ⟨m', rfl, hmg⟩ : ∃ m', n = .item (.definition m') ∧ m'.gist = m := by
    rcases n with (s | m') | ⟨path, t⟩
    · cases hng
    · exact ⟨m', rfl, by simpa [Node.gist, Item.gist] using hng⟩
    · cases hng
  have hdef : m' ∈ definitions a.items := mem_definitions.2 (hsub (hcontent.mem_of_item hn))
  refine ⟨m', ?_, hmg⟩
  rw [← hmg, Macro.key_gist]
  refine Table.find?_of_mem ?_ (List.mem_reverse.2 (List.mem_map.2 ⟨m', hdef, rfl⟩))
  have hfst : (macroTable (definitions a.items)).map Prod.fst =
      ((definitions a.items).map Macro.key).reverse := by
    simp [macroTable, Function.comp_def]
  show ((macroTable (definitions a.items)).map Prod.fst).Nodup
  rw [hfst]
  exact List.pairwise_reverse.2 (hkeys.imp Ne.symm)

end SourceItems

/-! ## Calls -/

/-- A call of a standard macro, with what its arguments stand for. -/
inductive Routine where
  | add (r : Register) (n : UInt8)
  | sub (r : Register) (n : UInt8)
  | inc (r : Register)
  | dec (r : Register)
  | jmp (label : Text)
  | jnz (r : Register) (label : Text)
  | hlt
  | nop
  deriving DecidableEq, Repr

/-- A call without its place that asks for a routine. Registers may be written by any of their
names. -/
inductive Routine.Asked : Routine → Call → Prop
  | add {form : CallForm} {name : Text} {r : Register} {n : UInt8} :
    Asked (.add r n)
      ⟨form, utf8 "add", [.register name r .blank, .literal n.toUInt32 .blank], .blank⟩
  | sub {form : CallForm} {name : Text} {r : Register} {n : UInt8} :
    Asked (.sub r n)
      ⟨form, utf8 "sub", [.register name r .blank, .literal n.toUInt32 .blank], .blank⟩
  | inc {form : CallForm} {name : Text} {r : Register} :
    Asked (.inc r) ⟨form, utf8 "inc", [.register name r .blank], .blank⟩
  | dec {form : CallForm} {name : Text} {r : Register} :
    Asked (.dec r) ⟨form, utf8 "dec", [.register name r .blank], .blank⟩
  | jmp {form : CallForm} {label : Text} :
    Asked (.jmp label) ⟨form, utf8 "jmp", [.label label .blank], .blank⟩
  | jnz {form : CallForm} {name : Text} {r : Register} {label : Text} :
    Asked (.jnz r label) ⟨form, utf8 "jnz", [.register name r .blank, .label label .blank], .blank⟩
  | hlt {form : CallForm} : Asked .hlt ⟨form, utf8 "hlt", [], .blank⟩
  | nop {form : CallForm} : Asked .nop ⟨form, utf8 "nop", [], .blank⟩

namespace Routine

/-- The label that the routine goes to. -/
def label? : Routine → Option Text
  | jmp label => some label
  | jnz _ label => some label
  | _ => none

/-- The label of the routine has an address. -/
def Aims (x : Routine) (labels : Table UInt16) (target : UInt16) : Prop :=
  ∀ label ∈ x.label?, labels.find? label = some target

/-! ## Codes -/

/-- Sets the scratch register. -/
def setScratch (n : UInt8) : Code := .ofRegisterByte 1 Register.rv.toByte n

/-- The codes of a routine, with the address of its label. -/
def codes (target : UInt16) : Routine → List Code
  | add r n => [setScratch n, .ofRegisters 8 r.toByte Register.rv.toByte]
  | sub r n => [setScratch n, .ofRegisters 10 r.toByte Register.rv.toByte]
  | inc r => [setScratch 1, .ofRegisters 8 r.toByte Register.rv.toByte]
  | dec r => [setScratch 1, .ofRegisters 10 r.toByte Register.rv.toByte]
  | jmp _ => [.ofAddress 4 target, setScratch 1, .ofRegister 7 Register.rv.toByte]
  | jnz r _ => [.ofAddress 4 target, .ofRegister 7 r.toByte]
  | hlt => [setScratch 1, .ofRegisters 12 Register.rf.toByte Register.rv.toByte]
  | nop => [.ofRegisters 12 Register.r0.toByte Register.r0.toByte]

end Routine

namespace Layout

/-- A statement that is encoded as a code. -/
def EncodesTo (labels : Table UInt16) (stmt : Stmt) (code : Code) : Prop :=
  ∃ c entry, stmt = .call c ∧ Instruction.find? c.key = some entry ∧
    encode [] labels entry c [] = .ok code

variable {labels : Table UInt16}

theorem encodesTo_call {i : Instruction} (hi : i ∈ catalog) {c : Call} {code : Code}
    (hname : c.name = i.mnemonic) (hkinds : c.kinds = i.kinds)
    (hcode : encode [] labels i c [] = .ok code) : EncodesTo labels (.call c) code := by
  refine ⟨c, i, rfl, ?_, hcode⟩
  rw [Call.key, hname, hkinds]
  exact Instruction.find?_key hi

theorem encodesTo_setScratch (n : UInt8) :
    EncodesTo labels (Standard.call "mov" [Standard.scratch, .literal n.toUInt32 .blank])
      (Routine.setScratch n) := by
  have hfits : ¬ 0xff < n.toUInt32.toNat := by
    have := n.toNat_lt
    rw [UInt8.toNat_toUInt32]
    omega
  have hcode : encode [] labels ⟨utf8 "mov", 1, [.register, .literal], 2⟩
      ⟨.mnemonic, utf8 "mov", [Standard.scratch, .literal n.toUInt32 .blank], .blank⟩ [] =
        .ok (Routine.setScratch n) := by
    show (if 0xff < n.toUInt32.toNat then _ else _) = _
    rw [if_neg hfits, UInt8.toUInt8_toUInt32]
    rfl
  exact encodesTo_call (by decide +kernel) rfl rfl hcode

theorem encodesTo_lda {label : Text} {target : UInt16} (h : labels.find? label = some target) :
    EncodesTo labels (Standard.call "lda" [.label label .blank]) (.ofAddress 4 target) := by
  have hlast : ¬ lastAddress < target.toNat := by
    have hle := target.toNat_lt
    have hlast : lastAddress = 65535 := rfl
    omega
  refine encodesTo_call (i := ⟨utf8 "lda", 4, [.literal], 3⟩) (by decide +kernel) rfl rfl ?_
  show (addressOf [] labels [] (.label label .blank) >>= fun value => _) = _
  simp only [addressOf, h, bind, Except.bind, if_neg hlast, UInt16.ofNat_toNat]

end Layout

/-! ## Bodies -/

namespace Standard

theorem not_instruction : ∀ m ∈ macros, Instruction.find? m.key = none := by decide +kernel

/-- A call of a standard macro has the body of the macro, with its own arguments. -/
theorem In.bind {table : Table Macro} (h : In table) {m : Macro} (hm : m ∈ macros) {c : Call}
    (hname : c.gist.name = m.name) (hkinds : c.gist.kinds = m.params) :
    ∃ m', Instruction.find? c.key = none ∧ table.find? c.key = some m' ∧
      (m'.bind c.args).map Stmt.gist = m.bind c.gist.args := by
  have hkey : c.key = m.key := by
    rw [← Call.key_gist, Call.key, hname, hkinds]
    rfl
  obtain ⟨m', hfind, rfl⟩ := h m hm
  refine ⟨m', ?_, ?_, (Macro.bind_gist m' c.args).symm⟩
  · rw [hkey]
    exact not_instruction _ hm
  · rw [hkey]
    exact hfind

end Standard

namespace Routine

/-- Statements that are encoded as the codes of a routine. -/
structure Coded (x : Routine) (stmts : List Stmt) : Prop where
  encoded : ∀ (labels : Table UInt16) (target : UInt16), x.Aims labels target →
    List.Forall₂ (EncodesTo labels) stmts (x.codes target)
  reference : ∀ label ∈ x.label?, Standard.call "lda" [.label label .blank] ∈ stmts

/-- The routine that the body of a macro asks for in turn. -/
def inner? : Routine → Option Routine
  | inc r => some (add r 1)
  | dec r => some (sub r 1)
  | _ => none

/-- The macro of a routine. -/
def definition : Routine → Macro
  | add .. => Standard.add
  | sub .. => Standard.sub
  | inc _ => Standard.inc
  | dec _ => Standard.dec
  | jmp _ => Standard.jmp
  | jnz .. => Standard.jnz
  | hlt => Standard.hlt
  | nop => Standard.nop

variable {x y : Routine} {g : Call}

theorem definition_mem (x : Routine) : x.definition ∈ Standard.macros := by
  cases x <;> simp [definition, Standard.macros]

theorem Asked.name (h : x.Asked g) : g.name = x.definition.name := by
  cases h <;> rfl

theorem Asked.kinds (h : x.Asked g) : g.kinds = x.definition.params := by
  cases h <;> rfl

theorem coded_of_inner? (hy : y ∈ x.inner?) {stmts : List Stmt} (h : y.Coded stmts) :
    x.Coded stmts := by
  cases x with
  | inc r | dec r =>
    cases hy
    exact ⟨h.encoded, h.reference⟩
  | _ => cases hy

theorem inner?_of_inner? (hy : y ∈ x.inner?) : y.inner? = none := by
  cases x with
  | inc r | dec r =>
    cases hy
    rfl
  | _ => cases hy

theorem coded_of_no_label (hlabel : x.label? = none) {stmts : List Stmt}
    (h : ∀ (labels : Table UInt16) (target : UInt16),
      List.Forall₂ (EncodesTo labels) stmts (x.codes target)) :
    x.Coded stmts where
  encoded labels target _ := h labels target
  reference label hlabel' := by
    rw [hlabel] at hlabel'
    cases hlabel'

theorem encodesTo_registers {labels : Table UInt16} {mnemonic : String} {op : Int}
    {name name' : Text} {r q : Register}
    (hi : ⟨utf8 mnemonic, op, [.register, .register], 2⟩ ∈ catalog) :
    EncodesTo labels (Standard.call mnemonic [.register name r .blank, .register name' q .blank])
      (.ofRegisters op r.toByte q.toByte) :=
  encodesTo_call hi rfl rfl rfl

theorem encodesTo_jnz {labels : Table UInt16} {name : Text} {r : Register} :
    EncodesTo labels (Standard.call "jnz" [.register name r .blank]) (.ofRegister 7 r.toByte) :=
  encodesTo_call (i := ⟨utf8 "jnz", 7, [.register], 1⟩) (by decide +kernel) rfl rfl rfl

/-- **The body of a call is encoded as the codes of its routine.** -/
theorem Asked.coded (h : x.Asked g) (hinner : x.inner? = none) :
    x.Coded (x.definition.bind g.args) := by
  have hadd : (⟨utf8 "add", 8, [.register, .register], 2⟩ : Instruction) ∈ catalog := by
    decide +kernel
  have hsub : (⟨utf8 "sub", 10, [.register, .register], 2⟩ : Instruction) ∈ catalog := by
    decide +kernel
  have hor : (⟨utf8 "or", 12, [.register, .register], 2⟩ : Instruction) ∈ catalog := by
    decide +kernel
  cases h with
  | add =>
    apply coded_of_no_label rfl
    exact fun _ _ => .cons (encodesTo_setScratch _) (.cons (encodesTo_registers hadd) .nil)
  | sub =>
    apply coded_of_no_label rfl
    exact fun _ _ => .cons (encodesTo_setScratch _) (.cons (encodesTo_registers hsub) .nil)
  | inc | dec => cases hinner
  | @jmp form label =>
    refine ⟨fun labels target haims => ?_, ?_⟩
    · exact .cons (encodesTo_lda (haims label rfl))
        (.cons (encodesTo_setScratch 1) (.cons encodesTo_jnz .nil))
    · rintro _ ⟨⟩
      exact List.mem_cons_self ..
  | @jnz form name r label =>
    refine ⟨fun labels target haims => ?_, ?_⟩
    · exact .cons (encodesTo_lda (haims label rfl)) (.cons encodesTo_jnz .nil)
    · rintro _ ⟨⟩
      exact List.mem_cons_self ..
  | hlt =>
    apply coded_of_no_label rfl
    exact fun _ _ => .cons (encodesTo_setScratch 1) (.cons (encodesTo_registers hor) .nil)
  | nop =>
    apply coded_of_no_label rfl
    exact fun _ _ => .cons (encodesTo_registers hor) .nil

/-- The body of a call that asks for another routine is one call. -/
theorem Asked.inner (h : x.Asked g) (hy : y ∈ x.inner?) :
    ∃ d, x.definition.bind g.args = [.call d] ∧ y.Asked d := by
  cases h with
  | inc =>
    cases hy
    exact ⟨_, rfl, .add (n := 1)⟩
  | dec =>
    cases hy
    exact ⟨_, rfl, .sub (n := 1)⟩
  | _ => cases hy

/-! ## Expansions -/

variable {table : Table Macro} {limit : Nat} {calls : List Site} {c : Call} {placed : List Placed}

/-- The macro that a call selects, and the gists of its body. -/
theorem Asked.bind (hstd : Standard.In table) (h : x.Asked c.gist) :
    ∃ m, Instruction.find? c.key = none ∧ table.find? c.key = some m ∧
      (m.bind c.args).map Stmt.gist = x.definition.bind c.gist.args :=
  hstd.bind x.definition_mem h.name h.kinds

theorem Asked.bind_inner (hstd : Standard.In table) (h : x.Asked c.gist) (hy : y ∈ x.inner?) :
    ∃ m d, Instruction.find? c.key = none ∧ table.find? c.key = some m ∧ m.bind c.args = [.call d] ∧
      y.Asked d.gist := by
  obtain ⟨m, hnone, hfind, hbody⟩ := h.bind hstd
  obtain ⟨g, hg, hasked⟩ := h.inner hy
  rw [hg] at hbody
  obtain ⟨stmt, hstmt, hgist⟩ := List.map_eq_singleton_iff.1 hbody
  cases stmt with
  | label name t => cases hgist
  | call d =>
    cases hgist
    exact ⟨m, d, hnone, hfind, hstmt, hasked⟩

/-- What a call expands to is what statements with the codes of its routine expand to. -/
theorem Asked.expansion (hstd : Standard.In table) (h : x.Asked c.gist)
    (hin : Inlined table limit calls [.call c] placed) :
    ∃ calls' stmts, Inlined table limit calls' stmts placed ∧ x.Coded (stmts.map Stmt.gist) := by
  cases hinner : x.inner? with
  | none =>
    obtain ⟨m, hnone, hfind, hbody⟩ := h.bind hstd
    exact ⟨_, _, hin.body hnone hfind, hbody ▸ h.coded hinner⟩
  | some y =>
    obtain ⟨m, d, hnone, hfind, hbind, hd⟩ := h.bind_inner hstd hinner
    have hcall := hin.body hnone hfind
    rw [hbind] at hcall
    obtain ⟨m', hnone', hfind', hbody⟩ := hd.bind hstd
    have hcoded := hd.coded (inner?_of_inner? hinner)
    rw [← hbody] at hcoded
    exact ⟨_, _, hcall.body hnone' hfind', coded_of_inner? hinner hcoded⟩

/-- Statements that are encoded expand to instructions, which become rows with their codes. -/
theorem rows_of_encodesTo {labels : Table UInt16} {stmts : List Stmt} {codes : List Code}
    (hin : Inlined table limit calls stmts placed)
    (hcodes : List.Forall₂ (EncodesTo labels) (stmts.map Stmt.gist) codes) (address : Nat) :
    ∃ rows, Emitted [] labels address placed rows ∧ rows.map Row.code = codes := by
  induction hin generalizing codes address with
  | nil =>
    cases hcodes
    exact ⟨[], .nil, rfl⟩
  | label _ _ =>
    cases hcodes with
    | cons hcode _ =>
      obtain ⟨_, _, hcall, -⟩ := hcode
      cases hcall
  | @instruction calls c entry rest out he _ ih =>
    cases hcodes with
    | cons hcode hrest =>
      obtain ⟨d, entry', hcall, hfind, hencode⟩ := hcode
      cases hcall
      rw [Call.key_gist, he] at hfind
      cases hfind
      obtain ⟨rows, hrows, hmap⟩ := ih hrest (address + entry.length)
      exact ⟨_, .instruction (encode_eq_ok_gist.2 hencode) hrows, by rw [List.map_cons, hmap]⟩
  | call hnone _ _ _ _ _ _ =>
    cases hcodes with
    | cons hcode _ =>
      obtain ⟨d, entry', hcall, hfind, -⟩ := hcode
      cases hcall
      rw [Call.key_gist, hnone] at hfind
      cases hfind

/-- A label that an emitted instruction refers to has an address. -/
theorem address_of_reference {labels : Table UInt16} {stmts : List Stmt} {address : Nat}
    {rows : List Row} {label : Text} (hin : Inlined table limit calls stmts placed)
    (hrows : Emitted [] labels address placed rows)
    (hmem : Standard.call "lda" [.label label .blank] ∈ stmts.map Stmt.gist) :
    ∃ target, labels.find? label = some target := by
  obtain ⟨stmt, hstmt, hgist⟩ := List.mem_map.1 hmem
  obtain ⟨d, rfl, hd⟩ : ∃ d, stmt = .call d ∧
    d.gist = ⟨.mnemonic, utf8 "lda", [.label label .blank], .blank⟩ := by
    cases stmt with
    | label name t => cases hgist
    | call d => exact ⟨d, rfl, Stmt.call.inj hgist⟩
  have hfind : Instruction.find? d.key = some ⟨utf8 "lda", 4, [.literal], 3⟩ := by
    rw [← Call.key_gist, hd]
    exact Instruction.find?_key (i := ⟨utf8 "lda", 4, [.literal], 3⟩) (by decide +kernel)
  obtain ⟨before, piece, after, rfl, hpiece⟩ := hin.piece (.here hstmt)
  obtain ⟨-, _, -, -, hrest⟩ := hrows.split
  obtain ⟨rows', -, -, hlda, -⟩ := hrest.split
  cases hpiece with
  | call hnone _ _ _ _ => cases hnone.symm.trans hfind
  | instruction he _ =>
    cases he.symm.trans hfind
    cases hlda with
    | instruction hcode _ =>
      have hgist := encode_eq_ok_gist.1 hcode
      rw [hd] at hgist
      obtain ⟨a, rest, value, hargs, hvalue, -⟩ := encode_address rfl hgist
      cases hargs
      simp only [addressOf] at hvalue
      split at hvalue
      · rename_i target htarget
        exact ⟨target, htarget⟩
      · cases hvalue

/-- **A call becomes the codes of its routine**, wherever it stands. -/
theorem codes_of_expansion {labels : Table UInt16} {address : Nat} {rows : List Row}
    (hstd : Standard.In table) (h : x.Asked c.gist)
    (hin : Inlined table limit calls [.call c] placed)
    (hrows : Emitted [] labels address placed rows) :
    ∃ target, x.Aims labels target ∧ rows.map Row.code = x.codes target := by
  obtain ⟨calls', stmts, hstmts, hcoded⟩ := h.expansion hstd hin
  obtain ⟨target, haims⟩ : ∃ target, x.Aims labels target := by
    cases hlabel : x.label? with
    | none => exact ⟨0, by simp [Aims, hlabel]⟩
    | some label =>
      obtain ⟨target, htarget⟩ := address_of_reference hstmts hrows (hcoded.reference label hlabel)
      exact ⟨target, by simpa [Aims, hlabel] using htarget⟩
  obtain ⟨rows', hrows', hcodes⟩ :=
    rows_of_encodesTo hstmts (hcoded.encoded labels target haims) address
  have hemit : emit [] labels #[] address placed = .ok rows := emit_eq_ok.2 ⟨rows, hrows, by simp⟩
  have hemit' : emit [] labels #[] address placed = .ok rows' :=
    emit_eq_ok.2 ⟨rows', hrows', by simp⟩
  cases hemit.symm.trans hemit'
  exact ⟨target, haims, hcodes⟩

end Routine

end Octet
