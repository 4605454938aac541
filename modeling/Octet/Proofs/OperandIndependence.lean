import Mathlib.Data.List.Forall2
import Octet.Proofs.ParameterBinding

/-!
# Layout does not depend on operand values

A call selects an instruction or a macro by its name and the kinds of its arguments. Binding puts an
argument of the same kind in the place of each parameter, so every line of a macro body selects the
same however the macro is called. Two programs that differ in operand values only are therefore laid
out alike.

* `Call.Alike`, `Stmt.Alike`, `Macro.Alike`, `Item.Alike` — syntax that differs in operand values
  and places;
* `Macro.bind_alike` — **binding keeps the kinds of every line**;
* `Expansion.Inlined.alike` — two expansions of statements that are alike place the same
  instructions and labels;
* `Layout.Emitted.slots` — the addresses and operations of rows are a matter of what is placed;
* `assemble_layout_alike` — **two assemblies of items that are alike have the same layout**.
-/

namespace Octet

/-! ## Syntax that is alike -/

/-- Calls of one form and name, with arguments of the same kinds. -/
structure Call.Alike (c d : Call) : Prop where
  form : c.form = d.form
  name : c.name = d.name
  kinds : c.kinds = d.kinds

/-- Calls that are alike, or labels of one name. -/
inductive Stmt.Alike : Stmt → Stmt → Prop
  | call {c d : Call} (h : c.Alike d) : Alike (.call c) (.call d)
  | label {name : Text} {t u : Token} : Alike (.label name t) (.label name u)

/-- Macros of one name with the same kinds of parameters, and bodies that are alike line by line. -/
structure Macro.Alike (m n : Macro) : Prop where
  name : m.name = n.name
  params : m.params = n.params
  body : List.Forall₂ Stmt.Alike m.body n.body

/-- Statements or definitions that are alike. -/
inductive Item.Alike : Item → Item → Prop
  | stmt {s t : Stmt} (h : s.Alike t) : Alike (.stmt s) (.stmt t)
  | definition {m n : Macro} (h : m.Alike n) : Alike (.definition m) (.definition n)

instance (c d : Call) : Decidable (c.Alike d) :=
  decidable_of_iff (c.form = d.form ∧ c.name = d.name ∧ c.kinds = d.kinds)
    ⟨fun h => ⟨h.1, h.2.1, h.2.2⟩, fun h => ⟨h.form, h.name, h.kinds⟩⟩

instance : (s t : Stmt) → Decidable (s.Alike t)
  | .call c, .call d => decidable_of_iff (c.Alike d) ⟨.call, fun | .call h => h⟩
  | .label n _, .label m _ => decidable_of_iff (n = m) ⟨fun h => h ▸ .label, fun | .label => rfl⟩
  | .call _, .label _ _ => isFalse nofun
  | .label _ _, .call _ => isFalse nofun

instance (m n : Macro) : Decidable (m.Alike n) :=
  decidable_of_iff (m.name = n.name ∧ m.params = n.params ∧ List.Forall₂ Stmt.Alike m.body n.body)
    ⟨fun h => ⟨h.1, h.2.1, h.2.2⟩, fun h => ⟨h.name, h.params, h.body⟩⟩

instance : (i j : Item) → Decidable (i.Alike j)
  | .stmt s, .stmt t => decidable_of_iff (s.Alike t) ⟨.stmt, fun | .stmt h => h⟩
  | .definition m, .definition n =>
    decidable_of_iff (m.Alike n) ⟨.definition, fun | .definition h => h⟩
  | .stmt _, .definition _ => isFalse nofun
  | .definition _, .stmt _ => isFalse nofun

theorem Call.Alike.key {c d : Call} (h : c.Alike d) : c.key = d.key := by
  rw [Call.key, Call.key, h.name, h.kinds]

theorem Stmt.Alike.symm {s t : Stmt} (h : s.Alike t) : t.Alike s := by
  cases h with
  | call h => exact .call ⟨h.form.symm, h.name.symm, h.kinds.symm⟩
  | label => exact .label

theorem Stmt.Alike.trans {s t u : Stmt} (h : s.Alike t) (h' : t.Alike u) : s.Alike u := by
  cases h with
  | call h =>
    cases h' with
    | call h' => exact .call ⟨h.form.trans h'.form, h.name.trans h'.name, h.kinds.trans h'.kinds⟩
  | label =>
    cases h'
    exact .label

/-- Lists of statements that are both alike to a third are alike. -/
theorem Stmt.alike_of_alike {xs ys zs : List Stmt} (hx : List.Forall₂ Stmt.Alike ys xs)
    (hz : List.Forall₂ Stmt.Alike ys zs) : List.Forall₂ Stmt.Alike xs zs := by
  induction hx generalizing zs with
  | nil =>
    cases hz
    exact .nil
  | cons h _ ih =>
    cases hz with
    | cons h' hz => exact .cons (h.symm.trans h') (ih hz)

theorem Macro.Alike.key {m n : Macro} (h : m.Alike n) : m.key = n.key := by
  rw [Macro.key, Macro.key, h.name, h.params]

/-! ## Binding -/

/-- A parameter is replaced by an argument of its kind. -/
theorem Arg.kind_substitute (args : List Arg) (a : Arg) :
    (a.substitute (args.filter isRegister) (args.filter fun b => !b.isRegister)).kind = a.kind := by
  have hget (p : Arg → Bool) (k : ArgKind) (hp : ∀ b, p b = true → b.kind = k) (ha : a.kind = k)
      (i : Int) :
      (if 0 ≤ i then ((args.filter p)[i.toNat]?).getD a else a).kind = k := by
    split
    · cases hi : (args.filter p)[i.toNat]? with
      | none => exact ha
      | some b => exact hp b (List.mem_filter.1 (List.mem_of_getElem? hi)).2
    · exact ha
  cases a with
  | registerParam i t =>
    exact hget isRegister .register (fun b hb => by simpa [isRegister] using hb) rfl i
  | literalParam i t =>
    refine hget (fun b => !b.isRegister) .literal (fun b hb => ?_) rfl i
    rcases b.kind_known with hk | hk
    · simp [isRegister, hk] at hb
    · exact hk
  | _ => rfl

/-- **Binding keeps the kinds of every line**, whatever the arguments are. -/
theorem Macro.bind_alike (m : Macro) (args : List Arg) :
    List.Forall₂ Stmt.Alike m.body (m.bind args) := by
  rw [Macro.bind, List.forall₂_map_right_iff, List.forall₂_same]
  intro s _
  cases s with
  | label name t => exact .label
  | call c =>
    refine .call ⟨rfl, rfl, ?_⟩
    simp [Call.kinds, Function.comp_def, Arg.kind_substitute]

theorem Macro.Alike.bind {m n : Macro} (h : m.Alike n) (args args' : List Arg) :
    List.Forall₂ Stmt.Alike (m.bind args) (n.bind args') := by
  have hbody : List.Forall₂ Stmt.Alike m.body (n.bind args') :=
    Stmt.alike_of_alike (h.body.flip.imp fun _ _ => Stmt.Alike.symm) (n.bind_alike args')
  exact Stmt.alike_of_alike (m.bind_alike args) hbody

namespace Expansion

/-! ## Expansion -/

section Items

variable {items items' : List Item} (h : List.Forall₂ Item.Alike items items')
include h

theorem definitions_alike : List.Forall₂ Macro.Alike (definitions items) (definitions items') := by
  induction h with
  | nil => exact .nil
  | cons hi _ ih =>
    cases hi with
    | stmt _ => exact ih
    | definition hm => exact .cons hm ih

theorem statements_alike : List.Forall₂ Stmt.Alike (statements items) (statements items') := by
  induction h with
  | nil => exact .nil
  | cons hi _ ih =>
    cases hi with
    | stmt hs => exact .cons hs ih
    | definition _ => exact ih

end Items

/-- Macros that two tables have under one key are alike. -/
def AlikeTables (macros macros' : Table Macro) : Prop :=
  ∀ key m m', macros.find? key = some m → macros'.find? key = some m' → m.Alike m'

theorem alikeTables_macroTable {ms ns : List Macro} (h : List.Forall₂ Macro.Alike ms ns) :
    AlikeTables (macroTable ms) (macroTable ns) := by
  have hentries :
      List.Forall₂ (fun e f : Text × Macro => e.1 = f.1 ∧ e.2.Alike f.2) (macroTable ms)
        (macroTable ns) := by
    rw [macroTable, macroTable, List.forall₂_reverse_iff, List.forall₂_map_left_iff,
      List.forall₂_map_right_iff]
    exact h.imp fun _ _ hm => ⟨hm.key, hm⟩
  intro key m m' hm hm'
  generalize macroTable ms = t at hentries hm
  generalize macroTable ns = u at hentries hm'
  induction hentries with
  | nil => cases hm
  | @cons e f t u hef _ ih =>
    obtain ⟨n, v⟩ := e
    obtain ⟨n', w⟩ := f
    obtain ⟨rfl, hvw⟩ := hef
    by_cases hkey : key = n
    · subst hkey
      rw [Table.find?_cons_self] at hm hm'
      cases hm
      cases hm'
      exact hvw
    · rw [Table.find?_cons_ne hkey] at hm hm'
      exact ih hm hm'

/-- Labels of one name, or calls of one instruction. -/
inductive Placed.Alike : Placed → Placed → Prop
  | label {name : Text} {t u : Token} {calls calls' : List Site} :
    Alike (.label name t calls) (.label name u calls')
  | instruction {entry : Instruction} {c d : Call} {calls calls' : List Site} :
    Alike (.instruction entry c calls) (.instruction entry d calls')

/-- **Two expansions of statements that are alike** place the same instructions and labels. -/
theorem Inlined.alike {macros macros' : Table Macro} {limit limit' : Nat} {calls calls' : List Site}
    {stmts stmts' : List Stmt} {out out' : List Placed} (h : Inlined macros limit calls stmts out)
    (h' : Inlined macros' limit' calls' stmts' out') (hm : AlikeTables macros macros')
    (hs : List.Forall₂ Stmt.Alike stmts stmts') : List.Forall₂ Placed.Alike out out' := by
  induction h generalizing calls' stmts' out' with
  | nil =>
    cases hs
    cases h'
    exact .nil
  | label _ ih =>
    cases hs with
    | cons hx hs =>
      cases hx
      cases h' with
      | label h' => exact .cons .label (ih h' hs)
  | instruction he _ ih =>
    cases hs with
    | cons hx hs =>
      cases hx with
      | call hc =>
        cases h' with
        | instruction he' h' =>
          cases (hc.key ▸ he).symm.trans he'
          exact .cons .instruction (ih h' hs)
        | call he' _ _ _ _ => cases (hc.key ▸ he).symm.trans he'
  | call he hfind _ _ _ ihbody ihrest =>
    cases hs with
    | cons hx hs =>
      cases hx with
      | call hc =>
        cases h' with
        | instruction he' _ => cases (hc.key ▸ he).symm.trans he'
        | call _ hfind' _ hbody' hrest' =>
          have hbind := (hm _ _ _ hfind (hc.key ▸ hfind')).bind
          exact List.rel_append (ihbody hbody' (hbind _ _)) (ihrest hrest' hs)

/-- What statements without parameters expand to has none, and its instructions are those that are
called. -/
theorem Inlined.complete {macros : Table Macro} {limit : Nat} {calls : List Site}
    {stmts : List Stmt} {out : List Placed} (h : Inlined macros limit calls stmts out)
    (hm : SoundTable macros) (hs : ∀ s ∈ stmts, s.Args Arg.Closed) :
    ∀ x ∈ out, x.Complete := by
  have hclosed :=
    h.forall_stmt (fun c m hfind hc => Macro.bind_closed (hm _ _ hfind).2 (hm _ _ hfind).1 hc) hs
  intro x hx
  cases x with
  | label name t calls => trivial
  | instruction entry c calls => exact ⟨hclosed _ hx, h.entry hx⟩

end Expansion

namespace Layout

open Expansion (Placed)

/-! ## Rows -/

variable {sources : Table Text} {labels : Table UInt16}

/-- An instruction with its operands keeps its operation. -/
theorem encode_op {entry : Instruction} {c : Call} {calls : List Site} {code : Code}
    (hops : Operands entry.shape c.args) (h : encode sources labels entry c calls = .ok code) :
    code.op = entry.op := by
  obtain ⟨_, _, _, -, -, rfl⟩ | ⟨_, _, _, _, -, -, -, rfl⟩ | ⟨hs, rfl⟩ | ⟨_, _, -, -, rfl⟩ |
    ⟨_, _, _, -, -, -, -, rfl⟩ := encode_cases h
  · rfl
  · rfl
  · -- Only an argument that is neither a literal nor a label leaves the code empty.
    rw [hs] at hops
    generalize hargs : c.args = args at hops
    unfold encode at h
    cases hops with
    | registerLiteral =>
      simp only [hs, hargs] at h
      split at h
      · cases h
      · exact congrArg Code.op (Except.ok.inj h).symm
    | registerLabel =>
      simp only [hs, hargs] at h
      cases h
  · rfl
  · rfl

/-- The addresses and the operation numbers of the instructions, in order. -/
def slots (address : Nat) : List Placed → List (Int × Int)
  | [] => []
  | .label _ _ _ :: rest => slots address rest
  | .instruction entry _ _ :: rest => (address, entry.op) :: slots (address + entry.length) rest

/-- **The addresses and operations of rows** are those of what is placed. -/
theorem Emitted.slots {address : Nat} {placed : List Placed} {rows : List Row}
    (h : Emitted sources labels address placed rows) (hplaced : ∀ x ∈ placed, x.Complete) :
    rows.map (fun r => (r.ip, r.code.op)) = slots address placed := by
  induction h with
  | nil => rfl
  | label _ ih => exact ih fun x hx => hplaced x (.tail _ hx)
  | @instruction address entry c calls code rest rows hcode _ ih =>
    obtain ⟨hclosed, hfind⟩ := hplaced _ (List.mem_cons_self ..)
    have hops := operands_of_kinds (Instruction.mem_of_find? hfind)
        (Instruction.kinds_of_find? hfind).2 hclosed
    rw [List.map_cons, ih fun x hx => hplaced x (.tail _ hx), encode_op hops hcode, Layout.slots]

variable {address : Nat} {placed placed' : List Placed}
  (h : List.Forall₂ Placed.Alike placed placed')
include h

theorem slots_alike : slots address placed = slots address placed' := by
  induction h generalizing address with
  | nil => rfl
  | cons hx _ ih => cases hx <;> simp [slots, ih]

theorem addresses_alike : addresses address placed = addresses address placed' := by
  induction h generalizing address with
  | nil => rfl
  | cons hx _ ih => cases hx <;> simp [addresses, ih]

end Layout

/-! ## Programs -/

open Expansion Layout

/-- The items of a program after its includes are spliced in. -/
def included? (s : Settings) (source : Text) : Option (List Item) := do
  let nodes ← (Node.ofSource [] source s.formulas).toOption
  let included ← (expandIncludes s.includeContext source nodes).toOption
  some included.items.toList

/-- The items of a program are sound, and an assembly builds the program from them. -/
theorem included?_built {s : Settings} {source : Text} {items : List Item} {p : Program}
    (hi : included? s source = some items) (h : (assemble s source).result = .ok p) :
    (∀ i ∈ items, i.Sound) ∧ Built (Stack.capacityOf s.maxDepth) items p := by
  obtain ⟨nodes, items', hnodes, hspliced, hbuilt⟩ := assemble_eq_ok_built.1 h
  obtain ⟨included, hincluded, rfl⟩ :=
    (expandIncludes_eq_ok s.includeContext source).2 hspliced
  have hsome : included? s source = some included.items.toList := by
    simp only [included?, hnodes, Except.toOption, Option.bind_eq_bind, Option.bind_some, hincluded]
  cases hi.symm.trans hsome
  exact ⟨fun i hi => (hspliced.parsed hnodes i hi).sound, hbuilt⟩

/-- The layout of a program that is built from sound items. -/
theorem Built.laidOut {limit : Nat} {items : List Item} {p : Program} (h : Built limit items p)
    (hitems : ∀ i ∈ items, i.Sound) :
    ∃ placed, Inlined (macroTable (definitions items)) limit [] (statements items) placed ∧
      p.rows.map (fun r => (r.ip, r.code.op)) = slots 0 placed ∧
        p.labels = tableOf (addresses 0 placed) := by
  obtain ⟨placed, hplaced, -, hlabels, hrows⟩ := h.layout
  have hmacros : SoundTable (macroTable (definitions items)) :=
    soundTable_macroTable fun m hm => hitems _ (mem_definitions.1 hm)
  have hcomplete := hplaced.complete hmacros fun s hs => hitems _ (mem_statements.1 hs)
  exact ⟨placed, hplaced, hrows.slots hcomplete, hlabels⟩

/-- **Two assemblies of items that are alike have the same layout.** Take any two assemblies whose
items, after includes are spliced in, correspond one to one and differ only in operand values and
places. If both succeed, their programs have equally many rows, with the same addresses and
operations, and the same labels at the same addresses. -/
theorem assemble_layout_alike (s s' : Settings) (source source' : Text) (items items' : List Item)
    (p q : Program) (hi : included? s source = some items)
    (hi' : included? s' source' = some items') (halike : List.Forall₂ Item.Alike items items')
    (hp : (assemble s source).result = .ok p) (hq : (assemble s' source').result = .ok q) :
    p.rows.length = q.rows.length ∧
      p.rows.map (fun r => (r.ip, r.code.op)) = q.rows.map (fun r => (r.ip, r.code.op)) ∧
        p.labels = q.labels := by
  obtain ⟨hsound, hbuilt⟩ := included?_built hi hp
  obtain ⟨hsound', hbuilt'⟩ := included?_built hi' hq
  obtain ⟨placed, hplaced, hslots, hlabels⟩ := hbuilt.laidOut hsound
  obtain ⟨placed', hplaced', hslots', hlabels'⟩ := hbuilt'.laidOut hsound'
  have hplacedAlike : List.Forall₂ Placed.Alike placed placed' :=
    hplaced.alike hplaced' (alikeTables_macroTable (definitions_alike halike))
      (statements_alike halike)
  have hrows :
      p.rows.map (fun r => (r.ip, r.code.op)) = q.rows.map (fun r => (r.ip, r.code.op)) := by
    rw [hslots, hslots', slots_alike hplacedAlike]
  refine ⟨?_, hrows, ?_⟩
  · simpa using congrArg List.length hrows
  · rw [hlabels, hlabels', addresses_alike hplacedAlike]

/-- A macro that uses its parameters, called with a literal. -/
def usingParameters : Text :=
  utf8 "@macro put %r0, %l0\n$in: mov %r0, %l0\nlda %l0\n@endmacro\nlda $in\nput r1, #7\n$end:\n"

/-- The same macro with other operands, called with a label. -/
def ignoringParameters : Text :=
  utf8 "@macro put %r1, %l3\n$in: mov rsp, #(40 + 2)\nlda $end\n@endmacro\n" ++
    utf8 "lda #ffffh\nput rz, $in\n$end:\n"

theorem assemble_layout_alike_other_operands :
    ∃ items items' p q, included? {} usingParameters = some items ∧
      included? {} ignoringParameters = some items' ∧
      List.Forall₂ Item.Alike items items' ∧ (assemble {} usingParameters).result = .ok p ∧
      (assemble {} ignoringParameters).result = .ok q ∧
        p.image = [0x40, 0, 3, 0x11, 7, 0x40, 0, 7] ∧
      q.image = [0x40, 0xff, 0xff, 0x1d, 42, 0x40, 0, 8] ∧
      p.rows.map (fun r => (r.ip, r.code.op)) = q.rows.map (fun r => (r.ip, r.code.op)) ∧
        p.labels = q.labels := by
  have hitems : ((included? {} usingParameters).bind fun items =>
      (included? {} ignoringParameters).map fun items' =>
      decide (List.Forall₂ Item.Alike items items')) = some true := by
    simp only [included?, expandIncludes, Worklist.expand_eq_nested]
    decide +kernel
  have hp : (assemble {} usingParameters).result.toOption.map Program.image =
      some [0x40, 0, 3, 0x11, 7, 0x40, 0, 7] := by
    simp only [assemble, expandIncludes, expandMacros, Worklist.expand_eq_nested]
    decide +kernel
  have hq : (assemble {} ignoringParameters).result.toOption.map Program.image =
      some [0x40, 0xff, 0xff, 0x1d, 42, 0x40, 0, 8] := by
    simp only [assemble, expandIncludes, expandMacros, Worklist.expand_eq_nested]
    decide +kernel
  obtain ⟨items, hi, hrest⟩ := Option.bind_eq_some_iff.1 hitems
  obtain ⟨items', hi', halike⟩ := Option.map_eq_some_iff.1 hrest
  obtain ⟨p, hpok, hpimage⟩ := Option.map_eq_some_iff.1 hp
  obtain ⟨q, hqok, hqimage⟩ := Option.map_eq_some_iff.1 hq
  have hpok := Except.toOption_eq_some.1 hpok
  have hqok := Except.toOption_eq_some.1 hqok
  have halike := of_decide_eq_true halike
  obtain ⟨-, hrows, hlabels⟩ :=
    assemble_layout_alike {} {} _ _ items items' p q hi hi' halike hpok hqok
  exact ⟨items, items', p, q, hi, hi', halike, hpok, hqok, hpimage, hqimage, hrows, hlabels⟩

end Octet
