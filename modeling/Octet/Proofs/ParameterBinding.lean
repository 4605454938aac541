import Octet.Proofs.OverloadKeys
import Octet.Proofs.PlaceIndependence
import Octet.Proofs.TokenText
import Octet.Proofs.WorklistInvariants

/-!
# Every parameter is bound

The parser refuses parameters outside of macros and beyond those that a macro declares. The overload
key of a call fixes how many arguments of each kind the macro declares, and binding puts an argument
in the place of every parameter. So no parameter is ever out of range, none is left after expansion,
and the encoder finds the operands that the layout of an instruction asks for.

* `Arg.Closed`, `Arg.Within` — arguments that are no parameters, and parameters of a macro;
* `Grammar.Parsed` — items that stand in a source, as all do before macros are expanded
  (`collected?_parsed`);
* `Item.Sound` — what the parser promises of them (`Grammar.Parsed.sound`);
* `Macro.bind_closed` — a body that is bound to closed arguments is closed;
* `Operands` — the arguments that an instruction is encoded from;
* `assemble_binds_parameters` — **every parameter is bound, and every instruction has its
  operands**.
-/

namespace Octet

/-! ## Parameters and slots -/

/-- The argument is no parameter. -/
inductive Arg.Closed : Arg → Prop
  | register {name : Text} {index : Register} {t : Token} : Closed (.register name index t)
  | literal {value : UInt32} {t : Token} : Closed (.literal value t)
  | label {name : Text} {t : Token} : Closed (.label name t)

/-- If the argument is a parameter, it is one of so many. -/
def Arg.Within (registers literals : Nat) : Arg → Prop
  | registerParam index _ => 0 ≤ index ∧ index < registers
  | literalParam index _ => 0 ≤ index ∧ index < literals
  | _ => True

/-- A property of all arguments of a statement. -/
def Stmt.Args (P : Arg → Prop) : Stmt → Prop
  | call c => ∀ a ∈ c.args, P a
  | label .. => True

/-- The body uses parameters that the macro declares, and nothing else is declared. -/
structure Macro.Sound (m : Macro) : Prop where
  known : ∀ k ∈ m.params, k.Known
  body : ∀ s ∈ m.body, s.Args (Arg.Within m.registers m.literals)

/-- Parameters stand in macros only, and within what they declare. -/
def Item.Sound : Item → Prop
  | stmt s => s.Args Arg.Closed
  | definition m => m.Sound

/-! ## What the parser promises -/

namespace Grammar

open Token (Spelt)

variable {formulas : Formulas} {slots : Slots} {t : Token} {ts left : List Token}

theorem Argument.closed {a : Arg} (h : Argument formulas none t a) : a.Closed := by
  cases h with
  | register _ => exact .register
  | literal _ _ => exact .literal
  | label _ => exact .label
  | registerParam _ hs _ _ => cases hs
  | literalParam _ hs _ _ => cases hs

theorem Argument.within {a : Arg} (h : Argument formulas (some slots) t a)
    (ht : Spelt t.kind t.text) :
    a.Within slots.registers slots.literals := by
  cases h with
  | register _ => trivial
  | literal _ _ => trivial
  | label _ => trivial
  | registerParam hk hs hi hlt =>
    cases hs
    obtain ⟨-, n, -, -, -, rfl⟩ := Spelt.number_of_registerParam (hk ▸ ht) hi
    exact ⟨Int.natCast_nonneg n, hlt⟩
  | literalParam hk hs hi hlt =>
    cases hs
    obtain ⟨-, n, -, -, -, rfl⟩ := Spelt.number_of_literalParam (hk ▸ ht) hi
    exact ⟨Int.natCast_nonneg n, hlt⟩

section Lists

variable {α : Type} {item : Token → α → Prop} {items : List α} {P : α → Prop}

theorem Separated.forall_items (h : Separated item ts items left)
    (hitem : ∀ t ∈ ts, ∀ a, item t a → P a) :
    ∀ a ∈ items, P a := by
  induction h with
  | last ha _ =>
    intro a hmem
    obtain rfl := List.mem_singleton.1 hmem
    exact hitem _ (List.mem_cons_self ..) a ha
  | more ha _ _ ih =>
    intro b hmem
    rcases List.mem_cons.1 hmem with rfl | hmem
    · exact hitem _ (List.mem_cons_self ..) b ha
    · exact ih (fun t ht => hitem t (.tail _ (.tail _ ht))) b hmem

theorem Listed.forall_items (h : Listed item ts items left)
    (hitem : ∀ t ∈ ts, ∀ a, item t a → P a) :
    ∀ a ∈ items, P a := by
  cases h with
  | empty _ => simp
  | items h => exact h.forall_items hitem

end Lists

theorem Statement.args {slots : Option Slots} {s : Stmt} {P : Arg → Prop}
    (h : Statement formulas slots ts s left)
    (harg : ∀ t ∈ ts, ∀ a, Argument formulas slots t a → P a) : s.Args P := by
  cases h with
  | call _ h => exact h.forall_items fun t ht => harg t (.tail _ ht)
  | label _ _ => trivial

theorem Body.args {body : List Stmt} {P : Arg → Prop} (h : Body formulas slots ts body left)
    (harg : ∀ t ∈ ts, ∀ a, Argument formulas (some slots) t a → P a) : ∀ s ∈ body, s.Args P := by
  intro s hs
  obtain ⟨us, rest, hus, hstmt⟩ := h.statement_of_mem hs
  exact hstmt.args fun t ht => harg t (hus.mem ht)

theorem Definition.sound {m : Macro} (h : Definition formulas ts m left)
    (hts : ∀ t ∈ ts, Spelt t.kind t.text) :
    m.Sound := by
  cases h with
  | @intro name rest middle left params body hk hparams hbody =>
    have hmiddle : ∀ t ∈ middle, Spelt t.kind t.text :=
      fun t ht => hts t (.tail _ (hparams.suffix.mem ht))
    refine ⟨hparams.forall_items ?_, hbody.args fun t ht _ ha => ha.within (hmiddle t ht)⟩
    intro t _ k hparam
    cases hparam with
    | register _ => exact .inl rfl
    | literal _ => exact .inr rfl

/-- An item that stands in some source. -/
def Parsed (formulas : Formulas) (i : Item) : Prop :=
  ∃ file source nodes, Node.ofSource file source formulas = .ok nodes ∧ .item i ∈ nodes

/-- What stands in a source is read off tokens of a scanned text. -/
theorem Parsed.element {i : Item} (h : Parsed formulas i) :
    ∃ file source ts us rest, Token.scan file source = .ok ts ∧ us <:+ ts ∧
      Element formulas us (.item i) rest := by
  obtain ⟨file, source, nodes, hnodes, hmem⟩ := h
  obtain ⟨ts, hscan, hsource⟩ := ofSource_eq_ok.1 hnodes
  obtain ⟨us, rest, hus, helement⟩ := hsource.element_of_mem hmem
  exact ⟨file, source, ts, us, rest, hscan, hus, helement⟩

/-- **The items of a source are sound.** -/
theorem Parsed.sound {i : Item} (h : Parsed formulas i) : i.Sound := by
  obtain ⟨file, source, ts, us, rest, hscan, hus, helement⟩ := h.element
  have hspelt : ∀ t ∈ us, Spelt t.kind t.text := fun t ht => Token.scan_spelt hscan t (hus.mem ht)
  cases helement with
  | definition _ _ hm => exact hm.sound fun t ht => hspelt t (.tail _ ht)
  | stmt hs => exact hs.args fun _ _ _ ha => ha.closed

end Grammar

open Grammar (Parsed)

namespace Expansion

/-! ## Splicing and collecting -/

theorem Spliced.parsed {resolver : Resolver} {formulas : Formulas} {limit : Nat} {chain : List Text}
    {file source : Text} {nodes : List Node} {items : List Item}
    (h : Spliced resolver formulas limit chain nodes items)
    (hnodes : Node.ofSource file source formulas = .ok nodes) : ∀ i ∈ items, Parsed formulas i := by
  intro i hi
  obtain hmem | ⟨path, source, inner, hinner, hmem⟩ := h.origin hi
  · exact ⟨_, _, _, hnodes, hmem⟩
  · exact ⟨_, _, _, hinner, hmem⟩

theorem mem_definitions {items : List Item} {m : Macro} :
    m ∈ definitions items ↔ .definition m ∈ items := by
  rw [definitions, List.mem_filterMap]
  constructor
  · rintro ⟨i, hi, heq⟩
    cases i with
    | definition m' =>
      cases heq
      exact hi
    | stmt s => cases heq
  · intro h
    exact ⟨_, h, rfl⟩

theorem mem_statements {items : List Item} {s : Stmt} : s ∈ statements items ↔ .stmt s ∈ items := by
  rw [statements, List.mem_filterMap]
  constructor
  · rintro ⟨i, hi, heq⟩
    cases i with
    | definition m => cases heq
    | stmt s' =>
      cases heq
      exact hi
  · intro h
    exact ⟨_, h, rfl⟩

theorem mem_of_macroTable {macros : List Macro} {key : Text} {m : Macro}
    (h : (macroTable macros).find? key = some m) :
    m.key = key ∧ m ∈ macros := by
  have hmem := Table.mem_of_find? h
  rw [macroTable, List.mem_reverse, List.mem_map] at hmem
  obtain ⟨m', hm', heq⟩ := hmem
  cases heq
  exact ⟨rfl, hm'⟩

/-- The macros of a table are sound, and stand there under their keys. -/
def SoundTable (macros : Table Macro) : Prop :=
  ∀ key m, macros.find? key = some m → m.key = key ∧ m.Sound

theorem soundTable_macroTable {macros : List Macro} (h : ∀ m ∈ macros, m.Sound) :
    SoundTable (macroTable macros) :=
  fun _ m hfind => (mem_of_macroTable hfind).imp_right (h m)

end Expansion

open Expansion

/-- What the stages of an assembly before the expansion of macros leave: what that expansion needs
to know, and the statements to expand. -/
def collected? (s : Settings) (source : Text) : Option (MacroContext × List Stmt) := do
  let nodes ← (Node.ofSource [] source s.formulas).toOption
  let included ← (expandIncludes s.includeContext source nodes).toOption
  let (macros, stmts) ← (collectMacros included.sources [] #[] included.items.toList).toOption
  some (⟨included.sources, macros, s.maxDepth, s.verbose⟩, stmts)

/-- Before macros are expanded, all macros and statements are as they stand in sources. -/
theorem collected?_parsed {s : Settings} {source : Text} {ctx : MacroContext} {stmts : List Stmt}
    (h : collected? s source = some (ctx, stmts)) :
    (∀ key m, ctx.macros.find? key = some m → m.key = key ∧ Parsed s.formulas (.definition m)) ∧
      ∀ x ∈ stmts, Parsed s.formulas (.stmt x) := by
  simp only [collected?, Option.bind_eq_bind, Option.bind_eq_some_iff] at h
  obtain ⟨nodes, hnodes, included, hincluded, ⟨macros, stmts'⟩, hcollect, heq⟩ := h
  cases heq
  have hspliced := (expandIncludes_eq_ok _ _).1 ⟨included, Except.toOption_eq_some.1 hincluded, rfl⟩
  have hitems := hspliced.parsed (Except.toOption_eq_some.1 hnodes)
  obtain ⟨-, hr⟩ := collectMacros_eq_ok.1 (Except.toOption_eq_some.1 hcollect)
  cases hr
  constructor
  · intro key m hfind
    rw [List.append_nil] at hfind
    obtain ⟨hkey, hm⟩ := mem_of_macroTable hfind
    exact ⟨hkey, hitems _ (mem_definitions.1 hm)⟩
  · intro x hx
    exact hitems _ (mem_statements.1 hx)

/-- **Before macros are expanded**, all macros are sound and no statement has parameters. -/
theorem collected?_sound {s : Settings} {source : Text} {ctx : MacroContext} {stmts : List Stmt}
    (h : collected? s source = some (ctx, stmts)) :
    SoundTable ctx.macros ∧ ∀ x ∈ stmts, x.Args Arg.Closed := by
  obtain ⟨hmacros, hstmts⟩ := collected?_parsed h
  exact ⟨fun key m hfind => (hmacros key m hfind).imp_right Parsed.sound,
    fun x hx => (hstmts x hx).sound⟩

/-! ## Binding -/

/-- The arguments of a call that fill register parameters. -/
def Call.registers (c : Call) : List Arg := c.args.filter Arg.isRegister

/-- The arguments of a call that fill literal parameters. -/
def Call.literals (c : Call) : List Arg := c.args.filter fun a => !a.isRegister

theorem Call.registers_length (c : Call) : c.registers.length = c.kinds.count .register := by
  rw [registers, ← List.countP_eq_length_filter, kinds, List.count_eq_countP, List.countP_map]
  rfl

theorem Arg.not_isRegister_eq (a : Arg) : (!a.isRegister) = (a.kind == .literal) := by
  cases a <;> rfl

theorem Call.literals_length (c : Call) : c.literals.length = c.kinds.count .literal := by
  simp only [literals, Arg.not_isRegister_eq]
  rw [← List.countP_eq_length_filter, kinds, List.count_eq_countP, List.countP_map]
  rfl

section Bind

variable {m : Macro} {c : Call}

/-- The parameters in the body of a macro that a call names are within the arguments of the call. -/
theorem Macro.Sound.within_call (hm : m.Sound) (hkey : m.key = c.key) :
    ∀ s ∈ m.body, s.Args (Arg.Within c.registers.length c.literals.length) := by
  obtain ⟨-, hparams⟩ := Macro.params_of_key hm.known hkey
  rw [c.registers_length, c.literals_length, ← hparams]
  exact hm.body

theorem Arg.substitute_closed (hc : ∀ a ∈ c.args, a.Closed) {a : Arg}
    (ha : a.Within c.registers.length c.literals.length) :
    (a.substitute c.registers c.literals).Closed := by
  -- The argument at a place of a sublist is an argument of the call.
  have hget (p : Arg → Bool) (a : Arg) (i : Int) (h : 0 ≤ i ∧ i < (c.args.filter p).length) :
      (if 0 ≤ i then ((c.args.filter p)[i.toNat]?).getD a else a).Closed := by
    have hlt : i.toNat < (c.args.filter p).length := by omega
    rw [if_pos h.1, List.getElem?_eq_getElem hlt, Option.getD_some]
    exact hc _ (List.mem_filter.1 (List.getElem_mem hlt)).1
  cases a with
  | register _ _ _ => exact .register
  | literal _ _ => exact .literal
  | label _ _ => exact .label
  | registerParam i t => exact hget _ _ i ha
  | literalParam i t => exact hget _ _ i ha

/-- **A body that is bound to closed arguments is closed.** -/
theorem Macro.bind_closed (hm : m.Sound) (hkey : m.key = c.key) (hc : ∀ a ∈ c.args, a.Closed) :
    ∀ s ∈ m.bind c.args, s.Args Arg.Closed := by
  intro s hs
  obtain ⟨x, hx, rfl⟩ := List.mem_map.1 hs
  have hwithin := hm.within_call hkey x hx
  cases x with
  | label name t => trivial
  | call d =>
    intro b hb
    obtain ⟨a, ha, rfl⟩ := List.mem_map.1 hb
    exact Arg.substitute_closed hc (hwithin a ha)

end Bind

namespace Expansion

theorem visitStmt_fail_state {ctx : MacroContext} {calls : List Site} {s s' : MacroState}
    {stmt : Stmt} {f : Fault} (h : visitStmt ctx calls s stmt = .fail s' f) : s' = s := by
  cases stmt with
  | label name t => cases h
  | call c =>
    simp only [visitStmt] at h
    split at h
    · cases h
    · split at h
      · cases h
        rfl
      · cases h

/-- An instruction has no parameters left, and is the one that its call selects. -/
def Placed.Complete : Placed → Prop
  | instruction entry c _ => (∀ a ∈ c.args, a.Closed) ∧ Instruction.find? c.key = some entry
  | label .. => True

/-- **One visit** places what is complete, and enters bodies without parameters. -/
theorem visitStmt_invariant {ctx : MacroContext} (hctx : SoundTable ctx.macros) :
    Worklist.Invariant (visitStmt ctx) (fun _ x => x.Args Arg.Closed) fun s => ∀ x ∈ s.placed,
      x.Complete where
  done := by
    intro calls stmt s s' hstmt hs hv x hx
    obtain ⟨name, t, rfl, hp⟩ | ⟨c, entry, rfl, he, hp⟩ := visitStmt_done hv
    · rw [hp] at hx
      rcases Array.mem_push.1 hx with hx | rfl
      · exact hs x hx
      · trivial
    · rw [hp] at hx
      rcases Array.mem_push.1 hx with hx | rfl
      · exact hs x hx
      · exact ⟨hstmt, he⟩
  fail := by
    intro calls stmt s s' f hstmt hs hv
    rw [visitStmt_fail_state hv]
    exact hs
  enter := by
    intro calls stmt s s' inner items f hstmt hs hv
    obtain ⟨c, m, rfl, he, hm, hp, rfl, rfl⟩ := visitStmt_enter hv
    obtain ⟨hkey, hsound⟩ := hctx _ m hm
    exact ⟨hp ▸ hs, Macro.bind_closed hsound hkey hstmt⟩

end Expansion

/-! ## Operands -/

/-- The arguments that instructions of a layout are encoded from. -/
inductive Operands : Shape → List Arg → Prop
  | registerRegister {n n' : Text} {i i' : Register} {t t' : Token} :
    Operands .registerRegister [.register n i t, .register n' i' t']
  | registerLiteral {n : Text} {i : Register} {t t' : Token} {value : UInt32} :
    Operands .registerLiteral [.register n i t, .literal value t']
  | registerLabel {n name : Text} {i : Register} {t t' : Token} :
    Operands .registerLiteral [.register n i t, .label name t']
  | register {n : Text} {i : Register} {t : Token} : Operands .register [.register n i t]
  | literal {value : UInt32} {t : Token} : Operands .literal [.literal value t]
  | label {name : Text} {t : Token} : Operands .literal [.label name t]

theorem catalog_kinds : ∀ i ∈ catalog,
    i.kinds ∈ [[.register, .register], [.register, .literal], [.register], [.literal]] := by
  decide +kernel

theorem Arg.Closed.eq_register {a : Arg} (h : a.Closed) (hk : a.kind = .register) :
    ∃ n i t, a = .register n i t := by
  cases h with
  | register => exact ⟨_, _, _, rfl⟩
  | literal => cases hk
  | label => cases hk

theorem Arg.Closed.eq_literal {a : Arg} (h : a.Closed) (hk : a.kind = .literal) :
    (∃ value t, a = .literal value t) ∨ ∃ name t, a = .label name t := by
  cases h with
  | register => cases hk
  | literal => exact .inl ⟨_, _, rfl⟩
  | label => exact .inr ⟨_, _, rfl⟩

/-- Closed arguments of the kinds of an instruction are its operands. -/
theorem operands_of_kinds {entry : Instruction} {args : List Arg} (hentry : entry ∈ catalog)
    (hkinds : entry.kinds = args.map Arg.kind) (hargs : ∀ a ∈ args, a.Closed) :
    Operands entry.shape args := by
  have hpair {k l : ArgKind} (h : args.map Arg.kind = [k, l]) :
      ∃ a b, args = [a, b] ∧ a.kind = k ∧ b.kind = l := by
    obtain ⟨a, rest, rfl, ha, hrest⟩ := List.map_eq_cons_iff.1 h
    obtain ⟨b, rfl, hb⟩ := List.map_eq_singleton_iff.1 hrest
    exact ⟨a, b, rfl, ha, hb⟩
  have hcases := catalog_kinds entry hentry
  simp only [List.mem_cons, List.not_mem_nil, or_false] at hcases
  rw [Instruction.shape]
  rcases hcases with hk | hk | hk | hk
  · rw [hk] at hkinds ⊢
    obtain ⟨a, b, rfl, ha, hb⟩ := hpair hkinds.symm
    obtain ⟨_, _, _, rfl⟩ := (hargs a (by simp)).eq_register ha
    obtain ⟨_, _, _, rfl⟩ := (hargs b (by simp)).eq_register hb
    exact .registerRegister
  · rw [hk] at hkinds ⊢
    obtain ⟨a, b, rfl, ha, hb⟩ := hpair hkinds.symm
    obtain ⟨_, _, _, rfl⟩ := (hargs a (by simp)).eq_register ha
    rcases (hargs b (by simp)).eq_literal hb with ⟨_, _, rfl⟩ | ⟨_, _, rfl⟩
    · exact .registerLiteral
    · exact .registerLabel
  · rw [hk] at hkinds ⊢
    obtain ⟨a, rfl, ha⟩ := List.map_eq_singleton_iff.1 hkinds.symm
    obtain ⟨_, _, _, rfl⟩ := (hargs a (by simp)).eq_register ha
    exact .register
  · rw [hk] at hkinds ⊢
    obtain ⟨a, rfl, ha⟩ := List.map_eq_singleton_iff.1 hkinds.symm
    rcases (hargs a (by simp)).eq_literal ha with ⟨_, _, rfl⟩ | ⟨_, _, rfl⟩
    · exact .literal
    · exact .label

theorem Fault.within_inj {calls : List Site} {f g : Fault}
    (h : Fault.within calls f = Fault.within calls g) :
    f = g := by
  induction calls generalizing f g with
  | nil => exact h
  | cons c calls ih => cases ih h; rfl

/-- Faults that are reached through the same calls differ if their parts do. -/
theorem Fault.parts_of_at {sources : Table Text} {t u : Token} {calls : List Site}
    {ps qs : List Fault} (h : Fault.at sources t calls ps = Fault.at sources u calls qs) :
    ps = qs := by
  rw [Fault.at, Fault.at] at h
  injection h with _ _ _ _ hinner
  injection Fault.within_inj hinner

/-- Operands can be out of range or missing, but they are never of a form that the encoder does not
know. -/
theorem Operands.encode_ne {entry : Instruction} {c : Call} (h : Operands entry.shape c.args)
    (sources : Table Text) (labels : Table UInt16) (calls : List Site) (key : Text) :
    Layout.encode sources labels entry c calls ≠
      .error (.at sources c.token calls [.cause .resolution, .unknownInstruction key]) := by
  have hparts {t : Token} {parts : List Fault}
      (hne : parts ≠ [.cause .resolution, .unknownInstruction key]) :
      (.error (.at sources t calls parts) : Except Fault Code) ≠
        .error (.at sources c.token calls [.cause .resolution, .unknownInstruction key]) := by
    intro he
    exact hne (Fault.parts_of_at (Except.error.inj he))
  unfold Layout.encode
  generalize entry.shape = shape at h
  generalize c.args = args at h
  cases h with
  | registerRegister => simp
  | registerLiteral =>
    simp only
    split
    · exact hparts (by simp)
    · simp
  | registerLabel => exact hparts (by simp)
  | register => simp
  | literal =>
    simp only [Layout.addressOf, bind, Except.bind]
    split
    · exact hparts (by simp)
    · simp
  | label =>
    simp only [Layout.addressOf, bind, Except.bind]
    cases labels.find? _ with
    | none => exact hparts (by simp)
    | some address =>
      simp only
      split
      · exact hparts (by simp)
      · simp

/-! ## Assemblies -/

/-- What the expansion of statements does with parameters, whether or not it succeeds. -/
structure Expansion.ParametersBound (ctx : MacroContext) (stmts : List Stmt) : Prop where
  /-- The parameters in a macro body are within the arguments, by kind, of every call that is bound
  to the macro. -/
  within : ∀ (c : Call) (m : Macro), ctx.macros.find? c.key = some m → ∀ d, .call d ∈ m.body →
    ∀ a ∈ d.args,
    a.Within (c.args.filter Arg.isRegister).length (c.args.filter fun a => !a.isRegister).length
  /-- No statement that the expansion comes to has parameters. -/
  closed : ∀ (calls : List Site) (s : MacroState) (x : Stmt),
    Worklist.Visits (visitStmt ctx) (Stack.capacityOf ctx.limit) [⟨[], stmts⟩] ⟨#[], #[]⟩ calls s
      x → x.Args Arg.Closed
  /-- An instruction that is placed takes the kinds of arguments that it is given, and they are its
  operands. -/
  operands : ∀ entry c calls,
    .instruction entry c calls ∈ (Worklist.reached (expandMacros ctx stmts)).placed →
    (∀ a ∈ c.args, a.Closed) ∧ entry.kinds = c.kinds ∧ Operands entry.shape c.args
  /-- The encoder knows every instruction that is placed. -/
  known : ∀ entry c calls,
    .instruction entry c calls ∈ (Worklist.reached (expandMacros ctx stmts)).placed →
    ∀ labels, Layout.encode ctx.sources labels entry c calls ≠
      .error (.at ctx.sources c.token calls [.cause .resolution, .unknownInstruction entry.key])

/-- The stages of an assembly from the expansion of macros on. -/
def assembleCollected (ctx : MacroContext) (stmts : List Stmt) (log : Array Text) :
    Except Fault Program :=
  match expandMacros ctx stmts with
  | .error (f, _) => .error f
  | .ok expanded =>
    match Layout.assignLabels ctx.sources ctx.verbose ⟨[], log ++ expanded.log⟩ 0
      expanded.placed.toList with
    | .error (f, _) => .error f
    | .ok found =>
      (Layout.emit ctx.sources found.labels #[] 0 expanded.placed.toList).map (⟨·, found.labels⟩)

/-- An assembly goes on with what it has collected. -/
theorem assemble_of_collected? {s : Settings} {source : Text} {ctx : MacroContext}
    {stmts : List Stmt} (h : collected? s source = some (ctx, stmts)) :
    ∃ log, (assemble s source).result = assembleCollected ctx stmts log := by
  simp only [collected?, Option.bind_eq_bind, Option.bind_eq_some_iff] at h
  obtain ⟨nodes, hnodes, included, hincluded, ⟨macros, stmts'⟩, hcollect, heq⟩ := h
  cases heq
  refine ⟨included.log, ?_⟩
  rw [assemble, Except.toOption_eq_some.1 hnodes]
  simp only [Except.toOption_eq_some.1 hincluded, Except.toOption_eq_some.1 hcollect,
    assembleCollected]
  cases expandMacros ⟨included.sources, macros, s.maxDepth, s.verbose⟩ stmts' with
  | error e => rfl
  | ok expanded =>
    simp only
    cases Layout.assignLabels included.sources s.verbose ⟨[], included.log ++ expanded.log⟩ 0
      expanded.placed.toList with
    | error e => rfl
    | ok found => rfl

/-- An assembly that does not get as far as the expansion of macros fails. -/
theorem assemble_of_not_collected? {s : Settings} {source : Text} (h : collected? s source = none) :
    ∃ f, (assemble s source).result = .error f := by
  unfold assemble
  cases hnodes : Node.ofSource [] source s.formulas with
  | error f => exact ⟨f, rfl⟩
  | ok nodes =>
    simp only
    cases hincluded : expandIncludes s.includeContext source nodes with
    | error e => exact ⟨e.1, rfl⟩
    | ok included =>
      simp only
      cases hcollect : collectMacros included.sources [] #[] included.items.toList with
      | error e => exact ⟨e.1, rfl⟩
      | ok r =>
        have hsome :
            collected? s source = some (⟨included.sources, r.1, s.maxDepth, s.verbose⟩, r.2) := by
          simp only [collected?, hnodes, Except.toOption, Option.bind_eq_bind, Option.bind_some,
            hincluded, hcollect]
        cases h.symm.trans hsome

/-- **Every parameter is bound, and every instruction has its operands.** An assembly either fails
before macros are expanded, or no parameter is out of range when its macro is bound, none is left
afterwards, and the encoder finds the operands that it needs. -/
theorem assemble_binds_parameters (s : Settings) (source : Text) :
    (collected? s source = none → ∃ f, (assemble s source).result = .error f) ∧
      ∀ ctx stmts, collected? s source = some (ctx, stmts) →
        (∃ log, (assemble s source).result = assembleCollected ctx stmts log) ∧
          ParametersBound ctx stmts := by
  refine ⟨assemble_of_not_collected?, ?_⟩
  intro ctx stmts h
  obtain ⟨hctx, hstmts⟩ := collected?_sound h
  have hinv := visitStmt_invariant hctx
  have hframes :
      Worklist.Frames (fun (_ : List Site) (x : Stmt) => x.Args Arg.Closed) [⟨[], stmts⟩] := by
    simpa [Worklist.Frames] using hstmts
  have hplaced := hinv.reached_run _ ⟨#[], #[]⟩ (Stack.capacityOf_pos ctx.limit) hframes (by simp)
  have hoperands : ∀ entry c calls,
      .instruction entry c calls ∈ (Worklist.reached (expandMacros ctx stmts)).placed →
      (∀ a ∈ c.args, a.Closed) ∧ entry.kinds = c.kinds ∧ Operands entry.shape c.args := by
    intro entry c calls hmem
    obtain ⟨hclosed, hfind⟩ := hplaced _ hmem
    obtain ⟨-, hkinds⟩ := Instruction.kinds_of_find? hfind
    exact ⟨hclosed, hkinds, operands_of_kinds (Instruction.mem_of_find? hfind) hkinds hclosed⟩
  refine ⟨assemble_of_collected? h, ?_⟩
  constructor
  case within =>
    intro c m hm d hd
    obtain ⟨hkey, hsound⟩ := hctx _ m hm
    exact hsound.within_call hkey _ hd
  case closed =>
    intro calls t x hx
    exact (hinv.visits hx hframes (by simp)).1
  case operands => exact hoperands
  case known =>
    intro entry c calls hmem labels
    exact (hoperands entry c calls hmem).2.2.encode_ne ctx.sources labels calls entry.key

/-- Two macros, the outer of which takes its arguments in another order than it passes them on. -/
def swapping : Text :=
  utf8 "@macro in %r0, %l0\nmov %r0, %l0\n@endmacro\n" ++
    utf8 "@macro out %l0, %r0\nin %r0, %l0\n@endmacro\nout #7, r3\n"

theorem assemble_binds_parameters_swapping :
    ∃ ctx stmts, collected? {} swapping = some (ctx, stmts) ∧
      (Worklist.reached (expandMacros ctx stmts)).placed.toList.map (fun x => x.calls.length) =
        [2] ∧
      (∃ log, (assemble {} swapping).result = assembleCollected ctx stmts log) ∧
        ParametersBound ctx stmts := by
  have hrun : (collected? {} swapping).map (fun r =>
      (Worklist.reached (expandMacros r.1 r.2)).placed.toList.map fun x => x.calls.length) =
        some [2] := by
    simp only [collected?, expandIncludes, expandMacros, Worklist.expand_eq_nested]
    decide +kernel
  obtain ⟨⟨ctx, stmts⟩, hcollected, hplaced⟩ := Option.map_eq_some_iff.1 hrun
  exact ⟨ctx, stmts, hcollected, hplaced,
    (assemble_binds_parameters {} swapping).2 ctx stmts hcollected⟩

end Octet
