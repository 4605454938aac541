import Octet.Proofs.FaultPlaces
import Octet.Proofs.OperandIndependence

/-!
# The shape of faults

Whatever is wrong with a source, the fault of its assembly has one shape: a place, inside of it a
chain of macro calls with the outermost first, and inside of these a stage joined with details. The
stages before the expansion of macros know of no calls. Those after it blame statements that were
written in bodies, and must tell through which calls they came about.

* `Fault.Reports` — faults of this shape;
* `Expansion.Reaches` — the call that an expansion comes to next, with the calls that led to it;
* `Expansion.reaches_of_inlineCalls` — an expansion that fails does so at a call that it reaches;
* `Failure` — what can go wrong, and which calls are reported;
* `assemble_fault_shape` — **every fault of an assembly has this shape, with the calls that led to
  it**.
-/

namespace Octet

/-! ## Shapes -/

/-- A fault inside of macro calls, of which the outermost comes first. -/
def Fault.inCalls (chain : List Site) (f : Fault) : Fault :=
  chain.foldr (fun c inner => .inMacro c.key c.token.file c.token.line inner) f

theorem Fault.within_eq_inCalls (calls : List Site) (f : Fault) :
    Fault.within calls f = .inCalls calls.reverse f := by
  rw [within, inCalls, List.foldr_reverse]

/-- The fault lies at a token, inside of a chain of macro calls, and joins a stage with details. -/
def Fault.Reports (f : Fault) (t : Token) (chain : List Site) (stage : Cause)
    (details : List Fault) : Prop :=
  ∃ lineText,
    f = .located t.file t.offset t.line lineText (.inCalls chain (.all (.cause stage :: details)))

theorem Fault.at_reports (sources : Table Text) (t : Token) (calls : List Site) (stage : Cause)
    (details : List Fault) :
    (Fault.at sources t calls (.cause stage :: details)).Reports t calls.reverse stage details :=
  ⟨_, by rw [Fault.at, within_eq_inCalls]⟩

theorem Token.scanFrom_reports {file source input : Text} {offset line : Nat} {found : Array Token}
    {f : Fault} (h : scanFrom file source offset line found input = .error f) :
    ∃ t code, f.Reports t [] .lex [.character code] := by
  fun_induction scanFrom file source offset line found input with
  | case1 => cases h
  | case2 offset line found b rest hm =>
    cases h
    exact ⟨⟨.endOfInput, [], file, offset, line⟩, _, _, rfl⟩
  | case3 offset line found b rest m hm bytes found' ih => exact ih h

/-! ## The call at which an expansion stops -/

namespace Expansion

/-- `Reaches macros limit calls stmts through c`: expanding the statements, which were reached
through `calls`, comes to the call `c`, reached through `through`, after all that stands before it
has been expanded. -/
inductive Reaches (macros : Table Macro) (limit : Nat) :
    List Site → List Stmt → List Site → Call → Prop
  | here {calls c rest} : Reaches macros limit calls (.call c :: rest) calls c
  | later {calls x rest out through c} :
    Inlined macros limit calls [x] out → Reaches macros limit calls rest through c →
      Reaches macros limit calls (x :: rest) through c
  | inside {calls d m rest through c} :
    Instruction.find? d.key = none → macros.find? d.key = some m →
      calls.length + 1 < limit →
        Reaches macros limit (⟨d.key, d.token⟩ :: calls) (m.bind d.args) through c →
      Reaches macros limit calls (.call d :: rest) through c

/-- A call is reached through exactly the calls that enclose it. -/
theorem Reaches.encloses {macros : Table Macro} {limit : Nat} {calls through : List Site}
    {stmts : List Stmt} {c : Call} (h : Reaches macros limit calls stmts through c) :
    ∃ chain, through = chain.reverse ++ calls ∧ Encloses macros stmts chain (.call c) := by
  induction h with
  | here => exact ⟨[], rfl, .here (List.mem_cons_self ..)⟩
  | later _ _ ih =>
    obtain ⟨chain, hc, henc⟩ := ih
    exact ⟨chain, hc, henc.cons _⟩
  | @inside calls d m rest through c he hm _ _ ih =>
    obtain ⟨chain, hc, henc⟩ := ih
    refine ⟨⟨d.key, d.token⟩ :: chain, ?_, .inside (List.mem_cons_self ..) he hm henc⟩
    rw [hc, List.reverse_cons, List.append_assoc]
    rfl

/-- **An expansion that fails does so at a call that it reaches**, which matches nothing or nests
too deeply. -/
theorem reaches_of_inlineCalls {ctx : MacroContext} {limit : Nat} {calls : List Site}
    {stmts : List Stmt} {f : Fault} (h : inlineCalls ctx limit calls stmts = .error f) :
    ∃ through c, Reaches ctx.macros limit calls stmts through c ∧ Instruction.find? c.key = none ∧
      ((ctx.macros.find? c.key = none ∧
          f = .at ctx.sources c.token through [.cause .resolution, .unknownInstruction c.key]) ∨
        ((ctx.macros.find? c.key).isSome ∧ limit ≤ through.length + 1 ∧
          f = .at ctx.sources c.token through.getLast?.toList
            [.cause .recursion, .tooDeep c.key limit])) := by
  fun_induction inlineCalls ctx limit calls stmts with
  | case1 => cases h
  | case2 calls name t rest ih =>
    obtain hrest | ⟨after, -, ho⟩ := Except.bind_eq_error.1 h
    · obtain ⟨through, c, hreach, hend⟩ := ih hrest
      exact ⟨through, c, .later (.label .nil) hreach, hend⟩
    · cases ho
  | case3 calls c rest entry he ih =>
    obtain hrest | ⟨after, -, ho⟩ := Except.bind_eq_error.1 h
    · obtain ⟨through, d, hreach, hend⟩ := ih hrest
      exact ⟨through, d, .later (.instruction he .nil) hreach, hend⟩
    · cases ho
  | case4 calls c rest he hm =>
    cases h
    exact ⟨calls, c, .here, he, .inl ⟨hm, rfl⟩⟩
  | case5 calls c rest he m hm hd ihbody ihrest =>
    obtain hbody | ⟨body, hbody, h⟩ := Except.bind_eq_error.1 h
    · obtain ⟨through, d, hreach, hend⟩ := ihbody hbody
      exact ⟨through, d, .inside he hm hd hreach, hend⟩
    · obtain hrest | ⟨after, -, ho⟩ := Except.bind_eq_error.1 h
      · obtain ⟨through, d, hreach, hend⟩ := ihrest hrest
        exact ⟨through, d, .later (.call he hm hd (inlined_of_inlineCalls hbody) .nil) hreach, hend⟩
      · cases ho
  | case6 calls c rest he m hm hd =>
    cases h
    exact ⟨calls, c, .here, he, .inr ⟨by rw [hm]; rfl, by omega, rfl⟩⟩

end Expansion

/-! ## What can go wrong -/

section

open Expansion Worklist

/-- What is placed for the source if all its calls are expanded. -/
def Settings.Places (s : Settings) (source : Text) (ctx : MacroContext) (stmts : List Stmt)
    (placed : List Placed) : Prop :=
  collected? s source = some (ctx, stmts) ∧
    Inlined ctx.macros (Stack.capacityOf s.maxDepth) [] stmts placed

/-- `Failure s source t chain stage details`: what can go wrong when a source is assembled, with the
token that is blamed, the macro calls that are reported, the stage and the details. -/
inductive Failure (s : Settings) (source : Text) : Token → List Site → Cause → List Fault → Prop
  /-- A source has a character that starts no token. -/
  | lex {file text t code f} :
    s.includeContext.Reads source file text → Token.scan file text = .error f →
      f.Reports t [] .lex [.character code] → Failure s source t [] .lex [.character code]
  /-- A source has tokens that are no program. -/
  | parse {file text t tokens details f} :
    s.includeContext.Reads source file text → Token.scan file text = .ok tokens →
      Node.ofTokens file text s.formulas tokens = .error f → f.Reports t [] .parse details →
      details.any Fault.isSpecific = true → Failure s source t [] .parse details
  /-- A source includes itself. -/
  | includeCycle {outer path t} : s.includeContext.Meets source outer path t → path ∈ outer →
      Failure s source t [] .resolution [.includeCycle path]
  /-- An included source is not found. -/
  | includeMissing {outer path t} :
    s.includeContext.Meets source outer path t → path ∉ outer → s.resolver.find path = none →
      Failure s source t [] .resolution [.includeMissing path]
  /-- An include is nested too deeply. -/
  | includeDepth {outer path t} : s.includeContext.Meets source outer path t →
      Failure s source t [] .recursion [.tooDeep path (Stack.capacityOf s.maxDepth)]
  /-- A macro has the key of another one. -/
  | macroDuplicate {before m after} : included? s source = some (before ++ .definition m :: after) →
      m.key ∈ (definitions before).map Macro.key →
      Failure s source m.token [] .resolution [.cause .macroDuplicate]
  /-- A call matches neither an instruction nor a macro. -/
  | unknown {ctx stmts chain c} : collected? s source = some (ctx, stmts) →
      Reaches ctx.macros (Stack.capacityOf s.maxDepth) [] stmts chain.reverse c →
        Encloses ctx.macros stmts chain (.call c) →
      Instruction.find? c.key = none → ctx.macros.find? c.key = none →
      Failure s source c.token chain .resolution [.unknownInstruction c.key]
  /-- A macro call is nested too deeply. Only the outermost of the calls around it is reported. -/
  | macroDepth {ctx stmts chain c} : collected? s source = some (ctx, stmts) →
      Reaches ctx.macros (Stack.capacityOf s.maxDepth) [] stmts chain.reverse c →
        Encloses ctx.macros stmts chain (.call c) →
      Instruction.find? c.key = none → (ctx.macros.find? c.key).isSome →
        Stack.capacityOf s.maxDepth ≤ chain.length + 1 →
      Failure s source c.token (chain.take 1) .recursion
        [.tooDeep c.key (Stack.capacityOf s.maxDepth)]
  /-- A label has the name of one before it. -/
  | labelDuplicate {ctx stmts before name t chain after} :
      s.Places source ctx stmts (before ++ .label name t chain.reverse :: after) →
      Encloses ctx.macros stmts chain (.label name t) → Layout.Fits [] (Layout.addresses 0 before) →
      name ∈ (Layout.addresses 0 before).map Prod.fst →
      Failure s source t chain .resolution [.labelDuplicate name]
  /-- The address of a label is too large. -/
  | labelRange {ctx stmts before name t chain after} :
      s.Places source ctx stmts (before ++ .label name t chain.reverse :: after) →
      Encloses ctx.macros stmts chain (.label name t) → Layout.Fits [] (Layout.addresses 0 before) →
      Layout.lastAddress < Layout.extent before →
      Failure s source t chain .range [.literalRange (Layout.extent before) Layout.lastAddress]
  /-- An argument does not fit its instruction, and those of the instructions before it do. -/
  | operand {ctx stmts placed before entry c chain after t stage part} :
    s.Places source ctx stmts placed →
      placed = before ++ .instruction entry c chain.reverse :: after →
        Encloses ctx.macros stmts chain (.call c) → Layout.Fits [] (Layout.addresses 0 placed) →
      (∀ entry' c' calls', .instruction entry' c' calls' ∈ before →
        ∀ t stage part, ¬ Layout.Unfit (Layout.tableOf (Layout.addresses 0 placed)) entry'.shape
          c'.args t stage part) →
      Layout.Unfit (Layout.tableOf (Layout.addresses 0 placed)) entry.shape c.args t stage part →
      Failure s source t chain stage [part]

/-- The fault reports something that can go wrong. -/
def Fault.Explained (f : Fault) (s : Settings) (source : Text) : Prop :=
  ∃ t chain stage details, f.Reports t chain stage details ∧ Failure s source t chain stage details

theorem Layout.Unfit.documented {labels : Table UInt16} {shape : Shape} {args : List Arg}
    {t : Token} {stage : Cause} {part : Fault} (h : Unfit labels shape args t stage part) :
    stage.isStage = true ∧ part.isSpecific = true := by
  cases h <;> exact ⟨rfl, rfl⟩

/-- Whatever goes wrong, the stage is one of the five, and the details say what is wrong. -/
theorem Failure.documented {s : Settings} {source : Text} {t : Token} {chain : List Site}
    {stage : Cause} {details : List Fault} (h : Failure s source t chain stage details) :
    stage.isStage = true ∧ details.any Fault.isSpecific = true := by
  cases h with
  | parse _ _ _ _ hdetails => exact ⟨rfl, hdetails⟩
  | operand _ _ _ _ _ hunfit =>
    obtain ⟨hstage, hpart⟩ := hunfit.documented
    exact ⟨hstage, by rw [List.any_cons, hpart, Bool.true_or]⟩
  | _ => exact ⟨rfl, rfl⟩

/-! ## Stages -/

variable {s : Settings} {source : Text} {f : Fault}

/-- A source that cannot be read has an unknown character, or tokens that are no program. -/
theorem ofSource_explained {file text : Text} (hreads : s.includeContext.Reads source file text)
    (h : Node.ofSource file text s.formulas = .error f) : f.Explained s source := by
  obtain hscan | ⟨tokens, hscan, hparse⟩ := Except.bind_eq_error.1 h
  · obtain ⟨t, code, hreports⟩ := Token.scanFrom_reports hscan
    exact ⟨t, [], .lex, _, hreports, .lex hreads hscan hreports⟩
  · obtain ⟨t, parts, -, hspecific, hf⟩ := Parser.readNodes_blames rfl hparse
    have hreports : f.Reports t [] .parse parts := ⟨_, hf⟩
    exact ⟨t, [], .parse, parts, hreports, .parse hreads hscan hparse hreports hspecific⟩

theorem expandIncludes_explained {nodes : List Node} {included : IncludeState}
    (hnodes : Node.ofSource [] source s.formulas = .ok nodes)
    (h : expandIncludes s.includeContext source nodes = .error (f, included)) :
    f.Explained s source := by
  obtain ⟨outer, st, n, hvisit, hend⟩ := run_eq_error h
  rcases hend with hfail | ⟨inner, items, henter⟩
  · obtain ⟨path, t, rfl, -, ⟨-, part, rfl, hcase⟩ | ⟨text, hfind, -, hread⟩⟩ :=
      visitNode_fail hfail
    · have hmeets : s.includeContext.Meets source outer path t := ⟨nodes, st, hnodes, hvisit⟩
      obtain ⟨hcycle, rfl⟩ | ⟨hnew, hmissing, rfl⟩ := hcase
      · exact ⟨t, [], _, _, Fault.at_reports _ t [] _ _, .includeCycle hmeets hcycle⟩
      · exact ⟨t, [], _, _, Fault.at_reports _ t [] _ _, .includeMissing hmeets hnew hmissing⟩
    · exact ofSource_explained (.inr ⟨hfind, outer, t, nodes, st, hnodes, hvisit⟩) hread
  · obtain ⟨path, t, text, rfl, -, -, -, -, -⟩ := visitNode_enter henter
    rw [visitNode_tooDeep henter]
    exact ⟨t, [], _, _, Fault.at_reports _ t [] _ _, .includeDepth ⟨nodes, st, hnodes, hvisit⟩⟩

theorem collectMacros_explained {nodes : List Node} {included : IncludeState} {macros : Table Macro}
    (hnodes : Node.ofSource [] source s.formulas = .ok nodes)
    (hincluded : expandIncludes s.includeContext source nodes = .ok included)
    (h : collectMacros included.sources [] #[] included.items.toList = .error (f, macros)) :
    f.Explained s source := by
  obtain ⟨before, m, after, hsplit, hdup, rfl⟩ := collectMacros_fault h
  have hitems : included? s source = some (before ++ .definition m :: after) := by
    simp only [included?, hnodes, Except.toOption, Option.bind_eq_bind, Option.bind_some, hincluded,
      hsplit]
  obtain hfound | hkey := hdup
  · cases hfound
  · exact ⟨m.token, [], _, _, Fault.at_reports _ m.token [] _ _, .macroDuplicate hitems hkey⟩

theorem expandMacros_explained {ctx : MacroContext} {stmts : List Stmt} {st : MacroState}
    (hcollected : collected? s source = some (ctx, stmts)) (hlimit : ctx.limit = s.maxDepth)
    (h : expandMacros ctx stmts = .error (f, st)) : f.Explained s source := by
  have hinline : inlineCalls ctx (Stack.capacityOf ctx.limit) [] stmts = .error f := by
    rw [← outcome_expandMacros, h]
    rfl
  obtain ⟨through, c, hreach, hnone, hcase⟩ := reaches_of_inlineCalls hinline
  obtain ⟨chain, hthrough, henc⟩ := hreach.encloses
  rw [List.append_nil] at hthrough
  subst hthrough
  rw [hlimit] at hreach hcase
  obtain ⟨hunknown, rfl⟩ | ⟨hsome, hdeep, rfl⟩ := hcase
  · have hreports :=
      Fault.at_reports ctx.sources c.token chain.reverse .resolution [.unknownInstruction c.key]
    rw [List.reverse_reverse] at hreports
    exact ⟨_, _, _, _, hreports, .unknown hcollected hreach henc hnone hunknown⟩
  · -- The last of the calls, which come innermost first, is the first of the chain.
    have hlast : chain.reverse.getLast?.toList.reverse = chain.take 1 := by
      rw [List.getLast?_reverse]
      cases chain <;> rfl
    have hreports := Fault.at_reports ctx.sources c.token chain.reverse.getLast?.toList .recursion
      [.tooDeep c.key (Stack.capacityOf s.maxDepth)]
    rw [hlast] at hreports
    exact ⟨_, _, _, _, hreports,
      .macroDepth hcollected hreach henc hnone hsome (by simpa using hdeep)⟩

/-! ### Layout -/

section

variable {ctx : MacroContext} {stmts : List Stmt} {placed : List Placed}
  (hplaces : s.Places source ctx stmts placed)
include hplaces

/-- What is placed was reached through exactly the calls that enclose it. -/
theorem Settings.Places.encloses {x : Placed} (hx : x ∈ placed) :
    Encloses ctx.macros stmts x.calls.reverse x.stmt := by
  obtain ⟨chain, hcalls, henc⟩ := hplaces.2.encloses hx
  rwa [hcalls, List.append_nil, List.reverse_reverse]

/-- Instructions that are placed have their operands. -/
theorem Settings.Places.operands {entry : Instruction} {c : Call} {calls : List Site}
    (hmem : .instruction entry c calls ∈ placed) : Operands entry.shape c.args := by
  obtain ⟨hmacros, hstmts⟩ := collected?_sound hplaces.1
  obtain ⟨hclosed, hfind⟩ := hplaces.2.complete hmacros hstmts _ hmem
  obtain ⟨-, hkinds⟩ := Instruction.kinds_of_find? hfind
  exact operands_of_kinds (Instruction.mem_of_find? hfind) hkinds hclosed

theorem assignLabels_explained {verbose : Bool} {log : Array Text} {found : Layout.LabelState}
    (h : Layout.assignLabels ctx.sources verbose ⟨[], log⟩ 0 placed = .error (f, found)) :
    f.Explained s source := by
  obtain ⟨before, name, t, calls, after, rfl, hfits, hcase⟩ := Layout.assignLabels_fault h
  have henc : Encloses ctx.macros stmts calls.reverse (.label name t) :=
    hplaces.encloses (x := .label name t calls) (by simp)
  rw [← List.reverse_reverse calls] at hplaces
  obtain ⟨hdup, rfl⟩ | ⟨hlarge, rfl⟩ := hcase
  · obtain hfound | hname := hdup
    · cases hfound
    · exact ⟨t, _, _, _, Fault.at_reports .., .labelDuplicate hplaces henc hfits hname⟩
  · rw [Nat.zero_add] at hlarge ⊢
    exact ⟨t, _, _, _, Fault.at_reports .., .labelRange hplaces henc hfits hlarge⟩

theorem emit_explained {rows : Array Row} (hfits : Layout.Fits [] (Layout.addresses 0 placed))
    (h : Layout.emit ctx.sources (Layout.tableOf (Layout.addresses 0 placed)) rows 0 placed =
      .error f) :
    f.Explained s source := by
  obtain ⟨before, entry, c, calls, after, hsplit, hbefore, hencode⟩ := Layout.emit_fault h
  have hmem : .instruction entry c calls ∈ placed := by simp [hsplit]
  have henc : Encloses ctx.macros stmts calls.reverse (.call c) := hplaces.encloses hmem
  have hrest : ∀ entry' c' calls', .instruction entry' c' calls' ∈ before → ∀ t stage part,
      ¬ Layout.Unfit (Layout.tableOf (Layout.addresses 0 placed)) entry'.shape c'.args t stage
        part := by
    intro entry' c' calls' hin t stage part hunfit
    obtain ⟨code, hcode⟩ := hbefore entry' c' calls' hin
    cases (hunfit.encode calls').symm.trans hcode
  rw [← List.reverse_reverse calls] at hsplit
  obtain ⟨t, stage, part, hunfit, rfl⟩ | rfl := Layout.encode_fault hencode
  · exact ⟨t, _, stage, _, Fault.at_reports .., .operand hplaces hsplit henc hfits hrest hunfit⟩
  · exact absurd hencode ((hplaces.operands hmem).encode_ne _ _ _ _)

end

theorem assembleCollected_explained {ctx : MacroContext} {stmts : List Stmt} {log : Array Text}
    (hcollected : collected? s source = some (ctx, stmts)) (hlimit : ctx.limit = s.maxDepth)
    (h : assembleCollected ctx stmts log = .error f) : f.Explained s source := by
  unfold assembleCollected at h
  cases hexpanded : expandMacros ctx stmts with
  | error e =>
    rw [hexpanded] at h
    cases h
    exact expandMacros_explained hcollected hlimit hexpanded
  | ok expanded =>
    simp only [hexpanded] at h
    have hplaces : s.Places source ctx stmts expanded.placed.toList :=
      ⟨hcollected, hlimit ▸ inlined_of_expandMacros hexpanded⟩
    split at h
    · rename_i hlabels
      cases h
      exact assignLabels_explained hplaces hlabels
    · rename_i found hlabels
      obtain ⟨hfits, htable⟩ := Layout.assignLabels_eq_ok.1 ⟨found, hlabels, rfl⟩
      rw [htable, List.append_nil] at h
      exact emit_explained hplaces hfits (Except.map_eq_error.1 h)

/-! ## Assemblies -/

/-- **Every fault of an assembly has one shape, with the calls that led to it.** It lies at a place,
inside of a chain of macro calls, and joins one of five stages with details, of which one is
specific. The chain is empty before macros are expanded; later it is the chain that encloses the
statement at which the assembly stopped, the outermost call first, or its first call if macros are
nested too deeply. -/
theorem assemble_fault_shape (s : Settings) (source : Text) (f : Fault)
    (h : (assemble s source).result = .error f) :
    ∃ t chain stage details, f.Reports t chain stage details ∧ stage.isStage = true ∧
      (∃ detail ∈ details, detail.isSpecific = true) ∧ Failure s source t chain stage details := by
  have hexplained : f.Explained s source := by
    obtain hread | ⟨nodes, hnodes, ⟨st, hincluded⟩ | ⟨included, hincluded, hlater⟩⟩ :=
      assemble_eq_error h
    · exact ofSource_explained (.inl ⟨rfl, rfl⟩) hread
    · exact expandIncludes_explained hnodes hincluded
    · obtain ⟨macros, hcollect⟩ | ⟨macros, stmts, log, -, hcollected, hrest⟩ := hlater
      · exact collectMacros_explained hnodes hincluded hcollect
      · exact assembleCollected_explained hcollected rfl hrest
  obtain ⟨t, chain, stage, details, hreports, hfailure⟩ := hexplained
  obtain ⟨hstage, hdetails⟩ := hfailure.documented
  exact ⟨t, chain, stage, details, hreports, hstage, List.any_eq_true.1 hdetails, hfailure⟩

/-- A macro that passes its argument on to another one, where it does not fit. -/
def tooWide : Text :=
  utf8 "@macro inner %l0\n mov r1, %l0\n@endmacro\n" ++
    utf8 "@macro outer %l0\n inner %l0\n@endmacro\nouter #100h\n"

/-- The wording of its fault. -/
def tooWideMessage : Text :=
  utf8 "line 7 'outer #100h' macro outer(literal) line 7 macro inner(literal) line 5 range\n" ++
    utf8 "a literal value of '256' exceeds maximum of 0xff (255)"

theorem assemble_fault_shape_too_wide :
    ∃ f, (assemble {} tooWide).result = .error f ∧ f.message = tooWideMessage ∧
      ∃ t chain stage details, f.Reports t chain stage details ∧ stage.isStage = true ∧
        (∃ detail ∈ details, detail.isSpecific = true) ∧
          Failure {} tooWide t chain stage details := by
  have hrun : (match (assemble {} tooWide).result with
      | .ok _ => none
      | .error f => some f.message) = some tooWideMessage := by
    simp only [assemble, expandIncludes, expandMacros, Worklist.expand_eq_nested]
    decide +kernel
  cases hresult : (assemble {} tooWide).result with
  | ok p =>
    rw [hresult] at hrun
    cases hrun
  | error f =>
    rw [hresult] at hrun
    exact ⟨f, rfl, Option.some.inj hrun, assemble_fault_shape {} tooWide f hresult⟩

end

end Octet
