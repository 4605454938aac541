import Octet.Expansion.Includes
import Octet.Formula
import Octet.Layout
import Octet.Machine.Memory

/-!
# The assembler

Assembly turns a source into a program in steps: the source is parsed, includes are spliced in,
macros are collected and expanded, labels get their addresses, and the instructions are encoded.
Reference model of `Assembler` and its methods.

* `Settings` — what an assembly depends on besides its source;
* `Assembly`, `assemble` — the result of one assembly, with the labels and macros that it found,
  also if it failed;
* `Assembler` — settings with the tables of the last assembly, in which the stages of the next one
  work.
-/

namespace Octet

/-- What an assembly depends on besides its source. -/
structure Settings where
  resolver : Resolver := .none
  /-- The names that the user defines for formulas. -/
  predefines : Table Text := []
  /-- What evaluates formulas. -/
  evaluate : Formula.Evaluator := Formula.integer?
  /-- The limit on the nesting of includes and of macros. -/
  maxDepth : Int := 0
  /-- Whether the log tells the steps of the assembly. -/
  verbose : Bool := false

/-- The names that every assembly defines for formulas. -/
def systemDefines : Table Text := [
    (utf8 "FLAG_HALT", Text.hexMarked 1 Flag.halt.toNat),
    (utf8 "FLAG_CARRY", Text.hexMarked 1 Flag.carry.toNat),
    (utf8 "FLAG_BORROW", Text.hexMarked 1 Flag.borrow.toNat),
    (utf8 "MEMORY_SIZE", Text.decimal memorySize),
    (utf8 "REGISTER_COUNT", Text.decimal Register.count)] ++
  Register.named.map fun (n, r) => (utf8 "REG_" ++ Text.upper n, Text.decimal r.val)

/-- The result of an assembly. -/
structure Assembly where
  result : Except Fault Program
  labels : Table UInt16 := []
  macros : Table Macro := []
  log : Array Text := #[]

namespace Settings

/-- The names that formulas may use. -/
def defines (s : Settings) : Table Text := Table.insertAll systemDefines s.predefines

/-- The formulas over these names. -/
def formulas (s : Settings) : Formulas := ⟨s.evaluate, s.defines⟩

/-- What the expansion of includes needs to know. -/
def includeContext (s : Settings) : Expansion.IncludeContext :=
  ⟨s.resolver, s.formulas, s.maxDepth, s.verbose⟩

end Settings

/-- Assembles a source. -/
def assemble (s : Settings) (source : Text) : Assembly :=
  match Node.ofSource [] source s.formulas with
  | .error f => { result := .error f }
  | .ok nodes =>
    match Expansion.expandIncludes s.includeContext source nodes with
    | .error (f, included) => { result := .error f, log := included.log }
    | .ok included =>
      match Expansion.collectMacros included.sources [] #[] included.items.toList with
      | .error (f, macros) => { result := .error f, macros := macros, log := included.log }
      | .ok (macros, stmts) =>
        match Expansion.expandMacros ⟨included.sources, macros, s.maxDepth, s.verbose⟩ stmts with
        | .error (f, expanded) =>
          { result := .error f, macros := macros, log := included.log ++ expanded.log }
        | .ok expanded =>
          let log := included.log ++ expanded.log
          let placed := expanded.placed.toList
          match Layout.assignLabels included.sources s.verbose ⟨[], log⟩ 0 placed with
          | .error (f, found) =>
            { result := .error f, labels := found.labels, macros := macros, log := found.log }
          | .ok found =>
            let result :=
              (Layout.emit included.sources found.labels #[] 0 placed).map (⟨·, found.labels⟩)
            { result := result, labels := found.labels, macros := macros, log := found.log }

/-- The image of a source. Reference model of the function `Assemble`. -/
def assembleImage (resolver : Resolver) (source : Text) : Except Fault Text :=
  (assemble { resolver := resolver } source).result.map Program.image

/-! ## Assemblers -/

/-- Settings with the tables of the last assembly (`Assembler`). -/
structure Assembler where
  settings : Settings := {}
  labels : Table UInt16 := []
  macros : Table Macro := []
  /-- The names that formulas could use; none before the first assembly. -/
  defines : Table Text := []
  /-- The sources that were read, by path; the root source has the empty path. -/
  sources : Table Text := []
  log : Array Text := #[]

namespace Assembler

/-- The formulas over the names that can be used. -/
def formulas (a : Assembler) : Formulas := ⟨a.settings.evaluate, a.defines⟩

/-- Defines a name for later assemblies (`Assembler.Predefine`). -/
def predefine (a : Assembler) (name value : Text) : Assembler :=
  { a with settings := { a.settings with predefines := a.settings.predefines.insert name value } }

/-- Clears the tables, and lets formulas use the names that the settings define
(`Assembler.reset`). -/
def reset (a : Assembler) : Assembler :=
  { a with labels := [], macros := [], defines := a.settings.defines, sources := [], log := #[] }

/-! ### Stages -/

/-- A stage works in the tables of the assembler, and leaves there what it has done even if it
fails. -/
abbrev Stage := ExceptT Fault (StateM Assembler)

/-- The stage that has an outcome, and keeps of it what is said for a failure and for a success. -/
def Stage.ofOutcome {ε α : Type} (outcome : Except (Fault × ε) α)
    (failed : ε → Assembler → Assembler) (done : α → Assembler → Assembler) : Stage α :=
  match outcome with
  | .error (f, e) => do
    modify (failed e)
    throw f
  | .ok x => do
    modify (done x)
    return x

/-- Reads the root source. -/
def readRoot (source : Text) : Stage (List Node) := do
  modify fun a => { a with sources := a.sources.insert [] source }
  let a ← get
  MonadExcept.ofExcept (Node.ofSource [] source a.formulas)

/-- Splices the included sources in. -/
def spliceIncludes (nodes : List Node) : Stage (List Item) := do
  let a ← get
  let rules :=
    Expansion.visitNode ⟨a.settings.resolver, a.formulas, a.settings.maxDepth, a.settings.verbose⟩
  let keep (s : Expansion.IncludeState) (a : Assembler) : Assembler :=
    { a with sources := s.sources, log := s.log }
  let s ← Stage.ofOutcome (Worklist.expand rules a.settings.maxDepth [] nodes
    ⟨a.sources, #[], a.log⟩) keep keep
  return s.items.toList

/-- Adds the macros that are defined. -/
def defineMacros (items : List Item) : Stage (List Stmt) := do
  let a ← get
  let keep (macros : Table Macro) (a : Assembler) : Assembler := { a with macros := macros }
  let (_, stmts) ←
    Stage.ofOutcome (Expansion.collectMacros a.sources a.macros #[] items) keep fun r => keep r.1
  return stmts

/-- Expands the calls of macros. -/
def inlineMacros (stmts : List Stmt) : Stage (List Expansion.Placed) := do
  let a ← get
  let ctx : Expansion.MacroContext := ⟨a.sources, a.macros, a.settings.maxDepth, a.settings.verbose⟩
  let keep (s : Expansion.MacroState) (a : Assembler) : Assembler :=
    { a with log := a.log ++ s.log }
  let s ← Stage.ofOutcome (Expansion.expandMacros ctx stmts) keep keep
  return s.placed.toList

/-- Gives the labels their addresses. -/
def placeLabels (placed : List Expansion.Placed) : Stage Unit := do
  let a ← get
  let keep (s : Layout.LabelState) (a : Assembler) : Assembler :=
    { a with labels := s.labels, log := s.log }
  let _ ← Stage.ofOutcome (Layout.assignLabels a.sources a.settings.verbose ⟨a.labels, a.log⟩ 0
    placed) keep keep

/-- Encodes the instructions. -/
def emitProgram (placed : List Expansion.Placed) : Stage Program := do
  let a ← get
  let rows ← MonadExcept.ofExcept (Layout.emit a.sources a.labels #[] 0 placed)
  return ⟨rows, a.labels⟩

/-- All stages, on tables that have been cleared. -/
def assembleStages (source : Text) : Stage Program := do
  modify reset
  let nodes ← readRoot source
  let items ← spliceIncludes nodes
  let stmts ← defineMacros items
  let placed ← inlineMacros stmts
  placeLabels placed
  emitProgram placed

/-- Assembles a source. Reference model of `Assembler.Assemble`. -/
def assemble (a : Assembler) (source : Text) : Assembly × Assembler :=
  let (result, a) := (assembleStages source).run.run a
  ({ result := result, labels := a.labels, macros := a.macros, log := a.log }, a)

/-- Assembles an input; one that cannot be read leaves the assembler as it was. Reference model of
`Assembler.Parse`. -/
def assembleInput (a : Assembler) (input : Except Fault Text) : Assembly × Assembler :=
  match input with
  | .ok source => a.assemble source
  | .error f => ({ result := .error f, labels := a.labels, macros := a.macros }, a)

end Assembler

end Octet
