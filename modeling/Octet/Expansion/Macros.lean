import Octet.Expansion.Site
import Octet.Worklist

/-!
# Expansion of macros

A call that matches an entry of the catalog stands for that instruction. Any other call must match a
macro by its overload key, and is replaced by the macro's body, in which parameters are replaced by
arguments and calls are expanded in turn.

* `Macro.bind` — a body with arguments for parameters;
* `Placed` — what is left after expansion: instructions and labels, with the calls that led to them;
* `collectMacros` — takes the definitions out of a program;
* `expandMacros` — expands the calls.
-/

namespace Octet

namespace Arg

/-- Whether the argument counts as a register. -/
def isRegister (a : Arg) : Bool := a.kind == .register

/-- The argument that a parameter stands for. Other arguments stand for themselves. -/
def substitute (registers literals : List Arg) (a : Arg) : Arg :=
  match a with
  | registerParam index _ => if 0 ≤ index then (registers[index.toNat]?).getD a else a
  | literalParam index _ => if 0 ≤ index then (literals[index.toNat]?).getD a else a
  | _ => a

end Arg

/-- The body of a macro for the arguments of a call: the register arguments fill the register
parameters and the others fill the literal parameters, each in the order of the call. Reference
model of `bind`. -/
def Macro.bind (m : Macro) (args : List Arg) : List Stmt :=
  let registers := args.filter Arg.isRegister
  let literals := args.filter fun a => !a.isRegister
  m.body.map fun
    | .call c => .call { c with args := c.args.map (Arg.substitute registers literals) }
    | .label name t => .label name t

namespace Expansion

/-- What is left after expansion. `calls` are the macro calls that led to it, the innermost
first. -/
inductive Placed where
  | label (name : Text) (token : Token) (calls : List Site)
  | instruction (entry : Instruction) (call : Call) (calls : List Site)
  deriving Repr

namespace Placed

/-- The number of bytes that it takes up. -/
def size : Placed → Nat
  | label .. => 0
  | instruction entry _ _ => entry.length

end Placed

/-! ## Definitions -/

/-- Takes the definitions out of a program. No two may have the same key; a second one leaves the
macros before it. -/
def collectMacros (sources : Table Text) (macros : Table Macro) (stmts : Array Stmt) :
    List Item → Except (Fault × Table Macro) (Table Macro × List Stmt)
  | [] => .ok (macros, stmts.toList)
  | .stmt s :: rest => collectMacros sources macros (stmts.push s) rest
  | .definition m :: rest =>
    if (macros.find? m.key).isSome then
      .error (.at sources m.token [] [.cause .resolution, .cause .macroDuplicate], macros)
    else collectMacros sources ((m.key, m) :: macros) stmts rest

/-! ## Calls -/

/-- What the expansion of macros needs to know. -/
structure MacroContext where
  sources : Table Text
  macros : Table Macro
  /-- The limit on nesting. -/
  limit : Int
  /-- Whether calls of macros are logged. -/
  verbose : Bool

/-- What the expansion of macros has found so far. -/
structure MacroState where
  placed : Array Placed
  log : Array Text

/-- The fault of a macro call that is nested too deeply. Of the calls that led to it only the
outermost is kept, since the others repeat. -/
def callTooDeep (ctx : MacroContext) (calls : List Site) (c : Call) : Fault :=
  .at ctx.sources c.token calls.getLast?.toList
    [.cause .recursion, .tooDeep c.key (Stack.capacityOf ctx.limit)]

/-- Expands a statement that was reached through `calls`. -/
def visitStmt (ctx : MacroContext) (calls : List Site) (s : MacroState) :
    Stmt → Visit MacroState (List Site) Stmt Fault
  | .label name t => .done { s with placed := s.placed.push (.label name t calls) }
  | .call c =>
    let key := c.key
    match Instruction.find? key with
    | some entry => .done { s with placed := s.placed.push (.instruction entry c calls) }
    | none =>
      match ctx.macros.find? key with
      | none =>
        .fail s (.at ctx.sources c.token calls [.cause .resolution, .unknownInstruction key])
      | some m =>
        let s := if ctx.verbose then
            { s with log := s.log.push (utf8 "asm: " ++ c.text ++ utf8 " => " ++ key) }
          else s
        .enter s (⟨key, c.token⟩ :: calls) (m.bind c.args) (callTooDeep ctx calls c)

/-- Expands the calls of a program. Reference model of `Assembler.expandMacros`. -/
def expandMacros (ctx : MacroContext) (stmts : List Stmt) :
    Except (Fault × MacroState) MacroState :=
  Worklist.expand (visitStmt ctx) ctx.limit [] stmts ⟨#[], #[]⟩

end Expansion

end Octet
