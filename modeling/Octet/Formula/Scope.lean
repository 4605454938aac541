import Octet.Formula.Term

/-!
# Names of formulas

Every name of a script is resolved before the script runs, so a name without a meaning fails the
script even where it would never be evaluated. A name means the variable of the innermost block that
binds it anywhere, then a define, then what is built in. The script itself binds each of its names
once, and only functions hold loops and choices between statements. Part of the reference model of
`evaluate`.

* `Scope` — the blocks around an expression;
* `Signature.of?` — the parameters of a function;
* `Expr.resolve`, `Statement.resolve` — trees as terms and steps;
* `Script.of?` — a whole script.
-/

namespace Octet.Formula

/-! ## Scopes -/

/-- The names that a block binds, with their variables. -/
abbrev Block := List (Text × Nat)

/-- What names mean at a place of a script. -/
structure Scope where
  /-- The blocks of the functions around it, innermost first. -/
  levels : List (List Block)
  /-- Further names that stand for integers. -/
  defines : List (Text × Int)

namespace Scope

/-- The variable of a name in the innermost of some blocks that binds it. -/
def findSlot? (n : Text) : List Block → Option Nat
  | [] => none
  | block :: rest =>
    match block.lookup n with
    | some slot => some slot
    | none => findSlot? n rest

/-- The variable of a name in the innermost of some functions that binds it, where `level` functions
are inside. -/
def findVar? (n : Text) (level : Nat) : List (List Block) → Option (Nat × Nat)
  | [] => none
  | blocks :: rest =>
    match findSlot? n blocks with
    | some slot => some (level, slot)
    | none => findVar? n (level + 1) rest

/-- The variable of a name. -/
def var? (s : Scope) (n : Text) : Option (Nat × Nat) := findVar? n 0 s.levels

/-- The meaning of a name. -/
def find? (s : Scope) (n : Text) : Option Term :=
  match s.var? n with
  | some (level, slot) => some (.var level slot)
  | none =>
    match s.defines.lookup n with
    | some i => some (.value (.int i))
    | none => (builtinOf? n).map .value

/-- The scope inside a block of the innermost function. -/
def within (s : Scope) (block : Block) : Scope :=
  match s.levels with
  | [] => { s with levels := [[block]] }
  | blocks :: rest => { s with levels := (block :: blocks) :: rest }

/-- The scope inside a function. -/
def inFunction (s : Scope) (block : Block) : Scope := { s with levels := [block] :: s.levels }

/-- Whether a function is around. -/
def isInFunction (s : Scope) : Bool := 1 < s.levels.length

end Scope

/-! ## Parameters -/

/-- Parameters from the start on, where `s` holds those before; `seenRest` if parameters can no
longer be given by position, `optional` if one before is optional. -/
def Signature.extend? (s : Signature) (seenRest optional : Bool) : List Param → Option Signature
  | [] => some s
  | .required n :: ps =>
    if s.named.isSome || (optional && !seenRest) then none
    else
      let count := if seenRest then s.byPosition else s.byPosition + 1
      { s with params := s.params ++ [(n, false)], byPosition := count }.extend? seenRest optional
        ps
  | .optional n _ :: ps =>
    if s.named.isSome then none
    else
      let count := if seenRest then s.byPosition else s.byPosition + 1
      { s with params := s.params ++ [(n, true)], byPosition := count }.extend? seenRest true ps
  | .rest n :: ps =>
    if s.named.isSome || seenRest then none else { s with rest := n }.extend? true optional ps
  | .named n :: ps =>
    if s.named.isSome then none else { s with named := some n }.extend? seenRest optional ps

/-- Whether parameters have a mark without a name after which they are given by name. -/
def hasBareRest : List Param → Bool
  | [] => false
  | .rest none :: _ => true
  | _ :: ps => hasBareRest ps

/-- The parameters of a function: required before optional ones as long as they are given by
position, those for the arguments that are left once each and the one for named ones last, and no
name twice. -/
def Signature.of? (params : List Param) : Option Signature := do
  let s ← ({} : Signature).extend? false false params
  if hasBareRest params && s.params.length == s.byPosition then none
  else if distinct s.names then some s
  else none

/-! ## Arguments -/

/-- The most positional and the most named arguments of a call. -/
def argumentLimit : Nat := 255

/-- Whether ranks do not go down, and those of spread arguments go up. -/
def ranksInOrder : List Nat → Bool
  | a :: b :: rest => (if a < 2 then a ≤ b else a < b) && ranksInOrder (b :: rest)
  | _ => true

/-- The names of arguments. -/
def argumentNames (args : List Argument) : List Text :=
  args.filterMap fun
    | .named n _ => some n
    | _ => none

/-- Whether the arguments of a call are in order, are not too many and repeat no name. -/
def argumentsAllowed (args : List Argument) : Bool :=
  let ranks := args.map (·.rank)
  ranksInOrder ranks && ranks.count 0 ≤ argumentLimit && ranks.count 1 ≤ argumentLimit &&
    distinct (argumentNames args)

/-- The arguments of a call by kind. -/
structure Arguments where
  positional : List Term := []
  named : List (Text × Term) := []
  spread : Option Term := none
  spreadNamed : Option Term := none

/-! ## Resolving -/

/-- What resolving adds to: the codes of functions, and the variables of the innermost function. -/
structure Layout where
  codes : Array Code := #[]
  slots : Nat := 0

/-- A step of resolving, which may fail. -/
abbrev Resolve := StateT Layout Option

/-- A block with new variables for names. -/
def declare (names : List Text) : Resolve Block := do
  let names := names.eraseDups
  let first := (← get).slots
  modify fun l => { l with slots := l.slots + names.length }
  return names.zipIdx first

/-- The number of a new code with the given parameters and further names, where `body` resolves its
statements in the scope of its variables. -/
def newCode (s : Scope) (signature : Signature) (bound : List Text)
    (body : Scope → Resolve (List Step)) :
    Resolve Nat := do
  let outer := (← get).slots
  modify fun l => { l with slots := 0 }
  let block ← declare (signature.names ++ bound)
  let body ← body (s.inFunction block)
  modifyGet fun l =>
    (l.codes.size, { codes := l.codes.push { signature, slots := l.slots, body }, slots := outer })

/-- The value of a constant. -/
def Constant.value : Constant → Value
  | .none => .none
  | .int n => .int n
  | .float f => .float f
  | .string t => .ofText t
  | .bytes t => .bytes (packed t)

mutual

/-- The term of an expression. -/
def Expr.resolve (s : Scope) : Expr → Resolve Term
  | .name n => do s.find? n
  | .constant c => pure (.value c.value)
  | .group e => e.resolve s
  | .tuple items => do return .tuple (← resolveAll s items)
  | .list items => do return .list (← resolveAll s items)
  | .dict entries => do return .dict (← resolveEntries s entries)
  | .unary op e => do return .unary op (← e.resolve s)
  | .binary .add a b => do return (← a.resolve s).plus (← b.resolve s)
  | .binary op a b => do return .binary op (← a.resolve s) (← b.resolve s)
  | .both a b => do return .both (← a.resolve s) (← b.resolve s)
  | .either a b => do return .either (← a.resolve s) (← b.resolve s)
  | .choice test yes no => do return .choice (← test.resolve s) (← yes.resolve s) (← no.resolve s)
  | .index e i => do return .index (← e.resolve s) (← i.resolve s)
  | .slice e lo hi step => do
    return .slice (← e.resolve s) (← lo.resolve s) (← hi.resolve s) (← step.resolve s)
  | .attribute e n => do return .attribute (← e.resolve s) n
  | .call f args => do
    if !argumentsAllowed args then failure
    let f ← f.resolve s
    let a ← resolveArguments s args
    return .call f a.positional a.named a.spread a.spreadNamed
  | .lambda params body => do
    let defaults ← resolveDefaults s params
    let code ← newCode s (← Signature.of? params) [] fun inner =>
      do return [.give (some (← body.resolve inner))]
    return .function code (utf8 "lambda") defaults
  | .listOf body clauses => do
    let inner := s.within (← declare (boundByClauses clauses))
    let rounds ← resolveClauses s inner clauses
    return .listOf (← body.resolve inner) rounds
  | .dictOf key value clauses => do
    let inner := s.within (← declare (boundByClauses clauses))
    let rounds ← resolveClauses s inner clauses
    return .dictOf (← key.resolve inner) (← value.resolve inner) rounds

/-- What an expression assigns to. -/
def Expr.target (s : Scope) : Expr → Resolve Target
  | .name n => do
    let (level, slot) ← s.var? n
    return .var level slot
  | .group e => e.target s
  | .tuple items => do return .several (← resolveTargets s items)
  | .list items => do return .several (← resolveTargets s items)
  | .index e i => do return .index (← e.resolve s) (← i.resolve s)
  | .attribute e _ => do return .attribute (← e.resolve s)
  | _ => failure

/-- The terms of some expressions. -/
def resolveAll (s : Scope) : List Expr → Resolve (List Term)
  | [] => pure []
  | e :: es => do return (← e.resolve s) :: (← resolveAll s es)

/-- What some expressions assign to. -/
def resolveTargets (s : Scope) : List Expr → Resolve (List Target)
  | [] => pure []
  | e :: es => do return (← e.target s) :: (← resolveTargets s es)

/-- The terms of the entries of a dictionary. -/
def resolveEntries (s : Scope) : List (Expr × Expr) → Resolve (List (Term × Term))
  | [] => pure []
  | (k, v) :: es => do return (← k.resolve s, ← v.resolve s) :: (← resolveEntries s es)

/-- The terms of the arguments of a call. -/
def resolveArguments (s : Scope) : List Argument → Resolve Arguments
  | [] => pure {}
  | .positional e :: args => do
    let t ← e.resolve s
    let a ← resolveArguments s args
    return { a with positional := t :: a.positional }
  | .named n e :: args => do
    let t ← e.resolve s
    let a ← resolveArguments s args
    return { a with named := (n, t) :: a.named }
  | .spread e :: args => do
    let t ← e.resolve s
    return { ← resolveArguments s args with spread := some t }
  | .spreadNamed e :: args => do
    let t ← e.resolve s
    return { ← resolveArguments s args with spreadNamed := some t }

/-- The terms of the values of optional parameters. -/
def resolveDefaults (s : Scope) : List Param → Resolve (List Term)
  | [] => pure []
  | .optional _ e :: ps => do return (← e.resolve s) :: (← resolveDefaults s ps)
  | .required _ :: ps => resolveDefaults s ps
  | .rest _ :: ps => resolveDefaults s ps
  | .named _ :: ps => resolveDefaults s ps

/-- The clauses of a comprehension: the source of the first loop lies outside it. -/
def resolveClauses (outer inner : Scope) : List Clause → Resolve (List Round)
  | [] => pure []
  | .loop target source :: rest => do
    let source ← source.resolve outer
    let target ← target.target inner
    return .loop target source :: (← resolveClauses inner inner rest)
  | .filter test :: rest =>
    do return .filter (← test.resolve inner) :: (← resolveClauses inner inner rest)

end

/-- Whether a target is a single one, as those of updates are. -/
def Target.isSingle : Target → Bool
  | .several _ => false
  | _ => true

mutual

/-- The step of a statement, where `inLoop` tells whether a loop of its function is around it. -/
def Statement.resolve (s : Scope) (inLoop : Bool) : Statement → Resolve Step
  | .evaluate e => do return .evaluate (← e.resolve s)
  | .assign target e => do
    let t ← e.resolve s
    return .assign (← target.target s) t
  | .update op target e => do
    let t ← e.resolve s
    let target ← target.target s
    if target.isSingle then return .update op target t else failure
  | .pass => pure .pass
  | .leave => if inLoop then pure .leave else failure
  | .next => if inLoop then pure .next else failure
  | .give e => do
    if !s.isInFunction then failure
    match e with
    | some e => return .give (some (← e.resolve s))
    | none => return .give none
  | .branch test yes no => do
    if !s.isInFunction then failure
    let test ← test.resolve s
    return .branch test (← resolveStatements s inLoop yes) (← resolveStatements s inLoop no)
  | .loop target source body => do
    if !s.isInFunction then failure
    let source ← source.resolve s
    let target ← target.target s
    return .loop target source (← resolveStatements s true body)
  | .define n params body => do
    let (level, slot) ← s.var? n
    let defaults ← resolveDefaults s params
    let code ← newCode s (← Signature.of? params) (boundByStatements body) fun inner =>
      resolveStatements inner false body
    return .assign (.var level slot) (.function code n defaults)

/-- The steps of some statements. -/
def resolveStatements (s : Scope) (inLoop : Bool) : List Statement → Resolve (List Step)
  | [] => pure []
  | st :: rest => do return (← st.resolve s inLoop) :: (← resolveStatements s inLoop rest)

end

/-! ## Scripts -/

/-- A script that can be run. -/
structure Script where
  /-- The codes of its functions. -/
  codes : Array Code
  /-- The number of its variables. -/
  slots : Nat
  /-- The names that it binds. -/
  globals : Block
  steps : List Step

/-- The script of some statements, which bind no name twice. -/
def Script.of? (defines : List (Text × Int)) (statements : List Statement) : Option Script := do
  let bound := boundByStatements statements
  if !distinct bound then none
  else
    let resolve : Resolve (Block × List Step) := do
      let globals ← declare bound
      return (globals, ← resolveStatements { levels := [[globals]], defines } false statements)
    let ((globals, steps), layout) ← resolve.run {}
    some { codes := layout.codes, slots := layout.slots, globals, steps }

end Octet.Formula
