import Octet.Formula.Lexeme

/-!
# Formulas as trees

The tree of an expression as it is written, with names that have no meaning yet, and of the
statements of a script. Part of the reference model of `evaluate`.

* `Expr`, `Argument`, `Param`, `Clause` — expressions and their parts;
* `Statement` — statements;
* `Expr.bound`, `Statement.bound` — the names that a target or a statement binds.
-/

namespace Octet.Formula

/-- Constants. -/
inductive Constant where
  | none
  | int (value : Nat)
  | float (value : Float)
  | string (value : Text)
  | bytes (value : Text)
  deriving Repr

/-- Operators with one operand. -/
inductive UnaryOp where
  | not
  | negate
  | plus
  | invert
  deriving DecidableEq, Repr

/-- Operators with two operands that are always evaluated. -/
inductive BinaryOp where
  | equal
  | unequal
  | less
  | greater
  | atMost
  | atLeast
  | isIn
  | notIn
  | bitOr
  | bitXor
  | bitAnd
  | shiftLeft
  | shiftRight
  | add
  | sub
  | mul
  | div
  | floorDiv
  | mod
  deriving DecidableEq, Repr

mutual

/-- An expression. -/
inductive Expr where
  | name (n : Text)
  | constant (c : Constant)
  /-- An expression in parentheses. -/
  | group (e : Expr)
  | tuple (items : List Expr)
  | list (items : List Expr)
  | dict (entries : List (Expr × Expr))
  | unary (op : UnaryOp) (e : Expr)
  | binary (op : BinaryOp) (a b : Expr)
  /-- The first operand if it is false, else the second. -/
  | both (a b : Expr)
  /-- The first operand if it is true, else the second. -/
  | either (a b : Expr)
  | choice (test yes no : Expr)
  | index (e i : Expr)
  | slice (e lo hi step : Expr)
  | attribute (e : Expr) (n : Text)
  | call (f : Expr) (args : List Argument)
  | lambda (params : List Param) (body : Expr)
  | listOf (body : Expr) (clauses : List Clause)
  | dictOf (key value : Expr) (clauses : List Clause)

/-- An argument of a call. -/
inductive Argument where
  | positional (e : Expr)
  | named (n : Text) (e : Expr)
  /-- The items of a sequence as positional arguments. -/
  | spread (e : Expr)
  /-- The entries of a dictionary as named arguments. -/
  | spreadNamed (e : Expr)

/-- A parameter of a function. -/
inductive Param where
  | required (n : Text)
  | optional (n : Text) (default : Expr)
  /-- Takes the positional arguments that are left if it has a name. Parameters after it are given
  by name. -/
  | rest (n : Option Text)
  /-- Takes the named arguments that are left. -/
  | named (n : Text)

/-- A clause of a comprehension. -/
inductive Clause where
  | loop (target source : Expr)
  | filter (test : Expr)

end

/-- A statement. -/
inductive Statement where
  | evaluate (e : Expr)
  | assign (target e : Expr)
  /-- Assigns the result of an operation on the old value. -/
  | update (op : BinaryOp) (target e : Expr)
  | pass
  /-- Leaves the innermost loop. -/
  | leave
  /-- Goes on with the next round of the innermost loop. -/
  | next
  /-- Ends a function. -/
  | give (e : Option Expr)
  | branch (test : Expr) (yes no : List Statement)
  | loop (target source : Expr) (body : List Statement)
  | define (n : Text) (params : List Param) (body : List Statement)

/-! ## Bound names -/

mutual

/-- The names that an expression binds as the target of an assignment. -/
def Expr.bound : Expr → List Text
  | .name n => [n]
  | .group e => e.bound
  | .tuple items => boundByAll items
  | .list items => boundByAll items
  | _ => []

/-- The names that some targets bind. -/
def boundByAll : List Expr → List Text
  | [] => []
  | e :: es => e.bound ++ boundByAll es

end

mutual

/-- The names that a statement binds in its function. -/
def Statement.bound : Statement → List Text
  | .assign target _ => target.bound
  | .update _ target _ => target.bound
  | .branch _ yes no => boundByStatements yes ++ boundByStatements no
  | .loop target _ body => target.bound ++ boundByStatements body
  | .define n _ _ => [n]
  | _ => []

/-- The names that some statements bind in their function. -/
def boundByStatements : List Statement → List Text
  | [] => []
  | s :: rest => s.bound ++ boundByStatements rest

end

/-- The names that the loops of a comprehension bind. -/
def boundByClauses (clauses : List Clause) : List Text :=
  clauses.flatMap fun
    | .loop target _ => target.bound
    | .filter _ => []

/-- Whether no name occurs twice. -/
def distinct : List Text → Bool
  | [] => true
  | n :: ns => !ns.contains n && distinct ns

/-! ## Arguments -/

/-- Positional arguments come first, then named ones, then at most one of each spread kind. -/
def Argument.rank : Argument → Nat
  | .positional _ => 0
  | .named _ _ => 1
  | .spread _ => 2
  | .spreadNamed _ => 3

end Octet.Formula
