import Octet.Formula.Expr
import Octet.Formula.Value

/-!
# Formulas with their names resolved

In a term every name is the value that it always has, or a variable: one of a function around it, by
the number of functions in between, and one of that function's variables, by number. Functions are
apart from terms, in a table of codes, and terms refer to them by number. Part of the reference
model of `evaluate`.

* `Term`, `Target`, `Round` — expressions, what is assigned to, and the clauses of comprehensions;
* `Step` — statements;
* `Code` — what a function consists of.
-/

namespace Octet.Formula

mutual

/-- An expression. -/
inductive Term where
  | value (v : Value)
  /-- A variable of the function that `level` functions lie inside of. -/
  | var (level slot : Nat)
  | tuple (items : List Term)
  | list (items : List Term)
  | dict (entries : List (Term × Term))
  | unary (op : UnaryOp) (t : Term)
  | binary (op : BinaryOp) (a b : Term)
  /-- A chain of additions, the last operand first. -/
  | sum (operands : List Term)
  | both (a b : Term)
  | either (a b : Term)
  | choice (test yes no : Term)
  | index (t i : Term)
  | slice (t lo hi step : Term)
  | attribute (t : Term) (n : Text)
  | call (f : Term) (positional : List Term) (named : List (Text × Term))
    (spread spreadNamed : Option Term)
  /-- A function, by the number of its code, with the values of its optional parameters. -/
  | function (code : Nat) (name : Text) (defaults : List Term)
  | listOf (body : Term) (rounds : List Round)
  | dictOf (key value : Term) (rounds : List Round)

/-- What is assigned to. -/
inductive Target where
  | var (level slot : Nat)
  | index (t i : Term)
  /-- An attribute, which no value lets be assigned. -/
  | attribute (t : Term)
  /-- Several targets, to which the items of a value are assigned. -/
  | several (targets : List Target)

/-- A clause of a comprehension. -/
inductive Round where
  | loop (target : Target) (source : Term)
  | filter (test : Term)

end

instance : Inhabited Term := ⟨.value .none⟩

/-- A statement. -/
inductive Step where
  | evaluate (t : Term)
  | assign (target : Target) (t : Term)
  | update (op : BinaryOp) (target : Target) (t : Term)
  | pass
  /-- Leaves the innermost loop. -/
  | leave
  /-- Goes on with the next round of the innermost loop. -/
  | next
  /-- Ends the function. -/
  | give (t : Option Term)
  | branch (test : Term) (yes no : List Step)
  | loop (target : Target) (source : Term) (body : List Step)

/-- The parameters of a function. -/
structure Signature where
  /-- The parameters for single arguments, and whether each is optional. -/
  params : List (Text × Bool) := []
  /-- How many of them can be given by position. -/
  byPosition : Nat := 0
  /-- The parameter for the positional arguments that are left. -/
  rest : Option Text := none
  /-- The parameter for the named arguments that are left. -/
  named : Option Text := none
  deriving Repr

/-- The names of all parameters, in the order of their variables. -/
def Signature.names (s : Signature) : List Text :=
  s.params.map (·.1) ++ s.rest.toList ++ s.named.toList

/-- What a function consists of. Its parameters are the first of its variables. -/
structure Code where
  signature : Signature
  /-- The number of variables. -/
  slots : Nat
  body : List Step

/-! ## Additions -/

/-- Two literals of one kind as one. -/
def joined? : Term → Term → Option Term
  | .value (.string a), .value (.string b) => some (.value (.string (a ++ b)))
  | .value (.bytes a), .value (.bytes b) => some (.value (.bytes (a ++ b)))
  | .list a, .list b => some (.list (a ++ b))
  | .tuple a, .tuple b => some (.tuple (a ++ b))
  | _, _ => none

/-- The addition of an operand to a chain of additions or to a single operand. Neighbouring literals
of one kind are one operand, so that they are evaluated before anything is added to them. -/
def Term.plus (a b : Term) : Term :=
  match a with
  | .sum (last :: before) =>
    match joined? last b with
    | some one => .sum (one :: before)
    | none => .sum (b :: last :: before)
  | a =>
    match joined? a b with
    | some one => .sum [one]
    | none => .sum [b, a]

end Octet.Formula
