import Octet.Formula.Eval
import Octet.Formula.Grammar
import Octet.Literal
import Octet.Text.Integer

/-!
# Formulas

A formula is a small program text whose first expression gives a literal. Its names are the defines
whose values are integers, and built-in functions. Reference model of `evaluate`, up to the range of
literals.

* `Formula.value?`, `Formula.integer?` — the value of a formula, and the integer that it is;
* `Formulas.standard` — the formulas over some defines.
-/

namespace Octet.Formula

/-- The defines that formulas can use: those with an integer for a value. -/
def integerDefines (defines : Table Text) : List (Text × Int) :=
  defines.filterMap fun (n, v) => (Text.integer v).toOption.map (n, ·)

/-- The name that holds the value of a formula. -/
def resultName : Text := utf8 "rc"

/-- The script of a formula: an assignment to the name that holds its value. -/
def scriptText (text : Text) : Text := resultName ++ '='.toUInt8 :: text ++ [Text.lf]

/-- The value of a formula. -/
def value? (defines : Table Text) (text : Text) : Option Value := do
  let lexemes ← Lexeme.read (scriptText text)
  let script ← Script.of? (integerDefines defines) (← readScript lexemes)
  script.run resultName

/-- The integer that a formula comes to. -/
def integer? : Evaluator := fun defines text =>
  match value? defines text with
  | some (.int n) => some n
  | _ => none

end Octet.Formula

namespace Octet

/-- The formulas over some defines. -/
def Formulas.standard (defines : Table Text) : Formulas := ⟨Formula.integer?, defines⟩

/-- Defines stand for the formulas over them. -/
instance : Coe (Table Text) Formulas := ⟨Formulas.standard⟩

end Octet
