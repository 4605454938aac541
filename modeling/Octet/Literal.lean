import Octet.Fault
import Octet.Table
import Octet.Word

/-!
# Literals that are formulas

The value of a literal may be given by a formula. What evaluates formulas is not fixed here: all
that counts is the integer that a text comes to under some defines. Reference model of what
`evaluate` answers to `Parser.literal`.

* `Formula.Evaluator` — what evaluates formulas;
* `Formulas`, `Formulas.valueless` — an evaluator with the defines that formulas may use, and one
  without values;
* `Formulas.literal` — the value of a formula as a literal of 32 bits.
-/

namespace Octet

/-- What evaluates formulas: the integer that a text comes to under some defines, if any. -/
abbrev Formula.Evaluator := Table Text → Text → Option Int

/-- The largest literal. -/
def Formula.largest : Nat := 0xffffffff

/-- What the formulas of a source depend on. -/
structure Formulas where
  evaluate : Formula.Evaluator
  /-- The defines that formulas may use. -/
  defines : Table Text

/-- No formula has a value. -/
def Formulas.valueless : Formulas := ⟨fun _ _ => none, []⟩

/-- The integer that a formula comes to. -/
def Formulas.value? (f : Formulas) (text : Text) : Option Int := f.evaluate f.defines text

/-- The value of a formula as a literal. It is an integer that is not negative; one beyond 63 bits
counts as no value, one beyond 32 bits is out of range. -/
def Formulas.literal (f : Formulas) (text : Text) : Except Fault UInt32 :=
  match f.value? text with
  | some n =>
    if n < 0 ∨ Word.signedLimit ≤ n.toNat then .error (.formula text)
    else if n.toNat ≤ Formula.largest then .ok n.toNat.toUInt32
    else .error (.all [.cause .range, .literalRange n.toNat Formula.largest])
  | none => .error (.formula text)

end Octet
