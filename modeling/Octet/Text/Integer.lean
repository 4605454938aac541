import Octet.Text.Basic
import Octet.Word

/-!
# Integers in settings

Reads the integers that are given as settings: an optional sign, then digits, of which a leading
`0x`, `0o` or `0b` marks the base and a leading `0` marks base eight. An underscore may stand
between two digits or after the mark.
-/

namespace Octet.Text

/-- Why a text is no integer. -/
inductive IntegerError where
  | malformed
  | tooLarge
  deriving DecidableEq, Repr

/-- The base and the digits of a numeral, without the mark of the base. -/
def baseOf : Text → Nat × Text
  | z :: rest =>
    if z != '0'.toUInt8 then (10, z :: rest)
    else
      match rest with
      | m :: d :: more =>
        let m := lowerByte m
        if m == 'x'.toUInt8 then (16, d :: more)
        else if m == 'o'.toUInt8 then (8, d :: more)
        else if m == 'b'.toUInt8 then (2, d :: more)
        else (8, rest)
      | _ => (8, rest)
  | [] => (10, [])
where
  /-- A letter in lower case. -/
  lowerByte (b : UInt8) : UInt8 := if isAsciiLetter b then b ||| 0x20 else b

/-- The number that digits add to `n`, which must stay within 64 bits; underscores are passed
over. -/
def digitsFrom (base n : Nat) : Text → Except IntegerError Nat
  | [] => .ok n
  | b :: rest =>
    if b == '_'.toUInt8 then digitsFrom base n rest
    else
      match digitValue? b with
      | some d =>
        if base ≤ d then .error .malformed
        else if Word.unsignedLimit ≤ n * base + d then .error .tooLarge
        else digitsFrom base (n * base + d) rest
      | none => .error .malformed

/-- Whether every underscore stands between two digits, where `after` tells that a digit or the mark
of a base comes before. -/
def underscoresFit (after : Bool) : Text → Bool
  | [] => true
  | [b] => b != '_'.toUInt8
  | b :: rest => (b != '_'.toUInt8 || after) && underscoresFit (b != '_'.toUInt8) rest

/-- The number of a numeral without a sign. -/
def natural (t : Text) : Except IntegerError Nat := do
  if t.isEmpty then .error .malformed
  let (base, ds) := baseOf t
  let n ← digitsFrom base 0 ds
  let marked := base != 10
  if underscoresFit marked ds then .ok n else .error .malformed

/-- The integer of 64 bits that a text stands for. -/
def integer (t : Text) : Except IntegerError Int :=
  let bounded (negative : Bool) (rest : Text) : Except IntegerError Int := do
    let n ← natural rest
    if negative then (if n ≤ Word.signedLimit then .ok (-(n : Int)) else .error .tooLarge)
    else if n < Word.signedLimit then .ok n
    else .error .tooLarge
  match t with
  | [] => .error .malformed
  | b :: rest =>
    if b == '-'.toUInt8 then bounded true rest
    else if b == '+'.toUInt8 then bounded false rest
    else bounded false t

end Octet.Text
