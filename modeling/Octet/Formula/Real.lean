import Octet.Text.Numeral
import Octet.Word

/-!
# Floats

Floats are double precision numbers. A finite float is a fraction `m · 2 ^ e`, and whatever is said
about floats beyond the four operations goes through that fraction, in whole numbers and without
rounding on the way. Part of the reference model of `evaluate`.

* `floatParts?`, `nearest` — a float as a fraction, and the float nearest to a fraction;
* `truncate?`, `ofInt`, `floatMod` — integers from and to floats, and remainders;
* `compareFloats`, `compareIntFloat` — the order, in which what is no number is above all numbers;
* `parse?` — the float that a text writes;
* `shortText`, `scientific`, `fixed` — the shortest text that reads back, and texts with six digits
  after the point.
-/

namespace Octet.Formula.Real

/-! ## Floats and fractions -/

/-- The number of fractions between two powers of two. -/
def unit : Nat := 0x10000000000000

/-- The bits of the float above all finite ones. -/
def infinityBits : Nat := 0x7FF0000000000000

/-- The float above all finite ones. -/
def infinity : Float := Float.ofBits 0x7FF0000000000000

/-- What is no number. -/
def notANumber : Float := Float.ofBits 0x7FF8000000000001

/-- Whether the sign bit is set. -/
def isNegative (f : Float) : Bool := Word.signedLimit ≤ f.toBits.toNat

/-- A finite float as `m · 2 ^ e`. -/
def floatParts? (f : Float) : Option (Int × Int) :=
  let bits : Nat := f.toBits.toNat
  let fraction : Nat := bits % unit
  let exponent : Nat := bits / unit % 0x800
  let m : Int := if exponent = 0 then fraction else fraction + unit
  let e : Int := if exponent = 0 then -1074 else (exponent : Int) - 1075
  if exponent = 2047 then none else some (if isNegative f then -m else m, e)

/-- A fraction rounded to the nearest integer, a half to the even one. -/
def roundDiv (num den : Nat) : Nat :=
  let q := num / den
  let r := num % den
  if 2 * r < den then q else if den < 2 * r then q + 1 else if q % 2 = 0 then q else q + 1

/-- The fraction `num / den` times `base ^ e`, with natural numbers. -/
def scaled (base num den : Nat) (e : Int) : Nat × Nat :=
  if e < 0 then (num, den * Nat.pow base (-e).toNat) else (num * Nat.pow base e.toNat, den)

/-- The power of two of the last bit of the float nearest to a positive fraction. -/
def lastBit (num den : Nat) : Int :=
  let k : Int := (num.log2 : Int) - den.log2
  let (a, b) := scaled 2 num den (-k)
  max (-1074) (if a < b then k - 53 else k - 52)

/-- The float nearest to `num / den`, a half going to the even neighbour. -/
def nearest (num den : Nat) : Float :=
  if num = 0 then 0
  else
    let e := lastBit num den
    let (a, b) := scaled 2 num den (-e)
    Float.ofBits (min infinityBits ((e + 1074).toNat * unit + roundDiv a b)).toUInt64

/-- The float nearest to `m · 2 ^ e`. -/
def ofParts (m : Int) (e : Int) : Float :=
  let (num, den) := scaled 2 m.natAbs 1 e
  if m < 0 then -(nearest num den) else nearest num den

/-- The float nearest to an integer. -/
def ofInt (n : Int) : Float := ofParts n 0

/-- The float nearest to an integer, if it is finite. -/
def ofInt? (n : Int) : Option Float :=
  let f := ofInt n
  if f.isFinite then some f else none

/-- The float nearest to `mantissa · 10 ^ exponent`. -/
def ofDecimal (mantissa : Nat) (exponent : Int) : Float :=
  if mantissa = 0 then 0
  else
    let size : Int := (Nat.toDigits 10 mantissa).length + exponent
    if size > 310 then infinity
    else if size < -400 then 0
    else
      let (num, den) := scaled 10 mantissa 1 exponent
      nearest num den

/-- Two numbers `m · 2 ^ e` over a common power of two. -/
def aligned (a b : Int × Int) : Int × Int × Int :=
  let e := min a.2 b.2
  (a.1 * Nat.pow 2 (a.2 - e).toNat, b.1 * Nat.pow 2 (b.2 - e).toNat, e)

/-- A finite float without its fraction, toward zero. -/
def truncate? (f : Float) : Option Int :=
  (floatParts? f).map fun (m, e) => if e < 0 then
    m.tdiv (Nat.pow 2 (-e).toNat) else m * Nat.pow 2 e.toNat

/-! ## Order and remainder -/

/-- The order of an integer and a float, which is exact; a float that is no number is above all. -/
def compareIntFloat (n : Int) (f : Float) : Ordering :=
  match floatParts? f with
  | some parts =>
    let (a, b, _) := aligned (n, 0) parts
    compare a b
  | none => if f.isNaN || f > 0 then .lt else .gt

/-- The order of two floats, where what is no number is above all numbers. -/
def compareFloats (x y : Float) : Ordering :=
  if x > y then .gt
  else if x < y then .lt
  else if x == y then .eq
  else if !x.isNaN then .lt
  else if !y.isNaN then .gt
  else .eq

/-- The remainder with the sign of the dividend, which is exact. -/
def remainder (x y : Float) : Float :=
  match floatParts? x, floatParts? y with
  | some p, some q =>
    let (a, b, e) := aligned p q
    let r := Int.tmod a b
    if r = 0 then (if isNegative x then -0.0 else 0.0) else ofParts r e
  | some _, none => if y.isNaN then notANumber else x
  | none, _ => notANumber

/-- The remainder with the sign of the divisor: another divisor is added if the signs differ. -/
def floatMod (x y : Float) : Float :=
  let z := remainder x y
  if (x < 0) != (y < 0) && z != 0 then z + y else z

/-! ## Reading -/

/-- The digits of an exponent, of which no more count once it is beyond every float. -/
def exponentOf (ds : Text) : Nat :=
  ds.foldl (fun e b => if e < 10000 then e * 10 + (b.toNat - '0'.toNat) else e) 0

/-- A sign, if there is one, and the rest. -/
def signOf : Text → Bool × Text
  | b :: rest =>
    if b == '-'.toUInt8 then (true, rest)
    else if b == '+'.toUInt8 then (false, rest) else (false, b :: rest)
  | [] => (false, [])

/-- An exponent after its mark: an optional sign and at least one digit. -/
def exponent? (t : Text) : Option (Int × Text) :=
  let (negative, t) := signOf t
  let ds := t.takeWhile Text.isDigit
  if ds.isEmpty then none
  else
    let e := exponentOf ds
    some (if negative then -(e : Int) else e, t.drop ds.length)

/-- Whether every underscore stands between two digits or between the mark of a base and a digit:
`after` tells that a digit or the mark comes before, and `pending` that an underscore does. -/
def underscoresFit (isDigit : UInt8 → Bool) (after pending : Bool) : Text → Bool
  | [] => !pending
  | b :: rest =>
    if isDigit b then underscoresFit isDigit true false rest
    else if b == '_'.toUInt8 then after && underscoresFit isDigit false true rest
    else !pending && underscoresFit isDigit false false rest

/-- The digits before and after a point, and what follows them. -/
def mantissaOf (isDigit : UInt8 → Bool) (t : Text) : Text × Text × Text :=
  let before := t.takeWhile isDigit
  match t.drop before.length with
  | b :: rest =>
    if b == '.'.toUInt8 then
      let after := rest.takeWhile isDigit
      (before, after, rest.drop after.length)
    else (before, [], b :: rest)
  | [] => (before, [], [])

/-- A number in the base `base`, a digit of which is as much as `width` digits of the base `power`.
The exponent after the letter `mark` counts powers of `power`. -/
def numeral? (base power width : Nat) (mark : Char) (needsExponent : Bool) (isDigit : UInt8 → Bool)
    (t : Text) :
    Option (Nat × Nat) := do
  let (before, after, rest) := mantissaOf isDigit t
  let m ← Text.natOfDigits? base (before ++ after)
  let e ←
    match rest with
    | [] => if needsExponent then none else some 0
    | b :: more => do
      if b ||| 0x20 == mark.toUInt8 then
        match exponent? more with
        | some (e, []) => some e
        | _ => none
      else none
  let e := e - width * after.length
  let size : Int := width * (Nat.toDigits base m).length + e
  if m = 0 then some (0, 1)
  else if size > 4000 then some (Nat.pow 10 310, 1)
  else if size < -4000 then some (0, 1)
  else some (scaled power m 1 e)

/-- The float that a text writes: an optional sign, digits with an optional point and an optional
exponent, or hexadecimal digits after `0x` with an exponent of two after `p`. -/
def parse? (t : Text) : Option Float := do
  let (negative, body) := signOf t
  let hex := (utf8 "0x").isPrefixOf body || (utf8 "0X").isPrefixOf body
  let fits :=
    if hex then underscoresFit Text.isHexDigit true false (body.drop 2)
    else underscoresFit Text.isDigit false false body
  let digits := (if hex then body.drop 2 else body).filter (· != '_'.toUInt8)
  let (num, den) ←
    if !fits then none
    else if hex then numeral? 16 2 4 'p' true Text.isHexDigit digits
    else numeral? 10 10 1 'e' false Text.isDigit digits
  let f := nearest num den
  some (if negative then -f else f)

/-! ## Writing -/

/-- The number of digits before the point of a positive fraction, negative if zeros follow the
point. -/
def pointOf (num den : Nat) : Int :=
  if den ≤ num then (Nat.toDigits 10 (num / den)).length
  else 1 - ((Nat.toDigits 10 ((den - 1) / num)).length : Int)

/-- The multiple of `10 ^ e` that reads back as a positive float, if one of the two neighbours of
the float does: the nearer of them, or of two as near the even one. -/
def reading? (f : Float) (num den : Nat) (e : Int) : Option Nat :=
  let (a, b) := scaled 10 num den (-e)
  let reads (m : Nat) : Bool := ofDecimal m e == f
  let round := roundDiv a b
  let other := if round = a / b then round + 1 else a / b
  if reads round then some round else if reads other then some other else none

/-- The shortest decimal that reads back, trying `digits` digits first and up to `more` further
ones. -/
def shortest (f : Float) (num den : Nat) (point : Int) (digits more : Nat) : Nat × Int :=
  let e := point - digits
  match reading? f num den e, more with
  | some m, _ => (m, e)
  | none, 0 => (0, 0)
  | none, more + 1 => shortest f num den point (digits + 1) more

/-- The digits of a decimal without zeros at the end, and the number of digits before the point. -/
def digitsOf (m : Nat) (e : Int) : Text × Int :=
  let ds := Text.digits 10 m
  let kept := (ds.reverse.dropWhile (· == '0'.toUInt8)).reverse
  (kept, ds.length + e)

/-- An exponent of ten after its mark: a sign and at least two digits. -/
def exponentText (mark : Char) (e : Int) : Text :=
  let size := Text.digits 10 e.natAbs
  mark.toUInt8 :: (if e < 0 then utf8 "-" else utf8 "+") ++
    (if size.length < 2 then utf8 "0" else []) ++ size

/-- A positive fraction that is a float in its shortest form, with a point or an exponent:
positional from 0.0001 up to six digits before the point. -/
def positiveText (mark : Char) (f : Float) (num den : Nat) : Text :=
  let (digits, power) := shortest f num den (pointOf num den) 1 17
  let (ds, point) := digitsOf digits power
  let exponent := point - 1
  if exponent < -4 ∨ 6 ≤ exponent then
    ds.take 1 ++ (if ds.length > 1 then utf8 "." ++ ds.drop 1 else []) ++ exponentText mark exponent
  else if point ≤ 0 then utf8 "0." ++ List.replicate (-point).toNat '0'.toUInt8 ++ ds
  else
    let whole := ds.take point.toNat ++ List.replicate (point.toNat - ds.length) '0'.toUInt8
    let part := ds.drop point.toNat
    whole ++ utf8 "." ++ (if part.isEmpty then utf8 "0" else part)

/-- A fraction with six digits after the point. -/
def fixedText (num den : Nat) : Text :=
  let ds := Text.digits 10 (roundDiv (num * 1000000) den)
  let ds := List.replicate (7 - ds.length) '0'.toUInt8 ++ ds
  ds.take (ds.length - 6) ++ utf8 "." ++ ds.drop (ds.length - 6)

/-- A fraction with one digit before the point, six after it, and an exponent. -/
def scientificText (mark : Char) (num den : Nat) : Text :=
  if num = 0 then utf8 "0.000000" ++ exponentText mark 0
  else
    let point := pointOf num den
    let (a, b) := scaled 10 num den (7 - point)
    let ds := Text.digits 10 (roundDiv a b)
    ds.take 1 ++ utf8 "." ++ (ds.drop 1).take 6 ++
      exponentText mark (point - 1 + ((ds.length : Int) - 7))

/-- The text of a float, where `write` gives that of a finite one from its size as a float and as a
fraction. -/
def textWith (write : Float → Nat → Nat → Text) (f : Float) : Text :=
  match floatParts? f with
  | none => if f.isNaN then utf8 "nan" else if f > 0 then utf8 "+inf" else utf8 "-inf"
  | some (m, e) =>
    let (num, den) := scaled 2 m.natAbs 1 e
    (if isNegative f then utf8 "-" else []) ++ write f.abs num den

/-- The shortest text that reads back, with `mark` before the exponent. -/
def shortText (mark : Char) (f : Float) : Text :=
  textWith (fun f num den => if num = 0 then utf8 "0.0" else positiveText mark f num den) f

/-- The text with six digits after the point. -/
def fixed (f : Float) : Text := textWith (fun _ num den => fixedText num den) f

/-- The text with one digit before the point, six after it, and an exponent after `mark`. -/
def scientific (mark : Char) (f : Float) : Text :=
  textWith (fun _ num den => scientificText mark num den) f

/-- The usual text of a float. -/
def text (f : Float) : Text := shortText 'e' f

end Octet.Formula.Real
