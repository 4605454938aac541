import Octet.Formula.Written
import Octet.Text.Search

/-!
# Templates

Two ways of filling values into a text: `%` with conversions of one letter, and fields in braces.
Part of the reference model of `evaluate`.

* `Store.interpolate?` — a text whose parts `%s`, `%d` and so on are replaced by values in order, or
  `%(name)s` by those of a dictionary;
* `Store.format?` — a text whose fields in braces are replaced by arguments, in order, by number or
  by name.
-/

namespace Octet.Formula

/-- The arguments of a call. -/
structure Given where
  positional : List Value := []
  named : List (Text × Value) := []

/-! ## Conversions of one letter -/

/-- A number as a float, which may be infinite. -/
def asFloat? : Value → Option Float
  | .float f => some f
  | .int n => some (Real.ofInt n)
  | _ => none

/-- The character that a number or a string of one character stands for. -/
def character? : Value → Option Text
  | .int n => if 0 ≤ n ∧ n ≤ 0x10FFFF then some (Text.ofPoint n.toNat) else none
  | .string b =>
    match Text.codes (unpacked b) with
    | [c] => some (Text.ofPoint c)
    | _ => none
  | _ => none

/-- A value as a conversion writes it. -/
def Store.convert? (s : Store) (letter : Char) (v : Value) : Option Text :=
  match letter with
  | 's' => some (s.text v)
  | 'r' => some (s.repr v)
  | 'd' => v.whole?.map Text.decimal
  | 'i' => v.whole?.map Text.decimal
  | 'o' => v.whole?.map (Text.signed (Text.digits 8))
  | 'x' => v.whole?.map (Text.signed (Text.digits 16))
  | 'X' => v.whole?.map fun n => Text.upper (Text.signed (Text.digits 16) n)
  | 'e' => (asFloat? v).map (Real.scientific 'e')
  | 'E' => (asFloat? v).map (Real.scientific 'E')
  | 'f' => (asFloat? v).map Real.fixed
  | 'F' => (asFloat? v).map fun f => if f.isFinite then utf8 "%F" else Real.fixed f
  | 'g' => (asFloat? v).map (Real.shortText 'e')
  | 'G' => (asFloat? v).map (Real.shortText 'E')
  | 'c' => character? v
  | '%' => some (utf8 "%")
  | _ => none

/-- The values that conversions take in order: those of a tuple, or the one value. -/
def inOrder : Value → List Value
  | .tuple items => items
  | v => [v]

/-- Whether a value is a dictionary. -/
def isDict : Value → Bool
  | .dict _ => true
  | _ => false

/-- The value of a name in a dictionary. -/
def Store.named? (s : Store) (v : Value) (n : Text) : Option Value :=
  match v with
  | .dict i => ((s.dict i).find? (.ofText n)).join
  | _ => none

/-- The value for the conversion at the start of a text, and the text from its letter on. -/
def Store.operand? (s : Store) (v : Value) (taken : Nat) (t : Text) : Option (Value × Text) :=
  match t with
  | b :: rest =>
    if b == '('.toUInt8 then do
      let i ← Text.indexOf? (utf8 ")") rest
      some (← s.named? v (rest.take i), rest.drop (i + 1))
    else (inOrder v)[taken]?.map (·, t)
  | [] => (inOrder v)[taken]?.map (·, t)

/-- Replaces the conversions of a text, of which `taken` have been replaced before; every step takes
at least a byte. -/
def Store.interpolateFrom? (s : Store) (v : Value) (steps taken : Nat) (done : Array Text)
    (t : Text) :
    Option (Array Text × Nat) :=
  match steps with
  | 0 => none
  | steps + 1 =>
    let plain := t.takeWhile (· != '%'.toUInt8)
    match t.drop plain.length with
    | [] => some (done.push plain, taken)
    | _ :: rest =>
      if rest.head? = some '%'.toUInt8 then
        s.interpolateFrom? v steps taken (done.push (plain ++ utf8 "%")) (rest.drop 1)
      else
        match s.operand? v taken rest with
        | some (arg, letter :: rest) =>
          match s.convert? (Char.ofNat letter.toNat) arg with
          | some written =>
            s.interpolateFrom? v steps (taken + 1) ((done.push plain).push written) rest
          | none => none
        | _ => none

/-- A text with its conversions replaced. All values have to be used, but for those of a
dictionary. -/
def Store.interpolate? (s : Store) (t : Text) (v : Value) : Option Text := do
  let (parts, taken) ← s.interpolateFrom? v (t.length + 1) 0 #[] t
  if taken < (inOrder v).length && !isDict v then none else some parts.toList.flatten

/-! ## Fields in braces -/

/-- How fields without a name and fields with a number have been used so far: not both may be. -/
structure FieldState where
  next : Nat := 0
  automatic : Bool := false
  manual : Bool := false

/-- A number of decimal digits as a word of 64 bits, as long as it does not become negative. -/
def fieldNumber? (t : Text) : Option Int :=
  t.foldlM (fun (n : Int) b =>
    if Text.isDigit b then
      let n := wrapped (n * 10 + (b.toNat - '0'.toNat : Nat))
      if n < 0 then none else some n
    else none) 0

/-- A field as its name, its conversion and its format. -/
def fieldParts (field : Text) : Text × Text × Text :=
  let split (sep : UInt8) (t : Text) : Text × Option Text :=
    let start := t.takeWhile (· != sep)
    (start, if start.length < t.length then some (t.drop (start.length + 1)) else none)
  match split '!'.toUInt8 field with
  | (name, some rest) =>
    let (conversion, format) := split ':'.toUInt8 rest
    (name, conversion, format.getD [])
  | (_, none) =>
    let (name, format) := split ':'.toUInt8 field
    (name, utf8 "s", format.getD [])

/-- The argument that a field names. -/
def argument? (g : Given) (state : FieldState) (name : Text) : Option (Value × FieldState) :=
  if name.isEmpty then
    if state.manual then none
    else g.positional[state.next]?.map (·, { state with next := state.next + 1, automatic := true })
  else
    match fieldNumber? name with
    | some n =>
      if state.automatic then none
      else g.positional[n.toNat]?.map (·, { state with manual := true })
    | none => (g.named.lookup name).map (·, state)

/-- Text outside of fields, in which every closing brace is doubled. -/
def outsideText? : Text → Option Text
  | [] => some []
  | b :: rest =>
    if b != 0x7D then (outsideText? rest).map (b :: ·)
    else
      match rest with
      | c :: rest => if c == 0x7D then (outsideText? rest).map (b :: ·) else none
      | [] => none

/-- A field with its argument filled in. -/
def Store.field? (s : Store) (g : Given) (state : FieldState) (field : Text) :
    Option (Text × FieldState) := do
  let (name, conversion, format) := fieldParts field
  let (v, state) ← argument? g state name
  if !format.isEmpty then none
  else if conversion == utf8 "s" then some (s.text v, state)
  else if conversion == utf8 "r" then some (s.repr v, state)
  else none

/-- Replaces the fields of a text; every step takes at least a byte. -/
def Store.formatFrom? (s : Store) (g : Given) (steps : Nat) (state : FieldState) (done : Array Text)
    (t : Text) :
    Option (Array Text) :=
  match steps with
  | 0 => none
  | steps + 1 =>
    let outside := t.takeWhile (· != 0x7B)
    match outsideText? outside with
    | none => none
    | some plain =>
      match t.drop outside.length with
      | [] => some (done.push plain)
      | _ :: rest =>
        if rest.head? = some 0x7B then
          s.formatFrom? g steps state ((done.push plain).push [0x7B]) (rest.drop 1)
        else
          let field := rest.takeWhile (· != 0x7D)
          if field.length = rest.length then none
          else
            match s.field? g state field with
            | some (written, state) =>
              s.formatFrom? g steps state ((done.push plain).push written)
                (rest.drop (field.length + 1))
            | none => none

/-- A text with its fields replaced. -/
def Store.format? (s : Store) (t : Text) (g : Given) : Option Text :=
  (s.formatFrom? g (t.length + 1) {} #[] t).map (·.toList.flatten)

end Octet.Formula
