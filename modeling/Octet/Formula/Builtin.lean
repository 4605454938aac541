import Octet.Formula.Operator

/-!
# Built-in functions

The built-in functions check the number, the names and the types of their arguments. `max`, `min`
and `sorted` call a function that they are given, so applying a built-in function takes the way to
call one. Part of the reference model of `evaluate`.

* `Given.unpack?`, `Given.between?` — arguments by name, and arguments without names;
* `Builtin.apply` — the value of a call.
-/

namespace Octet.Formula

/-! ## Arguments -/

/-- Arguments for parameters with the given names, of which the first `required` have to be
given. -/
def Given.unpack? (g : Given) (required : Nat) (names : List Text) : Option (List (Option Value)) :=
  let taken := names.take g.positional.length
  let free (n : Text) : Bool := names.contains n && !taken.contains n
  if names.length < g.positional.length then none
  else if !(g.named.all fun a => free a.1) || !distinct (g.named.map (·.1)) then none
  else
    let values := names.zipIdx.map fun (n, i) =>
      match g.positional[i]? with
      | some v => some v
      | none => g.named.lookup n
    if (values.take required).all (·.isSome) then some values else none

/-- Arguments without names, at least `least` and at most `most`. -/
def Given.between? (g : Given) (least most : Nat) : Option (List Value) :=
  if g.named.isEmpty && least ≤ g.positional.length && g.positional.length ≤ most then
    some g.positional else none

/-- The only argument. -/
def Given.only? (g : Given) : Option Value :=
  match g.named, g.positional with
  | [], [v] => some v
  | _, _ => none

/-! ## Numbers -/

/-- Digits of a base from 2 to 36, or of base ten if `base` is zero, as a natural number. -/
def digitsValue? (base : Nat) (t : Text) : Option Nat :=
  Text.natOfDigits? (if base = 0 then 10 else base) t

/-- The base that the mark at the start of a numeral names. -/
def markedBase? : Text → Option Nat
  | z :: m :: _ :: _ =>
    if z != '0'.toUInt8 then none
    else if m == 'o'.toUInt8 || m == 'O'.toUInt8 then some 8
    else if m == 'x'.toUInt8 || m == 'X'.toUInt8 then some 16
    else if m == 'b'.toUInt8 || m == 'B'.toUInt8 then some 2
    else none
  | _ => none

/-- A numeral without its sign. The mark of a base may stand before its digits; base zero stands for
the marked base or ten, and then only zero starts with a zero. -/
def magnitude? (base : Nat) (t : Text) : Option Nat :=
  match markedBase? t with
  | some marked =>
    if base = 0 || base = marked then digitsValue? marked (t.drop 2) else digitsValue? base t
  | none =>
    if base = 0 && 1 < t.length && t.head? = some '0'.toUInt8 then
      if t.all (· == '0'.toUInt8) then some 0 else none
    else digitsValue? base t

/-- The integer that a text writes in a base. -/
def integerOf? (base : Nat) (t : Text) : Option Int :=
  let (negative, rest) := Real.signOf t
  (magnitude? base rest).map fun n => if negative then -(n : Int) else n

/-- The base of a numeral: zero, or from 2 to 36. -/
def baseOf? (v : Value) : Option Nat := do
  let n ← v.index?
  if n = 0 ∨ (2 ≤ n ∧ n ≤ 36) then some n.toNat else none

/-- The integer that a value stands for. -/
def toInt? (v : Value) (base : Option Value) : Option Int :=
  match v, base with
  | .string digits, some b => do integerOf? (← baseOf? b) (unpacked digits)
  | .string digits, none => integerOf? 10 (unpacked digits)
  | _, some _ => none
  | .bool b, none => some (if b then 1 else 0)
  | v, none => v.whole?

/-- The float that a text writes; infinity and what is no number have names, in upper or lower
case. -/
def floatOf? (t : Text) : Option Float :=
  let (negative, rest) := Real.signOf t
  let name := Text.upper rest
  if name == utf8 "INF" || name == utf8 "INFINITY" then
    some (if negative then -Real.infinity else Real.infinity)
  else if name == utf8 "NAN" then some Real.notANumber
  else
    match Real.parse? t with
    | some f => if f.isInf then none else some f
    | none => none

/-- The float that a value stands for. -/
def toFloat? : Value → Option Float
  | .bool b => some (if b then 1 else 0)
  | .int n => Real.ofInt? n
  | .float f => some f
  | .string b => floatOf? (unpacked b)
  | _ => none

/-- The absolute value of a number. -/
def magnitudeOf? : Value → Option Value
  | .int n => some (.int n.natAbs)
  | .float f => some (.float f.abs)
  | _ => none

/-- The number of the only character of a string, or of the only byte. -/
def ordinal? : Value → Option Int
  | .string b =>
    match Text.codes (unpacked b) with
    | [c] => some c
    | _ => none
  | .bytes b =>
    match unpacked b with
    | [c] => some c.toNat
    | _ => none
  | _ => none

/-- A number that all places where a string is used agree on: 31 times the number so far plus the
next code point. -/
def stringHash (t : Text) : Int :=
  (Text.codes t).foldl (fun (h : Int) (c : Nat) => (31 * h + (c : Int)).bmod 0x100000000) 0

/-- The number of a string of bytes: its digest. -/
def bytesHash (t : Text) : Int := (textDigest t).toNat

/-- The number that stands for a string or a string of bytes. -/
def hash? : Value → Option Int
  | .string b => some (stringHash (unpacked b))
  | .bytes b => some (bytesHash (unpacked b))
  | _ => none

/-- The byte that a number stands for. -/
def byte? : Value → Option UInt8
  | .int n => if 0 ≤ n ∧ n < 256 then some (UInt8.ofNat n.toNat) else none
  | _ => none

/-- The bytes that a value stands for. -/
def toBytes (v : Value) : Run ByteArray := do
  match v with
  | .bytes b => return b
  | .string b => return packed (Text.repaired (unpacked b))
  | v =>
    (← Run.series v).foldM (fun (acc : ByteArray) x => do return acc.push (← byte? x)) .empty

/-! ## Dictionaries -/

/-- A pair of values: what an iteration over a value of length two goes through. -/
def Store.pair? (s : Store) (v : Value) : Option (Value × Value) := do
  let series ← s.series? v
  match s.length? v, series.take 2 with
  | some 2, [a, b] => some (a, b)
  | _, _ => none

/-- Whether a value is the dictionary of a number. -/
def isDictOf (number : Option Nat) : Value → Bool
  | .dict i => number == some i
  | _ => false

/-- The entries that a value gives to the dictionary `self`: those of a dictionary, or pairs. The
dictionary itself may not be one of the pairs. -/
def entriesOf (self : Option Nat) (v : Value) : Run (List (Value × Value)) := do
  match v with
  | .dict i => return (← Run.dict i).toList
  | v =>
    let add (acc : Array (Value × Value)) (x : Value) : Run (Array (Value × Value)) := do
      if isDictOf self x then failure
      return acc.push (← (← get).pair? x)
    return (← (← Run.series v).foldM add #[]).toList

/-- The entries that the arguments of a call give to a dictionary. -/
def Given.entries (g : Given) (self : Option Nat) : Run (List (Value × Value)) := do
  let first ←
    match g.positional with
    | [] => pure []
    | [v] => entriesOf self v
    | _ => failure
  if !distinct (g.named.map (·.1)) then failure
  return first ++ g.named.map fun a => (.ofText a.1, a.2)

/-- Puts entries in one by one. -/
def Dict.insertAll? (d : Dict) (entries : List (Value × Value)) : Option Dict :=
  entries.foldlM (fun (d : Dict) e => d.insert? e.1 e.2) d

/-! ## Sequences -/

/-- The number of values of a series. -/
def Series.size : Series → Nat
  | .items vs => vs.length
  | .numbers _ _ left => left

/-- Rows of the values of several series, as many as the shortest has. -/
def zipped (all : List Series) : List Value :=
  match all with
  | [] => []
  | first :: rest =>
    let count := rest.foldl (fun n s => min n s.size) first.size
    let columns := all.map fun s => (s.take count).toArray
    (List.range count).map fun i => .tuple (columns.filterMap (·[i]?))

/-- Values with numbers from `start` on. -/
def numbered (start : Int) (vs : List Value) : List Value :=
  vs.zipIdx.map fun (v, i) => .tuple [.int (wrapped (start + (i : Int))), v]

/-- A function to find keys with: one that is given, or none. -/
def keyOf? : Option Value → Option (Option Value)
  | none => some none
  | some f => if f.isCallable then some (some f) else none

/-- The key of a value: the result of a function, or the value itself. -/
def keyFor (call : Value → List Value → Run Value) (key : Option Value) (v : Value) : Run Value :=
  match key with
  | some f => call f [v]
  | none => pure v

/-- Runs a computation while a value cannot change. -/
def pinned {α : Type} (v : Value) (f : Run α) : Run α := do
  Run.pin v
  let a ← f
  Run.unpin v
  return a

/-- The first value of a series whose key no other one's precedes. -/
def extreme (call : Value → List Value → Run Value) (precedes : Store → Value → Value → Option Bool)
    (key : Option Value) (series : Series) : Run Value := do
  let step (best : Option (Value × Value)) (v : Value) : Run (Option (Value × Value)) := do
    let k ← keyFor call key v
    match best with
    | none => return some (k, v)
    | some (k', v') => if ← precedes (← get) k k' then return some (k, v) else return some (k', v')
  match ← series.foldM step none with
  | some (_, v) => return v
  | none => failure

/-- The least or the greatest of the arguments, or of the items of a single one. -/
def extremeOf (call : Value → List Value → Run Value)
    (precedes : Store → Value → Value → Option Bool) (g : Given) :
    Run Value := do
  let key ←
    match ← ({ named := g.named } : Given).unpack? 0 [utf8 "key"] with
    | [key] => keyOf? key
    | _ => failure
  match g.positional with
  | [] => failure
  | [v] => pinned v do extreme call precedes key (← Run.series v)
  | vs => extreme call precedes key (.items vs)

/-- The items of a value, sorted by their keys. -/
def sortedOf (call : Value → List Value → Run Value) (g : Given) : Run Value := do
  match ← g.unpack? 1 [utf8 "iterable", utf8 "key", utf8 "reverse"] with
  | [some v, key, reverse] =>
    let key ← keyOf? key
    let down ← if let some r := reverse then r.flag? else some false
    pinned v do
      let items ← Run.listOf v
      let keyed ← items.mapM fun x => do return (← keyFor call key x, x)
      let s ← get
      let precedes (a b : Value × Value) : Option Bool :=
        if down then s.below? b.1 a.1 else s.below? a.1 b.1
      Run.newList ((← sortBy? precedes keyed).map (·.2)).toArray
  | _ => failure

/-! ## Calls -/

/-- The value of a call of a built-in function, where `call` calls a function with arguments. -/
def Builtin.apply (call : Value → List Value → Run Value) (b : Builtin) (g : Given) : Run Value :=
  match b with
  | .abs => do magnitudeOf? (← g.only?)
  | .all => do
    let series ← Run.series (← g.only?)
    return .bool (← series.walk (fun _ v => do let t ← Run.truth v; return (t, t)) true)
  | .any => do
    let series ← Run.series (← g.only?)
    return .bool (← series.walk (fun _ v => do let t ← Run.truth v; return (t, !t)) false)
  | .bool => do
    match ← g.between? 0 1 with
    | [v] => return .bool (← Run.truth v)
    | _ => return .bool false
  | .bytes => do return .bytes (← toBytes (← g.only?))
  | .chr => do
    match ← g.only? with
    | .int n => return .ofText (← character? (.int n))
    | _ => failure
  | .dict => do
    if 1 < g.positional.length then failure
    Run.newDict (← ({} : Dict).insertAll? (← g.entries none))
  | .dir => do Run.newList ((← g.only?).methods.map fun m => .ofText m.1).toArray
  | .enumerate => do
    match ← g.between? 1 2 with
    | v :: start =>
      let start ← if let [n] := start then n.word? else some 0
      Run.newList (numbered start (← Run.listOf v)).toArray
    | _ => failure
  | .fail => failure
  | .float => do
    match ← g.between? 0 1 with
    | [v] => return .float (← toFloat? v)
    | _ => return .float 0
  | .getattr => do
    match ← g.between? 2 3 with
    | v :: n :: missing =>
      match ← attribute? v (← n.text?) with
      | some m => return m
      | none => missing.head?
    | _ => failure
  | .hasattr => do
    match ← g.between? 2 2 with
    | [v, n] => return .bool (v.methods.lookup (← n.text?)).isSome
    | _ => failure
  | .hash => do return .int (← hash? (← g.only?))
  | .int => do
    match ← g.unpack? 1 [utf8 "x", utf8 "base"] with
    | [some v, base] => return .int (← toInt? v base)
    | _ => failure
  | .len => do
    let n ← (← get).length? (← g.only?)
    if n < 0 then failure else return .int n
  | .list => do
    match ← g.between? 0 1 with
    | [v] => Run.newList (← Run.listOf v).toArray
    | _ => Run.newList #[]
  | .max => extremeOf call Store.above? g
  | .min => extremeOf call Store.below? g
  | .ord => do return .int (← ordinal? (← g.only?))
  | .print => do
    match ← ({ named := g.named } : Given).unpack? 0 [utf8 "sep"] with
    | [some sep] =>
      let _ ← sep.text?
      return .none
    | _ => return .none
  | .range => do
    match ← ((← g.between? 1 3).mapM Value.word? : Option (List Int)) with
    | [stop] => return .range (.between 0 stop 1)
    | [start, stop] => return .range (.between start stop 1)
    | [start, stop, step] => if step = 0 then failure else return .range (.between start stop step)
    | _ => failure
  | .repr => do return .ofText ((← get).repr (← g.only?))
  | .reversed => do Run.newList (← Run.listOf (← g.only?)).reverse.toArray
  | .sorted => sortedOf call g
  | .str => do
    match ← g.only? with
    | .string b => return .string b
    | .bytes b => return .ofText (Text.repaired (unpacked b))
    | v => return .ofText ((← get).repr v)
  | .tuple => do
    match ← g.between? 0 1 with
    | [v] => return .tuple (← Run.listOf v)
    | _ => return .tuple []
  | .type => do return .ofText (← g.only?).typeName
  | .zip => do
    if !g.named.isEmpty then failure
    let all ← g.positional.mapM Run.series
    Run.newList (zipped all).toArray

end Octet.Formula
