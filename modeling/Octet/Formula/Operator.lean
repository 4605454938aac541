import Octet.Formula.Expr
import Octet.Formula.Order
import Octet.Formula.Template

/-!
# Operators of formulas

The meaning of the operators, of indices and of slices. Division and remainder of integers go to the
floor and fail on zero, `/` always gives a float, shift counts are not negative and a left shift is
below 512. A remainder of a string fills values into it. Strings of bytes can be repeated but not
added; only literals of them are joined, before anything is evaluated. Part of the reference model
of `evaluate`.
-/

namespace Octet.Formula

/-! ## Integers as endless rows of bits -/

/-- A negative integer is the complement of a natural number: that number and whether it is
complemented. -/
def bits (n : Int) : Nat × Bool := if n < 0 then ((-n - 1).toNat, true) else (n.toNat, false)

/-- The integer with the given bits. -/
def ofBits (m : Nat) (complemented : Bool) : Int := if complemented then -(m : Int) - 1 else m

/-- The bits of `a` that are not in `b`. -/
def without (a b : Nat) : Nat := a ^^^ (a &&& b)

/-- Bitwise and. -/
def intAnd (x y : Int) : Int :=
  match bits x, bits y with
  | (a, false), (b, false) => ofBits (a &&& b) false
  | (a, false), (b, true) => ofBits (without a b) false
  | (a, true), (b, false) => ofBits (without b a) false
  | (a, true), (b, true) => ofBits (a ||| b) true

/-- Bitwise or. -/
def intOr (x y : Int) : Int := -(intAnd (-x - 1) (-y - 1)) - 1

/-- Bitwise exclusive or. -/
def intXor (x y : Int) : Int :=
  match bits x, bits y with
  | (a, s), (b, t) => ofBits (a ^^^ b) (s != t)

/-! ## Operators with one operand -/

/-- The value of a signed or negated operand. -/
def UnaryOp.apply (op : UnaryOp) (v : Value) : Run Value :=
  match op, v with
  | .not, v => do return .bool !(← Run.truth v)
  | .negate, .int n => pure (.int (-n))
  | .negate, .float f => pure (.float (-f))
  | .plus, .int n => pure (.int n)
  | .plus, .float f => pure (.float f)
  | .invert, .int n => pure (.int (-n - 1))
  | _, _ => failure

/-! ## Operators with two operands -/

/-- Two numbers as floats, if one of them is a float. -/
def floats? (a b : Value) : Option (Float × Float) :=
  match a, b with
  | .float x, .float y => some (x, y)
  | .int x, .float y => (Real.ofInt? x).map (·, y)
  | .float x, .int y => (Real.ofInt? y).map (x, ·)
  | _, _ => none

/-- An operation on numbers: on integers if both are, else on floats. -/
def arithmetic? (onInts : Int → Int → Option Int) (onFloats : Float → Float → Option Float)
    (a b : Value) :
    Option Value :=
  match a, b with
  | .int x, .int y => (onInts x y).map .int
  | _, _ => do
    let (x, y) ← floats? a b
    (onFloats x y).map .float

/-- The most items that repeating may give. -/
def repeatLimit : Nat := 0x40000000

/-- A sequence `count` times, made of halves. -/
def copies {α : Type} [Append α] (nothing items : α) (count : Nat) : α :=
  if count = 0 then nothing
  else
    let half := copies nothing items (count / 2)
    if count % 2 = 0 then half ++ half else half ++ half ++ items
termination_by count

/-- A sequence of some size `count` times. Repeating nothing gives nothing whatever the count; a
count below one gives nothing. -/
def repeated? {α : Type} [Append α] (nothing items : α) (size : Nat) (count : Int) : Option α :=
  if size = 0 then some nothing
  else if !Word.fits32 count then none
  else if size * count.toNat ≥ repeatLimit then none
  else some (copies nothing items count.toNat)

/-- A sequence repeated. -/
def repeatValue (v : Value) (count : Int) : Run Value :=
  match v with
  | .string b => do return .string (← repeated? .empty b b.size count)
  | .bytes b => do return .bytes (← repeated? .empty b b.size count)
  | .tuple items => do return .tuple (← repeated? [] items items.length count)
  | .list i => do
    let items ← Run.items i
    Run.newList (← repeated? #[] items items.size count)
  | _ => failure

/-- Whether a value is among others. -/
def Store.isAmong? (s : Store) (v : Value) : List Value → Option Bool
  | [] => some false
  | w :: rest => do if ← s.equal? w v then some true else s.isAmong? v rest

/-- Whether a container holds a value. -/
def Store.contains? (s : Store) (container v : Value) : Option Bool :=
  match container with
  | .list i => s.isAmong? v (s.items i).toList
  | .tuple items => s.isAmong? v items
  | .dict i => some ((s.dict i).find? v).join.isSome
  | .string b => v.text?.map fun part => (Text.indexOf? part (unpacked b)).isSome
  | .bytes b =>
    match v with
    | .bytes part => some (Text.indexOf? (unpacked part) (unpacked b)).isSome
    | .int n => if 0 ≤ n ∧ n < 256 then some ((unpacked b).contains (UInt8.ofNat n.toNat)) else none
    | _ => none
  | .range r => v.whole?.map r.holds
  | _ => none

/-- A shift count: an integer that is not negative. -/
def shiftCount? (v : Value) : Option Nat := do
  let n ← v.index?
  if n < 0 then none else some n.toNat

/-- A comparison by order. -/
def ordered (p : Ordering → Bool) (a b : Value) : Run Value := do
  let o ← (← get).order? a b
  return .bool (p o)

/-- The value of an operation. -/
def BinaryOp.apply (op : BinaryOp) (a b : Value) : Run Value :=
  match op with
  | .equal => do return .bool (← (← get).equal? a b)
  | .unequal => do return .bool !(← (← get).equal? a b)
  | .less => ordered (· == .lt) a b
  | .greater => ordered (· == .gt) a b
  | .atMost => ordered (· != .gt) a b
  | .atLeast => ordered (· != .lt) a b
  | .isIn => do return .bool (← (← get).contains? b a)
  | .notIn => do return .bool !(← (← get).contains? b a)
  | .bitOr =>
    match a, b with
    | .int x, .int y => pure (.int (intOr x y))
    | .dict x, .dict y => do
      let joined := (({} : Dict).insertAll (← Run.dict x).toList).insertAll (← Run.dict y).toList
      Run.newDict { joined with used := true }
    | _, _ => failure
  | .bitXor =>
    match a, b with
    | .int x, .int y => pure (.int (intXor x y))
    | _, _ => failure
  | .bitAnd =>
    match a, b with
    | .int x, .int y => pure (.int (intAnd x y))
    | _, _ => failure
  | .shiftLeft =>
    match a with
    | .int x => do
      let n ← shiftCount? b
      if n < 512 then return .int (x * Nat.pow 2 n) else failure
    | _ => failure
  | .shiftRight =>
    match a with
    | .int x => do return .int (Int.shiftRight x (← shiftCount? b))
    | _ => failure
  | .add =>
    match a, b with
    | .string x, .string y => pure (.string (x ++ y))
    | .list x, .list y => do Run.newList ((← Run.items x) ++ (← Run.items y))
    | .tuple x, .tuple y => pure (.tuple (x ++ y))
    | _, _ => arithmetic? (fun x y => some (x + y)) (fun x y => some (x + y)) a b
  | .sub => arithmetic? (fun x y => some (x - y)) (fun x y => some (x - y)) a b
  | .mul =>
    match a, b with
    | .int x, .int y => pure (.int (x * y))
    | .int _, .float _ => arithmetic? (fun _ _ => none) (fun x y => some (x * y)) a b
    | .int n, v => repeatValue v n
    | v, .int n =>
      match v with
      | .float _ => arithmetic? (fun _ _ => none) (fun x y => some (x * y)) a b
      | v => repeatValue v n
    | _, _ => arithmetic? (fun _ _ => none) (fun x y => some (x * y)) a b
  | .div => do
    let (x, y) ←
      match a, b with
      | .int x, .int y => do pure (← Real.ofInt? x, ← Real.ofInt? y)
      | _, _ => floats? a b
    if y == 0 then failure else return .float (x / y)
  | .floorDiv =>
    arithmetic? (fun x y => if y = 0 then none else some (x.fdiv y))
      (fun x y => if y == 0 then none else some (x / y).floor) a b
  | .mod =>
    match a with
    | .string template => do return .ofText (← (← get).interpolate? (unpacked template) b)
    | _ =>
      arithmetic? (fun x y => if y = 0 then none else some (x.fmod y))
        (fun x y => if y == 0 then none else some (Real.floatMod x y)) a b

/-- The new value of a target that an operation updates. A list takes the items of what is added to
it, and a dictionary the entries. -/
def BinaryOp.update (op : BinaryOp) (a b : Value) : Run Value := do
  match op, a, b with
  | .add, .list i, b =>
    match (← get).series? b with
    | some series =>
      Run.changeList i (· ++ series.toList.toArray)
      return a
    | none => op.apply a b
  | .bitOr, .dict i, .dict j =>
    let more := (← Run.dict j).toList
    Run.changeDict i fun d => some (d.insertAll more)
    return a
  | _, _, _ => op.apply a b

/-! ## Indices and slices -/

/-- The place that an index of a sequence of some length means; a negative index counts from the
end. -/
def placeOf? (length : Int) (i : Value) : Option Nat := do
  let n ← i.index?
  let n := if n < 0 then n + length else n
  if 0 ≤ n ∧ n < length then some n.toNat else none

/-- The value at an index or a key. -/
def Store.indexed? (s : Store) (v i : Value) : Option Value :=
  match v with
  | .dict n => do (← (s.dict n).find? i)
  | .list n => do (s.items n)[← placeOf? (s.items n).size i]?
  | .tuple items => do items[← placeOf? items.length i]?
  | .string b => do some (.ofText [← b[← placeOf? b.size i]?])
  | .bytes b => do some (.bytes (packed [← b[← placeOf? b.size i]?]))
  | .range r => do some (.int (r.item (← placeOf? r.size i)))
  | .elems t asNumbers => do
    let b ← t[← placeOf? t.length i]?
    some (if asNumbers then .int b.toNat else .ofText [b])
  | _ => none

/-- Sets the value at an index or a key. -/
def setIndexed (v i x : Value) : Run Unit :=
  match v with
  | .dict n => Run.changeDict n fun d => d.insert? i x
  | .list n => do
    let place ← placeOf? (← Run.items n).size i
    Run.changeList n fun items => items.setIfInBounds place x
  | _ => failure

/-- A bound of a slice, counted from the end if negative; `none` stands for `missing`. -/
def bound? (length missing : Int) (v : Value) : Option Int :=
  match v with
  | .none => some missing
  | v => do
    let n ← v.index?
    some (if n < 0 then n + length else n)

/-- The number `n` brought into the range `lo` to `hi`. -/
def clamp (lo hi n : Int) : Int := if n < lo then lo else if hi < n then hi else n

/-- The places from which and before which a part of a sequence of some length reaches. -/
def bounds? (length : Int) (lo hi : Value) : Option (Int × Int) := do
  return (clamp 0 length (← bound? length 0 lo), clamp 0 length (← bound? length length hi))

/-- The places that a slice of a sequence of some length takes: the first, the one before which it
ends, and their distance. -/
def slicePlaces? (length : Int) (lo hi step : Value) : Option (Int × Int × Int) := do
  let step ← if let .none := step then some 1 else step.index?
  if step = 0 then none
  else if step > 0 then
    let (lo, hi) ← bounds? length lo hi
    some (lo, max lo hi, step)
  else
    let lo := min (length - 1) (← bound? length (length - 1) lo)
    let hi := max (-1) (← bound? length (-1) hi)
    some (max lo hi, hi, step)

/-- The items at the places of a slice. -/
def slice? {α : Type} (items : List α) (lo hi step : Value) : Option (List α) := do
  let (first, last, step) ← slicePlaces? items.length lo hi step
  if step = 1 then some ((items.drop first.toNat).take (last - first).toNat)
  else
    let items := items.toArray
    let r := Range.between first last step
    some ((List.range r.size.toNat).filterMap fun (i : Nat) => items[(r.item i).toNat]?)

/-- The bytes at the places of a slice. -/
def sliceBytes? (b : ByteArray) (lo hi step : Value) : Option ByteArray := do
  let (first, last, step) ← slicePlaces? b.size lo hi step
  if step = 1 then some (b.extract first.toNat last.toNat)
  else
    let r := Range.between first last step
    some (packed ((List.range r.size.toNat).filterMap fun (i : Nat) => b[(r.item i).toNat]?))

/-- The slice of a sequence. -/
def sliced (v lo hi step : Value) : Run Value :=
  match v with
  | .list i => do Run.newList (← slice? (← Run.items i).toList lo hi step).toArray
  | .tuple items => do return .tuple (← slice? items lo hi step)
  | .string b => do return .string (← sliceBytes? b lo hi step)
  | .bytes b => do return .bytes (← sliceBytes? b lo hi step)
  | .range r => do
    let (first, last, step) ← slicePlaces? r.size lo hi step
    return .range (r.slice first last step)
  | _ => failure

/-! ## Attributes -/

/-- The method of a value with a name, bound to it. -/
def attribute? (v : Value) (n : Text) : Run (Option Value) := do
  match v.methods.lookup n with
  | some m => return some (.method (← Run.newIdentity) v m)
  | none => return none

end Octet.Formula
