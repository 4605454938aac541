import Octet.Formula.Store

/-!
# Comparison of values

Values of different types are unequal, but for numbers. Comparison looks into lists, tuples and
dictionaries up to a fixed depth and fails beyond it; it also fails to order values that have no
order. Part of the reference model of `evaluate`.

* `Store.equal?` — equality;
* `Store.order?` — the order of two values;
* `sortBy?` — values sorted by such an order.
-/

namespace Octet.Formula

/-- The order of two byte strings. -/
def orderTexts (x y : Text) : Ordering := if x == y then .eq else if Text.le x y then .lt else .gt

/-- Whether two strings are the same, of which the lengths are compared first. -/
def sameBytes (x y : ByteArray) : Bool := x.size == y.size && unpacked x == unpacked y

mutual

/-- Whether two values are equal, looking at most `depth` levels deep. -/
def Store.equalWithin? (s : Store) (depth : Nat) (a b : Value) : Option Bool :=
  match depth with
  | 0 => none
  | depth + 1 =>
    match a, b with
    | .none, .none => some true
    | .bool x, .bool y => some (x == y)
    | .int x, .int y => some (x == y)
    | .float x, .float y => some (Real.compareFloats x y == .eq)
    | .int x, .float y => some (Real.compareIntFloat x y == .eq)
    | .float x, .int y => some (Real.compareIntFloat y x == .eq)
    | .string x, .string y => some (sameBytes x y)
    | .bytes x, .bytes y => some (sameBytes x y)
    | .list i, .list j =>
      let xs := (s.items i).toList
      let ys := (s.items j).toList
      if xs.length = ys.length then s.allEqual? depth xs ys else some false
    | .tuple xs, .tuple ys => if xs.length = ys.length then s.allEqual? depth xs ys else some false
    | .dict i, .dict j =>
      let x := s.dict i
      let y := s.dict j
      if x.size = y.size then s.allFound? depth x.toList y else some false
    | .range x, .range y => some (x.same y)
    | .elems x m, .elems y n => some (x == y && m == n)
    | .codepoints x m, .codepoints y n => some (x == y && m == n)
    | .byteElems x, .byteElems y => some (x == y)
    | .function i .., .function j .. => some (i == j)
    | .builtin x, .builtin y => some (x == y)
    | .method i .., .method j .. => some (i == j)
    | _, _ => some false
termination_by (depth, 0)

/-- Whether two sequences of one length are equal item by item. -/
def Store.allEqual? (s : Store) (depth : Nat) (xs ys : List Value) : Option Bool :=
  match xs, ys with
  | x :: xs, y :: ys => do
    if ← s.equalWithin? depth x y then s.allEqual? depth xs ys else some false
  | _, _ => some true
termination_by (depth, xs.length + 1)

/-- Whether every entry occurs in a dictionary with an equal value. -/
def Store.allFound? (s : Store) (depth : Nat) (xs : List (Value × Value)) (y : Dict) :
    Option Bool :=
  match xs with
  | [] => some true
  | (k, v) :: xs => do
    match (y.find? k).join with
    | some w => if ← s.equalWithin? depth v w then s.allFound? depth xs y else some false
    | none => some false
termination_by (depth, xs.length + 1)

end

/-- Whether two values are equal. -/
def Store.equal? (s : Store) (a b : Value) : Option Bool := s.equalWithin? comparisonDepth a b

mutual

/-- The order of two values of an ordered type, looking at most `depth` levels deep. -/
def Store.orderWithin? (s : Store) (depth : Nat) (a b : Value) : Option Ordering :=
  match depth with
  | 0 => none
  | depth + 1 =>
    match a, b with
    | .bool x, .bool y => some (compare x.toNat y.toNat)
    | .int x, .int y => some (compare x y)
    | .float x, .float y => some (Real.compareFloats x y)
    | .int x, .float y => some (Real.compareIntFloat x y)
    | .float x, .int y => some (Real.compareIntFloat y x).swap
    | .string x, .string y => some (orderTexts (unpacked x) (unpacked y))
    | .bytes x, .bytes y => some (orderTexts (unpacked x) (unpacked y))
    | .list i, .list j => s.orderItems? depth (s.items i).toList (s.items j).toList
    | .tuple xs, .tuple ys => s.orderItems? depth xs ys
    | _, _ => none
termination_by (depth, 0)

/-- The order at the first items that differ, or that of the lengths. -/
def Store.orderItems? (s : Store) (depth : Nat) (xs ys : List Value) : Option Ordering :=
  match xs, ys with
  | x :: xs, y :: ys => do
    if ← s.equalWithin? depth x y then s.orderItems? depth xs ys else s.orderWithin? depth x y
  | [], [] => some .eq
  | [], _ => some .lt
  | _, [] => some .gt
termination_by (depth, xs.length + 1)

end

/-- The order of two values. -/
def Store.order? (s : Store) (a b : Value) : Option Ordering := s.orderWithin? comparisonDepth a b

/-- Whether the first value is below the second. -/
def Store.below? (s : Store) (a b : Value) : Option Bool := (s.order? a b).map (· == .lt)

/-- Whether the first value is above the second. -/
def Store.above? (s : Store) (a b : Value) : Option Bool := (s.order? a b).map (· == .gt)

/-! ## Sorting -/

/-- Two sorted lists as one, where the items of the first come before equal ones of the second. -/
def merge? {α : Type} (precedes : α → α → Option Bool) : List α → List α → Option (List α)
  | [], ys => some ys
  | xs, [] => some xs
  | x :: xs, y :: ys => do
    if ← precedes y x then return y :: (← merge? precedes (x :: xs) ys)
    else return x :: (← merge? precedes xs (y :: ys))
termination_by xs ys => xs.length + ys.length

/-- Sorted lists merged two by two. -/
def mergePairs? {α : Type} (precedes : α → α → Option Bool) : List (List α) → Option (List (List α))
  | xs :: ys :: rest => do return (← merge? precedes xs ys) :: (← mergePairs? precedes rest)
  | rest => some rest

/-- Sorted lists merged into one, in at most `rounds` rounds. -/
def mergeAll? {α : Type} (precedes : α → α → Option Bool) : Nat → List (List α) → Option (List α)
  | _, [] => some []
  | _, [xs] => some xs
  | 0, _ => none
  | rounds + 1, xss => do mergeAll? precedes rounds (← mergePairs? precedes xss)

/-- Items sorted by an order that may fail; items that are equal keep their places. -/
def sortBy? {α : Type} (precedes : α → α → Option Bool) (items : List α) : Option (List α) :=
  mergeAll? precedes items.length (items.map ([·]))

end Octet.Formula
