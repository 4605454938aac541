import Octet.Formula.Key
import Std.Data.HashMap

/-!
# The store of a script

Lists, dictionaries and the variables of functions change while a script runs. They live in a store,
and values refer to them by number. While something is iterated it cannot change. Part of the
reference model of `evaluate`.

* `Dict` — entries in the order in which their keys came;
* `Store`, `Run` — the store, and computations that change it and may fail;
* `Series` — what is left of an iteration.
-/

namespace Octet.Formula

/-! ## Lists and dictionaries -/

/-- A list. -/
structure Sequence where
  items : Array Value := #[]
  /-- The number of iterations over it. -/
  pins : Nat := 0
  deriving Inhabited

/-- A dictionary. -/
structure Dict where
  /-- The entries in the order in which their keys came, with gaps where some were taken out. -/
  entries : Array (Option (Value × Value)) := #[]
  /-- The place of the first entry; if there is none, that of the next one to come. -/
  start : Nat := 0
  /-- The keys with their places, by digest. -/
  places : Std.HashMap UInt32 (List (Key × Nat)) := {}
  /-- The number of entries. -/
  size : Nat := 0
  /-- Whether something has ever been put in. -/
  used : Bool := false
  /-- The number of iterations over it. -/
  pins : Nat := 0
  deriving Inhabited

/-- The place that a list of keys gives to a key, if it does. A key before it that cannot be
compared with it makes this fail. -/
def Key.place? (key : Key) : List (Key × Nat) → Option (Option Nat)
  | [] => some Option.none
  | (other, i) :: rest =>
    do if ← key.equal? comparisonDepth other then some (some i) else key.place? rest

namespace Dict

/-- The entries without the gaps. -/
def toList (d : Dict) : List (Value × Value) := d.entries.toList.filterMap id

/-- The first place from `i` on that is no gap. -/
def skipGaps (entries : Array (Option (Value × Value))) (i : Nat) : Nat :=
  if h : i < entries.size then
    match entries[i] with
    | none => skipGaps entries (i + 1)
    | some _ => i
  else i
termination_by entries.size - i

/-- The keys of one digest, with their places. -/
def keysOf (d : Dict) (digest : UInt32) : List (Key × Nat) := d.places.getD digest []

/-- The place of a key, if there is one. Only keys of one digest are compared, so looking for a key
that has more levels than comparison looks at fails if another one has its digest. -/
def place? (d : Dict) (key : Key) : Option (Option Nat) := key.place? (d.keysOf key.slot)

/-- The entry at a place. -/
def entry? (d : Dict) (i : Nat) : Option (Value × Value) := (d.entries[i]?).join

/-- The first entry. -/
def first? (d : Dict) : Option (Value × Value) := d.entry? d.start

/-- The value of a key, if there is one. Looking for a value that cannot be a key fails. -/
def find? (d : Dict) (k : Value) : Option (Option Value) := do
  return (← d.place? (← k.key?)).bind fun i => (d.entry? i).map (·.2)

/-- Sets the value of a key. A new key comes last. -/
def insert? (d : Dict) (k v : Value) : Option Dict := do
  let key ← k.key?
  match ← d.place? key with
  | some i => some { d with entries := d.entries.modify i fun e => e.map fun (k', _) => (k', v) }
  | none =>
    let i := d.entries.size
    let keys := d.keysOf key.slot
    some { d with
      entries := d.entries.push (some (k, v))
      places := d.places.insert key.slot ((key, i) :: keys)
      size := d.size + 1
      used := true }

/-- Takes a key out. -/
def erase? (d : Dict) (k : Value) : Option Dict := do
  let key ← k.key?
  match ← d.place? key with
  | some i =>
    let keys := (d.keysOf key.slot).filter (·.2 != i)
    let entries := d.entries.setIfInBounds i none
    some { d with
      entries
      start := if i = d.start then skipGaps entries i else d.start
      places := d.places.insert key.slot keys
      size := d.size - 1 }
  | none => some d

/-- The dictionary without entries. -/
def cleared (d : Dict) : Dict := { d with entries := #[], start := 0, places := {}, size := 0 }

/-- Puts entries in one by one, up to the first that cannot be. -/
def insertAll (d : Dict) : List (Value × Value) → Dict
  | [] => d
  | (k, v) :: rest =>
    match d.insert? k v with
    | some d => d.insertAll rest
    | none => d

end Dict

/-! ## The store -/

/-- The store of a script. -/
structure Store where
  /-- The variables of the functions that were called, of which some may not be assigned yet. -/
  frames : Array (Array (Option Value)) := #[]
  lists : Array Sequence := #[]
  dicts : Array Dict := #[]
  /-- The number of identities given out. -/
  identities : Nat := 0
  deriving Inhabited

/-- The items of a list. -/
def Store.items (s : Store) (number : Nat) : Array Value := (s.lists[number]?.getD {}).items

/-- A dictionary. -/
def Store.dict (s : Store) (number : Nat) : Dict := s.dicts[number]?.getD {}

/-- A computation that uses the store and may fail. -/
abbrev Run := StateT Store Option

namespace Run

/-- A new list. -/
def newList (items : Array Value) : Run Value :=
  modifyGet fun s => (.list s.lists.size, { s with lists := s.lists.push { items } })

/-- A new dictionary. -/
def newDict (d : Dict) : Run Value :=
  modifyGet fun s => (.dict s.dicts.size, { s with dicts := s.dicts.push d })

/-- A new identity. -/
def newIdentity : Run Nat :=
  modifyGet fun s => (s.identities, { s with identities := s.identities + 1 })

/-- The items of a list. -/
def items (number : Nat) : Run (Array Value) := do return (← get).items number

/-- A dictionary. -/
def dict (number : Nat) : Run Dict := do return (← get).dict number

/-- Fails if a list is being iterated. -/
def checkList (number : Nat) : Run Unit := do
  if ((← get).lists[number]?.getD {}).pins ≠ 0 then failure

/-- Fails if a dictionary is being iterated. -/
def checkDict (number : Nat) : Run Unit := do
  if ((← get).dict number).pins ≠ 0 then failure

/-- Changes the items of a list, which must not be iterated. -/
def changeList (number : Nat) (f : Array Value → Array Value) : Run Unit := do
  checkList number
  modify fun s => { s with lists := s.lists.modify number fun l => { l with items := f l.items } }

/-- Replaces a dictionary, which must not be iterated, and takes it out of the store in between. -/
def changeDict (number : Nat) (f : Dict → Option Dict) : Run Unit := do
  checkDict number
  let d ← modifyGet fun s => (s.dict number, { s with dicts := s.dicts.setIfInBounds number {} })
  let d ← (f d : Option Dict)
  modify fun s => { s with dicts := s.dicts.setIfInBounds number d }

/-- Keeps a list or a dictionary from changing. -/
def pin : Value → Run Unit
  | .list i =>
    modify fun s => { s with lists := s.lists.modify i fun l => { l with pins := l.pins + 1 } }
  | .dict i =>
    modify fun s => { s with dicts := s.dicts.modify i fun d => { d with pins := d.pins + 1 } }
  | _ => pure ()

/-- Takes back what `pin` does. -/
def unpin : Value → Run Unit
  | .list i =>
    modify fun s => { s with lists := s.lists.modify i fun l => { l with pins := l.pins - 1 } }
  | .dict i =>
    modify fun s => { s with dicts := s.dicts.modify i fun d => { d with pins := d.pins - 1 } }
  | _ => pure ()

/-- Variables for a function that is called, by their number. -/
def newFrame (slots : Array (Option Value)) : Run Nat :=
  modifyGet fun s => (s.frames.size, { s with frames := s.frames.push slots })

/-- The value of a variable, which must be assigned. -/
def read (frame slot : Nat) : Run Value := do
  match (← get).frames[frame]?.bind (·[slot]?) with
  | some (some v) => return v
  | _ => failure

/-- Assigns a variable. -/
def write (frame slot : Nat) (v : Value) : Run Unit :=
  modify fun s => { s with frames := s.frames.modify frame fun f => f.setIfInBounds slot (some v) }

end Run

/-! ## Iteration -/

/-- What is left of an iteration. -/
inductive Series where
  | items (vs : List Value)
  /-- The numbers `next`, `next + step`, …, `left` of them. -/
  | numbers (next step : Int) (left : Nat)

namespace Series

/-- Goes through numbers until `f` tells to stop. -/
def walkNumbers {α : Type} (step : Int) (f : α → Value → Run (α × Bool)) : Nat → Int → α → Run α
  | 0, _, a => pure a
  | left + 1, next, a => do
    let (a, goesOn) ← f a (.int next)
    if goesOn then walkNumbers step f left (wrapped (next + step)) a else pure a

/-- Goes through values until `f` tells to stop. -/
def walkItems {α : Type} (f : α → Value → Run (α × Bool)) : List Value → α → Run α
  | [], a => pure a
  | v :: vs, a => do
    let (a, goesOn) ← f a v
    if goesOn then walkItems f vs a else pure a

/-- Goes through what is left until `f` tells to stop. -/
def walk {α : Type} (f : α → Value → Run (α × Bool)) (a : α) : Series → Run α
  | items vs => walkItems f vs a
  | numbers next step left => walkNumbers step f left next a

/-- Goes through all that is left. -/
def foldM {α : Type} (f : α → Value → Run α) (a : α) (s : Series) : Run α :=
  s.walk (fun a v => do return (← f a v, true)) a

/-- At most the first `count` values. -/
def take (count : Nat) : Series → List Value
  | items vs => vs.take count
  | numbers next step left =>
    (List.range (min count left)).map fun (i : Nat) => .int (wrapped (next + step * i))

/-- All values. -/
def toList : Series → List Value
  | items vs => vs
  | numbers next step left => (numbers next step left).take left

end Series

/-- What an iteration over a value goes through; a string cannot be iterated. -/
def Store.series? (s : Store) : Value → Option Series
  | .list i => some (.items (s.items i).toList)
  | .dict i => some (.items ((s.dict i).toList.map (·.1)))
  | .tuple items => some (.items items)
  | .range r => some (.numbers r.start r.step r.size.toNat)
  | .elems t asNumbers =>
    some (.items (t.map fun b => if asNumbers then .int b.toNat else .ofText [b]))
  | .codepoints t asNumbers =>
    some (.items ((Text.codes t).map fun (c : Nat) => if asNumbers then
      .int c else .ofText (Text.ofPoint c)))
  | .byteElems t => some (.items (t.map fun b => .int b.toNat))
  | _ => none

/-- The length of a value that has one. -/
def Store.length? (s : Store) : Value → Option Int
  | .string b => some b.size
  | .bytes b => some b.size
  | .list i => some (s.items i).size
  | .dict i => some (s.dict i).size
  | .tuple items => some items.length
  | .range r => some r.size
  | .elems t _ => some t.length
  | _ => none

/-- Whether a value counts as true. -/
def Store.truth (s : Store) : Value → Bool
  | .none => false
  | .bool b => b
  | .int n => n != 0
  | .float f => f != 0
  | .string b => b.size != 0
  | .bytes b => b.size != 0
  | .list i => !(s.items i).isEmpty
  | .tuple items => !items.isEmpty
  | .dict i => (s.dict i).size != 0
  | .range r => 0 < r.size
  | _ => true

/-- Whether a value counts as true. -/
def Run.truth (v : Value) : Run Bool := do return (← get).truth v

/-- What an iteration over a value goes through. -/
def Run.series (v : Value) : Run Series := do (← get).series? v

/-- All values that an iteration goes through. -/
def Run.listOf (v : Value) : Run (List Value) := do return (← Run.series v).toList

end Octet.Formula
