/-!
# Bounded stacks

A stack that refuses to grow beyond its limit. A limit that is not positive stands for the default
one. Reference model of `Stack` with `Push`, `Pop`, `Peek`, `Top`, `Empty`, `Full` and `Len`.
-/

namespace Octet

/-- A stack with a limit on its depth. -/
structure Stack (α : Type) where
  limit : Int
  /-- The values, the top first. -/
  items : List α
  deriving DecidableEq, Repr

namespace Stack

variable {α : Type}

/-- The depth of a stack whose limit is not given. -/
def defaultCapacity : Nat := 256

/-- The depth that a limit allows. -/
def capacityOf (limit : Int) : Nat := if limit ≤ 0 then defaultCapacity else limit.toNat

/-- The greatest depth to which values can be pushed. -/
def capacity (s : Stack α) : Nat := capacityOf s.limit

/-- An empty stack. -/
def empty (limit : Int) : Stack α := ⟨limit, []⟩

/-- The number of values. -/
def size (s : Stack α) : Nat := s.items.length

/-- Whether there is no value. -/
def isEmpty (s : Stack α) : Bool := s.items.isEmpty

/-- Whether no value can be pushed. -/
def isFull (s : Stack α) : Bool := s.capacity ≤ s.size

/-- The value on top. -/
def top? (s : Stack α) : Option α := s.items.head?

/-- Pushes a value, unless the stack is full. -/
def push? (s : Stack α) (x : α) : Option (Stack α) :=
  if s.isFull then none else some { s with items := x :: s.items }

/-- Takes the top value off. -/
def pop? (s : Stack α) : Option (α × Stack α) :=
  match s.items with
  | [] => none
  | x :: rest => some (x, { s with items := rest })

/-- Replaces the top value. -/
def replaceTop? (s : Stack α) (x : α) : Option (Stack α) :=
  match s.items with
  | [] => none
  | _ :: rest => some { s with items := x :: rest }

theorem capacityOf_pos (limit : Int) : 0 < capacityOf limit := by
  unfold capacityOf defaultCapacity
  split <;> omega

end Stack

end Octet
