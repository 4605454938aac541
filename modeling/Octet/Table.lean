import Octet.Text.Basic

/-!
# Tables by name

A table maps names to values and keeps one entry for a name. Output lists tables by name, so the
order of the entries is never shown.
-/

namespace Octet

/-- Values by name. -/
abbrev Table (α : Type) := List (Text × α)

namespace Table

variable {α : Type}

/-- The value of a name. -/
def find? (t : Table α) (name : Text) : Option α := t.lookup name

/-- Sets the value of a name, in place if the name is present. -/
def insert (t : Table α) (name : Text) (value : α) : Table α :=
  match t with
  | [] => [(name, value)]
  | (n, v) :: rest => if n == name then (name, value) :: rest else (n, v) :: insert rest name value

/-- Sets several values in order, so that the last value of a name counts. -/
def insertAll (t : Table α) (entries : List (Text × α)) : Table α :=
  entries.foldl (fun acc e => insert acc e.1 e.2) t

/-- The names, sorted. -/
def sortedNames (t : Table α) : List Text := (t.map (·.1)).mergeSort Text.le

end Table

end Octet
