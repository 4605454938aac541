import Octet.Text.Case

/-!
# Suggestions for mistyped names

A name is suggested for another one if few letters have to be changed, added or dropped, or if it
continues what was typed. Upper and lower case do not matter. Reference model of the suggestions for
a command that does not exist.
-/

namespace Octet

/-- The next row of a table of distances: `row` holds the distances of the first text to the starts
of the second, and the result those of the first text with one more byte. -/
def nextDistances (b : UInt8) : Nat → List Nat → Text → List Nat
  | left, diagonal :: up :: row, c :: cs =>
    let d := if b == c then diagonal else 1 + min diagonal (min up left)
    d :: nextDistances b d (up :: row) cs
  | _, _, _ => []

/-- The least number of changes, additions and removals of bytes that lead from one text to
another. -/
def editDistance (s t : Text) : Nat :=
  let first := List.range (t.length + 1)
  let last := s.foldl (fun row b =>
    let left := row.headD 0 + 1
    left :: nextDistances b left row t) first
  last.getLastD 0

/-- The most changes after which a name is still suggested. -/
def suggestionDistance : Nat := 2

/-- Whether a name is suggested for what was typed. -/
def isSuggested (typed name : Text) : Bool :=
  let typed := Text.toLower typed
  let name := Text.toLower name
  editDistance typed name ≤ suggestionDistance || typed.isPrefixOf name

end Octet
