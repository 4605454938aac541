import Octet.Text.Basic

/-!
# Lines of a source

Faults name a line by its number, which counts line feeds, and quote the line's text. Offsets past
the end stand for the end.
-/

namespace Octet.Source

/-- The number of the line that holds an offset, counted from one. Reference model of `LineOf`. -/
def lineOf (source : Text) (offset : Nat) : Nat := Text.lineFeeds (source.take offset) + 1

/-- Where the line that holds an offset starts: after the last line feed before it. -/
def lineStart (source : Text) (offset : Nat) : Nat :=
  let before := source.take offset
  before.length - (before.reverse.takeWhile (· != Text.lf)).length

/-- The text of the line that holds an offset, up to the first carriage return or line feed,
trimmed. Reference model of `lineAt`. -/
def lineAt (source : Text) (offset : Nat) : Text :=
  Text.trim ((source.drop (lineStart source offset)).takeWhile fun b => !Text.isLineEnd b)

end Octet.Source
