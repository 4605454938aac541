import Octet.Text.Case

/-!
# Searching and cutting text

Occurrences of one text in another, and the pieces that are left when a text is cut at them or at
white space.

* `indexOf?`, `lastIndexOf?`, `occurrences` — where and how often a text occurs;
* `cut`, `cutLast` — the pieces around a separator, with at most a given number of cuts;
* `words`, `lastWords` — the pieces between white space;
* `replace`, `strip` — replacing occurrences, and taking characters off the ends.
-/

namespace Octet.Text

/-- The bytes of some code points. -/
def ofPoints (ps : List Point) : Text := ps.flatMap (·.bytes)

/-- The place of the first occurrence of `part`, counted from `place`. -/
def indexFrom? (part : Text) (place : Nat) : Text → Option Nat
  | [] => if part.isEmpty then some place else none
  | b :: rest =>
    if part.isPrefixOf (b :: rest) then some place else indexFrom? part (place + 1) rest

/-- The place of the first occurrence of `part`. -/
def indexOf? (part t : Text) : Option Nat := indexFrom? part 0 t

/-- The place of the last occurrence of `part`. -/
def lastIndexOf? (part t : Text) : Option Nat :=
  (indexOf? part.reverse t.reverse).map fun i => t.length - part.length - i

/-- The pieces around the first `most` occurrences of a separator that is not empty. -/
def cut (sep : Text) : Nat → Text → List Text
  | 0, t => [t]
  | most + 1, t =>
    match indexOf? sep t with
    | some i => t.take i :: cut sep most (t.drop (i + sep.length))
    | none => [t]

/-- The pieces around all occurrences of a separator that is not empty. -/
def cutAll (sep t : Text) : List Text := cut sep t.length t

/-- The pieces around the last `most` of the occurrences that are found from the start. -/
def cutLast (sep : Text) (most : Nat) (t : Text) : List Text :=
  let pieces := cutAll sep t
  let excess := pieces.length - most
  if excess = 0 then pieces else sep.intercalate (pieces.take excess) :: pieces.drop excess

/-- How often a text occurs without overlap. The empty text occurs around every character. -/
def occurrences (part t : Text) : Nat :=
  if part.isEmpty then (points t).length + 1 else (cutAll part t).length - 1

/-- The first `most` words and, as one piece, what starts with the next one. -/
def wordsOf (most : Nat) (ps : List Point) : List (List Point) :=
  match ps.dropWhile Point.isSpace with
  | [] => []
  | start =>
    match most with
    | 0 => [start]
    | most + 1 =>
      let word := start.takeWhile fun p => !p.isSpace
      word :: wordsOf most (start.drop word.length)

/-- The first `most` words of a text and, as one piece, what starts with the next one. -/
def words (most : Nat) (t : Text) : List Text := (wordsOf most (points t)).map ofPoints

/-- The last `most` words of a text and, as the first piece, what ends with the word before. -/
def lastWords (most : Nat) (t : Text) : List Text :=
  ((wordsOf most (points t).reverse).map fun ps => ofPoints ps.reverse).reverse

/-- The points of a text with `new` before the first `most` of them, and at the end if more than all
are wanted. -/
def interspersed (new : Text) : Nat → List Point → Text
  | 0, ps => ofPoints ps
  | _ + 1, [] => new
  | most + 1, p :: ps => new ++ p.bytes ++ interspersed new most ps

/-- The text with the first `most` occurrences of `old` replaced. -/
def replace (old new : Text) (most : Nat) (t : Text) : Text :=
  if old.isEmpty then interspersed new most (points t) else new.intercalate (cut old most t)

/-- Whether a character is among those of a text. -/
def Point.isAmong (chars : Text) (p : Point) : Bool :=
  (codes chars).contains (p.code.getD replacement)

/-- The text without the characters at its start that satisfy a condition. -/
def stripStart (p : Point → Bool) (t : Text) : Text := ofPoints ((points t).dropWhile p)

/-- The text without the characters at its end that satisfy a condition. -/
def stripEnd (p : Point → Bool) (t : Text) : Text :=
  ofPoints ((points t).reverse.dropWhile p).reverse

/-- Whether a text ends with another. -/
def endsWith (t part : Text) : Bool := part.reverse.isPrefixOf t.reverse

/-- A text with the replacement character for every byte that is part of no character. -/
def repaired (t : Text) : Text := ofCodes (codes t)

end Octet.Text
