import Octet.Text.Numeral

/-!
# Comma separated records

A record is a line of fields separated by commas. A field may be enclosed in quotes; it may then
hold commas, line ends, and quotes written twice. Reference model of the records that are read for
the `define` flag.
-/

namespace Octet.Record

/-- The quote around a field. -/
def quoteMark : UInt8 := 0x22

/-- The separator of fields. -/
def comma : UInt8 := ','.toUInt8

/-- The lines of a text, each with its line feed. A carriage return before a line feed or the end is
dropped. -/
def linesOf (t : Text) : List Text :=
  let pieces := Text.splitAt Text.lf t
  let uncarried (l : Text) : Text := if l.getLast? = some Text.cr then l.dropLast else l
  let ended := pieces.dropLast.map fun l => uncarried l ++ [Text.lf]
  let last := pieces.getLast?.getD []
  if last.isEmpty then ended else ended ++ [uncarried last]

/-- A place in a record: the line on which the record starts, and the line and column reached. -/
structure Cursor where
  first : Nat
  line : Nat
  column : Nat

/-- The wording of a fault at a place. -/
def Cursor.complain (c : Cursor) (reason : String) : Text :=
  let start :=
    if c.first = c.line then [] else utf8 "record on line " ++ Text.decimal c.first ++ utf8 "; "
  start ++ utf8 "parse error on line " ++ Text.decimal c.line ++ utf8 ", column " ++
    Text.decimal c.column ++ utf8 ": " ++ utf8 reason

/-- Moves a place on within its line. -/
def Cursor.advance (c : Cursor) (n : Nat) : Cursor := { c with column := c.column + n }

/-- A line without its line feed. -/
def unended (l : Text) : Text := if l.getLast? = some Text.lf then l.dropLast else l

/-- Reads fields after those found so far. `inside` is what was read of a quoted field that is still
open, `line` the rest of the current line and `later` the lines after it. -/
def readFields (steps : Nat) (c : Cursor) (inside : Option Text) (line : Text) (later : List Text)
    (found : Array Text) : Except Text (List Text) :=
  match steps with
  | 0 => .ok found.toList
  | steps + 1 =>
    match inside with
    | none =>
      if line.head? = some quoteMark then
        readFields steps (c.advance 1) (some []) line.tail later found
      else
        let field := line.takeWhile (· != comma)
        let plain := if field.length < line.length then field else unended field
        match plain.findIdx? (· == quoteMark) with
        | some i => .error ((c.advance i).complain "bare \" in non-quoted-field")
        | none =>
          let found := found.push plain
          if field.length < line.length then
            readFields steps (c.advance (field.length + 1)) none (line.drop (field.length + 1))
              later found
          else .ok found.toList
    | some before =>
      match line.findIdx? (· == quoteMark) with
      | some i =>
        let field := before ++ line.take i
        let rest := line.drop (i + 1)
        let c := c.advance (i + 1)
        if rest.head? = some quoteMark then
          readFields steps (c.advance 1) (some (field ++ [quoteMark])) rest.tail later found
        else if rest.head? = some comma then
          readFields steps (c.advance 1) none rest.tail later (found.push field)
        else if (unended rest).isEmpty then .ok (found.push field).toList
        else
          .error ({ c with column := c.column - 1 }.complain
            "extraneous or missing \" in quoted-field")
      | none =>
        if line.isEmpty then .error (c.complain "extraneous or missing \" in quoted-field")
        else
          match later with
          | [] => readFields steps (c.advance line.length) (some (before ++ line)) [] [] found
          | next :: later =>
            readFields steps { c with line := c.line + 1, column := 1 } (some (before ++ line)) next
              later found

/-- The fields of the first record of a text. Empty lines before it are passed over. -/
def read (t : Text) : Except Text (List Text) :=
  let lines := linesOf t
  let blank := lines.takeWhile (· == [Text.lf])
  let number := blank.length + 1
  match lines.drop blank.length with
  | [] => .error (utf8 "EOF")
  | line :: later =>
    readFields (t.length + lines.length + 2) ⟨number, number, 1⟩ none line later #[]

end Octet.Record
