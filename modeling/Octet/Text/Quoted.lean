import Octet.Text.Numeral
import Octet.Text.Printable

/-!
# Quoted text

Log lines and messages quote paths and flag values: a quote and a backslash are escaped, control
characters have their short escapes, other characters that cannot be printed are written by number,
and a byte outside every well-formed sequence is written as `\xhh`.
-/

namespace Octet.Text

/-- The letter of a short escape. -/
def shortEscape? (code : Nat) : Option Char :=
  match code with
  | 7 => some 'a'
  | 8 => some 'b'
  | 9 => some 't'
  | 10 => some 'n'
  | 11 => some 'v'
  | 12 => some 'f'
  | 13 => some 'r'
  | _ => none

/-- A code point between quotes of the kind `mark`. -/
def quotePoint (mark : Char) (code : Nat) : Text :=
  if code == mark.toNat || code == '\\'.toNat then '\\'.toUInt8 :: ofPoint code
  else if isPrintable code then ofPoint code
  else match shortEscape? code with
    | some c => ['\\'.toUInt8, c.toUInt8]
    | none =>
      if code < 0x20 || code == 0x7F then utf8 "\\x" ++ hex 2 code
      else if code < 0x10000 then utf8 "\\u" ++ hex 4 code
      else utf8 "\\U" ++ hex 8 code

/-- One element of quoted text. -/
def Point.quote (mark : Char) (p : Point) : Text :=
  match p.code with
  | some code => quotePoint mark code
  | none => p.bytes.flatMap fun b => utf8 "\\x" ++ hex 2 b.toNat

/-- Text in double quotes. -/
def quote (t : Text) : Text :=
  '"'.toUInt8 :: (points t).flatMap (Point.quote '"') ++ ['"'.toUInt8]

/-- A character in single quotes. -/
def quoteChar (code : Nat) : Text :=
  '\''.toUInt8 :: quotePoint '\'' code ++ ['\''.toUInt8]

end Octet.Text
