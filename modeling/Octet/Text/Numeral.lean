import Octet.Text.Basic

/-!
# Numerals in output

Messages group the digits of a number by commas, listings and logs do not, and addresses are written
in hexadecimal with a least number of digits. Reference model of the numbers in messages (`From`),
listings and logs.
-/

namespace Octet.Text

/-- The digits of a number in a base up to 16. -/
def digits (base n : Nat) : Text := (Nat.toDigits base n).map Char.toUInt8

/-- A sign for negative numbers, then the magnitude as `write` gives it. -/
def signed (write : Nat → Text) (n : Int) : Text :=
  if n < 0 then '-'.toUInt8 :: write n.natAbs else write n.natAbs

/-- Plain decimal. -/
def decimal (n : Int) : Text := signed (digits 10) n

/-- A comma after every third digit, for digits given from the last to the first. -/
def groupReversed : Text → Text
  | a :: b :: c :: d :: rest => a :: b :: c :: ','.toUInt8 :: groupReversed (d :: rest)
  | ds => ds

/-- Decimal with a comma between groups of three digits. -/
def grouped (n : Int) : Text := signed (fun m => (groupReversed (digits 10 m).reverse).reverse) n

/-- Hexadecimal with at least `width` digits. -/
def hex (width n : Nat) : Text :=
  let ds := digits 16 n
  List.replicate (width - ds.length) '0'.toUInt8 ++ ds

/-- Hexadecimal with a sign for negative numbers, at least `width` bytes together. -/
def signedHex (width : Nat) (n : Int) : Text := signed (hex (if n < 0 then width - 1 else width)) n

/-- Hexadecimal after `0x`, with at least `width` digits. -/
def hexMarked (width n : Nat) : Text := utf8 "0x" ++ hex width n

end Octet.Text
