/-!
# Text as bytes

Source files, paths and messages are byte strings: a source may hold bytes that are not UTF-8, and
those pass through unchanged. Text is therefore a list of bytes, and code points are read off it
only where a rule speaks of characters.

* `Text`, `utf8` — bytes, and the bytes of a string literal;
* `firstPoint`, `points` — decoding into code points; a byte that starts no well-formed sequence
  counts as U+FFFD and stands for itself;
* `trim` — text without white space at either end;
* `splitAt`, `le`, `lineFeeds` — cutting at a byte, the bytewise order, and counting lines.
-/

namespace Octet

/-- A byte string. -/
abbrev Text := List UInt8

/-- The UTF-8 bytes of a string. -/
def utf8 (s : String) : Text := s.toUTF8.data.toList

namespace Text

/-- The line feed byte, which ends a line. -/
def lf : UInt8 := '\n'.toUInt8

/-- The carriage return byte. -/
def cr : UInt8 := '\r'.toUInt8

/-- Carriage return and line feed end a line of tokens. -/
def isLineEnd (b : UInt8) : Bool := b == cr || b == lf

/-- ASCII decimal digits. -/
def isDigit (b : UInt8) : Bool := '0'.toUInt8 ≤ b && b ≤ '9'.toUInt8

/-- ASCII letters. -/
def isAsciiLetter (b : UInt8) : Bool :=
  ('a'.toUInt8 ≤ b && b ≤ 'z'.toUInt8) || ('A'.toUInt8 ≤ b && b ≤ 'Z'.toUInt8)

/-- ASCII hexadecimal digits, in either case. -/
def isHexDigit (b : UInt8) : Bool :=
  isDigit b || ('a'.toUInt8 ≤ b && b ≤ 'f'.toUInt8) || ('A'.toUInt8 ≤ b && b ≤ 'F'.toUInt8)

/-- The value of a digit or letter as a digit of a base up to 36. -/
def digitValue? (b : UInt8) : Option Nat :=
  if isDigit b then some (b.toNat - '0'.toNat)
  else if 'a'.toUInt8 ≤ b && b ≤ 'z'.toUInt8 then some (b.toNat - 'a'.toNat + 10)
  else if 'A'.toUInt8 ≤ b && b ≤ 'Z'.toUInt8 then some (b.toNat - 'A'.toNat + 10)
  else none

/-- Reads a numeral with one more digit. -/
def pushDigit? (base : Nat) (n : Nat) (b : UInt8) : Option Nat :=
  match digitValue? b with
  | some d => if d < base then some (n * base + d) else none
  | none => none

/-- The value of a non-empty string of digits of `base`. -/
def natOfDigits? (base : Nat) : Text → Option Nat
  | [] => none
  | ds => ds.foldlM (pushDigit? base) 0

/-- ASCII letters in upper case, all other bytes unchanged. -/
def upper (t : Text) : Text :=
  t.map fun b => if 'a'.toUInt8 ≤ b && b ≤ 'z'.toUInt8 then b - 32 else b

/-! ## Code points -/

/-- The code point that stands for a byte outside every well-formed sequence. -/
def replacement : Nat := 0xFFFD

/-- The low six bits of a continuation byte in the range `lo` to `hi`. -/
def tail? (lo hi : UInt8) (b : UInt8) : Option Nat :=
  if lo ≤ b && b ≤ hi then some (b.toNat % 64) else none

/-- A two byte sequence. -/
def point2? (b₀ : UInt8) : Text → Option Nat
  | b₁ :: _ => do
    let t₁ ← tail? 0x80 0xBF b₁
    some (b₀.toNat % 32 * 64 + t₁)
  | _ => none

/-- A three byte sequence; the range of its second byte keeps out overlong forms and surrogates. -/
def point3? (b₀ : UInt8) : Text → Option Nat
  | b₁ :: b₂ :: _ => do
    let t₁ ← tail? (if b₀ == 0xE0 then 0xA0 else 0x80) (if b₀ == 0xED then 0x9F else 0xBF) b₁
    let t₂ ← tail? 0x80 0xBF b₂
    some (b₀.toNat % 16 * 4096 + t₁ * 64 + t₂)
  | _ => none

/-- A four byte sequence; the range of its second byte keeps the value within U+10FFFF. -/
def point4? (b₀ : UInt8) : Text → Option Nat
  | b₁ :: b₂ :: b₃ :: _ => do
    let t₁ ← tail? (if b₀ == 0xF0 then 0x90 else 0x80) (if b₀ == 0xF4 then 0x8F else 0xBF) b₁
    let t₂ ← tail? 0x80 0xBF b₂
    let t₃ ← tail? 0x80 0xBF b₃
    some (b₀.toNat % 8 * 262144 + t₁ * 4096 + t₂ * 64 + t₃)
  | _ => none

/-- The code point that `b₀` starts, with the number of bytes that follow `b₀` in it. -/
def leadPoint? (b₀ : UInt8) (rest : Text) : Option (Nat × Nat) :=
  if b₀ < 0x80 then some (b₀.toNat, 0)
  else if 0xC2 ≤ b₀ && b₀ ≤ 0xDF then (point2? b₀ rest).map (·, 1)
  else if 0xE0 ≤ b₀ && b₀ ≤ 0xEF then (point3? b₀ rest).map (·, 2)
  else if 0xF0 ≤ b₀ && b₀ ≤ 0xF4 then (point4? b₀ rest).map (·, 3)
  else none

/-- A code point with its bytes; `none` marks a byte outside every well-formed sequence. -/
structure Point where
  code : Option Nat
  bytes : Text
  deriving DecidableEq, Repr

/-- The first code point of non-empty text, given as its first byte and the rest. -/
def firstPoint (b₀ : UInt8) (rest : Text) : Point :=
  match leadPoint? b₀ rest with
  | some (c, n) => ⟨some c, b₀ :: rest.take n⟩
  | none => ⟨none, [b₀]⟩

/-- What follows the first code point. -/
def afterPoint (b₀ : UInt8) (rest : Text) : Text :=
  match leadPoint? b₀ rest with
  | some (_, n) => rest.drop n
  | none => rest

theorem afterPoint_length_le (b₀ : UInt8) (rest : Text) :
    (afterPoint b₀ rest).length ≤ rest.length := by
  unfold afterPoint
  split
  · simp
  · exact Nat.le_refl _

/-- All code points of a text, in order. -/
def points : Text → List Point
  | [] => []
  | b :: rest => firstPoint b rest :: points (afterPoint b rest)
termination_by t => t.length
decreasing_by
  exact Nat.lt_succ_of_le (afterPoint_length_le b rest)

/-- The UTF-8 bytes of a code point; what is no character becomes the replacement character. -/
def ofPoint (code : Nat) : Text :=
  utf8 (String.singleton (Char.ofNat (if code.isValidChar then code else replacement)))

/-- Text that is well-formed UTF-8. -/
def isUtf8 (t : Text) : Bool := (points t).all (·.code.isSome)

/-! ## White space -/

/-- The white space characters of Unicode. -/
def isSpace (code : Nat) : Bool :=
  (9 ≤ code && code ≤ 13) || code == 0x20 || code == 0x85 || code == 0xA0 || code == 0x1680 ||
    (0x2000 ≤ code && code ≤ 0x200A) || code == 0x2028 || code == 0x2029 || code == 0x202F ||
    code == 0x205F || code == 0x3000

/-- A code point that is white space. -/
def Point.isSpace (p : Point) : Bool := p.code.any Text.isSpace

/-- Text without the white space at its ends. -/
def trim (t : Text) : Text :=
  ((((points t).dropWhile Point.isSpace).reverse.dropWhile Point.isSpace).reverse).flatMap (·.bytes)

/-! ## Cutting and ordering -/

/-- The pieces between the occurrences of a byte; there is always at least one. -/
def splitAt (sep : UInt8) : Text → List Text
  | [] => [[]]
  | b :: rest =>
    if b == sep then [] :: splitAt sep rest
    else match splitAt sep rest with
      | [] => [[b]]
      | piece :: pieces => (b :: piece) :: pieces

/-- Bytewise order. -/
def le : Text → Text → Bool
  | [], _ => true
  | _ :: _, [] => false
  | a :: as, b :: bs => if a < b then true else if b < a then false else le as bs

/-- The number of line feeds. -/
def lineFeeds (t : Text) : Nat := t.count lf

/-- Text padded on the right with blanks to `width` characters. -/
def padRight (width : Nat) (t : Text) : Text :=
  t ++ List.replicate (width - (points t).length) ' '.toUInt8

/-- Text padded on the left with blanks to `width` characters. -/
def padLeft (width : Nat) (t : Text) : Text :=
  List.replicate (width - (points t).length) ' '.toUInt8 ++ t

end Text

end Octet
