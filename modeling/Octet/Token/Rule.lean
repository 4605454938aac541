import Octet.Catalog
import Octet.Register
import Octet.Token.Basic

/-!
# Lexical rules

A rule is a lexical class together with a function that says how many bytes of the remaining input
the class takes; zero means that it does not match. The rules are ordered, and the first that
matches wins.

Names of registers and mnemonics match only up to a word boundary, so `r10` and `movx` are words.
Word bytes are ASCII letters, digits and the underscore; every other byte, also one beyond ASCII, is
a boundary. Reference model of the `tokenMatcher` rules, with `matchRegexp` and `matchExpression`.
-/

namespace Octet.Token

/-- Bytes that start a word. -/
def isWordStart (b : UInt8) : Bool := Text.isAsciiLetter b || b == '_'.toUInt8

/-- Bytes of a word. -/
def isWordByte (b : UInt8) : Bool := isWordStart b || Text.isDigit b

/-- Whether what follows a word byte ends the word. -/
def atBoundary : Text → Bool
  | [] => true
  | b :: _ => !isWordByte b

/-- The first of the given names that stands at the start, up to a boundary. -/
def nameLength (names : List Text) (input : Text) : Nat :=
  match names.find? fun name => name.isPrefixOf input && atBoundary (input.drop name.length) with
  | some name => name.length
  | none => 0

/-- A word: letters, digits and underscores, not starting with a digit. -/
def wordLength : Text → Nat
  | [] => 0
  | b :: rest => if isWordStart b then (rest.takeWhile isWordByte).length + 1 else 0

/-- A word after a mark. -/
def markedWordLength (mark : Char) : Text → Nat
  | [] => 0
  | b :: rest =>
    if b == mark.toUInt8 then
      match wordLength rest with
      | 0 => 0
      | n + 1 => n + 2
    else 0

/-- A macro parameter: a percent sign, the letter of its kind and its number. -/
def paramLength (letter : Char) : Text → Nat
  | b :: c :: rest =>
    if b == '%'.toUInt8 && c == letter.toUInt8 then
      match (rest.takeWhile Text.isDigit).length with
      | 0 => 0
      | n + 1 => n + 3
    else 0
  | _ => 0

/-- The quote around strings. -/
def quoteMark : UInt8 := 0x22

/-- A string between quotes on one line. -/
def stringLength : Text → Nat
  | [] => 0
  | b :: rest =>
    if b == quoteMark then
      let body := rest.takeWhile fun c => c != quoteMark && !Text.isLineEnd c
      match rest.drop body.length with
      | c :: _ => if c == quoteMark then body.length + 2 else 0
      | [] => 0
    else 0

/-- A single byte. -/
def byteLength (mark : Char) : Text → Nat
  | [] => 0
  | b :: _ => if b == mark.toUInt8 then 1 else 0

/-- The longest run of bytes of a class. -/
def runLength (p : UInt8 → Bool) (input : Text) : Nat := (input.takeWhile p).length

/-- Digits of a class, then a suffix, up to a boundary. -/
def digitsLength (isDigit : UInt8 → Bool) (suffix : Text) (input : Text) : Nat :=
  match runLength isDigit input with
  | 0 => 0
  | n + 1 =>
    let rest := input.drop (n + 1)
    if suffix.isPrefixOf rest && atBoundary (rest.drop suffix.length) then n + 1 + suffix.length
    else 0

/-- Binary digits. -/
def isBinaryDigit (b : UInt8) : Bool := b == '0'.toUInt8 || b == '1'.toUInt8

/-- A numeral: hexadecimal digits and `h`, binary digits and `b`, or decimal digits. -/
def numeralLength : Text → Nat
  | [] => 0
  | b :: rest =>
    if b == '#'.toUInt8 then
      match digitsLength Text.isHexDigit (utf8 "h") rest with
      | n + 1 => n + 2
      | 0 =>
        match digitsLength isBinaryDigit (utf8 "b") rest with
        | n + 1 => n + 2
        | 0 =>
          match digitsLength Text.isDigit [] rest with
          | n + 1 => n + 2
          | 0 => 0
    else 0

/-- The number of bytes through the parenthesis that closes `depth` open ones, on top of those
`taken`. A line end comes too early. -/
def closing? (taken depth : Nat) : Text → Option Nat
  | [] => none
  | b :: rest =>
    if b == '('.toUInt8 then closing? (taken + 1) (depth + 1) rest
    else if b == ')'.toUInt8 then
      if depth ≤ 1 then some (taken + 1) else closing? (taken + 1) (depth - 1) rest
    else if Text.isLineEnd b then none
    else closing? (taken + 1) depth rest

/-- A formula: `#(` up to the matching parenthesis on the same line, wherever the parentheses stand.
Reference model of `matchExpression`. -/
def formulaLength : Text → Nat
  | b :: c :: rest =>
    if b == '#'.toUInt8 && c == '('.toUInt8 then (closing? 2 1 rest).getD 0 else 0
  | _ => 0

/-- A comment: a semicolon and the rest of the line. -/
def commentLength : Text → Nat
  | [] => 0
  | b :: rest => if b == ';'.toUInt8 then runLength (fun c => !Text.isLineEnd c) rest + 1 else 0

/-- Blanks between tokens: space, tab, form feed and vertical tab. -/
def isBlank (b : UInt8) : Bool :=
  b == ' '.toUInt8 || b == '\t'.toUInt8 || b == 0x0B || b == 0x0C

/-- A lexical class and how much of the input it takes. -/
structure Rule where
  /-- The class; `none` for what is skipped. -/
  kind : Option TokenKind
  length : Text → Nat

/-- The lexical rules in order. -/
def rules : List Rule := [
  ⟨some .register, nameLength (Register.named.map (·.1))⟩,
  ⟨some .instruction, nameLength mnemonics⟩,
  ⟨some .word, wordLength⟩,
  ⟨some .directive, markedWordLength '@'⟩,
  ⟨some .label, markedWordLength '$'⟩,
  ⟨some .registerParam, paramLength 'r'⟩,
  ⟨some .literalParam, paramLength 'l'⟩,
  ⟨some .string, stringLength⟩,
  ⟨some .comma, byteLength ','⟩,
  ⟨some .colon, byteLength ':'⟩,
  ⟨some .newline, runLength Text.isLineEnd⟩,
  ⟨some .literal, numeralLength⟩,
  ⟨some .literal, formulaLength⟩,
  ⟨none, commentLength⟩,
  ⟨none, runLength isBlank⟩]

/-- What a matching rule takes: its class, and how many bytes after the first. -/
structure Match where
  kind : Option TokenKind
  more : Nat

/-- The match of one rule. -/
def Rule.match? (rule : Rule) (input : Text) : Option Match :=
  match rule.length input with
  | 0 => none
  | n + 1 => some ⟨rule.kind, n⟩

/-- The match of the first rule that matches. -/
def firstMatch? (input : Text) : Option Match := rules.findSome? (·.match? input)

end Octet.Token
