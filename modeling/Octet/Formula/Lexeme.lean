import Octet.Formula.Real
import Octet.Text.Letter
import Octet.Text.Search

/-!
# Lexemes of formulas

A formula is written in a small language with names, integers, floats, strings, operators and
keywords. `Lexeme.read` splits a text into lexemes; any malformed piece makes the whole text
unreadable.

Integers are decimal, or hexadecimal, octal or binary after `0x`, `0o` and `0b`; a decimal integer
other than zero does not start with a zero. Octal and binary integers stay below 2^63. A float has a
point or an exponent. Strings stand between single or double quotes, or between triple quotes, and
know the usual escapes; an `r` before the quote keeps backslashes as they are, and a `b` makes it a
string of bytes.

Outside of brackets the ends of lines count, and so does the blank space at their start: it opens
and closes blocks. A backslash at its end continues a line. A zero byte outside of a string ends the
text. Part of the reference model of `evaluate`.
-/

namespace Octet.Formula

/-- A piece of a formula. -/
inductive Lexeme where
  | name (text : Text)
  | int (value : Nat)
  | float (value : Float)
  | string (value : Text)
  | bytes (value : Text)
  /-- An operator, a bracket or a keyword, by its spelling. -/
  | mark (spelling : String)
  | lineEnd
  /-- The start of a block. -/
  | indent
  /-- The end of a block. -/
  | outdent
  deriving BEq, Repr

namespace Lexeme

/-! ## Numbers -/

/-- A float with the digits before and after its point, and perhaps an exponent next. -/
def float? (before after : Text) (rest : Text) : Option (Lexeme × Text) := do
  let mantissa := (Text.natOfDigits? 10 (before ++ after)).getD 0
  let (e, rest) ←
    match rest with
    | b :: more =>
      if b == 'e'.toUInt8 || b == 'E'.toUInt8 then Real.exponent? more else some (0, rest)
    | [] => some (0, rest)
  let f := Real.ofDecimal mantissa (e - after.length)
  if f.isFinite then some (.float f, rest) else none

/-- Digits of a base after its mark. -/
def based? (base limit : Nat) (isDigit : UInt8 → Bool) (t : Text) : Option (Lexeme × Text) := do
  let ds := t.takeWhile isDigit
  let n ← Text.natOfDigits? base ds
  if limit ≠ 0 ∧ limit ≤ n then none else some (.int n, t.drop ds.length)

/-- Octal digits. -/
def isOctalDigit (b : UInt8) : Bool := '0'.toUInt8 ≤ b && b ≤ '7'.toUInt8

/-- Binary digits. -/
def isBinaryDigit (b : UInt8) : Bool := b == '0'.toUInt8 || b == '1'.toUInt8

/-- A number without a base mark. -/
def decimal? (t : Text) : Option (Lexeme × Text) :=
  let ds := t.takeWhile Text.isDigit
  let rest := t.drop ds.length
  let integer : Option (Lexeme × Text) := do
    let n ← Text.natOfDigits? 10 ds
    if ds.head? = some '0'.toUInt8 ∧ n ≠ 0 then none else some (.int n, rest)
  match rest with
  | b :: more =>
    if b == '.'.toUInt8 then
      let after := more.takeWhile Text.isDigit
      float? ds after (more.drop after.length)
    else if b == 'e'.toUInt8 || b == 'E'.toUInt8 then float? ds [] rest
    else integer
  | [] => integer

/-- A number at the start of a text that begins with a digit. -/
def number? (t : Text) : Option (Lexeme × Text) :=
  match t with
  | z :: m :: rest =>
    if z == '0'.toUInt8 then
      if m == 'x'.toUInt8 || m == 'X'.toUInt8 then based? 16 0 Text.isHexDigit rest
      else if m == 'o'.toUInt8 || m == 'O'.toUInt8 then based? 8 Word.signedLimit isOctalDigit rest
      else if m == 'b'.toUInt8 || m == 'B'.toUInt8 then based? 2 Word.signedLimit isBinaryDigit rest
      else decimal? t
    else decimal? t
  | _ => decimal? t

/-! ## Strings -/

/-- How a string is written. -/
structure StringKind where
  /-- Backslashes stand for themselves. -/
  raw : Bool := false
  /-- The string is one of bytes. -/
  ofBytes : Bool := false

/-- The byte of a short escape. -/
def shortEscape? (c : UInt8) : Option UInt8 :=
  if c == 'a'.toUInt8 then some 7
  else if c == 'b'.toUInt8 then some 8
  else if c == 't'.toUInt8 then some 9
  else if c == 'n'.toUInt8 then some 10
  else if c == 'v'.toUInt8 then some 11
  else if c == 'f'.toUInt8 then some 12
  else if c == 'r'.toUInt8 then some 13
  else if c == 0x5C || c == 0x27 || c == 0x22 then some c
  else none

/-- The UTF-8 bytes of a code point written by number; surrogates are no code points. -/
def escapedPoint? (ds : Text) : Option Text := do
  let n ← Text.natOfDigits? 16 ds
  if n.isValidChar then some (Text.ofPoint n) else none

/-- A byte written by number, which is ASCII unless the string is one of bytes. -/
def escapedByte? (ofBytes : Bool) (base : Nat) (ds : Text) : Option Text := do
  let n ← Text.natOfDigits? base ds
  if n < (if ofBytes then 0x100 else 0x80) then some [UInt8.ofNat n] else none

/-- The bytes that an escape stands for, and how many bytes it takes after `c`, the byte after its
backslash. -/
def escape? (ofBytes : Bool) (c : UInt8) (rest : Text) : Option (Text × Nat) :=
  match shortEscape? c with
  | some v => some ([v], 0)
  | none =>
    if c == Text.lf then some ([], 0)
    else if c == 'x'.toUInt8 then
      if rest.length < 2 then none else (escapedByte? ofBytes 16 (rest.take 2)).map (·, 2)
    else if c == 'u'.toUInt8 then if rest.length < 4 then
      none else (escapedPoint? (rest.take 4)).map (·, 4)
    else if c == 'U'.toUInt8 then if rest.length < 8 then
      none else (escapedPoint? (rest.take 8)).map (·, 8)
    else if isOctalDigit c then
      let more := (rest.take 2).takeWhile isOctalDigit
      (escapedByte? ofBytes 8 (c :: more)).map (·, more.length)
    else none

/-- Replaces the escapes of a string body. -/
def unescape? (ofBytes : Bool) (t : Text) : Option Text :=
  match t with
  | [] => some []
  | b :: rest =>
    if b != 0x5C then (unescape? ofBytes rest).map (b :: ·)
    else match rest with
      | [] => none
      | c :: rest =>
        match escape? ofBytes c rest with
        | some (v, taken) => (unescape? ofBytes (rest.drop taken)).map (v ++ ·)
        | none => none
termination_by t.length
decreasing_by
  · exact Nat.lt_succ_self _
  · simp only [List.length_drop, List.length_cons]
    omega

/-- The body of a string up to its closing quotes, with a backslash always followed by a byte of the
body. -/
def body? (close : Text) (multiline : Bool) : Text → Option (Text × Text)
  | [] => none
  | b :: rest =>
    if close.isPrefixOf (b :: rest) then some ([], (b :: rest).drop close.length)
    else if b == Text.lf && !multiline then none
    else if b == 0x5C then
      match rest with
      | [] => none
      | c :: rest => (body? close multiline rest).map fun (s, r) => (b :: c :: s, r)
    else (body? close multiline rest).map fun (s, r) => (b :: s, r)

/-- A string that starts with the quote `q`. Bytes that are part of no character become replacement
characters. -/
def string? (kind : StringKind) (q : UInt8) (t : Text) : Option (Lexeme × Text) := do
  let triple := [q, q, q].isPrefixOf t
  let close := if triple then [q, q, q] else [q]
  let (body, rest) ← body? close triple (t.drop close.length)
  let body := Text.repaired body
  let value ← if kind.raw then some body else unescape? kind.ofBytes body
  some (if kind.ofBytes then .bytes value else .string value, rest)

/-! ## Names and marks -/

/-- Words that are part of the grammar. -/
def keywords : List (Text × String) :=
  ["and", "break", "continue", "def", "elif", "else", "for", "if", "in", "lambda", "load", "not",
    "or", "pass", "return", "while"].map fun s => (utf8 s, s)

/-- Words that no formula may use. -/
def reserved : List Text :=
  ["as", "async", "await", "class", "del", "except", "finally", "from", "global", "import", "is",
    "nonlocal", "raise", "try", "with", "yield"].map utf8

/-- Operators and brackets, longer ones first. -/
def marks : List (Text × String) :=
  ["//=", "<<=", ">>=",
    "//", "<<", ">>", "<=", ">=", "==", "!=", "+=", "-=", "*=", "/=", "%=", "&=", "|=", "^=", "**",
    "+", "-", "*", "/", "%", "&", "|", "^", "~", "<", ">", "=", ".", ",", ";", ":", "(", ")", "[",
      "]", "\x7b", "\x7d"].map fun s => (utf8 s, s)

/-- Characters that start a name. -/
def startsName (p : Text.Point) : Bool := p.code.any fun c => Text.isLetter c || c == '_'.toNat

/-- Characters of a name. -/
def inName (p : Text.Point) : Bool :=
  startsName p || p.code.any fun c => '0'.toNat ≤ c && c ≤ '9'.toNat

/-- The longest start of a text that consists of characters of a name. -/
def nameStart : Text → Text
  | [] => []
  | b :: rest =>
    let p := Text.firstPoint b rest
    if inName p then p.bytes ++ nameStart (Text.afterPoint b rest) else []
termination_by t => t.length
decreasing_by
  exact Nat.lt_succ_of_le (Text.afterPoint_length_le b rest)

/-- The kind of string that letters before a quote announce. -/
def stringKind? (w : Text) : Option StringKind :=
  if w == utf8 "r" then some { raw := true }
  else if w == utf8 "b" then some { ofBytes := true }
  else if w == utf8 "rb" then some { raw := true, ofBytes := true }
  else none

/-- A name, unless its spelling belongs to the grammar. -/
def named? (w rest : Text) : Option (Lexeme × Text) :=
  match keywords.lookup w with
  | some k => some (.mark k, rest)
  | none => if reserved.contains w then none else some (.name w, rest)

/-- The quotes of strings. -/
def isQuote (b : UInt8) : Bool := b == 0x22 || b == 0x27

/-- The name, keyword or announced string at the start. -/
def word? (t : Text) : Option (Lexeme × Text) :=
  let w := nameStart t
  let rest := t.drop w.length
  match rest.head?, stringKind? w with
  | some q, some kind => if isQuote q then string? kind q rest else named? w rest
  | _, _ => named? w rest

/-- The lexeme at the start of a text that begins with no blank, comment or line end. -/
def next? (t : Text) : Option (Lexeme × Text) :=
  match t with
  | [] => none
  | b :: rest =>
    if Text.isDigit b then number? t
    else if b == '.'.toUInt8 && (rest.head?.any Text.isDigit) then
      let after := rest.takeWhile Text.isDigit
      float? [] after (rest.drop after.length)
    else if isQuote b then string? {} b t
    else if startsName (Text.firstPoint b rest) then word? t
    else
      match marks.find? (·.1.isPrefixOf t) with
      | some (m, spelling) => some (.mark spelling, t.drop m.length)
      | none => none

/-! ## Lines and blocks -/

/-- Blanks inside a formula. -/
def isBlank (b : UInt8) : Bool := b == ' '.toUInt8 || b == '\t'.toUInt8

/-- The text with a line feed for every line end. -/
def normalized : Text → Text
  | [] => []
  | b :: rest =>
    if b == Text.cr then
      Text.lf :: (if rest.head? = some Text.lf then normalized (rest.drop 1) else normalized rest)
    else b :: normalized rest
termination_by t => t.length
decreasing_by
  all_goals simp only [List.length_drop, List.length_cons]; omega

/-- Where a text or a line of it ends for good: at its end or at a zero byte. -/
def isOver (t : Text) : Bool := t.head?.all (· == 0)

/-- The text after the comment at its start, if there is one. -/
def afterComment (t : Text) : Text :=
  if t.head? = some '#'.toUInt8 then t.dropWhile fun c => c != Text.lf && c != 0 else t

/-- The column after some blanks, of which the number before them is given. A tab is as wide as the
blanks that are missing to a multiple of eight. -/
def columnAfter (before : Nat) : Text → Nat
  | [] => 0
  | b :: rest => (if b == '\t'.toUInt8 then 8 - before % 8 else 1) + columnAfter (before + 1) rest

/-- The line structure at some place of a text. -/
structure Layout where
  /-- The number of open brackets. -/
  depth : Nat := 0
  /-- The columns of the open blocks, innermost first. -/
  blocks : List Nat := []
  /-- Whether a line starts here. -/
  atStart : Bool := true

/-- The column of the innermost block. -/
def Layout.column (l : Layout) : Nat := l.blocks.headD 0

/-- The layout after a line starts at a column, and the blocks that it opens or closes. -/
def Layout.begin? (l : Layout) (column : Nat) : Option (Layout × List Lexeme) :=
  if l.depth ≠ 0 then some ({ l with atStart := false }, [])
  else if l.column < column then
    some ({ l with atStart := false, blocks := column :: l.blocks }, [.indent])
  else
    let closed := l.blocks.takeWhile (column < ·)
    let left := l.blocks.drop closed.length
    if left.headD 0 = column then
      some ({ l with atStart := false, blocks := left }, List.replicate closed.length .outdent)
    else none

/-- The lexemes that close a text. -/
def Layout.finish (l : Layout) : List Lexeme :=
  if l.blocks.isEmpty then []
  else (if l.atStart then [] else [.lineEnd]) ++ List.replicate l.blocks.length .outdent

/-- The layout after a lexeme, which may not close a bracket that is not open. -/
def Layout.after? (l : Layout) : Lexeme → Option Layout
  | mark "(" => some { l with depth := l.depth + 1 }
  | mark "[" => some { l with depth := l.depth + 1 }
  | mark "\x7b" => some { l with depth := l.depth + 1 }
  | mark ")" => if l.depth = 0 then none else some { l with depth := l.depth - 1 }
  | mark "]" => if l.depth = 0 then none else some { l with depth := l.depth - 1 }
  | mark "\x7d" => if l.depth = 0 then none else some { l with depth := l.depth - 1 }
  | _ => some l

/-- Reads the lexemes of a text, of which every step but the first of a line takes at least a
byte. -/
def readFrom (steps : Nat) (l : Layout) (found : Array Lexeme) (t : Text) : Option (List Lexeme) :=
  match steps with
  | 0 => none
  | steps + 1 =>
    let blanks := t.takeWhile isBlank
    let rest := afterComment (t.drop blanks.length)
    if isOver rest then some (found.toList ++ l.finish)
    else if rest.head? = some Text.lf then
      let ends := !l.atStart && l.depth = 0
      readFrom steps { l with atStart := true } (if ends then found.push .lineEnd else found)
        (rest.drop 1)
    else if l.atStart then
      match l.begin? (columnAfter 0 blanks) with
      | some (l, opened) => readFrom steps l (found ++ opened.toArray) rest
      | none => none
    else if rest.head? = some 0x5C then
      if rest.tail.head? = some Text.lf then readFrom steps l found (rest.drop 2) else none
    else
      match next? rest with
      | some (lexeme, rest) =>
        match l.after? lexeme with
        | some l => readFrom steps l (found.push lexeme) rest
        | none => none
      | none => none

/-- The lexemes of a text. -/
def read (t : Text) : Option (List Lexeme) :=
  let t := normalized t
  readFrom (2 * t.length + 2) {} #[] t

end Lexeme

end Octet.Formula
