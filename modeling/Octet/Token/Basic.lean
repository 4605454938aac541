import Octet.Text.Numeral

/-!
# Tokens

A token is a piece of a source with its lexical class and its place. Reference model of `Token` and
`TokenKind`.
-/

namespace Octet

/-- The lexical class of a token. -/
inductive TokenKind where
  | endOfInput
  | register
  | instruction
  | word
  | directive
  | label
  | registerParam
  | literalParam
  | string
  | comma
  | colon
  | newline
  | literal
  /-- A number that stands for no class. -/
  | unknown (number : Int)
  deriving DecidableEq, Repr, Inhabited

namespace TokenKind

/-- The classes in the order of their numbers. -/
def numbered : List TokenKind := [
  endOfInput, register, instruction, word, directive, label, registerParam, literalParam, string,
    comma, colon, newline, literal]

/-- The class with a number. -/
def ofNumber (n : Int) : TokenKind :=
  if n < 0 then unknown n else (numbered[n.toNat]?).getD (unknown n)

/-- The name of a class. -/
def name : TokenKind → Text
  | endOfInput => utf8 "end of input"
  | register => utf8 "register"
  | instruction => utf8 "instruction"
  | word => utf8 "word"
  | directive => utf8 "directive"
  | label => utf8 "label"
  | registerParam => utf8 "register parameter"
  | literalParam => utf8 "literal parameter"
  | string => utf8 "string"
  | comma => utf8 "comma"
  | colon => utf8 "colon"
  | newline => utf8 "newline"
  | literal => utf8 "literal"
  | unknown n => utf8 "TokenKind(" ++ Text.decimal n ++ utf8 ")"

/-- Tokens that end a line. -/
def endsLine : TokenKind → Bool
  | newline => true
  | endOfInput => true
  | _ => false

end TokenKind

/-- A token and its place. -/
structure Token where
  kind : TokenKind
  /-- The source text; a string stands without its quotes. -/
  text : Text
  /-- The path of the include that holds the token; empty for the root source. -/
  file : Text
  /-- Offset of the first byte in its source. -/
  offset : Int
  /-- Line number, counted from one. -/
  line : Int
  deriving DecidableEq, Repr, Inhabited

end Octet
