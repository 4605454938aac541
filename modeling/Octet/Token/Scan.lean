import Octet.Fault
import Octet.Source
import Octet.Token.Rule

/-!
# Splitting a source into tokens

`Token.scan` reads a source from start to end by the lexical rules. It fails at the first place
where no rule matches, with the character found there.
-/

namespace Octet.Token

/-- The text that a token of a class keeps of its source bytes: a string loses its quotes. -/
def keptText (kind : TokenKind) (bytes : Text) : Text :=
  if kind = .string then (bytes.drop 1).dropLast else bytes

/-- A place where no rule matches. -/
def unmatched (file source : Text) (offset line : Nat) (first : UInt8) (rest : Text) : Fault :=
  .located file offset line (Source.lineAt source offset)
    (.all [.cause .lex, .character ((Text.firstPoint first rest).code.getD Text.replacement)])

/-- Scans the remaining input, which starts at `offset` on line `line`, after the tokens found so
far. -/
def scanFrom (file source : Text) (offset line : Nat) (found : Array Token) (input : Text) :
    Except Fault (List Token) :=
  match input with
  | [] => .ok found.toList
  | b :: rest =>
    match firstMatch? (b :: rest) with
    | none => .error (unmatched file source offset line b rest)
    | some m =>
      let bytes := b :: rest.take m.more
      let found :=
        match m.kind with
        | some kind => found.push ⟨kind, keptText kind bytes, file, offset, line⟩
        | none => found
      scanFrom file source (offset + bytes.length) (line + Text.lineFeeds bytes) found
        (rest.drop m.more)
termination_by input.length
decreasing_by
  simp only [List.length_drop, List.length_cons]
  omega

/-- The tokens of a source; `file` names it in their places. Reference model of `Lex`. -/
def scan (file source : Text) : Except Fault (List Token) := scanFrom file source 0 1 #[] source

end Octet.Token
