import Octet.Literal
import Octet.Source
import Octet.Statement.Basic
import Octet.Token.Scan

/-!
# Parsing tokens into statements

Parsing checks the form of each statement only; whether a call names an instruction or a macro is
decided when calls are expanded. Every reader takes the tokens that are left and returns those after
what it read. Reference model of `Parser` and its methods.

* `Parser.readArgs`, `Parser.readStmt` — the arguments of a call, and one statement;
* `Parser.readMacro` — a macro definition up to its end;
* `Parser.readNodes` — all that a source holds;
* `Node.ofTokens`, `Node.ofSource` — the nodes of a token list and of a source text.

Each loop ends because what a reader leaves is never longer than what it was given.
-/

namespace Octet

/-- What parsing a source needs besides its tokens. -/
structure Parser where
  source : Text
  formulas : Formulas
  /-- The token that stands for the end of the source. -/
  finish : Token

/-- The numbers of parameters that a macro declares. -/
structure Slots where
  registers : Nat
  literals : Nat
  deriving DecidableEq, Repr

namespace Parser

/-- The parser of a source. -/
def ofSource (file source : Text) (formulas : Formulas) : Parser where
  source := source
  formulas := formulas
  finish := ⟨.endOfInput, [], file, source.length, Source.lineOf source source.length⟩

/-- A fault at a token (`Parser.fail`). -/
def fail (p : Parser) (t : Token) (parts : List Fault) : Fault :=
  .located t.file t.offset t.line (Source.lineAt p.source t.offset.toNat)
    (.all (.cause .parse :: parts))

/-- The next token. -/
def next (p : Parser) (tokens : List Token) : Token := tokens.head?.getD p.finish

/-- Whether the line ends here (`Parser.lineEnds`). -/
def lineEnds (p : Parser) (tokens : List Token) : Bool := (p.next tokens).kind.endsLine

/-- Nothing may follow on the line. -/
def endLine (p : Parser) (tokens : List Token) : Except Fault Unit :=
  if p.lineEnds tokens then .ok () else .error (p.fail (p.next tokens) [.cause .lineEnd])

/-! ## Arguments -/

/-- The base of the digits of a literal, and the digits without the letter that marks it. -/
def literalDigits (text : Text) : Nat × Text :=
  if text.getLast? = some 'h'.toUInt8 then (16, text.dropLast)
  else if text.getLast? = some 'b'.toUInt8 then (2, text.dropLast)
  else (10, text)

/-- The value of a literal: digits in a base, or a formula in parentheses. Reference model of
`Parser.literal`. -/
def readLiteral (p : Parser) (t : Token) : Except Fault UInt32 :=
  let text := t.text.drop 1
  if text.head? = some '('.toUInt8 then
    match p.formulas.literal (text.drop 1).dropLast with
    | .ok value => .ok value
    | .error f => .error (p.fail t [f])
  else
    let (base, digits) := literalDigits text
    match Text.natOfDigits? base digits with
    | none => .error (p.fail t [.cause .range, .number t.text])
    | some n =>
      if Word.unsignedLimit ≤ n then .error (p.fail t [.cause .range, .number t.text])
      else if Formula.largest < n then
        .error (p.fail t [.cause .range, .literalRange n Formula.largest])
      else .ok n.toUInt32

/-- The number of a parameter: an optional sign and decimal digits, within 64 bits. -/
def paramNumber? (text : Text) : Option Int :=
  let signed (sign : Int) (digits : Text) : Option Int := do
    let n := sign * (← Text.natOfDigits? 10 digits)
    if Word.fits64 n then some n else none
  match text with
  | b :: rest =>
    if b == '-'.toUInt8 then signed (-1) rest
    else if b == '+'.toUInt8 then signed 1 rest
    else signed 1 text
  | [] => none

/-- A reference to a parameter, which must be one of the enclosing macro (`Parser.param`). -/
def readParamArg (p : Parser) (slots : Option Slots) (t : Token) : Except Fault Arg :=
  match slots with
  | none => .error (p.fail t [.cause .paramOutside])
  | some slots =>
    match paramNumber? (t.text.drop 2) with
    | none => .error (p.fail t [.number t.text])
    | some index =>
      if t.kind = .registerParam then
        if slots.registers ≤ index then .error (p.fail t [.paramRange .register index])
        else .ok (.registerParam index t)
      else if slots.literals ≤ index then .error (p.fail t [.paramRange .literal index])
      else .ok (.literalParam index t)

/-- One argument (`Parser.parseArg`). -/
def readArg (p : Parser) (slots : Option Slots) (t : Token) : Except Fault Arg :=
  match t.kind with
  | .register => .ok (.register t.text ((Register.ofName? t.text).getD .r0) t)
  | .literal => (p.readLiteral t).map (.literal · t)
  | .label => .ok (.label (t.text.drop 1) t)
  | .registerParam => p.readParamArg slots t
  | .literalParam => p.readParamArg slots t
  | _ => .error (p.fail t [.cause .argumentExpected])

/-- At least one argument, separated by commas, up to the end of the line. -/
def readArgList (p : Parser) (slots : Option Slots) :
    List Token → Except Fault (List Arg × List Token)
  | [] => .error (p.fail p.finish [.cause .argumentExpected])
  | t :: rest => do
    let arg ← p.readArg slots t
    match rest with
    | [] => .ok ([arg], [])
    | u :: more =>
      if u.kind = .comma then
        let (args, left) ← readArgList p slots more
        .ok (arg :: args, left)
      else if u.kind.endsLine then .ok ([arg], u :: more)
      else .error (p.fail u [.cause .lineEnd])

/-- The arguments of a call, if any, up to the end of the line. Reference model of
`Parser.parseArgs`. -/
def readArgs (p : Parser) (slots : Option Slots) (tokens : List Token) :
    Except Fault (List Arg × List Token) :=
  if p.lineEnds tokens then .ok ([], tokens) else p.readArgList slots tokens

/-! ## Statements -/

/-- The statement that starts with a token. Reference model of `Parser.parseStatement`. -/
def readStmt (p : Parser) (slots : Option Slots) (t : Token) (tokens : List Token) :
    Except Fault (Stmt × List Token) :=
  match t.kind with
  | .instruction => do
    let (args, left) ← p.readArgs slots tokens
    .ok (.call ⟨.mnemonic, t.text, args, t⟩, left)
  | .word => do
    let (args, left) ← p.readArgs slots tokens
    .ok (.call ⟨.word, t.text, args, t⟩, left)
  | .label =>
    if (p.next tokens).kind = .colon then .ok (.label (t.text.drop 1) t, tokens.tail)
    else .error (p.fail (p.next tokens) [.cause .colonMissing])
  | _ => .error (p.fail t [.cause .statement])

/-! ## Readers do not add tokens -/

theorem readArgList_length {p : Parser} {slots : Option Slots} {tokens : List Token}
    {r : List Arg × List Token} (h : p.readArgList slots tokens = .ok r) :
    r.2.length ≤ tokens.length := by
  fun_induction readArgList p slots tokens generalizing r with
  | case1 => cases h
  | case2 t rest ih =>
    cases ha : p.readArg slots t with
    | error e => simp [ha, bind, Except.bind] at h
    | ok arg =>
      rcases rest with _ | ⟨u, more⟩
      · simp [ha, bind, Except.bind] at h
        simp [← h]
      · by_cases hc : u.kind = .comma
        · cases hr : readArgList p slots more with
          | error e => simp [ha, hc, hr, bind, Except.bind] at h
          | ok s =>
            simp [ha, hc, hr, bind, Except.bind] at h
            have := ih hr
            simp [← h]
            omega
        · by_cases he : u.kind.endsLine
          · simp [ha, hc, he, bind, Except.bind] at h
            simp [← h]
          · simp [ha, hc, he, bind, Except.bind] at h

theorem readArgs_length {p : Parser} {slots : Option Slots} {tokens : List Token}
    {r : List Arg × List Token} (h : p.readArgs slots tokens = .ok r) :
    r.2.length ≤ tokens.length := by
  unfold readArgs at h
  split at h
  · cases h
    simp
  · exact readArgList_length h

theorem readStmt_length {p : Parser} {slots : Option Slots} {t : Token} {tokens : List Token}
    {r : Stmt × List Token} (h : p.readStmt slots t tokens = .ok r) :
    r.2.length ≤ tokens.length := by
  unfold readStmt at h
  split at h
  · cases ha : p.readArgs slots tokens with
    | error e => simp [ha, bind, Except.bind] at h
    | ok s =>
      simp [ha, bind, Except.bind] at h
      simp [← h, readArgs_length ha]
  · cases ha : p.readArgs slots tokens with
    | error e => simp [ha, bind, Except.bind] at h
    | ok s =>
      simp [ha, bind, Except.bind] at h
      simp [← h, readArgs_length ha]
  · split at h
    · cases h
      simp
    · cases h
  · cases h

/-! ## Macros -/

/-- The kind of a parameter that a macro declares. -/
def readParam (p : Parser) (t : Token) : Except Fault ArgKind :=
  match t.kind with
  | .registerParam => .ok .register
  | .literalParam => .ok .literal
  | _ => .error (p.fail t [.cause .macroParam])

/-- At least one parameter of a macro, separated by commas, up to the end of the line. -/
def readParamList (p : Parser) : List Token → Except Fault (List ArgKind × List Token)
  | [] => .error (p.fail p.finish [.cause .macroParam])
  | t :: rest => do
    let kind ← p.readParam t
    match rest with
    | [] => .ok ([kind], [])
    | u :: more =>
      if u.kind = .comma then
        let (kinds, left) ← readParamList p more
        .ok (kind :: kinds, left)
      else if u.kind.endsLine then .ok ([kind], u :: more)
      else .error (p.fail u [.cause .lineEnd])

/-- The parameters of a macro, if any, up to the end of the line. -/
def readParams (p : Parser) (tokens : List Token) : Except Fault (List ArgKind × List Token) :=
  if p.lineEnds tokens then .ok ([], tokens) else p.readParamList tokens

/-- The statements of a macro body up to its end, after those found so far. The token that opened
the macro is to blame if the end is missing. -/
def readBody (p : Parser) (slots : Slots) (opener : Token) (found : Array Stmt)
    (tokens : List Token) :
    Except Fault (List Stmt × List Token) :=
  match tokens with
  | [] => .error (p.fail opener [.cause .macroUnclosed])
  | t :: rest =>
    match t.kind with
    | .newline => readBody p slots opener found rest
    | .directive =>
      if t.text = utf8 "@endmacro" then .ok (found.toList, rest)
      else if t.text = utf8 "@macro" then .error (p.fail t [.cause .macroNesting])
      else .error (p.fail t [.cause .macroDirective])
    | _ =>
      match _ : p.readStmt (some slots) t rest with
      | .error f => .error f
      | .ok (s, left) => readBody p slots opener (found.push s) left
termination_by tokens.length
decreasing_by
  · exact Nat.lt_succ_self _
  · exact Nat.lt_succ_of_le (readStmt_length ‹_›)

/-- A macro definition after the token that opens it. Reference model of `Parser.parseMacro`. -/
def readMacro (p : Parser) (opener : Token) (tokens : List Token) :
    Except Fault (Macro × List Token) := do
  let name := p.next tokens
  if name.kind = .word ∨ name.kind = .instruction then
    let (params, left) ← p.readParams tokens.tail
    let slots : Slots := ⟨params.count .register, params.count .literal⟩
    let (body, left) ← p.readBody slots opener #[] left
    .ok (⟨name.text, params, body, name⟩, left)
  else .error (p.fail name [.cause .macroName])

theorem readParamList_length {p : Parser} {tokens : List Token} {r : List ArgKind × List Token}
    (h : p.readParamList tokens = .ok r) : r.2.length ≤ tokens.length := by
  fun_induction readParamList p tokens generalizing r with
  | case1 => cases h
  | case2 t rest ih =>
    cases hk : p.readParam t with
    | error e => simp [hk, bind, Except.bind] at h
    | ok kind =>
      rcases rest with _ | ⟨u, more⟩
      · simp [hk, bind, Except.bind] at h
        simp [← h]
      · by_cases hc : u.kind = .comma
        · cases hr : readParamList p more with
          | error e => simp [hk, hc, hr, bind, Except.bind] at h
          | ok s =>
            simp [hk, hc, hr, bind, Except.bind] at h
            have := ih hr
            simp [← h]
            omega
        · by_cases he : u.kind.endsLine
          · simp [hk, hc, he, bind, Except.bind] at h
            simp [← h]
          · simp [hk, hc, he, bind, Except.bind] at h

theorem readParams_length {p : Parser} {tokens : List Token} {r : List ArgKind × List Token}
    (h : p.readParams tokens = .ok r) : r.2.length ≤ tokens.length := by
  unfold readParams at h
  split at h
  · cases h
    simp
  · exact readParamList_length h

theorem readBody_length {p : Parser} {slots : Slots} {opener : Token} {found : Array Stmt}
    {tokens : List Token} {r : List Stmt × List Token}
    (h : p.readBody slots opener found tokens = .ok r) :
    r.2.length ≤ tokens.length := by
  fun_induction readBody p slots opener found tokens with
  | case1 => cases h
  | case2 found t rest hk ih =>
    have := ih h
    simp
    omega
  | case3 =>
    cases h
    simp
  | case4 => cases h
  | case5 => cases h
  | case6 => cases h
  | case7 _ _ _ _ _ _ _ _ ih =>
    have := ih h
    have := readStmt_length (by assumption)
    simp at this ⊢
    omega

theorem readMacro_length {p : Parser} {opener : Token} {tokens : List Token}
    {r : Macro × List Token} (h : p.readMacro opener tokens = .ok r) :
    r.2.length ≤ tokens.length := by
  unfold readMacro at h
  simp only [bind, Except.bind] at h
  split at h
  · split at h
    · cases h
    · rename_i params hp
      split at h
      · cases h
      · rename_i body hb
        cases h
        have := readParams_length hp
        have := readBody_length hb
        simp at *
        omega
  · cases h

/-! ## Sources -/

/-- The node that a directive stands for. Reference model of `Parser.parseDirective`. -/
def readDirective (p : Parser) (t : Token) (tokens : List Token) :
    Except Fault (Node × List Token) :=
  if t.text = utf8 "@macro" then do
    let (m, left) ← p.readMacro t tokens
    .ok (.item (.definition m), left)
  else if t.text = utf8 "@endmacro" then .error (p.fail t [.cause .macroUnopened])
  else if t.text = utf8 "@include" then do
    let path := p.next tokens
    if path.kind = .string then
      p.endLine tokens.tail
      .ok (.splice path.text t, tokens.tail)
    else .error (p.fail path [.cause .includePath])
  else .error (p.fail t [.cause .directiveUnknown])

/-- The node that starts with a token other than a line end. -/
def readNode (p : Parser) (t : Token) (tokens : List Token) : Except Fault (Node × List Token) :=
  if t.kind = .directive then p.readDirective t tokens
  else do
    let (s, left) ← p.readStmt none t tokens
    .ok (.item (.stmt s), left)

theorem readNode_length {p : Parser} {t : Token} {tokens : List Token} {r : Node × List Token}
    (h : p.readNode t tokens = .ok r) : r.2.length ≤ tokens.length := by
  unfold readNode readDirective at h
  simp only [bind, Except.bind] at h
  split at h
  · split at h
    · split at h
      · cases h
      · rename_i m hm
        cases h
        exact readMacro_length hm
    · split at h
      · cases h
      · split at h
        · split at h
          · split at h
            · cases h
            · cases h
              simp
          · cases h
        · cases h
  · split at h
    · cases h
    · rename_i s hs
      cases h
      exact readStmt_length hs

/-- All nodes, after those found so far. -/
def readNodes (p : Parser) (found : Array Node) (tokens : List Token) : Except Fault (List Node) :=
  match tokens with
  | [] => .ok found.toList
  | t :: rest =>
    if t.kind = .newline then readNodes p found rest
    else
      match _ : p.readNode t rest with
      | .error f => .error f
      | .ok (n, left) => readNodes p (found.push n) left
termination_by tokens.length
decreasing_by
  · exact Nat.lt_succ_self _
  · exact Nat.lt_succ_of_le (readNode_length ‹_›)

end Parser

/-- The nodes of a token list that stands for a source (`Parser.ParseTokens`). -/
def Node.ofTokens (file source : Text) (formulas : Formulas) (tokens : List Token) :
    Except Fault (List Node) :=
  (Parser.ofSource file source formulas).readNodes #[] tokens

/-- The nodes of a source (`Parser.Parse`). -/
def Node.ofSource (file source : Text) (formulas : Formulas) : Except Fault (List Node) := do
  Node.ofTokens file source formulas (← Token.scan file source)

end Octet
