import Octet.Formula.Expr

/-!
# Reading formulas

A recursive descent reader with one function per level of the grammar. Binary operators are read by
climbing precedences, from `or` (0) over `and`, `not`, the comparisons (which do not chain), `|`,
`^`, `&`, the shifts and the additive operators to the multiplicative ones (9).

Every function takes a bound on the depth of its recursion, which `readScript` chooses from the
number of lexemes. Part of the reference model of `evaluate`.
-/

namespace Octet.Formula

/-- A reader of lexemes. -/
abbrev Reader := StateT (List Lexeme) Option

namespace Reader

/-- Whether the next lexeme has a spelling. -/
def sees (spelling : String) : Reader Bool := do
  match ← get with
  | .mark s :: _ => return s == spelling
  | _ => return false

/-- Drops the next lexeme. -/
def skip : Reader Unit := modify List.tail

/-- Takes the next lexeme if it has a spelling. -/
def accept (spelling : String) : Reader Bool := do
  if ← sees spelling then
    skip
    return true
  else return false

/-- Takes the next lexeme, which must have a spelling. -/
def expect (spelling : String) : Reader Unit := do
  unless ← accept spelling do failure

/-- Takes a name. -/
def ident : Reader Text := do
  match ← get with
  | .name n :: rest =>
    set rest
    return n
  | _ => failure

/-- Whether the text ends here. -/
def atEnd : Reader Bool := do return (← get).isEmpty

/-- Takes the next lexeme, which must be a given one without a spelling. -/
def expectLexeme (lexeme : Lexeme) : Reader Unit := do
  match ← get with
  | next :: rest => if next == lexeme then set rest else failure
  | [] => failure

/-- Whether a list of expressions ends here. -/
def listEnds : Reader Bool := do
  match ← get with
  | [] => return true
  | .lineEnd :: _ => return true
  | .mark s :: _ => return ["=", "\x7d", "]", ")", ";"].contains s
  | _ => return false

end Reader

open Reader

/-- A binary operator with its precedence and how it joins its operands. -/
structure Joint where
  precedence : Nat
  join : Expr → Expr → Expr

/-- The precedence of `not`. -/
def notPrecedence : Nat := 2

/-- The precedence of the comparisons. -/
def comparison : Nat := 3

/-- The binary operator of a spelling. -/
def jointOf? : String → Option Joint
  | "or" => some ⟨0, .either⟩
  | "and" => some ⟨1, .both⟩
  | "==" => some ⟨3, .binary .equal⟩
  | "!=" => some ⟨3, .binary .unequal⟩
  | "<" => some ⟨3, .binary .less⟩
  | ">" => some ⟨3, .binary .greater⟩
  | "<=" => some ⟨3, .binary .atMost⟩
  | ">=" => some ⟨3, .binary .atLeast⟩
  | "in" => some ⟨3, .binary .isIn⟩
  | "|" => some ⟨4, .binary .bitOr⟩
  | "^" => some ⟨5, .binary .bitXor⟩
  | "&" => some ⟨6, .binary .bitAnd⟩
  | "<<" => some ⟨7, .binary .shiftLeft⟩
  | ">>" => some ⟨7, .binary .shiftRight⟩
  | "+" => some ⟨8, .binary .add⟩
  | "-" => some ⟨8, .binary .sub⟩
  | "*" => some ⟨9, .binary .mul⟩
  | "/" => some ⟨9, .binary .div⟩
  | "//" => some ⟨9, .binary .floorDiv⟩
  | "%" => some ⟨9, .binary .mod⟩
  | _ => none

/-- The binary operator that comes next, with the lexemes after it. After an operand `not` must be
followed by `in`. -/
def nextJoint : Reader (Option (Joint × List Lexeme)) := do
  match ← get with
  | .mark "not" :: .mark "in" :: rest => return some (⟨comparison, .binary .notIn⟩, rest)
  | .mark "not" :: _ => failure
  | .mark s :: rest => return (jointOf? s).map (·, rest)
  | _ => return none

/-- The sign operator of a spelling. -/
def signOf? : String → Option UnaryOp
  | "-" => some .negate
  | "+" => some .plus
  | "~" => some .invert
  | _ => none

mutual

/-- An expression without an unparenthesised tuple: a function, or an operation with an optional
choice. -/
def readTest (depth : Nat) : Reader Expr := do
  match depth with
  | 0 => failure
  | depth + 1 =>
    if ← accept "lambda" then readLambda depth true
    else
      let e ← readOperation depth 0
      if ← accept "if" then
        let test ← readOperation depth 0
        expect "else"
        return .choice test e (← readTest depth)
      else return e

/-- A function after its `lambda`; in the test of a comprehension its body is no choice. -/
def readLambda (depth : Nat) (withChoice : Bool) : Reader Expr := do
  match depth with
  | 0 => failure
  | depth + 1 =>
    let params ← if ← sees ":" then pure [] else readParams depth false
    expect ":"
    return .lambda params (← if withChoice then readTest depth else readPlainTest depth)

/-- An expression that is no choice, as the tests of comprehensions are. -/
def readPlainTest (depth : Nat) : Reader Expr := do
  match depth with
  | 0 => failure
  | depth + 1 => if ← accept "lambda" then readLambda depth false else readOperation depth 0

/-- Parameters up to a colon or a parenthesis; `more` if some come before. Only before a parenthesis
a comma may be the last. -/
def readParams (depth : Nat) (more : Bool) : Reader (List Param) := do
  match depth with
  | 0 => failure
  | depth + 1 =>
    if (← sees ")") || (← sees ":") || (← atEnd) then return []
    else
      if more then expect ","
      if ← sees ")" then return []
      else
        let p ← readParam depth
        return p :: (← readParams depth true)

/-- A parameter. -/
def readParam (depth : Nat) : Reader Param := do
  match depth with
  | 0 => failure
  | depth + 1 =>
    if ← accept "*" then
      match ← get with
      | .name n :: rest =>
        set rest
        return .rest (some n)
      | _ => return .rest none
    else if ← accept "**" then return .named (← ident)
    else
      let n ← ident
      if ← accept "=" then return .optional n (← readTest depth) else return .required n

/-- An operation of at least the given precedence. -/
def readOperation (depth least : Nat) : Reader Expr := do
  match depth with
  | 0 => failure
  | depth + 1 =>
    let negated ← if least ≤ notPrecedence then accept "not" else pure false
    let first ← if negated then
      pure (.unary .not (← readOperation depth notPrecedence)) else readSuffixed depth
    readJoints depth least false first

/-- The operators of at least the given precedence after an operand; `compared` if it is a
comparison. -/
def readJoints (depth least : Nat) (compared : Bool) (first : Expr) : Reader Expr := do
  match depth with
  | 0 => failure
  | depth + 1 =>
    match ← nextJoint with
    | none => return first
    | some (joint, rest) =>
      if joint.precedence < least then return first
      else if compared && joint.precedence = comparison then failure
      else
        set rest
        let second ← readOperation depth (joint.precedence + 1)
        readJoints depth least (joint.precedence = comparison) (joint.join first second)

/-- A primary expression with its attributes, indices and calls. -/
def readSuffixed (depth : Nat) : Reader Expr := do
  match depth with
  | 0 => failure
  | depth + 1 => readSuffixes depth (← readPrimary depth)

/-- The attributes, indices and calls after an expression. -/
def readSuffixes (depth : Nat) (e : Expr) : Reader Expr := do
  match depth with
  | 0 => failure
  | depth + 1 =>
    if ← accept "." then readSuffixes depth (.attribute e (← ident))
    else if ← accept "[" then readSuffixes depth (← readIndex depth e)
    else if ← accept "(" then
      readSuffixes depth (.call e (← readArguments depth))
    else return e

/-- An index or a slice after its opening bracket. -/
def readIndex (depth : Nat) (e : Expr) : Reader Expr := do
  match depth with
  | 0 => failure
  | depth + 1 =>
    let missing : Expr := .constant .none
    let lo ← if ← sees ":" then pure missing else readList depth false
    if !(← sees ":") then
      expect "]"
      return .index e lo
    else
      skip
      let hi ← if (← sees ":") || (← sees "]") then pure missing else readTest depth
      let step ←
        if ← accept ":" then
          if ← sees "]" then pure missing else readTest depth
        else pure missing
      expect "]"
      return .slice e lo hi step

/-- The arguments of a call after its opening parenthesis, and the closing one. -/
def readArguments (depth : Nat) : Reader (List Argument) := do
  match depth with
  | 0 => failure
  | depth + 1 =>
    if ← accept ")" then return []
    else
      let arg ← readArgument depth
      if ← accept "," then return arg :: (← readArguments depth)
      else
        expect ")"
        return [arg]

/-- An argument of a call. -/
def readArgument (depth : Nat) : Reader Argument := do
  match depth with
  | 0 => failure
  | depth + 1 =>
    if ← accept "*" then return .spread (← readTest depth)
    else if ← accept "**" then return .spreadNamed (← readTest depth)
    else
      let e ← readTest depth
      if ← accept "=" then
        match e with
        | .name n => return .named n (← readTest depth)
        | _ => failure
      else return .positional e

/-- A name, a constant, a bracketed form or a signed expression. -/
def readPrimary (depth : Nat) : Reader Expr := do
  match depth with
  | 0 => failure
  | depth + 1 =>
    match ← get with
    | .name n :: rest =>
      set rest
      return .name n
    | .int n :: rest =>
      set rest
      return .constant (.int n)
    | .float f :: rest =>
      set rest
      return .constant (.float f)
    | .string s :: rest =>
      set rest
      return .constant (.string s)
    | .bytes s :: rest =>
      set rest
      return .constant (.bytes s)
    | .mark "[" :: rest =>
      set rest
      readBracketed depth
    | .mark "\x7b" :: rest =>
      set rest
      readBraced depth
    | .mark "(" :: rest =>
      set rest
      if ← accept ")" then return .tuple []
      else
        let e ← readList depth true
        expect ")"
        return .group e
    | .mark s :: rest =>
      match signOf? s with
      | some op =>
        set rest
        return .unary op (← readSuffixed depth)
      | none => failure
    | _ => failure

/-- One expression, or a tuple of several. -/
def readList (depth : Nat) (trailing : Bool) : Reader Expr := do
  match depth with
  | 0 => failure
  | depth + 1 =>
    let e ← readTest depth
    if ← sees "," then return .tuple (e :: (← readMore depth trailing)) else return e

/-- Further expressions of a list, each after a comma. -/
def readMore (depth : Nat) (trailing : Bool) : Reader (List Expr) := do
  match depth with
  | 0 => failure
  | depth + 1 =>
    if ← accept "," then
      if ← listEnds then
        if trailing then return [] else failure
      else
        let e ← readTest depth
        return e :: (← readMore depth trailing)
    else return []

/-- A list or a list comprehension after its opening bracket. -/
def readBracketed (depth : Nat) : Reader Expr := do
  match depth with
  | 0 => failure
  | depth + 1 =>
    if ← accept "]" then return .list []
    else
      let e ← readTest depth
      if ← sees "for" then return .listOf e (← readClauses depth "]")
      else
        let more ← readMore depth true
        expect "]"
        return .list (e :: more)

/-- A dictionary or a dictionary comprehension after its opening brace. -/
def readBraced (depth : Nat) : Reader Expr := do
  match depth with
  | 0 => failure
  | depth + 1 =>
    if ← accept "\x7d" then return .dict []
    else
      let (k, v) ← readEntry depth
      if ← sees "for" then return .dictOf k v (← readClauses depth "\x7d")
      else return .dict ((k, v) :: (← readEntries depth))

/-- An entry of a dictionary. -/
def readEntry (depth : Nat) : Reader (Expr × Expr) := do
  match depth with
  | 0 => failure
  | depth + 1 =>
    let k ← readTest depth
    expect ":"
    return (k, ← readTest depth)

/-- Further entries of a dictionary, and its closing brace. -/
def readEntries (depth : Nat) : Reader (List (Expr × Expr)) := do
  match depth with
  | 0 => failure
  | depth + 1 =>
    if ← accept "," then
      if ← accept "\x7d" then return []
      else
        let entry ← readEntry depth
        return entry :: (← readEntries depth)
    else
      expect "\x7d"
      return []

/-- The clauses of a comprehension up to its closing bracket. -/
def readClauses (depth : Nat) (close : String) : Reader (List Clause) := do
  match depth with
  | 0 => failure
  | depth + 1 =>
    if ← accept close then return []
    else if ← accept "for" then
      let t ← readLoopTarget depth
      expect "in"
      let source ← readOperation depth 0
      return .loop t source :: (← readClauses depth close)
    else
      expect "if"
      let test ← readPlainTest depth
      return .filter test :: (← readClauses depth close)

/-- The variables of a loop. -/
def readLoopTarget (depth : Nat) : Reader Expr := do
  match depth with
  | 0 => failure
  | depth + 1 =>
    let e ← readSuffixed depth
    if ← sees "," then return .tuple (e :: (← readLoopVars depth)) else return e

/-- Further variables of a loop, each after a comma. -/
def readLoopVars (depth : Nat) : Reader (List Expr) := do
  match depth with
  | 0 => failure
  | depth + 1 =>
    if ← accept "," then
      if ← listEnds then return []
      else
        let e ← readSuffixed depth
        return e :: (← readLoopVars depth)
    else return []

end

/-! ## Statements -/

/-- The operator of an assignment that updates its target. -/
def updateOf? : String → Option BinaryOp
  | "+=" => some .add
  | "-=" => some .sub
  | "*=" => some .mul
  | "/=" => some .div
  | "//=" => some .floorDiv
  | "%=" => some .mod
  | "&=" => some .bitAnd
  | "|=" => some .bitOr
  | "^=" => some .bitXor
  | "<<=" => some .shiftLeft
  | ">>=" => some .shiftRight
  | _ => none

/-- A statement that holds no others. -/
def readSmall (depth : Nat) : Reader Statement := do
  match ← get with
  | .mark "pass" :: rest =>
    set rest
    return .pass
  | .mark "break" :: rest =>
    set rest
    return .leave
  | .mark "continue" :: rest =>
    set rest
    return .next
  | .mark "return" :: rest =>
    set rest
    match rest with
    | [] => return .give none
    | .lineEnd :: _ => return .give none
    | .mark ";" :: _ => return .give none
    | _ => return .give (some (← readList depth false))
  | _ =>
    let e ← readList depth false
    match ← get with
    | .mark "=" :: rest =>
      set rest
      return .assign e (← readList depth false)
    | .mark s :: rest =>
      match updateOf? s with
      | some op =>
        set rest
        return .update op e (← readList depth false)
      | none => return .evaluate e
    | _ => return .evaluate e

/-- The statements of a line, with semicolons between them. -/
def readLine (depth : Nat) : Reader (List Statement) := do
  match depth with
  | 0 => failure
  | depth + 1 =>
    let s ← readSmall depth
    match ← get with
    | .mark ";" :: .lineEnd :: rest =>
      set rest
      return [s]
    | [.mark ";"] =>
      set ([] : List Lexeme)
      return [s]
    | .mark ";" :: rest =>
      set rest
      return s :: (← readLine depth)
    | [] => return [s]
    | _ =>
      expectLexeme .lineEnd
      return [s]

mutual

/-- The statements from the start of a line on: a compound one, or those of the line. -/
def readStatement (depth : Nat) : Reader (List Statement) := do
  match depth with
  | 0 => failure
  | depth + 1 =>
    if ← accept "def" then
      let n ← ident
      expect "("
      let params ← readParams depth false
      expect ")"
      expect ":"
      return [.define n params (← readSuite depth)]
    else if ← accept "if" then return [← readBranch depth]
    else if ← accept "for" then
      let target ← readLoopTarget depth
      expect "in"
      let source ← readList depth false
      expect ":"
      return [.loop target source (← readSuite depth)]
    else readLine depth

/-- A choice between statements after its `if`. -/
def readBranch (depth : Nat) : Reader Statement := do
  match depth with
  | 0 => failure
  | depth + 1 =>
    let test ← readTest depth
    expect ":"
    let yes ← readSuite depth
    if ← accept "elif" then return .branch test yes [← readBranch depth]
    else if ← accept "else" then
      expect ":"
      return .branch test yes (← readSuite depth)
    else return .branch test yes []

/-- The statements after a colon: those of the line, or a block. -/
def readSuite (depth : Nat) : Reader (List Statement) := do
  match depth with
  | 0 => failure
  | depth + 1 =>
    match ← get with
    | .lineEnd :: rest =>
      set rest
      expectLexeme .indent
      let body ← readBlock depth
      expectLexeme .outdent
      return body
    | _ => readLine depth

/-- The statements of a block up to its end. -/
def readBlock (depth : Nat) : Reader (List Statement) := do
  match depth with
  | 0 => failure
  | depth + 1 =>
    match ← get with
    | [] => return []
    | .outdent :: _ => return []
    | _ =>
      let first ← readStatement depth
      return first ++ (← readBlock depth)

end

/-- The statements of a script up to its end. -/
def readStatements (depth : Nat) : Reader (List Statement) := do
  match depth with
  | 0 => failure
  | depth + 1 =>
    match ← get with
    | [] => return []
    | .lineEnd :: rest =>
      set rest
      readStatements depth
    | _ =>
      let first ← readStatement depth
      return first ++ (← readStatements depth)

/-- The depth of recursion that reading some lexemes may take: no rule recurses more than eight
times for a lexeme. -/
def readingDepth (lexemes : List Lexeme) : Nat := 8 * (lexemes.length + 2)

/-- Reads a script. -/
def readScript (lexemes : List Lexeme) : Option (List Statement) :=
  ((readStatements (readingDepth lexemes)).run lexemes).map (·.1)

end Octet.Formula
