import Octet.Catalog
import Octet.Register
import Octet.Token.Basic

/-!
# Statements of a program

What a source consists of once it is parsed, from the inside out. Reference model of the types of
`Node` and `Arg`.

* `Arg`, `Call` — arguments, and calls of an instruction or a macro;
* `Stmt` — a call or a label, the things that a macro body may hold;
* `Macro`, `Item` — macro definitions, and statements with definitions among them;
* `Node` — items with includes among them, the content of one source.
-/

namespace Octet

/-- An argument of a call. -/
inductive Arg where
  | register (name : Text) (index : Register) (token : Token)
  | literal (value : UInt32) (token : Token)
  | label (name : Text) (token : Token)
  /-- A register parameter of the enclosing macro. -/
  | registerParam (index : Int) (token : Token)
  /-- A literal parameter of the enclosing macro. -/
  | literalParam (index : Int) (token : Token)
  deriving DecidableEq, Repr, Inhabited

namespace Arg

/-- The kind by which overloads are chosen; a label counts as a literal. -/
def kind : Arg → ArgKind
  | register .. => .register
  | literal .. => .literal
  | label .. => .literal
  | registerParam .. => .register
  | literalParam .. => .literal

/-- Where the argument stands. -/
def token : Arg → Token
  | register _ _ t => t
  | literal _ t => t
  | label _ t => t
  | registerParam _ t => t
  | literalParam _ t => t

/-- The argument as source text; a literal in decimal. -/
def text : Arg → Text
  | register name _ _ => name
  | literal value _ => utf8 "#" ++ Text.decimal value.toNat
  | label name _ => utf8 "$" ++ name
  | registerParam index _ => utf8 "%r" ++ Text.decimal index
  | literalParam index _ => utf8 "%l" ++ Text.decimal index

end Arg

/-- How the name of a call is spelt: as a mnemonic, or as any other word. -/
inductive CallForm where
  | mnemonic
  | word
  deriving DecidableEq, Repr, Inhabited

/-- A call of an instruction or a macro. -/
structure Call where
  form : CallForm
  name : Text
  args : List Arg
  token : Token
  deriving DecidableEq, Repr, Inhabited

namespace Call

/-- The kinds of the arguments, in order (`kindsOf`). -/
def kinds (c : Call) : List ArgKind := c.args.map Arg.kind

/-- The overload key that the call looks for. -/
def key (c : Call) : Text := overloadKey c.name c.kinds

/-- The name and the arguments, each as source text (`words`). -/
def words (c : Call) : List Text := c.name :: c.args.map Arg.text

/-- The call as source text (`callText`). -/
def text (c : Call) : Text :=
  if c.args.isEmpty then c.name
  else c.name ++ utf8 " " ++ (utf8 ", ").intercalate (c.args.map Arg.text)

end Call

/-- A statement: a call, or a label for the address at its place. -/
inductive Stmt where
  | call (c : Call)
  | label (name : Text) (token : Token)
  deriving DecidableEq, Repr, Inhabited

namespace Stmt

/-- Where the statement stands. -/
def token : Stmt → Token
  | call c => c.token
  | label _ t => t

end Stmt

/-- The definition of a macro. -/
structure Macro where
  name : Text
  /-- The kinds of the parameters, in order. -/
  params : List ArgKind
  body : List Stmt
  token : Token
  deriving DecidableEq, Repr, Inhabited

namespace Macro

/-- The overload key by which the macro is called. -/
def key (m : Macro) : Text := overloadKey m.name m.params

/-- The number of register parameters. -/
def registers (m : Macro) : Nat := m.params.count .register

/-- The number of literal parameters. -/
def literals (m : Macro) : Nat := m.params.count .literal

end Macro

/-- A statement or a macro definition. -/
inductive Item where
  | stmt (s : Stmt)
  | definition (m : Macro)
  deriving DecidableEq, Repr, Inhabited

namespace Item

/-- Where the item stands; a definition at its name. -/
def token : Item → Token
  | stmt s => s.token
  | definition m => m.token

end Item

/-- An element of a source: an item, or the place where another source is spliced in. -/
inductive Node where
  | item (i : Item)
  | splice (path : Text) (token : Token)
  deriving DecidableEq, Repr, Inhabited

namespace Node

/-- Where the element stands. -/
def token : Node → Token
  | item i => i.token
  | splice _ t => t

end Node

end Octet
