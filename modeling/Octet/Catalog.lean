import Octet.Text.Numeral

/-!
# The instruction set

The catalog lists the encodings that the machine understands. A mnemonic may have several encodings;
a call is matched to one by its *overload key*, the name followed by the kinds of the arguments.

* `ArgKind`, `Shape` — kinds of arguments, and the operand layouts they select;
* `Instruction`, `catalog` — the encodings, in the order of their operation numbers;
* `overloadKey`, `Instruction.find?` — looking an encoding up by key.
-/

namespace Octet

/-- The kind of an argument, as far as overloads tell arguments apart. -/
inductive ArgKind where
  | register
  | literal
  /-- A number that stands for neither kind. -/
  | unknown (number : Int)
  deriving DecidableEq, Repr, Inhabited

namespace ArgKind

/-- The kind with a number. -/
def ofNumber (n : Int) : ArgKind :=
  if n = 0 then register else if n = 1 then literal else unknown n

/-- The number of a kind. -/
def number : ArgKind → Int
  | register => 0
  | literal => 1
  | unknown n => n

/-- The name of a kind in keys and messages. -/
def name : ArgKind → Text
  | register => utf8 "register"
  | literal => utf8 "literal"
  | unknown n => utf8 "ArgKind(" ++ Text.decimal n ++ utf8 ")"

end ArgKind

/-- The operand layout of an encoded instruction. -/
inductive Shape where
  /-- One byte, no operation. -/
  | undefined
  /-- Operation and destination, then the source register in the high half of the second byte. -/
  | registerRegister
  /-- Operation and register, then a byte. -/
  | registerLiteral
  /-- Operation and register. -/
  | register
  /-- Operation, then an address, high byte first. -/
  | literal
  deriving DecidableEq, Repr

namespace Shape

/-- The layout that a list of argument kinds selects (`shapeOf`). -/
def ofKinds : List ArgKind → Shape
  | [.register, .register] => registerRegister
  | [.register, .literal] => registerLiteral
  | [.register] => register
  | [.literal] => literal
  | _ => undefined

/-- The number of a layout. -/
def number : Shape → Nat
  | undefined => 0
  | registerRegister => 1
  | registerLiteral => 2
  | register => 3
  | literal => 4

end Shape

/-- The overload key of a name called with arguments of the given kinds. Reference model of
`MakeKey`. -/
def overloadKey (name : Text) (kinds : List ArgKind) : Text :=
  name ++ utf8 "(" ++ (utf8 ",").intercalate (kinds.map ArgKind.name) ++ utf8 ")"

/-- One encoding of a mnemonic. -/
structure Instruction where
  mnemonic : Text
  /-- The operation number, which the high half of the first byte holds. -/
  op : Int
  kinds : List ArgKind
  /-- Encoded length in bytes. -/
  length : Nat
  deriving DecidableEq, Repr, Inhabited

namespace Instruction

/-- The key by which calls reach the encoding. -/
def key (i : Instruction) : Text := overloadKey i.mnemonic i.kinds

/-- The operand layout of the encoding. -/
def shape (i : Instruction) : Shape := Shape.ofKinds i.kinds

end Instruction

/-- The instruction set, in the order of operation numbers (`Catalog`). -/
def catalog : List Instruction := [
  ⟨utf8 "mov", 0x0, [.register, .register], 2⟩,
  ⟨utf8 "mov", 0x1, [.register, .literal], 2⟩,
  ⟨utf8 "mov", 0x2, [.register], 1⟩,
  ⟨utf8 "sta", 0x3, [.register], 1⟩,
  ⟨utf8 "lda", 0x4, [.literal], 3⟩,
  ⟨utf8 "psh", 0x5, [.register], 1⟩,
  ⟨utf8 "pop", 0x6, [.register], 1⟩,
  ⟨utf8 "jnz", 0x7, [.register], 1⟩,
  ⟨utf8 "add", 0x8, [.register, .register], 2⟩,
  ⟨utf8 "adc", 0x9, [.register, .register], 2⟩,
  ⟨utf8 "sub", 0xA, [.register, .register], 2⟩,
  ⟨utf8 "sbb", 0xB, [.register, .register], 2⟩,
  ⟨utf8 "or", 0xC, [.register, .register], 2⟩,
  ⟨utf8 "and", 0xD, [.register, .register], 2⟩,
  ⟨utf8 "not", 0xE, [.register], 1⟩]

/-- Every mnemonic once, in catalog order (`mnemonicsOf`). -/
def mnemonics : List Text := (catalog.map (·.mnemonic)).eraseDups

/-- The encoding that a key selects (`Lookup`). -/
def Instruction.find? (key : Text) : Option Instruction := catalog.find? (·.key == key)

/-- The encoding with an operation number. -/
def Instruction.ofOp? (op : Int) : Option Instruction := catalog.find? (·.op == op)

/-- The name of an operation number: its mnemonic, or the number itself if it is not assigned.
Reference model of `CodeOp.String`. -/
def opName (op : Int) : Text :=
  match Instruction.ofOp? op with
  | some i => i.mnemonic
  | none => utf8 "CodeOp(" ++ Text.decimal op ++ utf8 ")"

end Octet
