import Octet.Catalog
import Octet.Register

/-!
# Decoded instructions

A `Code` is one machine instruction with its operands taken apart.

* `Code.bytes` — its encoding, `Code.length` bytes long;
* `Code.decode` — reads the instruction at the start of some bytes;
* `Code.text` — its assembly form.
-/

namespace Octet

/-- A single instruction. Only the low four bits of the operation and of the registers are
encoded. -/
structure Code where
  op : Int := 0
  /-- First register operand. -/
  reg : UInt8 := 0
  /-- Second register operand. -/
  src : UInt8 := 0
  /-- Byte or address operand. -/
  imm : UInt16 := 0
  deriving DecidableEq, Repr, Inhabited

namespace Code

/-! ## Making codes -/

/-- Two registers (`MakeCodeRR`). -/
def ofRegisters (op : Int) (dst src : UInt8) : Code :=
  { op := op, reg := dst &&& 0xF, src := src &&& 0xF }

/-- A register and a byte (`MakeCodeRL`). -/
def ofRegisterByte (op : Int) (reg imm : UInt8) : Code :=
  { op := op, reg := reg &&& 0xF, imm := imm.toUInt16 }

/-- One register (`MakeCodeR`). -/
def ofRegister (op : Int) (reg : UInt8) : Code := { op := op, reg := reg &&& 0xF }

/-- An address (`MakeCodeL`). -/
def ofAddress (op : Int) (address : UInt16) : Code := { op := op, imm := address }

/-! ## Encoding -/

/-- The encoded operation number. -/
def nibble (c : Code) : Nat := (c.op % 16).toNat

/-- The catalog entry of the encoded operation number. -/
def entry? (c : Code) : Option Instruction := Instruction.ofOp? c.nibble

/-- The operand layout (`Code.Shape`). -/
def shape (c : Code) : Shape :=
  match c.entry? with
  | some i => i.shape
  | none => .undefined

/-- The encoded length; an undefined operation is one byte long. Reference model of
`Code.Length`. -/
def length (c : Code) : Nat :=
  match c.entry? with
  | some i => i.length
  | none => 1

/-- The operation number in the high half of a byte. -/
def opByte (c : Code) : UInt8 := UInt8.ofNat (c.nibble * 16)

/-- The operation number and the first register in one byte. -/
def firstByte (c : Code) : UInt8 := c.opByte ||| (c.reg &&& 0xF)

/-- The encoding (`Code.Bytes`). -/
def bytes (c : Code) : Text :=
  match c.shape with
  | .registerRegister => [c.firstByte, (c.src &&& 0xF) <<< 4]
  | .registerLiteral => [c.firstByte, c.imm.toUInt8]
  | .register => [c.firstByte]
  | .literal => [c.opByte, (c.imm >>> 8).toUInt8, c.imm.toUInt8]
  | .undefined => [c.firstByte]

/-! ## Decoding -/

/-- A word of two bytes. -/
def word (hi lo : UInt8) : UInt16 := (hi.toUInt16 <<< 8) ||| lo.toUInt16

/-- Reads the instruction at the start of `data`. If `data` ends inside it the result is an error
that holds what was read: the operation, if there was a first byte. Reference model of
`DecodeCode`. -/
def decode (data : Text) : Except Code Code :=
  match data with
  | [] => .error {}
  | b₀ :: rest =>
    let c : Code := { op := (b₀ >>> 4).toNat }
    match c.shape, rest with
    | .registerRegister, b₁ :: _ => .ok { c with reg := b₀ &&& 0xF, src := b₁ >>> 4 }
    | .registerLiteral, b₁ :: _ => .ok { c with reg := b₀ &&& 0xF, imm := b₁.toUInt16 }
    | .literal, b₁ :: b₂ :: _ => .ok { c with imm := word b₁ b₂ }
    | .register, _ => .ok { c with reg := b₀ &&& 0xF }
    | .undefined, _ => .ok { c with reg := b₀ &&& 0xF }
    | _, _ => .error c

/-! ## Assembly form -/

/-- The name of the first register. -/
def regName (c : Code) : Text := (Register.ofByte c.reg).name

/-- The name of the second register. -/
def srcName (c : Code) : Text := (Register.ofByte c.src).name

/-- A literal in hexadecimal, as source text writes it. -/
def literalText (width n : Nat) : Text := utf8 "#" ++ Text.hex width n ++ utf8 "h"

/-- The instruction in assembly form (`Code.String`). -/
def text (c : Code) : Text :=
  match c.shape with
  | .registerRegister => opName c.op ++ utf8 " " ++ c.regName ++ utf8 ", " ++ c.srcName
  | .registerLiteral =>
    opName c.op ++ utf8 " " ++ c.regName ++ utf8 ", " ++ literalText 2 (c.imm &&& 0xFF).toNat
  | .register => opName c.op ++ utf8 " " ++ c.regName
  | .literal => opName c.op ++ utf8 " " ++ literalText 4 c.imm.toNat
  | .undefined => utf8 "??? " ++ literalText 2 c.firstByte.toNat

end Code

end Octet
