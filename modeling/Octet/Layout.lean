import Octet.Expansion.Macros
import Octet.Program

/-!
# Layout of expanded programs

The two passes over an expanded program: the first gives every label the address at its place, the
second encodes the instructions, for which it needs the addresses of all labels.

* `Layout.assignLabels` — the label addresses;
* `Layout.encode` — one instruction with its operands checked and packed;
* `Layout.emit` — the rows of the program.
-/

namespace Octet.Layout

open Expansion (Placed)

/-- The last address. -/
def lastAddress : Nat := 0xffff

/-- The label addresses found so far, and the log lines about them. -/
structure LabelState where
  labels : Table UInt16
  log : Array Text

/-- Gives the labels of a program that starts at `address` their addresses. No name may occur twice.
A failure leaves the labels before it. Reference model of `Assembler.resolveLabels`. -/
def assignLabels (sources : Table Text) (verbose : Bool) (s : LabelState) (address : Nat) :
    List Placed → Except (Fault × LabelState) LabelState
  | [] => .ok s
  | .label name t calls :: rest =>
    if (s.labels.find? name).isSome then
      .error (.at sources t calls [.cause .resolution, .labelDuplicate name], s)
    else if lastAddress < address then
      .error (.at sources t calls [.cause .range, .literalRange address lastAddress], s)
    else
      let log := if verbose then
          s.log.push (utf8 "asm: $" ++ name ++ utf8 " = " ++ Text.hexMarked 4 address)
        else s.log
      assignLabels sources verbose ⟨(name, UInt16.ofNat address) :: s.labels, log⟩ address rest
  | .instruction entry _ _ :: rest => assignLabels sources verbose s (address + entry.length) rest

/-- The number of the register that an argument names (`registerOf`). -/
def registerByte : Arg → UInt8
  | .register _ index _ => index.toByte
  | _ => 0

/-- The value of an address operand: a literal, or the address of a label. -/
def addressOf (sources : Table Text) (labels : Table UInt16) (calls : List Site) (a : Arg) :
    Except Fault Nat :=
  match a with
  | .label name t =>
    match labels.find? name with
    | some address => .ok address.toNat
    | none => .error (.at sources t calls [.cause .resolution, .labelMissing name])
  | .literal value _ => .ok value.toNat
  | _ => .ok 0

/-- The code of an instruction. An operand that does not fit its place is refused. Reference model
of `Assembler.encode`. -/
def encode (sources : Table Text) (labels : Table UInt16) (entry : Instruction) (c : Call)
    (calls : List Site) :
    Except Fault Code :=
  match entry.shape, c.args with
  | .registerRegister, a :: b :: _ => .ok (.ofRegisters entry.op (registerByte a) (registerByte b))
  | .registerLiteral, a :: b :: _ =>
    match b with
    | .label _ t => .error (.at sources t calls [.cause .range, .cause .labelImmediate])
    | .literal value t =>
      if 0xff < value.toNat then
        .error (.at sources t calls [.cause .range, .literalRange value.toNat 0xff])
      else .ok (.ofRegisterByte entry.op (registerByte a) value.toUInt8)
    | _ => .ok {}
  | .register, a :: _ => .ok (.ofRegister entry.op (registerByte a))
  | .literal, a :: _ => do
    let value ← addressOf sources labels calls a
    if lastAddress < value then
      .error (.at sources a.token calls [.cause .range, .literalRange value lastAddress])
    else .ok (.ofAddress entry.op (UInt16.ofNat value))
  | _, _ => .error (.at sources c.token calls [.cause .resolution, .unknownInstruction entry.key])

/-- The rows of a program that goes on at `address`, after those found so far. Reference model of
`Assembler.emit`. -/
def emit (sources : Table Text) (labels : Table UInt16) (rows : Array Row) (address : Nat) :
    List Placed → Except Fault (List Row)
  | [] => .ok rows.toList
  | .label .. :: rest => emit sources labels rows address rest
  | .instruction entry c calls :: rest =>
    match encode sources labels entry c calls with
    | .error f => .error f
    | .ok code =>
      emit sources labels (rows.push ⟨c.token.file, c.token.line, address, c.words, code⟩)
        (address + entry.length)
        rest

end Octet.Layout
