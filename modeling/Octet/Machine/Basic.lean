import Octet.Fault
import Octet.Machine.Memory

/-!
# The machine

Sixteen byte registers, a memory that holds code and data, and an instruction pointer. Reference
model of `Cpu`, but for the execution of instructions.

* `Machine` — the state;
* `Machine.load` — a machine that starts with an image;
* `Machine.fetch` — the instruction at the instruction pointer;
* `Machine.text` — the printed form of the registers.
-/

namespace Octet

/-- The state of the machine (`Cpu`). -/
structure Machine where
  /-- The address of the next instruction. -/
  ip : UInt16 := 0
  registers : Vector UInt8 16 := Vector.replicate 16 0
  memory : Array UInt8 := Array.replicate memorySize 0
  /-- The number of instructions executed since the last reset. -/
  ticks : Nat := 0
  /-- Whether the log tells what the machine does. -/
  verbose : Bool := false
  deriving Inhabited

namespace Machine

/-! ## Registers and memory -/

/-- The value of a register. -/
def reg (m : Machine) (r : Register) : UInt8 := m.registers.get r

/-- Sets a register. -/
def setReg (m : Machine) (r : Register) (v : UInt8) : Machine :=
  { m with registers := m.registers.set r.val v r.isLt }

/-- The address that the pair `rah`, `ral` holds. -/
def address (m : Machine) : UInt16 := Code.word (m.reg .rah) (m.reg .ral)

/-- Sets or clears a flag (`Cpu.setFlag`). -/
def setFlag (m : Machine) (flag : UInt8) (on : Bool) : Machine :=
  m.setReg .rf (if on then m.reg .rf ||| flag else m.reg .rf &&& ~~~flag)

/-- Whether the halt flag is set (`Cpu.Halted`). -/
def halted (m : Machine) : Bool := m.reg .rf &&& Flag.halt != 0

/-- The byte at an address; zero outside of memory. -/
def read (m : Machine) (address : Nat) : UInt8 := m.memory[address]?.getD 0

/-- Sets the byte at an address; outside of memory nothing happens. -/
def write (m : Machine) (address : Nat) (v : UInt8) : Machine :=
  { m with memory := m.memory.setIfInBounds address v }

/-! ## Starting -/

/-- The machine with empty registers and memory (`Cpu.Reset`). -/
def reset (m : Machine) : Machine := { verbose := m.verbose }

/-- A memory that starts with an image. -/
def memoryOf (image : Text) : Array UInt8 :=
  image.toArray ++ Array.replicate (memorySize - image.length) 0

/-- A reset machine with an image at address zero, unless the image is too large (`Cpu.Load`). -/
def load (m : Machine) (image : Text) : Except Fault Machine :=
  if memorySize < image.length then .error (.cause .imageSize)
  else .ok { m.reset with memory := memoryOf image }

/-- The log lines of a reset. -/
def resetLog (m : Machine) : List Text := if m.verbose then [utf8 "cpu: reset"] else []

/-- The log lines of loading an image. -/
def loadLog (m : Machine) (image : Text) : List Text :=
  if memorySize < image.length then []
  else if m.verbose then
    [utf8 "cpu: reset", utf8 "cpu: loaded " ++ Text.decimal image.length ++ utf8 " bytes"]
  else []

/-! ## Fetching -/

/-- The longest encoding. -/
def longest : Nat := 3

/-- The bytes from an address on, as many as an instruction can take. -/
def bytesAt (m : Machine) (address : Nat) : Text :=
  (m.memory.extract address (address + longest)).toList

/-- The instruction at the instruction pointer. A failure comes with what was read of it. Reference
model of `Cpu.FetchCode`. -/
def fetch (m : Machine) : Except (Fault × Code) Code :=
  if m.memory.size ≤ m.ip.toNat then .error (.outOfBounds m.ip.toNat, {})
  else
    match Code.decode (m.bytesAt m.ip.toNat) with
    | .ok c => .ok c
    | .error c => .error (.all [.cause .opcodeShort, .outOfBounds (m.ip.toNat + c.length - 1)], c)

/-! ## Printing -/

/-- One line of the printed form. -/
def textLine (name value : Text) : Text := Text.padLeft 5 name ++ utf8 ": " ++ value ++ utf8 "\n"

/-- The printed form of the instruction pointer and the registers (`Cpu.String`). -/
def text (m : Machine) : Text :=
  textLine (utf8 "ip") (Text.hex 4 m.ip.toNat) ++
    (List.finRange 16).flatMap fun r => textLine (Register.name r) (Text.hex 2 (m.reg r).toNat)

end Machine

end Octet
