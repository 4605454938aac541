import Octet.Machine.Basic

/-!
# Execution

One tick fetches an instruction and executes it.

* `Operation` — what an operation number asks for;
* `Machine.accessed?`, `Machine.nextAddress` — the address that an instruction accesses, and where
  it goes on;
* `Machine.perform` — its effect on registers and memory;
* `Machine.execute`, `Machine.tick` — one instruction, and one tick.

An access outside of memory leaves the machine as it was. An instruction after which execution would
leave memory fails as well, unless the machine is halted; its effect on registers and memory stays.
-/

namespace Octet

/-- What an operation number asks for. -/
inductive Operation where
  /-- Copies a register. -/
  | copy
  /-- Sets a register to a byte. -/
  | set
  /-- Loads a register from the address pair. -/
  | load
  /-- Stores a register at the address pair. -/
  | store
  /-- Sets the address pair. -/
  | point
  /-- Pushes a register on the stack in page zero. -/
  | push
  /-- Pops a register off the stack. -/
  | pop
  /-- Jumps to the address pair if a register is not zero. -/
  | jump
  | add
  | addCarry
  | sub
  | subBorrow
  | or
  | and
  | not
  /-- Does nothing. -/
  | idle
  deriving DecidableEq, Repr

/-- The operation of a number. -/
def Operation.ofNumber : Nat → Operation
  | 0x0 => copy
  | 0x1 => set
  | 0x2 => load
  | 0x3 => store
  | 0x4 => point
  | 0x5 => push
  | 0x6 => pop
  | 0x7 => jump
  | 0x8 => add
  | 0x9 => addCarry
  | 0xA => sub
  | 0xB => subBorrow
  | 0xC => or
  | 0xD => and
  | 0xE => not
  | _ => idle

namespace Machine

/-- The address after an instruction. -/
def following (m : Machine) (c : Code) : Nat := m.ip.toNat + c.length

/-- The address in memory that an instruction reads or writes. -/
def accessed? (m : Machine) (c : Code) : Option Nat :=
  match Operation.ofNumber c.nibble with
  | .load => some m.address.toNat
  | .store => some m.address.toNat
  | .push => some (m.reg .rsp).toNat
  | .pop => some (m.reg .rsp + 1).toNat
  | _ => none

/-- The address outside of memory that an instruction would access. -/
def outside? (m : Machine) (c : Code) : Option Nat := (m.accessed? c).filter (m.memory.size ≤ ·)

/-- The address of the next instruction: a jump goes to the address pair if its register is not
zero. -/
def nextAddress (m : Machine) (c : Code) : Nat :=
  if Operation.ofNumber c.nibble = .jump ∧ m.reg (Register.ofByte c.reg) ≠ 0 then m.address.toNat
  else m.following c

/-- The effect of an instruction on registers and memory.

The flags of additions and subtractions come from the numbers of the registers, and are set before
the registers are read. -/
def perform (m : Machine) (c : Code) : Machine :=
  let dst := Register.ofByte c.reg
  let src := Register.ofByte c.src
  match Operation.ofNumber c.nibble with
  | .copy => m.setReg dst (m.reg src)
  | .set => m.setReg dst c.imm.toUInt8
  | .load => m.setReg dst (m.read m.address.toNat)
  | .store => m.write m.address.toNat (m.reg dst)
  | .point => (m.setReg .rah (c.imm >>> 8).toUInt8).setReg .ral c.imm.toUInt8
  | .push =>
    let sp := m.reg .rsp
    (m.write sp.toNat (m.reg dst)).setReg .rsp (sp - 1)
  | .pop =>
    let sp := m.reg .rsp + 1
    let v := m.read sp.toNat
    (m.setReg .rsp sp).setReg dst v
  | .jump => m
  | .add =>
    let m := m.setFlag Flag.carry (0xff < dst.val + src.val)
    m.setReg dst (m.reg dst + m.reg src)
  | .addCarry =>
    let carry := m.reg .rf &&& Flag.carry
    m.setReg dst (m.reg dst + (m.reg src + carry))
  | .sub =>
    let m := m.setFlag Flag.borrow (dst ≤ src)
    m.setReg dst (m.reg dst - m.reg src)
  | .subBorrow =>
    let borrow := m.reg .rf &&& Flag.borrow
    let m := m.setFlag Flag.borrow (dst.val ≤ src.val + borrow.toNat)
    m.setReg dst (m.reg dst - (m.reg src - borrow))
  | .or => m.setReg dst (m.reg dst ||| m.reg src)
  | .and => m.setReg dst (m.reg dst &&& m.reg src)
  | .not => m.setReg dst (~~~m.reg dst)
  | .idle => m

/-- The fault of an instruction that needs an address outside of memory. -/
def accessFault (c : Code) (address : Nat) : Fault := .all [.opcode c, .outOfBounds address]

/-- Executes an instruction. Reference model of `Cpu.Execute`. -/
def execute (m : Machine) (c : Code) : Machine × Option Fault :=
  match m.outside? c with
  | some address => (m, some (accessFault c address))
  | none =>
    let next := m.nextAddress c
    let m := m.perform c
    if m.memory.size ≤ next && !m.halted then (m, some (accessFault c next))
    else ({ m with ip := UInt16.ofNat next }, none)

/-- Executes the instruction at the instruction pointer. Reference model of `Cpu.Tick`. -/
def tick (m : Machine) : Machine × Option Fault :=
  match m.fetch with
  | .error (f, _) => (m, some f)
  | .ok c =>
    match m.execute c with
    | (m, none) => ({ m with ticks := m.ticks + 1 }, none)
    | (m, some f) => (m, some f)

/-- The log lines of executing an instruction. -/
def executeLog (m : Machine) (c : Code) : List Text :=
  if m.verbose then [Text.hex 4 m.ip.toNat ++ utf8 ": " ++ c.text] else []

/-- The log lines of a tick. -/
def tickLog (m : Machine) : List Text :=
  match m.fetch with
  | .ok c => m.executeLog c
  | .error _ => []

end Machine

end Octet
