import Octet.Text.Basic

/-!
# Registers

The machine has sixteen byte registers. Nine are general, `rv` is the scratch register of the
standard macros, `rah` and `ral` hold an address, `rsp` is the stack pointer and `rf` holds the
flags. The name `rz` is a second name of `r0`.
-/

namespace Octet

/-- A register, by its number. -/
abbrev Register := Fin 16

namespace Register

/-- The number of registers. -/
def count : Nat := 16

/-- The first register. -/
def r0 : Register := ⟨0, by decide⟩

/-- Scratch register of the standard macros. -/
def rv : Register := 9

/-- Low byte of the address pair. -/
def ral : Register := 11

/-- High byte of the address pair. -/
def rah : Register := 12

/-- Stack pointer. -/
def rsp : Register := 13

/-- Flags. -/
def rf : Register := 15

/-- Every name with the register that it stands for, sorted by name. -/
def named : List (Text × Register) := [
  (utf8 "r0", 0), (utf8 "r1", 1), (utf8 "r2", 2), (utf8 "r3", 3), (utf8 "r4", 4), (utf8 "r5", 5),
  (utf8 "r6", 6), (utf8 "r7", 7), (utf8 "r8", 8), (utf8 "rah", 12), (utf8 "ral", 11),
  (utf8 "rbp", 14), (utf8 "rf", 15), (utf8 "rsh", 10), (utf8 "rsp", 13), (utf8 "rv", 9),
  (utf8 "rz", 0)]

/-- The register that a name stands for (`RegisterIndex`). -/
def ofName? (name : Text) : Option Register := named.lookup name

/-- The names under which registers are printed, by number. -/
def names : Vector Text 16 := #v[
  utf8 "r0", utf8 "r1", utf8 "r2", utf8 "r3", utf8 "r4", utf8 "r5", utf8 "r6", utf8 "r7",
  utf8 "r8", utf8 "rv", utf8 "rsh", utf8 "ral", utf8 "rah", utf8 "rsp", utf8 "rbp", utf8 "rf"]

/-- The name under which a register is printed. -/
def name (r : Register) : Text := names.get r

/-- The register that the low four bits of a byte select. -/
def ofByte (b : UInt8) : Register := ⟨b.toNat % 16, Nat.mod_lt _ (by decide)⟩

/-- The number of a register as a byte. -/
def toByte (r : Register) : UInt8 := UInt8.ofNat r.val

end Register

end Octet
