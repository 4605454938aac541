/-!
# Constants of the machine

The size of its memory, and the bits of its flag register.
-/

namespace Octet

/-- The number of bytes of memory. -/
def memorySize : Nat := 49152

namespace Flag

/-- Stops the machine. -/
def halt : UInt8 := 1

/-- Carry of an addition. -/
def carry : UInt8 := 2

/-- Borrow of a subtraction. -/
def borrow : UInt8 := 4

end Flag

end Octet
