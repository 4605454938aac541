/-!
# Words

The ranges of signed words, into which some numbers have to fit.
-/

namespace Octet.Word

/-- The number of natural numbers that a signed word of 64 bits holds. -/
def signedLimit : Nat := 0x8000000000000000

/-- The number of values of an unsigned word of 64 bits. -/
def unsignedLimit : Nat := 0x10000000000000000

/-- Whether an integer fits a signed word of 32 bits. -/
def fits32 (n : Int) : Bool := -0x80000000 ≤ n && n < 0x80000000

/-- Whether an integer fits a signed word of 64 bits. -/
def fits64 (n : Int) : Bool := -0x8000000000000000 ≤ n && n < 0x8000000000000000

end Octet.Word
