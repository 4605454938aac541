import Octet.Code
import Octet.Table

/-!
# Assembled programs

A program is a list of rows, one for each instruction, with the label addresses. Its image is the
encoding of the rows one after the other.

* `Program.image` — the bytes;
* `Program.rowAt?`, `Program.locate?` — the row that holds an address, and the place of the address
  in it;
* `Program.listing` — the printed form: addresses, bytes, instructions and places in the source.
-/

namespace Octet

/-- One instruction of a program and where it came from. -/
structure Row where
  /-- The path of the source; empty for the root source. -/
  file : Text
  line : Int
  /-- Address of the first byte. -/
  ip : Int
  /-- The call as it was written, after macro parameters were replaced. -/
  words : List Text
  code : Code
  deriving DecidableEq, Repr, Inhabited

/-- A place in a listing. -/
structure Located where
  row : Row
  /-- Offset into the instruction of the row. -/
  index : Int
  deriving DecidableEq, Repr

/-- An assembled program. -/
structure Program where
  rows : List Row := []
  labels : Table UInt16 := []
  deriving Repr, Inhabited

namespace Row

/-- Whether an address lies in the row's instruction. -/
def holds (r : Row) (address : Nat) : Bool :=
  r.ip ≤ (address : Int) && (address : Int) < r.ip + (r.code.length : Int)

/-- The place of the row in its source. -/
def place (r : Row) : Text :=
  if r.file.isEmpty then Text.decimal r.line else r.file ++ utf8 ":" ++ Text.decimal r.line

/-- The printed form of the row. -/
def text (r : Row) : Text :=
  let bytes := (utf8 " ").intercalate (r.code.bytes.map fun b => Text.hex 2 b.toNat)
  Text.signedHex 4 r.ip ++ utf8 ": " ++ Text.padRight 9 bytes ++ utf8 " " ++
    Text.padRight 20 r.code.text ++ utf8 " ; " ++ r.place ++ utf8 "\n"

end Row

namespace Program

/-- The bytes of the program, which are loaded at address zero (`Program.Binary`). -/
def image (p : Program) : Text := p.rows.flatMap fun r => r.code.bytes

/-- The first row that holds an address. -/
def rowAt? (p : Program) (address : Nat) : Option Row := p.rows.find? (·.holds address)

/-- The place of an address in the listing: the first row that holds it, and the offset of the
address into the instruction of the row. Reference model of `Program.Debug`. -/
def locate? (p : Program) (ip : UInt16) : Option Located :=
  (p.rowAt? ip.toNat).map fun r => ⟨r, ip.toNat - r.ip⟩

/-- The instructions by address, modulo the size of the address space (`Program.Codes`). -/
def codes (p : Program) : List (UInt16 × Code) := p.rows.map fun r => (UInt16.ofInt r.ip, r.code)

/-- The instruction that starts at an address. -/
def codeAt? (p : Program) (address : UInt16) : Option Code := p.codes.lookup address

/-! ## Listing -/

/-- The names of labels at an address, sorted. -/
def namesAt (labels : Table UInt16) (address : Int) : List Text :=
  Table.sortedNames (labels.filter fun l => (l.2.toNat : Int) == address)

/-- The printed form of a label. -/
def labelText (address : Int) (name : Text) : Text :=
  Text.signedHex 4 address ++ utf8 ":              $" ++ name ++ utf8 ":\n"

/-- The lines for rows, where `labels` are those not printed yet: the labels of an address stand
before the first row that starts there. -/
def listingLines (labels : Table UInt16) : List Row → List Text
  | [] => []
  | r :: rows =>
    (namesAt labels r.ip).map (labelText r.ip) ++
      r.text :: listingLines (labels.filter fun l => (l.2.toNat : Int) != r.ip) rows

/-- The lines of the listing. -/
def lines (p : Program) : List Text := listingLines p.labels p.rows

/-- The listing. Reference model of `Program.WriteListing`. -/
def listing (p : Program) : Text := p.lines.flatten

end Program

end Octet
