import Octet.Fault
import Octet.Source
import Octet.Statement.Basic
import Octet.Table

/-!
# Places in expanded programs

A statement that comes from macro calls is blamed at its own place, with the calls that led to it.
-/

namespace Octet

/-- The place of a macro call. -/
structure Site where
  key : Text
  token : Token
  deriving DecidableEq, Repr

/-- A fault inside of macro calls, of which the innermost comes first. -/
def Fault.within (calls : List Site) (f : Fault) : Fault :=
  calls.foldl (fun inner c => .inMacro c.key c.token.file c.token.line inner) f

/-- A fault at a token, reached through macro calls. The line is quoted from the source of the
token. Reference model of `Assembler.fail`. -/
def Fault.at (sources : Table Text) (t : Token) (calls : List Site) (parts : List Fault) : Fault :=
  .located t.file t.offset t.line (Source.lineAt ((sources.find? t.file).getD []) t.offset.toNat)
    (Fault.within calls (.all parts))

end Octet
