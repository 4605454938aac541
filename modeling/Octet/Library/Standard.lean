import Octet.Library.FileTree
import Octet.Library.Resolver
import Octet.Text.Quoted

/-!
# Libraries of sources

The resolvers that includes are looked up with: file trees, and the standard library of macros.

* `Resolver.ofReader` — files that are read by clean local paths;
* `standardSource`, `Resolver.standard` — the standard library;
* `Resolver.folders` — some folders, then the standard library.
-/

namespace Octet

/-- The lines of the standard library. -/
def standardLines : List String := [
  "; Standard macro library.",
  "; The macros use rv as scratch, and may clobber the carry and borrow flags.",
  "",
  "; Halt the machine.",
  "@macro hlt",
  "\tmov rv, #1",
  "\tor rf, rv",
  "@endmacro",
  "",
  "@macro add %r0, %l0",
  "\tmov rv, %l0",
  "\tadd %r0, rv",
  "@endmacro",
  "",
  "@macro sub %r0, %l0",
  "\tmov rv, %l0",
  "\tsub %r0, rv",
  "@endmacro",
  "",
  "@macro inc %r0",
  "\tadd %r0, #1",
  "@endmacro",
  "",
  "@macro dec %r0",
  "\tsub %r0, #1",
  "@endmacro",
  "",
  "; Jump to the label if the register is not zero.",
  "@macro jnz %r0, %l0",
  "\tlda %l0",
  "\tjnz %r0",
  "@endmacro",
  "",
  "@macro jmp %l0",
  "\tlda %l0",
  "\tmov rv, #1",
  "\tjnz rv",
  "@endmacro",
  "",
  "@macro nop",
  "\tor r0, r0",
  "@endmacro"]

/-- The source of the standard library. -/
def standardSource : Text := standardLines.flatMap fun l => utf8 l ++ [Text.lf]

/-- The path of the standard library. -/
def standardPath : Text := utf8 "std.asm"

namespace Resolver

/-- Reads sources by clean paths, which must be local. The reader tells its failures, which are
logged. Reference model of `FS.Resolve`. -/
def ofReader (verbose : Bool) (read : Text → Except Text Text) : Resolver where
  find path :=
    let name := Path.clean path
    if Path.isLocal name then (read name).toOption else Option.none
  remarks path :=
    let name := Path.clean path
    if !verbose then []
    else if !Path.isLocal name then
      [utf8 "include: " ++ Text.quote name ++ utf8 ": " ++ Trouble.invalid.message]
    else
      match read name with
      | .ok _ => []
      | .error reason => [utf8 "include: " ++ reason]

/-- The files of a tree by their exact paths. -/
def archive (verbose : Bool) (t : FileTree) : Resolver := ofReader verbose t.readArchive

/-- The files below a folder of a tree (`Dir`). -/
def folder (verbose : Bool) (t : FileTree) (path : Text) : Resolver :=
  ofReader verbose (t.readUnder path)

/-- The standard library (`Std`). -/
def standard : Resolver := ofTable [(standardPath, standardSource)]

/-- The files below some folders, each given with its tree, then the standard library
(`Default`). -/
def folders (verbose : Bool) (fs : List (FileTree × Text)) : Resolver :=
  chain (fs.map (fun f => folder verbose f.1 f.2) ++ [standard])

end Resolver

end Octet
