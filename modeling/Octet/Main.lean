import Octet.Command.Basic

/-!
# The command line tool

Reads what a command may need into a file tree, runs the command on the tree, and then prints what
it printed and writes the files that it changed. Reference model of `main`.
-/

namespace Octet.Tool

/-- The paths that a source includes. -/
def includePaths (source : Text) : List Text :=
  match Token.scan [] source with
  | .ok tokens => (tokens.filter (·.kind == .string)).map (·.text)
  | .error _ => []

/-- A path of some elements from the root, as a string. -/
def pathString (place : List Text) : String :=
  (String.fromUTF8? ⟨('/'.toUInt8 :: Path.join place).toArray⟩).getD ""

/-- Adds what is found at a place to a tree. -/
def probe (t : FileTree) (place : List Text) : IO FileTree := do
  if place.isEmpty || t.entryAt place != .missing then return t
  let path := pathString place
  try
    if ← (← IO.FS.realPath path).isDir then
      return { t with folders := Path.join place :: t.folders }
    let content ← IO.FS.readBinFile path
    return { t with files := t.files.insert (Path.join place) content.data.toList }
  catch _ => return t

/-- Adds what is found on a path to a tree. -/
def probePath (t : FileTree) (path : Text) : IO FileTree := do
  let mut tree := t
  let mut place := if Path.isAbsolute path then [] else t.start
  for e in Path.elements path do
    place :=
      if e.isEmpty || e == Path.here then place
      else if e == Path.above then place.dropLast
      else place ++ [e]
    tree ← probe tree place
  return tree

/-- Adds the files that sources include, looking in some folders, until no new source is found. -/
partial def probeIncludes (t : FileTree) (folders : List Text) (done : List Text)
  (sources : List Text) :
    IO FileTree := do
  match sources with
  | [] => return t
  | source :: rest =>
    let names := (includePaths source).filter fun n => !done.contains n
    let mut tree := t
    let mut found := rest
    for n in names do
      for f in folders do
        let path := f ++ [Path.slash] ++ Path.clean n
        tree ← probePath tree path
        if let .ok text := tree.read path then found := text :: found
    probeIncludes tree folders (names ++ done) found

/-- The tree that a command needs. -/
def treeFor (start : List Text) (args : List Text) : IO FileTree := do
  let mut tree : FileTree := { start := start }
  for i in List.range start.length do
    tree ← probe tree (start.take (i + 1))
  match Command.requestOf .standard args with
  | none => return tree
  | some (o, file) =>
    for path in [file, Path.withoutExtension file ++ utf8 ".bin", o.output, o.listing] do
      tree ← probePath tree path
    match o.binary, tree.read file with
    | false, .ok source => probeIncludes tree (Path.folder file :: o.folders) [] [source]
    | _, _ => return tree

/-- More ticks than a run can take. -/
def endless : Nat := 0x4000000000000000

/-- Runs the tool. -/
def run (args : List String) : IO UInt32 := do
  let start := ((Path.elements (utf8 (← IO.currentDir).toString)).filter fun e => !e.isEmpty)
  let args := args.map utf8
  let tree ← treeFor start args
  let r := Command.runTool endless tree args
  let stderr ← IO.getStderr
  for l in r.log do
    stderr.write ⟨(l ++ [Text.lf]).toArray⟩
  (← IO.getStdout).write ⟨r.stdout.toArray⟩
  stderr.write ⟨r.stderr.toArray⟩
  for (path, content) in r.tree.changedFrom tree do
    IO.FS.writeBinFile (pathString [path]) ⟨content.toArray⟩
  return if r.fault.isSome then 1 else 0

end Octet.Tool

def main (args : List String) : IO UInt32 := Octet.Tool.run args
