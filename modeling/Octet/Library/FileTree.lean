import Octet.Library.Path
import Octet.Table

/-!
# File trees

A file tree holds files and folders by path, and the folder from which relative paths start. Paths
are followed element by element, as a file system does it: every element but the last must name a
folder, also where `..` follows. Reference model of the files that `FS.Resolve` and the commands
read and write.

* `FileTree.read`, `FileTree.write` — reads and writes files by path;
* `FileTree.readUnder` — reads a file below a folder;
* `FileTree.readArchive` — reads a file by its exact path.

Failures are told by their wording, which names what was tried and the path.
-/

namespace Octet

/-- Files and folders. Their paths start at the root, without a slash in front; a file implies the
folders above it. -/
structure FileTree where
  files : Table Text := []
  folders : List Text := []
  /-- The elements of the folder from which relative paths start. -/
  start : List Text := []
  deriving Repr, Inhabited

/-- Why a path cannot be used. -/
inductive Trouble where
  | missing
  | notFolder
  | isFolder
  | invalid
  | nameTooLong
  deriving DecidableEq, Repr

namespace Trouble

/-- The wording of a failure. -/
def message : Trouble → Text
  | missing => utf8 "no such file or directory"
  | notFolder => utf8 "not a directory"
  | isFolder => utf8 "is a directory"
  | invalid => utf8 "invalid argument"
  | nameTooLong => utf8 "file name too long"

end Trouble

/-- The wording of a failed attempt on a path. -/
def attempt (action : String) (path reason : Text) : Text :=
  utf8 action ++ utf8 " " ++ path ++ utf8 ": " ++ reason

/-- What a path names. -/
inductive Entry where
  | file (content : Text)
  | folder
  | missing
  deriving DecidableEq, Repr

namespace FileTree

/-- Whether something lies below a path. -/
def hasBelow (t : FileTree) (path : Text) : Bool :=
  let start := path ++ [Path.slash]
  t.files.any (fun f => start.isPrefixOf f.1) ||
    t.folders.any (fun f => f == path || start.isPrefixOf f)

/-- What a clean path names. -/
def entry (t : FileTree) (path : Text) : Entry :=
  match t.files.find? path with
  | some content => .file content
  | none => if path == Path.here || t.hasBelow path then .folder else .missing

/-- What the path of some elements from the root names. -/
def entryAt (t : FileTree) (place : List Text) : Entry :=
  if place.isEmpty then .folder else t.entry (Path.join place)

/-- The longest name of an element. -/
def longestName : Nat := 255

/-- Follows one element from a place, which must be a folder. Above the root there is only the
root. -/
def follow (t : FileTree) (place : List Text) (e : Text) : Except Trouble (List Text) :=
  match t.entryAt place with
  | .missing => .error .missing
  | .file _ => .error .notFolder
  | .folder =>
    if e.isEmpty || e == Path.here then .ok place
    else if e == Path.above then .ok place.dropLast
    else if longestName < e.length then .error .nameTooLong
    else .ok (place ++ [e])

/-- The longest path. -/
def longestPath : Nat := 4095

/-- The elements of a path that can be followed at all. -/
def elementsOf (path : Text) : Except Trouble (List Text) :=
  if path.isEmpty then .error .missing
  else if path.contains 0 then .error .invalid
  else if longestPath < path.length then .error .nameTooLong
  else .ok (Path.elements path)

/-- Where the elements of a path lead. -/
def walk (t : FileTree) (path : Text) (es : List Text) : Except Trouble (List Text) :=
  es.foldlM t.follow (if Path.isAbsolute path then [] else t.start)

/-- Where a path leads; its last element need not exist. -/
def locate (t : FileTree) (path : Text) : Except Trouble (List Text) :=
  do t.walk path (← elementsOf path)

/-- Where a file is written. A path that ends in a slash names a folder, whether it exists or not,
but the folder that holds it must exist. -/
def destination (t : FileTree) (path : Text) : Except Trouble (List Text) := do
  let es ← elementsOf path
  if es.getLast? = some [] then
    let named := (es.reverse.dropWhile List.isEmpty).reverse
    let _ ← t.walk path (named.dropLast ++ [[]])
    .error .isFolder
  else t.walk path es

/-- The content of a file, telling failures with another path. -/
def readAs (t : FileTree) (path told : Text) : Except Text Text :=
  match t.locate path with
  | .error e => .error (attempt "open" told e.message)
  | .ok place =>
    match t.entryAt place with
    | .file content => .ok content
    | .folder => .error (attempt "read" told Trouble.isFolder.message)
    | .missing => .error (attempt "open" told Trouble.missing.message)

/-- The content of a file. -/
def read (t : FileTree) (path : Text) : Except Text Text := t.readAs path path

/-- Writes a file, which need not exist. -/
def write (t : FileTree) (path content : Text) : Except Text FileTree :=
  let refuse (e : Trouble) : Except Text FileTree := .error (attempt "open" path e.message)
  match t.destination path with
  | .error e => refuse e
  | .ok place =>
    match t.entryAt place with
    | .folder => refuse .isFolder
    | _ => .ok { t with files := t.files.insert (Path.join place) content }

/-- The content of a file below a folder, by its local path. -/
def readUnder (t : FileTree) (folder path : Text) : Except Text Text :=
  if folder.isEmpty then .error (attempt "readfile" path (utf8 "os: DirFS with empty root"))
  else if path.contains 0 then .error (attempt "readfile" path Trouble.invalid.message)
  else
    let between := if folder.getLast? = some Path.slash then [] else [Path.slash]
    t.readAs (folder ++ between ++ path) path

/-- The content of a file by its exact path. -/
def readArchive (t : FileTree) (path : Text) : Except Text Text :=
  match t.entry path with
  | .file content => .ok content
  | .folder => .error (attempt "read" path Trouble.invalid.message)
  | .missing => .error (attempt "open" path (utf8 "file does not exist"))

/-- The files that another tree does not have or has with other content. -/
def changedFrom (t old : FileTree) : Table Text :=
  t.files.filter fun f => old.files.find? f.1 != some f.2

end FileTree

end Octet
