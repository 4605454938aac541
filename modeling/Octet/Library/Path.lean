import Octet.Text.Basic

/-!
# Paths

Paths are elements separated by slashes. Cleaning a path drops empty elements and `.`, and lets `..`
remove the element before it, without a look at what the path names. Reference model of the cleaning
and cutting of paths in `FS.Resolve` and the commands.

* `Path.clean` — the shortest path of the same meaning;
* `Path.isLocal` — whether a clean path stays below the place where it starts;
* `Path.folder`, `Path.withoutExtension` — parts of a path.
-/

namespace Octet.Path

/-- The byte between elements. -/
def slash : UInt8 := '/'.toUInt8

/-- The place where a path starts. -/
def here : Text := utf8 "."

/-- The place above. -/
def above : Text := utf8 ".."

/-- The elements of a path, empty ones included. -/
def elements (path : Text) : List Text := Text.splitAt slash path

/-- Whether a path starts at the root. -/
def isAbsolute (path : Text) : Bool := path.head? == some slash

/-- Joins elements. -/
def join (es : List Text) : Text := [slash].intercalate es

/-- Adds an element to those kept so far, the last first. Above the root there is only the root. -/
def keep (absolute : Bool) (kept : List Text) (e : Text) : List Text :=
  if e.isEmpty || e == here then kept
  else if e == above then
    match kept with
    | [] => if absolute then [] else [above]
    | last :: rest => if last == above then above :: kept else rest
  else e :: kept

/-- The shortest path of the same meaning. -/
def clean (path : Text) : Text :=
  let absolute := isAbsolute path
  let kept := (elements path).foldl (keep absolute) []
  if absolute then slash :: join kept.reverse
  else if kept.isEmpty then here
  else join kept.reverse

/-- Whether a clean path is relative, leads nowhere above its start and is made of characters. -/
def isLocal (path : Text) : Bool :=
  Text.isUtf8 path &&
    (path == here || (elements path).all fun e => !e.isEmpty && e != here && e != above)

/-- The part after the last slash. -/
def lastElement (path : Text) : Text := (path.reverse.takeWhile (· != slash)).reverse

/-- The folder that holds what a path names. -/
def folder (path : Text) : Text := clean (path.take (path.length - (lastElement path).length))

/-- A path without its extension, which is all from the last dot of its last element on. -/
def withoutExtension (path : Text) : Text :=
  let dot := '.'.toUInt8
  let name := lastElement path
  if name.contains dot then path.take (path.length - (name.reverse.takeWhile (· != dot)).length - 1)
  else path

end Octet.Path
