import Octet.Formula.Real
import Octet.Text.Case

/-!
# Values of formulas

Integers are unbounded, floats are double precision, strings and strings of bytes are bytes that lie
side by side, as they may be long. Truth values are no numbers: `True` differs from `1`. Lists and
dictionaries can change, so a value only names the one that it is. Part of the reference model of
`evaluate`.

* `Builtin`, `Method` — what is built in: functions, and the methods of strings, lists and
  dictionaries;
* `Range` — evenly spaced integers;
* `Value` — the values.
-/

namespace Octet.Formula

/-! ## Built-in functions and methods -/

/-- The built-in functions. -/
inductive Builtin where
  | abs
  | all
  | any
  | bool
  | bytes
  | chr
  | dict
  | dir
  | enumerate
  | fail
  | float
  | getattr
  | hasattr
  | hash
  | int
  | len
  | list
  | max
  | min
  | ord
  | print
  | range
  | repr
  | reversed
  | sorted
  | str
  | tuple
  | type
  | zip
  deriving DecidableEq, Hashable, Repr

/-- The built-in functions by name. -/
def builtins : List (Text × Builtin) := [
  (utf8 "abs", .abs), (utf8 "all", .all), (utf8 "any", .any), (utf8 "bool", .bool),
  (utf8 "bytes", .bytes), (utf8 "chr", .chr), (utf8 "dict", .dict), (utf8 "dir", .dir),
  (utf8 "enumerate", .enumerate), (utf8 "fail", .fail), (utf8 "float", .float),
  (utf8 "getattr", .getattr), (utf8 "hasattr", .hasattr), (utf8 "hash", .hash), (utf8 "int", .int),
  (utf8 "len", .len), (utf8 "list", .list), (utf8 "max", .max), (utf8 "min", .min),
  (utf8 "ord", .ord), (utf8 "print", .print), (utf8 "range", .range), (utf8 "repr", .repr),
  (utf8 "reversed", .reversed), (utf8 "sorted", .sorted), (utf8 "str", .str),
  (utf8 "tuple", .tuple), (utf8 "type", .type), (utf8 "zip", .zip)]

/-- The name of an entry of a table. -/
def nameIn {α : Type} [BEq α] (table : List (Text × α)) (a : α) : Text :=
  ((table.find? (·.2 == a)).map (·.1)).getD []

/-- The name of a built-in function. -/
def Builtin.name (b : Builtin) : Text := nameIn builtins b

/-- The methods of strings, of strings of bytes, of lists and of dictionaries. -/
inductive Method where
  | capitalize
  | codepointOrds
  | codepoints
  | count
  | elemOrds
  | elems
  | endswith
  | find
  | format
  | index
  | isalnum
  | isalpha
  | isdigit
  | islower
  | isspace
  | istitle
  | isupper
  | join
  | lower
  | lstrip
  | partition
  | removeStart
  | removeEnd
  | replace
  | rfind
  | rindex
  | rpartition
  | rsplit
  | rstrip
  | split
  | splitlines
  | startswith
  | strip
  | title
  | upper
  | append
  | clear
  | extend
  | insert
  | pop
  | remove
  | get
  | items
  | keys
  | popitem
  | setdefault
  | update
  | values
  deriving DecidableEq, Repr

/-- The methods of strings, sorted by name. -/
def stringMethods : List (Text × Method) := [
  (utf8 "capitalize", .capitalize), (utf8 "codepoint_ords", .codepointOrds),
  (utf8 "codepoints", .codepoints), (utf8 "count", .count), (utf8 "elem_ords", .elemOrds),
  (utf8 "elems", .elems), (utf8 "endswith", .endswith), (utf8 "find", .find),
  (utf8 "format", .format), (utf8 "index", .index), (utf8 "isalnum", .isalnum),
  (utf8 "isalpha", .isalpha), (utf8 "isdigit", .isdigit), (utf8 "islower", .islower),
  (utf8 "isspace", .isspace), (utf8 "istitle", .istitle), (utf8 "isupper", .isupper),
  (utf8 "join", .join), (utf8 "lower", .lower), (utf8 "lstrip", .lstrip),
  (utf8 "partition", .partition), (utf8 "removeprefix", .removeStart),
  (utf8 "removesuffix", .removeEnd), (utf8 "replace", .replace), (utf8 "rfind", .rfind),
  (utf8 "rindex", .rindex), (utf8 "rpartition", .rpartition), (utf8 "rsplit", .rsplit),
  (utf8 "rstrip", .rstrip), (utf8 "split", .split), (utf8 "splitlines", .splitlines),
  (utf8 "startswith", .startswith), (utf8 "strip", .strip), (utf8 "title", .title),
  (utf8 "upper", .upper)]

/-- The methods of strings of bytes. -/
def bytesMethods : List (Text × Method) := [(utf8 "elems", .elems)]

/-- The methods of lists, sorted by name. -/
def listMethods : List (Text × Method) := [
  (utf8 "append", .append), (utf8 "clear", .clear), (utf8 "extend", .extend),
  (utf8 "index", .index), (utf8 "insert", .insert), (utf8 "pop", .pop), (utf8 "remove", .remove)]

/-- The methods of dictionaries, sorted by name. -/
def dictMethods : List (Text × Method) := [
  (utf8 "clear", .clear), (utf8 "get", .get), (utf8 "items", .items), (utf8 "keys", .keys),
  (utf8 "pop", .pop), (utf8 "popitem", .popitem), (utf8 "setdefault", .setdefault),
  (utf8 "update", .update), (utf8 "values", .values)]

/-! ## Ranges -/

/-- An integer brought into the range of a signed word of 64 bits by taking away multiples of its
size. -/
def wrapped (n : Int) : Int := n.bmod Word.unsignedLimit

/-- The integers `start`, `start + step`, … before `stop`, of which there are `size`. All four are
words of 64 bits. -/
structure Range where
  start : Int
  stop : Int
  step : Int
  size : Int
  deriving DecidableEq, Repr

namespace Range

/-- The range from `start` to before `stop`. -/
def between (start stop step : Int) : Range :=
  let size : Int :=
    if 0 < step ∧ start < stop then wrapped ((wrapped (stop - 1 - start)).tdiv step + 1)
    else if step < 0 ∧ stop < start then
      wrapped ((wrapped (start - 1 - stop)).tdiv (wrapped (-step)) + 1)
    else 0
  ⟨start, stop, step, size⟩

/-- The number at a place. -/
def item (r : Range) (i : Int) : Int := wrapped (r.start + wrapped (i * r.step))

/-- The range of every `step`-th place from `first` to before `last`. -/
def slice (r : Range) (first last step : Int) : Range :=
  between (r.item first) (r.item last) (wrapped (r.step * step))

/-- Whether two ranges hold the same numbers. -/
def same (x y : Range) : Bool :=
  x.size == y.size && (x.size == 0 || (x.start == y.start && (x.size == 1 || x.step == y.step)))

/-- Whether a range holds a number, which has to fit 32 bits. -/
def holds (r : Range) (n : Int) : Bool :=
  let d := wrapped (n - r.start)
  Word.fits32 n && d.tmod r.step == 0 && 0 ≤ d.tdiv r.step && d.tdiv r.step < r.size

end Range

/-! ## Values -/

/-- The bytes of a text side by side. -/
def packed (t : Text) : ByteArray := ⟨t.toArray⟩

/-- The text of bytes that lie side by side. -/
def unpacked (b : ByteArray) : Text := b.data.toList

/-- A value. -/
inductive Value where
  | none
  | bool (b : Bool)
  | int (n : Int)
  | float (f : Float)
  | string (b : ByteArray)
  | bytes (b : ByteArray)
  | tuple (items : List Value)
  /-- A list, by its number. -/
  | list (number : Nat)
  /-- A dictionary, by its number. -/
  | dict (number : Nat)
  | range (r : Range)
  /-- The bytes of a string, as strings or as numbers. -/
  | elems (t : Text) (asNumbers : Bool)
  /-- The characters of a string, as strings or as numbers. -/
  | codepoints (t : Text) (asNumbers : Bool)
  /-- The numbers of a string of bytes. -/
  | byteElems (t : Text)
  /-- A function: an identity of its own, the number of its code, its name, the values of its
  optional parameters and the numbers of the frames around it, innermost first. -/
  | function (identity code : Nat) (name : Text) (defaults : List Value) (frames : List Nat)
  | builtin (b : Builtin)
  /-- A method of a value, with an identity of its own. -/
  | method (identity : Nat) (receiver : Value) (m : Method)
  deriving Inhabited

namespace Value

/-- The name of the type of a value. -/
def typeName : Value → Text
  | none => utf8 "NoneType"
  | bool _ => utf8 "bool"
  | int _ => utf8 "int"
  | float _ => utf8 "float"
  | string _ => utf8 "string"
  | bytes _ => utf8 "bytes"
  | list _ => utf8 "list"
  | tuple _ => utf8 "tuple"
  | dict _ => utf8 "dict"
  | range _ => utf8 "range"
  | elems .. => utf8 "string.elems"
  | codepoints .. => utf8 "string.codepoints"
  | byteElems _ => utf8 "bytes.elems"
  | function .. => utf8 "function"
  | builtin _ => utf8 "builtin_function_or_method"
  | method .. => utf8 "builtin_function_or_method"

/-- The methods of a value, sorted by name. -/
def methods : Value → List (Text × Method)
  | string _ => stringMethods
  | bytes _ => bytesMethods
  | list _ => listMethods
  | dict _ => dictMethods
  | _ => []

/-- Whether a value can be called. -/
def isCallable : Value → Bool
  | function .. => true
  | builtin _ => true
  | method .. => true
  | _ => false

/-- An integer that fits 32 bits, as indices and counts must. -/
def index? : Value → Option Int
  | int n => if Word.fits32 n then some n else Option.none
  | _ => Option.none

/-- An integer that fits 64 bits. -/
def word? : Value → Option Int
  | int n => if Word.fits64 n then some n else Option.none
  | _ => Option.none

/-- The string of a text. -/
def ofText (t : Text) : Value := string (packed t)

/-- The text of a string. -/
def text? : Value → Option Text
  | string b => some (unpacked b)
  | _ => Option.none

/-- A truth value. -/
def flag? : Value → Option Bool
  | bool b => some b
  | _ => Option.none

/-- A number without its fraction. -/
def whole? : Value → Option Int
  | int n => some n
  | float f => Real.truncate? f
  | _ => Option.none

end Value

/-- The value of a name that is built in. -/
def builtinOf? (n : Text) : Option Value :=
  if n == utf8 "None" then some .none
  else if n == utf8 "True" then some (.bool true)
  else if n == utf8 "False" then some (.bool false)
  else (builtins.lookup n).map .builtin

end Octet.Formula
