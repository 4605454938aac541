import Octet.Command.Record
import Octet.Table
import Octet.Text.Integer
import Octet.Text.Quoted

/-!
# Flags of the command line

The flags of the commands, and what their values change. How arguments are taken apart into flags
and operands is left open, up to a few laws. Reference model of the flags that `newAsmCmd` and
`newRunCmd` declare.

* `Options` — what the flags set;
* `Flag` — a flag, with how its value changes the options;
* `Flag.Reader` — what takes the arguments of a command apart, with the laws that it has to keep.
-/

namespace Octet

/-- What the flags of the commands set. -/
structure Options where
  verbose : Bool := false
  /-- Folders to look for includes in. -/
  folders : List Text := []
  defines : Table Text := []
  /-- Where the image is written. -/
  output : Text := []
  /-- Where the listing is written. -/
  listing : Text := []
  /-- Whether the file is an image. -/
  binary : Bool := false
  /-- The tick limit. -/
  maxTicks : Int := 0
  /-- Whether help is asked for. -/
  help : Bool := false
  deriving Repr

/-- A flag. -/
structure Flag where
  name : String
  letter : Option Char
  /-- The value of a flag that is given without one. -/
  implied : Option String
  /-- Changes the options by a value, or tells what is wrong with it. -/
  set : Text → Options → Except Text Options

namespace Flag

/-! ## Values -/

/-- The wording of a value that cannot be read. -/
def unreadable (kind : String) (value : Text) (reason : String) : Text :=
  utf8 kind ++ utf8 ": parsing " ++ Text.quote value ++ utf8 ": " ++ utf8 reason

/-- A truth value. -/
def readBool (value : Text) : Except Text Bool :=
  if ["1", "t", "T", "TRUE", "true", "True"].any (utf8 · == value) then .ok true
  else if ["0", "f", "F", "FALSE", "false", "False"].any (utf8 · == value) then .ok false
  else .error (unreadable "strconv.ParseBool" value "invalid syntax")

/-- An integer. -/
def readInt (value : Text) : Except Text Int :=
  match Text.integer value with
  | .ok n => .ok n
  | .error .malformed => .error (unreadable "strconv.ParseInt" value "invalid syntax")
  | .error .tooLarge => .error (unreadable "strconv.ParseInt" value "value out of range")

/-- The sign between a name and its value. -/
def equalSign : UInt8 := '='.toUInt8

/-- A name and its value. -/
def readPair (pair : Text) : Except Text (Text × Text) :=
  if pair.contains equalSign then
    let name := pair.takeWhile (· != equalSign)
    .ok (name, pair.drop (name.length + 1))
  else .error (pair ++ utf8 " must be formatted as key=value")

/-- A text without the quotes around it. -/
def unquoted (t : Text) : Text :=
  let isQuote (b : UInt8) : Bool := b == Record.quoteMark
  (((t.dropWhile isQuote).reverse).dropWhile isQuote).reverse

/-- Names and values: a single pair, or a record of pairs. -/
def readPairs (value : Text) : Except Text (List (Text × Text)) := do
  match value.count equalSign with
  | 0 => .error (value ++ utf8 " must be formatted as key=value")
  | 1 => return [← readPair (unquoted value)]
  | _ => (← Record.read value).mapM readPair

/-! ## The flags -/

/-- A switch. -/
def switch (name : String) (letter : Char) (change : Bool → Options → Options) : Flag :=
  ⟨name, some letter, some "true", fun v o => return change (← readBool v) o⟩

/-- Verbose mode. -/
def verbose : Flag := switch "verbose" 'v' fun b o => { o with verbose := b }

/-- Help. -/
def help : Flag := switch "help" 'h' fun b o => { o with help := b }

/-- A folder to look for includes in. -/
def includes : Flag :=
  ⟨"include", some 'I', none, fun v o => return { o with folders := o.folders ++ [v] }⟩

/-- Names for formulas. -/
def define : Flag :=
  ⟨"define", some 'D', none,
    fun v o => return { o with defines := o.defines.insertAll (← readPairs v) }⟩

/-- Where the image is written. -/
def output : Flag := ⟨"output", some 'o', none, fun v o => return { o with output := v }⟩

/-- Where the listing is written. -/
def listing : Flag := ⟨"listing", some 'l', none, fun v o => return { o with listing := v }⟩

/-- The file is an image. -/
def binary : Flag := switch "binary" 'b' fun b o => { o with binary := b }

/-- The tick limit. -/
def maxTicks : Flag :=
  ⟨"max-ticks", none, none, fun v o => return { o with maxTicks := ← readInt v }⟩

/-! ## Setting flags -/

/-- How a flag is named in messages. -/
def title (f : Flag) : Text :=
  match f.letter with
  | some c => utf8 "-" ++ [c.toUInt8] ++ utf8 ", --" ++ utf8 f.name
  | none => utf8 "--" ++ utf8 f.name

/-- Sets a flag. -/
def apply (f : Flag) (value : Text) (o : Options) : Except Text Options :=
  match f.set value o with
  | .ok o => .ok o
  | .error reason =>
    .error (utf8 "invalid argument " ++ Text.quote value ++ utf8 " for " ++ Text.quote f.title ++
      utf8 " flag: " ++ reason)

/-- The flag with a letter. -/
def byLetter? (flags : List Flag) (c : UInt8) : Option Flag :=
  flags.find? (·.letter.any (·.toUInt8 == c))

/-- The flag with a name. -/
def byName? (flags : List Flag) (name : Text) : Option Flag := flags.find? (utf8 ·.name == name)

/-! ## Readers of arguments -/

/-- The dash of flags. -/
def dash : UInt8 := '-'.toUInt8

/-- An operand as arguments. One that looks like a flag comes after the mark that ends the flags. -/
def operandArgs (operand : Text) : List Text :=
  if operand.head? = some dash ∧ 1 < operand.length then [[dash, dash], operand] else [operand]

/-- What takes the arguments of a command apart. Flags are set from the first argument on. -/
structure Reader where
  /-- The options, starting with some that are set, and the operands; or what is wrong with the
  arguments. -/
  read : List Flag → Options → List Text → Except Text (Options × List Text)
  /-- A flag that needs a value, by its letter and with the value as the next argument. -/
  read_letter {flags : List Flag} {f : Flag} {c : UInt8} :
    c ≠ dash → byLetter? flags c = some f → f.implied = none →
    ∀ o value rest,
      read flags o ([dash, c] :: value :: rest) = f.apply value o >>= fun o => read flags o rest
  /-- A switch, by its letter. -/
  read_switch {flags : List Flag} {f : Flag} {c : UInt8} {value : String} :
    c ≠ dash → byLetter? flags c = some f → f.implied = some value →
    ∀ o rest,
      read flags o ([dash, c] :: rest) = f.apply (utf8 value) o >>= fun o => read flags o rest
  /-- A flag that needs a value, by its name and with the value as the next argument. -/
  read_name {flags : List Flag} {f : Flag} {name : Text} :
    name ≠ [] → name.head? ≠ some dash → equalSign ∉ name →
    byName? flags name = some f → f.implied = none → ∀ o value rest,
      read flags o ((dash :: dash :: name) :: value :: rest) =
        f.apply value o >>= fun o => read flags o rest
  /-- An operand at the end. -/
  read_operand (flags : List Flag) (o : Options) (operand : Text) :
    read flags o (operandArgs operand) = .ok (o, [operand])

end Flag

end Octet
