import Octet.Code

/-!
# Faults

Everything that can go wrong, as a tree of causes: a location or a chain of macro calls around a
group of parts, of which the first names the stage and the others what was wrong. Reference model of
the error types with their `Error` and `Is`: `ErrSyntax`, `ErrMacro`, `ErrRuntime`, and those that
they wrap.

* `Cause` — causes that need no further data;
* `Fault`, `Fault.message` — the tree, and its wording;
* `Fault.mentions` — whether a cause occurs anywhere in the tree.
-/

namespace Octet

/-- A cause without further data. The first five name the stage of an assembly that failed. -/
inductive Cause where
  | lex
  | parse
  | resolution
  | range
  | recursion
  | argumentExpected
  | lineEnd
  | colonMissing
  | statement
  | directiveUnknown
  | includePath
  | macroName
  | macroParam
  | macroNesting
  | macroDirective
  | macroUnclosed
  | macroUnopened
  | paramOutside
  | macroDuplicate
  | labelImmediate
  | opcodeShort
  | imageSize
  | tickLimit
  deriving DecidableEq, Repr

namespace Cause

/-- The wording of a cause. -/
def message : Cause → Text
  | lex => utf8 "lex"
  | parse => utf8 "parse"
  | resolution => utf8 "resolution"
  | range => utf8 "range"
  | recursion => utf8 "recursion"
  | argumentExpected => utf8 "expected argument"
  | lineEnd => utf8 "expected ',' or end of line"
  | colonMissing => utf8 "expected ':' after label"
  | statement => utf8 "expected instruction, label, or macro definition"
  | directiveUnknown => utf8 "unknown directive"
  | includePath => utf8 "expected include path"
  | macroName => utf8 "expected macro name"
  | macroParam => utf8 "expected macro parameter"
  | macroNesting => utf8 "@macro in @macro prohibited"
  | macroDirective => utf8 "directive in @macro prohibited"
  | macroUnclosed => utf8 "@macro without @endmacro"
  | macroUnopened => utf8 "@endmacro without @macro"
  | paramOutside => utf8 "cannot use parameters outside of a macro"
  | macroDuplicate => utf8 "@macro duplicated"
  | labelImmediate => utf8 "cannot use a label as an 8-bit literal value"
  | opcodeShort => utf8 "opcode truncated"
  | imageSize => utf8 "image exceeds memory"
  | tickLimit => utf8 "tick limit exceeded"

end Cause

/-- A fault with its data. -/
inductive Fault where
  | cause (c : Cause)
  /-- A character that starts no token, by its code point. -/
  | character (code : Nat)
  /-- A numeral that cannot be read. -/
  | number (text : Text)
  /-- A formula without a usable value. -/
  | formula (text : Text)
  /-- A macro parameter that the macro does not declare. -/
  | paramRange (kind : ArgKind) (index : Int)
  /-- A call that matches neither the catalog nor a macro. -/
  | unknownInstruction (key : Text)
  | includeMissing (path : Text)
  | includeCycle (path : Text)
  | labelMissing (name : Text)
  | labelDuplicate (name : Text)
  /-- A value too wide for its place. -/
  | literalRange (value max : Nat)
  /-- An include or macro nested too deeply. -/
  | tooDeep (name : Text) (limit : Nat)
  /-- A memory access outside of memory. -/
  | outOfBounds (address : Nat)
  /-- An instruction that failed. -/
  | opcode (code : Code)
  /-- Several faults as one. -/
  | all (parts : List Fault)
  /-- A fault in the expansion of a macro call. -/
  | inMacro (key file : Text) (line : Int) (inner : Fault)
  /-- A fault located in a source. -/
  | located (file : Text) (offset line : Int) (lineText : Text) (inner : Fault)
  /-- A fault of a running program. -/
  | running (file : Text) (line : Int) (ip : UInt16) (inner : Fault)
  /-- A fault of the surroundings: files, flags, readers and writers. -/
  | system (message : Text)
  deriving Repr, Inhabited

namespace Fault

/-- The place of a fault in a source. -/
def place (file : Text) (line : Int) : Text :=
  if file.isEmpty then utf8 "line " ++ Text.grouped line
  else file ++ utf8 ": line " ++ Text.grouped line

mutual

/-- The wording of a fault. -/
def message : Fault → Text
  | cause c => c.message
  | character code => utf8 "unexpected character '" ++ Text.ofPoint code ++ utf8 "'"
  | number text => utf8 "'" ++ text ++ utf8 "' is not a number"
  | formula text => utf8 "#(" ++ text ++ utf8 ") is not a valid expression"
  | paramRange kind index =>
    utf8 "macro " ++ kind.name ++ utf8 " parameter '" ++ Text.grouped index ++
      utf8 "' exceeds parameter count"
  | unknownInstruction key => utf8 "unknown instruction or macro " ++ key
  | includeMissing path => utf8 "cannot resolve include '" ++ path ++ utf8 "'"
  | includeCycle path => utf8 "include '" ++ path ++ utf8 "' includes itself"
  | labelMissing name => utf8 "label " ++ name ++ utf8 " cannot be resolved"
  | labelDuplicate name => utf8 "label " ++ name ++ utf8 " duplicated"
  | literalRange value max =>
    utf8 "a literal value of '" ++ Text.grouped value ++ utf8 "' exceeds maximum of " ++
      Text.hexMarked 1 max ++ utf8 " (" ++ Text.grouped max ++ utf8 ")"
  | tooDeep name limit => name ++ utf8 " exceeds expansion depth " ++ Text.grouped limit
  | outOfBounds address => utf8 "address " ++ Text.hexMarked 4 address ++ utf8 " out of bounds"
  | opcode code => utf8 "opcode '" ++ code.text ++ utf8 "'"
  | all parts => (utf8 "\n").intercalate (messages parts)
  | inMacro key _ line inner =>
    utf8 "macro " ++ key ++ utf8 " line " ++ Text.grouped line ++ utf8 " " ++ message inner
  | located file _ line lineText inner =>
    place file line ++ utf8 " '" ++ lineText ++ utf8 "' " ++ message inner
  | running file line ip inner =>
    (if line = 0 then utf8 "ip " ++ Text.hexMarked 4 ip.toNat else place file line) ++ utf8 " " ++
      message inner
  | system text => text

/-- The wordings of several faults. -/
def messages : List Fault → List Text
  | [] => []
  | f :: fs => message f :: messages fs

end

mutual

/-- Whether some fault of the tree, looked at without its inner faults, satisfies `p`. -/
def anyIn (p : Fault → Bool) : Fault → Bool
  | all parts => p (all parts) || anyInList p parts
  | inMacro key file line inner => p (inMacro key file line inner) || anyIn p inner
  | located file offset line text inner => p (located file offset line text inner) || anyIn p inner
  | running file line ip inner => p (running file line ip inner) || anyIn p inner
  | f => p f

/-- Whether some fault of several trees satisfies `p`. -/
def anyInList (p : Fault → Bool) : List Fault → Bool
  | [] => false
  | f :: fs => anyIn p f || anyInList p fs

end

/-- Whether a cause occurs in the tree. -/
def mentions (c : Cause) (f : Fault) : Bool :=
  f.anyIn fun
    | cause d => c == d
    | _ => false

/-- Whether the tree holds an access outside of memory. -/
def mentionsOutOfBounds (f : Fault) : Bool :=
  f.anyIn fun
    | outOfBounds _ => true
    | _ => false

/-- Whether the tree holds a failed instruction. -/
def mentionsOpcode (f : Fault) : Bool :=
  f.anyIn fun
    | opcode _ => true
    | _ => false

end Fault

end Octet
