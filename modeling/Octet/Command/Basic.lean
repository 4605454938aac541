import Octet.Command.Reader
import Octet.Command.Suggestion
import Octet.Emulator
import Octet.Library.Standard

/-!
# Commands

The tool `doc` assembles sources and runs them. A command reads and writes files of a tree, so that
running one is a function from the tree and the arguments to a report.

* `Command` — the commands, their flags and operands;
* `Command.find?` — the command that arguments name, and its own arguments;
* `Toolkit` — what the tool is built on, and is not fixed here: how flags are read and how formulas
  are evaluated;
* `Report` — what a command has printed, logged and written;
* `Command.runToolWith`, `Command.runTool` — runs the tool, on any toolkit or on its own.
-/

namespace Octet

/-- The commands of the tool. -/
inductive Command where
  | asm
  | run
  | defines
  | catalog
  deriving DecidableEq, Repr

/-- What the tool is built on. -/
structure Toolkit where
  /-- What reads its arguments. -/
  reader : Flag.Reader
  /-- What evaluates the formulas of its sources. -/
  evaluate : Formula.Evaluator

/-- The toolkit that the tool comes with. -/
def Toolkit.standard : Toolkit := ⟨Flag.reader, Formula.integer?⟩

/-- What the tool did. -/
structure Report where
  stdout : Text := []
  stderr : Text := []
  log : List Text := []
  tree : FileTree
  fault : Option Fault := none

namespace Command

/-- The commands in the order in which they are suggested. -/
def all : List Command := [asm, run, defines, catalog]

/-- The name of a command. -/
def name : Command → String
  | asm => "asm"
  | run => "run"
  | defines => "defines"
  | catalog => "catalog"

/-- The names that can be suggested. -/
def suggestable : List String := all.map name ++ ["completion"]

/-- The flags of commands that assemble a source (`sourceFlags.register`). -/
def sourceFlags : List Flag := [.verbose, .includes, .define]

/-- The flags of a command. -/
def flags : Command → List Flag
  | asm => sourceFlags ++ [.output, .listing, .help]
  | run => sourceFlags ++ [.binary, .maxTicks, .help]
  | defines => [.help]
  | catalog => [.help]

/-! ## Finding the command -/

/-- Whether an argument is taken for a flag whose value is the next argument. The tool itself has no
flags, so this holds of every flag that shows no value of its own. -/
def takesNext (a : Text) : Bool :=
  !a.contains Flag.equalSign && a.head? == some Flag.dash &&
    (a.length == 2 || (a.drop 1).head? == some Flag.dash)

/-- Whether an argument ends the flags. -/
def endsFlags (a : Text) : Bool := a == utf8 "--"

/-- The first argument that is neither a flag nor the value of one. -/
def firstWord? : List Text → Option Text
  | [] => none
  | a :: rest =>
    if endsFlags a then none
    else if takesNext a then
      match rest with
      | _ :: next :: more => firstWord? (next :: more)
      | _ => none
    else if !a.isEmpty && a.head? != some Flag.dash then some a
    else firstWord? rest

/-- Arguments without the first word, which is `word`. -/
def dropWord (word : Text) : List Text → List Text
  | [] => []
  | a :: rest =>
    if endsFlags a then a :: rest
    else if takesNext a then
      match rest with
      | [] => [a]
      | value :: more => a :: value :: dropWord word more
    else if a == word then rest
    else a :: dropWord word rest

/-- The command that arguments name, and its own arguments. -/
def find? (args : List Text) : Option (Command × List Text) := do
  let word ← firstWord? args
  let c ← all.find? (utf8 ·.name == word)
  some (c, dropWord word args)

/-- The options and the file of a command that arguments ask for. -/
def requestOf (kit : Toolkit) (args : List Text) : Option (Options × Text) := do
  let (c, args) ← find? args
  let (o, operands) ← (kit.reader.read c.flags {} args).toOption
  some (o, ← operands.head?)

/-- The commands that may have been meant. -/
def suggestions (typed : Text) : Text :=
  let names := suggestable.filter fun n => isSuggested typed (utf8 n)
  if names.isEmpty then []
  else utf8 "\n\nDid you mean this?\n" ++ names.flatMap fun n => utf8 "\t" ++ utf8 n ++ utf8 "\n"

/-- The wording of a command that does not exist. -/
def unknownCommand (typed owner : Text) : Text :=
  utf8 "unknown command " ++ Text.quote typed ++ utf8 " for " ++ Text.quote owner

/-! ## Running commands -/

/-- A report of a failure, whose message is printed. -/
def failed (r : Report) (f : Fault) : Report :=
  { r with stderr := r.stderr ++ utf8 "Error: " ++ f.message ++ utf8 "\n", fault := some f }

/-- A report of a failure of files or flags. -/
def refused (r : Report) (message : Text) : Report := failed r (.system message)

section

variable (kit : Toolkit)

/-- The settings for a source file: includes are looked for in its own folder first. -/
def settings (tree : FileTree) (o : Options) (file : Text) : Settings where
  resolver := .folders o.verbose ((Path.folder file :: o.folders).map fun f => (tree, f))
  predefines := Table.insertAll (Table.insertAll emulatorDefines systemDefines) o.defines
  evaluate := kit.evaluate
  maxDepth := 0
  verbose := o.verbose

/-- Assembles a source file; the report has the log of it. Reference model of
`sourceFlags.assemble`. -/
def assembleFile (tree : FileTree) (o : Options) (file : Text) : Report × Except Fault Program :=
  match tree.read file with
  | .error message => ({ tree := tree }, .error (.system message))
  | .ok source =>
    let assembly := assemble (settings kit tree o file) source
    ({ tree := tree, log := assembly.log.toList }, assembly.result)

/-- Writes the listing of a program; `-` stands for the standard output. -/
def writeListing (r : Report) (path : Text) (p : Program) : Report :=
  if path.isEmpty then r
  else if path == utf8 "-" then { r with stdout := r.stdout ++ p.listing }
  else
    match r.tree.write path p.listing with
    | .error message => refused r message
    | .ok tree => { r with tree := tree }

/-- Assembles a source file into an image, which is named like the source unless an output is given.
Reference model of `newAsmCmd`. -/
def runAsm (tree : FileTree) (o : Options) (file : Text) : Report :=
  match assembleFile kit tree o file with
  | (r, .error f) => failed r f
  | (r, .ok p) =>
    let output := if o.output.isEmpty then Path.withoutExtension file ++ utf8 ".bin" else o.output
    match r.tree.write output p.image with
    | .error message => refused r message
    | .ok tree => writeListing { r with tree := tree } o.listing p

/-- The printed form of a machine after a run. -/
def stateText (m : Machine) : Text :=
  m.text ++ Machine.textLine (utf8 "ticks") (Text.decimal m.ticks)

/-- Runs an emulator that has been started. The state is printed also if the run fails. -/
def finishRun (fuel : Nat) (r : Report) (e : Emulator) : Report :=
  let log := if e.verbose then (e.runLog fuel #[]).toList else []
  let (e, ending) := e.run fuel
  let r := { r with stdout := stateText e.machine, log := r.log ++ log }
  match ending with
  | .failed f => failed r f
  | .halted => r
  | .unfinished => r

/-- Runs an image, or a source file. Reference model of `newRunCmd`. -/
def runRun (fuel : Nat) (tree : FileTree) (o : Options) (file : Text) : Report :=
  let e : Emulator := { verbose := o.verbose, tickLimit := o.maxTicks }
  if o.binary then
    match tree.read file with
    | .error message => refused { tree := tree } message
    | .ok image =>
      let r : Report := { tree := tree, log := e.startLog image }
      match e.load image with
      | (_, some f) => failed r f
      | (e, none) => finishRun fuel r e
  else
    match assembleFile kit tree o file with
    | (r, .error f) => failed r f
    | (r, .ok p) =>
      let e := { e with program := p }
      let r := { r with log := r.log ++ e.resetLog }
      match e.reset with
      | (_, some f) => failed r f
      | (e, none) => finishRun fuel r e

/-- The names for formulas, with their values (`newDefinesCmd`). -/
def definesText : Text :=
  let defines := Table.insertAll emulatorDefines systemDefines
  defines.sortedNames.flatMap fun n => n ++ utf8 "=" ++ (defines.find? n).getD [] ++ utf8 "\n"

/-- The instruction set: operation number, key and length. Reference model of `newCatalogCmd`. -/
def catalogText : Text :=
  Octet.catalog.flatMap fun i =>
    Text.hex 1 i.op.toNat ++ utf8 " " ++ Text.padRight 24 i.key ++ utf8 " " ++
      Text.decimal i.length ++ utf8 "\n"

/-- The full name of a command. -/
def title (c : Command) : Text := utf8 "doc " ++ utf8 c.name

/-- What is wrong with the operands of a command. -/
def operandsFault? (c : Command) (operands : List Text) : Option Text :=
  match c with
  | asm | run =>
    if operands.length = 1 then none
    else some (utf8 "accepts 1 arg(s), received " ++ Text.decimal operands.length)
  | defines | catalog => operands.head?.map (unknownCommand · c.title)

/-- Runs a command with its arguments. -/
def runWith (c : Command) (fuel : Nat) (tree : FileTree) (args : List Text) : Report :=
  match kit.reader.read c.flags {} args with
  | .error message => refused { tree := tree } message
  | .ok (o, operands) =>
    if o.help then { tree := tree }
    else
      match c.operandsFault? operands with
      | some message => refused { tree := tree } message
      | none =>
        let file := operands.headD []
        match c with
        | asm => runAsm kit tree o file
        | run => runRun kit fuel tree o file
        | defines => { tree := tree, stdout := definesText }
        | catalog => { tree := tree, stdout := catalogText }

/-- Runs the tool. Without a command only the flags are looked at. Reference model of
`newRootCmd`. -/
def runToolWith (fuel : Nat) (tree : FileTree) (args : List Text) : Report :=
  match firstWord? args with
  | none =>
    match kit.reader.read [.help] {} args with
    | .error message => refused { tree := tree } message
    | .ok _ => { tree := tree }
  | some word =>
    match find? args with
    | some (c, args) => runWith kit c fuel tree args
    | none =>
      let r := refused { tree := tree } (unknownCommand word (utf8 "doc") ++ suggestions word)
      { r with stderr := r.stderr ++ utf8 "Run 'doc --help' for usage.\n" }

end

/-- Runs the tool as it comes. -/
def runTool (fuel : Nat) (tree : FileTree) (args : List Text) : Report :=
  runToolWith .standard fuel tree args

end Command

end Octet
