import Octet.Assembler
import Octet.Machine.Execute

/-!
# The emulator

A machine with the listing of the program that it runs, so that faults can be told by the place in
the source. A tick limit stops programs that do not halt. Reference model of `Emulator` and its
methods.

* `Emulator.reset`, `Emulator.load` — starts with the program, or with an image that has no listing;
* `Emulator.tick`, `Emulator.run` — one tick, and ticks until the machine halts or fails.

Whether a program halts cannot be told in advance, so `run` is given a number of ticks to try.
-/

namespace Octet

/-- The names that the emulator defines for formulas: where images are loaded, and the page of the
stack. -/
def emulatorDefines : Table Text := [
  (utf8 "IMAGE_BASE", Text.hexMarked 1 0),
  (utf8 "STACK_PAGE", Text.hexMarked 1 0)]

/-- The emulator (`Emulator`). -/
structure Emulator where
  machine : Machine := {}
  program : Program := {}
  /-- The most ticks; no limit if not positive. -/
  tickLimit : Int := 0
  /-- Whether the log tells what the emulator does. -/
  verbose : Bool := false
  deriving Inhabited

namespace Emulator

/-- The machine, which is as verbose as the emulator. -/
def prepared (e : Emulator) : Machine := { e.machine with verbose := e.verbose }

/-- Loads an image into the machine. A failure leaves the machine as it was. -/
def start (e : Emulator) (image : Text) : Emulator × Option Fault :=
  let m := e.prepared
  match m.load image with
  | .ok m => ({ e with machine := m }, none)
  | .error f => ({ e with machine := m }, some (.running [] 0 0 f))

/-- Starts the program (`Emulator.Reset`). -/
def reset (e : Emulator) : Emulator × Option Fault := e.start e.program.image

/-- Starts an image, which has no listing (`Emulator.Load`). -/
def load (e : Emulator) (image : Text) : Emulator × Option Fault :=
  { e with program := {} }.start image

/-- The row of the program at the instruction pointer. -/
def row? (e : Emulator) : Option Row := e.program.rowAt? e.machine.ip.toNat

/-- The line at the instruction pointer; zero if there is none. Reference model of
`Emulator.LineNo`. -/
def line (e : Emulator) : Int :=
  match e.row? with
  | some r => r.line
  | none => 0

/-- The instruction of the program that starts at the instruction pointer (`Emulator.Code`). -/
def code (e : Emulator) : Code := (e.program.codeAt? e.machine.ip).getD {}

/-- A fault of the instruction at an address. -/
def blame (p : Program) (ip : UInt16) (f : Fault) : Fault :=
  match p.rowAt? ip.toNat with
  | some r => .running r.file r.line ip f
  | none => .running [] 0 ip f

/-- Whether the tick limit is reached. -/
def atLimit (e : Emulator) : Bool := 0 < e.tickLimit && e.tickLimit ≤ e.machine.ticks

/-- One tick, unless the machine is halted. Tells whether the machine is halted then. Reference
model of `Emulator.Tick`. -/
def tick (e : Emulator) : Emulator × Except Fault Bool :=
  if e.machine.halted then ({ e with machine := e.prepared }, .ok true)
  else if e.atLimit then
    ({ e with machine := e.prepared }, .error (blame e.program e.machine.ip (.cause .tickLimit)))
  else
    match e with
    | ⟨machine, program, tickLimit, verbose⟩ =>
      let ip := machine.ip
      match { machine with verbose := verbose }.tick with
      | (after, none) => (⟨after, program, tickLimit, verbose⟩, .ok after.halted)
      | (after, some f) => (⟨after, program, tickLimit, verbose⟩, .error (blame program ip f))

/-- How a run ends. -/
inductive Ending where
  | halted
  | failed (f : Fault)
  /-- The run was given too few ticks. -/
  | unfinished
  deriving Repr

/-- Ticks until the machine halts or a tick fails, at most `fuel` times. Reference model of
`Emulator.Run`. -/
def run (fuel : Nat) (e : Emulator) : Emulator × Ending :=
  match fuel with
  | 0 => (e, .unfinished)
  | fuel + 1 =>
    match e.tick with
    | (e, .ok true) => (e, .halted)
    | (e, .ok false) => run fuel e
    | (e, .error f) => (e, .failed f)

/-! ## Logs -/

/-- The log lines of loading an image. -/
def startLog (e : Emulator) (image : Text) : List Text := e.prepared.loadLog image

/-- The log lines of starting the program. -/
def resetLog (e : Emulator) : List Text :=
  let image := e.program.image
  e.startLog image ++
    if e.verbose && image.length ≤ memorySize then
      [utf8 "emulator: reset, " ++ Text.decimal e.program.rows.length ++ utf8 " opcodes"]
    else []

/-- The log lines of a tick. -/
def tickLog (e : Emulator) : List Text :=
  if !e.verbose || e.prepared.halted || e.atLimit then []
  else
    e.prepared.tickLog ++
      match e.tick with
      | (after, .ok true) =>
        [utf8 "emulator: halted after " ++ Text.decimal after.machine.ticks ++ utf8 " ticks"]
      | (_, .ok false) => []
      | (_, .error _) => []

/-- The log lines of a run, after those found so far. -/
def runLog (fuel : Nat) (found : Array Text) (e : Emulator) : Array Text :=
  match fuel with
  | 0 => found
  | fuel + 1 =>
    let found := found ++ e.tickLog
    match e.tick with
    | (_, .ok true) => found
    | (e, .ok false) => runLog fuel found e
    | (_, .error _) => found

end Emulator

/-! ## Images -/

/-- The state of the machine after a run. -/
structure RunResult where
  registers : Vector UInt8 16
  memory : Array UInt8
  ticks : Nat

/-- Runs an image from address zero. There is a result also if the run fails, but not if the image
is too large. Reference model of `Emulate`. -/
def emulate (fuel : Nat) (image : Text) : Option RunResult × Emulator.Ending :=
  match ({} : Emulator).load image with
  | (_, some f) => (none, .failed f)
  | (e, none) =>
    let (e, ending) := e.run fuel
    (some ⟨e.machine.registers, e.machine.memory, e.machine.ticks⟩, ending)

end Octet
