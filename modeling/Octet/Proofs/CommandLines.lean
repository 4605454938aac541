import Octet.Command.Basic
import Octet.Proofs.Outcome

/-!
# Command lines

What the tool does, on any toolkit, for the command lines that assemble a source, run a source and
run an image. Reading a line comes to setting its flags one after the other, and the operand may be
any text. Only the laws of a reader of flags are used.

* `Command.SourceFlag`, `Command.read_sourceFlags` — the flags of commands that assemble, and **all
  of them**;
* `Command.runToolWith_asmLine`, `Command.runToolWith_runLine`, `Command.runToolWith_imageLine` —
  the lines.
-/

namespace Octet

namespace Command

open Octet.Flag

/-! ## Flags of sources -/

/-- A flag of a command that assembles a source: a folder for includes, or definitions for
formulas. -/
inductive SourceFlag where
  | folder (path : Text)
  | define (pairs : Text)

/-- The flag as arguments. -/
def SourceFlag.args : SourceFlag → List Text
  | folder path => [utf8 "-I", path]
  | define pairs => [utf8 "-D", pairs]

/-- What the flag changes. -/
def SourceFlag.apply (o : Options) : SourceFlag → Except Text Options
  | folder path => Flag.includes.apply path o
  | define pairs => Flag.define.apply pairs o

theorem SourceFlag.apply_eq_ok (f : SourceFlag) {o o' : Options} (h : f.apply o = .ok o') :
    o' = { o with folders := o'.folders, defines := o'.defines } := by
  cases f with
  | folder path =>
    cases h
    rfl
  | define pairs =>
    simp only [apply, Flag.apply, Flag.define] at h
    cases hpairs : readPairs pairs with
    | error e =>
      rw [hpairs] at h
      cases h
    | ok ps =>
      rw [hpairs] at h
      cases h
      rfl

/-- The options that flags of sources set. -/
def sourceOptions (fs : List SourceFlag) : Except Text Options := fs.foldlM SourceFlag.apply {}

/-- Flags of sources change nothing but folders and definitions. -/
theorem sourceOptions_eq_ok {fs : List SourceFlag} {o : Options} (h : sourceOptions fs = .ok o) :
    o = { folders := o.folders, defines := o.defines } := by
  have hkeeps : ∀ (fs : List SourceFlag) (o o' : Options), fs.foldlM SourceFlag.apply o = .ok o' →
      o' = { o with folders := o'.folders, defines := o'.defines } := by
    intro fs
    induction fs with
    | nil =>
      intro o o' h
      cases h
      rfl
    | cons f fs ih =>
      intro o o' h
      rw [List.foldlM_cons] at h
      obtain ⟨o₁, ho₁, hrest⟩ := Except.bind_eq_ok.1 h
      have hfirst := f.apply_eq_ok ho₁
      have hlast := ih o₁ o' hrest
      rw [hfirst] at hlast
      exact hlast
  exact hkeeps fs {} o h

section

variable (reader : Reader) {c : Command} (hc : c = .asm ∨ c = .run)
include hc

theorem read_sourceFlag (f : SourceFlag) (o : Options) (rest : List Text) :
    reader.read c.flags o (f.args ++ rest) = f.apply o >>= fun o => reader.read c.flags o rest := by
  cases f with
  | folder path =>
    have hfind : byLetter? c.flags 'I'.toUInt8 = some .includes := by
      obtain rfl | rfl := hc <;> rfl
    exact reader.read_letter (by decide) hfind rfl o path rest
  | define pairs =>
    have hfind : byLetter? c.flags 'D'.toUInt8 = some .define := by
      obtain rfl | rfl := hc <;> rfl
    exact reader.read_letter (by decide) hfind rfl o pairs rest

/-- **All flags of a source** are set one after the other. -/
theorem read_sourceFlags (fs : List SourceFlag) (o : Options) (rest : List Text) :
    reader.read c.flags o (fs.flatMap SourceFlag.args ++ rest) =
      fs.foldlM SourceFlag.apply o >>= fun o => reader.read c.flags o rest := by
  induction fs generalizing o with
  | nil => rfl
  | cons f fs ih =>
    rw [List.flatMap_cons, List.append_assoc, List.foldlM_cons, bind_assoc,
      read_sourceFlag reader hc]
    exact congrArg _ (funext ih)

end

/-! ## Lines -/

/-- A tick limit as arguments. -/
def limitArgs : Option Text → List Text
  | none => []
  | some n => [utf8 "--max-ticks", n]

/-- The tick limit that is asked for, or what is wrong with it. -/
def limitOf : Option Text → Except Text Int
  | none => .ok 0
  | some n => (Flag.maxTicks.apply n {}).map Options.maxTicks

theorem maxTicks_apply (n : Text) (o : Options) :
    Flag.maxTicks.apply n o = (limitOf (some n)).map fun limit => { o with maxTicks := limit } := by
  simp only [limitOf, Flag.apply, Flag.maxTicks]
  cases readInt n <;> rfl

theorem read_limit (reader : Reader) (limit : Option Text) {o : Options} (ho : o.maxTicks = 0)
    (file : Text) :
    reader.read run.flags o (limitArgs limit ++ operandArgs file) =
      (limitOf limit).map fun n => ({ o with maxTicks := n }, [file]) := by
  cases limit with
  | none =>
    refine (reader.read_operand _ o file).trans ?_
    cases o
    cases ho
    rfl
  | some n =>
    have hfind : byName? run.flags (utf8 "max-ticks") = some .maxTicks := rfl
    refine (reader.read_name (by decide +kernel) (by decide +kernel) (by decide +kernel) hfind rfl o
      n _).trans ?_
    rw [maxTicks_apply]
    cases limitOf (some n) with
    | error e => rfl
    | ok limit => exact reader.read_operand _ _ file

/-- The command line that assembles a source. -/
def asmLine (fs : List SourceFlag) (out file : Text) : List Text :=
  utf8 "asm" :: (fs.flatMap SourceFlag.args ++ utf8 "-o" :: out :: operandArgs file)

/-- The command line that runs a source. -/
def runLine (fs : List SourceFlag) (limit : Option Text) (file : Text) : List Text :=
  utf8 "run" :: (fs.flatMap SourceFlag.args ++ (limitArgs limit ++ operandArgs file))

/-- The command line that runs an image. -/
def imageLine (limit : Option Text) (image : Text) : List Text :=
  utf8 "run" :: utf8 "-b" :: (limitArgs limit ++ operandArgs image)

/-- A line that starts with a command is for this command. -/
theorem runToolWith_command (kit : Toolkit) (c : Command) (fuel : Nat) (tree : FileTree)
    (args : List Text) :
    runToolWith kit fuel tree (utf8 c.name :: args) = c.runWith kit fuel tree args := by
  have hends : endsFlags (utf8 c.name) = false := by cases c <;> decide +kernel
  have hnext : takesNext (utf8 c.name) = false := by cases c <;> decide +kernel
  have hword : (!(utf8 c.name).isEmpty && (utf8 c.name).head? != some Flag.dash) = true := by
    cases c <;> decide +kernel
  have hfirst : firstWord? (utf8 c.name :: args) = some (utf8 c.name) := by
    unfold firstWord?
    simp only [hends, hnext, hword, Bool.false_eq_true, if_false, if_true]
  have hdrop : dropWord (utf8 c.name) (utf8 c.name :: args) = args := by
    unfold dropWord
    simp only [hends, hnext, beq_self_eq_true, Bool.false_eq_true, if_false, if_true]
  have hall : all.find? (utf8 ·.name == utf8 c.name) = some c := by cases c <;> decide +kernel
  have hfind : find? (utf8 c.name :: args) = some (c, args) := by
    simp only [find?, hfirst, hall, hdrop, Option.bind_eq_bind, Option.bind_some]
  simp only [runToolWith, hfirst, hfind]

section

variable (kit : Toolkit) (fuel : Nat) (tree : FileTree) (fs : List SourceFlag) (limit : Option Text)
  (out file : Text)

theorem runToolWith_asmLine :
    runToolWith kit fuel tree (asmLine fs out file) =
      match sourceOptions fs with
      | .error message => refused { tree := tree } message
      | .ok o => runAsm kit tree { o with output := out } file := by
  have hfind : byLetter? asm.flags 'o'.toUInt8 = some .output := rfl
  have hread : kit.reader.read asm.flags {}
      (fs.flatMap SourceFlag.args ++ utf8 "-o" :: out :: operandArgs file) =
      (sourceOptions fs).map fun o => ({ o with output := out }, [file]) := by
    rw [read_sourceFlags kit.reader (.inl rfl)]
    show sourceOptions fs >>= _ = _
    cases sourceOptions fs with
    | error e => rfl
    | ok o =>
      exact (kit.reader.read_letter (by decide) hfind rfl o out _).trans
        (kit.reader.read_operand _ { o with output := out } file)
  refine (runToolWith_command kit asm fuel tree _).trans ?_
  rw [runWith, hread]
  cases ho : sourceOptions fs with
  | error e => rfl
  | ok o =>
    rw [sourceOptions_eq_ok ho]
    rfl

theorem runToolWith_runLine :
    runToolWith kit fuel tree (runLine fs limit file) =
      match sourceOptions fs, limitOf limit with
      | .error message, _ => refused { tree := tree } message
      | .ok _, .error message => refused { tree := tree } message
      | .ok o, .ok n => runRun kit fuel tree { o with maxTicks := n } file := by
  have hread : kit.reader.read run.flags {}
      (fs.flatMap SourceFlag.args ++ (limitArgs limit ++ operandArgs file)) =
      sourceOptions fs >>= fun o => (limitOf limit).map fun n =>
        ({ o with maxTicks := n }, [file]) := by
    rw [read_sourceFlags kit.reader (.inr rfl)]
    show sourceOptions fs >>= _ = _
    cases ho : sourceOptions fs with
    | error e => rfl
    | ok o =>
      have hticks : o.maxTicks = 0 := by rw [sourceOptions_eq_ok ho]
      exact read_limit kit.reader limit hticks file
  refine (runToolWith_command kit run fuel tree _).trans ?_
  rw [runWith, hread]
  cases ho : sourceOptions fs with
  | error e => rfl
  | ok o =>
    rw [sourceOptions_eq_ok ho]
    cases limitOf limit <;> rfl

theorem runToolWith_imageLine :
    runToolWith kit fuel tree (imageLine limit file) =
      match limitOf limit with
      | .error message => refused { tree := tree } message
      | .ok n => runRun kit fuel tree { binary := true, maxTicks := n } file := by
  have hfind : byLetter? run.flags 'b'.toUInt8 = some .binary := rfl
  have hread : kit.reader.read run.flags {} (utf8 "-b" :: (limitArgs limit ++ operandArgs file)) =
      (limitOf limit).map fun n => ({ binary := true, maxTicks := n }, [file]) := by
    refine (kit.reader.read_switch (by decide) hfind rfl {} _).trans ?_
    exact read_limit kit.reader limit (o := { binary := true }) rfl file
  refine (runToolWith_command kit run fuel tree _).trans ?_
  rw [runWith, hread]
  cases limitOf limit <;> rfl

end

end Command

end Octet
