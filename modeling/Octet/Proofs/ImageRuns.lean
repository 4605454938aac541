import Octet.Proofs.CodePoints
import Octet.Proofs.CommandLines
import Octet.Proofs.FileTrees
import Octet.Proofs.LargerMemories
import Octet.Proofs.Nesting

/-!
# Running an image instead of its source

The emulator keeps the listing of a program to tell faults by their place in the source, and for
nothing else. Assembling a file and running the image therefore comes to the same as running the
file.

* `Emulator.unlisted` — an emulator without its listing;
* `Emulator.tick_unlisted`, `Emulator.run_unlisted` — **one tick and a whole run** without the
  listing;
* `Command.Stops` — command lines whose report does not depend on how many ticks are tried;
* `Report.Agrees` — reports that differ in the places of faults at most;
* `image_run_agrees` — **an image runs like its source**.
-/

namespace Octet

/-- The fault without the place in the source, if it is one of a running program. -/
def Fault.unplaced : Fault → Fault
  | running _ _ ip f => running [] 0 ip f
  | f => f

/-! ## Emulators without listings -/

namespace Emulator

/-- The emulator without the listing of its program. -/
def unlisted (e : Emulator) : Emulator := { e with program := {} }

/-- The ending without the place of its fault. -/
def Ending.unplaced : Ending → Ending
  | failed f => failed f.unplaced
  | halted => halted
  | unfinished => unfinished

theorem blame_unlisted (p : Program) (ip : UInt16) (f : Fault) :
    blame {} ip f = (blame p ip f).unplaced := by
  have hunlisted : blame {} ip f = .running [] 0 ip f := rfl
  rw [hunlisted, blame]
  split <;> rfl

/-- An image is loaded alike, and a failure has no place anyway. -/
theorem start_unlisted (e : Emulator) (image : Text) :
    e.unlisted.start image =
      ((e.start image).1.unlisted, (e.start image).2.map Fault.unplaced) := by
  have hprepared : e.unlisted.prepared = e.prepared := rfl
  simp only [start, hprepared]
  cases e.prepared.load image <;> rfl

theorem start_verbose (e : Emulator) (image : Text) : (e.start image).1.verbose = e.verbose := by
  simp only [start]
  split <;> rfl

/-- A started emulator keeps its limit, and has not ticked yet. -/
theorem start_ok {e e' : Emulator} {image : Text} (h : e.start image = (e', none)) :
    e'.tickLimit = e.tickLimit ∧ e'.machine.ticks = 0 := by
  simp only [start] at h
  split at h
  · rename_i m hload
    cases h
    unfold Machine.load at hload
    split at hload
    · cases hload
    · cases hload
      exact ⟨rfl, rfl⟩
  · cases h

/-- **One tick** without the listing. -/
theorem tick_unlisted (e : Emulator) :
    e.unlisted.tick = (e.tick.1.unlisted, e.tick.2.mapError Fault.unplaced) := by
  have hprepared : e.unlisted.prepared = e.prepared := rfl
  obtain ⟨hhalted, ht⟩ | ⟨hrunning, hlimit, ht⟩ | ⟨hrunning, hlimit, ht⟩ := e.tick_outcomes
  · rw [ht, tick_halted (e := e.unlisted) hhalted]
    rfl
  · rw [ht, tick_atLimit (e := e.unlisted) hrunning hlimit]
    exact Prod.ext rfl (congrArg Except.error (blame_unlisted e.program _ _))
  · rw [ht, tick_attempt (e := e.unlisted) hrunning hlimit, attempt, attempt, hprepared]
    rcases e.prepared.tick with ⟨m, _ | f⟩
    · rfl
    · exact Prod.ext rfl (congrArg Except.error (blame_unlisted e.program _ _))

/-- **A run** without the listing. -/
theorem run_unlisted (fuel : Nat) (e : Emulator) :
    e.unlisted.run fuel = ((e.run fuel).1.unlisted, (e.run fuel).2.unplaced) := by
  induction fuel generalizing e with
  | zero => rfl
  | succ fuel ih =>
    rw [run, run, tick_unlisted]
    rcases e.tick with ⟨e₁, f | _ | _⟩
    · rfl
    · exact ih e₁
    · rfl

/-- A run that ends does so with all larger numbers of ticks. -/
theorem Ends.run_eq {e e' : Emulator} {ending : Ending} (h : e.Ends e' ending) :
    ∃ n, ∀ fuel, n ≤ fuel → e.run fuel = (e', ending) := by
  induction h using Ends.induct with
  | halt e _ ht hending =>
    refine ⟨1, fun fuel hfuel => ?_⟩
    obtain ⟨k, rfl⟩ := Nat.exists_eq_add_of_le' hfuel
    rw [run, ht, hending]
  | fault e f _ ht hending =>
    refine ⟨1, fun fuel hfuel => ?_⟩
    obtain ⟨k, rfl⟩ := Nat.exists_eq_add_of_le' hfuel
    rw [run, ht, hending]
  | running e e₁ _ _ ht ih =>
    obtain ⟨n, hn⟩ := ih
    refine ⟨n + 1, fun fuel hfuel => ?_⟩
    obtain ⟨k, rfl⟩ := Nat.exists_eq_add_of_le' (Nat.le_of_add_left_le hfuel)
    rw [run, ht]
    exact hn k (by omega)

end Emulator

/-! ## Reports -/

/-- The fault that a run ends with. -/
def Emulator.Ending.fault? : Ending → Option Fault
  | failed f => some f
  | halted => none
  | unfinished => none

theorem Emulator.Ending.fault?_unplaced (ending : Ending) :
    ending.unplaced.fault? = ending.fault?.map Fault.unplaced := by
  cases ending <;> rfl

/-- The report for an image says the same as the one for its source: the same is printed, and a
fault has the same cause and address, without a place in the source. -/
structure Report.Agrees (r image : Report) : Prop where
  stdout : image.stdout = r.stdout
  fault : image.fault = r.fault.map Fault.unplaced

namespace Command

/-- The report with a fault, if there is one. -/
def concluded (r : Report) : Option Fault → Report
  | none => r
  | some f => failed r f

theorem concluded_stdout (r : Report) (f : Option Fault) : (concluded r f).stdout = r.stdout := by
  cases f <;> rfl

theorem concluded_fault {r : Report} (hr : r.fault = none) (f : Option Fault) :
    (concluded r f).fault = f := by
  cases f with
  | none => exact hr
  | some f => rfl

/-- The report of a run, for an emulator that keeps no log. -/
theorem finishRun_eq {e : Emulator} (he : e.verbose = false) (fuel : Nat) (r : Report) :
    finishRun fuel r e =
      concluded { r with stdout := stateText (e.run fuel).1.machine } (e.run fuel).2.fault? := by
  unfold finishRun
  rw [he]
  simp only [Bool.false_eq_true, if_false, List.append_nil]
  cases (e.run fuel).2 <;> rfl

/-- Goes on with a run after an attempt to start it. -/
def launch (fuel : Nat) (r : Report) : Emulator × Option Fault → Report
  | (_, some f) => failed r f
  | (e, none) => finishRun fuel r e

/-- The report for an image, made from the one for its source; `start` is the report before the
run. -/
def replayed (start r : Report) : Report :=
  concluded { start with stdout := r.stdout } (r.fault.map Fault.unplaced)

theorem replayed_agrees {start : Report} (hstart : start.fault = none) (r : Report) :
    r.Agrees (replayed start r) where
  stdout := concluded_stdout _ _
  fault := concluded_fault (r := { start with stdout := r.stdout }) hstart _

/-- **Without its listing** a started program is reported alike. -/
theorem launch_unlisted {started : Emulator × Option Fault} (hverbose : started.1.verbose = false)
    {start r : Report} (hstdout : start.stdout = r.stdout) (hfault : r.fault = none) (fuel : Nat) :
    launch fuel start (started.1.unlisted, started.2.map Fault.unplaced) =
      replayed start (launch fuel r started) := by
  obtain ⟨e, _ | f⟩ := started
  · show finishRun fuel start e.unlisted = replayed start (finishRun fuel r e)
    have hr := concluded_fault (r := { r with stdout := stateText (e.run fuel).1.machine }) hfault
        (e.run fuel).2.fault?
    have hunlisted : e.unlisted.verbose = false := hverbose
    rw [finishRun_eq hunlisted, finishRun_eq hverbose, Emulator.run_unlisted, replayed,
      concluded_stdout, hr, Emulator.Ending.fault?_unplaced]
    rfl
  · show failed start f.unplaced = failed { start with stdout := r.stdout } f.unplaced
    rw [← hstdout]

/-- A program that is started under a limit comes to an end. -/
theorem launch_stops {e : Emulator} (hpos : 0 < e.tickLimit) (hverbose : e.verbose = false)
    (image : Text) (r : Report) :
    ∃ r' n, ∀ fuel, n ≤ fuel → launch fuel r (e.start image) = r' := by
  have hkeeps := e.start_verbose image
  match hstart : e.start image with
  | (_, some f) => exact ⟨failed r f, 0, fun _ _ => rfl⟩
  | (e₁, none) =>
    rw [hstart] at hkeeps
    obtain ⟨hlimit, hticks⟩ := Emulator.start_ok hstart
    have hpos₁ : 0 < e₁.tickLimit := hlimit ▸ hpos
    obtain ⟨e₂, ending, hends⟩ := Emulator.exists_ends hpos₁ (by omega)
    obtain ⟨n, hn⟩ := hends.run_eq
    refine ⟨concluded { r with stdout := stateText e₂.machine } ending.fault?, n,
      fun fuel hfuel => ?_⟩
    show finishRun fuel r e₁ = _
    rw [finishRun_eq (hkeeps.trans hverbose), hn fuel hfuel]

/-- A program that has failed after some ticks has failed for good. -/
theorem launch_of_fault {started : Emulator × Option Fault} (hverbose : started.1.verbose = false)
    {r : Report} (hfault : r.fault = none) {k : Nat} (h : (launch k r started).fault ≠ none) :
    ∃ n, ∀ fuel, n ≤ fuel → launch fuel r started = launch k r started := by
  obtain ⟨e, _ | f⟩ := started
  · have hr := concluded_fault (r := { r with stdout := stateText (e.run k).1.machine }) hfault
        (e.run k).2.fault?
    simp only [launch, finishRun_eq hverbose, hr] at h ⊢
    have hfinished : (e.run k).2 ≠ .unfinished := fun hending => h (by rw [hending]; rfl)
    obtain ⟨n, hn⟩ := (Emulator.ends_of_run rfl hfinished).run_eq
    refine ⟨n, fun fuel hfuel => ?_⟩
    rw [hn fuel hfuel]
  · exact ⟨0, fun _ _ => rfl⟩

/-! ## Assembling and running -/

/-- Where the image of a source is written. -/
def imagePath (out file : Text) : Text :=
  if out.isEmpty then Path.withoutExtension file ++ utf8 ".bin" else out

theorem assembleFile_report {kit : Toolkit} {tree : FileTree} {o : Options} {file : Text}
    {r : Report} {result : Except Fault Program} (h : assembleFile kit tree o file = (r, result)) :
    r.tree = tree ∧ r.stdout = [] ∧ r.fault = none := by
  unfold assembleFile at h
  split at h
  · cases h
    exact ⟨rfl, rfl, rfl⟩
  · cases h
    exact ⟨rfl, rfl, rfl⟩

section

variable (kit : Toolkit) (tree : FileTree) (folders : List Text) (defines : Table Text)
  (file : Text)

/-- Assembling a file writes its image. -/
theorem runAsm_eq (out : Text) :
    runAsm kit tree { folders := folders, defines := defines, output := out } file =
      match assembleFile kit tree { folders := folders, defines := defines } file with
      | (r, .error f) => failed r f
      | (r, .ok p) =>
        match r.tree.write (imagePath out file) p.image with
        | .error message => refused r message
        | .ok tree' => { r with tree := tree' } :=
  rfl

/-- Running a file starts its program. -/
theorem runRun_source_eq (n : Int) (fuel : Nat) :
    runRun kit fuel tree { folders := folders, defines := defines, maxTicks := n } file =
      match assembleFile kit tree { folders := folders, defines := defines } file with
      | (r, .error f) => failed r f
      | (r, .ok p) =>
        launch fuel { r with log := r.log ++ Emulator.resetLog ⟨{}, p, n, false⟩ }
          (Emulator.reset ⟨{}, p, n, false⟩) :=
  rfl

/-- Running an image loads it. -/
theorem runRun_image_eq (n : Int) (fuel : Nat) :
    runRun kit fuel tree { binary := true, maxTicks := n } file =
      match tree.read file with
      | .error message => refused { tree := tree } message
      | .ok image =>
        launch fuel { tree := tree, log := Emulator.startLog ⟨{}, {}, n, false⟩ image }
          (Emulator.load ⟨{}, {}, n, false⟩ image) :=
  rfl

variable {kit tree folders defines file}

/-- A file that is assembled without a fault leaves its image in the tree. -/
theorem runAsm_image {out : Text}
    (h : (runAsm kit tree { folders := folders, defines := defines, output := out } file).fault =
      none) :
    ∃ r p, assembleFile kit tree { folders := folders, defines := defines } file = (r, .ok p) ∧
      (runAsm kit tree { folders := folders, defines := defines, output := out } file).tree.read
        (imagePath out file) = .ok p.image := by
  rw [runAsm_eq] at h ⊢
  match hassemble : assembleFile kit tree { folders := folders, defines := defines } file with
  | (r, .error f) =>
    rw [hassemble] at h
    cases h
  | (r, .ok p) =>
    rw [hassemble] at h
    refine ⟨r, p, rfl, ?_⟩
    simp only at h ⊢
    cases hwrite : r.tree.write (imagePath out file) p.image with
    | error message =>
      rw [hwrite] at h
      cases h
    | ok tree' => exact FileTree.read_of_write hwrite

end

/-- The command line ends with a report, if it is given enough ticks. -/
def Stops (kit : Toolkit) (tree : FileTree) (args : List Text) (r : Report) : Prop :=
  ∃ n, ∀ fuel, n ≤ fuel → runToolWith kit fuel tree args = r

section

variable (kit : Toolkit) (tree : FileTree) (fs : List SourceFlag) (file : Text)
  (limit : Option Text)

/-- The report for the image is made from the one for the source, with the same number of ticks. -/
theorem imageLine_replayed {out : Text} {ticks : Nat}
    (hasm : (runToolWith kit ticks tree (asmLine fs out file)).fault = none) :
    ∃ start : Report, start.fault = none ∧
      ∀ fuel, runToolWith kit fuel (runToolWith kit ticks tree (asmLine fs out file)).tree
        (imageLine limit (imagePath out file)) =
        replayed start (runToolWith kit fuel tree (runLine fs limit file)) := by
  rw [runToolWith_asmLine] at hasm ⊢
  cases ho : sourceOptions fs with
  | error message =>
    rw [ho] at hasm
    cases hasm
  | ok o =>
    obtain ⟨folders, defines, rfl⟩ : ∃ folders defines,
      o = { folders := folders, defines := defines } :=
      ⟨_, _, sourceOptions_eq_ok ho⟩
    rw [ho] at hasm
    obtain ⟨r, p, hassemble, hread⟩ := runAsm_image hasm
    obtain ⟨-, hstdout, hfault⟩ := assembleFile_report hassemble
    simp only at hassemble hread ⊢
    generalize (runAsm kit tree { folders := folders, defines := defines, output := out }
      file).tree = tree' at hread ⊢
    cases hlimit : limitOf limit with
    | error message =>
      refine ⟨{ tree := tree' }, rfl, fun fuel => ?_⟩
      rw [runToolWith_imageLine, runToolWith_runLine, ho, hlimit]
      rfl
    | ok n =>
      have hload : Emulator.load ⟨{}, {}, n, false⟩ p.image =
          ((Emulator.reset ⟨{}, p, n, false⟩).1.unlisted,
            (Emulator.reset ⟨{}, p, n, false⟩).2.map Fault.unplaced) :=
        Emulator.start_unlisted ⟨{}, p, n, false⟩ p.image
      refine ⟨{ tree := tree', log := Emulator.startLog ⟨{}, {}, n, false⟩ p.image }, rfl,
        fun fuel => ?_⟩
      rw [runToolWith_imageLine, runToolWith_runLine, ho, hlimit]
      simp only
      rw [runRun_image_eq, hread, runRun_source_eq, hassemble]
      simp only
      rw [hload]
      refine launch_unlisted (Emulator.start_verbose _ _) ?_ ?_ fuel
      · exact hstdout.symm
      · exact hfault

/-- Running a file reports the same with any number of ticks, or starts a program. -/
theorem runLine_outcomes :
    (∃ r, ∀ fuel, runToolWith kit fuel tree (runLine fs limit file) = r) ∨
      ∃ n p r, limitOf limit = .ok n ∧ r.fault = none ∧
        ∀ fuel, runToolWith kit fuel tree (runLine fs limit file) =
          launch fuel r (Emulator.reset ⟨{}, p, n, false⟩) := by
  simp only [runToolWith_runLine]
  cases ho : sourceOptions fs with
  | error message => exact .inl ⟨_, fun _ => rfl⟩
  | ok o =>
    cases hlimit : limitOf limit with
    | error message => exact .inl ⟨_, fun _ => rfl⟩
    | ok n =>
      rw [sourceOptions_eq_ok ho]
      simp only [runRun_source_eq]
      match hassemble :
          assembleFile kit tree { folders := o.folders, defines := o.defines } file with
      | (r, .error f) => exact .inl ⟨_, fun _ => rfl⟩
      | (r, .ok p) =>
        have hfault : r.fault = none := (assembleFile_report hassemble).2.2
        exact .inr ⟨n, p, { r with log := r.log ++ Emulator.resetLog ⟨{}, p, n, false⟩ }, rfl,
          hfault, fun _ => rfl⟩

/-- Under a limit a source stops. -/
theorem exists_stops {n : Int} (hlimit : limitOf limit = .ok n) (hpos : 0 < n) :
    ∃ r, Stops kit tree (runLine fs limit file) r := by
  obtain ⟨r, hr⟩ | ⟨n', p, r, hlimit', -, hr⟩ := runLine_outcomes kit tree fs file limit
  · exact ⟨r, 0, fun fuel _ => hr fuel⟩
  · cases hlimit.symm.trans hlimit'
    simp only [Stops, hr]
    exact launch_stops (e := ⟨{}, p, n, false⟩) hpos rfl p.image r

/-- A source whose run has failed stops with that report. -/
theorem stops_of_fault {k : Nat}
    (h : (runToolWith kit k tree (runLine fs limit file)).fault ≠ none) :
    Stops kit tree (runLine fs limit file) (runToolWith kit k tree (runLine fs limit file)) := by
  obtain ⟨r, hr⟩ | ⟨n, p, r, -, hfault, hr⟩ := runLine_outcomes kit tree fs file limit
  · exact ⟨0, fun fuel _ => (hr fuel).trans (hr k).symm⟩
  · rw [hr] at h
    simp only [Stops, hr]
    exact launch_of_fault (Emulator.start_verbose _ _) hfault h

end

end Command

open Command

/-- **An image runs like its source.** After a file was assembled without a fault, running the image
prints what running the file prints, and fails with the same cause at the same address or not at
all, whatever the flags and the tick limit. In particular it stops if running the file stops, as it
does under a limit. -/
theorem image_run_agrees (kit : Toolkit) (tree : FileTree) (fs : List SourceFlag) (out file : Text)
    (limit : Option Text) (ticks : Nat)
    (hasm : (runToolWith kit ticks tree (asmLine fs out file)).fault = none) :
    (∀ fuel, (runToolWith kit fuel tree (runLine fs limit file)).Agrees
        (runToolWith kit fuel (runToolWith kit ticks tree (asmLine fs out file)).tree
          (imageLine limit (imagePath out file)))) ∧
      (∀ r, Stops kit tree (runLine fs limit file) r →
        ∃ r', Stops kit (runToolWith kit ticks tree (asmLine fs out file)).tree
          (imageLine limit (imagePath out file)) r' ∧ r.Agrees r') ∧
      ∀ n, limitOf limit = .ok n → 0 < n → ∃ r, Stops kit tree (runLine fs limit file) r := by
  obtain ⟨start, hstart, hreplayed⟩ := imageLine_replayed kit tree fs file limit hasm
  refine ⟨?_, ?_, ?_⟩
  · intro fuel
    rw [hreplayed]
    exact replayed_agrees hstart _
  · rintro r ⟨n, hr⟩
    refine ⟨replayed start r, ⟨n, fun fuel hfuel => ?_⟩, replayed_agrees hstart r⟩
    rw [hreplayed, hr fuel hfuel]
  · intro n hlimit hpos
    exact exists_stops kit tree fs file limit hlimit hpos

/-! ## A loop -/

namespace Command

/-- Where a tick limit was exceeded: the place in the source, and the address. -/
def limitPlace? : Emulator.Ending → Option (Text × Int × UInt16)
  | .failed (.running file line ip (.cause .tickLimit)) => some (file, line, ip)
  | _ => none

theorem eq_of_limitPlace? {ending : Emulator.Ending} {file : Text} {line : Int} {ip : UInt16}
    (h : limitPlace? ending = some (file, line, ip)) :
    ending = .failed (.running file line ip (.cause .tickLimit)) := by
  unfold limitPlace? at h
  split at h
  · cases h
    rfl
  · cases h

/-- A program that its limit stops is reported as from a memory that has room for the program
only. -/
theorem launch_reset {p : Program} (hfits : p.image.length ≤ memorySize) {n : Int} {fuel : Nat}
    {f : Fault} (h : (Emulator.run fuel ⟨{ memory := p.image.toArray }, p, n, false⟩).2 = .failed f)
    (hlimited : f.mentions .tickLimit = true) (r : Report) :
    launch fuel r (Emulator.reset ⟨{}, p, n, false⟩) =
      failed { r with
        stdout := stateText (Emulator.run fuel
          ⟨{ memory := p.image.toArray }, p, n, false⟩).1.machine } f := by
  have hreset : Emulator.reset ⟨{}, p, n, false⟩ =
      (Emulator.enlarged ⟨{ memory := p.image.toArray }, p, n, false⟩
        (Array.replicate (memorySize - p.image.length) 0), none) := by
    rw [Emulator.reset, Emulator.start, Machine.load, if_neg (Nat.not_lt.2 hfits)]
    rfl
  have hsmall : Emulator.run fuel ⟨{ memory := p.image.toArray }, p, n, false⟩ = (_, .failed f) :=
    Prod.ext rfl h
  have hrun := Emulator.run_enlarged (Array.replicate (memorySize - p.image.length) 0) hsmall
    (by rintro _ ⟨⟩; exact hlimited)
  rw [hreset, launch, finishRun_eq rfl, hrun]
  rfl

/-- A line of a printed state, where the characters of the name are counted as bytes. -/
def asciiLine (name value : Text) : Text :=
  List.replicate (5 - name.length) ' '.toUInt8 ++ name ++ utf8 ": " ++ value ++ utf8 "\n"

theorem textLine_ascii {name : Text} (h : ∀ b ∈ name, b < 0x80) (value : Text) :
    Machine.textLine name value = asciiLine name value := by
  rw [Machine.textLine, Text.padLeft, Text.length_points_ascii h, asciiLine]

/-- All names in a printed state are ASCII. -/
theorem stateText_ascii (m : Machine) :
    stateText m = asciiLine (utf8 "ip") (Text.hex 4 m.ip.toNat) ++
      (List.finRange 16).flatMap
        (fun r => asciiLine (Register.name r) (Text.hex 2 (m.reg r).toNat)) ++
      asciiLine (utf8 "ticks") (Text.decimal m.ticks) := by
  have hip : ∀ b ∈ utf8 "ip", b < 0x80 := by decide +kernel
  have hticks : ∀ b ∈ utf8 "ticks", b < 0x80 := by decide +kernel
  have hname : ∀ r, ∀ b ∈ Register.name r, b < 0x80 := by decide +kernel
  simp only [stateText, Machine.text, textLine_ascii hip, textLine_ascii hticks,
    textLine_ascii (hname _)]

end Command

/-- A loop without an end, with a part of it in another folder. -/
def spinning : FileTree where
  files := [(utf8 "spin.doc", utf8 "@include \"step\"\n$a: lda $a\njnz r1\n"),
    (utf8 "parts/step", utf8 "mov r1, #(STEP)\n")]

/-- The folder, and what the part of the loop needs. -/
def spinFlags : List SourceFlag := [.folder (utf8 "parts"), .define (utf8 "STEP=1")]

/-- The listing of the loop. -/
def spinProgram : Program where
  rows := [
    ⟨utf8 "step", 1, 0, [utf8 "mov", utf8 "r1", utf8 "#1"], { op := 1, reg := 1, imm := 1 }⟩,
    ⟨[], 2, 2, [utf8 "lda", utf8 "$a"], { op := 4, imm := 2 }⟩,
    ⟨[], 3, 5, [utf8 "jnz", utf8 "r1"], { op := 7, reg := 1 }⟩]
  labels := [(utf8 "a", 2)]

theorem assembleFile_spinning :
    ∃ r, assembleFile .standard spinning
        { folders := [utf8 "parts"], defines := [(utf8 "STEP", utf8 "1")] } (utf8 "spin.doc") =
          (r, .ok spinProgram) := by
  have hprogram : (assembleFile .standard spinning
      { folders := [utf8 "parts"], defines := [(utf8 "STEP", utf8 "1")] }
      (utf8 "spin.doc")).2.toOption.map (fun p => (p.rows, p.labels)) =
        some (spinProgram.rows, spinProgram.labels) := by
    simp only [assembleFile, assemble, Expansion.expandIncludes, Expansion.expandMacros,
      Worklist.expand_eq_nested]
    decide +kernel
  obtain ⟨p, hp, hparts⟩ := Option.map_eq_some_iff.1 hprogram
  obtain ⟨hrows, hlabels⟩ := Prod.mk.inj hparts
  obtain rfl : p = spinProgram := by
    cases p
    cases hrows
    cases hlabels
    rfl
  exact ⟨_, Prod.ext rfl (Except.toOption_eq_some.1 hp)⟩

/-- What is left of the loop after nine ticks. -/
def spunState : Text :=
  utf8 "   ip: 0002\n   r0: 00\n   r1: 01\n   r2: 00\n   r3: 00\n   r4: 00\n" ++
    utf8 "   r5: 00\n   r6: 00\n   r7: 00\n   r8: 00\n   rv: 00\n  rsh: 00\n" ++
    utf8 "  ral: 02\n  rah: 00\n  rsp: 00\n  rbp: 00\n   rf: 00\nticks: 9\n"

theorem runLine_spinning :
    ∃ r : Report,
      runToolWith .standard 10 spinning (runLine spinFlags (some (utf8 "9")) (utf8 "spin.doc")) =
      failed { r with stdout := spunState } (.running [] 2 2 (.cause .tickLimit)) := by
  have hflags : (sourceOptions spinFlags).toOption.map (fun o => (o.folders, o.defines)) =
      some ([utf8 "parts"], [(utf8 "STEP", utf8 "1")]) := by decide +kernel
  obtain ⟨o, ho, hparts⟩ := Option.map_eq_some_iff.1 hflags
  have ho := Except.toOption_eq_some.1 ho
  obtain ⟨hfolders, hdefines⟩ := Prod.mk.inj hparts
  have hlimit : (limitOf (some (utf8 "9"))).toOption = some 9 := by decide +kernel
  obtain ⟨r, hassemble⟩ := assembleFile_spinning
  have hplace : limitPlace?
      (Emulator.run 10 ⟨{ memory := spinProgram.image.toArray }, spinProgram, 9, false⟩).2 =
      some ([], 2, 2) := by decide +kernel
  have hstate : stateText (Emulator.run 10
      ⟨{ memory := spinProgram.image.toArray }, spinProgram, 9, false⟩).1.machine = spunState := by
    rw [stateText_ascii]
    decide +kernel
  refine ⟨{ r with log := r.log ++ Emulator.resetLog ⟨{}, spinProgram, 9, false⟩ }, ?_⟩
  rw [runToolWith_runLine, ho, Except.toOption_eq_some.1 hlimit, sourceOptions_eq_ok ho, hfolders,
    hdefines]
  simp only
  rw [runRun_source_eq, hassemble]
  simp only
  rw [launch_reset (by decide +kernel) (eq_of_limitPlace? hplace) rfl, hstate]

/-- Both runs of the loop are stopped by the limit: in line 2 of the source, and at the same address
of the image. -/
theorem image_run_agrees_on_a_loop :
    (runToolWith .standard 0 spinning (asmLine spinFlags (utf8 "-spin") (utf8 "spin.doc"))).fault =
      none ∧
      ∃ r r', Stops .standard spinning (runLine spinFlags (some (utf8 "9")) (utf8 "spin.doc")) r ∧
        Stops .standard (runToolWith .standard 0 spinning
          (asmLine spinFlags (utf8 "-spin") (utf8 "spin.doc"))).tree
          (imageLine (some (utf8 "9")) (utf8 "-spin")) r' ∧
        r.Agrees r' ∧
        r.stdout = spunState ∧ r.fault = some (.running [] 2 2 (.cause .tickLimit)) ∧
        r'.stdout = spunState ∧ r'.fault = some (.running [] 0 2 (.cause .tickLimit)) := by
  have hasm : (runToolWith .standard 0 spinning
      (asmLine spinFlags (utf8 "-spin") (utf8 "spin.doc"))).fault.isNone = true := by
    simp only [runToolWith_asmLine, runAsm, assembleFile, assemble, Expansion.expandIncludes,
      Expansion.expandMacros, Worklist.expand_eq_nested]
    decide +kernel
  obtain ⟨r, hrun⟩ := runLine_spinning
  have hr :=
    stops_of_fault .standard spinning spinFlags (utf8 "spin.doc") (some (utf8 "9")) (k := 10)
    (by rw [hrun]; exact Option.some_ne_none _)
  rw [hrun] at hr
  obtain ⟨-, hstops, -⟩ :=
    image_run_agrees .standard spinning spinFlags (utf8 "-spin") (utf8 "spin.doc")
    (some (utf8 "9")) 0 (Option.isNone_iff_eq_none.1 hasm)
  obtain ⟨r', hr', hagrees⟩ := hstops _ hr
  exact ⟨Option.isNone_iff_eq_none.1 hasm, _, r', hr, hr', hagrees, rfl, rfl, hagrees.stdout,
    hagrees.fault⟩

end Octet
