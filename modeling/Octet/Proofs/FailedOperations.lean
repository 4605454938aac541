import Octet.Proofs.Loading
import Octet.Proofs.Ticks

/-!
# What failed operations leave

Starting a program, loading an image and a tick can fail. A failed start or load leaves the machine
as it was. So does a failed tick, unless the instruction itself was fine and only the way on leads
out of memory: whether that is a fault depends on the halt flag after the instruction, so registers
and memory have its effect by then.

* `Machine.Alike` — machines in the same state;
* `Emulator.start_fault` — what a failed start leaves;
* `Emulator.tick_fault_alike`, `Emulator.tick_overruns` — what a failed tick leaves, without and
  with an overrun;
* `failed_operation_keeps_state` — **what failed operations keep**;
* `failed_operation_changes_state` — what they do not keep.
-/

namespace Octet

/-- Machines in the same state; whether the log is on is no part of it. -/
structure Machine.Alike (m m' : Machine) : Prop where
  registers : m'.registers = m.registers
  memory : m'.memory = m.memory
  ip : m'.ip = m.ip
  ticks : m'.ticks = m.ticks

namespace Emulator

variable {e e' : Emulator} {f : Fault}

theorem prepared_alike (e : Emulator) : e.machine.Alike e.prepared := ⟨rfl, rfl, rfl, rfl⟩

/-- An instruction overruns whether or not the log is on. -/
theorem overruns_prepared_iff {c : Code} : e.prepared.Overruns c ↔ e.machine.Overruns c := by
  have hhalted : (e.prepared.perform c).halted = (e.machine.perform c).halted := by
    rw [perform_prepared]
    rfl
  constructor
  · intro h
    exact ⟨h.inside, h.leaves, hhalted ▸ h.running⟩
  · intro h
    exact ⟨h.inside, h.leaves, hhalted ▸ h.running⟩

/-- An image that is too large fails to start. -/
theorem start_large (e : Emulator) {image : Text} (h : memorySize < image.length) :
    e.start image =
      ({ e with machine := e.prepared }, some (.running [] 0 0 (.cause .imageSize))) := by
  rw [start, Machine.load, if_pos h]

/-- **A failed start** leaves the machine and the listing. -/
theorem start_fault {image : Text} (h : e.start image = (e', some f)) :
    e.machine.Alike e'.machine ∧ e'.program = e.program := by
  unfold start at h
  cases hload : e.prepared.load image with
  | ok m =>
    simp only [hload] at h
    cases h
  | error g =>
    simp only [hload] at h
    cases h
    exact ⟨e.prepared_alike, rfl⟩

/-- **A failed tick** leaves instruction pointer, tick counter and listing. -/
theorem tick_fault_keeps (h : e.tick = (e', .error f)) :
    e'.machine.ip = e.machine.ip ∧ e'.machine.ticks = e.machine.ticks ∧ e'.program = e.program := by
  obtain ⟨-, -, ht⟩ | ⟨-, -, g, ht⟩ | ⟨c, m, g, -, hx, ht⟩ | ⟨c, m, -, -, ht⟩ := e.tick_cases
  · cases ht.symm.trans h
  · cases ht.symm.trans h
    exact ⟨rfl, rfl, rfl⟩
  · cases ht.symm.trans h
    obtain ⟨hip, hticks, -⟩ := Machine.execute_fault hx
    exact ⟨hip, hticks, rfl⟩
  · cases ht.symm.trans h

/-- **A failed tick without an overrun** leaves the machine. -/
theorem tick_fault_alike (h : e.tick = (e', .error f))
    (hno : ∀ c, e.upcoming? = some c → ¬ e.machine.Overruns c) : e.machine.Alike e'.machine := by
  obtain ⟨-, -, ht⟩ | ⟨-, -, g, ht⟩ | ⟨c, m, g, hc, hx, ht⟩ | ⟨c, m, -, -, ht⟩ := e.tick_cases
  · cases ht.symm.trans h
  · cases ht.symm.trans h
    exact e.prepared_alike
  · cases ht.symm.trans h
    obtain ⟨-, -, rfl | ⟨hover, -⟩⟩ := Machine.execute_fault hx
    · exact e.prepared_alike
    · exact absurd (overruns_prepared_iff.1 hover) (hno c hc)
  · cases ht.symm.trans h

/-- **An overrun** fails after the effect of the instruction. -/
theorem tick_overruns {c : Code} (hc : e.upcoming? = some c) (h : e.machine.Overruns c) :
    ∃ f, e.tick = ({ e with machine := e.prepared.perform c }, .error f) :=
  ⟨_, tick_of_fault hc (overruns_prepared_iff.2 h).execute⟩

end Emulator

/-- **What failed operations keep.** A reset that fails leaves registers, memory, instruction
pointer, tick counter and listing. A load that fails leaves the first four, and an empty listing. A
tick that fails leaves instruction pointer, tick counter and listing. It leaves registers and memory
as well if no instruction overruns; if one does, registers and memory are those that the effect of
the instruction leaves. -/
theorem failed_operation_keeps_state (e e' : Emulator) (f : Fault) :
    (e.reset = (e', some f) → e.machine.Alike e'.machine ∧ e'.program = e.program) ∧
      (∀ image, e.load image = (e', some f) → e.machine.Alike e'.machine ∧ e'.program = {}) ∧
      (e.tick = (e', .error f) →
        e'.machine.ip = e.machine.ip ∧ e'.machine.ticks = e.machine.ticks ∧ e'.program = e.program ∧
          ((∀ c, e.upcoming? = some c → ¬ e.machine.Overruns c) → e.machine.Alike e'.machine) ∧
          ∀ c, e.upcoming? = some c → e.machine.Overruns c →
            e'.machine.registers = (e.machine.perform c).registers ∧
              e'.machine.memory = (e.machine.perform c).memory) := by
  refine ⟨Emulator.start_fault, fun image h => Emulator.start_fault h, fun h => ?_⟩
  obtain ⟨hip, hticks, hprogram⟩ := Emulator.tick_fault_keeps h
  refine ⟨hip, hticks, hprogram, Emulator.tick_fault_alike h, ?_⟩
  intro c hc hover
  obtain ⟨g, htick⟩ := Emulator.tick_overruns hc hover
  cases htick.symm.trans h
  rw [Emulator.perform_prepared]
  exact ⟨rfl, rfl⟩

/-! ## At the end of memory, and beyond -/

/-- A machine at the last byte of memory, which holds a push of `r1`. -/
def Machine.cornered : Machine where
  ip := 49151
  registers := (Vector.replicate 16 0).set 1 7
  memory := (List.replicate 49151 (0 : UInt8) ++ [0x51]).toArray

theorem Machine.cornered_memory : cornered.memory.toList = List.replicate 49151 0 ++ [0x51] := rfl

theorem Machine.cornered_fetch : cornered.fetch = .ok { op := 5, reg := 1 } := by
  have hcanonical : ({ op := 5, reg := 1 } : Code).Canonical :=
    Code.canonical_ofRegister (i := ⟨utf8 "psh", 5, [.register], 1⟩) (by decide) (by decide) 1
  have hip : cornered.ip.toNat = (List.replicate 49151 (0 : UInt8)).length :=
    List.length_replicate.symm
  exact fetch_of_bytes hcanonical cornered_memory hip

theorem Machine.cornered_size : cornered.memory.size = 49152 := by
  rw [← Array.length_toList, cornered_memory, List.length_append, List.length_replicate,
    List.length_singleton]

theorem Machine.cornered_overruns : cornered.Overruns { op := 5, reg := 1 } := by
  have haccess : cornered.accessed? { op := 5, reg := 1 } = some 0 := by decide
  have hnext : cornered.nextAddress { op := 5, reg := 1 } = 49152 := by decide
  refine ⟨?_, ?_, by decide⟩
  · simp [outside?, haccess, cornered_size]
  · exact Nat.le_of_eq (cornered_size.trans hnext.symm)

/-- A program that does not fit: as many loads of an address as there is room for, and one more. -/
def Program.oversized : Program where
  rows := List.replicate 16385 ⟨[], 1, 0, [utf8 "lda", utf8 "#0"], { op := 4 }⟩

theorem Program.image_replicate_length (n : Nat) (r : Row) :
    ({ rows := List.replicate n r } : Program).image.length = n * r.code.bytes.length := by
  induction n with
  | zero => simp [image]
  | succ n ih =>
    simp only [image] at ih ⊢
    rw [List.replicate_succ, List.flatMap_cons, List.length_append, ih, Nat.succ_mul, Nat.add_comm]

theorem Program.oversized_large : memorySize < oversized.image.length := by
  have hlength : oversized.image.length = 16385 * ({ op := 4 } : Code).bytes.length :=
    image_replicate_length ..
  rw [hlength]
  decide

namespace Emulator

/-- An emulator for which each operation fails: it runs the cornered machine, and its program does
not fit. -/
def stuck : Emulator := { machine := .cornered, program := .oversized }

theorem stuck_upcoming : stuck.upcoming? = some { op := 5, reg := 1 } :=
  upcoming?_eq_some.2 ⟨by decide, by decide, Machine.cornered_fetch⟩

end Emulator

theorem Machine.cornered_perform :
    (cornered.perform { op := 5, reg := 1 }).registers = (cornered.setReg .rsp 255).registers ∧
      (cornered.perform { op := 5, reg := 1 }).memory = cornered.memory.setIfInBounds 0 7 := by
  have hstore : cornered.stores? { op := 5, reg := 1 } = some 0 := by decide
  have hvalue : cornered.reg (Register.ofByte 1) = 7 := by decide
  refine ⟨by decide, ?_⟩
  rw [perform_memory, hstore]
  simp only [hvalue]

/-- At the last byte of memory a push fails after its effect, and a program that does not fit fails
to start. The register that was pushed is in memory, and the stack pointer has moved; what is kept
is kept. -/
theorem failed_operation_keeps_state_when_stuck :
    (∃ e' f, Emulator.stuck.reset = (e', some f) ∧
        Emulator.stuck.machine.Alike e'.machine ∧ e'.program = Program.oversized) ∧
      (∃ e' f, Emulator.stuck.load Program.oversized.image = (e', some f) ∧
        Emulator.stuck.machine.Alike e'.machine ∧ e'.program = {}) ∧
      ∃ e' f, Emulator.stuck.tick = (e', .error f) ∧ e'.machine.ip = 49151 ∧ e'.machine.ticks = 0 ∧
        e'.program = Program.oversized ∧
        e'.machine.registers = (Machine.cornered.setReg .rsp 255).registers ∧
        e'.machine.memory = Machine.cornered.memory.setIfInBounds 0 7 := by
  obtain ⟨f, htick⟩ := Emulator.tick_overruns Emulator.stuck_upcoming Machine.cornered_overruns
  have hreset := Emulator.stuck.start_large Program.oversized_large
  have hload := Emulator.start_large { Emulator.stuck with program := {} } Program.oversized_large
  obtain ⟨hip, hticks, hprogram, -, heffect⟩ := (failed_operation_keeps_state _ _ _).2.2 htick
  obtain ⟨hregisters, hmemory⟩ := heffect _ Emulator.stuck_upcoming Machine.cornered_overruns
  refine ⟨⟨_, _, hreset, (failed_operation_keeps_state _ _ _).1 hreset⟩,
    ⟨_, _, hload, (failed_operation_keeps_state Emulator.stuck _ _).2.1 _ hload⟩,
    ⟨_, _, htick, hip, hticks, hprogram, ?_, ?_⟩⟩
  · exact hregisters.trans Machine.cornered_perform.1
  · exact hmemory.trans Machine.cornered_perform.2

theorem Machine.cornered_first : cornered.memory[0]? = some 0 := by
  have hpos : 0 < (List.replicate 49151 (0 : UInt8)).length := by
    rw [List.length_replicate]
    decide
  rw [← Array.getElem?_toList, cornered_memory, List.getElem?_append_left hpos,
    List.getElem?_replicate]
  rfl

/-- A failed tick can change registers and memory, and a failed load drops the listing. -/
theorem failed_operation_changes_state :
    (∃ e' f, Emulator.stuck.tick = (e', .error f) ∧
      e'.machine.registers ≠ Emulator.stuck.machine.registers ∧
        e'.machine.memory ≠ Emulator.stuck.machine.memory) ∧
      ∃ e' f, Emulator.stuck.load Program.oversized.image = (e', some f) ∧
        e'.program ≠ Emulator.stuck.program := by
  obtain ⟨f, htick⟩ := Emulator.tick_overruns Emulator.stuck_upcoming Machine.cornered_overruns
  have hload := Emulator.start_large { Emulator.stuck with program := {} } Program.oversized_large
  have hpushed : (Machine.cornered.memory.setIfInBounds 0 7)[0]? = some 7 :=
    Array.getElem?_setIfInBounds_self_of_lt (by rw [Machine.cornered_size]; decide)
  refine ⟨⟨_, f, htick, by decide, ?_⟩, ⟨_, _, hload, ?_⟩⟩
  · intro h
    rw [← Machine.cornered_perform.2] at hpushed
    have hfirst : (7 : UInt8) = 0 := by
      rw [← Option.some.injEq, ← hpushed, ← Machine.cornered_first]
      exact congrArg (fun memory : Array UInt8 => memory[0]?) h
    cases hfirst
  · intro h
    have hrows : 0 = 16385 :=
      (congrArg (fun p : Program => p.rows.length) h).trans List.length_replicate
    cases hrows

end Octet
