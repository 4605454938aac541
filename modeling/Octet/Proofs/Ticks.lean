import Octet.Emulator

/-!
# What a tick can do

An instruction touches the registers and at most one byte of memory. Where it faults, and what it
leaves then, is said here once, for the machine and for the emulator around it.

* `Machine.stores?` — the address that an instruction stores to; `Machine.perform_memory`: no other
  byte changes;
* `Machine.execute_cases`, `Machine.tick_cases` — how an instruction and a tick of the machine can
  end;
* `Emulator.tick_cases` — how a tick of the emulator can end.
-/

namespace Octet

namespace Machine

variable {m m' : Machine} {c : Code} {f : Fault}

/-! ## Setting registers -/

@[simp] theorem setReg_memory (m : Machine) (r : Register) (v : UInt8) :
    (m.setReg r v).memory = m.memory :=
  rfl

@[simp] theorem setReg_ip (m : Machine) (r : Register) (v : UInt8) : (m.setReg r v).ip = m.ip := rfl

@[simp] theorem setReg_ticks (m : Machine) (r : Register) (v : UInt8) :
    (m.setReg r v).ticks = m.ticks :=
  rfl

@[simp] theorem setReg_reg (m : Machine) (r q : Register) (v : UInt8) :
    (m.setReg r v).reg q = if r = q then v else m.reg q := by
  change (m.registers.set r.val v r.isLt)[q.val] = if r = q then v else m.registers[q.val]
  rw [Vector.getElem_set]
  simp only [Fin.ext_iff]

@[simp] theorem setFlag_memory (m : Machine) (flag : UInt8) (on : Bool) :
    (m.setFlag flag on).memory = m.memory :=
  rfl

@[simp] theorem setFlag_ip (m : Machine) (flag : UInt8) (on : Bool) :
    (m.setFlag flag on).ip = m.ip :=
  rfl

@[simp] theorem setFlag_ticks (m : Machine) (flag : UInt8) (on : Bool) :
    (m.setFlag flag on).ticks = m.ticks :=
  rfl

/-! ## The effect of an instruction -/

/-- The address that an instruction stores to. -/
def stores? (m : Machine) (c : Code) : Option Nat :=
  match Operation.ofNumber c.nibble with
  | .store => some m.address.toNat
  | .push => some (m.reg .rsp).toNat
  | _ => none

@[simp] theorem perform_ip (m : Machine) (c : Code) : (m.perform c).ip = m.ip := by
  unfold perform
  cases Operation.ofNumber c.nibble <;> rfl

@[simp] theorem perform_ticks (m : Machine) (c : Code) : (m.perform c).ticks = m.ticks := by
  unfold perform
  cases Operation.ofNumber c.nibble <;> rfl

/-- **Only the byte that is stored to changes**, and it gets the value of the first register. -/
theorem perform_memory (m : Machine) (c : Code) :
    (m.perform c).memory =
      match m.stores? c with
      | some address => m.memory.setIfInBounds address (m.reg (Register.ofByte c.reg))
      | none => m.memory := by
  unfold perform stores?
  cases Operation.ofNumber c.nibble <;> rfl

@[simp] theorem perform_memory_size (m : Machine) (c : Code) :
    (m.perform c).memory.size = m.memory.size := by
  rw [perform_memory]
  split
  · exact Array.size_setIfInBounds
  · rfl

/-- The instruction is a jump that is taken. -/
def Jumps (m : Machine) (c : Code) : Prop :=
  Operation.ofNumber c.nibble = .jump ∧ m.reg (Register.ofByte c.reg) ≠ 0

theorem nextAddress_of_not_jumps (h : ¬ m.Jumps c) : m.nextAddress c = m.ip.toNat + c.length :=
  if_neg h

/-! ## One instruction -/

/-- The instruction is performed, but execution would go on outside of memory. -/
structure Overruns (m : Machine) (c : Code) : Prop where
  inside : m.outside? c = none
  leaves : m.memory.size ≤ m.nextAddress c
  running : (m.perform c).halted = false

/-- How an instruction can end: before its effect, because it accesses memory outside of its bounds;
after its effect, because it overruns; or well. -/
theorem execute_cases (m : Machine) (c : Code) :
    (∃ address, m.outside? c = some address ∧ m.execute c = (m, some (accessFault c address))) ∨
      (m.Overruns c ∧ m.execute c = (m.perform c, some (accessFault c (m.nextAddress c)))) ∨
      (m.outside? c = none ∧ (m.nextAddress c < m.memory.size ∨ (m.perform c).halted = true) ∧
        m.execute c = ({ m.perform c with ip := UInt16.ofNat (m.nextAddress c) }, none)) := by
  unfold execute
  cases hout : m.outside? c with
  | some address => exact .inl ⟨address, rfl, rfl⟩
  | none =>
    by_cases hleave : m.memory.size ≤ m.nextAddress c
    · cases hhalt : (m.perform c).halted with
      | false => exact .inr (.inl ⟨⟨hout, hleave, hhalt⟩, by simp [hleave, hhalt]⟩)
      | true => exact .inr (.inr ⟨rfl, .inr rfl, by simp [hhalt]⟩)
    · exact .inr (.inr ⟨rfl, .inl (by omega), by simp [hleave]⟩)

theorem Overruns.execute (h : m.Overruns c) :
    m.execute c = (m.perform c, some (accessFault c (m.nextAddress c))) := by
  obtain ⟨address, hout, -⟩ | ⟨-, he⟩ | ⟨-, hgood, -⟩ := m.execute_cases c
  · cases hout.symm.trans h.inside
  · exact he
  · rcases hgood with hlt | hhalt
    · exact absurd h.leaves (Nat.not_le.2 hlt)
    · cases hhalt.symm.trans h.running

theorem execute_of_inside (hout : m.outside? c = none) (hnext : m.nextAddress c < m.memory.size) :
    m.execute c = ({ m.perform c with ip := UInt16.ofNat (m.nextAddress c) }, none) := by
  obtain ⟨address, hin, -⟩ | ⟨hover, -⟩ | ⟨-, -, he⟩ := m.execute_cases c
  · cases hin.symm.trans hout
  · exact absurd hover.leaves (Nat.not_le.2 hnext)
  · exact he

/-- A faulting instruction leaves the instruction pointer and the tick counter. -/
theorem execute_fault (h : m.execute c = (m', some f)) :
    m'.ip = m.ip ∧ m'.ticks = m.ticks ∧ (m' = m ∨ m.Overruns c ∧ m' = m.perform c) := by
  obtain ⟨address, -, he⟩ | ⟨hover, he⟩ | ⟨-, -, he⟩ := m.execute_cases c
  · cases he.symm.trans h
    exact ⟨rfl, rfl, .inl rfl⟩
  · cases he.symm.trans h
    exact ⟨m.perform_ip c, m.perform_ticks c, .inr ⟨hover, rfl⟩⟩
  · cases he.symm.trans h

/-- An instruction that ends well goes on at its next address. -/
theorem execute_ok (h : m.execute c = (m', none)) :
    m' = { m.perform c with ip := UInt16.ofNat (m.nextAddress c) } := by
  obtain ⟨address, -, he⟩ | ⟨-, he⟩ | ⟨-, -, he⟩ := m.execute_cases c
  · cases he.symm.trans h
  · cases he.symm.trans h
  · cases he.symm.trans h
    rfl

/-- What an instruction leaves in memory, however it ends. -/
theorem execute_memory (m : Machine) (c : Code) :
    (m.execute c).1.memory = m.memory ∨ (m.execute c).1.memory = (m.perform c).memory := by
  obtain ⟨address, -, he⟩ | ⟨-, he⟩ | ⟨-, -, he⟩ := m.execute_cases c
  · exact .inl (by rw [he])
  · exact .inr (by rw [he])
  · exact .inr (by rw [he])

/-! ## One tick -/

/-- How a tick can end: without an instruction, with a faulting one, or well. -/
theorem tick_cases (m : Machine) :
    (∃ f c, m.fetch = .error (f, c) ∧ m.tick = (m, some f)) ∨
      (∃ c m' f, m.fetch = .ok c ∧ m.execute c = (m', some f) ∧ m.tick = (m', some f)) ∨
      ∃ c m', m.fetch = .ok c ∧ m.execute c = (m', none) ∧
        m.tick = ({ m' with ticks := m'.ticks + 1 }, none) := by
  unfold tick
  cases hfetch : m.fetch with
  | error e => exact .inl ⟨e.1, e.2, rfl, rfl⟩
  | ok c =>
    cases hexec : m.execute c with
    | mk m' fault =>
      cases fault with
      | some f => exact .inr (.inl ⟨c, m', f, rfl, hexec, by simp [hexec]⟩)
      | none => exact .inr (.inr ⟨c, m', rfl, hexec, by simp [hexec]⟩)

end Machine

namespace Emulator

/-! ## The emulator -/

theorem perform_prepared (e : Emulator) (c : Code) :
    e.prepared.perform c = { e.machine.perform c with verbose := e.verbose } := by
  unfold Machine.perform
  cases Operation.ofNumber c.nibble <;> rfl

/-- The instruction that the next tick executes: none if the machine is halted, the tick limit is
reached, or nothing can be fetched. -/
def upcoming? (e : Emulator) : Option Code :=
  if e.machine.halted || e.atLimit then none else e.machine.fetch.toOption

theorem upcoming?_eq_some {e : Emulator} {c : Code} :
    e.upcoming? = some c ↔
      e.machine.halted = false ∧ e.atLimit = false ∧ e.machine.fetch = .ok c := by
  unfold upcoming?
  cases e.machine.halted <;> cases e.atLimit <;> cases e.machine.fetch <;> simp [Except.toOption]

/-- How a tick of the emulator can end: the machine is halted and nothing happens; nothing can be
executed; or the upcoming instruction is executed, and faults or ends well. -/
theorem tick_cases (e : Emulator) :
    (e.machine.halted = true ∧ e.upcoming? = none ∧
      e.tick = ({ e with machine := e.prepared }, .ok true)) ∨
      (e.machine.halted = false ∧ e.upcoming? = none ∧
        ∃ f, e.tick = ({ e with machine := e.prepared }, .error f)) ∨
      (∃ c m f, e.upcoming? = some c ∧ e.prepared.execute c = (m, some f) ∧
        e.tick = ({ e with machine := m }, .error (blame e.program e.machine.ip f))) ∨
      ∃ c m, e.upcoming? = some c ∧ e.prepared.execute c = (m, none) ∧
        e.tick = ({ e with machine := { m with ticks := m.ticks + 1 } }, .ok m.halted) := by
  unfold tick upcoming?
  cases hhalt : e.machine.halted with
  | true => exact .inl ⟨rfl, rfl, rfl⟩
  | false =>
    cases hlimit : e.atLimit with
    | true => exact .inr (.inl ⟨rfl, rfl, _, rfl⟩)
    | false =>
      obtain ⟨machine, program, tickLimit, verbose⟩ := e
      obtain ⟨f, c, hf, ht⟩ | ⟨c, m', f, hf, hx, ht⟩ | ⟨c, m', hf, hx, ht⟩ :=
        Machine.tick_cases { machine with verbose := verbose }
      · have hfetch : machine.fetch = .error (f, c) := hf
        exact .inr (.inl ⟨rfl, by simp [hfetch, Except.toOption], _, by simp only [ht]; rfl⟩)
      · have hfetch : machine.fetch = .ok c := hf
        exact .inr (.inr (.inl ⟨c, m', f, by simp [hfetch, Except.toOption], hx, by simp [ht]⟩))
      · have hfetch : machine.fetch = .ok c := hf
        refine .inr (.inr (.inr ⟨c, m', by simp [hfetch, Except.toOption], hx, ?_⟩))
        simp [ht, Machine.halted, Machine.reg]

section
variable {e : Emulator} {c : Code} {m : Machine} (hc : e.upcoming? = some c)
include hc

/-- A tick with an instruction that faults blames the row at the instruction pointer. -/
theorem tick_of_fault {f : Fault} (hx : e.prepared.execute c = (m, some f)) :
    e.tick = ({ e with machine := m }, .error (blame e.program e.machine.ip f)) := by
  obtain ⟨-, hn, -⟩ | ⟨-, hn, -⟩ | ⟨d, m', g, hd, hx', ht⟩ | ⟨d, m', hd, hx', -⟩ := e.tick_cases
  · cases hn.symm.trans hc
  · cases hn.symm.trans hc
  · cases hd.symm.trans hc
    cases hx'.symm.trans hx
    exact ht
  · cases hd.symm.trans hc
    cases hx'.symm.trans hx

/-- A tick with an instruction that ends well is counted. -/
theorem tick_of_ok (hx : e.prepared.execute c = (m, none)) :
    e.tick = ({ e with machine := { m with ticks := m.ticks + 1 } }, .ok m.halted) := by
  obtain ⟨-, hn, -⟩ | ⟨-, hn, -⟩ | ⟨d, m', g, hd, hx', -⟩ | ⟨d, m', hd, hx', ht⟩ := e.tick_cases
  · cases hn.symm.trans hc
  · cases hn.symm.trans hc
  · cases hd.symm.trans hc
    cases hx'.symm.trans hx
  · cases hd.symm.trans hc
    cases hx'.symm.trans hx
    exact ht

end

@[simp] theorem tick_program (e : Emulator) : e.tick.1.program = e.program := by
  obtain ⟨-, -, ht⟩ | ⟨-, -, f, ht⟩ | ⟨c, m, f, -, -, ht⟩ | ⟨c, m, -, -, ht⟩ :=
    e.tick_cases <;> rw [ht]

end Emulator

end Octet
