import Octet.Proofs.InstructionPointer

/-!
# Only jumps make a run long

Programs can overwrite the code that they are about to execute, so how long a run takes cannot be
read off its image. But whatever is fetched has at least one byte, and without a jump execution goes
on behind it. The instruction pointer measures the progress of such a stretch of a run, and it does
not leave memory.

* `Emulator.Advances` — the next tick ends well and takes no jump;
* `Emulator.Advances.ip_lt` — **one tick** of this kind moves the instruction pointer forward;
* `Emulator.ip_afterTicks` — **a stretch** of such ticks moves it by at least one byte for each of
  them;
* `jump_free_stretch_is_short` — **a stretch without jumps is no longer than memory**.
-/

namespace Octet

namespace Emulator

variable {e e₀ : Emulator}

/-! ## One tick -/

/-- The next tick takes a jump. -/
def TakesJump (e : Emulator) : Prop := ∃ c, e.machine.fetch = .ok c ∧ e.machine.Jumps c

/-- The machine is running, and the next tick ends well without taking a jump. The tick may halt the
machine. -/
structure Advances (e : Emulator) : Prop where
  running : e.machine.halted = false
  ok : ∃ done, e.tick.2 = .ok done
  falls : ¬ e.TakesJump

/-- A tick does anything else if the machine is halted, if it fails, or if it takes a jump. -/
theorem not_advances (h : ¬ e.Advances) :
    e.machine.halted = true ∨ (∃ f, e.tick.2 = .error f) ∨ e.TakesJump := by
  cases hhalt : e.machine.halted with
  | true => exact .inl rfl
  | false =>
    cases htick : e.tick.2 with
    | error f => exact .inr (.inl ⟨f, rfl⟩)
    | ok done =>
      by_cases hjump : e.TakesJump
      · exact .inr (.inr hjump)
      · exact absurd ⟨hhalt, ⟨done, htick⟩, hjump⟩ h

/-- **One tick moves the instruction pointer forward**, whatever it executes. -/
theorem Advances.ip_lt (ha : e.Advances) (h : e.Contained) :
    e.machine.ip.toNat < e.tick.1.machine.ip.toNat := by
  obtain ⟨done, hok⟩ := ha.ok
  obtain ⟨hhalt, -⟩ | ⟨c, hc, hcontinues⟩ :=
    h.continues (Prod.ext rfl hok : e.tick = (e.tick.1, .ok done))
  · cases hhalt.symm.trans ha.running
  · obtain ⟨-, -, hfetch⟩ := upcoming?_eq_some.1 hc
    have hip := hcontinues.fall fun hjump => ha.falls ⟨c, hfetch, hjump⟩
    have hpos := c.length_pos
    omega

/-! ## Many ticks -/

theorem afterTicks_add (m n : Nat) (e : Emulator) :
    e.afterTicks (m + n) = (e.afterTicks m).afterTicks n := by
  induction m generalizing e with
  | zero => rw [Nat.zero_add, afterTicks]
  | succ m ih => rw [Nat.succ_add, afterTicks, afterTicks, ih]

theorem afterTicks_succ (n : Nat) (e : Emulator) : e.afterTicks (n + 1) = (e.afterTicks n).tick.1 :=
  afterTicks_add n 1 e

/-- **A stretch of ticks moves the instruction pointer** by at least one byte for each tick. -/
theorem ip_afterTicks (h : e.Contained) {n : Nat} (ha : ∀ i < n, (e.afterTicks i).Advances) :
    e.machine.ip.toNat + n ≤ (e.afterTicks n).machine.ip.toNat := by
  induction n with
  | zero => exact Nat.le_refl _
  | succ n ih =>
    have hbefore := ih fun i hi => ha i (Nat.lt_succ_of_lt hi)
    have hlast := (ha n (Nat.lt_succ_self n)).ip_lt (h.afterTicks n)
    rw [afterTicks_succ]
    omega

/-- A stretch goes on for `k` ticks, or ends with an earlier tick that does not advance. -/
theorem exists_stretch (e : Emulator) (k : Nat) :
    (∀ i < k, (e.afterTicks i).Advances) ∨
      ∃ n < k, (∀ i < n, (e.afterTicks i).Advances) ∧ ¬ (e.afterTicks n).Advances := by
  induction k with
  | zero => exact .inl fun i hi => absurd hi (Nat.not_lt_zero i)
  | succ k ih =>
    rcases ih with hall | ⟨n, hn, hbefore, hstop⟩
    · by_cases hk : (e.afterTicks k).Advances
      · refine .inl fun i hi => ?_
        rcases Nat.lt_succ_iff_lt_or_eq.1 hi with hi | rfl
        · exact hall i hi
        · exact hk
      · exact .inr ⟨k, Nat.lt_succ_self k, hall, hk⟩
    · exact .inr ⟨n, Nat.lt_succ_of_lt hn, hbefore, hstop⟩

/-- Only an image that fits is loaded. -/
theorem fits_of_load {image : Text} (h : e.load image = (e₀, none)) :
    image.length ≤ memorySize := by
  unfold load start Machine.load at h
  split at h
  · cases h
  · omega

theorem contained_of_load {image : Text} (h : e.load image = (e₀, none)) : e₀.Contained := by
  obtain ⟨e₁, hload, hcontained⟩ := e.load_contained (fits_of_load h)
  cases hload.symm.trans h
  exact hcontained

end Emulator

/-- **Only jumps can make a run long.** Take an image that is loaded, and any stretch of the ticks
after that in which the machine is running, no tick fails and no jump is taken. The instruction
pointer increases with every tick, so the stretch has at most as many ticks as memory has bytes.
From every state of the run on, as many ticks are enough to come to a machine that is halted, a tick
that fails or a jump that is taken. -/
theorem jump_free_stretch_is_short (e e₀ : Emulator) (image : Text)
    (hload : e.load image = (e₀, none)) (start : Nat) :
    (∀ n, (∀ i < n, (e₀.afterTicks (start + i)).Advances) →
        (∀ i < n, (e₀.afterTicks (start + i)).machine.ip.toNat <
          (e₀.afterTicks (start + i + 1)).machine.ip.toNat) ∧
          n ≤ memorySize) ∧
      ∃ n ≤ memorySize, (∀ i < n, (e₀.afterTicks (start + i)).Advances) ∧
        ((e₀.afterTicks (start + n)).machine.halted = true ∨
          (∃ f, (e₀.afterTicks (start + n)).tick.2 = .error f) ∨
          (e₀.afterTicks (start + n)).TakesJump) := by
  have hcontained := (Emulator.contained_of_load hload).afterTicks
  simp only [Emulator.afterTicks_add start]
  have hshort (n : Nat) (ha : ∀ i < n, ((e₀.afterTicks start).afterTicks i).Advances) :
      n ≤ memorySize := by
    have hip := Emulator.ip_afterTicks (hcontained start) ha
    have hle := ((hcontained start).afterTicks n).le
    omega
  constructor
  · intro n ha
    refine ⟨fun i hi => ?_, hshort n ha⟩
    rw [Nat.add_assoc, Emulator.afterTicks_add start, Emulator.afterTicks_succ]
    exact (ha i hi).ip_lt ((hcontained start).afterTicks i)
  · rcases (e₀.afterTicks start).exists_stretch (memorySize + 1) with hall | ⟨n, hn, hbefore, hstop⟩
    · exact absurd (hshort _ hall) (Nat.not_succ_le_self _)
    · exact ⟨n, Nat.le_of_lt_succ hn, hbefore, Emulator.not_advances hstop⟩

/-! ## A program that overwrites a jump -/

namespace Emulator

/-- A tick without a limit and a log, of an instruction that is no jump and stays in memory. -/
theorem advances_of_decode {m : Machine} {c : Code} (hquiet : m.verbose = false)
    (hrunning : m.halted = false)
    (hc : Code.decode ((m.memory.toList.drop m.ip.toNat).take Machine.longest) = .ok c)
    (hout : m.outside? c = none) (hnext : m.following c < m.memory.size)
    (hop : Operation.ofNumber c.nibble ≠ .jump) :
    Advances { machine := m } ∧ (tick { machine := m }).1 = { machine := { m.perform c with
      ip := UInt16.ofNat (m.following c), ticks := (m.perform c).ticks + 1 } } := by
  have hfetch : m.fetch = .ok c := by
    have hip : m.ip.toNat < m.memory.size := Nat.lt_of_le_of_lt (Nat.le_add_right ..) hnext
    rw [Machine.fetch, if_neg (Nat.not_le.2 hip), Machine.bytesAt_eq, hc]
  have hprepared : prepared { machine := m } = m := by rw [prepared, ← hquiet]
  have hfollowing : m.nextAddress c = m.following c :=
    Machine.nextAddress_of_not_jumps fun hjump => hop hjump.1
  have hexecute := Machine.execute_of_inside hout (hfollowing ▸ hnext)
  rw [hfollowing] at hexecute
  have htick := tick_of_ok (e := { machine := m }) (upcoming?_eq_some.2 ⟨hrunning, rfl, hfetch⟩)
    (by rw [hprepared]; exact hexecute)
  refine ⟨⟨hrunning, ⟨_, by rw [htick]⟩, ?_⟩, by rw [htick]⟩
  rintro ⟨d, hd, hjump⟩
  cases hd.symm.trans hfetch
  exact hop hjump.1

/-- The image of `lda #4`, `sta r0` and `jnz ral`, with zeros behind it. The jump would be taken,
but it has been overwritten when it is its turn. -/
def rewriting : Text := [0x40, 0x00, 0x04, 0x30, 0x7B, 0x00, 0x00]

end Emulator

theorem jump_free_stretch_is_short_when_rewriting :
    ∃ e₀, Emulator.load {} Emulator.rewriting = (e₀, none) ∧
      (∀ i < 3, (e₀.afterTicks (0 + i)).Advances) ∧
      (∀ i < 3,
        (e₀.afterTicks (0 + i)).machine.ip.toNat < (e₀.afterTicks (0 + i + 1)).machine.ip.toNat) ∧
      (e₀.afterTicks 3).machine.ip.toNat = 6 ∧
      e₀.machine.memory.toList[4]? = some 0x7B ∧
        (e₀.afterTicks 2).machine.memory.toList[4]? = some 0 := by
  have hbytes := Machine.memoryOf_toList Emulator.rewriting
  have hload : Emulator.load {} Emulator.rewriting =
    ({ machine := { memory := Machine.memoryOf Emulator.rewriting } }, none) := rfl
  generalize Machine.memoryOf Emulator.rewriting = memory at hbytes hload
  have hsize : memory.size = memorySize := by
    rw [← Array.length_toList, hbytes, List.length_append, List.length_replicate]
    rfl
  generalize List.replicate (memorySize - Emulator.rewriting.length) (0 : UInt8) = zeros at hbytes
  have hzero (q : Register) : (Vector.replicate 16 (0 : UInt8)).get q = 0 :=
    Vector.getElem_replicate q.isLt
  -- The address of the jump is pointed at.
  obtain ⟨ha₀, ht₀⟩ :=
    Emulator.advances_of_decode (m := { memory := memory }) (c := { op := 4, imm := 4 }) rfl
    (by rw [Machine.halted, Machine.reg, hzero]; rfl) (by rw [hbytes]; rfl) rfl
    (show 3 < memory.size by rw [hsize]; decide) (by decide)
  have hreg₁ (q : Register) : (Machine.perform { memory := memory } { op := 4, imm := 4 }).reg q =
      if Register.ral = q then 4 else 0 := by
    refine (Machine.setReg_reg ..).trans (congrArg (if Register.ral = q then 4 else ·) ?_)
    refine (Machine.setReg_reg ..).trans ?_
    rw [Machine.reg, hzero]
    exact ite_self _
  have hmemory₁ : (Machine.perform { memory := memory } { op := 4, imm := 4 }).memory = memory :=
    rfl
  have hquiet₁ : (Machine.perform { memory := memory } { op := 4, imm := 4 }).verbose = false := rfl
  generalize Machine.perform { memory := memory } { op := 4, imm := 4 } =
    m₁ at ht₀ hreg₁ hmemory₁ hquiet₁
  -- The jump is overwritten.
  have haddress : m₁.address = 4 := by
    rw [Machine.address, hreg₁, hreg₁]
    rfl
  obtain ⟨ha₁, ht₁⟩ := Emulator.advances_of_decode (m := { m₁ with ip := 3, ticks := m₁.ticks + 1 })
    (c := { op := 3 }) hquiet₁ (show m₁.halted = false by rw [Machine.halted, hreg₁]; rfl)
    (by rw [hmemory₁, hbytes]; rfl)
    (show (some m₁.address.toNat).filter (m₁.memory.size ≤ ·) =
      none by rw [haddress, hmemory₁, hsize]; rfl)
    (show 4 < m₁.memory.size by rw [hmemory₁, hsize]; decide) (by decide)
  have hmemory₂ :
      (Machine.perform { m₁ with ip := 3, ticks := m₁.ticks + 1 } { op := 3 }).memory.toList =
      [0x40, 0x00, 0x04, 0x30, 0x00, 0x00, 0x00] ++ zeros := by
    show (m₁.memory.setIfInBounds m₁.address.toNat (m₁.reg .r0)).toList = _
    rw [haddress, hreg₁, hmemory₁, Array.toList_setIfInBounds, hbytes]
    rfl
  -- What is executed in its place copies a register.
  obtain ⟨ha₂, ht₂⟩ := Emulator.advances_of_decode
    (m := { Machine.perform { m₁ with ip := 3, ticks := m₁.ticks + 1 } { op := 3 } with
      ip := 4, ticks := m₁.ticks + 2 })
    (c := {}) hquiet₁ (show m₁.halted = false by rw [Machine.halted, hreg₁]; rfl)
    (by rw [hmemory₂]; rfl) rfl
    (show 6 < (Machine.perform _ _).memory.size by
      rw [Machine.perform_memory_size, hmemory₁, hsize]
      decide) (by decide)
  have hafter₁ : Emulator.afterTicks 1 { machine := { memory := memory } } =
      { machine := { m₁ with ip := 3, ticks := m₁.ticks + 1 } } := by
    rw [Emulator.afterTicks, Emulator.afterTicks, ht₀]
    rfl
  have hafter₂ :
      Emulator.afterTicks 2 { machine := { memory := memory } } = { machine := { Machine.perform
      { m₁ with ip := 3, ticks := m₁.ticks + 1 } { op := 3 } with ip := 4, ticks := m₁.ticks + 2 }
        } := by
    rw [Emulator.afterTicks_succ, hafter₁, ht₁]
    rfl
  have hall :
      ∀ i < 3, (Emulator.afterTicks (0 + i) { machine := { memory := memory } }).Advances := by
    intro i hi
    obtain rfl | rfl | rfl : i = 0 ∨ i = 1 ∨ i = 2 := by omega
    · exact ha₀
    · exact hafter₁ ▸ ha₁
    · exact hafter₂ ▸ ha₂
  obtain ⟨hincreases, -⟩ := (jump_free_stretch_is_short {} _ _ hload 0).1 3 hall
  refine ⟨_, hload, hall, hincreases, by rw [Emulator.afterTicks_succ, hafter₂, ht₂]; rfl, ?_, ?_⟩
  · rw [hbytes]
    rfl
  · rw [hafter₂, hmemory₂]
    rfl

end Octet
