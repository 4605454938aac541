import Octet.Proofs.Loading
import Octet.Proofs.Ticks

/-!
# The instruction pointer stays exact

The next address is computed without bounds and kept in sixteen bits, and a halted machine may go on
outside of memory. Nothing is lost in that: an instruction that was fetched ends inside of memory,
so the address after it fits, and a jump goes to an address of sixteen bits anyway.

* `Machine.fetch_fits` — a fetched instruction lies inside of memory;
* `Machine.Continues` — the instruction pointer is the exact address where an instruction goes on;
* `Machine.Contained`, `Machine.Contained.tick` — **one tick** of the machine leaves it inside of
  memory or halted;
* `Emulator.Contained`, `Emulator.Contained.tick` — one tick of the emulator, which does nothing
  once it is halted;
* `instruction_pointer_stays_exact` — **what any number of ticks after loading keeps**.
-/

namespace Octet

/-! ## Fetching -/

/-- A code that is read takes no more bytes than there are. -/
theorem Code.length_of_decode {data : Text} {c : Code} (h : decode data = .ok c) :
    c.length ≤ data.length := by
  rw [length_eq_size]
  cases reads_of_decode h with
  | registers hs _ => simp [hs, Shape.size]
  | registerByte hs _ => simp [hs, Shape.size]
  | address hs _ => simp [hs, Shape.size]
  | register hs _ => rcases hs with hs | hs <;> simp [hs, Shape.size]

namespace Machine

variable {m m' : Machine} {c : Code}

/-- **A fetched instruction lies inside of memory.** -/
theorem fetch_fits (h : m.fetch = .ok c) : m.ip.toNat + c.length ≤ m.memory.size := by
  unfold fetch at h
  split at h
  · cases h
  · split at h
    · rename_i hin d hdecode
      cases h
      have hlength := Code.length_of_decode hdecode
      rw [bytesAt, Array.length_toList, Array.size_extract] at hlength
      omega
    · cases h

theorem fetch_ip_lt (h : m.fetch = .ok c) : m.ip.toNat < m.memory.size := by
  unfold fetch at h
  split at h
  · cases h
  · omega

/-! ## The next address -/

theorem address_toNat (m : Machine) :
    m.address.toNat = (m.reg .rah).toNat * 256 + (m.reg .ral).toNat :=
  Code.toNat_word ..

/-- The instruction pointer is exactly the address where the instruction goes on: the address pair
if it is a jump that is taken, and the address after it otherwise. -/
structure Continues (m : Machine) (c : Code) (ip : UInt16) : Prop where
  jump : m.Jumps c → ip.toNat = (m.reg .rah).toNat * 256 + (m.reg .ral).toNat
  fall : ¬ m.Jumps c → ip.toNat = m.ip.toNat + c.length

theorem nextAddress_of_jumps (h : m.Jumps c) : m.nextAddress c = m.address.toNat := if_pos h

/-- Sixteen bits are enough for the next address. -/
theorem continues_next (hfetch : m.fetch = .ok c) (hsize : m.memory.size = memorySize) :
    m.Continues c (UInt16.ofNat (m.nextAddress c)) := by
  constructor
  · intro hjump
    rw [nextAddress_of_jumps hjump, UInt16.ofNat_toNat, address_toNat]
  · intro hjump
    have hfits := fetch_fits hfetch
    rw [nextAddress_of_not_jumps hjump, UInt16.toNat_ofNat']
    rw [hsize, memorySize] at hfits
    omega

/-! ## Ticks of the machine -/

/-- A tick whose operand is in bounds, and which goes on in memory or halts. -/
theorem tick_of_inside {m : Machine} {c : Code} (hfetch : m.fetch = .ok c)
    (hout : m.outside? c = none)
    (hnext : m.nextAddress c < m.memory.size ∨ (m.perform c).halted = true) :
    m.tick = ({ m.perform c with
      ip := UInt16.ofNat (m.nextAddress c), ticks := (m.perform c).ticks + 1 }, none) := by
  have hx : m.execute c = ({ m.perform c with ip := UInt16.ofNat (m.nextAddress c) }, none) := by
    obtain ⟨address, hin, -⟩ | ⟨hover, -⟩ | ⟨-, -, he⟩ := m.execute_cases c
    · cases hin.symm.trans hout
    · rcases hnext with hlt | hhalt
      · exact absurd hover.leaves (Nat.not_le.2 hlt)
      · cases hhalt.symm.trans hover.running
    · exact he
  rw [tick, hfetch]
  simp only [hx]

/-- The machine has its full memory, and goes on inside of it or is halted. -/
structure Contained (m : Machine) : Prop where
  size : m.memory.size = memorySize
  inside : m.ip.toNat < memorySize ∨ m.halted = true

/-- A tick that ends well goes on at the exact address. -/
theorem Contained.continues (h : m.Contained) (ht : m.tick = (m', none)) :
    ∃ c, m.fetch = .ok c ∧ m.Continues c m'.ip := by
  obtain ⟨f, c, -, ht'⟩ | ⟨c, m₁, f, -, -, ht'⟩ | ⟨c, m₁, hfetch, hx, ht'⟩ := m.tick_cases
  · cases ht'.symm.trans ht
  · cases ht'.symm.trans ht
  · cases ht'.symm.trans ht
    refine ⟨c, hfetch, ?_⟩
    rw [execute_ok hx]
    exact continues_next hfetch h.size

/-- An instruction leaves the machine contained, however it ends. -/
theorem Contained.execute (h : m.Contained) (hfetch : m.fetch = .ok c) :
    (m.execute c).1.Contained := by
  have hin := fetch_ip_lt hfetch
  have hsize : (m.perform c).memory.size = memorySize := (m.perform_memory_size c).trans h.size
  rw [h.size] at hin
  obtain ⟨address, -, he⟩ | ⟨-, he⟩ | ⟨-, hnext, he⟩ := m.execute_cases c
  · rw [he]
    exact h
  · rw [he]
    exact ⟨hsize, .inl (by rw [perform_ip]; exact hin)⟩
  · rw [he]
    refine ⟨hsize, ?_⟩
    rcases hnext with hlt | hhalt
    · left
      have hword : m.nextAddress c < 65536 := by
        rw [h.size, memorySize] at hlt
        omega
      rw [UInt16.toNat_ofNat', Nat.mod_eq_of_lt hword, ← h.size]
      exact hlt
    · exact .inr hhalt

/-- **One tick** leaves the machine contained, whether it succeeds or not. -/
theorem Contained.tick (h : m.Contained) : m.tick.1.Contained := by
  obtain ⟨f, c, -, ht⟩ | ⟨c, m₁, f, hfetch, hx, ht⟩ | ⟨c, m₁, hfetch, hx, ht⟩ := m.tick_cases
  · rw [ht]
    exact h
  · rw [ht]
    have hafter := h.execute hfetch
    rw [hx] at hafter
    exact hafter
  · rw [ht]
    have hafter := h.execute hfetch
    rw [hx] at hafter
    exact ⟨hafter.size, hafter.inside⟩

/-- The machine after some ticks. They may fail, and go on after a failure and when the machine is
halted. -/
def afterTicks : Nat → Machine → Machine
  | 0, m => m
  | n + 1, m => afterTicks n m.tick.1

theorem Contained.afterTicks (h : m.Contained) (n : Nat) : (m.afterTicks n).Contained := by
  induction n generalizing m with
  | zero => exact h
  | succ n ih => exact ih h.tick

theorem load_contained (m : Machine) {image : Text} (hfits : image.length ≤ memorySize) :
    ∃ m₀, m.load image = .ok m₀ ∧ m₀.Contained ∧ m₀.ip = 0 ∧ m₀.memory = memoryOf image := by
  refine ⟨_, if_neg (by omega), ⟨?_, .inl (show (0 : UInt16).toNat < memorySize by decide)⟩, rfl,
    rfl⟩
  rw [← Array.length_toList, memoryOf_toList, List.length_append, List.length_replicate]
  omega

end Machine

/-! ## Ticks of the emulator -/

namespace Emulator

variable {e e' : Emulator}

/-- The machine of the emulator is contained, and goes on at most at the end of memory. -/
structure Contained (e : Emulator) : Prop where
  machine : e.machine.Contained
  le : e.machine.ip.toNat ≤ memorySize

theorem Contained.prepared (h : e.Contained) : e.prepared.Contained :=
  ⟨h.machine.size, h.machine.inside⟩

/-- At the end of memory the machine is halted. -/
theorem Contained.halted (h : e.Contained) (hend : e.machine.ip.toNat = memorySize) :
    e.machine.halted = true := by
  rcases h.machine.inside with hlt | hhalt
  · omega
  · exact hhalt

/-- A jump does not touch the halt flag, so a running machine takes it only inside of memory. -/
theorem nextAddress_le {m : Machine} {c : Code} (hsize : m.memory.size = memorySize)
    (hfetch : m.fetch = .ok c) (hrunning : m.halted = false)
    (hnext : m.nextAddress c < m.memory.size ∨ (m.perform c).halted = true) :
    m.nextAddress c ≤ memorySize := by
  rw [hsize] at hnext
  by_cases hjump : m.Jumps c
  · have hperform : m.perform c = m := by
      unfold Machine.perform
      rw [hjump.1]
    rw [hperform, hrunning] at hnext
    simp only [Bool.false_eq_true, or_false] at hnext
    omega
  · have hfits := Machine.fetch_fits hfetch
    rw [Machine.nextAddress_of_not_jumps hjump, ← hsize]
    exact hfits

/-- **One tick of the emulator** leaves it contained, whether it succeeds or not. -/
theorem Contained.tick (h : e.Contained) : e.tick.1.Contained := by
  obtain ⟨-, -, ht⟩ | ⟨-, -, f, ht⟩ | ⟨c, m, f, hc, hx, ht⟩ | ⟨c, m, hc, hx, ht⟩ := e.tick_cases
  · rw [ht]
    exact ⟨h.prepared, h.le⟩
  · rw [ht]
    exact ⟨h.prepared, h.le⟩
  · rw [ht]
    obtain ⟨-, -, hfetch⟩ := upcoming?_eq_some.1 hc
    have hafter := h.prepared.execute (c := c) hfetch
    rw [hx] at hafter
    refine ⟨hafter, ?_⟩
    rw [(Machine.execute_fault hx).1]
    exact h.le
  · rw [ht]
    obtain ⟨hrunning, -, hfetch⟩ := upcoming?_eq_some.1 hc
    have hafter := h.prepared.execute (c := c) hfetch
    rw [hx] at hafter
    refine ⟨⟨hafter.size, hafter.inside⟩, ?_⟩
    obtain ⟨address, -, he⟩ | ⟨-, he⟩ | ⟨-, hnext, -⟩ := e.prepared.execute_cases c
    · cases he.symm.trans hx
    · cases he.symm.trans hx
    · have hle := nextAddress_le h.prepared.size hfetch hrunning hnext
      have hword : e.prepared.nextAddress c < 65536 := by
        rw [memorySize] at hle
        omega
      rw [Machine.execute_ok hx]
      simp only [UInt16.toNat_ofNat']
      rw [Nat.mod_eq_of_lt hword]
      exact hle

/-- A tick of the emulator that ends well executes the upcoming instruction, and goes on at the
exact address; if the machine is halted, it stays where it is. -/
theorem Contained.continues (h : e.Contained) {done : Bool} (ht : e.tick = (e', .ok done)) :
    (e.machine.halted = true ∧ e'.machine.ip = e.machine.ip) ∨
      ∃ c, e.upcoming? = some c ∧ e.machine.Continues c e'.machine.ip := by
  obtain ⟨hhalt, -, ht'⟩ | ⟨-, -, f, ht'⟩ | ⟨c, m, f, -, -, ht'⟩ | ⟨c, m, hc, hx, ht'⟩ :=
    e.tick_cases
  · cases ht'.symm.trans ht
    exact .inl ⟨hhalt, rfl⟩
  · cases ht'.symm.trans ht
  · cases ht'.symm.trans ht
  · cases ht'.symm.trans ht
    obtain ⟨-, -, hfetch⟩ := upcoming?_eq_some.1 hc
    refine .inr ⟨c, hc, ?_⟩
    rw [Machine.execute_ok hx]
    exact Machine.continues_next hfetch h.machine.size

/-- The emulator after some ticks, which may fail. -/
def afterTicks : Nat → Emulator → Emulator
  | 0, e => e
  | n + 1, e => afterTicks n e.tick.1

theorem Contained.afterTicks (h : e.Contained) (n : Nat) : (e.afterTicks n).Contained := by
  induction n generalizing e with
  | zero => exact h
  | succ n ih => exact ih h.tick

theorem load_contained (e : Emulator) {image : Text} (hfits : image.length ≤ memorySize) :
    ∃ e₀, e.load image = (e₀, none) ∧ e₀.Contained := by
  obtain ⟨m₀, hload, hcontained, hip, -⟩ := e.prepared.load_contained hfits
  have hload' : ({ e with program := {} } : Emulator).prepared.load image = .ok m₀ := hload
  refine ⟨{ e with program := {}, machine := m₀ }, ?_, hcontained, ?_⟩
  · rw [load, start, hload']
  · rw [hip]
    decide

end Emulator

/-- **The instruction pointer never wraps and never leaves memory unnoticed.** Load an image that
fits. After any number of ticks of the machine it has its full memory, its instruction pointer is
inside of it or the machine is halted, and a tick that ends well goes on at the exact next address.
After any number of ticks of the emulator this holds as well, and the instruction pointer is at most
at the end of memory, where the machine is halted. -/
theorem instruction_pointer_stays_exact (image : Text) (hfits : image.length ≤ memorySize) :
    (∀ m : Machine, ∃ m₀, m.load image = .ok m₀ ∧ ∀ n,
        (m₀.afterTicks n).memory.size = memorySize ∧
        ((m₀.afterTicks n).ip.toNat < memorySize ∨ (m₀.afterTicks n).halted = true) ∧
        ∀ m', (m₀.afterTicks n).tick = (m', none) →
          ∃ c, (m₀.afterTicks n).fetch = .ok c ∧ (m₀.afterTicks n).Continues c m'.ip) ∧
      ∀ e : Emulator, ∃ e₀, e.load image = (e₀, none) ∧ ∀ n,
        (e₀.afterTicks n).machine.memory.size = memorySize ∧
        (e₀.afterTicks n).machine.ip.toNat ≤ memorySize ∧
        ((e₀.afterTicks n).machine.ip.toNat = memorySize →
          (e₀.afterTicks n).machine.halted = true) ∧
        ∀ e' done, (e₀.afterTicks n).tick = (e', .ok done) →
          ((e₀.afterTicks n).machine.halted = true ∧ e'.machine.ip = (e₀.afterTicks n).machine.ip) ∨
            ∃ c, (e₀.afterTicks n).upcoming? = some c ∧
              (e₀.afterTicks n).machine.Continues c e'.machine.ip := by
  constructor
  · intro m
    obtain ⟨m₀, hload, hstart, -, -⟩ := m.load_contained hfits
    refine ⟨m₀, hload, fun n => ?_⟩
    have hafter := hstart.afterTicks n
    exact ⟨hafter.size, hafter.inside, fun _ => hafter.continues⟩
  · intro e
    obtain ⟨e₀, hload, hstart⟩ := e.load_contained hfits
    refine ⟨e₀, hload, fun n => ?_⟩
    have hafter := hstart.afterTicks n
    exact ⟨hafter.machine.size, hafter.le, hafter.halted, fun _ _ => hafter.continues⟩

/-! ## Halting at the end of memory -/

namespace Machine

/-- An image as large as memory: a jump to its last two bytes, which halt the machine. -/
def haltAtEnd : Text := [0x40, 0xBF, 0xFE, 0x7C] ++ (List.replicate 49146 0 ++ [0x1F, 0x01])

theorem haltAtEnd_length : haltAtEnd.length = memorySize := by
  rw [haltAtEnd, List.length_append, List.length_append, List.length_replicate]
  rfl

section

variable {m : Machine} (hm : m.memory.toList = haltAtEnd)
include hm

theorem haltAtEnd_size : m.memory.size = memorySize := by
  rw [← Array.length_toList, hm, haltAtEnd_length]

/-- The address of the last two bytes is pointed at. -/
theorem haltAtEnd_point (hip : m.ip = 0) :
    m.tick.1.memory = m.memory ∧ m.tick.1.ip = 3 ∧ m.tick.1.address = 49150 ∧
      m.tick.1.reg .rah = 0xBF := by
  have hcanonical : Code.Canonical { op := 4, imm := 49150 } :=
    Code.canonical_ofAddress (i := ⟨utf8 "lda", 4, [.literal], 3⟩) (by decide) (by decide) 49150
  have hbytes : m.memory.toList =
      [] ++ (Code.bytes { op := 4, imm := 49150 } ++
        ([0x7C] ++ (List.replicate 49146 0 ++ [0x1F, 0x01]))) := hm
  have hfetch := fetch_of_bytes hcanonical hbytes (by rw [hip]; rfl)
  have hnext : m.nextAddress { op := 4, imm := 49150 } = 3 := by
    have hfollowing : m.following { op := 4, imm := 49150 } = 3 := by
      rw [following, hip]
      decide
    exact hfollowing
  rw [tick_of_inside hfetch rfl (.inl (by rw [hnext, haltAtEnd_size hm]; decide)), hnext]
  have hhigh : (m.perform { op := 4, imm := 49150 }).reg .rah = 0xBF := by
    refine (setReg_reg ..).trans ((if_neg (by decide)).trans ((setReg_reg ..).trans (if_pos rfl)))
  have hlow : (m.perform { op := 4, imm := 49150 }).reg .ral = 0xFE :=
    (setReg_reg ..).trans (if_pos rfl)
  refine ⟨rfl, rfl, ?_, hhigh⟩
  show Code.word ((m.perform _).reg .rah) ((m.perform _).reg .ral) = 49150
  rw [hhigh, hlow]
  decide

/-- The jump is taken. -/
theorem haltAtEnd_jump (hip : m.ip = 3) (haddress : m.address = 49150) (hhigh : m.reg .rah = 0xBF) :
    m.tick.1.memory = m.memory ∧ m.tick.1.ip = 49150 := by
  have hcanonical : Code.Canonical { op := 7, reg := 12 } :=
    Code.canonical_ofRegister (i := ⟨utf8 "jnz", 7, [.register], 1⟩) (by decide) (by decide) 12
  have hbytes : m.memory.toList = [0x40, 0xBF, 0xFE] ++
      (Code.bytes { op := 7, reg := 12 } ++ (List.replicate 49146 0 ++ [0x1F, 0x01])) := hm
  have hfetch := fetch_of_bytes hcanonical hbytes (by rw [hip]; rfl)
  have hjumps : m.Jumps { op := 7, reg := 12 } := by
    refine ⟨by decide, ?_⟩
    show m.reg .rah ≠ 0
    rw [hhigh]
    decide
  have hnext : m.nextAddress { op := 7, reg := 12 } = 49150 := by
    rw [nextAddress_of_jumps hjumps, haddress]
    decide
  rw [tick_of_inside hfetch rfl (.inl (by rw [hnext, haltAtEnd_size hm]; decide)), hnext]
  exact ⟨rfl, rfl⟩

/-- The last two bytes are executed. -/
theorem haltAtEnd_halt (hip : m.ip = 49150) : m.tick.2 = none ∧ m.tick.1.ip.toNat = memorySize := by
  have hcanonical : Code.Canonical { op := 1, reg := 15, imm := 1 } :=
    Code.canonical_ofRegisterByte (i := ⟨utf8 "mov", 1, [.register, .literal], 2⟩) (by decide)
      (by decide) 15 1
  have hbytes : m.memory.toList = ([0x40, 0xBF, 0xFE, 0x7C] ++ List.replicate 49146 0) ++
      (Code.bytes { op := 1, reg := 15, imm := 1 } ++ []) := by
    rw [hm, haltAtEnd, List.append_assoc]
    rfl
  have hbefore : ([0x40, 0xBF, 0xFE, 0x7C] ++ List.replicate 49146 (0 : UInt8)).length = 49150 := by
    rw [List.length_append, List.length_replicate]
    rfl
  have hfetch := fetch_of_bytes hcanonical hbytes (by rw [hip, hbefore]; rfl)
  have hnext : m.nextAddress { op := 1, reg := 15, imm := 1 } = 49152 := by
    have hfollowing : m.following { op := 1, reg := 15, imm := 1 } = 49152 := by
      rw [following, hip]
      decide
    exact hfollowing
  have hflags : (m.perform { op := 1, reg := 15, imm := 1 }).reg .rf = 1 :=
    (setReg_reg ..).trans (if_pos rfl)
  have hhalted : (m.perform { op := 1, reg := 15, imm := 1 }).halted = true := by
    rw [halted, hflags]
    decide
  rw [tick_of_inside hfetch rfl (.inr hhalted), hnext]
  exact ⟨rfl, rfl⟩

end

/-- The third tick goes to the end of memory. -/
theorem haltAtEnd_ip {m : Machine} (hm : m.memory = memoryOf haltAtEnd) (hip : m.ip = 0) :
    (m.afterTicks 2).tick.2 = none ∧ (m.afterTicks 2).tick.1.ip.toNat = memorySize := by
  have hm : m.memory.toList = haltAtEnd := by
    rw [hm, memoryOf_toList, haltAtEnd_length, Nat.sub_self, List.replicate_zero, List.append_nil]
  obtain ⟨hmemory₁, hip₁, haddress, hhigh⟩ := haltAtEnd_point hm hip
  rw [← hmemory₁] at hm
  obtain ⟨hmemory₂, hip₂⟩ := haltAtEnd_jump hm hip₁ haddress hhigh
  rw [← hmemory₂] at hm
  exact haltAtEnd_halt hm hip₂

end Machine

theorem instruction_pointer_stays_exact_at_end :
    Machine.haltAtEnd.length ≤ memorySize ∧ ∃ m₀ m' c, Machine.load {} Machine.haltAtEnd = .ok m₀ ∧
      (m₀.afterTicks 2).tick = (m', none) ∧ (m₀.afterTicks 2).fetch = .ok c ∧
      (m₀.afterTicks 2).Continues c m'.ip ∧ m'.ip.toNat = memorySize ∧ m'.halted = true := by
  have hfits : Machine.haltAtEnd.length ≤ memorySize := Nat.le_of_eq Machine.haltAtEnd_length
  obtain ⟨m₀, hload, hticks⟩ := (instruction_pointer_stays_exact Machine.haltAtEnd hfits).1 {}
  obtain ⟨m₁, hload₁, -, hip, hmemory⟩ := Machine.load_contained {} hfits
  cases hload₁.symm.trans hload
  obtain ⟨hok, hend⟩ := Machine.haltAtEnd_ip hmemory hip
  have htick : (m₀.afterTicks 2).tick = ((m₀.afterTicks 2).tick.1, none) := Prod.ext rfl hok
  obtain ⟨c, hfetch, hcontinues⟩ := (hticks 2).2.2 _ htick
  have hinside :
      (m₀.afterTicks 2).tick.1.ip.toNat < memorySize ∨ (m₀.afterTicks 2).tick.1.halted = true :=
    (hticks 3).2.1
  have hhalted := hinside.resolve_left (by omega)
  exact ⟨hfits, m₀, _, c, hload, htick, hfetch, hcontinues, hend, hhalted⟩

end Octet
