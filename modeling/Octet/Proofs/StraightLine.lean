import Octet.Proofs.HardwareStack

/-!
# Instructions in a row

Instructions that use registers only, executed one after the other. Where they stand does not matter
for their effects, and what they leave as it is can be read off the registers and flags that each of
them writes.

* `Machine.Straight`, `Machine.Direct` — instructions that use registers only, without and with
  jumps;
* `Machine.outcomes` — what instructions leave; `Machine.eq_outcomes_of_executeAll`: **nothing else
  is left without a fault**;
* `Machine.executeAll_straight`, `Machine.executeAll_concat` — **they are executed without a fault
  inside of memory**;
* `Machine.performAll_frame`, `Machine.performAll_reg`, `Machine.performAll_flags` — what stays.
-/

namespace Octet

/-! ## Runs -/

/-- The number of bytes of codes. -/
def Code.span : List Code → Nat
  | [] => 0
  | c :: codes => c.length + span codes

/-- The registers that an instruction writes. -/
def Code.overwrites (c : Code) : List Register := c.operation.writes (Register.ofByte c.reg)

namespace Machine

/-- An instruction that uses registers only. -/
def Direct (c : Code) : Prop := c.operation ∉ [.load, .store, .push, .pop]

/-- An instruction that uses registers only and goes on after itself. -/
def Straight (c : Code) : Prop := c.operation ∉ [.load, .store, .push, .pop, .jump]

instance (c : Code) : Decidable (Direct c) := inferInstanceAs (Decidable (_ ∉ _))

instance (c : Code) : Decidable (Straight c) := inferInstanceAs (Decidable (_ ∉ _))

variable {m m' : Machine} {c : Code} {codes rest : List Code}

theorem executeAll_cons (h : m.execute c = (m', none)) :
    m.executeAll (c :: codes) = m'.executeAll codes := by
  rw [executeAll, List.foldlM_cons, executed, h]
  rfl

theorem executeAll_append (h : m.executeAll codes = .ok m') :
    m.executeAll (codes ++ rest) = m'.executeAll rest := by
  rw [executeAll, List.foldlM_append]
  show m.executeAll codes >>= _ = _
  rw [h]
  rfl

theorem Straight.direct (h : Straight c) : Direct c :=
  fun hmem => h (List.mem_append_left [Operation.jump] hmem)

theorem Direct.outside? (h : Direct c) (m : Machine) : m.outside? c = none := by
  have hnone : m.accessed? c = none := by
    unfold Direct Code.operation at h
    unfold accessed?
    cases hop : Operation.ofNumber c.nibble <;> simp_all
  rw [Machine.outside?, hnone]
  rfl

theorem Direct.memory (h : Direct c) (m : Machine) : (m.perform c).memory = m.memory := by
  have hnone : m.stores? c = none := by
    unfold Direct Code.operation at h
    unfold stores?
    cases hop : Operation.ofNumber c.nibble <;> simp_all
  rw [perform_memory, hnone]

theorem Straight.nextAddress (h : Straight c) (m : Machine) :
    m.nextAddress c = m.ip.toNat + c.length := by
  apply nextAddress_of_not_jumps
  rintro ⟨hop, -⟩
  exact h (by simp [Code.operation, hop])

/-- The effect of an instruction does not depend on where it stands. -/
theorem perform_at (m : Machine) (c : Code) (ip : UInt16) :
    ({ m with ip := ip } : Machine).perform c = { m.perform c with ip := ip } := by
  unfold perform
  cases Operation.ofNumber c.nibble <;> rfl

/-- The effects of instructions, one after the other. -/
def performAll (m : Machine) (codes : List Code) : Machine := codes.foldl perform m

theorem performAll_at (m : Machine) (codes : List Code) (ip : UInt16) :
    ({ m with ip := ip } : Machine).performAll codes = { m.performAll codes with ip := ip } := by
  induction codes generalizing m with
  | nil => rfl
  | cons c codes ih =>
    show (({ m with ip := ip } : Machine).perform c).performAll codes = _
    rw [perform_at, ih]
    rfl

/-- What an instruction leaves if it ends without a fault. -/
def outcome (m : Machine) (c : Code) : Machine :=
  { m.perform c with ip := UInt16.ofNat (m.nextAddress c) }

/-- What instructions leave if none of them ends with a fault. -/
def outcomes (m : Machine) (codes : List Code) : Machine := codes.foldl outcome m

theorem eq_outcome_of_execute (h : m.execute c = (m', none)) : m' = m.outcome c := by
  obtain ⟨address, -, he⟩ | ⟨-, he⟩ | ⟨-, -, he⟩ := m.execute_cases c
  · cases he.symm.trans h
  · cases he.symm.trans h
  · cases he.symm.trans h
    rfl

/-- **Instructions without a fault leave their outcomes.** -/
theorem eq_outcomes_of_executeAll (h : m.executeAll codes = .ok m') : m' = m.outcomes codes := by
  induction codes generalizing m with
  | nil =>
    cases h
    rfl
  | cons c codes ih =>
    rcases he : m.execute c with ⟨next, _ | f⟩
    · rw [executeAll_cons he] at h
      rw [ih h, eq_outcome_of_execute he]
      rfl
    · rw [executeAll, List.foldlM_cons, executed, he] at h
      cases h

theorem execute_direct (h : Direct c)
    (hnext : m.nextAddress c < m.memory.size ∨ (m.perform c).halted = true) :
    m.execute c = (m.outcome c, none) := by
  obtain ⟨address, hout, -⟩ | ⟨hover, -⟩ | ⟨-, -, he⟩ := m.execute_cases c
  · cases hout.symm.trans (h.outside? m)
  · rcases hnext with hlt | hhalted
    · exact absurd hover.leaves (Nat.not_le.2 hlt)
    · cases hhalted.symm.trans hover.running
  · exact he

/-- The machine after instructions that go on after themselves. -/
def advance (m : Machine) (codes : List Code) : Machine :=
  { m.performAll codes with ip := m.ip + UInt16.ofNat (Code.span codes) }

theorem advance_ip_le (m : Machine) (codes : List Code) :
    (m.advance codes).ip.toNat ≤ m.ip.toNat + Code.span codes := by
  show (m.ip + UInt16.ofNat (Code.span codes)).toNat ≤ _
  rw [UInt16.toNat_add, UInt16.toNat_ofNat']
  omega

/-- Addresses are counted on, however they wrap. -/
theorem ofNat_advance_ip (m : Machine) (codes : List Code) (n : Nat) :
    UInt16.ofNat ((m.advance codes).ip.toNat + n) =
      UInt16.ofNat (m.ip.toNat + (Code.span codes + n)) := by
  rw [UInt16.ofNat_add, UInt16.ofNat_toNat, UInt16.ofNat_add, UInt16.ofNat_toNat, UInt16.ofNat_add,
    ← UInt16.add_assoc]
  rfl

theorem advance_cons (m : Machine) (c : Code) (codes : List Code) :
    (m.advance [c]).advance codes = m.advance (c :: codes) := by
  show ({ Machine.performAll { m.perform c with ip := m.ip + UInt16.ofNat (c.length + 0) } codes
    with ip := m.ip + UInt16.ofNat (c.length + 0) + UInt16.ofNat (Code.span codes) } : Machine) = _
  rw [performAll_at, advance, Code.span, UInt16.ofNat_add c.length (Code.span codes),
    UInt16.add_assoc]
  rfl

theorem Straight.outcome (h : Straight c) (m : Machine) : m.outcome c = m.advance [c] := by
  rw [Machine.outcome, h.nextAddress, UInt16.ofNat_add, UInt16.ofNat_toNat]
  rfl

/-- Instructions that go on after themselves leave their effects, at the address after them. -/
theorem outcomes_straight (hcodes : ∀ c ∈ codes, Straight c) :
    m.outcomes codes = m.advance codes := by
  induction codes generalizing m with
  | nil =>
    show m = { m with ip := m.ip + 0 }
    rw [UInt16.add_zero]
  | cons c codes ih =>
    obtain ⟨hc, hcodes⟩ := List.forall_mem_cons.1 hcodes
    show (m.outcome c).outcomes codes = _
    rw [hc.outcome, ih hcodes, advance_cons]

/-- The last of the instructions decides at which address to go on. -/
theorem outcomes_concat (hcodes : ∀ c ∈ codes, Straight c) (c : Code) :
    m.outcomes (codes ++ [c]) =
      { m.performAll (codes ++ [c]) with
        ip := UInt16.ofNat ((m.advance codes).nextAddress c) } := by
  have hperform : (m.advance codes).perform c =
      { m.performAll (codes ++ [c]) with ip := m.ip + UInt16.ofNat (Code.span codes) } := by
    rw [advance, perform_at, performAll, performAll, List.foldl_append]
    rfl
  rw [outcomes, List.foldl_append]
  show (m.outcomes codes).outcome c = _
  rw [outcomes_straight hcodes, outcome, hperform]

/-- **Instructions that go on after themselves are executed one after the other.** -/
theorem executeAll_straight (hcodes : ∀ c ∈ codes, Straight c)
    (hin : m.ip.toNat + Code.span codes < m.memory.size) :
    m.executeAll codes = .ok (m.outcomes codes) := by
  induction codes generalizing m with
  | nil => rfl
  | cons c codes ih =>
    obtain ⟨hc, hcodes⟩ := List.forall_mem_cons.1 hcodes
    rw [Code.span] at hin
    have hnext := hc.nextAddress m
    rw [executeAll_cons (execute_direct hc.direct (.inl (by omega)))]
    apply ih hcodes
    have hip := advance_ip_le m [c]
    have hsize : (m.advance [c]).memory.size = m.memory.size :=
      congrArg Array.size (hc.direct.memory m)
    rw [hc.outcome]
    simp only [Code.span] at hip
    omega

/-- After such instructions, one that goes on in memory, or halts the machine, is executed as
well. -/
theorem executeAll_concat (hcodes : ∀ c ∈ codes, Straight c)
    (hin : m.ip.toNat + Code.span codes < m.memory.size) (hc : Direct c)
    (hnext : (m.advance codes).nextAddress c < (m.advance codes).memory.size ∨
      ((m.advance codes).perform c).halted = true) :
    m.executeAll (codes ++ [c]) = .ok (m.outcomes (codes ++ [c])) := by
  rw [executeAll_append (executeAll_straight hcodes hin), outcomes_straight hcodes,
    executeAll_cons (execute_direct hc hnext), outcomes, List.foldl_append]
  show Except.ok _ = .ok ((m.outcomes codes).outcome c)
  rw [outcomes_straight hcodes]

/-! ## What stays -/

theorem perform_verbose (m : Machine) (c : Code) : (m.perform c).verbose = m.verbose := by
  unfold perform
  cases Operation.ofNumber c.nibble <;> rfl

/-- What instructions that use registers only leave as it is. -/
theorem performAll_frame (hcodes : ∀ c ∈ codes, Direct c) :
    (m.performAll codes).memory = m.memory ∧ (m.performAll codes).ticks = m.ticks ∧
      (m.performAll codes).verbose = m.verbose := by
  induction codes generalizing m with
  | nil => exact ⟨rfl, rfl, rfl⟩
  | cons c codes ih =>
    obtain ⟨hc, hcodes⟩ := List.forall_mem_cons.1 hcodes
    obtain ⟨hmemory, hticks, hverbose⟩ := ih (m := m.perform c) hcodes
    exact ⟨hmemory.trans (hc.memory m), hticks.trans (m.perform_ticks c),
      hverbose.trans (m.perform_verbose c)⟩

theorem performAll_reg {q : Register} (hq : q ≠ .rf)
    (hcodes : ∀ c ∈ codes, q ∉ c.overwrites) : (m.performAll codes).reg q = m.reg q := by
  induction codes generalizing m with
  | nil => rfl
  | cons c codes ih =>
    obtain ⟨hc, hcodes⟩ := List.forall_mem_cons.1 hcodes
    exact (ih (m := m.perform c) hcodes).trans (perform_reg hc fun h => absurd h hq)

/-- The flags outside of a mask stay if no instruction writes them and none has other flags. -/
theorem performAll_flags {mask : UInt8}
    (hcodes : ∀ c ∈ codes, .rf ∉ c.overwrites ∧
      (c.operation.flags = 0 ∨ c.operation.flags = mask)) :
    (m.performAll codes).reg .rf &&& ~~~mask = m.reg .rf &&& ~~~mask := by
  induction codes generalizing m with
  | nil => rfl
  | cons c codes ih =>
    obtain ⟨⟨hwrites, hflags⟩, hcodes⟩ := List.forall_mem_cons.1 hcodes
    refine (ih (m := m.perform c) hcodes).trans ?_
    rcases hflags with hnone | rfl
    · rw [perform_reg hwrites fun _ => hnone]
    · exact perform_flags hwrites

end Machine

end Octet
