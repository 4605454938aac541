import Octet.Proofs.InstructionPointer

/-!
# When executing and fetching fail

An instruction fails if it accesses an address outside of memory, or if it leads out of memory and
does not leave the machine halted. Memory may have any size, and the operation is known by the low
four bits of its number alone.

* `Code.operation` — the operation that a code asks for;
* `Machine.Accesses`, `Machine.GoesTo` — the address that an instruction accesses, and where it goes
  on;
* `Machine.FaultsAt` — the address outside of memory that an instruction fails at;
  `Machine.execute_fault_iff`: these are the faults of executing;
* `Machine.fetch_eq_error` — when fetching fails;
* `execution_faults_exactly` — **executing and fetching fail exactly where memory ends**.
-/

namespace Octet

/-- The operation that a code asks for. -/
def Code.operation (c : Code) : Operation := Operation.ofNumber c.nibble

/-- Reading fails exactly if the bytes end inside the code, and then gives its operation. -/
theorem Code.decode_cons_eq_error {b : UInt8} {rest : Text} {c : Code} :
    decode (b :: rest) = .error c ↔
      c = { op := (b >>> 4).toNat } ∧
        rest.length + 1 < ({ op := (b >>> 4).toNat } : Code).length := by
  rw [length_eq_size]
  unfold decode
  simp only
  cases ({ op := (b >>> 4).toNat } : Code).shape <;> rcases rest with _ | ⟨b₁, _ | ⟨b₂, rest⟩⟩ <;>
    simp [Shape.size, eq_comm]

namespace Machine

variable {m : Machine} {c : Code} {address : Nat} {f : Fault}

/-! ## Addresses of an instruction -/

/-- The address that the pair `rah`, `ral` holds, as a number. -/
def pair (m : Machine) : Nat := (m.reg .rah).toNat * 256 + (m.reg .ral).toNat

/-- The address in memory that an instruction reads or writes: the address pair, the stack pointer
of a push, or the one after the stack pointer of a pop, which stays in page zero. -/
inductive Accesses (m : Machine) (c : Code) : Nat → Prop
  | load : c.operation = .load → Accesses m c m.pair
  | store : c.operation = .store → Accesses m c m.pair
  | push : c.operation = .push → Accesses m c (m.reg .rsp).toNat
  | pop : c.operation = .pop → Accesses m c (((m.reg .rsp).toNat + 1) % 256)

/-- The address where an instruction goes on: the address pair if it is a jump with a register that
is not zero, and the address after it otherwise. -/
inductive GoesTo (m : Machine) (c : Code) : Nat → Prop
  | jump : m.Jumps c → GoesTo m c m.pair
  | fall : ¬ m.Jumps c → GoesTo m c (m.ip.toNat + c.length)

theorem accessed?_eq_some : m.accessed? c = some address ↔ m.Accesses c address := by
  have hpop : (m.reg .rsp + 1).toNat = ((m.reg .rsp).toNat + 1) % 256 := UInt8.toNat_add ..
  have hpair : m.address.toNat = m.pair := m.address_toNat
  constructor
  · intro h
    unfold accessed? at h
    split at h
    · cases h
      rw [hpair]
      exact .load ‹_›
    · cases h
      rw [hpair]
      exact .store ‹_›
    · cases h
      exact .push ‹_›
    · cases h
      rw [hpop]
      exact .pop ‹_›
    · cases h
  · intro h
    unfold accessed?
    cases h with
    | load hop | store hop | push hop | pop hop =>
      rw [Code.operation] at hop
      simp only [hop, hpair, hpop]

theorem goesTo_nextAddress (m : Machine) (c : Code) : m.GoesTo c (m.nextAddress c) := by
  by_cases hjump : m.Jumps c
  · rw [nextAddress_of_jumps hjump, address_toNat]
    exact .jump hjump
  · rw [nextAddress_of_not_jumps hjump]
    exact .fall hjump

theorem GoesTo.eq_nextAddress (h : m.GoesTo c address) : address = m.nextAddress c := by
  cases h with
  | jump hjump => rw [nextAddress_of_jumps hjump, address_toNat, pair]
  | fall hjump => rw [nextAddress_of_not_jumps hjump]

/-! ## Faults of executing -/

/-- An instruction fails at an address outside of memory: one that it accesses, or, if that lies
inside, one where it would go on although its effect leaves the halt flag clear. -/
inductive FaultsAt (m : Machine) (c : Code) : Nat → Prop
  | access {address : Nat} : m.Accesses c address → m.memory.size ≤ address → FaultsAt m c address
  | next {address : Nat} :
    (∀ a, m.Accesses c a → a < m.memory.size) → m.GoesTo c address → m.memory.size ≤ address →
      (m.perform c).halted = false → FaultsAt m c address

theorem outside?_eq_some :
    m.outside? c = some address ↔ m.Accesses c address ∧ m.memory.size ≤ address := by
  rw [outside?, Option.filter_eq_some_iff, accessed?_eq_some, decide_eq_true_eq]

theorem outside?_eq_none : m.outside? c = none ↔ ∀ a, m.Accesses c a → a < m.memory.size := by
  rw [outside?, Option.filter_eq_none_iff]
  simp only [accessed?_eq_some, decide_eq_true_eq, Nat.not_le]

/-- **An instruction fails exactly at the addresses outside of memory that it needs.** -/
theorem execute_fault_iff :
    (m.execute c).2 = some f ↔
      ∃ address, m.FaultsAt c address ∧ f = .all [.opcode c, .outOfBounds address] := by
  obtain ⟨a, hout, he⟩ | ⟨hover, he⟩ | ⟨hin, hgood, he⟩ := m.execute_cases c
  · obtain ⟨haccess, hlarge⟩ := outside?_eq_some.1 hout
    rw [he]
    constructor
    · rintro ⟨⟩
      exact ⟨a, .access haccess hlarge, rfl⟩
    · rintro ⟨b, hfault, rfl⟩
      cases hfault with
      | access hb hlarge' => cases (outside?_eq_some.2 ⟨hb, hlarge'⟩).symm.trans hout; rfl
      | next hinside => exact absurd (hinside a haccess) (Nat.not_lt.2 hlarge)
  · have hinside := outside?_eq_none.1 hover.inside
    rw [he]
    constructor
    · rintro ⟨⟩
      exact ⟨_, .next hinside (m.goesTo_nextAddress c) hover.leaves hover.running, rfl⟩
    · rintro ⟨b, hfault, rfl⟩
      cases hfault with
      | access hb hlarge => exact absurd (hinside b hb) (Nat.not_lt.2 hlarge)
      | next _ hgoes => rw [hgoes.eq_nextAddress, accessFault]
  · have hinside := outside?_eq_none.1 hin
    constructor
    · intro h
      rw [he] at h
      cases h
    · rintro ⟨b, hfault, rfl⟩
      cases hfault with
      | access hb hlarge => exact absurd (hinside b hb) (Nat.not_lt.2 hlarge)
      | next _ hgoes hlarge hrun =>
        rw [hgoes.eq_nextAddress] at hlarge
        rcases hgood with hlt | hhalt
        · exact absurd hlt (Nat.not_lt.2 hlarge)
        · cases hhalt.symm.trans hrun

theorem FaultsAt.outside (h : m.FaultsAt c address) : m.memory.size ≤ address := by
  cases h with
  | access _ hlarge => exact hlarge
  | next _ _ hlarge => exact hlarge

theorem FaultsAt.keeps (h : m.FaultsAt c address) :
    (m.execute c).1.ip = m.ip ∧ (m.execute c).1.ticks = m.ticks := by
  have hfault : (m.execute c).2 = some (accessFault c address) :=
    execute_fault_iff.2 ⟨address, h, rfl⟩
  obtain ⟨hip, hticks, -⟩ := execute_fault (Prod.ext rfl hfault)
  exact ⟨hip, hticks⟩

/-! ## Faults of fetching -/

/-- The operation that the byte at an address holds, before its operands are read. -/
def opcodeAt (m : Machine) (address : Nat) : Code := { op := (m.read address >>> 4).toNat }

theorem bytesAt_eq_cons (h : address < m.memory.size) :
    ∃ rest, m.bytesAt address = m.read address :: rest ∧
      rest.length + 1 = min longest (m.memory.size - address) := by
  have hlength : (m.bytesAt address).length = min longest (m.memory.size - address) := by
    rw [bytesAt, Array.length_toList, Array.size_extract]
    omega
  have hfirst : (m.bytesAt address)[0]? = some (m.read address) := by
    have hsome : 0 < min (address + longest) m.memory.size - address := by
      rw [longest]
      omega
    rw [bytesAt, read, Array.getElem?_toList, Array.getElem?_extract, if_pos hsome, Nat.add_zero,
      Array.getElem?_eq_getElem h, Option.getD_some]
  cases hbytes : m.bytesAt address with
  | nil => simp [hbytes] at hfirst
  | cons b rest =>
    rw [hbytes] at hlength hfirst
    cases hfirst
    exact ⟨rest, rfl, hlength⟩

/-- **Fetching fails exactly if memory ends before the instruction does**, and names an address
after its end. -/
theorem fetch_eq_error {e : Fault × Code} :
    m.fetch = .error e ↔
      m.memory.size ≤ m.ip.toNat ∧ e = (.outOfBounds m.ip.toNat, {}) ∨
        m.ip.toNat < m.memory.size ∧ m.memory.size < m.ip.toNat + (m.opcodeAt m.ip.toNat).length ∧
          e = (.all [.cause .opcodeShort,
            .outOfBounds (m.ip.toNat + (m.opcodeAt m.ip.toNat).length - 1)],
            m.opcodeAt m.ip.toNat) := by
  unfold fetch
  by_cases hip : m.memory.size ≤ m.ip.toNat
  · rw [if_pos hip]
    constructor
    · rintro ⟨⟩
      exact .inl ⟨hip, rfl⟩
    · rintro (⟨-, rfl⟩ | ⟨hlt, -⟩)
      · rfl
      · omega
  · obtain ⟨rest, hbytes, hrest⟩ := bytesAt_eq_cons (Nat.not_le.1 hip)
    have hlongest : (m.opcodeAt m.ip.toNat).length ≤ longest := by
      rw [← Code.bytes_length]
      exact Code.bytes_length_le _
    rw [if_neg hip, hbytes]
    constructor
    · intro h
      split at h
      · cases h
      · rename_i c hdecode
        obtain ⟨rfl, hshort⟩ := Code.decode_cons_eq_error.1 hdecode
        rw [hrest] at hshort
        cases h
        exact .inr ⟨by omega, by unfold opcodeAt at hlongest ⊢; omega, rfl⟩
    · rintro (⟨hle, -⟩ | ⟨-, hshort, rfl⟩)
      · exact absurd hle hip
      · have hdecode : Code.decode (m.read m.ip.toNat :: rest) = .error (m.opcodeAt m.ip.toNat) :=
          Code.decode_cons_eq_error.2 ⟨rfl, by unfold opcodeAt at hlongest hshort; omega⟩
        rw [hdecode]

end Machine

/-- **Executing and fetching fail exactly where memory ends.** For every memory and every code, an
instruction fails at the addresses `FaultsAt` and at no others; its fault joins the code with the
address, which is outside of memory, and the instruction pointer and the count of ticks stay.
Fetching fails if the instruction pointer or the last byte of the instruction there is outside of
memory, and names an address outside. -/
theorem execution_faults_exactly (m : Machine) :
    (∀ c f, (m.execute c).2 = some f ↔
        ∃ address, m.FaultsAt c address ∧ f = .all [.opcode c, .outOfBounds address]) ∧
      (∀ c address, m.FaultsAt c address →
        m.memory.size ≤ address ∧ (m.execute c).1.ip = m.ip ∧ (m.execute c).1.ticks = m.ticks) ∧
      ((∃ e, m.fetch = .error e) ↔
        m.memory.size ≤ m.ip.toNat ∨ m.memory.size < m.ip.toNat + (m.opcodeAt m.ip.toNat).length) ∧
      ∀ f c, m.fetch = .error (f, c) → ∃ address, m.memory.size ≤ address ∧
        (f = .outOfBounds address ∨ f = .all [.cause .opcodeShort, .outOfBounds address]) := by
  refine ⟨fun c f => Machine.execute_fault_iff, fun c address h => ⟨h.outside, h.keeps⟩, ?_, ?_⟩
  · simp only [Machine.fetch_eq_error]
    constructor
    · rintro ⟨e, ⟨hip, -⟩ | ⟨-, hshort, -⟩⟩
      · exact .inl hip
      · exact .inr hshort
    · intro h
      by_cases hip : m.memory.size ≤ m.ip.toNat
      · exact ⟨_, .inl ⟨hip, rfl⟩⟩
      · exact ⟨_, .inr ⟨Nat.not_le.1 hip, h.resolve_left hip, rfl⟩⟩
  · intro f c h
    rcases Machine.fetch_eq_error.1 h with ⟨hip, he⟩ | ⟨hip, hshort, he⟩
    · cases he
      exact ⟨_, hip, .inl rfl⟩
    · cases he
      exact ⟨_, by omega, .inr rfl⟩

/-- A machine with two bytes of memory that stands at the second of them, the first byte of a longer
instruction. The stack pointer is the last address of page zero. -/
def Machine.cramped : Machine :=
  { ip := 1, memory := #[0x61, 0x40], registers := (Vector.replicate 16 0).set 13 0xFF }

/-- The pop wraps around to the first byte and fails because execution would leave memory; the push
fails at once. -/
theorem execution_faults_exactly_cramped :
    (Machine.cramped.execute (.ofRegister 6 1)).2 =
      some (.all [.opcode (.ofRegister 6 1), .outOfBounds 2]) ∧
      (Machine.cramped.execute (.ofRegister 5 1)).2 =
        some (.all [.opcode (.ofRegister 5 1), .outOfBounds 255]) ∧
      (Machine.cramped.execute (.ofRegister 6 1)).1.ip = 1 ∧
        ∃ e, Machine.cramped.fetch = .error e := by
  have hpop : Machine.cramped.FaultsAt (.ofRegister 6 1) 2 := by
    refine .next ?_ (.fall fun hjump => absurd hjump.1 (by decide)) (by decide) (by decide)
    rintro a (hop | hop | hop | hop)
    · exact absurd hop (by decide)
    · exact absurd hop (by decide)
    · exact absurd hop (by decide)
    · decide
  have hpush : Machine.cramped.FaultsAt (.ofRegister 5 1) 255 :=
    .access (.push (by decide)) (by decide)
  obtain ⟨hfaults, hkept, hfetch, -⟩ := execution_faults_exactly Machine.cramped
  exact ⟨(hfaults _ _).2 ⟨2, hpop, rfl⟩, (hfaults _ _).2 ⟨255, hpush, rfl⟩, (hkept _ _ hpop).2.1,
    hfetch.2 (.inr (by decide))⟩

end Octet
