import Octet.Proofs.ExecutionFaults

/-!
# What an instruction changes

Each operation has a list of registers that it writes and a mask of flags that it sets or clears.
All else stays, except for one byte of memory of a store or a push. The two operands may be one
register, and may be any of the registers with a meaning of their own.

* `Operation.writes`, `Operation.flags` — the tables;
* `Machine.Confined` — a machine differs from another one at most in what an instruction writes;
* `Machine.Computes` — the results of additions and subtractions, as numbers, and their flags;
* `execute_confined_and_computes` — **an instruction that ends well changes what the tables say, and
  additions and subtractions on registers other than the flags compute modulo 256**.

The flags of additions and subtractions compare the numbers of the registers, not their values: an
addition always clears the carry, and a subtraction sets the borrow if the number of its source is
not below that of its destination.
-/

namespace Octet

namespace Operation

/-- The registers that an operation writes, with the register that the instruction names first. -/
def writes (first : Register) : Operation → List Register
  | store | jump | idle => []
  | point => [.rah, .ral]
  | push => [.rsp]
  | pop => [.rsp, first]
  | _ => [first]

/-- The flags that an operation sets or clears. -/
def flags : Operation → UInt8
  | add => Flag.carry
  | sub | subBorrow => Flag.borrow
  | _ => 0

/-- The flags are written as the first register of an instruction only. -/
theorem rf_mem_writes {o : Operation} {first : Register} (h : Register.rf ∈ o.writes first) :
    first = .rf ∧ o ∉ [store, point, push, jump, idle] := by
  cases o with
  | store | jump | idle => cases h
  | point => exact absurd h (show Register.rf ∉ [Register.rah, Register.ral] by decide)
  | push => exact absurd h (show Register.rf ∉ [Register.rsp] by decide)
  | pop =>
    rcases List.mem_cons.1 h with hstack | hfirst
    · exact absurd hstack (by decide)
    · exact ⟨(List.mem_singleton.1 hfirst).symm, by decide⟩
  | _ => exact ⟨(List.mem_singleton.1 h).symm, by decide⟩

end Operation

namespace Machine

variable {m m' : Machine} {c : Code} {q r : Register} {v flag : UInt8} {on : Bool}

/-! ## Flags -/

theorem setReg_of_ne (h : r ≠ q) : (m.setReg r v).reg q = m.reg q := by
  rw [setReg_reg, if_neg h]

theorem setReg_self : (m.setReg r v).reg r = v := by
  rw [setReg_reg, if_pos rfl]

theorem setFlag_of_ne (h : q ≠ .rf) : (m.setFlag flag on).reg q = m.reg q := setReg_of_ne h.symm

theorem setFlag_others (m : Machine) (flag : UInt8) (on : Bool) :
    (m.setFlag flag on).reg .rf &&& ~~~flag = m.reg .rf &&& ~~~flag := by
  rw [setFlag, setReg_self]
  apply UInt8.toBitVec_inj.1
  ext i hi
  cases on <;> cases hf : flag.toBitVec[i] <;> simp [hf]

theorem setFlag_flag (m : Machine) (flag : UInt8) (on : Bool) :
    (m.setFlag flag on).reg .rf &&& flag = if on then flag else 0 := by
  rw [setFlag, setReg_self]
  apply UInt8.toBitVec_inj.1
  ext i hi
  cases on <;> cases hf : flag.toBitVec[i] <;> simp [hf]

/-! ## What stays -/

/-- A register that is not written stays, the flags only if the operation has none. -/
theorem perform_reg (hwrites : q ∉ c.operation.writes (Register.ofByte c.reg))
    (hflags : q = .rf → c.operation.flags = 0) :
    (m.perform c).reg q = m.reg q := by
  unfold Code.operation at hwrites hflags
  unfold perform
  cases hop : Operation.ofNumber c.nibble with
  | store | jump | idle => rfl
  | copy | set | load | addCarry | or | and | not | push =>
    rw [hop] at hwrites
    exact setReg_of_ne (List.ne_of_not_mem_cons hwrites).symm
  | point =>
    rw [hop] at hwrites
    obtain ⟨hhigh, hlow⟩ : q ≠ .rah ∧ q ≠ .ral := by simpa [Operation.writes] using hwrites
    exact (setReg_of_ne hlow.symm).trans (setReg_of_ne hhigh.symm)
  | pop =>
    rw [hop] at hwrites
    obtain ⟨hstack, hdst⟩ : q ≠ .rsp ∧ q ≠ Register.ofByte c.reg := by
      simpa [Operation.writes] using hwrites
    exact (setReg_of_ne hdst.symm).trans (setReg_of_ne hstack.symm)
  | add | sub | subBorrow =>
    rw [hop] at hwrites hflags
    have hrf : q ≠ .rf := fun h => absurd (hflags h) (by decide)
    exact (setReg_of_ne (List.ne_of_not_mem_cons hwrites).symm).trans (setFlag_of_ne hrf)

theorem perform_flags (hwrites : Register.rf ∉ c.operation.writes (Register.ofByte c.reg)) :
    (m.perform c).reg .rf &&& ~~~c.operation.flags = m.reg .rf &&& ~~~c.operation.flags := by
  by_cases hflags : c.operation.flags = 0
  · rw [perform_reg hwrites fun _ => hflags]
  · unfold Code.operation at hwrites hflags ⊢
    unfold perform
    cases hop : Operation.ofNumber c.nibble with
    | add | sub | subBorrow =>
      rw [hop] at hwrites
      simp only [setReg_of_ne (List.ne_of_not_mem_cons hwrites).symm]
      exact setFlag_others ..
    | _ => exact absurd (congrArg Operation.flags hop) hflags

/-- The halt flag is none of the flags of an operation. -/
theorem halted_of_flags
    (h : m'.reg .rf &&& ~~~c.operation.flags = m.reg .rf &&& ~~~c.operation.flags) :
    m'.halted = m.halted := by
  have hmask : ~~~c.operation.flags &&& Flag.halt = Flag.halt := by
    cases c.operation <;> decide
  have hbit : m'.reg .rf &&& Flag.halt = m.reg .rf &&& Flag.halt := by
    rw [← hmask, ← UInt8.and_assoc, ← UInt8.and_assoc, h]
  rw [halted, halted, hbit]

theorem read_write_of_ne {address target : Nat} (h : address ≠ target) :
    (m.write target v).read address = m.read address := by
  rw [read, write, Array.getElem?_setIfInBounds_ne h.symm, read]

/-- The only byte that changes is that at the address pair of a store, or at the stack pointer of a
push. -/
theorem perform_read {address : Nat} (h : (m.perform c).read address ≠ m.read address) :
    c.operation = .store ∧ address = m.pair ∨
      c.operation = .push ∧ address = (m.reg .rsp).toNat := by
  unfold perform at h
  cases hop : Operation.ofNumber c.nibble with
  | store =>
    simp only [hop] at h
    refine .inl ⟨hop, Decidable.byContradiction fun hne => h (read_write_of_ne ?_)⟩
    rw [address_toNat]
    exact hne
  | push =>
    simp only [hop] at h
    exact .inr ⟨hop, Decidable.byContradiction fun hne => h (read_write_of_ne hne)⟩
  | _ =>
    simp only [hop] at h
    exact absurd rfl h

/-- What an instruction may change. -/
structure Confined (m : Machine) (c : Code) (m' : Machine) : Prop where
  registers : ∀ q, q ∉ c.operation.writes (Register.ofByte c.reg) → q ≠ .rf → m'.reg q = m.reg q
  flags : Register.rf ∉ c.operation.writes (Register.ofByte c.reg) →
    m'.reg .rf &&& ~~~c.operation.flags = m.reg .rf &&& ~~~c.operation.flags
  size : m'.memory.size = m.memory.size
  memory : ∀ address, m'.read address ≠ m.read address →
    c.operation = .store ∧ address = m.pair ∨ c.operation = .push ∧ address = (m.reg .rsp).toNat
  halted : m'.halted ≠ m.halted →
    Register.ofByte c.reg = .rf ∧ c.operation ∉ [.store, .point, .push, .jump, .idle]

theorem perform_confined (m : Machine) (c : Code) : m.Confined c (m.perform c) where
  registers _ hwrites hq := perform_reg hwrites fun h => absurd h hq
  flags := perform_flags
  size := m.perform_memory_size c
  memory _ := perform_read
  halted h := Operation.rf_mem_writes <|
    Decidable.byContradiction fun hwrites => h (halted_of_flags (perform_flags hwrites))

/-! ## Additions and subtractions -/

/-- The results of additions and subtractions, and their flags. -/
structure Computes (m : Machine) (dst src : Register) (o : Operation) (m' : Machine) : Prop where
  add : o = .add → (m'.reg dst).toNat = ((m.reg dst).toNat + (m.reg src).toNat) % 256 ∧
    m'.reg .rf &&& Flag.carry = 0
  addCarry : o = .addCarry →
    (m'.reg dst).toNat =
      ((m.reg dst).toNat + (m.reg src).toNat + (m.reg .rf &&& Flag.carry).toNat) % 256 ∧
      m'.reg .rf = m.reg .rf
  sub : o = .sub →
    ((m'.reg dst).toNat : Int) = ((m.reg dst).toNat - (m.reg src).toNat) % 256 ∧
      (m'.reg .rf &&& Flag.borrow ≠ 0 ↔ dst.val ≤ src.val)
  subBorrow : o = .subBorrow →
    ((m'.reg dst).toNat : Int) =
        ((m.reg dst).toNat - (m.reg src).toNat + (m.reg .rf &&& Flag.borrow).toNat) % 256 ∧
      (m'.reg .rf &&& Flag.borrow ≠ 0 ↔ dst.val ≤ src.val + (m.reg .rf &&& Flag.borrow).toNat)

/-- The flag of an operation whose destination is another register. -/
theorem setFlag_setReg_flag (hr : r ≠ .rf) :
    ((m.setFlag flag on).setReg r v).reg .rf &&& flag = if on then flag else 0 := by
  rw [setReg_of_ne hr, setFlag_flag]

theorem toNat_sub_int (a b : UInt8) : ((a - b).toNat : Int) = (a.toNat - b.toNat) % 256 := by
  have ha := a.toNat_lt
  have hb := b.toNat_lt
  rw [UInt8.toNat_sub]
  omega

theorem borrow_ne_zero (on : Bool) : (if on then Flag.borrow else 0) ≠ 0 ↔ on = true := by
  cases on <;> decide

theorem perform_computes (hdst : Register.ofByte c.reg ≠ .rf) (hsrc : Register.ofByte c.src ≠ .rf) :
    m.Computes (Register.ofByte c.reg) (Register.ofByte c.src) c.operation (m.perform c) where
  add hop := by
    -- Two register numbers add up to 30 at most.
    have hcarry :
        decide (0xff < (Register.ofByte c.reg).val + (Register.ofByte c.src).val) = false := by
      rw [decide_eq_false_iff_not]
      omega
    rw [Code.operation] at hop
    simp only [perform, hop]
    rw [setFlag_setReg_flag hdst, setReg_self, setFlag_of_ne hdst, setFlag_of_ne hsrc, hcarry]
    exact ⟨UInt8.toNat_add .., rfl⟩
  addCarry hop := by
    rw [Code.operation] at hop
    simp only [perform, hop]
    rw [setReg_of_ne hdst, setReg_self, UInt8.toNat_add, UInt8.toNat_add]
    exact ⟨by omega, rfl⟩
  sub hop := by
    rw [Code.operation] at hop
    simp only [perform, hop]
    rw [setFlag_setReg_flag hdst, setReg_self, setFlag_of_ne hdst, setFlag_of_ne hsrc,
      borrow_ne_zero, decide_eq_true_iff]
    exact ⟨toNat_sub_int .., Iff.rfl⟩
  subBorrow hop := by
    rw [Code.operation] at hop
    simp only [perform, hop]
    rw [setFlag_setReg_flag hdst, setReg_self, setFlag_of_ne hdst, setFlag_of_ne hsrc,
      borrow_ne_zero, decide_eq_true_iff, toNat_sub_int, toNat_sub_int]
    exact ⟨by omega, Iff.rfl⟩

end Machine

/-- **What an instruction changes, and what additions and subtractions compute.** An instruction
that ends well changes only the registers and flags that its operation writes, and at most one byte
of memory. If neither operand is the flags register, additions and subtractions compute modulo 256
with the flags folded in as they stand, and the flags come from the numbers of the registers. -/
theorem execute_confined_and_computes (m m' : Machine) (c : Code) (h : m.execute c = (m', none)) :
    m.Confined c m' ∧
      (Register.ofByte c.reg ≠ .rf → Register.ofByte c.src ≠ .rf →
        m.Computes (Register.ofByte c.reg) (Register.ofByte c.src) c.operation m') := by
  rw [Machine.execute_ok h]
  refine ⟨?_, fun hdst hsrc => ?_⟩
  · obtain ⟨hregisters, hflags, hsize, hmemory, hhalted⟩ := m.perform_confined c
    exact ⟨hregisters, hflags, hsize, hmemory, hhalted⟩
  · obtain ⟨hadd, haddCarry, hsub, hsubBorrow⟩ := Machine.perform_computes (m := m) hdst hsrc
    exact ⟨hadd, haddCarry, hsub, hsubBorrow⟩

/-- A machine with a set borrow flag. -/
def Machine.borrowing : Machine :=
  let m : Machine := { memory := #[0, 0, 0] }
  (m.setReg (Register.ofByte 1) 200).setReg .rf Flag.borrow

/-- A register subtracted from itself with a borrow is the borrow flag, which stays set, and nothing
else changes. -/
theorem execute_confined_and_computes_on_itself :
    ∃ m', Machine.borrowing.execute (.ofRegisters 11 1 1) = (m', none) ∧
      ((m'.reg (Register.ofByte 1)).toNat : Int) = 4 ∧ m'.reg .rf &&& Flag.borrow ≠ 0 ∧
      m'.reg .rf &&& ~~~Flag.borrow = 0 ∧ m'.reg .rsp = 0 ∧ m'.memory.size = 3 := by
  have hok : Machine.borrowing.execute (.ofRegisters 11 1 1) =
      ((Machine.borrowing.execute (.ofRegisters 11 1 1)).1, none) := Prod.ext rfl (by decide)
  obtain ⟨hconfined, hcomputes⟩ := execute_confined_and_computes _ _ _ hok
  obtain ⟨hvalue, hborrow⟩ := (hcomputes (by decide) (by decide)).subBorrow (by decide)
  exact ⟨_, hok, hvalue.trans (by decide), hborrow.2 (by decide),
    (hconfined.flags (by decide)).trans (by decide),
    (hconfined.registers .rsp (by decide) (by decide)).trans (by decide), hconfined.size⟩

end Octet
