import Octet.Proofs.InstructionEffects
import Octet.Stack

/-!
# The stack in page zero

Pushes and pops of registers other than the stack pointer behave as those of a bounded stack of 256
bytes. The stack pointer may start anywhere: the stack wraps around page zero.

* `outstanding` — how many more pushes than pops there are; `StackCodes` — pushes and pops that
  neither underflow nor overflow;
* `IdealMachine` — the registers with a stack of their own, and `IdealMachine.run`;
* `Machine.Tracks` — a machine holds the registers and the stack of an ideal one;
  `Machine.Tracks.step`, `Machine.Tracks.run`: pushes and pops keep it;
* `IdealMachine.run_keeps` — a run that never goes below a part of the stack leaves that part;
* `stack_is_last_in_first_out` — **the stack in page zero is a stack of 256 bytes**.
-/

namespace Octet

/-! ## Pushes and pops -/

/-- How many more pushes than pops there are. -/
def outstanding (cs : List Code) : Int :=
  cs.countP (·.operation = .push) - cs.countP (·.operation = .pop)

section

variable {c : Code} {cs : List Code} {depth : Nat}

theorem outstanding_nil : outstanding [] = 0 := rfl

theorem outstanding_cons (c : Code) (cs : List Code) :
    outstanding (c :: cs) = outstanding [c] + outstanding cs := by
  rw [← List.singleton_append]
  simp only [outstanding, List.countP_append]
  omega

theorem outstanding_push (h : c.operation = .push) : outstanding [c] = 1 := by
  simp [outstanding, h]

theorem outstanding_pop (h : c.operation = .pop) : outstanding [c] = -1 := by
  simp [outstanding, h]

/-- Pushes and pops of registers other than the stack pointer which, from a depth on, never go below
zero or above 256. -/
structure StackCodes (depth : Nat) (cs : List Code) : Prop where
  operation : ∀ c ∈ cs, c.operation = .push ∨ c.operation = .pop
  register : ∀ c ∈ cs, Register.ofByte c.reg ≠ .rsp
  bounded : ∀ front, front <+: cs → 0 ≤ depth + outstanding front ∧ depth + outstanding front ≤ 256

namespace StackCodes

theorem front {front : List Code} (h : StackCodes depth cs) (hfront : front <+: cs) :
    StackCodes depth front where
  operation c hc := h.operation c (hfront.subset hc)
  register c hc := h.register c (hfront.subset hc)
  bounded _ hless := h.bounded _ (hless.trans hfront)

theorem push (h : StackCodes depth (c :: cs)) (hc : c.operation = .push) :
    depth < 256 ∧ StackCodes (depth + 1) cs := by
  have hbounded (front : List Code) (hfront : front <+: cs) :
      0 ≤ ((depth + 1 : Nat) : Int) + outstanding front ∧
        ((depth + 1 : Nat) : Int) + outstanding front ≤ 256 := by
    have hcons := h.bounded (c :: front) (List.cons_prefix_cons.2 ⟨rfl, hfront⟩)
    rw [outstanding_cons, outstanding_push hc] at hcons
    omega
  have hdepth := (hbounded [] List.nil_prefix).2
  rw [outstanding_nil] at hdepth
  exact ⟨by omega, fun d hd => h.operation d (.tail c hd), fun d hd => h.register d (.tail c hd),
    hbounded⟩

theorem pop (h : StackCodes depth (c :: cs)) (hc : c.operation = .pop) :
    0 < depth ∧ StackCodes (depth - 1) cs := by
  have hcons (front : List Code) (hfront : front <+: cs) :
      0 ≤ depth + (-1 + outstanding front) ∧ depth + (-1 + outstanding front) ≤ 256 := by
    rw [← outstanding_pop hc, ← outstanding_cons]
    exact h.bounded (c :: front) (List.cons_prefix_cons.2 ⟨rfl, hfront⟩)
  have hdepth := (hcons [] List.nil_prefix).1
  rw [outstanding_nil] at hdepth
  refine ⟨by omega, fun d hd => h.operation d (.tail c hd), fun d hd => h.register d (.tail c hd),
    fun front hfront => ?_⟩
  have hfront := hcons front hfront
  omega

end StackCodes

end

/-! ## The ideal stack -/

/-- Registers, and a stack apart from them and from memory. -/
structure IdealMachine where
  registers : Register → UInt8
  stack : Stack UInt8

namespace IdealMachine

variable {s s' : IdealMachine} {c : Code} {cs : List Code}

/-- A push or a pop of the register that a code names first. -/
def step (s : IdealMachine) (c : Code) : Option IdealMachine :=
  let r := Register.ofByte c.reg
  match c.operation with
  | .push => (s.stack.push? (s.registers r)).map fun stack => { s with stack := stack }
  | .pop => s.stack.pop?.map fun (v, stack) => ⟨fun q => if r = q then v else s.registers q, stack⟩
  | _ => none

/-- Pushes and pops, one after the other. -/
def run (s : IdealMachine) (cs : List Code) : Option IdealMachine := cs.foldlM step s

theorem run_cons (s : IdealMachine) (c : Code) (cs : List Code) :
    s.run (c :: cs) = (s.step c).bind (·.run cs) :=
  List.foldlM_cons

theorem run_append (s : IdealMachine) (cs ds : List Code) :
    s.run (cs ++ ds) = (s.run cs).bind (·.run ds) :=
  List.foldlM_append

theorem step_push (hc : c.operation = .push) (hlimit : s.stack.limit = 256)
    (hdepth : s.stack.size < 256) :
    s.step c = some { s with
      stack :=
        { s.stack with items := s.registers (Register.ofByte c.reg) :: s.stack.items } } := by
  have hfull : s.stack.isFull = false := by
    rw [Stack.isFull, Stack.capacity, hlimit]
    exact decide_eq_false (Nat.not_le.2 hdepth)
  simp [step, hc, Stack.push?, hfull]

theorem step_pop {v : UInt8} {rest : List UInt8} (hc : c.operation = .pop)
    (hitems : s.stack.items = v :: rest) :
    s.step c = some ⟨fun q => if Register.ofByte c.reg = q then
      v else s.registers q, { s.stack with items := rest }⟩ := by
  simp [step, hc, Stack.pop?, hitems]

/-- What one push or pop does. -/
theorem step_cases (h : s.step c = some s') :
    c.operation = .push ∧ s'.registers = s.registers ∧
        s'.stack.items = s.registers (Register.ofByte c.reg) :: s.stack.items ∨
      c.operation = .pop ∧
        s.stack.items = s'.registers (Register.ofByte c.reg) :: s'.stack.items := by
  unfold step at h
  split at h
  · rename_i hop
    obtain ⟨stack, hpush, rfl⟩ := Option.map_eq_some_iff.1 h
    unfold Stack.push? at hpush
    split at hpush
    · cases hpush
    · cases hpush
      exact .inl ⟨hop, rfl, rfl⟩
  · rename_i hop
    obtain ⟨⟨v, stack⟩, hpop, rfl⟩ := Option.map_eq_some_iff.1 h
    unfold Stack.pop? at hpop
    split at hpop
    · cases hpop
    · rename_i hitems
      cases hpop
      exact .inr ⟨hop, by simpa using hitems⟩
  · cases h

/-- **A run that never goes below a part of the stack leaves that part.** -/
theorem run_keeps {upper lower : List UInt8} (hrun : s.run cs = some s')
    (hitems : s.stack.items = upper ++ lower)
    (habove : ∀ front, front <+: cs → 0 ≤ upper.length + outstanding front) :
    ∃ upper', s'.stack.items = upper' ++ lower ∧
      (upper'.length : Int) = upper.length + outstanding cs := by
  induction cs generalizing s upper with
  | nil =>
    cases hrun
    exact ⟨upper, hitems, by rw [outstanding_nil]; omega⟩
  | cons c cs ih =>
    rw [run_cons] at hrun
    obtain ⟨t, hstep, hrest⟩ := Option.bind_eq_some_iff.1 hrun
    obtain ⟨hc, -, hpushed⟩ | ⟨hc, hpopped⟩ := step_cases hstep
    · rw [hitems, ← List.cons_append] at hpushed
      obtain ⟨upper', hitems', hlength⟩ := ih hrest hpushed fun front hfront => by
        have hcons := habove (c :: front) (List.cons_prefix_cons.2 ⟨rfl, hfront⟩)
        rw [outstanding_cons, outstanding_push hc] at hcons
        rw [List.length_cons]
        omega
      refine ⟨upper', hitems', ?_⟩
      rw [hlength, outstanding_cons, outstanding_push hc, List.length_cons]
      omega
    · -- The part above holds the value that is popped, for the depth stays.
      cases upper with
      | nil =>
        have hone := habove [c] (List.cons_prefix_cons.2 ⟨rfl, List.nil_prefix⟩)
        rw [outstanding_pop hc, List.length_nil] at hone
        omega
      | cons v upper =>
        rw [hitems] at hpopped
        obtain ⟨upper', hitems', hlength⟩ :=
          ih hrest (List.cons.inj hpopped).2.symm fun front hfront => by
          have hcons := habove (c :: front) (List.cons_prefix_cons.2 ⟨rfl, hfront⟩)
          rw [outstanding_cons, outstanding_pop hc, List.length_cons] at hcons
          omega
        refine ⟨upper', hitems', ?_⟩
        rw [hlength, outstanding_cons, outstanding_pop hc, List.length_cons]
        omega

end IdealMachine

/-! ## The machine -/

theorem Code.length_of_stack {c : Code} (h : c.operation = .push ∨ c.operation = .pop) :
    c.length = 1 := by
  have hnumber : ∀ n < 16, Operation.ofNumber n = .push ∨ Operation.ofNumber n = .pop →
      n = 5 ∨ n = 6 := by decide
  unfold length entry?
  rcases hnumber c.nibble c.nibble_lt h with hn | hn
  · rw [hn]
    rfl
  · rw [hn]
    rfl

namespace Machine

variable {m : Machine} {s : IdealMachine} {c : Code} {cs : List Code} {sp : UInt8}

/-- Executes a code; only the fault is left if it fails. -/
def executed (m : Machine) (c : Code) : Except Fault Machine :=
  match m.execute c with
  | (m', none) => .ok m'
  | (_, some f) => .error f

/-- Executes one code after the other. -/
def executeAll (m : Machine) (cs : List Code) : Except Fault Machine := cs.foldlM executed m

/-- In page zero a push or a pop always succeeds, and goes on at the next byte. -/
theorem execute_stack (hc : c.operation = .push ∨ c.operation = .pop) (hpage : 256 ≤ m.memory.size)
    (hroom : m.ip.toNat + 1 < m.memory.size) :
    m.execute c = ({ m.perform c with ip := UInt16.ofNat (m.ip.toNat + 1) }, none) := by
  have hother {o : Operation} (hop : c.operation = o) : o = .push ∨ o = .pop := hop ▸ hc
  have hinside : m.outside? c = none := by
    rw [outside?_eq_none]
    have hsp := (m.reg .rsp).toNat_lt
    rintro a (hop | hop | hop | hop)
    · exact absurd (hother hop) (by decide)
    · exact absurd (hother hop) (by decide)
    · omega
    · omega
  have hnext : m.nextAddress c = m.ip.toNat + 1 := by
    rw [nextAddress_of_not_jumps, Code.length_of_stack hc]
    rintro ⟨hjump, -⟩
    exact absurd (hother hjump) (by decide)
  rw [execute_of_inside hinside (hnext ▸ hroom), hnext]

theorem read_write_self {address : Nat} {v : UInt8} (h : address < m.memory.size) :
    (m.write address v).read address = v := by
  rw [read, write, Array.getElem?_setIfInBounds_self_of_lt h, Option.getD_some]

/-- The machine holds the registers and the stack of an ideal one, whose stack is empty if the stack
pointer is `sp`. The top of the stack is just above the stack pointer. -/
structure Tracks (sp : UInt8) (m : Machine) (s : IdealMachine) : Prop where
  page : 256 ≤ m.memory.size
  limit : s.stack.limit = 256
  registers : ∀ q, q ≠ .rsp → m.reg q = s.registers q
  pointer : ((m.reg .rsp).toNat + s.stack.size) % 256 = sp.toNat
  cells : ∀ j v, s.stack.items[j]? = some v → m.read (((m.reg .rsp).toNat + 1 + j) % 256) = v

theorem Tracks.push (h : m.Tracks sp s) (hc : c.operation = .push)
    (hr : Register.ofByte c.reg ≠ .rsp) (hdepth : s.stack.size < 256) :
    ∃ s', s.step c = some s' ∧ s'.stack.size = s.stack.size + 1 ∧ (m.perform c).Tracks sp s' := by
  have hstep := IdealMachine.step_push hc h.limit hdepth
  have hperform : m.perform c =
      (m.write (m.reg .rsp).toNat (m.reg (Register.ofByte c.reg))).setReg .rsp
        (m.reg .rsp - 1) := by
    rw [Code.operation] at hc
    simp only [perform, hc]
  have hread (a : Nat) : (m.perform c).read a =
      (m.write (m.reg .rsp).toNat (m.reg (Register.ofByte c.reg))).read a := by
    rw [hperform]
    rfl
  have hpage := h.page
  have hpointer := h.pointer
  have hlt := (m.reg .rsp).toNat_lt
  have hsp : ((m.perform c).reg .rsp).toNat = ((m.reg .rsp).toNat + 255) % 256 := by
    rw [hperform, setReg_self, UInt8.toNat_sub, UInt8.toNat_one]
    omega
  refine ⟨_, hstep, rfl, ?_, h.limit, ?_, ?_, ?_⟩
  · rw [perform_memory_size]
    exact hpage
  · intro q hq
    rw [hperform, setReg_of_ne hq.symm]
    exact h.registers q hq
  · rw [hsp, Stack.size, List.length_cons]
    rw [Stack.size] at hpointer
    omega
  · intro j v hj
    rw [hsp, hread]
    cases j with
    | zero =>
      have htop : (((m.reg .rsp).toNat + 255) % 256 + 1 + 0) % 256 = (m.reg .rsp).toNat := by omega
      cases hj
      rw [htop, read_write_self (by omega), h.registers _ hr]
    | succ j =>
      -- No two of at most 256 cells in a row are the same modulo 256.
      have hj' : s.stack.items[j]? = some v := hj
      have hbelow : j < s.stack.size := (List.getElem?_eq_some_iff.1 hj').1
      have hcell : (((m.reg .rsp).toNat + 255) % 256 + 1 + (j + 1)) % 256 =
          ((m.reg .rsp).toNat + 1 + j) % 256 := by omega
      rw [hcell, read_write_of_ne (by omega)]
      exact h.cells j v hj'

theorem Tracks.pop (h : m.Tracks sp s) (hc : c.operation = .pop) (hr : Register.ofByte c.reg ≠ .rsp)
    (hdepth : 0 < s.stack.size) :
    ∃ s', s.step c = some s' ∧ s'.stack.size = s.stack.size - 1 ∧ (m.perform c).Tracks sp s' := by
  obtain ⟨v, rest, hitems⟩ := List.exists_cons_of_length_pos hdepth
  have hstep := IdealMachine.step_pop hc hitems
  have hpointer := h.pointer
  have hlt := (m.reg .rsp).toNat_lt
  have hsize : s.stack.size = rest.length + 1 := by rw [Stack.size, hitems, List.length_cons]
  have hnext : (m.reg .rsp + 1).toNat = ((m.reg .rsp).toNat + 1) % 256 := UInt8.toNat_add ..
  have hv : m.read (m.reg .rsp + 1).toNat = v := by
    rw [hnext]
    exact h.cells 0 v (by rw [hitems]; rfl)
  have hperform :
      m.perform c = (m.setReg .rsp (m.reg .rsp + 1)).setReg (Register.ofByte c.reg) v := by
    rw [Code.operation] at hc
    simp only [perform, hc, hv]
  have hsp : ((m.perform c).reg .rsp).toNat = ((m.reg .rsp).toNat + 1) % 256 := by
    rw [hperform, setReg_of_ne hr, setReg_self, hnext]
  refine ⟨_, hstep, by rw [hsize]; rfl, ?_, h.limit, ?_, ?_, ?_⟩
  · rw [perform_memory_size]
    exact h.page
  · intro q hq
    rw [hperform, setReg_reg, setReg_of_ne hq.symm, h.registers q hq]
  · change (((m.perform c).reg .rsp).toNat + rest.length) % 256 = sp.toNat
    rw [hsp]
    omega
  · intro j w hj
    have hcell : (((m.reg .rsp).toNat + 1) % 256 + 1 + j) % 256 =
        ((m.reg .rsp).toNat + 1 + (j + 1)) % 256 := by omega
    rw [hsp, hcell, hperform]
    exact h.cells (j + 1) w (by rw [hitems]; exact hj)

/-- One push or pop keeps the machine and the ideal one together. -/
theorem Tracks.step (h : m.Tracks sp s) (hcs : StackCodes s.stack.size (c :: cs)) :
    ∃ s', s.step c = some s' ∧ (s'.stack.size : Int) = s.stack.size + outstanding [c] ∧
      StackCodes s'.stack.size cs ∧ (m.perform c).Tracks sp s' := by
  have hr := hcs.register c (.head cs)
  rcases hcs.operation c (.head cs) with hc | hc
  · obtain ⟨hdepth, hrest⟩ := hcs.push hc
    obtain ⟨s', hstep, hsize, htracks⟩ := h.push hc hr hdepth
    refine ⟨s', hstep, ?_, hsize ▸ hrest, htracks⟩
    rw [outstanding_push hc, hsize]
    omega
  · obtain ⟨hdepth, hrest⟩ := hcs.pop hc
    obtain ⟨s', hstep, hsize, htracks⟩ := h.pop hc hr hdepth
    refine ⟨s', hstep, ?_, hsize ▸ hrest, htracks⟩
    rw [outstanding_pop hc, hsize]
    omega

/-- The bytes in which two machines differ are those that the pushes among the codes write, if the
first of the codes finds the stack pointer at `top`. -/
def OnlyPushed (top : Int) (cs : List Code) (m m' : Machine) : Prop :=
  ∀ address, m'.read address ≠ m.read address →
    ∃ before c, before ++ [c] <+: cs ∧ c.operation = .push ∧
      (address : Int) = (top - outstanding before) % 256

/-- The byte that one push or pop changes. -/
theorem Tracks.onlyPushed (h : m.Tracks sp s) (hc : c.operation = .push ∨ c.operation = .pop) :
    OnlyPushed (sp.toNat - s.stack.size) [c] m (m.perform c) := by
  intro address hne
  have hpointer := h.pointer
  have hlt := (m.reg .rsp).toNat_lt
  rcases perform_read hne with ⟨hstore, -⟩ | ⟨hpush, haddress⟩
  · rw [hstore] at hc
    exact absurd hc (by decide)
  · refine ⟨[], c, List.prefix_refl _, hpush, ?_⟩
    rw [haddress, outstanding_nil]
    omega

theorem OnlyPushed.cons {top : Int} {m₁ m₂ m₃ : Machine} (hfirst : OnlyPushed top [c] m₁ m₂)
    (hrest : OnlyPushed (top - outstanding [c]) cs m₂ m₃) : OnlyPushed top (c :: cs) m₁ m₃ := by
  intro address hne
  by_cases hsame : m₂.read address = m₁.read address
  · obtain ⟨before, d, hbefore, hd, haddress⟩ := hrest address (hsame ▸ hne)
    refine ⟨c :: before, d, List.cons_prefix_cons.2 ⟨rfl, hbefore⟩, hd, ?_⟩
    rw [haddress, outstanding_cons c before, Int.sub_sub]
  · obtain ⟨before, d, hbefore, hd, haddress⟩ := hfirst address hsame
    exact ⟨before, d, hbefore.trans (List.cons_prefix_cons.2 ⟨rfl, List.nil_prefix⟩), hd, haddress⟩

/-- **Pushes and pops keep the machine and the ideal one together.** -/
theorem Tracks.run (h : m.Tracks sp s) (hcs : StackCodes s.stack.size cs)
    (hroom : m.ip.toNat + cs.length < m.memory.size) :
    ∃ m' s', m.executeAll cs = .ok m' ∧ s.run cs = some s' ∧ m'.Tracks sp s' ∧
      (s'.stack.size : Int) = s.stack.size + outstanding cs ∧ m'.memory.size = m.memory.size ∧
      OnlyPushed (sp.toNat - s.stack.size) cs m m' := by
  induction cs generalizing m s with
  | nil =>
    exact ⟨m, s, rfl, rfl, h, by rw [outstanding_nil]; omega, rfl, fun _ hne => absurd rfl hne⟩
  | cons c cs ih =>
    rw [List.length_cons] at hroom
    have hc := hcs.operation c (.head cs)
    have hexecute := execute_stack hc h.page (m := m) (by omega)
    have hexecuted :
        m.executed c = .ok { m.perform c with ip := UInt16.ofNat (m.ip.toNat + 1) } := by
      rw [executed, hexecute]
    obtain ⟨t, hstep, hsize, hrest, htracks⟩ := h.step hcs
    have hnext : Tracks sp { m.perform c with ip := UInt16.ofNat (m.ip.toNat + 1) } t :=
      ⟨htracks.page, htracks.limit, htracks.registers, htracks.pointer, htracks.cells⟩
    -- The instruction pointer may wrap around in a large memory, which leaves only more room.
    have hip : (UInt16.ofNat (m.ip.toNat + 1)).toNat ≤ m.ip.toNat + 1 := by
      rw [UInt16.toNat_ofNat']
      exact Nat.mod_le ..
    obtain ⟨m', s', hrun, hideal, htracks', hsize', hmemory, honly⟩ :=
      ih hnext hrest (by rw [perform_memory_size]; change (UInt16.ofNat _).toNat + _ < _; omega)
    refine ⟨m', s', ?_, ?_, htracks', ?_, ?_, ?_⟩
    · rw [executeAll, List.foldlM_cons, hexecuted]
      exact hrun
    · rw [IdealMachine.run_cons, hstep]
      exact hideal
    · rw [hsize', hsize, outstanding_cons c cs, Int.add_assoc]
    · rw [hmemory]
      exact m.perform_memory_size c
    · refine (h.onlyPushed hc).cons ?_
      rw [Int.sub_sub, ← hsize]
      exact honly

/-! ## Last in, first out -/

/-- The registers of a machine with an empty stack of 256 bytes. -/
def ideal (m : Machine) : IdealMachine := ⟨m.reg, Stack.empty 256⟩

theorem tracks_ideal (hpage : 256 ≤ m.memory.size) : m.Tracks (m.reg .rsp) m.ideal where
  page := hpage
  limit := rfl
  registers _ _ := rfl
  pointer := Nat.mod_eq_of_lt (m.reg .rsp).toNat_lt
  cells _ _ hj := by cases hj

/-- What pushes and pops make of a machine: its registers other than the stack pointer are those of
an ideal one. -/
structure Mirrors (m : Machine) (cs : List Code) (m' : Machine) (s : IdealMachine) : Prop where
  registers : ∀ q, q ≠ .rsp → m'.reg q = s.registers q
  pointer : ((m'.reg .rsp).toNat : Int) = ((m.reg .rsp).toNat - outstanding cs) % 256
  size : m'.memory.size = m.memory.size
  memory : OnlyPushed (m.reg .rsp).toNat cs m m'

theorem exists_mirrors (hpage : 256 ≤ m.memory.size) (hcs : StackCodes 0 cs)
    (hroom : m.ip.toNat + cs.length < m.memory.size) :
    ∃ m' s, m.executeAll cs = .ok m' ∧ m.ideal.run cs = some s ∧ m.Mirrors cs m' s := by
  obtain ⟨m', s, hrun, hideal, htracks, hsize, hmemory, honly⟩ := (tracks_ideal hpage).run hcs hroom
  have hempty : (m.ideal.stack.size : Int) = 0 := rfl
  rw [hempty] at hsize honly
  refine ⟨m', s, hrun, hideal, htracks.registers, ?_, hmemory, ?_⟩
  · have hpointer := htracks.pointer
    have hlt := (m'.reg .rsp).toNat_lt
    omega
  · rw [Int.sub_zero] at honly
    exact honly

end Machine

/-- Pushes and pops that come out even, and never go below where they start. -/
structure Balanced (cs : List Code) : Prop where
  even : outstanding cs = 0
  above : ∀ front, front <+: cs → 0 ≤ outstanding front

/-- A pop takes what the matching push put on the stack. -/
theorem IdealMachine.pop_matching {s s' : IdealMachine} {c d : Code} {middle : List Code}
    (hc : c.operation = .push) (hd : d.operation = .pop) (hmiddle : Balanced middle)
    (hrun : s.run (c :: (middle ++ [d])) = some s') :
    s'.registers (Register.ofByte d.reg) = s.registers (Register.ofByte c.reg) := by
  rw [run_cons] at hrun
  obtain ⟨pushed, hpush, hrun⟩ := Option.bind_eq_some_iff.1 hrun
  rw [run_append] at hrun
  obtain ⟨between, hmid, hrun⟩ := Option.bind_eq_some_iff.1 hrun
  rw [run_cons] at hrun
  obtain ⟨popped, hpop, hrun⟩ := Option.bind_eq_some_iff.1 hrun
  cases hrun
  obtain ⟨-, -, hpushed⟩ | ⟨hpop', -⟩ := step_cases hpush
  · -- What stands between the two leaves the stack as the push made it.
    obtain ⟨upper, hitems, hlength⟩ :=
      run_keeps hmid (List.nil_append _).symm fun front hfront => by
      rw [List.length_nil, Int.natCast_zero, Int.zero_add]
      exact hmiddle.above front hfront
    rw [hmiddle.even] at hlength
    have hupper : upper = [] := List.eq_nil_of_length_eq_zero (by simpa using hlength)
    rw [hupper, List.nil_append, hpushed] at hitems
    obtain ⟨hpush', -, -⟩ | ⟨-, hpopped⟩ := step_cases hpop
    · cases hpush'.symm.trans hd
    · exact (List.cons.inj (hpopped.symm.trans hitems)).1
  · cases hpop'.symm.trans hc

/-- **The stack in page zero is a stack of 256 bytes.** From any stack pointer, pushes and pops that
never go below where they start or above 256 all succeed. After each of them the registers are those
of an ideal machine with a stack of its own, the stack pointer is as far below its first value as
pushes are outstanding, modulo 256, and memory has changed only in the bytes of page zero that the
pushes address. A pop gives its register the value that the register of the matching push had
then. -/
theorem stack_is_last_in_first_out (m : Machine) (cs : List Code) (hpage : 256 ≤ m.memory.size)
    (hroom : m.ip.toNat + cs.length < m.memory.size) (hcs : StackCodes 0 cs) :
    (∀ front, front <+: cs →
        ∃ m' s, m.executeAll front = .ok m' ∧ m.ideal.run front = some s ∧ m.Mirrors front m' s) ∧
      ∀ before c middle d, before ++ c :: (middle ++ [d]) <+: cs → c.operation = .push →
        d.operation = .pop → Balanced middle → ∃ m₁ m₂, m.executeAll before = .ok m₁ ∧
          m.executeAll (before ++ c :: (middle ++ [d])) = .ok m₂ ∧
          m₂.reg (Register.ofByte d.reg) = m₁.reg (Register.ofByte c.reg) := by
  have hfronts (front : List Code) (hfront : front <+: cs) :
      ∃ m' s, m.executeAll front = .ok m' ∧ m.ideal.run front = some s ∧ m.Mirrors front m' s := by
    have hlength := hfront.length_le
    exact Machine.exists_mirrors hpage (hcs.front hfront) (by omega)
  refine ⟨hfronts, fun before c middle d hpair hc hd hmiddle => ?_⟩
  obtain ⟨m₁, s₁, hrun₁, hideal₁, hmirrors₁⟩ :=
    hfronts before ((List.prefix_append before _).trans hpair)
  obtain ⟨m₂, s₂, hrun₂, hideal₂, hmirrors₂⟩ := hfronts _ hpair
  refine ⟨m₁, m₂, hrun₁, hrun₂, ?_⟩
  rw [IdealMachine.run_append, hideal₁] at hideal₂
  have hmem {x : Code} (hx : x ∈ c :: (middle ++ [d])) : Register.ofByte x.reg ≠ .rsp :=
    hcs.register x (hpair.subset (List.mem_append_right before hx))
  rw [hmirrors₂.registers _ (hmem (by simp)), hmirrors₁.registers _ (hmem (by simp))]
  exact IdealMachine.pop_matching hc hd hmiddle hideal₂

/-- A machine with one page of memory and its stack pointer at zero, so that the second push wraps
around. -/
def Machine.wrapping : Machine :=
  let m : Machine := { memory := Array.replicate 256 0 }
  (m.setReg (Register.ofByte 1) 7).setReg (Register.ofByte 2) 9

/-- Exchanges `r1` and `r2` over the stack. -/
def exchange : List Code := [.ofRegister 5 1, .ofRegister 5 2, .ofRegister 6 1, .ofRegister 6 2]

theorem exchange_stackCodes : StackCodes 0 exchange where
  operation := by decide
  register := by decide
  bounded front hfront := by
    have hbounded : ∀ n ≤ 4, 0 ≤ ((0 : Nat) : Int) + outstanding (exchange.take n) ∧
        ((0 : Nat) : Int) + outstanding (exchange.take n) ≤ 256 := by decide
    rw [List.prefix_iff_eq_take.1 hfront]
    exact hbounded front.length hfront.length_le

/-- The second register gets the value of the first over the wrapped stack, and the stack pointer
comes back. -/
theorem stack_is_last_in_first_out_wrapping :
    Machine.wrapping.memory.size = 256 ∧ StackCodes 0 exchange ∧
      ∃ m', Machine.wrapping.executeAll exchange = .ok m' ∧ m'.reg (Register.ofByte 2) = 7 ∧
        (m'.reg .rsp).toNat = 0 := by
  have hmiddle : Balanced [.ofRegister 5 2, .ofRegister 6 1] := by
    refine ⟨by decide, fun front hfront => ?_⟩
    have habove : ∀ n ≤ 2, 0 ≤ outstanding (List.take n [.ofRegister 5 2, .ofRegister 6 1]) := by
      decide
    rw [List.prefix_iff_eq_take.1 hfront]
    exact habove front.length hfront.length_le
  have hpage : Machine.wrapping.memory.size = 256 := Array.size_replicate
  obtain ⟨hfronts, hpairs⟩ := stack_is_last_in_first_out Machine.wrapping exchange (by omega)
    (by rw [hpage]; decide) exchange_stackCodes
  obtain ⟨m', s, hrun, -, hmirrors⟩ := hfronts exchange (List.prefix_refl _)
  obtain ⟨m₁, m₂, hrun₁, hrun₂, hvalue⟩ :=
    hpairs [] (.ofRegister 5 1) [.ofRegister 5 2, .ofRegister 6 1]
    (.ofRegister 6 2) (List.prefix_refl exchange) (by decide) (by decide) hmiddle
  cases hrun₁
  cases hrun.symm.trans hrun₂
  refine ⟨hpage, exchange_stackCodes, m', hrun, hvalue.trans (by decide), ?_⟩
  have hpointer := hmirrors.pointer
  have hstart : (Machine.wrapping.reg .rsp).toNat = 0 := by decide
  have hnone : outstanding exchange = 0 := by decide
  omega

end Octet
