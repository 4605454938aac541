import Octet.Proofs.StandardCalls
import Octet.Proofs.StraightLine

/-!
# What the standard macros do

The calls of the standard macros as routines of a machine: the registers and flags that each may
change, the address at which it goes on, and the result that it is for.

* `Routine.Does` — what a routine does to a machine; `Routine.Stays`: it does not run off the end of
  memory;
* `Routine.outcomes_codes`, `Routine.does_after` — **the codes of a routine do what it says**;
* `Routine.executeAll_codes` — **a routine that stays in memory ends without a fault**;
* `SourceItems.exists_expansion` — the rows that a call becomes;
* `standard_macros_take_effect` — **the standard macros do what they say, wherever they are
  called**.
-/

namespace Octet

/-! ## Routines -/

namespace Routine

/-- The number of bytes of a routine. -/
def length : Routine → Nat
  | jmp _ => 6
  | nop => 2
  | _ => 4

/-- The registers that a routine may change, besides the flags. -/
def changes : Routine → List Register
  | add r _ | sub r _ | inc r | dec r => [r, .rv]
  | jmp _ => [.rah, .ral, .rv]
  | jnz .. => [.rah, .ral]
  | hlt => [.rv]
  | nop => []

/-- The flags that a routine may change. -/
def flags : Routine → UInt8
  | add .. | inc _ => Flag.carry
  | sub .. | dec _ => Flag.borrow
  | hlt => Flag.halt
  | _ => 0

/-- The register of the call is none that the routine needs for itself. -/
def Proper : Routine → Prop
  | add r _ | sub r _ | inc r | dec r => r ≠ .rv ∧ r ≠ .rf
  | jnz r _ => r ≠ .ral ∧ r ≠ .rah
  | _ => True

/-- The routine goes to its label. -/
def Jumps (m : Machine) : Routine → Prop
  | jmp _ => True
  | jnz r _ => m.reg r ≠ 0
  | _ => False

instance (m : Machine) (x : Routine) : Decidable (x.Jumps m) := by
  cases x <;> unfold Jumps <;> infer_instance

/-- The address at which a machine goes on after a routine. -/
def next (target : UInt16) (m : Machine) (x : Routine) : Nat :=
  if x.Jumps m then target.toNat else m.ip.toNat + x.length

/-- The routine does not run off the end of memory: it stands in memory, and goes on there unless it
halts. -/
structure Stays (x : Routine) (target : UInt16) (m : Machine) : Prop where
  inside : m.ip.toNat + x.length ≤ m.memory.size
  goesOn : x ≠ .hlt → x.next target m < m.memory.size

/-- What a routine is for. -/
def Result (m m' : Machine) : Routine → Prop
  | add r n => (m'.reg r).toNat = ((m.reg r).toNat + n.toNat) % 256
  | sub r n => ((m'.reg r).toNat : Int) = ((m.reg r).toNat - n.toNat) % 256
  | inc r => (m'.reg r).toNat = ((m.reg r).toNat + 1) % 256
  | dec r => ((m'.reg r).toNat : Int) = ((m.reg r).toNat - 1) % 256
  | hlt => m'.halted = true
  | _ => True

/-- What a routine does: it goes on at the label or after itself, leaves its result, and changes no
more than it says. -/
structure Does (x : Routine) (target : UInt16) (m m' : Machine) : Prop where
  ip : m'.ip = UInt16.ofNat (x.next target m)
  result : x.Result m m'
  registers : ∀ q, q ∉ x.changes → q ≠ .rf → m'.reg q = m.reg q
  flags : m'.reg .rf &&& ~~~x.flags = m.reg .rf &&& ~~~x.flags
  memory : m'.memory = m.memory
  counters : m'.ticks = m.ticks ∧ m'.verbose = m.verbose

/-! ## Instructions of routines -/

variable {x : Routine} {target : UInt16} {m : Machine}

theorem ofByte_toByte : ∀ r : Register, Register.ofByte (r.toByte &&& 0xF) = r := by decide

@[simp] theorem operation_setScratch (n : UInt8) : (setScratch n).operation = .set := rfl

@[simp] theorem operation_point (target : UInt16) : (Code.ofAddress 4 target).operation = .point :=
  rfl

@[simp] theorem operation_jump (r : UInt8) : (Code.ofRegister 7 r).operation = .jump := rfl

@[simp] theorem operation_add (r q : UInt8) : (Code.ofRegisters 8 r q).operation = .add := rfl

@[simp] theorem operation_sub (r q : UInt8) : (Code.ofRegisters 10 r q).operation = .sub := rfl

@[simp] theorem operation_or (r q : UInt8) : (Code.ofRegisters 12 r q).operation = .or := rfl

@[simp] theorem overwrites_setScratch (n : UInt8) : (setScratch n).overwrites = [.rv] := rfl

@[simp] theorem overwrites_point (target : UInt16) :
    (Code.ofAddress 4 target).overwrites = [.rah, .ral] :=
  rfl

@[simp] theorem overwrites_jump (r : UInt8) : (Code.ofRegister 7 r).overwrites = [] := rfl

@[simp] theorem overwrites_add (r : Register) (q : UInt8) :
    (Code.ofRegisters 8 r.toByte q).overwrites = [r] :=
  congrArg (fun r => [r]) (ofByte_toByte r)

@[simp] theorem overwrites_sub (r : Register) (q : UInt8) :
    (Code.ofRegisters 10 r.toByte q).overwrites = [r] :=
  congrArg (fun r => [r]) (ofByte_toByte r)

@[simp] theorem overwrites_or (r : Register) (q : UInt8) :
    (Code.ofRegisters 12 r.toByte q).overwrites = [r] :=
  congrArg (fun r => [r]) (ofByte_toByte r)

theorem perform_setScratch (m : Machine) (n : UInt8) :
    m.perform (setScratch n) = m.setReg .rv n := by
  show m.setReg (Register.ofByte (Register.rv.toByte &&& 0xF)) n.toUInt16.toUInt8 = _
  rw [ofByte_toByte, UInt8.toUInt8_toUInt16]

theorem perform_point (m : Machine) (target : UInt16) :
    m.perform (.ofAddress 4 target) =
      (m.setReg .rah (target >>> 8).toUInt8).setReg .ral target.toUInt8 := rfl

theorem address_point (m : Machine) (target : UInt16) :
    (m.perform (.ofAddress 4 target)).address = target := by
  rw [perform_point, Machine.address, Machine.setReg_of_ne (by decide), Machine.setReg_self,
    Machine.setReg_self]
  exact Code.word_bytes target

theorem address_setScratch (m : Machine) (n : UInt8) :
    (m.perform (setScratch n)).address = m.address := by
  rw [perform_setScratch, Machine.address, Machine.setReg_of_ne (by decide),
    Machine.setReg_of_ne (by decide)]
  rfl

theorem perform_or (m : Machine) (r q : Register) :
    m.perform (.ofRegisters 12 r.toByte q.toByte) = m.setReg r (m.reg r ||| m.reg q) := by
  show m.setReg (Register.ofByte (r.toByte &&& 0xF))
    (m.reg (Register.ofByte (r.toByte &&& 0xF)) ||| m.reg (Register.ofByte (q.toByte &&& 0xF))) = _
  rw [ofByte_toByte, ofByte_toByte]

theorem nextAddress_jump (m : Machine) (r : Register) :
    m.nextAddress (.ofRegister 7 r.toByte) =
      if m.reg r ≠ 0 then m.address.toNat else m.ip.toNat + 1 := by
  show (if Operation.jump = .jump ∧ m.reg (Register.ofByte (r.toByte &&& 0xF)) ≠ 0 then _
      else _) = _
  rw [ofByte_toByte]
  simp only [true_and]
  rfl

/-! ## Runs -/

theorem direct_codes (x : Routine) (target : UInt16) : ∀ c ∈ x.codes target, Machine.Direct c := by
  cases x <;> simp [codes, Machine.Direct]

theorem span_codes (x : Routine) (target : UInt16) : Code.span (x.codes target) = x.length := by
  cases x <;> rfl

/-- The outcome of a routine: its effects, and the address at which it goes on. -/
def after (x : Routine) (target : UInt16) (m : Machine) : Machine :=
  { m.performAll (x.codes target) with ip := UInt16.ofNat (x.next target m) }

/-- The routine ends with a jump, which sees the address of the label and whether to go there. -/
structure JumpsBy (x : Routine) (target : UInt16) (m : Machine) (codes : List Code) (r : Register) :
    Prop where
  straight : ∀ c ∈ codes, Machine.Straight c
  split : x.codes target = codes ++ [.ofRegister 7 r.toByte]
  length : x.length = Code.span codes + 1
  address : (m.advance codes).address = target
  decides : (m.advance codes).reg r ≠ 0 ↔ x.Jumps m

theorem jumpsBy_jmp (label : Text) (target : UInt16) (m : Machine) :
    (jmp label).JumpsBy target m [.ofAddress 4 target, setScratch 1] .rv where
  straight := by simp [Machine.Straight]
  split := rfl
  length := rfl
  address := (address_setScratch _ 1).trans (address_point m target)
  decides := by
    show ((m.perform (.ofAddress 4 target)).perform (setScratch 1)).reg .rv ≠ 0 ↔ True
    rw [perform_setScratch, Machine.setReg_self]
    simp

theorem jumpsBy_jnz {r : Register} {label : Text} (hproper : (jnz r label).Proper) (target : UInt16)
    (m : Machine) :
    (jnz r label).JumpsBy target m [.ofAddress 4 target] r where
  straight := by simp [Machine.Straight]
  split := rfl
  length := rfl
  address := address_point m target
  decides := by
    show (m.perform (.ofAddress 4 target)).reg r ≠ 0 ↔ m.reg r ≠ 0
    rw [perform_point, Machine.setReg_of_ne hproper.1.symm, Machine.setReg_of_ne hproper.2.symm]

theorem JumpsBy.nextAddress {codes : List Code} {r : Register} (h : x.JumpsBy target m codes r) :
    (m.advance codes).nextAddress (.ofRegister 7 r.toByte) =
      if x.Jumps m then target.toNat else (m.advance codes).ip.toNat + 1 := by
  rw [nextAddress_jump, h.address]
  exact if_congr h.decides rfl rfl

theorem JumpsBy.outcomes {codes : List Code} {r : Register} (h : x.JumpsBy target m codes r) :
    m.outcomes (x.codes target) = x.after target m := by
  rw [h.split, Machine.outcomes_concat h.straight, h.nextAddress, ← h.split, after, next]
  by_cases hj : x.Jumps m
  · rw [if_pos hj, if_pos hj]
  · rw [if_neg hj, if_neg hj, Machine.ofNat_advance_ip, h.length]

theorem JumpsBy.executeAll {codes : List Code} {r : Register} (h : x.JumpsBy target m codes r)
    (hx : x ≠ .hlt) (hstays : x.Stays target m) :
    m.executeAll (x.codes target) = .ok (m.outcomes (x.codes target)) := by
  have hinside := hstays.inside
  have hon := hstays.goesOn hx
  have hlength := h.length
  have hip := m.advance_ip_le codes
  have hsize : (m.advance codes).memory.size = m.memory.size :=
    congrArg Array.size (Machine.performAll_frame fun c hc => (h.straight c hc).direct).1
  have hdirect : Machine.Direct (.ofRegister 7 r.toByte) := by simp [Machine.Direct]
  rw [h.split]
  refine Machine.executeAll_concat h.straight (by omega) hdirect (.inl ?_)
  rw [h.nextAddress]
  unfold next at hon
  by_cases hj : x.Jumps m
  · rw [if_pos hj] at hon ⊢
    omega
  · rw [if_neg hj] at hon ⊢
    omega

/-- A routine that goes on after itself. -/
theorem outcomes_of_straight (hstraight : ∀ c ∈ x.codes target, Machine.Straight c)
    (hjumps : ¬ x.Jumps m) :
    m.outcomes (x.codes target) = x.after target m := by
  rw [Machine.outcomes_straight hstraight, Machine.advance, span_codes, after, next, if_neg hjumps,
    UInt16.ofNat_add, UInt16.ofNat_toNat]

theorem executeAll_of_straight (hstraight : ∀ c ∈ x.codes target, Machine.Straight c)
    (hjumps : ¬ x.Jumps m) (hx : x ≠ .hlt) (h : x.Stays target m) :
    m.executeAll (x.codes target) = .ok (m.outcomes (x.codes target)) := by
  have hin := h.goesOn hx
  rw [next, if_neg hjumps] at hin
  exact Machine.executeAll_straight hstraight (by rwa [span_codes])

theorem performAll_hlt (m : Machine) (target : UInt16) :
    m.performAll (hlt.codes target) = (m.setReg .rv 1).setReg .rf (m.reg .rf ||| Flag.halt) := by
  show (m.perform (setScratch 1)).perform
      (.ofRegisters 12 Register.rf.toByte Register.rv.toByte) = _
  rw [perform_setScratch, perform_or, Machine.setReg_self, Machine.setReg_of_ne (by decide)]
  rfl

theorem halted_hlt (m : Machine) (target : UInt16) :
    (m.performAll (hlt.codes target)).halted = true := by
  have hbit (b : UInt8) : ((b ||| Flag.halt) &&& Flag.halt != 0) = true :=
    Code.forall_byte (by decide +kernel) b
  rw [performAll_hlt, Machine.halted, Machine.setReg_self]
  exact hbit _

/-- The last instruction of `hlt` may stand at the end of memory, since the machine does not go
on. -/
theorem executeAll_hlt (h : hlt.Stays target m) :
    m.executeAll (hlt.codes target) = .ok (m.outcomes (hlt.codes target)) := by
  have hinside : m.ip.toNat + 4 ≤ m.memory.size := h.inside
  have hspan : Code.span [setScratch 1] = 2 := rfl
  have hcodes : ∀ c ∈ [setScratch 1], Machine.Straight c := by simp [Machine.Straight]
  have hhalted : ((m.advance [setScratch 1]).perform
      (.ofRegisters 12 Register.rf.toByte Register.rv.toByte)).halted = true := by
    rw [Machine.advance, Machine.perform_at]
    exact halted_hlt m target
  refine Machine.executeAll_concat hcodes (by omega) ?_ (.inr hhalted)
  simp [Machine.Direct]

/-- **The codes of a routine leave its outcome**, if they are executed without a fault. -/
theorem outcomes_codes (hproper : x.Proper) (target : UInt16) (m : Machine) :
    m.outcomes (x.codes target) = x.after target m := by
  cases x with
  | add | sub | inc | dec | nop | hlt =>
    refine outcomes_of_straight ?_ id
    simp [codes, Machine.Straight]
  | jmp label => exact (jumpsBy_jmp label target m).outcomes
  | jnz r label => exact (jumpsBy_jnz hproper target m).outcomes

/-- **A routine that stays in memory ends without a fault.** -/
theorem executeAll_codes (hproper : x.Proper) (h : x.Stays target m) :
    m.executeAll (x.codes target) = .ok (x.after target m) := by
  rw [← outcomes_codes hproper]
  cases x with
  | add | sub | inc | dec | nop =>
    refine executeAll_of_straight ?_ id (by simp) h
    simp [codes, Machine.Straight]
  | hlt => exact executeAll_hlt h
  | jmp label => exact (jumpsBy_jmp label target m).executeAll (by simp) h
  | jnz r label => exact (jumpsBy_jnz hproper target m).executeAll (by simp) h

/-! ## Effects -/

/-- The registers that the codes of a routine write, except for `nop`, which writes one back. -/
theorem not_mem_overwrites (hx : x ≠ .nop) {q : Register} (hq : q ∉ x.changes) (hrf : q ≠ .rf) :
    ∀ c ∈ x.codes target, q ∉ c.overwrites := by
  cases x with
  | nop => exact absurd rfl hx
  | _ => simp_all [codes, changes]

/-- Only `hlt` writes the flags register; the flags of the other routines are those of their
operations. -/
theorem flags_codes (hproper : x.Proper) (hx : x ≠ .hlt) :
    ∀ c ∈ x.codes target, .rf ∉ c.overwrites ∧
      (c.operation.flags = 0 ∨ c.operation.flags = x.flags) := by
  have hrv : Register.rf ≠ .rv := by decide
  have hpair : Register.rf ≠ .rah ∧ Register.rf ≠ .ral := by decide
  have hr0 : Register.rf ≠ .r0 := by decide
  cases x with
  | hlt => exact absurd rfl hx
  | add r _ | sub r _ | inc r | dec r =>
    have hrf : .rf ≠ r := hproper.2.symm
    refine List.forall_mem_cons.2 ⟨⟨by simpa using hrv, .inl rfl⟩, ?_⟩
    exact List.forall_mem_singleton.2 ⟨by simpa using hrf, .inr rfl⟩
  | jmp | jnz => simp [codes, Operation.flags, hrv, hpair]
  | nop => simp [codes, Operation.flags, hr0]

theorem performAll_nop (m : Machine) (target : UInt16) (q : Register) :
    (m.performAll (nop.codes target)).reg q = m.reg q := by
  show (m.perform (.ofRegisters 12 Register.r0.toByte Register.r0.toByte)).reg q = _
  rw [perform_or, Machine.setReg_reg, UInt8.or_self]
  split
  · rename_i hq
    rw [hq]
  · rfl

theorem computes_registers (m : Machine) (op : Int) {r q : Register} (hr : r ≠ .rf) (hq : q ≠ .rf) :
    m.Computes r q (Code.ofRegisters op r.toByte q.toByte).operation
      (m.perform (.ofRegisters op r.toByte q.toByte)) := by
  have hreg : Register.ofByte (Code.ofRegisters op r.toByte q.toByte).reg = r := ofByte_toByte r
  have hsrc : Register.ofByte (Code.ofRegisters op r.toByte q.toByte).src = q := ofByte_toByte q
  have h := Machine.perform_computes (m := m) (c := .ofRegisters op r.toByte q.toByte)
      (by rwa [hreg]) (by rwa [hsrc])
  rwa [hreg, hsrc] at h

section Arithmetic
variable {r : Register} (hr : r ≠ .rv ∧ r ≠ .rf) (n : UInt8) (target : UInt16)
include hr

theorem performAll_add :
    ((m.performAll ((add r n).codes target)).reg r).toNat = ((m.reg r).toNat + n.toNat) % 256 := by
  have h :=
    ((computes_registers (m.perform (setScratch n)) 8 (q := .rv) hr.2 (by decide)).add rfl).1
  rw [perform_setScratch, Machine.setReg_of_ne hr.1.symm, Machine.setReg_self,
    ← perform_setScratch] at h
  exact h

theorem performAll_sub :
    ((m.performAll ((sub r n).codes target)).reg r).toNat =
      ((m.reg r).toNat - n.toNat : Int) % 256 := by
  have h :=
    ((computes_registers (m.perform (setScratch n)) 10 (q := .rv) hr.2 (by decide)).sub rfl).1
  rw [perform_setScratch, Machine.setReg_of_ne hr.1.symm, Machine.setReg_self,
    ← perform_setScratch] at h
  exact h

end Arithmetic

theorem result_after (hproper : x.Proper) : x.Result m (x.after target m) := by
  cases x with
  | add r n => exact performAll_add hproper n target
  | sub r n => exact performAll_sub hproper n target
  | inc r => exact performAll_add hproper 1 target
  | dec r => exact performAll_sub hproper 1 target
  | hlt => exact halted_hlt m target
  | jmp | jnz | nop => trivial

/-- **What the codes of a routine leave.** -/
theorem does_after (hproper : x.Proper) : x.Does target m (x.after target m) := by
  obtain ⟨hmemory, hcounters⟩ := Machine.performAll_frame (m := m) (direct_codes x target)
  refine ⟨rfl, result_after hproper, ?_, ?_, hmemory, hcounters⟩
  · intro q hq hrf
    by_cases hx : x = .nop
    · subst hx
      exact performAll_nop m target q
    · exact Machine.performAll_reg hrf (not_mem_overwrites hx hq hrf)
  · by_cases hx : x = .hlt
    · subst hx
      have hbit (b : UInt8) : (b ||| Flag.halt) &&& ~~~Flag.halt = b &&& ~~~Flag.halt :=
        Code.forall_byte (by decide +kernel) b
      show (m.performAll (hlt.codes target)).reg .rf &&& ~~~Flag.halt = _
      rw [performAll_hlt, Machine.setReg_self]
      exact hbit _
    · exact Machine.performAll_flags (flags_codes hproper hx)

end Routine

/-! ## Programs -/

open Expansion Layout

namespace SourceItems

variable {s : Settings} {source : Text}

/-- The rows that a call becomes, laid out from an address on. The chain names the calls around
it. -/
def ExpandsTo (a : SourceItems s source) (labels : Table UInt16) (chain : List Site) (c : Call)
    (address : Nat) (rows : List Row) : Prop :=
  ∃ placed, Inlined a.macros (Stack.capacityOf s.maxDepth) chain.reverse [.call c] placed ∧
    Emitted [] labels address placed rows

/-- **The rows of a call stand in the program**, at the address after the rows before them. -/
theorem exists_expansion (a : SourceItems s source) {p : Program}
    (hp : (assemble s source).result = .ok p) {chain : List Site} {c : Call}
    (h : Encloses a.macros a.stmts chain (.call c)) :
    ∃ front rows back, p.rows = front ++ (rows ++ back) ∧
      a.ExpandsTo p.labels chain c (bytesOf front).length rows := by
  obtain ⟨placed, hplaced, -, -, hrows⟩ := (a.built hp).layout
  have hsel : Selected placed := fun entry c calls hmem => hplaced.entry hmem
  obtain ⟨before, piece, after, rfl, hpiece⟩ := hplaced.piece h
  obtain ⟨front, rest, hfront, hbefore, hrest⟩ := hrows.split
  obtain ⟨rows, back, rfl, hown, -⟩ := hrest.split
  have hlength :=
    hbefore.bytes_length fun entry c calls hmem => hsel entry c calls (List.mem_append_left _ hmem)
  rw [Nat.zero_add, ← hlength] at hown
  rw [List.append_nil] at hpiece
  exact ⟨front, rows, back, hfront, piece, hpiece, hown⟩

end SourceItems

/-- **The standard macros do what they say.** In every program whose source includes the standard
library, a call of one of its macros, wherever it stands, is a stretch of rows; executed one after
the other on any machine, they leave what the routine of the call says, and they are executed
without a fault unless they run off the end of memory. Every such call can be made. -/
theorem standard_macros_take_effect (s : Settings) :
    (∀ (source : Text) (p : Program) (a : SourceItems s source),
      (assemble s source).result = .ok p →
      a.IncludesStandard → ∀ (chain : List Site) (c : Call) (x : Routine),
        Encloses a.macros a.stmts chain (.call c) → x.Asked c.gist → x.Proper →
        ∃ front rows back target, p.rows = front ++ (rows ++ back) ∧
          a.ExpandsTo p.labels chain c (bytesOf front).length rows ∧ x.Aims p.labels target ∧
          ∀ m : Machine,
            (∀ m', m.executeAll (rows.map Row.code) = .ok m' → x.Does target m m') ∧
            (x.Stays target m → ∃ m', m.executeAll (rows.map Row.code) = .ok m')) ∧
    ∀ (x : Routine) (path : Text), x.Writable → Grammar.Quotable path →
      s.resolver.find path = some standardSource → 2 < Stack.capacityOf s.maxDepth →
      ∃ (p : Program) (a : SourceItems s (x.sourceWith path)) (c : Call),
        (assemble s (x.sourceWith path)).result = .ok p ∧ a.IncludesStandard ∧
          Encloses a.macros a.stmts [] (.call c) ∧ x.Asked c.gist := by
  refine ⟨?_, fun x path hx hpath hfind hroom => Routine.assembles hx hpath hfind hroom⟩
  intro source p a hp hincludes chain c x henclosed hasked hproper
  have hstd := a.standard (a.built hp).keys.distinct hincludes
  obtain ⟨front, rows, back, hsplit, placed, hplaced, hrows⟩ := a.exists_expansion hp henclosed
  obtain ⟨target, haims, hcodes⟩ := Routine.codes_of_expansion hstd hasked hplaced hrows
  refine ⟨front, rows, back, target, hsplit, ⟨placed, hplaced, hrows⟩, haims, ?_⟩
  intro m
  rw [hcodes]
  constructor
  · intro m' hm'
    rw [Machine.eq_outcomes_of_executeAll hm', Routine.outcomes_codes hproper]
    exact Routine.does_after hproper
  · intro hstays
    exact ⟨_, Routine.executeAll_codes hproper hstays⟩

/-- A call of a macro whose body calls another, on a machine where the register is zero. -/
theorem standard_macros_take_effect_dec :
    ∃ (p : Program) (a : SourceItems { resolver := .standard }
      ((Routine.dec .rsp).sourceWith standardPath)) (c : Call)
      (front rows : List Row) (m : Machine),
      (Routine.dec .rsp).sourceWith standardPath = utf8 "@include \"std.asm\"\ndec rsp" ∧
      (assemble { resolver := .standard } ((Routine.dec .rsp).sourceWith standardPath)).result =
        .ok p ∧
      a.IncludesStandard ∧ Encloses a.macros a.stmts [] (.call c) ∧
        (Routine.dec .rsp).Asked c.gist ∧
      a.ExpandsTo p.labels [] c (bytesOf front).length rows ∧ (Routine.dec .rsp).Proper ∧
      Machine.executeAll {} (rows.map Row.code) = .ok m ∧ (m.reg .rsp).toNat = 255 ∧ m.ip = 4 := by
  have hroom : 2 < Stack.capacityOf ({ resolver := .standard } : Settings).maxDepth := by decide
  have hproper : (Routine.dec .rsp).Proper := ⟨by decide, by decide⟩
  have hsize : ({} : Machine).memory.size = 49152 := Array.size_replicate
  have hstays (target : UInt16) : (Routine.dec .rsp).Stays target {} :=
    ⟨by rw [hsize]; decide, fun _ => by rw [hsize]; exact (by decide : 4 < 49152)⟩
  obtain ⟨heffect, hcalls⟩ := standard_macros_take_effect { resolver := .standard }
  obtain ⟨p, a, c, hp, hincludes, henclosed, hasked⟩ :=
    hcalls (.dec .rsp) standardPath (by simp [Routine.Writable, Routine.label?]) (by decide +kernel)
      rfl hroom
  obtain ⟨front, rows, back, target, -, hexpands, -, hmachine⟩ :=
    heffect _ p a hp hincludes [] c _ henclosed hasked hproper
  obtain ⟨hdoes, hruns⟩ := hmachine {}
  obtain ⟨m, hm⟩ := hruns (hstays target)
  have hresult : ((m.reg .rsp).toNat : Int) = 255 := (hdoes m hm).result
  exact ⟨p, a, c, front, rows, m, by decide +kernel, hp, hincludes, henclosed, hasked, hexpands,
    hproper, hm, by omega, (hdoes m hm).ip⟩

end Octet
