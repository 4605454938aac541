import Octet.Proofs.Loading
import Octet.Proofs.Ticks

/-!
# Execution follows the listing

Code and data share one memory, so a program can overwrite itself. As long as it stores nothing into
its own image, what the machine fetches at the address of a row is the code of that row, and the
emulator shows and blames that row.

* `Layout.Contiguous.find?_holds`, `Layout.Contiguous.lookup_code` — a row is found by its
  addresses;
* `Emulator.Carries` — the emulator has a program in memory; `Emulator.Carries.tick`: a tick that
  spares the image keeps it there;
* `Emulator.Undisturbed` — runs of ticks that spare the image;
* `Emulator.Follows` — the emulator is at a row and does as the row says;
* `execution_follows_listing` — **whenever such a run is at a row, it follows the row**.
-/

namespace Octet

/-! ## Rows by address -/

namespace Layout

variable {address n i : Nat} {rows : List Row} {r : Row}

theorem Contiguous.le_ip (h : Contiguous address rows) (hr : r ∈ rows) :
    (address : Int) ≤ r.ip := by
  obtain ⟨i, hi⟩ := List.getElem?_of_mem hr
  rw [h.ip_eq hi]
  omega

/-- No other row holds an address of a row. -/
theorem Contiguous.find?_holds (h : Contiguous address rows) (hr : r ∈ rows)
    (hn : r.holds n = true) :
    rows.find? (·.holds n) = some r := by
  induction rows generalizing address with
  | nil => cases hr
  | cons q rows ih =>
    rcases List.mem_cons.1 hr with rfl | hmem
    · exact List.find?_cons_of_pos hn
    · have hq : ¬ q.holds n = true := by
        have hle := h.2.le_ip hmem
        have hip := h.1
        simp only [Row.holds, Bool.and_eq_true, decide_eq_true_eq] at hn ⊢
        rw [q.code.bytes_length] at hle
        omega
      rw [List.find?_cons, Bool.eq_false_iff.2 hq]
      exact ih h.2 hmem

/-- A row ends where the next one starts, and the last one where the image ends. -/
theorem Contiguous.next_ip (h : Contiguous 0 rows) (hr : rows[i]? = some r) :
    r.ip + (r.code.bytes.length : Int) =
      match rows[i + 1]? with
      | some r' => r'.ip
      | none => ((bytesOf rows).length : Int) := by
  have hip := h.ip_eq hr
  have htake : bytesOf (rows.take (i + 1)) = bytesOf (rows.take i) ++ r.code.bytes := by
    rw [List.take_add_one, hr]
    simp [bytesOf]
  cases hnext : rows[i + 1]? with
  | some r' =>
    simp only [h.ip_eq hnext, htake, List.length_append]
    omega
  | none =>
    have hall : rows.take (i + 1) = rows :=
      List.take_of_length_le (List.getElem?_eq_none_iff.1 hnext)
    rw [hall] at htake
    simp only [htake, List.length_append]
    omega

theorem Contiguous.end_le (h : Contiguous 0 rows) (hr : r ∈ rows) :
    r.ip + (r.code.bytes.length : Int) ≤ ((bytesOf rows).length : Int) := by
  obtain ⟨before, after, himage, hip⟩ := h.bytes_at hr
  rw [himage, hip]
  simp only [List.length_append]
  omega

theorem toNat_ofInt {k : Int} (h : k = n) (hn : n < 65536) : (UInt16.ofInt k).toNat = n := by
  rw [UInt16.ofInt, UInt16.toNat_ofNat', h]
  omega

/-- The code that starts at the address of a row is found. -/
theorem Contiguous.lookup_code {ip : UInt16} (h : Contiguous address rows) (hr : r ∈ rows)
    (hip : r.ip = (ip.toNat : Int)) :
    (rows.map fun r => (UInt16.ofInt r.ip, r.code)).lookup ip = some r.code := by
  have hword : ip.toNat < 65536 := ip.toNat_lt
  induction rows generalizing address with
  | nil => cases hr
  | cons q rows ih =>
    rw [List.map_cons, List.lookup_cons]
    rcases List.mem_cons.1 hr with rfl | hmem
    · have hself : ip = UInt16.ofInt r.ip := UInt16.toNat_inj.1 (toNat_ofInt hip hword).symm
      rw [← hself, beq_self_eq_true]
    · have hlt : address < ip.toNat := by
        have hle := h.2.le_ip hmem
        have hpos : 0 < q.code.bytes.length := List.length_pos_iff.2 q.code.bytes_ne_nil
        omega
      have hne : (ip == UInt16.ofInt q.ip) = false := by
        rw [beq_eq_false_iff_ne]
        intro he
        have hq := toNat_ofInt h.1 (by omega)
        rw [← he] at hq
        omega
      rw [hne]
      exact ih h.2 hmem

end Layout

namespace Emulator

variable {e e' : Emulator} {p : Program}

/-! ## Runs that spare the image -/

/-- The address that the next tick stores to. -/
def stored? (e : Emulator) : Option Nat :=
  e.upcoming?.bind fun c => (e.machine.stores? c).filter (· < e.machine.memory.size)

/-- The emulator comes from `e` by ticks that store nothing below `size`. The ticks may fail, and
may go on after a failure. -/
inductive Undisturbed (size : Nat) (e : Emulator) : Emulator → Prop
  | start : Undisturbed size e e
  | tick {e' : Emulator} (h : Undisturbed size e e')
    (spares : ∀ a, e'.stored? = some a → size ≤ a) :
    Undisturbed size e e'.tick.1

/-- The emulator has a program, and the image of the program stands at the start of memory. -/
structure Carries (e : Emulator) (p : Program) : Prop where
  program : e.program = p
  image : p.image <+: e.machine.memory.toList

theorem prefix_setIfInBounds {image : Text} {memory : Array UInt8} {a : Nat} {v : UInt8}
    (h : image <+: memory.toList) (ha : image.length ≤ a) :
    image <+: (memory.setIfInBounds a v).toList := by
  obtain ⟨rest, hrest⟩ := h
  rw [Array.toList_setIfInBounds, ← hrest, List.set_append_right _ _ ha]
  exact List.prefix_append ..

/-- An instruction keeps the image if it stores nothing into it. -/
theorem Carries.execute {c : Code} (h : e.Carries p) (hc : e.upcoming? = some c)
    (spares : ∀ a, e.stored? = some a → p.image.length ≤ a) :
    p.image <+: (e.prepared.execute c).1.memory.toList := by
  rcases e.prepared.execute_memory c with hm | hm
  · rw [hm]
    exact h.image
  · rw [hm, Machine.perform_memory]
    cases hs : e.prepared.stores? c with
    | none => exact h.image
    | some a =>
      refine prefix_setIfInBounds h.image ?_
      -- A store outside of memory does nothing, and the image lies inside.
      by_cases hin : a < e.machine.memory.size
      · apply spares
        have hs' : e.machine.stores? c = some a := hs
        simp [stored?, hc, hs', hin]
      · have hle := h.image.length_le
        have hsize : e.machine.memory.toList.length = e.machine.memory.size := Array.length_toList
        omega

/-- **A tick that spares the image** keeps it. -/
theorem Carries.tick (h : e.Carries p) (spares : ∀ a, e.stored? = some a → p.image.length ≤ a) :
    e.tick.1.Carries p := by
  refine ⟨by rw [tick_program, h.program], ?_⟩
  obtain ⟨-, -, ht⟩ | ⟨-, -, f, ht⟩ | ⟨c, m, f, hc, hx, ht⟩ | ⟨c, m, hc, hx, ht⟩ := e.tick_cases
  · rw [ht]
    exact h.image
  · rw [ht]
    exact h.image
  · have himage := h.execute hc spares
    rw [hx] at himage
    rw [ht]
    exact himage
  · have himage := h.execute hc spares
    rw [hx] at himage
    rw [ht]
    exact himage

theorem Undisturbed.carries (h : Undisturbed p.image.length e e') (hstart : e.Carries p) :
    e'.Carries p := by
  induction h with
  | start => exact hstart
  | tick _ spares ih => exact ih.tick spares

theorem carries_reset (e : Emulator) (h : e.program.image.length ≤ memorySize) :
    e.reset.1.Carries e.program := by
  obtain ⟨m, hreset, hmemory⟩ := e.reset_ok h
  refine ⟨by rw [hreset], ?_⟩
  rw [hreset, hmemory, Machine.memoryOf_toList]
  exact List.prefix_append ..

/-! ## At a row -/

/-- The emulator is at a row of a program, and does as the row says. -/
structure Follows (e : Emulator) (p : Program) (i : Nat) (r : Row) : Prop where
  /-- The emulator shows the code of the row. -/
  code : e.code = r.code
  /-- The emulator shows the line of the row. -/
  line : e.line = r.line
  /-- Unless the limit is reached, the next tick executes the code of the row. -/
  upcoming : e.atLimit = false → e.upcoming? = some r.code
  /-- The tick is counted if that ends well. -/
  executes : e.atLimit = false → ∀ m, e.prepared.execute r.code = (m, none) →
    e.tick = ({ e with machine := { m with ticks := m.ticks + 1 } }, .ok m.halted)
  /-- The tick blames a fault on the row. -/
  blames : e.atLimit = false → ∀ m f, e.prepared.execute r.code = (m, some f) →
    e.tick = ({ e with machine := m }, .error (.running r.file r.line e.machine.ip f))
  /-- After a tick that succeeds without a jump the emulator is at the next row, or at the end of
  the image. -/
  next : ∀ e' done, e.tick = (e', .ok done) → ¬ e.machine.Jumps r.code →
    (e'.machine.ip.toNat : Int) =
      match p.rows[i + 1]? with
      | some r' => r'.ip
      | none => (p.image.length : Int)

section
variable {i : Nat} {r : Row} (hrows : Layout.Contiguous 0 p.rows) (hr : p.rows[i]? = some r)
  (hip : r.ip = (e.machine.ip.toNat : Int))
include hrows hr hip

theorem rowAt?_ip : p.rowAt? e.machine.ip.toNat = some r := by
  have hpos : 0 < r.code.bytes.length := List.length_pos_iff.2 r.code.bytes_ne_nil
  refine hrows.find?_holds (List.mem_of_getElem? hr) ?_
  rw [r.code.bytes_length] at hpos
  simp only [Row.holds, Bool.and_eq_true, decide_eq_true_eq]
  omega

/-- The address after a row is where the next row starts, and does not wrap. -/
theorem following_row (hfits : p.image.length ≤ memorySize) :
    ((UInt16.ofNat (e.machine.ip.toNat + r.code.length)).toNat : Int) =
      match p.rows[i + 1]? with
      | some r' => r'.ip
      | none => (p.image.length : Int) := by
  have hend : r.ip + (r.code.bytes.length : Int) ≤ (p.image.length : Int) :=
    hrows.end_le (List.mem_of_getElem? hr)
  refine Eq.trans ?_ (hrows.next_ip hr)
  rw [r.code.bytes_length] at hend ⊢
  rw [UInt16.toNat_ofNat', hip]
  unfold memorySize at hfits
  omega

variable (h : e.Carries p)
include h

theorem Carries.fetch (hcanonical : r.code.Canonical) : e.machine.fetch = .ok r.code := by
  obtain ⟨before, after, hbytes, hbefore⟩ := hrows.bytes_at (List.mem_of_getElem? hr)
  obtain ⟨rest, hrest⟩ := h.image
  have hmemory : e.machine.memory.toList = before ++ (r.code.bytes ++ (after ++ rest)) := by
    rw [← hrest, show p.image = before ++ (r.code.bytes ++ after) from hbytes, List.append_assoc,
      List.append_assoc]
  exact Machine.fetch_of_bytes hcanonical hmemory (by omega)

/-- **An emulator with its program in memory that is at a row follows the row**, unless it is
halted. -/
theorem Carries.follows (hcanonical : r.code.Canonical) (hfits : p.image.length ≤ memorySize)
    (hrunning : e.machine.halted = false) : e.Follows p i r := by
  have hrow := rowAt?_ip hrows hr hip
  have hfetch := Carries.fetch hrows hr hip h hcanonical
  have hupcoming (hlimit : e.atLimit = false) : e.upcoming? = some r.code :=
    upcoming?_eq_some.2 ⟨hrunning, hlimit, hfetch⟩
  obtain rfl := h.program
  constructor
  case code =>
    rw [code, Program.codeAt?, Program.codes, hrows.lookup_code (List.mem_of_getElem? hr) hip]
    rfl
  case line =>
    rw [line, row?, hrow]
  case upcoming => exact hupcoming
  case executes =>
    intro hlimit m hx
    exact tick_of_ok (hupcoming hlimit) hx
  case blames =>
    intro hlimit m f hx
    rw [tick_of_fault (hupcoming hlimit) hx, blame, hrow]
  case next =>
    intro e' done ht hjump
    obtain ⟨hhalt, -⟩ | ⟨-, -, f, ht'⟩ | ⟨c, m, f, -, -, ht'⟩ | ⟨c, m, hc, hx, ht'⟩ := e.tick_cases
    · cases hhalt.symm.trans hrunning
    · cases ht'.symm.trans ht
    · cases ht'.symm.trans ht
    · cases ht'.symm.trans ht
      obtain ⟨-, -, hc⟩ := upcoming?_eq_some.1 hc
      cases hc.symm.trans hfetch
      have hnext : e.prepared.nextAddress r.code = e.machine.ip.toNat + r.code.length :=
        Machine.nextAddress_of_not_jumps hjump
      rw [Machine.execute_ok hx, hnext]
      exact following_row hrows hr hip hfits

end

/-- A run goes on through a row whose instruction stays within memory and spares the image. -/
theorem Undisturbed.advance {size i : Nat} {r : Row} {e₀ : Emulator} (h : Undisturbed size e₀ e)
    (hf : e.Follows p i r) (hlimit : e.atLimit = false) (hout : e.machine.outside? r.code = none)
    (hnext : e.machine.nextAddress r.code < e.machine.memory.size)
    (spares : ∀ a, e.machine.stores? r.code = some a → size ≤ a) :
    ∃ e', Undisturbed size e₀ e' ∧ e'.program = e.program ∧ e'.tickLimit = e.tickLimit ∧
      (∀ q, e'.machine.reg q = (e.machine.perform r.code).reg q) ∧
      e'.machine.memory.size = e.machine.memory.size ∧
      e'.machine.ip = UInt16.ofNat (e.machine.nextAddress r.code) := by
  have hstored : ∀ a, e.stored? = some a → size ≤ a := by
    intro a ha
    rw [stored?, hf.upcoming hlimit, Option.bind_some, Option.filter_eq_some_iff] at ha
    exact spares a ha.1
  refine ⟨_, h.tick hstored, ?_⟩
  rw [hf.executes hlimit _ (Machine.execute_of_inside hout hnext), perform_prepared]
  exact ⟨rfl, rfl, fun _ => rfl, e.machine.perform_memory_size r.code, rfl⟩

/-- After a reset a program that fits starts at address zero with empty registers. -/
theorem reset_machine (e : Emulator) (h : e.program.image.length ≤ memorySize) :
    ∃ memory : Array UInt8, memory.size = memorySize ∧
      e.reset.1 = { e with machine := { memory := memory, verbose := e.verbose } } := by
  refine ⟨Machine.memoryOf e.program.image, ?_, ?_⟩
  · rw [← Array.length_toList, Machine.memoryOf_toList, List.length_append, List.length_replicate]
    omega
  · rw [reset, start, Machine.load, if_neg (by omega)]
    rfl

end Emulator

/-- **Execution follows the listing.** Take any assembled program that fits, and any run of ticks
after a reset that stores nothing into the image. Whenever the emulator is not halted and its
instruction pointer is at a row, it shows that row, the next tick executes the code of that row and
blames faults on it, and without a jump it goes on at the next row. -/
theorem execution_follows_listing (s : Settings) (source : Text) (p : Program)
    (h : (assemble s source).result = .ok p) (hfits : p.image.length ≤ memorySize) (e₀ e : Emulator)
    (hp : e₀.program = p) (hrun : Emulator.Undisturbed p.image.length e₀.reset.1 e)
    (hrunning : e.machine.halted = false) (i : Nat) (r : Row) (hr : p.rows[i]? = some r)
    (hip : r.ip = (e.machine.ip.toNat : Int)) : e.Follows p i r := by
  obtain ⟨hrows, hcanonical⟩ := assemble_rows h
  subst hp
  have hcarries := hrun.carries (e₀.carries_reset hfits)
  exact Emulator.Carries.follows hrows hr hip hcarries (hcanonical r (List.mem_of_getElem? hr))
    hfits hrunning

theorem execution_follows_listing_past_a_push :
    ∃ p e r, (assemble {} (utf8 "mov rsp, #80h\npsh r1\nnot r1\n")).result = .ok p ∧
      p.image.length ≤ memorySize ∧
      Emulator.Undisturbed p.image.length (Emulator.reset { program := p }).1 e ∧
        e.machine.halted = false ∧
      p.rows[2]? = some r ∧ r.ip = (e.machine.ip.toNat : Int) ∧ e.Follows p 2 r := by
  have hrows : (assemble {} (utf8 "mov rsp, #80h\npsh r1\nnot r1\n")).result.toOption.map
      Program.rows = some [
      ⟨[], 1, 0, [utf8 "mov", utf8 "rsp", utf8 "#128"], { op := 1, reg := 13, imm := 128 }⟩,
      ⟨[], 2, 2, [utf8 "psh", utf8 "r1"], { op := 5, reg := 1 }⟩,
      ⟨[], 3, 3, [utf8 "not", utf8 "r1"], { op := 14, reg := 1 }⟩] := by
    simp only [assemble, Expansion.expandIncludes, Expansion.expandMacros,
      Worklist.expand_eq_nested]
    decide +kernel
  obtain ⟨p, hp, hrows⟩ := Option.map_eq_some_iff.1 hrows
  have hok := Except.toOption_eq_some.1 hp
  have himage : p.image.length = 4 := by
    rw [Program.image, hrows]
    decide
  have hfits : p.image.length ≤ memorySize := by
    rw [himage]
    decide
  have follows {e : Emulator} := execution_follows_listing {} _ p hok hfits { program := p } e rfl
  obtain ⟨memory, hsize, hreset⟩ := Emulator.reset_machine { program := p } hfits
  -- The first tick sets the stack pointer.
  have hstart : Emulator.Undisturbed p.image.length (Emulator.reset { program := p }).1
      { machine := { memory := memory }, program := p } := hreset ▸ .start
  have hzero (q : Register) : (Vector.replicate 16 (0 : UInt8)).get q = 0 :=
    Vector.getElem_replicate q.isLt
  have hfirst :=
    follows hstart (by rw [Machine.halted, Machine.reg, hzero]; rfl) 0 _ (by rw [hrows]; rfl) rfl
  obtain ⟨e₁, hrun₁, -, hlimit₁, hreg₁, hsize₁, hip₁⟩ :=
    hstart.advance hfirst rfl rfl (show 2 < memory.size by rw [hsize]; decide)
      (by intro a ha; cases ha)
  have hreg₁ (q : Register) : e₁.machine.reg q = if Register.rsp = q then 0x80 else 0 := by
    refine (hreg₁ q).trans ((Machine.setReg_reg ..).trans ?_)
    exact congrArg (if Register.rsp = q then 0x80 else ·) (hzero q)
  have hip₁ : e₁.machine.ip = 2 := hip₁
  have hsize₁ : e₁.machine.memory.size = memorySize := hsize₁.trans hsize
  -- The second tick pushes behind the image.
  have hsecond :=
    follows hrun₁ (by rw [Machine.halted, hreg₁]; rfl) 1 _ (by rw [hrows]; rfl) (by rw [hip₁]; rfl)
  have haccess : e₁.machine.accessed? { op := 5, reg := 1 } = some 0x80 :=
    congrArg (fun b : UInt8 => some b.toNat) (hreg₁ .rsp)
  have hin : e₁.machine.outside? { op := 5, reg := 1 } = none := by
    rw [Machine.outside?, haccess, hsize₁]
    rfl
  have hnext : e₁.machine.nextAddress { op := 5, reg := 1 } = 3 :=
    congrArg (fun ip : UInt16 => ip.toNat + 1) hip₁
  have hspares : ∀ a, e₁.machine.stores? { op := 5, reg := 1 } = some a → p.image.length ≤ a := by
    intro a ha
    rw [himage, ← Option.some.inj (haccess.symm.trans ha)]
    decide
  obtain ⟨e₂, hrun₂, -, -, hreg₂, -, hip₂⟩ :=
    hrun₁.advance hsecond (by rw [Emulator.atLimit, hlimit₁]; rfl) hin
    (by rw [hnext, hsize₁]; decide) hspares
  have hrunning₂ : e₂.machine.halted = false := by
    have hrf : e₂.machine.reg .rf = e₁.machine.reg .rf := (hreg₂ _).trans (Machine.setReg_reg ..)
    rw [Machine.halted, hrf, hreg₁]
    rfl
  rw [hnext] at hip₂
  have hrow : p.rows[2]? = some ⟨[], 3, 3, [utf8 "not", utf8 "r1"], { op := 14, reg := 1 }⟩ := by
    rw [hrows]
    rfl
  have hat : (3 : Int) = (e₂.machine.ip.toNat : Int) := by
    rw [hip₂]
    rfl
  exact ⟨p, e₂, _, hok, hfits, hrun₂, hrunning₂, hrow, hat, follows hrun₂ hrunning₂ 2 _ hrow hat⟩

end Octet
