import Octet.Emulator
import Octet.Proofs.Assembly

/-!
# What is assembled is what is fetched

* `Machine.fetch_of_bytes` — a machine fetches the canonical code whose bytes stand at its
  instruction pointer.
* `Emulator.reset_ok` — a program that fits is loaded whatever the state was before.
* `assembled_code_is_fetched` — every row of an assembled program is read back from its image, and
  fetched from memory after a reset.
-/

namespace Octet

open Layout

namespace Machine

theorem memoryOf_toList (image : Text) :
    (memoryOf image).toList = image ++ List.replicate (memorySize - image.length) 0 := by
  simp [memoryOf]

theorem bytesAt_eq (m : Machine) (address : Nat) :
    m.bytesAt address = (m.memory.toList.drop address).take longest := by
  rw [bytesAt, Array.toList_extract, List.extract_eq_take_drop, Nat.add_sub_cancel_left]

/-- A machine fetches the code whose bytes stand at its instruction pointer. -/
theorem fetch_of_bytes {m : Machine} {c : Code} {before after : Text} (hc : c.Canonical)
    (hm : m.memory.toList = before ++ (c.bytes ++ after)) (hip : m.ip.toNat = before.length) :
    m.fetch = .ok c := by
  have hpos : 0 < c.bytes.length := List.length_pos_iff.2 c.bytes_ne_nil
  have hle : c.bytes.length ≤ longest := c.bytes_length_le
  have hsize : m.memory.size = before.length + (c.bytes.length + after.length) := by
    rw [← Array.length_toList, hm, List.length_append, List.length_append]
  have hbytes : m.bytesAt m.ip.toNat = c.bytes ++ after.take (longest - c.bytes.length) := by
    rw [bytesAt_eq, hm, hip, List.drop_left, List.take_append, List.take_of_length_le hle]
  rw [fetch, if_neg (by omega), hbytes, Code.decode_bytes hc]

end Machine

/-- A program that fits is loaded, whatever the state was before. -/
theorem Emulator.reset_ok (e : Emulator) (h : e.program.image.length ≤ memorySize) :
    ∃ m, e.reset = ({ e with machine := m }, none) ∧
      m.memory = Machine.memoryOf e.program.image := by
  refine ⟨{ e.prepared.reset with memory := Machine.memoryOf e.program.image }, ?_, rfl⟩
  rw [reset, start, Machine.load, if_neg (by omega)]

/-- **What is assembled is what the machine fetches.** Every row of an assembled program is read
back from the image at its address. If the image fits, a reset from any state loads it with zeros
behind it, and with the instruction pointer at the address of a row the machine fetches the code of
the row. -/
theorem assembled_code_is_fetched (s : Settings) (source : Text) (p : Program)
    (h : (assemble s source).result = .ok p) :
    (∀ r ∈ p.rows, ∃ n : Nat, r.ip = n ∧ Code.decode (p.image.drop n) = .ok r.code) ∧
      (p.image.length ≤ memorySize → ∀ e : Emulator, e.program = p →
        ∃ m, e.reset = ({ e with machine := m }, none) ∧
          m.memory.toList = p.image ++ List.replicate (memorySize - p.image.length) 0 ∧
          ∀ r ∈ p.rows, ∃ ip : UInt16, (ip.toNat : Int) = r.ip ∧
            { m with ip := ip }.fetch = .ok r.code) := by
  obtain ⟨hrows, hcanonical⟩ := assemble_rows h
  constructor
  · intro r hr
    obtain ⟨before, after, himage, hip⟩ := hrows.bytes_at hr
    refine ⟨before.length, hip, ?_⟩
    rw [show p.image = before ++ (r.code.bytes ++ after) from himage, List.drop_left]
    exact Code.decode_bytes (hcanonical r hr) after
  · rintro hfits e rfl
    obtain ⟨m, hreset, hmemory⟩ := e.reset_ok hfits
    have hlist := Machine.memoryOf_toList e.program.image
    rw [← hmemory] at hlist
    refine ⟨m, hreset, hlist, ?_⟩
    intro r hr
    obtain ⟨before, after, himage, hip⟩ := hrows.bytes_at hr
    have himage : e.program.image = before ++ (r.code.bytes ++ after) := himage
    have hlt : before.length < 65536 := by
      have := congrArg List.length himage
      simp only [List.length_append] at this
      unfold memorySize at hfits
      omega
    have hexact : (UInt16.ofNat before.length).toNat = before.length := by
      rw [UInt16.toNat_ofNat']
      exact Nat.mod_eq_of_lt hlt
    have hbytes : m.memory.toList =
        before ++
          (r.code.bytes ++ (after ++ List.replicate (memorySize - e.program.image.length) 0)) := by
      rw [hlist, himage, List.append_assoc, List.append_assoc]
    exact ⟨UInt16.ofNat before.length, by rw [hexact, hip],
      Machine.fetch_of_bytes (hcanonical r hr) hbytes hexact⟩

theorem assembled_code_is_fetched_after_any_state :
    ∃ p, (assemble {} (utf8 "lda #1234h\nmov r3, #7\nadd r1, r2\n$end:\njnz r3\n")).result = .ok p ∧
      p.rows.length = 4 ∧ p.image.length ≤ memorySize ∧
      (∀ r ∈ p.rows, ∃ n : Nat, r.ip = n ∧ Code.decode (p.image.drop n) = .ok r.code) ∧
      ∃ m,
        Emulator.reset { machine := { ip := 7, memory := #[1, 2, 3], ticks := 5 }, program := p } =
          ({ machine := m, program := p }, none) ∧
        m.memory.toList = p.image ++ List.replicate (memorySize - p.image.length) 0 ∧
        ∀ r ∈ p.rows, ∃ ip : UInt16, (ip.toNat : Int) = r.ip ∧
          { m with ip := ip }.fetch = .ok r.code := by
  have hrun :
      (assemble {} (utf8 "lda #1234h\nmov r3, #7\nadd r1, r2\n$end:\njnz r3\n")).result.toOption.map
      (fun p => (p.rows.length, p.image.length)) = some (4, 8) := by
    simp only [assemble, Expansion.expandIncludes, Expansion.expandMacros,
      Worklist.expand_eq_nested]
    decide +kernel
  obtain ⟨p, hp, hl⟩ := Option.map_eq_some_iff.1 hrun
  have hok := Except.toOption_eq_some.1 hp
  have hfits : p.image.length ≤ memorySize := by
    rw [(Prod.mk.inj hl).2]
    decide
  obtain ⟨hdecode, hload⟩ := assembled_code_is_fetched _ _ p hok
  exact ⟨p, hok, (Prod.mk.inj hl).1, hfits, hdecode, hload hfits _ rfl⟩

end Octet
