import Octet.Code

/-!
# Encodings are read back

* `Shape.size` — the number of bytes of an operand layout; `Code.bytes_length`: every encoding has
  the length that the catalog gives its operation.
* `Code.Canonical` — codes that hold nothing beyond what their layout encodes.
* `Code.decode_bytes` — a canonical code is read back from its encoding, whatever bytes follow.
* `Code.Reads`, `Code.reads_of_decode` — how a code is read from any bytes.

The catalog is used only through `length_of_mem`, `op_of_mem` and `ofOp?_of_mem`: lengths follow
layouts, and operation numbers are distinct and fit four bits.
-/

namespace Octet

/-! ## The catalog -/

/-- The number of bytes of an operand layout. -/
def Shape.size : Shape → Nat
  | undefined => 1
  | registerRegister => 2
  | registerLiteral => 2
  | register => 1
  | literal => 3

namespace Instruction

theorem length_of_mem : ∀ {i : Instruction}, i ∈ catalog → i.length = i.shape.size := by decide

theorem op_of_mem : ∀ {i : Instruction}, i ∈ catalog → 0 ≤ i.op ∧ i.op < 16 := by decide

theorem ofOp?_of_mem : ∀ {i : Instruction}, i ∈ catalog → ofOp? i.op = some i := by decide

theorem mem_of_ofOp? {op : Int} {i : Instruction} (h : ofOp? op = some i) : i ∈ catalog :=
  List.mem_of_find?_eq_some h

theorem mem_of_find? {key : Text} {i : Instruction} (h : find? key = some i) : i ∈ catalog :=
  List.mem_of_find?_eq_some h

end Instruction

namespace Code

/-! ## Lengths -/

theorem length_eq_size (c : Code) : c.length = c.shape.size := by
  unfold length shape
  cases h : c.entry? with
  | none => rfl
  | some i => exact Instruction.length_of_mem (Instruction.mem_of_ofOp? h)

theorem bytes_length_eq_size (c : Code) : c.bytes.length = c.shape.size := by
  unfold bytes
  cases c.shape <;> rfl

/-- **An encoding is as long as the catalog says.** -/
theorem bytes_length (c : Code) : c.bytes.length = c.length := by
  rw [bytes_length_eq_size, length_eq_size]

theorem bytes_ne_nil (c : Code) : c.bytes ≠ [] := by
  unfold bytes
  cases c.shape <;> simp

theorem length_pos (c : Code) : 0 < c.length := by
  rw [← bytes_length]
  exact List.length_pos_iff.2 c.bytes_ne_nil

theorem bytes_length_le (c : Code) : c.bytes.length ≤ 3 := by
  rw [bytes_length_eq_size]
  cases c.shape <;> decide

/-! ## Halves of bytes -/

/-- What holds of the 256 numbers of bytes holds of every byte. -/
@[elab_as_elim]
theorem forall_byte {motive : UInt8 → Prop} (h : ∀ n, n < 256 → motive (UInt8.ofNat n))
    (b : UInt8) : motive b := by
  have hb := h b.toNat b.toNat_lt
  rwa [UInt8.ofNat_toNat] at hb

theorem nibble_lt (c : Code) : c.nibble < 16 := by
  unfold nibble
  omega

theorem nibble_eq {c : Code} (h : 0 ≤ c.op ∧ c.op < 16) : (c.nibble : Int) = c.op := by
  unfold nibble
  omega

theorem toNat_lowHalf (b : UInt8) : (b &&& 0xF).toNat = b.toNat % 16 := by
  rw [UInt8.toNat_and]
  exact Nat.and_two_pow_sub_one_eq_mod _ 4

theorem toNat_highHalf (b : UInt8) : (b >>> 4).toNat = b.toNat / 16 := by
  rw [UInt8.toNat_shiftRight]
  exact Nat.shiftRight_eq_div_pow _ 4

theorem opByte_toNat (c : Code) : c.opByte.toNat = c.nibble * 16 := by
  have := c.nibble_lt
  unfold opByte
  rw [UInt8.toNat_ofNat']
  omega

theorem firstByte_toNat (c : Code) : c.firstByte.toNat = c.nibble * 16 + c.reg.toNat % 16 := by
  have hlow : c.reg.toNat % 16 < 2 ^ 4 := Nat.mod_lt _ (by decide)
  have hor := Nat.two_pow_add_eq_or_of_lt hlow c.nibble
  unfold firstByte
  rw [UInt8.toNat_or, opByte_toNat, toNat_lowHalf, Nat.mul_comm, ← hor]

theorem firstByte_high (c : Code) : (c.firstByte >>> 4).toNat = c.nibble := by
  rw [toNat_highHalf, firstByte_toNat]
  omega

theorem opByte_high (c : Code) : (c.opByte >>> 4).toNat = c.nibble := by
  rw [toNat_highHalf, opByte_toNat]
  omega

theorem firstByte_low {c : Code} (h : c.reg < 16) : c.firstByte &&& 0xF = c.reg := by
  have hr : c.reg.toNat < 16 := h
  apply UInt8.toNat_inj.1
  rw [toNat_lowHalf, firstByte_toNat]
  omega

/-- A register number survives in the high half of a byte. -/
theorem highHalf_shifted {b : UInt8} (h : b < 16) : ((b &&& 0xF) <<< 4) >>> 4 = b := by
  have hb : b.toNat < 16 := h
  apply UInt8.toNat_inj.1
  rw [toNat_highHalf, UInt8.toNat_shiftLeft, toNat_lowHalf, Nat.shiftLeft_eq]
  simp
  omega

theorem toNat_word (hi lo : UInt8) : (word hi lo).toNat = hi.toNat * 256 + lo.toNat := by
  have hhi := hi.toNat_lt
  have hlo : lo.toNat < 2 ^ 8 := lo.toNat_lt
  have hor := Nat.two_pow_add_eq_or_of_lt hlo hi.toNat
  have hshift : (hi.toUInt16 <<< 8).toNat = 2 ^ 8 * hi.toNat := by
    rw [UInt16.toNat_shiftLeft, UInt8.toNat_toUInt16]
    simp [Nat.shiftLeft_eq]
    omega
  rw [word, UInt16.toNat_or, hshift, UInt8.toNat_toUInt16, ← hor]
  omega

theorem toNat_highByte (a : UInt16) : (a >>> 8).toUInt8.toNat = a.toNat / 256 := by
  have ha : a.toNat < 65536 := a.toNat_lt
  rw [UInt16.toNat_toUInt8, UInt16.toNat_shiftRight]
  simp [Nat.shiftRight_eq_div_pow]
  omega

/-- An address survives as two bytes. -/
theorem word_bytes (a : UInt16) : word (a >>> 8).toUInt8 a.toUInt8 = a := by
  apply UInt16.toNat_inj.1
  rw [toNat_word, toNat_highByte, UInt16.toNat_toUInt8]
  omega

theorem byte_bytes {a : UInt16} (h : a < 256) : a.toUInt8.toUInt16 = a := by
  have ha : a.toNat < 256 := h
  apply UInt16.toNat_inj.1
  rw [UInt8.toNat_toUInt16, UInt16.toNat_toUInt8]
  omega

/-! ## Reading back -/

/-- A code that holds nothing beyond what its layout encodes. -/
structure Canonical (c : Code) : Prop where
  op : 0 ≤ c.op ∧ c.op < 16
  fields : match c.shape with
    | .registerRegister => c.reg < 16 ∧ c.src < 16 ∧ c.imm = 0
    | .registerLiteral => c.reg < 16 ∧ c.src = 0 ∧ c.imm < 256
    | .literal => c.reg = 0 ∧ c.src = 0
    | .register => c.reg < 16 ∧ c.src = 0 ∧ c.imm = 0
    | .undefined => c.reg < 16 ∧ c.src = 0 ∧ c.imm = 0

section
variable {i : Instruction} {c : Code} (hi : i ∈ catalog) (hc : c.op = i.op)
include hi hc

theorem entry?_of_op : c.entry? = some i := by
  have hop := Instruction.op_of_mem hi
  rw [ entry?, nibble_eq (by rw [hc]; exact hop), hc]
  exact Instruction.ofOp?_of_mem hi

theorem shape_of_op : c.shape = i.shape := by
  rw [shape, entry?_of_op hi hc]

theorem bytes_length_of_op : c.bytes.length = i.length := by
  rw [bytes_length, length, entry?_of_op hi hc]

end

theorem lowHalf_lt (b : UInt8) : b &&& 0xF < 16 := by
  rw [UInt8.lt_iff_toNat_lt, toNat_lowHalf]
  exact Nat.mod_lt _ (by decide)

theorem canonical_empty : Canonical {} := by
  refine ⟨by decide, ?_⟩
  rw [show ({} : Code).shape = .registerRegister by decide]
  exact ⟨by decide, by decide, rfl⟩

section
variable {i : Instruction} (hi : i ∈ catalog)
include hi

theorem canonical_ofRegisters (hs : i.shape = .registerRegister) (a b : UInt8) :
    (ofRegisters i.op a b).Canonical := by
  refine ⟨Instruction.op_of_mem hi, ?_⟩
  rw [shape_of_op hi rfl, hs]
  exact ⟨lowHalf_lt a, lowHalf_lt b, rfl⟩

theorem canonical_ofRegisterByte (hs : i.shape = .registerLiteral) (a b : UInt8) :
    (ofRegisterByte i.op a b).Canonical := by
  refine ⟨Instruction.op_of_mem hi, ?_⟩
  rw [shape_of_op hi rfl, hs]
  refine ⟨lowHalf_lt a, rfl, ?_⟩
  rw [UInt16.lt_iff_toNat_lt]
  exact b.toNat_lt

theorem canonical_ofRegister (hs : i.shape = .register) (a : UInt8) :
    (ofRegister i.op a).Canonical := by
  refine ⟨Instruction.op_of_mem hi, ?_⟩
  rw [shape_of_op hi rfl, hs]
  exact ⟨lowHalf_lt a, rfl, rfl⟩

theorem canonical_ofAddress (hs : i.shape = .literal) (address : UInt16) :
    (ofAddress i.op address).Canonical := by
  refine ⟨Instruction.op_of_mem hi, ?_⟩
  rw [shape_of_op hi rfl, hs]
  exact ⟨rfl, rfl⟩

end

/-- **A canonical code is read back from its encoding**, whatever bytes follow. -/
theorem decode_bytes {c : Code} (h : c.Canonical) (rest : Text) :
    decode (c.bytes ++ rest) = .ok c := by
  have hfirst : (((c.firstByte >>> 4).toNat : Nat) : Int) = c.op := by
    rw [firstByte_high, nibble_eq h.op]
  have hop : (((c.opByte >>> 4).toNat : Nat) : Int) = c.op := by rw [opByte_high, nibble_eq h.op]
  have hf := h.fields
  unfold bytes
  cases hs : c.shape with
  | registerRegister =>
    have hs' : ({ op := c.op } : Code).shape = .registerRegister := hs
    rw [hs] at hf
    obtain ⟨hr, hsrc, himm⟩ := hf
    simp only [List.cons_append, decode, hfirst, hs', firstByte_low hr, highHalf_shifted hsrc]
    rw [← himm]
  | registerLiteral =>
    have hs' : ({ op := c.op } : Code).shape = .registerLiteral := hs
    rw [hs] at hf
    obtain ⟨hr, hsrc, himm⟩ := hf
    simp only [List.cons_append, decode, hfirst, hs', firstByte_low hr, byte_bytes himm]
    rw [← hsrc]
  | register =>
    have hs' : ({ op := c.op } : Code).shape = .register := hs
    rw [hs] at hf
    obtain ⟨hr, hsrc, himm⟩ := hf
    simp only [List.cons_append, decode, hfirst, hs', firstByte_low hr]
    rw [← hsrc, ← himm]
  | literal =>
    have hs' : ({ op := c.op } : Code).shape = .literal := hs
    rw [hs] at hf
    obtain ⟨hr, hsrc⟩ := hf
    simp only [List.cons_append, decode, hop, hs', word_bytes]
    obtain ⟨op, reg, src, imm⟩ := c
    cases hr
    cases hsrc
    rfl
  | undefined =>
    have hs' : ({ op := c.op } : Code).shape = .undefined := hs
    rw [hs] at hf
    obtain ⟨hr, hsrc, himm⟩ := hf
    simp only [List.cons_append, decode, hfirst, hs', firstByte_low hr]
    rw [← hsrc, ← himm]

/-! ## Reading -/

/-- How a code is read, by its layout. -/
inductive Reads : Text → Code → Prop
  | registers {b b₁ : UInt8} {rest : Text} {c : Code} (hs : c.shape = .registerRegister)
    (hc : c = { op := (b >>> 4).toNat, reg := b &&& 0xF, src := b₁ >>> 4 }) :
      Reads (b :: b₁ :: rest) c
  | registerByte {b b₁ : UInt8} {rest : Text} {c : Code} (hs : c.shape = .registerLiteral)
    (hc : c = { op := (b >>> 4).toNat, reg := b &&& 0xF, imm := b₁.toUInt16 }) :
      Reads (b :: b₁ :: rest) c
  | address {b b₁ b₂ : UInt8} {rest : Text} {c : Code} (hs : c.shape = .literal)
    (hc : c = { op := (b >>> 4).toNat, imm := word b₁ b₂ }) : Reads (b :: b₁ :: b₂ :: rest) c
  | register {b : UInt8} {rest : Text} {c : Code} (hs : c.shape = .register ∨ c.shape = .undefined)
    (hc : c = { op := (b >>> 4).toNat, reg := b &&& 0xF }) : Reads (b :: rest) c

theorem reads_of_decode {data : Text} {c : Code} (h : decode data = .ok c) : Reads data c := by
  cases data with
  | nil => cases h
  | cons b rest =>
    -- The layout is that of the operation number, whatever the operands are.
    have hshape {d : Code} (hd : d.op = (b >>> 4).toNat) :
        d.shape = ({ op := (b >>> 4).toNat } : Code).shape := by
      unfold shape entry? nibble
      rw [hd]
    unfold decode at h
    simp only at h
    split at h
    · rename_i hs
      cases h
      exact .registers ((hshape rfl).trans hs) rfl
    · rename_i hs
      cases h
      exact .registerByte ((hshape rfl).trans hs) rfl
    · rename_i hs
      cases h
      exact .address ((hshape rfl).trans hs) rfl
    · rename_i hs
      cases h
      exact .register (.inl ((hshape rfl).trans hs)) rfl
    · rename_i hs
      cases h
      exact .register (.inr ((hshape rfl).trans hs)) rfl
    · cases h

end Code

end Octet
