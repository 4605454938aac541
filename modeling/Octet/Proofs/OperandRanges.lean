import Octet.Proofs.FaultPlaces
import Octet.Proofs.OperandIndependence

/-!
# Operands are encoded exactly or refused

Literals have thirty-two bits, addresses of labels sixteen, and the operands of codes four, eight or
sixteen. Nothing is cut off on the way: an operand that does not fit its place ends the second pass,
and any other is read back from the bytes.

* `Layout.Encodable` — operands that fit their places;
* `Arg.value?`, `Code.values` — the operands of a call and of a code as numbers;
* `Layout.Holds` — a code that holds the operands of a call;
* `Layout.encodable_of_encode`, `Layout.encode_holds` — **one instruction** is encoded only if its
  operands fit, and holds them;
* `Layout.operands_encoded_exactly` — **the second pass** encodes every operand exactly, or fails at
  the first that does not fit.
-/

namespace Octet

/-- The operand that an argument stands for, as a number: the number of a register, the value of a
literal or the address of a label. -/
def Arg.value? (labels : Table Nat) : Arg → Option Nat
  | register _ index _ => some index.val
  | literal value _ => some value.toNat
  | label name _ => labels.find? name
  | registerParam .. => none
  | literalParam .. => none

/-- The operands that a code holds, in the order of the call. -/
def Code.values (c : Code) : List Nat :=
  match c.shape with
  | .registerRegister => [c.reg.toNat, c.src.toNat]
  | .registerLiteral => [c.reg.toNat, c.imm.toNat]
  | .register => [c.reg.toNat]
  | .literal => [c.imm.toNat]
  | .undefined => []

/-- A register is held as its number. -/
theorem Register.toNat_toByte_low (r : Register) : (r.toByte &&& 0xF).toNat = r.val := by
  have hlt := r.isLt
  rw [Code.toNat_lowHalf, toByte, UInt8.toNat_ofNat']
  omega

namespace Layout

open Expansion (Placed)

variable {sources : Table Text} {labels : Table UInt16} {entry : Instruction} {c : Call}
  {calls : List Site} {code : Code} {placed : List Placed}

/-! ## Operands that fit -/

/-- The operands fit their places: a byte is a literal of eight bits and no label, and an address is
a literal of sixteen bits or a label that has an address. -/
structure Encodable (labels : Table UInt16) (shape : Shape) (args : List Arg) : Prop where
  byte :
    shape = .registerLiteral → ∃ value t, args[1]? = some (.literal value t) ∧ value.toNat ≤ 0xff
  address : shape = .literal →
    (∃ value t, args[0]? = some (.literal value t) ∧ value.toNat ≤ 0xffff) ∨
      ∃ name t, args[0]? = some (.label name t) ∧ (labels.find? name).isSome

theorem Unfit.not_encodable {shape : Shape} {args : List Arg} {t : Token} {stage : Cause}
    {part : Fault} (h : Unfit labels shape args t stage part) : ¬ Encodable labels shape args := by
  intro hfit
  cases h with
  | byteLabel =>
    obtain ⟨value, t, harg, -⟩ := hfit.byte rfl
    simp at harg
  | byteRange hlarge =>
    obtain ⟨value, t, harg, hsmall⟩ := hfit.byte rfl
    cases harg
    omega
  | missing hfind =>
    obtain ⟨value, t, harg, -⟩ | ⟨name, t, harg, hsome⟩ := hfit.address rfl
    · simp at harg
    · cases harg
      simp [hfind] at hsome
  | addressRange hlarge =>
    obtain ⟨value, t, harg, hsmall⟩ | ⟨name, t, harg, -⟩ := hfit.address rfl
    · cases harg
      exact absurd hlarge (Nat.not_lt.2 hsmall)
    · simp at harg

/-- Registers always fit. -/
theorem encodable_of_ne {shape : Shape} {args : List Arg} (hbyte : shape ≠ .registerLiteral)
    (haddress : shape ≠ .literal) :
    Encodable labels shape args :=
  ⟨fun hs => absurd hs hbyte, fun hs => absurd hs haddress⟩

/-- Operands fit, or one of them is unfit. -/
theorem encodable_or_unfit {shape : Shape} {args : List Arg} (h : Operands shape args) :
    Encodable labels shape args ∨ ∃ t stage part, Unfit labels shape args t stage part := by
  cases h with
  | registerRegister => exact .inl (encodable_of_ne (by decide) (by decide))
  | @registerLiteral _ _ _ t' value =>
    by_cases hlarge : 0xff < value.toNat
    · exact .inr ⟨_, _, _, .byteRange hlarge⟩
    · exact .inl ⟨fun _ => ⟨value, t', rfl, Nat.le_of_not_lt hlarge⟩,
        fun hs => absurd hs (by decide)⟩
  | registerLabel => exact .inr ⟨_, _, _, .byteLabel⟩
  | register => exact .inl (encodable_of_ne (by decide) (by decide))
  | @literal value t =>
    by_cases hlarge : lastAddress < value.toNat
    · exact .inr ⟨_, _, _, .addressRange hlarge⟩
    · exact .inl ⟨fun hs => absurd hs (by decide),
        fun _ => .inl ⟨value, t, rfl, Nat.le_of_not_lt hlarge⟩⟩
  | @label name t =>
    cases hfind : labels.find? name with
    | none => exact .inr ⟨_, _, _, .missing hfind⟩
    | some address =>
      refine .inl ⟨fun hs => absurd hs (by decide), fun _ => .inr ⟨name, t, rfl, ?_⟩⟩
      rw [hfind]
      rfl

/-! ## One instruction -/

/-- The code holds the operation of the instruction and the operands of the call, and they are read
back from its bytes, whatever bytes follow. -/
structure Holds (labels : Table Nat) (entry : Instruction) (c : Call) (code : Code) : Prop where
  op : code.op = entry.op
  shape : code.shape = entry.shape
  values : code.values.map some = c.args.map (Arg.value? labels)
  decoded : ∀ rest, Code.decode (code.bytes ++ rest) = .ok code

/-- **An instruction is encoded** only if its operands fit. -/
theorem encodable_of_encode (hops : Operands entry.shape c.args)
    (h : encode sources labels entry c calls = .ok code) :
    Encodable labels entry.shape c.args := by
  obtain hfit | ⟨t, stage, part, hunfit⟩ := encodable_or_unfit hops
  · exact hfit
  · cases (hunfit.encode calls).symm.trans h

/-- The codes of fitting operands hold them, if the table has the exact addresses of labels. -/
theorem encode_values {counted : Table Nat} (hentry : entry ∈ catalog)
    (hops : Operands entry.shape c.args)
    (hexact : ∀ name address, labels.find? name = some address →
      counted.find? name = some address.toNat)
    (h : encode sources labels entry c calls = .ok code) :
    code.values.map some = c.args.map (Arg.value? counted) := by
  have hshape := Code.shape_of_op hentry (encode_op hops h)
  have hfit := encodable_of_encode hops h
  unfold encode at h
  rw [Code.values, hshape]
  generalize entry.shape = shape at h hops hfit ⊢
  generalize c.args = args at h hops hfit ⊢
  cases hops with
  | registerRegister =>
    cases h
    simp only [Code.ofRegisters, registerByte, Register.toNat_toByte_low, Arg.value?, List.map_cons,
      List.map_nil]
  | @registerLiteral _ _ _ _ value =>
    obtain ⟨_, _, harg, hsmall⟩ := hfit.byte rfl
    cases harg
    have hbyte : value.toUInt8.toUInt16.toNat = value.toNat := by
      rw [UInt8.toNat_toUInt16, UInt32.toNat_toUInt8]
      omega
    simp only [if_neg (Nat.not_lt.2 hsmall)] at h
    cases h
    simp only [Code.ofRegisterByte, registerByte, Register.toNat_toByte_low, hbyte, Arg.value?,
      List.map_cons, List.map_nil]
  | registerLabel => cases h
  | register =>
    cases h
    simp only [Code.ofRegister, registerByte, Register.toNat_toByte_low, Arg.value?, List.map_cons,
      List.map_nil]
  | @literal value _ =>
    obtain ⟨_, _, harg, hsmall⟩ | ⟨_, _, harg, -⟩ := hfit.address rfl
    · cases harg
      have hword : (UInt16.ofNat value.toNat).toNat = value.toNat := by
        rw [UInt16.toNat_ofNat']
        omega
      obtain ⟨address, hvalue, h⟩ := Except.bind_eq_ok.1 h
      cases hvalue
      have hlast : ¬ lastAddress < value.toNat := Nat.not_lt.2 hsmall
      rw [if_neg hlast] at h
      cases h
      simp only [Code.ofAddress, hword, Arg.value?, List.map_cons, List.map_nil]
    · simp at harg
  | @label name t =>
    obtain ⟨address, hvalue, h⟩ := Except.bind_eq_ok.1 h
    unfold addressOf at hvalue
    cases hfind : labels.find? name with
    | none => simp [hfind] at hvalue
    | some word =>
      simp only [hfind, Except.ok.injEq] at hvalue
      subst hvalue
      -- An address from the table has sixteen bits.
      have hlast : ¬ lastAddress < word.toNat := Nat.not_lt.2 (Nat.le_of_lt_succ word.toNat_lt)
      rw [if_neg hlast] at h
      cases h
      simp only [Code.ofAddress, UInt16.ofNat_toNat, Arg.value?, hexact name word hfind,
        List.map_cons, List.map_nil]

/-- **An encoded instruction holds its operands.** -/
theorem encode_holds {counted : Table Nat} (hentry : entry ∈ catalog)
    (hops : Operands entry.shape c.args)
    (hexact : ∀ name address, labels.find? name = some address →
      counted.find? name = some address.toNat)
    (h : encode sources labels entry c calls = .ok code) : Holds counted entry c code where
  op := encode_op hops h
  shape := Code.shape_of_op hentry (encode_op hops h)
  values := encode_values hentry hops hexact h
  decoded := Code.decode_bytes (encode_canonical hentry h).1

/-! ## The second pass -/

/-- Instructions that are complete have their operands. -/
theorem operands_of_complete (hplaced : ∀ x ∈ placed, x.Complete)
    (hmem : .instruction entry c calls ∈ placed) :
    entry ∈ catalog ∧ Operands entry.shape c.args := by
  obtain ⟨hclosed, hfind⟩ := hplaced _ hmem
  have hentry := Instruction.mem_of_find? hfind
  exact ⟨hentry, operands_of_kinds hentry (Instruction.kinds_of_find? hfind).2 hclosed⟩

/-- Every instruction has its row, in order. -/
theorem Emitted.row {address : Nat} {before after : List Placed} {rows : List Row}
    (h : Emitted sources labels address (before ++ .instruction entry c calls :: after) rows) :
    ∃ r, rows[instructions before]? = some r ∧
      encode sources labels entry c calls = .ok r.code := by
  obtain ⟨rows₁, rows₂, rfl, h₁, h₂⟩ := h.split
  cases h₂ with
  | @instruction _ _ _ _ code _ _ hcode _ =>
    refine ⟨⟨c.token.file, c.token.line, (address + extent before : Nat), c.words, code⟩, ?_, hcode⟩
    rw [← h₁.rows_length, List.getElem?_append_right (Nat.le_refl _), Nat.sub_self]
    rfl

/-- The table of the first pass has the exact addresses of the labels. -/
theorem Fits.exact {counted : Table Nat} (h : Fits [] counted) {name : Text} {address : UInt16}
    (hfind : (tableOf counted).find? name = some address) :
    counted.find? name = some address.toNat := by
  obtain ⟨l, hl, he⟩ : ∃ l ∈ counted, (l.1, UInt16.ofNat l.2) = (name, address) := by
    simpa [tableOf] using Table.mem_of_find? hfind
  cases he
  rw [(h.find? hl).2]
  exact Table.find?_of_mem h.fresh.distinct hl

section
variable {rows : Array Row} {address : Nat} (hplaced : ∀ x ∈ placed, x.Complete)
include hplaced

/-- The second pass fails at the first instruction with an unfit operand. -/
theorem emit_unfit {f : Fault} (h : emit sources labels rows address placed = .error f) :
    ∃ before entry c calls after, placed = before ++ .instruction entry c calls :: after ∧
      (∀ entry' c' calls', .instruction entry' c' calls' ∈ before →
        Encodable labels entry'.shape c'.args) ∧
      ∃ t stage part, Unfit labels entry.shape c.args t stage part ∧
        f = .at sources t calls [.cause stage, part] := by
  obtain ⟨before, entry, c, calls, after, hsplit, hbefore, hencode⟩ := emit_fault h
  refine ⟨before, entry, c, calls, after, hsplit, ?_, ?_⟩
  · intro entry' c' calls' hmem
    obtain ⟨code, hcode⟩ := hbefore entry' c' calls' hmem
    have hin : .instruction entry' c' calls' ∈ placed := hsplit ▸ List.mem_append_left _ hmem
    exact encodable_of_encode (operands_of_complete hplaced hin).2 hcode
  · have hin : .instruction entry c calls ∈ placed := by simp [hsplit]
    obtain hunfit | rfl := encode_fault hencode
    · exact hunfit
    · exact absurd hencode ((operands_of_complete hplaced hin).2.encode_ne _ _ _ _)

/-- **The second pass succeeds** exactly if all operands fit. -/
theorem emit_ok_iff_encodable :
    (∃ out, emit sources labels rows address placed = .ok out) ↔
      ∀ entry c calls, .instruction entry c calls ∈ placed →
        Encodable labels entry.shape c.args := by
  constructor
  · rintro ⟨out, h⟩ entry c calls hmem
    obtain ⟨new, hnew, -⟩ := emit_eq_ok.1 h
    obtain ⟨before, after, hsplit⟩ := List.append_of_mem hmem
    obtain ⟨r, -, hcode⟩ := (hsplit ▸ hnew).row
    exact encodable_of_encode (operands_of_complete hplaced hmem).2 hcode
  · intro hall
    cases h : emit sources labels rows address placed with
    | ok out => exact ⟨out, rfl⟩
    | error f =>
      obtain ⟨before, entry, c, calls, after, hsplit, -, t, stage, part, hunfit, -⟩ :=
        emit_unfit hplaced h
      exact absurd (hall entry c calls (by simp [hsplit])) hunfit.not_encodable

end

/-- **Operands are encoded exactly or refused.** Take expanded statements and the labels that the
first pass finds for them. The second pass succeeds exactly if the operands of all instructions fit
their places. If it fails, it does so at the first instruction with one that does not. If it
succeeds, there is one row for each instruction, in order, and its code holds the operation of the
instruction and exactly the operands of its call, where a label stands for the number of bytes
before it. -/
theorem operands_encoded_exactly (sources : Table Text) (verbose : Bool) (log : Array Text)
    (placed : List Placed) (hplaced : ∀ x ∈ placed, x.Complete) (found : LabelState)
    (hlabels : assignLabels sources verbose ⟨[], log⟩ 0 placed = .ok found) :
    ((∃ rows, emit sources found.labels #[] 0 placed = .ok rows) ↔
        ∀ entry c calls, .instruction entry c calls ∈ placed →
          Encodable found.labels entry.shape c.args) ∧
      (∀ f, emit sources found.labels #[] 0 placed = .error f →
        ∃ before entry c calls after, placed = before ++ .instruction entry c calls :: after ∧
          (∀ entry' c' calls', .instruction entry' c' calls' ∈ before →
            Encodable found.labels entry'.shape c'.args) ∧
          ¬ Encodable found.labels entry.shape c.args ∧
          ∃ t stage part, Unfit found.labels entry.shape c.args t stage part ∧
            f = .at sources t calls [.cause stage, part]) ∧
      ∀ rows, emit sources found.labels #[] 0 placed = .ok rows →
        rows.length = instructions placed ∧
          ∀ before entry c calls after, placed = before ++ .instruction entry c calls :: after →
            ∃ r, rows[instructions before]? = some r ∧
              Holds (addresses 0 placed) entry c r.code := by
  refine ⟨emit_ok_iff_encodable hplaced, ?_, ?_⟩
  · intro f h
    obtain ⟨before, entry, c, calls, after, hsplit, hbefore, t, stage, part, hunfit, hf⟩ :=
      emit_unfit hplaced h
    exact ⟨before, entry, c, calls, after, hsplit, hbefore, hunfit.not_encodable, t, stage, part,
      hunfit, hf⟩
  · intro rows h
    obtain ⟨hfits, htable⟩ := assignLabels_eq_ok.1 ⟨found, hlabels, rfl⟩
    obtain ⟨new, hrows, rfl⟩ := emit_eq_ok.1 h
    refine ⟨hrows.rows_length, ?_⟩
    intro before entry c calls after hsplit
    obtain ⟨r, hr, hcode⟩ := (hsplit ▸ hrows).row
    have hmem : .instruction entry c calls ∈ placed := by simp [hsplit]
    obtain ⟨hentry, hops⟩ := operands_of_complete hplaced hmem
    refine ⟨r, hr, encode_holds hentry hops ?_ hcode⟩
    intro name address hfind
    rw [htable, List.append_nil] at hfind
    exact hfits.exact hfind

/-- The load of an address. -/
def addressCall (a : Arg) : Call := ⟨.mnemonic, utf8 "lda", [a], default⟩

/-- The instruction that a load of an address selects. -/
def addressEntry : Instruction := ⟨utf8 "lda", 4, [.literal], 3⟩

/-- The largest address, and a label that is used before it stands. -/
def widest : List Placed :=
  [.instruction addressEntry (addressCall (.label (utf8 "end") default)) [],
    .instruction addressEntry (addressCall (.literal 0xffff default)) [],
      .label (utf8 "end") default []]

/-- The largest address and one more. -/
def onePast : List Placed :=
  widest ++ [.instruction addressEntry (addressCall (.literal 0x10000 default)) []]

theorem addressCall_complete {a : Arg} (ha : a.Closed) (hk : a.kind = .literal)
    (calls : List Site) :
    Placed.Complete (.instruction addressEntry (addressCall a) calls) := by
  constructor
  · intro b hb
    rw [List.mem_singleton.1 hb]
    exact ha
  · have hkey : (addressCall a).key = overloadKey (utf8 "lda") [.literal] := by
      rw [← hk]
      rfl
    rw [hkey]
    decide

theorem onePast_complete : ∀ x ∈ onePast, x.Complete := by
  simp only [onePast, widest, List.cons_append, List.nil_append, List.forall_mem_cons]
  exact ⟨addressCall_complete .label rfl [], addressCall_complete .literal rfl [], trivial,
    addressCall_complete .literal rfl [], by simp⟩

/-- The largest address is encoded exactly; one that is larger by one is refused. -/
theorem operands_encoded_exactly_widest :
    (∀ x ∈ onePast, x.Complete) ∧
      (∃ found rows r, assignLabels [] false ⟨[], #[]⟩ 0 widest = .ok found ∧
        emit [] found.labels #[] 0 widest = .ok rows ∧ rows[0]? = some r ∧
        Holds (addresses 0 widest) addressEntry (addressCall (.label (utf8 "end") default))
          r.code) ∧
      ∃ found f, assignLabels [] false ⟨[], #[]⟩ 0 onePast = .ok found ∧
        emit [] found.labels #[] 0 onePast = .error f ∧
        ∃ before entry c calls after, onePast = before ++ .instruction entry c calls :: after ∧
          ¬ Encodable found.labels entry.shape c.args := by
  have hcomplete := onePast_complete
  have hwidest : ∀ x ∈ widest, x.Complete := fun x hx => hcomplete x (List.mem_append_left _ hx)
  refine ⟨hcomplete, ?_, ?_⟩
  · obtain ⟨found, hfound⟩ : ∃ found, assignLabels [] false ⟨[], #[]⟩ 0 widest = .ok found :=
      ⟨_, rfl⟩
    obtain ⟨rows, hrows⟩ : ∃ rows, emit [] found.labels #[] 0 widest = .ok rows := by
      cases hfound
      exact ⟨_, rfl⟩
    obtain ⟨-, -, hholds⟩ := operands_encoded_exactly [] false #[] widest hwidest found hfound
    obtain ⟨r, hr, hcode⟩ := (hholds rows hrows).2 [] _ _ _ _ rfl
    exact ⟨found, rows, r, hfound, hrows, hr, hcode⟩
  · obtain ⟨found, hfound⟩ : ∃ found, assignLabels [] false ⟨[], #[]⟩ 0 onePast = .ok found :=
      ⟨_, rfl⟩
    obtain ⟨f, hf⟩ : ∃ f, emit [] found.labels #[] 0 onePast = .error f := by
      cases hfound
      exact ⟨_, rfl⟩
    obtain ⟨-, hfails, -⟩ := operands_encoded_exactly [] false #[] onePast hcomplete found hfound
    obtain ⟨before, entry, c, calls, after, hsplit, -, hunfit, -⟩ := hfails f hf
    exact ⟨found, f, hfound, hf, before, entry, c, calls, after, hsplit, hunfit⟩

end Layout

end Octet
