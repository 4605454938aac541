import Mathlib.Data.List.Forall2
import Octet.Proofs.Acceptance
import Octet.Proofs.ParameterBinding
import Octet.Proofs.PlaceIndependence
import Octet.Proofs.SourceLines
import Octet.Proofs.WrittenTokens

/-!
# Disassembly is assembled again

The assembly forms of the codes of a program, one on each line, are a source of the same program.

* `Grammar.denotes_call`, `Grammar.denotes_lines` — a call as it is written, and texts on lines of
  their own;
* `Operand`, `Code.operands` — the operands of a code, as its assembly form writes them;
* `Code.denotes_text`, `Code.find?_call`, `Code.encode_call` — the assembly form of a code is a
  call, the call selects the instruction with the code's operation, and it is encoded as the code;
* `assemble_disassembly` — **a program is assembled again from its disassembly**.
-/

namespace Octet

namespace Grammar

open Token (Plain listText separated)

variable {formulas : Formulas} {slots : Option Slots}

/-! ## Written calls -/

theorem listed_of_forall₂ {α : Type} {item : Token → α → Prop} {ts left : List Token}
    {items : List α} (h : List.Forall₂ item ts items) (hend : LineEnds left) :
    Listed item (separated ts ++ left) items left := by
  cases h with
  | nil => exact .empty hend
  | @cons t a ts items hta hrest =>
    refine .items ?_
    induction hrest generalizing t a with
    | nil => exact .last hta hend
    | cons hnext _ ih => exact .more hta rfl (ih hnext)

/-- A name and its arguments are a call, up to the end of the line. -/
theorem statement_call {form : CallForm} {name : Token} {ts left : List Token} {args : List Arg}
    (hform : name.kind = nameKind form) (hargs : List.Forall₂ (Argument formulas slots) ts args)
    (hend : LineEnds left) :
    Statement formulas slots (name :: (separated ts ++ left)) (.call ⟨form, name.text, args, name⟩)
      left :=
  .call hform (listed_of_forall₂ hargs hend)

/-- A name followed by its arguments denotes the call. -/
theorem denotes_call {form : CallForm} {name : Token} {ts : List Token} {args : List Arg}
    (hname : Plain name) (hform : name.kind = nameKind form) (hts : ∀ t ∈ ts, Plain t)
    (hargs : List.Forall₂ (Argument formulas none) ts args) (hne : ts ≠ []) :
    Denotes formulas (name.text ++ utf8 " " ++ listText ts)
      [(Node.item (.stmt (.call ⟨form, name.text, args, name⟩))).gist] := by
  refine ⟨_, _, Token.lexemes_operands hname hts hne, ?_, List.map_singleton⟩
  have hcall : Statement formulas none (name :: (separated ts ++ [])) _ [] :=
    statement_call hform hargs (by simp [LineEnds])
  rw [List.append_nil] at hcall
  exact .element (.stmt hcall) .nil

/-- Texts on lines of their own denote what each of them does. -/
theorem denotes_lines {texts : List Text} {gists : List Node}
    (h : List.Forall₂ (fun x g => Denotes formulas x [g]) texts gists) :
    Denotes formulas ((utf8 "\n").intercalate texts) gists := by
  induction h with
  | nil => exact ⟨[], [], Token.lexemes_nil, .nil, rfl⟩
  | @cons x g texts gists hx hrest ih =>
    cases hrest with
    | nil => simpa using hx
    | cons _ _ =>
      rw [List.intercalate_cons_cons, List.append_assoc]
      exact hx.append rfl ih

end Grammar

/-! ## Operands -/

/-- An operand of a code as its assembly form writes it: the name of a register, or hexadecimal
digits. -/
inductive Operand where
  | register (r : Register)
  | literal (width : Nat) (value : UInt16)

namespace Operand

open Token (written)

def token : Operand → Token
  | register r => written .register r.name
  | literal width value => written .literal (Code.literalText width value.toNat)

/-- The argument that the operand is read as. -/
def arg : Operand → Arg
  | register r => .register r.name r (register r).token
  | literal width value => .literal value.toUInt32 (literal width value).token

theorem name_mem : ∀ r : Register, r.name ∈ Token.registerNames := by decide +kernel

theorem ofName?_name : ∀ r : Register, Register.ofName? r.name = some r := by decide +kernel

theorem token_plain (o : Operand) : o.token.Plain := by
  cases o with
  | register r => exact Token.plain_register (name_mem r)
  | literal width value => exact Token.plain_hexadecimal (Token.run_hex width value.toNat)

/-- **An operand is read as the argument it was written for**, whatever its digits. -/
theorem argument (formulas : Formulas) (slots : Option Slots) (o : Operand) :
    Grammar.Argument formulas slots o.token o.arg := by
  cases o with
  | register r =>
    have h : Grammar.Argument formulas slots (register r).token
        (.register r.name ((Register.ofName? r.name).getD .r0) (register r).token) := .register rfl
    rw [ofName?_name] at h
    exact h
  | literal width value =>
    have hdigits := Token.run_hex width value.toNat
    have hopen := Derivation.head?_ne_open (utf8 "h") hdigits.nonempty (hdigits.not_mem rfl)
    refine .literal rfl
      ((Derivation.literalValue?_of_digits hopen (Derivation.literalDigits_hexadecimal _)).2 ?_)
    rw [Text.natOfDigits?_hex, UInt16.toNat_toUInt32]

end Operand

/-! ## Codes as calls -/

namespace Instruction

theorem mnemonic_mem : ∀ {i : Instruction}, i ∈ catalog → i.mnemonic ∈ mnemonics := by
  decide +kernel

end Instruction

namespace Register

theorem toByte_ofByte {b : UInt8} (h : b < 16) : (ofByte b).toByte &&& 0xF = b := by
  have hb : b.toNat < 16 := h
  apply UInt8.toNat_inj.1
  rw [Code.toNat_lowHalf, toByte, ofByte, UInt8.toNat_ofNat']
  show b.toNat % 16 % 2 ^ 8 % 16 = b.toNat
  omega

end Register

namespace Code

theorem low_of_lt {a : UInt16} (h : a < 256) : a &&& 0xFF = a := by
  have ha : a.toNat < 256 := h
  apply UInt16.toNat_inj.1
  rw [UInt16.toNat_and]
  exact (Nat.and_two_pow_sub_one_eq_mod _ 8).trans (Nat.mod_eq_of_lt ha)

open Token (written listText)
open Layout (encode registerByte addressOf)

/-- The operands of a code, by its layout. -/
def operands (c : Code) : List Operand :=
  match c.shape with
  | .registerRegister => [.register (.ofByte c.reg), .register (.ofByte c.src)]
  | .registerLiteral => [.register (.ofByte c.reg), .literal 2 (c.imm &&& 0xFF)]
  | .register => [.register (.ofByte c.reg)]
  | .literal => [.literal 4 c.imm]
  | .undefined => []

/-- The call that the assembly form of a code is. -/
def call (c : Code) : Call :=
  ⟨.mnemonic, opName c.op, c.operands.map Operand.arg, written .instruction (opName c.op)⟩

section

variable {i : Instruction} {c : Code} (hi : i ∈ catalog) (hc : c.op = i.op)
include hi hc

theorem opName_of_op : opName c.op = i.mnemonic := by
  rw [opName, hc, Instruction.ofOp?_of_mem hi]

/-- The operands are of the kinds that the instruction takes. -/
theorem kinds_call : c.call.kinds = i.kinds := by
  have hcases := catalog_kinds i hi
  have hshape := shape_of_op hi hc
  rw [Instruction.shape] at hshape
  simp only [List.mem_cons, List.not_mem_nil, or_false] at hcases
  rcases hcases with hk | hk | hk | hk <;> rw [hk, Call.kinds, call, operands, hshape, hk] <;> rfl

theorem operands_ne_nil : c.operands ≠ [] := by
  intro hnil
  have hkinds : i.kinds = [] := by rw [← kinds_call hi hc, Call.kinds, call, hnil]; rfl
  have hcases := catalog_kinds i hi
  simp [hkinds] at hcases

/-- **The call of a code selects the instruction with the code's operation**, also among those of
one name. -/
theorem find?_call : Instruction.find? c.call.key = some i := by
  have hkey : c.call.key = i.key := by
    rw [Call.key, kinds_call hi hc, call, opName_of_op hi hc]
    rfl
  rw [hkey]
  exact Instruction.find?_key hi

/-- The assembly form is the mnemonic and the operands. -/
theorem text_eq : c.text = opName c.op ++ utf8 " " ++ listText (c.operands.map Operand.token) := by
  have hne := operands_ne_nil hi hc
  have hcomma (x y : Text) : (utf8 ", ").intercalate [x, y] = x ++ utf8 ", " ++ y := by
    rw [List.intercalate_cons_cons, List.intercalate_singleton]
  unfold operands at hne ⊢
  unfold text
  cases hs : c.shape with
  | registerRegister => simp [listText, hcomma, Operand.token, written, regName, srcName]
  | registerLiteral => simp [listText, hcomma, Operand.token, written, regName]
  | register => simp [listText, Operand.token, written, regName]
  | literal => simp [listText, Operand.token, written]
  | undefined => simp [hs] at hne

/-- **The assembly form of a code denotes its call.** -/
theorem denotes_text (formulas : Formulas) :
    Grammar.Denotes formulas c.text [(Node.item (.stmt (.call c.call))).gist] := by
  have hname : (written .instruction (opName c.op)).Plain := by
    rw [opName_of_op hi hc]
    exact Token.plain_mnemonic (Instruction.mnemonic_mem hi)
  have hargs : List.Forall₂ (Grammar.Argument formulas none) (c.operands.map Operand.token)
      (c.operands.map Operand.arg) := by
    rw [List.forall₂_map_left_iff, List.forall₂_map_right_iff, List.forall₂_same]
    exact fun o _ => o.argument formulas none
  have hts : ∀ t ∈ c.operands.map Operand.token, t.Plain := by
    intro t ht
    obtain ⟨o, -, rfl⟩ := List.mem_map.1 ht
    exact o.token_plain
  rw [text_eq hi hc]
  exact Grammar.denotes_call hname rfl hts hargs (by simp [operands_ne_nil hi hc])

/-- **The call of a code is encoded as the code**, if that holds nothing beyond its layout. -/
theorem encode_call (h : c.Canonical) (sources : Table Text) (labels : Table UInt16)
    (calls : List Site) :
    encode sources labels i c.call calls = .ok c := by
  have hf := h.fields
  have hne := operands_ne_nil hi hc
  have hshape := shape_of_op hi hc
  obtain ⟨op, reg, src, imm⟩ := c
  cases hc
  unfold encode call operands
  unfold operands at hne
  cases hs : i.shape with
  | registerRegister =>
    rw [hs] at hshape
    rw [hshape] at hf ⊢
    obtain ⟨hr, hsrc, rfl⟩ := hf
    simp only [List.map_cons, List.map_nil, Operand.arg, registerByte, ofRegisters,
      Register.toByte_ofByte hr, Register.toByte_ofByte hsrc]
  | registerLiteral =>
    rw [hs] at hshape
    rw [hshape] at hf ⊢
    obtain ⟨hr, rfl, himm⟩ := hf
    have hfits : ¬ 0xff < imm.toUInt32.toNat := by
      have himm' : imm.toNat < 256 := himm
      rw [UInt16.toNat_toUInt32]
      omega
    simp only [List.map_cons, List.map_nil, Operand.arg, registerByte, ofRegisterByte,
      Register.toByte_ofByte hr, low_of_lt himm, if_neg hfits, UInt16.toUInt8_toUInt32,
      byte_bytes himm]
  | register =>
    rw [hs] at hshape
    rw [hshape] at hf ⊢
    obtain ⟨hr, rfl, rfl⟩ := hf
    simp only [List.map_cons, List.map_nil, Operand.arg, registerByte, ofRegister,
      Register.toByte_ofByte hr]
  | literal =>
    rw [hs] at hshape
    rw [hshape] at hf ⊢
    obtain ⟨rfl, rfl⟩ := hf
    have hfits : ¬ Layout.lastAddress < imm.toNat := by
      have hlast : Layout.lastAddress = 65535 := rfl
      have := imm.toNat_lt
      omega
    simp only [List.map_cons, List.map_nil, Operand.arg, addressOf, ofAddress,
      UInt16.toNat_toUInt32, bind, Except.bind, if_neg hfits, UInt16.ofNat_toNat]
  | undefined =>
    rw [hs] at hshape
    rw [hshape] at hne
    exact absurd rfl hne

end

end Code

/-! ## Programs -/

/-- The assembly forms of the codes of a program, one on each line. -/
def Program.disassembly (p : Program) : Text :=
  (utf8 "\n").intercalate (p.rows.map fun r => r.code.text)

namespace Layout

open Expansion (Placed Inlined)

/-- Rows with the same codes that follow one another have the same addresses. -/
theorem Contiguous.ips {address : Nat} {rows rows' : List Row} (h : Contiguous address rows)
    (h' : Contiguous address rows') (hcodes : rows'.map Row.code = rows.map Row.code) :
    rows'.map (fun r => (r.ip, r.code)) = rows.map fun r => (r.ip, r.code) := by
  induction rows generalizing address rows' with
  | nil => simpa using hcodes
  | cons r rows ih =>
    obtain ⟨r', rest', rfl, hr, hrest⟩ := List.map_eq_cons_iff.1 hcodes
    have htail := ih h.2 (by rw [← hr]; exact h'.2) hrest
    rw [List.map_cons, List.map_cons, htail, h.1, h'.1, hr]

/-- An encoded instruction has the operation of an instruction of the catalog. -/
theorem encode_assigned {sources : Table Text} {labels : Table UInt16} {entry : Instruction}
    {c : Call} {calls : List Site} {code : Code} (hentry : entry ∈ catalog)
    (h : encode sources labels entry c calls = .ok code) :
    ∃ i ∈ catalog, code.op = i.op := by
  obtain ⟨a, b, rest, -, -, rfl⟩ | ⟨a, value, t, rest, -, -, -, rfl⟩ | ⟨-, rfl⟩ |
    ⟨a, rest, -, -, rfl⟩ |
    ⟨a, rest, value, -, -, -, -, rfl⟩ := encode_cases h
  · exact ⟨entry, hentry, rfl⟩
  · exact ⟨entry, hentry, rfl⟩
  · exact ⟨catalog.head (by decide), List.head_mem _, rfl⟩
  · exact ⟨entry, hentry, rfl⟩
  · exact ⟨entry, hentry, rfl⟩

/-- **The calls of codes are laid out as the codes.** -/
theorem emitted_calls (macros : Table Macro) (limit : Nat) {codes : List Code}
    (hop : ∀ c ∈ codes, ∃ i ∈ catalog, c.op = i.op) (hcanonical : ∀ c ∈ codes, c.Canonical)
    (address : Nat) :
    ∃ placed rows, Inlined macros limit [] (codes.map fun c => .call c.call) placed ∧
      addresses address placed = [] ∧
      Emitted [] [] address placed rows ∧ rows.map Row.code = codes := by
  induction codes generalizing address with
  | nil => exact ⟨[], [], .nil, rfl, .nil, rfl⟩
  | cons c codes ih =>
    obtain ⟨i, hi, hc⟩ := hop c (List.mem_cons_self ..)
    obtain ⟨placed, rows, hplaced, hlabels, hrows, hcodes⟩ :=
      ih (fun d hd => hop d (.tail _ hd)) (fun d hd => hcanonical d (.tail _ hd))
        (address + i.length)
    have hcode := Code.encode_call hi hc (hcanonical c (List.mem_cons_self ..)) [] [] []
    exact ⟨_, _, .instruction (Code.find?_call hi hc) hplaced, hlabels, .instruction hcode hrows,
      by rw [List.map_cons, hcodes]⟩

end Layout

open Expansion Layout

/-- The codes of an assembled program have operations of the catalog. -/
theorem assemble_assigned {s : Settings} {source : Text} {p : Program}
    (h : (assemble s source).result = .ok p) :
    ∀ r ∈ p.rows, ∃ i ∈ catalog, r.code.op = i.op := by
  obtain ⟨x, hx, -, -, hrows⟩ := assemble_eq_ok.1 h
  intro r hr
  obtain ⟨entry, c, calls, hmem, hcode, -⟩ := hrows.of_mem hr
  exact encode_assigned (Instruction.mem_of_find? (expanded?_selected hx _ _ _ hmem)) hcode

/-- The program of calls of codes. -/
theorem built_calls (limit : Nat) (codes : List Code)
    (hop : ∀ c ∈ codes, ∃ i ∈ catalog, c.op = i.op) (hcanonical : ∀ c ∈ codes, c.Canonical) :
    ∃ q, Built limit (codes.map fun c => .stmt (.call c.call)) q ∧ Contiguous 0 q.rows ∧
      q.rows.map Row.code = codes := by
  have hdefs : definitions (codes.map fun c => Item.stmt (.call c.call)) = [] := by
    simp [definitions]
  have hstmts : statements (codes.map fun c => Item.stmt (.call c.call)) =
      codes.map fun c => .call c.call := by
    simp [statements, List.filterMap_map]
  obtain ⟨placed, rows, hplaced, hlabels, hrows, hcodes⟩ := emitted_calls [] limit hop hcanonical 0
  have hsel : Selected placed := fun entry c calls hmem => hplaced.entry hmem
  refine ⟨⟨rows, []⟩, ⟨?_, placed, ?_, ?_, ?_, hrows⟩, hrows.contiguous hsel, hcodes⟩
  · rw [hdefs]
    exact Table.fresh_nil
  · rw [hdefs, hstmts]
    exact hplaced
  · rw [hlabels]
    exact ⟨Table.fresh_nil, by simp⟩
  · rw [hlabels]
    rfl

/-- Statements are spliced as they are. -/
theorem spliced_stmts (resolver : Resolver) (formulas : Formulas) (limit : Nat) (chain : List Text)
    (items : List Item) :
    Spliced resolver formulas limit chain (items.map .item) items := by
  induction items with
  | nil => exact .nil
  | cons i items ih => exact .item ih

theorem rowGists_ips {rows rows' : List Row} (h : rows.map Row.gist = rows'.map Row.gist) :
    rows.map (fun r => (r.ip, r.code)) = rows'.map fun r => (r.ip, r.code) := by
  have hmap := congrArg (List.map fun r => (r.ip, r.code)) h
  rw [List.map_map, List.map_map] at hmap
  exact hmap

/-- The image is made of the codes alone. -/
theorem image_of_codes {p q : Program} (h : q.rows.map Row.code = p.rows.map Row.code) :
    q.image = p.image := by
  have hbytes (rows : List Row) :
      (rows.flatMap fun r => r.code.bytes) = (rows.map Row.code).flatMap Code.bytes := by
    rw [List.flatMap_map]
  rw [Program.image, Program.image, hbytes, h, ← hbytes]

/-- **A program is assembled again from its disassembly**: whatever the settings, the assembly forms
of the codes of an assembled program, one on each line, are assembled to a program with its image,
and with its codes at their addresses. -/
theorem assemble_disassembly (s t : Settings) (source : Text) (p : Program)
    (h : (assemble s source).result = .ok p) :
    ∃ q, (assemble t p.disassembly).result = .ok q ∧ q.image = p.image ∧
      q.rows.map (fun r => (r.ip, r.code)) = p.rows.map fun r => (r.ip, r.code) := by
  obtain ⟨hcontiguous, hcanonical⟩ := assemble_rows h
  have hop := assemble_assigned h
  -- The disassembly denotes the calls of the codes.
  have hdenotes : Grammar.Denotes t.formulas p.disassembly
      (p.rows.map fun r => (Node.item (.stmt (.call r.code.call))).gist) := by
    apply Grammar.denotes_lines
    rw [List.forall₂_map_left_iff, List.forall₂_map_right_iff, List.forall₂_same]
    intro r hr
    obtain ⟨i, hi, hc⟩ := hop r hr
    exact Code.denotes_text hi hc t.formulas
  obtain ⟨nodes, hnodes, hgists⟩ := (Grammar.denotes_iff []).1 hdenotes
  -- The calls become a program with the codes.
  obtain ⟨built, hbuilt, hbuilt_rows, hcodes⟩ :=
    built_calls (Stack.capacityOf t.maxDepth) (p.rows.map Row.code)
    (List.forall_mem_map.2 hop) (List.forall_mem_map.2 hcanonical)
  obtain ⟨items, hspliced, hitems⟩ :=
    (spliced_stmts t.resolver t.formulas (Stack.capacityOf t.maxDepth) []
    ((p.rows.map Row.code).map fun c => .stmt (.call c.call))).relocate
      (by rw [hgists]; simp) (fun _ hp => hp) (Nat.le_refl _)
  obtain ⟨q, hq, -, hrows⟩ := hbuilt.congr hitems
  have hips := hcontiguous.ips hbuilt_rows hcodes
  rw [← rowGists_ips hrows] at hips
  have hq_codes : q.rows.map Row.code = p.rows.map Row.code := by
    have hsnd := congrArg (List.map Prod.snd) hips
    rw [List.map_map, List.map_map] at hsnd
    exact hsnd
  exact ⟨q, assemble_eq_ok_built.2 ⟨nodes, items, hnodes, hspliced, hq⟩, image_of_codes hq_codes,
    hips⟩

/-- A source with all operand layouts, the three forms of one mnemonic, a macro and a label. -/
def manyLayouts : Text :=
  utf8 "@macro two %r0\npsh %r0\npop %r0\n@endmacro\n" ++
    utf8 "mov rz, #27\nmov rv, rah\nmov ral\ntwo rsp\n$end: lda $end\n"

theorem assemble_disassembly_overloads :
    ∃ p q,
      (assemble {} manyLayouts).result = .ok p ∧
      p.disassembly = utf8 "mov r0, #1bh\nmov rv, rah\nmov ral\npsh rsp\npop rsp\nlda #0007h" ∧
      (assemble {} p.disassembly).result = .ok q ∧ q.image = p.image ∧
      q.rows.map (fun r => (r.ip, r.code)) = p.rows.map fun r => (r.ip, r.code) := by
  have hdisassembly :
      (assemble {} manyLayouts).result.toOption.map Program.disassembly =
        some (utf8 "mov r0, #1bh\nmov rv, rah\nmov ral\npsh rsp\npop rsp\nlda #0007h") := by
    simp only [assemble, expandIncludes, expandMacros, Worklist.expand_eq_nested]
    decide +kernel
  obtain ⟨p, hp, htext⟩ := Option.map_eq_some_iff.1 hdisassembly
  have hok := Except.toOption_eq_some.1 hp
  obtain ⟨q, hq, himage, hrows⟩ := assemble_disassembly {} {} _ p hok
  exact ⟨p, q, hok, htext, hq, himage, hrows⟩

end Octet
