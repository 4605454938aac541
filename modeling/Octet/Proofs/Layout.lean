import Octet.Layout
import Octet.Proofs.Encoding
import Octet.Proofs.Outcome
import Octet.Proofs.Tables

/-!
# The two passes of the layout

Addresses are counted in both passes, and once more in the bytes of the image. All three counts come
to the same.

* `Layout.addresses`, `Layout.Fits` — the labels with their addresses, and when they can be put into
  the table;
* `Layout.assignLabels_eq_ok` — the first pass fills the table with these labels;
* `Layout.encode_cases` — what an encoded instruction is made of;
* `Layout.Emitted`, `Layout.emit_eq_ok` — the rows of the second pass;
* `Layout.Contiguous` — rows that follow one another without a gap;
* `Layout.Agrees`, `Layout.agrees_of_passes` — **what both passes leave fits together**.
-/

namespace Octet.Layout

open Expansion (Placed)

/-! ## The first pass -/

/-- The labels of a program that starts at `address`, in order, each with the address at its
place. -/
def addresses (address : Nat) : List Placed → List (Text × Nat)
  | [] => []
  | .label name _ _ :: rest => (name, address) :: addresses address rest
  | .instruction entry _ _ :: rest => addresses (address + entry.length) rest

/-- The number of bytes that placed statements take up. -/
def extent : List Placed → Nat
  | [] => 0
  | x :: rest => x.size + extent rest

/-- The table of labels with addresses; the last label comes first. -/
def tableOf (labels : List (Text × Nat)) : Table UInt16 :=
  (labels.map fun l => (l.1, UInt16.ofNat l.2)).reverse

/-- The labels can be added to a table: their names can, and their addresses fit. -/
structure Fits (table : Table UInt16) (labels : List (Text × Nat)) : Prop where
  fresh : table.Fresh (labels.map Prod.fst)
  small : ∀ l ∈ labels, l.2 ≤ lastAddress

theorem fits_cons {table : Table UInt16} {name : Text} {address : Nat}
    {labels : List (Text × Nat)} :
    Fits table ((name, address) :: labels) ↔
      table.find? name = none ∧ address ≤ lastAddress ∧
        Fits ((name, UInt16.ofNat address) :: table) labels := by
  constructor
  · rintro ⟨hf, hs⟩
    obtain ⟨hnew, hf⟩ := (Table.fresh_cons (UInt16.ofNat address)).1 hf
    exact ⟨hnew, hs _ (List.mem_cons_self ..), hf, fun l hl => hs l (.tail _ hl)⟩
  · rintro ⟨hnew, hsmall, hf, hs⟩
    refine ⟨(Table.fresh_cons _).2 ⟨hnew, hf⟩, ?_⟩
    intro l hl
    rcases List.mem_cons.1 hl with rfl | hl
    · exact hsmall
    · exact hs l hl

/-- **The first pass** succeeds exactly if the labels fit, and then adds them. -/
theorem assignLabels_eq_ok {sources : Table Text} {verbose : Bool} {address : Nat}
    {placed : List Placed} {table labels : Table UInt16} {log : Array Text} :
    (∃ found, assignLabels sources verbose ⟨table, log⟩ address placed = .ok found ∧
      found.labels = labels) ↔
      Fits table (addresses address placed) ∧
        labels = tableOf (addresses address placed) ++ table := by
  induction placed generalizing table log address with
  | nil =>
    constructor
    · rintro ⟨found, h, rfl⟩
      cases h
      exact ⟨⟨Table.fresh_nil, by simp [addresses]⟩, rfl⟩
    · rintro ⟨-, rfl⟩
      exact ⟨_, rfl, rfl⟩
  | cons x placed ih =>
    cases x with
    | label name t calls =>
      have htable : tableOf (addresses address (.label name t calls :: placed)) ++ table =
          tableOf (addresses address placed) ++ (name, UInt16.ofNat address) :: table := by
        simp [addresses, tableOf]
      rw [htable, addresses, fits_cons, assignLabels]
      cases hn : table.find? name with
      | some a => simp
      | none =>
        by_cases hs : lastAddress < address
        · simp [hs, Nat.not_le.2 hs]
        · simp only [Option.isSome_none, Bool.false_eq_true, if_false, hs]
          rw [ih]
          simp
          omega
    | instruction entry c calls =>
      rw [assignLabels, ih]
      rfl

/-! ## One instruction -/

section
variable {sources : Table Text} {labels : Table UInt16} {entry : Instruction} {c : Call}
  {calls : List Site} {code : Code}

/-- How an instruction can be encoded, by its operand layout. -/
theorem encode_cases (h : encode sources labels entry c calls = .ok code) :
    (∃ a b rest, entry.shape = .registerRegister ∧ c.args = a :: b :: rest ∧
        code = .ofRegisters entry.op (registerByte a) (registerByte b)) ∨
      (∃ a value t rest, entry.shape = .registerLiteral ∧ c.args = a :: .literal value t :: rest ∧
        value.toNat ≤ 0xff ∧ code = .ofRegisterByte entry.op (registerByte a) value.toUInt8) ∨
      (entry.shape = .registerLiteral ∧ code = {}) ∨
      (∃ a rest, entry.shape = .register ∧ c.args = a :: rest ∧
        code = .ofRegister entry.op (registerByte a)) ∨
      ∃ a rest value, entry.shape = .literal ∧ c.args = a :: rest ∧
        addressOf sources labels calls a = .ok value ∧
        value ≤ lastAddress ∧ code = .ofAddress entry.op (UInt16.ofNat value) := by
  unfold encode at h
  split at h
  · rename_i a b rest hs ha
    cases h
    exact .inl ⟨a, b, rest, hs, ha, rfl⟩
  · rename_i a b rest hs ha
    split at h
    · cases h
    · rename_i value t
      split at h
      · cases h
      · rename_i hv
        cases h
        exact .inr (.inl ⟨a, value, t, rest, hs, ha, by omega, rfl⟩)
    · cases h
      exact .inr (.inr (.inl ⟨hs, rfl⟩))
  · rename_i a rest hs ha
    cases h
    exact .inr (.inr (.inr (.inl ⟨a, rest, hs, ha, rfl⟩)))
  · rename_i a rest hs ha
    obtain ⟨value, hvalue, h⟩ := Except.bind_eq_ok.1 h
    split at h
    · cases h
    · rename_i hv
      cases h
      exact .inr (.inr (.inr (.inr ⟨a, rest, value, hs, ha, hvalue, by omega, rfl⟩)))
  · cases h

/-- The code of an instruction with an address operand holds the operand's value. -/
theorem encode_address (hs : entry.shape = .literal)
    (h : encode sources labels entry c calls = .ok code) :
    ∃ a rest value, c.args = a :: rest ∧ addressOf sources labels calls a = .ok value ∧
      code = .ofAddress entry.op (UInt16.ofNat value) := by
  obtain ⟨_, _, _, hs', -⟩ | ⟨_, _, _, _, hs', -⟩ | ⟨hs', -⟩ | ⟨_, _, hs', -⟩ |
    ⟨a, rest, value, -, ha, hv, -, hcode⟩ :=
    encode_cases h
  · cases hs.symm.trans hs'
  · cases hs.symm.trans hs'
  · cases hs.symm.trans hs'
  · cases hs.symm.trans hs'
  · exact ⟨a, rest, value, ha, hv, hcode⟩

/-- An encoded instruction holds nothing beyond its layout, and is as long as its catalog entry
says. -/
theorem encode_canonical (hmem : entry ∈ catalog)
    (h : encode sources labels entry c calls = .ok code) :
    code.Canonical ∧ code.bytes.length = entry.length := by
  obtain ⟨a, b, rest, hs, -, rfl⟩ | ⟨a, value, t, rest, hs, -, -, rfl⟩ | ⟨hs, rfl⟩ |
    ⟨a, rest, hs, -, rfl⟩ |
    ⟨a, rest, value, hs, -, -, -, rfl⟩ := encode_cases h
  · exact ⟨Code.canonical_ofRegisters hmem hs _ _, Code.bytes_length_of_op hmem rfl⟩
  · exact ⟨Code.canonical_ofRegisterByte hmem hs _ _, Code.bytes_length_of_op hmem rfl⟩
  · rw [Instruction.length_of_mem hmem, hs]
    exact ⟨Code.canonical_empty, by decide⟩
  · exact ⟨Code.canonical_ofRegister hmem hs _, Code.bytes_length_of_op hmem rfl⟩
  · exact ⟨Code.canonical_ofAddress hmem hs _, Code.bytes_length_of_op hmem rfl⟩

end

/-! ## The second pass -/

/-- `Emitted sources labels address placed rows`: the instructions of `placed`, laid out from
`address` on, give `rows`. -/
inductive Emitted (sources : Table Text) (labels : Table UInt16) :
    Nat → List Placed → List Row → Prop
  | nil {address} : Emitted sources labels address [] []
  | label {address name t calls rest rows} : Emitted sources labels address rest rows →
      Emitted sources labels address (.label name t calls :: rest) rows
  | instruction {address entry c calls code rest rows} :
    encode sources labels entry c calls = .ok code →
      Emitted sources labels (address + entry.length) rest rows →
      Emitted sources labels address (.instruction entry c calls :: rest)
        (⟨c.token.file, c.token.line, address, c.words, code⟩ :: rows)

/-- **The second pass** adds the rows of the instructions to those found before. -/
theorem emit_eq_ok {sources : Table Text} {labels : Table UInt16} {rows : Array Row} {address : Nat}
    {placed : List Placed} {out : List Row} :
    emit sources labels rows address placed = .ok out ↔
      ∃ new, Emitted sources labels address placed new ∧ out = rows.toList ++ new := by
  induction placed generalizing rows address with
  | nil =>
    constructor
    · intro h
      cases h
      exact ⟨[], .nil, by simp⟩
    · rintro ⟨new, hnew, rfl⟩
      cases hnew
      simp [emit]
  | cons x placed ih =>
    cases x with
    | label name t calls =>
      rw [emit, ih]
      constructor
      · rintro ⟨new, hnew, ho⟩
        exact ⟨new, .label hnew, ho⟩
      · rintro ⟨new, hnew, ho⟩
        cases hnew with
        | label hnew => exact ⟨new, hnew, ho⟩
    | instruction entry c calls =>
      rw [emit]
      constructor
      · intro h
        split at h
        · cases h
        · rename_i code hcode
          obtain ⟨new, hnew, ho⟩ := ih.1 h
          exact ⟨_, .instruction hcode hnew, by simpa using ho⟩
      · rintro ⟨new, hnew, ho⟩
        cases hnew with
        | @instruction _ _ _ _ code _ new hcode hnew =>
          simp only [hcode]
          exact ih.2 ⟨new, hnew, by simpa using ho⟩

section
variable {sources : Table Text} {labels : Table UInt16} {address : Nat}
  {placed before after : List Placed} {rows : List Row}

/-- A program is laid out piece by piece. -/
theorem Emitted.split (h : Emitted sources labels address (before ++ after) rows) :
    ∃ rows₁ rows₂, rows = rows₁ ++ rows₂ ∧ Emitted sources labels address before rows₁ ∧
      Emitted sources labels (address + extent before) after rows₂ := by
  induction before generalizing address rows with
  | nil => exact ⟨[], rows, rfl, .nil, h⟩
  | cons x before ih =>
    cases h with
    | label h =>
      obtain ⟨rows₁, rows₂, rfl, h₁, h₂⟩ := ih h
      exact ⟨rows₁, rows₂, rfl, .label h₁, by simpa [extent, Placed.size] using h₂⟩
    | instruction hcode h =>
      obtain ⟨rows₁, rows₂, rfl, h₁, h₂⟩ := ih h
      exact ⟨_ :: rows₁, rows₂, rfl, .instruction hcode h₁,
        by simpa [extent, Placed.size, Nat.add_assoc] using h₂⟩

/-- Every row comes from an instruction. -/
theorem Emitted.of_mem (h : Emitted sources labels address placed rows) {r : Row} (hr : r ∈ rows) :
    ∃ entry c calls, .instruction entry c calls ∈ placed ∧
      encode sources labels entry c calls = .ok r.code ∧
      r.words = c.words := by
  induction h with
  | nil => cases hr
  | label _ ih =>
    obtain ⟨entry, c, calls, hmem, hcode, hw⟩ := ih hr
    exact ⟨entry, c, calls, .tail _ hmem, hcode, hw⟩
  | instruction hcode _ ih =>
    rcases List.mem_cons.1 hr with rfl | hr
    · exact ⟨_, _, _, .head _, hcode, rfl⟩
    · obtain ⟨entry, c, calls, hmem, hcode, hw⟩ := ih hr
      exact ⟨entry, c, calls, .tail _ hmem, hcode, hw⟩

end

/-! ## Rows without gaps -/

/-- Rows that follow one another from `address` on, each as long as its encoding. -/
def Contiguous : Nat → List Row → Prop
  | _, [] => True
  | address, r :: rows => r.ip = address ∧ Contiguous (address + r.code.bytes.length) rows

/-- The bytes of rows, one after the other. -/
def bytesOf (rows : List Row) : Text := rows.flatMap fun r => r.code.bytes

theorem Contiguous.ip_eq {address i : Nat} {rows : List Row} {r : Row} (h : Contiguous address rows)
    (hr : rows[i]? = some r) : r.ip = ((address + (bytesOf (rows.take i)).length : Nat) : Int) := by
  induction rows generalizing address i with
  | nil => cases hr
  | cons q rows ih =>
    cases i with
    | zero =>
      cases hr
      simpa [bytesOf] using h.1
    | succ i =>
      rw [ih h.2 (by simpa using hr)]
      simp [bytesOf]
      omega

/-- The bytes of a row stand in the image at its address. -/
theorem Contiguous.bytes_at {rows : List Row} {r : Row} (h : Contiguous 0 rows) (hr : r ∈ rows) :
    ∃ before after : Text, bytesOf rows = before ++ (r.code.bytes ++ after) ∧
      r.ip = (before.length : Int) := by
  obtain ⟨front, back, rfl⟩ := List.append_of_mem hr
  refine ⟨bytesOf front, bytesOf back, by simp [bytesOf], ?_⟩
  have hip := h.ip_eq (i := front.length) (r := r) (by simp)
  rwa [List.take_left, Nat.zero_add] at hip

/-- Every instruction is the one that its call selects from the catalog. -/
def Selected (placed : List Placed) : Prop :=
  ∀ entry c calls, .instruction entry c calls ∈ placed → Instruction.find? c.key = some entry

theorem Selected.tail {x : Placed} {placed : List Placed} (h : Selected (x :: placed)) :
    Selected placed :=
  fun entry c calls hmem => h entry c calls (.tail _ hmem)

section
variable {sources : Table Text} {labels : Table UInt16} {address : Nat} {placed : List Placed}
  {rows : List Row}

/-- The lengths that place the rows are those of the encodings. -/
theorem Emitted.contiguous (h : Emitted sources labels address placed rows)
    (hsel : Selected placed) :
    Contiguous address rows := by
  induction h with
  | nil => trivial
  | label _ ih => exact ih hsel.tail
  | instruction hcode _ ih =>
    have hmem := Instruction.mem_of_find? (hsel _ _ _ (.head _))
    refine ⟨rfl, ?_⟩
    rw [(encode_canonical hmem hcode).2]
    exact ih hsel.tail

theorem Emitted.bytes_length (h : Emitted sources labels address placed rows)
    (hsel : Selected placed) :
    (bytesOf rows).length = extent placed := by
  induction h with
  | nil => rfl
  | label _ ih => simpa [extent, Placed.size] using ih hsel.tail
  | instruction hcode _ ih =>
    have hmem := Instruction.mem_of_find? (hsel _ _ _ (.head _))
    have := ih hsel.tail
    have := (encode_canonical hmem hcode).2
    simp only [bytesOf, List.flatMap_cons, List.length_append, extent, Placed.size] at *
    omega

end

/-! ## What the passes agree on -/

/-- The call of an instruction. -/
def callOf? : Placed → Option Call
  | .label _ _ _ => none
  | .instruction _ c _ => some c

theorem Emitted.words {sources : Table Text} {labels : Table UInt16} {address : Nat}
    {placed : List Placed} {rows : List Row} (h : Emitted sources labels address placed rows) :
    rows.map Row.words = (placed.filterMap callOf?).map Call.words := by
  induction h with
  | nil => rfl
  | label _ ih => rw [ih, List.filterMap_cons_none rfl]
  | @instruction _ entry c calls _ _ _ _ _ ih =>
    have hc : callOf? (.instruction entry c calls) = some c := rfl
    rw [List.filterMap_cons_some hc, List.map_cons, List.map_cons, ih]

theorem addresses_append (address : Nat) (before after : List Placed) :
    addresses address (before ++ after) =
      addresses address before ++ addresses (address + extent before) after := by
  induction before generalizing address with
  | nil => rfl
  | cons x before ih =>
    cases x with
    | label name t calls => simp [addresses, ih, extent, Placed.size]
    | instruction entry c calls => simp [addresses, ih, extent, Placed.size, Nat.add_assoc]

theorem label_of_mem_addresses {address a : Nat} {placed : List Placed} {name : Text}
    (h : (name, a) ∈ addresses address placed) : ∃ t calls, .label name t calls ∈ placed := by
  induction placed generalizing address with
  | nil => cases h
  | cons x placed ih =>
    cases x with
    | label n t calls =>
      rcases List.mem_cons.1 h with h | h
      · cases h
        exact ⟨t, calls, .head _⟩
      · obtain ⟨t', calls', hmem⟩ := ih h
        exact ⟨t', calls', .tail _ hmem⟩
    | instruction entry c calls =>
      obtain ⟨t', calls', hmem⟩ := ih h
      exact ⟨t', calls', .tail _ hmem⟩

/-- Labels that fit have distinct names. -/
theorem Fits.distinct {labels : List (Text × Nat)} (h : Fits [] labels) :
    ((tableOf labels).map Prod.fst).Nodup := by
  have hnames : (tableOf labels).map Prod.fst = (labels.map Prod.fst).reverse := by simp [tableOf]
  rw [hnames]
  exact List.pairwise_reverse.2 (h.fresh.distinct.imp Ne.symm)

/-- A label that fits is found at its own address. -/
theorem Fits.find? {labels : List (Text × Nat)} (h : Fits [] labels) {name : Text} {a : Nat}
    (hmem : (name, a) ∈ labels) :
    (tableOf labels).find? name = some (UInt16.ofNat a) ∧ (UInt16.ofNat a).toNat = a := by
  constructor
  · exact Table.find?_of_mem h.distinct (List.mem_reverse.2 (List.mem_map.2 ⟨(name, a), hmem, rfl⟩))
  · have := h.small _ hmem
    unfold lastAddress at this
    rw [UInt16.toNat_ofNat']
    omega

/-! ## References to labels -/

/-- An argument that counts as a literal and is written with a dollar sign is a label. -/
theorem eq_label_of_text {a : Arg} {name : Text} (hk : a.kind = .literal)
    (ht : a.text = utf8 "$" ++ name) :
    ∃ t, a = .label name t := by
  cases a with
  | register n index t => cases hk
  | literal value t => cases (List.cons.inj ht).1
  | label n t =>
    cases List.append_cancel_left ht
    exact ⟨t, rfl⟩
  | registerParam index t => cases hk
  | literalParam index t => cases (List.cons.inj ht).1

/-- An instruction that is written as the load of a label's address holds that address. -/
theorem encode_reference {sources : Table Text} {labels : Table UInt16} {entry : Instruction}
    {c : Call} {calls : List Site} {code : Code} {name : Text}
    (hsel : Instruction.find? c.key = some entry)
    (h : encode sources labels entry c calls = .ok code)
    (hw : c.words = [utf8 "lda", utf8 "$" ++ name]) :
    labels.find? name = some code.imm := by
  obtain ⟨hname, hargs⟩ := List.cons.inj hw
  obtain ⟨a, ha, ht⟩ : ∃ a, c.args = [a] ∧ a.text = utf8 "$" ++ name := by
    match hc : c.args with
    | [] => simp [hc] at hargs
    | [a] => exact ⟨a, rfl, by simpa [hc] using hargs⟩
    | _ :: _ :: _ => simp [hc] at hargs
  have hkey : c.key = overloadKey (utf8 "lda") [a.kind] := by
    rw [Call.key, Call.kinds, ha, hname]
    rfl
  have hk : a.kind = .literal := by
    have hnone : Instruction.find? (overloadKey (utf8 "lda") [.register]) = none := by decide
    cases a with
    | register n index t => simp [hkey, Arg.kind, hnone] at hsel
    | registerParam index t => simp [hkey, Arg.kind, hnone] at hsel
    | literal value t => rfl
    | label n t => rfl
    | literalParam index t => rfl
  obtain ⟨t, rfl⟩ := eq_label_of_text hk ht
  have hentry : entry.shape = .literal := by
    have hsome : (Instruction.find? (overloadKey (utf8 "lda") [.literal])).map Instruction.shape =
        some .literal := by
      decide
    rw [hkey, hk] at hsel
    simpa [hsel] using hsome
  obtain ⟨b, rest, value, hb, hv, rfl⟩ := encode_address hentry h
  rw [ha] at hb
  cases hb
  unfold addressOf at hv
  cases hf : labels.find? name with
  | none => simp [hf] at hv
  | some address =>
    simp only [hf, Except.ok.injEq] at hv
    subst hv
    rw [Code.ofAddress, UInt16.ofNat_toNat]

/-! ## Agreement -/

/-- The number of instructions. -/
def instructions (placed : List Placed) : Nat := (placed.filterMap callOf?).length

/-- A program whose rows, image and labels agree with each other and with what was placed. -/
structure Agrees (placed : List Placed) (p : Program) : Prop where
  /-- There is one row for each instruction, in order. -/
  words : p.rows.map Row.words = (placed.filterMap callOf?).map Call.words
  /-- The first row starts at zero. -/
  first : ∀ r, p.rows[0]? = some r → r.ip = 0
  /-- Every other row starts where the bytes of the row before it end. -/
  next : ∀ i r r', p.rows[i]? = some r → p.rows[i + 1]? = some r' →
    r'.ip = r.ip + (r.code.bytes.length : Int)
  /-- The image ends with the bytes of the last row. -/
  last : ∀ r, p.rows.getLast? = some r → (p.image.length : Int) = r.ip + (r.code.bytes.length : Int)
  /-- A label has for its address the number of bytes before it, which is where the next row starts,
  or the length of the image if no row follows. -/
  label : ∀ before name t calls after, placed = before ++ .label name t calls :: after →
    ∃ address, p.labels.find? name = some address ∧
      address.toNat = (bytesOf (p.rows.take (instructions before))).length ∧
      (address.toNat : Int) = match p.rows[instructions before]? with
        | some r => r.ip
        | none => (p.image.length : Int)
  /-- Nothing else is in the table of labels. -/
  only : ∀ name address, (name, address) ∈ p.labels → ∃ t calls, .label name t calls ∈ placed
  /-- The load of a label's address, before or after the label, holds that address. -/
  reference : ∀ r ∈ p.rows, ∀ name, r.words = [utf8 "lda", utf8 "$" ++ name] →
    p.labels.find? name = some r.code.imm

theorem Emitted.rows_length {sources : Table Text} {labels : Table UInt16} {address : Nat}
    {placed : List Placed} {rows : List Row} (h : Emitted sources labels address placed rows) :
    rows.length = instructions placed := by
  rw [← List.length_map Row.words, h.words, List.length_map]
  rfl

/-- **The passes agree.** -/
theorem agrees_of_passes {sources : Table Text} {placed : List Placed} {rows : List Row}
    (hsel : Selected placed) (hfits : Fits [] (addresses 0 placed))
    (h : Emitted sources (tableOf (addresses 0 placed)) 0 placed rows) :
    Agrees placed ⟨rows, tableOf (addresses 0 placed)⟩ := by
  have hrows := h.contiguous hsel
  constructor
  case words => exact h.words
  case first =>
    intro r hr
    simpa [bytesOf] using hrows.ip_eq hr
  case next =>
    intro i r r' hr hr'
    rw [hrows.ip_eq hr, hrows.ip_eq hr', List.take_add_one, hr]
    simp [bytesOf]
  case last =>
    intro r hr
    obtain ⟨init, rfl⟩ := List.getLast?_eq_some_iff.1 hr
    rw [hrows.ip_eq (List.getElem?_concat_length ..), List.take_left]
    simp [Program.image, bytesOf]
  case label =>
    rintro before name t calls after rfl
    obtain ⟨rows₁, rows₂, rfl, h₁, h₂⟩ := h.split
    have hbytes : (bytesOf rows₁).length = extent before :=
      h₁.bytes_length fun entry c calls hmem => hsel entry c calls (List.mem_append_left _ hmem)
    have htake : (rows₁ ++ rows₂).take (instructions before) = rows₁ := by
      rw [← h₁.rows_length, List.take_left]
    have hmem :
        (name, (bytesOf rows₁).length) ∈ addresses 0 (before ++ .label name t calls :: after) := by
      rw [addresses_append, hbytes, Nat.zero_add]
      exact List.mem_append_right _ (.head _)
    obtain ⟨hfind, hexact⟩ := hfits.find? hmem
    refine ⟨_, hfind, by rw [hexact, htake], ?_⟩
    rw [hexact]
    cases hr : (rows₁ ++ rows₂)[instructions before]? with
    | some r =>
      have hip := hrows.ip_eq hr
      rw [htake, Nat.zero_add] at hip
      exact hip.symm
    | none =>
      rw [← h₁.rows_length, List.getElem?_append_right (Nat.le_refl _), Nat.sub_self] at hr
      cases rows₂ with
      | nil => simp [Program.image, bytesOf]
      | cons r rows₂ => cases hr
  case only =>
    intro name address hmem
    obtain ⟨l, hl, he⟩ : ∃ l ∈ addresses 0 placed, (l.1, UInt16.ofNat l.2) = (name, address) := by
      simpa [tableOf] using hmem
    cases he
    exact label_of_mem_addresses hl
  case reference =>
    intro r hr name hw
    obtain ⟨entry, c, calls, hmem, hcode, hwords⟩ := h.of_mem hr
    exact encode_reference (hsel _ _ _ hmem) hcode (hwords ▸ hw)

end Octet.Layout
