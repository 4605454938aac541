import Octet.Proofs.Execution

/-!
# From addresses back to rows

Rows are placed by the lengths in the catalog, found by the lengths of their codes, and make up the
image by their bytes; the emulator finds a code by an address that is cut to a word. For an
assembled program that fits into memory all four cut the image into the same pieces.

* `Layout.Contiguous.exists_holds` — every address of the image lies in a row;
* `Layout.Contiguous.byte_at` — the bytes of a row are those of the image at its addresses;
* `Program.Lists` — a place in the listing is that of an address;
* `listing_partitions_image` — **every address of the image has one place in the listing, and no
  other address has any; the emulator shows the line of that place, and the code if an instruction
  starts there**.
-/

namespace Octet

namespace Layout

variable {address n i j : Nat} {rows : List Row} {r q : Row}

theorem holds_iff :
    r.holds n = true ↔ r.ip ≤ (n : Int) ∧ (n : Int) < r.ip + (r.code.bytes.length : Int) := by
  simp only [Row.holds, Bool.and_eq_true, decide_eq_true_eq, Code.bytes_length]

/-- There are no gaps between rows. -/
theorem Contiguous.exists_holds (h : Contiguous address rows) (hlow : address ≤ n)
    (hhigh : n < address + (bytesOf rows).length) : ∃ r ∈ rows, r.holds n = true := by
  induction rows generalizing address with
  | nil =>
    simp [bytesOf] at hhigh
    omega
  | cons q rows ih =>
    obtain ⟨hip, hrest⟩ := h
    by_cases hn : n < address + q.code.bytes.length
    · refine ⟨q, List.mem_cons_self .., holds_iff.2 ?_⟩
      omega
    · have hlength :
          (bytesOf (q :: rows)).length = q.code.bytes.length + (bytesOf rows).length := by
        simp [bytesOf]
      obtain ⟨r, hr, hholds⟩ := ih hrest (by omega) (by omega)
      exact ⟨r, .tail _ hr, hholds⟩

/-- Rows do not overlap. -/
theorem Contiguous.eq_of_holds (h : Contiguous address rows) (hi : rows[i]? = some r)
    (hj : rows[j]? = some q) (hr : r.holds n = true) (hq : q.holds n = true) : i = j := by
  induction rows generalizing address i j with
  | nil => cases hi
  | cons first rows ih =>
    have hapart {k : Nat} {x : Row} (hk : rows[k]? = some x) (hx : x.holds n = true) :
        ¬ first.holds n = true := by
      have hle := h.2.le_ip (List.mem_of_getElem? hk)
      have hip := h.1
      rw [holds_iff] at hx ⊢
      omega
    cases i with
    | zero =>
      cases j with
      | zero => rfl
      | succ j =>
        cases hi
        exact absurd hr (hapart hj hq)
    | succ i =>
      cases j with
      | zero =>
        cases hj
        exact absurd hq (hapart hi hr)
      | succ j => rw [ih h.2 hi hj]

/-- The bytes of a row are those of the image at its addresses. -/
theorem Contiguous.byte_at (h : Contiguous 0 rows) (hr : r ∈ rows) {k : Nat}
    (hk : (n : Int) = r.ip + k) (hlt : k < r.code.bytes.length) :
    (bytesOf rows)[n]? = r.code.bytes[k]? := by
  obtain ⟨before, after, hbytes, hip⟩ := h.bytes_at hr
  have hn : n = before.length + k := by omega
  rw [hbytes, hn, List.getElem?_append_right (Nat.le_add_right ..), Nat.add_sub_cancel_left,
    List.getElem?_append_left hlt]

/-- An address at which no row starts has no code. -/
theorem lookup_code_eq_none {ip : UInt16} (hrows : ∀ r ∈ rows, 0 ≤ r.ip ∧ r.ip < 65536)
    (hip : ∀ r ∈ rows, r.ip ≠ (ip.toNat : Int)) :
    (rows.map fun r => (UInt16.ofInt r.ip, r.code)).lookup ip = none := by
  rw [List.lookup_eq_none_iff]
  intro p hp
  obtain ⟨r, hr, rfl⟩ := List.mem_map.1 hp
  rw [bne_iff_ne]
  intro he
  obtain ⟨hlow, hhigh⟩ := hrows r hr
  have hword := toNat_ofInt (Int.toNat_of_nonneg hlow).symm (by omega)
  refine hip r hr ?_
  rw [he, hword]
  omega

end Layout

open Layout

/-! ## Places -/

/-- A place in the listing of a program is that of the address `n`: the row has the address among
its bytes, no other row has, and the byte of the row is the byte of the image. -/
structure Program.Lists (p : Program) (n : Nat) (d : Located) : Prop where
  index : d.index = n - d.row.ip
  only : ∃ i, p.rows[i]? = some d.row ∧ ∀ (j : Nat) (r : Row), p.rows[j]? = some r →
    (j = i ↔ r.ip ≤ (n : Int) ∧ (n : Int) < r.ip + (r.code.bytes.length : Int))
  byte : ∃ (k : Nat) (b : UInt8), d.index = k ∧ d.row.code.bytes[k]? = some b ∧ p.image[n]? = some b

namespace Program

variable {p : Program} {ip : UInt16} {d : Located}

theorem locate?_eq_some :
    p.locate? ip = some d ↔ p.rowAt? ip.toNat = some d.row ∧ d.index = ip.toNat - d.row.ip := by
  unfold locate?
  rw [Option.map_eq_some_iff]
  constructor
  · rintro ⟨r, hr, rfl⟩
    exact ⟨hr, rfl⟩
  · rintro ⟨hr, hindex⟩
    exact ⟨d.row, hr, by rw [← hindex]⟩

theorem holds_of_rowAt? {n : Nat} {r : Row} (h : p.rowAt? n = some r) :
    r ∈ p.rows ∧ r.holds n = true := by
  unfold rowAt? at h
  have hmem := List.mem_of_find?_eq_some h
  have hholds := List.find?_some h
  exact ⟨hmem, hholds⟩

theorem locate?_eq_none : p.locate? ip = none ↔ ∀ r ∈ p.rows, ¬ r.holds ip.toNat = true := by
  rw [locate?, Option.map_eq_none_iff, rowAt?, List.find?_eq_none]

/-- A row that starts at an address holds it. -/
theorem holds_of_ip {r : Row} (hip : r.ip = (ip.toNat : Int)) : r.holds ip.toNat = true := by
  have hpos : 0 < r.code.bytes.length := List.length_pos_iff.2 r.code.bytes_ne_nil
  rw [holds_iff]
  omega

section
variable (hrows : Contiguous 0 p.rows)
include hrows

theorem locate?_isSome : (p.locate? ip).isSome = true ↔ ip.toNat < p.image.length := by
  constructor
  · intro h
    obtain ⟨d, hd⟩ := Option.isSome_iff_exists.1 h
    obtain ⟨hmem, hholds⟩ := holds_of_rowAt? (locate?_eq_some.1 hd).1
    have hend : d.row.ip + (d.row.code.bytes.length : Int) ≤ (p.image.length : Int) :=
      hrows.end_le hmem
    have hhigh := (holds_iff.1 hholds).2
    omega
  · intro hlt
    obtain ⟨r, hr, hholds⟩ :=
      hrows.exists_holds (n := ip.toNat) (Nat.zero_le _) (by rwa [Nat.zero_add])
    rw [Option.isSome_iff_ne_none, ne_eq, locate?_eq_none]
    exact fun hnone => hnone r hr hholds

theorem lists_of_locate? (h : p.locate? ip = some d) : p.Lists ip.toNat d := by
  obtain ⟨hfind, hindex⟩ := locate?_eq_some.1 h
  obtain ⟨hmem, hholds⟩ := holds_of_rowAt? hfind
  obtain ⟨i, hi⟩ := List.getElem?_of_mem hmem
  refine ⟨hindex, ⟨i, hi, ?_⟩, ?_⟩
  · intro j r hj
    rw [← holds_iff]
    constructor
    · rintro rfl
      cases hj.symm.trans hi
      exact hholds
    · intro hr
      exact hrows.eq_of_holds hj hi hr hholds
  · obtain ⟨hlow, hhigh⟩ := holds_iff.1 hholds
    obtain ⟨k, hk⟩ : ∃ k : Nat, d.index = k := ⟨d.index.toNat, by omega⟩
    have hlt : k < d.row.code.bytes.length := by omega
    have hbyte := hrows.byte_at (n := ip.toNat) hmem (k := k) (by omega) hlt
    rw [List.getElem?_eq_getElem hlt] at hbyte
    exact ⟨k, _, hk, List.getElem?_eq_getElem hlt, hbyte⟩

variable (hfits : p.image.length ≤ memorySize)
include hfits

/-- Addresses in a program that fits are not cut. -/
theorem ip_bounds {r : Row} (hr : r ∈ p.rows) : 0 ≤ r.ip ∧ r.ip < 65536 := by
  have hlow := hrows.le_ip hr
  have hend : r.ip + (r.code.bytes.length : Int) ≤ (p.image.length : Int) := hrows.end_le hr
  have hpos : 0 < r.code.bytes.length := List.length_pos_iff.2 r.code.bytes_ne_nil
  unfold memorySize at hfits
  omega

theorem codeAt?_eq_none (hip : ∀ r ∈ p.rows, r.ip ≠ (ip.toNat : Int)) : p.codeAt? ip = none :=
  lookup_code_eq_none (fun _ hr => ip_bounds hrows hfits hr) hip

theorem codeAt?_of_locate? (h : p.locate? ip = some d) :
    p.codeAt? ip = if d.index = 0 then some d.row.code else none := by
  obtain ⟨hfind, hindex⟩ := locate?_eq_some.1 h
  split
  · exact hrows.lookup_code (List.mem_of_find?_eq_some hfind) (by omega)
  · rename_i hne
    refine codeAt?_eq_none hrows hfits ?_
    intro r hr hip
    have hfirst : p.rowAt? ip.toNat = some r := hrows.find?_holds hr (holds_of_ip hip)
    cases hfirst.symm.trans hfind
    omega

theorem codeAt?_of_not_located (h : p.locate? ip = none) : p.codeAt? ip = none := by
  refine codeAt?_eq_none hrows hfits ?_
  intro r hr hip
  exact locate?_eq_none.1 h r hr (holds_of_ip hip)

end

end Program

/-- **The listing maps addresses back to rows without gaps or overlap.** In an assembled program
that fits into memory, an address has a place in the listing exactly if it lies in the image. The
row of that place is the only one with the address among its bytes, and has there the byte of the
image. An emulator at the address shows the line of the row, and the code of the row if its
instruction starts at the address. -/
theorem listing_partitions_image (s : Settings) (source : Text) (p : Program)
    (h : (assemble s source).result = .ok p) (hfits : p.image.length ≤ memorySize) (ip : UInt16) :
    ((p.locate? ip).isSome = true ↔ ip.toNat < p.image.length) ∧
      (∀ d, p.locate? ip = some d → p.Lists ip.toNat d) ∧
      ∀ e : Emulator, e.program = p → e.machine.ip = ip →
        (∀ d, p.locate? ip = some d → e.line = d.row.line ∧ e.code = if d.index = 0 then
          d.row.code else {}) ∧ (p.locate? ip = none → e.line = 0 ∧ e.code = {}) := by
  obtain ⟨hrows, -⟩ := assemble_rows h
  refine ⟨Program.locate?_isSome hrows, fun d hd => Program.lists_of_locate? hrows hd, ?_⟩
  rintro e rfl rfl
  constructor
  · intro d hd
    have hcode := Program.codeAt?_of_locate? hrows hfits hd
    constructor
    · rw [Emulator.line, Emulator.row?, (Program.locate?_eq_some.1 hd).1]
    · rw [Emulator.code, hcode]
      split <;> rfl
  · intro hnone
    constructor
    · rw [Emulator.line, Emulator.row?, Option.map_eq_none_iff.1 hnone]
    · rw [Emulator.code, Program.codeAt?_of_not_located hrows hfits hnone]
      rfl

/-- Inside of an instruction there is a line, but no code. -/
theorem listing_partitions_image_inside :
    ∃ p d, (assemble {} (utf8 "psh r1\n\nlda #1234h\n")).result = .ok p ∧
      p.image.length ≤ memorySize ∧
      p.locate? 2 = some d ∧ d.index = 1 ∧ d.row.line = 3 ∧ p.Lists 2 d ∧
      Emulator.line { machine := { ip := 2 }, program := p } = 3 ∧
      Emulator.code { machine := { ip := 2 }, program := p } = {} := by
  have hrun : (assemble {} (utf8 "psh r1\n\nlda #1234h\n")).result.toOption.map
      (fun p => (p.image.length, (p.locate? 2).map fun d => (d.index, d.row.line))) =
        some (4, some (1, 3)) := by
    simp only [assemble, Expansion.expandIncludes, Expansion.expandMacros,
      Worklist.expand_eq_nested]
    decide +kernel
  obtain ⟨p, hp, hplaces⟩ := Option.map_eq_some_iff.1 hrun
  obtain ⟨hlength, hplace⟩ := Prod.mk.inj hplaces
  obtain ⟨d, hd, hvalues⟩ := Option.map_eq_some_iff.1 hplace
  obtain ⟨hindex, hline⟩ := Prod.mk.inj hvalues
  have hok := Except.toOption_eq_some.1 hp
  have hfits : p.image.length ≤ memorySize := by
    rw [hlength]
    decide
  obtain ⟨-, hlists, hshown⟩ := listing_partitions_image _ _ p hok hfits 2
  obtain ⟨heline, hecode⟩ := (hshown { machine := { ip := 2 }, program := p } rfl rfl).1 d hd
  refine ⟨p, d, hok, hfits, hd, hindex, hline, hlists d hd, heline.trans hline, hecode.trans ?_⟩
  rw [if_neg (by omega)]

end Octet
