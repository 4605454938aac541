import Octet.Proofs.ListingAddresses

/-!
# Labels in a listing

A listing prints the labels of an address before the row that starts there. A label may also stand
at the end of the image, where no row starts.

* `Program.Presents` — lines that show every row and every label of a program once, each in its
  place;
* `Program.present_labels` — what is printed and what is left over are the labels;
* `Program.presents_completed` — the lines of the listing and then the labels at the end of the
  image present the program;
* `listing_shows_labels_of_rows` — **a listing shows every label exactly if none stands at the end
  of the image, and otherwise lacks the lines of those labels, and only these**.
-/

namespace Octet

open Octet.Layout

/-! ## Sorted names -/

namespace Text

/-- Texts are ordered by their bytes. -/
theorem le_iff {a b : Text} : le a b = true ↔ a ≤ b := by
  fun_induction le a b with
  | case1 => simp
  | case2 => simp
  | case3 a as b bs hlt => simp [List.cons_le_cons_iff, hlt]
  | case4 a as b bs hge hlt =>
    have hne : a ≠ b := fun he => UInt8.lt_irrefl _ (he ▸ hlt)
    simp [List.cons_le_cons_iff, hge, hne]
  | case5 a as b bs hge hle ih =>
    have he : a = b := UInt8.le_antisymm (UInt8.not_lt.1 hle) (UInt8.not_lt.1 hge)
    rw [ih, List.cons_le_cons_iff]
    simp [he]

end Text

namespace Table

variable {α : Type} {t : Table α} {name : Text}

theorem mem_sortedNames : name ∈ t.sortedNames ↔ ∃ v, (name, v) ∈ t := by
  simp [sortedNames]

/-- Distinct names are in strict order. -/
theorem sortedNames_pairwise (h : (t.map Prod.fst).Nodup) : t.sortedNames.Pairwise (· < ·) := by
  have htrans (a b c : Text) (hab : Text.le a b = true) (hbc : Text.le b c = true) :
      Text.le a c = true :=
    Text.le_iff.2 (List.le_trans (Text.le_iff.1 hab) (Text.le_iff.1 hbc))
  have htotal (a b : Text) : (Text.le a b || Text.le b a) = true := by
    rw [Bool.or_eq_true, Text.le_iff, Text.le_iff]
    exact List.le_total a b
  have hsorted : t.sortedNames.Pairwise fun a b => Text.le a b = true :=
    List.pairwise_mergeSort htrans htotal _
  have hnodup : t.sortedNames.Nodup := (List.mergeSort_perm _ _).nodup_iff.2 h
  refine (hsorted.and hnodup).imp ?_
  rintro a b ⟨hle, hne⟩
  rw [← List.not_le]
  intro hge
  exact hne (List.le_antisymm (Text.le_iff.1 hle) hge)

end Table

namespace Program

/-! ## Lines that present a program -/

/-- A line of a listing. -/
inductive Line where
  | label (name : Text) (address : Int)
  | row (r : Row)

namespace Line

/-- The printed form. -/
def text : Line → Text
  | label name address => labelText address name
  | row r => r.text

def label? : Line → Option (Text × Int)
  | label name address => some (name, address)
  | row _ => none

def row? : Line → Option Row
  | label _ _ => none
  | row r => some r

/-- Lines are their rows and their labels, in some order. -/
theorem perm (lines : List Line) :
    lines.Perm ((lines.filterMap row?).map row ++ (lines.filterMap label?).map fun l =>
      label l.1 l.2) := by
  induction lines with
  | nil => exact .nil
  | cons l lines ih =>
    cases l with
    | row r => exact ih.cons _
    | label name address => exact (ih.cons _).trans List.perm_middle.symm

end Line

/-- The labels with their addresses. -/
def places (labels : Table UInt16) : List (Text × Int) :=
  labels.map fun l => (l.1, (l.2.toNat : Int))

/-- Lines that present a program. -/
structure Presents (p : Program) (lines : List Line) : Prop where
  /-- There is one line for every row. -/
  rows : lines.filterMap Line.row? = p.rows
  /-- The rows are in the order of their addresses. -/
  ascending : p.rows.Pairwise fun r q => r.ip < q.ip
  /-- There is one line for every label, with its address. -/
  labels : (lines.filterMap Line.label?).Perm (places p.labels)
  /-- The labels of an address stand together, sorted by name, directly before the row that starts
  there, or after all rows if none does. -/
  block : ∀ address : Int, ∃ (before : List Line) (names : List Text) (after : List Line),
    lines = before ++ names.map (Line.label · address) ++ after ∧
    names.Pairwise (· < ·) ∧
    (∀ name, .label name address ∉ before ∧ .label name address ∉ after) ∧
    ((∃ r rest, after = .row r :: rest ∧ r.ip = address) ∨
      (∀ r ∈ p.rows, r.ip ≠ address) ∧ after.filterMap Line.row? = [])

/-- Two presentations of a program print the same number of bytes. -/
theorem Presents.length_eq {p : Program} {lines lines' : List Line} (h : p.Presents lines)
    (h' : p.Presents lines') :
    (lines.map Line.text).flatten.length = (lines'.map Line.text).flatten.length := by
  have hperm : lines.Perm lines' := by
    refine (Line.perm lines).trans (.trans ?_ (Line.perm lines').symm)
    rw [h.rows, h'.rows]
    exact ((h.labels.trans h'.labels.symm).map _).append_left _
  exact (hperm.map Line.text).flatten.length_eq

/-! ## The lines of a listing -/

variable {labels : Table UInt16} {rows : List Row} {address : Int} {name : Text}

theorem labelText_ne_nil : labelText address name ≠ [] :=
  List.append_ne_nil_of_right_ne_nil _ (by decide +kernel)

/-- The lines of the labels at an address. -/
def labelLines (labels : Table UInt16) (address : Int) : List Line :=
  (namesAt labels address).map (Line.label · address)

theorem mem_namesAt : name ∈ namesAt labels address ↔ (name, address) ∈ places labels := by
  rw [namesAt, Table.mem_sortedNames, places, List.mem_map]
  constructor
  · rintro ⟨v, hv⟩
    obtain ⟨hmem, hv⟩ := List.mem_filter.1 hv
    exact ⟨_, hmem, by rw [← eq_of_beq hv]⟩
  · rintro ⟨l, hmem, he⟩
    cases he
    exact ⟨l.2, List.mem_filter.2 ⟨hmem, beq_self_eq_true _⟩⟩

theorem namesAt_pairwise (h : (labels.map Prod.fst).Nodup) :
    (namesAt labels address).Pairwise (· < ·) :=
  Table.sortedNames_pairwise (((List.filter_sublist).map _).nodup h)

/-- The lines of the labels at an address are exactly those labels. -/
theorem label?_labelLines :
    ((labelLines labels address).filterMap Line.label?).Perm
      (places (labels.filter fun l => (l.2.toNat : Int) == address)) := by
  have hnames : (labelLines labels address).filterMap Line.label? =
      (namesAt labels address).map (·, address) := by
    rw [labelLines, List.filterMap_map, ← List.filterMap_eq_map]
    rfl
  have hplaces : places (labels.filter fun l => (l.2.toNat : Int) == address) =
      ((labels.filter fun l => (l.2.toNat : Int) == address).map (·.1)).map (·, address) := by
    rw [places, List.map_map]
    refine List.map_congr_left fun l hl => ?_
    have hl' := (List.mem_filter.1 hl).2
    rw [Function.comp_apply, eq_of_beq hl']
  rw [hnames, hplaces]
  exact (List.mergeSort_perm _ _).map _

theorem row?_labelLines : (labelLines labels address).filterMap Line.row? = [] := by
  simp [labelLines, Line.row?]

theorem mem_labelLines {address' : Int} (h : .label name address' ∈ labelLines labels address) :
    address' = address := by
  obtain ⟨n, -, he⟩ := List.mem_map.1 h
  cases he
  rfl

/-- No line for the rows at other addresses is one for a label at `address`. -/
theorem label_notMem_flatMap (hne : ∀ r ∈ rows, r.ip ≠ address) (name : Text) :
    .label name address ∉ rows.flatMap fun r => labelLines labels r.ip ++ [Line.row r] := by
  intro hmem
  obtain ⟨r, hr, hmem⟩ := List.mem_flatMap.1 hmem
  rcases List.mem_append.1 hmem with hmem | hmem
  · exact hne r hr (mem_labelLines hmem).symm
  · cases List.mem_singleton.1 hmem

/-- The lines for rows: the labels of an address stand before the first row there, and are used
up. -/
def present (labels : Table UInt16) : List Row → List Line
  | [] => []
  | r :: rows =>
    labelLines labels r.ip ++ .row r ::
      present (labels.filter fun l => (l.2.toNat : Int) != r.ip) rows

theorem present_text : (present labels rows).map Line.text = listingLines labels rows := by
  induction rows generalizing labels with
  | nil => rfl
  | cons r rows ih =>
    rw [present, listingLines, List.map_append, List.map_cons, ih, labelLines, List.map_map]
    rfl

theorem present_rows : (present labels rows).filterMap Line.row? = rows := by
  induction rows generalizing labels with
  | nil => rfl
  | cons r rows ih => simp [present, row?_labelLines, ih, Line.row?]

/-- What is printed for rows and what is left over are the labels. -/
theorem present_labels :
    ((present labels rows).filterMap Line.label? ++
      places (labels.filter fun l => rows.all fun r => r.ip != (l.2.toNat : Int))).Perm
        (places labels) := by
  induction rows generalizing labels with
  | nil =>
    rw [present, List.filterMap_nil, List.nil_append, List.filter_eq_self.2 fun l _ => List.all_nil]
  | cons r rows ih =>
    have hleft : (labels.filter fun l => (r :: rows).all fun r => r.ip != (l.2.toNat : Int)) =
        (labels.filter fun l => (l.2.toNat : Int) != r.ip).filter fun l => rows.all fun r =>
          r.ip != (l.2.toNat : Int) := by
      rw [List.filter_filter]
      refine List.filter_congr fun l _ => ?_
      rw [List.all_cons, Bool.and_comm, bne_comm]
    have hcut : (places (labels.filter fun l => (l.2.toNat : Int) == r.ip) ++
        places (labels.filter fun l => (l.2.toNat : Int) != r.ip)).Perm (places labels) := by
      rw [places, places, ← List.map_append]
      exact (List.filter_append_perm _ labels).map _
    rw [present, List.filterMap_append, List.filterMap_cons_none rfl, hleft, List.append_assoc]
    exact (label?_labelLines.append ih).trans hcut

/-- A row does not use up the labels of other addresses. -/
theorem labelLines_filter {ip : Int} (hne : ip ≠ address) :
    labelLines (labels.filter fun l => (l.2.toNat : Int) != ip) address =
      labelLines labels address := by
  have hfilter : ((labels.filter fun l => (l.2.toNat : Int) != ip).filter fun l =>
      (l.2.toNat : Int) == address) = labels.filter fun l => (l.2.toNat : Int) == address := by
    rw [List.filter_filter]
    refine List.filter_congr fun l _ => ?_
    by_cases hl : (l.2.toNat : Int) = address
    · simp [hl, Ne.symm hne]
    · simp [hl]
  rw [labelLines, namesAt, hfilter]
  rfl

theorem present_eq_flatMap (h : rows.Pairwise fun r q => r.ip < q.ip) :
    present labels rows = rows.flatMap fun r => labelLines labels r.ip ++ [.row r] := by
  induction rows generalizing labels with
  | nil => rfl
  | cons r rows ih =>
    obtain ⟨hr, hrows⟩ := List.pairwise_cons.1 h
    have hrest : (rows.flatMap fun q =>
        labelLines (labels.filter fun l => (l.2.toNat : Int) != r.ip) q.ip ++ [.row q]) =
        rows.flatMap fun q => labelLines labels q.ip ++ [.row q] := by
      rw [List.flatMap_def, List.flatMap_def]
      congr 1
      refine List.map_congr_left fun q hq => ?_
      rw [labelLines_filter (Int.ne_of_lt (hr q hq))]
    rw [present, ih hrows, hrest, List.flatMap_cons, List.append_assoc, List.singleton_append]

end Program

theorem Layout.Contiguous.ascending {address : Nat} {rows : List Row}
    (h : Contiguous address rows) :
    rows.Pairwise fun r q => r.ip < q.ip := by
  induction rows generalizing address with
  | nil => exact .nil
  | cons r rows ih =>
    refine .cons (fun q hq => ?_) (ih h.2)
    have hle := h.2.le_ip hq
    have hip := h.1
    have hpos : 0 < r.code.bytes.length := List.length_pos_iff.2 r.code.bytes_ne_nil
    omega

namespace Program

/-! ## All labels -/

/-- The lines of the listing and then those of the labels at the end of the image. -/
def completed (p : Program) : List Line :=
  present p.labels p.rows ++ labelLines p.labels p.image.length

section
variable {p : Program}

theorem completed_text : (p.completed.map Line.text).flatten =
    p.listing ++ ((labelLines p.labels p.image.length).map Line.text).flatten := by
  rw [completed, List.map_append, present_text, List.flatten_append]
  rfl

theorem mem_labelLines_end {line : Line} : line ∈ labelLines p.labels p.image.length ↔
    ∃ l ∈ p.labels, l.2.toNat = p.image.length ∧ line = .label l.1 p.image.length := by
  rw [labelLines, List.mem_map]
  constructor
  · rintro ⟨name, hname, rfl⟩
    obtain ⟨l, hl, he⟩ := List.mem_map.1 (mem_namesAt.1 hname)
    obtain ⟨rfl, hend⟩ := Prod.mk.inj he
    exact ⟨l, hl, Int.ofNat.inj hend, rfl⟩
  · rintro ⟨l, hl, hend, rfl⟩
    exact ⟨l.1, mem_namesAt.2 (List.mem_map.2 ⟨l, hl, by rw [hend]⟩), rfl⟩

end

/-- Labels with distinct names, each at a row or at the end of the image. -/
structure Labelled (p : Program) : Prop where
  rows : Contiguous 0 p.rows
  distinct : (p.labels.map Prod.fst).Nodup
  placed : ∀ l ∈ p.labels, (∃ r ∈ p.rows, r.ip = (l.2.toNat : Int)) ∨ l.2.toNat = p.image.length

namespace Labelled

variable {p : Program} (h : p.Labelled)
include h

theorem ip_lt {r : Row} (hr : r ∈ p.rows) : r.ip < (p.image.length : Int) := by
  obtain ⟨before, after, hbytes, hip⟩ := h.rows.bytes_at hr
  have hpos : 0 < r.code.bytes.length := List.length_pos_iff.2 r.code.bytes_ne_nil
  have hlength : p.image.length = before.length + (r.code.bytes.length + after.length) := by
    rw [← List.length_append, ← List.length_append, ← hbytes]
    rfl
  omega

theorem completed_eq :
    p.completed = (p.rows.flatMap fun r => labelLines p.labels r.ip ++ [.row r]) ++
      labelLines p.labels p.image.length := by
  rw [completed, present_eq_flatMap h.rows.ascending]

theorem labels : (p.completed.filterMap Line.label?).Perm (places p.labels) := by
  have hend : (p.labels.filter fun l => p.rows.all fun r => r.ip != (l.2.toNat : Int)) =
      p.labels.filter fun l => (l.2.toNat : Int) == (p.image.length : Int) := by
    refine List.filter_congr fun l hl => ?_
    rw [Bool.eq_iff_iff, List.all_eq_true, beq_iff_eq]
    constructor
    · intro hall
      obtain ⟨r, hr, hip⟩ | he := h.placed l hl
      · exact absurd hip (by simpa using hall r hr)
      · rw [he]
    · intro he r hr
      have := h.ip_lt hr
      rw [bne_iff_ne]
      omega
  rw [completed, List.filterMap_append]
  refine (List.Perm.append_left _ label?_labelLines).trans ?_
  rw [← hend]
  exact present_labels

theorem block (address : Int) : ∃ (before : List Line) (names : List Text) (after : List Line),
    p.completed = before ++ names.map (Line.label · address) ++ after ∧
    names.Pairwise (· < ·) ∧
    (∀ name, .label name address ∉ before ∧ .label name address ∉ after) ∧
    ((∃ r rest, after = .row r :: rest ∧ r.ip = address) ∨
      (∀ r ∈ p.rows, r.ip ≠ address) ∧ after.filterMap Line.row? = []) := by
  have hsorted : (namesAt p.labels address).Pairwise (· < ·) := namesAt_pairwise h.distinct
  by_cases hrow : ∃ r ∈ p.rows, r.ip = address
  · obtain ⟨r, hr, rfl⟩ := hrow
    have hend := h.ip_lt hr
    obtain ⟨front, back, hrows⟩ := List.append_of_mem hr
    have hascending := h.rows.ascending
    rw [hrows, List.pairwise_append, List.pairwise_cons] at hascending
    obtain ⟨-, ⟨hback, -⟩, hfront⟩ := hascending
    refine ⟨front.flatMap fun r => labelLines p.labels r.ip ++ [.row r], namesAt p.labels r.ip,
      .row r :: ((back.flatMap fun r => labelLines p.labels r.ip ++ [.row r]) ++
        labelLines p.labels p.image.length), ?_, hsorted, ?_, .inl ⟨r, _, rfl, rfl⟩⟩
    · rw [h.completed_eq, hrows]
      simp [labelLines]
    · intro name
      refine ⟨label_notMem_flatMap (fun q hq => ?_) name, fun hmem => ?_⟩
      · exact Int.ne_of_lt (hfront q hq r (.head _))
      · rcases List.mem_cons.1 hmem with he | hmem
        · cases he
        · rcases List.mem_append.1 hmem with hmem | hmem
          · exact label_notMem_flatMap (fun q hq => Int.ne_of_gt (hback q hq)) name hmem
          · exact Int.ne_of_lt hend (mem_labelLines hmem)
  · have hne : ∀ r ∈ p.rows, r.ip ≠ address := fun r hr he => hrow ⟨r, hr, he⟩
    by_cases he : address = (p.image.length : Int)
    · subst he
      refine ⟨present p.labels p.rows, namesAt p.labels p.image.length, [], ?_, hsorted, ?_,
        .inr ⟨hne, rfl⟩⟩
      · rw [List.append_nil]
        rfl
      · intro name
        rw [present_eq_flatMap h.rows.ascending]
        exact ⟨label_notMem_flatMap hne name, List.not_mem_nil⟩
    · refine ⟨p.completed, [], [], by simp, .nil, fun name => ⟨?_, List.not_mem_nil⟩,
        .inr ⟨hne, rfl⟩⟩
      rw [h.completed_eq]
      intro hmem
      rcases List.mem_append.1 hmem with hmem | hmem
      · exact label_notMem_flatMap hne name hmem
      · exact he (mem_labelLines hmem)

theorem presents_completed : p.Presents p.completed where
  rows := by
    rw [completed, List.filterMap_append, present_rows, row?_labelLines, List.append_nil]
  ascending := h.rows.ascending
  labels := h.labels
  block := h.block

/-- The listing presents the program exactly if no label stands at the end of the image. -/
theorem presents_listing_iff :
    (∃ lines, p.Presents lines ∧ p.listing = (lines.map Line.text).flatten) ↔
      ∀ l ∈ p.labels, l.2.toNat ≠ p.image.length := by
  constructor
  · rintro ⟨lines, hlines, he⟩ l hl hend
    have hlength := hlines.length_eq h.presents_completed
    rw [completed_text, ← he, List.length_append] at hlength
    -- a label at the end of the image would have a line of its own
    have hmem : .label l.1 p.image.length ∈ labelLines p.labels p.image.length :=
      mem_labelLines_end.2 ⟨l, hl, hend, rfl⟩
    have hnil : ((labelLines p.labels p.image.length).map Line.text).flatten = [] := by
      apply List.eq_nil_of_length_eq_zero
      omega
    have htext := List.flatten_eq_nil_iff.1 hnil _ (List.mem_map_of_mem hmem)
    exact labelText_ne_nil htext
  · intro hnone
    have hnil : labelLines p.labels p.image.length = [] := by
      rw [List.eq_nil_iff_forall_not_mem]
      intro line hline
      obtain ⟨l, hl, hend, -⟩ := mem_labelLines_end.1 hline
      exact hnone l hl hend
    refine ⟨p.completed, h.presents_completed, ?_⟩
    rw [completed_text, hnil]
    simp

end Labelled

end Program

/-- The labels of an assembled program are those of its rows and those at the end of its image. -/
theorem labelled_of_assemble {s : Settings} {source : Text} {p : Program}
    (h : (assemble s source).result = .ok p) :
    p.Labelled := by
  obtain ⟨x, hx, hfits, hlabels, hemitted⟩ := assemble_eq_ok.1 h
  obtain ⟨rows, labels⟩ := p
  subst hlabels
  have hagrees := agrees_of_passes (expanded?_selected hx) hfits hemitted
  have hdistinct : ((tableOf (addresses 0 x.placed)).map Prod.fst).Nodup := hfits.distinct
  refine ⟨(assemble_rows h).1, hdistinct, ?_⟩
  intro l hl
  obtain ⟨t, calls, hmem⟩ := hagrees.only l.1 l.2 hl
  obtain ⟨before, after, hplaced⟩ := List.append_of_mem hmem
  obtain ⟨address, hfind, -, hip⟩ := hagrees.label _ _ _ _ _ hplaced
  have he : address = l.2 := by
    rw [Table.find?_of_mem hdistinct hl] at hfind
    exact (Option.some.inj hfind).symm
  subst he
  split at hip
  case h_1 r hr => exact .inl ⟨r, List.mem_of_getElem? hr, hip.symm⟩
  case h_2 => exact .inr (Int.ofNat.inj hip)

/-- **A listing shows the labels of its rows.** The listing of an assembled program is cut from
lines that show every row and every label once, each in its place; what is cut off are the lines of
the labels at the end of the image. So the listing shows every label exactly if none stands
there. -/
theorem listing_shows_labels_of_rows (s : Settings) (source : Text) (p : Program)
    (h : (assemble s source).result = .ok p) :
    (∃ lines lost : List Program.Line, p.Presents (lines ++ lost) ∧
      p.listing = (lines.map Program.Line.text).flatten ∧
      ∀ line, line ∈ lost ↔
        ∃ l ∈ p.labels, l.2.toNat = p.image.length ∧ line = .label l.1 p.image.length) ∧
    ((∃ lines, p.Presents lines ∧ p.listing = (lines.map Program.Line.text).flatten) ↔
      ∀ l ∈ p.labels, l.2.toNat ≠ p.image.length) := by
  have hlabelled := labelled_of_assemble h
  refine ⟨⟨_, _, hlabelled.presents_completed, ?_, fun _ => Program.mem_labelLines_end⟩,
    hlabelled.presents_listing_iff⟩
  rw [Program.present_text]
  rfl

theorem listing_shows_labels_of_rows_from_macro :
    ∃ p, (assemble {} (utf8
      "$b: $a:\n@macro twice %r0\n$c: add %r0, %r0\n@endmacro\ntwice r1\n$d: jnz r1\n")).result =
        .ok p ∧
      p.labels = [(utf8 "d", 2), (utf8 "c", 0), (utf8 "a", 0), (utf8 "b", 0)] ∧
      ∃ lines, p.Presents lines ∧ p.listing = (lines.map Program.Line.text).flatten := by
  have hlabels : (assemble {}
      (utf8 "$b: $a:\n@macro twice %r0\n$c: add %r0, %r0\n@endmacro\ntwice r1\n$d: jnz r1\n")
      ).result.toOption.map (fun p => (p.labels, p.image.length)) =
      some ([(utf8 "d", 2), (utf8 "c", 0), (utf8 "a", 0), (utf8 "b", 0)], 3) := by
    simp only [assemble, Expansion.expandIncludes, Expansion.expandMacros,
      Worklist.expand_eq_nested]
    decide +kernel
  obtain ⟨p, hp, he⟩ := Option.map_eq_some_iff.1 hlabels
  obtain ⟨hlabels, hlength⟩ := Prod.mk.inj he
  have hok := Except.toOption_eq_some.1 hp
  refine ⟨p, hok, hlabels, (listing_shows_labels_of_rows _ _ p hok).2.2 ?_⟩
  rw [hlabels, hlength]
  decide +kernel

/-- A label after the last instruction has no line. -/
theorem listing_lacks_label_at_end :
    ∃ p, (assemble {} (utf8 "mov r1, #5\n$end:\n")).result = .ok p ∧ p.labels = [(utf8 "end", 2)] ∧
      ¬ ∃ lines, p.Presents lines ∧ p.listing = (lines.map Program.Line.text).flatten := by
  have hlabels : (assemble {} (utf8 "mov r1, #5\n$end:\n")).result.toOption.map (fun p =>
      (p.labels, p.image.length)) = some ([(utf8 "end", 2)], 2) := by
    simp only [assemble, Expansion.expandIncludes, Expansion.expandMacros,
      Worklist.expand_eq_nested]
    decide +kernel
  obtain ⟨p, hp, he⟩ := Option.map_eq_some_iff.1 hlabels
  obtain ⟨hlabels, hlength⟩ := Prod.mk.inj he
  have hok := Except.toOption_eq_some.1 hp
  refine ⟨p, hok, hlabels, ?_⟩
  rw [(labelled_of_assemble hok).presents_listing_iff, hlabels, hlength]
  intro hnone
  exact hnone (utf8 "end", 2) (.head _) rfl

end Octet
