import Octet.Proofs.ScanStates

/-!
# How far a formula reaches

A formula ends where, for the first time, as many parentheses are closed as were opened. Scanning
finds the place by counting, without a look at what stands between them, and a line end on the way
comes too early. The parser then takes off the mark and the two outer parentheses, and evaluates
what is left.

* `Token.Balanced` — text of one line with as many closing as opening parentheses;
* `Token.StillOpen`, `Token.Leads` — parentheses that are open after a text, and what one byte does
  to them;
* `Token.closing?_first`, `Token.closing?_none` — counting stops at the first place where nothing is
  open;
* `Token.FormulaExtent` — the shortest balanced text at the start of an input;
* `Token.formula_is_shortest_balanced` — **formulas are matched up to there, and evaluated without
  their parentheses**.
-/

namespace Octet.Token

open Text (isLineEnd)

/-- The text stands on one line. After its first byte, it has as many closing as opening
parentheses, and at least one of each. -/
structure Balanced (x : Text) : Prop where
  oneLine : ∀ b ∈ x, isLineEnd b = false
  even : (x.drop 1).count '('.toUInt8 = (x.drop 1).count ')'.toUInt8
  opened : 0 < (x.drop 1).count '('.toUInt8
  closed : 0 < (x.drop 1).count ')'.toUInt8

/-! ## Counting -/

/-- After the text some parentheses are open, of those in it and of `depth` before it. -/
def StillOpen (depth : Nat) (x : Text) : Prop := x.count ')'.toUInt8 < depth + x.count '('.toUInt8

/-- The byte leads from `depth` open parentheses to `depth'`. -/
def Leads (b : UInt8) (depth depth' : Nat) : Prop :=
  depth + [b].count '('.toUInt8 = depth' + [b].count ')'.toUInt8

/-- The parenthesis after the text is the first that closes all `depth` open ones, and no line ends
before it. -/
structure Encloses (depth : Nat) (x : Text) : Prop where
  oneLine : ∀ b ∈ x, isLineEnd b = false
  last : x.count ')'.toUInt8 + 1 = depth + x.count '('.toUInt8
  stillOpen : ∀ y, y <+: x → StillOpen depth y

section

variable {depth depth' : Nat} {b : UInt8} {x : Text}

theorem leads_open (depth : Nat) : Leads '('.toUInt8 depth (depth + 1) := rfl

theorem leads_close (h : 1 ≤ depth) : Leads ')'.toUInt8 depth (depth - 1) :=
  (Nat.sub_add_cancel h).symm

theorem leads_other (hopen : b ≠ '('.toUInt8) (hclose : b ≠ ')'.toUInt8) (depth : Nat) :
    Leads b depth depth := by
  rw [Leads, List.count_singleton, List.count_singleton, if_neg (by simpa using hopen),
    if_neg (by simpa using hclose)]

theorem count_cons_byte (c b : UInt8) (x : Text) : (b :: x).count c = [b].count c + x.count c := by
  rw [← List.count_append, List.singleton_append]

theorem stillOpen_nil : StillOpen depth [] ↔ 1 ≤ depth := by simp [StillOpen, Nat.succ_le_iff]

theorem Leads.stillOpen (h : Leads b depth depth') :
    StillOpen depth (b :: x) ↔ StillOpen depth' x := by
  unfold Leads at h
  unfold StillOpen
  rw [count_cons_byte ')'.toUInt8, count_cons_byte '('.toUInt8]
  omega

/-- What holds of the empty text, and of the byte with any prefix of the rest, holds of all
prefixes. -/
theorem forall_prefix_cons {P : Text → Prop} (hnil : P []) (hcons : ∀ y, y <+: x → P (b :: y)) :
    ∀ y, y <+: b :: x → P y := by
  intro y hy
  cases y with
  | nil => exact hnil
  | cons c y =>
    obtain ⟨rfl, hrest⟩ := List.cons_prefix_cons.1 hy
    exact hcons y hrest

/-- **One byte before the text.** -/
theorem Encloses.cons (h : Encloses depth' x) (hb : Leads b depth depth')
    (hline : isLineEnd b = false) (hdepth : 1 ≤ depth) : Encloses depth (b :: x) where
  oneLine := List.forall_mem_cons.2 ⟨hline, h.oneLine⟩
  last := by
    have hlast := h.last
    unfold Leads at hb
    rw [count_cons_byte ')'.toUInt8, count_cons_byte '('.toUInt8]
    omega
  stillOpen :=
    forall_prefix_cons (stillOpen_nil.2 hdepth) fun y hy => hb.stillOpen.2 (h.stillOpen y hy)

end

/-- **Counting stops at the first parenthesis that closes all open ones**, and no line ends before
it. -/
theorem closing?_first {taken depth n : Nat} {x : Text} (hdepth : 1 ≤ depth)
    (h : closing? taken depth x = some n) :
    ∃ y, y ++ [')'.toUInt8] <+: x ∧ n = taken + y.length + 1 ∧ Encloses depth y := by
  -- What is taken before a byte is taken after it, with the byte in front.
  have hcons {taken n : Nat} {y rest : Text} (b : UInt8)
      (hy : y ++ [')'.toUInt8] <+: rest ∧ n = taken + 1 + y.length + 1) :
      b :: y ++ [')'.toUInt8] <+: b :: rest ∧ n = taken + (b :: y).length + 1 := by
    refine ⟨List.cons_prefix_cons.2 ⟨rfl, hy.1⟩, ?_⟩
    rw [hy.2, List.length_cons]
    omega
  fun_induction closing? taken depth x with
  | case1 => cases h
  | case2 taken depth b rest hb ih =>
    obtain ⟨y, hy, hn, hencloses⟩ := ih (by omega) h
    obtain rfl := beq_iff_eq.1 hb
    obtain ⟨hstart, hlength⟩ := hcons _ ⟨hy, hn⟩
    exact ⟨_, hstart, hlength, hencloses.cons (leads_open depth) (by decide) hdepth⟩
  | case3 taken depth b rest _ hb hle =>
    cases h
    obtain rfl := beq_iff_eq.1 hb
    refine ⟨[], ⟨rest, rfl⟩, rfl, by simp, ?_, ?_⟩
    · simp only [List.count_nil]
      omega
    · intro y hy
      rw [List.prefix_nil.1 hy]
      exact stillOpen_nil.2 hdepth
  | case4 taken depth b rest _ hb hle ih =>
    obtain ⟨y, hy, hn, hencloses⟩ := ih (by omega) h
    obtain rfl := beq_iff_eq.1 hb
    obtain ⟨hstart, hlength⟩ := hcons _ ⟨hy, hn⟩
    exact ⟨_, hstart, hlength, hencloses.cons (leads_close hdepth) (by decide) hdepth⟩
  | case5 => cases h
  | case6 taken depth b rest hopen hclose hline ih =>
    obtain ⟨y, hy, hn, hencloses⟩ := ih hdepth h
    obtain ⟨hstart, hlength⟩ := hcons b ⟨hy, hn⟩
    have hb := leads_other (by simpa using hopen) (by simpa using hclose) depth
    exact ⟨_, hstart, hlength, hencloses.cons hb (by simpa using hline) hdepth⟩

/-- **Where counting does not stop, something stays open** up to the end of the line. -/
theorem closing?_none {taken depth : Nat} {x : Text} (hdepth : 1 ≤ depth)
    (h : closing? taken depth x = none) :
    ∀ y, y <+: x → (∀ b ∈ y, isLineEnd b = false) → StillOpen depth y := by
  fun_induction closing? taken depth x with
  | case1 =>
    intro y hy _
    rw [List.prefix_nil.1 hy]
    exact stillOpen_nil.2 hdepth
  | case2 taken depth b rest hb ih =>
    obtain rfl := beq_iff_eq.1 hb
    refine forall_prefix_cons (fun _ => stillOpen_nil.2 hdepth) fun y hy hline => ?_
    exact (leads_open depth).stillOpen.2 (ih (by omega) h y hy (List.forall_mem_cons.1 hline).2)
  | case3 => cases h
  | case4 taken depth b rest _ hb hle ih =>
    obtain rfl := beq_iff_eq.1 hb
    refine forall_prefix_cons (fun _ => stillOpen_nil.2 hdepth) fun y hy hline => ?_
    exact (leads_close hdepth).stillOpen.2 (ih (by omega) h y hy (List.forall_mem_cons.1 hline).2)
  | case5 taken depth b rest _ _ hb =>
    refine forall_prefix_cons (fun _ => stillOpen_nil.2 hdepth) fun y _ hline => ?_
    rw [(List.forall_mem_cons.1 hline).1] at hb
    cases hb
  | case6 taken depth b rest hopen hclose _ ih =>
    refine forall_prefix_cons (fun _ => stillOpen_nil.2 hdepth) fun y hy hline => ?_
    have hb := leads_other (by simpa using hopen) (by simpa using hclose) depth
    exact hb.stillOpen.2 (ih hdepth h y hy (List.forall_mem_cons.1 hline).2)

/-! ## Formulas -/

/-- The bytes that open a formula. -/
def formulaOpener : Text := ['#'.toUInt8, '('.toUInt8]

/-- A formula as it stands in a source. -/
def formulaText (body : Text) : Text := formulaOpener ++ body ++ [')'.toUInt8]

/-- The input starts with a formula, which is the shortest balanced text there. Before its end, more
parentheses are opened than closed. -/
structure FormulaExtent (input body : Text) : Prop where
  here : formulaText body <+: input
  balanced : Balanced (formulaText body)
  shortest : ∀ y, y <+: input → Balanced y → (formulaText body).length ≤ y.length
  unclosed : ∀ y, y <+: input → 2 ≤ y.length → y.length < (formulaText body).length →
    y.count ')'.toUInt8 < y.count '('.toUInt8

theorem formulaText_length (body : Text) : (formulaText body).length = body.length + 3 := by
  simp [formulaText, formulaOpener]

/-- A prefix of at least two bytes goes on after the opener. -/
theorem prefix_opener {rest y : Text} (hy : y <+: formulaOpener ++ rest) (hlong : 2 ≤ y.length) :
    ∃ z, y = formulaOpener ++ z ∧ z <+: rest := by
  rcases y with _ | ⟨b, _ | ⟨c, z⟩⟩
  · simp at hlong
  · simp at hlong
  · obtain ⟨rfl, hc⟩ := List.cons_prefix_cons.1 hy
    obtain ⟨rfl, hz⟩ := List.cons_prefix_cons.1 hc
    exact ⟨z, rfl, hz⟩

theorem Balanced.two_le_length {x : Text} (h : Balanced x) : 2 ≤ x.length := by
  have hopened := Nat.lt_of_lt_of_le h.opened List.count_le_length
  rw [List.length_drop] at hopened
  omega

/-- The mark is no parenthesis, and the other byte of the opener is one that opens. -/
theorem count_opener (z : Text) :
    (formulaOpener ++ z).count '('.toUInt8 = z.count '('.toUInt8 + 1 ∧
      (formulaOpener ++ z).count ')'.toUInt8 = z.count ')'.toUInt8 := by
  rw [List.count_append, List.count_append]
  exact ⟨Nat.add_comm 1 _, Nat.zero_add _⟩

theorem count_drop_opener (c : UInt8) (hc : c ≠ '#'.toUInt8) (z : Text) :
    ((formulaOpener ++ z).drop 1).count c = (formulaOpener ++ z).count c :=
  (List.count_cons_of_ne hc.symm).symm

theorem balanced_opener_iff {z : Text} :
    Balanced (formulaOpener ++ z) ↔
      (∀ b ∈ z, isLineEnd b = false) ∧ z.count ')'.toUInt8 = z.count '('.toUInt8 + 1 := by
  obtain ⟨hopen, hclose⟩ := count_opener z
  rw [← count_drop_opener _ (by decide)] at hopen hclose
  constructor
  · intro h
    have heven := h.even
    exact ⟨fun b hb => h.oneLine b (List.mem_append_right _ hb), by omega⟩
  · rintro ⟨hline, heven⟩
    refine ⟨?_, by omega, by omega, by omega⟩
    exact List.forall_mem_append.2 ⟨List.forall_mem_cons.2 ⟨rfl, List.forall_mem_singleton.2 rfl⟩,
      hline⟩

/-- **The body up to the first parenthesis that closes the opener is that of the shortest balanced
text.** -/
theorem Encloses.extent {body rest : Text} (h : Encloses 1 body)
    (hrest : body ++ [')'.toUInt8] <+: rest) :
    FormulaExtent (formulaOpener ++ rest) body := by
  have htext : formulaText body = formulaOpener ++ (body ++ [')'.toUInt8]) := List.append_assoc ..
  -- A proper prefix of the formula ends in its body, where something is open.
  have hproper (z : Text) (hz : z <+: rest)
      (hlt : (formulaOpener ++ z).length < (formulaText body).length) :
      z.count ')'.toUInt8 < 1 + z.count '('.toUInt8 := by
    refine h.stillOpen z
      (List.prefix_of_prefix_length_le hz ((List.prefix_append ..).trans hrest) ?_)
    simp only [formulaText, formulaOpener, List.length_append, List.length_cons,
      List.length_nil] at hlt
    omega
  constructor
  case here =>
    rw [htext]
    exact (List.prefix_append_right_inj _).2 hrest
  case balanced =>
    have hlast := h.last
    rw [htext, balanced_opener_iff, List.count_append, List.count_append]
    refine ⟨List.forall_mem_append.2 ⟨h.oneLine, List.forall_mem_singleton.2 rfl⟩, ?_⟩
    show body.count ')'.toUInt8 + 1 = body.count '('.toUInt8 + 0 + 1
    omega
  case shortest =>
    intro y hy hbalanced
    obtain ⟨z, rfl, hz⟩ := prefix_opener hy hbalanced.two_le_length
    have heven := (balanced_opener_iff.1 hbalanced).2
    by_contra hlt
    have hopen := hproper z hz (Nat.not_le.1 hlt)
    omega
  case unclosed =>
    intro y hy hlong hlt
    obtain ⟨z, rfl, hz⟩ := prefix_opener hy hlong
    have hopen := hproper z hz hlt
    rw [(count_opener z).1, (count_opener z).2]
    omega

/-! ## Matching and evaluating -/

theorem formulaLength_opener (rest : Text) :
    formulaLength (formulaOpener ++ rest) = (closing? 2 1 rest).getD 0 := rfl

theorem opener_of_formulaLength {input : Text} (h : formulaLength input ≠ 0) :
    formulaOpener <+: input := by
  unfold formulaLength at h
  split at h
  · rename_i b c rest
    split at h
    · rename_i hbc
      rw [Bool.and_eq_true, beq_iff_eq, beq_iff_eq] at hbc
      obtain ⟨rfl, rfl⟩ := hbc
      exact ⟨rest, rfl⟩
    · exact absurd rfl h
  · exact absurd rfl h

/-- **What is matched is a formula up to its end.** -/
theorem exists_extent {input : Text} (h : formulaLength input ≠ 0) :
    ∃ body, formulaLength input = (formulaText body).length ∧ FormulaExtent input body := by
  obtain ⟨rest, rfl⟩ := opener_of_formulaLength h
  rw [formulaLength_opener] at h ⊢
  cases hclosing : closing? 2 1 rest with
  | none =>
    rw [hclosing] at h
    exact absurd rfl h
  | some n =>
    obtain ⟨body, hbody, rfl, hencloses⟩ := closing?_first (Nat.le_refl 1) hclosing
    refine ⟨body, ?_, hencloses.extent hbody⟩
    rw [formulaText_length, Option.getD_some]
    omega

/-- **Where a balanced text stands, something is matched.** -/
theorem formulaLength_ne_zero {input x : Text} (hopener : formulaOpener <+: input)
    (hx : x <+: input) (hbalanced : Balanced x) : formulaLength input ≠ 0 := by
  obtain ⟨rest, rfl⟩ := hopener
  obtain ⟨z, rfl, hz⟩ := prefix_opener hx hbalanced.two_le_length
  obtain ⟨hline, heven⟩ := balanced_opener_iff.1 hbalanced
  rw [formulaLength_opener]
  cases hclosing : closing? 2 1 rest with
  | none =>
    have hopen := closing?_none (Nat.le_refl 1) hclosing z hz hline
    unfold StillOpen at hopen
    omega
  | some n =>
    obtain ⟨body, -, rfl, -⟩ := closing?_first (Nat.le_refl 1) hclosing
    exact Nat.succ_ne_zero _

/-- **The parser evaluates what stands between the outer parentheses.** -/
theorem readLiteral_formula (p : Parser) {t : Token} {body : Text}
    (ht : t.text = formulaText body) :
    p.readLiteral t = (p.formulas.literal body).mapError fun f => p.fail t [f] := by
  have hdrop : t.text.drop 1 = '('.toUInt8 :: (body ++ [')'.toUInt8]) := by rw [ht]; rfl
  have hbody : ((t.text.drop 1).drop 1).dropLast = body := by
    rw [hdrop, List.drop_succ_cons, List.drop_zero, List.dropLast_concat]
  simp only [Parser.readLiteral]
  rw [hbody, hdrop, List.head?_cons, if_pos rfl]
  cases p.formulas.literal body <;> rfl

/-- A numeral does not start like a formula. -/
theorem Numeral.not_opener {x : Text} (h : Numeral x) : ¬ formulaOpener <+: '#'.toUInt8 :: x := by
  intro hopener
  have hparen : ['('.toUInt8] <+: x := (List.cons_prefix_cons.1 hopener).2
  have hbyte := h.all _ (hparen.mem (List.mem_singleton_self _))
  cases hbyte

/-- **A scanned formula is the shortest balanced text at its place.** -/
theorem scan_formula {file source : Text} {ts : List Token} (h : scan file source = .ok ts)
    {t : Token} (ht : t ∈ ts) (hk : t.kind = .literal) (hopener : formulaOpener <+: t.text) :
    ∃ (n : Nat) (body : Text), t.offset = n ∧ t.text = formulaText body ∧
      formulaLength (source.drop n) = (formulaText body).length ∧
        FormulaExtent (source.drop n) body := by
  obtain ⟨offset, line, hend⟩ := scan_eq_ok.1 h
  obtain ⟨n, l, before, kind, x, rest, hstate, hx, rfl⟩ := hend.origin ht
  obtain rfl : kind = .literal := hk
  replace hopener : formulaOpener <+: x := hopener
  have hform := hx.form
  have hlength : formulaLength (x ++ rest) = x.length := by
    cases hform with
    | numeral hnumeral _ => exact absurd hopener hnumeral.not_opener
    | formula hbody =>
      rw [formulaLength_append hbody]
      simp
  have hpos := List.length_pos_iff.2 hx.nonempty
  have hmatch : formulaLength (x ++ rest) ≠ 0 := by omega
  obtain ⟨body, hbody, hextent⟩ := exists_extent hmatch
  have hsame : x = formulaText body :=
    (List.prefix_of_prefix_length_le (List.prefix_append ..) hextent.here (by omega)).eq_of_length
      (by omega)
  rw [← hstate.reached.input] at hbody hextent
  exact ⟨n, body, rfl, hsame, hbody, hextent⟩

/-- **Formulas are matched up to the end of the shortest balanced text, and evaluated without their
parentheses.** Something is matched exactly where an input that opens a formula starts with balanced
text; the match is then the shortest such text. So it is for every formula that is scanned. -/
theorem formula_is_shortest_balanced :
    (∀ input, (formulaLength input ≠ 0 ↔ formulaOpener <+: input ∧ ∃ x, x <+: input ∧ Balanced x) ∧
      (formulaLength input ≠ 0 →
        ∃ body, formulaLength input = (formulaText body).length ∧ FormulaExtent input body ∧
        ∀ (p : Parser) (t : Token), t.text = formulaText body →
          p.readLiteral t = (p.formulas.literal body).mapError fun f => p.fail t [f])) ∧
      ∀ file source ts, scan file source = .ok ts → ∀ t ∈ ts, t.kind = .literal →
        formulaOpener <+: t.text →
        ∃ (n : Nat) (body : Text), t.offset = n ∧ t.text = formulaText body ∧
          formulaLength (source.drop n) = (formulaText body).length ∧
            FormulaExtent (source.drop n) body := by
  refine ⟨fun input => ⟨⟨fun h => ?_, ?_⟩, fun h => ?_⟩, fun _ _ _ h _ => scan_formula h⟩
  · obtain ⟨body, -, hextent⟩ := exists_extent h
    exact ⟨opener_of_formulaLength h, _, hextent.here, hextent.balanced⟩
  · rintro ⟨hopener, x, hx, hbalanced⟩
    exact formulaLength_ne_zero hopener hx hbalanced
  · obtain ⟨body, hlength, hextent⟩ := exists_extent h
    exact ⟨body, hlength, hextent, fun p _ ht => readLiteral_formula p ht⟩

/-- A formula with groups in it and a parenthesis too many behind it, a formula that the end of its
line cuts off, and two formulas in a source. -/
theorem formula_is_shortest_balanced_groups :
    (formulaLength (utf8 "#((1)+(2)))") = 10 ∧
      ∃ body, formulaLength (utf8 "#((1)+(2)))") = (formulaText body).length ∧
        FormulaExtent (utf8 "#((1)+(2)))") body ∧
          ∀ (p : Parser) (t : Token), t.text = formulaText body →
          p.readLiteral t = (p.formulas.literal body).mapError fun f => p.fail t [f]) ∧
      (¬ ∃ x, x <+: utf8 "#((1)\n)" ∧ Balanced x) ∧
      ∃ (ts : List Token) (t : Token), scan [] (utf8 "a #(1),#((2)\t)") = .ok ts ∧ ts[3]? = some t ∧
        ∃ (n : Nat) (body : Text), t.offset = n ∧ t.text = formulaText body ∧
          formulaLength ((utf8 "a #(1),#((2)\t)").drop n) = (formulaText body).length ∧
          FormulaExtent ((utf8 "a #(1),#((2)\t)").drop n) body := by
  obtain ⟨hmatch, hscanned⟩ := formula_is_shortest_balanced
  refine ⟨?_, ?_, ?_⟩
  · have hlength : formulaLength (utf8 "#((1)+(2)))") = 10 := by decide +kernel
    exact ⟨hlength, (hmatch _).2 (by rw [hlength]; decide)⟩
  · rintro ⟨x, hx, hbalanced⟩
    have hzero : formulaLength (utf8 "#((1)\n)") = 0 := by decide +kernel
    exact (hmatch (utf8 "#((1)\n)")).1.2 ⟨⟨_, rfl⟩, x, hx, hbalanced⟩ hzero
  · have hscan : ((scan [] (utf8 "a #(1),#((2)\t)")).toOption.bind (·[3]?)).map
        (fun t => (t.kind, formulaOpener.isPrefixOf t.text)) = some (.literal, true) := by
          decide +kernel
    obtain ⟨t, hget, hshape⟩ := Option.map_eq_some_iff.1 hscan
    obtain ⟨ts, hts, hget⟩ := Option.bind_eq_some_iff.1 hget
    have hok := Except.toOption_eq_some.1 hts
    obtain ⟨hk, hopener⟩ := Prod.mk.inj hshape
    exact ⟨ts, t, hok, hget,
      hscanned [] _ ts hok t (List.mem_of_getElem? hget) hk (List.isPrefixOf_iff_prefix.1 hopener)⟩

end Octet.Token
