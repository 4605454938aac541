import Octet.Proofs.Derivation

/-!
# The parser accepts exactly the grammar

The relations between tokens and what is read from them are derivations without their trees. With
the trees, they say of scanned tokens that the parser succeeds on those that the grammar derives,
and returns what the derivation stands for.

* `Derivation.literalValue?_iff`, `Derivation.argument_iff` — what is read from the text of a
  scanned token;
* `Derivation.statement_iff`, `Derivation.body_iff`, `Derivation.element_iff`,
  `Derivation.source_iff` — phrases and derivations;
* `ofTokens_accepts_grammar` — **the parser accepts exactly the grammar**.
-/

namespace Octet.Derivation

open Grammar (LineEnds Parameter nameKind slotsOf)
open Token (Spelt IsLiteral)

/-! ## Literals -/

/-- A numeral consists of digits of its base. -/
theorem digits_of_natOfDigits? {base n : Nat} {ds : Text} (h : Text.natOfDigits? base ds = some n) :
    ds ≠ [] ∧ ∀ d ∈ ds, ∃ v, Text.digitValue? d = some v ∧ v < base := by
  have hfold (ds : Text) (m : Nat) (hm : ds.foldlM (Text.pushDigit? base) m = some n) :
      ∀ d ∈ ds, ∃ v, Text.digitValue? d = some v ∧ v < base := by
    induction ds generalizing m with
    | nil => simp
    | cons b ds ih =>
      rw [List.foldlM_cons] at hm
      obtain ⟨k, hk, hrest⟩ := Option.bind_eq_some_iff.1 hm
      intro d hd
      rcases List.mem_cons.1 hd with rfl | hd
      · unfold Text.pushDigit? at hk
        split at hk
        · rename_i v hv
          split at hk
          · exact ⟨v, hv, by assumption⟩
          · cases hk
        · cases hk
      · exact ih k hrest d hd
  cases ds with
  | nil => cases h
  | cons b ds => exact ⟨List.cons_ne_nil _ _, hfold _ _ h⟩

/-- A byte that is no digit of a base is not in a numeral. -/
theorem not_mem_of_natOfDigits? {base n : Nat} {ds : Text} (h : Text.natOfDigits? base ds = some n)
    {b : UInt8} (hb : ∀ v ∈ Text.digitValue? b, base ≤ v) : b ∉ ds := by
  intro hmem
  obtain ⟨v, hv, hlt⟩ := (digits_of_natOfDigits? h).2 b hmem
  have hle := hb v hv
  omega

theorem head?_ne_open {ds : Text} (rest : Text) (hne : ds ≠ []) (hds : '('.toUInt8 ∉ ds) :
    (ds ++ rest).head? ≠ some '('.toUInt8 := by
  cases ds with
  | nil => exact absurd rfl hne
  | cons d ds =>
    intro h
    exact hds (Option.some.inj h ▸ List.mem_cons_self ..)

/-- What a literal reads as, once its base and its digits are known. -/
theorem literalValue?_of_digits {formulas : Formulas} {body ds : Text} {base : Nat} {value : UInt32}
    (hopen : body.head? ≠ some '('.toUInt8) (hdigits : Parser.literalDigits body = (base, ds)) :
    Grammar.literalValue? formulas ('#'.toUInt8 :: body) = some value ↔
      Text.natOfDigits? base ds = some value.toNat := by
  have hlt : value.toNat < 4294967296 := value.toNat_lt
  have hlargest : Formula.largest = 4294967295 := rfl
  simp only [Grammar.literalValue?, List.drop_succ_cons, List.drop_zero, if_neg hopen, hdigits]
  constructor
  · intro h
    split at h
    · rename_i n hn
      split at h
      · cases h
        rw [hn, Nat.toUInt32, UInt32.toNat_ofNat']
        congr 1
        omega
      · cases h
    · cases h
  · intro h
    rw [h]
    simp only
    rw [if_pos (by omega), Nat.toUInt32, UInt32.ofNat_toNat]

theorem literalDigits_hexadecimal (ds : Text) :
    Parser.literalDigits (ds ++ utf8 "h") = (16, ds) := by
  have hlast : (ds ++ utf8 "h").getLast? = some 'h'.toUInt8 := List.getLast?_concat
  rw [Parser.literalDigits, if_pos hlast]
  exact congrArg _ List.dropLast_concat

theorem literalDigits_binary (ds : Text) : Parser.literalDigits (ds ++ utf8 "b") = (2, ds) := by
  have hlast : (ds ++ utf8 "b").getLast? = some 'b'.toUInt8 := List.getLast?_concat
  rw [Parser.literalDigits, hlast, if_neg (by decide), if_pos rfl]
  exact congrArg _ List.dropLast_concat

theorem literalDigits_decimal {ds : Text} (hh : 'h'.toUInt8 ∉ ds) (hb : 'b'.toUInt8 ∉ ds) :
    Parser.literalDigits ds = (10, ds) := by
  have hlast (b : UInt8) (hn : b ∉ ds) : ds.getLast? ≠ some b :=
    fun h => hn (List.mem_of_getLast? h)
  rw [Parser.literalDigits, if_neg (hlast _ hh), if_neg (hlast _ hb)]

theorem literalValue?_formula {formulas : Formulas} {body : Text} {value : UInt32} :
    Grammar.literalValue? formulas ('#'.toUInt8 :: '('.toUInt8 :: (body ++ utf8 ")")) = some value ↔
      formulas.value? body = some (value.toNat : Int) := by
  have hbody : (body ++ utf8 ")").dropLast = body := List.dropLast_concat
  have hlt : value.toNat < 4294967296 := value.toNat_lt
  simp only [Grammar.literalValue?, List.drop_succ_cons, List.drop_zero, List.head?_cons, if_true,
    hbody, Except.toOption_eq_some, Formulas.literal]
  constructor
  · intro h
    split at h
    · rename_i n hn
      split at h
      · cases h
      · rename_i hrange
        split at h
        · rename_i hle
          cases h
          rw [hn, Nat.toUInt32, UInt32.toNat_ofNat']
          unfold Formula.largest at hle
          congr 2
          omega
        · cases h
    · cases h
  · intro h
    have hrange : ¬ ((value.toNat : Int) < 0 ∨ Word.signedLimit ≤ (value.toNat : Int).toNat) := by
      unfold Word.signedLimit
      omega
    have hle : (value.toNat : Int).toNat ≤ Formula.largest := by
      unfold Formula.largest
      omega
    rw [h]
    simp only [if_neg hrange, if_pos hle]
    rw [Int.toNat_natCast, Nat.toUInt32, UInt32.ofNat_toNat]

/-- **A literal reads as the value that it evaluates to**, if that has 32 bits. -/
theorem literalValue?_iff {formulas : Formulas} {text : Text} (ht : IsLiteral text)
    {value : UInt32} :
    Grammar.literalValue? formulas text = some value ↔ Evaluates formulas text value.toNat := by
  constructor
  · intro h
    cases ht with
    | hexadecimal hds =>
      have hopen := head?_ne_open (utf8 "h") hds.nonempty (hds.not_mem rfl)
      exact .hexadecimal ((literalValue?_of_digits hopen (literalDigits_hexadecimal _)).1 h)
    | binary hds =>
      have hopen := head?_ne_open (utf8 "b") hds.nonempty (hds.not_mem rfl)
      exact .binary ((literalValue?_of_digits hopen (literalDigits_binary _)).1 h)
    | @decimal ds hds =>
      have hopen := head?_ne_open [] hds.nonempty (hds.not_mem rfl)
      rw [List.append_nil] at hopen
      exact .decimal ((literalValue?_of_digits hopen
        (literalDigits_decimal (hds.not_mem rfl) (hds.not_mem rfl))).1 h)
    | formula => exact .formula (literalValue?_formula.1 h)
  · intro h
    generalize hn : value.toNat = n at h
    cases h with
    | hexadecimal h =>
      have hopen := head?_ne_open (utf8 "h") (digits_of_natOfDigits? h).1
          (not_mem_of_natOfDigits? h (by decide))
      exact (literalValue?_of_digits hopen (literalDigits_hexadecimal _)).2 (hn ▸ h)
    | binary h =>
      have hopen := head?_ne_open (utf8 "b") (digits_of_natOfDigits? h).1
          (not_mem_of_natOfDigits? h (by decide))
      exact (literalValue?_of_digits hopen (literalDigits_binary _)).2 (hn ▸ h)
    | @decimal ds n h =>
      have hopen :=
        head?_ne_open [] (digits_of_natOfDigits? h).1 (not_mem_of_natOfDigits? h (by decide))
      rw [List.append_nil] at hopen
      have hdigits : Parser.literalDigits ds = (10, ds) :=
        literalDigits_decimal (not_mem_of_natOfDigits? h (by decide))
          (not_mem_of_natOfDigits? h (by decide))
      exact (literalValue?_of_digits hopen hdigits).2 (hn ▸ h)
    | formula h =>
      subst hn
      exact literalValue?_formula.2 h

/-! ## Arguments -/

/-- The slots can be counted by a signed word, which numbers of parameters are. -/
def Counted (slots : Option Slots) : Prop :=
  ∀ s ∈ slots, s.registers ≤ Word.signedLimit ∧ s.literals ≤ Word.signedLimit

theorem ofName?_of_mem :
    ∀ name ∈ Register.named.map (·.1), ∃ r, Register.ofName? name = some r := by
  have hsome : ∀ name ∈ Register.named.map (·.1), (Register.ofName? name).isSome = true := by
    decide +kernel
  intro name hmem
  exact Option.isSome_iff_exists.1 (hsome name hmem)

section

variable {formulas : Formulas} {slots : Option Slots} {t : Token} {ts left : List Token}

/-- **An argument is read as what it stands for.** -/
theorem argument_iff {a : Arg} (ht : Spelt t.kind t.text) (hslots : Counted slots) :
    Grammar.Argument formulas slots t a ↔ Denotes formulas slots t a := by
  constructor
  · intro h
    cases h with
    | register hk =>
      obtain ⟨r, hr⟩ := ofName?_of_mem _ (Spelt.of_register (hk ▸ ht))
      rw [hr]
      exact .register hk hr
    | literal hk hv => exact .literal hk ((literalValue?_iff (Spelt.of_literal (hk ▸ ht))).1 hv)
    | label hk =>
      obtain ⟨word, htext, -⟩ := Spelt.of_label (hk ▸ ht)
      rw [htext]
      exact .label hk htext
    | registerParam hk hs hi hlt =>
      obtain ⟨ds, htext, hds⟩ := Spelt.of_registerParam (hk ▸ ht)
      rw [htext] at hi
      obtain ⟨n, hn, -, rfl⟩ := hds.paramNumber?_eq_some.1 hi
      exact .registerParam hk hs htext hn (by omega)
    | literalParam hk hs hi hlt =>
      obtain ⟨ds, htext, hds⟩ := Spelt.of_literalParam (hk ▸ ht)
      rw [htext] at hi
      obtain ⟨n, hn, -, rfl⟩ := hds.paramNumber?_eq_some.1 hi
      exact .literalParam hk hs htext hn (by omega)
  · intro h
    cases h with
    | register hk hr =>
      have h : Grammar.Argument formulas slots t _ := .register hk
      rwa [hr] at h
    | literal hk hv => exact .literal hk ((literalValue?_iff (Spelt.of_literal (hk ▸ ht))).2 hv)
    | label hk htext =>
      have h : Grammar.Argument formulas slots t _ := .label hk
      rwa [htext] at h
    | registerParam hk hs htext hn hlt =>
      obtain ⟨ds, htext', hds⟩ := Spelt.of_registerParam (hk ▸ ht)
      cases htext.symm.trans htext'
      have hle := (hslots _ hs).1
      have hi := hds.paramNumber?_eq_some.2 ⟨_, hn, by omega, rfl⟩
      exact .registerParam hk hs (by rw [htext]; exact hi) (by omega)
    | literalParam hk hs htext hn hlt =>
      obtain ⟨ds, htext', hds⟩ := Spelt.of_literalParam (hk ▸ ht)
      cases htext.symm.trans htext'
      have hle := (hslots _ hs).2
      have hi := hds.paramNumber?_eq_some.2 ⟨_, hn, by omega, rfl⟩
      exact .literalParam hk hs (by rw [htext]; exact hi) (by omega)

/-! ## Lists -/

/-- Tokens as a scan gives them, no more than a signed word can count. -/
structure Scanned (ts : List Token) : Prop where
  spelt : ∀ t ∈ ts, Spelt t.kind t.text
  size : ts.length ≤ Word.signedLimit

theorem Scanned.suffix {us : List Token} (h : Scanned ts) (hs : us <:+ ts) : Scanned us where
  spelt t ht := h.spelt t (hs.mem ht)
  size := Nat.le_trans hs.length_le h.size

theorem Scanned.tail (h : Scanned (t :: ts)) : Scanned ts := h.suffix (List.suffix_cons ..)

section Lists

variable {α : Type} {item item' : Token → α → Prop} {as : List α}

theorem separated_mono (h : Grammar.Separated item ts as left)
    (himp : ∀ t ∈ ts, ∀ a, item t a → item' t a) :
    Grammar.Separated item' ts as left := by
  induction h with
  | last ha hend => exact .last (himp _ (List.mem_cons_self ..) _ ha) hend
  | more ha hc _ ih =>
    exact .more (himp _ (List.mem_cons_self ..) _ ha) hc
      (ih fun t ht => himp t (.tail _ (.tail _ ht)))

theorem separated_iff :
    Grammar.Separated item ts as left ↔
      ∃ x : Items, ts = x.tokens ++ left ∧ x.Lists item as ∧ LineEnds left := by
  constructor
  · intro h
    induction h with
    | last ha hend => exact ⟨.last _, rfl, .last ha, hend⟩
    | more ha hc _ ih =>
      obtain ⟨x, rfl, hx, hend⟩ := ih
      exact ⟨.more _ _ x, rfl, .more ha hc hx, hend⟩
  · rintro ⟨x, rfl, hx, hend⟩
    induction hx with
    | last ha => exact .last ha hend
    | more ha hc _ ih => exact .more ha hc ih

theorem listed_iff :
    Grammar.Listed item ts as left ↔
      ∃ x, ts = optional x ++ left ∧ Optional item x as ∧ LineEnds left := by
  constructor
  · intro h
    cases h with
    | empty hend => exact ⟨none, rfl, .none, hend⟩
    | items h =>
      obtain ⟨x, rfl, hx, hend⟩ := separated_iff.1 h
      exact ⟨some x, rfl, .some hx, hend⟩
  · rintro ⟨x, rfl, hx, hend⟩
    cases hx with
    | none => exact .empty hend
    | some hx => exact .items (separated_iff.2 ⟨_, rfl, hx, hend⟩)

/-- A list takes a token for every item. -/
theorem Items.Lists.length_le {x : Items} (h : x.Lists item as) : as.length ≤ x.tokens.length := by
  induction h with
  | last _ => exact Nat.le_refl _
  | more _ _ _ ih =>
    simp only [Items.tokens, List.length_cons]
    omega

theorem Optional.length_le {x : Option Items} (h : Optional item x as) :
    as.length ≤ (optional x).length := by
  cases h with
  | none => exact Nat.le_refl _
  | some h => exact h.length_le

end Lists

/-- **Arguments are listed as their derivation says.** -/
theorem arguments_iff {args : List Arg} (hts : Scanned ts) (hslots : Counted slots) :
    Grammar.Listed (Grammar.Argument formulas slots) ts args left ↔
      ∃ x, ts = optional x ++ left ∧ Optional (Denotes formulas slots) x args ∧ LineEnds left := by
  rw [← listed_iff]
  constructor
  · intro h
    cases h with
    | empty hend => exact .empty hend
    | items h =>
      exact .items (separated_mono h fun t ht a => (argument_iff (hts.spelt t ht) hslots).1)
  · intro h
    cases h with
    | empty hend => exact .empty hend
    | items h =>
      exact .items (separated_mono h fun t ht a => (argument_iff (hts.spelt t ht) hslots).2)

/-! ## Phrases -/

theorem statement_iff {s : Stmt} (hts : Scanned ts) (hslots : Counted slots) :
    Grammar.Statement formulas slots ts s left ↔
      ∃ x : Statement, ts = x.tokens ++ left ∧ x.Says formulas slots left s := by
  constructor
  · intro h
    cases h with
    | call hk hargs =>
      obtain ⟨x, rfl, hx, hend⟩ := (arguments_iff hts.tail hslots).1 hargs
      exact ⟨.call _ x, rfl, .call hk hx hend⟩
    | label hk hc =>
      obtain ⟨word, htext, -⟩ := Spelt.of_label (hk ▸ hts.spelt _ (List.mem_cons_self ..))
      rw [htext]
      exact ⟨.label _ _, rfl, .label hk htext hc⟩
  · rintro ⟨x, rfl, hx⟩
    cases hx with
    | call hk hargs hend => exact .call hk ((arguments_iff hts.tail hslots).2 ⟨_, rfl, hargs, hend⟩)
    | label hk htext hc =>
      have h : Grammar.Statement formulas slots _ _ left := .label hk hc
      rwa [htext] at h

theorem body_iff {slots : Slots} {body : List Stmt} (hts : Scanned ts)
    (hslots : Counted (some slots)) :
    Grammar.Body formulas slots ts body left ↔
      ∃ (xs : List Line) (closer : Token), ts = xs.flatMap Line.tokens ++ closer :: left ∧
        LinesSay formulas (some slots) (closer :: left) xs body ∧ closer.kind = .directive ∧
        closer.text = utf8 "@endmacro" := by
  constructor
  · intro h
    induction h with
    | close hk ht => exact ⟨[], _, rfl, .nil, hk, ht⟩
    | newline hk _ ih =>
      obtain ⟨xs, closer, rfl, hxs, hclose⟩ := ih hts.tail
      exact ⟨.newline _ :: xs, closer, rfl, .newline hk hxs, hclose⟩
    | stmt hs _ ih =>
      obtain ⟨x, rfl, hx⟩ := (statement_iff hts hslots).1 hs
      obtain ⟨xs, closer, rfl, hxs, hclose⟩ := ih (hts.suffix (List.suffix_append ..))
      exact ⟨.stmt x :: xs, closer, by simp [Line.tokens], .stmt hx hxs, hclose⟩
  · rintro ⟨xs, closer, rfl, hxs, hk, ht⟩
    induction hxs with
    | nil => exact .close hk ht
    | newline hkind _ ih => exact .newline hkind (ih hts.tail)
    | @stmt x s lines stmts hx _ ih =>
      rw [List.flatMap_cons, List.append_assoc] at hts ⊢
      exact .stmt ((statement_iff hts hslots).2 ⟨x, rfl, hx⟩)
        (ih (hts.suffix (List.suffix_append ..)))

/-- Parameters that stand among scanned tokens can be counted. -/
theorem counted_slotsOf {params : Option Items} {kinds : List ArgKind}
    (h : Optional Parameter params kinds) (hts : Scanned (optional params ++ ts)) :
    Counted (some (slotsOf kinds)) := by
  have hlength : kinds.length ≤ Word.signedLimit := by
    have hle := h.length_le
    have hsize := hts.size
    rw [List.length_append] at hsize
    omega
  intro s hs
  cases hs
  exact ⟨Nat.le_trans List.count_le_length hlength, Nat.le_trans List.count_le_length hlength⟩

theorem element_iff {n : Node} (hts : Scanned ts) :
    Grammar.Element formulas ts n left ↔
      ∃ p : Piece, ts = p.tokens ++ left ∧ p.Says formulas left n := by
  have hnone : Counted none := by
    intro s hs
    cases hs
  constructor
  · intro h
    cases h with
    | definition hk ht h =>
      cases h with
      | intro hname hparams hbody =>
        obtain ⟨params, rfl, hp, hend⟩ := listed_iff.1 hparams
        have hslots := counted_slotsOf hp hts.tail.tail
        obtain ⟨xs, closer, rfl, hxs, hclose, htext⟩ :=
          (body_iff (hts.tail.tail.suffix (List.suffix_append ..)) hslots).1 hbody
        refine ⟨.definition _ _ params xs closer, ?_,
          .definition hk ht hname hp hend hxs hclose htext⟩
        simp only [Piece.tokens, List.cons_append, List.append_assoc, List.nil_append]
    | splice hk ht hpath hend => exact ⟨.splice _ _, rfl, .splice hk ht hpath hend⟩
    | stmt h =>
      obtain ⟨x, rfl, hx⟩ := (statement_iff hts hnone).1 h
      exact ⟨.line (.stmt x), rfl, .stmt hx⟩
  · rintro ⟨p, rfl, hp⟩
    cases hp with
    | stmt hx => exact .stmt ((statement_iff hts hnone).2 ⟨_, rfl, hx⟩)
    | splice hk ht hpath hend => exact .splice hk ht hpath hend
    | definition hk ht hname hparams hend hbody hclose htext =>
      simp only [Piece.tokens, List.cons_append, List.append_assoc, List.nil_append] at hts ⊢
      have hslots := counted_slotsOf hparams hts.tail.tail
      have hbody := (body_iff (hts.tail.tail.suffix (List.suffix_append ..)) hslots).2
          ⟨_, _, rfl, hbody, hclose, htext⟩
      exact .definition hk ht (.intro hname (listed_iff.2 ⟨_, rfl, hparams, hend⟩) hbody)

/-- **The nodes of scanned tokens are those of their derivation.** -/
theorem source_iff {nodes : List Node} (hts : Scanned ts) :
    Grammar.Source formulas ts nodes ↔
      ∃ ps : List Piece, ps.flatMap Piece.tokens = ts ∧ Derives formulas ps nodes := by
  constructor
  · intro h
    induction h with
    | nil => exact ⟨[], rfl, .nil⟩
    | newline hk _ ih =>
      obtain ⟨ps, rfl, hps⟩ := ih hts.tail
      exact ⟨.line (.newline _) :: ps, rfl, .newline hk hps⟩
    | element hn _ ih =>
      obtain ⟨p, rfl, hp⟩ := (element_iff hts).1 hn
      obtain ⟨ps, rfl, hps⟩ := ih (hts.suffix (List.suffix_append ..))
      exact ⟨p :: ps, rfl, .piece hp hps⟩
  · rintro ⟨ps, rfl, hps⟩
    induction hps with
    | nil => exact .nil
    | newline hk _ ih => exact .newline hk (ih hts.tail)
    | @piece p n pieces nodes hp _ ih =>
      rw [List.flatMap_cons] at hts ⊢
      exact .element ((element_iff hts).2 ⟨p, rfl, hp⟩) (ih (hts.suffix (List.suffix_append ..)))

end

end Octet.Derivation

namespace Octet

open Octet.Derivation (Piece Derives)

/-- **The parser accepts exactly the grammar.** Take the tokens of any source, which may be parsed
under any name. They are parsed into nodes exactly if they have a derivation that stands for these
nodes, and they have no second derivation. No list in memory is longer than a signed word can count;
without that, the number of a declared parameter could be too large to be read, since numbers of
parameters are signed words. -/
theorem ofTokens_accepts_grammar (path text : Text) (ts : List Token)
    (hscan : Token.scan path text = .ok ts) (hsize : ts.length ≤ Word.signedLimit)
    (file source : Text) (formulas : Formulas) :
    (∀ nodes, Node.ofTokens file source formulas ts = .ok nodes ↔
        ∃ ps : List Piece, ps.flatMap Piece.tokens = ts ∧ Derives formulas ps nodes) ∧
      ∀ ps qs nodes nodes', ps.flatMap Piece.tokens = ts → Derives formulas ps nodes →
        qs.flatMap Piece.tokens = ts → Derives formulas qs nodes' → ps = qs ∧ nodes = nodes' := by
  have hiff (nodes : List Node) : Node.ofTokens file source formulas ts = .ok nodes ↔
      ∃ ps : List Piece, ps.flatMap Piece.tokens = ts ∧ Derives formulas ps nodes := by
    rw [← Derivation.source_iff ⟨Token.scan_spelt hscan, hsize⟩]
    exact Grammar.readNodes_eq_ok rfl
  refine ⟨hiff, ?_⟩
  intro ps qs nodes nodes' hps hp hqs hq
  have hok := (hiff nodes).2 ⟨ps, hps, hp⟩
  have hok' := (hiff nodes').2 ⟨qs, hqs, hq⟩
  exact ⟨hp.unique hq (hps.trans hqs.symm), Except.ok.inj (hok.symm.trans hok')⟩

/-- A source with an include, a macro, a label and a call. -/
def everyPhrase : Text :=
  utf8 "@include \"a\"\n@macro m %r0, %l0\nmov %r0, %l0\n@endmacro\n$l: m r1, #10h\n"

theorem ofTokens_accepts_grammar_every_phrase :
    ∃ ts nodes ps, Token.scan [] everyPhrase = .ok ts ∧ ts.length ≤ Word.signedLimit ∧
      ts.length = 23 ∧
      nodes.length = 4 ∧ Node.ofTokens [] everyPhrase .valueless ts = .ok nodes ∧
        ps.flatMap Piece.tokens = ts ∧ Derives .valueless ps nodes ∧
      ∀ qs nodes', qs.flatMap Piece.tokens = ts → Derives .valueless qs nodes' →
        ps = qs ∧ nodes = nodes' := by
  have hrun : ((Token.scan [] everyPhrase).toOption.bind fun ts =>
      (Node.ofTokens [] everyPhrase .valueless ts).toOption.map fun nodes =>
        (ts.length, nodes.length)) = some (23, 4) := by
    decide +kernel
  obtain ⟨ts, hts, hrest⟩ := Option.bind_eq_some_iff.1 hrun
  obtain ⟨nodes, hnodes, hlengths⟩ := Option.map_eq_some_iff.1 hrest
  obtain ⟨hlength, hcount⟩ := Prod.mk.inj hlengths
  have hscan := Except.toOption_eq_some.1 hts
  have hok := Except.toOption_eq_some.1 hnodes
  have hsize : ts.length ≤ Word.signedLimit := by
    rw [hlength]
    decide
  obtain ⟨hiff, hunique⟩ :=
    ofTokens_accepts_grammar [] everyPhrase ts hscan hsize [] everyPhrase .valueless
  obtain ⟨ps, hps, hderives⟩ := (hiff nodes).1 hok
  exact ⟨ts, nodes, ps, hscan, hsize, hlength, hcount, hok, hps, hderives,
    fun qs nodes' hqs hq => hunique ps qs nodes nodes' hps hderives hqs hq⟩

end Octet
