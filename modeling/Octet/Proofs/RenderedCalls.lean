import Octet.Proofs.Disassembly
import Octet.Proofs.NumeralValues

/-!
# Calls as they are rendered

A call is rendered with its literals in decimal and its parameters by number, however they were
written. The parser only builds calls whose names and arguments can be written, and what is rendered
for them is read as the same call again.

* `Arg.Writable`, `Call.Writable` — what the parser builds (`Grammar.Statement.writable`), and
  expansion keeps (`Macro.bind_writable`);
* `Arg.Writable.plain`, `Arg.Writable.argument` — an argument is read back from its text;
* `Call.Writable.denotes`, `Call.Writable.denotes_enclosed` — a call is read back, outside of macros
  and in a macro with the same parameters;
* `rendered_calls_parse_back` — **every call that is parsed, and every row of a program, is read
  back from its text**.
-/

namespace Octet

open Token (Plain IsWord written registerNames)

/-! ## What can be written -/

/-- The names that calls of a form have. -/
def CallForm.Names : CallForm → Text → Prop
  | .mnemonic, name => name ∈ mnemonics
  | .word, name => IsWord name ∧ name ∉ registerNames ∧ name ∉ mnemonics

theorem CallForm.Names.eq_mnemonic {form : CallForm} {name : Text} (h : form.Names name)
    (hm : name ∈ mnemonics) :
    form = .mnemonic := by
  cases form with
  | mnemonic => rfl
  | word => exact absurd hm h.2.2

/-- An argument that can be written where there are these slots. -/
inductive Arg.Writable (slots : Option Slots) : Arg → Prop
  | register {name : Text} {t : Token} (h : name ∈ registerNames) :
    Writable slots (.register name ((Register.ofName? name).getD .r0) t)
  | literal {value : UInt32} {t : Token} : Writable slots (.literal value t)
  | label {name : Text} {t : Token} (h : IsWord name) : Writable slots (.label name t)
  | registerParam {s : Slots} {n : Nat} {t : Token} (hs : slots = some s) (hlt : n < s.registers)
    (hn : n < Word.signedLimit) : Writable slots (.registerParam n t)
  | literalParam {s : Slots} {n : Nat} {t : Token} (hs : slots = some s) (hlt : n < s.literals)
    (hn : n < Word.signedLimit) : Writable slots (.literalParam n t)

structure Call.Writable (slots : Option Slots) (c : Call) : Prop where
  name : c.form.Names c.name
  args : ∀ a ∈ c.args, a.Writable slots

def Stmt.Writable (slots : Option Slots) : Stmt → Prop
  | call c => c.Writable slots
  | label name _ => IsWord name

structure Macro.Writable (m : Macro) : Prop where
  name : ∃ form : CallForm, form.Names m.name
  params : ∀ k ∈ m.params, k.Known
  body : ∀ s ∈ m.body, s.Writable (some (Grammar.slotsOf m.params))

/-! ## What the parser builds -/

namespace Token

/-- A token with a text of its class. A word is neither a register nor a mnemonic. -/
structure Exact (t : Token) : Prop where
  spelt : Spelt t.kind t.text
  word : t.kind = .word → t.text ∉ registerNames ∧ t.text ∉ mnemonics

theorem scan_exact {file source : Text} {ts : List Token} (h : scan file source = .ok ts) :
    ∀ t ∈ ts, t.Exact := by
  intro t ht
  have hspelt := scan_spelt h t ht
  refine ⟨hspelt, fun hword => ?_⟩
  obtain ⟨offset, line, hend⟩ := scan_eq_ok.1 h
  have htaken := (hend.readable t ht).taken [] (by simp [Apart])
  have hspelling : t.spelling = t.text := by simp [spelling, hword]
  rw [hspelling, hword] at htaken
  rw [hword] at hspelt
  generalize t.text = text at hspelt htaken
  cases hspelt with
  | word hx =>
    cases hx with
    | intro hb hmore =>
      have hkind := (htaken.identifier hb).1
      constructor
      · intro hmem
        rw [identifierKind_register hmem] at hkind
        cases hkind
      · intro hmem
        rw [identifierKind_instruction hmem] at hkind
        cases hkind

end Token

namespace Grammar

variable {formulas : Formulas} {slots : Option Slots} {t : Token} {ts left : List Token}

theorem Argument.writable {a : Arg} (h : Argument formulas slots t a) (ht : t.Exact) :
    a.Writable slots := by
  have hspelt := ht.spelt
  cases h with
  | register hk => exact .register (Token.Spelt.of_register (hk ▸ hspelt))
  | literal _ _ => exact .literal
  | label hk =>
    obtain ⟨word, htext, hword⟩ := Token.Spelt.of_label (hk ▸ hspelt)
    rw [htext]
    exact .label hword
  | registerParam hk hs hi hlt =>
    obtain ⟨-, n, -, -, hn, rfl⟩ := Token.Spelt.number_of_registerParam (hk ▸ hspelt) hi
    exact .registerParam hs (Int.ofNat_lt.1 hlt) hn
  | literalParam hk hs hi hlt =>
    obtain ⟨-, n, -, -, hn, rfl⟩ := Token.Spelt.number_of_literalParam (hk ▸ hspelt) hi
    exact .literalParam hs (Int.ofNat_lt.1 hlt) hn

/-- A token that names a call of a form has a name of the form. -/
theorem names_of_kind {form : CallForm} (ht : t.Exact) (hk : t.kind = nameKind form) :
    form.Names t.text := by
  have hspelt := ht.spelt
  cases form with
  | mnemonic =>
    rw [hk] at hspelt
    cases hspelt with
    | instruction h => exact h
  | word =>
    obtain ⟨hr, hm⟩ := ht.word hk
    rw [hk] at hspelt
    cases hspelt with
    | word h => exact ⟨h, hr, hm⟩

/-- **The parser builds only what can be written.** -/
theorem Statement.writable {s : Stmt} (h : Statement formulas slots ts s left)
    (hts : ∀ t ∈ ts, t.Exact) :
    s.Writable slots := by
  cases h with
  | call hk h =>
    exact ⟨names_of_kind (hts _ (.head _)) hk,
      h.forall_items fun t ht _ ha => ha.writable (hts t (.tail _ ht))⟩
  | label hk _ =>
    obtain ⟨word, htext, hword⟩ := Token.Spelt.of_label (hk ▸ (hts _ (.head _)).spelt)
    rw [htext]
    exact hword

theorem Definition.writable {m : Macro} (h : Definition formulas ts m left)
    (hts : ∀ t ∈ ts, t.Exact) : m.Writable := by
  have hsound := h.sound fun t ht => (hts t ht).spelt
  cases h with
  | intro hk hparams hbody =>
    have hname := hts _ (.head _)
    refine ⟨?_, hsound.known, fun s hs => ?_⟩
    · rcases hk with hk | hk
      · exact ⟨.word, names_of_kind hname hk⟩
      · exact ⟨.mnemonic, names_of_kind hname hk⟩
    · obtain ⟨us, rest, hus, hstmt⟩ := hbody.statement_of_mem hs
      exact hstmt.writable fun t ht => hts t (.tail _ (hparams.suffix.mem (hus.mem ht)))

theorem Parsed.writable {s : Stmt} (h : Parsed formulas (.stmt s)) : s.Writable none := by
  obtain ⟨file, source, ts, us, rest, hscan, hus, helement⟩ := h.element
  cases helement with
  | stmt hs => exact hs.writable fun t ht => Token.scan_exact hscan t (hus.mem ht)

theorem Parsed.macro_writable {m : Macro} (h : Parsed formulas (.definition m)) : m.Writable := by
  obtain ⟨file, source, ts, us, rest, hscan, hus, helement⟩ := h.element
  cases helement with
  | definition _ _ hm =>
    exact hm.writable fun t ht => Token.scan_exact hscan t (hus.mem (.tail _ ht))

end Grammar

/-! ## Tokens that are read back -/

namespace Token

theorem plain_word {name : Text} (h : IsWord name) (hr : name ∉ registerNames)
    (hm : name ∉ mnemonics) :
    Plain (written .word name) where
  lexeme := rfl
  kind := by simp [written]
  first := (readAs_word h hr hm rfl : ReadAs (some .word) name []).toTaken.first_not_blank
  read _ := readAs_word h hr hm

theorem plain_label {name : Text} (h : IsWord name) :
    Plain (written .label ('$'.toUInt8 :: name)) :=
  plain_marked (by decide) (by decide) fun _ => readAs_label h

theorem plain_directive {name : Text} (h : IsWord name) :
    Plain (written .directive ('@'.toUInt8 :: name)) :=
  plain_marked (by decide) (by decide) fun _ => readAs_directive h

theorem plain_numeral {r : Radix} {ds : Text} (h : r.Digits ds) :
    Plain (written .literal (r.numeral ds)) :=
  plain_marked (by decide) (by decide) fun _ => readAs_numeral (Radix.numeral_iff.2 ⟨r, ds, h, rfl⟩)

theorem plain_registerParam {ds : Text} (h : Run Text.isDigit ds) :
    Plain (written .registerParam ('%'.toUInt8 :: 'r'.toUInt8 :: ds)) :=
  plain_marked (by decide) (by decide) fun _ hrest =>
    readAs_registerParam h (isDigit_of_atBoundary hrest)

theorem plain_literalParam {ds : Text} (h : Run Text.isDigit ds) :
    Plain (written .literalParam ('%'.toUInt8 :: 'l'.toUInt8 :: ds)) :=
  plain_marked (by decide) (by decide) fun _ hrest =>
    readAs_literalParam h (isDigit_of_atBoundary hrest)

theorem plain_name {form : CallForm} {name : Text} (h : form.Names name) :
    Plain (written (Grammar.nameKind form) name) := by
  cases form with
  | mnemonic => exact plain_mnemonic h
  | word => exact plain_word h.1 h.2.1 h.2.2

end Token

/-- A number is read back from its digits, in any base up to 16. -/
theorem Text.natOfDigits?_digits {base : Nat} (hbase : 1 < base) (hle : base ≤ 16) (n : Nat) :
    natOfDigits? base (digits base n) = some n := by
  cases hds : digits base n with
  | nil => exact absurd hds (digits_ne_nil hbase n)
  | cons d ds =>
    rw [natOfDigits?, ← hds, foldlM_digits hbase hle]
    simp

theorem Radix.decimalDigits (n : Nat) : Radix.decimal.Digits (Text.digits 10 n) := by
  have hdigit : ∀ d, d < 10 → Text.isDigit (Nat.digitChar d).toUInt8 = true := by decide +kernel
  exact (Radix.digits_iff Radix.isDigit_iff).2
    ⟨Text.digits_ne_nil (by decide) n, Text.forall_mem_digits (by decide) hdigit n⟩

/-- Numbers without a sign are written as their digits. -/
theorem Text.decimal_natCast (n : Nat) : decimal n = digits 10 n := by
  rw [decimal, signed, if_neg (by omega), Int.natAbs_natCast]

/-! ## Arguments -/

namespace Arg

/-- The class of the token for an argument. -/
def tokenKind : Arg → TokenKind
  | register .. => .register
  | literal .. => .literal
  | label .. => .label
  | registerParam .. => .registerParam
  | literalParam .. => .literalParam

/-- The token that an argument is rendered as. -/
def lexeme (a : Arg) : Token := written a.tokenKind a.text

/-- The argument at another place. -/
def withToken (t : Token) : Arg → Arg
  | register name index _ => register name index t
  | literal value _ => literal value t
  | label name _ => label name t
  | registerParam index _ => registerParam index t
  | literalParam index _ => literalParam index t

theorem gist_withToken (t : Token) (a : Arg) : (a.withToken t).gist = a.gist := by cases a <;> rfl

variable {slots : Option Slots} {a : Arg}

theorem Writable.plain (h : a.Writable slots) : a.lexeme.Plain := by
  have hdigits (n : Nat) : Token.Run Text.isDigit (Text.digits 10 n) :=
    (Radix.digits_iff Radix.isDigit_iff).1 (Radix.decimalDigits n)
  cases h with
  | register h => exact Token.plain_register h
  | @literal value t =>
    have hplain := Token.plain_numeral (Radix.decimalDigits value.toNat)
    rw [Radix.numeral, Radix.mark, List.append_nil, ← Text.decimal_natCast] at hplain
    exact hplain
  | label h => exact Token.plain_label h
  | @registerParam s n t _ _ _ =>
    have hplain := Token.plain_registerParam (hdigits n)
    rw [← Text.decimal_natCast] at hplain
    exact hplain
  | @literalParam s n t _ _ _ =>
    have hplain := Token.plain_literalParam (hdigits n)
    rw [← Text.decimal_natCast] at hplain
    exact hplain

/-- **An argument is read back from its text.** -/
theorem Writable.argument (h : a.Writable slots) (formulas : Formulas) :
    Grammar.Argument formulas slots a.lexeme (a.withToken a.lexeme) := by
  have hnumber (n : Nat) (hn : n < Word.signedLimit) :
      Parser.paramNumber? (Text.decimal n) = some (n : Int) := by
    have hdigits := (Radix.digits_iff Radix.isDigit_iff).1 (Radix.decimalDigits n)
    rw [Text.decimal_natCast]
    exact hdigits.paramNumber?_eq_some.2 ⟨n, Text.natOfDigits?_digits (by decide) (by decide) n, hn,
      rfl⟩
  cases h with
  | register h => exact .register rfl
  | @literal value t =>
    have hds := Radix.decimalDigits value.toNat
    have htext :
        (Arg.literal value t).lexeme.text = Radix.decimal.numeral (Text.digits 10 value.toNat) := by
      rw [Radix.numeral, Radix.mark, List.append_nil, ← Text.decimal_natCast]
      rfl
    refine .literal rfl ?_
    rw [htext]
    exact (Derivation.literalValue?_of_digits hds.not_open hds.literalDigits).2
      (Text.natOfDigits?_digits (by decide) (by decide) value.toNat)
  | label h => exact .label rfl
  | registerParam hs hlt hn => exact .registerParam rfl hs (hnumber _ hn) (Int.ofNat_lt.2 hlt)
  | literalParam hs hlt hn => exact .literalParam rfl hs (hnumber _ hn) (Int.ofNat_lt.2 hlt)

end Arg

/-! ## Calls -/

/-- Words as the text of a call: the first is its name, and the others are its arguments. -/
def callText : List Text → Text
  | [] => []
  | [name] => name
  | name :: args => name ++ utf8 " " ++ (utf8 ", ").intercalate args

theorem Token.lexemes_callText {name : Token} {ts : List Token} (hname : Plain name)
    (hts : ∀ t ∈ ts, Plain t) :
    lexemes (callText (name.text :: ts.map Token.text)) = some (name :: separated ts) := by
  cases ts with
  | nil =>
    have hlex := hname.lexemes (show atBoundary [] = true from rfl)
    rw [List.append_nil, lexemes_nil] at hlex
    exact hlex
  | cons t ts => exact lexemes_operands hname hts (List.cons_ne_nil t ts)

theorem Token.callText_first {name : Token} (hname : Plain name) (args : List Text) :
    ∀ b ∈ (callText (name.text :: args)).head?, isBlank b = false := by
  obtain ⟨c, hc, -⟩ := (hname.read [] rfl).first
  have hhead : (callText (name.text :: args)).head? = name.text.head? := by
    cases args with
    | nil => rfl
    | cons a args =>
      rw [callText, List.append_assoc, List.head?_append, hc, Option.some_or]
      exact List.cons_ne_nil a args
  rw [hhead]
  exact hname.first

namespace Call

theorem text_eq_callText (c : Call) : c.text = callText c.words := by
  cases hargs : c.args with
  | nil => simp [text, words, hargs, callText]
  | cons a args => simp [text, words, hargs, callText]

/-- The token of the name of a call. -/
def nameLexeme (c : Call) : Token := written (Grammar.nameKind c.form) c.name

/-- The tokens that a call is rendered as. -/
def lexemes (c : Call) : List Token := c.nameLexeme :: Token.separated (c.args.map Arg.lexeme)

/-- The call that is read from these tokens. -/
def reread (c : Call) : Call :=
  ⟨c.form, c.name, c.args.map fun a => a.withToken a.lexeme, c.nameLexeme⟩

theorem gist_reread (c : Call) : c.reread.gist = c.gist := by
  simp [reread, gist, Function.comp_def, Arg.gist_withToken]

variable {slots : Option Slots} {c : Call}

theorem Writable.lexemes_text (h : c.Writable slots) : Token.lexemes c.text = some c.lexemes := by
  have hargs : ∀ t ∈ c.args.map Arg.lexeme, t.Plain :=
    List.forall_mem_map.2 fun a ha => (h.args a ha).plain
  have hlex := Token.lexemes_callText (Token.plain_name h.name) hargs
  rw [List.map_map] at hlex
  rw [text_eq_callText]
  exact hlex

/-- **A call is read back from what it is rendered as**, up to the end of the line. -/
theorem Writable.statement (h : c.Writable slots) (formulas : Formulas) {left : List Token}
    (hend : Grammar.LineEnds left) :
    Grammar.Statement formulas slots (c.lexemes ++ left) (.call c.reread) left := by
  refine Grammar.statement_call rfl ?_ hend
  rw [List.forall₂_map_left_iff, List.forall₂_map_right_iff, List.forall₂_same]
  exact fun a ha => (h.args a ha).argument formulas

end Call

namespace Grammar

variable {formulas : Formulas}

/-- A text that denotes one item is parsed as one. -/
theorem Denotes.exists_item {x : Text} {i : Item} (h : Denotes formulas x [(Node.item i).gist])
    (file : Text) :
    ∃ j, Node.ofSource file x formulas = .ok [.item j] ∧ j.gist = i.gist := by
  obtain ⟨nodes, hnodes, hgists⟩ := (denotes_iff file).1 h
  obtain ⟨n, rfl, hn⟩ := List.map_eq_singleton_iff.1 hgists
  obtain ⟨j, rfl, hj⟩ := Node.gist_eq_item hn
  exact ⟨j, hnodes, hj⟩

end Grammar

namespace Item

theorem gist_eq_call {i : Item} {c : Call} (h : i.gist = (stmt (.call c)).gist) :
    ∃ d, i = stmt (.call d) ∧ d.gist = c.gist := by
  cases i with
  | definition m => cases h
  | stmt s =>
    obtain ⟨d, rfl, hd⟩ := Stmt.gist_eq_call (Item.stmt.inj h)
    exact ⟨d, rfl, hd⟩

theorem gist_eq_definition {i : Item} {m : Macro} (h : i.gist = (definition m).gist) :
    ∃ d, i = definition d ∧ d.gist = m.gist := by
  cases i with
  | definition d => exact ⟨d, rfl, Item.definition.inj h⟩
  | stmt s => cases h

end Item

theorem Macro.of_gist {m d : Macro} (h : d.gist = m.gist) :
    d.name = m.name ∧ d.params = m.params ∧ d.body.map Stmt.gist = m.body.map Stmt.gist := by
  simp only [Macro.gist, Macro.mk.injEq] at h
  exact ⟨h.1, h.2.1, h.2.2.1⟩

/-! ## Calls in their context -/

open Grammar (Parameter LineEnds)

theorem Call.Writable.denotes {c : Call} (h : c.Writable none) (formulas : Formulas) :
    Grammar.Denotes formulas c.text [(Node.item (.stmt (.call c))).gist] := by
  have hstmt : Grammar.Statement formulas none (c.lexemes ++ []) _ [] :=
    h.statement formulas (by simp [LineEnds])
  rw [List.append_nil] at hstmt
  refine ⟨_, _, h.lexemes_text, .element (.stmt hstmt) .nil, ?_⟩
  rw [List.map_singleton, Node.gist, Item.gist, Stmt.gist, c.gist_reread]
  rfl

/-- A parameter as a macro declares it. -/
def ArgKind.declared : ArgKind → Token
  | register => written .registerParam (utf8 "%r0")
  | _ => written .literalParam (utf8 "%l0")

theorem ArgKind.Known.declared_plain {k : ArgKind} (h : k.Known) : k.declared.Plain := by
  have hdigits : Token.Run Text.isDigit (utf8 "0") := ⟨by decide +kernel, by decide +kernel⟩
  rcases h with rfl | rfl
  · exact Token.plain_registerParam hdigits
  · exact Token.plain_literalParam hdigits

theorem ArgKind.Known.parameter {k : ArgKind} (h : k.Known) : Parameter k.declared k := by
  rcases h with rfl | rfl
  · exact .register rfl
  · exact .literal rfl

/-- A text as the body of a macro with a name and parameters. -/
def enclosed (name : Text) (params : List ArgKind) (x : Text) : Text :=
  utf8 "@macro" ++ utf8 " " ++ callText (name :: (params.map ArgKind.declared).map Token.text) ++
    Text.lf :: (x ++ Text.lf :: utf8 "@endmacro")

section Enclosed

variable {name : Text} {params : List ArgKind} {form : CallForm} (hname : form.Names name)
  (hparams : ∀ k ∈ params, k.Known)
include hname hparams

/-- The tokens of an enclosed text. -/
theorem lexemes_enclosed {x : Text} {ts : List Token} (hx : Token.lexemes x = some ts) :
    Token.lexemes (enclosed name params x) =
      some (written .directive (utf8 "@macro") :: written (Grammar.nameKind form) name ::
        (Token.separated (params.map ArgKind.declared) ++
          Token.lineBreak ::
            (ts ++ [Token.lineBreak, written .directive (utf8 "@endmacro")]))) := by
  have hplain := Token.plain_name hname
  have hdeclared : ∀ t ∈ params.map ArgKind.declared, t.Plain :=
    List.forall_mem_map.2 fun k hk => (hparams k hk).declared_plain
  have hcall : Token.lexemes (callText (name :: (params.map ArgKind.declared).map Token.text)) =
      some (written (Grammar.nameKind form) name ::
        Token.separated (params.map ArgKind.declared)) :=
    Token.lexemes_callText hplain hdeclared
  have hblank : Token.ReadAs none (utf8 " ")
      (callText (name :: (params.map ArgKind.declared).map Token.text)) :=
    Token.readAs_blank (Token.callText_first hplain _)
  have hopen : Plain (written .directive (utf8 "@macro")) :=
    Token.plain_directive (.intro (by decide) (by decide +kernel) : IsWord (utf8 "macro"))
  have hclose : Plain (written .directive (utf8 "@endmacro")) :=
    Token.plain_directive (.intro (by decide) (by decide +kernel) : IsWord (utf8 "endmacro"))
  have hhead : Token.lexemes (utf8 "@macro" ++ utf8 " " ++
      callText (name :: (params.map ArgKind.declared).map Token.text)) =
      some (written .directive (utf8 "@macro") :: written (Grammar.nameKind form) name ::
        Token.separated (params.map ArgKind.declared)) := by
    rw [List.append_assoc]
    refine (hopen.lexemes rfl).trans ?_
    rw [hblank.lexemes_skipped, hcall]
    rfl
  have hlast := hclose.lexemes (show Token.atBoundary [] = true from rfl)
  rw [List.append_nil, Token.lexemes_nil] at hlast
  rw [enclosed, Token.lexemes_append rfl, hhead, Token.lexemes_append rfl, hx]
  simp only [Option.bind_some]
  rw [show Token.lexemes (utf8 "@endmacro") =
    some [written .directive (utf8 "@endmacro")] from hlast]
  simp

theorem Call.Writable.denotes_enclosed {c : Call} (h : c.Writable (some (Grammar.slotsOf params)))
    (formulas : Formulas) :
    Grammar.Denotes formulas (enclosed name params c.text)
      [(Node.item (.definition ⟨name, params, [.call c], .blank⟩)).gist] := by
  have hbreak (rest : List Token) : LineEnds (Token.lineBreak :: rest) := by
    rintro t ⟨⟩
    rfl
  have hdeclared : List.Forall₂ Parameter (params.map ArgKind.declared) params := by
    rw [List.forall₂_map_left_iff, List.forall₂_same]
    exact fun k hk => (hparams k hk).parameter
  have hbody : Grammar.Body formulas (Grammar.slotsOf params)
      (Token.lineBreak :: (c.lexemes ++ [Token.lineBreak, written .directive (utf8 "@endmacro")]))
        [.call c.reread] [] :=
    .newline rfl (.stmt (h.statement formulas (hbreak _)) (.newline rfl (.close rfl rfl)))
  have hkind : Grammar.nameKind form = .word ∨ Grammar.nameKind form = .instruction := by
    cases form with
    | mnemonic => exact .inr rfl
    | word => exact .inl rfl
  have hmacro : Grammar.Definition formulas (written (Grammar.nameKind form) name :: _)
      ⟨name, params, [.call c.reread], written (Grammar.nameKind form) name⟩ [] :=
    .intro hkind (Grammar.listed_of_forall₂ hdeclared (hbreak _)) hbody
  refine ⟨_, _, lexemes_enclosed hname hparams h.lexemes_text,
    .element (.definition rfl rfl hmacro) .nil, ?_⟩
  simp [Node.gist, Item.gist, Macro.gist, Stmt.gist, c.gist_reread]

end Enclosed

/-! ## What expansion keeps -/

namespace Arg

variable {slots : Option Slots} {a : Arg}

/-- Outside of macros there are no parameters. -/
theorem Writable.closed (h : a.Writable none) : a.Closed := by
  cases h with
  | register _ => exact .register
  | literal => exact .literal
  | label _ => exact .label
  | registerParam hs _ _ => cases hs
  | literalParam hs _ _ => cases hs

theorem Writable.of_closed (h : a.Writable slots) (hc : a.Closed) : a.Writable none := by
  cases h with
  | register h => exact .register h
  | literal => exact .literal
  | label h => exact .label h
  | registerParam _ _ _ => cases hc
  | literalParam _ _ _ => cases hc

/-- What stands in the place of an argument is the argument itself or comes from the call. -/
theorem substitute_mem (registers literals : List Arg) (a : Arg) :
    a.substitute registers literals = a ∨
      a.substitute registers literals ∈ registers ++ literals := by
  have hget (args : List Arg) (i : Int) :
      (if 0 ≤ i then (args[i.toNat]?).getD a else a) = a ∨
        (if 0 ≤ i then (args[i.toNat]?).getD a else a) ∈ args := by
    split
    · cases h : args[i.toNat]? with
      | none => exact .inl rfl
      | some b => exact .inr (List.mem_of_getElem? h)
    · exact .inl rfl
  cases a with
  | register _ _ _ => exact .inl rfl
  | literal _ _ => exact .inl rfl
  | label _ _ => exact .inl rfl
  | registerParam i _ => exact (hget registers i).imp_right (List.mem_append_left _)
  | literalParam i _ => exact (hget literals i).imp_right (List.mem_append_right _)

end Arg

/-- **A body that is bound to writable arguments is writable**, without parameters. -/
theorem Macro.bind_writable {m : Macro} {c : Call} (hm : m.Writable) (hsound : m.Sound)
    (hkey : m.key = c.key) (hc : c.Writable none) : ∀ s ∈ m.bind c.args, s.Writable none := by
  intro s hs
  have hclosed := Macro.bind_closed hsound hkey (fun a ha => (hc.args a ha).closed) s hs
  obtain ⟨x, hx, rfl⟩ := List.mem_map.1 hs
  have hbody := hm.body x hx
  cases x with
  | label name t => exact hbody
  | call d =>
    refine ⟨hbody.name, fun b hb => ?_⟩
    have hb' := hclosed b hb
    obtain ⟨a, ha, rfl⟩ := List.mem_map.1 hb
    obtain he | hmem :=
      a.substitute_mem (c.args.filter Arg.isRegister) (c.args.filter fun a => !a.isRegister)
    · rw [he] at hb' ⊢
      exact (hbody.args a ha).of_closed hb'
    · rcases List.mem_append.1 hmem with hmem | hmem
      · exact hc.args _ (List.mem_filter.1 hmem).1
      · exact hc.args _ (List.mem_filter.1 hmem).1

namespace Expansion

theorem expanded?_writable {s : Settings} {source : Text} {x : Expanded}
    (h : expanded? s source = some x) :
    ∀ y ∈ x.placed, y.stmt.Writable none := by
  unfold expanded? at h
  simp only [Option.bind_eq_bind, Option.bind_eq_some_iff] at h
  obtain ⟨nodes, hnodes, included, hincluded, ⟨macros, stmts⟩, hcollect, placed, hplaced, hx⟩ := h
  cases hx
  have hcollected :
      collected? s source = some (⟨included.sources, macros, s.maxDepth, s.verbose⟩, stmts) := by
    simp only [collected?, hnodes, Option.bind_eq_bind, Option.bind_some, hincluded, hcollect]
  obtain ⟨hmacros, hstmts⟩ := collected?_parsed hcollected
  rw [outcome_expandMacros] at hplaced
  refine (inlined_of_inlineCalls (Except.toOption_eq_some.1 hplaced)).forall_stmt ?_ fun y hy =>
    (hstmts y hy).writable
  intro c m hfind hc
  obtain ⟨hkey, hparsed⟩ := hmacros _ m hfind
  exact Macro.bind_writable hparsed.macro_writable hparsed.sound hkey hc

end Expansion

/-- The text is parsed as the call, whatever formulas mean. -/
def Call.ParsedFrom (c : Call) (x : Text) : Prop :=
  ∀ file formulas, ∃ c', Node.ofSource file x formulas = .ok [.item (.stmt (.call c'))] ∧
    c'.gist = c.gist

/-- The text is parsed as the call in a macro with the parameters of `m`. -/
def Call.ParsedIn (c : Call) (m : Macro) (x : Text) : Prop :=
  ∀ file formulas, ∃ m' c',
    Node.ofSource file (enclosed m.name m.params x) formulas = .ok [.item (.definition m')] ∧
    m'.name = m.name ∧ m'.params = m.params ∧ m'.body = [.call c'] ∧ c'.gist = c.gist

theorem Call.Writable.parsedFrom {c : Call} (h : c.Writable none) : c.ParsedFrom c.text := by
  intro file formulas
  obtain ⟨i, hi, hgist⟩ := (h.denotes formulas).exists_item file
  obtain ⟨c', rfl, hc'⟩ := Item.gist_eq_call hgist
  exact ⟨c', hi, hc'⟩

theorem Call.Writable.parsedIn {c : Call} {m : Macro} (hm : m.Writable)
    (h : c.Writable (some (Grammar.slotsOf m.params))) : c.ParsedIn m c.text := by
  intro file formulas
  obtain ⟨form, hname⟩ := hm.name
  obtain ⟨i, hi, hgist⟩ := (h.denotes_enclosed hname hm.params formulas).exists_item file
  obtain ⟨m', rfl, hm'⟩ := Item.gist_eq_definition hgist
  obtain ⟨hname', hparams', hbody'⟩ := Macro.of_gist hm'
  obtain ⟨s, hs, hgist⟩ := List.map_eq_singleton_iff.1 hbody'
  obtain ⟨c', rfl, hc'⟩ := Stmt.gist_eq_call hgist
  exact ⟨m', c', hi, hname', hparams', hs, hc'⟩

/-- **Every call is read back from its text.** A call that the parser returns is parsed from its
rendered text again, at the top of a source or in a macro with the same parameters. The words of a
row, joined in the same way, are parsed as the call that the row encodes, which has no
parameters. -/
theorem rendered_calls_parse_back :
    (∀ file source formulas nodes, Node.ofSource file source formulas = .ok nodes →
      (∀ c, .item (.stmt (.call c)) ∈ nodes → c.ParsedFrom c.text) ∧
        ∀ m c, .item (.definition m) ∈ nodes → .call c ∈ m.body → c.ParsedIn m c.text) ∧
      ∀ s source p, (assemble s source).result = .ok p → ∀ r ∈ p.rows, ∃ x entry c calls,
        expanded? s source = some x ∧ .instruction entry c calls ∈ x.placed ∧
          Layout.encode x.sources p.labels entry c calls = .ok r.code ∧ c.words = r.words ∧
          c.form = .mnemonic ∧ (∀ a ∈ c.args, a.Closed) ∧ c.ParsedFrom (callText r.words) := by
  constructor
  · intro file source formulas nodes hnodes
    constructor
    · intro c hc
      have hwritable := Grammar.Parsed.writable ⟨file, source, nodes, hnodes, hc⟩
      exact Call.Writable.parsedFrom hwritable
    · intro m c hm hc
      have hwritable := Grammar.Parsed.macro_writable ⟨file, source, nodes, hnodes, hm⟩
      exact Call.Writable.parsedIn hwritable (hwritable.body _ hc)
  · intro s source p h r hr
    obtain ⟨x, hx, -, -, hrows⟩ := assemble_eq_ok.1 h
    obtain ⟨entry, c, calls, hmem, hcode, hwords⟩ := hrows.of_mem hr
    have hwritable : c.Writable none := Expansion.expanded?_writable hx _ hmem
    refine ⟨x, entry, c, calls, hx, hmem, hcode, hwords.symm, ?_,
      fun a ha => (hwritable.args a ha).closed, ?_⟩
    · have hfind := expanded?_selected hx _ _ _ hmem
      have hmnemonic := Instruction.mnemonic_mem (Instruction.mem_of_find? hfind)
      rw [(Instruction.kinds_of_find? hfind).1] at hmnemonic
      exact hwritable.name.eq_mnemonic hmnemonic
    · rw [hwords, ← c.text_eq_callText]
      exact hwritable.parsedFrom

theorem rendered_calls_parse_back_respelt :
    (∃ c c', Node.ofSource [] (utf8 "foo $x, #0Fh") .valueless = .ok [.item (.stmt (.call c))] ∧
      Node.ofSource [] (utf8 "foo $x, #15") .valueless = .ok [.item (.stmt (.call c'))] ∧
        c'.gist = c.gist) ∧
    (∃ m c, Node.ofSource [] (utf8 "@macro two %r1\nadd %r00, %r0\n@endmacro") .valueless =
      .ok [.item (.definition m)] ∧ m.body = [.call c] ∧ c.ParsedIn m (utf8 "add %r0, %r0")) ∧
    ∃ (p : Program) (r : Row) (c : Call),
      (assemble {} (utf8 "@macro two %r1\nadd %r00, %r0\n@endmacro\ntwo r3\n")).result = .ok p ∧
        p.rows = [r] ∧ r.words = [utf8 "add", utf8 "r3", utf8 "r3"] ∧ c.words = r.words ∧
      c.ParsedFrom (utf8 "add r3, r3") := by
  obtain ⟨hparsed, hrows⟩ := rendered_calls_parse_back
  refine ⟨?_, ?_, ?_⟩
  · have hgists :
        (Node.ofSource [] (utf8 "foo $x, #0Fh") .valueless).toOption.map (·.map Node.gist) =
        some [(Node.item (.stmt (.call
          ⟨.word, utf8 "foo", [.label (utf8 "x") .blank, .literal 15 .blank], .blank⟩))).gist] := by
      decide +kernel
    obtain ⟨nodes, hnodes, hgist⟩ := Option.map_eq_some_iff.1 hgists
    obtain ⟨n, rfl, hn⟩ := List.map_eq_singleton_iff.1 hgist
    obtain ⟨j, rfl, hj⟩ := Node.gist_eq_item hn
    obtain ⟨c, rfl, hc⟩ := Item.gist_eq_call hj
    have hok := Except.toOption_eq_some.1 hnodes
    have htext : c.text = utf8 "foo $x, #15" := by
      rw [c.text_eq_callText, ← c.words_gist, hc]
      decide +kernel
    obtain ⟨c', hc', hgist'⟩ := (hparsed _ _ _ _ hok).1 c (.head _) [] .valueless
    exact ⟨c, c', hok, htext ▸ hc', hgist'⟩
  · have hgists : (Node.ofSource [] (utf8 "@macro two %r1\nadd %r00, %r0\n@endmacro")
        .valueless).toOption.map (·.map Node.gist) =
        some [(Node.item (.definition ⟨utf8 "two", [.register], [.call ⟨.mnemonic, utf8 "add",
          [.registerParam 0 .blank, .registerParam 0 .blank], .blank⟩], .blank⟩)).gist] := by
      decide +kernel
    obtain ⟨nodes, hnodes, hgist⟩ := Option.map_eq_some_iff.1 hgists
    obtain ⟨n, rfl, hn⟩ := List.map_eq_singleton_iff.1 hgist
    obtain ⟨j, rfl, hj⟩ := Node.gist_eq_item hn
    obtain ⟨m, rfl, hm⟩ := Item.gist_eq_definition hj
    obtain ⟨-, -, hbody⟩ := Macro.of_gist hm
    obtain ⟨s, hs, hgist⟩ := List.map_eq_singleton_iff.1 hbody
    obtain ⟨c, rfl, hc⟩ := Stmt.gist_eq_call hgist
    have hok := Except.toOption_eq_some.1 hnodes
    have htext : c.text = utf8 "add %r0, %r0" := by
      rw [c.text_eq_callText, ← c.words_gist, hc]
      decide +kernel
    exact ⟨m, c, hok, hs, htext ▸ (hparsed _ _ _ _ hok).2 m c (.head _) (hs ▸ .head _)⟩
  · have hwords : (assemble {}
        (utf8 "@macro two %r1\nadd %r00, %r0\n@endmacro\ntwo r3\n")).result.toOption.map
        (·.rows.map Row.words) = some [[utf8 "add", utf8 "r3", utf8 "r3"]] := by
      simp only [assemble, Expansion.expandIncludes, Expansion.expandMacros,
        Worklist.expand_eq_nested]
      decide +kernel
    obtain ⟨p, hp, hrow⟩ := Option.map_eq_some_iff.1 hwords
    obtain ⟨r, hr, hwords⟩ := List.map_eq_singleton_iff.1 hrow
    have hok := Except.toOption_eq_some.1 hp
    obtain ⟨x, entry, c, calls, -, -, -, hc, -, -, hparse⟩ := hrows _ _ p hok r (hr ▸ .head _)
    have htext : callText r.words = utf8 "add r3, r3" := by
      rw [hwords]
      decide +kernel
    exact ⟨p, r, c, hok, hr, hwords, hc, htext ▸ hparse⟩

end Octet
