import Mathlib.Data.List.TakeWhile
import Octet.Proofs.Lexing
import Octet.Proofs.TokenText
import Octet.Text.Numeral

/-!
# Texts that are read back as one token

What is written as a name, a numeral or a separator is taken by the lexical rules as that one piece,
whatever follows it, as long as it could not be continued.

* `Token.ReadAs` — a text that is taken as one piece in front of another;
* `Token.nameLength_word` — **a word is a name exactly if it is one of the names as a whole**;
* `Token.readAs_register`, `Token.readAs_mnemonic`, `Token.readAs_hexadecimal` and others — one
  lemma for each kind of text;
* `Text.foldlM_digits`, `Text.natOfDigits?_hex` — **a number is read back from its digits**.
-/

namespace Octet

/-! ## Numerals -/

namespace Text

/-- The digits of a number are those of its quotient by the base, and one for the remainder. -/
theorem digits_eq {base : Nat} (hbase : 1 < base) (n : Nat) :
    digits base n =
      if n < base then [(Nat.digitChar n).toUInt8]
      else digits base (n / base) ++ [(Nat.digitChar (n % base)).toUInt8] := by
  unfold digits
  rw [Nat.toDigits_eq_if hbase]
  split
  · rfl
  · rw [List.map_append, List.map_singleton]

theorem digits_ne_nil {base : Nat} (hbase : 1 < base) (n : Nat) : digits base n ≠ [] := by
  rw [digits_eq hbase]
  split <;> simp

theorem digitValue?_digitChar : ∀ d, d < 16 → digitValue? (Nat.digitChar d).toUInt8 = some d := by
  decide +kernel

theorem isHexDigit_digitChar : ∀ d, d < 16 → isHexDigit (Nat.digitChar d).toUInt8 = true := by
  decide +kernel

section

variable {base : Nat} (hbase : 1 < base) (hle : base ≤ 16)
include hle

theorem pushDigit?_digitChar {d : Nat} (hd : d < base) (n : Nat) :
    pushDigit? base n (Nat.digitChar d).toUInt8 = some (n * base + d) := by
  rw [pushDigit?, digitValue?_digitChar d (by omega)]
  exact if_pos hd

include hbase

/-- **A number is read back from its digits.** -/
theorem foldlM_digits (n : Nat) : (digits base n).foldlM (pushDigit? base) 0 = some n := by
  induction n using Nat.strongRecOn with
  | ind n ih =>
    rw [digits_eq hbase]
    split
    · rename_i hn
      simp [pushDigit?_digitChar hle hn]
    · rename_i hn
      have hquot := ih (n / base) (Nat.div_lt_self (by omega) hbase)
      have hrem : n % base < base := Nat.mod_lt n (by omega)
      rw [List.foldlM_append, hquot]
      simp [pushDigit?_digitChar hle hrem, Nat.div_add_mod']

end

/-- Zeros in front do not change a number. -/
theorem foldlM_zeros (base k : Nat) (hbase : 1 < base) (ds : Text) :
    (List.replicate k '0'.toUInt8 ++ ds).foldlM (pushDigit? base) 0 =
      ds.foldlM (pushDigit? base) 0 := by
  have hzero : pushDigit? base 0 '0'.toUInt8 = some 0 := by
    have hvalue : digitValue? '0'.toUInt8 = some 0 := by decide
    rw [pushDigit?, hvalue]
    simp
    omega
  induction k with
  | zero => rfl
  | succ k ih =>
    rw [List.replicate_succ, List.cons_append, List.foldlM_cons, hzero]
    exact ih

/-- A number is read back from its hexadecimal digits, however many zeros stand in front. -/
theorem natOfDigits?_hex (width n : Nat) : natOfDigits? 16 (hex width n) = some n := by
  have hne : hex width n ≠ [] := by simp [hex, digits_ne_nil]
  cases hds : hex width n with
  | nil => exact absurd hds hne
  | cons d ds =>
    rw [natOfDigits?, ← hds, hex, foldlM_zeros 16 _ (by omega), foldlM_digits (by omega) (by omega)]
    simp

/-- What holds of the digits below the base holds of all digits of a number. -/
theorem forall_mem_digits {base : Nat} (hbase : 1 < base) {p : UInt8 → Bool}
    (h : ∀ d, d < base → p (Nat.digitChar d).toUInt8 = true) (n : Nat) :
    ∀ b ∈ digits base n, p b = true := by
  induction n using Nat.strongRecOn with
  | ind n ih =>
    rw [digits_eq hbase]
    split
    · rename_i hn
      simpa using h n hn
    · rename_i hn
      intro b hb
      rcases List.mem_append.1 hb with hb | hb
      · exact ih (n / base) (Nat.div_lt_self (by omega) hbase) b hb
      · rw [List.mem_singleton.1 hb]
        exact h _ (Nat.mod_lt n (by omega))

end Text

namespace Token

open Text (isLineEnd)

theorem run_hex (width n : Nat) : Run Text.isHexDigit (Text.hex width n) where
  nonempty := by simp [Text.hex, Text.digits_ne_nil]
  all b hb := by
    rcases List.mem_append.1 hb with hb | hb
    · rw [List.eq_of_mem_replicate hb]
      decide
    · exact Text.forall_mem_digits (by decide) Text.isHexDigit_digitChar n b hb

/-! ## Pieces -/

/-- The text `x` in front of `rest` is taken as one piece, of a class if it is not skipped. -/
structure ReadAs (kind : Option TokenKind) (x rest : Text) : Prop where
  first : ∃ b, x.head? = some b ∧ isLineEnd b = false
  taken : firstMatch? (x ++ rest) = some ⟨kind, x.length - 1⟩

/-- A piece gives its lexeme, and what follows gives its own. -/
theorem ReadAs.lexemes {kind : Option TokenKind} {x rest : Text} (h : ReadAs kind x rest) :
    lexemes (x ++ rest) = (lexemes rest).map (lexeme ⟨kind, x.length - 1⟩ x ++ ·) := by
  obtain ⟨b, hb, hline⟩ := h.first
  have htaken := h.taken
  cases x with
  | nil => cases hb
  | cons c x =>
    cases hb
    rw [List.length_cons, Nat.add_sub_cancel] at htaken
    rw [List.cons_append] at htaken ⊢
    rw [lexemes_some hline htaken, List.drop_left, List.take_left, List.length_cons,
      Nat.add_sub_cancel]

/-- The lexeme of a class with a text. -/
def written (kind : TokenKind) (text : Text) : Token := ⟨kind, text, [], 0, 0⟩

/-- A piece of a class other than strings is its own text. -/
theorem ReadAs.lexemes_written {kind : TokenKind} {x rest : Text} (h : ReadAs (some kind) x rest)
    (hk : kind ≠ .string) :
    Token.lexemes (x ++ rest) = (Token.lexemes rest).map (written kind x :: ·) := by
  rw [h.lexemes]
  simp [lexeme, keptText, hk, written]

theorem ReadAs.lexemes_skipped {x rest : Text} (h : ReadAs none x rest) :
    Token.lexemes (x ++ rest) = Token.lexemes rest := by
  rw [h.lexemes]
  simp [lexeme]

/-- The first rule that takes anything decides. -/
theorem readAs_of_rule (before after : List Rule) {kind : Option TokenKind} {length : Text → Nat}
    {x rest : Text} (hrules : rules = before ++ ⟨kind, length⟩ :: after)
    (hfirst : ∃ b, x.head? = some b ∧ isLineEnd b = false)
    (hbefore : before.map (·.length (x ++ rest)) = before.map fun _ => 0)
    (hlength : length (x ++ rest) = x.length) :
    ReadAs kind x rest where
  first := hfirst
  taken := by
    obtain ⟨n, hn⟩ : ∃ n, x.length = n + 1 := by
      obtain ⟨b, hb, -⟩ := hfirst
      cases x with
      | nil => cases hb
      | cons c x => exact ⟨x.length, rfl⟩
    have hnone : before.findSome? (·.match? (x ++ rest)) = none := by
      rw [List.findSome?_eq_none_iff]
      intro r hr
      simp [Rule.match?, List.map_inj_left.1 hbefore r hr]
    rw [firstMatch?, hrules, List.findSome?_append, hnone, Option.none_or, List.findSome?_cons,
      Rule.match?]
    simp only [hlength, hn, Nat.add_sub_cancel]

/-! ## Words -/

/-- A word up to a boundary is the run of word bytes. -/
theorem takeWhile_word {x rest : Text} (hx : ∀ b ∈ x, isWordByte b = true)
    (hrest : atBoundary rest = true) :
    (x ++ rest).takeWhile isWordByte = x := by
  have hstop : rest.takeWhile isWordByte = [] := by
    cases rest with
    | nil => rfl
    | cons b rest =>
      have hb : isWordByte b = false := by simpa [atBoundary] using hrest
      simp [hb]
  rw [List.takeWhile_append_of_pos hx, hstop, List.append_nil]

/-- **A word is a name exactly if it is one of the names as a whole.** -/
theorem nameLength_word {names : List Text}
    (hnames : ∀ name ∈ names, ∀ b ∈ name, isWordByte b = true) {x rest : Text}
    (hx : ∀ b ∈ x, isWordByte b = true) (hrest : atBoundary rest = true) :
    nameLength names (x ++ rest) = if x ∈ names then x.length else 0 := by
  -- A name up to a boundary and the word are the same run of word bytes.
  have hwhole (name : Text) (hname : name ∈ names) :
      (name.isPrefixOf (x ++ rest) && atBoundary ((x ++ rest).drop name.length)) = true ↔
        name = x := by
    rw [Bool.and_eq_true, List.isPrefixOf_iff_prefix]
    constructor
    · rintro ⟨⟨after, hafter⟩, hboundary⟩
      rw [← hafter, List.drop_left] at hboundary
      rw [← takeWhile_word (hnames name hname) hboundary, hafter, takeWhile_word hx hrest]
    · rintro rfl
      exact ⟨List.prefix_append .., by rw [List.drop_left]; exact hrest⟩
  unfold nameLength
  split
  · rename_i name hfind
    have hmem := List.mem_of_find?_eq_some hfind
    have hfound := List.find?_some hfind
    obtain rfl := (hwhole name hmem).1 hfound
    rw [if_pos hmem]
  · rename_i hfind
    rw [if_neg]
    intro hmem
    exact absurd ((hwhole x hmem).2 rfl) (List.find?_eq_none.1 hfind x hmem)

/-- The names of registers. -/
def registerNames : List Text := Register.named.map (·.1)

/-- What the names of registers and the mnemonics have in common: they are words. -/
theorem bytes_of_name : ∀ name ∈ registerNames ++ mnemonics, (∀ b ∈ name, isWordByte b = true) ∧
    name.head?.map isLineEnd = some false ∧ ∀ b ∈ name.head?, isBlank b = false := by decide +kernel

theorem bytes_of_registerName {name : Text} (h : name ∈ registerNames) :
    (∀ b ∈ name, isWordByte b = true) ∧
    name.head?.map isLineEnd = some false ∧ ∀ b ∈ name.head?, isBlank b = false :=
  bytes_of_name name (List.mem_append_left _ h)

theorem bytes_of_mnemonic {name : Text} (h : name ∈ mnemonics) : (∀ b ∈ name, isWordByte b = true) ∧
    name.head?.map isLineEnd = some false ∧ ∀ b ∈ name.head?, isBlank b = false :=
  bytes_of_name name (List.mem_append_right _ h)

theorem isWordByte_of_registerName : ∀ name ∈ registerNames, ∀ b ∈ name, isWordByte b = true :=
  fun _ h => (bytes_of_registerName h).1

theorem isWordByte_of_mnemonic : ∀ name ∈ mnemonics, ∀ b ∈ name, isWordByte b = true :=
  fun _ h => (bytes_of_mnemonic h).1

theorem first_of_registerName :
    ∀ name ∈ registerNames, ∃ b, name.head? = some b ∧ isLineEnd b = false := by
  intro name hname
  simpa using (bytes_of_registerName hname).2.1

theorem first_of_mnemonic : ∀ name ∈ mnemonics, ∃ b, name.head? = some b ∧ isLineEnd b = false := by
  intro name hname
  simpa using (bytes_of_mnemonic hname).2.1

/-- No mnemonic names a register. -/
theorem not_registerName_of_mnemonic : ∀ name ∈ mnemonics, name ∉ registerNames := by decide +kernel

variable {x rest : Text}

theorem readAs_register (hx : x ∈ registerNames) (hrest : atBoundary rest = true) :
    ReadAs (some .register) x rest := by
  refine readAs_of_rule [] (rules.drop 1) rfl (first_of_registerName x hx) rfl ?_
  show nameLength registerNames (x ++ rest) = x.length
  rw [nameLength_word isWordByte_of_registerName (isWordByte_of_registerName x hx) hrest, if_pos hx]

theorem readAs_mnemonic (hx : x ∈ mnemonics) (hrest : atBoundary rest = true) :
    ReadAs (some .instruction) x rest := by
  have hword := isWordByte_of_mnemonic x hx
  refine readAs_of_rule (rules.take 1) (rules.drop 2) rfl (first_of_mnemonic x hx) ?_ ?_
  · show [nameLength registerNames (x ++ rest)] = [0]
    rw [nameLength_word isWordByte_of_registerName hword hrest,
      if_neg (not_registerName_of_mnemonic x hx)]
  · rw [nameLength_word isWordByte_of_mnemonic hword hrest, if_pos hx]

/-! ## Numerals and separators -/

theorem digitsLength_of_run {p : UInt8 → Bool} {ds suffix : Text} (hds : Run p ds)
    (hstop : ∀ b ∈ (suffix ++ rest).head?, p b = false) (hrest : atBoundary rest = true) :
    digitsLength p suffix (ds ++ (suffix ++ rest)) = ds.length + suffix.length := by
  have hrun : runLength p (ds ++ (suffix ++ rest)) = ds.length := by
    have hend : (suffix ++ rest).takeWhile p = [] := by
      cases h : suffix ++ rest with
      | nil => rfl
      | cons b more =>
        rw [h] at hstop
        simp [hstop b rfl]
    rw [runLength, List.takeWhile_append_of_pos hds.all, hend, List.append_nil]
  obtain ⟨n, hn⟩ : ∃ n, ds.length = n + 1 := by
    cases hds' : ds with
    | nil => exact absurd hds' hds.nonempty
    | cons d ds => exact ⟨ds.length, rfl⟩
  have hprefix : suffix.isPrefixOf (suffix ++ rest) = true :=
    List.isPrefixOf_iff_prefix.2 (List.prefix_append ..)
  unfold digitsLength
  simp only [hrun, hn]
  rw [← hn, List.drop_left, List.drop_left, hprefix, hrest]
  rfl

/-- A hexadecimal numeral, whatever its digits look like in other bases. -/
theorem readAs_hexadecimal {ds : Text} (hds : Run Text.isHexDigit ds)
    (hrest : atBoundary rest = true) :
    ReadAs (some .literal) ('#'.toUInt8 :: (ds ++ utf8 "h")) rest := by
  have hlength :
      digitsLength Text.isHexDigit (utf8 "h") (ds ++ (utf8 "h" ++ rest)) = ds.length + 1 :=
    digitsLength_of_run hds (fun b hb => by cases hb; decide) hrest
  refine readAs_of_rule (rules.take 11) (rules.drop 12) rfl ⟨_, rfl, by decide⟩ ?_ ?_
  · rw [List.cons_append, List.append_assoc]
    obtain ⟨c, z, hz⟩ : ∃ c z, ds ++ (utf8 "h" ++ rest) = c :: z :=
      List.exists_cons_of_ne_nil (by simp [hds.nonempty])
    rw [hz]
    rfl
  · rw [List.cons_append, List.append_assoc, numeralLength, if_pos (by decide), hlength]
    simp
    rfl

theorem readAs_blank (hrest : ∀ b ∈ rest.head?, isBlank b = false) :
    ReadAs none (utf8 " ") rest := by
  refine readAs_of_rule (rules.take 14) [] rfl ⟨_, rfl, by decide⟩ ?_ ?_
  · cases rest <;> rfl
  · cases rest with
    | nil => rfl
    | cons c z =>
      have hc : isBlank c = false := hrest c rfl
      show runLength isBlank (0x20 :: c :: z) = 1
      rw [runLength, List.takeWhile_cons_of_pos (by decide),
        List.takeWhile_cons_of_neg (by simp [hc])]
      rfl

theorem readAs_comma : ReadAs (some .comma) (utf8 ",") rest := by
  refine readAs_of_rule (rules.take 8) (rules.drop 9) rfl ⟨_, rfl, by decide⟩ ?_ rfl
  cases rest <;> rfl

/-! ## Lists -/

/-- A token that is read back from its text, wherever the text cannot be continued. -/
structure Plain (t : Token) : Prop where
  lexeme : t = written t.kind t.text
  kind : t.kind ≠ .string
  first : ∀ b ∈ t.text.head?, isBlank b = false
  read : ∀ rest, atBoundary rest = true → ReadAs (some t.kind) t.text rest

theorem Plain.lexemes {t : Token} (h : Plain t) (hrest : atBoundary rest = true) :
    Token.lexemes (t.text ++ rest) = (Token.lexemes rest).map (t :: ·) := by
  rw [(h.read rest hrest).lexemes_written h.kind, ← h.lexeme]

theorem plain_register (hx : x ∈ registerNames) : Plain (written .register x) where
  lexeme := rfl
  kind := by simp [written]
  first := (bytes_of_registerName hx).2.2
  read _ := readAs_register hx

theorem plain_mnemonic (hx : x ∈ mnemonics) : Plain (written .instruction x) where
  lexeme := rfl
  kind := by simp [written]
  first := (bytes_of_mnemonic hx).2.2
  read _ := readAs_mnemonic hx

/-- A text with a mark in front. -/
theorem plain_marked {kind : TokenKind} {mark : UInt8} (hk : kind ≠ .string)
    (hmark : isBlank mark = false)
    (hread : ∀ rest, atBoundary rest = true → ReadAs (some kind) (mark :: x) rest) :
    Plain (written kind (mark :: x)) where
  lexeme := rfl
  kind := hk
  first := by
    rintro b ⟨⟩
    exact hmark
  read := hread

theorem plain_hexadecimal {ds : Text} (hds : Run Text.isHexDigit ds) :
    Plain (written .literal ('#'.toUInt8 :: (ds ++ utf8 "h"))) :=
  plain_marked (by decide) (by decide) fun _ => readAs_hexadecimal hds

/-- The texts of tokens, with commas and blanks between them. -/
def listText (ts : List Token) : Text := (utf8 ", ").intercalate (ts.map Token.text)

/-- Tokens with commas between them. -/
def separated : List Token → List Token
  | [] => []
  | [t] => [t]
  | t :: u :: ts => t :: written .comma (utf8 ",") :: separated (u :: ts)

theorem listText_cons (t u : Token) (ts : List Token) :
    listText (t :: u :: ts) = t.text ++ (utf8 "," ++ (utf8 " " ++ listText (u :: ts))) := by
  simp only [listText, List.map_cons, List.intercalate_cons_cons]
  rw [List.append_assoc]
  rfl

theorem listText_first {t : Token} (ts : List Token) (ht : Plain t) :
    ∀ b ∈ (listText (t :: ts)).head?, isBlank b = false := by
  obtain ⟨c, hc, -⟩ := (ht.read [] rfl).first
  have hhead : (listText (t :: ts)).head? = t.text.head? := by
    cases ts with
    | nil => simp [listText]
    | cons u ts => rw [listText_cons, List.head?_append, hc, Option.some_or]
  rw [hhead]
  exact ht.first

/-- **The texts of tokens with commas between them are read as the tokens.** -/
theorem lexemes_listText (ts : List Token) (hts : ∀ t ∈ ts, Plain t) :
    lexemes (listText ts) = some (separated ts) := by
  induction ts with
  | nil => exact lexemes_nil
  | cons t ts ih =>
    have ht := hts t (List.mem_cons_self ..)
    have ih := ih fun u hu => hts u (.tail _ hu)
    cases ts with
    | nil =>
      have hone := ht.lexemes (show atBoundary [] = true from rfl)
      rw [List.append_nil, lexemes_nil] at hone
      simpa [listText, separated] using hone
    | cons u ts =>
      have hblank := readAs_blank (listText_first ts (hts u (by simp)))
      rw [listText_cons, ht.lexemes rfl, readAs_comma.lexemes_written (by decide),
        hblank.lexemes_skipped, ih]
      rfl

/-- A name and a list of operands. -/
theorem lexemes_operands {name : Token} {ts : List Token} (hname : Plain name)
    (hts : ∀ t ∈ ts, Plain t) (hne : ts ≠ []) :
    lexemes (name.text ++ utf8 " " ++ listText ts) = some (name :: separated ts) := by
  obtain ⟨t, more, rfl⟩ := List.exists_cons_of_ne_nil hne
  have hblank := readAs_blank (listText_first more (hts t (List.mem_cons_self ..)))
  rw [List.append_assoc, hname.lexemes rfl, hblank.lexemes_skipped, lexemes_listText _ hts]
  rfl

end Token

end Octet
