import Mathlib.Data.Nat.Digits.Defs
import Octet.Proofs.Acceptance
import Octet.Proofs.Encoding
import Octet.Proofs.Respacing

/-!
# The values of numerals

A numeral is digits of one of three bases with the letter of the base. The lexical rules find the
base by trying one after the other, and the parser finds it again by the last letter, though the
letter of binary numerals is also a hexadecimal digit. Both find the same, and the value is that of
the digits by their positions, however many there are.

* `Radix` — the bases; `Radix.Digits`, `Radix.value`: digits, and the number that they stand for by
  their positions;
* `Radix.Digits.natOfDigits?_eq` — **reading digits gives their positional value**;
* `Parser.ReadsNumber` — what a literal of a value is read as: a value of 32 bits, or one of two
  faults;
* `literals_denote_positional_value` — **a numeral is scanned as one token and read as its
  positional value**.
-/

namespace Octet

/-- The bases of numerals. -/
inductive Radix where
  | binary
  | decimal
  | hexadecimal
  deriving DecidableEq, Repr

namespace Radix

def base : Radix → Nat
  | binary => 2
  | decimal => 10
  | hexadecimal => 16

/-- The letter after the digits. -/
def mark : Radix → Text
  | binary => utf8 "b"
  | decimal => []
  | hexadecimal => utf8 "h"

/-- The place of a byte among the digits, in either case; 16 if it is no digit. -/
def digit (b : UInt8) : Nat :=
  min ((utf8 "0123456789abcdef").idxOf b) ((utf8 "0123456789ABCDEF").idxOf b)

/-- At least one digit of a base, and no other byte. -/
structure Digits (r : Radix) (ds : Text) : Prop where
  nonempty : ds ≠ []
  all : ∀ b ∈ ds, digit b < r.base

/-- The number that digits stand for: the last counts once, and each other one `base` times as much
as the next. -/
def value (r : Radix) (ds : Text) : Nat := Nat.ofDigits r.base (ds.map digit).reverse

/-- The numeral with the given digits. -/
def numeral (r : Radix) (ds : Text) : Text := '#'.toUInt8 :: (ds ++ r.mark)

/-! ## Digits -/

theorem base_le (r : Radix) : r.base ≤ 16 := by
  cases r <;> decide

/-- The place of a byte in a text is the place of its number among the numbers. -/
theorem idxOf_toNat (x : Text) (b : UInt8) : x.idxOf b = (x.map UInt8.toNat).idxOf b.toNat := by
  induction x with
  | nil => rfl
  | cons c x ih =>
    have hsame : (c == b) = (c.toNat == b.toNat) := by
      rw [Bool.eq_iff_iff, beq_iff_eq, beq_iff_eq, UInt8.toNat_inj]
    rw [List.map_cons, List.idxOf_cons, List.idxOf_cons, ih, hsame]

/-- The places of bytes are the values of digits. -/
theorem digit_eq (b : UInt8) : digit b = min ((Text.digitValue? b).getD 16) 16 := by
  have hlower : (utf8 "0123456789abcdef").map UInt8.toNat = List.range' 48 10 ++ List.range' 97 6 :=
    by decide +kernel
  have hupper : (utf8 "0123456789ABCDEF").map UInt8.toNat = List.range' 48 10 ++ List.range' 65 6 :=
    by decide +kernel
  have hcases : ∀ n, n < 256 →
      min ((List.range' 48 10 ++ List.range' 97 6).idxOf n)
        ((List.range' 48 10 ++ List.range' 65 6).idxOf n) =
        min ((Text.digitValue? (UInt8.ofNat n)).getD 16) 16 := by decide +kernel
  have hb := hcases b.toNat b.toNat_lt
  rwa [← hlower, ← hupper, ← idxOf_toNat, ← idxOf_toNat, UInt8.ofNat_toNat] at hb

theorem digit_classes (b : UInt8) :
    (Text.isHexDigit b = true ↔ digit b < 16) ∧ (Text.isDigit b = true ↔ digit b < 10) ∧
    (Token.isBinaryDigit b = true ↔ digit b < 2) := by
  rw [digit_eq]
  exact Code.forall_byte (by decide +kernel) b

theorem isHexDigit_iff (b : UInt8) : Text.isHexDigit b = true ↔ digit b < 16 := (digit_classes b).1

theorem isDigit_iff (b : UInt8) : Text.isDigit b = true ↔ digit b < 10 := (digit_classes b).2.1

theorem isBinaryDigit_iff (b : UInt8) : Token.isBinaryDigit b = true ↔ digit b < 2 :=
  (digit_classes b).2.2

theorem digit_zero : digit '0'.toUInt8 = 0 := by
  rw [digit_eq]
  rfl

theorem digitValue?_eq (b : UInt8) (h : digit b < 16) : Text.digitValue? b = some (digit b) := by
  rw [digit_eq] at h ⊢
  cases hvalue : Text.digitValue? b with
  | none => simp [hvalue] at h
  | some d =>
    rw [hvalue, Option.getD_some] at h
    rw [Option.getD_some, Nat.min_eq_left (by omega)]

theorem pushDigit?_eq {r : Radix} {b : UInt8} (hb : digit b < r.base) (n : Nat) :
    Text.pushDigit? r.base n b = some (n * r.base + digit b) := by
  have hle := r.base_le
  rw [Text.pushDigit?, digitValue?_eq b (by omega)]
  exact if_pos hb

/-- Reading more digits moves what was read up by their number, and adds their value. -/
theorem foldlM_pushDigit {r : Radix} {ds : Text} (hds : ∀ b ∈ ds, digit b < r.base) (n : Nat) :
    ds.foldlM (Text.pushDigit? r.base) n = some (n * r.base ^ ds.length + r.value ds) := by
  induction ds generalizing n with
  | nil => simp [value]
  | cons b ds ih =>
    obtain ⟨hb, hds⟩ := List.forall_mem_cons.1 hds
    have hvalue : r.value (b :: ds) = r.value ds + r.base ^ ds.length * digit b := by
      simp only [value, List.map_cons, List.reverse_cons, Nat.ofDigits_append,
        Nat.ofDigits_singleton, List.length_reverse, List.length_map]
    rw [List.foldlM_cons, pushDigit?_eq hb]
    show ds.foldlM _ _ = _
    rw [ih hds, hvalue, List.length_cons, Nat.pow_succ]
    congr 1
    ring

/-- **Reading digits gives their positional value.** -/
theorem Digits.natOfDigits?_eq {r : Radix} {ds : Text} (h : r.Digits ds) :
    Text.natOfDigits? r.base ds = some (r.value ds) := by
  have hread := foldlM_pushDigit h.all 0
  cases ds with
  | nil => exact absurd rfl h.nonempty
  | cons b ds => simpa [Text.natOfDigits?] using hread

/-- A zero in front adds nothing. -/
theorem value_zeros (r : Radix) (k : Nat) (ds : Text) :
    r.value (List.replicate k '0'.toUInt8 ++ ds) = r.value ds := by
  rw [value, value, List.map_append, List.map_replicate, digit_zero, List.reverse_append,
    List.reverse_replicate, Nat.ofDigits_append_replicate_zero]

theorem Digits.zeros {r : Radix} {ds : Text} (h : r.Digits ds) (k : Nat) :
    r.Digits (List.replicate k '0'.toUInt8 ++ ds) where
  nonempty := by simp [h.nonempty]
  all := by
    have hzero : digit '0'.toUInt8 < r.base := by
      rw [digit_zero]
      cases r <;> decide
    refine List.forall_mem_append.2 ⟨?_, h.all⟩
    intro b hb
    rw [List.eq_of_mem_replicate hb]
    exact hzero

/-- One more digit makes the others count `base` times as much. -/
theorem value_concat (r : Radix) (ds : Text) (b : UInt8) :
    r.value (ds ++ [b]) = r.base * r.value ds + digit b := by
  simp only [value, List.map_append, List.map_singleton, List.reverse_append,
    List.reverse_singleton, List.singleton_append, Nat.ofDigits_cons]
  exact Nat.add_comm ..

/-! ## Numerals as tokens -/

open Token (Numeral Run)

theorem digits_iff {r : Radix} {p : UInt8 → Bool} (hp : ∀ b, p b = true ↔ digit b < r.base)
    {ds : Text} :
    r.Digits ds ↔ Run p ds :=
  ⟨fun h => ⟨h.nonempty, fun b hb => (hp b).2 (h.all b hb)⟩,
    fun h => ⟨h.nonempty, fun b hb => (hp b).1 (h.all b hb)⟩⟩

/-- The numerals of the lexical rules are the digits of the three bases, each with the letter of its
base. -/
theorem numeral_iff {x : Text} : Numeral x ↔ ∃ r ds, Digits r ds ∧ x = ds ++ r.mark := by
  constructor
  · intro h
    cases h with
    | hexadecimal h => exact ⟨.hexadecimal, _, (digits_iff isHexDigit_iff).2 h, rfl⟩
    | binary h => exact ⟨.binary, _, (digits_iff isBinaryDigit_iff).2 h, rfl⟩
    | decimal h => exact ⟨.decimal, _, (digits_iff isDigit_iff).2 h, (List.append_nil _).symm⟩
  · rintro ⟨r, ds, h, rfl⟩
    cases r with
    | hexadecimal => exact .hexadecimal ((digits_iff isHexDigit_iff).1 h)
    | binary => exact .binary ((digits_iff isBinaryDigit_iff).1 h)
    | decimal =>
      rw [mark, List.append_nil]
      exact .decimal ((digits_iff isDigit_iff).1 h)

variable {r : Radix} {ds : Text}

theorem Digits.taken (h : r.Digits ds) {rest : Text} (hrest : Token.atBoundary rest = true) :
    Token.Taken (some .literal) (r.numeral ds) rest :=
  (Token.readAs_numeral (numeral_iff.2 ⟨r, ds, h, rfl⟩) hrest).toTaken

theorem Digits.lineFeeds (h : r.Digits ds) : Text.lineFeeds (r.numeral ds) = 0 := by
  have hword := Numeral.all (numeral_iff.2 ⟨r, ds, h, rfl⟩)
  exact (List.count_cons_of_ne (by decide)).trans (Token.lineFeeds_identifier hword)

/-- **A numeral in front of a boundary is scanned as one token.** -/
theorem Digits.scanFrom_eq (h : r.Digits ds) {rest : Text} (hrest : Token.atBoundary rest = true)
    (file source : Text) (offset line : Nat) (found : Array Token) :
    Token.scanFrom file source offset line found (r.numeral ds ++ rest) =
      Token.scanFrom file source (offset + (r.numeral ds).length) line
        (found.push ⟨.literal, r.numeral ds, file, offset, line⟩) rest := by
  rw [Token.scanFrom_taken (h.taken hrest), h.lineFeeds]
  rfl

/-- **A scanned literal is a formula in parentheses or a numeral.** -/
theorem of_scan {file source : Text} {ts : List Token} (h : Token.scan file source = .ok ts)
    {t : Token} (ht : t ∈ ts) (hk : t.kind = .literal) :
    utf8 "#(" <+: t.text ∨ ∃ r ds, Digits r ds ∧ t.text = r.numeral ds := by
  obtain ⟨_, _, hend⟩ := Token.scan_eq_ok.1 h
  obtain ⟨_, _, _, kind, x, rest, -, htaken, rfl⟩ := hend.origin ht
  cases hk
  cases htaken.form with
  | numeral hx =>
    obtain ⟨r, ds, hds, rfl⟩ := numeral_iff.1 hx
    exact .inr ⟨r, ds, hds, rfl⟩
  | @formula body => exact .inl ⟨body ++ [')'.toUInt8], rfl⟩

/-- The parser finds the base and the digits again. -/
theorem Digits.literalDigits (h : r.Digits ds) :
    Parser.literalDigits (ds ++ r.mark) = (r.base, ds) := by
  cases r with
  | hexadecimal => exact Derivation.literalDigits_hexadecimal ds
  | binary => exact Derivation.literalDigits_binary ds
  | decimal =>
    have hrun := (digits_iff isDigit_iff).1 h
    rw [mark, List.append_nil]
    exact Derivation.literalDigits_decimal (hrun.not_mem (by decide)) (hrun.not_mem (by decide))

theorem Digits.not_open (h : r.Digits ds) : (ds ++ r.mark).head? ≠ some '('.toUInt8 := by
  apply Derivation.head?_ne_open _ h.nonempty
  intro hmem
  have hlt := h.all _ hmem
  have hle := r.base_le
  have hno : digit '('.toUInt8 = 16 := by
    rw [digit_eq]
    rfl
  omega

end Radix

/-! ## Numerals as arguments -/

namespace Parser

/-- What a literal with the value `n` is read as. A value of more than 32 bits is a fault of the
parser about a range, which gives the value if it has 64 bits, and the text of the token if not. -/
inductive ReadsNumber (p : Parser) (t : Token) (n : Nat) : Except Fault Arg → Prop
  | value {v : UInt32} (h : v.toNat = n) : ReadsNumber p t n (.ok (.literal v t))
  | wide (hlow : 2 ^ 32 ≤ n) (hhigh : n < 2 ^ 64) :
    ReadsNumber p t n
      (.error (.located t.file t.offset t.line (Source.lineAt p.source t.offset.toNat)
      (.all [.cause .parse, .cause .range, .literalRange n (2 ^ 32 - 1)])))
  | unread (h : 2 ^ 64 ≤ n) :
    ReadsNumber p t n
      (.error (.located t.file t.offset t.line (Source.lineAt p.source t.offset.toNat)
      (.all [.cause .parse, .cause .range, .number t.text])))

variable {p : Parser} {t : Token}

/-- **A numeral is read as its positional value.** -/
theorem readsNumber_readArg (slots : Option Slots) (hk : t.kind = .literal) {r : Radix} {ds : Text}
    (h : r.Digits ds) (ht : t.text = r.numeral ds) :
    ReadsNumber p t (r.value ds) (p.readArg slots t) := by
  have htext : t.text.drop 1 = ds ++ r.mark := by rw [ht]; rfl
  have hunsigned : Word.unsignedLimit = 2 ^ 64 := rfl
  have hlargest : Formula.largest = 2 ^ 32 - 1 := rfl
  simp only [readArg, hk, readLiteral, htext, if_neg h.not_open, h.literalDigits, h.natOfDigits?_eq]
  by_cases hunread : Word.unsignedLimit ≤ r.value ds
  · rw [if_pos hunread]
    exact .unread (by omega)
  · rw [if_neg hunread]
    by_cases hwide : Formula.largest < r.value ds
    · rw [if_pos hwide]
      exact .wide (by omega) (by omega)
    · rw [if_neg hwide]
      refine .value ?_
      rw [Nat.toUInt32, UInt32.toNat_ofNat', Nat.mod_eq_of_lt]
      omega

/-- One round of the loop over a source. -/
theorem readNodes_cons (hk : t.kind ≠ .newline) (found : Array Node) (rest : List Token) :
    p.readNodes found (t :: rest) =
      p.readNode t rest >>= fun r => p.readNodes (found.push r.1) r.2 := by
  rw [readNodes, if_neg hk]
  split <;> simp only [*] <;> rfl

/-- The only argument of a call is read as it stands alone. -/
theorem readNodes_call {name : Token} {form : CallForm} (hname : name.kind = Grammar.nameKind form)
    (hk : t.kind = .literal) :
    p.readNodes #[] [name, t] =
      (p.readArg none t).map fun a => [.item (.stmt (.call ⟨form, name.text, [a], name⟩))] := by
  have hargs : p.readArgs none [t] = (p.readArg none t).map fun a => ([a], []) := by
    have hline : p.lineEnds [t] = false := by simp [lineEnds, next, hk, TokenKind.endsLine]
    rw [readArgs, hline, readArgList]
    cases p.readArg none t <;> rfl
  have hnode : p.readNode name [t] =
      (p.readArg none t).map fun a => (.item (.stmt (.call ⟨form, name.text, [a], name⟩)), []) := by
    cases form <;> simp only [readNode, hname, Grammar.nameKind, readStmt, hargs] <;>
      cases p.readArg none t <;> rfl
  have hnewline : name.kind ≠ .newline := by cases form <;> simp [hname, Grammar.nameKind]
  rw [readNodes_cons hnewline, hnode]
  cases p.readArg none t with
  | error f => rfl
  | ok a => exact readNodes.eq_def ..

end Parser

/-- A name, a space and a numeral are scanned as two tokens. -/
theorem Radix.Digits.scan_after {r : Radix} {ds : Text} (h : r.Digits ds) {name : Text}
    (hname : Token.IsWord name) (file : Text) :
    Token.scan file (name ++ (utf8 " " ++ r.numeral ds)) =
      .ok [⟨Token.identifierKind name, name, file, 0, 1⟩,
        ⟨.literal, r.numeral ds, file, name.length + 1, 1⟩] := by
  have hstart : Token.Scanning file (name ++ (utf8 " " ++ r.numeral ds)) 0 1 [] _ := .start
  have hspace : ∀ b ∈ (r.numeral ds).head?, Token.isBlank b = false := by
    rintro b ⟨⟩
    decide
  have hrest : Token.atBoundary (utf8 " " ++ r.numeral ds) = true := by
    refine Token.atBoundary_of_head ?_
    rintro b ⟨⟩
    decide
  have hnumeral : Token.Taken (some .literal) (r.numeral ds) [] := h.taken rfl
  have hblank :=
    (hstart.step (Token.taken_identifier hname hrest)).step (Token.readAs_blank hspace).toTaken
  have hkept : Token.keptText (Token.identifierKind name) name = name := by
    simp [Token.keptText, Token.identifierKind_ne_string]
  have hliteral : Token.keptText .literal (r.numeral ds) = r.numeral ds := rfl
  have hone : (utf8 " ").length = 1 ∧ Text.lineFeeds (utf8 " ") = 0 := by decide +kernel
  rw [← List.append_nil (r.numeral ds)] at hblank
  have hscan := (hblank.step hnumeral).scan_ok
  rw [List.append_nil] at hscan
  rw [hscan]
  simp [Token.tokensOf, hkept, Token.lineFeeds_identifier hname.all, hliteral, hone]

open Octet.Parser (ReadsNumber)

/-- **Numerals denote their positional value.** Digits of a base with its letter, in front of a
boundary, are scanned as one token; that token is read as the value of the digits, whatever zeros
stand in front, or as the fault of its size; and so is a whole source that calls a name with it.
Before the letter of hexadecimal numerals, `b` is a digit. Every literal that is no formula is such
a numeral. -/
theorem literals_denote_positional_value :
    (∀ (r : Radix) (ds : Text), r.Digits ds →
      (∀ (rest file source : Text) (offset line : Nat) (found : Array Token),
        (∀ b ∈ rest.head?, Token.isWordByte b = false) →
          Token.scanFrom file source offset line found (r.numeral ds ++ rest) =
            Token.scanFrom file source (offset + (r.numeral ds).length) line
              (found.push ⟨.literal, r.numeral ds, file, offset, line⟩) rest) ∧
      ∀ k : Nat,
        (∀ (p : Parser) (slots : Option Slots) (t : Token), t.kind = .literal →
          t.text = r.numeral (List.replicate k '0'.toUInt8 ++ ds) →
            ReadsNumber p t (r.value ds) (p.readArg slots t)) ∧
        ∀ (file name source : Text) (form : CallForm) (formulas : Formulas), Token.IsWord name →
          Token.identifierKind name = Grammar.nameKind form →
          source = name ++ (utf8 " " ++ r.numeral (List.replicate k '0'.toUInt8 ++ ds)) →
            ∃ outcome, Node.ofSource file source formulas =
                outcome.map (fun a => [.item (.stmt (.call ⟨form, name, [a],
                  ⟨Grammar.nameKind form, name, file, 0, 1⟩⟩))]) ∧
              ReadsNumber (.ofSource file source formulas)
                ⟨.literal, r.numeral (List.replicate k '0'.toUInt8 ++ ds), file, name.length + 1, 1⟩
                  (r.value ds)
                outcome) ∧
    (∀ ds : Text, (∀ b ∈ ds, Radix.digit b < 16) →
      ∀ (p : Parser) (slots : Option Slots) (t : Token),
      t.kind = .literal → t.text = utf8 "#" ++ ds ++ utf8 "bh" →
        ReadsNumber p t (16 * Radix.value .hexadecimal ds + 11) (p.readArg slots t)) ∧
    ∀ (file source : Text) (ts : List Token), Token.scan file source = .ok ts →
      ∀ t ∈ ts, t.kind = .literal →
      ¬ utf8 "#(" <+: t.text → ∃ (r : Radix) (ds : Text), r.Digits ds ∧ t.text = r.numeral ds := by
  refine ⟨?_, ?_, ?_⟩
  · intro r ds h
    refine ⟨?_, ?_⟩
    · intro rest file source offset line found hrest
      exact h.scanFrom_eq (Token.atBoundary_of_head hrest) file source offset line found
    · intro k
      have hzeros := h.zeros k
      refine ⟨?_, ?_⟩
      · intro p slots t hk ht
        rw [← r.value_zeros k]
        exact Parser.readsNumber_readArg slots hk hzeros ht
      · rintro file name source form formulas hname hkind rfl
        have hscan := hzeros.scan_after hname file
        rw [hkind] at hscan
        rw [Node.ofSource, hscan, ← r.value_zeros k]
        exact ⟨_, Parser.readNodes_call rfl rfl, Parser.readsNumber_readArg none rfl hzeros rfl⟩
  · intro ds h p slots t hk ht
    have hb : Radix.digit 'b'.toUInt8 = 11 := by
      rw [Radix.digit_eq]
      rfl
    have hds : Radix.hexadecimal.Digits (ds ++ ['b'.toUInt8]) := by
      refine ⟨by simp, List.forall_mem_append.2 ⟨h, ?_⟩⟩
      simp [hb, Radix.base]
    have htext : t.text = Radix.hexadecimal.numeral (ds ++ ['b'.toUInt8]) := by
      rw [ht, Radix.numeral, List.append_assoc, List.append_assoc]
      rfl
    have hvalue :
        16 * Radix.value .hexadecimal ds + 11 = Radix.value .hexadecimal (ds ++ ['b'.toUInt8]) := by
      rw [Radix.value_concat, hb]
      rfl
    rw [hvalue]
    exact Parser.readsNumber_readArg slots hk hds htext
  · intro file source ts h t ht hk hopen
    exact (Radix.of_scan h ht hk).resolve_left hopen

theorem literals_denote_positional_value_mixed_case :
    (Radix.hexadecimal.Digits (utf8 "1b2B") ∧ Radix.hexadecimal.value (utf8 "1b2B") = 0x1b2b ∧
      ∃ outcome, Node.ofSource [] (utf8 "lda #001b2Bh") .valueless =
          outcome.map (fun a => [.item (.stmt (.call ⟨.mnemonic, utf8 "lda", [a],
            ⟨.instruction, utf8 "lda", [], 0, 1⟩⟩))]) ∧
        ReadsNumber (.ofSource [] (utf8 "lda #001b2Bh") .valueless)
          ⟨.literal, utf8 "#001b2Bh", [], 4, 1⟩
          (Radix.hexadecimal.value (utf8 "1b2B")) outcome) ∧
    (∀ p : Parser, ReadsNumber p ⟨.literal, utf8 "#fffffffbh", [], 0, 1⟩
      (16 * Radix.value .hexadecimal (utf8 "fffffff") + 11)
        (p.readArg none ⟨.literal, utf8 "#fffffffbh", [], 0, 1⟩)) ∧
    ∃ ts, Token.scan [] (utf8 "#(1) #10b") = .ok ts ∧ ⟨.literal, utf8 "#10b", [], 5, 1⟩ ∈ ts ∧
      ∃ (r : Radix) (ds : Text), r.Digits ds ∧ utf8 "#10b" = r.numeral ds := by
  obtain ⟨hread, hletter, hscanned⟩ := literals_denote_positional_value
  have hdigits : Radix.hexadecimal.Digits (utf8 "1b2B") := ⟨by decide +kernel, by decide +kernel⟩
  refine ⟨⟨hdigits, by decide +kernel, ?_⟩, ?_, ?_⟩
  · have hword : Token.IsWord (utf8 "lda") := .intro (by decide) (by decide +kernel)
    exact ((hread _ _ hdigits).2 2).2 [] (utf8 "lda") _ .mnemonic .valueless hword
      (by decide +kernel) (by decide +kernel)
  · exact fun p => hletter (utf8 "fffffff") (by decide +kernel) p none _ rfl (by decide +kernel)
  · have hscan : Token.scan [] (utf8 "#(1) #10b") =
        .ok [⟨.literal, utf8 "#(1)", [], 0, 1⟩, ⟨.literal, utf8 "#10b", [], 5, 1⟩] :=
      Except.toOption_eq_some.1 (by decide +kernel)
    exact ⟨_, hscan, by simp,
      hscanned [] _ _ hscan _ (List.mem_cons_of_mem _ (List.mem_singleton.2 rfl)) rfl
      (by decide +kernel)⟩

end Octet
