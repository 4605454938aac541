import Mathlib.Data.List.TakeWhile
import Octet.Proofs.LineRules
import Octet.Statement.Parse

/-!
# How tokens are spelt

A class of tokens fixes the form of their texts: what a rule takes of the input is a text of its
class. So whoever reads the tokens of a source need not check their texts again.

* `Token.Spelt` — the texts of a class;
* `Token.Takes` — a rule takes only texts of a form, with one lemma for each rule;
* `Token.scan_spelt` — **every scanned token is spelt as its class says**;
* `Token.Run.paramNumber?_eq_some` — digits are read without a sign.
-/

namespace Octet.Token

open Text (isLineEnd)

/-- At least one byte, all of a class. -/
structure Run (p : UInt8 → Bool) (text : Text) : Prop where
  nonempty : text ≠ []
  all : ∀ b ∈ text, p b = true

theorem Run.not_mem {p : UInt8 → Bool} {text : Text} (h : Run p text) {b : UInt8}
    (hb : p b = false) : b ∉ text := by
  intro hmem
  rw [h.all b hmem] at hb
  cases hb

/-- Letters, digits and underscores, not starting with a digit. -/
inductive IsWord : Text → Prop
  | intro {b : UInt8} {rest : Text} (hb : isWordStart b = true)
    (hrest : ∀ c ∈ rest, isWordByte c = true) :
    IsWord (b :: rest)

/-- A number in one of three bases, or a formula in parentheses. -/
inductive IsLiteral : Text → Prop
  | hexadecimal {ds : Text} (h : Run Text.isHexDigit ds) :
    IsLiteral ('#'.toUInt8 :: (ds ++ utf8 "h"))
  | binary {ds : Text} (h : Run isBinaryDigit ds) : IsLiteral ('#'.toUInt8 :: (ds ++ utf8 "b"))
  | decimal {ds : Text} (h : Run Text.isDigit ds) : IsLiteral ('#'.toUInt8 :: ds)
  | formula {body : Text} : IsLiteral ('#'.toUInt8 :: '('.toUInt8 :: (body ++ utf8 ")"))

/-- The texts of a class. -/
inductive Spelt : TokenKind → Text → Prop
  | register {text : Text} (h : text ∈ Register.named.map (·.1)) : Spelt .register text
  | instruction {text : Text} (h : text ∈ mnemonics) : Spelt .instruction text
  | word {text : Text} (h : IsWord text) : Spelt .word text
  | directive {word : Text} (h : IsWord word) : Spelt .directive ('@'.toUInt8 :: word)
  | label {word : Text} (h : IsWord word) : Spelt .label ('$'.toUInt8 :: word)
  | registerParam {ds : Text} (h : Run Text.isDigit ds) :
    Spelt .registerParam ('%'.toUInt8 :: 'r'.toUInt8 :: ds)
  | literalParam {ds : Text} (h : Run Text.isDigit ds) :
    Spelt .literalParam ('%'.toUInt8 :: 'l'.toUInt8 :: ds)
  | string {body : Text} (h : ∀ c ∈ body, c ≠ quoteMark ∧ isLineEnd c = false) : Spelt .string body
  | comma : Spelt .comma [','.toUInt8]
  | colon : Spelt .colon [':'.toUInt8]
  | newline {text : Text} (h : Run isLineEnd text) : Spelt .newline text
  | literal {text : Text} (h : IsLiteral text) : Spelt .literal text

section Spelt

variable {text : Text}

theorem Spelt.of_register (h : Spelt .register text) : text ∈ Register.named.map (·.1) := by
  cases h
  assumption

theorem Spelt.of_label (h : Spelt .label text) :
    ∃ word, text = '$'.toUInt8 :: word ∧ IsWord word := by
  cases h
  exact ⟨_, rfl, ‹_›⟩

theorem Spelt.of_registerParam (h : Spelt .registerParam text) :
    ∃ ds, text = '%'.toUInt8 :: 'r'.toUInt8 :: ds ∧ Run Text.isDigit ds := by
  cases h
  exact ⟨_, rfl, ‹_›⟩

theorem Spelt.of_literalParam (h : Spelt .literalParam text) :
    ∃ ds, text = '%'.toUInt8 :: 'l'.toUInt8 :: ds ∧ Run Text.isDigit ds := by
  cases h
  exact ⟨_, rfl, ‹_›⟩

theorem Spelt.of_literal (h : Spelt .literal text) : IsLiteral text := by
  cases h
  assumption

end Spelt

/-! ## What the rules take -/

/-- What the rule takes, if it takes anything, is of a form. -/
def Takes (length : Text → Nat) (form : Text → Prop) : Prop :=
  ∀ x, length x ≠ 0 → form (x.take (length x))

/-- A run of a class is what stands before the first byte outside of it. -/
theorem take_runLength (p : UInt8 → Bool) (x : Text) : x.take (runLength p x) = x.takeWhile p :=
  List.prefix_iff_eq_take.1 (List.takeWhile_prefix p) |>.symm

theorem run_of_runLength {p : UInt8 → Bool} {x : Text} (h : runLength p x ≠ 0) :
    Run p (x.takeWhile p) where
  nonempty := fun he => h (by rw [runLength, he]; rfl)
  all _ hb := List.mem_takeWhile_imp hb

theorem takes_run (p : UInt8 → Bool) : Takes (runLength p) (Run p) := by
  intro x hx
  rw [take_runLength]
  exact run_of_runLength hx

theorem takes_name (names : List Text) : Takes (nameLength names) (· ∈ names) := by
  intro x hx
  unfold nameLength at hx ⊢
  split at hx
  · rename_i name hfind
    have h := List.find?_some hfind
    rw [Bool.and_eq_true, List.isPrefixOf_iff_prefix] at h
    simp only [← List.prefix_iff_eq_take.1 h.1]
    exact List.mem_of_find?_eq_some hfind
  · exact absurd rfl hx

theorem takes_word : Takes wordLength IsWord := by
  intro x hx
  cases x with
  | nil => exact absurd rfl hx
  | cons b rest =>
    rw [wordLength] at hx ⊢
    split at hx
    · rename_i hb
      rw [if_pos hb, List.take_succ_cons, ← runLength, take_runLength]
      exact .intro hb fun _ hc => List.mem_takeWhile_imp hc
    · exact absurd rfl hx

theorem takes_markedWord (mark : Char) :
    Takes (markedWordLength mark) fun text => ∃ word, text = mark.toUInt8 :: word ∧
      IsWord word := by
  intro x hx
  cases x with
  | nil => exact absurd rfl hx
  | cons b rest =>
    rw [markedWordLength] at hx ⊢
    split at hx
    · rename_i hb
      rw [if_pos hb]
      split at hx
      · exact absurd rfl hx
      · rename_i n hn
        have hword := takes_word rest (by omega)
        rw [hn] at hword
        exact ⟨_, by rw [List.take_succ_cons, beq_iff_eq.1 hb], hword⟩
    · exact absurd rfl hx

theorem takes_param (letter : Char) :
    Takes (paramLength letter) fun text =>
      ∃ ds, text = '%'.toUInt8 :: letter.toUInt8 :: ds ∧ Run Text.isDigit ds := by
  intro x hx
  match x with
  | [] => exact absurd rfl hx
  | [_] => exact absurd rfl hx
  | b :: c :: rest =>
    rw [paramLength] at hx ⊢
    split at hx
    · rename_i hbc
      rw [if_pos hbc]
      split at hx
      · exact absurd rfl hx
      · rename_i n hn
        have hrun := takes_run Text.isDigit rest (by rw [runLength]; omega)
        rw [runLength, hn] at hrun
        rw [Bool.and_eq_true, beq_iff_eq, beq_iff_eq] at hbc
        exact ⟨_, by rw [List.take_succ_cons, List.take_succ_cons, hbc.1, hbc.2], hrun⟩
    · exact absurd rfl hx

theorem takes_string :
    Takes stringLength fun text =>
      ∃ body, text = quoteMark :: (body ++ [quoteMark]) ∧ ∀ c ∈ body, c ≠ quoteMark ∧
        isLineEnd c = false := by
  intro x hx
  cases x with
  | nil => exact absurd rfl hx
  | cons b rest =>
    simp only [stringLength] at hx ⊢
    split at hx
    · rename_i hb
      rw [if_pos hb]
      split at hx
      · rename_i c more hdrop
        split at hx
        · rename_i hc
          refine ⟨rest.takeWhile fun c => c != quoteMark && !isLineEnd c, ?_, ?_⟩
          · have hbody := take_runLength (fun c => c != quoteMark && !isLineEnd c) rest
            unfold runLength at hbody
            rw [if_pos hc, List.take_succ_cons, List.take_add, hbody, hdrop, List.take_succ_cons,
              List.take_zero, beq_iff_eq.1 hb, beq_iff_eq.1 hc]
          · intro c hmem
            simpa using List.mem_takeWhile_imp hmem
        · exact absurd rfl hx
      · exact absurd rfl hx
    · exact absurd rfl hx

theorem takes_byte (mark : Char) : Takes (byteLength mark) (· = [mark.toUInt8]) := by
  intro x hx
  cases x with
  | nil => exact absurd rfl hx
  | cons b rest =>
    rw [byteLength] at hx ⊢
    split at hx
    · rename_i hb
      rw [if_pos hb, List.take_succ_cons, List.take_zero, beq_iff_eq.1 hb]
    · exact absurd rfl hx

/-- Digits of a class with the letter that marks it. -/
theorem takes_digits (p : UInt8 → Bool) (suffix : Text) :
    Takes (digitsLength p suffix) fun text => ∃ ds, text = ds ++ suffix ∧ Run p ds := by
  intro x hx
  simp only [digitsLength] at hx ⊢
  split at hx
  · exact absurd rfl hx
  · rename_i n hn
    split at hx
    · rename_i hsuffix
      have hrun := takes_run p x (by omega)
      rw [hn] at hrun
      have hprefix := (Bool.and_eq_true _ _ ▸ hsuffix).1
      rw [List.isPrefixOf_iff_prefix, List.prefix_iff_eq_take] at hprefix
      refine ⟨_, ?_, hrun⟩
      rw [if_pos hsuffix, List.take_add, ← hprefix]
    · exact absurd rfl hx

theorem takes_numeral : Takes numeralLength IsLiteral := by
  intro x hx
  cases x with
  | nil => exact absurd rfl hx
  | cons b rest =>
    rw [numeralLength] at hx ⊢
    split at hx
    · rename_i hb
      rw [if_pos hb]
      split at hx
      · rename_i n hn
        obtain ⟨ds, htake, hds⟩ :=
          takes_digits _ _ rest (by omega : digitsLength Text.isHexDigit (utf8 "h") rest ≠ 0)
        rw [hn] at htake
        rw [List.take_succ_cons, htake, beq_iff_eq.1 hb]
        exact .hexadecimal hds
      · split at hx
        · rename_i n hn
          obtain ⟨ds, htake, hds⟩ :=
            takes_digits _ _ rest (by omega : digitsLength isBinaryDigit (utf8 "b") rest ≠ 0)
          rw [hn] at htake
          simp only [List.take_succ_cons, htake, beq_iff_eq.1 hb]
          exact .binary hds
        · split at hx
          · rename_i n hn
            obtain ⟨ds, htake, hds⟩ :=
              takes_digits _ _ rest (by omega : digitsLength Text.isDigit [] rest ≠ 0)
            rw [hn, List.append_nil] at htake
            simp only [List.take_succ_cons, htake, beq_iff_eq.1 hb]
            exact .decimal hds
          · exact absurd rfl hx
    · exact absurd rfl hx

theorem take_sub_cons {taken n : Nat} {b : UInt8} {rest body : Text} (hlt : taken + 1 < n)
    (h : rest.take (n - (taken + 1)) = body) : (b :: rest).take (n - taken) = b :: body := by
  rw [show n - taken = n - (taken + 1) + 1 by omega, List.take_succ_cons, h]

/-- What is taken through the closing parenthesis ends with it. -/
theorem take_closing? {taken depth n : Nat} {x : Text} (h : closing? taken depth x = some n) :
    ∃ body, taken < n ∧ x.take (n - taken) = body ++ utf8 ")" := by
  fun_induction closing? taken depth x with
  | case1 => cases h
  | case2 taken depth b rest _ ih =>
    obtain ⟨body, hlt, htake⟩ := ih h
    exact ⟨b :: body, by omega, take_sub_cons hlt htake⟩
  | case3 taken depth b rest _ hb =>
    cases h
    refine ⟨[], by omega, ?_⟩
    rw [Nat.add_sub_cancel_left, List.take_succ_cons, List.take_zero, beq_iff_eq.1 hb]
    rfl
  | case4 taken depth b rest _ _ _ ih =>
    obtain ⟨body, hlt, htake⟩ := ih h
    exact ⟨b :: body, by omega, take_sub_cons hlt htake⟩
  | case5 => cases h
  | case6 taken depth b rest _ _ _ ih =>
    obtain ⟨body, hlt, htake⟩ := ih h
    exact ⟨b :: body, by omega, take_sub_cons hlt htake⟩

theorem takes_formula : Takes formulaLength IsLiteral := by
  intro x hx
  match x with
  | [] => exact absurd rfl hx
  | [_] => exact absurd rfl hx
  | b :: c :: rest =>
    rw [formulaLength] at hx ⊢
    split at hx
    · rename_i hbc
      rw [if_pos hbc]
      cases hclose : closing? 2 1 rest with
      | none =>
        rw [hclose] at hx
        exact absurd rfl hx
      | some n =>
        obtain ⟨body, hlt, htake⟩ := take_closing? hclose
        rw [Bool.and_eq_true, beq_iff_eq, beq_iff_eq] at hbc
        rw [Option.getD_some, show n = n - 2 + 1 + 1 by omega, List.take_succ_cons,
          List.take_succ_cons, htake, hbc.1, hbc.2]
        exact .formula
    · exact absurd rfl hx

/-! ## Scanned tokens -/

/-- What a rule for a class takes is spelt as the class says. -/
theorem takes_of_mem {r : Rule} (h : r ∈ rules) {kind : TokenKind} (hk : r.kind = some kind) :
    Takes r.length fun bytes => Spelt kind (keptText kind bytes) := by
  simp only [rules, List.mem_cons, List.not_mem_nil, or_false] at h
  intro x hx
  rcases h with rfl | rfl | rfl | rfl | rfl | rfl | rfl | rfl | rfl | rfl | rfl | rfl | rfl | rfl |
    rfl
  all_goals cases hk
  · exact .register (takes_name _ x hx)
  · exact .instruction (takes_name _ x hx)
  · exact .word (takes_word x hx)
  · obtain ⟨word, htake, hword⟩ := takes_markedWord '@' x hx
    rw [keptText, if_neg (by decide), htake]
    exact .directive hword
  · obtain ⟨word, htake, hword⟩ := takes_markedWord '$' x hx
    rw [keptText, if_neg (by decide), htake]
    exact .label hword
  · obtain ⟨ds, htake, hds⟩ := takes_param 'r' x hx
    rw [keptText, if_neg (by decide), htake]
    exact .registerParam hds
  · obtain ⟨ds, htake, hds⟩ := takes_param 'l' x hx
    rw [keptText, if_neg (by decide), htake]
    exact .literalParam hds
  · obtain ⟨body, htake, hbody⟩ := takes_string x hx
    rw [keptText, if_pos rfl, htake, List.drop_succ_cons, List.drop_zero, List.dropLast_concat]
    exact .string hbody
  · rw [keptText, if_neg (by decide), takes_byte ',' x hx]
    exact .comma
  · rw [keptText, if_neg (by decide), takes_byte ':' x hx]
    exact .colon
  · exact .newline (takes_run _ x hx)
  · exact .literal (takes_numeral x hx)
  · exact .literal (takes_formula x hx)

theorem firstMatch?_spelt {b : UInt8} {rest : Text} {m : Match} {kind : TokenKind}
    (h : firstMatch? (b :: rest) = some m) (hk : m.kind = some kind) :
    Spelt kind (keptText kind (b :: rest.take m.more)) := by
  obtain ⟨r, hr, hm⟩ := List.exists_of_findSome?_eq_some h
  unfold Rule.match? at hm
  split at hm
  · cases hm
  · rename_i n hn
    cases hm
    have hspelt := takes_of_mem hr hk (b :: rest) (by omega)
    rw [hn] at hspelt
    exact hspelt

theorem scanFrom_spelt {file source input : Text} {offset line : Nat} {found : Array Token}
    {ts : List Token} (h : scanFrom file source offset line found input = .ok ts)
    (hfound : ∀ t ∈ found, Spelt t.kind t.text) :
    ∀ t ∈ ts, Spelt t.kind t.text := by
  fun_induction scanFrom file source offset line found input with
  | case1 =>
    cases h
    simpa using hfound
  | case2 => cases h
  | case3 offset line found b rest m hm bytes found' ih =>
    apply ih h
    intro t ht
    simp only [found'] at ht
    split at ht
    · rename_i kind hk
      rcases Array.mem_push.1 ht with hold | rfl
      · exact hfound t hold
      · exact firstMatch?_spelt hm hk
    · exact hfound t ht

/-- **Every scanned token is spelt as its class says.** -/
theorem scan_spelt {file source : Text} {ts : List Token} (h : scan file source = .ok ts) :
    ∀ t ∈ ts, Spelt t.kind t.text :=
  scanFrom_spelt h (by simp)

/-! ## Numbers of parameters -/

/-- Digits have no sign, so they are the number of a parameter unless it is too large for a signed
word. -/
theorem Run.paramNumber?_eq_some {ds : Text} (h : Run Text.isDigit ds) {i : Int} :
    Parser.paramNumber? ds = some i ↔
      ∃ n : Nat, Text.natOfDigits? 10 ds = some n ∧ n < Word.signedLimit ∧ i = n := by
  have hfits (n : Nat) : Word.fits64 (1 * n) = true ↔ n < Word.signedLimit := by
    simp only [Word.fits64, Word.signedLimit, Bool.and_eq_true, decide_eq_true_eq]
    omega
  cases ds with
  | nil => exact absurd rfl h.nonempty
  | cons b rest =>
    have hb : Text.isDigit b = true := h.all b (List.mem_cons_self ..)
    have hsign (c : UInt8) (hc : Text.isDigit c = false) : ¬ (b == c) = true := by
      intro he
      rw [beq_iff_eq.1 he, hc] at hb
      cases hb
    simp only [Parser.paramNumber?, if_neg (hsign '-'.toUInt8 rfl), if_neg (hsign '+'.toUInt8 rfl),
      hfits, Option.bind_eq_bind, Option.bind_eq_some_iff]
    constructor
    · rintro ⟨n, hn, hi⟩
      split at hi
      · exact ⟨n, hn, ‹_›, by simpa using hi.symm⟩
      · cases hi
    · rintro ⟨n, hn, hlt, rfl⟩
      exact ⟨n, hn, by rw [if_pos hlt, Int.one_mul]⟩

section

variable {text : Text} {i : Int}

/-- The number of a register parameter is the one in its text. -/
theorem Spelt.number_of_registerParam (h : Spelt .registerParam text)
    (hi : Parser.paramNumber? (text.drop 2) = some i) :
    ∃ (ds : Text) (n : Nat), text = '%'.toUInt8 :: 'r'.toUInt8 :: ds ∧
      Text.natOfDigits? 10 ds = some n ∧ n < Word.signedLimit ∧ i = n := by
  obtain ⟨ds, rfl, hds⟩ := h.of_registerParam
  obtain ⟨n, hn, hlt, rfl⟩ := hds.paramNumber?_eq_some.1 hi
  exact ⟨ds, n, rfl, hn, hlt, rfl⟩

/-- The number of a literal parameter is the one in its text. -/
theorem Spelt.number_of_literalParam (h : Spelt .literalParam text)
    (hi : Parser.paramNumber? (text.drop 2) = some i) :
    ∃ (ds : Text) (n : Nat), text = '%'.toUInt8 :: 'l'.toUInt8 :: ds ∧
      Text.natOfDigits? 10 ds = some n ∧ n < Word.signedLimit ∧ i = n := by
  obtain ⟨ds, rfl, hds⟩ := h.of_literalParam
  obtain ⟨n, hn, hlt, rfl⟩ := hds.paramNumber?_eq_some.1 hi
  exact ⟨ds, n, rfl, hn, hlt, rfl⟩

end

end Octet.Token
