import Octet.Proofs.WrittenTokens

/-!
# The texts of the lexical classes

A class is a set of texts. Most classes do not look at what follows, but names of registers and
instructions, and numerals, end at a word boundary, and a comment goes up to the end of its line.

* `Token.Paired` — text in which every parenthesis has its partner, as in a formula;
* `Token.paired_of_closing?` — the parenthesis that closes a formula is the partner of the one that
  opens it;
* `Token.Numeral` — digits in one of three bases;
* `Token.Form` — the texts of each class, and of what is skipped;
* `Token.form_of_mem` — **what a rule takes is of the form of its class**;
* `Token.firstMatch?_eq_none_iff` — **nothing is taken exactly where no text of a form stands**;
* `Token.Taken` — a piece that the rules take in front of the rest.
-/

namespace Octet.Token

open Text (isLineEnd)

/-! ## Parentheses -/

/-- Bytes of one line in which every parenthesis has its partner. -/
inductive Paired : Text → Prop
  | nil : Paired []
  | byte {b : UInt8} {rest : Text} (hopen : b ≠ '('.toUInt8) (hclose : b ≠ ')'.toUInt8)
    (hline : isLineEnd b = false)
    (hrest : Paired rest) : Paired (b :: rest)
  | group {inner rest : Text} (hinner : Paired inner) (hrest : Paired rest) :
    Paired ('('.toUInt8 :: (inner ++ ')'.toUInt8 :: rest))

theorem closing?_open (taken depth : Nat) (rest : Text) :
    closing? taken depth ('('.toUInt8 :: rest) = closing? (taken + 1) (depth + 1) rest := by
  rw [closing?, if_pos (by decide)]

theorem closing?_close (taken depth : Nat) (rest : Text) :
    closing? taken depth (')'.toUInt8 :: rest) =
      if depth ≤ 1 then some (taken + 1) else closing? (taken + 1) (depth - 1) rest := by
  rw [closing?, if_neg (by decide), if_pos (by decide)]

/-- Text of pairs leaves the depth as it is. -/
theorem Paired.closing? {body : Text} (h : Paired body) {depth : Nat} (hdepth : 1 ≤ depth)
    (taken : Nat) (rest : Text) :
    closing? taken depth (body ++ rest) = closing? (taken + body.length) depth rest := by
  induction h generalizing taken depth rest with
  | nil => rfl
  | byte hopen hclose hline _ ih =>
    rw [List.cons_append, Token.closing?, if_neg (by simpa using hopen),
      if_neg (by simpa using hclose), if_neg (by simp [hline]), ih hdepth, List.length_cons,
      Nat.add_right_comm, Nat.add_assoc]
  | @group inner after _ _ ihinner ihrest =>
    rw [List.cons_append, List.append_assoc, closing?_open, ihinner (by omega), List.cons_append,
      closing?_close, if_neg (by omega), Nat.add_sub_cancel, ihrest hdepth]
    congr 1
    simp
    omega

/-- Up to the parenthesis that closes `depth` open ones, there are as many texts of pairs, each with
its closing parenthesis. -/
theorem paired_of_closing? {taken depth n : Nat} {x : Text} (hdepth : 1 ≤ depth)
    (h : closing? taken depth x = some n) :
    ∃ (bodies : List Text) (rest : Text), bodies.length = depth ∧ (∀ body ∈ bodies, Paired body) ∧
      x = bodies.flatMap (· ++ [')'.toUInt8]) ++ rest ∧
        n = taken + (bodies.flatMap (· ++ [')'.toUInt8])).length := by
  fun_induction closing? taken depth x with
  | case1 => cases h
  | case2 taken depth b rest hb ih =>
    obtain ⟨bodies, after, hlength, hall, rfl, hn⟩ := ih (by omega) h
    -- The group that opens here takes the first two of the texts.
    obtain ⟨first, second, more, rfl⟩ : ∃ first second more, bodies = first :: second :: more := by
      rcases bodies with _ | ⟨first, _ | ⟨second, more⟩⟩
      · simp at hlength
      · simp at hlength; omega
      · exact ⟨first, second, more, rfl⟩
    refine ⟨('('.toUInt8 :: (first ++ ')'.toUInt8 :: second)) :: more, after, ?_, ?_, ?_, ?_⟩
    · simpa using hlength
    · intro body hbody
      rcases List.mem_cons.1 hbody with rfl | hbody
      · exact .group (hall first (by simp)) (hall second (by simp))
      · exact hall body (by simp [hbody])
    · simp [beq_iff_eq.1 hb]
    · simp at hn ⊢
      omega
  | case3 taken depth b rest _ hb hle =>
    cases h
    refine ⟨[[]], rest, ?_, by simpa using Paired.nil, ?_, ?_⟩
    · simp
      omega
    · simp [beq_iff_eq.1 hb]
    · simp
  | case4 taken depth b rest _ hb hle ih =>
    obtain ⟨bodies, after, hlength, hall, rfl, hn⟩ := ih (by omega) h
    refine ⟨[] :: bodies, after, ?_, ?_, ?_, ?_⟩
    · simp
      omega
    · simpa using ⟨Paired.nil, hall⟩
    · simp [beq_iff_eq.1 hb]
    · simp at hn ⊢
      omega
  | case5 => cases h
  | case6 taken depth b rest hopen hclose hline ih =>
    obtain ⟨bodies, after, hlength, hall, rfl, hn⟩ := ih hdepth h
    obtain ⟨first, more, rfl⟩ := List.exists_cons_of_length_pos (by omega : 0 < bodies.length)
    refine ⟨(b :: first) :: more, after, hlength, ?_, by simp, ?_⟩
    · intro body hbody
      rcases List.mem_cons.1 hbody with rfl | hbody
      · exact .byte (by simpa using hopen) (by simpa using hclose) (by simpa using hline)
          (hall first (by simp))
      · exact hall body (by simp [hbody])
    · simp at hn ⊢
      omega

/-! ## The forms -/

/-- Digits in one of three bases, with the letter of the base. -/
inductive Numeral : Text → Prop
  | hexadecimal {ds : Text} (h : Run Text.isHexDigit ds) : Numeral (ds ++ utf8 "h")
  | binary {ds : Text} (h : Run isBinaryDigit ds) : Numeral (ds ++ utf8 "b")
  | decimal {ds : Text} (h : Run Text.isDigit ds) : Numeral ds

/-- The texts of the classes, each in front of the rest of its source. Names of registers and
instructions, and numerals, end at a word boundary. A comment goes up to the end of its line. -/
inductive Form : Option TokenKind → Text → Text → Prop
  | register {x rest : Text} (h : x ∈ registerNames) (hrest : atBoundary rest = true) :
    Form (some .register) x rest
  | instruction {x rest : Text} (h : x ∈ mnemonics) (hrest : atBoundary rest = true) :
    Form (some .instruction) x rest
  | word {x rest : Text} (h : IsWord x) : Form (some .word) x rest
  | directive {x rest : Text} (h : IsWord x) : Form (some .directive) ('@'.toUInt8 :: x) rest
  | label {x rest : Text} (h : IsWord x) : Form (some .label) ('$'.toUInt8 :: x) rest
  | registerParam {ds rest : Text} (h : Run Text.isDigit ds) :
    Form (some .registerParam) ('%'.toUInt8 :: 'r'.toUInt8 :: ds) rest
  | literalParam {ds rest : Text} (h : Run Text.isDigit ds) :
    Form (some .literalParam) ('%'.toUInt8 :: 'l'.toUInt8 :: ds) rest
  | string {body rest : Text} (h : ∀ c ∈ body, c ≠ quoteMark ∧ isLineEnd c = false) :
    Form (some .string) (quoteMark :: (body ++ [quoteMark])) rest
  | comma {rest : Text} : Form (some .comma) [','.toUInt8] rest
  | colon {rest : Text} : Form (some .colon) [':'.toUInt8] rest
  | newline {x rest : Text} (h : Run isLineEnd x) : Form (some .newline) x rest
  | numeral {x rest : Text} (h : Numeral x) (hrest : atBoundary rest = true) :
    Form (some .literal) ('#'.toUInt8 :: x) rest
  | formula {body rest : Text} (h : Paired body) :
    Form (some .literal) ('#'.toUInt8 :: '('.toUInt8 :: (body ++ [')'.toUInt8])) rest
  | comment {body rest : Text} (h : ∀ c ∈ body, isLineEnd c = false)
    (hrest : ∀ c ∈ rest.head?, isLineEnd c = true) :
    Form none (';'.toUInt8 :: body) rest
  | blanks {x rest : Text} (h : Run isBlank x) : Form none x rest

/-- The bytes that a token stands for in its source: a string has its quotes. -/
def spelling (t : Token) : Text :=
  if t.kind = .string then quoteMark :: (t.text ++ [quoteMark]) else t.text

/-- A token stands for the bytes that it was taken from. -/
theorem Form.spelling {kind : TokenKind} {x rest : Text} (h : Form (some kind) x rest) (file : Text)
    (offset line : Int) : spelling ⟨kind, keptText kind x, file, offset, line⟩ = x := by
  cases h with
  | string _ => simp [Token.spelling, keptText]
  | _ => rfl

theorem IsWord.all {x : Text} (h : IsWord x) : ∀ b ∈ x, isWordByte b = true := by
  cases h with
  | intro hb hrest => exact List.forall_mem_cons.2 ⟨by rw [isWordByte, hb, Bool.true_or], hrest⟩

theorem isWordByte_of_isDigit {b : UInt8} (h : Text.isDigit b = true) : isWordByte b = true := by
  rw [isWordByte, h, Bool.or_true]

theorem isWordByte_of_isHexDigit {b : UInt8} (h : Text.isHexDigit b = true) :
    isWordByte b = true := by
  simp only [Text.isHexDigit, isWordByte, isWordStart, Text.isAsciiLetter, Bool.or_eq_true,
    Bool.and_eq_true, decide_eq_true_eq] at h ⊢
  rcases h with (h | ⟨hlo, hhi⟩) | ⟨hlo, hhi⟩
  · exact .inr h
  · exact .inl (.inl (.inl ⟨hlo, UInt8.le_trans hhi (by decide)⟩))
  · exact .inl (.inl (.inr ⟨hlo, UInt8.le_trans hhi (by decide)⟩))

theorem isWordByte_of_isBinaryDigit {b : UInt8} (h : isBinaryDigit b = true) :
    isWordByte b = true := by
  simp only [isBinaryDigit, Bool.or_eq_true, beq_iff_eq] at h
  rcases h with rfl | rfl <;> decide

theorem Numeral.all {x : Text} (h : Numeral x) : ∀ b ∈ x, isWordByte b = true := by
  cases h with
  | hexadecimal h =>
    exact List.forall_mem_append.2 ⟨fun b hb => isWordByte_of_isHexDigit (h.all b hb),
      by decide +kernel⟩
  | binary h =>
    exact List.forall_mem_append.2 ⟨fun b hb => isWordByte_of_isBinaryDigit (h.all b hb),
      by decide +kernel⟩
  | decimal h => exact fun b hb => isWordByte_of_isDigit (h.all b hb)

/-- Bytes of a class without line ends. -/
theorem oneLine_of_class {p : UInt8 → Bool} (hcr : p Text.cr = false) (hlf : p Text.lf = false)
    {x : Text} (hx : ∀ b ∈ x, p b = true) : ∀ b ∈ x, isLineEnd b = false := by
  intro b hb
  rw [Bool.eq_false_iff]
  intro he
  have hp := hx b hb
  rw [not_of_lineEnd hcr hlf he] at hp
  cases hp

theorem oneLine_of_wordBytes {x : Text} (hx : ∀ b ∈ x, isWordByte b = true) :
    ∀ b ∈ x, isLineEnd b = false :=
  oneLine_of_class rfl rfl hx

theorem Run.oneLine {p : UInt8 → Bool} {x : Text} (hx : Run p x) (hcr : p Text.cr = false)
    (hlf : p Text.lf = false) :
    ∀ b ∈ x, isLineEnd b = false :=
  oneLine_of_class hcr hlf hx.all

theorem Paired.oneLine {body : Text} (h : Paired body) : ∀ b ∈ body, isLineEnd b = false := by
  induction h with
  | nil => simp
  | byte _ _ hline _ ih => exact List.forall_mem_cons.2 ⟨hline, ih⟩
  | group _ _ ihinner ihrest =>
    exact List.forall_mem_cons.2 ⟨by decide, List.forall_mem_append.2 ⟨ihinner,
      List.forall_mem_cons.2 ⟨by decide, ihrest⟩⟩⟩

/-- Only line ends hold bytes that end a line. -/
theorem Form.oneLine {kind : TokenKind} {x rest : Text} (h : Form (some kind) x rest)
    (hk : kind ≠ .newline) :
    ∀ c ∈ x, isLineEnd c = false := by
  cases h with
  | register h _ => exact oneLine_of_wordBytes (isWordByte_of_registerName x h)
  | instruction h _ => exact oneLine_of_wordBytes (isWordByte_of_mnemonic x h)
  | word h => exact oneLine_of_wordBytes h.all
  | directive h => exact List.forall_mem_cons.2 ⟨by decide, oneLine_of_wordBytes h.all⟩
  | label h => exact List.forall_mem_cons.2 ⟨by decide, oneLine_of_wordBytes h.all⟩
  | registerParam h =>
    exact List.forall_mem_cons.2 ⟨by decide, List.forall_mem_cons.2 ⟨by decide, h.oneLine rfl rfl⟩⟩
  | literalParam h =>
    exact List.forall_mem_cons.2 ⟨by decide, List.forall_mem_cons.2 ⟨by decide, h.oneLine rfl rfl⟩⟩
  | @string body _ h =>
    have hbody : ∀ c ∈ body, isLineEnd c = false := fun c hc => (h c hc).2
    exact List.forall_mem_cons.2 ⟨rfl,
      List.forall_mem_append.2 ⟨hbody, List.forall_mem_singleton.2 rfl⟩⟩
  | comma => exact List.forall_mem_singleton.2 rfl
  | colon => exact List.forall_mem_singleton.2 rfl
  | newline _ => exact absurd rfl hk
  | numeral h _ => exact List.forall_mem_cons.2 ⟨by decide, oneLine_of_wordBytes h.all⟩
  | formula h =>
    exact List.forall_mem_cons.2 ⟨by decide, List.forall_mem_cons.2 ⟨by decide,
      List.forall_mem_append.2 ⟨h.oneLine, List.forall_mem_singleton.2 rfl⟩⟩⟩

/-! ## What is taken is of a form -/

theorem head_drop_runLength (p : UInt8 → Bool) (x : Text) :
    ∀ b ∈ (x.drop (runLength p x)).head?, p b = false := by
  unfold runLength
  induction x with
  | nil => simp
  | cons b x ih =>
    cases hb : p b with
    | true => simpa [hb] using ih
    | false => simp [hb]

theorem atBoundary_of_head {rest : Text} (h : ∀ b ∈ rest.head?, isWordByte b = false) :
    atBoundary rest = true := by
  cases rest with
  | nil => rfl
  | cons b rest =>
    rw [atBoundary, h b rfl]
    rfl

theorem atBoundary_drop_nameLength {names : List Text} {x : Text} (hx : nameLength names x ≠ 0) :
    atBoundary (x.drop (nameLength names x)) = true := by
  unfold nameLength at hx ⊢
  split at hx
  · rename_i name hfind
    have h := List.find?_some hfind
    rw [Bool.and_eq_true] at h
    exact h.2
  · exact absurd rfl hx

theorem atBoundary_drop_digitsLength {p : UInt8 → Bool} {suffix x : Text}
    (hx : digitsLength p suffix x ≠ 0) :
    atBoundary (x.drop (digitsLength p suffix x)) = true := by
  simp only [digitsLength] at hx ⊢
  split at hx
  · exact absurd rfl hx
  · split at hx
    · rename_i hsuffix
      rw [if_pos hsuffix, ← List.drop_drop]
      exact (Bool.and_eq_true _ _ ▸ hsuffix).2
    · exact absurd rfl hx

/-- A numeral is a mark and digits in one of three bases. -/
theorem numeralLength_cases {x : Text} (hx : numeralLength x ≠ 0) :
    ∃ (rest : Text) (n : Nat), x = '#'.toUInt8 :: rest ∧ numeralLength x = n + 1 ∧ n ≠ 0 ∧
      (digitsLength Text.isHexDigit (utf8 "h") rest = n ∨
        digitsLength isBinaryDigit (utf8 "b") rest = n ∨
        digitsLength Text.isDigit [] rest = n) := by
  cases x with
  | nil => exact absurd rfl hx
  | cons b rest =>
    rw [numeralLength] at hx ⊢
    by_cases hb : (b == '#'.toUInt8) = true
    · rw [if_pos hb] at hx ⊢
      rw [beq_iff_eq.1 hb]
      refine ⟨rest, ?_⟩
      cases hhex : digitsLength Text.isHexDigit (utf8 "h") rest with
      | succ n => exact ⟨n + 1, rfl, rfl, by omega, .inl rfl⟩
      | zero =>
        rw [hhex] at hx
        cases hbinary : digitsLength isBinaryDigit (utf8 "b") rest with
        | succ n => exact ⟨n + 1, rfl, rfl, by omega, .inr (.inl rfl)⟩
        | zero =>
          rw [hbinary] at hx
          cases hdecimal : digitsLength Text.isDigit [] rest with
          | succ n => exact ⟨n + 1, rfl, rfl, by omega, .inr (.inr rfl)⟩
          | zero =>
            rw [hdecimal] at hx
            exact absurd rfl hx
    · rw [if_neg hb] at hx
      exact absurd rfl hx

theorem form_numeral {x : Text} (hx : numeralLength x ≠ 0) :
    Form (some .literal) (x.take (numeralLength x)) (x.drop (numeralLength x)) := by
  obtain ⟨rest, n, rfl, hlength, hn, hdigits⟩ := numeralLength_cases hx
  rw [hlength, List.take_succ_cons, List.drop_succ_cons]
  rcases hdigits with rfl | rfl | rfl
  · obtain ⟨ds, htake, hds⟩ := takes_digits _ _ rest hn
    rw [htake]
    exact .numeral (.hexadecimal hds) (atBoundary_drop_digitsLength hn)
  · obtain ⟨ds, htake, hds⟩ := takes_digits _ _ rest hn
    rw [htake]
    exact .numeral (.binary hds) (atBoundary_drop_digitsLength hn)
  · obtain ⟨ds, htake, hds⟩ := takes_digits _ _ rest hn
    rw [htake, List.append_nil]
    exact .numeral (.decimal hds) (atBoundary_drop_digitsLength hn)

theorem form_formula {x : Text} (hx : formulaLength x ≠ 0) :
    Form (some .literal) (x.take (formulaLength x)) (x.drop (formulaLength x)) := by
  match x with
  | [] => exact absurd rfl hx
  | [_] => exact absurd rfl hx
  | b :: c :: rest =>
    rw [formulaLength] at hx ⊢
    split at hx
    · rename_i hbc
      rw [if_pos hbc]
      cases hclose : closing? 2 1 rest with
      | none =>
        rw [hclose] at hx
        exact absurd rfl hx
      | some n =>
        obtain ⟨bodies, after, hlength, hall, rfl, rfl⟩ := paired_of_closing? (Nat.le_refl 1) hclose
        obtain ⟨body, rfl⟩ := List.length_eq_one_iff.1 hlength
        rw [Bool.and_eq_true, beq_iff_eq, beq_iff_eq] at hbc
        obtain ⟨rfl, rfl⟩ := hbc
        rw [Option.getD_some, Nat.add_comm, List.take_succ_cons, List.take_succ_cons,
          List.take_left, List.flatMap_singleton]
        exact .formula (hall body (List.mem_singleton_self body))
    · exact absurd rfl hx

theorem form_comment {x : Text} (hx : commentLength x ≠ 0) :
    Form none (x.take (commentLength x)) (x.drop (commentLength x)) := by
  cases x with
  | nil => exact absurd rfl hx
  | cons b rest =>
    rw [commentLength] at hx ⊢
    split at hx
    · rename_i hb
      rw [if_pos hb, List.take_succ_cons, List.drop_succ_cons, beq_iff_eq.1 hb, take_runLength]
      refine .comment ?_ ?_
      · intro c hc
        simpa using List.mem_takeWhile_imp hc
      · intro c hc
        simpa using head_drop_runLength _ rest c hc
    · exact absurd rfl hx

/-- **What a rule takes is of the form of its class.** -/
theorem form_of_mem {r : Rule} (h : r ∈ rules) {x : Text} (hx : r.length x ≠ 0) :
    Form r.kind (x.take (r.length x)) (x.drop (r.length x)) := by
  simp only [rules, List.mem_cons, List.not_mem_nil, or_false] at h
  rcases h with rfl | rfl | rfl | rfl | rfl | rfl | rfl | rfl | rfl | rfl | rfl | rfl | rfl | rfl |
    rfl
  · exact .register (takes_name _ x hx) (atBoundary_drop_nameLength hx)
  · exact .instruction (takes_name _ x hx) (atBoundary_drop_nameLength hx)
  · exact .word (takes_word x hx)
  · obtain ⟨word, htake, hword⟩ := takes_markedWord '@' x hx
    simp only [htake]
    exact .directive hword
  · obtain ⟨word, htake, hword⟩ := takes_markedWord '$' x hx
    simp only [htake]
    exact .label hword
  · obtain ⟨ds, htake, hds⟩ := takes_param 'r' x hx
    simp only [htake]
    exact .registerParam hds
  · obtain ⟨ds, htake, hds⟩ := takes_param 'l' x hx
    simp only [htake]
    exact .literalParam hds
  · obtain ⟨body, htake, hbody⟩ := takes_string x hx
    simp only [htake]
    exact .string hbody
  · simp only [takes_byte ',' x hx]
    exact .comma
  · simp only [takes_byte ':' x hx]
    exact .colon
  · exact .newline (takes_run _ x hx)
  · exact form_numeral hx
  · exact form_formula hx
  · exact form_comment hx
  · exact .blanks (takes_run _ x hx)

/-! ## Where nothing is taken -/

theorem firstMatch?_ne_none (i : Nat) {kind : Option TokenKind} {length : Text → Nat} {x : Text}
    (hr : rules[i]? = some ⟨kind, length⟩) (hx : length x ≠ 0) : firstMatch? x ≠ none := by
  intro hnone
  have hr := List.findSome?_eq_none_iff.1 hnone _ (List.mem_of_getElem? hr)
  unfold Rule.match? at hr
  split at hr
  · rename_i hzero
    exact hx hzero
  · cases hr

theorem nameLength_ne_zero {names : List Text}
    (hwords : ∀ name ∈ names, ∀ b ∈ name, isWordByte b = true)
    (hfirst : ∀ name ∈ names, ∃ b, name.head? = some b ∧ isLineEnd b = false) {x rest : Text}
    (hx : x ∈ names) (hrest : atBoundary rest = true) : nameLength names (x ++ rest) ≠ 0 := by
  rw [nameLength_word hwords (hwords x hx) hrest, if_pos hx]
  intro hnil
  obtain ⟨b, hb, -⟩ := hfirst x hx
  rw [List.length_eq_zero_iff.1 hnil] at hb
  cases hb

theorem wordLength_ne_zero {x : Text} (hx : IsWord x) (rest : Text) :
    wordLength (x ++ rest) ≠ 0 := by
  cases hx with
  | intro hb _ =>
    rw [List.cons_append, wordLength, if_pos hb]
    exact Nat.succ_ne_zero _

theorem markedWordLength_ne_zero {mark : Char} {x : Text} (hx : IsWord x) (rest : Text) :
    markedWordLength mark (mark.toUInt8 :: x ++ rest) ≠ 0 := by
  rw [List.cons_append, markedWordLength, if_pos (beq_self_eq_true _)]
  obtain ⟨n, hn⟩ := Nat.exists_eq_succ_of_ne_zero (wordLength_ne_zero hx rest)
  rw [hn]
  exact Nat.succ_ne_zero _

theorem runLength_ne_zero {p : UInt8 → Bool} {x : Text} (hx : Run p x) (rest : Text) :
    runLength p (x ++ rest) ≠ 0 := by
  obtain ⟨b, more, rfl⟩ := List.exists_cons_of_ne_nil hx.nonempty
  rw [runLength, List.cons_append, List.takeWhile_cons_of_pos (hx.all b (List.mem_cons_self ..))]
  exact Nat.succ_ne_zero _

theorem paramLength_ne_zero {letter : Char} {ds : Text} (hds : Run Text.isDigit ds) (rest : Text) :
    paramLength letter ('%'.toUInt8 :: letter.toUInt8 :: ds ++ rest) ≠ 0 := by
  obtain ⟨n, hn⟩ := Nat.exists_eq_succ_of_ne_zero (runLength_ne_zero hds rest)
  rw [runLength] at hn
  simp only [List.cons_append, paramLength, beq_self_eq_true, Bool.and_self, if_true, hn]
  exact Nat.succ_ne_zero _

/-- A string ends with the first quote after the one that opens it. -/
theorem stringLength_append {body : Text} (hbody : ∀ c ∈ body, c ≠ quoteMark ∧ isLineEnd c = false)
    (rest : Text) :
    stringLength (quoteMark :: (body ++ [quoteMark]) ++ rest) = body.length + 2 := by
  have htake :
      (body ++ quoteMark :: rest).takeWhile (fun c => c != quoteMark && !isLineEnd c) = body := by
    rw [List.takeWhile_append_of_pos (by simpa using hbody), List.takeWhile_cons_of_neg (by simp),
      List.append_nil]
  rw [List.cons_append, List.append_assoc, List.singleton_append]
  simp only [stringLength, beq_self_eq_true, if_true, htake, List.drop_left]

theorem formulaLength_append {body : Text} (hbody : Paired body) (rest : Text) :
    formulaLength ('#'.toUInt8 :: '('.toUInt8 :: (body ++ [')'.toUInt8]) ++ rest) =
      body.length + 3 := by
  rw [List.cons_append, List.cons_append, List.append_assoc, List.singleton_append, formulaLength,
    if_pos (by decide), hbody.closing? (Nat.le_refl 1), closing?_close, if_pos (Nat.le_refl 1),
    Option.getD_some]
  omega

/-- Digits of one of the three bases make a numeral. -/
theorem numeralLength_ne_zero {rest : Text}
    (h : digitsLength Text.isHexDigit (utf8 "h") rest ≠ 0 ∨
      digitsLength isBinaryDigit (utf8 "b") rest ≠ 0 ∨ digitsLength Text.isDigit [] rest ≠ 0) :
    numeralLength ('#'.toUInt8 :: rest) ≠ 0 := by
  rw [numeralLength, if_pos (by decide)]
  cases hhex : digitsLength Text.isHexDigit (utf8 "h") rest with
  | succ n => exact Nat.succ_ne_zero _
  | zero =>
    cases hbinary : digitsLength isBinaryDigit (utf8 "b") rest with
    | succ n => exact Nat.succ_ne_zero _
    | zero =>
      cases hdecimal : digitsLength Text.isDigit [] rest with
      | succ n => exact Nat.succ_ne_zero _
      | zero => simp [hhex, hbinary, hdecimal] at h

theorem isDigit_of_atBoundary {rest : Text} (h : atBoundary rest = true) :
    ∀ b ∈ rest.head?, Text.isDigit b = false := by
  intro b hb
  cases rest with
  | nil => cases hb
  | cons c rest =>
    cases hb
    have hword : isWordByte b = false := by simpa [atBoundary] using h
    exact (Bool.or_eq_false_iff.1 hword).2

theorem Numeral.length_ne_zero {x rest : Text} (h : Numeral x) (hrest : atBoundary rest = true) :
    numeralLength ('#'.toUInt8 :: x ++ rest) ≠ 0 := by
  cases h with
  | @hexadecimal ds h =>
    have hlength :
        digitsLength Text.isHexDigit (utf8 "h") (ds ++ (utf8 "h" ++ rest)) = ds.length + 1 :=
      digitsLength_of_run h (fun b hb => by cases hb; decide) hrest
    rw [List.cons_append, List.append_assoc]
    exact numeralLength_ne_zero (.inl (by rw [hlength]; exact Nat.succ_ne_zero _))
  | @binary ds h =>
    have hlength :
        digitsLength isBinaryDigit (utf8 "b") (ds ++ (utf8 "b" ++ rest)) = ds.length + 1 :=
      digitsLength_of_run h (fun b hb => by cases hb; decide) hrest
    rw [List.cons_append, List.append_assoc]
    exact numeralLength_ne_zero (.inr (.inl (by rw [hlength]; exact Nat.succ_ne_zero _)))
  | decimal h =>
    have hlength : digitsLength Text.isDigit [] (x ++ rest) = x.length :=
      digitsLength_of_run h (isDigit_of_atBoundary hrest) hrest
    rw [List.cons_append]
    refine numeralLength_ne_zero (.inr (.inr ?_))
    rw [hlength]
    exact fun hnil => h.nonempty (List.length_eq_zero_iff.1 hnil)

/-- Where a text of a form stands, something is taken. -/
theorem Form.taken {kind : Option TokenKind} {x rest : Text} (h : Form kind x rest) :
    firstMatch? (x ++ rest) ≠ none := by
  cases h with
  | register h hrest =>
    exact firstMatch?_ne_none 0 rfl
      (nameLength_ne_zero isWordByte_of_registerName first_of_registerName h hrest)
  | instruction h hrest =>
    exact firstMatch?_ne_none 1 rfl
      (nameLength_ne_zero isWordByte_of_mnemonic first_of_mnemonic h hrest)
  | word h => exact firstMatch?_ne_none 2 rfl (wordLength_ne_zero h rest)
  | directive h => exact firstMatch?_ne_none 3 rfl (markedWordLength_ne_zero h rest)
  | label h => exact firstMatch?_ne_none 4 rfl (markedWordLength_ne_zero h rest)
  | registerParam h => exact firstMatch?_ne_none 5 rfl (paramLength_ne_zero h rest)
  | literalParam h => exact firstMatch?_ne_none 6 rfl (paramLength_ne_zero h rest)
  | string h =>
    exact firstMatch?_ne_none 7 rfl (by rw [stringLength_append h]; exact Nat.succ_ne_zero _)
  | comma => exact firstMatch?_ne_none 8 rfl (Nat.succ_ne_zero 0)
  | colon => exact firstMatch?_ne_none 9 rfl (Nat.succ_ne_zero 0)
  | newline h => exact firstMatch?_ne_none 10 rfl (runLength_ne_zero h rest)
  | numeral h hrest => exact firstMatch?_ne_none 11 rfl (h.length_ne_zero hrest)
  | formula h =>
    exact firstMatch?_ne_none 12 rfl (by rw [formulaLength_append h]; exact Nat.succ_ne_zero _)
  | comment => exact firstMatch?_ne_none 13 rfl (Nat.succ_ne_zero _)
  | blanks h => exact firstMatch?_ne_none 14 rfl (runLength_ne_zero h rest)

/-- A match takes a text of the form of its class. -/
theorem firstMatch?_form {x : Text} {m : Match} (h : firstMatch? x = some m) :
    Form m.kind (x.take (m.more + 1)) (x.drop (m.more + 1)) := by
  obtain ⟨r, hr, hm⟩ := List.exists_of_findSome?_eq_some h
  unfold Rule.match? at hm
  split at hm
  · cases hm
  · rename_i n hn
    cases hm
    have hform := form_of_mem hr (x := x) (by omega)
    rwa [hn] at hform

/-- **Nothing is taken exactly where no text of a form stands.** -/
theorem firstMatch?_eq_none_iff {input : Text} :
    firstMatch? input = none ↔ ∀ kind x rest, input = x ++ rest → ¬ Form kind x rest := by
  constructor
  · rintro h kind x rest rfl hform
    exact hform.taken h
  · intro h
    cases hm : firstMatch? input with
    | none => rfl
    | some m => exact absurd (firstMatch?_form hm) (h _ _ _ (List.take_append_drop _ _).symm)

/-! ## Pieces of a source -/

/-- A run ends with the first byte that is not of its class. -/
theorem takeWhile_run {p : UInt8 → Bool} {x rest : Text} (hx : ∀ b ∈ x, p b = true)
    (hrest : ∀ b ∈ rest.head?, p b = false) : (x ++ rest).takeWhile p = x := by
  have hstop : rest.takeWhile p = [] := by
    cases rest with
    | nil => rfl
    | cons b rest => rw [List.takeWhile_cons_of_neg (by simp [hrest b rfl])]
  rw [List.takeWhile_append_of_pos hx, hstop, List.append_nil]

/-- The text `x` is what the first rule that matches takes in front of `rest`, as a text of a
class. -/
structure Taken (kind : Option TokenKind) (x rest : Text) : Prop where
  nonempty : x ≠ []
  first : firstMatch? (x ++ rest) = some ⟨kind, x.length - 1⟩

theorem taken_of_firstMatch? {b : UInt8} {rest : Text} {m : Match}
    (h : firstMatch? (b :: rest) = some m) :
    Taken m.kind (b :: rest.take m.more) (rest.drop m.more) where
  nonempty := List.cons_ne_nil _ _
  first := by
    rw [List.cons_append, List.take_append_drop, h, List.length_cons, Nat.add_sub_cancel,
      List.length_take, Nat.min_eq_left (more_le h)]

theorem ReadAs.toTaken {kind : Option TokenKind} {x rest : Text} (h : ReadAs kind x rest) :
    Taken kind x rest where
  nonempty := by
    obtain ⟨b, hb, -⟩ := h.first
    rintro rfl
    cases hb
  first := h.taken

theorem taken_newline {x rest : Text} (hx : Run isLineEnd x)
    (hrest : ∀ b ∈ rest.head?, isLineEnd b = false) :
    Taken (some .newline) x rest where
  nonempty := hx.nonempty
  first := by
    obtain ⟨e, more, rfl⟩ := List.exists_cons_of_ne_nil hx.nonempty
    obtain ⟨he, hmore⟩ := List.forall_mem_cons.1 hx.all
    rw [List.cons_append, firstMatch?_lineEnd he, takeWhile_run hmore hrest]
    rfl

theorem Taken.form {kind : Option TokenKind} {x rest : Text} (h : Taken kind x rest) :
    Form kind x rest := by
  have hform := firstMatch?_form h.first
  have hlength : x.length - 1 + 1 = x.length := by
    have := List.length_pos_iff.2 h.nonempty
    omega
  rwa [hlength, List.take_left, List.drop_left] at hform

/-- What is taken is one text of one class. -/
theorem Taken.unique {kind kind' : Option TokenKind} {x x' rest rest' : Text}
    (h : Taken kind x rest) (h' : Taken kind' x' rest') (hsplit : x ++ rest = x' ++ rest') :
    kind = kind' ∧ x = x' ∧ rest = rest' := by
  have hmatch := h.first
  rw [hsplit, h'.first] at hmatch
  obtain ⟨hkind, hmore⟩ := Match.mk.inj (Option.some.inj hmatch)
  have hpos := List.length_pos_iff.2 h.nonempty
  have hpos' := List.length_pos_iff.2 h'.nonempty
  obtain ⟨rfl, rfl⟩ := List.append_inj hsplit (by omega)
  exact ⟨hkind.symm, rfl, rfl⟩

end Octet.Token
