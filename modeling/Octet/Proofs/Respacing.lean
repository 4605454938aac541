import Octet.Proofs.Identifiers

/-!
# Tokens with single spaces between them

What is taken of a source depends on what follows, since the first rule that matches wins and most
rules take as much as they can. In front of a blank or of the end, a text of a class is taken as
what it was in its source, whatever followed there. So the texts of the tokens can be written out
with single spaces between them, without their comments, and are scanned as the same tokens again.

* `Token.Apart` — nothing follows, or a blank;
* `Token.Form.taken_apart` — **a text of a class that stands apart is taken as a text of this
  class**;
* `Token.respaced` — tokens as text;
* `Token.Scanning.respaced` — scanning goes through the text from token to token;
* `Token.scan_respaced` — **the text of scanned tokens is accepted and has tokens of the same kinds
  and texts**.
-/

namespace Octet.Token

open Text (isLineEnd)

/-- Nothing follows, or a blank. -/
def Apart (rest : Text) : Prop := ∀ b ∈ rest.head?, isBlank b = true

variable {x rest : Text}

/-- A class without blanks. -/
theorem not_of_blank {p : UInt8 → Bool}
    (hp : p ' '.toUInt8 = false ∧ p '\t'.toUInt8 = false ∧ p 0x0B = false ∧ p 0x0C = false)
    {b : UInt8} (hb : isBlank b = true) : p b = false := by
  obtain ⟨hspace, htab, hvertical, hfeed⟩ := hp
  simp only [isBlank, Bool.or_eq_true, beq_iff_eq] at hb
  rcases hb with ((rfl | rfl) | rfl) | rfl
  · exact hspace
  · exact htab
  · exact hvertical
  · exact hfeed

theorem Apart.stops (h : Apart rest) {p : UInt8 → Bool}
    (hp : p ' '.toUInt8 = false ∧ p '\t'.toUInt8 = false ∧ p 0x0B = false ∧ p 0x0C = false) :
    ∀ b ∈ rest.head?, p b = false :=
  fun b hb => not_of_blank hp (h b hb)

theorem Apart.atBoundary (h : Apart rest) : atBoundary rest = true :=
  atBoundary_of_head (h.stops (by decide))

/-! ## Marked words and parameters -/

theorem markedWordLength_append {mark : Char} (h : IsWord x) (hrest : atBoundary rest = true) :
    markedWordLength mark (mark.toUInt8 :: x ++ rest) = (mark.toUInt8 :: x).length := by
  have hlength := wordLength_append h hrest
  rw [List.cons_append, markedWordLength, if_pos (beq_self_eq_true _), hlength]
  cases h with
  | intro _ _ => rfl

theorem paramLength_append {letter : Char} {ds : Text} (h : Run Text.isDigit ds)
    (hrest : ∀ b ∈ rest.head?, Text.isDigit b = false) :
    paramLength letter ('%'.toUInt8 :: letter.toUInt8 :: ds ++ rest) =
      ('%'.toUInt8 :: letter.toUInt8 :: ds).length := by
  have hlength : ((ds ++ rest).takeWhile Text.isDigit).length = ds.length := by
    rw [takeWhile_run h.all hrest]
  obtain ⟨d, more, rfl⟩ := List.exists_cons_of_ne_nil h.nonempty
  rw [List.cons_append, List.cons_append, paramLength, if_pos (by simp), hlength]
  rfl

theorem readAs_directive (h : IsWord x) (hrest : atBoundary rest = true) :
    ReadAs (some .directive) ('@'.toUInt8 :: x) rest :=
  readAs_of_rule (rules.take 3) (rules.drop 4) rfl ⟨_, rfl, by decide⟩ rfl
    (markedWordLength_append h hrest)

theorem readAs_label (h : IsWord x) (hrest : atBoundary rest = true) :
    ReadAs (some .label) ('$'.toUInt8 :: x) rest :=
  readAs_of_rule (rules.take 4) (rules.drop 5) rfl ⟨_, rfl, by decide⟩ rfl
    (markedWordLength_append h hrest)

theorem readAs_registerParam (h : Run Text.isDigit x)
    (hrest : ∀ b ∈ rest.head?, Text.isDigit b = false) :
    ReadAs (some .registerParam) ('%'.toUInt8 :: 'r'.toUInt8 :: x) rest :=
  readAs_of_rule (rules.take 5) (rules.drop 6) rfl ⟨_, rfl, by decide⟩ rfl
    (paramLength_append h hrest)

theorem readAs_literalParam (h : Run Text.isDigit x)
    (hrest : ∀ b ∈ rest.head?, Text.isDigit b = false) :
    ReadAs (some .literalParam) ('%'.toUInt8 :: 'l'.toUInt8 :: x) rest :=
  readAs_of_rule (rules.take 6) (rules.drop 7) rfl ⟨_, rfl, by decide⟩ rfl
    (paramLength_append h hrest)

/-! ## Strings and literals -/

theorem readAs_string {body : Text} (h : ∀ c ∈ body, c ≠ quoteMark ∧ isLineEnd c = false) :
    ReadAs (some .string) (quoteMark :: (body ++ [quoteMark])) rest := by
  refine readAs_of_rule (rules.take 7) (rules.drop 8) rfl ⟨_, rfl, by decide⟩ ?_ ?_
  · obtain ⟨c, more, hmore⟩ : ∃ c more, body ++ [quoteMark] ++ rest = c :: more :=
      List.exists_cons_of_ne_nil (by simp)
    rw [List.cons_append, hmore]
    rfl
  · rw [stringLength_append h]
    simp

theorem readAs_colon : ReadAs (some .colon) [':'.toUInt8] rest := by
  refine readAs_of_rule (rules.take 9) (rules.drop 10) rfl ⟨_, rfl, by decide⟩ ?_ rfl
  cases rest <;> rfl

/-- Digits that end at a boundary are all the word bytes there. -/
theorem digitsLength_eq {p : UInt8 → Bool} {suffix : Text}
    (hp : ∀ b, p b = true → isWordByte b = true) (hsuffix : ∀ b ∈ suffix, isWordByte b = true)
    (hx : digitsLength p suffix x ≠ 0) (hle : digitsLength p suffix x ≤ x.length) :
    digitsLength p suffix x = runLength isWordByte x := by
  obtain ⟨ds, htake, hds⟩ := takes_digits p suffix x hx
  have hall : ∀ b ∈ x.take (digitsLength p suffix x), isWordByte b = true := by
    rw [htake]
    exact List.forall_mem_append.2 ⟨fun b hb => hp b (hds.all b hb), hsuffix⟩
  have hrun := takeWhile_word hall (atBoundary_drop_digitsLength hx)
  rw [List.take_append_drop] at hrun
  rw [runLength, hrun, List.length_take, Nat.min_eq_left hle]

/-- A numeral takes all the word bytes after its mark, whichever base its digits are of. -/
theorem numeralLength_eq (hx : numeralLength ('#'.toUInt8 :: x) ≠ 0) :
    numeralLength ('#'.toUInt8 :: x) = runLength isWordByte x + 1 := by
  obtain ⟨y, n, hy, hlength, hn, hdigits⟩ := numeralLength_cases hx
  obtain ⟨-, rfl⟩ := List.cons.inj hy
  rw [hlength]
  rcases hdigits with rfl | rfl | rfl
  · rw [digitsLength_eq (fun _ => isWordByte_of_isHexDigit) (by decide +kernel) hn
      (lineLocal_hexDigits.le x)]
  · rw [digitsLength_eq (fun _ => isWordByte_of_isBinaryDigit) (by decide +kernel) hn
      (lineLocal_binaryDigits.le x)]
  · rw [digitsLength_eq (fun _ => isWordByte_of_isDigit) (List.forall_mem_nil _) hn
      (lineLocal_decimalDigits.le x)]

theorem readAs_numeral (h : Numeral x) (hrest : atBoundary rest = true) :
    ReadAs (some .literal) ('#'.toUInt8 :: x) rest := by
  refine readAs_of_rule (rules.take 11) (rules.drop 12) rfl ⟨_, rfl, by decide⟩ ?_ ?_
  · rw [List.cons_append]
    cases x ++ rest <;> rfl
  · have hlength := h.length_ne_zero hrest
    rw [List.cons_append] at hlength ⊢
    rw [numeralLength_eq hlength, runLength, takeWhile_word h.all hrest, List.length_cons]

theorem readAs_formula {body : Text} (h : Paired body) :
    ReadAs (some .literal) ('#'.toUInt8 :: '('.toUInt8 :: (body ++ [')'.toUInt8])) rest := by
  refine readAs_of_rule (rules.take 12) (rules.drop 13) rfl ⟨_, rfl, by decide⟩ rfl ?_
  rw [formulaLength_append h]
  simp

/-! ## Texts that stand apart -/

/-- **A text of a class that stands apart is taken as a text of this class.** For a word, the class
must be the one of the name as a whole. -/
theorem Form.taken_apart {kind : TokenKind} {rest' : Text} (h : Form (some kind) x rest)
    (hname : IsWord x → kind = identifierKind x) (hapart : Apart rest') :
    Taken (some kind) x rest' := by
  have hboundary := hapart.atBoundary
  cases h with
  | register h _ => exact (readAs_register h hboundary).toTaken
  | instruction h _ => exact (readAs_mnemonic h hboundary).toTaken
  | word h =>
    rw [hname h]
    exact taken_identifier h hboundary
  | directive h => exact (readAs_directive h hboundary).toTaken
  | label h => exact (readAs_label h hboundary).toTaken
  | registerParam h => exact (readAs_registerParam h (hapart.stops (by decide))).toTaken
  | literalParam h => exact (readAs_literalParam h (hapart.stops (by decide))).toTaken
  | string h => exact (readAs_string h).toTaken
  | comma => exact readAs_comma.toTaken
  | colon => exact readAs_colon.toTaken
  | newline h => exact taken_newline h (hapart.stops (by decide))
  | numeral h _ => exact (readAs_numeral h hboundary).toTaken
  | formula h => exact (readAs_formula h).toTaken

/-- Blanks are skipped. -/
theorem firstMatch?_blank {b : UInt8} (hb : isBlank b = true) (rest : Text) :
    ∃ n, firstMatch? (b :: rest) = some ⟨none, n⟩ := by
  simp only [isBlank, Bool.or_eq_true, beq_iff_eq] at hb
  rcases hb with ((rfl | rfl) | rfl) | rfl
  all_goals cases rest <;> exact ⟨_, rfl⟩

/-- No token starts with a blank. -/
theorem Taken.first_not_blank {kind : TokenKind} (h : Taken (some kind) x rest) :
    ∀ b ∈ x.head?, isBlank b = false := by
  intro b hb
  obtain ⟨c, more, rfl⟩ := List.exists_cons_of_ne_nil h.nonempty
  cases hb
  rw [Bool.eq_false_iff]
  intro hblank
  obtain ⟨n, hn⟩ := firstMatch?_blank hblank (more ++ rest)
  have hfirst := h.first
  rw [List.cons_append, hn] at hfirst
  cases hfirst

/-- A token whose spelling is read as this token wherever it stands apart. -/
structure Readable (t : Token) : Prop where
  taken : ∀ rest, Apart rest → Taken (some t.kind) t.spelling rest
  text : keptText t.kind t.spelling = t.text

section

variable {file source input : Text} {offset line : Nat} {found ts : List Token}

theorem Scanning.readable (h : Scanning file source offset line found input) :
    ∀ t ∈ found, t.Readable := by
  intro t ht
  obtain ⟨n, l, before, kind, x, rest, -, hx, rfl⟩ := h.origin ht
  have hspelling := hx.form.spelling file n l
  have hname : IsWord x → kind = identifierKind x := by
    rintro ⟨hb, -⟩
    exact (hx.identifier hb).1
  constructor
  · intro rest' hapart
    rw [hspelling]
    exact hx.form.taken_apart hname hapart
  · rw [hspelling]

/-! ## Tokens as text -/

/-- The spellings of tokens, with single spaces between them. -/
def respaced (ts : List Token) : Text := (utf8 " ").intercalate (ts.map spelling)

theorem respaced_cons (t u : Token) (ts : List Token) :
    respaced (t :: u :: ts) = t.spelling ++ (utf8 " " ++ respaced (u :: ts)) := by
  simp only [respaced, List.map_cons, List.intercalate_cons_cons, List.append_assoc]

theorem respaced_first {t : Token} (ht : t.Readable) (ts : List Token) :
    ∀ b ∈ (respaced (t :: ts)).head?, isBlank b = false := by
  have htaken := ht.taken [] (by simp [Apart])
  have hhead : (respaced (t :: ts)).head? = t.spelling.head? := by
    cases ts with
    | nil => simp [respaced]
    | cons u ts =>
      obtain ⟨b, more, hb⟩ := List.exists_cons_of_ne_nil htaken.nonempty
      rw [respaced_cons, hb]
      rfl
  rw [hhead]
  exact htaken.first_not_blank

/-- **Scanning goes through the text of readable tokens** and finds tokens of the same kinds and
texts. -/
theorem Scanning.respaced (h : Scanning file source offset line found (respaced ts))
    (hts : ∀ t ∈ ts, t.Readable) :
    ∃ (offset line : Nat) (us : List Token), Scanning file source offset line (found ++ us) [] ∧
      us.map (fun t => (t.kind, t.text)) = ts.map fun t => (t.kind, t.text) := by
  induction ts generalizing offset line found with
  | nil => exact ⟨offset, line, [], by simpa [Token.respaced] using h, rfl⟩
  | cons t ts ih =>
    have ht := hts t (List.mem_cons_self ..)
    cases ts with
    | nil =>
      have hlast : Scanning file source offset line found (t.spelling ++ []) := by
        simpa [Token.respaced] using h
      exact ⟨_, _, _, hlast.step (ht.taken [] (by simp [Apart])), by simp [tokensOf, ht.text]⟩
    | cons u ts =>
      rw [respaced_cons] at h
      have hapart : Apart (utf8 " " ++ Token.respaced (u :: ts)) := by
        intro b hb
        cases hb
        decide
      have hblank := readAs_blank (respaced_first (hts u (by simp)) ts)
      have hnext := (h.step (ht.taken _ hapart)).step hblank.toTaken
      obtain ⟨offset', line', us, hend, hus⟩ := ih hnext fun v hv => hts v (.tail _ hv)
      refine ⟨offset', line', tokensOf file offset line (some t.kind) t.spelling ++ us, ?_, ?_⟩
      · simpa [tokensOf] using hend
      · simpa [tokensOf, ht.text] using hus

end

/-- **The text of scanned tokens, with single spaces between them, is accepted and has tokens of the
same kinds and texts.** -/
theorem scan_respaced {file source : Text} {ts : List Token} (h : scan file source = .ok ts)
    (file' : Text) :
    ∃ us, scan file' (respaced ts) = .ok us ∧
      us.map (fun t => (t.kind, t.text)) = ts.map fun t => (t.kind, t.text) := by
  obtain ⟨offset, line, hend⟩ := scan_eq_ok.1 h
  have hstart : Scanning file' (respaced ts) 0 1 [] (respaced ts) := .start
  obtain ⟨offset', line', us, hend', hus⟩ := hstart.respaced hend.readable
  exact ⟨us, hend'.scan_ok, hus⟩

/-- A source whose tokens stand close together, with comments and lines between them. -/
def crowded : Text := utf8 "%r0r1,#1010b;x\n\r\n\t#(1+(2))r10$l:\"a; b\"@m#0b1h ; y"

theorem scan_respaced_crowded :
    ∃ ts us, scan [] crowded = .ok ts ∧
      respaced ts = utf8 "%r0 r1 , #1010b \n\r\n #(1+(2)) r10 $l : \"a; b\" @m #0b1h" ∧
      scan (utf8 "f") (respaced ts) = .ok us ∧
      us.map (fun t => (t.kind, t.text)) = ts.map fun t => (t.kind, t.text) := by
  have hscan : (scan [] crowded).toOption.map respaced =
      some (utf8 "%r0 r1 , #1010b \n\r\n #(1+(2)) r10 $l : \"a; b\" @m #0b1h") := by
    decide +kernel
  obtain ⟨ts, hts, htext⟩ := Option.map_eq_some_iff.1 hscan
  have hok := Except.toOption_eq_some.1 hts
  obtain ⟨us, hus, hsame⟩ := scan_respaced hok (utf8 "f")
  exact ⟨ts, us, hok, htext, hus, hsame⟩

end Octet.Token
