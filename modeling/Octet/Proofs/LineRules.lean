import Mathlib.Data.List.Find
import Octet.Token.Rule

/-!
# Lexical rules look at one line

A token other than a line end does not reach past its line, and what a rule takes does not depend on
the lines that follow.

* `Token.LineLocal` — a rule that takes nothing at a line end and never looks past one;
* `Token.lineLocal_of_mem` — **every rule but the one for line ends is of this kind**;
* `Token.firstMatch?_append` — the first match is therefore the same with and without the lines that
  follow;
* `Token.firstMatch?_lineEnd` — at a line end, the match is the whole run of line ends.
-/

namespace Octet.Token

open Text (isLineEnd)

/-- A rule that takes no more than there is, and the same whether the line is the last or others
follow. -/
structure LineLocal (length : Text → Nat) : Prop where
  le : ∀ x, length x ≤ x.length
  append : ∀ x e y, isLineEnd e = true → length (x ++ e :: y) = length x

/-! ## Bytes that end a line -/

/-- A class that holds neither byte that ends a line holds no line end. -/
theorem not_of_lineEnd {p : UInt8 → Bool} {e : UInt8} (hcr : p Text.cr = false)
    (hlf : p Text.lf = false) (he : isLineEnd e = true) : p e = false := by
  rw [isLineEnd, Bool.or_eq_true, beq_iff_eq, beq_iff_eq] at he
  rcases he with rfl | rfl
  · exact hcr
  · exact hlf

theorem isWordByte_lineEnd {e : UInt8} (he : isLineEnd e = true) : isWordByte e = false :=
  not_of_lineEnd rfl rfl he

theorem beq_lineEnd {mark e : UInt8} (hm : isLineEnd mark = false) (he : isLineEnd e = true) :
    (e == mark) = false := by
  rw [beq_eq_false_iff_ne]
  rintro rfl
  rw [hm] at he
  cases he

variable {e : UInt8} {y : Text}

/-- A run of a class without line ends stays on its line. -/
theorem takeWhile_append_lineEnd {p : UInt8 → Bool} (hp : p e = false) (x : Text) :
    (x ++ e :: y).takeWhile p = x.takeWhile p := by
  rw [List.takeWhile_append, List.takeWhile_cons_of_neg (by simp [hp]), List.append_nil]
  split
  · rename_i hall
    exact ((List.takeWhile_prefix p).eq_of_length hall).symm
  · rfl

theorem isPrefixOf_append_lineEnd {name : Text} (hn : ∀ c ∈ name, isLineEnd c = false)
    (he : isLineEnd e = true) (x : Text) : name.isPrefixOf (x ++ e :: y) = name.isPrefixOf x := by
  induction name generalizing x with
  | nil => simp
  | cons c name ih =>
    have hc : (e == c) = false := beq_lineEnd (hn c (List.mem_cons_self ..)) he
    have hc' : (c == e) = false := by rw [beq_eq_false_iff_ne] at hc ⊢; exact hc.symm
    cases x with
    | nil => simp [List.isPrefixOf, hc']
    | cons b x => simp [List.isPrefixOf, ih (fun d hd => hn d (.tail _ hd))]

/-- A line end is a word boundary, as is the end of the input. -/
theorem atBoundary_drop_append (he : isLineEnd e = true) {x : Text} {n : Nat} (hn : n ≤ x.length) :
    atBoundary ((x ++ e :: y).drop n) = atBoundary (x.drop n) := by
  rw [List.drop_append_of_le_length hn]
  cases x.drop n with
  | nil => simp [atBoundary, isWordByte_lineEnd he]
  | cons b _ => rfl

/-! ## The rules -/

theorem lineLocal_run {p : UInt8 → Bool} (hp : ∀ e, isLineEnd e = true → p e = false) :
    LineLocal (runLength p) where
  le x := (List.takeWhile_prefix p).length_le
  append x e y he := by rw [runLength, takeWhile_append_lineEnd (hp e he), runLength]

theorem lineLocal_name {names : List Text} (hn : ∀ name ∈ names, ∀ c ∈ name, isLineEnd c = false) :
    LineLocal (nameLength names) where
  le x := by
    unfold nameLength
    split
    · rename_i name hfind
      have h := List.find?_some hfind
      rw [Bool.and_eq_true, List.isPrefixOf_iff_prefix] at h
      exact h.1.length_le
    · exact Nat.zero_le _
  append x e y he := by
    have hsame : ∀ name ∈ names,
        (name.isPrefixOf (x ++ e :: y) && atBoundary ((x ++ e :: y).drop name.length)) =
          (name.isPrefixOf x && atBoundary (x.drop name.length)) := by
      intro name hmem
      rw [isPrefixOf_append_lineEnd (hn name hmem) he]
      cases hpre : name.isPrefixOf x with
      | false => rfl
      | true =>
        rw [atBoundary_drop_append he (List.isPrefixOf_iff_prefix.1 hpre).length_le]
    unfold nameLength
    rw [List.find?_congr hsame]

theorem lineLocal_word : LineLocal wordLength where
  le
    | [] => Nat.le_refl _
    | b :: x => by
      have := (lineLocal_run fun _ => isWordByte_lineEnd).le x
      simp only [runLength] at this
      simp only [wordLength, List.length_cons]
      split <;> omega
  append
    | [], e, y, he => by
      have : isWordStart e = false := not_of_lineEnd rfl rfl he
      simp [wordLength, this]
    | b :: x, e, y, he => by
      rw [List.cons_append, wordLength, wordLength,
        takeWhile_append_lineEnd (isWordByte_lineEnd he)]

theorem lineLocal_markedWord {mark : Char} (hm : isLineEnd mark.toUInt8 = false) :
    LineLocal (markedWordLength mark) where
  le
    | [] => Nat.le_refl _
    | b :: x => by
      have := lineLocal_word.le x
      simp only [markedWordLength, List.length_cons]
      split
      · split <;> omega
      · omega
  append
    | [], e, y, he => by simp [markedWordLength, beq_lineEnd hm he]
    | b :: x, e, y, he => by
      rw [List.cons_append, markedWordLength, markedWordLength, lineLocal_word.append x e y he]

theorem lineLocal_param {letter : Char} (hl : isLineEnd letter.toUInt8 = false) :
    LineLocal (paramLength letter) where
  le
    | [] => Nat.le_refl _
    | [_] => Nat.zero_le _
    | b :: c :: x => by
      have := (List.takeWhile_prefix Text.isDigit (l := x)).length_le
      simp only [paramLength, List.length_cons]
      split
      · split <;> omega
      · omega
  append
    | [], e, [], he => rfl
    | [], e, c :: y, he => by
      have hp : (e == '%'.toUInt8) = false := beq_lineEnd rfl he
      simp [paramLength, hp]
    | [b], e, y, he => by simp [paramLength, beq_lineEnd hl he]
    | b :: c :: x, e, y, he => by
      have hd : Text.isDigit e = false := not_of_lineEnd rfl rfl he
      rw [List.cons_append, List.cons_append, paramLength, paramLength, takeWhile_append_lineEnd hd]

theorem lineLocal_string : LineLocal stringLength where
  le
    | [] => Nat.le_refl _
    | b :: x => by
      simp only [stringLength, List.length_cons]
      split
      · split
        · rename_i c rest hdrop
          have := congrArg List.length hdrop
          rw [List.length_drop, List.length_cons] at this
          split <;> omega
        · omega
      · omega
  append
    | [], e, y, he => by
      have : (e == quoteMark) = false := beq_lineEnd rfl he
      simp [stringLength, this]
    | b :: x, e, y, he => by
      have hq : (e == quoteMark) = false := beq_lineEnd rfl he
      have hbody : ((x ++ e :: y).takeWhile fun c => c != quoteMark && !isLineEnd c) =
          x.takeWhile fun c => c != quoteMark && !isLineEnd c :=
            takeWhile_append_lineEnd (by simp [he]) x
      simp only [List.cons_append, stringLength, hbody]
      rw [List.drop_append_of_le_length (List.takeWhile_prefix _).length_le]
      -- A string that is open at the end of the line is no string.
      cases x.drop (x.takeWhile fun c => c != quoteMark && !isLineEnd c).length with
      | nil => simp [hq]
      | cons c _ => rfl

theorem lineLocal_byte {mark : Char} (hm : isLineEnd mark.toUInt8 = false) :
    LineLocal (byteLength mark) where
  le
    | [] => Nat.le_refl _
    | b :: x => by
      simp only [byteLength, List.length_cons]
      split <;> omega
  append
    | [], e, y, he => by simp [byteLength, beq_lineEnd hm he]
    | b :: x, e, y, he => rfl

theorem lineLocal_digits {isDigit : UInt8 → Bool} {suffix : Text}
    (hd : ∀ e, isLineEnd e = true → isDigit e = false) (hs : ∀ c ∈ suffix, isLineEnd c = false) :
    LineLocal (digitsLength isDigit suffix) where
  le x := by
    have := (lineLocal_run hd).le x
    simp only [digitsLength]
    split
    · omega
    · rename_i n hn
      split
      · rename_i hsuf
        rw [Bool.and_eq_true, List.isPrefixOf_iff_prefix] at hsuf
        have := hsuf.1.length_le
        rw [List.length_drop] at this
        omega
      · omega
  append x e y he := by
    have hle := (lineLocal_run hd).le x
    simp only [digitsLength, (lineLocal_run hd).append x e y he]
    split
    · rfl
    · rename_i n hn
      rw [List.drop_append_of_le_length (by omega), isPrefixOf_append_lineEnd hs he]
      cases hpre : suffix.isPrefixOf (x.drop (n + 1)) with
      | false => rfl
      | true => rw [atBoundary_drop_append he (List.isPrefixOf_iff_prefix.1 hpre).length_le]

theorem lineLocal_hexDigits : LineLocal (digitsLength Text.isHexDigit (utf8 "h")) :=
  lineLocal_digits (fun _ => not_of_lineEnd rfl rfl) (by decide +kernel)

theorem lineLocal_binaryDigits : LineLocal (digitsLength isBinaryDigit (utf8 "b")) :=
  lineLocal_digits (fun _ => not_of_lineEnd rfl rfl) (by decide +kernel)

theorem lineLocal_decimalDigits : LineLocal (digitsLength Text.isDigit []) :=
  lineLocal_digits (fun _ => not_of_lineEnd rfl rfl) (by simp)

theorem lineLocal_numeral : LineLocal numeralLength where
  le
    | [] => Nat.le_refl _
    | b :: x => by
      have := lineLocal_hexDigits.le x
      have := lineLocal_binaryDigits.le x
      have := lineLocal_decimalDigits.le x
      simp only [numeralLength, List.length_cons]
      split
      · split
        · omega
        · split
          · omega
          · split <;> omega
      · omega
  append
    | [], e, y, he => by
      have hh : (e == '#'.toUInt8) = false := beq_lineEnd rfl he
      simp [numeralLength, hh]
    | b :: x, e, y, he => by
      rw [List.cons_append, numeralLength, numeralLength, lineLocal_hexDigits.append x e y he,
        lineLocal_binaryDigits.append x e y he, lineLocal_decimalDigits.append x e y he]

theorem closing?_le {taken depth n : Nat} {x : Text} (h : closing? taken depth x = some n) :
    n ≤ taken + x.length := by
  fun_induction closing? taken depth x with
  | case1 => cases h
  | case2 _ _ _ _ _ ih =>
    have := ih h
    simp only [List.length_cons]
    omega
  | case3 =>
    cases h
    simp only [List.length_cons]
    omega
  | case4 _ _ _ _ _ _ _ ih =>
    have := ih h
    simp only [List.length_cons]
    omega
  | case5 => cases h
  | case6 _ _ _ _ _ _ _ ih =>
    have := ih h
    simp only [List.length_cons]
    omega

theorem closing?_append (he : isLineEnd e = true) (taken depth : Nat) (x : Text) :
    closing? taken depth (x ++ e :: y) = closing? taken depth x := by
  induction x generalizing taken depth with
  | nil =>
    have hopen : (e == '('.toUInt8) = false := beq_lineEnd rfl he
    have hclose : (e == ')'.toUInt8) = false := beq_lineEnd rfl he
    simp [closing?, hopen, hclose, he]
  | cons b x ih => simp only [List.cons_append, closing?, ih]

theorem lineLocal_formula : LineLocal formulaLength where
  le
    | [] => Nat.le_refl _
    | [_] => Nat.zero_le _
    | b :: c :: x => by
      simp only [formulaLength, List.length_cons]
      split
      · cases h : closing? 2 1 x with
        | none => exact Nat.zero_le _
        | some n =>
          have := closing?_le h
          simp only [Option.getD_some]
          omega
      · omega
  append
    | [], e, [], he => rfl
    | [], e, c :: y, he => by
      have hh : (e == '#'.toUInt8) = false := beq_lineEnd rfl he
      simp [formulaLength, hh]
    | [b], e, y, he => by
      have hp : (e == '('.toUInt8) = false := beq_lineEnd rfl he
      simp [formulaLength, hp]
    | b :: c :: x, e, y, he => by
      rw [List.cons_append, List.cons_append, formulaLength, formulaLength, closing?_append he]

theorem lineLocal_comment : LineLocal commentLength where
  le
    | [] => Nat.le_refl _
    | b :: x => by
      have := (List.takeWhile_prefix (fun c => !isLineEnd c) (l := x)).length_le
      simp only [commentLength, runLength, List.length_cons]
      split <;> omega
  append
    | [], e, y, he => by
      have hs : (e == ';'.toUInt8) = false := beq_lineEnd rfl he
      simp [commentLength, hs]
    | b :: x, e, y, he => by
      rw [List.cons_append, commentLength, commentLength, runLength,
        takeWhile_append_lineEnd (by simp [he]), runLength]

/-- **Every rule but the one for line ends looks at one line only.** -/
theorem lineLocal_of_mem {r : Rule} (h : r ∈ rules) :
    r = ⟨some .newline, runLength isLineEnd⟩ ∨ LineLocal r.length := by
  simp only [rules, List.mem_cons, List.not_mem_nil, or_false] at h
  rcases h with
    rfl | rfl | rfl | rfl | rfl | rfl | rfl | rfl | rfl | rfl | rfl | rfl | rfl | rfl | rfl
  · exact .inr (lineLocal_name (by decide +kernel))
  · exact .inr (lineLocal_name (by decide +kernel))
  · exact .inr lineLocal_word
  · exact .inr (lineLocal_markedWord rfl)
  · exact .inr (lineLocal_markedWord rfl)
  · exact .inr (lineLocal_param rfl)
  · exact .inr (lineLocal_param rfl)
  · exact .inr lineLocal_string
  · exact .inr (lineLocal_byte rfl)
  · exact .inr (lineLocal_byte rfl)
  · exact .inl rfl
  · exact .inr lineLocal_numeral
  · exact .inr lineLocal_formula
  · exact .inr lineLocal_comment
  · exact .inr (lineLocal_run fun _ => not_of_lineEnd rfl rfl)

/-! ## The first match -/

theorem match?_lineEnd {r : Rule} (hr : LineLocal r.length) {e : UInt8} (he : isLineEnd e = true)
    (y : Text) :
    r.match? (e :: y) = none := by
  have hnil : r.length [] = 0 := Nat.le_zero.1 (hr.le [])
  have h : r.length (e :: y) = 0 := by rw [← hnil, ← hr.append [] e y he, List.nil_append]
  simp [Rule.match?, h]

/-- At a line end, the match is the whole run of line ends. -/
theorem firstMatch?_lineEnd {e : UInt8} (he : isLineEnd e = true) (y : Text) :
    firstMatch? (e :: y) = some ⟨some .newline, (y.takeWhile isLineEnd).length⟩ := by
  have hkind : ∀ r ∈ rules.take 10, r.kind ≠ some .newline := by decide
  rw [firstMatch?, List.findSome?_eq_some_iff]
  refine ⟨rules.take 10, ⟨some .newline, runLength isLineEnd⟩, rules.drop 11, rfl, ?_, ?_⟩
  · simp only [Rule.match?, runLength, List.takeWhile_cons_of_pos he, List.length_cons]
  · intro r hr
    rcases lineLocal_of_mem (List.mem_of_mem_take hr) with rfl | hlocal
    · exact absurd rfl (hkind _ hr)
    · exact match?_lineEnd hlocal he y

/-- **The first match is the same with and without the lines that follow.** -/
theorem firstMatch?_append {b e : UInt8} (hb : isLineEnd b = false) (he : isLineEnd e = true)
    (x y : Text) :
    firstMatch? (b :: (x ++ e :: y)) = firstMatch? (b :: x) := by
  have hsame : ∀ r ∈ rules, r.match? (b :: (x ++ e :: y)) = r.match? (b :: x) := by
    intro r hr
    rcases lineLocal_of_mem hr with rfl | hlocal
    · simp [Rule.match?, runLength, hb]
    · rw [Rule.match?, ← List.cons_append, hlocal.append _ _ _ he, Rule.match?]
  have hall := List.map_congr_left hsame
  rw [firstMatch?, firstMatch?]
  simpa [List.findSome?_map] using congrArg (List.findSome? id) hall

/-- A match takes no more than there is. -/
theorem more_le {b : UInt8} {x : Text} {m : Match} (h : firstMatch? (b :: x) = some m) :
    m.more ≤ x.length := by
  obtain ⟨r, hr, hm⟩ := List.exists_of_findSome?_eq_some h
  have hle : r.length (b :: x) ≤ x.length + 1 := by
    rcases lineLocal_of_mem hr with rfl | hlocal
    · exact (List.takeWhile_prefix isLineEnd).length_le
    · exact hlocal.le (b :: x)
  unfold Rule.match? at hm
  split at hm
  · cases hm
  · cases hm
    simp only
    omega

end Octet.Token
