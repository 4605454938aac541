import Octet.Proofs.ScanStates

/-!
# Identifiers

A token that starts with a letter or an underscore is the longest run of letters, digits and
underscores at its place. The name as a whole says which class it is of: a register, an instruction,
or else a word.

* `Token.identifierKind` — the class of a name;
* `Token.LongestRun` — the run of word bytes that an input starts with;
* `Token.taken_identifier` — **a name in front of a boundary is taken as a whole, as its class
  says**;
* `Token.identifiers_matched_whole` — **this holds at every place that scanning comes to**.
-/

namespace Octet.Token

/-- The class of a name: one that stands for a register, a mnemonic of the catalog, or a word. -/
def identifierKind (name : Text) : TokenKind :=
  if (Register.ofName? name).isSome then .register
  else if ∃ i ∈ catalog, i.mnemonic = name then .instruction
  else .word

/-- The input starts with `name`, which is the longest run of letters, digits and underscores
there. -/
structure LongestRun (input name rest : Text) : Prop where
  split : input = name ++ rest
  bytes : ∀ b ∈ name, isWordByte b = true
  ends : ∀ b ∈ rest.head?, isWordByte b = false

theorem exists_longestRun (input : Text) : ∃ name rest, LongestRun input name rest := by
  refine ⟨input.take (runLength isWordByte input), input.drop (runLength isWordByte input), ?_, ?_,
    ?_⟩
  · exact (List.take_append_drop ..).symm
  · intro b hb
    rw [take_runLength] at hb
    exact List.mem_takeWhile_imp hb
  · exact head_drop_runLength isWordByte input

theorem LongestRun.atBoundary {input name rest : Text} (h : LongestRun input name rest) :
    atBoundary rest = true :=
  atBoundary_of_head h.ends

theorem LongestRun.isWord {b : UInt8} {input name rest : Text}
    (h : LongestRun (b :: input) name rest) (hb : isWordStart b = true) : IsWord name := by
  cases name with
  | nil =>
    have hsplit := h.split
    rw [List.nil_append] at hsplit
    have hword := h.ends b (by rw [← hsplit]; rfl)
    rw [isWordByte, hb] at hword
    cases hword
  | cons c name =>
    obtain ⟨rfl, -⟩ := List.cons.inj h.split
    exact .intro hb fun d hd => h.bytes d (.tail _ hd)

/-! ## The class of a name -/

theorem isSome_ofName?_iff {name : Text} :
    (Register.ofName? name).isSome = true ↔ name ∈ registerNames := by
  have hnone : Register.ofName? name = none ↔ name ∉ registerNames := by
    rw [Register.ofName?, List.lookup_eq_none_iff, registerNames, List.mem_map]
    constructor
    · rintro h ⟨p, hp, rfl⟩
      simpa using h p hp
    · intro h p hp
      rw [bne_iff_ne]
      rintro rfl
      exact h ⟨p, hp, rfl⟩
  rw [Option.isSome_iff_ne_none, ne_eq, hnone, not_not]

theorem exists_mnemonic_iff {name : Text} :
    (∃ i ∈ catalog, i.mnemonic = name) ↔ name ∈ mnemonics := by
  rw [mnemonics, List.mem_eraseDups, List.mem_map]

theorem identifierKind_register {name : Text} (h : name ∈ registerNames) :
    identifierKind name = .register := by
  rw [identifierKind, if_pos (isSome_ofName?_iff.2 h)]

theorem identifierKind_instruction {name : Text} (h : name ∈ mnemonics) :
    identifierKind name = .instruction := by
  rw [identifierKind, if_neg, if_pos (exists_mnemonic_iff.2 h)]
  rw [isSome_ofName?_iff]
  exact not_registerName_of_mnemonic name h

theorem identifierKind_word {name : Text} (hr : name ∉ registerNames) (hm : name ∉ mnemonics) :
    identifierKind name = .word := by
  rw [identifierKind, if_neg (by rwa [isSome_ofName?_iff]), if_neg (by rwa [exists_mnemonic_iff])]

/-! ## Matching -/

theorem wordLength_append {name rest : Text} (h : IsWord name) (hrest : atBoundary rest = true) :
    wordLength (name ++ rest) = name.length := by
  cases h with
  | @intro b more hb hmore =>
    rw [List.cons_append, wordLength, if_pos hb, takeWhile_word hmore hrest, List.length_cons]

theorem readAs_word {name rest : Text} (h : IsWord name) (hr : name ∉ registerNames)
    (hm : name ∉ mnemonics) (hrest : atBoundary rest = true) : ReadAs (some .word) name rest := by
  refine readAs_of_rule (rules.take 2) (rules.drop 3) rfl ?_ ?_ (wordLength_append h hrest)
  · cases h with
    | @intro b _ hb _ =>
      have hfirst := oneLine_of_class rfl rfl (List.forall_mem_singleton.2 hb)
      exact ⟨b, rfl, hfirst b (List.mem_singleton_self b)⟩
  · show [nameLength registerNames (name ++ rest), nameLength mnemonics (name ++ rest)] = [0, 0]
    rw [nameLength_word isWordByte_of_registerName h.all hrest, if_neg hr,
      nameLength_word isWordByte_of_mnemonic h.all hrest, if_neg hm]

/-- **A name in front of a boundary is taken as a whole, as its class says.** -/
theorem taken_identifier {name rest : Text} (h : IsWord name) (hrest : atBoundary rest = true) :
    Taken (some (identifierKind name)) name rest := by
  by_cases hr : name ∈ registerNames
  · rw [identifierKind_register hr]
    exact (readAs_register hr hrest).toTaken
  · by_cases hm : name ∈ mnemonics
    · rw [identifierKind_instruction hm]
      exact (readAs_mnemonic hm hrest).toTaken
    · rw [identifierKind_word hr hm]
      exact (readAs_word h hr hm hrest).toTaken

/-- What starts with a letter or an underscore is taken up to where the name ends, and is of the
class of the name. -/
theorem Taken.identifier {kind : TokenKind} {b : UInt8} {more rest : Text}
    (h : Taken (some kind) (b :: more) rest) (hb : isWordStart b = true) :
    kind = identifierKind (b :: more) ∧ LongestRun (b :: more ++ rest) (b :: more) rest := by
  obtain ⟨name, after, hrun⟩ := exists_longestRun (b :: more ++ rest)
  have htaken := taken_identifier (hrun.isWord hb) hrun.atBoundary
  obtain ⟨hkind, rfl, rfl⟩ := h.unique htaken hrun.split
  exact ⟨Option.some.inj hkind, hrun⟩

/-! ## Scanned identifiers -/

theorem identifierKind_ne_string (name : Text) : identifierKind name ≠ .string := by
  unfold identifierKind
  split
  · decide
  · split <;> decide

theorem lineFeeds_identifier {name : Text} (h : ∀ b ∈ name, isWordByte b = true) :
    Text.lineFeeds name = 0 := by
  rw [Text.lineFeeds, List.count_eq_zero]
  intro hmem
  have hlf : isWordByte Text.lf = false := rfl
  rw [h _ hmem] at hlf
  cases hlf

/-- If the token starts like an identifier, it is the whole run at its place, of the class that the
run says. If it is a register, it has a number. -/
structure Whole (t : Token) (source : Text) : Prop where
  place : ∃ (n : Nat) (b : UInt8), t.offset = n ∧ source[n]? = some b ∧
    (isWordStart b = true →
      t.kind = identifierKind t.text ∧ ∃ rest, LongestRun (source.drop n) t.text rest)
  number : t.kind = .register → (Register.ofName? t.text).isSome = true

section

variable {file source input : Text} {offset line : Nat} {found : List Token}

theorem Scanning.whole (h : Scanning file source offset line found input) :
    ∀ t ∈ found, t.Whole source := by
  intro t ht
  obtain ⟨n, l, before, kind, x, rest, hstate, hx, rfl⟩ := h.origin ht
  have hdrop := hstate.reached.input
  obtain ⟨b, more, rfl⟩ := List.exists_cons_of_ne_nil hx.nonempty
  constructor
  · refine ⟨n, b, rfl, ?_, ?_⟩
    · rw [← Nat.add_zero n, ← List.getElem?_drop, hdrop]
      rfl
    · intro hb
      obtain ⟨rfl, hrun⟩ := hx.identifier hb
      have htext : keptText (identifierKind (b :: more)) (b :: more) = b :: more :=
        if_neg (identifierKind_ne_string _)
      rw [htext, hdrop]
      exact ⟨rfl, rest, hrun⟩
  · rintro rfl
    have hform := hx.form
    cases hform with
    | register hname _ => exact isSome_ofName?_iff.2 hname

/-- At every place that starts with a letter or an underscore, scanning finds the whole
identifier. -/
theorem Scanning.identifier {b : UInt8} {rest : Text}
    (h : Scanning file source offset line found (b :: rest)) (hb : isWordStart b = true) :
    ∃ name after, LongestRun (b :: rest) name after ∧
      Scanning file source (offset + name.length) line
        (found ++ [⟨identifierKind name, name, file, offset, line⟩]) after := by
  obtain ⟨name, after, hrun⟩ := exists_longestRun (b :: rest)
  have htaken := taken_identifier (hrun.isWord hb) hrun.atBoundary
  have hnext := Scanning.step (hrun.split ▸ h) htaken
  refine ⟨name, after, hrun, ?_⟩
  rw [lineFeeds_identifier hrun.bytes, Nat.add_zero] at hnext
  have htext : keptText (identifierKind name) name = name := if_neg (identifierKind_ne_string name)
  simpa only [tokensOf, Option.toList_some, List.map_cons, List.map_nil, htext] using hnext

end

/-- **Identifiers are matched as a whole.** Wherever scanning comes to a letter or an underscore,
the next token is the whole run of letters, digits and underscores, of the class that the run says.
So every token of an accepted source, and every token before a fault, is whole. -/
theorem identifiers_matched_whole (file source : Text) :
    (∀ (offset line : Nat) (found : List Token) (b : UInt8) (rest : Text),
      Scanning file source offset line found (b :: rest) → isWordStart b = true →
        ∃ name after, LongestRun (b :: rest) name after ∧
          Scanning file source (offset + name.length) line
            (found ++ [⟨identifierKind name, name, file, offset, line⟩]) after) ∧
      (∀ (offset line : Nat) (found : List Token) (input : Text),
        Scanning file source offset line found input → ∀ t ∈ found, t.Whole source) ∧
      ∀ ts, scan file source = .ok ts → ∀ t ∈ ts, t.Whole source := by
  refine ⟨fun _ _ _ _ _ h hb => h.identifier hb, fun _ _ _ _ h => h.whole, ?_⟩
  intro ts h
  obtain ⟨offset, line, hend⟩ := scan_eq_ok.1 h
  exact hend.whole

/-- Names that start with the name of a register or with a mnemonic. A letter beyond ASCII ends a
name. -/
theorem identifiers_matched_whole_longer_names :
    (∃ ts, scan [] (utf8 "r10 r1 orx or,_") = .ok ts ∧
      ts.map (fun t => (t.kind, t.text)) =
        [(.word, utf8 "r10"), (.register, utf8 "r1"), (.word, utf8 "orx"),
          (.instruction, utf8 "or"), (.comma, utf8 ","), (.word, utf8 "_")] ∧
      ∀ t ∈ ts, t.Whole (utf8 "r10 r1 orx or,_")) ∧
      ∃ name after, LongestRun (utf8 "r1é") name after ∧
        Scanning [] (utf8 "r1é") (0 + name.length) 1 [⟨identifierKind name, name, [], 0, 1⟩]
          after := by
  constructor
  · have hscan : (scan [] (utf8 "r10 r1 orx or,_")).toOption.map (·.map fun t => (t.kind, t.text)) =
        some [(.word, utf8 "r10"), (.register, utf8 "r1"), (.word, utf8 "orx"),
          (.instruction, utf8 "or"), (.comma, utf8 ","), (.word, utf8 "_")] := by
      decide +kernel
    obtain ⟨ts, hts, hkinds⟩ := Option.map_eq_some_iff.1 hscan
    have hok := Except.toOption_eq_some.1 hts
    exact ⟨ts, hok, hkinds, (identifiers_matched_whole [] _).2.2 ts hok⟩
  · have hstart : Scanning [] (utf8 "r1é") 0 1 [] (utf8 "r1é") := .start
    exact (identifiers_matched_whole [] (utf8 "r1é")).1 0 1 [] _ _ hstart (by decide +kernel)

end Octet.Token
