import Octet.Proofs.TokenForms
import Octet.Proofs.TokenPlaces

/-!
# The states of scanning

Scanning is a loop that takes one piece of the source after another. What holds of its results is
shown for every state of the loop, so it also holds of the tokens that are found before a fault.

* `Token.Scanning` — the states that scanning a source comes to;
* `Token.scan_eq_ok`, `Token.scan_eq_error` — **a source is accepted if scanning comes to its end,
  and rejected if it comes to a place where no rule matches**;
* `Token.Scanning.origin` — every token was taken in one of the states.
-/

namespace Octet.Token

open Text (lineFeeds)

/-- The token that bytes of a class make at a place; there is none for what is skipped. -/
def tokensOf (file : Text) (offset line : Nat) (kind : Option TokenKind) (x : Text) : List Token :=
  kind.toList.map fun kind => ⟨kind, keptText kind x, file, offset, line⟩

/-- The states that scanning a source comes to: the offset and the line, the tokens found up to
there, and what is left of the source. -/
inductive Scanning (file source : Text) : Nat → Nat → List Token → Text → Prop
  | start : Scanning file source 0 1 [] source
  | step {offset line : Nat} {found : List Token} {kind : Option TokenKind} {x rest : Text}
    (h : Scanning file source offset line found (x ++ rest)) (hx : Taken kind x rest) :
    Scanning file source (offset + x.length) (line + lineFeeds x)
      (found ++ tokensOf file offset line kind x) rest

variable {file source input : Text} {offset line : Nat} {found : List Token}

/-- One round of the loop. -/
theorem scanFrom_taken {kind : Option TokenKind} {x rest : Text} (h : Taken kind x rest)
    (file source : Text) (offset line : Nat) (found : Array Token) :
    scanFrom file source offset line found (x ++ rest) =
      scanFrom file source (offset + x.length) (line + lineFeeds x)
        (found ++ (tokensOf file offset line kind x).toArray) rest := by
  obtain ⟨b, more, rfl⟩ := List.exists_cons_of_ne_nil h.nonempty
  have hm := h.first
  rw [List.length_cons, Nat.add_sub_cancel] at hm
  rw [List.cons_append] at hm ⊢
  rw [scanFrom, hm]
  simp only [List.take_left, List.drop_left]
  congr 1
  cases kind with
  | none => simp [tokensOf]
  | some kind => simp [tokensOf]

/-- **Scanning goes on from every state that it comes to.** -/
theorem Scanning.scan_eq (h : Scanning file source offset line found input) :
    scan file source = scanFrom file source offset line found.toArray input := by
  induction h with
  | start => rfl
  | step _ hx ih => rw [ih, scanFrom_taken hx, List.append_toArray]

/-- From every state, scanning comes to the end or to a place where no rule matches. -/
theorem Scanning.ends (h : Scanning file source offset line found input) :
    (∃ offset line ts, Scanning file source offset line ts []) ∨
      ∃ offset line ts b rest, Scanning file source offset line ts (b :: rest) ∧
        firstMatch? (b :: rest) = none := by
  induction hn : input.length using Nat.strongRecOn generalizing offset line found input with
  | ind n ih =>
    cases input with
    | nil => exact .inl ⟨offset, line, found, h⟩
    | cons b rest =>
      cases hm : firstMatch? (b :: rest) with
      | none => exact .inr ⟨offset, line, found, b, rest, h, hm⟩
      | some m =>
        have hx := taken_of_firstMatch? hm
        have hnext := Scanning.step (by rw [List.cons_append, List.take_append_drop]; exact h) hx
        refine ih _ ?_ hnext rfl
        rw [← hn, List.length_drop, List.length_cons]
        omega

theorem Scanning.scan_ok (h : Scanning file source offset line found []) :
    scan file source = .ok found := by
  rw [h.scan_eq, scanFrom]

theorem Scanning.scan_error {b : UInt8} {rest : Text}
    (h : Scanning file source offset line found (b :: rest)) (hm : firstMatch? (b :: rest) = none) :
    scan file source = .error (unmatched file source offset line b rest) := by
  rw [h.scan_eq, scanFrom, hm]

/-- **A source is accepted if scanning comes to its end**, with the tokens found there. -/
theorem scan_eq_ok {ts : List Token} :
    scan file source = .ok ts ↔ ∃ offset line, Scanning file source offset line ts [] := by
  constructor
  · intro h
    have hstart : Scanning file source 0 1 [] source := .start
    obtain ⟨offset, line, us, hend⟩ | ⟨offset, line, us, b, rest, hstuck, hm⟩ := hstart.ends
    · cases hend.scan_ok.symm.trans h
      exact ⟨offset, line, hend⟩
    · cases (hstuck.scan_error hm).symm.trans h
  · rintro ⟨offset, line, hend⟩
    exact hend.scan_ok

/-- **A source is rejected if scanning comes to a place where no rule matches**, with the fault of
that place. -/
theorem scan_eq_error {f : Fault} :
    scan file source = .error f ↔
      ∃ offset line found b rest, Scanning file source offset line found (b :: rest) ∧
      firstMatch? (b :: rest) = none ∧ f = unmatched file source offset line b rest := by
  constructor
  · intro h
    have hstart : Scanning file source 0 1 [] source := .start
    obtain ⟨offset, line, us, hend⟩ | ⟨offset, line, us, b, rest, hstuck, hm⟩ := hstart.ends
    · cases hend.scan_ok.symm.trans h
    · cases (hstuck.scan_error hm).symm.trans h
      exact ⟨offset, line, us, b, rest, hstuck, hm, rfl⟩
  · rintro ⟨offset, line, us, b, rest, hstuck, hm, rfl⟩
    exact hstuck.scan_error hm

theorem Scanning.reached (h : Scanning file source offset line found input) :
    Reached source offset line input := by
  induction h with
  | start => exact Reached.start source
  | step _ _ ih =>
    have hnext := ih.advance (List.length_append ▸ Nat.le_add_right ..)
    rwa [List.take_left, List.drop_left] at hnext

theorem Reached.offset_eq (h : Reached source offset line []) : offset = source.length := by
  have hinside := h.inside
  have hlength := List.drop_eq_nil_iff.1 h.input
  omega

/-- **Every token that was found started in a state that scanning came to.** -/
theorem Scanning.origin (h : Scanning file source offset line found input) {t : Token}
    (ht : t ∈ found) :
    ∃ (offset line : Nat) (before : List Token) (kind : TokenKind) (x rest : Text),
      Scanning file source offset line before (x ++ rest) ∧ Taken (some kind) x rest ∧
        t = ⟨kind, keptText kind x, file, offset, line⟩ := by
  induction h with
  | start => cases ht
  | @step offset line before kind x rest h hx ih =>
    rcases List.mem_append.1 ht with ht | ht
    · exact ih ht
    · cases kind with
      | none => cases ht
      | some kind => exact ⟨offset, line, before, kind, x, rest, h, hx, List.mem_singleton.1 ht⟩

end Octet.Token
