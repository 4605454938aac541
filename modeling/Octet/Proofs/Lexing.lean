import Octet.Proofs.Gist
import Octet.Proofs.LineRules
import Octet.Proofs.Outcome
import Octet.Token.Scan

/-!
# Tokens line by line

Scanning a source is scanning its lines. The statement that is composed most easily speaks of
lexemes: tokens without places, one for each byte that ends a line.

* `Token.lexemes` — the lexemes of a text;
* `Token.lexemes_append` — **the lexemes of two texts with a line end between them are the lexemes
  of both**;
* `Token.scan_outline` — a scanned source has the outline of its lexemes, whatever the source is
  called.
-/

namespace Octet.Token

open Text (isLineEnd)

/-- The line end as a lexeme. -/
def lineBreak : Token := ⟨.newline, [], [], 0, 0⟩

/-- What a match adds to the lexemes: nothing for blanks and comments. -/
def lexeme (m : Match) (bytes : Text) : List Token :=
  m.kind.toList.map fun kind => ⟨kind, keptText kind bytes, [], 0, 0⟩

/-- The lexemes of a text. -/
def lexemes (input : Text) : Option (List Token) :=
  match input with
  | [] => some []
  | b :: rest =>
    if isLineEnd b then (lexemes rest).map (lineBreak :: ·)
    else
      match firstMatch? (b :: rest) with
      | none => none
      | some m => (lexemes (rest.drop m.more)).map (lexeme m (b :: rest.take m.more) ++ ·)
termination_by input.length
decreasing_by
  · exact Nat.lt_succ_self _
  · simp only [List.length_drop, List.length_cons]
    omega

variable {b : UInt8} {rest : Text}

theorem lexemes_nil : lexemes [] = some [] := by rw [lexemes]

theorem lexemes_lineEnd (hb : isLineEnd b = true) :
    lexemes (b :: rest) = (lexemes rest).map (lineBreak :: ·) := by
  rw [lexemes, if_pos hb]

theorem lexemes_none (hb : isLineEnd b = false) (hm : firstMatch? (b :: rest) = none) :
    lexemes (b :: rest) = none := by
  rw [lexemes, if_neg (by simp [hb]), hm]

theorem lexemes_some (hb : isLineEnd b = false) {m : Match}
    (hm : firstMatch? (b :: rest) = some m) :
    lexemes (b :: rest) =
      (lexemes (rest.drop m.more)).map (lexeme m (b :: rest.take m.more) ++ ·) := by
  rw [lexemes, if_neg (by simp [hb]), hm]

/-- **The lexemes of two texts with a line end between them are the lexemes of both.** -/
theorem lexemes_append {e : UInt8} (he : isLineEnd e = true) (x y : Text) :
    lexemes (x ++ e :: y) =
      (lexemes x).bind fun ts => (lexemes y).map fun us => ts ++ lineBreak :: us := by
  fun_induction lexemes x with
  | case1 => simp [lexemes_lineEnd he]
  | case2 b rest hb ih =>
    rw [List.cons_append, lexemes_lineEnd hb, ih]
    cases lexemes rest <;> cases lexemes y <;> rfl
  | case3 b rest hb hm =>
    have hb : isLineEnd b = false := by simpa using hb
    rw [List.cons_append, lexemes_none hb (by rw [firstMatch?_append hb he, hm])]
    rfl
  | case4 b rest hb m hm ih =>
    have hb : isLineEnd b = false := by simpa using hb
    have hle := more_le hm
    rw [List.cons_append, lexemes_some hb (by rw [firstMatch?_append hb he, hm]),
      List.drop_append_of_le_length hle, List.take_append_of_le_length hle, ih]
    cases lexemes (rest.drop m.more) <;> cases lexemes y <;> simp

/-! ## Scanning -/

theorem outline_cons_congr {t u : Token} {ts us : List Token} (h : t.gist = u.gist)
    (ho : outline ts = outline us) :
    outline (t :: ts) = outline (u :: us) := by
  rw [outline, outline, kind_of_gist h, h, ho]

/-- A text starts with as many line breaks as bytes that end a line. -/
theorem lexemes_run (x : Text) :
    lexemes x = (lexemes (x.drop (x.takeWhile isLineEnd).length)).map
      (List.replicate (x.takeWhile isLineEnd).length lineBreak ++ ·) := by
  induction x with
  | nil => simp [lexemes_nil]
  | cons b x ih =>
    by_cases hb : isLineEnd b = true
    · rw [lexemes_lineEnd hb, List.takeWhile_cons_of_pos hb, List.length_cons, List.drop_succ_cons,
        List.replicate_succ, ih, Option.map_map]
      rfl
    · rw [List.takeWhile_cons_of_neg hb]
      simp

/-- A run of line breaks is one line break in the outline. -/
theorem outline_run (n : Nat) (ts : List Token) :
    outline (lineBreak :: (List.replicate n lineBreak ++ ts)) = outline (lineBreak :: ts) := by
  induction n with
  | zero => rfl
  | succ n ih => rw [List.replicate_succ, List.cons_append, outline_newlines rfl rfl, ih]

theorem scanFrom_outline (file source : Text) (offset line : Nat) (found : Array Token)
    (input : Text) :
    (scanFrom file source offset line found input).toOption.map outline =
      (lexemes input).map fun ts => outline (found.toList ++ ts) := by
  fun_induction scanFrom file source offset line found input with
  | case1 => simp [lexemes_nil, Except.toOption]
  | case2 offset line found b rest hm =>
    by_cases hb : isLineEnd b = true
    · rw [firstMatch?_lineEnd hb] at hm
      cases hm
    · rw [lexemes_none (by simpa using hb) hm]
      rfl
  | case3 offset line found b rest m hm bytes found' ih =>
    rw [ih]
    by_cases hb : isLineEnd b = true
    · rw [firstMatch?_lineEnd hb] at hm
      cases hm
      rw [lexemes_lineEnd hb, lexemes_run rest, Option.map_map, Option.map_map]
      apply Option.map_congr
      intro ts _
      simp only [found', Array.toList_push, List.append_assoc, Function.comp_apply,
        List.singleton_append]
      apply outline_append
      rw [outline_run]
      exact outline_cons_congr rfl rfl
    · rw [lexemes_some (by simpa using hb) hm, Option.map_map]
      apply Option.map_congr
      intro ts _
      cases hk : m.kind with
      | none => simp [found', hk, lexeme]
      | some kind =>
        simp only [found', hk, lexeme, Array.toList_push, List.append_assoc, Function.comp_apply,
          Option.toList_some, List.map_cons, List.map_nil, List.singleton_append]
        apply outline_append
        exact outline_cons_congr rfl rfl

/-- **A scanned source has the outline of its lexemes**, whatever the source is called. -/
theorem scan_outline (file source : Text) :
    (scan file source).toOption.map outline = (lexemes source).map outline := by
  rw [scan, scanFrom_outline]
  rfl

end Octet.Token
