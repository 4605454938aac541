import Octet.Expansion.Macros

/-!
# Syntax without places

The gist of a piece of syntax is what is left of it when the places are taken out. Names, overload
keys and the binding of macros are a matter of the gist.

* `Arg.gist`, `Call.gist`, `Stmt.gist`, `Macro.gist`, `Item.gist`, `Node.gist` — the gists;
* `Macro.bind_gist` — **binding commutes with taking the gist**;
* `Token.outline` — the gist of a token list, in which a run of line ends counts as one;
* `Token.outline_inv`, `Token.outline_lines` — what two token lists with one outline have in common.
-/

namespace Octet

/-! ## Gists -/

/-- The token in all gists of statements. -/
def Token.blank : Token := ⟨.endOfInput, [], [], 0, 0⟩

def Arg.gist : Arg → Arg
  | register name index _ => register name index .blank
  | literal value _ => literal value .blank
  | label name _ => label name .blank
  | registerParam index _ => registerParam index .blank
  | literalParam index _ => literalParam index .blank

def Call.gist (c : Call) : Call := ⟨c.form, c.name, c.args.map Arg.gist, .blank⟩

def Stmt.gist : Stmt → Stmt
  | call c => call c.gist
  | label name _ => label name .blank

def Macro.gist (m : Macro) : Macro := ⟨m.name, m.params, m.body.map Stmt.gist, .blank⟩

def Item.gist : Item → Item
  | stmt s => stmt s.gist
  | definition m => definition m.gist

def Node.gist : Node → Node
  | item i => item i.gist
  | splice path _ => splice path .blank

/-! ## What depends on the gist only -/

theorem Arg.kind_gist (a : Arg) : a.gist.kind = a.kind := by cases a <;> rfl

theorem Arg.text_gist (a : Arg) : a.gist.text = a.text := by cases a <;> rfl

theorem Arg.isRegister_gist (a : Arg) : a.gist.isRegister = a.isRegister := by
  rw [isRegister, kind_gist, isRegister]

theorem Call.kinds_gist (c : Call) : c.gist.kinds = c.kinds := by
  simp [kinds, gist, Function.comp_def, Arg.kind_gist]

theorem Call.key_gist (c : Call) : c.gist.key = c.key := by
  rw [key, kinds_gist]
  rfl

theorem Call.words_gist (c : Call) : c.gist.words = c.words := by
  simp [words, gist, Function.comp_def, Arg.text_gist]

theorem Call.key_of_gist {c d : Call} (h : d.gist = c.gist) : d.key = c.key := by
  rw [← key_gist, h, key_gist]

theorem Call.args_of_gist {c d : Call} (h : d.gist = c.gist) :
    d.args.map Arg.gist = c.args.map Arg.gist :=
  congrArg Call.args h

theorem Macro.key_gist (m : Macro) : m.gist.key = m.key := rfl

theorem Arg.substitute_gist (registers literals : List Arg) (a : Arg) :
    a.gist.substitute (registers.map gist) (literals.map gist) =
      (a.substitute registers literals).gist := by
  have hget (args : List Arg) (i : Nat) :
      ((args.map gist)[i]?).getD a.gist = ((args[i]?).getD a).gist := by
    rw [List.getElem?_map]
    cases args[i]? <;> rfl
  cases a with
  | registerParam index t =>
    simp only [substitute, gist]
    split
    · exact hget registers index.toNat
    · rfl
  | literalParam index t =>
    simp only [substitute, gist]
    split
    · exact hget literals index.toNat
    · rfl
  | _ => rfl

/-- **Binding commutes with taking the gist.** -/
theorem Macro.bind_gist (m : Macro) (args : List Arg) :
    m.gist.bind (args.map Arg.gist) = (m.bind args).map Stmt.gist := by
  have hfilter (p : Arg → Bool) (hp : ∀ a, p a.gist = p a) :
      (args.map Arg.gist).filter p = (args.filter p).map Arg.gist := by
    rw [List.filter_map]
    exact congrArg (List.map Arg.gist) (List.filter_congr fun a _ => hp a)
  simp only [Macro.bind, gist, List.map_map]
  rw [hfilter _ Arg.isRegister_gist, hfilter _ fun a => by rw [Arg.isRegister_gist]]
  apply List.map_congr_left
  intro s _
  cases s with
  | label name t => rfl
  | call c => simp [Stmt.gist, Call.gist, Function.comp_def, Arg.substitute_gist]

/-! ## Inversions -/

theorem Stmt.gist_eq_label {s : Stmt} {name : Text} {t : Token} (h : s.gist = (label name t).gist) :
    ∃ u, s = label name u := by
  cases s with
  | call c => cases h
  | label n u =>
    cases h
    exact ⟨u, rfl⟩

theorem Stmt.gist_eq_call {s : Stmt} {c : Call} (h : s.gist = (call c).gist) :
    ∃ d, s = call d ∧ d.gist = c.gist := by
  cases s with
  | call d => exact ⟨d, rfl, Stmt.call.inj h⟩
  | label n u => cases h

theorem Node.gist_eq_item {n : Node} {i : Item} (h : n.gist = (item i).gist) :
    ∃ j, n = item j ∧ j.gist = i.gist := by
  cases n with
  | item j => exact ⟨j, rfl, Node.item.inj h⟩
  | splice path t => cases h

theorem Node.gist_eq_splice {n : Node} {path : Text} {t : Token}
    (h : n.gist = (splice path t).gist) :
    ∃ u, n = splice path u := by
  cases n with
  | item j => cases h
  | splice path u =>
    cases h
    exact ⟨u, rfl⟩

/-! ## Token lists -/

namespace Token

/-- A token without its place. How a line end is written does not matter. -/
def gist (t : Token) : Token := ⟨t.kind, if t.kind = .newline then [] else t.text, [], 0, 0⟩

theorem kind_of_gist {t u : Token} (h : u.gist = t.gist) : u.kind = t.kind := by
  show u.gist.kind = t.gist.kind
  rw [h]

theorem text_of_gist {t u : Token} (h : u.gist = t.gist) (ht : t.kind ≠ .newline) :
    u.text = t.text := by
  have htext : u.gist.text = t.gist.text := by rw [h]
  simpa only [gist, kind_of_gist h, ht, if_false] using htext

/-- A token list that starts with a line end. -/
def startsLine (ts : List Token) : Prop := ts.head?.map Token.kind = some .newline

instance (ts : List Token) : Decidable (startsLine ts) := inferInstanceAs (Decidable (_ = _))

/-- The gists of a token list. Of line ends that follow each other only the last is kept. -/
def outline : List Token → List Token
  | [] => []
  | t :: ts =>
    if t.kind = .newline ∧ startsLine (outline ts) then outline ts else t.gist :: outline ts

variable {t u : Token} {ts us : List Token}

theorem outline_cons (ht : t.kind ≠ .newline) : outline (t :: ts) = t.gist :: outline ts := by
  rw [outline, if_neg fun h => ht h.1]

/-- The outline starts with a token of the same class. -/
theorem head_outline (ts : List Token) :
    (outline ts).head?.map Token.kind = ts.head?.map Token.kind := by
  cases ts with
  | nil => rfl
  | cons t ts =>
    rw [outline]
    split
    · rename_i h
      rw [h.2, List.head?_cons, Option.map_some, h.1]
    · rfl

theorem outline_append (ts : List Token) (h : outline us = outline vs) :
    outline (ts ++ us) = outline (ts ++ vs) := by
  induction ts with
  | nil => exact h
  | cons t ts ih => rw [List.cons_append, List.cons_append, outline, outline, ih]

theorem outline_newlines (ht : t.kind = .newline) (hu : u.kind = .newline) :
    outline (t :: u :: ts) = outline (u :: ts) := by
  have hs : startsLine (outline (u :: ts)) := by
    rw [startsLine, head_outline, List.head?_cons, Option.map_some, hu]
  rw [outline, if_pos ⟨ht, hs⟩]

/-- A list with the outline of one that starts with a token other than a line end starts with such a
token, too. -/
theorem outline_inv (h : outline us = outline (t :: ts)) (ht : t.kind ≠ .newline) :
    ∃ u vs, us = u :: vs ∧ u.gist = t.gist ∧ outline vs = outline ts := by
  rw [outline_cons ht] at h
  cases us with
  | nil => cases h
  | cons u vs =>
    have hu : u.kind = t.kind := by
      have hhead := head_outline (u :: vs)
      rw [h] at hhead
      exact (Option.some.inj hhead).symm
    rw [outline_cons (by rw [hu]; exact ht)] at h
    obtain ⟨hg, ho⟩ := List.cons.inj h
    exact ⟨u, vs, rfl, hg, ho⟩

/-- A list with the outline of one that starts with a line end has the outline of what follows after
some line ends. -/
theorem outline_lines (h : outline us = outline (t :: ts)) (ht : t.kind = .newline) :
    ∃ lines vs, us = lines ++ vs ∧ (∀ l ∈ lines, l.kind = .newline) ∧ outline vs = outline ts := by
  by_cases hs : startsLine (outline ts)
  · rw [outline, if_pos ⟨ht, hs⟩] at h
    exact ⟨[], us, rfl, by simp, h⟩
  · rw [outline, if_neg fun hc => hs hc.2] at h
    -- All line ends at the start of the list stand for the one line end.
    induction us with
    | nil => cases h
    | cons u vs ih =>
      have hu : u.kind = .newline := by
        have hhead := head_outline (u :: vs)
        rw [h] at hhead
        rw [← ht]
        exact (Option.some.inj hhead).symm
      rw [outline] at h
      split at h
      · obtain ⟨lines, ws, rfl, hlines, ho⟩ := ih h
        refine ⟨u :: lines, ws, rfl, ?_, ho⟩
        intro l hl
        rcases List.mem_cons.1 hl with rfl | hl
        · exact hu
        · exact hlines l hl
      · exact ⟨[u], vs, rfl, by simpa using hu, (List.cons.inj h).2⟩

end Token

end Octet
