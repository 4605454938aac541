import Octet.Proofs.Outcome
import Octet.Statement.Parse

/-!
# The grammar of sources

What the parser accepts, said without the parser: one relation for each kind of phrase, between the
tokens, what is read from them and the tokens that are left. The relations do not know how faults
are reported: of a parser they have only its formulas.

* `Grammar.Argument`, `Grammar.Listed` — arguments and comma separated lists up to the end of a
  line;
* `Grammar.Statement`, `Grammar.Body`, `Grammar.Definition`, `Grammar.Element` — the phrases;
* `Grammar.Source` — all nodes of a token list;
* `Grammar.readNodes_eq_ok` — **the parser reads exactly the nodes that the grammar gives**.
-/

namespace Octet.Grammar

/-! ## Phrases -/

/-- The line ends before these tokens. -/
def LineEnds (ts : List Token) : Prop := ∀ t ∈ ts.head?, t.kind.endsLine = true

/-- At least one item, separated by commas, up to the end of the line. -/
inductive Separated {α : Type} (item : Token → α → Prop) : List Token → List α → List Token → Prop
  | last {t : Token} {a : α} {rest : List Token} (h : item t a) (hend : LineEnds rest) :
    Separated item (t :: rest) [a] rest
  | more {t comma : Token} {a : α} {rest left : List Token} {items : List α} (h : item t a)
    (hcomma : comma.kind = .comma) (hrest : Separated item rest items left) :
    Separated item (t :: comma :: rest) (a :: items) left

/-- Items, if any, separated by commas, up to the end of the line. -/
inductive Listed {α : Type} (item : Token → α → Prop) : List Token → List α → List Token → Prop
  | empty {ts : List Token} (hend : LineEnds ts) : Listed item ts [] ts
  | items {ts left : List Token} {items : List α} (h : Separated item ts items left) :
    Listed item ts items left

/-- The value of a literal, if it has one: digits in a base, or a formula in parentheses. -/
def literalValue? (formulas : Formulas) (text : Text) : Option UInt32 :=
  let body := text.drop 1
  if body.head? = some '('.toUInt8 then (formulas.literal (body.drop 1).dropLast).toOption
  else
    match Text.natOfDigits? (Parser.literalDigits body).1 (Parser.literalDigits body).2 with
    | some n => if n ≤ Formula.largest then some n.toUInt32 else none
    | none => none

/-- An argument. Parameters stand only where there are `slots`, and within them. -/
inductive Argument (formulas : Formulas) (slots : Option Slots) (t : Token) : Arg → Prop
  | register (hk : t.kind = .register) :
    Argument formulas slots t (.register t.text ((Register.ofName? t.text).getD .r0) t)
  | literal {value : UInt32} (hk : t.kind = .literal)
    (hv : literalValue? formulas t.text = some value) :
    Argument formulas slots t (.literal value t)
  | label (hk : t.kind = .label) : Argument formulas slots t (.label (t.text.drop 1) t)
  | registerParam {s : Slots} {i : Int} (hk : t.kind = .registerParam) (hs : slots = some s)
    (hi : Parser.paramNumber? (t.text.drop 2) = some i) (hlt : i < s.registers) :
    Argument formulas slots t (.registerParam i t)
  | literalParam {s : Slots} {i : Int} (hk : t.kind = .literalParam) (hs : slots = some s)
    (hi : Parser.paramNumber? (t.text.drop 2) = some i) (hlt : i < s.literals) :
    Argument formulas slots t (.literalParam i t)

/-- The class of the tokens that name calls of a form. -/
def nameKind : CallForm → TokenKind
  | .mnemonic => .instruction
  | .word => .word

/-- A call with its arguments, or a label. -/
inductive Statement (formulas : Formulas) (slots : Option Slots) :
    List Token → Stmt → List Token → Prop
  | call {t : Token} {form : CallForm} {rest left : List Token} {args : List Arg}
    (hk : t.kind = nameKind form)
    (h : Listed (Argument formulas slots) rest args left) :
    Statement formulas slots (t :: rest) (.call ⟨form, t.text, args, t⟩) left
  | label {t colon : Token} {rest : List Token} (hk : t.kind = .label) (hc : colon.kind = .colon) :
    Statement formulas slots (t :: colon :: rest) (.label (t.text.drop 1) t) rest

/-- A parameter that a macro declares. -/
inductive Parameter (t : Token) : ArgKind → Prop
  | register (hk : t.kind = .registerParam) : Parameter t .register
  | literal (hk : t.kind = .literalParam) : Parameter t .literal

/-- The body of a macro up to its end. -/
inductive Body (formulas : Formulas) (slots : Slots) : List Token → List Stmt → List Token → Prop
  | close {t : Token} {rest : List Token} (hk : t.kind = .directive)
    (ht : t.text = utf8 "@endmacro") :
    Body formulas slots (t :: rest) [] rest
  | newline {t : Token} {rest left : List Token} {body : List Stmt} (hk : t.kind = .newline)
    (h : Body formulas slots rest body left) : Body formulas slots (t :: rest) body left
  | stmt {ts rest left : List Token} {s : Stmt} {body : List Stmt}
    (hs : Statement formulas (some slots) ts s rest)
    (h : Body formulas slots rest body left) : Body formulas slots ts (s :: body) left

/-- The slots that declared parameters give to the body. -/
def slotsOf (params : List ArgKind) : Slots := ⟨params.count .register, params.count .literal⟩

/-- A macro definition after the token that opens it. -/
inductive Definition (formulas : Formulas) : List Token → Macro → List Token → Prop
  | intro {name : Token} {rest middle left : List Token} {params : List ArgKind} {body : List Stmt}
    (hk : name.kind = .word ∨ name.kind = .instruction)
      (hparams : Listed Parameter rest params middle)
    (hbody : Body formulas (slotsOf params) middle body left) :
    Definition formulas (name :: rest) ⟨name.text, params, body, name⟩ left

/-- A definition, an include or a statement. -/
inductive Element (formulas : Formulas) : List Token → Node → List Token → Prop
  | definition {t : Token} {rest left : List Token} {m : Macro} (hk : t.kind = .directive)
    (ht : t.text = utf8 "@macro") (h : Definition formulas rest m left) :
    Element formulas (t :: rest) (.item (.definition m)) left
  | splice {t path : Token} {rest : List Token} (hk : t.kind = .directive)
    (ht : t.text = utf8 "@include")
    (hpath : path.kind = .string) (hend : LineEnds rest) :
    Element formulas (t :: path :: rest) (.splice path.text t) rest
  | stmt {ts left : List Token} {s : Stmt} (h : Statement formulas none ts s left) :
    Element formulas ts (.item (.stmt s)) left

/-- The nodes of a token list. -/
inductive Source (formulas : Formulas) : List Token → List Node → Prop
  | nil : Source formulas [] []
  | newline {t : Token} {rest : List Token} {nodes : List Node} (hk : t.kind = .newline)
    (h : Source formulas rest nodes) : Source formulas (t :: rest) nodes
  | element {ts left : List Token} {n : Node} {nodes : List Node} (hn : Element formulas ts n left)
    (h : Source formulas left nodes) : Source formulas ts (n :: nodes)

/-! ## First tokens -/

variable {p : Parser} {slots : Option Slots} {t : Token} {ts left : List Token}

theorem Argument.endsLine {formulas : Formulas} {a : Arg} (h : Argument formulas slots t a) :
    t.kind.endsLine = false := by
  cases h <;> simp [*, TokenKind.endsLine]

theorem Parameter.endsLine {k : ArgKind} (h : Parameter t k) : t.kind.endsLine = false := by
  cases h <;> simp [*, TokenKind.endsLine]

/-- A list whose items do not end a line starts where the line does not end. -/
theorem Separated.not_lineEnds {α : Type} {item : Token → α → Prop} {items : List α}
    (hitem : ∀ t a, item t a → t.kind.endsLine = false)
    (h : Separated item ts items left) : ¬ LineEnds ts := by
  intro hend
  cases h with
  | last ha _ => exact absurd (hend _ rfl) (by simp [hitem _ _ ha])
  | more ha _ _ => exact absurd (hend _ rfl) (by simp [hitem _ _ ha])

/-- A statement starts with a token that neither ends a line nor is a directive. -/
theorem Statement.kind_ne {formulas : Formulas} {s : Stmt}
    (h : Statement formulas slots ts s left) :
    ∃ t rest, ts = t :: rest ∧ t.kind ≠ .newline ∧ t.kind ≠ .directive := by
  cases h with
  | @call t form _ _ _ hk _ =>
    rw [nameKind.eq_def] at hk
    exact ⟨t, _, rfl, by cases form <;> simp [hk], by cases form <;> simp [hk]⟩
  | label hk _ => exact ⟨_, _, rfl, by simp [hk], by simp [hk]⟩

/-- An element starts with a token that does not end a line. -/
theorem Element.kind_ne {formulas : Formulas} {n : Node} (h : Element formulas ts n left) :
    ∃ t rest, ts = t :: rest ∧ t.kind ≠ .newline := by
  cases h with
  | definition hk _ _ => exact ⟨_, _, rfl, by simp [hk]⟩
  | splice hk _ _ _ => exact ⟨_, _, rfl, by simp [hk]⟩
  | stmt hs =>
    obtain ⟨t, rest, rfl, hnl, -⟩ := hs.kind_ne
    exact ⟨t, rest, rfl, hnl⟩

/-! ## Tokens that are left -/

section Suffix

variable {formulas : Formulas}

theorem Separated.suffix {α : Type} {item : Token → α → Prop} {items : List α}
    (h : Separated item ts items left) :
    left <:+ ts := by
  induction h with
  | last _ _ => exact List.suffix_cons ..
  | more _ _ _ ih => exact ih.trans ((List.suffix_cons ..).trans (List.suffix_cons ..))

theorem Listed.suffix {α : Type} {item : Token → α → Prop} {items : List α}
    (h : Listed item ts items left) :
    left <:+ ts := by
  cases h with
  | empty _ => exact List.suffix_rfl
  | items h => exact h.suffix

theorem Statement.suffix {s : Stmt} (h : Statement formulas slots ts s left) : left <:+ ts := by
  cases h with
  | call _ h => exact h.suffix.trans (List.suffix_cons ..)
  | label _ _ => exact (List.suffix_cons ..).trans (List.suffix_cons ..)

theorem Body.suffix {slots : Slots} {body : List Stmt} (h : Body formulas slots ts body left) :
    left <:+ ts := by
  induction h with
  | close _ _ => exact List.suffix_cons ..
  | newline _ _ ih => exact ih.trans (List.suffix_cons ..)
  | stmt hs _ ih => exact ih.trans hs.suffix

theorem Definition.suffix {m : Macro} (h : Definition formulas ts m left) : left <:+ ts := by
  cases h with
  | intro _ hparams hbody => exact hbody.suffix.trans (hparams.suffix.trans (List.suffix_cons ..))

theorem Element.suffix {n : Node} (h : Element formulas ts n left) : left <:+ ts := by
  cases h with
  | definition _ _ h => exact h.suffix.trans (List.suffix_cons ..)
  | splice _ _ _ _ => exact (List.suffix_cons ..).trans (List.suffix_cons ..)
  | stmt h => exact h.suffix

/-- The statements of a body are read off its tokens, one by one. -/
theorem Body.statement_of_mem {slots : Slots} {body : List Stmt}
    (h : Body formulas slots ts body left) {s : Stmt} (hs : s ∈ body) :
    ∃ us rest, us <:+ ts ∧ Statement formulas (some slots) us s rest := by
  induction h with
  | close _ _ => cases hs
  | newline _ _ ih =>
    obtain ⟨us, rest, hus, hstmt⟩ := ih hs
    exact ⟨us, rest, hus.trans (List.suffix_cons ..), hstmt⟩
  | stmt hfirst _ ih =>
    rcases List.mem_cons.1 hs with rfl | hs
    · exact ⟨_, _, List.suffix_rfl, hfirst⟩
    · obtain ⟨us, rest, hus, hstmt⟩ := ih hs
      exact ⟨us, rest, hus.trans hfirst.suffix, hstmt⟩

/-- The nodes of a source are read off its tokens, one by one. -/
theorem Source.element_of_mem {nodes : List Node} (h : Source formulas ts nodes) {n : Node}
    (hn : n ∈ nodes) :
    ∃ us rest, us <:+ ts ∧ Element formulas us n rest := by
  induction h with
  | nil => cases hn
  | newline _ _ ih =>
    obtain ⟨us, rest, hus, helement⟩ := ih hn
    exact ⟨us, rest, hus.trans (List.suffix_cons ..), helement⟩
  | element hfirst _ ih =>
    rcases List.mem_cons.1 hn with rfl | hn
    · exact ⟨_, _, List.suffix_rfl, hfirst⟩
    · obtain ⟨us, rest, hus, helement⟩ := ih hn
      exact ⟨us, rest, hus.trans hfirst.suffix, helement⟩

end Suffix

/-! ## Reading arguments -/

theorem readLiteral_eq_ok {value : UInt32} :
    p.readLiteral t = .ok value ↔ literalValue? p.formulas t.text = some value := by
  simp only [Parser.readLiteral, literalValue?]
  by_cases hformula : (t.text.drop 1).head? = some '('.toUInt8
  · rw [if_pos hformula, if_pos hformula]
    cases p.formulas.literal ((t.text.drop 1).drop 1).dropLast <;> simp [Except.toOption]
  · rw [if_neg hformula, if_neg hformula]
    cases Text.natOfDigits? (Parser.literalDigits (t.text.drop 1)).1
      (Parser.literalDigits (t.text.drop 1)).2 with
    | none => simp
    | some n =>
      have hlimit : Formula.largest < Word.unsignedLimit := by decide
      by_cases hn : n ≤ Formula.largest
      · have hw : ¬ Word.unsignedLimit ≤ n := by omega
        have hl : ¬ Formula.largest < n := by omega
        simp [hn, hw, hl]
      · have hl : Formula.largest < n := by omega
        by_cases hw : Word.unsignedLimit ≤ n <;> simp [hn, hw, hl]

theorem readParamArg_eq_ok {a : Arg} (hk : t.kind = .registerParam ∨ t.kind = .literalParam) :
    p.readParamArg slots t = .ok a ↔ Argument p.formulas slots t a := by
  constructor
  · intro h
    unfold Parser.readParamArg at h
    split at h
    · cases h
    · split at h
      · cases h
      · rename_i s _ i hi
        split at h
        · rename_i hr
          split at h
          · cases h
          · cases h
            exact .registerParam hr rfl hi (by omega)
        · rename_i hr
          split at h
          · cases h
          · cases h
            exact .literalParam (hk.resolve_left hr) rfl hi (by omega)
  · intro h
    cases h with
    | registerParam hr hs hi hlt =>
      have hn : ¬ ((_ : Nat) : Int) ≤ _ := Int.not_le.2 hlt
      simp [Parser.readParamArg, hs, hi, hr, hn]
    | literalParam hl hs hi hlt =>
      have hn : ¬ ((_ : Nat) : Int) ≤ _ := Int.not_le.2 hlt
      simp [Parser.readParamArg, hs, hi, hl, hn]
    | register hr => simp [hr] at hk
    | literal hr _ => simp [hr] at hk
    | label hr => simp [hr] at hk

theorem readArg_eq_ok {a : Arg} : p.readArg slots t = .ok a ↔ Argument p.formulas slots t a := by
  constructor
  · intro h
    unfold Parser.readArg at h
    split at h
    case h_1 hk =>
      cases h
      exact .register hk
    case h_2 hk =>
      obtain ⟨value, hv, rfl⟩ := Except.map_eq_ok.1 h
      exact .literal hk (readLiteral_eq_ok.1 hv)
    case h_3 hk =>
      cases h
      exact .label hk
    case h_4 hk => exact (readParamArg_eq_ok (.inl hk)).1 h
    case h_5 hk => exact (readParamArg_eq_ok (.inr hk)).1 h
    case h_6 => cases h
  · intro h
    cases h with
    | register hk => simp [Parser.readArg, hk]
    | literal hk hv => simp [Parser.readArg, hk, readLiteral_eq_ok.2 hv, Except.map]
    | label hk => simp [Parser.readArg, hk]
    | registerParam hk hs hi hlt =>
      rw [Parser.readArg, hk]
      exact (readParamArg_eq_ok (.inl hk)).2 (.registerParam hk hs hi hlt)
    | literalParam hk hs hi hlt =>
      rw [Parser.readArg, hk]
      exact (readParamArg_eq_ok (.inr hk)).2 (.literalParam hk hs hi hlt)

theorem readParam_eq_ok {k : ArgKind} : p.readParam t = .ok k ↔ Parameter t k := by
  constructor
  · intro h
    unfold Parser.readParam at h
    split at h
    · cases h
      exact .register ‹_›
    · cases h
      exact .literal ‹_›
    · cases h
  · intro h
    cases h with
    | register hk => simp [Parser.readParam, hk]
    | literal hk => simp [Parser.readParam, hk]

/-! ## Reading lists -/

section Lists

variable {α : Type} {read : Token → Except Fault α} {missing : Fault} {items : List α}

/-- The common form of the readers of lists. -/
def readSeparated (p : Parser) (missing : Fault) (read : Token → Except Fault α) :
    List Token → Except Fault (List α × List Token)
  | [] => .error missing
  | t :: rest => do
    let a ← read t
    match rest with
    | [] => .ok ([a], [])
    | u :: more =>
      if u.kind = .comma then
        let (items, left) ← readSeparated p missing read more
        .ok (a :: items, left)
      else if u.kind.endsLine then .ok ([a], u :: more)
      else .error (p.fail u [.cause .lineEnd])

theorem readArgList_eq :
    p.readArgList slots ts =
      readSeparated p (p.fail p.finish [.cause .argumentExpected]) (p.readArg slots) ts := by
  fun_induction Parser.readArgList p slots ts with
  | case1 => rfl
  | case2 t rest ih =>
    rw [readSeparated]
    rcases rest with _ | ⟨u, more⟩
    · rfl
    · simp only [ih]

theorem readParamList_eq :
    p.readParamList ts = readSeparated p (p.fail p.finish [.cause .macroParam]) p.readParam ts := by
  fun_induction Parser.readParamList p ts with
  | case1 => rfl
  | case2 t rest ih =>
    rw [readSeparated]
    rcases rest with _ | ⟨u, more⟩
    · rfl
    · simp only [ih]

theorem separated_of_readSeparated (h : readSeparated p missing read ts = .ok (items, left)) :
    Separated (fun t a => read t = .ok a) ts items left := by
  fun_induction readSeparated p missing read ts generalizing items with
  | case1 => cases h
  | case2 t rest ih =>
    obtain ⟨a, ha, h⟩ := Except.bind_eq_ok.1 h
    rcases rest with _ | ⟨u, more⟩
    · cases h
      exact .last ha (by simp [LineEnds])
    · simp only at h
      split at h
      · rename_i hc
        obtain ⟨⟨items', left'⟩, hr, h⟩ := Except.bind_eq_ok.1 h
        cases h
        exact .more ha hc (ih hr)
      · split at h
        · rename_i he
          cases h
          exact .last ha (by simpa [LineEnds] using he)
        · cases h

theorem readSeparated_of_separated (h : Separated (fun t a => read t = .ok a) ts items left) :
    readSeparated p missing read ts = .ok (items, left) := by
  induction h with
  | @last t a rest ha hend =>
    rw [readSeparated, ha]
    rcases rest with _ | ⟨u, more⟩
    · rfl
    · have he : u.kind.endsLine = true := hend u rfl
      have hc : u.kind ≠ .comma := by
        intro hc
        rw [hc] at he
        cases he
      show (if u.kind = .comma then _ else if u.kind.endsLine then _ else _) = _
      rw [if_neg hc, if_pos he]
  | @more t comma a rest left items ha hc hrest ih =>
    rw [readSeparated, ha]
    show (if comma.kind = .comma then _ else _) = _
    rw [if_pos hc, ih]
    rfl

end Lists

variable (hp : p.finish.kind = .endOfInput)
include hp

theorem lineEnds_iff : p.lineEnds ts = true ↔ LineEnds ts := by
  cases ts with
  | nil => simp [Parser.lineEnds, Parser.next, LineEnds, hp, TokenKind.endsLine]
  | cons u more => simp [Parser.lineEnds, Parser.next, LineEnds]

theorem readListed_eq_ok {α : Type} {read : Token → Except Fault α} {item : Token → α → Prop}
    {missing : Fault} {items : List α} (hread : ∀ t a, read t = .ok a ↔ item t a)
    (hitem : ∀ t a, item t a → t.kind.endsLine = false) :
    (if p.lineEnds ts then .ok ([], ts) else readSeparated p missing read ts) = .ok (items, left) ↔
      Listed item ts items left := by
  obtain rfl : (fun t a => read t = .ok a) = item := by
    funext t a
    exact propext (hread t a)
  constructor
  · intro h
    split at h
    · rename_i hend
      cases h
      exact .empty ((lineEnds_iff hp).1 hend)
    · exact .items (separated_of_readSeparated h)
  · intro h
    cases h with
    | empty hend => rw [if_pos ((lineEnds_iff hp).2 hend)]
    | items h =>
      have hend := h.not_lineEnds hitem
      rw [if_neg fun hc => hend ((lineEnds_iff hp).1 hc)]
      exact readSeparated_of_separated h

theorem readArgs_eq_ok {args : List Arg} :
    p.readArgs slots ts = .ok (args, left) ↔ Listed (Argument p.formulas slots) ts args left := by
  rw [Parser.readArgs, readArgList_eq]
  exact readListed_eq_ok hp (fun _ _ => readArg_eq_ok) fun _ _ => Argument.endsLine

theorem readParams_eq_ok {params : List ArgKind} :
    p.readParams ts = .ok (params, left) ↔ Listed Parameter ts params left := by
  rw [Parser.readParams, readParamList_eq]
  exact readListed_eq_ok hp (fun _ _ => readParam_eq_ok) fun _ _ => Parameter.endsLine

/-! ## Reading phrases -/

theorem readStmt_eq_ok {s : Stmt} :
    p.readStmt slots t ts = .ok (s, left) ↔ Statement p.formulas slots (t :: ts) s left := by
  constructor
  · intro h
    unfold Parser.readStmt at h
    split at h
    case h_1 hk =>
      obtain ⟨⟨args, left'⟩, hargs, h⟩ := Except.bind_eq_ok.1 h
      cases h
      exact .call hk ((readArgs_eq_ok hp).1 hargs)
    case h_2 hk =>
      obtain ⟨⟨args, left'⟩, hargs, h⟩ := Except.bind_eq_ok.1 h
      cases h
      exact .call hk ((readArgs_eq_ok hp).1 hargs)
    case h_3 hk =>
      split at h
      · rename_i hc
        cases h
        rcases ts with _ | ⟨colon, rest⟩
        · simp [Parser.next, hp] at hc
        · exact .label hk hc
      · cases h
    case h_4 => cases h
  · intro h
    cases h with
    | @call _ form _ _ args hk hargs =>
      have hread := (readArgs_eq_ok hp).2 hargs
      cases form <;> simp [Parser.readStmt, hk, nameKind, hread, bind, Except.bind]
    | label hk hc => simp [Parser.readStmt, hk, Parser.next, hc]

theorem body_of_readBody {slots : Slots} {opener : Token} {found : Array Stmt} {body : List Stmt}
    (h : p.readBody slots opener found ts = .ok (body, left)) :
    ∃ new, body = found.toList ++ new ∧ Body p.formulas slots ts new left := by
  fun_induction Parser.readBody p slots opener found ts with
  | case1 => cases h
  | case2 found t rest hk ih =>
    obtain ⟨new, rfl, hb⟩ := ih h
    exact ⟨new, rfl, .newline hk hb⟩
  | case3 found t rest hk ht =>
    cases h
    exact ⟨[], by simp, .close hk ht⟩
  | case4 => cases h
  | case5 => cases h
  | case6 => cases h
  | case7 found t rest s rest' hs _ _ ih =>
    obtain ⟨new, rfl, hb⟩ := ih h
    exact ⟨s :: new, by simp, .stmt ((readStmt_eq_ok hp).1 hs) hb⟩

theorem readBody_of_body {slots : Slots} {body : List Stmt} (h : Body p.formulas slots ts body left)
    (opener : Token) (found : Array Stmt) :
    p.readBody slots opener found ts = .ok (found.toList ++ body, left) := by
  induction h generalizing found with
  | close hk ht => simp [Parser.readBody, hk, ht]
  | newline hk _ ih => simp [Parser.readBody, hk, ih]
  | stmt hs _ ih =>
    obtain ⟨t, rest, rfl, hnl, hdir⟩ := hs.kind_ne
    have hread := (readStmt_eq_ok hp).2 hs
    rw [Parser.readBody]
    split
    · rename_i hk
      exact absurd hk hnl
    · rename_i hk
      exact absurd hk hdir
    · split
      · rename_i hf
        rw [hread] at hf
        cases hf
      · rename_i hf
        rw [hread] at hf
        cases hf
        rw [ih]
        simp

theorem readMacro_eq_ok {opener : Token} {m : Macro} :
    p.readMacro opener ts = .ok (m, left) ↔ Definition p.formulas ts m left := by
  constructor
  · intro h
    unfold Parser.readMacro at h
    simp only at h
    split at h
    · rename_i hk
      rcases ts with _ | ⟨name, rest⟩
      · simp [Parser.next, hp] at hk
      obtain ⟨⟨params, middle⟩, hparams, h⟩ := Except.bind_eq_ok.1 h
      obtain ⟨⟨body, left'⟩, hbody, h⟩ := Except.bind_eq_ok.1 h
      cases h
      obtain ⟨new, rfl, hb⟩ := body_of_readBody hp hbody
      exact .intro hk ((readParams_eq_ok hp).1 hparams) hb
    · cases h
  · intro h
    cases h with
    | intro hk hparams hbody =>
      have hread := readBody_of_body hp hbody opener #[]
      unfold slotsOf at hread
      simp [Parser.readMacro, Parser.next, hk, (readParams_eq_ok hp).2 hparams, hread, bind,
        Except.bind]

theorem readNode_eq_ok {n : Node} :
    p.readNode t ts = .ok (n, left) ↔ Element p.formulas (t :: ts) n left := by
  constructor
  · intro h
    unfold Parser.readNode at h
    split at h
    · rename_i hk
      unfold Parser.readDirective at h
      split at h
      · rename_i ht
        obtain ⟨⟨m, left'⟩, hm, h⟩ := Except.bind_eq_ok.1 h
        cases h
        exact .definition hk ht ((readMacro_eq_ok hp).1 hm)
      · split at h
        · cases h
        · split at h
          · rename_i ht
            simp only at h
            split at h
            · rename_i hpath
              obtain ⟨_, hend, h⟩ := Except.bind_eq_ok.1 h
              cases h
              rcases ts with _ | ⟨path, rest⟩
              · simp [Parser.next, hp] at hpath
              · unfold Parser.endLine at hend
                split at hend
                · rename_i hline
                  exact .splice hk ht hpath ((lineEnds_iff hp).1 hline)
                · cases hend
            · cases h
          · cases h
    · obtain ⟨⟨s, left'⟩, hs, h⟩ := Except.bind_eq_ok.1 h
      cases h
      exact .stmt ((readStmt_eq_ok hp).1 hs)
  · intro h
    cases h with
    | definition hk ht hm =>
      simp [Parser.readNode, Parser.readDirective, hk, ht, (readMacro_eq_ok hp).2 hm, bind,
        Except.bind]
    | splice hk ht hpath hend =>
      have h₁ : utf8 "@include" ≠ utf8 "@macro" := by decide
      have h₂ : utf8 "@include" ≠ utf8 "@endmacro" := by decide
      simp [Parser.readNode, Parser.readDirective, hk, ht, h₁, h₂, Parser.next, hpath,
        Parser.endLine, (lineEnds_iff hp).2 hend, bind, Except.bind]
    | stmt hs =>
      obtain ⟨_, _, heq, -, hdir⟩ := hs.kind_ne
      cases heq
      simp [Parser.readNode, hdir, (readStmt_eq_ok hp).2 hs, bind, Except.bind]

theorem source_of_readNodes {found : Array Node} {nodes : List Node}
    (h : p.readNodes found ts = .ok nodes) :
    ∃ new, nodes = found.toList ++ new ∧ Source p.formulas ts new := by
  fun_induction Parser.readNodes p found ts with
  | case1 found =>
    cases h
    exact ⟨[], by simp, .nil⟩
  | case2 found t rest hk ih =>
    obtain ⟨new, rfl, hs⟩ := ih h
    exact ⟨new, rfl, .newline hk hs⟩
  | case3 => cases h
  | case4 found t rest hk n left hn ih =>
    obtain ⟨new, rfl, hs⟩ := ih h
    exact ⟨n :: new, by simp, .element ((readNode_eq_ok hp).1 hn) hs⟩

theorem readNodes_of_source {nodes : List Node} (h : Source p.formulas ts nodes)
    (found : Array Node) :
    p.readNodes found ts = .ok (found.toList ++ nodes) := by
  induction h generalizing found with
  | nil => simp [Parser.readNodes]
  | newline hk _ ih => simp [Parser.readNodes, hk, ih]
  | element hn _ ih =>
    obtain ⟨t, rest, rfl, hnl⟩ := hn.kind_ne
    have hread := (readNode_eq_ok hp).2 hn
    rw [Parser.readNodes, if_neg hnl]
    split
    · rename_i hf
      rw [hread] at hf
      cases hf
    · rename_i hf
      rw [hread] at hf
      cases hf
      rw [ih]
      simp

/-- **The parser reads exactly the nodes that the grammar gives.** -/
theorem readNodes_eq_ok {nodes : List Node} :
    p.readNodes #[] ts = .ok nodes ↔ Source p.formulas ts nodes := by
  constructor
  · intro h
    obtain ⟨new, rfl, hs⟩ := source_of_readNodes hp h
    exact hs
  · intro h
    simpa using readNodes_of_source hp h #[]

end Octet.Grammar
