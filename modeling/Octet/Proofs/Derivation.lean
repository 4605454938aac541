import Octet.Proofs.Grammar
import Octet.Proofs.TokenText

/-!
# Derivations

The grammar of sources with its derivations as data:

* program: `{ NEWLINE | statement | '@include' STRING lineend | macro }`;
* statement: `LABEL COLON | (INSTRUCTION | WORD) [argument {COMMA argument}] lineend`;
* macro: `'@macro' (WORD | INSTRUCTION) [parameter {COMMA parameter}] lineend body '@endmacro'`,
  with the body `{ NEWLINE | statement }`,

where `lineend` takes no token: the line ends after what stands before it. A derivation holds each
of its tokens once, in their order, so nothing of a source is dropped or repeated in the derivation
that has its tokens.

* `Derivation.Items`, `Derivation.Line`, `Derivation.Piece` — the trees, with their `tokens`;
* `Derivation.Denotes` — arguments and what they stand for;
* `Derivation.Derives` — the rules of the grammar, with the nodes that a derivation stands for;
* `Derivation.Derives.unique` — **the grammar is unambiguous**.
-/

namespace Octet.Derivation

open Grammar (LineEnds Parameter nameKind slotsOf)
open Token (Spelt IsLiteral)

/-! ## Trees -/

/-- `item {COMMA item}` -/
inductive Items where
  | last (item : Token)
  | more (item comma : Token) (rest : Items)

/-- `LABEL COLON | (INSTRUCTION | WORD) [argument {COMMA argument}]` -/
inductive Statement where
  | label (name colon : Token)
  | call (name : Token) (args : Option Items)

/-- `NEWLINE | statement` -/
inductive Line where
  | newline (t : Token)
  | stmt (s : Statement)

/-- A line, an include or a macro. -/
inductive Piece where
  | line (l : Line)
  | splice (opener path : Token)
  | definition (opener name : Token) (params : Option Items) (body : List Line) (closer : Token)

def Items.tokens : Items → List Token
  | last t => [t]
  | more t comma rest => t :: comma :: rest.tokens

/-- The tokens of items that may be missing. -/
def optional : Option Items → List Token
  | none => []
  | some items => items.tokens

def Statement.tokens : Statement → List Token
  | label name colon => [name, colon]
  | call name args => name :: optional args

def Line.tokens : Line → List Token
  | newline t => [t]
  | stmt s => s.tokens

def Piece.tokens : Piece → List Token
  | line l => l.tokens
  | splice opener path => [opener, path]
  | definition opener name params body closer =>
    opener :: name :: (optional params ++ (body.flatMap Line.tokens ++ [closer]))

/-! ## Rules -/

/-- The value that a literal evaluates to. -/
inductive Evaluates (formulas : Formulas) : Text → Nat → Prop
  | hexadecimal {ds : Text} {n : Nat} (h : Text.natOfDigits? 16 ds = some n) :
    Evaluates formulas ('#'.toUInt8 :: (ds ++ utf8 "h")) n
  | binary {ds : Text} {n : Nat} (h : Text.natOfDigits? 2 ds = some n) :
    Evaluates formulas ('#'.toUInt8 :: (ds ++ utf8 "b")) n
  | decimal {ds : Text} {n : Nat} (h : Text.natOfDigits? 10 ds = some n) :
    Evaluates formulas ('#'.toUInt8 :: ds) n
  | formula {body : Text} {n : Nat} (h : formulas.value? body = some (n : Int)) :
    Evaluates formulas ('#'.toUInt8 :: '('.toUInt8 :: (body ++ utf8 ")")) n

/-- `REGISTER | LITERAL | LABEL | parameter`, and what it stands for. A literal has a value of 32
bits. A parameter stands where there are `slots`, and is one of them. -/
inductive Denotes (formulas : Formulas) (slots : Option Slots) (t : Token) : Arg → Prop
  | register {r : Register} (hk : t.kind = .register) (hr : Register.ofName? t.text = some r) :
    Denotes formulas slots t (.register t.text r t)
  | literal {value : UInt32} (hk : t.kind = .literal) (hv : Evaluates formulas t.text value.toNat) :
    Denotes formulas slots t (.literal value t)
  | label {name : Text} (hk : t.kind = .label) (ht : t.text = '$'.toUInt8 :: name) :
    Denotes formulas slots t (.label name t)
  | registerParam {s : Slots} {ds : Text} {n : Nat} (hk : t.kind = .registerParam)
    (hs : slots = some s)
    (ht : t.text = '%'.toUInt8 :: 'r'.toUInt8 :: ds) (hn : Text.natOfDigits? 10 ds = some n)
      (hlt : n < s.registers) :
    Denotes formulas slots t (.registerParam n t)
  | literalParam {s : Slots} {ds : Text} {n : Nat} (hk : t.kind = .literalParam)
    (hs : slots = some s)
    (ht : t.text = '%'.toUInt8 :: 'l'.toUInt8 :: ds) (hn : Text.natOfDigits? 10 ds = some n)
      (hlt : n < s.literals) :
    Denotes formulas slots t (.literalParam n t)

/-- Every item stands for a value, and commas separate them. -/
inductive Items.Lists {α : Type} (item : Token → α → Prop) : Items → List α → Prop
  | last {t : Token} {a : α} (h : item t a) : Lists item (.last t) [a]
  | more {t comma : Token} {rest : Items} {a : α} {as : List α} (h : item t a)
    (hc : comma.kind = .comma)
    (hrest : Lists item rest as) : Lists item (.more t comma rest) (a :: as)

/-- Items that may be missing. -/
inductive Optional {α : Type} (item : Token → α → Prop) : Option Items → List α → Prop
  | none : Optional item none []
  | some {items : Items} {as : List α} (h : items.Lists item as) : Optional item (some items) as

/-- A statement before the tokens of `follow`. -/
inductive Statement.Says (formulas : Formulas) (slots : Option Slots) (follow : List Token) :
    Statement → Stmt → Prop
  | label {name colon : Token} {text : Text} (hk : name.kind = .label)
    (ht : name.text = '$'.toUInt8 :: text)
    (hc : colon.kind = .colon) : Says formulas slots follow (.label name colon) (.label text name)
  | call {name : Token} {form : CallForm} {items : Option Items} {args : List Arg}
    (hk : name.kind = nameKind form)
    (hargs : Optional (Denotes formulas slots) items args) (hend : LineEnds follow) :
    Says formulas slots follow (.call name items) (.call ⟨form, name.text, args, name⟩)

/-- Lines before the tokens of `follow`. A newline stands for nothing. -/
inductive LinesSay (formulas : Formulas) (slots : Option Slots) (follow : List Token) :
    List Line → List Stmt → Prop
  | nil : LinesSay formulas slots follow [] []
  | newline {t : Token} {lines : List Line} {stmts : List Stmt} (hk : t.kind = .newline)
    (h : LinesSay formulas slots follow lines stmts) :
      LinesSay formulas slots follow (.newline t :: lines) stmts
  | stmt {x : Statement} {s : Stmt} {lines : List Line} {stmts : List Stmt}
    (hx : x.Says formulas slots (lines.flatMap Line.tokens ++ follow) s)
    (h : LinesSay formulas slots follow lines stmts) :
      LinesSay formulas slots follow (.stmt x :: lines) (s :: stmts)

/-- A piece before the tokens of `follow`. -/
inductive Piece.Says (formulas : Formulas) (follow : List Token) : Piece → Node → Prop
  | stmt {x : Statement} {s : Stmt} (hx : x.Says formulas none follow s) :
    Says formulas follow (.line (.stmt x)) (.item (.stmt s))
  | splice {opener path : Token} (hk : opener.kind = .directive)
    (ht : opener.text = utf8 "@include")
    (hpath : path.kind = .string) (hend : LineEnds follow) :
    Says formulas follow (.splice opener path) (.splice path.text opener)
  | definition {opener name closer : Token} {params : Option Items} {kinds : List ArgKind}
    {body : List Line}
    {stmts : List Stmt} (hk : opener.kind = .directive) (ht : opener.text = utf8 "@macro")
    (hname : name.kind = .word ∨ name.kind = .instruction)
      (hparams : Optional Parameter params kinds)
    (hend : LineEnds (body.flatMap Line.tokens ++ closer :: follow))
    (hbody : LinesSay formulas (some (slotsOf kinds)) (closer :: follow) body stmts)
    (hclose : closer.kind = .directive) (htext : closer.text = utf8 "@endmacro") :
    Says formulas follow (.definition opener name params body closer)
      (.item (.definition ⟨name.text, kinds, stmts, name⟩))

/-- The pieces are derived by the grammar and stand for the nodes: a newline for none, and every
other piece for one. -/
inductive Derives (formulas : Formulas) : List Piece → List Node → Prop
  | nil : Derives formulas [] []
  | newline {t : Token} {pieces : List Piece} {nodes : List Node} (hk : t.kind = .newline)
    (h : Derives formulas pieces nodes) : Derives formulas (.line (.newline t) :: pieces) nodes
  | piece {p : Piece} {n : Node} {pieces : List Piece} {nodes : List Node}
    (hp : p.Says formulas (pieces.flatMap Piece.tokens) n) (h : Derives formulas pieces nodes) :
    Derives formulas (p :: pieces) (n :: nodes)

/-! ## Unambiguity

Two derivations with the same tokens are the same. For a phrase this is said with the tokens that
follow it: what follows is the same as well. -/

variable {formulas : Formulas} {slots slots' : Option Slots} {left left' : List Token}

/-- Where the line ends there is no token that does not end a line. -/
theorem lineEnds_cons {t : Token} {ts : List Token} (h : LineEnds (t :: ts)) :
    t.kind.endsLine = true :=
  h t rfl

theorem Denotes.endsLine {t : Token} {a : Arg} (h : Denotes formulas slots t a) :
    t.kind.endsLine = false := by
  cases h <;> simp [*, TokenKind.endsLine]

section Items

variable {α β : Type} {item : Token → α → Prop} {item' : Token → β → Prop} {as : List α}
  {bs : List β}

theorem Items.Lists.unique {x y : Items} (hx : x.Lists item as) (hy : y.Lists item' bs)
    (hleft : LineEnds left) (hleft' : LineEnds left') (h : x.tokens ++ left = y.tokens ++ left') :
    x = y ∧ left = left' := by
  have hcomma {c : Token} {ts : List Token} (hc : c.kind = .comma) : ¬ LineEnds (c :: ts) := by
    intro hend
    have hline := lineEnds_cons hend
    rw [hc] at hline
    cases hline
  induction hx generalizing y bs with
  | last _ =>
    cases hy with
    | last _ =>
      obtain ⟨rfl, rfl⟩ := List.cons.inj h
      exact ⟨rfl, rfl⟩
    | more _ hc _ =>
      obtain ⟨rfl, rfl⟩ := List.cons.inj h
      exact absurd hleft (hcomma hc)
  | more _ hc _ ih =>
    cases hy with
    | last _ =>
      obtain ⟨rfl, rfl⟩ := List.cons.inj h
      exact absurd hleft' (hcomma hc)
    | more _ _ hrest =>
      obtain ⟨rfl, hrest₁⟩ := List.cons.inj h
      obtain ⟨rfl, hrest₂⟩ := List.cons.inj hrest₁
      obtain ⟨rfl, rfl⟩ := ih hrest hrest₂
      exact ⟨rfl, rfl⟩

/-- Items start with a token that does not end the line. -/
theorem Items.Lists.not_lineEnds {x : Items} (hx : x.Lists item as)
    (hitem : ∀ t a, item t a → t.kind.endsLine = false) (ts : List Token) :
    ¬ LineEnds (x.tokens ++ ts) := by
  intro hend
  cases hx with
  | last ha => exact absurd (lineEnds_cons hend) (by simp [hitem _ _ ha])
  | more ha _ _ => exact absurd (lineEnds_cons hend) (by simp [hitem _ _ ha])

theorem Optional.unique {x y : Option Items} (hx : Optional item x as) (hy : Optional item' y bs)
    (hitem : ∀ t a, item t a → t.kind.endsLine = false)
    (hitem' : ∀ t b, item' t b → t.kind.endsLine = false) (hleft : LineEnds left)
    (hleft' : LineEnds left') (h : optional x ++ left = optional y ++ left') :
    x = y ∧ left = left' := by
  cases hx with
  | none =>
    cases hy with
    | none => exact ⟨rfl, h⟩
    | some hy => exact absurd (show LineEnds _ from h ▸ hleft) (hy.not_lineEnds hitem' left')
  | some hx =>
    cases hy with
    | none => exact absurd (show LineEnds _ from h ▸ hleft') (hx.not_lineEnds hitem left)
    | some hy =>
      obtain ⟨rfl, rfl⟩ := hx.unique hy hleft hleft' h
      exact ⟨rfl, rfl⟩

end Items

theorem Parameter.unique {x y : Option Items} {ks ls : List ArgKind} (hx : Optional Parameter x ks)
    (hy : Optional Parameter y ls) (hleft : LineEnds left) (hleft' : LineEnds left')
    (h : optional x ++ left = optional y ++ left') : x = y ∧ left = left' :=
  hx.unique hy (fun _ _ => Grammar.Parameter.endsLine) (fun _ _ => Grammar.Parameter.endsLine) hleft
    hleft' h

/-- The first token of a statement. -/
def Statement.first : Statement → Token
  | label name _ => name
  | call name _ => name

theorem Statement.tokens_cons (x : Statement) : ∃ rest, x.tokens = x.first :: rest := by
  cases x with
  | label _ _ => exact ⟨_, rfl⟩
  | call _ _ => exact ⟨_, rfl⟩

theorem Statement.Says.first_kind {x : Statement} {s : Stmt} (h : x.Says formulas slots left s) :
    x.first.kind ≠ .newline ∧ x.first.kind ≠ .directive := by
  cases h with
  | label hk _ _ => simp [first, hk]
  | @call _ form _ _ hk _ _ => cases form <;> simp [first, hk, nameKind]

theorem Statement.Says.unique {x y : Statement} {s s' : Stmt} (hx : x.Says formulas slots left s)
    (hy : y.Says formulas slots' left' s') (h : x.tokens ++ left = y.tokens ++ left') :
    x = y ∧ left = left' := by
  have hname {t : Token} {form : CallForm} (hk : t.kind = .label) : t.kind ≠ nameKind form := by
    rw [hk]
    cases form <;> simp [nameKind]
  cases hx with
  | label hk _ _ =>
    cases hy with
    | label _ _ _ =>
      obtain ⟨rfl, hcolon⟩ := List.cons.inj h
      obtain ⟨rfl, rfl⟩ := List.cons.inj hcolon
      exact ⟨rfl, rfl⟩
    | call hk' _ _ =>
      obtain ⟨rfl, -⟩ := List.cons.inj h
      exact absurd hk' (hname hk)
  | call hk hargs hend =>
    cases hy with
    | label hk' _ _ =>
      obtain ⟨rfl, -⟩ := List.cons.inj h
      exact absurd hk (hname hk')
    | call _ hargs' hend' =>
      obtain ⟨rfl, hrest⟩ := List.cons.inj h
      obtain ⟨rfl, rfl⟩ :=
        hargs.unique hargs' (fun _ _ => Denotes.endsLine) (fun _ _ => Denotes.endsLine) hend hend'
          hrest
      exact ⟨rfl, rfl⟩

/-- The first token of what a body has left: that of its next line, or the directive that ends
it. -/
theorem head_stmt {x : Statement} {t : Token} {ts us : List Token} (h : t :: ts = x.tokens ++ us) :
    t = x.first := by
  obtain ⟨rest, hx⟩ := x.tokens_cons
  rw [hx] at h
  exact (List.cons.inj h).1

/-- The lines of a body, which a directive ends. -/
theorem LinesSay.unique {xs ys : List Line} {ss ss' : List Stmt} {closer closer' : Token}
    (hx : LinesSay formulas slots (closer :: left) xs ss)
    (hy : LinesSay formulas slots' (closer' :: left') ys ss') (hclose : closer.kind = .directive)
    (hclose' : closer'.kind = .directive)
    (h : xs.flatMap Line.tokens ++ closer :: left = ys.flatMap Line.tokens ++ closer' :: left') :
    xs = ys ∧ closer = closer' ∧ left = left' := by
  induction hx generalizing ys ss' with
  | nil =>
    cases hy with
    | nil =>
      obtain ⟨rfl, rfl⟩ := List.cons.inj h
      exact ⟨rfl, rfl, rfl⟩
    | newline hk _ =>
      obtain ⟨rfl, -⟩ := List.cons.inj h
      simp [hk] at hclose
    | stmt hs _ =>
      rw [List.flatMap_cons, Line.tokens, List.append_assoc] at h
      rw [head_stmt h] at hclose
      exact absurd hclose hs.first_kind.2
  | newline hk _ ih =>
    cases hy with
    | nil =>
      obtain ⟨rfl, -⟩ := List.cons.inj h
      simp [hk] at hclose'
    | newline _ hlines =>
      obtain ⟨rfl, hrest⟩ := List.cons.inj h
      obtain ⟨rfl, rfl, rfl⟩ := ih hlines hrest
      exact ⟨rfl, rfl, rfl⟩
    | stmt hs _ =>
      rw [List.flatMap_cons, List.flatMap_cons, Line.tokens, Line.tokens, List.append_assoc,
        List.append_assoc] at h
      rw [head_stmt h] at hk
      exact absurd hk hs.first_kind.1
  | stmt hs _ ih =>
    rw [List.flatMap_cons, Line.tokens, List.append_assoc] at h
    cases hy with
    | nil =>
      rw [head_stmt h.symm] at hclose'
      exact absurd hclose' hs.first_kind.2
    | newline hk _ =>
      rw [head_stmt h.symm] at hk
      exact absurd hk hs.first_kind.1
    | stmt hs' hlines =>
      rw [List.flatMap_cons, Line.tokens, List.append_assoc] at h
      obtain ⟨rfl, hrest⟩ := hs.unique hs' h
      obtain ⟨rfl, rfl, rfl⟩ := ih hlines hrest
      exact ⟨rfl, rfl, rfl⟩

/-- The first token of a piece. -/
def Piece.first : Piece → Token
  | line (.newline t) => t
  | line (.stmt s) => s.first
  | splice opener _ => opener
  | definition opener _ _ _ _ => opener

theorem Piece.Says.first_kind {p : Piece} {n : Node} (h : p.Says formulas left n) :
    p.first.kind ≠ .newline := by
  cases h with
  | stmt hs => exact hs.first_kind.1
  | splice hk _ _ _ => simp [first, hk]
  | definition hk _ _ _ _ _ _ _ => simp [first, hk]

theorem Piece.tokens_cons (p : Piece) : ∃ rest, p.tokens = p.first :: rest := by
  cases p with
  | line l =>
    cases l with
    | newline t => exact ⟨_, rfl⟩
    | stmt s => exact s.tokens_cons
  | splice _ _ => exact ⟨_, rfl⟩
  | definition _ _ _ _ _ => exact ⟨_, rfl⟩

theorem Piece.first_of_tokens {p q : Piece} {ts us : List Token}
    (h : p.tokens ++ ts = q.tokens ++ us) :
    p.first = q.first := by
  obtain ⟨_, hp⟩ := p.tokens_cons
  obtain ⟨_, hq⟩ := q.tokens_cons
  rw [hp, hq] at h
  exact (List.cons.inj h).1

theorem Piece.Says.unique {p q : Piece} {n n' : Node} (hp : p.Says formulas left n)
    (hq : q.Says formulas left' n') (h : p.tokens ++ left = q.tokens ++ left') :
    p = q ∧ left = left' := by
  have hkind := congrArg Token.kind (Piece.first_of_tokens h)
  have htext := congrArg Token.text (Piece.first_of_tokens h)
  have hopen : utf8 "@include" ≠ utf8 "@macro" := by decide
  cases hp with
  | stmt hs =>
    cases hq with
    | stmt hs' =>
      obtain ⟨rfl, rfl⟩ := hs.unique hs' h
      exact ⟨rfl, rfl⟩
    | splice hk _ _ _ => exact absurd (hkind.trans hk) hs.first_kind.2
    | definition hk _ _ _ _ _ _ _ => exact absurd (hkind.trans hk) hs.first_kind.2
  | splice hk ht _ _ =>
    cases hq with
    | stmt hs' => exact absurd (hkind.symm.trans hk) hs'.first_kind.2
    | splice _ _ _ _ =>
      obtain ⟨rfl, hpath⟩ := List.cons.inj h
      obtain ⟨rfl, rfl⟩ := List.cons.inj hpath
      exact ⟨rfl, rfl⟩
    | definition _ ht' _ _ _ _ _ _ => exact absurd (ht.symm.trans (htext.trans ht')) hopen
  | definition hk ht _ hparams hend hbody hclose _ =>
    cases hq with
    | stmt hs' => exact absurd (hkind.symm.trans hk) hs'.first_kind.2
    | splice _ ht' _ _ => exact absurd (ht'.symm.trans (htext.symm.trans ht)) hopen
    | definition _ _ _ hparams' hend' hbody' hclose' _ =>
      simp only [Piece.tokens, List.cons_append, List.append_assoc, List.nil_append] at h
      obtain ⟨rfl, hname⟩ := List.cons.inj h
      obtain ⟨rfl, hrest⟩ := List.cons.inj hname
      obtain ⟨rfl, hlines⟩ := Parameter.unique hparams hparams' hend hend' hrest
      obtain ⟨rfl, rfl, rfl⟩ := hbody.unique hbody' hclose hclose' hlines
      exact ⟨rfl, rfl⟩

/-- **The grammar is unambiguous**: tokens have at most one derivation. -/
theorem Derives.unique {ps qs : List Piece} {ns ns' : List Node} (hp : Derives formulas ps ns)
    (hq : Derives formulas qs ns') (h : ps.flatMap Piece.tokens = qs.flatMap Piece.tokens) :
    ps = qs := by
  have hnil (q : Piece) (ts : List Token) : [] ≠ q.tokens ++ ts := by
    obtain ⟨rest, hq⟩ := q.tokens_cons
    rw [hq]
    exact List.cons_ne_nil _ _ |>.symm
  induction hp generalizing qs ns' with
  | nil =>
    cases hq with
    | nil => rfl
    | newline _ _ => exact absurd h (hnil _ _)
    | piece _ _ => exact absurd h (hnil _ _)
  | newline hk _ ih =>
    cases hq with
    | nil => exact absurd h.symm (hnil _ _)
    | newline _ hrest =>
      obtain ⟨rfl, htail⟩ := List.cons.inj h
      rw [ih hrest htail]
    | piece hn _ =>
      exact absurd ((congrArg Token.kind (Piece.first_of_tokens h)).symm.trans hk) hn.first_kind
  | piece hn _ ih =>
    cases hq with
    | nil => exact absurd h.symm (hnil _ _)
    | newline hk _ =>
      exact absurd ((congrArg Token.kind (Piece.first_of_tokens h)).trans hk) hn.first_kind
    | piece hn' hrest =>
      obtain ⟨rfl, htail⟩ := hn.unique hn' h
      rw [ih hrest htail]

end Octet.Derivation
