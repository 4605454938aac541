import Octet.Proofs.Grammar
import Octet.Proofs.Lexing

/-!
# Sources line by line

Phrases end with their lines, except for macro definitions, which end with a directive. So the nodes
of a source can be found line by line, and they do not depend on how lines are ended and where
tokens stand.

* `Grammar.Source.congr` — token lists with one outline have the same nodes, up to places;
* `Grammar.Source.redefine` — without formulas, they have the same nodes whatever formulas come to;
* `Grammar.Source.append` — what stands on lines of its own adds its nodes;
* `Grammar.Source.split` — no phrase reaches past a line end before a directive that ends no macro;
* `Grammar.Denotes` — texts and the gists of their nodes, of which `Grammar.denotes_iff` says that
  parsing finds them.
-/

namespace Octet.Grammar

open Token (outline)

variable {formulas : Formulas} {slots : Option Slots} {t u e : Token}
  {ts us left xs zs : List Token}

/-! ## Phrases with the same outline -/

theorem LineEnds.congr (ho : outline us = outline ts) (h : LineEnds ts) : LineEnds us := by
  have hhead : us.head?.map Token.kind = ts.head?.map Token.kind := by
    rw [← Token.head_outline, ho, Token.head_outline]
  intro u hu
  rw [Option.mem_def.1 hu, Option.map_some] at hhead
  obtain ⟨t, ht, hk⟩ := Option.map_eq_some_iff.1 hhead.symm
  rw [← hk]
  exact h t ht

theorem not_newline_of_endsLine (h : t.kind.endsLine = false) : t.kind ≠ .newline := by
  intro hk
  rw [hk] at h
  cases h

theorem Argument.congr {a : Arg} (h : Argument formulas slots t a) (hg : u.gist = t.gist) :
    ∃ b, Argument formulas slots u b ∧ b.gist = a.gist := by
  have hk := Token.kind_of_gist hg
  have ht := Token.text_of_gist hg (not_newline_of_endsLine h.endsLine)
  cases h with
  | register hr => exact ⟨_, .register (hk.trans hr), by rw [ht]; rfl⟩
  | literal hl hv => exact ⟨_, .literal (hk.trans hl) (by rw [ht]; exact hv), rfl⟩
  | label hl => exact ⟨_, .label (hk.trans hl), by rw [ht]; rfl⟩
  | registerParam hr hs hi hlt =>
    exact ⟨_, .registerParam (hk.trans hr) hs (by rw [ht]; exact hi) hlt, rfl⟩
  | literalParam hl hs hi hlt =>
    exact ⟨_, .literalParam (hk.trans hl) hs (by rw [ht]; exact hi) hlt, rfl⟩

theorem Parameter.congr {k : ArgKind} (h : Parameter t k) (hg : u.gist = t.gist) :
    Parameter u k := by
  have hk := Token.kind_of_gist hg
  cases h with
  | register hr => exact .register (hk.trans hr)
  | literal hl => exact .literal (hk.trans hl)

section Lists

variable {α β : Type} {item : Token → α → Prop} {items : List α}

theorem Separated.congr (h : Separated item ts items left) (gist : α → β)
    (hline : ∀ t a, item t a → t.kind.endsLine = false)
    (hitem : ∀ t a, item t a → ∀ u : Token, u.gist = t.gist → ∃ b, item u b ∧ gist b = gist a)
    (ho : outline us = outline ts) :
    ∃ items' left', Separated item us items' left' ∧ items'.map gist = items.map gist ∧
      outline left' = outline left := by
  induction h generalizing us with
  | last ha hend =>
    obtain ⟨u, vs, rfl, hg, hv⟩ := Token.outline_inv ho (not_newline_of_endsLine (hline _ _ ha))
    obtain ⟨b, hb, hgist⟩ := hitem _ _ ha u hg
    exact ⟨[b], vs, .last hb (hend.congr hv), by simp [hgist], hv⟩
  | more ha hc _ ih =>
    obtain ⟨u, vs, rfl, hg, hv⟩ := Token.outline_inv ho (not_newline_of_endsLine (hline _ _ ha))
    obtain ⟨c, ws, rfl, hcg, hw⟩ := Token.outline_inv hv (by simp [hc])
    obtain ⟨b, hb, hgist⟩ := hitem _ _ ha u hg
    obtain ⟨items', left', hs, hitems, hleft⟩ := ih hw
    exact ⟨b :: items', left', .more hb ((Token.kind_of_gist hcg).trans hc) hs,
      by simp [hgist, hitems], hleft⟩

theorem Listed.congr (h : Listed item ts items left) (gist : α → β)
    (hline : ∀ t a, item t a → t.kind.endsLine = false)
    (hitem : ∀ t a, item t a → ∀ u : Token, u.gist = t.gist → ∃ b, item u b ∧ gist b = gist a)
    (ho : outline us = outline ts) :
    ∃ items' left', Listed item us items' left' ∧ items'.map gist = items.map gist ∧
      outline left' = outline left := by
  cases h with
  | empty hend => exact ⟨[], us, .empty (hend.congr ho), rfl, ho⟩
  | items hs =>
    obtain ⟨items', left', hs', hitems, hleft⟩ := hs.congr gist hline hitem ho
    exact ⟨items', left', .items hs', hitems, hleft⟩

end Lists

theorem Listed.congr_arguments {args : List Arg} (h : Listed (Argument formulas slots) ts args left)
    (ho : outline us = outline ts) :
    ∃ args' left', Listed (Argument formulas slots) us args' left' ∧
      args'.map Arg.gist = args.map Arg.gist ∧ outline left' = outline left :=
  h.congr Arg.gist (fun _ _ => Argument.endsLine) (fun _ _ ha _ hg => ha.congr hg) ho

theorem Listed.congr_parameters {params : List ArgKind} (h : Listed Parameter ts params left)
    (ho : outline us = outline ts) :
    ∃ left', Listed Parameter us params left' ∧ outline left' = outline left := by
  obtain ⟨params', left', hp, hparams, hleft⟩ :=
    h.congr id (fun _ _ => Parameter.endsLine) (fun _ k hk _ hg => ⟨k, hk.congr hg, rfl⟩) ho
  rw [List.map_id, List.map_id] at hparams
  exact ⟨left', hparams ▸ hp, hleft⟩

theorem Statement.congr {s : Stmt} (h : Statement formulas slots ts s left)
    (ho : outline us = outline ts) :
    ∃ s' left', Statement formulas slots us s' left' ∧ s'.gist = s.gist ∧
      outline left' = outline left := by
  have hfirst := h.kind_ne
  cases h with
  | @call t form rest left args hk hargs =>
    obtain ⟨_, _, heq, hnl, -⟩ := hfirst
    cases heq
    obtain ⟨u, vs, rfl, hg, hv⟩ := Token.outline_inv ho hnl
    obtain ⟨args', left', hargs', hgist, hleft⟩ := hargs.congr_arguments hv
    refine ⟨_, left', .call ((Token.kind_of_gist hg).trans hk) hargs', ?_, hleft⟩
    simp [Stmt.gist, Call.gist, hgist, Token.text_of_gist hg hnl]
  | label hk hc =>
    obtain ⟨_, _, heq, hnl, -⟩ := hfirst
    cases heq
    obtain ⟨u, vs, rfl, hg, hv⟩ := Token.outline_inv ho hnl
    obtain ⟨c, ws, rfl, hcg, hw⟩ := Token.outline_inv hv (by simp [hc])
    refine ⟨_, ws, .label ((Token.kind_of_gist hg).trans hk) ((Token.kind_of_gist hcg).trans hc),
      ?_, hw⟩
    simp [Stmt.gist, Token.text_of_gist hg hnl]

/-- What holds after some line ends holds before them, if it does for one. -/
theorem of_lines {P : List Token → Prop}
    (hstep : ∀ l rest, l.kind = .newline → P rest → P (l :: rest)) {lines : List Token}
    (hl : ∀ l ∈ lines, l.kind = .newline) (h : P ts) : P (lines ++ ts) := by
  induction lines with
  | nil => exact h
  | cons l lines ih =>
    exact hstep l _ (hl l (List.mem_cons_self ..)) (ih fun m hm => hl m (.tail _ hm))

theorem Body.congr {slots : Slots} {body : List Stmt} (h : Body formulas slots ts body left)
    (ho : outline us = outline ts) :
    ∃ body' left', Body formulas slots us body' left' ∧ body'.map Stmt.gist = body.map Stmt.gist ∧
      outline left' = outline left := by
  induction h generalizing us with
  | @close t _ hk ht =>
    have hnl : t.kind ≠ .newline := by simp [hk]
    obtain ⟨u, vs, rfl, hg, hv⟩ := Token.outline_inv ho hnl
    exact ⟨[], vs, .close ((Token.kind_of_gist hg).trans hk) ((Token.text_of_gist hg hnl).trans ht),
      rfl, hv⟩
  | newline hk _ ih =>
    obtain ⟨lines, vs, rfl, hl, hv⟩ := Token.outline_lines ho hk
    obtain ⟨body', left', hb, hbody, hleft⟩ := ih hv
    exact ⟨body', left', of_lines (P := fun ts => Body _ _ ts _ _) (fun _ _ => .newline) hl hb,
      hbody, hleft⟩
  | stmt hs _ ih =>
    obtain ⟨s', rest', hs', hgist, hrest⟩ := hs.congr ho
    obtain ⟨body', left', hb, hbody, hleft⟩ := ih hrest
    exact ⟨s' :: body', left', .stmt hs' hb, by simp [hgist, hbody], hleft⟩

theorem Definition.congr {m : Macro} (h : Definition formulas ts m left)
    (ho : outline us = outline ts) :
    ∃ m' left', Definition formulas us m' left' ∧ m'.gist = m.gist ∧
      outline left' = outline left := by
  cases h with
  | @intro name _ _ _ _ _ hk hparams hbody =>
    have hnl : name.kind ≠ .newline := by rcases hk with hk | hk <;> simp [hk]
    obtain ⟨u, vs, rfl, hg, hv⟩ := Token.outline_inv ho hnl
    obtain ⟨middle', hparams', hmiddle⟩ := hparams.congr_parameters hv
    obtain ⟨body', left', hbody', hgist, hleft⟩ := hbody.congr hmiddle
    refine ⟨_, left', .intro (by rw [Token.kind_of_gist hg]; exact hk) hparams' hbody', ?_, hleft⟩
    simp [Macro.gist, hgist, Token.text_of_gist hg hnl]

theorem Element.congr {n : Node} (h : Element formulas ts n left) (ho : outline us = outline ts) :
    ∃ n' left', Element formulas us n' left' ∧ n'.gist = n.gist ∧ outline left' = outline left := by
  cases h with
  | @definition t _ _ _ hk ht hm =>
    have hnl : t.kind ≠ .newline := by simp [hk]
    obtain ⟨u, vs, rfl, hg, hv⟩ := Token.outline_inv ho hnl
    obtain ⟨m', left', hm', hgist, hleft⟩ := hm.congr hv
    refine ⟨_, left',
      .definition ((Token.kind_of_gist hg).trans hk) ((Token.text_of_gist hg hnl).trans ht) hm', ?_,
      hleft⟩
    simp [Node.gist, Item.gist, hgist]
  | @splice t path _ hk ht hpath hend =>
    have hnl : t.kind ≠ .newline := by simp [hk]
    have hpnl : path.kind ≠ .newline := by simp [hpath]
    obtain ⟨u, vs, rfl, hg, hv⟩ := Token.outline_inv ho hnl
    obtain ⟨path', ws, rfl, hpg, hw⟩ := Token.outline_inv hv hpnl
    refine ⟨_, ws, .splice ((Token.kind_of_gist hg).trans hk) ((Token.text_of_gist hg hnl).trans ht)
      ((Token.kind_of_gist hpg).trans hpath) (hend.congr hw), ?_, hw⟩
    simp [Node.gist, Token.text_of_gist hpg hpnl]
  | stmt hs =>
    obtain ⟨s', left', hs', hgist, hleft⟩ := hs.congr ho
    exact ⟨_, left', .stmt hs', by simp [Node.gist, Item.gist, hgist], hleft⟩

/-- **Token lists with one outline have the same nodes, up to places.** -/
theorem Source.congr {nodes : List Node} (h : Source formulas ts nodes)
    (ho : outline us = outline ts) :
    ∃ nodes', Source formulas us nodes' ∧ nodes'.map Node.gist = nodes.map Node.gist := by
  induction h generalizing us with
  | nil =>
    rcases us with _ | ⟨u, us⟩
    · exact ⟨[], .nil, rfl⟩
    · have hhead := Token.head_outline (u :: us)
      rw [ho] at hhead
      cases hhead
  | newline hk _ ih =>
    obtain ⟨lines, vs, rfl, hl, hv⟩ := Token.outline_lines ho hk
    obtain ⟨nodes', hs, hgist⟩ := ih hv
    exact ⟨nodes', of_lines (P := fun ts => Source _ ts _) (fun _ _ => .newline) hl hs, hgist⟩
  | element hn _ ih =>
    obtain ⟨n', left', hn', hgist, hleft⟩ := hn.congr ho
    obtain ⟨nodes', hs, hnodes⟩ := ih hleft
    exact ⟨n' :: nodes', .element hn' hs, by simp [hgist, hnodes]⟩

/-! ## Other formulas -/

section Redefine

variable {formulas' : Formulas}

/-- A token that is no formula. -/
def NoFormula (t : Token) : Prop := t.kind = .literal → (t.text.drop 1).head? ≠ some '('.toUInt8

instance (t : Token) : Decidable (NoFormula t) := inferInstanceAs (Decidable (_ → _))

theorem Argument.redefine {a : Arg} (h : Argument formulas slots t a) (ht : NoFormula t) :
    Argument formulas' slots t a := by
  cases h with
  | register hk => exact .register hk
  | literal hk hv =>
    refine .literal hk ?_
    simp only [literalValue?, if_neg (ht hk)] at hv ⊢
    exact hv
  | label hk => exact .label hk
  | registerParam hk hs hi hlt => exact .registerParam hk hs hi hlt
  | literalParam hk hs hi hlt => exact .literalParam hk hs hi hlt

theorem Separated.imp {α : Type} {item item' : Token → α → Prop} {items : List α}
    (h : Separated item ts items left) (hitem : ∀ t ∈ ts, ∀ a, item t a → item' t a) :
    Separated item' ts items left := by
  induction h with
  | last ha hend => exact .last (hitem _ (List.mem_cons_self ..) _ ha) hend
  | more ha hc _ ih =>
    exact .more (hitem _ (List.mem_cons_self ..) _ ha) hc
      (ih fun t ht => hitem t (.tail _ (.tail _ ht)))

theorem Statement.redefine {s : Stmt} (h : Statement formulas slots ts s left)
    (hts : ∀ t ∈ ts, NoFormula t) :
    Statement formulas' slots ts s left := by
  cases h with
  | label hk hc => exact .label hk hc
  | call hk hargs =>
    refine .call hk ?_
    cases hargs with
    | empty hend => exact .empty hend
    | items hs => exact .items (hs.imp fun t ht a ha => ha.redefine (hts t (.tail _ ht)))

theorem Body.redefine {slots : Slots} {body : List Stmt} (h : Body formulas slots ts body left)
    (hts : ∀ t ∈ ts, NoFormula t) : Body formulas' slots ts body left := by
  induction h with
  | close hk ht => exact .close hk ht
  | newline hk _ ih => exact .newline hk (ih fun t ht => hts t (.tail _ ht))
  | stmt hs _ ih => exact .stmt (hs.redefine hts) (ih fun t ht => hts t (hs.suffix.subset ht))

theorem Element.redefine {n : Node} (h : Element formulas ts n left) (hts : ∀ t ∈ ts, NoFormula t) :
    Element formulas' ts n left := by
  cases h with
  | definition hk ht hm =>
    cases hm with
    | intro hname hparams hbody =>
      refine .definition hk ht (.intro hname hparams (hbody.redefine fun t ht => hts t ?_))
      exact .tail _ (.tail _ (hparams.suffix.subset ht))
  | splice hk ht hpath hend => exact .splice hk ht hpath hend
  | stmt hs => exact .stmt (hs.redefine hts)

/-- **Where there is no formula, nothing depends on what formulas come to.** -/
theorem Source.redefine {nodes : List Node} (h : Source formulas ts nodes)
    (hts : ∀ t ∈ ts, NoFormula t) :
    Source formulas' ts nodes := by
  induction h with
  | nil => exact .nil
  | newline hk _ ih => exact .newline hk (ih fun t ht => hts t (.tail _ ht))
  | element hn _ ih => exact .element (hn.redefine hts) (ih fun t ht => hts t (hn.suffix.subset ht))

end Redefine

/-! ## Lines that follow -/

section Append

variable (he : e.kind = .newline) (zs : List Token)
include he

theorem LineEnds.append (h : LineEnds ts) : LineEnds (ts ++ e :: zs) := by
  rcases ts with _ | ⟨t, ts⟩
  · intro u hu
    cases hu
    rw [he]
    rfl
  · intro u hu
    exact h u hu

theorem Separated.append {α : Type} {item : Token → α → Prop} {items : List α}
    (h : Separated item ts items left) :
    Separated item (ts ++ e :: zs) items (left ++ e :: zs) := by
  induction h with
  | last ha hend => exact .last ha (hend.append he zs)
  | more ha hc _ ih => exact .more ha hc ih

theorem Listed.append {α : Type} {item : Token → α → Prop} {items : List α}
    (h : Listed item ts items left) :
    Listed item (ts ++ e :: zs) items (left ++ e :: zs) := by
  cases h with
  | empty hend => exact .empty (hend.append he zs)
  | items hs => exact .items (hs.append he zs)

theorem Statement.append {s : Stmt} (h : Statement formulas slots ts s left) :
    Statement formulas slots (ts ++ e :: zs) s (left ++ e :: zs) := by
  cases h with
  | call hk hargs => exact .call hk (hargs.append he zs)
  | label hk hc => exact .label hk hc

theorem Body.append {slots : Slots} {body : List Stmt} (h : Body formulas slots ts body left) :
    Body formulas slots (ts ++ e :: zs) body (left ++ e :: zs) := by
  induction h with
  | close hk ht => exact .close hk ht
  | newline hk _ ih => exact .newline hk ih
  | stmt hs _ ih => exact .stmt (hs.append he zs) ih

theorem Element.append {n : Node} (h : Element formulas ts n left) :
    Element formulas (ts ++ e :: zs) n (left ++ e :: zs) := by
  cases h with
  | definition hk ht hm =>
    cases hm with
    | intro hname hparams hbody =>
      exact .definition hk ht (.intro hname (hparams.append he zs) (hbody.append he zs))
  | splice hk ht hpath hend => exact .splice hk ht hpath (hend.append he zs)
  | stmt hs => exact .stmt (hs.append he zs)

/-- **What stands on lines of its own adds its nodes.** -/
theorem Source.append {zs : List Token} {nodes more : List Node} (h : Source formulas ts nodes)
    (hz : Source formulas zs more) : Source formulas (ts ++ e :: zs) (nodes ++ more) := by
  induction h with
  | nil => exact .newline he hz
  | newline hk _ ih => exact .newline hk ih
  | element hn _ ih => exact .element (hn.append he zs) ih

end Append

/-! ## Lines that a phrase does not reach -/

section Split

theorem LineEnds.before (h : LineEnds (xs ++ e :: zs)) : LineEnds xs := by
  rcases xs with _ | ⟨x, xs⟩
  · intro u hu
    cases hu
  · intro u hu
    exact h u hu

/-- A macro body holds no directive but the one that ends it. -/
theorem Body.text_of_directive {slots : Slots} {body : List Stmt}
    (h : Body formulas slots (t :: ts) body left) (hk : t.kind = .directive) :
    t.text = utf8 "@endmacro" := by
  cases h with
  | close _ ht => exact ht
  | newline hn _ => simp [hk] at hn
  | stmt hs _ =>
    obtain ⟨_, _, heq, -, hdir⟩ := hs.kind_ne
    cases heq
    exact absurd hk hdir

/-- The next line starts with a directive that ends no macro. -/
def StartsDirective (zs : List Token) : Prop :=
  ∃ d rest, zs = d :: rest ∧ d.kind = .directive ∧ d.text ≠ utf8 "@endmacro"

variable (he : e.kind = .newline)
include he

/-- A token that ends no line stands before the line end. -/
theorem before_line {rest : List Token} (h : t :: rest = xs ++ e :: zs) (ht : t.kind ≠ .newline) :
    ∃ ys, xs = t :: ys ∧ rest = ys ++ e :: zs := by
  rcases xs with _ | ⟨x, ys⟩
  · cases h
    exact absurd he ht
  · cases h
    exact ⟨ys, rfl, rfl⟩

theorem Separated.before {α : Type} {item : Token → α → Prop} {items : List α}
    (hline : ∀ t a, item t a → t.kind.endsLine = false)
    (h : Separated item (xs ++ e :: zs) items left) :
    ∃ ys, left = ys ++ e :: zs ∧ Separated item xs items ys := by
  generalize hw : xs ++ e :: zs = ws at h
  induction h generalizing xs with
  | last ha hend =>
    obtain ⟨ys, rfl, rfl⟩ := before_line he hw.symm (not_newline_of_endsLine (hline _ _ ha))
    exact ⟨ys, rfl, .last ha hend.before⟩
  | more ha hc _ ih =>
    obtain ⟨ys, rfl, hy⟩ := before_line he hw.symm (not_newline_of_endsLine (hline _ _ ha))
    obtain ⟨vs, rfl, rfl⟩ := before_line he hy (by simp [hc])
    obtain ⟨rest, hleft, hs⟩ := ih rfl
    exact ⟨rest, hleft, .more ha hc hs⟩

theorem Listed.before {α : Type} {item : Token → α → Prop} {items : List α}
    (hline : ∀ t a, item t a → t.kind.endsLine = false)
    (h : Listed item (xs ++ e :: zs) items left) :
    ∃ ys, left = ys ++ e :: zs ∧ Listed item xs items ys := by
  cases h with
  | empty hend => exact ⟨xs, rfl, .empty hend.before⟩
  | items hs =>
    obtain ⟨ys, hleft, hs'⟩ := hs.before he hline
    exact ⟨ys, hleft, .items hs'⟩

theorem Statement.before {s : Stmt} (h : Statement formulas slots (xs ++ e :: zs) s left) :
    ∃ ys, left = ys ++ e :: zs ∧ Statement formulas slots xs s ys := by
  generalize hw : xs ++ e :: zs = ws at h
  obtain ⟨_, _, heq, hnl, -⟩ := h.kind_ne
  cases h with
  | call hk hargs =>
    cases heq
    obtain ⟨ys, rfl, rfl⟩ := before_line he hw.symm hnl
    obtain ⟨rest, hleft, hargs'⟩ := hargs.before he fun _ _ => Argument.endsLine
    exact ⟨rest, hleft, .call hk hargs'⟩
  | label hk hc =>
    cases heq
    obtain ⟨ys, rfl, hy⟩ := before_line he hw.symm hnl
    obtain ⟨vs, rfl, rfl⟩ := before_line he hy (by simp [hc])
    exact ⟨vs, rfl, .label hk hc⟩

variable (hz : StartsDirective zs)
include hz

theorem Body.before {slots : Slots} {body : List Stmt}
    (h : Body formulas slots (xs ++ e :: zs) body left) :
    ∃ ys, left = ys ++ e :: zs ∧ Body formulas slots xs body ys := by
  generalize hw : xs ++ e :: zs = ws at h
  induction h generalizing xs with
  | close hk ht =>
    obtain ⟨ys, rfl, rfl⟩ := before_line he hw.symm (by simp [hk])
    exact ⟨ys, rfl, .close hk ht⟩
  | newline hk hb ih =>
    rcases xs with _ | ⟨x, xs⟩
    · cases hw
      obtain ⟨d, rest, rfl, hd, htext⟩ := hz
      exact absurd (hb.text_of_directive hd) htext
    · cases hw
      obtain ⟨ys, hleft, hb'⟩ := ih rfl
      exact ⟨ys, hleft, .newline hk hb'⟩
  | stmt hs _ ih =>
    subst hw
    obtain ⟨ys, rfl, hs'⟩ := hs.before he
    obtain ⟨rest, hleft, hb'⟩ := ih rfl
    exact ⟨rest, hleft, .stmt hs' hb'⟩

theorem Element.before {n : Node} (h : Element formulas (xs ++ e :: zs) n left) :
    ∃ ys, left = ys ++ e :: zs ∧ Element formulas xs n ys := by
  generalize hw : xs ++ e :: zs = ws at h
  cases h with
  | definition hk ht hm =>
    obtain ⟨ys, rfl, rfl⟩ := before_line he hw.symm (by simp [hk])
    generalize hv : ys ++ e :: zs = vs at hm
    cases hm with
    | intro hname hparams hbody =>
      obtain ⟨ws, rfl, rfl⟩ := before_line he hv.symm (by rcases hname with h | h <;> simp [h])
      obtain ⟨middle, rfl, hparams'⟩ := hparams.before he fun _ _ => Parameter.endsLine
      obtain ⟨rest, hleft, hbody'⟩ := hbody.before he hz
      exact ⟨rest, hleft, .definition hk ht (.intro hname hparams' hbody')⟩
  | splice hk ht hpath hend =>
    obtain ⟨ys, rfl, hy⟩ := before_line he hw.symm (by simp [hk])
    obtain ⟨vs, rfl, rfl⟩ := before_line he hy (by simp [hpath])
    exact ⟨vs, rfl, .splice hk ht hpath hend.before⟩
  | stmt hs =>
    subst hw
    obtain ⟨ys, hleft, hs'⟩ := hs.before he
    exact ⟨ys, hleft, .stmt hs'⟩

/-- **No phrase reaches past a line end before a directive that ends no macro.** -/
theorem Source.split {nodes : List Node} (h : Source formulas (xs ++ e :: zs) nodes) :
    ∃ first last, nodes = first ++ last ∧ Source formulas xs first ∧ Source formulas zs last := by
  generalize hw : xs ++ e :: zs = ws at h
  induction h generalizing xs with
  | nil => simp at hw
  | newline hk hs ih =>
    rcases xs with _ | ⟨x, xs⟩
    · cases hw
      exact ⟨[], _, rfl, .nil, hs⟩
    · cases hw
      obtain ⟨first, last, rfl, hf, hl⟩ := ih rfl
      exact ⟨first, last, rfl, .newline hk hf, hl⟩
  | element hn _ ih =>
    subst hw
    obtain ⟨ys, rfl, hn'⟩ := hn.before he hz
    obtain ⟨first, last, rfl, hf, hl⟩ := ih rfl
    exact ⟨_ :: first, last, rfl, .element hn' hf, hl⟩

end Split

/-! ## Texts -/

/-- The text stands for nodes with these gists. -/
def Denotes (formulas : Formulas) (x : Text) (gists : List Node) : Prop :=
  ∃ ts nodes, Token.lexemes x = some ts ∧ Source formulas ts nodes ∧ nodes.map Node.gist = gists

variable {file x y : Text} {gists : List Node}

theorem ofSource_eq_ok {nodes : List Node} :
    Node.ofSource file x formulas = .ok nodes ↔
      ∃ ts, Token.scan file x = .ok ts ∧ Source formulas ts nodes := by
  rw [Node.ofSource, Except.bind_eq_ok]
  simp only [Node.ofTokens]
  constructor
  · rintro ⟨ts, hscan, h⟩
    exact ⟨ts, hscan, (readNodes_eq_ok rfl).1 h⟩
  · rintro ⟨ts, hscan, h⟩
    exact ⟨ts, hscan, (readNodes_eq_ok rfl).2 h⟩

/-- **What a text stands for is what parsing it gives, under any name.** -/
theorem denotes_iff (file : Text) :
    Denotes formulas x gists ↔
      ∃ nodes, Node.ofSource file x formulas = .ok nodes ∧ nodes.map Node.gist = gists := by
  have hscan := Token.scan_outline file x
  constructor
  · rintro ⟨ts, nodes, hlex, hs, rfl⟩
    rw [hlex, Option.map_some] at hscan
    obtain ⟨us, hus, ho⟩ := Option.map_eq_some_iff.1 hscan
    obtain ⟨nodes', hs', hgist⟩ := hs.congr ho
    exact ⟨nodes', ofSource_eq_ok.2 ⟨us, Except.toOption_eq_some.1 hus, hs'⟩, hgist⟩
  · rintro ⟨nodes, h, rfl⟩
    obtain ⟨us, hus, hs⟩ := ofSource_eq_ok.1 h
    rw [Except.toOption_eq_some.2 hus, Option.map_some] at hscan
    obtain ⟨ts, hlex, ho⟩ := Option.map_eq_some_iff.1 hscan.symm
    obtain ⟨nodes', hs', hgist⟩ := hs.congr ho
    exact ⟨ts, nodes', hlex, hs', hgist⟩

/-- A text after another, on a line of its own, adds its nodes. -/
theorem Denotes.append {c : UInt8} (hc : Text.isLineEnd c = true) {more : List Node}
    (hx : Denotes formulas x gists) (hy : Denotes formulas y more) :
    Denotes formulas (x ++ c :: y) (gists ++ more) := by
  obtain ⟨ts, nodes, hts, hs, rfl⟩ := hx
  obtain ⟨us, nodes', hus, hs', rfl⟩ := hy
  exact ⟨ts ++ Token.lineBreak :: us, nodes ++ nodes', by simp [Token.lexemes_append hc, hts, hus],
    hs.append rfl hs', by simp⟩

end Octet.Grammar
