import Octet.Proofs.OperandIndependence

/-!
# Parameters are bound by position

A macro numbers its parameters kind by kind, and a call lists its arguments in one row. Binding
counts the arguments of each kind on their own: the parameter `%rN` stands for the argument before
which `N` registers are given, and `%lN` for the one before which `N` literals or labels are given,
however the kinds are mixed. Nothing else in the body changes, so every line of it selects what it
selected before.

* `Arg.Nth` — the argument of a kind with a number, said without taking the kinds apart;
* `Arg.Numbered` — a parameter has the number in its text, as all that are parsed have
  (`Grammar.Parsed.numbered`);
* `Arg.Bound`, `Stmt.Bound` — what arguments and statements become for the arguments of a call;
* `binding_is_positional` — **binding a macro to arguments of its kinds replaces each parameter by
  the argument that it numbers, and nothing else**.
-/

namespace Octet

/-! ## Arguments by number -/

/-- The argument has the kind, and `n` arguments of the kind stand before it. -/
structure Arg.Nth (args : List Arg) (k : ArgKind) (n : Nat) (a : Arg) : Prop where
  kind : a.kind = k
  place : ∃ before after, args = before ++ a :: after ∧ (before.map Arg.kind).count k = n

/-- What an argument in the body of a macro becomes: a parameter with a number in its text becomes
the argument of its kind with that number, and any other argument stays. -/
inductive Arg.Bound (args : List Arg) : Arg → Arg → Prop
  | closed {a : Arg} (h : a.Closed) : Bound args a a
  | registerParam {ds : Text} {n : Nat} {t : Token} {b : Arg}
    (ht : t.text = '%'.toUInt8 :: 'r'.toUInt8 :: ds)
    (hn : Text.natOfDigits? 10 ds = some n) (hb : Nth args .register n b) :
      Bound args (.registerParam n t) b
  | literalParam {ds : Text} {n : Nat} {t : Token} {b : Arg}
    (ht : t.text = '%'.toUInt8 :: 'l'.toUInt8 :: ds)
    (hn : Text.natOfDigits? 10 ds = some n) (hb : Nth args .literal n b) :
      Bound args (.literalParam n t) b

/-- What a statement in the body of a macro becomes. The arguments of a call keep their kinds, and
all that is no argument stays. -/
inductive Stmt.Bound (args : List Arg) : Stmt → Stmt → Prop
  | call {c d : Call} (hform : d.form = c.form) (hname : d.name = c.name)
    (htoken : d.token = c.token)
    (hargs : List.Forall₂ (Arg.Bound args) c.args d.args) (hkinds : d.kinds = c.kinds) :
      Bound args (.call c) (.call d)
  | label {name : Text} {t : Token} : Bound args (.label name t) (.label name t)

/-- What stands at a place among the arguments of a class has as many of them before it. -/
theorem split_of_getElem?_filter {p : Arg → Bool} {args : List Arg} {n : Nat} {a : Arg}
    (h : (args.filter p)[n]? = some a) :
    ∃ before after, args = before ++ a :: after ∧ p a = true ∧ before.countP p = n := by
  induction args generalizing n with
  | nil => simp at h
  | cons b args ih =>
    by_cases hb : p b = true
    · rw [List.filter_cons_of_pos hb] at h
      cases n with
      | zero =>
        obtain rfl : b = a := by simpa using h
        exact ⟨[], args, rfl, hb, rfl⟩
      | succ n =>
        obtain ⟨before, after, rfl, ha, hn⟩ := ih (by simpa using h)
        exact ⟨b :: before, after, rfl, ha, by rw [List.countP_cons_of_pos hb, hn]⟩
    · rw [List.filter_cons_of_neg hb] at h
      obtain ⟨before, after, rfl, ha, hn⟩ := ih h
      exact ⟨b :: before, after, rfl, ha, by rw [List.countP_cons_of_neg hb, hn]⟩

/-- Among the arguments of a kind, the one at a place is the one with that number. -/
theorem Arg.nth_of_filter {p : Arg → Bool} {k : ArgKind} (hp : ∀ a, p a = (a.kind == k))
    {args : List Arg} {n : Nat} {a : Arg} (h : (args.filter p)[n]? = some a) : Nth args k n a := by
  obtain ⟨before, after, hargs, ha, hn⟩ := split_of_getElem?_filter h
  obtain rfl : p = fun a => a.kind == k := funext hp
  refine ⟨by simpa using ha, before, after, hargs, ?_⟩
  rw [List.count_eq_countP, List.countP_map]
  exact hn

/-! ## Numbers in the text -/

/-- A parameter has the number that its text gives. -/
def Arg.Numbered : Arg → Prop
  | registerParam i t =>
    ∃ (ds : Text) (n : Nat), t.text = '%'.toUInt8 :: 'r'.toUInt8 :: ds ∧
      Text.natOfDigits? 10 ds = some n ∧ i = n
  | literalParam i t =>
    ∃ (ds : Text) (n : Nat), t.text = '%'.toUInt8 :: 'l'.toUInt8 :: ds ∧
      Text.natOfDigits? 10 ds = some n ∧ i = n
  | _ => True

namespace Grammar

open Token (Spelt)

variable {formulas : Formulas}

theorem Argument.numbered {slots : Option Slots} {t : Token} {a : Arg}
    (h : Argument formulas slots t a) (ht : Spelt t.kind t.text) : a.Numbered := by
  cases h with
  | register _ => trivial
  | literal _ _ => trivial
  | label _ => trivial
  | registerParam hk _ hi _ =>
    obtain ⟨ds, n, htext, hn, -, hi⟩ := Spelt.number_of_registerParam (hk ▸ ht) hi
    exact ⟨ds, n, htext, hn, hi⟩
  | literalParam hk _ hi _ =>
    obtain ⟨ds, n, htext, hn, -, hi⟩ := Spelt.number_of_literalParam (hk ▸ ht) hi
    exact ⟨ds, n, htext, hn, hi⟩

/-- **The parameters of a parsed macro have the numbers in their texts.** -/
theorem Parsed.numbered {m : Macro} (h : Parsed formulas (.definition m)) :
    ∀ s ∈ m.body, s.Args Arg.Numbered := by
  obtain ⟨file, source, ts, us, rest, hscan, hus, helement⟩ := h.element
  have hspelt : ∀ t ∈ us, Spelt t.kind t.text := fun t ht => Token.scan_spelt hscan t (hus.mem ht)
  cases helement with
  | definition _ _ hm =>
    cases hm with
    | intro _ hparams hbody =>
      exact hbody.args fun t ht _ ha =>
        ha.numbered (hspelt t (.tail _ (.tail _ (hparams.suffix.mem ht))))

end Grammar

/-! ## Binding -/

/-- **A parameter becomes the argument that it numbers.** -/
theorem Arg.bound_substitute {args : List Arg} {a : Arg}
    (hwithin : a.Within (args.filter isRegister).length (args.filter fun b => !b.isRegister).length)
    (hnumber : a.Numbered) :
    Bound args a (a.substitute (args.filter isRegister) (args.filter fun b => !b.isRegister)) := by
  -- The place that the number names is there, so nothing stays in place of the parameter.
  have hget (p : Arg → Bool) (k : ArgKind) (hp : ∀ b, p b = (b.kind == k)) (a : Arg) (n : Nat)
      (h : 0 ≤ (n : Int) ∧ (n : Int) < (args.filter p).length) :
      Nth args k n (if 0 ≤ (n : Int) then ((args.filter p)[(n : Int).toNat]?).getD a else a) := by
    have hlt : n < (args.filter p).length := by omega
    rw [if_pos h.1, Int.toNat_natCast, List.getElem?_eq_getElem hlt, Option.getD_some]
    exact nth_of_filter hp (List.getElem?_eq_getElem hlt)
  cases a with
  | register _ _ _ => exact .closed .register
  | literal _ _ => exact .closed .literal
  | label _ _ => exact .closed .label
  | registerParam i t =>
    obtain ⟨ds, n, ht, hn, rfl⟩ := hnumber
    exact .registerParam ht hn (hget _ _ (fun _ => rfl) _ n hwithin)
  | literalParam i t =>
    obtain ⟨ds, n, ht, hn, rfl⟩ := hnumber
    exact .literalParam ht hn (hget _ _ not_isRegister_eq _ n hwithin)

/-- The parameters of a macro are within any arguments of its kinds. -/
theorem Macro.Sound.within_args {m : Macro} (hm : m.Sound) {args : List Arg}
    (hargs : args.map Arg.kind = m.params) :
    ∀ s ∈ m.body, s.Args
      (Arg.Within (args.filter Arg.isRegister).length
        (args.filter fun a => !a.isRegister).length) := by
  have hkey : m.key = Call.key ⟨.word, m.name, args, m.token⟩ := by rw [Macro.key, ← hargs]; rfl
  exact hm.within_call hkey

/-- **Binding a macro to arguments of its kinds replaces each parameter by the argument that it
numbers, and nothing else.** The body keeps its length and its statements their forms, names and
places; the calls keep the kinds of their arguments. -/
theorem binding_is_positional (file source : Text) (formulas : Formulas) (nodes : List Node)
    (hnodes : Node.ofSource file source formulas = .ok nodes) (m : Macro)
    (hm : .item (.definition m) ∈ nodes) (args : List Arg) (hargs : args.map Arg.kind = m.params) :
    List.Forall₂ (Stmt.Bound args) m.body (m.bind args) := by
  have hparsed : Grammar.Parsed formulas (.definition m) := ⟨file, source, nodes, hnodes, hm⟩
  have hwithin := Macro.Sound.within_args hparsed.sound hargs
  have hnumbered := hparsed.numbered
  rw [Macro.bind, List.forall₂_map_right_iff, List.forall₂_same]
  intro s hs
  cases s with
  | label name t => exact .label
  | call c =>
    refine .call rfl rfl rfl ?_ ?_
    · rw [List.forall₂_map_right_iff, List.forall₂_same]
      intro a ha
      exact Arg.bound_substitute (hwithin _ hs a ha) (hnumbered _ hs a ha)
    · simp [Call.kinds, Function.comp_def, Arg.kind_substitute]

/-- A macro with parameters of both kinds in turn, which it uses in another order. -/
def mixed : Text :=
  utf8 "@macro mix %l0, %r0, %l1, %r1\nmov %r1, %l1\nput %l0, #3, %r0\n@endmacro\n"

/-- What is parsed from its text. -/
def mixing : Macro where
  name := utf8 "mix"
  params := [.literal, .register, .literal, .register]
  body := [
    .call ⟨.mnemonic, utf8 "mov", [.registerParam 1 ⟨.registerParam, utf8 "%r1", [], 34, 2⟩,
      .literalParam 1 ⟨.literalParam, utf8 "%l1", [], 39, 2⟩],
        ⟨.instruction, utf8 "mov", [], 30, 2⟩⟩,
    .call ⟨.word, utf8 "put", [.literalParam 0 ⟨.literalParam, utf8 "%l0", [], 47, 3⟩,
      .literal 3 ⟨.literal, utf8 "#3", [], 52, 3⟩,
      .registerParam 0 ⟨.registerParam, utf8 "%r0", [], 56, 3⟩], ⟨.word, utf8 "put", [], 43, 3⟩⟩]
  token := ⟨.word, utf8 "mix", [], 7, 1⟩

/-- The arguments of `mix #7, r0, $far, rv` on a line of its own. -/
def mixedArgs : List Arg := [
  .literal 7 ⟨.literal, utf8 "#7", [], 4, 1⟩,
    .register (utf8 "r0") .r0 ⟨.register, utf8 "r0", [], 8, 1⟩,
  .label (utf8 "far") ⟨.label, utf8 "$far", [], 12, 1⟩,
    .register (utf8 "rv") .rv ⟨.register, utf8 "rv", [], 18, 1⟩]

theorem binding_is_positional_mixed :
    (Node.ofSource [] mixed .valueless).toOption = some [.item (.definition mixing)] ∧
      (mixing.bind mixedArgs).head? = some (.call ⟨.mnemonic, utf8 "mov",
        [.register (utf8 "rv") .rv ⟨.register, utf8 "rv", [], 18, 1⟩,
          .label (utf8 "far") ⟨.label, utf8 "$far", [], 12, 1⟩],
            ⟨.instruction, utf8 "mov", [], 30, 2⟩⟩) ∧
      List.Forall₂ (Stmt.Bound mixedArgs) mixing.body (mixing.bind mixedArgs) := by
  have hnodes : (Node.ofSource [] mixed .valueless).toOption = some [.item (.definition mixing)] :=
    by decide +kernel
  have hok := Except.toOption_eq_some.1 hnodes
  exact ⟨hnodes, rfl, binding_is_positional [] mixed .valueless _ hok mixing
    (List.mem_singleton_self _) mixedArgs rfl⟩

end Octet
