import Octet.Proofs.LineRules
import Octet.Proofs.ParameterBinding
import Octet.Proofs.SourceLines

/-!
# Places in one source

Tokens know where they stand, and a fault of reading a source points at a place in it.

* `Token.StandsIn` — tokens that name a place in a text, as scanned tokens do
  (`Token.scan_standsIn`);
* `Fault.PointsAt` — faults that point at a place in a text and quote its line;
* `Fault.isSpecific` — faults that say what is wrong;
* `Parser.Blames` — such faults at one of the tokens that were read, or at the end; the parser gives
  no other (`Parser.readNodes_blames`);
* `Node.tokens` — the tokens that syntax keeps, which are among those that were read
  (`Grammar.Source.tokens`);
* `Node.ofSource_standsIn`, `Node.ofSource_pointsAt` — **what is read from a source stands there,
  and a fault of reading it points there**.
-/

namespace Octet

/-! ## Places -/

/-- The token names a place in a text: an offset that lies in it or at its end, with the line of the
offset. -/
structure Token.StandsIn (t : Token) (file text : Text) : Prop where
  file : t.file = file
  place : ∃ n : Nat, n ≤ text.length ∧ t.offset = n ∧ t.line = Source.lineOf text n

/-- The fault points at a place in a text and quotes the line there. -/
def Fault.PointsAt (f : Fault) (file text : Text) : Prop :=
  ∃ (n : Nat) (inner : Fault), n ≤ text.length ∧
    f = .located file n (Source.lineOf text n) (Source.lineAt text n) inner

namespace Token

open Text (lineFeeds)

/-! ## Scanning -/

theorem lineOf_add (source : Text) (offset count : Nat) :
    Source.lineOf source (offset + count) =
      Source.lineOf source offset + lineFeeds ((source.drop offset).take count) := by
  unfold Source.lineOf lineFeeds
  rw [List.take_add, List.count_append]
  omega

/-- The place that scanning has reached: what is left of the source, from an offset on a line. -/
structure Reached (source : Text) (offset line : Nat) (input : Text) : Prop where
  inside : offset ≤ source.length
  line : line = Source.lineOf source offset
  input : source.drop offset = input

theorem Reached.start (source : Text) : Reached source 0 1 source where
  inside := Nat.zero_le _
  line := by simp [Source.lineOf, lineFeeds]
  input := List.drop_zero

theorem Reached.advance {source : Text} {offset line count : Nat} {input : Text}
    (h : Reached source offset line input) (hcount : count ≤ input.length) :
    Reached source (offset + count) (line + lineFeeds (input.take count)) (input.drop count) where
  inside := by
    have hlength := congrArg List.length h.input
    rw [List.length_drop] at hlength
    have := h.inside
    omega
  line := by rw [lineOf_add, h.input, h.line]
  input := by rw [← List.drop_drop, h.input]

/-- A match moves on by the bytes that it takes. -/
theorem Reached.step {source rest : Text} {offset line : Nat} {b : UInt8} {m : Match}
    (h : Reached source offset line (b :: rest)) (hm : firstMatch? (b :: rest) = some m) :
    Reached source (offset + (b :: rest.take m.more).length)
      (line + lineFeeds (b :: rest.take m.more))
      (rest.drop m.more) := by
  have hmore := more_le hm
  have hlength : (b :: rest.take m.more).length = m.more + 1 := by
    simp
    omega
  have hnext := h.advance (show m.more + 1 ≤ (b :: rest).length by simpa using hmore)
  rw [hlength]
  exact hnext

variable {file source input : Text} {offset line : Nat} {found : Array Token}

theorem scanFrom_standsIn {ts : List Token}
    (h : scanFrom file source offset line found input = .ok ts)
    (hreached : Reached source offset line input) (hfound : ∀ t ∈ found, t.StandsIn file source) :
    ∀ t ∈ ts, t.StandsIn file source := by
  fun_induction scanFrom file source offset line found input with
  | case1 =>
    cases h
    simpa using hfound
  | case2 => cases h
  | case3 offset line found b rest m hm bytes found' ih =>
    apply ih h (hreached.step hm)
    intro t ht
    simp only [found'] at ht
    split at ht
    · rcases Array.mem_push.1 ht with hold | rfl
      · exact hfound t hold
      · exact ⟨rfl, offset, hreached.inside, rfl, by rw [hreached.line]⟩
    · exact hfound t ht

theorem scanFrom_pointsAt {f : Fault} (h : scanFrom file source offset line found input = .error f)
    (hreached : Reached source offset line input) : f.PointsAt file source := by
  fun_induction scanFrom file source offset line found input with
  | case1 => cases h
  | case2 offset line found b rest hm =>
    cases h
    exact ⟨offset, _, hreached.inside, by rw [unmatched, hreached.line]⟩
  | case3 offset line found b rest m hm bytes found' ih => exact ih h (hreached.step hm)

/-- **Scanned tokens stand in their source.** -/
theorem scan_standsIn {ts : List Token} (h : scan file source = .ok ts) :
    ∀ t ∈ ts, t.StandsIn file source :=
  scanFrom_standsIn h (Reached.start source) (by simp)

theorem scan_pointsAt {f : Fault} (h : scan file source = .error f) : f.PointsAt file source :=
  scanFrom_pointsAt h (Reached.start source)

end Token

/-! ## Details -/

/-- The causes that name a stage of an assembly. -/
def Cause.isStage : Cause → Bool
  | lex => true
  | parse => true
  | resolution => true
  | range => true
  | recursion => true
  | _ => false

/-- The fault says what is wrong, and not only at which stage. -/
def Fault.isSpecific (f : Fault) : Bool :=
  f.anyIn fun
    | cause c => !c.isStage
    | all _ => false
    | inMacro .. => false
    | located .. => false
    | running .. => false
    | _ => true

theorem Formulas.literal_fault {formulas : Formulas} {text : Text} {f : Fault}
    (h : formulas.literal text = .error f) :
    f.isSpecific = true := by
  unfold literal at h
  split at h
  · split at h
    · cases h
      rfl
    · split at h
      · cases h
      · cases h
        rfl
  · cases h
    rfl

/-! ## Parsing -/

namespace Parser

/-- The fault lies at one of the tokens, or at the end of the source, and says what is wrong
there. -/
def Blames (p : Parser) (ts : List Token) (f : Fault) : Prop :=
  ∃ t parts, (t ∈ ts ∨ t = p.finish) ∧ parts.any Fault.isSpecific = true ∧ f = p.fail t parts

variable {p : Parser} {slots : Option Slots} {t : Token} {ts us : List Token} {f : Fault}

section

variable {parts : List Fault} (hparts : parts.any Fault.isSpecific = true)
include hparts

theorem blames_of_mem (ht : t ∈ ts) : p.Blames ts (p.fail t parts) :=
  ⟨t, parts, .inl ht, hparts, rfl⟩

theorem blames_finish : p.Blames ts (p.fail p.finish parts) :=
  ⟨p.finish, parts, .inr rfl, hparts, rfl⟩

theorem blames_next : p.Blames ts (p.fail (p.next ts) parts) := by
  cases ts with
  | nil => exact blames_finish hparts
  | cons u ts => exact blames_of_mem hparts (List.mem_cons_self ..)

end

theorem Blames.mono (h : p.Blames ts f) (hsub : ts ⊆ us) : p.Blames us f := by
  obtain ⟨t, parts, ht, hparts, hf⟩ := h
  exact ⟨t, parts, ht.imp_left fun hmem => hsub hmem, hparts, hf⟩

/-! ### Arguments and parameters -/

theorem readLiteral_blames (h : p.readLiteral t = .error f) : p.Blames [t] f := by
  have ht : t ∈ [t] := List.mem_singleton_self t
  simp only [readLiteral] at h
  split at h
  · split at h
    · cases h
    · rename_i hliteral
      cases h
      have hspecific := Formulas.literal_fault hliteral
      exact blames_of_mem (by rw [List.any_cons, hspecific, Bool.true_or]) ht
  · split at h
    · cases h
      exact blames_of_mem rfl ht
    · split at h
      · cases h
        exact blames_of_mem rfl ht
      · split at h
        · cases h
          exact blames_of_mem rfl ht
        · cases h

theorem readParamArg_blames (h : p.readParamArg slots t = .error f) : p.Blames [t] f := by
  have ht : t ∈ [t] := List.mem_singleton_self t
  unfold readParamArg at h
  split at h
  · cases h
    exact blames_of_mem rfl ht
  · split at h
    · cases h
      exact blames_of_mem rfl ht
    · split at h
      · split at h
        · cases h
          exact blames_of_mem rfl ht
        · cases h
      · split at h
        · cases h
          exact blames_of_mem rfl ht
        · cases h

theorem readArg_blames (h : p.readArg slots t = .error f) : p.Blames [t] f := by
  unfold readArg at h
  split at h
  · cases h
  · exact readLiteral_blames (Except.map_eq_error.1 h)
  · cases h
  · exact readParamArg_blames h
  · exact readParamArg_blames h
  · cases h
    exact blames_of_mem rfl (List.mem_singleton_self t)

theorem readParam_blames (h : p.readParam t = .error f) : p.Blames [t] f := by
  unfold readParam at h
  split at h
  · cases h
  · cases h
  · cases h
    exact blames_of_mem rfl (List.mem_singleton_self t)

/-! ### Lists -/

theorem readSeparated_blames {α : Type} {read : Token → Except Fault α} {missing : Fault}
    (hread : ∀ t f, read t = .error f → p.Blames [t] f) (hmissing : ∀ ts, p.Blames ts missing)
    (h : Grammar.readSeparated p missing read ts = .error f) : p.Blames ts f := by
  fun_induction Grammar.readSeparated p missing read ts with
  | case1 =>
    cases h
    exact hmissing []
  | case2 t rest ih =>
    rcases Except.bind_eq_error.1 h with he | ⟨a, -, h⟩
    · exact (hread t _ he).mono (by simp)
    · rcases rest with _ | ⟨u, more⟩
      · cases h
      · simp only at h
        split at h
        · rcases Except.bind_eq_error.1 h with he | ⟨_, -, h⟩
          · exact (ih he).mono fun _ hv => .tail _ (.tail _ hv)
          · cases h
        · split at h
          · cases h
          · cases h
            exact blames_of_mem rfl (by simp)

theorem readArgs_blames (h : p.readArgs slots ts = .error f) : p.Blames ts f := by
  unfold readArgs at h
  split at h
  · cases h
  · rw [Grammar.readArgList_eq] at h
    exact readSeparated_blames (fun _ _ => readArg_blames) (fun _ => blames_finish rfl) h

theorem readParams_blames (h : p.readParams ts = .error f) : p.Blames ts f := by
  unfold readParams at h
  split at h
  · cases h
  · rw [Grammar.readParamList_eq] at h
    exact readSeparated_blames (fun _ _ => readParam_blames) (fun _ => blames_finish rfl) h

/-! ### Statements and macros -/

theorem readStmt_blames (h : p.readStmt slots t ts = .error f) : p.Blames (t :: ts) f := by
  have hargs {next : List Arg × List Token → Except Fault (Stmt × List Token)}
      (hnext : ∀ r, next r ≠ .error f)
      (hbind : p.readArgs slots ts >>= next = .error f) : p.Blames (t :: ts) f := by
    rcases Except.bind_eq_error.1 hbind with he | ⟨r, -, hr⟩
    · exact (readArgs_blames he).mono (List.subset_cons_self ..)
    · exact absurd hr (hnext r)
  unfold readStmt at h
  split at h
  · exact hargs (by simp) h
  · exact hargs (by simp) h
  · split at h
    · cases h
    · cases h
      exact (blames_next rfl).mono (List.subset_cons_self ..)
  · cases h
    exact blames_of_mem rfl (List.mem_cons_self ..)

section

variable (hp : p.finish.kind = .endOfInput)
include hp

theorem readBody_blames {slots : Slots} {opener : Token} {found : Array Stmt}
    (h : p.readBody slots opener found ts = .error f) : p.Blames (opener :: ts) f := by
  fun_induction readBody p slots opener found ts with
  | case1 =>
    cases h
    exact blames_of_mem rfl (List.mem_cons_self ..)
  | case2 found t rest hk ih =>
    exact (ih h).mono (List.cons_subset_cons _ (List.subset_cons_self ..))
  | case3 => cases h
  | case4 =>
    cases h
    exact blames_of_mem rfl (by simp)
  | case5 =>
    cases h
    exact blames_of_mem rfl (by simp)
  | case6 found t rest f' hs =>
    cases h
    exact (readStmt_blames hs).mono (List.subset_cons_self ..)
  | case7 found t rest s left hs _ _ ih =>
    have hleft := ((Grammar.readStmt_eq_ok hp).1 hs).suffix
    exact (ih h).mono (List.cons_subset_cons _ hleft.subset)

theorem readMacro_blames {opener : Token} (h : p.readMacro opener ts = .error f) :
    p.Blames (opener :: ts) f := by
  unfold readMacro at h
  simp only at h
  split at h
  · have htail : ts.tail ⊆ ts := ts.tail_suffix.subset
    rcases Except.bind_eq_error.1 h with he | ⟨⟨params, middle⟩, hparams, h⟩
    · exact (readParams_blames he).mono fun _ hv => .tail _ (htail hv)
    · have hmiddle := ((Grammar.readParams_eq_ok hp).1 hparams).suffix
      rcases Except.bind_eq_error.1 h with he | ⟨_, -, h⟩
      · exact (readBody_blames hp he).mono
          (List.cons_subset_cons _ fun _ hv => htail (hmiddle.subset hv))
      · cases h
  · cases h
    exact (blames_next rfl).mono (List.subset_cons_self ..)

theorem readNode_blames (h : p.readNode t ts = .error f) : p.Blames (t :: ts) f := by
  have ht : t ∈ t :: ts := List.mem_cons_self ..
  unfold readNode at h
  split at h
  · unfold readDirective at h
    split at h
    · rcases Except.bind_eq_error.1 h with he | ⟨_, -, h⟩
      · exact readMacro_blames hp he
      · cases h
    · split at h
      · cases h
        exact blames_of_mem rfl ht
      · split at h
        · simp only at h
          split at h
          · rcases Except.bind_eq_error.1 h with he | ⟨_, -, h⟩
            · unfold endLine at he
              split at he
              · cases he
              · cases he
                exact (blames_next rfl).mono fun _ hv => .tail _ (ts.tail_suffix.subset hv)
            · cases h
          · cases h
            exact (blames_next rfl).mono (List.subset_cons_self ..)
        · cases h
          exact blames_of_mem rfl ht
  · rcases Except.bind_eq_error.1 h with he | ⟨_, -, h⟩
    · exact readStmt_blames he
    · cases h

/-- **The parser blames one of the tokens that it reads**, or the end. -/
theorem readNodes_blames {found : Array Node} (h : p.readNodes found ts = .error f) :
    p.Blames ts f := by
  fun_induction readNodes p found ts with
  | case1 => cases h
  | case2 found t rest hk ih => exact (ih h).mono (List.subset_cons_self ..)
  | case3 found t rest hk f' hn =>
    cases h
    exact readNode_blames hp hn
  | case4 found t rest hk n left hn ih =>
    have hleft := ((Grammar.readNode_eq_ok hp).1 hn).suffix
    exact (ih h).mono hleft.subset

end

end Parser

/-! ## Tokens of syntax -/

def Call.tokens (c : Call) : List Token := c.token :: c.args.map Arg.token

def Stmt.tokens : Stmt → List Token
  | call c => c.tokens
  | label _ t => [t]

def Macro.tokens (m : Macro) : List Token := m.token :: m.body.flatMap Stmt.tokens

def Item.tokens : Item → List Token
  | stmt s => s.tokens
  | definition m => m.tokens

def Node.tokens : Node → List Token
  | item i => i.tokens
  | splice _ t => [t]

namespace Grammar

variable {formulas : Formulas} {slots : Option Slots} {t : Token} {ts left : List Token}

theorem Argument.token {a : Arg} (h : Argument formulas slots t a) : a.token = t := by
  cases h <;> rfl

theorem Statement.tokens {s : Stmt} (h : Statement formulas slots ts s left) : s.tokens ⊆ ts := by
  cases h with
  | @call t _ rest _ args _ hargs =>
    have hall : ∀ a ∈ args, a.token ∈ rest :=
      hargs.forall_items fun u hu a (ha : Argument formulas slots u a) =>
        show a.token ∈ rest from ha.token.symm ▸ hu
    apply List.cons_subset_cons
    intro u hu
    obtain ⟨a, ha, rfl⟩ := List.mem_map.1 hu
    exact hall a ha
  | label _ _ => simp [Stmt.tokens]

theorem Body.tokens {slots : Slots} {body : List Stmt} (h : Body formulas slots ts body left) :
    ∀ s ∈ body, s.tokens ⊆ ts := by
  induction h with
  | close _ _ => simp
  | newline _ _ ih => exact fun s hs => List.subset_cons_of_subset _ (ih s hs)
  | stmt hstmt _ ih =>
    intro s hs
    rcases List.mem_cons.1 hs with rfl | hs
    · exact hstmt.tokens
    · exact fun u hu => hstmt.suffix.subset (ih s hs hu)

theorem Definition.tokens {m : Macro} (h : Definition formulas ts m left) : m.tokens ⊆ ts := by
  cases h with
  | intro _ hparams hbody =>
    apply List.cons_subset_cons
    intro u hu
    obtain ⟨s, hs, hu⟩ := List.mem_flatMap.1 hu
    exact hparams.suffix.subset (hbody.tokens s hs hu)

theorem Element.tokens {n : Node} (h : Element formulas ts n left) : n.tokens ⊆ ts := by
  cases h with
  | definition _ _ h => exact List.subset_cons_of_subset _ h.tokens
  | splice _ _ _ _ => simp [Node.tokens]
  | stmt h => exact h.tokens

/-- The tokens of nodes are among those that they were read from. -/
theorem Source.tokens {nodes : List Node} (h : Source formulas ts nodes) :
    ∀ n ∈ nodes, n.tokens ⊆ ts := by
  induction h with
  | nil => simp
  | newline _ _ ih => exact fun n hn => List.subset_cons_of_subset _ (ih n hn)
  | element hnode _ ih =>
    intro n hn
    rcases List.mem_cons.1 hn with rfl | hn
    · exact hnode.tokens
    · exact fun u hu => hnode.suffix.subset (ih n hn hu)

end Grammar

/-! ## Sources -/

section

variable {file source : Text} {formulas : Formulas}

/-- A fault at a token of a source points into the source. -/
theorem Parser.fail_pointsAt {t : Token} (ht : t.StandsIn file source) (parts : List Fault) :
    ((Parser.ofSource file source formulas).fail t parts).PointsAt file source := by
  obtain ⟨hfile, n, hn, hoffset, hline⟩ := ht
  refine ⟨n, .all (.cause .parse :: parts), hn, ?_⟩
  rw [Parser.fail, hfile, hoffset, hline]
  rfl

theorem Parser.finish_standsIn :
    (Parser.ofSource file source formulas).finish.StandsIn file source :=
  ⟨rfl, source.length, Nat.le_refl _, rfl, rfl⟩

/-- **What is read from a source stands there.** -/
theorem Node.ofSource_standsIn {nodes : List Node}
    (h : Node.ofSource file source formulas = .ok nodes) :
    ∀ n ∈ nodes, ∀ t ∈ n.tokens, t.StandsIn file source := by
  obtain ⟨ts, hscan, hs⟩ := Grammar.ofSource_eq_ok.1 h
  intro n hn t ht
  exact Token.scan_standsIn hscan t (hs.tokens n hn ht)

/-- **A fault of reading a source points there**, whether the source cannot be scanned or cannot be
parsed. -/
theorem Node.ofSource_pointsAt {f : Fault} (h : Node.ofSource file source formulas = .error f) :
    f.PointsAt file source := by
  rcases Except.bind_eq_error.1 h with hscan | ⟨ts, hscan, hparse⟩
  · exact Token.scan_pointsAt hscan
  · obtain ⟨t, parts, ht, -, rfl⟩ := Parser.readNodes_blames rfl hparse
    apply Parser.fail_pointsAt
    rcases ht with ht | rfl
    · exact Token.scan_standsIn hscan t ht
    · exact Parser.finish_standsIn

end

end Octet
