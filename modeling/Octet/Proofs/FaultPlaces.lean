import Octet.Proofs.Resolvers
import Octet.Proofs.TokenPlaces

/-!
# Faults point at the right place

A failed assembly points at an offset of one of the sources that it read, with the line of that
offset. The tokens that faults are located by travel far from their source, through includes and the
binding of macros, so the argument is about all tokens that each stage hands on.

* `Token.Known`, `Fault.InSources` — tokens and faults that name a place in a table of sources;
* `Expansion.IncludeContext.Meets`, `Expansion.IncludeContext.Reads` — the includes that an
  expansion comes to, and the sources that it reads;
* `Expansion.visitNode_traced` — **one visit**: tokens stay known, and the table holds only the root
  source and included ones;
* `Macro.bind_tokens`, `Layout.encode_fault` and others — where the tokens and the faults of the
  later stages come from;
* `Layout.Unfit` — arguments that cannot be encoded, and what their faults say;
* `assemble_eq_error` — the stage at which an assembly stops;
* `assemble_fault_points_at_source` — **every fault of an assembly points at its source**.
-/

namespace Octet

/-! ## Known places -/

/-- The token stands in the source of the table that it names. -/
def Token.Known (sources : Table Text) (t : Token) : Prop :=
  ∃ text, sources.find? t.file = some text ∧ t.StandsIn t.file text

/-- The fault points into a source of the table. -/
def Fault.InSources (sources : Table Text) (f : Fault) : Prop :=
  ∃ file text, sources.find? file = some text ∧ f.PointsAt file text

/-- A fault at a known token points into its source. -/
theorem Token.Known.fault {sources : Table Text} {t : Token} (h : t.Known sources)
    (calls : List Site) (parts : List Fault) :
    (Fault.at sources t calls parts).InSources sources := by
  obtain ⟨text, hfind, -, n, hn, hoffset, hline⟩ := h
  refine ⟨t.file, text, hfind, n, Fault.within calls (.all parts), hn, ?_⟩
  rw [Fault.at, hfind, hoffset, hline]
  rfl

namespace Expansion

open Worklist

/-! ## Includes -/

section Visit

variable {ctx : IncludeContext} {chain : List Text} {s s' : IncludeState} {n : Node}

theorem visitNode_done_sources (h : visitNode ctx chain s n = .done s') :
    s'.sources = s.sources := by
  cases n with
  | item i =>
    cases h
    rfl
  | splice path t =>
    simp only [visitNode] at h
    split at h
    · cases h
    · split at h
      · cases h
      · split at h <;> cases h

theorem visitNode_enter_sources {path text : Text} {t : Token} {inner : List Text}
    {nodes : List Node} {f : Fault} (hfind : ctx.resolver.find path = some text)
    (h : visitNode ctx chain s (.splice path t) = .enter s' inner nodes f) :
    s'.sources = s.sources.insert path text := by
  simp only [visitNode, hfind] at h
  split at h
  · cases h
  · split at h
    · cases h
    · cases h
      rfl

/-- An include fails because its path is on the way to it, because nobody knows the path, or because
the source of the path cannot be read. -/
theorem visitNode_fail {f : Fault} (h : visitNode ctx chain s n = .fail s' f) :
    ∃ path t, n = .splice path t ∧ s'.items = s.items ∧
      ((s'.sources = s.sources ∧ ∃ part, f = .at s.sources t [] [.cause .resolution, part] ∧
          (path ∈ chain ∧ part = .includeCycle path ∨
            path ∉ chain ∧ ctx.resolver.find path = none ∧ part = .includeMissing path)) ∨
        ∃ text, ctx.resolver.find path = some text ∧ s'.sources = s.sources.insert path text ∧
          Node.ofSource path text ctx.formulas = .error f) := by
  cases n with
  | item i => cases h
  | splice path t =>
    refine ⟨path, t, rfl, ?_⟩
    simp only [visitNode, List.contains_iff_mem] at h
    split at h
    · rename_i hmem
      cases h
      exact ⟨rfl, .inl ⟨rfl, _, rfl, .inl ⟨hmem, rfl⟩⟩⟩
    · rename_i hnew
      split at h
      · rename_i hfind
        cases h
        exact ⟨rfl, .inl ⟨rfl, _, rfl, .inr ⟨hnew, hfind, rfl⟩⟩⟩
      · rename_i text hfind
        split at h
        · rename_i e he
          cases h
          exact ⟨rfl, .inr ⟨text, hfind, rfl, he⟩⟩
        · cases h

end Visit

section Includes

variable {ctx : IncludeContext} {source : Text} {nodes : List Node}

/-- Expanding the includes of a source comes to an include of `path` at `t`, inside of the sources
of `outer`. -/
def IncludeContext.Meets (ctx : IncludeContext) (source : Text) (outer : List Text) (path : Text)
    (t : Token) : Prop :=
  ∃ nodes s, Node.ofSource [] source ctx.formulas = .ok nodes ∧
    Visits (visitNode ctx) (Stack.capacityOf ctx.limit) [⟨[], nodes⟩] ⟨[([], source)], #[], #[]⟩
      outer s
      (.splice path t)

/-- Expanding the includes of a source reads the text of a file: the source itself, whose path is
empty, or what the resolver finds for an included path. -/
def IncludeContext.Reads (ctx : IncludeContext) (source file text : Text) : Prop :=
  file = [] ∧ text = source ∨
    ctx.resolver.find file = some text ∧ ∃ outer t, ctx.Meets source outer file t

/-- The sources in the table have been read, and the tokens of all items are known there. -/
structure Traced (ctx : IncludeContext) (source : Text) (s : IncludeState) : Prop where
  reads : ∀ file text, s.sources.find? file = some text → ctx.Reads source file text
  items : ∀ i ∈ s.items, ∀ t ∈ i.tokens, t.Known s.sources

variable {s s' : IncludeState} {path text : Text}

theorem Traced.same (h : Traced ctx source s) (hsources : s'.sources = s.sources)
    (hitems : s'.items = s.items) :
    Traced ctx source s' where
  reads := by
    rw [hsources]
    exact h.reads
  items := by
    rw [hsources, hitems]
    exact h.items

section

variable (hempty : ctx.resolver.find [] = none) (h : Traced ctx source s)
  (hfind : ctx.resolver.find path = some text)
include hempty h hfind

/-- A source that is read again is the same, and the resolver does not know the path of the root. -/
theorem Traced.known_insert {t : Token} (ht : t.Known s.sources) :
    t.Known (s.sources.insert path text) := by
  obtain ⟨text', hfile, hstands⟩ := ht
  refine ⟨text', ?_, hstands⟩
  by_cases hf : t.file = path
  · have htext : text = text' := by
      rcases h.reads _ _ hfile with ⟨hroot, -⟩ | ⟨hfind', -⟩
      · rw [← hf, hroot, hempty] at hfind
        cases hfind
      · rw [← hf, hfind'] at hfind
        exact (Option.some.inj hfind).symm
    rw [hf, Table.find?_insert_self, htext]
  · rw [Table.find?_insert_ne hf]
    exact hfile

theorem Traced.insert {outer : List Text} {u : Token} (hmeets : ctx.Meets source outer path u)
    (hsources : s'.sources = s.sources.insert path text) (hitems : s'.items = s.items) :
    Traced ctx source s' where
  reads := by
    intro file text' hfile
    rw [hsources] at hfile
    by_cases hf : file = path
    · subst hf
      rw [Table.find?_insert_self] at hfile
      cases hfile
      exact .inr ⟨hfind, outer, u, hmeets⟩
    · rw [Table.find?_insert_ne hf] at hfile
      exact h.reads file text' hfile
  items := by
    rw [hsources, hitems]
    exact fun i hi t ht => h.known_insert hempty hfind (h.items i hi t ht)

end

/-- **One visit** keeps all tokens known, and adds no source that an include does not name. -/
theorem visitNode_traced (hempty : ctx.resolver.find [] = none)
    (hnodes : Node.ofSource [] source ctx.formulas = .ok nodes) :
    RunInvariant (visitNode ctx) (Stack.capacityOf ctx.limit) [⟨[], nodes⟩]
      ⟨[([], source)], #[], #[]⟩
      (fun s _ n => ∀ t ∈ n.tokens, t.Known s.sources) (Traced ctx source) where
  done := by
    intro chain n s s' _ hn hs hv
    have hsources := visitNode_done_sources hv
    obtain ⟨i, rfl, hitems⟩ := visitNode_done hv
    rw [hsources]
    refine ⟨⟨by rw [hsources]; exact hs.reads, ?_⟩, fun _ _ hm => hm⟩
    intro j hj
    rw [hsources]
    rw [hitems] at hj
    rcases Array.mem_push.1 hj with hj | rfl
    · exact hs.items j hj
    · exact hn
  fail := by
    intro chain n s s' f hvisit hn hs hv
    obtain ⟨path, t, rfl, hitems, ⟨hsources, -⟩ | ⟨text, hfind, hsources, -⟩⟩ := visitNode_fail hv
    · exact hs.same hsources hitems
    · exact hs.insert hempty hfind ⟨nodes, s, hnodes, hvisit⟩ hsources hitems
  enter := by
    intro chain n s s' inner items f hvisit hn hs hv
    obtain ⟨path, t, text, rfl, -, hfind, hinner, -, hitems⟩ := visitNode_enter hv
    have hsources := visitNode_enter_sources hfind hv
    refine ⟨hs.insert hempty hfind ⟨nodes, s, hnodes, hvisit⟩ hsources hitems, ?_⟩
    rw [hsources]
    refine ⟨fun _ _ hm u hu => hs.known_insert hempty hfind (hm u hu), ?_⟩
    intro m hm u hu
    have hstands := Node.ofSource_standsIn hinner m hm u hu
    exact ⟨text, by rw [hstands.file, Table.find?_insert_self], hstands.file ▸ hstands⟩

theorem root_traced : Traced ctx source ⟨[([], source)], #[], #[]⟩ where
  reads := by
    intro file text hfile
    have hmem := Table.mem_of_find? hfile
    rw [List.mem_singleton] at hmem
    cases hmem
    exact .inl ⟨rfl, rfl⟩
  items := by simp

/-- The run starts with the tokens of the root source. -/
theorem root_known {formulas : Formulas} (hnodes : Node.ofSource [] source formulas = .ok nodes) :
    Frames (fun (_ : List Text) (n : Node) => ∀ t ∈ n.tokens, t.Known [([], source)])
      [⟨[], nodes⟩] := by
  have hknown : ∀ n ∈ nodes, ∀ t ∈ n.tokens, t.Known [([], source)] := by
    intro n hn t ht
    have hstands := Node.ofSource_standsIn hnodes n hn t ht
    exact ⟨source, by rw [hstands.file]; exact Table.find?_cons_self, hstands.file ▸ hstands⟩
  exact frames_singleton.2 hknown

section

variable (hempty : ctx.resolver.find [] = none)
  (hnodes : Node.ofSource [] source ctx.formulas = .ok nodes)
include hempty hnodes

/-- **The expansion of includes** leaves sources that it has read, whether it succeeds or not. -/
theorem expandIncludes_traced : Traced ctx source (reached (expandIncludes ctx source nodes)) :=
  (visitNode_traced hempty hnodes).reached_run (root_known hnodes) root_traced
    (Stack.capacityOf_pos ctx.limit)

/-- If the expansion of includes fails, then at a place in a source that it has read. -/
theorem expandIncludes_fault {f : Fault} {s' : IncludeState}
    (h : expandIncludes ctx source nodes = .error (f, s')) :
    f.InSources s'.sources := by
  obtain ⟨chain, s, n, hvisit, hend⟩ := run_eq_error h
  obtain ⟨hn, hs⟩ := (visitNode_traced hempty hnodes).visits (root_known hnodes) root_traced hvisit
  rcases hend with hfail | ⟨inner, items, henter⟩
  · obtain ⟨path, t, rfl, -, ⟨hsources, part, rfl, -⟩ | ⟨text, hfind, hsources, hread⟩⟩ :=
      visitNode_fail hfail
    · rw [hsources]
      exact (hn t (List.mem_singleton_self t)).fault [] _
    · rw [hsources]
      exact ⟨path, text, Table.find?_insert_self .., Node.ofSource_pointsAt hread⟩
  · -- An include that is nested too deeply fails when its source is in the table already; its token
    -- must be known there.
    obtain ⟨path, t, text, rfl, -, hfind, -, -, -⟩ := visitNode_enter henter
    have hknown := hs.known_insert hempty hfind (hn t (List.mem_singleton_self t))
    rw [← visitNode_enter_sources hfind henter] at hknown
    rw [visitNode_tooDeep henter]
    exact hknown.fault [] _

end

end Includes

/-! ## Macros -/

section Macros

variable {sources : Table Text}

/-- A definition that fails has the key of one before it. -/
theorem collectMacros_fault {macros macros' : Table Macro} {stmts : Array Stmt} {items : List Item}
    {f : Fault} (h : collectMacros sources macros stmts items = .error (f, macros')) :
    ∃ before m after, items = before ++ .definition m :: after ∧
      ((macros.find? m.key).isSome ∨ m.key ∈ (definitions before).map Macro.key) ∧
      f = .at sources m.token [] [.cause .resolution, .cause .macroDuplicate] := by
  induction items generalizing macros stmts with
  | nil => cases h
  | cons i items ih =>
    cases i with
    | stmt s =>
      obtain ⟨before, m, after, rfl, hkey, hf⟩ := ih h
      exact ⟨.stmt s :: before, m, after, rfl, hkey, hf⟩
    | definition m =>
      rw [collectMacros] at h
      split at h
      · rename_i hfound
        cases h
        exact ⟨[], m, items, rfl, .inl hfound, rfl⟩
      · obtain ⟨before, m', after, rfl, hkey, hf⟩ := ih h
        refine ⟨.definition m :: before, m', after, rfl, ?_, hf⟩
        -- The table that the rest starts with has one key more.
        by_cases hm : m'.key = m.key
        · exact .inr (by simp [definitions, hm])
        · rw [Table.find?_cons_ne hm] at hkey
          exact hkey.imp_right fun hmem => .tail _ hmem

end Macros

end Expansion

/-! ## Binding -/

/-- An argument that replaces a parameter keeps the place where it was written. -/
theorem Arg.substitute_token (registers literals : List Arg) (a : Arg) :
    (a.substitute registers literals).token ∈ a.token :: (registers ++ literals).map Arg.token := by
  have hget (args : List Arg) (i : Nat) (hargs : args ⊆ registers ++ literals) :
      ((args[i]?).getD a).token ∈ a.token :: (registers ++ literals).map Arg.token := by
    cases hi : args[i]? with
    | none => exact List.mem_cons_self ..
    | some b => exact .tail _ (List.mem_map.2 ⟨b, hargs (List.mem_of_getElem? hi), rfl⟩)
  cases a with
  | registerParam index t =>
    simp only [substitute]
    split
    · exact hget registers _ (List.subset_append_left ..)
    · exact List.mem_cons_self ..
  | literalParam index t =>
    simp only [substitute]
    split
    · exact hget literals _ (List.subset_append_right ..)
    · exact List.mem_cons_self ..
  | _ => exact List.mem_cons_self ..

/-- **The tokens of a bound body** are those of the macro and of the arguments. -/
theorem Macro.bind_tokens (m : Macro) (args : List Arg) :
    ∀ s ∈ m.bind args, s.tokens ⊆ m.tokens ++ args.map Arg.token := by
  intro s hs
  obtain ⟨d, hd, rfl⟩ := List.mem_map.1 hs
  have hbody : d.tokens ⊆ m.tokens := fun t ht => .tail _ (List.mem_flatMap.2 ⟨d, hd, ht⟩)
  intro t ht
  cases d with
  | label name u => exact List.mem_append_left _ (hbody ht)
  | call c =>
    rcases List.mem_cons.1 ht with rfl | ht
    · exact List.mem_append_left _ (hbody (List.mem_cons_self ..))
    · simp only [List.map_map, List.mem_map] at ht
      obtain ⟨a, ha, rfl⟩ := ht
      rcases List.mem_cons.1 (Arg.substitute_token _ _ a) with heq | hmem
      · rw [Function.comp_apply, heq]
        exact List.mem_append_left _ (hbody (.tail _ (List.mem_map.2 ⟨a, ha, rfl⟩)))
      · obtain ⟨b, hb, heq⟩ := List.mem_map.1 hmem
        rw [Function.comp_apply, ← heq]
        have hb' : b ∈ args := by
          rcases List.mem_append.1 hb with hb | hb
          · exact (List.mem_filter.1 hb).1
          · exact (List.mem_filter.1 hb).1
        exact List.mem_append_right _ (List.mem_map.2 ⟨b, hb', rfl⟩)

namespace Expansion

open Worklist

def Placed.tokens : Placed → List Token
  | label _ t _ => [t]
  | instruction _ c _ => c.tokens

section Macros

variable {ctx : MacroContext}

/-- **One visit** places statements with known tokens, and enters bodies with known tokens. -/
theorem visitStmt_known
    (hmacros : ∀ key m, ctx.macros.find? key = some m → ∀ t ∈ m.tokens, t.Known ctx.sources) :
    Invariant (visitStmt ctx) (fun _ x => ∀ t ∈ x.tokens, t.Known ctx.sources)
      fun s => ∀ x ∈ s.placed, ∀ t ∈ x.tokens, t.Known ctx.sources where
  done := by
    intro calls stmt s s' hstmt hs hv x hx
    obtain ⟨name, t, rfl, hp⟩ | ⟨c, entry, rfl, -, hp⟩ := visitStmt_done hv
    · rw [hp] at hx
      rcases Array.mem_push.1 hx with hx | rfl
      · exact hs x hx
      · exact hstmt
    · rw [hp] at hx
      rcases Array.mem_push.1 hx with hx | rfl
      · exact hs x hx
      · exact hstmt
  fail := by
    intro calls stmt s s' f hstmt hs hv
    rw [visitStmt_fail_state hv]
    exact hs
  enter := by
    intro calls stmt s s' inner items f hstmt hs hv
    obtain ⟨c, m, rfl, -, hm, hp, -, rfl⟩ := visitStmt_enter hv
    refine ⟨hp ▸ hs, ?_⟩
    intro x hx t ht
    rcases List.mem_append.1 (m.bind_tokens c.args x hx ht) with ht | ht
    · exact hmacros _ m hm t ht
    · exact hstmt t (.tail _ ht)

section

variable {stmts : List Stmt}
  (hmacros : ∀ key m, ctx.macros.find? key = some m → ∀ t ∈ m.tokens, t.Known ctx.sources)
  (hstmts : ∀ x ∈ stmts, ∀ t ∈ x.tokens, t.Known ctx.sources)
include hmacros hstmts

/-- What the expansion of macros places has known tokens. -/
theorem expandMacros_known :
    ∀ x ∈ (reached (expandMacros ctx stmts)).placed, ∀ t ∈ x.tokens, t.Known ctx.sources :=
  (visitStmt_known hmacros).reached_run _ ⟨#[], #[]⟩ (Stack.capacityOf_pos ctx.limit)
    (frames_singleton.2 hstmts)
    (by simp)

/-- If the expansion of macros fails, then at a call with known tokens. -/
theorem expandMacros_fault {f : Fault} {s' : MacroState}
    (h : expandMacros ctx stmts = .error (f, s')) :
    f.InSources ctx.sources := by
  obtain ⟨calls, s, x, hvisit, hend⟩ := run_eq_error h
  obtain ⟨hx, -⟩ := (visitStmt_known hmacros).visits hvisit (frames_singleton.2 hstmts) (by simp)
  rcases hend with hfail | ⟨inner, items, henter⟩
  · obtain ⟨c, rfl, -, -, rfl⟩ := visitStmt_fail hfail
    exact (hx c.token (List.mem_cons_self ..)).fault calls _
  · obtain ⟨c, m, rfl, -, -, -, -, -⟩ := visitStmt_enter henter
    rw [visitStmt_tooDeep henter]
    exact (hx c.token (List.mem_cons_self ..)).fault _ _

end

end Macros

end Expansion

/-! ## Layout -/

namespace Layout

open Expansion (Placed)

variable {sources : Table Text}

/-- The first label that fails does so at its own token, because its name has an address already or
because its address is too large. -/
theorem assignLabels_fault {verbose : Bool} {s s' : LabelState} {address : Nat}
    {placed : List Placed} {f : Fault}
    (h : assignLabels sources verbose s address placed = .error (f, s')) :
    ∃ before name t calls after, placed = before ++ .label name t calls :: after ∧
      Fits s.labels (addresses address before) ∧
      ((((s.labels.find? name).isSome ∨ name ∈ (addresses address before).map Prod.fst) ∧
          f = .at sources t calls [.cause .resolution, .labelDuplicate name]) ∨
        (lastAddress < address + extent before ∧
          f = .at sources t calls
            [.cause .range, .literalRange (address + extent before) lastAddress])) := by
  induction placed generalizing s address with
  | nil => cases h
  | cons x placed ih =>
    cases x with
    | label name t calls =>
      rw [assignLabels] at h
      split at h
      · rename_i hfound
        cases h
        exact ⟨[], name, t, calls, placed, rfl, ⟨Table.fresh_nil, by simp [addresses]⟩,
          .inl ⟨.inl hfound, rfl⟩⟩
      · rename_i hnew
        split at h
        · rename_i hlarge
          cases h
          exact ⟨[], name, t, calls, placed, rfl, ⟨Table.fresh_nil, by simp [addresses]⟩,
            .inr ⟨hlarge, rfl⟩⟩
        · rename_i hsmall
          obtain ⟨before, name', t', calls', after, rfl, hfits, hcase⟩ := ih h
          refine ⟨.label name t calls :: before, name', t', calls', after, rfl, ?_, ?_⟩
          · exact fits_cons.2 ⟨by simpa using hnew, Nat.le_of_not_lt hsmall, hfits⟩
          obtain ⟨hfound, hf⟩ | hlarge := hcase
          · refine .inl ⟨?_, hf⟩
            -- The table that the rest starts with has one name more.
            by_cases hname : name' = name
            · exact .inr (by simp [addresses, hname])
            · rw [Table.find?_cons_ne hname] at hfound
              exact hfound.imp_right fun hmem => .tail _ hmem
          · simpa [extent, Placed.size] using .inr hlarge
    | instruction entry c calls =>
      obtain ⟨before, name', t', calls', after, rfl, hfits, hcase⟩ := ih h
      refine ⟨.instruction entry c calls :: before, name', t', calls', after, rfl, hfits, ?_⟩
      simpa only [addresses, extent, Placed.size, Nat.add_assoc] using hcase

/-- Arguments that do not fit the operand layout of their instruction, with the place and the fault
of the one that does not: a label or a large literal as a byte, a label without an address or a
large literal as an address. -/
inductive Unfit (labels : Table UInt16) : Shape → List Arg → Token → Cause → Fault → Prop
  | byteLabel {a name t rest} :
    Unfit labels .registerLiteral (a :: .label name t :: rest) t .range (.cause .labelImmediate)
  | byteRange {a value t rest} : 0xff < value.toNat →
    Unfit labels .registerLiteral (a :: .literal value t :: rest) t .range
      (.literalRange value.toNat 0xff)
  | missing {name t rest} : labels.find? name = none →
    Unfit labels .literal (.label name t :: rest) t .resolution (.labelMissing name)
  | addressRange {value t rest} : lastAddress < value.toNat →
    Unfit labels .literal (.literal value t :: rest) t .range
      (.literalRange value.toNat lastAddress)

theorem Unfit.token {labels : Table UInt16} {shape : Shape} {args : List Arg} {t : Token}
    {stage : Cause} {part : Fault} (h : Unfit labels shape args t stage part) :
    t ∈ args.map Arg.token := by
  cases h <;> simp [Arg.token]

theorem Unfit.encode {labels : Table UInt16} {entry : Instruction} {c : Call} {t : Token}
    {stage : Cause} {part : Fault} (h : Unfit labels entry.shape c.args t stage part)
    (calls : List Site) :
    encode sources labels entry c calls = .error (.at sources t calls [.cause stage, part]) := by
  unfold Layout.encode
  generalize entry.shape = shape at h
  generalize c.args = args at h
  cases h with
  | byteLabel => rfl
  | byteRange hlarge => exact if_pos hlarge
  | missing hfind => simp only [addressOf, hfind, bind, Except.bind]
  | addressRange hlarge => exact if_pos hlarge

/-- An instruction fails at an argument that does not fit, or at its own token if its arguments are
not operands. -/
theorem encode_fault {labels : Table UInt16} {entry : Instruction} {c : Call} {calls : List Site}
    {f : Fault} (h : encode sources labels entry c calls = .error f) :
    (∃ t stage part, Unfit labels entry.shape c.args t stage part ∧
      f = .at sources t calls [.cause stage, part]) ∨
      f = .at sources c.token calls [.cause .resolution, .unknownInstruction entry.key] := by
  unfold encode at h
  split at h
  · cases h
  · rename_i a b rest hshape hargs
    rw [hshape, hargs]
    split at h
    · cases h
      exact .inl ⟨_, _, _, .byteLabel, rfl⟩
    · split at h
      · rename_i hlarge
        cases h
        exact .inl ⟨_, _, _, .byteRange hlarge, rfl⟩
      · cases h
    · cases h
  · cases h
  · rename_i a rest hshape hargs
    rw [hshape, hargs]
    rcases Except.bind_eq_error.1 h with he | ⟨value, hvalue, h⟩
    · unfold addressOf at he
      split at he
      · split at he
        · cases he
        · rename_i hfind
          cases he
          exact .inl ⟨_, _, _, .missing hfind, rfl⟩
      · cases he
      · cases he
    · split at h
      · rename_i hlarge
        cases h
        -- An address from the table of labels is never too large.
        unfold addressOf at hvalue
        split at hvalue
        · split at hvalue
          · rename_i address _
            cases hvalue
            exact absurd address.toNat_lt (by simp only [lastAddress] at hlarge; omega)
          · cases hvalue
        · cases hvalue
          exact .inl ⟨_, _, _, .addressRange hlarge, rfl⟩
        · cases hvalue
          exact absurd hlarge (by simp)
      · cases h
  · cases h
    exact .inr rfl

/-- The first instruction that fails ends the second pass. -/
theorem emit_fault {labels : Table UInt16} {rows : Array Row} {address : Nat} {placed : List Placed}
    {f : Fault} (h : emit sources labels rows address placed = .error f) :
    ∃ before entry c calls after, placed = before ++ .instruction entry c calls :: after ∧
      (∀ entry' c' calls', .instruction entry' c' calls' ∈ before →
        ∃ code, encode sources labels entry' c' calls' = .ok code) ∧
      encode sources labels entry c calls = .error f := by
  induction placed generalizing rows address with
  | nil => cases h
  | cons x placed ih =>
    cases x with
    | label name t calls =>
      obtain ⟨before, entry, c, calls', after, rfl, hbefore, hf⟩ := ih h
      refine ⟨.label name t calls :: before, entry, c, calls', after, rfl, ?_, hf⟩
      intro entry' c' calls'' hmem
      obtain heq | hmem := List.mem_cons.1 hmem
      · cases heq
      · exact hbefore entry' c' calls'' hmem
    | instruction entry c calls =>
      rw [emit] at h
      split at h
      · rename_i e he
        cases h
        exact ⟨[], entry, c, calls, placed, rfl, by simp, he⟩
      · rename_i code hcode
        obtain ⟨before, entry', c', calls', after, rfl, hbefore, hf⟩ := ih h
        refine ⟨.instruction entry c calls :: before, entry', c', calls', after, rfl, ?_, hf⟩
        intro entry'' c'' calls'' hmem
        obtain heq | hmem := List.mem_cons.1 hmem
        · cases heq
          exact ⟨code, hcode⟩
        · exact hbefore entry'' c'' calls'' hmem

end Layout

/-! ## Assemblies -/

section Assemblies

open Expansion Worklist

/-- The stages from the expansion of macros on fail at known tokens, if they are given known
tokens. -/
theorem assembleCollected_fault {ctx : MacroContext} {stmts : List Stmt} {log : Array Text}
    {f : Fault}
    (hmacros : ∀ key m, ctx.macros.find? key = some m → ∀ t ∈ m.tokens, t.Known ctx.sources)
    (hstmts : ∀ x ∈ stmts, ∀ t ∈ x.tokens, t.Known ctx.sources)
    (h : assembleCollected ctx stmts log = .error f) :
    f.InSources ctx.sources := by
  unfold assembleCollected at h
  have hknown := expandMacros_known hmacros hstmts
  cases hexpanded : expandMacros ctx stmts with
  | error e =>
    rw [hexpanded] at h
    cases h
    exact expandMacros_fault hmacros hstmts hexpanded
  | ok expanded =>
    simp only [hexpanded] at h
    rw [hexpanded] at hknown
    split at h
    · rename_i hlabels
      cases h
      obtain ⟨before, name, t, calls, after, hplaced, -, hcase⟩ := Layout.assignLabels_fault hlabels
      have hmem : .label name t calls ∈ expanded.placed := by simp [← Array.mem_toList_iff, hplaced]
      have ht := hknown _ hmem t (List.mem_singleton_self t)
      obtain ⟨-, rfl⟩ | ⟨-, rfl⟩ := hcase
      · exact ht.fault calls _
      · exact ht.fault calls _
    · obtain ⟨before, entry, c, calls, after, hplaced, -, hencode⟩ :=
        Layout.emit_fault (Except.map_eq_error.1 h)
      have hmem : .instruction entry c calls ∈ expanded.placed := by
        simp [← Array.mem_toList_iff, hplaced]
      have hc := hknown _ hmem
      obtain ⟨t, stage, part, hunfit, rfl⟩ | rfl := Layout.encode_fault hencode
      · exact (hc t (.tail _ hunfit.token)).fault calls _
      · exact (hc c.token (List.mem_cons_self ..)).fault calls _

/-- What is collected from items with known tokens has known tokens. -/
theorem collected_known {sources : Table Text} {items : List Item} {macros : Table Macro}
    {stmts : List Stmt} (hitems : ∀ i ∈ items, ∀ t ∈ i.tokens, t.Known sources)
    (h : collectMacros sources [] #[] items = .ok (macros, stmts)) :
    (∀ key m, macros.find? key = some m → ∀ t ∈ m.tokens, t.Known sources) ∧
      ∀ x ∈ stmts, ∀ t ∈ x.tokens, t.Known sources := by
  obtain ⟨-, hr⟩ := collectMacros_eq_ok.1 h
  cases hr
  constructor
  · intro key m hm
    have hmem := Table.mem_of_find? hm
    rw [List.append_nil, macroTable, List.mem_reverse, List.mem_map] at hmem
    obtain ⟨m', hm', heq⟩ := hmem
    cases heq
    exact hitems _ (mem_definitions.1 hm')
  · intro x hx
    rw [List.nil_append] at hx
    exact hitems _ (mem_statements.1 hx)

/-- The stage at which an assembly fails: reading the root source, including others, collecting
macros, or later on. -/
theorem assemble_eq_error {s : Settings} {source : Text} {f : Fault}
    (h : (assemble s source).result = .error f) :
    Node.ofSource [] source s.formulas = .error f ∨
      ∃ nodes, Node.ofSource [] source s.formulas = .ok nodes ∧
        ((∃ st, expandIncludes s.includeContext source nodes = .error (f, st)) ∨
          ∃ included, expandIncludes s.includeContext source nodes = .ok included ∧
            ((∃ macros,
              collectMacros included.sources [] #[] included.items.toList = .error (f, macros)) ∨
              ∃ macros stmts log,
                collectMacros included.sources [] #[] included.items.toList = .ok (macros, stmts) ∧
                collected? s source =
                  some (⟨included.sources, macros, s.maxDepth, s.verbose⟩, stmts) ∧
                assembleCollected ⟨included.sources, macros, s.maxDepth, s.verbose⟩ stmts log =
                  .error f)) := by
  cases hnodes : Node.ofSource [] source s.formulas with
  | error e =>
    rw [assemble, hnodes] at h
    cases h
    exact .inl rfl
  | ok nodes =>
    refine .inr ⟨nodes, rfl, ?_⟩
    cases hincluded : expandIncludes s.includeContext source nodes with
    | error e =>
      simp only [assemble, hnodes, hincluded] at h
      cases h
      exact .inl ⟨e.2, rfl⟩
    | ok included =>
      refine .inr ⟨included, rfl, ?_⟩
      cases hcollect : collectMacros included.sources [] #[] included.items.toList with
      | error e =>
        simp only [assemble, hnodes, hincluded, hcollect] at h
        cases h
        exact .inl ⟨e.2, rfl⟩
      | ok r =>
        have hsome :
            collected? s source = some (⟨included.sources, r.1, s.maxDepth, s.verbose⟩, r.2) := by
          simp only [collected?, hnodes, Except.toOption, Option.bind_eq_bind, Option.bind_some,
            hincluded, hcollect]
        obtain ⟨log, hlog⟩ := assemble_of_collected? hsome
        exact .inr ⟨r.1, r.2, log, rfl, hsome, hlog.symm.trans h⟩

/-- A fault of an assembly comes from reading the root source, or points into a source that includes
have added. -/
theorem assemble_fault_inSources {s : Settings} {source : Text} {f : Fault}
    (hempty : s.resolver.find [] = none) (h : (assemble s source).result = .error f) :
    Node.ofSource [] source s.formulas = .error f ∨
      ∃ nodes, Node.ofSource [] source s.formulas = .ok nodes ∧
        f.InSources (reached (expandIncludes s.includeContext source nodes)).sources := by
  obtain hread | ⟨nodes, hnodes, hlater⟩ := assemble_eq_error h
  · exact .inl hread
  · refine .inr ⟨nodes, hnodes, ?_⟩
    have htraced :
        Traced s.includeContext source (reached (expandIncludes s.includeContext source nodes)) :=
      expandIncludes_traced hempty hnodes
    obtain ⟨st, hincluded⟩ | ⟨included, hincluded, hlater⟩ := hlater
    · rw [hincluded]
      exact expandIncludes_fault hempty hnodes hincluded
    · rw [hincluded] at htraced ⊢
      have hitems : ∀ i ∈ included.items.toList, ∀ t ∈ i.tokens, t.Known included.sources :=
        fun i hi => htraced.items i (Array.mem_toList_iff.1 hi)
      obtain ⟨macros, hcollect⟩ | ⟨macros, stmts, log, hcollect, -, hrest⟩ := hlater
      · obtain ⟨before, m, after, hsplit, -, rfl⟩ := collectMacros_fault hcollect
        have hm : .definition m ∈ included.items.toList := by simp [hsplit]
        exact (hitems _ hm m.token (List.mem_cons_self ..)).fault [] _
      · obtain ⟨hmacros, hstmts⟩ := collected_known hitems hcollect
        exact assembleCollected_fault hmacros hstmts hrest

/-- **Every fault of an assembly points at its source**: it names the root source or the path of an
include that the assembly has come to, an offset in the text of that path, and the line there. The
path of the root source is empty; no resolver of folders finds anything there. -/
theorem assemble_fault_points_at_source :
    (∀ verbose fs, (Resolver.folders verbose fs).find [] = none) ∧
      ∀ (s : Settings) (source : Text) (f : Fault), s.resolver.find [] = none →
        (assemble s source).result = .error f →
        ∃ file text, f.PointsAt file text ∧ s.includeContext.Reads source file text := by
  refine ⟨Resolver.folders_find_nil, ?_⟩
  intro s source f hempty h
  rcases assemble_fault_inSources hempty h with hread | ⟨nodes, hnodes, file, text, hfind, hpoints⟩
  · exact ⟨[], source, Node.ofSource_pointsAt hread, .inl ⟨rfl, rfl⟩⟩
  · have htraced : Traced s.includeContext source _ := expandIncludes_traced hempty hnodes
    exact ⟨file, text, hpoints, htraced.reads file text hfind⟩

/-- The path that a fault names. -/
def Fault.file? : Fault → Option Text
  | located file _ _ _ _ => some file
  | _ => none

theorem Fault.PointsAt.file? {f : Fault} {file text : Text} (h : f.PointsAt file text) :
    f.file? = some file := by
  obtain ⟨n, inner, -, rfl⟩ := h
  rfl

/-- One file defines a macro, and another calls it with a number that is too large for the body. -/
def twoFiles : Settings :=
  { resolver := .ofTable [(utf8 "lib", utf8 "@macro put %r0, %l0\nmov %r0, %l0\n@endmacro\n"),
      (utf8 "use", utf8 "put r1, #300\n")] }

def bothIncluded : Text := utf8 "@include \"lib\"\n@include \"use\"\n"

theorem assemble_fault_points_at_source_of_argument :
    ∃ f, (assemble twoFiles bothIncluded).result = .error f ∧
      f.PointsAt (utf8 "use") (utf8 "put r1, #300\n") ∧
      ∃ outer t, twoFiles.includeContext.Meets bothIncluded outer (utf8 "use") t := by
  have hrun : (match (assemble twoFiles bothIncluded).result with
      | .ok _ => none
      | .error f => f.file?) = some (utf8 "use") := by
    simp only [assemble, expandIncludes, expandMacros, Worklist.expand_eq_nested]
    decide +kernel
  cases hresult : (assemble twoFiles bothIncluded).result with
  | ok p =>
    rw [hresult] at hrun
    cases hrun
  | error f =>
    rw [hresult] at hrun
    obtain ⟨file, text, hpoints, horigin⟩ :=
      assemble_fault_points_at_source.2 twoFiles _ f (by decide +kernel) hresult
    obtain rfl : file = utf8 "use" := Option.some.inj (hpoints.file?.symm.trans hrun)
    rcases horigin with ⟨hnil, -⟩ | ⟨hfind, hincluded⟩
    · exact absurd hnil (by decide +kernel)
    · obtain rfl : utf8 "put r1, #300\n" = text := by
        have huse : twoFiles.resolver.find (utf8 "use") = some (utf8 "put r1, #300\n") := by
          decide +kernel
        exact Option.some.inj (huse.symm.trans hfind)
      exact ⟨f, rfl, hpoints, hincluded⟩

end Assemblies

end Octet
