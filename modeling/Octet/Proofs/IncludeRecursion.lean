import Mathlib.Data.List.Perm.Subperm
import Octet.Proofs.FaultPlaces

/-!
# Includes are expanded as if by recursion

The worklist keeps frames of nodes, and the chain of paths that are being included as their notes.
What it returns is said here without frames: an include stands for the expansion of the source that
it names.

* `Expansion.inlineIncludes` — expansion by recursion, faults included;
* `Expansion.included_expandIncludes` — the worklist returns what the recursion returns;
* `Expansion.exists_inlineIncludes_iff` — where the recursion succeeds, it finds the items of
  `Spliced`;
* `Fault.stage?`, `Expansion.inlineIncludes_stage?` — a chain has no path twice, so few paths never
  nest too deeply;
* `Expansion.expandIncludes_inlines` — **include expansion is recursive expansion**.
-/

namespace Octet

namespace Expansion

open Worklist

/-! ## Recursive expansion -/

/-- The items that nodes stand for when they are reached through the paths of `chain`: every include
is replaced by the expansion of the source that it names. A source at nesting depth `limit` is too
deep. Faults quote lines from `sources`, which every source is added to before it is read. -/
def inlineIncludes (resolver : Resolver) (formulas : Formulas) (limit : Nat) (chain : List Text)
    (sources : Table Text) : List Node → Except Fault (List Item × Table Text)
  | [] => .ok ([], sources)
  | .item i :: rest => do
    let (after, sources) ← inlineIncludes resolver formulas limit chain sources rest
    .ok (i :: after, sources)
  | .splice path t :: rest =>
    if path ∈ chain then .error (.at sources t [] [.cause .resolution, .includeCycle path])
    else
      match resolver.find path with
      | none => .error (.at sources t [] [.cause .resolution, .includeMissing path])
      | some source =>
        match Node.ofSource path source formulas with
        | .error f => .error f
        | .ok inner =>
          if chain.length + 1 < limit then do
            let (content, sources) ←
              inlineIncludes resolver formulas limit (path :: chain) (sources.insert path source)
                inner
            let (after, sources) ← inlineIncludes resolver formulas limit chain sources rest
            .ok (content ++ after, sources)
          else
            .error (.at (sources.insert path source) t [] [.cause .recursion, .tooDeep path limit])
termination_by nodes => (limit - chain.length, nodes.length)
decreasing_by
  all_goals simp_wf
  all_goals omega

section

variable {resolver : Resolver} {formulas : Formulas} {limit : Nat} {chain : List Text}
  {sources : Table Text} {path source : Text} {t : Token} {inner rest : List Node}

theorem inlineIncludes_nil :
    inlineIncludes resolver formulas limit chain sources [] = .ok ([], sources) := by
  rw [inlineIncludes]

theorem inlineIncludes_item {i : Item} :
    inlineIncludes resolver formulas limit chain sources (.item i :: rest) =
      (inlineIncludes resolver formulas limit chain sources rest).map fun r => (i :: r.1, r.2) := by
  rw [inlineIncludes]
  cases inlineIncludes resolver formulas limit chain sources rest <;> rfl

theorem inlineIncludes_cycle (h : path ∈ chain) :
    inlineIncludes resolver formulas limit chain sources (.splice path t :: rest) =
      .error (.at sources t [] [.cause .resolution, .includeCycle path]) := by
  rw [inlineIncludes, if_pos h]

variable (hnew : path ∉ chain)
include hnew

theorem inlineIncludes_missing (hfind : resolver.find path = none) :
    inlineIncludes resolver formulas limit chain sources (.splice path t :: rest) =
      .error (.at sources t [] [.cause .resolution, .includeMissing path]) := by
  rw [inlineIncludes, if_neg hnew, hfind]

variable (hfind : resolver.find path = some source)
include hfind

theorem inlineIncludes_unread {f : Fault} (h : Node.ofSource path source formulas = .error f) :
    inlineIncludes resolver formulas limit chain sources (.splice path t :: rest) = .error f := by
  rw [inlineIncludes, if_neg hnew, hfind]
  simp only [h]

variable (hinner : Node.ofSource path source formulas = .ok inner)
include hinner

theorem inlineIncludes_tooDeep (hdepth : limit ≤ chain.length + 1) :
    inlineIncludes resolver formulas limit chain sources (.splice path t :: rest) =
      .error (.at (sources.insert path source) t [] [.cause .recursion, .tooDeep path limit]) := by
  rw [inlineIncludes, if_neg hnew, hfind]
  simp only [hinner]
  exact if_neg (by omega)

theorem inlineIncludes_enter (hdepth : chain.length + 1 < limit) :
    inlineIncludes resolver formulas limit chain sources (.splice path t :: rest) =
      inlineIncludes resolver formulas limit (path :: chain) (sources.insert path source) inner >>=
        fun content =>
        (inlineIncludes resolver formulas limit chain content.2 rest).map fun r =>
          (content.1 ++ r.1, r.2) := by
  rw [inlineIncludes, if_neg hnew, hfind]
  simp only [hinner, if_pos hdepth]
  cases inlineIncludes resolver formulas limit (path :: chain) (sources.insert path source)
    inner with
  | error f => rfl
  | ok content =>
    show (inlineIncludes resolver formulas limit chain content.2 rest >>= _) = Except.map _ _
    cases inlineIncludes resolver formulas limit chain content.2 rest <;> rfl

end

/-! ## Worklist and recursion agree -/

/-- What an expansion returns: the items and the sources that were read, or the fault. -/
def included : Except (Fault × IncludeState) IncludeState → Except Fault (List Item × Table Text)
  | .ok s => .ok (s.items.toList, s.sources)
  | .error (f, _) => .error f

theorem included_eq_ok {r : Except (Fault × IncludeState) IncludeState} {x : List Item × Table Text}
    (h : included r = .ok x) : ∃ s, r = .ok s ∧ x = (s.items.toList, s.sources) := by
  cases r with
  | ok s => exact ⟨s, rfl, (Except.ok.inj h).symm⟩
  | error e => cases h

theorem included_eq_error {r : Except (Fault × IncludeState) IncludeState} {f : Fault}
    (h : included r = .error f) :
    ∃ s, r = .error (f, s) := by
  cases r with
  | ok s => cases h
  | error e =>
    cases h
    exact ⟨e.2, rfl⟩

variable {ctx : IncludeContext} {limit : Nat} {chain : List Text}

/-- A node that fails in the worklist fails in the recursion, with the same fault. -/
theorem inlineIncludes_of_fail {s s' : IncludeState} {n : Node} {f : Fault}
    (h : visitNode ctx chain s n = .fail s' f) (rest : List Node) :
    inlineIncludes ctx.resolver ctx.formulas limit chain s.sources (n :: rest) = .error f := by
  cases n with
  | item i => cases h
  | splice path t =>
    simp only [visitNode] at h
    split at h
    · rename_i hcycle
      cases h
      exact inlineIncludes_cycle (by simpa using hcycle)
    · rename_i hnew
      have hnew : path ∉ chain := by simpa using hnew
      split at h
      · rename_i hfind
        cases h
        exact inlineIncludes_missing hnew hfind
      · rename_i source hfind
        split at h
        · rename_i g hread
          cases h
          exact inlineIncludes_unread hnew hfind hread
        · cases h

/-- The recursion of the worklist, started anywhere, goes on with the recursive expansion. The depth
is the number of paths that lead to the nodes, and `room` is what the limit leaves below it. -/
theorem included_nested (ctx : IncludeContext) (room : Nat) (chain : List Text) (nodes : List Node)
    (s : IncludeState) (hroom : room + (chain.length + 1) = Stack.capacityOf ctx.limit) :
    included (nested (visitNode ctx) room chain nodes s) =
      (inlineIncludes ctx.resolver ctx.formulas (Stack.capacityOf ctx.limit) chain s.sources
        nodes).map fun r => (s.items.toList ++ r.1, r.2) := by
  induction room, chain, nodes, s using nested_induct (visitNode ctx) with
  | nil room chain s =>
    rw [nested_nil, inlineIncludes_nil]
    simp [included, Except.map]
  | done room chain n left s s' hv ih =>
    rw [nested_done hv, ih hroom, visitNode_done_sources hv]
    obtain ⟨i, rfl, hitems⟩ := visitNode_done hv
    rw [inlineIncludes_item, hitems]
    cases inlineIncludes ctx.resolver ctx.formulas (Stack.capacityOf ctx.limit) chain s.sources
      left <;> simp [Except.map]
  | fail room chain n left s s' f hv =>
    rw [nested_fail hv, inlineIncludes_of_fail hv]
    rfl
  | tooDeep chain n left s s' inner nodes f hv =>
    obtain ⟨path, t, source, rfl, hnew, hfind, hnodes, -, -⟩ := visitNode_enter hv
    rw [nested_tooDeep hv, inlineIncludes_tooDeep hnew hfind hnodes (by omega),
      visitNode_tooDeep hv, ← visitNode_enter_sources hfind hv]
    rfl
  | enter room chain n left s s' inner nodes f hv ihinner ihleft =>
    obtain ⟨path, t, source, rfl, hnew, hfind, hnodes, rfl, hitems⟩ := visitNode_enter hv
    have hinner := ihinner (by simp only [List.length_cons]; omega)
    rw [nested_enter hv, inlineIncludes_enter hnew hfind hnodes (by omega)]
    rw [visitNode_enter_sources hfind hv, hitems] at hinner
    -- What is included decides: its fault is the fault of both, and its items come before what is
    -- left.
    cases hi : inlineIncludes ctx.resolver ctx.formulas (Stack.capacityOf ctx.limit) (path :: chain)
        (s.sources.insert path source) nodes with
    | error f =>
      rw [hi] at hinner
      obtain ⟨u, hu⟩ := included_eq_error hinner
      rw [hu]
      rfl
    | ok content =>
      rw [hi] at hinner
      obtain ⟨u, hu, hcontent⟩ := included_eq_ok hinner
      obtain ⟨hitems', hsources⟩ := Prod.mk.inj hcontent
      rw [hu]
      refine (ihleft u hroom).trans ?_
      rw [← hitems', ← hsources]
      show _ = Except.map _ (Except.map _ _)
      cases inlineIncludes ctx.resolver ctx.formulas (Stack.capacityOf ctx.limit) chain content.2
        left <;>
        simp [Except.map]

/-- The worklist of a whole program. -/
theorem included_expandIncludes (ctx : IncludeContext) (source : Text) (nodes : List Node) :
    included (expandIncludes ctx source nodes) =
      inlineIncludes ctx.resolver ctx.formulas (Stack.capacityOf ctx.limit) [] [([], source)]
        nodes := by
  have hpos := Stack.capacityOf_pos ctx.limit
  rw [expandIncludes, expand_eq_nested,
    included_nested ctx _ _ _ _ (by simp only [List.length_nil]; omega)]
  cases inlineIncludes ctx.resolver ctx.formulas (Stack.capacityOf ctx.limit) [] [([], source)]
    nodes <;>
    simp [Except.map]

/-! ## Expansions that succeed -/

section

variable {resolver : Resolver} {formulas : Formulas} {nodes : List Node} {items : List Item}

theorem spliced_of_inlineIncludes {sources sources' : Table Text}
    (h : inlineIncludes resolver formulas limit chain sources nodes = .ok (items, sources')) :
    Spliced resolver formulas limit chain nodes items := by
  fun_induction inlineIncludes resolver formulas limit chain sources nodes
    generalizing items sources' with
  | case1 =>
    cases h
    exact .nil
  | case2 chain sources i rest ih =>
    obtain ⟨⟨after, final⟩, hrest, ho⟩ := Except.bind_eq_ok.1 h
    cases ho
    exact .item (ih hrest)
  | case3 => cases h
  | case4 => cases h
  | case5 => cases h
  | case6 chain sources path t rest hnew source hfind inner hinner hdepth ihinner ihrest =>
    obtain ⟨⟨content, middle⟩, hcontent, h⟩ := Except.bind_eq_ok.1 h
    obtain ⟨⟨after, final⟩, hrest, ho⟩ := Except.bind_eq_ok.1 h
    cases ho
    exact .splice hnew hfind hinner hdepth (ihinner hcontent) (ihrest middle hrest)
  | case7 => cases h

theorem inlineIncludes_of_spliced (h : Spliced resolver formulas limit chain nodes items)
    (sources : Table Text) :
    ∃ sources',
      inlineIncludes resolver formulas limit chain sources nodes = .ok (items, sources') := by
  induction h generalizing sources with
  | nil => exact ⟨sources, inlineIncludes_nil⟩
  | item _ ih =>
    obtain ⟨sources', hrest⟩ := ih sources
    exact ⟨sources', by rw [inlineIncludes_item, hrest]; rfl⟩
  | @splice chain path source t inner rest content out hnew hfind hinner hdepth _ _ ihcontent
    ihrest =>
    obtain ⟨middle, hcontent⟩ := ihcontent (sources.insert path source)
    obtain ⟨final, hrest⟩ := ihrest middle
    refine ⟨final, ?_⟩
    rw [inlineIncludes_enter hnew hfind hinner hdepth, hcontent]
    show Except.map _ (inlineIncludes resolver formulas limit chain middle rest) = _
    rw [hrest]
    rfl

/-- **Where the recursion succeeds**, whatever sources are known. -/
theorem exists_inlineIncludes_iff (sources : Table Text) :
    (∃ sources',
      inlineIncludes resolver formulas limit chain sources nodes = .ok (items, sources')) ↔
      Spliced resolver formulas limit chain nodes items :=
  ⟨fun ⟨_, h⟩ => spliced_of_inlineIncludes h, fun h => inlineIncludes_of_spliced h sources⟩

/-- A path may be included again once its source has been spliced in. -/
theorem Spliced.again {path : Text} {t u : Token} {content mid : List Item}
    (h : Spliced resolver formulas limit chain [.splice path t] content)
    (hbetween : Spliced resolver formulas limit chain nodes mid) :
    Spliced resolver formulas limit chain (.splice path t :: (nodes ++ [.splice path u]))
      (content ++ (mid ++ content)) := by
  have hlast : Spliced resolver formulas limit chain [.splice path u] content := by
    cases h with
    | splice hnew hfind hinner hdepth hcontent hrest =>
      exact .splice hnew hfind hinner hdepth hcontent hrest
  exact h.append (hbetween.append hlast)

end

end Expansion

/-! ## Stages of faults -/

/-- The stage that a fault names first, inside of its location and of macro calls. -/
def Fault.stage? : Fault → Option Cause
  | all (cause c :: _) => some c
  | inMacro _ _ _ inner => inner.stage?
  | located _ _ _ _ inner => inner.stage?
  | _ => none

theorem Token.scanFrom_stage? {file source input : Text} {offset line : Nat} {found : Array Token}
    {f : Fault} (h : scanFrom file source offset line found input = .error f) :
    f.stage? = some .lex := by
  fun_induction scanFrom file source offset line found input with
  | case1 => cases h
  | case2 =>
    cases h
    rfl
  | case3 _ _ _ _ _ _ _ _ _ ih => exact ih h

theorem Node.ofSource_stage? {file source : Text} {formulas : Formulas} {f : Fault}
    (h : Node.ofSource file source formulas = .error f) :
    f.stage? = some .lex ∨ f.stage? = some .parse := by
  rcases Except.bind_eq_error.1 h with hscan | ⟨ts, -, hparse⟩
  · exact .inl (Token.scanFrom_stage? hscan)
  · obtain ⟨t, parts, -, -, rfl⟩ := Parser.readNodes_blames rfl hparse
    exact .inr rfl

namespace Expansion

open Worklist

/-! ## Chains -/

/-- Every node is reached through distinct paths. -/
theorem visitNode_nodup (ctx : IncludeContext) :
    Invariant (visitNode ctx) (fun chain _ => chain.Nodup) (fun _ => True) where
  done _ _ _ := trivial
  fail _ _ _ := trivial
  enter := by
    intro chain n s s' inner nodes f hchain _ hv
    obtain ⟨path, t, source, -, hnew, -, -, rfl, -⟩ := visitNode_enter hv
    exact ⟨trivial, fun _ _ => List.nodup_cons.2 ⟨hnew, hchain⟩⟩

/-- **Few paths never nest too deeply**, since no chain has one of them twice. -/
theorem inlineIncludes_stage? {resolver : Resolver} {formulas : Formulas} {limit : Nat}
    {chain : List Text} {sources : Table Text} {nodes : List Node} {f : Fault} {known : List Text}
    (h : inlineIncludes resolver formulas limit chain sources nodes = .error f)
    (hknown : ∀ path source, resolver.find path = some source → path ∈ known)
    (hfew : known.length < limit) (hchain : chain.Nodup) (hsub : chain ⊆ known) :
    f.stage? ≠ some .recursion := by
  fun_induction inlineIncludes resolver formulas limit chain sources nodes with
  | case1 => cases h
  | case2 chain sources i rest ih =>
    rcases Except.bind_eq_error.1 h with hrest | ⟨_, -, hr⟩
    · exact ih hrest hchain hsub
    · cases hr
  | case3 =>
    cases h
    simp [Fault.at, Fault.within, Fault.stage?]
  | case4 =>
    cases h
    simp [Fault.at, Fault.within, Fault.stage?]
  | case5 chain sources path t rest hnew source hfind g hread =>
    cases h
    rcases Node.ofSource_stage? hread with hstage | hstage <;> simp [hstage]
  | case6 chain sources path t rest hnew source hfind inner hinner hdepth ihinner ihrest =>
    rcases Except.bind_eq_error.1 h with hcontent | ⟨⟨content, middle⟩, -, h⟩
    · exact ihinner hcontent (List.nodup_cons.2 ⟨hnew, hchain⟩)
        (List.cons_subset.2 ⟨hknown path source hfind, hsub⟩)
    · rcases Except.bind_eq_error.1 h with hrest | ⟨_, -, hr⟩
      · exact ihrest middle hrest hchain hsub
      · cases hr
  | case7 chain sources path t rest hnew source hfind inner hinner hdepth =>
    have hnodup : (path :: chain).Nodup := List.nodup_cons.2 ⟨hnew, hchain⟩
    have hlength := (List.subperm_of_subset hnodup
        (List.cons_subset.2 ⟨hknown path source hfind, hsub⟩)).length_le
    simp only [List.length_cons] at hlength
    omega

/-- **Include expansion is recursive expansion.** The worklist returns what the recursion returns,
faults included. The paths on the way to any node that it visits are distinct; so a resolver that
knows fewer paths than the limit never nests too deeply. And a path may be included again, at any
depth, once its source has been spliced in. -/
theorem expandIncludes_inlines (ctx : IncludeContext) (source : Text) (nodes : List Node) :
    included (expandIncludes ctx source nodes) =
        inlineIncludes ctx.resolver ctx.formulas (Stack.capacityOf ctx.limit) [] [([], source)]
          nodes ∧
      (∀ chain s n, Visits (visitNode ctx) (Stack.capacityOf ctx.limit) [⟨[], nodes⟩]
        ⟨[([], source)], #[], #[]⟩ chain s
        n → chain.Nodup) ∧
      (∀ known : List Text, (∀ path text, ctx.resolver.find path = some text → path ∈ known) →
        known.length < Stack.capacityOf ctx.limit →
        ∀ f, included (expandIncludes ctx source nodes) = .error f → f.stage? ≠ some .recursion) ∧
      ∀ (chain : List Text) (path : Text) (t u : Token) (between : List Node)
        (content mid : List Item)
        (sources sources₁ sources₂ : Table Text),
        inlineIncludes ctx.resolver ctx.formulas (Stack.capacityOf ctx.limit) chain sources
          [.splice path t] = .ok (content, sources₁) →
        inlineIncludes ctx.resolver ctx.formulas (Stack.capacityOf ctx.limit) chain sources₁
          between = .ok (mid, sources₂) →
        ∃ sources₃,
          inlineIncludes ctx.resolver ctx.formulas (Stack.capacityOf ctx.limit) chain sources
            (.splice path t :: (between ++ [.splice path u])) =
              .ok (content ++ (mid ++ content), sources₃) := by
  refine ⟨included_expandIncludes ctx source nodes, ?_, ?_, ?_⟩
  · intro chain s n hvisit
    exact ((visitNode_nodup ctx).visits hvisit (frames_singleton.2 fun _ _ => List.nodup_nil)
      trivial).1
  · intro known hknown hfew f hf
    rw [included_expandIncludes] at hf
    exact inlineIncludes_stage? hf hknown hfew List.nodup_nil (List.nil_subset _)
  · intro chain path t u between content mid sources sources₁ sources₂ hfirst hbetween
    have hagain :=
      (spliced_of_inlineIncludes hfirst).again (spliced_of_inlineIncludes hbetween) (u := u)
    exact (exists_inlineIncludes_iff sources).2 hagain

/-- Two sources, of which one includes the other twice and then itself. -/
def twoSources : IncludeContext where
  resolver := .ofTable [
    (utf8 "outer", utf8 "@include \"inner\"\n@include \"inner\"\n@include \"outer\"\n"),
    (utf8 "inner", utf8 "$here:\n")]
  formulas := .valueless
  limit := 3
  verbose := false

theorem expandIncludes_inlines_two_sources :
    (∀ path text, twoSources.resolver.find path = some text → path ∈ [utf8 "outer", utf8 "inner"]) ∧
      [utf8 "outer", utf8 "inner"].length < Stack.capacityOf twoSources.limit ∧
      (∃ f, included (expandIncludes twoSources [] [.splice (utf8 "outer") default]) = .error f ∧
        f.stage? = some .resolution ∧ f.stage? ≠ some .recursion) ∧
      ∃ content sources, content.length = 1 ∧
        inlineIncludes twoSources.resolver twoSources.formulas 3 [utf8 "outer"] []
            [.splice (utf8 "inner") default, .splice (utf8 "inner") default] =
              .ok (content ++ content, sources) := by
  have hknown : ∀ path text, twoSources.resolver.find path = some text →
      path ∈ [utf8 "outer", utf8 "inner"] := by
    intro path text h
    have hmem := Table.mem_of_find? h
    simp only [List.mem_cons, Prod.mk.injEq, List.not_mem_nil, or_false] at hmem ⊢
    exact hmem.imp And.left And.left
  have hfew : [utf8 "outer", utf8 "inner"].length < Stack.capacityOf twoSources.limit := by decide
  obtain ⟨-, -, hdepth, hagain⟩ :=
    expandIncludes_inlines twoSources [] [.splice (utf8 "outer") default]
  have hstage : (match included (expandIncludes twoSources [] [.splice (utf8 "outer") default]) with
      | .ok _ => none
      | .error f => f.stage?) = some .resolution := by
    simp only [expandIncludes, expand_eq_nested]
    decide +kernel
  refine ⟨hknown, hfew, ?_, ?_⟩
  · cases h : included (expandIncludes twoSources [] [.splice (utf8 "outer") default]) with
    | ok r =>
      rw [h] at hstage
      cases hstage
    | error f =>
      rw [h] at hstage
      exact ⟨f, rfl, hstage, hdepth _ hknown hfew f h⟩
  · have hread : (Node.ofSource (utf8 "inner") (utf8 "$here:\n") .valueless).toOption =
        some [.item (.stmt (.label (utf8 "here") ⟨.label, utf8 "$here", utf8 "inner", 0, 1⟩))] := by
      decide +kernel
    have honce : Spliced twoSources.resolver twoSources.formulas 3 [utf8 "outer"]
        [.splice (utf8 "inner") default]
        [.stmt (.label (utf8 "here") ⟨.label, utf8 "$here", utf8 "inner", 0, 1⟩)] :=
      .splice (by decide +kernel) (by decide +kernel) (Except.toOption_eq_some.1 hread) (by decide)
        (.item .nil) .nil
    obtain ⟨sources₁, hfirst⟩ := inlineIncludes_of_spliced honce []
    obtain ⟨sources₂, htwice⟩ := hagain _ _ _ default [] _ _ _ _ _ hfirst inlineIncludes_nil
    exact ⟨_, sources₂, rfl, htwice⟩

end Expansion

end Octet
