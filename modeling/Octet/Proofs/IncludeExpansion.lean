import Octet.Expansion.Includes
import Octet.Proofs.Nesting
import Octet.Proofs.SourceLines

/-!
# Splicing includes in

The expansion of includes that succeeds, as a relation: nodes that are reached through the paths of
a chain become items. The relation says when an include can be spliced in, and it does not know of
states and logs.

* `Expansion.Spliced` — nodes and the items that they become;
* `Expansion.expandIncludes_eq_ok` — **the worklist finds these items, and succeeds exactly if there
  are any**;
* `Expansion.Spliced.relocate` — the items do not depend on places, and a shorter chain allows for
  more;
* `Expansion.Spliced.inline` — an include can be replaced by the nodes of what it includes.
-/

namespace Octet.Expansion

open Worklist

/-- `Spliced resolver formulas limit chain nodes items`: the nodes, reached through the paths of
`chain`, become `items`. -/
inductive Spliced (resolver : Resolver) (formulas : Formulas) (limit : Nat) :
    List Text → List Node → List Item → Prop
  | nil {chain : List Text} : Spliced resolver formulas limit chain [] []
  | item {chain : List Text} {i : Item} {rest : List Node} {out : List Item}
    (h : Spliced resolver formulas limit chain rest out) :
    Spliced resolver formulas limit chain (.item i :: rest) (i :: out)
  | splice {chain : List Text} {path source : Text} {t : Token} {inner rest : List Node}
    {content out : List Item}
    (hnew : path ∉ chain) (hfind : resolver.find path = some source)
    (hinner : Node.ofSource path source formulas = .ok inner) (hdepth : chain.length + 1 < limit)
    (hcontent : Spliced resolver formulas limit (path :: chain) inner content)
    (h : Spliced resolver formulas limit chain rest out) :
    Spliced resolver formulas limit chain (.splice path t :: rest) (content ++ out)

variable {ctx : IncludeContext} {resolver : Resolver} {formulas : Formulas} {limit : Nat}
  {chain : List Text}

/-- What is spliced stands in the nodes or in a source that they include. -/
theorem Spliced.origin {nodes : List Node} {items : List Item}
    (h : Spliced resolver formulas limit chain nodes items) {i : Item} (hi : i ∈ items) :
    .item i ∈ nodes ∨
      ∃ path source inner, Node.ofSource path source formulas = .ok inner ∧ .item i ∈ inner := by
  induction h with
  | nil => cases hi
  | item _ ih =>
    rcases List.mem_cons.1 hi with rfl | hi
    · exact .inl (.head _)
    · exact (ih hi).imp_left (.tail _)
  | splice _ _ hinner _ _ _ ihcontent ihrest =>
    rcases List.mem_append.1 hi with hi | hi
    · obtain hmem | hmem := ihcontent hi
      · exact .inr ⟨_, _, _, hinner, hmem⟩
      · exact .inr hmem
    · exact (ihrest hi).imp_left (.tail _)

/-! ## One node of the worklist -/

section Visit

variable {s s' : IncludeState} {n : Node}

theorem visitNode_done (h : visitNode ctx chain s n = .done s') :
    ∃ i, n = .item i ∧ s'.items = s.items.push i := by
  cases n with
  | item i =>
    cases h
    exact ⟨i, rfl, rfl⟩
  | splice path t =>
    simp only [visitNode] at h
    split at h
    · cases h
    · split at h
      · cases h
      · split at h <;> cases h

theorem visitNode_enter {inner : List Text} {nodes : List Node} {f : Fault}
    (h : visitNode ctx chain s n = .enter s' inner nodes f) :
    ∃ path t source, n = .splice path t ∧ path ∉ chain ∧ ctx.resolver.find path = some source ∧
      Node.ofSource path source ctx.formulas = .ok nodes ∧ inner = path :: chain ∧
        s'.items = s.items := by
  cases n with
  | item i => cases h
  | splice path t =>
    simp only [visitNode] at h
    split at h
    · cases h
    · rename_i hnew
      split at h
      · cases h
      · rename_i source hfind
        split at h
        · cases h
        · rename_i nodes' hnodes
          cases h
          exact ⟨path, t, source, rfl, by simpa using hnew, hfind, hnodes, rfl, rfl⟩

theorem visitNode_tooDeep {path : Text} {t : Token} {inner : List Text} {nodes : List Node}
    {f : Fault} (h : visitNode ctx chain s (.splice path t) = .enter s' inner nodes f) :
    f = includeTooDeep ctx s'.sources path t := by
  simp only [visitNode] at h
  split at h
  · cases h
  · split at h
    · cases h
    · split at h
      · cases h
      · cases h
        rfl

theorem visitNode_of_splice {path source : Text} {nodes : List Node} (hnew : path ∉ chain)
    (hfind : ctx.resolver.find path = some source)
    (hnodes : Node.ofSource path source ctx.formulas = .ok nodes) (s : IncludeState) (t : Token) :
    ∃ s' f, visitNode ctx chain s (.splice path t) = .enter s' (path :: chain) nodes f ∧
      s'.items = s.items := by
  have hc : chain.contains path = false := by simpa using hnew
  simp only [visitNode, hc, hfind, hnodes]
  exact ⟨_, _, rfl, rfl⟩

end Visit

/-! ## The worklist -/

theorem spliced_of_nested {room : Nat} {nodes : List Node} {s s' : IncludeState}
    (hroom : room + (chain.length + 1) = limit)
    (h : nested (visitNode ctx) room chain nodes s = .ok s') :
    ∃ out, Spliced ctx.resolver ctx.formulas limit chain nodes out ∧
      s'.items.toList = s.items.toList ++ out := by
  induction room, chain, nodes, s using nested_induct (visitNode ctx) generalizing s' with
  | nil room chain s =>
    rw [nested_nil] at h
    cases h
    exact ⟨[], .nil, by simp⟩
  | done room chain n left s t hv ih =>
    rw [nested_done hv] at h
    obtain ⟨i, rfl, hitems⟩ := visitNode_done hv
    obtain ⟨out, hout, hs'⟩ := ih hroom h
    exact ⟨i :: out, .item hout, by simp [hs', hitems]⟩
  | fail room chain n left s t f hv =>
    rw [nested_fail hv] at h
    cases h
  | tooDeep chain n left s t inner nodes f hv =>
    rw [nested_tooDeep hv] at h
    cases h
  | enter room chain n left s t inner nodes f hv ihinner ihleft =>
    rw [nested_enter hv] at h
    obtain ⟨u, hu, hrest⟩ := Except.bind_eq_ok.1 h
    obtain ⟨path, tok, source, rfl, hnew, hfind, hnodes, rfl, hitems⟩ := visitNode_enter hv
    obtain ⟨content, hcontent, hu'⟩ := ihinner (by simp only [List.length_cons]; omega) hu
    obtain ⟨out, hout, hs'⟩ := ihleft u hroom hrest
    exact ⟨content ++ out, .splice hnew hfind hnodes (by omega) hcontent hout,
      by simp [hs', hu', hitems]⟩

theorem nested_of_spliced {room : Nat} {nodes : List Node} {out : List Item}
    (h : Spliced ctx.resolver ctx.formulas limit chain nodes out)
    (hroom : room + (chain.length + 1) = limit) (s : IncludeState) :
    ∃ s', nested (visitNode ctx) room chain nodes s = .ok s' ∧
      s'.items.toList = s.items.toList ++ out := by
  induction h generalizing room s with
  | nil => exact ⟨s, nested_nil .., by simp⟩
  | @item chain i rest out _ ih =>
    obtain ⟨s', hs', hitems⟩ := ih hroom { s with items := s.items.push i }
    refine ⟨s', ?_, by simp [hitems]⟩
    rw [← hs']
    exact nested_done rfl rest
  | @splice chain path source t inner rest content out hnew hfind hnodes hdepth _ _ ihcontent
    ihrest =>
    obtain ⟨room, rfl⟩ : ∃ r, room = r + 1 := ⟨room - 1, by omega⟩
    obtain ⟨s₁, f, hv, hs₁⟩ := visitNode_of_splice hnew hfind hnodes s t
    have hinner : room + ((path :: chain).length + 1) = limit := by
      simp only [List.length_cons]
      omega
    obtain ⟨s₂, hs₂, hitems₂⟩ := ihcontent hinner s₁
    obtain ⟨s₃, hs₃, hitems₃⟩ := ihrest hroom s₂
    refine ⟨s₃, ?_, by simp [hitems₃, hitems₂, hs₁]⟩
    rw [nested_enter hv, hs₂]
    exact hs₃

/-- **The worklist finds the items that the nodes become**, and succeeds exactly if there are
any. -/
theorem expandIncludes_eq_ok (ctx : IncludeContext) (source : Text) {nodes : List Node}
    {items : List Item} :
    (∃ s, expandIncludes ctx source nodes = .ok s ∧ s.items.toList = items) ↔
      Spliced ctx.resolver ctx.formulas (Stack.capacityOf ctx.limit) [] nodes items := by
  have hpos := Stack.capacityOf_pos ctx.limit
  have hroom : Stack.capacityOf ctx.limit - 1 + (([] : List Text).length + 1) =
      Stack.capacityOf ctx.limit := by
    simp only [List.length_nil]
    omega
  rw [expandIncludes, expand_eq_nested]
  constructor
  · rintro ⟨s, hs, rfl⟩
    obtain ⟨out, hout, hitems⟩ := spliced_of_nested hroom hs
    rw [hitems]
    exact hout
  · intro h
    obtain ⟨s, hs, hitems⟩ := nested_of_spliced h hroom ⟨[([], source)], #[], #[]⟩
    exact ⟨s, hs, hitems⟩

/-! ## Pieces -/

theorem Spliced.append {xs ys : List Node} {first last : List Item}
    (hx : Spliced resolver formulas limit chain xs first)
    (hy : Spliced resolver formulas limit chain ys last) :
    Spliced resolver formulas limit chain (xs ++ ys) (first ++ last) := by
  induction hx with
  | nil => exact hy
  | item _ ih => exact .item (ih hy)
  | splice hnew hfind hnodes hdepth hcontent _ _ ih =>
    rw [List.append_assoc]
    exact .splice hnew hfind hnodes hdepth hcontent (ih hy)

theorem Spliced.split {xs ys : List Node} {out : List Item}
    (h : Spliced resolver formulas limit chain (xs ++ ys) out) :
    ∃ first last, out = first ++ last ∧ Spliced resolver formulas limit chain xs first ∧
      Spliced resolver formulas limit chain ys last := by
  induction xs generalizing out with
  | nil => exact ⟨[], out, rfl, .nil, h⟩
  | cons x xs ih =>
    cases h with
    | item h =>
      obtain ⟨first, last, rfl, hx, hy⟩ := ih h
      exact ⟨_, last, rfl, .item hx, hy⟩
    | splice hnew hfind hnodes hdepth hcontent h =>
      obtain ⟨first, last, rfl, hx, hy⟩ := ih h
      exact ⟨_, last, by rw [List.append_assoc], .splice hnew hfind hnodes hdepth hcontent hx, hy⟩

theorem Spliced.mem_of_item {nodes : List Node} {out : List Item} {i : Item}
    (h : Spliced resolver formulas limit chain nodes out) (hi : .item i ∈ nodes) : i ∈ out := by
  obtain ⟨xs, ys, rfl⟩ := List.append_of_mem hi
  obtain ⟨first, last, rfl, -, hlast⟩ := h.split
  cases hlast with
  | item _ => exact List.mem_append_right _ (List.mem_cons_self ..)

/-- What an include becomes is among the items. -/
theorem Spliced.content {nodes : List Node} {out : List Item} {path : Text} {t : Token}
    (h : Spliced resolver formulas limit chain nodes out) (hp : .splice path t ∈ nodes) :
    ∃ source inner content, resolver.find path = some source ∧
      Node.ofSource path source formulas = .ok inner ∧
      Spliced resolver formulas limit (path :: chain) inner content ∧ content ⊆ out := by
  obtain ⟨xs, ys, rfl⟩ := List.append_of_mem hp
  obtain ⟨first, last, rfl, -, hlast⟩ := h.split
  cases hlast with
  | splice _ hfind hinner _ hcontent _ =>
    refine ⟨_, _, _, hfind, hinner, hcontent, ?_⟩
    exact List.subset_append_of_subset_right _ (List.subset_append_left ..)

/-- **What nodes become does not depend on places**, and a shorter chain allows for more. -/
theorem Spliced.relocate {nodes nodes' : List Node} {out : List Item} {chain' : List Text}
    (h : Spliced resolver formulas limit chain nodes out)
    (hg : nodes'.map Node.gist = nodes.map Node.gist) (hsub : ∀ path ∈ chain', path ∈ chain)
    (hlength : chain'.length ≤ chain.length) :
    ∃ out', Spliced resolver formulas limit chain' nodes' out' ∧
      out'.map Item.gist = out.map Item.gist := by
  induction h generalizing nodes' chain' with
  | nil =>
    rw [List.map_nil, List.map_eq_nil_iff] at hg
    subst hg
    exact ⟨[], .nil, rfl⟩
  | item _ ih =>
    obtain ⟨n, rest', rfl, hn, hrest⟩ := List.map_eq_cons_iff.1 hg
    obtain ⟨j, rfl, hj⟩ := Node.gist_eq_item hn
    obtain ⟨out', hout', hgist⟩ := ih hrest hsub hlength
    exact ⟨j :: out', .item hout', by simp [hj, hgist]⟩
  | @splice chain path source t inner rest content out hnew hfind hnodes hdepth _ _ ihcontent
    ihrest =>
    obtain ⟨n, rest', rfl, hn, hrest⟩ := List.map_eq_cons_iff.1 hg
    obtain ⟨u, rfl⟩ := Node.gist_eq_splice hn
    have hsub' : ∀ p ∈ path :: chain', p ∈ path :: chain := by
      intro p hp
      rcases List.mem_cons.1 hp with rfl | hp
      · exact List.mem_cons_self ..
      · exact .tail _ (hsub p hp)
    obtain ⟨content', hcontent', hcg⟩ := ihcontent rfl hsub' (by simpa using hlength)
    obtain ⟨out', hout', hgist⟩ := ihrest hrest hsub hlength
    exact ⟨content' ++ out',
      .splice (fun hp => hnew (hsub path hp)) hfind hnodes (by omega) hcontent' hout',
        by simp [hcg, hgist]⟩

/-- **An include can be replaced by the nodes of the source that it names.** -/
theorem Spliced.inline {nodes : List Node} {first last : List Node} {path text : Text} {t : Token}
    {out : List Item} (h : Spliced resolver formulas limit chain nodes out)
    (hfind : resolver.find path = some text)
    (hg : nodes.map Node.gist = first ++ .splice path t :: last) :
    ∃ inner, Grammar.Denotes formulas text inner ∧
      ∀ nodes' : List Node, nodes'.map Node.gist = first ++ (inner ++ last) →
        ∃ out', Spliced resolver formulas limit chain nodes' out' ∧
          out'.map Item.gist = out.map Item.gist := by
  obtain ⟨xs, ys, rfl, rfl, hy⟩ := List.map_eq_append_iff.1 hg
  obtain ⟨n, zs, rfl, hn, rfl⟩ := List.map_eq_cons_iff.1 hy
  obtain ⟨before, after, rfl, hbefore, hafter⟩ := h.split
  cases hafter with
  | item _ => cases hn
  | @splice _ _ source u nodes _ content out hnew hfind' hnodes hdepth hcontent hout =>
    cases hn
    obtain rfl : source = text := Option.some.inj (hfind'.symm.trans hfind)
    refine ⟨nodes.map Node.gist, (Grammar.denotes_iff _).2 ⟨nodes, hnodes, rfl⟩, ?_⟩
    intro nodes' hg'
    obtain ⟨xs', ws, rfl, hx, hw⟩ := List.map_eq_append_iff.1 hg'
    obtain ⟨inner', zs', rfl, hi, hz⟩ := List.map_eq_append_iff.1 hw
    obtain ⟨before', hbefore', hb⟩ := hbefore.relocate hx (fun _ hp => hp) (Nat.le_refl _)
    obtain ⟨content', hcontent', hc⟩ :=
      hcontent.relocate hi (fun _ hp => .tail _ hp) (Nat.le_succ _)
    obtain ⟨out', hout', ho⟩ := hout.relocate hz (fun _ hp => hp) (Nat.le_refl _)
    exact ⟨before' ++ (content' ++ out'), hbefore'.append (hcontent'.append hout'),
      by simp [hb, hc, ho]⟩

end Octet.Expansion
