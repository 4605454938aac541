import Mathlib.Logic.Relation
import Octet.Proofs.IncludeExpansion
import Octet.Proofs.OperandIndependence
import Octet.Proofs.WorklistSteps

/-!
# Expansion ends and refuses recursion

Sources may go on including new sources for ever, and macros may call themselves in any number of
ways. Either expansion ends nevertheless. One that succeeds has worked every nested list off, so
what it went through is well founded: no source includes itself and no macro calls itself.

* `Recursive` — a cycle can be reached;
* `Expansion.Includes`, `Expansion.Calls` — the sources that a source includes, and the macros that
  a macro calls;
* `Expansion.Spliced.acc`, `Expansion.Inlined.acc` — **what was expanded is well founded**;
* `Expansion.expansion_ends` — **both expansions end, and neither accepts recursion**.
-/

namespace Octet

/-! ## Cycles -/

section

open Relation

variable {α : Type} {edge : α → α → Prop} {root : α → Prop}

/-- A cycle of edges can be reached from a root. -/
def Recursive (edge : α → α → Prop) (root : α → Prop) : Prop :=
  ∃ first a, root first ∧ ReflTransGen edge first a ∧ TransGen edge a a

theorem not_cycle_of_acc {a : α} (h : Acc (flip edge) a) : ¬ TransGen edge a a := by
  induction h with
  | intro a _ ih =>
    intro hcycle
    -- The cycle can be entered at its next element as well.
    obtain ⟨b, hab, hba⟩ := TransGen.head'_iff.1 hcycle
    exact ih b hab (TransGen.tail' hba hab)

theorem acc_of_reachable {a b : α} (ha : Acc (flip edge) a) (h : ReflTransGen edge a b) :
    Acc (flip edge) b := by
  induction h with
  | refl => exact ha
  | tail _ hbc ih => exact ih.inv hbc

theorem not_recursive_of_acc (h : ∀ a, root a → Acc (flip edge) a) : ¬ Recursive edge root := by
  rintro ⟨first, a, hroot, hreach, hcycle⟩
  exact not_cycle_of_acc (acc_of_reachable (h first hroot) hreach) hcycle

end

namespace Expansion

open Worklist

/-! ## Includes -/

/-- The nodes include a source. -/
def IncludedIn (nodes : List Node) (path : Text) : Prop := ∃ t, .splice path t ∈ nodes

/-- The source of the first path includes the second. -/
def Includes (resolver : Resolver) (formulas : Formulas) (path inner : Text) : Prop :=
  ∃ source nodes, resolver.find path = some source ∧
    Node.ofSource path source formulas = .ok nodes ∧ IncludedIn nodes inner

theorem Spliced.acc {resolver : Resolver} {formulas : Formulas} {limit : Nat} {chain : List Text}
    {nodes : List Node} {items : List Item} (h : Spliced resolver formulas limit chain nodes items)
    (path : Text) (hpath : IncludedIn nodes path) :
    Acc (flip (Includes resolver formulas)) path := by
  induction h generalizing path with
  | nil =>
    obtain ⟨t, ht⟩ := hpath
    cases ht
  | item _ ih =>
    obtain ⟨t, ht⟩ := hpath
    exact ih path ⟨t, (List.mem_cons.1 ht).resolve_left nofun⟩
  | splice _ hfind hinner _ _ _ ihcontent ihrest =>
    obtain ⟨t, ht⟩ := hpath
    obtain heq | ht := List.mem_cons.1 ht
    · cases heq
      refine ⟨_, fun next hnext => ?_⟩
      -- The source and its nodes are those that were spliced in.
      obtain ⟨source, nodes, hfind', hnodes, hin⟩ := hnext
      cases hfind.symm.trans hfind'
      cases hinner.symm.trans hnodes
      exact ihcontent next hin
    · exact ihrest path ⟨t, ht⟩

theorem expandIncludes_recursive {ctx : IncludeContext} {source : Text} {nodes : List Node}
    (h : Recursive (Includes ctx.resolver ctx.formulas) (IncludedIn nodes)) :
    ∃ f s, expandIncludes ctx source nodes = .error (f, s) := by
  cases hr : expandIncludes ctx source nodes with
  | error e => exact ⟨e.1, e.2, rfl⟩
  | ok s =>
    have hspliced := (expandIncludes_eq_ok ctx source).1 ⟨s, hr, rfl⟩
    exact absurd h (not_recursive_of_acc hspliced.acc)

/-! ## Macro calls -/

/-- The statements have a call by the key, which is of no instruction. -/
def CalledIn (stmts : List Stmt) (key : Text) : Prop :=
  ∃ c, .call c ∈ stmts ∧ c.key = key ∧ Instruction.find? key = none

/-- The body of the macro with the first key calls the second. -/
def Calls (macros : Table Macro) (key callee : Text) : Prop :=
  ∃ m, macros.find? key = some m ∧ CalledIn m.body callee

/-- Binding changes no key, so a bound body calls what the body calls. -/
theorem CalledIn.bind {m : Macro} {key : Text} (h : CalledIn m.body key) (args : List Arg) :
    CalledIn (m.bind args) key := by
  obtain ⟨c, hc, rfl, hkey⟩ := h
  refine ⟨_, List.mem_map.2 ⟨.call c, hc, rfl⟩, ?_, hkey⟩
  simp [Call.key, Call.kinds, Function.comp_def, Arg.kind_substitute]

theorem Inlined.acc {macros : Table Macro} {limit : Nat} {calls : List Site} {stmts : List Stmt}
    {out : List Placed} (h : Inlined macros limit calls stmts out) (key : Text)
    (hkey : CalledIn stmts key) :
    Acc (flip (Calls macros)) key := by
  induction h generalizing key with
  | nil =>
    obtain ⟨c, hc, -⟩ := hkey
    cases hc
  | label _ ih =>
    obtain ⟨c, hc, hrest⟩ := hkey
    exact ih key ⟨c, (List.mem_cons.1 hc).resolve_left nofun, hrest⟩
  | instruction he _ ih =>
    obtain ⟨c, hc, rfl, hnone⟩ := hkey
    obtain heq | hc := List.mem_cons.1 hc
    · cases heq
      cases he.symm.trans hnone
    · exact ih _ ⟨c, hc, rfl, hnone⟩
  | call _ hm _ _ _ ihbody ihrest =>
    obtain ⟨c, hc, rfl, hnone⟩ := hkey
    obtain heq | hc := List.mem_cons.1 hc
    · cases heq
      refine ⟨_, fun callee hcallee => ?_⟩
      obtain ⟨m, hm', hin⟩ := hcallee
      cases hm.symm.trans hm'
      exact ihbody callee (hin.bind _)
    · exact ihrest _ ⟨c, hc, rfl, hnone⟩

theorem expandMacros_recursive {ctx : MacroContext} {stmts : List Stmt}
    (h : Recursive (Calls ctx.macros) (CalledIn stmts)) :
    ∃ f s, expandMacros ctx stmts = .error (f, s) := by
  cases hr : expandMacros ctx stmts with
  | error e => exact ⟨e.1, e.2, rfl⟩
  | ok s => exact absurd h (not_recursive_of_acc (inlined_of_expandMacros hr).acc)

/-! ## Both expansions -/

/-- Where the expansion of includes begins. -/
def includeStart (source : Text) (nodes : List Node) :
    Progress IncludeState (List Text) Node Fault :=
  .working [⟨[], nodes⟩] ⟨[([], source)], #[], #[]⟩

/-- Where the expansion of macros begins. -/
def macroStart (stmts : List Stmt) : Progress MacroState (List Site) Stmt Fault :=
  .working [⟨[], stmts⟩] ⟨#[], #[]⟩

/-- **Both expansions end, and neither accepts recursion.** The loop for includes ends even if every
iteration asks another resolver; with one resolver it ends with the result of the expansion. -/
theorem expansion_ends (includes : IncludeContext) (resolvers : Nat → Resolver) (source : Text)
    (nodes : List Node) (macros : MacroContext) (stmts : List Stmt) :
    (∃ n result, iterate (fun k => visitNode { includes with resolver := resolvers k })
        (Stack.capacityOf includes.limit) n (includeStart source nodes) = .ended result) ∧
      (∃ n, iterate (fun _ => visitNode includes) (Stack.capacityOf includes.limit) n
        (includeStart source nodes) = .ended (expandIncludes includes source nodes)) ∧
      (∃ n,
        iterate (fun _ => visitStmt macros) (Stack.capacityOf macros.limit) n (macroStart stmts) =
        .ended (expandMacros macros stmts)) ∧
      (Recursive (Includes includes.resolver includes.formulas) (IncludedIn nodes) →
        ∃ f s, expandIncludes includes source nodes = .error (f, s)) ∧
      (Recursive (Calls macros.macros) (CalledIn stmts) →
        ∃ f s, expandMacros macros stmts = .error (f, s)) :=
  ⟨iterate_ends _ _ _ (Stack.capacityOf_pos _), iterate_eq_run _ _ _ (Stack.capacityOf_pos _),
    iterate_eq_run _ _ _ (Stack.capacityOf_pos _), expandIncludes_recursive, expandMacros_recursive⟩

/-- Two sources that include each other. -/
def mutualSources : IncludeContext where
  resolver := .ofTable [(utf8 "a", utf8 "@include \"b\"\n"), (utf8 "b", utf8 "@include \"a\"\n")]
  formulas := .valueless
  limit := 0
  verbose := false

/-- Every path names a source that includes a longer one. -/
def endlessSources : Resolver :=
  ⟨fun path => some (utf8 "@include \"x" ++ path ++ utf8 "\"\n"), fun _ => []⟩

/-- A call without arguments. -/
def plainCall (name : String) : Stmt := .call ⟨.word, utf8 name, [], default⟩

/-- Two macros that call each other, one of them twice. -/
def mutualMacros : MacroContext where
  sources := []
  macros := [(utf8 "ping()", ⟨utf8 "ping", [], [plainCall "pong", plainCall "pong"], default⟩),
    (utf8 "pong()", ⟨utf8 "pong", [], [plainCall "ping"], default⟩)]
  limit := 0
  verbose := false

theorem mutualSources_recursive :
    Recursive (Includes mutualSources.resolver mutualSources.formulas)
      (IncludedIn [.splice (utf8 "a") default]) := by
  have hab : Includes mutualSources.resolver mutualSources.formulas (utf8 "a") (utf8 "b") := by
    have hread : (Node.ofSource (utf8 "a") (utf8 "@include \"b\"\n") .valueless).toOption =
        some [.splice (utf8 "b") ⟨.directive, utf8 "@include", utf8 "a", 0, 1⟩] := by
      decide +kernel
    exact ⟨_, _, by decide +kernel, Except.toOption_eq_some.1 hread, _, List.mem_cons_self⟩
  have hba : Includes mutualSources.resolver mutualSources.formulas (utf8 "b") (utf8 "a") := by
    have hread : (Node.ofSource (utf8 "b") (utf8 "@include \"a\"\n") .valueless).toOption =
        some [.splice (utf8 "a") ⟨.directive, utf8 "@include", utf8 "b", 0, 1⟩] := by
      decide +kernel
    exact ⟨_, _, by decide +kernel, Except.toOption_eq_some.1 hread, _, List.mem_cons_self⟩
  exact ⟨_, _, ⟨default, List.mem_cons_self⟩, .refl, .tail (.single hab) hba⟩

theorem mutualMacros_recursive :
    Recursive (Calls mutualMacros.macros) (CalledIn [plainCall "ping"]) := by
  have hroot : CalledIn [plainCall "ping"] (utf8 "ping()") :=
    ⟨_, List.mem_cons_self, by decide +kernel, by decide +kernel⟩
  have hpong : Calls mutualMacros.macros (utf8 "ping()") (utf8 "pong()") :=
    ⟨⟨utf8 "ping", [], [plainCall "pong", plainCall "pong"], default⟩, by decide +kernel, _,
      List.mem_cons_self, by decide +kernel, by decide +kernel⟩
  have hping : Calls mutualMacros.macros (utf8 "pong()") (utf8 "ping()") :=
    ⟨⟨utf8 "pong", [], [plainCall "ping"], default⟩, by decide +kernel, _, List.mem_cons_self,
      by decide +kernel, by decide +kernel⟩
  exact ⟨_, _, hroot, .refl, .tail (.single hpong) hping⟩

theorem expansion_ends_on_mutual_recursion :
    Recursive (Includes mutualSources.resolver mutualSources.formulas)
      (IncludedIn [.splice (utf8 "a") default]) ∧
      Recursive (Calls mutualMacros.macros) (CalledIn [plainCall "ping"]) ∧
      (∃ n result,
        iterate (fun _ => visitNode { mutualSources with resolver := endlessSources }) 256 n
        (includeStart [] [.splice (utf8 "a") default]) = .ended result) ∧
      (∃ f s, expandIncludes mutualSources [] [.splice (utf8 "a") default] = .error (f, s)) ∧
      ∃ f s, expandMacros mutualMacros [plainCall "ping"] = .error (f, s) := by
  obtain ⟨hendless, -, -, hincludes, hmacros⟩ :=
    expansion_ends mutualSources (fun _ => endlessSources) []
    [.splice (utf8 "a") default] mutualMacros [plainCall "ping"]
  exact ⟨mutualSources_recursive, mutualMacros_recursive, hendless,
    hincludes mutualSources_recursive, hmacros mutualMacros_recursive⟩

end Expansion

end Octet
