import Octet.Proofs.ExpansionEnds
import Octet.Proofs.PlaceIndependence
import Octet.Proofs.WorklistInvariants

/-!
# Definitions may stand anywhere

Macros are collected before any call is expanded, and looked up by key. So what statements expand to
is a matter of the bodies that they come to call. Neither the places of the definitions, nor those
that nothing calls, nor those that have the key of an instruction, play a part in it.

* `Worklist.run_congr` — rules that agree on what a run meets have the same run;
* `Expansion.Defines`, `Expansion.Called` — the bodies that items give to keys, and the keys that
  they come to call;
* `Expansion.visitStmt_congr` — one statement depends on the body of the key that it calls;
* `Expansion.Inlined.instruction_of_encloses` — instructions are never taken for macros;
* `Expansion.expandMacros_definition_order` — **definitions may stand in any order, and do not
  interfere**.
-/

namespace Octet

namespace Worklist

/-- Two sets of rules that agree on the elements with a property, which is passed on to the lists
that they stand for, have the same runs on such elements. -/
theorem run_congr {σ φ α ε : Type} (rules rules' : Rules σ φ α ε) (element : α → Prop)
    (hvisit : ∀ note s x, element x → rules' note s x = rules note s x)
    (henter : ∀ {note s x s' inner items e}, element x → rules note s x = .enter s' inner items e →
      ∀ y ∈ items, element y)
    {limit : Nat} {frames : List (Frame φ α)} {s : σ} (fits : frames.length ≤ limit)
    (hframes : Frames (fun _ => element) frames) :
    run rules' limit frames s fits = run rules limit frames s fits := by
  fun_induction run rules limit frames s fits with
  | case1 => rw [run]
  | case2 s note outer fits _ ih =>
    rw [run]
    exact ih (frames_cons.1 hframes).2
  | case3 s note x left outer fits s' hx _ ih =>
    rw [run, hvisit _ _ _ hframes.first, hx]
    exact ih hframes.rest
  | case4 s note x left outer fits s' e hx => rw [run, hvisit _ _ _ hframes.first, hx]
  | case5 s note x left outer fits s' inner items e hx hfits _ ih =>
    rw [run, hvisit _ _ _ hframes.first, hx]
    have hitems := henter hframes.first hx
    exact (dif_pos hfits).trans (ih (frames_cons.2 ⟨hitems, hframes.rest⟩))
  | case6 s note x left outer fits s' inner items e hx hfull =>
    rw [run, hvisit _ _ _ hframes.first, hx]
    exact dif_neg hfull

end Worklist

namespace Expansion

open Relation Worklist

/-! ## Keys and bodies -/

/-- The items give the body to the key. -/
def Defines (items : List Item) (key : Text) (body : List Stmt) : Prop :=
  ∃ m, .definition m ∈ items ∧ m.key = key ∧ m.body = body

/-- A body that the items give to the first key calls the second, which is of no instruction. -/
def CallsIn (items : List Item) (key callee : Text) : Prop :=
  ∃ body, Defines items key body ∧ CalledIn body callee

/-- The statements among the items come to call the key, directly or through bodies. The key is of
no instruction. -/
def Called (items : List Item) (key : Text) : Prop :=
  ∃ first, CalledIn (statements items) first ∧ ReflTransGen (CallsIn items) first key

section

variable {items : List Item} {key : Text} {body : List Stmt}

theorem defines_iff_mem :
    Defines items key body ↔ body ∈ ((definitions items).filter (·.key == key)).map Macro.body := by
  simp only [Defines, List.mem_map, List.mem_filter, mem_definitions, beq_iff_eq, and_assoc]

variable (hkeys : ((definitions items).map Macro.key).Nodup)
include hkeys

/-- The table of macros gives to every key the body that the items give to it. -/
theorem macroTable_body_iff :
    ((macroTable (definitions items)).find? key).map Macro.body = some body ↔
      Defines items key body := by
  have hmem (e : Text × Macro) :
      e ∈ macroTable (definitions items) ↔ .definition e.2 ∈ items ∧ e.2.key = e.1 := by
    rw [macroTable, List.mem_reverse, List.mem_map]
    constructor
    · rintro ⟨m, hm, rfl⟩
      exact ⟨mem_definitions.1 hm, rfl⟩
    · rintro ⟨hm, hkey⟩
      exact ⟨e.2, mem_definitions.2 hm, by rw [hkey]⟩
  have hnodup : ((macroTable (definitions items)).map Prod.fst).Nodup := by
    rw [macroTable, List.map_reverse, List.map_map]
    exact List.pairwise_reverse.2 (hkeys.imp Ne.symm)
  rw [Option.map_eq_some_iff]
  constructor
  · rintro ⟨m, hfind, hbody⟩
    obtain ⟨hm, hkey⟩ := (hmem (key, m)).1 (Table.mem_of_find? hfind)
    exact ⟨m, hm, hkey, hbody⟩
  · rintro ⟨m, hm, hkey, hbody⟩
    exact ⟨m, Table.find?_of_mem hnodup ((hmem (key, m)).2 ⟨hm, hkey⟩), hbody⟩

/-- Definitions with distinct keys are collected. -/
theorem collectMacros_of_nodup (sources : Table Text) :
    collectMacros sources [] #[] items = .ok (macroTable (definitions items), statements items) :=
  collectMacros_eq_ok.2 ⟨⟨hkeys, fun _ _ => rfl⟩, by rw [List.append_nil]; rfl⟩

end

/-! ## Calls of statements -/

/-- The key that a statement calls, unless it is of an instruction. -/
def callee? : Stmt → Option Text
  | .label .. => none
  | .call c => if Instruction.find? c.key = none then some c.key else none

theorem calledIn_iff_mem {stmts : List Stmt} {key : Text} :
    CalledIn stmts key ↔ key ∈ stmts.filterMap callee? := by
  rw [List.mem_filterMap]
  constructor
  · rintro ⟨c, hc, rfl, hnone⟩
    exact ⟨.call c, hc, if_pos hnone⟩
  · rintro ⟨x, hx, hkey⟩
    cases x with
    | label name t => cases hkey
    | call c =>
      rw [callee?] at hkey
      split at hkey
      · rename_i hnone
        cases hkey
        exact ⟨c, hx, rfl, hnone⟩
      · cases hkey

/-- A bound body calls nothing but what the body calls. -/
theorem CalledIn.of_bind {m : Macro} {args : List Arg} {key : Text}
    (h : CalledIn (m.bind args) key) :
    CalledIn m.body key := by
  obtain ⟨c, hc, rfl, hnone⟩ := h
  obtain ⟨x, hx, heq⟩ := List.mem_map.1 hc
  cases x with
  | label name t => cases heq
  | call d =>
    have hkey : d.key = c.key := by
      cases heq
      simp [Call.key, Call.kinds, Function.comp_def, Arg.kind_substitute]
    exact ⟨d, hx, hkey, hnone⟩

/-- Keys that hold what the statements call, and what the bodies of their macros call, hold all that
is called. -/
theorem Called.mem {items : List Item} {keys : List Text}
    (hroot : ∀ key ∈ (statements items).filterMap callee?, key ∈ keys)
    (hstep : ∀ m ∈ definitions items, m.key ∈ keys → ∀ key ∈ m.body.filterMap callee?, key ∈ keys)
    {key : Text} (h : Called items key) : key ∈ keys := by
  obtain ⟨first, hfirst, hreach⟩ := h
  induction hreach with
  | refl => exact hroot _ (calledIn_iff_mem.1 hfirst)
  | tail _ hcalls ih =>
    obtain ⟨body, ⟨m, hm, rfl, rfl⟩, hin⟩ := hcalls
    exact hstep m (mem_definitions.2 hm) ih _ (calledIn_iff_mem.1 hin)

/-! ## One statement -/

section

variable (ctx : MacroContext) {macros : Table Macro}

/-- What a statement comes to depends on the macros only in the body of the key that it calls. -/
theorem visitStmt_congr {x : Stmt}
    (h : ∀ key, CalledIn [x] key →
      (macros.find? key).map Macro.body = (ctx.macros.find? key).map Macro.body)
    (calls : List Site) (s : MacroState) :
    visitStmt { ctx with macros := macros } calls s x = visitStmt ctx calls s x := by
  cases x with
  | label name t => rfl
  | call c =>
    simp only [visitStmt]
    cases he : Instruction.find? c.key with
    | some entry => rfl
    | none =>
      have hbody := h c.key ⟨c, List.mem_singleton_self _, rfl, he⟩
      cases hm : ctx.macros.find? c.key with
      | none =>
        rw [hm, Option.map_none, Option.map_eq_none_iff] at hbody
        simp only [hbody]
      | some m =>
        rw [hm, Option.map_some] at hbody
        obtain ⟨m', hm', hb⟩ := Option.map_eq_some_iff.1 hbody
        simp only [hm', Macro.bind, hb, callTooDeep]

/-- Statements expand alike with macros that have the same bodies for a set of keys, if the
statements and these bodies call no other keys. -/
theorem expandMacros_congr (keys : Text → Prop) {stmts : List Stmt}
    (hsame : ∀ key, keys key →
      (macros.find? key).map Macro.body = (ctx.macros.find? key).map Macro.body)
    (hroot : ∀ key, CalledIn stmts key → keys key)
    (hstep : ∀ key m, keys key → ctx.macros.find? key = some m → ∀ callee, CalledIn m.body callee →
      keys callee) :
    expandMacros { ctx with macros := macros } stmts = expandMacros ctx stmts := by
  refine run_congr (visitStmt ctx) (visitStmt { ctx with macros := macros })
    (fun x => ∀ key, CalledIn [x] key → keys key) ?_ ?_ _ ?_
  · intro calls s x hx
    exact visitStmt_congr ctx (fun key hkey => hsame key (hx key hkey)) calls s
  · intro calls s x s' inner items f hx hv y hy key hkey
    obtain ⟨c, m, rfl, he, hm, -, -, rfl⟩ := visitStmt_enter hv
    have hc : keys c.key := hx _ ⟨c, List.mem_singleton_self _, rfl, he⟩
    have hin : CalledIn (m.bind c.args) key := by
      obtain ⟨d, hd, hrest⟩ := hkey
      exact ⟨d, List.mem_singleton.1 hd ▸ hy, hrest⟩
    exact hstep _ m hc hm key hin.of_bind
  · rw [frames_singleton]
    intro x hx key hkey
    obtain ⟨d, hd, hrest⟩ := hkey
    exact hroot key ⟨d, List.mem_singleton.1 hd ▸ hx, hrest⟩

end

/-! ## Instructions -/

theorem Encloses.of_cons {macros : Table Macro} {x stmt : Stmt} {stmts : List Stmt}
    {chain : List Site} (h : Encloses macros (x :: stmts) chain stmt) :
    Encloses macros [x] chain stmt ∨ Encloses macros stmts chain stmt := by
  cases h with
  | here hmem =>
    obtain rfl | hmem := List.mem_cons.1 hmem
    · exact .inl (.here (List.mem_singleton_self _))
    · exact .inr (.here hmem)
  | inside hmem hnone hm h =>
    obtain rfl | hmem := List.mem_cons.1 hmem
    · exact .inl (.inside (List.mem_singleton_self _) hnone hm h)
    · exact .inr (.inside hmem hnone hm h)

/-- Only calls that match no instruction enclose anything. -/
theorem Encloses.no_instruction {macros : Table Macro} {stmts : List Stmt} {chain : List Site}
    {stmt : Stmt} (h : Encloses macros stmts chain stmt) :
    ∀ site ∈ chain, Instruction.find? site.key = none := by
  induction h with
  | here _ => simp
  | inside _ hnone _ _ ih => exact List.forall_mem_cons.2 ⟨hnone, ih⟩

/-- A call that matches an instruction is placed as that instruction, wherever it is reached. -/
theorem Inlined.instruction_of_encloses {macros : Table Macro} {limit : Nat} {calls : List Site}
    {stmts : List Stmt} {out : List Placed} (h : Inlined macros limit calls stmts out)
    {chain : List Site} {c : Call} {entry : Instruction}
    (hc : Encloses macros stmts chain (.call c)) (he : Instruction.find? c.key = some entry) :
    .instruction entry c (chain.reverse ++ calls) ∈ out := by
  induction h generalizing chain with
  | nil =>
    cases hc with
    | here hmem => cases hmem
    | inside hmem => cases hmem
  | label _ ih =>
    obtain hfirst | hrest := hc.of_cons
    · cases hfirst with
      | here hmem => cases List.mem_singleton.1 hmem
      | inside hmem => cases List.mem_singleton.1 hmem
    · exact .tail _ (ih hrest)
  | instruction hd _ ih =>
    obtain hfirst | hrest := hc.of_cons
    · cases hfirst with
      | here hmem =>
        cases List.mem_singleton.1 hmem
        cases hd.symm.trans he
        exact .head _
      | inside hmem hnone =>
        cases List.mem_singleton.1 hmem
        cases hd.symm.trans hnone
    · exact .tail _ (ih hrest)
  | call hnone hm _ _ _ ihbody ihrest =>
    obtain hfirst | hrest := hc.of_cons
    · cases hfirst with
      | here hmem =>
        cases List.mem_singleton.1 hmem
        cases he.symm.trans hnone
      | inside hmem _ hm' hinside =>
        cases List.mem_singleton.1 hmem
        cases hm.symm.trans hm'
        rw [List.reverse_cons, List.append_assoc]
        exact List.mem_append_left _ (ihbody hinside)
    · exact List.mem_append_right _ (ihrest hrest)

/-! ## Definitions -/

/-- **Definitions may stand in any order, and do not interfere.** Two programs with the same
statements, in which keys are defined at most once and which give the same bodies to the keys that
are called, have the same expansion, be it a fault or not. Calls that match an instruction are
placed as that instruction, and no macro with its key is ever entered. -/
theorem expandMacros_definition_order (sources : Table Text) (limit : Int) (verbose : Bool)
    (items items' : List Item) (hstmts : statements items' = statements items)
    (hkeys : ((definitions items).map Macro.key).Nodup)
    (hkeys' : ((definitions items').map Macro.key).Nodup)
    (hsame : ∀ key, Called items key → ∀ body, Defines items' key body ↔ Defines items key body) :
    ∃ macros macros' stmts, collectMacros sources [] #[] items = .ok (macros, stmts) ∧
      collectMacros sources [] #[] items' = .ok (macros', stmts) ∧
      expandMacros ⟨sources, macros', limit, verbose⟩ stmts =
        expandMacros ⟨sources, macros, limit, verbose⟩ stmts ∧
      ∀ s, expandMacros ⟨sources, macros, limit, verbose⟩ stmts = .ok s →
        (∀ chain c entry, Encloses macros stmts chain (.call c) →
          Instruction.find? c.key = some entry → .instruction entry c chain.reverse ∈ s.placed) ∧
        ∀ x ∈ s.placed, ∀ site ∈ x.calls, Instruction.find? site.key = none := by
  have hcollect' := collectMacros_of_nodup hkeys' sources
  rw [hstmts] at hcollect'
  refine ⟨_, _, _, collectMacros_of_nodup hkeys sources, hcollect', ?_, ?_⟩
  · apply expandMacros_congr ⟨sources, macroTable (definitions items), limit, verbose⟩
      (Called items)
    · intro key hkey
      refine Option.ext fun body => ?_
      rw [macroTable_body_iff hkeys', macroTable_body_iff hkeys]
      exact hsame key hkey body
    · intro key hkey
      exact ⟨key, hkey, .refl⟩
    · intro key m hkey hm callee hcallee
      obtain ⟨first, hfirst, hreach⟩ := hkey
      have hdefines : Defines items key m.body := (macroTable_body_iff hkeys).1 (by rw [hm]; rfl)
      exact ⟨first, hfirst, hreach.tail ⟨m.body, hdefines, hcallee⟩⟩
  · intro s hs
    have hinlined := inlined_of_expandMacros hs
    constructor
    · intro chain c entry hc he
      have hplaced := hinlined.instruction_of_encloses hc he
      rw [List.append_nil] at hplaced
      exact Array.mem_toList_iff.1 hplaced
    · intro x hx site hsite
      obtain ⟨chain, hcalls, henc⟩ := hinlined.encloses (Array.mem_toList_iff.2 hx)
      rw [hcalls, List.append_nil, List.mem_reverse] at hsite
      exact henc.no_instruction site hsite

/-- A macro that calls another one twice. -/
def twice : Macro := ⟨utf8 "twice", [], [plainCall "once", plainCall "once"], default⟩

/-- An instruction as a macro. -/
def once : Macro :=
  ⟨utf8 "once", [], [.call ⟨.mnemonic, utf8 "not", [.register (utf8 "r0") .r0 default], default⟩],
    default⟩

/-- Definitions among and after their uses, and one with the key of an instruction. -/
def scattered : List Item :=
  [.stmt (plainCall "twice"), .definition ⟨utf8 "not", [.register], [plainCall "nothing"], default⟩,
    .definition twice, .stmt (.label (utf8 "here") default), .definition once]

/-- Definitions before their uses, and one that nothing calls. -/
def gathered : List Item :=
  [.definition once, .definition ⟨utf8 "spare", [], [plainCall "nothing"], default⟩,
    .definition twice, .stmt (plainCall "twice"), .stmt (.label (utf8 "here") default)]

theorem same_bodies_gathered (key : Text) (h : Called scattered key) (body : List Stmt) :
    Defines gathered key body ↔ Defines scattered key body := by
  have hkey : key ∈ [utf8 "twice()", utf8 "once()"] := h.mem (by decide +kernel) (by decide +kernel)
  have hbodies : ∀ key ∈ [utf8 "twice()", utf8 "once()"],
      ((definitions gathered).filter (·.key == key)).map Macro.body =
      ((definitions scattered).filter (·.key == key)).map Macro.body := by
    decide +kernel
  rw [defines_iff_mem, defines_iff_mem, hbodies key hkey]

theorem expandMacros_definition_order_gathered :
    statements gathered = statements scattered ∧ ((definitions scattered).map Macro.key).Nodup ∧
      ((definitions gathered).map Macro.key).Nodup ∧
      (∀ key, Called scattered key → ∀ body, Defines gathered key body ↔
        Defines scattered key body) ∧
      ∃ macros macros' stmts s, collectMacros [] [] #[] scattered = .ok (macros, stmts) ∧
        collectMacros [] [] #[] gathered = .ok (macros', stmts) ∧
          expandMacros ⟨[], macros, 0, false⟩ stmts = .ok s ∧
        expandMacros ⟨[], macros', 0, false⟩ stmts = .ok s ∧
        s.placed.toList.map (fun x => x.calls.map Site.key) =
          [[utf8 "once()", utf8 "twice()"], [utf8 "once()", utf8 "twice()"], []] := by
  have hkeys : ((definitions scattered).map Macro.key).Nodup := by decide +kernel
  have hkeys' : ((definitions gathered).map Macro.key).Nodup := by decide +kernel
  obtain ⟨macros, macros', stmts, hcollect, hcollect', hsame, -⟩ :=
    expandMacros_definition_order [] 0 false scattered gathered rfl hkeys hkeys'
      same_bodies_gathered
  cases (collectMacros_of_nodup hkeys []).symm.trans hcollect
  have hcalls : (expandMacros ⟨[], macroTable (definitions scattered), 0, false⟩
      (statements scattered)).toOption.map
      (fun s => s.placed.toList.map fun x => x.calls.map Site.key) =
        some [[utf8 "once()", utf8 "twice()"], [utf8 "once()", utf8 "twice()"], []] := by
    simp only [expandMacros, expand_eq_nested]
    decide +kernel
  obtain ⟨s, hs, hkeys''⟩ := Option.map_eq_some_iff.1 hcalls
  have hok := Except.toOption_eq_some.1 hs
  exact ⟨rfl, hkeys, hkeys', same_bodies_gathered, _, _, _, s, hcollect, hcollect', hok,
    hsame.trans hok, hkeys''⟩

end Expansion

end Octet
