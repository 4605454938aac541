import Octet.Assembler

/-!
# Assemblers have no memory

An assembler is used for one assembly after the other, and each of them leaves tables behind, also
half filled ones if it fails. No later assembly depends on them.

* `Assembler.Stage.on` — what a stage gives and leaves; `Assembler.Stage.on_bind`: stages one after
  the other;
* `Assembler.assemble_fst` — **the stages give what assembling with the settings gives**;
* `Assembler.Stage.Keeps` — stages that leave the settings and the defines alone, as all of them do;
* `Assembler.Operation`, `Assembler.performAll` — what is done with an assembler;
* `Assembler.assemble_after_session` — **after any operations an assembler assembles like a fresh
  one**.
-/

namespace Octet.Assembler

open Expansion Layout

/-! ## Stages -/

namespace Stage

variable {α β : Type}

/-- What a stage gives, and the assembler that it leaves. -/
def on (x : Stage α) (a : Assembler) : Except Fault α × Assembler := x.run.run a

/-- After a stage that fails nothing is done. -/
theorem on_bind (x : Stage α) (f : α → Stage β) (a : Assembler) :
    (x >>= f).on a =
      match x.on a with
      | (.error e, b) => (.error e, b)
      | (.ok v, b) => (f v).on b := by
  show (match x.on a with
      | (r, b) => ((ExceptT.bindCont f r).run b : Except Fault β × Assembler)) = _
  rcases x.on a with ⟨_ | _, _⟩ <;> rfl

theorem on_get (f : Assembler → Stage β) (a : Assembler) : (get >>= f).on a = (f a).on a := rfl

theorem on_modify (change : Assembler → Assembler) (x : Stage β) (a : Assembler) :
    (modify change >>= fun _ => x).on a = x.on (change a) := rfl

theorem on_ofExcept (r : Except Fault α) (a : Assembler) :
    (MonadExcept.ofExcept r : Stage α).on a = (r, a) := by
  cases r <;> rfl

theorem on_ofOutcome {ε : Type} (outcome : Except (Fault × ε) α)
    (failed : ε → Assembler → Assembler) (done : α → Assembler → Assembler) (a : Assembler) :
    (ofOutcome outcome failed done).on a =
      match outcome with
      | .error (f, e) => (.error f, failed e a)
      | .ok v => (.ok v, done v a) := by
  rcases outcome with ⟨f, e⟩ | v <;> rfl

end Stage

/-! ## One assembly -/

section

variable (a : Assembler)

theorem readRoot_on (source : Text) :
    (readRoot source).on a =
      (Node.ofSource [] source a.formulas, { a with sources := a.sources.insert [] source }) := by
  unfold readRoot
  rw [Stage.on_modify, Stage.on_get, Stage.on_ofExcept]
  rfl

theorem spliceIncludes_on (nodes : List Node) :
    (spliceIncludes nodes).on a =
      match Worklist.expand
          (visitNode ⟨a.settings.resolver, a.formulas, a.settings.maxDepth, a.settings.verbose⟩)
            a.settings.maxDepth
          [] nodes ⟨a.sources, #[], a.log⟩ with
      | .error (f, s) => (.error f, { a with sources := s.sources, log := s.log })
      | .ok s => (.ok s.items.toList, { a with sources := s.sources, log := s.log }) := by
  unfold spliceIncludes
  rw [Stage.on_get]
  simp only
  rw [Stage.on_bind, Stage.on_ofOutcome]
  rcases Worklist.expand _ _ _ _ _ with ⟨f, s⟩ | s <;> rfl

theorem defineMacros_on (items : List Item) :
    (defineMacros items).on a =
      match collectMacros a.sources a.macros #[] items with
      | .error (f, macros) => (.error f, { a with macros := macros })
      | .ok (macros, stmts) => (.ok stmts, { a with macros := macros }) := by
  unfold defineMacros
  rw [Stage.on_get, Stage.on_bind, Stage.on_ofOutcome]
  rcases collectMacros _ _ _ _ with ⟨f, macros⟩ | ⟨macros, stmts⟩ <;> rfl

theorem inlineMacros_on (stmts : List Stmt) :
    (inlineMacros stmts).on a =
      match expandMacros ⟨a.sources, a.macros, a.settings.maxDepth, a.settings.verbose⟩ stmts with
      | .error (f, s) => (.error f, { a with log := a.log ++ s.log })
      | .ok s => (.ok s.placed.toList, { a with log := a.log ++ s.log }) := by
  unfold inlineMacros
  rw [Stage.on_get]
  simp only
  rw [Stage.on_bind, Stage.on_ofOutcome]
  rcases expandMacros _ _ with ⟨f, s⟩ | s <;> rfl

theorem placeLabels_on (placed : List Placed) :
    (placeLabels placed).on a =
      match assignLabels a.sources a.settings.verbose ⟨a.labels, a.log⟩ 0 placed with
      | .error (f, s) => (.error f, { a with labels := s.labels, log := s.log })
      | .ok s => (.ok (), { a with labels := s.labels, log := s.log }) := by
  unfold placeLabels
  rw [Stage.on_get, Stage.on_bind, Stage.on_ofOutcome]
  rcases assignLabels _ _ _ _ _ with ⟨f, s⟩ | s <;> rfl

theorem emitProgram_on (placed : List Placed) :
    (emitProgram placed).on a =
      ((emit a.sources a.labels #[] 0 placed).map (⟨·, a.labels⟩), a) := by
  unfold emitProgram
  rw [Stage.on_get, Stage.on_bind, Stage.on_ofExcept]
  cases emit a.sources a.labels #[] 0 placed <;> rfl

/-- **The stages give what assembling with the settings gives**, whatever the tables held before. -/
theorem assemble_fst (source : Text) :
    (a.assemble source).1 = Octet.assemble a.settings source := by
  have hrun : a.assemble source =
      match (assembleStages source).on a with
      | (result, b) => (⟨result, b.labels, b.macros, b.log⟩, b) := rfl
  have hsources : Table.insert ([] : Table Text) [] source = [([], source)] := rfl
  rw [hrun]
  unfold assembleStages Octet.assemble expandIncludes
  rw [Stage.on_modify, Stage.on_bind, readRoot_on]
  simp only [reset, hsources, formulas, Settings.includeContext, Settings.formulas]
  cases Node.ofSource [] source ⟨a.settings.evaluate, a.settings.defines⟩ with
  | error f => rfl
  | ok nodes =>
    simp only
    rw [Stage.on_bind, spliceIncludes_on]
    simp only [formulas]
    cases Worklist.expand
        (visitNode ⟨a.settings.resolver, ⟨a.settings.evaluate, a.settings.defines⟩,
          a.settings.maxDepth,
          a.settings.verbose⟩) a.settings.maxDepth [] nodes ⟨[([], source)], #[], #[]⟩ with
    | error e => rfl
    | ok included =>
      simp only
      rw [Stage.on_bind, defineMacros_on]
      simp only
      cases collectMacros included.sources [] #[] included.items.toList with
      | error e => rfl
      | ok r =>
        simp only
        rw [Stage.on_bind, inlineMacros_on]
        simp only
        cases expandMacros ⟨included.sources, r.1, a.settings.maxDepth, a.settings.verbose⟩ r.2 with
        | error e => rfl
        | ok expanded =>
          simp only
          rw [Stage.on_bind, placeLabels_on]
          simp only
          cases assignLabels included.sources a.settings.verbose
              ⟨[], included.log ++ expanded.log⟩ 0 expanded.placed.toList with
          | error e => rfl
          | ok found =>
            simp only
            rw [emitProgram_on]

end

/-! ## What an assembly keeps -/

/-- A stage that leaves the settings and the defines alone, also if it fails. -/
def Stage.Keeps {α : Type} (x : Stage α) : Prop :=
  ∀ a, (x.on a).2.settings = a.settings ∧ (x.on a).2.formulas = a.formulas

theorem Stage.Keeps.bind {α β : Type} {x : Stage α} {f : α → Stage β} (hx : x.Keeps)
    (hf : ∀ v, (f v).Keeps) :
    (x >>= f).Keeps := by
  intro a
  have hfirst := hx a
  rw [Stage.on_bind]
  rcases hon : x.on a with ⟨_ | v, b⟩
  · rw [hon] at hfirst
    exact hfirst
  · rw [hon] at hfirst
    exact ⟨(hf v b).1.trans hfirst.1, (hf v b).2.trans hfirst.2⟩

theorem readRoot_keeps (source : Text) : (readRoot source).Keeps := by
  intro a
  rw [readRoot_on]
  exact ⟨rfl, rfl⟩

theorem spliceIncludes_keeps (nodes : List Node) : (spliceIncludes nodes).Keeps := by
  intro a
  rw [spliceIncludes_on]
  split <;> exact ⟨rfl, rfl⟩

theorem defineMacros_keeps (items : List Item) : (defineMacros items).Keeps := by
  intro a
  rw [defineMacros_on]
  split <;> exact ⟨rfl, rfl⟩

theorem inlineMacros_keeps (stmts : List Stmt) : (inlineMacros stmts).Keeps := by
  intro a
  rw [inlineMacros_on]
  split <;> exact ⟨rfl, rfl⟩

theorem placeLabels_keeps (placed : List Placed) : (placeLabels placed).Keeps := by
  intro a
  rw [placeLabels_on]
  split <;> exact ⟨rfl, rfl⟩

theorem emitProgram_keeps (placed : List Placed) : (emitProgram placed).Keeps := by
  intro a
  rw [emitProgram_on]
  exact ⟨rfl, rfl⟩

/-- **An assembly leaves the settings alone**, and the defines that they give, whether it succeeds
or not. -/
theorem assemble_keeps (a : Assembler) (source : Text) :
    (a.assemble source).2.settings = a.settings ∧
      (a.assemble source).2.formulas = a.settings.formulas := by
  have hstages :=
    (readRoot_keeps source).bind fun nodes => (spliceIncludes_keeps nodes).bind fun items =>
    (defineMacros_keeps items).bind fun stmts => (inlineMacros_keeps stmts).bind fun placed =>
      (placeLabels_keeps placed).bind fun _ => emitProgram_keeps placed
  exact hstages a.reset

/-- An assembly starts from tables that are cleared, so it depends on nothing but the settings. -/
theorem assemble_of_settings {a b : Assembler} (h : a.settings = b.settings) (source : Text) :
    a.assemble source = b.assemble source := by
  have hreset : a.reset = b.reset := by
    unfold reset
    rw [h]
  have hstart (c : Assembler) : (assembleStages source).on c = (assembleStages source).on c.reset :=
    rfl
  show (match (assembleStages source).on a with
      | (result, c) => (Assembly.mk result c.labels c.macros c.log, c)) =
    match (assembleStages source).on b with
    | (result, c) => (Assembly.mk result c.labels c.macros c.log, c)
  rw [hstart a, hstart b, hreset]

/-! ## Sessions -/

/-- What is done with an assembler. -/
inductive Operation where
  | assemble (input : Except Fault Text)
  | predefine (name value : Text)
  | resolver (r : Resolver)
  | maxDepth (limit : Int)

namespace Operation

def definition? : Operation → Option (Text × Text)
  | predefine name value => some (name, value)
  | _ => none

def resolver? : Operation → Option Resolver
  | resolver r => some r
  | _ => none

def maxDepth? : Operation → Option Int
  | maxDepth limit => some limit
  | _ => none

end Operation

def perform (a : Assembler) : Operation → Assembler
  | .assemble input => (a.assembleInput input).2
  | .predefine name value => a.predefine name value
  | .resolver r => { a with settings := { a.settings with resolver := r } }
  | .maxDepth limit => { a with settings := { a.settings with maxDepth := limit } }

def performAll (a : Assembler) (ops : List Operation) : Assembler := ops.foldl perform a

/-- The last value that operations set, or the one from before. -/
def lastOf {α : Type} (set? : Operation → Option α) (before : α) (ops : List Operation) : α :=
  (ops.filterMap set?).getLast?.getD before

/-- The settings after operations: the last resolver and the last limit, and all definitions in
their order. -/
def settingsAfter (s : Settings) (ops : List Operation) : Settings :=
  { s with
    resolver := lastOf Operation.resolver? s.resolver ops
    maxDepth := lastOf Operation.maxDepth? s.maxDepth ops
    predefines := s.predefines.insertAll (ops.filterMap Operation.definition?) }

theorem lastOf_cons {α : Type} (set? : Operation → Option α) (before : α) (op : Operation)
    (ops : List Operation) :
    lastOf set? before (op :: ops) = lastOf set? ((set? op).getD before) ops := by
  unfold lastOf
  rw [List.filterMap_cons]
  cases set? op with
  | none => rfl
  | some v => rw [List.getLast?_cons]; rfl

/-- One operation changes the settings that it sets, and an assembly changes none. -/
theorem perform_settings (a : Assembler) (op : Operation) :
    (a.perform op).settings = settingsAfter a.settings [op] := by
  cases op with
  | assemble input =>
    cases input with
    | error f => rfl
    | ok source => exact (assemble_keeps a source).1
  | predefine name value => rfl
  | resolver r => rfl
  | maxDepth limit => rfl

theorem settingsAfter_cons (s : Settings) (op : Operation) (ops : List Operation) :
    settingsAfter s (op :: ops) = settingsAfter (settingsAfter s [op]) ops := by
  unfold settingsAfter
  rw [lastOf_cons, lastOf_cons]
  cases op <;> rfl

/-- **The settings after a session** are those that its operations set. -/
theorem performAll_settings (a : Assembler) (ops : List Operation) :
    (a.performAll ops).settings = settingsAfter a.settings ops := by
  induction ops generalizing a with
  | nil => rfl
  | cons op ops ih =>
    rw [settingsAfter_cons, ← perform_settings, ← ih]
    rfl

/-- A fresh assembler with the last resolver and the last limit of a session, for which the names of
the session have been defined in the same order. -/
def freshAfter (s : Settings) (ops : List Operation) : Assembler :=
  let fresh : Assembler := { settings := { s with
    resolver := lastOf Operation.resolver? s.resolver ops
    maxDepth := lastOf Operation.maxDepth? s.maxDepth ops } }
  (ops.filterMap Operation.definition?).foldl (fun a d => a.predefine d.1 d.2) fresh

theorem predefines_settings (a : Assembler) (defs : List (Text × Text)) :
    (defs.foldl (fun a d => a.predefine d.1 d.2) a).settings =
      { a.settings with predefines := a.settings.predefines.insertAll defs } := by
  induction defs generalizing a with
  | nil => rfl
  | cons d defs ih =>
    rw [List.foldl_cons, ih]
    rfl

/-- **After any operations an assembler assembles like a fresh one**: the result, with the program
or the complete fault, and the tables that are left are the same, however the assemblies of the
session ended. They are those of an assembly with the settings that the session left. -/
theorem assemble_after_session (a : Assembler) (ops : List Operation) (source : Text) :
    (a.performAll ops).assemble source = (freshAfter a.settings ops).assemble source ∧
      ((a.performAll ops).assemble source).1 =
        Octet.assemble (settingsAfter a.settings ops) source := by
  constructor
  · apply assemble_of_settings
    rw [performAll_settings, freshAfter, predefines_settings]
    rfl
  · rw [assemble_fst, performAll_settings]

end Octet.Assembler
