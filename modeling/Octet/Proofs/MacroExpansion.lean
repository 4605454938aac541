import Octet.Expansion.Macros
import Octet.Proofs.Nesting
import Octet.Proofs.Outcome

/-!
# Macro calls are expanded as if by recursion

The worklist keeps frames of statements and notes of calls. What it returns is said here without
either: a call stands for the expansion of its bound body.

* `Expansion.inlineCalls` — expansion by recursion, faults included;
* `Expansion.Inlined` — the expansions that succeed, as a relation;
* `Expansion.Encloses` — the chain of macro calls around a statement;
* `Expansion.outcome_expandMacros` — the worklist returns what the recursion returns;
* `Expansion.Inlined.rebase` — statements expand to the same at every place, unless they nest too
  deeply there;
* `Expansion.expandMacros_inlines` — **macro expansion is recursive expansion**.
-/

namespace Octet.Expansion

open Worklist

/-! ## Placed statements -/

namespace Placed

/-- The calls that led to what is placed, the innermost first. -/
def calls : Placed → List Site
  | label _ _ calls => calls
  | instruction _ _ calls => calls

/-- The statement that was placed. -/
def stmt : Placed → Stmt
  | label name t _ => .label name t
  | instruction _ c _ => .call c

/-- What is placed, without the calls that led to it. -/
def bare : Placed → Placed
  | label name t _ => label name t []
  | instruction entry c _ => instruction entry c []

end Placed

/-! ## Recursive expansion -/

/-- The statements that `stmts` stand for when they are reached through `calls`: every macro call is
replaced by the expansion of its bound body. The body of a call at nesting depth `limit` is too
deep. -/
def inlineCalls (ctx : MacroContext) (limit : Nat) (calls : List Site) :
    List Stmt → Except Fault (List Placed)
  | [] => .ok []
  | .label name t :: rest => do
    let after ← inlineCalls ctx limit calls rest
    .ok (.label name t calls :: after)
  | .call c :: rest =>
    match Instruction.find? c.key with
    | some entry => do
      let after ← inlineCalls ctx limit calls rest
      .ok (.instruction entry c calls :: after)
    | none =>
      match ctx.macros.find? c.key with
      | none =>
        .error (.at ctx.sources c.token calls [.cause .resolution, .unknownInstruction c.key])
      | some m =>
        if calls.length + 1 < limit then do
          let body ← inlineCalls ctx limit (⟨c.key, c.token⟩ :: calls) (m.bind c.args)
          let after ← inlineCalls ctx limit calls rest
          .ok (body ++ after)
        else
          .error (.at ctx.sources c.token calls.getLast?.toList
            [.cause .recursion, .tooDeep c.key limit])
termination_by stmts => (limit - calls.length, stmts.length)
decreasing_by
  all_goals simp_wf
  all_goals omega

/-- `Inlined macros limit calls stmts out`: the statements, reached through `calls`, expand to
`out`. -/
inductive Inlined (macros : Table Macro) (limit : Nat) : List Site → List Stmt → List Placed → Prop
  | nil {calls} : Inlined macros limit calls [] []
  | label {calls name t rest out} : Inlined macros limit calls rest out →
      Inlined macros limit calls (.label name t :: rest) (.label name t calls :: out)
  | instruction {calls c entry rest out} : Instruction.find? c.key = some entry →
      Inlined macros limit calls rest out →
      Inlined macros limit calls (.call c :: rest) (.instruction entry c calls :: out)
  | call {calls c m rest body out} : Instruction.find? c.key = none → macros.find? c.key = some m →
      calls.length + 1 < limit →
        Inlined macros limit (⟨c.key, c.token⟩ :: calls) (m.bind c.args) body →
      Inlined macros limit calls rest out →
        Inlined macros limit calls (.call c :: rest) (body ++ out)

variable {ctx : MacroContext} {limit : Nat} {calls : List Site} {rest : List Stmt}

theorem inlineCalls_nil : inlineCalls ctx limit calls [] = .ok [] := by
  rw [inlineCalls]

theorem inlineCalls_label {name : Text} {t : Token} :
    inlineCalls ctx limit calls (.label name t :: rest) =
      (inlineCalls ctx limit calls rest).map (.label name t calls :: ·) := by
  rw [inlineCalls]
  cases inlineCalls ctx limit calls rest <;> rfl

section
variable {c : Call}

theorem inlineCalls_instruction {entry : Instruction} (h : Instruction.find? c.key = some entry) :
    inlineCalls ctx limit calls (.call c :: rest) =
      (inlineCalls ctx limit calls rest).map (.instruction entry c calls :: ·) := by
  rw [inlineCalls, h]
  cases inlineCalls ctx limit calls rest <;> rfl

variable (h : Instruction.find? c.key = none)
include h

theorem inlineCalls_unknown (hm : ctx.macros.find? c.key = none) :
    inlineCalls ctx limit calls (.call c :: rest) =
      .error (.at ctx.sources c.token calls [.cause .resolution, .unknownInstruction c.key]) := by
  rw [inlineCalls, h, hm]

theorem inlineCalls_tooDeep {m : Macro} (hm : ctx.macros.find? c.key = some m)
    (hd : limit ≤ calls.length + 1) :
    inlineCalls ctx limit calls (.call c :: rest) =
      .error (.at ctx.sources c.token calls.getLast?.toList
        [.cause .recursion, .tooDeep c.key limit]) := by
  rw [inlineCalls, h, hm]
  exact if_neg (by omega)

theorem inlineCalls_enter {m : Macro} (hm : ctx.macros.find? c.key = some m)
    (hd : calls.length + 1 < limit) :
    inlineCalls ctx limit calls (.call c :: rest) =
      inlineCalls ctx limit (⟨c.key, c.token⟩ :: calls) (m.bind c.args) >>= fun body =>
        (inlineCalls ctx limit calls rest).map (body ++ ·) := by
  rw [inlineCalls, h, hm]
  simp only [if_pos hd]
  cases inlineCalls ctx limit (⟨c.key, c.token⟩ :: calls) (m.bind c.args) with
  | error f => rfl
  | ok body => cases inlineCalls ctx limit calls rest <;> rfl

end

/-! ## One statement of the worklist -/

section
variable {s s' : MacroState} {stmt : Stmt}

/-- A statement that is done is a label or an instruction, and is placed after what was placed
before. -/
theorem visitStmt_done (h : visitStmt ctx calls s stmt = .done s') :
    (∃ name t, stmt = .label name t ∧ s'.placed = s.placed.push (.label name t calls)) ∨
      ∃ c entry, stmt = .call c ∧ Instruction.find? c.key = some entry ∧
        s'.placed = s.placed.push (.instruction entry c calls) := by
  cases stmt with
  | label name t =>
    cases h
    exact .inl ⟨name, t, rfl, rfl⟩
  | call c =>
    simp only [visitStmt] at h
    split at h
    · rename_i entry he
      cases h
      exact .inr ⟨c, entry, rfl, he, rfl⟩
    · split at h <;> cases h

/-- A statement that fails is a call of nothing known. -/
theorem visitStmt_fail {f : Fault} (h : visitStmt ctx calls s stmt = .fail s' f) :
    ∃ c, stmt = .call c ∧ Instruction.find? c.key = none ∧ ctx.macros.find? c.key = none ∧
      f = .at ctx.sources c.token calls [.cause .resolution, .unknownInstruction c.key] := by
  cases stmt with
  | label name t => cases h
  | call c =>
    simp only [visitStmt] at h
    split at h
    · cases h
    · rename_i he
      split at h
      · rename_i hm
        cases h
        exact ⟨c, rfl, he, hm, rfl⟩
      · cases h

/-- A statement that is entered is a macro call. Nothing is placed for it, and its body is reached
through it. -/
theorem visitStmt_enter {inner : List Site} {items : List Stmt} {f : Fault}
    (h : visitStmt ctx calls s stmt = .enter s' inner items f) :
    ∃ c m, stmt = .call c ∧ Instruction.find? c.key = none ∧ ctx.macros.find? c.key = some m ∧
      s'.placed = s.placed ∧ inner = ⟨c.key, c.token⟩ :: calls ∧ items = m.bind c.args := by
  cases stmt with
  | label name t => cases h
  | call c =>
    simp only [visitStmt] at h
    split at h
    · cases h
    · rename_i he
      split at h
      · cases h
      · rename_i m hm
        cases h
        refine ⟨c, m, rfl, he, hm, ?_, rfl, rfl⟩
        split <;> rfl

theorem visitStmt_tooDeep {c : Call} {inner : List Site} {items : List Stmt} {f : Fault}
    (h : visitStmt ctx calls s (.call c) = .enter s' inner items f) :
    f = callTooDeep ctx calls c := by
  simp only [visitStmt] at h
  split at h
  · cases h
  · split at h
    · cases h
    · cases h
      rfl

end

/-! ## Worklist and recursion agree -/

/-- What an expansion returns: the placed statements or the fault, without the log. -/
def outcome : Except (Fault × MacroState) MacroState → Except Fault (List Placed)
  | .ok s => .ok s.placed.toList
  | .error (f, _) => .error f

theorem outcome_eq_ok {r : Except (Fault × MacroState) MacroState} {placed : List Placed}
    (h : outcome r = .ok placed) : ∃ s, r = .ok s ∧ s.placed.toList = placed := by
  cases r with
  | ok s => exact ⟨s, rfl, Except.ok.inj h⟩
  | error e => cases h

theorem outcome_eq_error {r : Except (Fault × MacroState) MacroState} {f : Fault}
    (h : outcome r = .error f) :
    ∃ s, r = .error (f, s) := by
  cases r with
  | ok s => cases h
  | error e =>
    cases h
    exact ⟨e.2, rfl⟩

/-- The recursion of the worklist, started anywhere, goes on with the recursive expansion. The depth
is the number of calls that lead to the statements, and `room` is what the limit leaves below it. -/
theorem outcome_nested (ctx : MacroContext) (room : Nat) (calls : List Site) (stmts : List Stmt)
    (s : MacroState) (hroom : room + (calls.length + 1) = Stack.capacityOf ctx.limit) :
    outcome (nested (visitStmt ctx) room calls stmts s) =
      (inlineCalls ctx (Stack.capacityOf ctx.limit) calls stmts).map (s.placed.toList ++ ·) := by
  induction room, calls, stmts, s using nested_induct (visitStmt ctx) with
  | nil room calls s =>
    rw [nested_nil, inlineCalls_nil]
    simp [outcome, Except.map]
  | done room calls stmt left s s' hv ih =>
    rw [nested_done hv, ih hroom]
    obtain ⟨name, t, rfl, hp⟩ | ⟨c, entry, rfl, he, hp⟩ := visitStmt_done hv
    · rw [inlineCalls_label, hp]
      cases inlineCalls ctx (Stack.capacityOf ctx.limit) calls left <;> simp [Except.map]
    · rw [inlineCalls_instruction he, hp]
      cases inlineCalls ctx (Stack.capacityOf ctx.limit) calls left <;> simp [Except.map]
  | fail room calls stmt left s s' f hv =>
    obtain ⟨c, rfl, he, hm, rfl⟩ := visitStmt_fail hv
    rw [nested_fail hv, inlineCalls_unknown he hm]
    rfl
  | tooDeep calls stmt left s s' inner items f hv =>
    obtain ⟨c, m, rfl, he, hm, -, -, -⟩ := visitStmt_enter hv
    rw [nested_tooDeep hv, inlineCalls_tooDeep he hm (by omega), visitStmt_tooDeep hv]
    rfl
  | enter room calls stmt left s s' inner items f hv ihbody ihleft =>
    obtain ⟨c, m, rfl, he, hm, hp, rfl, rfl⟩ := visitStmt_enter hv
    have hbody := ihbody (by simp only [List.length_cons]; omega)
    rw [nested_enter hv, inlineCalls_enter he hm (by omega)]
    -- The body decides: its fault is the fault of both, and what it places comes before what is
    -- left.
    cases hi : inlineCalls ctx (Stack.capacityOf ctx.limit) (⟨c.key, c.token⟩ :: calls)
      (m.bind c.args) with
    | error f =>
      rw [hi] at hbody
      obtain ⟨t, ht⟩ := outcome_eq_error hbody
      rw [ht]
      rfl
    | ok body =>
      rw [hi, hp] at hbody
      obtain ⟨t, ht, hplaced⟩ := outcome_eq_ok hbody
      rw [ht]
      refine (ihleft t hroom).trans ?_
      rw [hplaced]
      show _ = Except.map _ (Except.map _ _)
      cases inlineCalls ctx (Stack.capacityOf ctx.limit) calls left <;> simp [Except.map]

/-- The worklist of a whole program. -/
theorem outcome_expandMacros (ctx : MacroContext) (stmts : List Stmt) :
    outcome (expandMacros ctx stmts) = inlineCalls ctx (Stack.capacityOf ctx.limit) [] stmts := by
  have hpos := Stack.capacityOf_pos ctx.limit
  rw [expandMacros, expand_eq_nested,
    outcome_nested ctx _ _ _ _ (by simp only [List.length_nil]; omega)]
  cases inlineCalls ctx (Stack.capacityOf ctx.limit) [] stmts <;> simp [Except.map]

/-! ## Pieces -/

theorem inlineCalls_append (xs ys : List Stmt) :
    inlineCalls ctx limit calls (xs ++ ys) =
      inlineCalls ctx limit calls xs >>= fun before =>
        (inlineCalls ctx limit calls ys).map (before ++ ·) := by
  induction xs with
  | nil =>
    rw [inlineCalls_nil, List.nil_append]
    show _ = Except.map _ _
    cases inlineCalls ctx limit calls ys <;> rfl
  | cons x xs ih =>
    rw [List.cons_append]
    cases x with
    | label name t =>
      rw [inlineCalls_label, inlineCalls_label, ih]
      cases inlineCalls ctx limit calls xs with
      | error f => rfl
      | ok before => cases inlineCalls ctx limit calls ys <;> rfl
    | call c =>
      cases he : Instruction.find? c.key with
      | some entry =>
        rw [inlineCalls_instruction he, inlineCalls_instruction he, ih]
        cases inlineCalls ctx limit calls xs with
        | error f => rfl
        | ok before => cases inlineCalls ctx limit calls ys <;> rfl
      | none =>
        cases hm : ctx.macros.find? c.key with
        | none =>
          rw [inlineCalls_unknown he hm, inlineCalls_unknown he hm]
          rfl
        | some m =>
          by_cases hd : calls.length + 1 < limit
          · rw [inlineCalls_enter he hm hd, inlineCalls_enter he hm hd, ih, bind_assoc]
            refine congrArg _ (funext fun body => ?_)
            cases inlineCalls ctx limit calls xs with
            | error f => rfl
            | ok before =>
              show Except.map _ (Except.map _ _) = Except.map _ _
              cases inlineCalls ctx limit calls ys <;> simp [Except.map]
          · rw [inlineCalls_tooDeep he hm (by omega), inlineCalls_tooDeep he hm (by omega)]
            rfl

/-! ## Expansions that succeed -/

theorem inlineCalls_of_inlined {stmts : List Stmt} {out : List Placed}
    (h : Inlined ctx.macros limit calls stmts out) :
    inlineCalls ctx limit calls stmts = .ok out := by
  induction h with
  | nil => exact inlineCalls_nil
  | label _ ih => rw [inlineCalls_label, ih]; rfl
  | instruction he _ ih => rw [inlineCalls_instruction he, ih]; rfl
  | call he hm hd _ _ ihbody ihrest => rw [inlineCalls_enter he hm hd, ihbody, ihrest]; rfl

theorem inlined_of_inlineCalls {stmts : List Stmt} {out : List Placed}
    (h : inlineCalls ctx limit calls stmts = .ok out) :
    Inlined ctx.macros limit calls stmts out := by
  fun_induction inlineCalls ctx limit calls stmts generalizing out with
  | case1 =>
    cases h
    exact .nil
  | case2 calls name t rest ih =>
    obtain ⟨after, hrest, ho⟩ := Except.bind_eq_ok.1 h
    cases ho
    exact .label (ih hrest)
  | case3 calls c rest entry he ih =>
    obtain ⟨after, hrest, ho⟩ := Except.bind_eq_ok.1 h
    cases ho
    exact .instruction he (ih hrest)
  | case4 => cases h
  | case5 calls c rest he m hm hd ihbody ihrest =>
    obtain ⟨body, hbody, h⟩ := Except.bind_eq_ok.1 h
    obtain ⟨after, hrest, ho⟩ := Except.bind_eq_ok.1 h
    cases ho
    exact .call he hm hd (ihbody hbody) (ihrest hrest)
  | case6 => cases h

/-- What the worklist places is an expansion. -/
theorem inlined_of_expandMacros {stmts : List Stmt} {s : MacroState}
    (h : expandMacros ctx stmts = .ok s) :
    Inlined ctx.macros (Stack.capacityOf ctx.limit) [] stmts s.placed.toList := by
  apply inlined_of_inlineCalls
  rw [← outcome_expandMacros, h]
  rfl

theorem Inlined.split {macros : Table Macro} {xs ys : List Stmt} {out : List Placed}
    (h : Inlined macros limit calls (xs ++ ys) out) :
    ∃ first last, out = first ++ last ∧ Inlined macros limit calls xs first ∧
      Inlined macros limit calls ys last := by
  induction xs generalizing out with
  | nil => exact ⟨[], out, rfl, .nil, h⟩
  | cons x xs ih =>
    cases h with
    | label h =>
      obtain ⟨first, last, rfl, hx, hy⟩ := ih h
      exact ⟨_, last, rfl, .label hx, hy⟩
    | instruction he h =>
      obtain ⟨first, last, rfl, hx, hy⟩ := ih h
      exact ⟨_, last, rfl, .instruction he hx, hy⟩
    | call he hm hd hbody h =>
      obtain ⟨first, last, rfl, hx, hy⟩ := ih h
      exact ⟨_, last, (List.append_assoc ..).symm, .call he hm hd hbody hx, hy⟩

/-! ## Chains of calls -/

/-- `Encloses macros stmts chain stmt`: going into the macro calls of `chain` one after the other,
the first of them in `stmts` and each further one in the bound body of the one before, leads to
`stmt`. -/
inductive Encloses (macros : Table Macro) : List Stmt → List Site → Stmt → Prop
  | here {stmts stmt} : stmt ∈ stmts → Encloses macros stmts [] stmt
  | inside {stmts c m chain stmt} : .call c ∈ stmts → Instruction.find? c.key = none →
      macros.find? c.key = some m → Encloses macros (m.bind c.args) chain stmt →
      Encloses macros stmts (⟨c.key, c.token⟩ :: chain) stmt

theorem Encloses.cons {macros : Table Macro} {stmts : List Stmt} {chain : List Site} {stmt : Stmt}
    (h : Encloses macros stmts chain stmt) (x : Stmt) :
    Encloses macros (x :: stmts) chain stmt := by
  cases h with
  | here hmem => exact .here (List.mem_cons_of_mem _ hmem)
  | inside hmem he hm h => exact .inside (List.mem_cons_of_mem _ hmem) he hm h

section
variable {macros : Table Macro} {stmts : List Stmt} {out : List Placed} {x : Placed}

/-- What an expansion places was reached through exactly the calls that enclose it. -/
theorem Inlined.encloses (h : Inlined macros limit calls stmts out) (hx : x ∈ out) :
    ∃ chain, x.calls = chain.reverse ++ calls ∧ Encloses macros stmts chain x.stmt := by
  induction h with
  | nil => cases hx
  | label _ ih =>
    rcases List.mem_cons.1 hx with rfl | hx
    · exact ⟨[], rfl, .here (List.mem_cons_self ..)⟩
    · obtain ⟨chain, hc, henc⟩ := ih hx
      exact ⟨chain, hc, henc.cons _⟩
  | instruction _ _ ih =>
    rcases List.mem_cons.1 hx with rfl | hx
    · exact ⟨[], rfl, .here (List.mem_cons_self ..)⟩
    · obtain ⟨chain, hc, henc⟩ := ih hx
      exact ⟨chain, hc, henc.cons _⟩
  | @call calls c m rest body out he hm _ _ _ ihbody ihrest =>
    rcases List.mem_append.1 hx with hx | hx
    · obtain ⟨chain, hc, henc⟩ := ihbody hx
      refine ⟨⟨c.key, c.token⟩ :: chain, ?_, .inside (List.mem_cons_self ..) he hm henc⟩
      rw [hc, List.reverse_cons, List.append_assoc]
      rfl
    · obtain ⟨chain, hc, henc⟩ := ihrest hx
      exact ⟨chain, hc, henc.cons _⟩

/-- A macro call expands to what its bound body does. -/
theorem Inlined.body {c : Call} {m : Macro} (h : Inlined macros limit calls [.call c] out)
    (he : Instruction.find? c.key = none) (hm : macros.find? c.key = some m) :
    Inlined macros limit (⟨c.key, c.token⟩ :: calls) (m.bind c.args) out := by
  cases h with
  | instruction he' _ => cases he.symm.trans he'
  | call _ hm' _ hbody hrest =>
    cases hm.symm.trans hm'
    cases hrest
    rwa [List.append_nil]

/-- What a statement that calls enclose expands to is a piece of the expansion. -/
theorem Inlined.piece {chain : List Site} {stmt : Stmt} (h : Inlined macros limit calls stmts out)
    (henc : Encloses macros stmts chain stmt) :
    ∃ before piece after, out = before ++ (piece ++ after) ∧
      Inlined macros limit (chain.reverse ++ calls) [stmt] piece := by
  have hsingle {stmts : List Stmt} {calls : List Site} {out : List Placed} {stmt : Stmt}
      (hmem : stmt ∈ stmts)
      (h : Inlined macros limit calls stmts out) :
      ∃ before piece after, out = before ++ (piece ++ after) ∧
        Inlined macros limit calls [stmt] piece := by
    obtain ⟨xs, ys, rfl⟩ := List.append_of_mem hmem
    obtain ⟨before, rest, rfl, -, hrest⟩ := h.split
    have hcons : Inlined macros limit calls ([stmt] ++ ys) rest := hrest
    obtain ⟨piece, after, rfl, hpiece, -⟩ := hcons.split
    exact ⟨before, piece, after, rfl, hpiece⟩
  induction henc generalizing calls out with
  | here hmem => exact hsingle hmem h
  | @inside stmts c m chain stmt hmem he hm _ ih =>
    obtain ⟨before, body, after, rfl, hcall⟩ := hsingle hmem h
    obtain ⟨first, piece, last, rfl, hpiece⟩ := ih (hcall.body he hm)
    refine ⟨before ++ first, piece, last ++ after, by simp only [List.append_assoc], ?_⟩
    rw [List.reverse_cons, List.append_assoc]
    exact hpiece

/-- Every instruction that an expansion places is the one that its call selects. -/
theorem Inlined.entry (h : Inlined macros limit calls stmts out) {entry : Instruction} {c : Call}
    {through : List Site} (hx : .instruction entry c through ∈ out) :
    Instruction.find? c.key = some entry := by
  induction h with
  | nil => cases hx
  | label _ ih =>
    rcases List.mem_cons.1 hx with hx | hx
    · cases hx
    · exact ih hx
  | instruction he _ ih =>
    rcases List.mem_cons.1 hx with hx | hx
    · cases hx
      exact he
    · exact ih hx
  | call _ _ _ _ _ ihbody ihrest =>
    rcases List.mem_append.1 hx with hx | hx
    · exact ihbody hx
    · exact ihrest hx

/-- What holds of all statements, and is kept when a call is bound to its macro, holds of all that
is placed. -/
theorem Inlined.forall_stmt {P : Stmt → Prop} (h : Inlined macros limit calls stmts out)
    (hbind : ∀ (c : Call) (m : Macro), macros.find? c.key = some m → P (.call c) →
      ∀ s ∈ m.bind c.args, P s)
    (hs : ∀ s ∈ stmts, P s) : ∀ x ∈ out, P x.stmt := by
  induction h with
  | nil => simp
  | label _ ih =>
    have hrest := ih fun s hmem => hs s (.tail _ hmem)
    exact List.forall_mem_cons.2 ⟨hs _ (.head _), hrest⟩
  | instruction _ _ ih =>
    have hrest := ih fun s hmem => hs s (.tail _ hmem)
    exact List.forall_mem_cons.2 ⟨hs _ (.head _), hrest⟩
  | call _ hfind _ _ _ ihbody ihrest =>
    have hbody := ihbody (hbind _ _ hfind (hs _ (.head _)))
    have hrest := ihrest fun s hmem => hs s (.tail _ hmem)
    exact List.forall_mem_append.2 ⟨hbody, hrest⟩

end

/-! ## Bodies in the place of calls -/

/-- The fault of a macro that is nested too deeply. -/
def IsDepthFault (ctx : MacroContext) (limit : Nat) (f : Fault) : Prop :=
  ∃ t through key, f = .at ctx.sources t through [.cause .recursion, .tooDeep key limit]

/-- Statements that expand in one place expand in any other place to the same, or nest too deeply
there; at a place that is no deeper they expand. -/
theorem Inlined.rebase {stmts : List Stmt} {out : List Placed}
    (h : Inlined ctx.macros limit calls stmts out) (calls' : List Site) :
    (∃ out', inlineCalls ctx limit calls' stmts = .ok out' ∧
      out'.map Placed.bare = out.map Placed.bare) ∨
      calls.length < calls'.length ∧ ∃ f, inlineCalls ctx limit calls' stmts = .error f ∧
        IsDepthFault ctx limit f := by
  induction h generalizing calls' with
  | nil => exact .inl ⟨[], inlineCalls_nil, rfl⟩
  | @label calls name t rest out _ ih =>
    rw [inlineCalls_label]
    obtain ⟨out', ho, hb⟩ | ⟨hlt, f, hf, hd⟩ := ih calls'
    · exact .inl ⟨_, by rw [ho]; rfl, by simp [hb, Placed.bare]⟩
    · exact .inr ⟨hlt, f, by rw [hf]; rfl, hd⟩
  | @instruction calls c entry rest out he _ ih =>
    rw [inlineCalls_instruction he]
    obtain ⟨out', ho, hb⟩ | ⟨hlt, f, hf, hd⟩ := ih calls'
    · exact .inl ⟨_, by rw [ho]; rfl, by simp [hb, Placed.bare]⟩
    · exact .inr ⟨hlt, f, by rw [hf]; rfl, hd⟩
  | @call calls c m rest body out he hm hd _ _ ihbody ihrest =>
    by_cases hd' : calls'.length + 1 < limit
    · rw [inlineCalls_enter he hm hd']
      obtain ⟨body', hbody, hbb⟩ | ⟨hlt, f, hf, hdf⟩ := ihbody (⟨c.key, c.token⟩ :: calls')
      · rw [hbody]
        obtain ⟨out', ho, hb⟩ | ⟨hlt, f, hf, hdf⟩ := ihrest calls'
        · exact .inl ⟨body' ++ out', by rw [ho]; rfl, by simp [hbb, hb]⟩
        · exact .inr ⟨hlt, f, by rw [hf]; rfl, hdf⟩
      · exact .inr ⟨by simpa using hlt, f, by rw [hf]; rfl, hdf⟩
    · refine .inr ⟨by omega, _, inlineCalls_tooDeep he hm (by omega), ?_⟩
      exact ⟨c.token, calls'.getLast?.toList, c.key, rfl⟩

section
variable {c : Call} {m : Macro} (he : Instruction.find? c.key = none)
  (hm : ctx.macros.find? c.key = some m) (before after : List Stmt)
include he hm

/-- The body of a macro may stand in the place of its call. -/
theorem inlineCalls_body_of_call {out : List Placed}
    (h : inlineCalls ctx limit calls (before ++ .call c :: after) = .ok out) :
    ∃ out', inlineCalls ctx limit calls (before ++ m.bind c.args ++ after) = .ok out' ∧
      out'.map Placed.bare = out.map Placed.bare := by
  rw [inlineCalls_append] at h
  obtain ⟨first, hfirst, hrest⟩ := Except.bind_eq_ok.1 h
  obtain ⟨second, hcall, rfl⟩ := Except.map_eq_ok.1 hrest
  by_cases hd : calls.length + 1 < limit
  · rw [inlineCalls_enter he hm hd] at hcall
    obtain ⟨body, hbody, hafter⟩ := Except.bind_eq_ok.1 hcall
    obtain ⟨last, hlast, rfl⟩ := Except.map_eq_ok.1 hafter
    obtain ⟨body', hbody', hbare⟩ | ⟨hlt, -⟩ := (inlined_of_inlineCalls hbody).rebase calls
    · refine ⟨first ++ body' ++ last, ?_, by simp [hbare]⟩
      rw [inlineCalls_append, inlineCalls_append, hfirst, hbody', hlast]
      rfl
    · simp only [List.length_cons] at hlt
      omega
  · rw [inlineCalls_tooDeep he hm (by omega)] at hcall
    cases hcall

/-- The call of a macro may stand in the place of its body, unless it nests too deeply. -/
theorem inlineCalls_call_of_body {out' : List Placed}
    (h : inlineCalls ctx limit calls (before ++ m.bind c.args ++ after) = .ok out') :
    (∃ out, inlineCalls ctx limit calls (before ++ .call c :: after) = .ok out ∧
        out.map Placed.bare = out'.map Placed.bare) ∨
      ∃ f, inlineCalls ctx limit calls (before ++ .call c :: after) = .error f ∧
        IsDepthFault ctx limit f := by
  rw [inlineCalls_append, inlineCalls_append] at h
  obtain ⟨second, hsecond, hafter⟩ := Except.bind_eq_ok.1 h
  obtain ⟨last, hlast, rfl⟩ := Except.map_eq_ok.1 hafter
  obtain ⟨first, hfirst, hbind⟩ := Except.bind_eq_ok.1 hsecond
  obtain ⟨body, hbody, rfl⟩ := Except.map_eq_ok.1 hbind
  rw [inlineCalls_append, hfirst]
  by_cases hd : calls.length + 1 < limit
  · rw [inlineCalls_enter he hm hd]
    obtain ⟨body', hbody', hbare⟩ | ⟨-, f, hf, hdf⟩ :=
      (inlined_of_inlineCalls hbody).rebase (⟨c.key, c.token⟩ :: calls)
    · exact .inl ⟨first ++ (body' ++ last), by rw [hbody', hlast]; rfl, by simp [hbare]⟩
    · exact .inr ⟨f, by rw [hf]; rfl, hdf⟩
  · rw [inlineCalls_tooDeep he hm (by omega)]
    exact .inr ⟨_, rfl, c.token, calls.getLast?.toList, c.key, rfl⟩

end

/-- **Macro expansion is recursive expansion.** The worklist returns what the recursion returns,
faults included; what it places was reached through exactly the calls that enclose it; and a call
may be replaced by its bound body at any place, and a body by its call where that does not nest too
deeply. -/
theorem expandMacros_inlines (ctx : MacroContext) (stmts : List Stmt) :
    outcome (expandMacros ctx stmts) = inlineCalls ctx (Stack.capacityOf ctx.limit) [] stmts ∧
      (∀ placed, outcome (expandMacros ctx stmts) = .ok placed →
        ∀ x ∈ placed, Encloses ctx.macros stmts x.calls.reverse x.stmt) ∧
      ∀ (calls : List Site) (c : Call) (m : Macro) (before after : List Stmt),
        Instruction.find? c.key = none → ctx.macros.find? c.key = some m →
        (∀ out, inlineCalls ctx (Stack.capacityOf ctx.limit) calls (before ++ .call c :: after) =
          .ok out →
          ∃ out', inlineCalls ctx (Stack.capacityOf ctx.limit) calls
            (before ++ m.bind c.args ++ after) = .ok out' ∧
            out'.map Placed.bare = out.map Placed.bare) ∧
        ∀ out', inlineCalls ctx (Stack.capacityOf ctx.limit) calls
          (before ++ m.bind c.args ++ after) = .ok out' →
          (∃ out, inlineCalls ctx (Stack.capacityOf ctx.limit) calls (before ++ .call c :: after) =
            .ok out ∧ out.map Placed.bare = out'.map Placed.bare) ∨
            ∃ f, inlineCalls ctx (Stack.capacityOf ctx.limit) calls (before ++ .call c :: after) =
              .error f ∧ IsDepthFault ctx (Stack.capacityOf ctx.limit) f := by
  refine ⟨outcome_expandMacros ctx stmts, ?_, ?_⟩
  · intro placed h x hx
    rw [outcome_expandMacros] at h
    obtain ⟨chain, hc, henc⟩ := (inlined_of_inlineCalls h).encloses hx
    rwa [hc, List.append_nil, List.reverse_reverse]
  · intro calls c m before after he hm
    exact ⟨fun _ h => inlineCalls_body_of_call he hm before after h,
      fun _ h => inlineCalls_call_of_body he hm before after h⟩

theorem expandMacros_inlines_two_deep :
    ∃ ctx stmts placed, outcome (expandMacros ctx stmts) = .ok placed ∧
      placed.map (fun x => x.calls.reverse.map Site.key) = [[utf8 "outer()", utf8 "inner()"]] ∧
      ∀ x ∈ placed, Encloses ctx.macros stmts x.calls.reverse x.stmt := by
  let inner : Macro := ⟨utf8 "inner", [], [.label (utf8 "here") default], default⟩
  let outer : Macro := ⟨utf8 "outer", [], [.call ⟨.word, utf8 "inner", [], default⟩], default⟩
  let ctx : MacroContext := ⟨[], [(inner.key, inner), (outer.key, outer)], 3, false⟩
  let stmts : List Stmt := [.call ⟨.word, utf8 "outer", [], default⟩]
  have hkeys : (outcome (expandMacros ctx stmts)).toOption.map
      (fun placed => placed.map fun x => x.calls.reverse.map Site.key) =
        some [[utf8 "outer()", utf8 "inner()"]] := by
    simp only [expandMacros, expand_eq_nested]
    decide +kernel
  obtain ⟨placed, hplaced, hcalls⟩ := Option.map_eq_some_iff.1 hkeys
  have hok := Except.toOption_eq_some.1 hplaced
  exact ⟨ctx, stmts, placed, hok, hcalls, (expandMacros_inlines ctx stmts).2.1 placed hok⟩

end Octet.Expansion
