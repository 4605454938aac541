import Octet.Proofs.ParameterBinding

/-!
# What calls stand for

Expansion looks calls up by one text, the overload key. Since keys tell overloads apart, what a call
stands for is a matter of its name and the kinds of its arguments alone: the instruction that has
them, or else the macro that has them, or nothing.

* `Call.Has` — the name and the kinds of a call;
* `Instruction.find?_eq_some_iff` — **a call finds an instruction exactly by its name and kinds**;
* `Expansion.find?_macro_iff` — **and so a macro** of the program;
* `overload_keys_unambiguous` — keys are unambiguous, and calls reach nothing but what has their
  name and kinds.
-/

namespace Octet

open Expansion

/-- The call has this name, and arguments of these kinds. -/
structure Call.Has (c : Call) (name : Text) (kinds : List ArgKind) : Prop where
  name : c.name = name
  kinds : c.kinds = kinds

/-- The macro is one of those that the expansion can call. -/
def Expansion.MacroContext.Knows (ctx : MacroContext) (m : Macro) : Prop :=
  ∃ key, ctx.macros.find? key = some m

theorem Call.Has.key {c : Call} {name : Text} {kinds : List ArgKind} (h : c.Has name kinds) :
    c.key = overloadKey name kinds := by
  rw [Call.key, h.name, h.kinds]

/-- **A call finds an instruction exactly by its name and kinds.** -/
theorem Instruction.find?_eq_some_iff {c : Call} {entry : Instruction} :
    Instruction.find? c.key = some entry ↔ entry ∈ catalog ∧ c.Has entry.mnemonic entry.kinds := by
  constructor
  · intro h
    obtain ⟨hname, hkinds⟩ := Instruction.kinds_of_find? h
    exact ⟨Instruction.mem_of_find? h, hname.symm, hkinds.symm⟩
  · rintro ⟨hentry, hhas⟩
    rw [hhas.key]
    exact Instruction.find?_key hentry

theorem Instruction.find?_eq_none_iff {c : Call} :
    Instruction.find? c.key = none ↔ ∀ entry ∈ catalog, ¬ c.Has entry.mnemonic entry.kinds := by
  rw [Option.eq_none_iff_forall_ne_some]
  simp only [ne_eq, find?_eq_some_iff, not_and]

namespace Expansion

section

variable {ctx : MacroContext} (hctx : SoundTable ctx.macros) {c : Call}
include hctx

/-- **A call finds a macro exactly by its name and kinds.** -/
theorem find?_macro_iff {m : Macro} :
    ctx.macros.find? c.key = some m ↔ ctx.Knows m ∧ c.Has m.name m.params := by
  constructor
  · intro h
    obtain ⟨hkey, hsound⟩ := hctx _ m h
    obtain ⟨hname, hparams⟩ := Macro.params_of_key hsound.known hkey
    exact ⟨⟨_, h⟩, hname.symm, hparams.symm⟩
  · rintro ⟨⟨key, h⟩, hhas⟩
    have hkey : m.key = key := (hctx _ m h).1
    rw [hhas.key, ← Macro.key, hkey]
    exact h

theorem find?_macro_eq_none_iff :
    ctx.macros.find? c.key = none ↔ ∀ m, ctx.Knows m → ¬ c.Has m.name m.params := by
  rw [Option.eq_none_iff_forall_ne_some]
  simp only [ne_eq, find?_macro_iff hctx, not_and]

end

/-- What the expansion of a program does with a call that it comes to, by the name and kinds of the
call. -/
structure ResolvesByKinds (ctx : MacroContext) (c : Call) : Prop where
  /-- The call finds a macro exactly if it has the macro's name and kinds. -/
  finds : ∀ m, ctx.macros.find? c.key = some m ↔ ctx.Knows m ∧ c.Has m.name m.params
  /-- A body that is entered belongs to a macro with the name and kinds of the call, which no
  instruction has. -/
  enter : ∀ calls s s' inner items f, visitStmt ctx calls s (.call c) = .enter s' inner items f →
    (∀ entry ∈ catalog, ¬ c.Has entry.mnemonic entry.kinds) ∧
      ∃ m, ctx.Knows m ∧ c.Has m.name m.params ∧ items = m.bind c.args
  /-- A call that fails has the name and kinds of nothing. -/
  fail : ∀ calls s s' f, visitStmt ctx calls s (.call c) = .fail s' f →
    (∀ entry ∈ catalog, ¬ c.Has entry.mnemonic entry.kinds) ∧ ∀ m, ctx.Knows m →
      ¬ c.Has m.name m.params

theorem resolvesByKinds {ctx : MacroContext} (hctx : SoundTable ctx.macros) (c : Call) :
    ResolvesByKinds ctx c where
  finds _ := find?_macro_iff hctx
  enter calls s s' inner items f h := by
    obtain ⟨d, m, heq, hnone, hm, -, -, hitems⟩ := visitStmt_enter h
    cases heq
    obtain ⟨hknows, hhas⟩ := (find?_macro_iff hctx).1 hm
    exact ⟨Instruction.find?_eq_none_iff.1 hnone, m, hknows, hhas, hitems⟩
  fail calls s s' f h := by
    obtain ⟨d, heq, hnone, hm, -⟩ := visitStmt_fail h
    cases heq
    exact ⟨Instruction.find?_eq_none_iff.1 hnone, (find?_macro_eq_none_iff hctx).1 hm⟩

end Expansion

/-- **Overload keys are unambiguous**: a key belongs to one name and one list of kinds. So a call
finds an instruction exactly by the name and kinds of the instruction, and in every program a call
reaches a macro only if it has the name and kinds of the macro. -/
theorem overload_keys_unambiguous :
    (∀ (n m : Text) (ks ls : List ArgKind), (∀ k ∈ ks, k.Known) → (∀ l ∈ ls, l.Known) →
      overloadKey n ks = overloadKey m ls → n = m ∧ ks = ls) ∧
      (∀ (c : Call) (entry : Instruction),
        Instruction.find? c.key = some entry ↔ entry ∈ catalog ∧ c.Has entry.mnemonic entry.kinds) ∧
      ∀ (s : Settings) (source : Text) (ctx : MacroContext) (stmts : List Stmt),
        collected? s source = some (ctx, stmts) → ∀ c, ResolvesByKinds ctx c := by
  refine ⟨fun _ _ _ _ => overloadKey_inj, fun _ _ => Instruction.find?_eq_some_iff, ?_⟩
  intro s source ctx stmts h
  exact resolvesByKinds (collected?_sound h).1

/-- A macro with the name of an instruction, for arguments that no instruction of the name takes. -/
def overloaded : Text := utf8 "@macro mov %l0\nlda %l0\n@endmacro\nmov #5\nmov r0, #2\n"

/-- The first call of the program. -/
def overloadedCall : Call :=
  ⟨.mnemonic, utf8 "mov", [.literal 5 ⟨.literal, utf8 "#5", [], 37, 4⟩],
    ⟨.instruction, utf8 "mov", [], 33, 4⟩⟩

theorem overload_keys_unambiguous_overloaded :
    overloadKey (utf8 "mov") [.literal] ≠ overloadKey (utf8 "mov") [.register, .literal] ∧
      ∃ ctx stmts m, collected? {} overloaded = some (ctx, stmts) ∧
        stmts.head? = some (.call overloadedCall) ∧
        ctx.macros.find? overloadedCall.key = some m ∧ overloadedCall.Has m.name m.params ∧
        ResolvesByKinds ctx overloadedCall := by
  obtain ⟨hkeys, -, hresolves⟩ := overload_keys_unambiguous
  constructor
  · intro h
    have hkinds := (hkeys _ _ _ _ (by simp [ArgKind.Known]) (by simp [ArgKind.Known]) h).2
    cases hkinds
  · have hrun : (collected? {} overloaded).map
        (fun r => (r.2.head?, (r.1.macros.find? overloadedCall.key).isSome)) =
        some (some (.call overloadedCall), true) := by
      simp only [collected?, expandIncludes, Worklist.expand_eq_nested]
      decide +kernel
    obtain ⟨⟨ctx, stmts⟩, hcollected, hshape⟩ := Option.map_eq_some_iff.1 hrun
    obtain ⟨hhead, hsome⟩ := Prod.mk.inj hshape
    obtain ⟨m, hm⟩ := Option.isSome_iff_exists.1 hsome
    have hcall := hresolves {} overloaded ctx stmts hcollected overloadedCall
    exact ⟨ctx, stmts, m, hcollected, hhead, hm, ((hcall.finds m).1 hm).2, hcall⟩

end Octet
