import Octet.Formula.Method
import Octet.Formula.Scope

/-!
# Evaluation of formulas

A term has a value or fails. Failures are not told apart, and nothing catches them. Part of the
reference model of `evaluate`.

* `Term.eval`, `Target.assign` — terms and targets, given a way to call values;
* `runSteps` — statements;
* `Signature.bind?` — the variables of a function at the start of a call;
* `apply` — the value of a call;
* `Script.run` — the value of a name after a script has run.

Terms and statements are evaluated by recursion on them. Calls take a bound on how deep they are
nested. No code may run while it is running, and a built-in function that is called by one calls
nothing, so `Script.callDepth` is enough.
-/

namespace Octet.Formula

/-- A way to call a value. -/
abbrev Caller := Value → Given → Run Value

/-- The arguments that the entries of a dictionary give by name. -/
def namedArguments? (entries : List (Value × Value)) : Option (List (Text × Value)) :=
  entries.mapM fun (k, v) => do return (← k.text?, v)

/-- The named arguments that a spread value gives, which must be a dictionary. -/
def spreadEntries : Option Value → Run (List (Text × Value))
  | none => pure []
  | some (.dict i) => do namedArguments? (← Run.dict i).toList
  | some _ => failure

/-- The positional arguments that a spread value gives. -/
def spreadItems : Option Value → Run (List Value)
  | none => pure []
  | some v => Run.listOf v

/-- A dictionary of entries, none of which may have the key of another. -/
def dictOfDistinct? (entries : List (Value × Value)) : Option Dict :=
  entries.foldlM (fun (d : Dict) e => do
    if (← d.find? e.1).isSome then none else d.insert? e.1 e.2) {}

/-- The entries that pairs of values stand for. -/
def pairsOf (vs : List Value) : List (Value × Value) :=
  vs.filterMap fun
    | .tuple [k, v] => some (k, v)
    | _ => none

mutual

/-- The value of a term, where `frames` are those of the functions around it, innermost first. -/
def Term.eval (call : Caller) (frames : List Nat) : Term → Run Value
  | .value v => pure v
  | .var level slot => do Run.read (← frames[level]?) slot
  | .tuple items => do return .tuple (← evalAll call frames items)
  | .list items => do Run.newList (← evalAll call frames items).toArray
  | .dict entries => do Run.newDict (← dictOfDistinct? (← evalEntries call frames entries))
  | .unary op t => do op.apply (← t.eval call frames)
  | .binary op a b => do
    let x ← a.eval call frames
    op.apply x (← b.eval call frames)
  | .sum operands => evalSum call frames operands
  | .both a b => do
    let v ← a.eval call frames
    if ← Run.truth v then b.eval call frames else return v
  | .either a b => do
    let v ← a.eval call frames
    if ← Run.truth v then return v else b.eval call frames
  | .choice test yes no => do
    if ← Run.truth (← test.eval call frames) then yes.eval call frames else no.eval call frames
  | .index t i => do
    let v ← t.eval call frames
    let i ← i.eval call frames
    (← get).indexed? v i
  | .slice t lo hi step => do
    let v ← t.eval call frames
    let lo ← lo.eval call frames
    let hi ← hi.eval call frames
    sliced v lo hi (← step.eval call frames)
  | .attribute t n => do (← attribute? (← t.eval call frames) n)
  | .call f positional named spread spreadNamed => do
    let f ← f.eval call frames
    let positional ← evalAll call frames positional
    let named ← evalNamed call frames named
    let more ← evalOption call frames spread
    let moreNamed ← evalOption call frames spreadNamed
    let named := named ++ (← spreadEntries moreNamed)
    call f { positional := positional ++ (← spreadItems more), named }
  | .function code name defaults => do
    let defaults ← evalAll call frames defaults
    return .function (← Run.newIdentity) code name defaults frames
  | .listOf body rounds => do
    Run.newList (← gather call frames (body.eval call frames) rounds #[])
  | .dictOf key value rounds => do
    let entry : Run Value := do
      let k ← key.eval call frames
      return .tuple [k, ← value.eval call frames]
    let found ← gather call frames entry rounds #[]
    Run.newDict (← ({} : Dict).insertAll? (pairsOf found.toList))

/-- The values of some terms. -/
def evalAll (call : Caller) (frames : List Nat) : List Term → Run (List Value)
  | [] => pure []
  | t :: ts => do
    let v ← t.eval call frames
    return v :: (← evalAll call frames ts)

/-- The values of the entries of a dictionary. -/
def evalEntries (call : Caller) (frames : List Nat) :
    List (Term × Term) → Run (List (Value × Value))
  | [] => pure []
  | (a, b) :: es => do
    let k ← a.eval call frames
    let v ← b.eval call frames
    return (k, v) :: (← evalEntries call frames es)

/-- The values of named arguments. -/
def evalNamed (call : Caller) (frames : List Nat) : List (Text × Term) → Run (List (Text × Value))
  | [] => pure []
  | (n, t) :: rest => do
    let v ← t.eval call frames
    return (n, v) :: (← evalNamed call frames rest)

/-- The value of a term that may be missing. -/
def evalOption (call : Caller) (frames : List Nat) : Option Term → Run (Option Value)
  | none => pure none
  | some t => do return some (← t.eval call frames)

/-- The sum of some terms, the last of which comes first. -/
def evalSum (call : Caller) (frames : List Nat) : List Term → Run Value
  | [] => failure
  | [t] => t.eval call frames
  | t :: before => do
    let v ← evalSum call frames before
    BinaryOp.apply .add v (← t.eval call frames)

/-- The values of `body` in all rounds of a comprehension, after those found before. -/
def gather (call : Caller) (frames : List Nat) (body : Run Value) :
    List Round → Array Value → Run (Array Value)
  | [], found => do return found.push (← body)
  | .filter test :: rest, found => do
    if ← Run.truth (← test.eval call frames) then gather call frames body rest found
    else return found
  | .loop target source :: rest, found => do
    let v ← source.eval call frames
    let series ← Run.series v
    pinned v do
      series.foldM (fun found x => do
        target.assign call frames x
        gather call frames body rest found) found

/-- Assigns a value. -/
def Target.assign (call : Caller) (frames : List Nat) : Target → Value → Run Unit
  | .var level slot, v => do Run.write (← frames[level]?) slot v
  | .index t i, v => do
    let container ← t.eval call frames
    setIndexed container (← i.eval call frames) v
  | .attribute _, _ => failure
  | .several targets, v =>
    do assignAll call frames targets ((← Run.series v).take (targets.length + 1))

/-- Assigns values to targets, one to each. -/
def assignAll (call : Caller) (frames : List Nat) : List Target → List Value → Run Unit
  | [], [] => pure ()
  | t :: ts, v :: vs => do
    t.assign call frames v
    assignAll call frames ts vs
  | _, _ => failure

end

/-- Assigns the result of an operation on the old value. What the target consists of is evaluated
once. -/
def Target.update (call : Caller) (frames : List Nat) (op : BinaryOp) (t : Term) : Target → Run Unit
  | .var level slot => do
    let frame ← frames[level]?
    let v ← Run.read frame slot
    Run.write frame slot (← op.update v (← t.eval call frames))
  | .index a b => do
    let container ← a.eval call frames
    let i ← b.eval call frames
    let v ← (← get).indexed? container i
    setIndexed container i (← op.update v (← t.eval call frames))
  | .attribute _ => failure
  | .several _ => failure

/-! ## Statements -/

/-- How statements end. -/
inductive Ending where
  /-- The next statement follows. -/
  | done
  /-- The innermost loop is left. -/
  | leave
  /-- The next round of the innermost loop follows. -/
  | next
  /-- The function ends with a value. -/
  | give (v : Value)

mutual

/-- Runs a statement. -/
def Step.run (call : Caller) (frames : List Nat) : Step → Run Ending
  | .evaluate t => do
    let _ ← t.eval call frames
    return .done
  | .assign target t => do
    target.assign call frames (← t.eval call frames)
    return .done
  | .update op target t => do
    target.update call frames op t
    return .done
  | .pass => pure .done
  | .leave => pure .leave
  | .next => pure .next
  | .give none => pure (.give .none)
  | .give (some t) => do return .give (← t.eval call frames)
  | .branch test yes no => do
    if ← Run.truth (← test.eval call frames) then runSteps call frames yes
    else runSteps call frames no
  | .loop target source body => do
    let v ← source.eval call frames
    let series ← Run.series v
    let round (_ : Ending) (x : Value) : Run (Ending × Bool) := do
      target.assign call frames x
      match ← runSteps call frames body with
      | .leave => return (.done, false)
      | .give v => return (.give v, false)
      | _ => return (.done, true)
    pinned v (series.walk round .done)

/-- Runs statements up to the first that does not lead to the next one. -/
def runSteps (call : Caller) (frames : List Nat) : List Step → Run Ending
  | [] => pure .done
  | s :: rest => do
    match ← s.run call frames with
    | .done => runSteps call frames rest
    | ending => return ending

end

/-! ## Calls -/

/-- The values of parameters for single arguments: positional arguments in order, then those with
the name, then the values of optional ones. -/
def fillParams? (named : List (Text × Value)) :
    List (Text × Bool) → List Value → List Value → Option (List Value)
  | [], _, _ => some []
  | (n, optional) :: ps, positional, defaults =>
    let defaultsAfter := if optional then defaults.tail else defaults
    match positional with
    | v :: vs => do
      if (named.lookup n).isSome then none
      else return v :: (← fillParams? named ps vs defaultsAfter)
    | [] => do
      let v ←
        match named.lookup n with
        | some v => some v
        | none => if optional then defaults.head? else none
      return v :: (← fillParams? named ps [] defaultsAfter)

/-- The values of all parameters of a function for the arguments of a call. -/
def Signature.bind? (s : Signature) (defaults : List Value) (g : Given) : Run (List Value) := do
  let extra := g.positional.drop s.byPosition
  let others := g.named.filter fun a => (s.params.lookup a.1).isNone
  if s.rest.isNone && !extra.isEmpty then failure
  if s.named.isNone && !others.isEmpty then failure
  if !distinct (g.named.map (·.1)) then failure
  let values ← fillParams? g.named s.params (g.positional.take s.byPosition) defaults
  let rest := if s.rest.isSome then [Value.tuple extra] else []
  if s.named.isSome then
    let d ← ({} : Dict).insertAll? (others.map fun a => (.ofText a.1, a.2))
    return values ++ rest ++ [← Run.newDict d]
  else return values ++ rest

/-- The value of a call, where `active` are the codes that are running. -/
def apply (codes : Array Code) : Nat → List Nat → Caller
  | 0, _, _, _ => failure
  | depth + 1, active, f, g =>
    match f with
    | .builtin b => b.apply (fun f vs => apply codes depth active f { positional := vs }) g
    | .method _ receiver m => m.apply receiver g
    | .function _ number _ defaults frames => do
      if active.contains number then failure
      let code ← codes[number]?
      let values ← code.signature.bind? defaults g
      let unassigned := List.replicate (code.slots - values.length) none
      let frame ← Run.newFrame (values.map some ++ unassigned).toArray
      match ← runSteps (apply codes depth (number :: active)) (frame :: frames) code.body with
      | .give v => return v
      | _ => return .none
    | _ => failure

/-! ## Scripts -/

/-- How deep calls can be nested: each code once and a built-in function that calls it, and then a
built-in function that calls one. -/
def Script.callDepth (s : Script) : Nat := 2 * s.codes.size + 3

/-- The value that a name has after a script has run. -/
def Script.run (s : Script) (n : Text) : Option Value := do
  let slot ← s.globals.lookup n
  let run : Run Value := do
    let frame ← Run.newFrame (Array.replicate s.slots none)
    let _ ← runSteps (apply s.codes s.callDepth []) [frame] s.steps
    Run.read frame slot
  run.run' {}

end Octet.Formula
