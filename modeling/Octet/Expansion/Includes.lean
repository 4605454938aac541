import Octet.Expansion.Site
import Octet.Library.Resolver
import Octet.Statement.Parse
import Octet.Text.Quoted
import Octet.Worklist

/-!
# Expansion of includes

Every include is replaced by the items of the source that it names, in which includes are expanded
in turn. A source must not include itself, directly or through others.
-/

namespace Octet.Expansion

/-- What the expansion of includes needs to know. -/
structure IncludeContext where
  resolver : Resolver
  formulas : Formulas
  /-- The limit on nesting. -/
  limit : Int
  /-- Whether includes are logged. -/
  verbose : Bool

/-- What the expansion of includes has found so far. -/
structure IncludeState where
  /-- The sources by path; the root source has the empty path. -/
  sources : Table Text
  items : Array Item
  log : Array Text

/-- The fault of an include that is nested too deeply. -/
def includeTooDeep (ctx : IncludeContext) (sources : Table Text) (path : Text) (t : Token) :
    Fault :=
  .at sources t [] [.cause .recursion, .tooDeep path (Stack.capacityOf ctx.limit)]

/-- Expands a node of a source that was reached through the paths of `chain`. -/
def visitNode (ctx : IncludeContext) (chain : List Text) (s : IncludeState) :
    Node → Visit IncludeState (List Text) Node Fault
  | .item i => .done { s with items := s.items.push i }
  | .splice path t =>
    if chain.contains path then
      .fail s (.at s.sources t [] [.cause .resolution, .includeCycle path])
    else
      let s := { s with log := s.log ++ ctx.resolver.remarks path }
      match ctx.resolver.find path with
      | none => .fail s (.at s.sources t [] [.cause .resolution, .includeMissing path])
      | some source =>
        let s := { s with
          sources := s.sources.insert path source
          log :=
            if ctx.verbose then s.log.push (utf8 "asm: @include " ++ Text.quote path) else s.log }
        match Node.ofSource path source ctx.formulas with
        | .error f => .fail s f
        | .ok nodes => .enter s (path :: chain) nodes (includeTooDeep ctx s.sources path t)

/-- Expands the includes of a root source. Reference model of `Assembler.expandIncludes`. -/
def expandIncludes (ctx : IncludeContext) (source : Text) (nodes : List Node) :
    Except (Fault × IncludeState) IncludeState :=
  Worklist.expand (visitNode ctx) ctx.limit [] nodes ⟨[([], source)], #[], #[]⟩

end Octet.Expansion
