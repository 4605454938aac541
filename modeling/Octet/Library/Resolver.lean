import Octet.Table

/-!
# Resolvers

A resolver finds the sources that includes name. It may also have something to say about a path,
which goes to the log.
-/

namespace Octet

/-- Finds sources by path. -/
structure Resolver where
  /-- The source of a path, if it is known. -/
  find : Text → Option Text
  /-- The log lines of looking a path up. -/
  remarks : Text → List Text

namespace Resolver

/-- Knows no path. -/
def none : Resolver := ⟨fun _ => Option.none, fun _ => []⟩

instance : Inhabited Resolver := ⟨none⟩

/-- Sources by path (`Map.Resolve`). -/
def ofTable (sources : Table Text) : Resolver := ⟨sources.find?, fun _ => []⟩

/-- The first resolver that knows a path answers; those after it are not asked. -/
def orElse (r s : Resolver) : Resolver where
  find path := (r.find path).or (s.find path)
  remarks path := r.remarks path ++ if (r.find path).isSome then [] else s.remarks path

/-- Several resolvers, asked in order. Reference model of `Chain.Resolve`. -/
def chain (rs : List Resolver) : Resolver := rs.foldr orElse none

end Resolver

end Octet
