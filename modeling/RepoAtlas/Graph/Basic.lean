import RepoAtlas.Keyed

/-!
# Dependency graphs

A graph gives for each of its keys the nodes that the key depends on, in order and without
repetition. A node may be depended on without being a key; such a node depends on nothing.
-/

namespace RepoAtlas

/-- A dependency graph. -/
structure Graph where
  edges : Keyed (List String)

namespace Graph

/-- The graph of a list of nodes with their dependencies. Of a node that is given twice the last
dependencies count, of a dependency that is given twice the first place. -/
def ofList (xs : List (String × List String)) : Graph :=
  ⟨Keyed.ofList (xs.map fun (v, ds) => (v, ds.eraseDups))⟩

/-- The nodes that have dependencies of their own, possibly none. -/
def keys (g : Graph) : List String :=
  g.edges.keys

/-- What a node depends on. -/
def successors (g : Graph) (v : String) : List String :=
  (g.edges.get? v).getD []

/-- Whether a node depends on another. -/
def depends (g : Graph) (v w : String) : Bool :=
  (g.successors v).contains w

/-- All nodes in the order of their first mention. -/
def nodes (g : Graph) : List String :=
  (g.edges.entries.flatMap fun (v, ds) => v :: ds).eraseDups

/-- Remove a dependency. -/
def removeEdge (g : Graph) (v w : String) : Graph :=
  ⟨g.edges.modify v (·.filter (· != w))⟩

/-- Whether some node depends on a given one. -/
def isNeeded (g : Graph) (w : String) : Bool :=
  g.edges.values.any (·.contains w)

end Graph

end RepoAtlas
