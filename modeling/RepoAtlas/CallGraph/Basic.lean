import RepoAtlas.Graph.Leaf
import RepoAtlas.Path

/-!
# Call graphs

A call graph holds the components that were found, by identifier, the relationships between them and,
for Go, the methods that interfaces ask for and structs have.
-/

namespace RepoAtlas

/-- The methods of types, by the names of the types. -/
abbrev MethodSets := Keyed (List String)

/-- Components, their relationships and the methods of Go types. -/
structure CallGraph where
  functions : Components := Keyed.empty
  relationships : List Relationship := []
  interfaces : MethodSets := Keyed.empty
  structs : MethodSets := Keyed.empty

namespace CallGraph

/-- Give the keys of one table the values of another. -/
def merged {α : Type} (t u : Keyed α) : Keyed α :=
  u.entries.foldl (fun t (k, a) => t.insert k a) t

/-- The directory of a component, which is that of its relative path if it has one. -/
def directoryOf (c : Component) : String :=
  Path.directory (if c.relativePath = "" then c.filePath else c.relativePath)

end CallGraph

end RepoAtlas
