import RepoAtlas.Component
import RepoAtlas.Graph.Cycle
import RepoAtlas.Text.Blank
import RepoAtlas.Text.Word

/-!
# Leaves of the component graph

The leaves are the components worth a page of their own: classes and what is like them, and functions
where there is nothing like a class. When there are very many, those that others depend on are left
out, except in Go, where functions count anyway.
-/

namespace RepoAtlas

/-- Components by identifier. -/
abbrev Components := Keyed Component

namespace Graph

/-- The graph of the dependencies among given components. -/
def ofComponents (cs : Components) : Graph :=
  ⟨cs.map fun _ c => c.dependsOn.filter cs.has⟩

/-- Whether a component stands in a Go file. -/
def isGo (c : Component) : Bool :=
  Text.ends (Text.lower (if c.relativePath = "" then c.filePath else c.relativePath)) ".go"

/-- Whether some component stands in a Go file. -/
def hasGo (cs : Components) : Bool :=
  cs.values.any isGo

/-- Kinds of components that are like classes. -/
def classKinds : List String := ["class", "interface", "struct"]

/-- The kinds of components that can be leaves. -/
def leafKinds (cs : Components) : List String :=
  if hasGo cs then classKinds ++ ["function", "method"]
  else if cs.values.any fun c => classKinds.contains c.kind then classKinds
  else classKinds ++ ["function"]

/-- Whether an identifier is that of a component that can be a leaf. -/
def isLeaf (cs : Components) (kinds : List String) (v : String) : Bool :=
  Text.strip v != "" && ((cs.get? v).map fun c => kinds.contains c.kind).getD false

/-- From this many leaves on there are very many. -/
def manyLeaves : Nat := 400

/-- The leaves of a graph. -/
def leaves (g : Graph) (cs : Components) : List String :=
  let h := g.loosened
  let all := h.keys.filter (isLeaf cs (leafKinds cs))
  if manyLeaves ≤ all.length && !hasGo cs then all.filter fun v => !h.isNeeded v else all

end Graph

end RepoAtlas
