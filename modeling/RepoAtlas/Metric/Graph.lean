import RepoAtlas.Graph.Leaf
import RepoAtlas.Metric.Centrality
import RepoAtlas.Metric.Circuit

/-!
# Measures of components in their graph

Each component is given the number of its dependents and dependencies, its instability, its
betweenness and, as far as they are known, its rank and its community. A component is a hub if it
ranks high, if several others depend on it or if it lies between many others.
-/

namespace RepoAtlas.Metric

/-- What is known about a graph from elsewhere; what is missing leaves components as they are. -/
structure Knowledge where
  ranks : Option (List (String × Float)) := none
  communities : Option (List (String × Int)) := none
  betweennessFails : Bool := false
  circuitsFail : Bool := false

/-- The number of nodes that depend on a node, itself included. -/
def fanIn (g : Graph) (v : String) : Nat :=
  (g.edges.values.filter (·.contains v)).length

/-- The number of nodes that a node depends on. -/
def fanOut (g : Graph) (v : String) : Nat :=
  (g.successors v).length

/-- The share of its edges by which a component depends on others. -/
def instability (fanIn fanOut : Nat) : Float :=
  if fanIn + fanOut = 0 then 0.0 else fanOut.toFloat / (fanIn + fanOut).toFloat

/-- Names that say little. -/
def commonNames : List String :=
  ["get", "set", "run", "main", "init", "new", "test", "data", "self", "cls", "args"]

/-- Whether a small letter is followed by a capital one, both of them ASCII letters. -/
def hasHump : List Char → Bool
  | a :: b :: rest => (a.isLower && b.isUpper) || hasHump (b :: rest)
  | _ => false

/-- How much a name speaks for its component. -/
def nameWeight (name : String) : Float :=
  if Text.begins name "_" || commonNames.contains (Text.lower name) then 0.1
  else if (hasHump name.toList || name.toList.contains '_') && 8 ≤ name.length then 10.0
  else 1.0

/-- The weights of the nodes that are components. -/
def nameWeights (g : Graph) (cs : Components) : List (String × Float) :=
  g.nodes.filterMap fun v => (cs.get? v).map fun c => (v, nameWeight c.name)

/-- The first names of those with the greatest values: one in `share`, but at least one. -/
def top (share : Nat) (values : List (String × Float)) : List String :=
  let ranked := values.mergeSort fun a b => a.2 ≥ b.2
  (ranked.take (max 1 (values.length / share))).map (·.1)

/-- Give components a value by their identifiers. -/
def assign {α : Type} (values : List (String × α)) (f : Component → α → Component)
    (cs : Components) : Components :=
  values.foldl (fun cs (v, a) => cs.modify v (f · a)) cs

/-- Count the dependents and dependencies of components. -/
def withFans (g : Graph) (cs : Components) : Components :=
  assign (g.nodes.map fun v => (v, fanIn g v, fanOut g v))
    (fun c (i, o) => { c with fanIn := i, fanOut := o, instability := instability i o }) cs

/-- Mark the hubs. -/
def withHubs (g : Graph) (cs : Components) : Components :=
  let present := g.nodes.filterMap fun v => (cs.get? v).map fun c => (v, c)
  let ranked := top 10 (present.map fun (v, c) => (v, c.pagerank))
  let central := top 20 (present.map fun (v, c) => (v, c.betweenness))
  assign (present.map fun (v, c) => (v, ranked.contains v || 3 ≤ c.fanIn || central.contains v))
    (fun c b => { c with isHub := b }) cs

/-- Measure components in their graph. -/
def measured (g : Graph) (k : Knowledge) (cs : Components) : Components :=
  if g.nodes.isEmpty then cs
  else
    let cs := withFans g cs
    let cs := if k.betweennessFails then cs
      else assign (betweenness g) (fun c x => { c with betweenness := x }) cs
    let cs := assign (k.ranks.getD []) (fun c x => { c with pagerank := x }) cs
    let cs := withHubs g cs
    assign (k.communities.getD []) (fun c n => { c with communityId := n }) cs

/-- The circuits of a graph as far as they can be found. -/
def knownCircuits (g : Graph) (k : Knowledge) : List (List String) :=
  if k.circuitsFail then [] else circuits g

end RepoAtlas.Metric
