import RepoAtlas.Graph.Basic

/-!
# Betweenness

The betweenness of a node is the share of shortest paths between other nodes that lead through it. For each
source a breadth-first search counts shortest paths, and what depends on each node is added up from the farthest
to the nearest.
-/

namespace RepoAtlas.Metric

/-- The successors of every node, as numbers. -/
def numbered (g : Graph) : Array (List Nat) :=
  let nodes := g.nodes
  (nodes.map fun v => (g.successors v).filterMap nodes.idxOf?).toArray

/-- A breadth-first search: the nodes in the order in which they are reached, the last first, and for
each node its distance, the number of shortest paths to it and its predecessors on them. -/
structure Search where
  order : List Nat := []
  queue : List Nat
  distance : Array (Option Nat)
  paths : Array Float
  before : Array (List Nat)

/-- A search that begins at a node. -/
def Search.start (size source : Nat) : Search :=
  { queue := [source]
    distance := (Array.replicate size none).setIfInBounds source (some 0)
    paths := (Array.replicate size 0.0).setIfInBounds source 1.0
    before := Array.replicate size [] }

/-- Meet a successor `w` of the node `v`. -/
def Search.meet (v : Nat) (s : Search) (w : Nat) : Search :=
  let next := (s.distance.getD v none).map (· + 1)
  let s := if (s.distance.getD w none).isSome then s
    else { s with queue := s.queue ++ [w], distance := s.distance.setIfInBounds w next }
  if s.distance.getD w none = next then
    { s with
      paths := s.paths.modify w (· + s.paths.getD v 0.0)
      before := s.before.modify w (· ++ [v]) }
  else s

/-- Search until the queue is empty; every step takes one node from it, and a node joins it once. -/
def Search.run (adjacent : Array (List Nat)) : Nat → Search → Search
  | 0, s => s
  | n + 1, s =>
    match s.queue with
    | [] => s
    | v :: queue =>
      let s := { s with order := v :: s.order, queue := queue }
      run adjacent n ((adjacent.getD v []).foldl (Search.meet v) s)

/-- Add what depends on a node `w` to its predecessors. -/
def Search.spread (s : Search) (delta : Array Float) (w : Nat) : Array Float :=
  let share := (1.0 + delta.getD w 0.0) / s.paths.getD w 0.0
  (s.before.getD w []).foldl (fun d v => d.modify v (· + s.paths.getD v 0.0 * share)) delta

/-- Add what depends on each node for paths from one source. -/
def addSource (adjacent : Array (List Nat)) (total : Array Float) (source : Nat) : Array Float :=
  let size := adjacent.size
  let s := (Search.start size source).run adjacent (size + 1)
  (s.order.foldl (fun (total, delta) w =>
      let delta := s.spread delta w
      (if w = source then total else total.modify w (· + delta.getD w 0.0), delta))
    (total, Array.replicate size 0.0)).1

/-- The betweenness of every node, as a share of the pairs of other nodes if there are any. -/
def betweenness (g : Graph) : List (String × Float) :=
  let adjacent := numbered g
  let n := adjacent.size
  let total := (List.range n).foldl (addSource adjacent) (Array.replicate n 0.0)
  let scale : Float := if n ≤ 2 then 1.0 else 1.0 / ((n - 1) * (n - 2)).toFloat
  g.nodes.zip (total.toList.map (· * scale))

end RepoAtlas.Metric
