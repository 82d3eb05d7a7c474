import RepoAtlas.Graph.Basic

/-!
# Depth-first walks

A walk visits a node, then what the node depends on, and is then done with the node. It keeps the
order in which nodes are first seen and the order in which they are done with.
-/

namespace RepoAtlas.Graph

/-- The nodes that a walk has seen and those it is done with, the last first. -/
structure Walk where
  seen : List String := []
  done : List String := []

/-- Walk on from a node along `next`; paths are followed for at most `fuel` nodes. -/
def Walk.visit (next : String → List String) : Nat → Walk → String → Walk
  | 0, w, _ => w
  | fuel + 1, w, v =>
    if w.seen.contains v then w
    else
      let w := (next v).foldl (visit next fuel) { w with seen := v :: w.seen }
      { w with done := v :: w.done }

/-- A path that repeats no node has at most as many nodes as the graph. -/
def pathBound (g : Graph) : Nat :=
  g.nodes.length + 1

/-- Walk from each of several nodes in turn, after what `w` has seen. -/
def walkOn (g : Graph) (next : String → List String) (w : Walk) (starts : List String) : Walk :=
  starts.foldl (Walk.visit next g.pathBound) w

end RepoAtlas.Graph
