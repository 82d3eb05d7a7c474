import RepoAtlas.Graph.Cycle
import RepoAtlas.Text.Search

/-!
# Orders of a graph

Both orders are taken of the loosened graph and put dependencies before what depends on them as far
as the graph allows.
-/

namespace RepoAtlas.Graph

/-- How many keys depend on each key. -/
def demand (g : Graph) : List (String × Int) :=
  g.keys.map fun v => (v, (g.edges.values.filter (·.contains v)).length)

/-- Take nodes from a queue. A node that is taken lowers the demand of every node that depends on it,
and a node joins the queue when its demand becomes zero. -/
def drain (g : Graph) : Nat → List String → List (String × Int) → List String
  | 0, _, _ => []
  | _, [], _ => []
  | n + 1, v :: queue, demand =>
    let lowered := demand.map fun (u, d) => (u, if g.depends u v then d - 1 else d)
    let ready := lowered.filter fun (u, d) => g.depends u v && d = 0
    v :: drain g n (queue ++ ready.map (·.1)) lowered

/-- The keys in the order in which a queue takes them, which begins with those in no demand. -/
def drained (g : Graph) : List String :=
  let free := g.demand.filter fun (_, d) => d = 0
  g.drain (g.keys.length + 1) (free.map (·.1)) g.demand

/-- The keys of the loosened graph in the reverse of the order in which a queue takes them; if the
queue does not take them all, the keys as they are given. -/
def sorted (g : Graph) : List String :=
  let h := g.loosened
  let taken := h.drained
  if taken.length = h.keys.length then taken.reverse else h.keys

/-- The keys that nothing depends on; if there are none, the first key. -/
def roots (g : Graph) : List String :=
  match g.keys.filter fun v => !g.isNeeded v with
  | [] => g.keys.take 1
  | vs => vs

/-- The nodes of the loosened graph in the order in which a walk from its roots is done with them,
where names decide between nodes. If it did not meet as many nodes as there are keys, the walk goes on
from the remaining keys. -/
def dependenciesFirst (g : Graph) : List String :=
  let h := g.loosened
  let next := fun v => Text.sorted (h.successors v)
  let w := h.walkOn next {} (Text.sorted h.roots)
  let w := if w.done.length = h.keys.length then w else h.walkOn next w (Text.sorted h.keys)
  w.done.reverse

end RepoAtlas.Graph
