import RepoAtlas.Graph.Walk
import RepoAtlas.Text.Search

/-!
# Circuits

A circuit is a closed path that repeats no node; it is listed from its least node on. Circuits are
searched for from each node in turn among the nodes that are not less than it. A path is only
followed as long as it can be closed, so every step leads to a circuit.
-/

namespace RepoAtlas.Metric

/-- No more circuits than this are listed. -/
def circuitLimit : Nat := 100

/-- Whether a path that ends in `v` can be closed without meeting its nodes again. -/
def closes (g : Graph) (start : String) (path : List String) (v : String) : Bool :=
  let next := fun u => (g.successors u).filter fun w =>
    w = start || (Text.atMost start w && !path.contains w)
  (g.walkOn next {} [v]).seen.contains start

/-- Add the circuits that continue a path, which is given from its last node to its first. -/
def circuitsFrom (g : Graph) (start : String) : Nat → List String → List (List String) →
    List (List String)
  | 0, _, found => found
  | _, [], found => found
  | fuel + 1, v :: path, found =>
    (g.successors v).foldl (fun found w =>
      if circuitLimit ≤ found.length then found
      else if w = start then (v :: path).reverse :: found
      else if Text.atMost start w && !(v :: path).contains w && closes g start (v :: path) w then
        circuitsFrom g start fuel (w :: v :: path) found
      else found) found

/-- Lists of texts in the order of a dictionary. -/
def inOrder : List String → List String → Bool
  | [], _ => true
  | _ :: _, [] => false
  | a :: as, b :: bs => if a = b then inOrder as bs else Text.atMost a b

/-- The circuits of a graph, as many as are listed, in order. -/
def circuits (g : Graph) : List (List String) :=
  let found := (Text.sorted g.nodes).foldl (fun found v =>
    if circuitLimit ≤ found.length then found
    else circuitsFrom g v g.pathBound [v] found) []
  found.mergeSort inOrder

end RepoAtlas.Metric
