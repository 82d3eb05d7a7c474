import RepoAtlas.Graph.Walk

/-!
# Cyclic dependencies

The knots of a graph are its groups of two or more nodes each of which can be reached from each. A depth-first
search numbers nodes as it meets them and keeps on a stack those that belong to no group yet. If a visit comes
upon no number on the stack less than that of its node, the node was the first of its group to be met, and the
group is the part of the stack down to it.
-/

namespace RepoAtlas.Graph

/-- What a search for knots has come to. -/
structure Search where
  /-- The numbers of the nodes that were met. -/
  numbers : List (String × Nat) := []
  /-- The nodes that were met and belong to no group yet, the last first. -/
  stack : List String := []
  /-- The groups of two or more nodes in the order in which they were completed. -/
  knots : List (List String) := []

namespace Search

/-- Meet a node: it gets the next number and goes on the stack. -/
def enter (s : Search) (v : String) : Search :=
  { s with numbers := (v, s.numbers.length) :: s.numbers, stack := v :: s.stack }

/-- Complete a group: take the nodes down to `v` off the stack. A node alone makes no knot. -/
def complete (s : Search) (v : String) : Search :=
  let group := s.stack.takeWhile (· != v) ++ [v]
  { s with
    stack := (s.stack.dropWhile (· != v)).tail
    knots := if 1 < group.length then s.knots ++ [group] else s.knots }

/-- Follow a dependency with the least number come upon so far. A node that was not met is visited; the
number of one on the stack counts, one that belongs to a group does not matter any more. -/
def follow (visit : Search → String → Search × Nat) (sofar : Search × Nat) (w : String) :
    Search × Nat :=
  match sofar.1.numbers.lookup w with
  | none =>
    let (s, low) := visit sofar.1 w
    (s, min sofar.2 low)
  | some n => if sofar.1.stack.contains w then (sofar.1, min sofar.2 n) else sofar

/-- Visit a node that was not met, and give the least number that the visit came upon; paths are
followed for at most `fuel` nodes. -/
def visit (g : Graph) : Nat → Search → String → Search × Nat
  | 0, s, _ => (s, s.numbers.length)
  | fuel + 1, s, v =>
    let n := s.numbers.length
    let (t, low) := (g.successors v).foldl (follow (visit g fuel)) (s.enter v, n)
    (if low = n then t.complete v else t, low)

/-- Visit a node unless it was met already. -/
def visitOnce (g : Graph) (s : Search) (v : String) : Search :=
  match s.numbers.lookup v with
  | none => (visit g g.pathBound s v).1
  | some _ => s

end Search

/-- The groups of two or more nodes that depend on each other. A group is completed with the node that
was met first and lists its nodes from the last met to the first. -/
def knots (g : Graph) : List (List String) :=
  (g.keys.foldl (Search.visitOnce g) {}).knots

/-- The first dependency between two neighbours of a list. -/
def cut? (g : Graph) : List String → Option (String × String)
  | v :: w :: rest => if g.depends v w then some (v, w) else g.cut? (w :: rest)
  | _ => none

/-- Remove the first dependency between two neighbours of a list. -/
def cutOnce (g : Graph) (vs : List String) : Graph :=
  match g.cut? vs with
  | some (v, w) => g.removeEdge v w
  | none => g

/-- The graph with one dependency removed in each knot, the first one between neighbours in the
order in which the knot is listed. -/
def loosened (g : Graph) : Graph :=
  g.knots.foldl cutOnce g

end RepoAtlas.Graph
