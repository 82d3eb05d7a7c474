import RepoAtlas.Syntax.Cursor

/-!
# Walks with an agenda

A walk keeps the nodes that it still has to visit on an agenda. It takes the first one, and puts the
parts of that node in front of the others. Nodes too far below the start are dropped. The number of
nodes on the agenda and below it falls with every visit, so every walk ends.
-/

namespace RepoAtlas.Syntax

mutual
/-- The number of nodes of a tree. -/
def Tree.count : Tree → Nat
  | ⟨_, _, _, _, parts⟩ => 1 + Tree.countAll parts

/-- The number of nodes of several trees. -/
def Tree.countAll : List Tree → Nat
  | [] => 0
  | t :: ts => t.count + Tree.countAll ts
end

/-- A tree has at least one node. -/
theorem Tree.count_pos (t : Tree) : 0 < t.count := by
  cases t
  simp only [Tree.count]
  omega

/-- The nodes of a tree are its root and those of its parts. -/
theorem Tree.countAll_children (t : Tree) : t.count = 1 + Tree.countAll t.children := by
  cases t
  rfl

/-- The nodes of two lists of trees add up. -/
theorem Tree.countAll_append (ts us : List Tree) :
    Tree.countAll (ts ++ us) = Tree.countAll ts + Tree.countAll us := by
  induction ts with
  | nil => simp [Tree.countAll]
  | cons t ts ih => simp [Tree.countAll, ih, Nat.add_assoc]

namespace Cursor

/-- The cursors of siblings are at their trees. -/
theorem siblings_map_tree (parent : Cursor) (earlier ts : List Tree) :
    (siblings parent earlier ts).map (·.tree) = ts := by
  induction ts generalizing earlier with
  | nil => rfl
  | cons t ts ih => simp [siblings, ih]

/-- The cursors of parts are at the parts. -/
@[simp] theorem children_map_tree (c : Cursor) : c.children.map (·.tree) = c.tree.children :=
  siblings_map_tree _ _ _

/-- A node to visit: how deep it lies below the start, and a value handed down to it. -/
structure Visit (α : Type) where
  value : α
  depth : Nat
  node : Cursor

variable {α : Type}

/-- The parts of a node, to visit next. -/
def Visit.parts (pass : α → Cursor → α) (v : Visit α) : List (Visit α) :=
  v.node.children.map fun c => ⟨pass v.value v.node, v.depth + 1, c⟩

/-- The number of nodes on an agenda and below it. -/
def workload (agenda : List (Visit α)) : Nat :=
  Tree.countAll (agenda.map (·.node.tree))

/-- The first visit adds the nodes of its tree. -/
theorem workload_cons (v : Visit α) (agenda : List (Visit α)) :
    workload (v :: agenda) = v.node.tree.count + workload agenda := rfl

/-- The work of two agendas adds up. -/
theorem workload_append (a b : List (Visit α)) : workload (a ++ b) = workload a + workload b := by
  simp [workload, Tree.countAll_append]

/-- A visit is itself and the work of its parts. -/
theorem workload_parts (pass : α → Cursor → α) (v : Visit α) :
    v.node.tree.count = 1 + workload (v.parts pass) := by
  have h : (v.parts pass).map (·.node.tree) = v.node.children.map (·.tree) := by
    simp only [Visit.parts, List.map_map]
    rfl
  rw [Tree.countAll_children, workload, h, children_map_tree]

/-- The visits that an agenda leads to, where the first part of a node comes first. -/
def visits (pass : α → Cursor → α) (limit : Nat) (agenda : List (Visit α)) : List (Visit α) :=
  match agenda with
  | [] => []
  | v :: rest =>
    if limit < v.depth then visits pass limit rest
    else v :: visits pass limit (v.parts pass ++ rest)
termination_by workload agenda
decreasing_by
  · have := Tree.count_pos v.node.tree
    simp only [workload_cons]
    omega
  · simp only [workload_cons, workload_append, workload_parts pass v]
    omega

/-- The visits of a walk through the nodes at most `limit` below a cursor. A part of a node with
value `a` gets the value `pass a node`. -/
def walk (pass : α → Cursor → α) (start : α) (limit : Nat) (c : Cursor) : List (Visit α) :=
  visits pass limit [⟨start, 0, c⟩]

/-- The nodes at most `limit` below a cursor in the order of a walk. -/
def walked (limit : Nat) (c : Cursor) : List Cursor :=
  (walk (fun _ _ => ()) () limit c).map (·.node)

end Cursor

end RepoAtlas.Syntax
