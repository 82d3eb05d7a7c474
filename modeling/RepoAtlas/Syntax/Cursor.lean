import RepoAtlas.Syntax.Tree

/-!
# Nodes in their place

A cursor is a node together with its earlier siblings and its ancestors, so that an analysis can
look up and to the left as well as down. `preorder` lists every node below a cursor with its depth;
`inherit` lists every node with a value handed down from its parent.
-/

namespace RepoAtlas.Syntax

/-- A node in its place. -/
structure Cursor where
  tree : Tree
  /-- The siblings before the node, nearest first. -/
  earlier : List Tree
  parent : Option Cursor
  deriving Inhabited

namespace Cursor

/-- The root of a tree. -/
def ofTree (t : Tree) : Cursor :=
  ⟨t, [], none⟩

/-- The kind of the node. -/
def kind (c : Cursor) : String :=
  c.tree.kind

/-- The parts of `parent` from a place on, where `earlier` are the parts before it. -/
def siblings (parent : Cursor) (earlier : List Tree) : List Tree → List Cursor
  | [] => []
  | t :: ts => ⟨t, earlier, some parent⟩ :: siblings parent (t :: earlier) ts

/-- The parts of a node, in their place. -/
def children (c : Cursor) : List Cursor :=
  siblings c [] c.tree.children

/-- The ancestors of a node, nearest first. -/
def ancestors (c : Cursor) : List Cursor :=
  match c with
  | ⟨_, _, none⟩ => []
  | ⟨_, _, some p⟩ => p :: ancestors p

/-- The first part of a given kind. -/
def child? (c : Cursor) (kind : String) : Option Cursor :=
  c.children.find? fun d => d.kind == kind

/-- The first part whose kind is one of several. -/
def childIn? (c : Cursor) (kinds : List String) : Option Cursor :=
  c.children.find? fun d => kinds.contains d.kind

/-- The nearest ancestor whose kind is one of several. -/
def enclosing? (c : Cursor) (kinds : List String) : Option Cursor :=
  c.ancestors.find? fun d => kinds.contains d.kind

/-- The sibling just before a node. -/
def previous? (c : Cursor) : Option Tree :=
  c.earlier.head?

/-- The nearest named sibling before a node. -/
def previousNamed? (c : Cursor) : Option Tree :=
  c.earlier.find? (·.named)

mutual
/-- The nodes of a tree in preorder with the values handed down to them. -/
def inheritAt {α : Type} (pass : α → Cursor → α) (value : α) (parent : Option Cursor)
    (earlier : List Tree) : Tree → List (α × Cursor)
  | ⟨kind, named, start, stop, parts⟩ =>
    let here : Cursor := ⟨⟨kind, named, start, stop, parts⟩, earlier, parent⟩
    (value, here) :: inheritList pass (pass value here) (some here) [] parts

/-- The nodes of several sibling trees in preorder with the values handed down to them. -/
def inheritList {α : Type} (pass : α → Cursor → α) (value : α) (parent : Option Cursor)
    (earlier : List Tree) : List Tree → List (α × Cursor)
  | [] => []
  | t :: ts =>
    inheritAt pass value parent earlier t ++ inheritList pass value parent (t :: earlier) ts
end

/-- The nodes below and including a cursor in preorder, each with the value handed down to it: the
cursor gets `value`, a part of a node with value `a` gets `pass a node`. -/
def inherit {α : Type} (pass : α → Cursor → α) (value : α) (c : Cursor) : List (α × Cursor) :=
  inheritAt pass value c.parent c.earlier c.tree

/-- The nodes below and including a cursor in preorder, each with its depth below the cursor. -/
def depths (c : Cursor) : List (Nat × Cursor) :=
  c.inherit (fun d _ => d + 1) 0

/-- The nodes below and including a cursor in preorder. -/
def preorder (c : Cursor) : List Cursor :=
  c.depths.map (·.2)

/-- The nodes at most `limit` below a cursor, in preorder. -/
def within (limit : Nat) (c : Cursor) : List Cursor :=
  (c.depths.filter fun d => d.1 ≤ limit).map (·.2)

mutual
/-- The nodes of a tree, each before its parts, the last part first. -/
def backwardAt (parent : Option Cursor) (earlier : List Tree) : Tree → List Cursor
  | ⟨kind, named, start, stop, parts⟩ =>
    let here : Cursor := ⟨⟨kind, named, start, stop, parts⟩, earlier, parent⟩
    here :: backwardList (some here) [] parts

/-- The nodes of several sibling trees, the last tree first. -/
def backwardList (parent : Option Cursor) (earlier : List Tree) : List Tree → List Cursor
  | [] => []
  | t :: ts => backwardList parent (t :: earlier) ts ++ backwardAt parent earlier t
end

/-- The nodes below and including a cursor, each before its parts, the last part first. -/
def backward (c : Cursor) : List Cursor :=
  backwardAt c.parent c.earlier c.tree

/-- A step of a tour through a tree. -/
inductive Step where
  /-- A node is reached from above. -/
  | enter (depth : Nat) (node : Cursor)
  /-- All parts of a node have been left. -/
  | leave (depth : Nat) (node : Cursor)

/-- How deep below the start of the tour a step is. -/
def Step.depth : Step → Nat
  | .enter d _ => d
  | .leave d _ => d

mutual
/-- The tour through a tree. -/
def tourAt (depth : Nat) (parent : Option Cursor) (earlier : List Tree) : Tree → List Step
  | ⟨kind, named, start, stop, parts⟩ =>
    let here : Cursor := ⟨⟨kind, named, start, stop, parts⟩, earlier, parent⟩
    .enter depth here :: (tourList (depth + 1) (some here) [] parts ++ [.leave depth here])

/-- The tour through several sibling trees. -/
def tourList (depth : Nat) (parent : Option Cursor) (earlier : List Tree) : List Tree → List Step
  | [] => []
  | t :: ts => tourAt depth parent earlier t ++ tourList depth parent (t :: earlier) ts
end

/-- The tour through the nodes at most `limit` below a cursor: every node is entered before and left
after its parts. -/
def tour (limit : Nat) (c : Cursor) : List Step :=
  (tourAt 0 c.parent c.earlier c.tree).filter fun s => s.depth ≤ limit

end Cursor

end RepoAtlas.Syntax
