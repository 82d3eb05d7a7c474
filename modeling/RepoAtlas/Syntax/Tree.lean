import RepoAtlas.Text.Search

/-!
# Syntax trees

A syntax tree describes a source text by nested ranges of its UTF-8 bytes. A range may end inside
a character; such a range has no text. Rows count the line feeds before an offset.
-/

namespace RepoAtlas.Syntax

/-- A node with its kind, its byte range and its parts in order. Named nodes stand for constructs,
the others for punctuation and words of the grammar. -/
structure Tree where
  kind : String
  named : Bool
  start : Nat
  stop : Nat
  children : List Tree
  deriving Inhabited

/-- What is left of a text after `n` bytes, unless that cuts a character. -/
def dropBytes : List Char → Nat → Option (List Char)
  | s, 0 => some s
  | [], _ => some []
  | c :: s, n + 1 => if c.utf8Size ≤ n + 1 then dropBytes s (n + 1 - c.utf8Size) else none

/-- The first `n` bytes of a text, unless that cuts a character. -/
def takeBytes : List Char → Nat → Option (List Char)
  | _, 0 => some []
  | [], _ => some []
  | c :: s, n + 1 =>
    if c.utf8Size ≤ n + 1 then (takeBytes s (n + 1 - c.utf8Size)).map (c :: ·) else none

/-- The text between two byte offsets, unless one of them cuts a character. -/
def slice (s : List Char) (start stop : Nat) : Option (List Char) :=
  if stop ≤ start then some [] else (dropBytes s start).bind (takeBytes · (stop - start))

/-- The number of line feeds that begin before a byte offset. -/
def rowAt : List Char → Nat → Nat
  | [], _ => 0
  | _, 0 => 0
  | c :: s, n + 1 => (if c = '\n' then 1 else 0) + rowAt s (n + 1 - c.utf8Size)

/-- A node of an outline: its depth and itself without its parts. -/
structure OutlineItem where
  depth : Nat
  kind : String
  named : Bool
  start : Nat
  stop : Nat

/-- Put an item in front of the trees that follow it: those deeper than itself become its parts. -/
def OutlineItem.gather (item : OutlineItem) (after : List (Nat × Tree)) : List (Nat × Tree) :=
  let parts := after.takeWhile fun t => item.depth < t.1
  let rest := after.dropWhile fun t => item.depth < t.1
  (item.depth, ⟨item.kind, item.named, item.start, item.stop, parts.map (·.2)⟩) :: rest

/-- The tree that an outline in preorder describes. -/
def Tree.ofOutline? (items : List OutlineItem) : Option Tree :=
  match items.foldr OutlineItem.gather [] with
  | [] => none
  | (_, t) :: _ => some t

end RepoAtlas.Syntax
