import RepoAtlas.Extract.Query
import RepoAtlas.Json.Basic

/-!
# Trees in a snapshot

A tree is written as the list of its nodes in preorder, each with its depth, its kind and its range. The
kind of a node that is not named begins with an exclamation mark.
-/

namespace RepoAtlas.Snapshot

open Syntax

/-- A natural number; anything else is zero. -/
def natural (j : Json) : Nat :=
  (j.int?.getD 0).toNat

/-- A text; anything else is empty. -/
def text (j : Json) : String :=
  j.str?.getD ""

/-- The texts of an array. -/
def texts (j : Json) : List String :=
  j.items.filterMap Json.str?

/-- A node of a tree. -/
def item? : Json → Option OutlineItem
  | .arr [depth, .str kind, start, stop] =>
    match Text.withoutStart? kind "!" with
    | some k => some ⟨natural depth, k, false, natural start, natural stop⟩
    | none => some ⟨natural depth, kind, true, natural start, natural stop⟩
  | _ => none

/-- A tree. -/
def tree? (j : Json) : Option Tree :=
  Tree.ofOutline? (j.items.filterMap item?)

/-- Captures: names with the places of nodes in preorder. -/
def captures (j : Json) : Extract.Query.Captures :=
  j.items.filterMap fun
    | .arr [.str name, places] => some (name, places.items.map natural)
    | _ => none

/-- The tree of a text in a language, if it is given. -/
def known (j : Json) (language : String) (content : String) : List ((String × String) × Tree) :=
  match tree? (j.field "tree") with
  | some t => [((language, content), t)]
  | none => []

end RepoAtlas.Snapshot
