import RepoAtlas.Component
import RepoAtlas.Keyed
import RepoAtlas.Syntax.Source
import RepoAtlas.Syntax.Trail

/-!
# Declared components

A node that declares something becomes a component with the lines it touches. Analyses of a file
keep a table of what the file declares, by name, to recognise references to it.
-/

namespace RepoAtlas.Extract

open Syntax

/-- What a file declares, by name. -/
abbrev Declarations := Keyed Component

/-- A name inside a module; a module without a name adds nothing. -/
def qualify (module name : String) : String :=
  if module = "" then name else module ++ "." ++ name

/-- The component that a node declares. -/
def declared (s : Source) (c : Cursor) (id kind name : String) : Component :=
  { id := id, name := name, kind := kind, filePath := s.path, relativePath := s.relativePath,
    sourceCode := some (s.nodeLines c), startLine := s.startLine c, endLine := s.endLine c,
    nodeType := some kind, displayName := some (kind ++ " " ++ name), componentId := some id }

/-- The results for every node of a list, one after the other, unless one of them fails. -/
def collect {α : Type} (nodes : List Cursor) (f : Cursor → Except Fault (List α)) :
    Except Fault (List α) :=
  match nodes with
  | [] => .ok []
  | c :: cs => do
    let here ← f c
    let rest ← collect cs f
    .ok (here ++ rest)

/-- The first value that a node of a list gives, unless one before it fails. -/
def firstOf {α : Type} (nodes : List Cursor) (f : Cursor → Except Fault (Option α)) :
    Except Fault (Option α) :=
  match nodes with
  | [] => .ok none
  | c :: cs => do
    match ← f c with
    | some a => .ok (some a)
    | none => firstOf cs f

/-- Whether the text of a node satisfies `p` for some node of a list, looked at up to the first. -/
def anyText (s : Source) (p : String → Bool) : List Cursor → Except Fault Bool
  | [] => .ok false
  | c :: cs => do
    let t ← s.text c
    if p t then .ok true else anyText s p cs

/-- An empty text counts as no text. -/
def nonEmpty (t : Option String) : Option String :=
  t.filter (· != "")

/-- The source of a file and the root of its tree, where every missing part is a fault. The path
is asked for first, then the parser, then the text, then the tree. -/
def opened (parsers : Parsers) (language : String) (file : SourceFile) :
    Except Fault (Source × Cursor) := do
  let path ← file.tidyPath
  parsers.parser language
  let text ← file.content
  let tree ← parsers.tree language text
  .ok (Source.of text path file.root, Cursor.ofTree tree)

end RepoAtlas.Extract
