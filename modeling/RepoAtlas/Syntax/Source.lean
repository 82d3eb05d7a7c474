import RepoAtlas.Syntax.Cursor
import RepoAtlas.Path
import RepoAtlas.Text.Line

/-!
# Source files and their trees

A source file is given by its path, its text and the root of its repository, each of which may be
missing. Its syntax tree comes from a collection of trees, looked up by language and exact text; a
language, or the parsers as such, may be unavailable.
-/

namespace RepoAtlas.Syntax

/-- Why an analysis of a source file stops. -/
inductive Fault where
  /-- A byte range ends inside a character. -/
  | undecodable
  /-- The file has no path. -/
  | noPath
  /-- The path of the file is empty where the place of the file counts. -/
  | emptyPath
  /-- The file has no text. -/
  | noText
  /-- The grammar of the language cannot be loaded. -/
  | noLanguage
  /-- No parser can be made. -/
  | noParser
  /-- The text cannot be parsed. -/
  | noTree
  /-- The query engine fails. -/
  | noCaptures
  deriving DecidableEq, Repr

/-- The text of a fault, for the faults of parsers. -/
def Fault.message : Fault → String
  | .noLanguage => "language unavailable"
  | .noParser => "parser unavailable"
  | .noTree => "no tree"
  | .noCaptures => "captures failed"
  | .undecodable => "undecodable text"
  | .noPath => "no path"
  | .emptyPath => "no path specified"
  | .noText => "no text"

/-- A source file as it is handed to an analysis. -/
structure SourceFile where
  path : Option String
  text : Option String
  root : Option String
  deriving Repr

/-- The path of a file in tidy form. -/
def SourceFile.tidyPath (f : SourceFile) : Except Fault String :=
  match f.path with
  | some p => .ok (Path.tidy p)
  | none => .error .noPath

/-- The text of a file. -/
def SourceFile.content (f : SourceFile) : Except Fault String :=
  match f.text with
  | some t => .ok t
  | none => .error .noText

/-- The syntax trees at hand. -/
structure Parsers where
  /-- Languages that cannot be loaded; the word `parser` stands for all parsers. -/
  unavailable : List String := []
  /-- Trees by language and text. -/
  trees : List ((String × String) × Tree) := []

/-- Load the grammar of a language. -/
def Parsers.language (p : Parsers) (language : String) : Except Fault Unit :=
  if p.unavailable.contains language then .error .noLanguage else .ok ()

/-- Load the grammar of a language and make a parser for it. -/
def Parsers.parser (p : Parsers) (language : String) : Except Fault Unit := do
  p.language language
  if p.unavailable.contains "parser" then .error .noParser

/-- The tree of a text. A later tree for the same text replaces an earlier one. -/
def Parsers.tree (p : Parsers) (language text : String) : Except Fault Tree :=
  match p.trees.reverse.lookup (language, text) with
  | some t => .ok t
  | none => .error .noTree

/-- A text with its lines and the place where it stands. -/
structure Source where
  chars : List Char
  lines : List String
  path : String
  /-- The path as seen from the root of the repository. -/
  relativePath : String

/-- The path of a file seen from the repository root, or itself where there is no root. -/
def relativeTo (path : String) (root : Option String) : String :=
  match root with
  | none => path
  | some r => if r = "" then path else Path.relative path r

/-- The source of a text at a tidy path. -/
def Source.of (text path : String) (root : Option String) : Source :=
  { chars := text.toList, lines := Text.lines text, path := path,
    relativePath := relativeTo path root }

namespace Source

/-- The text of a node. -/
def textOf (s : Source) (t : Tree) : Except Fault String :=
  match slice s.chars t.start t.stop with
  | some cs => .ok (String.ofList cs)
  | none => .error .undecodable

/-- The text of a node in its place. -/
def text (s : Source) (c : Cursor) : Except Fault String :=
  s.textOf c.tree

/-- The text of a node that may be missing. -/
def text? (s : Source) : Option Cursor → Except Fault (Option String)
  | some c => (s.text c).map some
  | none => .ok none

/-- The row on which a node begins, counted from zero. -/
def startRow (s : Source) (c : Cursor) : Nat :=
  rowAt s.chars c.tree.start

/-- The row on which a node ends, counted from zero. -/
def endRow (s : Source) (c : Cursor) : Nat :=
  rowAt s.chars c.tree.stop

/-- The line on which a node begins, counted from one. -/
def startLine (s : Source) (c : Cursor) : Nat :=
  s.startRow c + 1

/-- The line on which a node ends, counted from one. -/
def endLine (s : Source) (c : Cursor) : Nat :=
  s.endRow c + 1

/-- The lines that a node touches. -/
def nodeLines (s : Source) (c : Cursor) : String :=
  Text.excerpt s.lines (s.startLine c) (s.endLine c)

/-- The dotted name of the file: its relative path without the first of the endings it has. -/
def moduleName (s : Source) (endings : List String) : String :=
  Path.dotted (Path.dropEnding s.relativePath endings)

end Source

end RepoAtlas.Syntax
