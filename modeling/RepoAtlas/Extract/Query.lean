import RepoAtlas.Extract.Declared

/-!
# Components from captures

A query captures the names of definitions and references in a tree. A definition is a component with the text of
the node around its name. A reference belongs to the first definition whose lines it stands on, and is resolved
if the file defines its name.
-/

namespace RepoAtlas.Extract.Query

open Syntax

/-- What a query captured: names of captures, each with the places of nodes in preorder. -/
abbrev Captures := List (String × List Nat)

/-- The queries at hand. -/
structure Queries where
  /-- Languages whose query can be used. -/
  languages : List String := []
  /-- Whether captures come from a cursor, and not from the query itself. -/
  hasCursor : Bool := true
  /-- Whether the cursor fails. -/
  cursorFails : Bool := false
  /-- Whether the query itself fails. -/
  queryFails : Bool := false
  /-- Captures by language and text. -/
  captures : List ((String × String) × Captures) := []

/-- The languages that have a query. -/
def knownLanguages : List String :=
  ["python", "javascript", "typescript", "java", "csharp", "c", "cpp", "go", "php"]

/-- What the query of a language captures in a text. A cursor that fails is a fault; a query that
fails captures nothing at all. -/
def Queries.run (q : Queries) (language text : String) : Except Fault (Option Captures) :=
  let found := (q.captures.reverse.lookup (language, text)).getD []
  if q.hasCursor then
    if q.cursorFails then .error .noCaptures else .ok (some found)
  else .ok (if q.queryFails then none else some found)

/-- A captured definition. -/
structure Definition where
  name : String
  kind : String
  startLine : Nat
  endLine : Nat
  code : String
  owner : Option String
  deriving Repr

/-- A captured reference. -/
structure Reference where
  name : String
  line : Nat
  deriving Repr

/-- The kinds of nodes that a method belongs to. -/
def classKinds : List String :=
  ["class_definition", "class_declaration", "class_specifier", "abstract_class_declaration",
    "struct_specifier", "struct_declaration", "record_declaration"]

/-- The name of the nearest class around a node. -/
def containingClass (s : Source) (c : Cursor) : Except Fault (Option String) := do
  .ok (nonEmpty (← s.text? ((c.enclosing? classKinds).bind
    (·.childIn? ["identifier", "type_identifier", "name"]))))

/-- The definition whose name is captured. Only a method is looked up in its class. -/
def definition (s : Source) (kind : String) (c : Cursor) : Except Fault Definition := do
  let name ← s.text c
  let whole := c.parent.getD c
  let code ← match c.parent with
    | some p => s.text p
    | none => .ok ""
  let owner ← if kind = "method" then containingClass s c else .ok none
  .ok { name := name, kind := kind, startLine := s.startLine whole, endLine := s.endLine whole,
        code := code, owner := owner }

/-- The nodes of a tree that a capture holds, with its name. -/
def captured (root : Cursor) (captures : Captures) : List (String × Cursor) :=
  let nodes := root.preorder.toArray
  captures.flatMap fun (name, places) => places.filterMap fun i => (nodes[i]?).map (name, ·)

/-- The definitions and references among captured nodes. All of them have to be readable. -/
def sorted (s : Source) : List (String × Cursor) → Except Fault (List Definition × List Reference)
  | [] => .ok ([], [])
  | (capture, c) :: rest => do
    let name ← s.text c
    match Text.withoutStart? capture "definition." with
    | some kind =>
      let d ← definition s kind c
      let (ds, rs) ← sorted s rest
      .ok (d :: ds, rs)
    | none =>
      let (ds, rs) ← sorted s rest
      if Text.begins capture "reference." then .ok (ds, ⟨name, s.startLine c⟩ :: rs)
      else .ok (ds, rs)

/-- The dotted name of a file: its path without its extension. -/
def moduleName (s : Source) : String :=
  Text.replaceChar (Path.splitExtension s.relativePath).1 '/' '.'

/-- The name of a definition, behind that of its class. -/
def Definition.shownName (d : Definition) : String :=
  match d.owner with
  | some o => o ++ "." ++ d.name
  | none => d.name

/-- The identifier of a definition. -/
def Definition.id (s : Source) (d : Definition) : String :=
  moduleName s ++ "." ++ d.shownName

/-- The kind of component that a definition is. -/
def componentKind (kind : String) : String :=
  if ["class", "function", "method", "interface", "enum", "type_alias"].contains kind then kind
  else "function"

/-- The component that a definition is. -/
def Definition.component (s : Source) (d : Definition) : Component :=
  let kind := componentKind d.kind
  { id := d.id s, name := d.name, kind := kind, filePath := s.path, relativePath := s.relativePath,
    sourceCode := some d.code, startLine := d.startLine, endLine := d.endLine,
    nodeType := some kind, className := d.owner, displayName := some d.shownName,
    componentId := some (d.id s) }

/-- The relationship of a reference, unless it stands in no definition or refers to its own. -/
def relationship? (s : Source) (definitions : List Definition) (ids : Keyed String)
    (r : Reference) : Option Relationship :=
  if ["self", "cls", "this", "super"].contains r.name then none
  else
    match definitions.find? fun d => d.startLine ≤ r.line && r.line ≤ d.endLine with
    | none => none
    | some d =>
      match ids.get? r.name with
      | some callee =>
        if d.id s = callee then none
        else some { caller := d.id s, callee := callee, line := some r.line, resolved := true }
      | none => some { caller := d.id s, callee := r.name, line := some r.line }

/-- The findings in a tree. -/
def findings (s : Source) (root : Cursor) (captures : Captures) : Except Fault Findings := do
  let (definitions, references) ← sorted s (captured root captures)
  let ids := Keyed.ofList (definitions.map fun d => (d.name, d.id s))
  .ok { components := definitions.map (·.component s)
        relationships := references.filterMap (relationship? s definitions ids) }

/-- Analyse a file with the query of its language. If there is no query, no parser or no tree, the
analysis does not apply; otherwise the file needs a path. -/
def analyze (parsers : Parsers) (queries : Queries) (language : String) (file : SourceFile) :
    Except Fault (Option Findings) := do
  if !knownLanguages.contains language || !queries.languages.contains language then .ok none
  else
    let text := file.text.getD ""
    let parsed : Except Fault Tree := do
      parsers.parser language
      let text ← file.content
      parsers.tree language text
    match parsed with
    | .error _ => .ok none
    | .ok tree => do
      let path := file.path.getD ""
      if path = "" then throw .emptyPath
      match ← queries.run language text with
      | none => .ok none
      | some captures =>
        let s := { Source.of text path file.root with
          relativePath := Path.relative path (file.root.getD "") }
        .ok (some (← findings s (Cursor.ofTree tree) captures))

end RepoAtlas.Extract.Query
