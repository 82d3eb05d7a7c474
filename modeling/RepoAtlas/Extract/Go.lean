import RepoAtlas.Extract.GoScope

/-!
# Components of Go files

A call is related to what it calls: a function by its name, a method through the type of the
variable or the chain of fields it is called on. A type is related to the types it embeds. An
analysis that fails on the way keeps what it has found.
-/

namespace RepoAtlas.Extract.Go

open Syntax

/-- What an analysis of a Go file gives. -/
structure FileFindings where
  findings : Findings := {}
  /-- The methods that each interface asks for. -/
  interfaces : Keyed (List String) := .empty
  /-- The methods that each receiver type has. -/
  structs : Keyed (List String) := .empty
  deriving Inhabited

/-- The import that an import declaration names first: under which name, and which path. -/
def importAt (s : Source) (c : Cursor) : Except Fault (List (String × String)) := do
  if c.kind != "import_declaration" then .ok []
  else
    match c.child? "import_spec" with
    | none => .ok []
    | some spec =>
      let alias? ← lastText s (spec.children.filter (·.kind = "package_identifier"))
      let path? ← lastText s (spec.children.filter (·.kind = "interpreted_string_literal"))
      match nonEmpty (path?.map fun p => String.ofList (Text.trim (· = '"') p.toList)) with
      | none => .ok []
      | some path => .ok [((nonEmpty alias?).getD (Text.afterLast '/' path), path)]

/-- The names of the package clauses of a file. They have to be readable. -/
def packageAt (s : Source) (c : Cursor) : Except Fault Unit := do
  if c.kind = "package_clause" then
    let _ ← s.text? (c.child? "package_identifier")

/-- The names under which a file imports packages. -/
def imports (s : Source) (root : Cursor) : Except Fault (List String) := do
  let found ← collect root.preorder fun c => do
    packageAt s c
    importAt s c
  .ok (found.map (·.1))

/-- What is known when the calls of a file are looked at. -/
structure Context where
  imports : List String
  table : Declarations
  types : TypeContext

/-- The fields of a chain `a.b.c`, outermost last, and the node in front of them. A chain that is
no selector, or lacks a field, ends there. -/
def selectorChain (s : Source) : Nat → List String → Cursor →
    Except Fault (List String × Cursor)
  | 0, fields, c => .ok (fields, c)
  | fuel + 1, fields, c => do
    if c.kind = "selector_expression" then
      match c.child? "field_identifier", c.children with
      | some f, first :: _ => selectorChain s fuel ((← s.text f) :: fields) first
      | _, _ => .ok (fields, c)
    else .ok (fields, c)

/-- The number of nodes of a tree bounds every chain in it. -/
def chainBound (c : Cursor) : Nat :=
  c.preorder.length

/-- The type that a chain of fields leads to. -/
def selectorType (s : Source) (k : TypeContext) (f : Enclosing) (c : Cursor) :
    Except Fault (Option String) := do
  let (fields, first) ← selectorChain s (chainBound c) [] c
  if first.kind != "identifier" then .ok none
  else
    match nonEmpty (variableType? k f (← s.text first)) with
    | none => .ok none
    | some t => .ok (chainType? k t fields)

/-- The dotted text of a chain of fields. -/
def selectorName (s : Source) (c : Cursor) : Except Fault String := do
  let (fields, first) ← selectorChain s (chainBound c) [] c
  let parts ← if first.kind = "identifier" then do .ok ((← s.text first) :: fields)
    else .ok fields
  .ok (Text.join "." parts)

/-- What a call calls: the type it is made on, if any, and the name. -/
def calleeOf (s : Source) (k : Context) (f : Enclosing) (callee : Cursor) :
    Except Fault (Option (Option String × String)) := do
  if callee.kind = "identifier" then .ok (some (none, ← s.text callee))
  else if callee.kind = "selector_expression" then
    match nonEmpty (← s.text? (callee.child? "field_identifier")) with
    | none => .ok none
    | some name =>
      match callee.children with
      | [] => .ok none
      | operand :: _ =>
        if operand.kind = "identifier" then
          let base ← s.text operand
          if k.imports.contains base then .ok (some (none, base ++ "." ++ name))
          else
            let type := (nonEmpty (variableType? k.types f base)).getD base
            .ok (some (nonEmpty (some type), name))
        else if operand.kind = "selector_expression" then
          match nonEmpty (← selectorType s k.types f operand) with
          | some type => .ok (some (some type, name))
          | none =>
            let chain ← selectorName s operand
            .ok (some (none, if chain = "" then name else chain ++ "." ++ name))
        else .ok (some (none, name))
  else .ok none

/-- The relationship of a call inside a function. -/
def callAt (s : Source) (k : Context) (f : Enclosing) (c : Cursor) :
    Except Fault (List Relationship) := do
  match c.children with
  | [] => .ok []
  | callee :: _ =>
    match ← calleeOf s k f callee with
    | none => .ok []
    | some (type, name) =>
      if isBuiltin name then .ok []
      else
        let key := match type with
          | some t => t ++ "." ++ name
          | none => name
        let target := k.table.get? key
        .ok [{ caller := componentId s f.function f.receiver
               callee := match target with
                 | some d => d.id
                 | none => key
               line := some (s.startLine c), resolved := target.isSome }]

/-- The name of the type specification around a node. -/
def containingType (s : Source) (c : Cursor) : Except Fault (Option String) :=
  match c.enclosing? ["type_spec"] with
  | some spec => s.text? (spec.child? "type_identifier")
  | none => .ok none

/-- The relationship of a type with a type that it embeds, unless that is predeclared. -/
def embeds (s : Source) (c : Cursor) (owner : String) (type : Cursor) :
    Except Fault (List Relationship) := do
  let name ← s.text type
  .ok (if isPrimitive name then []
    else [{ caller := componentId s owner none, callee := name, line := some (s.startLine c),
            kind := "embeds" }])

/-- The relationships of a structure with the types that it embeds: its fields without a name. -/
def structEmbedding (s : Source) (c : Cursor) : Trail Fault Relationship :=
  Trail.given (containingType s c) fun owner? =>
    match nonEmpty owner? with
    | none => Trail.none
    | some owner =>
      let fields := (c.children.filter (·.kind = "field_declaration_list")).flatMap fun l =>
        l.children.filter (·.kind = "field_declaration")
      Trail.each fields fun field =>
        match field.child? "type_identifier", field.child? "identifier" with
        | some type, none => Trail.ofExcept (embeds s c owner type)
        | _, _ => Trail.none

/-- The relationships of an interface with the interfaces that it embeds: its elements without a
method name. -/
def interfaceEmbedding (s : Source) (c : Cursor) : Trail Fault Relationship :=
  Trail.given (containingType s c) fun owner? =>
    match nonEmpty owner? with
    | none => Trail.none
    | some owner =>
      Trail.each (c.children.filter fun d => d.kind = "method_spec" || d.kind = "method_elem")
        fun element =>
          match element.child? "type_identifier", element.child? "field_identifier" with
          | some type, none => Trail.ofExcept (embeds s c owner type)
          | _, _ => Trail.none

/-- The function that a tour is in after it enters a node. -/
def enterFunction (s : Source) (k : Context) (current : Option Enclosing) (c : Cursor) :
    Except Fault (Option Enclosing) := do
  if c.kind = "function_declaration" then
    match ← s.text? (c.child? "identifier") with
    | none => .ok current
    | some name =>
      let f : Enclosing := { function := name }
      .ok (some { f with scope := ← functionScope s k.types f c })
  else if c.kind = "method_declaration" then
    match ← s.text? (c.child? "field_identifier") with
    | none => .ok current
    | some name =>
      let f : Enclosing :=
        { function := name, receiver := ← receiverType s c, receiverName := ← receiverVariable s c }
      .ok (some { f with scope := ← functionScope s k.types f c })
  else .ok current

/-- The relationships that a node gives rise to. -/
def relationshipsAt (s : Source) (k : Context) (current : Option Enclosing) (c : Cursor) :
    Trail Fault Relationship :=
  if c.kind = "call_expression" then
    match current with
    | none => Trail.none
    | some f => if f.function = "" then Trail.none else Trail.ofExcept (callAt s k f c)
  else if c.kind = "struct_type" then structEmbedding s c
  else if c.kind = "interface_type" then interfaceEmbedding s c
  else Trail.none

/-- The relationships along a tour. Leaving a function, the tour is in no function. -/
def relationshipsAlong (s : Source) (k : Context) (current : Option Enclosing) :
    List Cursor.Step → Trail Fault Relationship
  | [] => Trail.none
  | .enter _ c :: rest =>
    Trail.given (enterFunction s k current c) fun current =>
      relationshipsAt s k current c ++ relationshipsAlong s k current rest
  | .leave _ c :: rest =>
    relationshipsAlong s k
      (if c.kind = "function_declaration" || c.kind = "method_declaration" then none else current)
      rest

/-- The findings in a tree, up to a failure. -/
def findings (s : Source) (root : Cursor) : FileFindings :=
  match imports s root with
  | .error _ => {}
  | .ok imports =>
    let declared := declarations s root
    let components := declared.found.map (·.1)
    if declared.failure.isSome then { findings := { components := components } }
    else
      let facts := typeFacts s root
      let types := TypeContext.ofFacts facts.found
      let relationships :=
        if facts.failure.isSome then []
        else (relationshipsAlong s ⟨imports, remembered declared.found, types⟩ none
          (root.tour depthLimit)).found
      { findings := { components := components, relationships := relationships },
        interfaces := types.interfaces, structs := types.structs }

/-- Analyse a Go file. A missing text is an empty one, and a text without a tree has no findings. -/
def analyze (parsers : Parsers) (file : SourceFile) : Except Fault FileFindings := do
  let path ← file.tidyPath
  let text := file.text.getD ""
  let parsed : Except Fault Tree := do
    parsers.parser "go"
    parsers.tree "go" text
  match parsed with
  | .ok tree => .ok (findings (Source.of text path file.root) (Cursor.ofTree tree))
  | .error _ => .ok {}

end RepoAtlas.Extract.Go
