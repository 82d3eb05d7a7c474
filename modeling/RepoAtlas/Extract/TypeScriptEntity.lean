import RepoAtlas.Extract.Declared
import RepoAtlas.Syntax.Agenda

/-!
# Entities of TypeScript files

Every declaration is an entity with a name, at whatever depth it stands. Of several entities with
one name the last one counts. An entity is at the top level if no function body is around it and a
program, a module, an export or an ambient declaration is.
-/

namespace RepoAtlas.Extract.TypeScript

open Syntax

/-- How deep entities and relationships are looked for. -/
def depthLimit : Nat := 500

/-- A declaration of any kind. -/
structure Entity where
  name : String
  kind : String
  subkind : String
  node : Cursor
  /-- The text of the declaration. Ambient declarations have none. -/
  code : Option String
  displayName : String
  parameters : List String := []
  baseClasses : Option (List String) := none

/-- The entities of a file by name. -/
abbrev Entities := Keyed Entity

/-- The kinds of nodes whose block is a function body. -/
def functionKinds : List String :=
  ["function_declaration", "generator_function_declaration", "arrow_function",
    "function_expression", "method_definition"]

/-- Whether a node lies in the body of a function. -/
def inFunctionBody (c : Cursor) : Bool :=
  c.ancestors.any fun a =>
    a.kind == "statement_block" && (a.parent.any fun p => functionKinds.contains p.kind)

/-- The kinds of nodes whose parts can be at the top level. -/
def topLevelKinds : List String :=
  ["program", "export_statement", "ambient_declaration", "module"]

/-- Whether a node is at the top level. The root of a tree is. -/
def isTopLevel (c : Cursor) : Bool :=
  c.parent.isNone ||
    (!inFunctionBody c && c.ancestors.any fun a => topLevelKinds.contains a.kind)

/-- What kind of place a node stands in, if it is a known one. -/
def place? (c : Cursor) : Option String :=
  match c.parent with
  | none => some "root"
  | some p =>
    if p.kind = "program" || p.kind = "source_file" then some "program"
    else if p.kind = "export_statement" then some "export"
    else if p.kind = "ambient_declaration" then some "ambient"
    else if p.kind = "module" then some "module"
    else if p.kind = "statement_block" then
      if p.parent.any fun q => q.kind == "module" || q.kind == "ambient_declaration"
      then some "module_block" else some "statement_block"
    else none

/-- The names in the clauses for bases and interfaces of a declaration. -/
def bases (s : Source) (c : Cursor) : Except Fault (List String) :=
  let clauses := (c.child? "extends_clause").toList ++ (c.child? "implements_clause").toList
  let names := clauses.flatMap fun l =>
    l.children.filter fun d => d.kind = "identifier" || d.kind = "type_identifier"
  collect names fun n => do .ok [← s.text n]

/-- The names of the parameters of a function. -/
def parameters (s : Source) (c : Cursor) : Except Fault (List String) :=
  match c.child? "formal_parameters" with
  | none => .ok []
  | some l =>
    let names := l.children.filterMap fun d =>
      if d.kind = "identifier" then some d
      else if d.kind = "required_parameter" || d.kind = "optional_parameter" then
        d.child? "identifier"
      else none
    collect names fun n => do .ok [← s.text n]

/-- The entity that a node declares under the name that another node gives. -/
def entity (s : Source) (c nameNode : Cursor) (kind subkind : String) (shown : String → String) :
    Except Fault Entity := do
  let name ← s.text nameNode
  let code ← s.text c
  .ok { name := name, kind := kind, subkind := subkind, node := c, code := some code,
        displayName := shown name }

/-- Whether a text contains a word before the first occurrence of a piece. -/
def hasBefore (text word piece : String) : Bool :=
  match Text.before? piece.toList text.toList with
  | some front => Text.occurs word.toList front
  | none => false

/-- The entity of a function declaration. -/
def functionEntity (s : Source) (c : Cursor) (subkind : String) : Except Fault (Option Entity) := do
  match c.child? "identifier" with
  | none => .ok none
  | some n =>
    let e ← entity s c n "function" subkind fun name => subkind ++ " " ++ name
    let parameters ← parameters s c
    let front := if hasBefore (e.code.getD "") "async" "function" then "async " else ""
    .ok (some { e with parameters := parameters, displayName := front ++ e.displayName })

/-- The entity of an arrow function that a declarator names. -/
def arrowEntity (s : Source) (c : Cursor) : Except Fault (Option Entity) := do
  match c.parent.filter (·.kind = "variable_declarator") with
  | none => .ok none
  | some p =>
    match p.child? "identifier" with
    | none => .ok none
    | some n =>
      let name ← s.text n
      let parameters ← parameters s c
      let code ← s.text p
      let front := if hasBefore code "async" "=" then "async " else ""
      .ok (some { name := name, kind := "function", subkind := "arrow_function", node := c,
                  code := some code, displayName := front ++ "arrow function " ++ name,
                  parameters := parameters })

/-- The entity of a method. -/
def methodEntity (s : Source) (c : Cursor) : Except Fault (Option Entity) := do
  match c.child? "property_identifier" with
  | none => .ok none
  | some n =>
    let e ← entity s c n "function" "method" fun name => "method " ++ name
    let parameters ← parameters s c
    let code := e.code.getD ""
    let front := (if Text.has code "static" then "static " else "") ++
      (if Text.has code "async" then "async " else "")
    .ok (some { e with parameters := parameters, displayName := front ++ e.displayName })

/-- The node that names a class. -/
def className? (c : Cursor) : Option Cursor :=
  (c.child? "type_identifier").orElse fun _ => c.child? "identifier"

/-- The entity of a class or an interface, whose bases are shown. -/
def classEntity (s : Source) (c : Cursor) (nameNode : Option Cursor) (kind subkind : String) :
    Except Fault (Option Entity) := do
  match nameNode with
  | none => .ok none
  | some n =>
    let e ← entity s c n kind subkind fun name => subkind ++ " " ++ name
    let bases ← bases s c
    let extending := if bases.isEmpty then "" else " extends " ++ Text.join ", " bases
    .ok (some { e with baseClasses := some bases, displayName := e.displayName ++ extending })

/-- An entity named by a part of its node. -/
def simpleEntity (s : Source) (c : Cursor) (nameNode : Option Cursor) (kind subkind word : String) :
    Except Fault (Option Entity) := do
  match nameNode with
  | none => .ok none
  | some n => .ok (some (← entity s c n kind subkind fun name => word ++ " " ++ name))

/-- The node that names what the first declarator of a declaration declares. -/
def declaratorName? (c : Cursor) : Option Cursor :=
  (c.child? "variable_declarator").bind (·.child? "identifier")

/-- The entity of a block-scoped declaration. -/
def lexicalEntity (s : Source) (c : Cursor) : Except Fault (Option Entity) := do
  match declaratorName? c with
  | none => .ok none
  | some n =>
    let code ← s.text c
    let word := if Text.has code "const" then "const" else "let"
    .ok (some (← entity s c n "variable" (word ++ "_declaration") fun name => word ++ " " ++ name))

/-- The function that a declarator assigns. -/
def assignedFunction? (c : Cursor) : Option Cursor :=
  (c.child? "arrow_function").orElse fun _ => c.child? "function_expression"

/-- What a default export calls. -/
def defaultCallee? (c : Cursor) : Option Cursor :=
  if (c.child? "default").isSome then
    ((c.children.filter (·.kind = "call_expression")).getLast?).bind (·.children.head?)
  else none

/-- The declaration that an export statement exports, with the node that names it. Only the first
kind that the statement has is looked at. -/
def exported? (c : Cursor) : Option (Cursor × Cursor × String × String × String) :=
  match c.child? "function_declaration", c.child? "class_declaration",
      c.child? "interface_declaration", c.child? "lexical_declaration" with
  | some f, _, _, _ =>
    (f.child? "identifier").map fun n => (f, n, "function", "export_function", "export function ")
  | none, some k, _, _ =>
    (k.child? "type_identifier").map fun n => (k, n, "class", "export_class", "export class ")
  | none, none, some i, _ =>
    (i.child? "type_identifier").map fun n =>
      (i, n, "interface", "export_interface", "export interface ")
  | none, none, none, some l =>
    (l.child? "variable_declarator").bind fun d =>
      match d.child? "identifier", assignedFunction? d with
      | some n, some f => some (f, n, "function", "export_arrow_function", "export const ")
      | _, _ => none
  | none, none, none, none => none

/-- The entity of an export statement. -/
def exportEntity (s : Source) (c : Cursor) : Except Fault (Option Entity) := do
  let _ ← s.text c
  match exported? c with
  | some (d, n, kind, subkind, words) =>
    let e ← entity s c n kind subkind fun name => words ++ name
    if kind = "function" then .ok (some { e with parameters := ← parameters s d })
    else .ok (some { e with baseClasses := some (← bases s d) })
  | none =>
    match defaultCallee? c with
    | none => .ok none
    | some callee =>
      let e ← entity s c callee "function" "export_default_call" fun name =>
        "export default " ++ name ++ "(...)"
      .ok (some e)

/-- The name of an ambient module or namespace. -/
def ambientName (s : Source) (c : Cursor) : Except Fault String := do
  match c.childIn? ["module", "namespace"] with
  | none => .ok ""
  | some d =>
    if d.kind = "module" then
      match ← s.text? (d.child? "string") with
      | none => .ok ""
      | some t => .ok (String.ofList (Text.trim (fun c => c == '\'' || c == '"') t.toList))
    else
      match d.children with
      | _ :: n :: _ => s.text n
      | _ => .ok "unknown_namespace"

/-- The entity of an ambient declaration. -/
def ambientEntity (s : Source) (c : Cursor) : Except Fault (Option Entity) := do
  .ok (some { name := ← ambientName s c, kind := "ambient_declaration",
              subkind := "ambient_declaration", node := c, code := none, displayName := "" })

/-- The entity that a node declares, if any. -/
def entityAt (s : Source) (c : Cursor) : Except Fault (Option Entity) :=
  match c.kind with
  | "function_declaration" => functionEntity s c "function"
  | "generator_function_declaration" => functionEntity s c "generator_function"
  | "arrow_function" => arrowEntity s c
  | "method_definition" => methodEntity s c
  | "class_declaration" =>
    classEntity s c (className? c) "class" "class"
  | "abstract_class_declaration" =>
    classEntity s c (className? c) "class" "abstract_class"
  | "interface_declaration" => classEntity s c (c.child? "type_identifier") "interface" "interface"
  | "type_alias_declaration" =>
    simpleEntity s c (c.child? "type_identifier") "type" "type_alias" "type"
  | "enum_declaration" => simpleEntity s c (c.child? "identifier") "enum" "enum" "enum"
  | "variable_declarator" =>
    simpleEntity s c (c.child? "identifier") "variable" "variable" "variable"
  | "export_statement" => exportEntity s c
  | "lexical_declaration" => lexicalEntity s c
  | "variable_declaration" =>
    simpleEntity s c (declaratorName? c) "variable" "var_declaration" "var"
  | "ambient_declaration" => ambientEntity s c
  | _ => .ok none

/-- The entities of a file with a name, in the order of a walk. -/
def entityList (s : Source) (root : Cursor) : Except Fault (List Entity) :=
  collect (root.walked depthLimit) fun c => do
    .ok (((← entityAt s c).filter (·.name != "")).toList)

/-- The entities of a file by name. -/
def entities (s : Source) (root : Cursor) : Except Fault Entities := do
  .ok (Keyed.ofList ((← entityList s root).map fun e => (e.name, e)))

end RepoAtlas.Extract.TypeScript
