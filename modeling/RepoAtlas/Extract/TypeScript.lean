import RepoAtlas.Extract.TypeScriptEntity
import RepoAtlas.Text.Word

/-!
# Components of TypeScript files

Top-level entities other than variables are components. What they call, construct, access, annotate and extend
is related to them, unless it is an entity that is not at the top level. An analysis that fails on the way keeps
what it has found.
-/

namespace RepoAtlas.Extract.TypeScript

open Syntax

/-- The dotted name of a TypeScript file. -/
def moduleName (s : Source) : String :=
  s.moduleName [".ts", ".tsx", ".js", ".jsx", ".mjs", ".cjs"]

/-- The identifier of what has a name in the file. -/
def componentId (s : Source) (name : String) : String :=
  moduleName s ++ "." ++ name

/-- Types that need no definition. -/
def isBuiltinType (name : String) : Bool :=
  ["string", "number", "boolean", "object", "undefined", "null", "void", "never", "any",
    "unknown"].contains name

/-- Names that no component has. -/
def reservedNames : List String :=
  ["constructor", "__proto__", "prototype"]

/-- The component of an entity. Ambient declarations and variables are none. -/
def component? (s : Source) (e : Entity) : Option Component :=
  match e.code with
  | none => none
  | some code =>
    if !isTopLevel e.node || e.kind == "variable" || reservedNames.contains (Text.lower e.name)
    then none
    else
      let id := componentId s e.name
      some { id := id, name := e.name, kind := e.kind, filePath := s.path,
             relativePath := s.relativePath, sourceCode := some code,
             startLine := s.startLine e.node, endLine := s.endLine e.node,
             parameters := some e.parameters, nodeType := some e.subkind,
             baseClasses := e.baseClasses, displayName := some e.displayName,
             componentId := some id }

/-- The components of a file. -/
def components (s : Source) (es : Entities) : List Component :=
  es.values.filterMap (component? s)

/-- What is known when relationships are looked for. -/
structure Context where
  entities : Entities
  /-- The names of the components. -/
  topLevel : List String

/-- The kinds of nodes that begin a component even inside another one. -/
def beginnings : List String :=
  ["function_declaration", "generator_function_declaration", "class_declaration",
    "abstract_class_declaration", "interface_declaration", "type_alias_declaration",
    "enum_declaration", "export_statement"]

/-- The name under which an export statement exports something. -/
def exportName (s : Source) (c : Cursor) : Except Fault (Option String) :=
  if (c.child? "default").isSome then
    match (c.child? "call_expression").bind (·.child? "identifier") with
    | some n => (s.text n).map some
    | none => .ok (some "default_export")
  else
    match c.child? "function_declaration", c.child? "class_declaration",
        c.child? "lexical_declaration" with
    | some f, _, _ => s.text? (f.child? "identifier")
    | none, some k, _ => s.text? (k.child? "type_identifier")
    | none, none, some l => s.text? (declaratorName? l)
    | none, none, none => .ok (some "unnamed_export")

/-- The name of what a node declares. -/
def declaredName (s : Source) (c : Cursor) : Except Fault (Option String) :=
  if ["function_declaration", "generator_function_declaration", "enum_declaration"].contains c.kind
  then s.text? (c.child? "identifier")
  else if ["class_declaration", "abstract_class_declaration", "interface_declaration",
      "type_alias_declaration"].contains c.kind then
    s.text? (className? c)
  else if c.kind = "export_statement" then exportName s c
  else if c.kind = "lexical_declaration" || c.kind = "variable_declaration" then
    s.text? (declaratorName? c)
  else .ok none

/-- The component that a node and its parts lie in, where `around` is the one its parent lies in. -/
def enclosing (s : Source) (k : Context) (around : Option String) (c : Cursor) :
    Except Fault (Option String) := do
  if around.isNone || beginnings.contains c.kind then
    match ← declaredName s c with
    | some name => .ok (if k.topLevel.contains name then some name else around)
    | none => .ok around
  else .ok around

/-- The relationship of a component with something. -/
def related (s : Source) (c : Cursor) (caller callee : String) : Relationship :=
  { caller := componentId s caller, callee := componentId s callee,
    line := some (s.startLine c) }

/-- The text of what is called. -/
def calleeName (s : Source) (c : Cursor) : Except Fault (Option String) :=
  match c.children with
  | callee :: _ =>
    if callee.kind = "identifier" || callee.kind = "member_expression" then
      (s.text callee).map some
    else .ok none
  | [] => .ok none

/-- The first class whose name contains a text. -/
def classLike? (es : Entities) (text : String) : Option String :=
  (es.entries.find? fun e => e.2.kind == "class" && Text.has e.1 text).map (·.1)

/-- Whether a call by a class is a call of a method that the class is named after. -/
def callsItself (k : Context) (caller callee code : String) : Bool :=
  (Text.has code "this." || Text.has code "super.") &&
    match classLike? k.entities caller, k.entities.get? callee with
    | some owner, some e => e.subkind == "method" && Text.has owner callee
    | _, _ => false

/-- Whether a call of a name leads out of the component: to another one, or out of the file. -/
def leadsOut (k : Context) (callee : String) : Bool :=
  k.topLevel.contains callee ||
    match k.entities.get? callee with
    | some e => isTopLevel e.node
    | none => true

/-- The relationship of a call. -/
def callAt (s : Source) (k : Context) (caller : String) (c : Cursor) :
    Except Fault (List Relationship) := do
  match nonEmpty (← calleeName s c) with
  | none => .ok []
  | some callee =>
    let code ← s.text c
    .ok (if !callsItself k caller callee code && leadsOut k callee then [related s c caller callee]
      else [])

/-- The relationship of a construction. -/
def constructionAt (s : Source) (caller : String) (c : Cursor) :
    Except Fault (List Relationship) := do
  let around := ["new", "type_arguments", "arguments"]
  let constructor? := c.children.find? fun d => !around.contains d.kind
  .ok ((nonEmpty (← s.text? constructor?)).map (related s c caller)).toList

/-- The relationship of a member access. -/
def memberAt (s : Source) (caller : String) (c : Cursor) : Except Fault (List Relationship) := do
  .ok ((nonEmpty (← s.text? (c.child? "property_identifier"))).map (related s c caller)).toList

/-- The type names below and including a node. -/
def typeIdentifiers (c : Cursor) : List Cursor :=
  (c.walked depthLimit).filter (·.kind = "type_identifier")

/-- The relationships of an annotated type with the types it names. -/
def annotationAt (s : Source) (k : Context) (caller : String) (c : Cursor) :
    Trail Fault Relationship :=
  Trail.each (typeIdentifiers c) fun t => Trail.given (s.text t) fun name =>
    if isBuiltinType name then Trail.none
    else if !k.entities.has name || k.topLevel.contains name then
      Trail.one (related s c caller name)
    else Trail.none

/-- The relationships with the components that some parts of a node name. -/
def namesAt (s : Source) (k : Context) (caller : String) (c : Cursor) (kinds : List String) :
    Trail Fault Relationship :=
  Trail.each (c.children.filter fun d => kinds.contains d.kind) fun d =>
    Trail.given (s.text d) fun name =>
      if k.entities.has name && k.topLevel.contains name then Trail.one (related s c caller name)
      else Trail.none

/-- The relationships that a node inside a component gives rise to, up to a text that cannot be
read. -/
def relationshipsAt (s : Source) (k : Context) (caller : String) (c : Cursor) :
    Trail Fault Relationship :=
  Trail.absorb (match c.kind with
    | "call_expression" => Trail.ofExcept (callAt s k caller c)
    | "new_expression" => Trail.ofExcept (constructionAt s caller c)
    | "member_expression" => Trail.ofExcept (memberAt s caller c)
    | "type_annotation" => annotationAt s k caller c
    | "type_arguments" => namesAt s k caller c ["type_identifier"]
    | "extends_clause" => namesAt s k caller c ["identifier", "type_identifier"]
    | "implements_clause" => namesAt s k caller c ["identifier", "type_identifier"]
    | _ => Trail.none)

/-- The component that a node lies in; none if its name cannot be read. -/
def handedDown (s : Source) (k : Context) (around : Option String) (c : Cursor) : Option String :=
  match enclosing s k around c with
  | .ok now => now
  | .error _ => none

/-- The relationships of a file in the order of a walk, up to a failure. -/
def relationships (s : Source) (k : Context) (root : Cursor) : Trail Fault Relationship :=
  Trail.each (root.walk (handedDown s k) none depthLimit) fun v =>
    Trail.given (enclosing s k v.value v.node) fun now =>
      match nonEmpty now with
      | some caller => relationshipsAt s k caller v.node
      | none => Trail.none

/-- The findings in a tree. If an entity cannot be read there are none. -/
def findings (s : Source) (root : Cursor) : Findings :=
  match entities s root with
  | .error _ => {}
  | .ok es =>
    let cs := components s es
    { components := cs, relationships := (relationships s ⟨es, cs.map (·.name)⟩ root).found }

/-- Analyse a TypeScript file. Whatever is missing, there are just no findings. -/
def analyze (parsers : Parsers) (file : SourceFile) : Findings :=
  match opened parsers "typescript" file with
  | .ok (s, root) => findings s root
  | .error _ => {}

end RepoAtlas.Extract.TypeScript
