import RepoAtlas.Extract.Declared
import RepoAtlas.Extract.TypeComment

/-!
# Components of JavaScript files

Classes and functions are components; methods are only remembered, to tell calls of a class to itself. A call, a
construction, a base class or a type named in a comment is related to what is around it. An analysis that fails
on the way keeps what it has found.
-/

namespace RepoAtlas.Extract.JavaScript

open Syntax

/-- The dotted name of a JavaScript file. -/
def moduleName (s : Source) : String :=
  s.moduleName [".js", ".ts", ".jsx", ".tsx", ".mjs", ".cjs"]

/-- The identifier of what has a name in the file. -/
def componentId (s : Source) (name : String) : String :=
  moduleName s ++ "." ++ name

/-- The kinds of nodes that declare a class. -/
def classKinds : List String :=
  ["class_declaration", "abstract_class_declaration", "interface_declaration"]

/-- The node that names a class. -/
def classNameNode? (c : Cursor) : Option Cursor :=
  (c.child? "type_identifier").orElse fun _ => c.child? "identifier"

/-- A reading that fails counts as one that finds nothing. -/
def lenient {α : Type} : Except Fault (Option α) → Option α
  | .ok a => a
  | .error _ => none

/-- The name of the nearest class around a node that has one. -/
def containingClass (s : Source) (c : Cursor) : Except Fault (Option String) :=
  s.text? ((c.ancestors.filter fun a => classKinds.contains a.kind).findSome? classNameNode?)

/-- The plain name of the nearest class declaration around a node that has one. -/
def declaringClass (s : Source) (c : Cursor) : Except Fault (Option String) :=
  s.text? ((c.ancestors.filter (·.kind = "class_declaration")).findSome? (·.child? "identifier"))

/-- The name that an assignment gives a value to. -/
def assignedName (s : Source) (c : Cursor) : Except Fault (Option String) :=
  if c.kind = "identifier" then (s.text c).map some
  else if c.kind = "member_expression" then s.text? (c.child? "property_identifier")
  else .ok none

/-- The name of a method definition. -/
def methodName (s : Source) (c : Cursor) : Except Fault (Option String) :=
  if c.kind = "method_definition" then s.text? (c.child? "property_identifier") else .ok none

/-- The name of a field definition. -/
def fieldName (s : Source) (c : Cursor) : Except Fault (Option String) :=
  if c.kind = "field_definition" then s.text? (c.child? "property_identifier") else .ok none

/-- The names in the heritage clause of a class. -/
def heritage (c : Cursor) : List Cursor :=
  match c.child? "class_heritage" with
  | some h => h.children.filter fun d => d.kind = "identifier" || d.kind = "type_identifier"
  | none => []

/-- The component of a class. -/
def classComponent (s : Source) (c : Cursor) : Except Fault (Option Component) := do
  match ← s.text? (classNameNode? c) with
  | none => .ok none
  | some name =>
    let bases ← collect (heritage c) fun b => do .ok [← s.text b]
    let kind := if c.kind = "abstract_class_declaration" then "abstract class"
      else if c.kind = "interface_declaration" then "interface"
      else "class"
    .ok (some { declared s c (componentId s name) kind name with
      baseClasses := if bases.isEmpty then none else some bases })

/-- The names of the parameters of a function. -/
def parameters (s : Source) (c : Cursor) : Except Fault (List String) :=
  match c.child? "formal_parameters" with
  | some l => collect (l.children.filter (·.kind = "identifier")) fun p => do .ok [← s.text p]
  | none => .ok []

/-- What kind of function a text declares, in words. -/
def functionWords (code name : String) : String :=
  let asynchronous := Text.has code "async function"
  let generator := Text.has code "function*" || Text.has name "*"
  if asynchronous && generator then "async generator"
  else if asynchronous then "async function"
  else if generator then "generator function"
  else "function"

/-- The component of a function, where `body` gives the lines and `whole` the text. -/
def functionAt (s : Source) (name : String) (body whole : Cursor) : Except Fault Component := do
  let parameters ← parameters s body
  let code ← s.text whole
  .ok { declared s body (componentId s name) "function" name with
    sourceCode := some code, parameters := some parameters }

/-- The component of a function declaration. -/
def functionComponent (s : Source) (c : Cursor) : Except Fault (Option Component) := do
  match ← s.text? (c.child? "identifier") with
  | none => .ok none
  | some name =>
    let f ← functionAt s name c c
    .ok (some { f with
      displayName := some (functionWords (f.sourceCode.getD "") name ++ " " ++ name) })

/-- The component of an exported function. An unnamed default export is named `default`. -/
def exportedFunction (s : Source) (c : Cursor) : Except Fault (Option Component) := do
  match (c.child? "function_declaration").bind fun d => lenient (functionComponent s d) with
  | none => .ok none
  | some f =>
    let code ← s.text c
    .ok (some (if Text.has code "export default" && Text.has code "function ("
      then { f with name := "default" } else f))

/-- The name and the function of a declarator that assigns a function. -/
def functionDeclarator? (c : Cursor) : Option (Cursor × Cursor) :=
  if c.kind = "variable_declarator" then
    match c.child? "identifier",
        (c.child? "arrow_function").orElse fun _ => c.child? "function_expression" with
    | some name, some f => some (name, f)
    | _, _ => none
  else none

/-- The component of the first function that a declaration assigns. -/
def assignedFunction (s : Source) (c : Cursor) : Except Fault (Option Component) := do
  match c.children.findSome? fun d => (functionDeclarator? d).map fun p => (d, p) with
  | none => .ok none
  | some (whole, nameNode, body) =>
    let name ← s.text nameNode
    .ok (some (← functionAt s name body whole))

/-- Something that the file declares, under the name it is remembered by. -/
structure Entry where
  key : String
  component : Component
  /-- Whether it is a component of the file. -/
  listed : Bool := true

/-- A component that is remembered by its name. -/
def listed : Option Component → Trail Fault Entry
  | some f => Trail.one { key := f.name, component := f }
  | none => Trail.none

/-- A method that is remembered by its class and its name. -/
def methodEntry (s : Source) (c : Cursor) (owner name : String) : Entry :=
  let id := componentId s (owner ++ "." ++ name)
  { key := id, component := { declared s c id "method" name with className := some owner },
    listed := false }

/-- The methods of a class, and its fields that hold functions. -/
def methodEntries (s : Source) (c : Cursor) (owner : String) : Trail Fault Entry :=
  match c.child? "class_body" with
  | none => Trail.none
  | some body => Trail.each body.children fun d => Trail.ofExcept do
      if d.kind = "method_definition" then
        .ok (((nonEmpty (← methodName s d)).map (methodEntry s d owner)).toList)
      else if d.kind = "field_definition" then
        let name ← fieldName s d
        .ok (if (d.child? "arrow_function").isSome
          then ((nonEmpty name).map (methodEntry s d owner)).toList else [])
      else .ok []

/-- What a node declares. A function inside a class is no declaration. -/
def entriesAt (s : Source) (c : Cursor) : Trail Fault Entry :=
  if classKinds.contains c.kind then
    match lenient (classComponent s c) with
    | some d => listed (some d) ++ methodEntries s c d.name
    | none => Trail.none
  else if c.kind = "function_declaration" || c.kind = "generator_function_declaration" then
    Trail.given (containingClass s c) fun owner =>
      if owner.isNone then listed (lenient (functionComponent s c)) else Trail.none
  else if c.kind = "export_statement" then listed (lenient (exportedFunction s c))
  else if c.kind = "lexical_declaration" then
    Trail.given (containingClass s c) fun owner =>
      if owner.isNone then listed (lenient (assignedFunction s c)) else Trail.none
  else Trail.none

/-- Everything that a file declares, in order, up to a failure. -/
def entries (s : Source) (root : Cursor) : Trail Fault Entry :=
  Trail.each root.preorder (entriesAt s)

/-- What the file remembers. -/
def remembered (found : List Entry) : Declarations :=
  Keyed.ofList (found.map fun e => (e.key, e.component))

/-- The components of the file. -/
def components (found : List Entry) : List Component :=
  (found.filter (·.listed)).map (·.component)

/-- The name that a call or construction uses. -/
def calleeName (s : Source) (c : Cursor) : Except Fault (Option String) :=
  match c.children with
  | [] => .ok none
  | callee :: _ =>
    if callee.kind = "identifier" then (s.text callee).map some
    else if callee.kind = "member_expression" then
      s.text? ((callee.child? "property_identifier").orElse fun _ =>
        (callee.child? "computed_property_name").bind (·.child? "identifier"))
    else if callee.kind = "super" then .ok (some "super")
    else if callee.kind = "this" then .ok (some "this")
    else .ok none

/-- The relationship of the class or function around a node with something. -/
def related (s : Source) (c : Cursor) (caller callee : String) (resolved : Bool) : Relationship :=
  { caller := componentId s caller, callee := componentId s callee,
    line := some (s.startLine c), resolved := resolved }

/-- The first class whose remembered name contains a text. -/
def classLike? (table : Declarations) (text : String) : Option Component :=
  (table.entries.find? fun e => e.2.kind == "class" && Text.has e.1 text).map (·.2)

/-- The relationship of a call. A class that calls a method of its own has none. -/
def callRelationship (s : Source) (table : Declarations) (caller : String) (c : Cursor) :
    Except Fault (Option Relationship) := do
  match nonEmpty (← calleeName s c) with
  | none => .ok none
  | some callee =>
    let code ← s.text c
    let own := if Text.has code "this." || Text.has code "super." then
        (nonEmpty ((classLike? table caller).map (·.name))).map fun k =>
          table.has (componentId s (k ++ "." ++ callee))
      else none
    .ok (if own = some true then none
      else some (related s c caller callee (table.has callee)))

/-- The relationships that a documentation comment gives rise to. -/
def commentRelationships (s : Source) (caller comment : String) (line : Int) : List Relationship :=
  (TypeComment.referenced comment).map fun t =>
    { caller := componentId s caller, callee := componentId s t, line := some line }

/-- The relationships with types named in the comments before and directly inside a node, up to one
that cannot be read. -/
def commentsAt (s : Source) (caller : String) (c : Cursor) : Trail Fault Relationship :=
  let before := (c.previous?.filter (·.kind = "comment")).toList
  let inside := c.tree.children.filter (·.kind = "comment")
  Trail.absorb (Trail.each (before ++ inside) fun t =>
    Trail.given (s.textOf t) fun comment =>
      Trail.many (commentRelationships s caller comment (s.startLine c)))

/-- The class or function that the parts of a node lie in, where `around` is the one that the node
itself lies in. -/
def topLevel (s : Source) (around : Option String) (c : Cursor) : Except Fault (Option String) := do
  let named : List Cursor :=
    if classKinds.contains c.kind then (classNameNode? c).toList
    else if c.kind = "function_declaration" || c.kind = "generator_function_declaration" then
      (c.child? "identifier").toList
    else if c.kind = "lexical_declaration" then
      c.children.filterMap fun d => (functionDeclarator? d).map (·.1)
    else []
  let names ← collect named fun n => do .ok [← s.text n]
  .ok (names.getLast?.orElse fun _ => around)

/-- The relationships of a class with its bases. -/
def baseRelationships (s : Source) (c : Cursor) (name : String) : Trail Fault Relationship :=
  if classKinds.contains c.kind && (classNameNode? c).isSome then
    Trail.each (heritage c) fun b => Trail.given (s.text b) fun base =>
      Trail.one (related s c name base false)
  else Trail.none

/-- The relationship that a call, an awaited call or a construction gives rise to. -/
def useRelationship (s : Source) (table : Declarations) (caller : String) (c : Cursor) :
    Trail Fault Relationship :=
  if c.kind = "call_expression" then
    Trail.many (lenient (callRelationship s table caller c)).toList
  else if c.kind = "await_expression" then
    Trail.many (((c.child? "call_expression").bind fun d =>
      lenient (callRelationship s table caller d)).toList)
  else if c.kind = "new_expression" then
    Trail.given (calleeName s c) fun callee =>
      Trail.many ((nonEmpty callee).map fun n => related s c caller n false).toList
  else Trail.none

/-- The relationships that a node gives rise to, where `around` is the class or function that it
lies in. -/
def relationshipsAt (s : Source) (table : Declarations) (around : Option String) (c : Cursor) :
    Trail Fault Relationship :=
  let comments := match nonEmpty around with
    | some caller => commentsAt s caller c
    | none => Trail.none
  comments ++ Trail.given (topLevel s around c) fun now =>
    baseRelationships s c (now.getD "") ++
      match nonEmpty now with
      | some caller => useRelationship s table caller c
      | none => Trail.none

/-- The relationships of a file in order, up to a failure. -/
def relationships (s : Source) (table : Declarations) (root : Cursor) :
    Trail Fault Relationship :=
  Trail.each
    (root.inherit (fun around c => lenient (topLevel s around c)) none)
    fun (around, c) => relationshipsAt s table around c

/-- Whether two relationships have the same ends and the same line. -/
def sameUse (r q : Relationship) : Bool :=
  r.caller == q.caller && r.callee == q.callee && r.line == q.line

/-- Of relationships with the same ends and the same line, keep the first. -/
def distinctUses (rs : List Relationship) : List Relationship :=
  rs.eraseDupsBy sameUse

/-- The findings in a tree. Components are ordered by their first line once all are found. -/
def findings (s : Source) (root : Cursor) : Findings :=
  let found := entries s root
  if found.failure.isSome then { components := components found.found }
  else
    { components := (components found.found).mergeSort fun a b => a.startLine ≤ b.startLine
      relationships := distinctUses (relationships s (remembered found.found) root).found }

/-- Analyse a JavaScript file. Whatever is missing, there are just no findings. -/
def analyze (parsers : Parsers) (file : SourceFile) : Findings :=
  match opened parsers "javascript" file with
  | .ok (s, root) => findings s root
  | .error _ => {}

end RepoAtlas.Extract.JavaScript
