import RepoAtlas.Extract.Declared

/-!
# Components of C++ files

Classes, structures and free functions are components; methods, global variables and namespaces
are only remembered. A call is related to the first class whose text seems to declare the called
method, or else to the function of that name.
-/

namespace RepoAtlas.Extract.Cpp

open Syntax

/-- The dotted name of a C++ file. -/
def moduleName (s : Source) : String :=
  s.moduleName [".cpp", ".cc", ".cxx", ".hpp", ".h"]

/-- Names of the system library. -/
def systemNames : List String :=
  ["printf", "scanf", "malloc", "free", "strlen", "strcpy", "strcmp", "cout", "cin", "endl", "std",
    "new", "delete"]

/-- Whether a name belongs to the system library. -/
def isSystemName (name : String) : Bool :=
  systemNames.contains name

/-- The identifier of a component of the file. -/
def componentId (s : Source) (name : String) : String :=
  qualify (moduleName s) name

/-- The identifier of a method. -/
def methodId (s : Source) (className name : String) : String :=
  qualify (moduleName s) (className ++ "." ++ name)

/-- The nearest class or structure with a name around a node, by the node that names it. -/
def classAround? (kinds : List String) (c : Cursor) : Option Cursor :=
  c.ancestors.findSome? fun a =>
    if kinds.contains a.kind then a.child? "type_identifier" else none

/-- The name of the class or structure around a method. -/
def classOfMethod (s : Source) (c : Cursor) : Except Fault (Option String) :=
  s.text? (classAround? ["class_specifier", "struct_specifier"] c)

/-- The name of the class around a node. -/
def containingClass (s : Source) (c : Cursor) : Except Fault (Option String) :=
  s.text? (classAround? ["class_specifier"] c)

/-- The node that names a function definition: a plain name, a member name, or the last part of a
qualified name. -/
def definitionName? (c : Cursor) : Option Cursor :=
  (c.child? "function_declarator").bind fun d =>
    d.children.findSome? fun e =>
      if e.kind = "identifier" || e.kind = "field_identifier" then some e
      else if e.kind = "qualified_identifier" then
        (e.children.filter (·.kind = "identifier")).getLast?
      else none

/-- The node that names the variable of a declaration. -/
def variableName? (c : Cursor) : Option Cursor :=
  c.children.findSome? fun d =>
    if d.kind = "init_declarator" then d.child? "identifier"
    else if d.kind = "identifier" then some d
    else none

/-- Whether a declaration lies in no function and no class. -/
def isGlobal (c : Cursor) : Bool :=
  (c.enclosing? ["function_definition", "class_specifier", "struct_specifier"]).isNone

/-- The node that names a namespace: the first plain name after the keyword. -/
def namespaceName? (c : Cursor) : Option Cursor :=
  (c.children.dropWhile (·.kind != "namespace")).find? (·.kind = "identifier")

/-- What a node declares: its kind and the node that names it. The kind of a function definition
depends on the name of the class around it, which may be empty. -/
def declaration? (s : Source) (c : Cursor) : Except Fault (Option (String × Cursor)) := do
  if c.kind = "class_specifier" then .ok ((c.child? "type_identifier").map ("class", ·))
  else if c.kind = "struct_specifier" then .ok ((c.child? "type_identifier").map ("struct", ·))
  else if c.kind = "function_definition" then
    let owner ← classOfMethod s c
    let kind := if owner.getD "" = "" then "function" else "method"
    .ok ((definitionName? c).map (kind, ·))
  else if c.kind = "declaration" then
    .ok (if isGlobal c then (variableName? c).map ("variable", ·) else none)
  else if c.kind = "namespace_definition" then .ok ((namespaceName? c).map ("namespace", ·))
  else .ok none

/-- What a node declares, with the name under which the file remembers it: a method by its
identifier, anything else by its name. -/
def declaredAt (s : Source) (c : Cursor) : Except Fault (List (String × Component)) := do
  match ← declaration? s c with
  | none => .ok []
  | some (kind, nameNode) =>
    let name ← s.text nameNode
    if name = "" then .ok []
    else if kind = "method" then
      let owner ← classOfMethod s c
      let id := methodId s (owner.getD "") name
      .ok [(id, { declared s c id kind name with className := owner })]
    else .ok [(name, declared s c (componentId s name) kind name)]

/-- Everything that a file declares, in order, by the name under which it is remembered. -/
def declarations (s : Source) (root : Cursor) : Except Fault (List (String × Component)) :=
  collect root.preorder (declaredAt s)

/-- The name of the nearest function around a node that has a plain name. -/
def functionAround (s : Source) (c : Cursor) : Except Fault (Option String) :=
  s.text? (c.ancestors.findSome? fun a =>
    if a.kind = "function_definition" then
      (a.child? "function_declarator").bind (·.child? "identifier")
    else none)

/-- The name of the nearest function around a node that has a plain name among `names`. -/
def knownFunctionAround (s : Source) (names : List String) (c : Cursor) :
    Except Fault (Option String) :=
  firstOf c.ancestors fun a => do
    if a.kind = "function_definition" then
      match ← s.text? ((a.child? "function_declarator").bind (·.child? "identifier")) with
      | some name => .ok (if names.contains name then some name else none)
      | none => .ok none
    else .ok none

/-- The identifier of the function with a name: through its class if it is remembered with one. -/
def functionId (s : Source) (table : Declarations) (name : String) : String :=
  match (table.get? name).bind (·.className) with
  | some owner => if owner = "" then componentId s name else methodId s owner name
  | none => componentId s name

/-- Whether a line of the class's text seems to declare the method: it calls for the method's name
and an opening parenthesis, and for a result type or the name of the class. -/
def declaresMethod (cls : Component) (method : String) : Bool :=
  (Text.split '\n' (cls.sourceCode.getD "")).any fun line =>
    Text.has line (method ++ "(") &&
      (Text.has line "void" || Text.has line "int" || Text.has line "bool" ||
        Text.has line cls.name)

/-- The first remembered class or structure that seems to declare a method. -/
def classWithMethod? (table : Declarations) (method : String) : Option String :=
  (table.entries.find? fun (_, d) =>
    (d.kind = "class" || d.kind = "struct") && declaresMethod d method).map (·.1)

/-- The name of the called function. An empty member name does not count, so the search goes on
after it. -/
def calledName (s : Source) (c : Cursor) : Except Fault (Option String) :=
  firstOf c.children fun d => do
    if d.kind = "identifier" then (s.text d).map some
    else if d.kind = "field_expression" then
      match ← s.text? (d.child? "field_identifier") with
      | some name => .ok (if name = "" then none else some name)
      | none => .ok none
    else .ok none

/-- The relationship of a call. -/
def callAt (s : Source) (table : Declarations) (c : Cursor) : Except Fault (List Relationship) := do
  match ← functionAround s c with
  | none => .ok []
  | some caller =>
    if caller = "" then .ok []
    else
      match ← calledName s c with
      | none => .ok []
      | some name =>
        if name = "" || isSystemName name then .ok []
        else
          let edge (callee : String) : Relationship :=
            { caller := functionId s table caller, callee := componentId s callee,
              line := some (s.startLine c) }
          match classWithMethod? table name with
          | some owner => .ok [edge owner]
          | none => .ok (if table.has name then [edge name] else [])

/-- The relationships of a class with its bases. -/
def inheritsAt (s : Source) (c : Cursor) : Except Fault (List Relationship) := do
  match ← containingClass s c with
  | none => .ok []
  | some owner =>
    if owner = "" then .ok []
    else collect (c.children.filter (·.kind = "type_identifier")) fun d => do
      let base ← s.text d
      .ok [{ caller := componentId s owner, callee := base, line := some (s.startLine c),
             kind := "inherits" }]

/-- The relationship of an object creation. -/
def createsAt (s : Source) (table : Declarations) (c : Cursor) :
    Except Fault (List Relationship) := do
  match ← functionAround s c with
  | none => .ok []
  | some caller =>
    if caller = "" then .ok []
    else
      match ← s.text? (c.child? "type_identifier") with
      | none => .ok []
      | some name =>
        .ok (if table.has name then
          [{ caller := functionId s table caller, callee := componentId s name,
             line := some (s.startLine c), kind := "creates" }]
          else [])

/-- The relationship of a mentioned global variable. -/
def usesAt (s : Source) (table : Declarations) (c : Cursor) : Except Fault (List Relationship) := do
  match c.parent with
  | none => .ok []
  | some p =>
    if ["function_definition", "class_specifier", "declaration", "function_declarator"].contains
        p.kind then .ok []
    else
      let name ← s.text c
      match table.get? name with
      | none => .ok []
      | some target =>
        if target.kind != "variable" then .ok []
        else
          match ← functionAround s c with
          | none => .ok []
          | some caller =>
            .ok (if caller = "" || caller = name then []
              else [{ caller := functionId s table caller, callee := name,
                      line := some (s.startLine c), kind := "uses" }])

/-- The relationships that a node gives rise to. -/
def relationshipsAt (s : Source) (table : Declarations) (c : Cursor) :
    Except Fault (List Relationship) :=
  if c.kind = "call_expression" then callAt s table c
  else if c.kind = "base_class_clause" then inheritsAt s c
  else if c.kind = "new_expression" then createsAt s table c
  else if c.kind = "identifier" then usesAt s table c
  else .ok []

/-- The findings in a tree. -/
def findings (s : Source) (root : Cursor) : Except Fault Findings := do
  let all ← declarations s root
  let table := Keyed.ofList all
  let relationships ← collect root.preorder (relationshipsAt s table)
  .ok { components := (all.map (·.2)).filter fun d => ["class", "struct", "function"].contains d.kind,
        relationships := relationships }

/-- Analyse a C++ file. -/
def analyze (parsers : Parsers) (file : SourceFile) : Except Fault Findings := do
  let (s, root) ← opened parsers "cpp" file
  findings s root

end RepoAtlas.Extract.Cpp
