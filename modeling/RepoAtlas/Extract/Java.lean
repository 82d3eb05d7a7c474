import RepoAtlas.Extract.Declared

/-!
# Components of Java files

Classes, interfaces, enumerations, records, annotation types and methods are components; a method
is named after its class. Types are related to their bases, interfaces and field types, and a call
on a variable is related to the type that the variable is declared with.
-/

namespace RepoAtlas.Extract.Java

open Syntax

/-- The identifier of a component of the file. -/
def componentId (s : Source) (name : String) : String :=
  s.moduleName [".java"] ++ "." ++ name

/-- Types that come with the language or its base library. -/
def builtinTypes : List String :=
  ["boolean", "byte", "char", "double", "float", "int", "long", "short", "Boolean", "Byte",
    "Character", "Double", "Float", "Integer", "Long", "Short", "String", "Object", "List", "Set",
    "Map", "Collection", "Optional", "void", "Void"]

/-- Whether a type comes with the language or its base library. -/
def isBuiltinType (name : String) : Bool :=
  builtinTypes.contains name

/-- The first plain name among the parts of a node. -/
def plainName (s : Source) (c : Cursor) : Except Fault (Option String) :=
  s.text? (c.child? "identifier")

/-- The name of the nearest class, interface, enumeration or record around a node. -/
def className (s : Source) (c : Cursor) : Except Fault (Option String) :=
  s.text? (c.ancestors.findSome? fun a =>
    if ["class_declaration", "interface_declaration", "enum_declaration",
        "record_declaration"].contains a.kind then a.child? "identifier"
    else none)

/-- The kind of a node that declares a type. -/
def typeKind (s : Source) (c : Cursor) : Except Fault (Option String) := do
  if c.kind = "class_declaration" then
    let isAbstract ← anyText s (· = "abstract") (c.children.filter (·.kind = "modifier"))
    .ok (some (if isAbstract then "abstract class" else "class"))
  else if c.kind = "interface_declaration" then .ok (some "interface")
  else if c.kind = "enum_declaration" then .ok (some "enum")
  else if c.kind = "record_declaration" then .ok (some "record")
  else if c.kind = "annotation_type_declaration" then .ok (some "annotation")
  else .ok none

/-- What a node declares: its kind and its name. -/
def declaration? (s : Source) (c : Cursor) : Except Fault (Option (String × String)) := do
  if c.kind = "method_declaration" then
    match ← plainName s c with
    | none => .ok none
    | some name =>
      match nonEmpty (← className s c) with
      | some owner => .ok (some ("method", owner ++ "." ++ name))
      | none => .ok (some ("method", name))
  else
    match ← typeKind s c with
    | none => .ok none
    | some kind => .ok ((← plainName s c).map (kind, ·))

/-- The component that a node declares, if its name is not empty. -/
def componentAt (s : Source) (c : Cursor) : Except Fault (List Component) := do
  match ← declaration? s c with
  | none => .ok []
  | some (kind, name) =>
    .ok (if name = "" then [] else [declared s c (componentId s name) kind name])

/-- The name that a type node stands for. -/
def typeName (s : Source) (c : Cursor) : Except Fault (Option String) :=
  if c.kind = "type_identifier" then (s.text c).map some
  else if c.kind = "generic_type" || c.kind = "superclass" then s.text? (c.child? "type_identifier")
  else .ok none

/-- The identifier of the nearest type around a node that the file declares. -/
def containingType (s : Source) (table : Declarations) (c : Cursor) :
    Except Fault (Option String) :=
  firstOf c.ancestors fun a => do
    if ["class_declaration", "interface_declaration", "enum_declaration", "record_declaration",
        "annotation_type_declaration"].contains a.kind then
      match nonEmpty (← plainName s a) with
      | some name => .ok (if table.has name then some (componentId s name) else none)
      | none => .ok none
    else .ok none

/-- The identifier of the nearest method around a node that has a name and lies in a class with a
name. -/
def containingMethod (s : Source) (c : Cursor) : Except Fault (Option String) :=
  firstOf c.ancestors fun a => do
    if a.kind = "method_declaration" then
      let name ← plainName s a
      let owner ← className s a
      match nonEmpty name, nonEmpty owner with
      | some name, some owner => .ok (some (componentId s (owner ++ "." ++ name)))
      | _, _ => .ok none
    else .ok none

/-- Whether a kind of node names a type. -/
def isTypeNode (kind : String) : Bool :=
  kind = "type_identifier" || kind = "generic_type"

/-- If a declaration declares the variable `name`: the name of its type, which may be missing. The
last type and the last declarator of the declaration count. -/
def declaredType (s : Source) (name : String) (c : Cursor) :
    Except Fault (Option (Option String)) := do
  let type? := (c.children.filter fun d => isTypeNode d.kind).getLast?
  let name? := (c.children.filter (·.kind = "variable_declarator")).getLast?.bind
    (·.child? "identifier")
  match name?, type? with
  | some nameNode, some type =>
    if (← s.text nameNode) = name then .ok (some (← typeName s type)) else .ok none
  | _, _ => .ok none

mutual
/-- The type of a variable by the declarations in a block and the blocks inside it. -/
def searchBlock (s : Source) (name : String) : Tree → Except Fault (Option String)
  | ⟨_, _, _, _, parts⟩ => searchParts s name parts

/-- The type of a variable by the first declaration of it among the parts of a block. A block
inside that gives no type is passed over. -/
def searchParts (s : Source) (name : String) : List Tree → Except Fault (Option String)
  | [] => .ok none
  | t :: rest => do
    if t.kind = "local_variable_declaration" then
      match ← declaredType s name (Cursor.ofTree t) with
      | some type => .ok type
      | none => searchParts s name rest
    else if t.kind = "block" then
      match nonEmpty (← searchBlock s name t) with
      | some type => .ok (some type)
      | none => searchParts s name rest
    else searchParts s name rest
end

/-- The type of a variable by the declarations in the method around a node. -/
def localType (s : Source) (name : String) (c : Cursor) : Except Fault (Option String) :=
  match c.enclosing? ["method_declaration"] with
  | none => .ok none
  | some method =>
    firstOf (method.children.filter (·.kind = "block")) fun block => do
      .ok (nonEmpty (← searchBlock s name block.tree))

/-- The type of a variable by the first field of that name in the class around a node. -/
def fieldType (s : Source) (name : String) (c : Cursor) : Except Fault (Option String) := do
  match c.enclosing? ["class_declaration"] with
  | none => .ok none
  | some cls =>
    let fields := (cls.children.filter (·.kind = "class_body")).flatMap fun body =>
      body.children.filter (·.kind = "field_declaration")
    match ← firstOf fields (declaredType s name) with
    | some type => .ok type
    | none => .ok none

/-- The type that a variable is declared with, as seen from a node: a local variable counts before a
field. -/
def variableType (s : Source) (name : String) (c : Cursor) : Except Fault (Option String) := do
  match ← localType s name c with
  | some type => .ok (some type)
  | none => fieldType s name c

/-- The relationship with a type by its bare name, unless it is built in or has no name. -/
def usesType (s : Source) (c : Cursor) (caller : String) (type : Option String) :
    List Relationship :=
  match nonEmpty type with
  | none => []
  | some t =>
    if isBuiltinType t then [] else [{ caller := caller, callee := t, line := some (s.startLine c) }]

/-- The relationship of a class with the class it extends. -/
def extendsAt (s : Source) (c : Cursor) : Except Fault (List Relationship) := do
  let name ← plainName s c
  match c.child? "superclass" with
  | none => .ok []
  | some base =>
    let baseName ← typeName s base
    match nonEmpty name, nonEmpty baseName with
    | some name, some baseName =>
      .ok (if isBuiltinType baseName then []
        else [{ caller := componentId s name, callee := componentId s baseName,
                line := some (s.startLine c) }])
    | _, _ => .ok []

/-- The relationships of a type with the interfaces it implements. -/
def implementsAt (s : Source) (c : Cursor) : Except Fault (List Relationship) := do
  let name ← plainName s c
  match c.child? "super_interfaces", nonEmpty name with
  | some interfaces, some name =>
    let types := (interfaces.children.filter (·.kind = "type_list")).flatMap fun l =>
      l.children.filter fun t => isTypeNode t.kind
    collect types fun t => do
      match nonEmpty (← typeName s t) with
      | none => .ok []
      | some i =>
        .ok (if isBuiltinType i then []
          else [{ caller := componentId s name, callee := componentId s i,
                  line := some (s.startLine c) }])
  | _, _ => .ok []

/-- The relationship of a type with a type that a part of the node names. -/
def mentionsAt (s : Source) (table : Declarations) (c : Cursor) :
    Except Fault (List Relationship) := do
  match ← containingType s table c, c.childIn? ["type_identifier", "generic_type"] with
  | some owner, some type => .ok (usesType s c owner (← typeName s type))
  | _, _ => .ok []

/-- The object and the method of a call of the form `object.method(...)`. -/
def calledOn (s : Source) (c : Cursor) : Except Fault (Option (String × String)) := do
  match c.children with
  | object :: rest =>
    if object.kind != "identifier" then .ok none
    else
      let objectName ← s.text object
      match rest with
      | _ :: method :: _ =>
        if method.kind != "identifier" then .ok none
        else
          let methodName ← s.text method
          .ok (if objectName = "" || methodName = "" then none
            else some (objectName, methodName))
      | _ => .ok none
  | [] => .ok none

/-- The relationship of a call with the type of the object it is made on. -/
def callAt (s : Source) (table : Declarations) (c : Cursor) : Except Fault (List Relationship) := do
  let owner? ← containingType s table c
  let method? ← containingMethod s c
  match owner? with
  | none => .ok []
  | some owner =>
    match ← calledOn s c with
    | none => .ok []
    | some (object, _) =>
      let type ← if table.has object then .ok (some object) else variableType s object c
      .ok (usesType s c (method?.getD owner) type)

/-- The relationships that a node gives rise to. -/
def relationshipsAt (s : Source) (table : Declarations) (c : Cursor) :
    Except Fault (List Relationship) := do
  if c.kind = "class_declaration" then .ok ((← extendsAt s c) ++ (← implementsAt s c))
  else if c.kind = "enum_declaration" || c.kind = "record_declaration" then implementsAt s c
  else if c.kind = "field_declaration" || c.kind = "object_creation_expression" then
    mentionsAt s table c
  else if c.kind = "method_invocation" then callAt s table c
  else .ok []

/-- The findings in a tree. -/
def findings (s : Source) (root : Cursor) : Except Fault Findings := do
  let all ← collect root.preorder (componentAt s)
  let table := Keyed.ofList (all.map fun d => (d.name, d))
  let relationships ← collect root.preorder (relationshipsAt s table)
  .ok { components := all, relationships := relationships }

/-- Analyse a Java file. -/
def analyze (parsers : Parsers) (file : SourceFile) : Except Fault Findings := do
  let (s, root) ← opened parsers "java" file
  findings s root

end RepoAtlas.Extract.Java
