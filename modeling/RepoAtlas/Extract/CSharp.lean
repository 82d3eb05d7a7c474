import RepoAtlas.Extract.Declared

/-!
# Components of C# files

Classes, interfaces, structures, enumerations, records and delegates are components. A class is
related to those of its bases that the file declares, and a type to the types of its properties,
fields and method parameters.
-/

namespace RepoAtlas.Extract.CSharp

open Syntax

/-- The dotted name of a C# file. -/
def moduleName (s : Source) : String :=
  s.moduleName [".cs"]

/-- Types that come with the language or its base library. -/
def builtinTypes : List String :=
  ["bool", "byte", "sbyte", "char", "decimal", "double", "float", "int", "uint", "long", "ulong",
    "short", "ushort", "string", "object", "void", "Boolean", "Byte", "SByte", "Char", "Decimal",
    "Double", "Single", "Int32", "UInt32", "Int64", "UInt64", "Int16", "UInt16", "String", "Object",
    "Void", "List", "Dictionary", "IList", "IDictionary", "IEnumerable", "ICollection", "Task",
    "CancellationToken", "DateTime", "TimeSpan", "Guid"]

/-- Whether a type comes with the language or its base library. -/
def isBuiltinType (name : String) : Bool :=
  builtinTypes.contains name

/-- The kinds of nodes that declare a type. -/
def typeDeclarations : List String :=
  ["class_declaration", "interface_declaration", "struct_declaration", "enum_declaration",
    "record_declaration", "delegate_declaration"]

/-- The first plain name after a keyword among the parts of a node. -/
def nameAfter? (keyword : String) (c : Cursor) : Option Cursor :=
  (c.children.dropWhile (·.kind != keyword)).find? (·.kind = "identifier")

/-- The kind of a class by its modifiers; `static` counts before `abstract`. -/
def classKind (s : Source) (c : Cursor) : Except Fault String := do
  let modifiers := c.children.filter (·.kind = "modifier")
  let isAbstract ← anyText s (Text.has · "abstract") modifiers
  let isStatic ← anyText s (Text.has · "static") modifiers
  .ok (if isStatic then "static class" else if isAbstract then "abstract class" else "class")

/-- What a node declares: its kind and the node that names it. -/
def declaration? (s : Source) (c : Cursor) : Except Fault (Option (String × Cursor)) := do
  if c.kind = "class_declaration" then
    let kind ← classKind s c
    .ok ((nameAfter? "class" c).map (kind, ·))
  else if c.kind = "interface_declaration" then
    .ok ((nameAfter? "interface" c).map ("interface", ·))
  else if c.kind = "struct_declaration" then .ok ((nameAfter? "struct" c).map ("struct", ·))
  else if c.kind = "enum_declaration" then .ok ((nameAfter? "enum" c).map ("enum", ·))
  else if c.kind = "record_declaration" then .ok ((nameAfter? "record" c).map ("record", ·))
  else if c.kind = "delegate_declaration" then
    .ok ((c.child? "identifier").map ("delegate", ·))
  else .ok none

/-- The component that a node declares, if its name is not empty. -/
def componentAt (s : Source) (c : Cursor) : Except Fault (List Component) := do
  match ← declaration? s c with
  | none => .ok []
  | some (kind, nameNode) =>
    let name ← s.text nameNode
    .ok (if name = "" then [] else [declared s c (qualify (moduleName s) name) kind name])

/-- The first plain name among the parts of a node. -/
def plainName (s : Source) (c : Cursor) : Except Fault (Option String) :=
  s.text? (c.child? "identifier")

/-- The name of a declaration: the plain name after the keyword of a class, interface or structure,
or else the first plain name. -/
def declaredName (s : Source) (c : Cursor) : Except Fault (Option String) :=
  let after := match c.kind with
    | "class_declaration" => nameAfter? "class" c
    | "interface_declaration" => nameAfter? "interface" c
    | "struct_declaration" => nameAfter? "struct" c
    | _ => none
  match after with
  | some n => (s.text n).map some
  | none => plainName s c

/-- The name that a type node stands for. -/
def typeName (s : Source) (c : Cursor) : Except Fault (Option String) :=
  if c.kind = "identifier" || c.kind = "predefined_type" then (s.text c).map some
  else if c.kind = "generic_name" then plainName s c
  else .ok none

/-- The name of the nearest type around a node that the file declares. -/
def containingType (s : Source) (table : Declarations) (c : Cursor) :
    Except Fault (Option String) :=
  firstOf c.ancestors fun a => do
    if typeDeclarations.contains a.kind then
      match nonEmpty (← declaredName s a) with
      | some name => .ok (if table.has name then some name else none)
      | none => .ok none
    else .ok none

/-- The relationship of a type with the type that a node names, unless that is built in. -/
def usesType (s : Source) (c : Cursor) (owner : String) (type? : Option Cursor) :
    Except Fault (List Relationship) := do
  match nonEmpty (← s.text? type?) with
  | none => .ok []
  | some type =>
    .ok (if isBuiltinType type then []
      else [{ caller := qualify (moduleName s) owner, callee := type,
              line := some (s.startLine c) }])

/-- The relationships of a class with the bases that the file declares. -/
def inheritsAt (s : Source) (table : Declarations) (c : Cursor) :
    Except Fault (List Relationship) := do
  match nonEmpty (← declaredName s c), c.child? "base_list" with
  | some name, some bases =>
    collect (bases.children.filter (·.kind = "identifier")) fun d => do
      let base ← s.text d
      .ok (if table.has base then
        [{ caller := qualify (moduleName s) name, callee := qualify (moduleName s) base,
           line := some (s.startLine c), resolved := true }]
        else [])
  | _, _ => .ok []

/-- The relationships that a node gives rise to. -/
def relationshipsAt (s : Source) (table : Declarations) (c : Cursor) :
    Except Fault (List Relationship) := do
  let owner? ← containingType s table c
  if c.kind = "class_declaration" then inheritsAt s table c
  else
    match owner? with
    | none => .ok []
    | some owner =>
      if c.kind = "property_declaration" then
        match c.children.filter (·.kind = "identifier") with
        | type :: _ :: _ => usesType s c owner (some type)
        | _ => .ok []
      else if c.kind = "field_declaration" then usesType s c owner (c.child? "identifier")
      else if c.kind = "method_declaration" then
        match c.child? "parameter_list" with
        | none => .ok []
        | some parameters =>
          collect (parameters.children.filter (·.kind = "parameter")) fun p =>
            usesType s c owner (p.child? "identifier")
      else .ok []

/-- The findings in a tree. -/
def findings (s : Source) (root : Cursor) : Except Fault Findings := do
  let all ← collect root.preorder (componentAt s)
  let table := Keyed.ofList (all.map fun d => (d.name, d))
  let relationships ← collect root.preorder (relationshipsAt s table)
  .ok { components := all, relationships := relationships }

/-- Analyse a C# file. -/
def analyze (parsers : Parsers) (file : SourceFile) : Except Fault Findings := do
  let (s, root) ← opened parsers "csharp" file
  findings s root

end RepoAtlas.Extract.CSharp
