import RepoAtlas.Extract.Declared
import RepoAtlas.Extract.PhpName

/-!
# Components of PHP files

Classes, interfaces, traits, enumerations, functions and methods are components, named in the namespace of the
file. Templates are not analysed. An analysis that fails on the way keeps what it has found.
-/

namespace RepoAtlas.Extract.Php

open Syntax

/-- How deep a tree is looked at. -/
def depthLimit : Nat := 100

/-- Whether a path is that of a template. -/
def isTemplate (path : String) : Bool :=
  [".blade.php", ".phtml", ".twig.php"].any (Text.ends path) ||
    ["views", "templates", "resources/views"].any fun d =>
      Text.has path ("/" ++ d ++ "/") || Text.has path ("\\" ++ d ++ "\\")

/-- The dotted name of a PHP file. -/
def moduleName (s : Source) : String :=
  s.moduleName [".php", ".phtml", ".inc"]

/-- The identifier of what has a name in the file: in its namespace, or else in its module. -/
def componentId (s : Source) (names : Names) (name : String) : String :=
  (if names.current = "" then moduleName s else dotted names.current) ++ "." ++ name

/-- The name that an import clause imports, with the node of its alias. -/
def clauseParts (clause : Cursor) (nameNode : Option Cursor) : Option (Cursor × Option Cursor) :=
  nameNode.map fun n =>
    (n, (clause.child? "namespace_aliasing_clause").bind (·.child? "name"))

/-- The node that names what a plain import clause imports. -/
def importedName? (clause : Cursor) : Option Cursor :=
  (clause.child? "qualified_name").orElse fun _ => clause.child? "namespace_name"

/-- A name in a group, behind the part in front of the group. -/
def grouped (front name : String) : String :=
  if front = "" then name else front ++ "\\" ++ name

/-- The names that a group imports, with their aliases, where the declaration gives the part in front
of them. -/
def groupImports (s : Source) (declaration group : Cursor) :
    Except Fault (List (String × Option String)) := do
  let front := (← s.text? (declaration.child? "namespace_name")).getD ""
  let clauses := group.children.filter (·.kind = "namespace_use_group_clause")
  collect clauses fun clause => do
    match clauseParts clause (clause.child? "namespace_name") with
    | none => .ok []
    | some (n, a) =>
      let name ← s.text n
      .ok [(grouped front name, ← s.text? a)]

/-- The name that a plain clause imports, with its alias. -/
def clauseImports (s : Source) (clause : Cursor) :
    Except Fault (List (String × Option String)) := do
  match clauseParts clause (importedName? clause) with
  | none => .ok []
  | some (n, a) => .ok [(← s.text n, ← s.text? a)]

/-- What an import declaration imports: the first group, or else all plain clauses. -/
def importsAt (s : Source) (c : Cursor) : Except Fault (List (String × Option String)) :=
  match c.child? "namespace_use_group" with
  | some group => groupImports s c group
  | none => collect (c.children.filter (·.kind = "namespace_use_clause")) (clauseImports s)

/-- Note what a node tells about names. -/
def noteNames (s : Source) (names : Names) (c : Cursor) : Except Fault Names := do
  if c.kind = "namespace_definition" then
    match ← s.text? (c.child? "namespace_name") with
    | some space => .ok (names.declare space)
    | none => .ok names
  else if c.kind = "namespace_use_declaration" then
    .ok ((← importsAt s c).foldl (fun n (name, alias?) => n.use name alias?) names)
  else .ok names

/-- The names that a list of nodes makes known. -/
def namesOf (s : Source) (names : Names) : List Cursor → Except Fault Names
  | [] => .ok names
  | c :: cs => do
    let names ← noteNames s names c
    namesOf s names cs

/-- The comment that ends on line `i`, if it begins at most forty-nine lines above and not on the
first line of the file. -/
def commentEndingAt (lines : List String) (i : Nat) : Option String :=
  let above := (List.range (i - (i - 50))).map fun k => (lines[i - k]?).getD ""
  let inside := above.takeWhile fun l => !Text.has l "/**"
  match above.drop inside.length with
  | first :: _ => some (Text.join "\n" (first :: inside.reverse))
  | [] => none

/-- The comment above, where the lines at the given places are looked at in turn. A line of code ends
the search. -/
def commentAbove (lines : List String) : List Nat → String
  | [] => ""
  | i :: above =>
    let line := Text.strip ((lines[i]?).getD "")
    if Text.ends line "*/" then
      match commentEndingAt lines i with
      | some comment => comment
      | none => commentAbove lines above
    else if line != "" && !Text.begins line "*" && !Text.begins line "/**" then ""
    else commentAbove lines above

/-- The documentation of a node: the comment before it, or one on the nine lines above it. -/
def docstring (s : Source) (c : Cursor) : Except Fault String := do
  let row := s.startRow c
  if row = 0 then .ok ""
  else
    let before ← match c.previousNamed?.filter (·.kind = "comment") with
      | some t => (s.textOf t).map some
      | none => .ok none
    match before.filter (Text.begins · "/**") with
    | some comment => .ok comment
    | none =>
      .ok (commentAbove s.lines ((List.range (row - 1 - (row - 10))).map fun k => row - 1 - k))

/-- The kinds of nodes that declare a type. -/
def typeDeclarations : List String :=
  ["class_declaration", "interface_declaration", "trait_declaration", "enum_declaration"]

/-- The name of the nearest type around a node that has one. -/
def containingType (s : Source) (c : Cursor) : Except Fault (Option String) :=
  s.text? ((c.ancestors.filter fun a => typeDeclarations.contains a.kind).findSome?
    (·.child? "name"))

/-- The name of a declaration. -/
def plainName (s : Source) (c : Cursor) : Except Fault (Option String) :=
  s.text? (c.child? "name")

/-- Whether a class is abstract. Modifiers are looked at up to the one that says so. -/
def isAbstract (s : Source) : List Cursor → Except Fault Bool
  | [] => .ok false
  | c :: cs => do
    if c.kind = "abstract_modifier" then .ok true
    else if c.kind = "modifier" then
      if (← s.text c) = "abstract" then .ok true else isAbstract s cs
    else isAbstract s cs

/-- The name of a method, through the type that it belongs to. -/
def methodName (s : Source) (owner : Option String) (c : Cursor) :
    Except Fault (Option String) := do
  match ← plainName s c with
  | none => .ok none
  | some name =>
    let owner ← match owner with
      | some o => .ok (some o)
      | none => containingType s c
    match nonEmpty owner with
    | some o => .ok (some (o ++ "." ++ name))
    | none => .ok (some name)

/-- What a node declares: its kind and its name, where `owner` is the type it is declared in. -/
def declaration (s : Source) (owner : Option String) (c : Cursor) :
    Except Fault (Option (String × String)) := do
  let kind? ← match c.kind with
    | "class_declaration" => do
      .ok (some (if ← isAbstract s c.children then "abstract class" else "class"))
    | "interface_declaration" => .ok (some "interface")
    | "trait_declaration" => .ok (some "trait")
    | "enum_declaration" => .ok (some "enum")
    | "function_definition" => .ok (some "function")
    | "method_declaration" => .ok (some "method")
    | _ => .ok none
  match kind? with
  | none => .ok none
  | some kind =>
    let name? ← if kind = "method" then methodName s owner c else plainName s c
    .ok ((nonEmpty name?).map fun name => (kind, name))

/-- The type that the parts of a node are declared in. -/
def ownerBelow (s : Source) (owner : Option String) (c : Cursor) : Option String :=
  match declaration s owner c with
  | .ok (some (kind, name)) => if kind = "function" || kind = "method" then owner else some name
  | _ => owner

/-- The parameters of a function, each with its type. -/
def parameters (s : Source) (c : Cursor) : Except Fault (Option (List String)) := do
  match c.child? "formal_parameters" with
  | none => .ok none
  | some l =>
    let kinds := ["simple_parameter", "property_promotion_parameter", "variadic_parameter"]
    let shown ← collect (l.children.filter fun p => kinds.contains p.kind) fun p => do
      match ← s.text? (p.child? "variable_name") with
      | none => .ok []
      | some name =>
        let type ← s.text? ((p.child? "named_type").orElse fun _ => p.child? "primitive_type")
        .ok [match type with
          | some t => t ++ " " ++ name
          | none => name]
    .ok (if shown.isEmpty then none else some shown)

/-- The names in a clause. -/
def clauseNames (c : Cursor) (kind : String) : List Cursor :=
  match c.child? kind with
  | some clause => clause.children.filter fun d => d.kind = "name" || d.kind = "qualified_name"
  | none => []

/-- The bases and interfaces of a class. -/
def baseClasses (s : Source) (c : Cursor) : Except Fault (Option (List String)) := do
  let names := clauseNames c "base_clause" ++ clauseNames c "class_interface_clause"
  let bases ← collect names fun n => do .ok [← s.text n]
  .ok (if bases.isEmpty then none else some bases)

/-- The component that a node declares. The documentation of every node has to be readable. -/
def componentAt (s : Source) (names : Names) (owner : Option String) (c : Cursor) :
    Except Fault (List Component) := do
  let doc ← docstring s c
  match ← declaration s owner c with
  | none => .ok []
  | some (kind, name) =>
    let parameters ← if kind = "function" || kind = "method" then parameters s c else .ok none
    let bases ← if kind = "class" || kind = "abstract class" then baseClasses s c else .ok none
    .ok [{ declared s c (componentId s names name) kind name with
           hasDocstring := doc != "", docstring := doc, parameters := parameters,
           baseClasses := bases, className := owner }]

/-- The components of a file in order, up to a failure. -/
def components (s : Source) (names : Names) (root : Cursor) : Trail Fault Component :=
  let nodes := (root.inherit (fun (d, owner) c => (d + 1, ownerBelow s owner c)) (0, none)).filter
    fun ((d, _), _) => d ≤ depthLimit
  Trail.each nodes fun ((_, owner), c) => Trail.ofExcept (componentAt s names owner c)

/-- The relationship of a type with another one, unless that is built in. -/
def typeUse (s : Source) (names : Names) (c : Cursor) (owner type : String) : List Relationship :=
  if isBuiltinType type then []
  else [{ caller := componentId s names owner, callee := dotted (names.resolve type),
          line := some (s.startLine c) }]

/-- The relationship of the type around a node with a type that the node names. -/
def useInType (s : Source) (names : Names) (c : Cursor) (type : Option Cursor)
    (read : Cursor → Except Fault String) : Except Fault (List Relationship) := do
  match type, nonEmpty (← containingType s c) with
  | some t, some owner => .ok (typeUse s names c owner (← read t))
  | _, _ => .ok []

/-- The name that a construction or a static call goes by. -/
def usedName? (c : Cursor) : Option Cursor :=
  (c.child? "name").orElse fun _ => c.child? "qualified_name"

/-- The relationship of a construction. The type that it names has to be readable anywhere. -/
def constructionAt (s : Source) (names : Names) (c : Cursor) :
    Except Fault (List Relationship) := do
  let owner ← containingType s c
  match ← s.text? (usedName? c), nonEmpty owner with
  | some type, some o => .ok (typeUse s names c o type)
  | _, _ => .ok []

/-- The name of a named type: by its name, or else its whole text. -/
def namedType (s : Source) (c : Cursor) : Except Fault String :=
  s.text ((usedName? c).getD c)

/-- The name of the first named type of a type node, or else its whole text. -/
def typeName (s : Source) (c : Cursor) : Except Fault String :=
  if c.kind = "type_list" then
    match c.child? "named_type" with
    | some t => namedType s t
    | none => s.text c
  else namedType s c

/-- The relationship of a file with a name that a declaration imports. -/
def imported (s : Source) (c : Cursor) (name : String) : Relationship :=
  { caller := moduleName s, callee := dotted name, line := some (s.startLine c) }

/-- The relationships of a file with what an import declaration imports. -/
def importRelationships (s : Source) (c : Cursor) : Trail Fault Relationship :=
  Trail.each c.children fun d =>
    if d.kind = "namespace_use_clause" then
      Trail.given (s.text? (importedName? d)) fun name =>
        Trail.many (name.map (imported s c)).toList
    else if d.kind = "namespace_use_group" then
      Trail.given (s.text? (c.child? "namespace_name")) fun front =>
        Trail.each (d.children.filter (·.kind = "namespace_use_group_clause")) fun clause =>
          Trail.given (s.text? (clause.child? "namespace_name")) fun name =>
            Trail.many (name.map fun n => imported s c (grouped (front.getD "") n)).toList
    else Trail.none

/-- The relationship of a class with its base. -/
def baseAt (s : Source) (names : Names) (c : Cursor) : Except Fault (List Relationship) := do
  match nonEmpty (← plainName s c) with
  | none => .ok []
  | some name =>
    match ← s.text? (clauseNames c "base_clause").head? with
    | some base => .ok (typeUse s names c name base)
    | none => .ok []

/-- The relationships of a class or an enumeration with its interfaces. -/
def interfacesAt (s : Source) (names : Names) (c : Cursor) : Trail Fault Relationship :=
  Trail.given (plainName s c) fun name =>
    match nonEmpty name with
    | none => Trail.none
    | some n => Trail.each (clauseNames c "class_interface_clause") fun i =>
        Trail.given (s.text i) fun type => Trail.many (typeUse s names c n type)

/-- The relationships that a node gives rise to. -/
def relationshipsAt (s : Source) (names : Names) (c : Cursor) : Trail Fault Relationship :=
  match c.kind with
  | "namespace_use_declaration" => importRelationships s c
  | "class_declaration" => Trail.ofExcept (baseAt s names c) ++ interfacesAt s names c
  | "enum_declaration" => interfacesAt s names c
  | "object_creation_expression" => Trail.ofExcept (constructionAt s names c)
  | "scoped_call_expression" => Trail.ofExcept (useInType s names c (usedName? c) s.text)
  | "property_promotion_parameter" =>
    Trail.ofExcept (useInType s names c
      ((c.child? "type_list").orElse fun _ => c.child? "named_type") (typeName s))
  | _ => Trail.none

/-- The relationships of a file in order, up to a failure. -/
def relationships (s : Source) (names : Names) (root : Cursor) : Trail Fault Relationship :=
  Trail.each (root.within depthLimit) (relationshipsAt s names)

/-- The findings in a tree. -/
def findings (s : Source) (root : Cursor) : Findings :=
  match namesOf s {} (root.within depthLimit) with
  | .error _ => {}
  | .ok names =>
    let found := components s names root
    { components := found.found
      relationships :=
        if found.failure.isSome then [] else (relationships s names root).found }

/-- Analyse a PHP file. Only a missing path is a fault. -/
def analyze (parsers : Parsers) (file : SourceFile) : Except Fault Findings := do
  let path ← file.tidyPath
  if isTemplate path then .ok {}
  else
    match opened parsers "php" file with
    | .ok (s, root) => .ok (findings s root)
    | .error _ => .ok {}

end RepoAtlas.Extract.Php
