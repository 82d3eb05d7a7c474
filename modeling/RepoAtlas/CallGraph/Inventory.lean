import RepoAtlas.CallGraph.Basic

/-!
# The inventory of components

An inventory holds each component with those it depends on. What a relationship refers to is found by
identifier, by file and name, by type and method, or by a bare name in the directory of the caller.
-/

namespace RepoAtlas

/-- Components and the modules that they stand in. -/
structure Inventory where
  components : Components := Keyed.empty
  modules : List String := []

namespace Inventory

/-- The module of an identifier, if it has one. -/
def moduleOf? (id : String) : Option String :=
  (Text.beforeLast? '.' id).filter (· != "")

/-- Take in a component. One without an identifier is left out. -/
def addComponent (inv : Inventory) (c : Component) : Inventory :=
  if c.id = "" then inv
  else
    { components := inv.components.insert c.id { c with componentId := some c.id, dependsOn := [] }
      modules := inv.modules ++ (moduleOf? c.id).toList }

/-- The names by which the components of one analysis are known: their identifiers and their files with
their names. The last component with a name counts. -/
def nameTable (functions : List Component) : List (String × String) :=
  ((functions.filter (·.id != "")).flatMap fun c =>
    [(c.id, c.id), (c.filePath ++ ":" ++ c.name, c.id)]).reverse

/-- The first component with a type and a method name. -/
def methodOf? (inv : Inventory) (name : String) : Option String :=
  match Text.beforeLast? '.' name with
  | none => none
  | some type => (inv.components.entries.find? fun (_, c) =>
      c.name = Text.afterLast '.' name && c.className = some type).map (·.1)

/-- The first component with a name in a directory. -/
def neighbour? (inv : Inventory) (directory name : String) : Option String :=
  (inv.components.entries.find? fun (_, c) =>
    c.name = name && CallGraph.directoryOf c = directory).map (·.1)

/-- The component that a relationship refers to. -/
def callee? (inv : Inventory) (table : List (String × String)) (caller : Option String)
    (name : String) : Option String :=
  (table.lookup name).orElse fun _ =>
    (inv.methodOf? name).orElse fun _ =>
      let directory := ((caller.bind inv.components.get?).map CallGraph.directoryOf).getD ""
      inv.neighbour? directory name

/-- A component that depends on another. -/
def depending (id : String) (c : Component) : Component :=
  if c.dependsOn.contains id then c else { c with dependsOn := c.dependsOn ++ [id] }

/-- Take in a relationship. -/
def addRelationship (table : List (String × String)) (inv : Inventory) (r : Relationship) :
    Inventory :=
  let caller := table.lookup r.caller
  match caller, inv.callee? table caller r.callee with
  | some a, some b => { inv with components := inv.components.modify a (depending b) }
  | _, _ => inv

/-- Take in components. -/
def addComponents (inv : Inventory) (functions : List Component) : Inventory :=
  functions.foldl addComponent inv

/-- Take in the results of an analysis. -/
def add (inv : Inventory) (functions : List Component) (relationships : List Relationship) :
    Inventory :=
  relationships.foldl (addRelationship (nameTable functions)) (inv.addComponents functions)

end Inventory

end RepoAtlas
