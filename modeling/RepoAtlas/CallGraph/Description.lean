import RepoAtlas.CallGraph.Inventory
import RepoAtlas.Component.Reader

/-!
# Components from descriptions

A description is a JSON object with some of the fields of a component. Missing fields have defaults;
a field that is present has to have the right form.
-/

namespace RepoAtlas.Inventory

/-- A description that is not one of a component or a relationship. -/
inductive Malformed where
  /-- A field has the wrong form. -/
  | field (name : String)
  /-- A relationship refers to nothing. -/
  | reference
  deriving DecidableEq, Repr

/-- A text that has a default but is not null. -/
def textField (j : Json) (name default : String) : Except Malformed String :=
  match j.get? name with
  | none => .ok default
  | some (.str s) => .ok s
  | some _ => .error (.field name)

/-- A text that may be null and has a default. -/
def optionalField (j : Json) (name : String) (default : Option String) :
    Except Malformed (Option String) :=
  match j.get? name with
  | none => .ok default
  | some .null => .ok none
  | some (.str s) => .ok (some s)
  | some _ => .error (.field name)

/-- A number that is not null. -/
def countField (j : Json) (name : String) : Except Malformed Nat :=
  match j.get? name with
  | none => .ok 0
  | some (.int n) => .ok n.toNat
  | some _ => .error (.field name)

/-- A truth value that is not null. -/
def flagField (j : Json) (name : String) (default : Bool) : Except Malformed Bool :=
  match j.get? name with
  | none => .ok default
  | some (.bool b) => .ok b
  | some _ => .error (.field name)

/-- A list of texts that may be null and has a default. -/
def listField (j : Json) (name : String) (default : Option (List String)) :
    Except Malformed (Option (List String)) :=
  match j.get? name with
  | none => .ok default
  | some .null => .ok none
  | some (.arr xs) => .ok (some (xs.filterMap Json.str?))
  | some _ => .error (.field name)

/-- The kind of component that a description gives, which may also stand as the type of node. -/
def kindField (j : Json) : Except Malformed String :=
  if (j.get? "component_type").isSome then textField j "component_type" "function"
  else textField j "node_type" "function"

/-- The source that a description gives, possibly as a snippet. -/
def sourceField (j : Json) : Except Malformed (Option String) :=
  if (j.get? "source_code").isSome then optionalField j "source_code" (some "")
  else optionalField j "code_snippet" (some "")

/-- The features that a description gives a component. -/
def withFeatures (c : Component) (j : Json) : Except Malformed Component := do
  match ← listField j "implements_interfaces" (some []) with
  | none => .error (.field "implements_interfaces")
  | some interfaces =>
    .ok { c with
      implementsInterfaces := interfaces
      spawnsGoroutines := ← flagField j "spawns_goroutines" false
      usesChannels := ← flagField j "uses_channels" false
      usesSelect := ← flagField j "uses_select" false
      returnsError := ← flagField j "returns_error" false
      hasDefers := ← flagField j "has_defers" false
      hasPanic := ← flagField j "has_panic" false
      isExported := ← flagField j "is_exported" false }

/-- The component that a description is of. -/
def described (j : Json) : Except Malformed Component := do
  let doc := (← optionalField j "docstring" (some "")).getD ""
  let c : Component :=
    { id := ← textField j "id" "", name := ← textField j "name" "", kind := ← kindField j
      filePath := ← textField j "file_path" "", relativePath := ← textField j "relative_path" ""
      sourceCode := ← sourceField j, startLine := ← countField j "start_line"
      endLine := ← countField j "end_line"
      hasDocstring := ← flagField j "has_docstring" (doc != ""), docstring := doc
      parameters := ← listField j "parameters" (some [])
      nodeType := ← optionalField j "node_type" (some "function")
      baseClasses := ← listField j "base_classes" none
      className := ← optionalField j "class_name" none
      displayName := ← optionalField j "display_name" (some "") }
  withFeatures c j

/-- Whether a description names a component. -/
def isNamed (j : Json) : Bool :=
  match j.get? "id" with
  | some (.str s) => s != ""
  | _ => false

/-- The components of descriptions up to the first that is malformed. Descriptions without an
identifier are skipped. -/
def describedAll : List Json → List Component × Option Malformed
  | [] => ([], none)
  | j :: js =>
    if isNamed j then
      match described j with
      | .error e => ([], some e)
      | .ok c =>
        let (cs, e) := describedAll js
        (c :: cs, e)
    else describedAll js

/-- A relationship that a description gives. -/
def describedRelationship (j : Json) : Relationship :=
  { caller := (j.field "caller").str?.getD "", callee := (j.field "callee").str?.getD ""
    resolved := (j.field "is_resolved").bool?.getD false }

/-- Whether a described relationship refers to something, if only by an empty name. -/
def refers (j : Json) : Bool :=
  match j.get? "callee" with
  | some .null => false
  | _ => true

/-- Take in described results. If a description is malformed, only what stands before it is taken
in. -/
def addDescribed (inv : Inventory) (batch : Json) : Inventory × Option Malformed :=
  match describedAll (batch.field "functions").items with
  | (cs, some e) => (inv.addComponents cs, some e)
  | (cs, none) =>
    let all := (batch.field "relationships").items
    (inv.add cs ((all.takeWhile refers).map describedRelationship),
      if all.all refers then none else some .reference)

/-- Kinds of nodes that are kinds of components as well. -/
def typeKinds : List String :=
  ["class", "interface", "struct", "enum", "record", "abstract class", "annotation", "delegate"]

/-- Whether a value counts as true. -/
def isTrue : Json → Bool
  | .null => false
  | .bool b => b
  | .int n => n != 0
  | .float x => x != 0.0
  | .str s => s != ""
  | .arr xs => !xs.isEmpty
  | .obj ms => !ms.isEmpty

/-- The kind of component that a described node is. -/
def kindOfNode (j : Json) : String :=
  if isTrue (j.field "is_method") then "method"
  else
    match (j.field "node_type").str? with
    | some t => if typeKinds.contains t then t else "function"
    | none => "function"

end RepoAtlas.Inventory
