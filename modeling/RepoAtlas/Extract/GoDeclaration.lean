import RepoAtlas.Extract.Declared
import RepoAtlas.Extract.GoType

/-!
# Declarations in Go files

Functions, methods, structures and interfaces are components. A method belongs to its receiver
type; the comment lines above a declaration are its documentation; the body of a function tells
whether it starts goroutines, uses channels, defers or panics.
-/

namespace RepoAtlas.Extract.Go

open Syntax

/-- The dotted name of a Go file. -/
def moduleName (s : Source) : String :=
  s.moduleName [".go"]

/-- The identifier of a component; that of a method goes through its receiver type. -/
def componentId (s : Source) (name : String) (receiver : Option String) : String :=
  match receiver with
  | some r => moduleName s ++ "." ++ r ++ "." ++ name
  | none => qualify (moduleName s) name

/-- How deep declarations and calls are looked for. -/
def depthLimit : Nat := 100

/-- How deep the body of a function is looked into. -/
def bodyLimit : Nat := 50

/-- Documentation read upwards from the line above a node; `found` are the comment lines below. A
blank line ends the comment once it has begun. -/
def commentAbove (found : List String) : List (Option String) → List String
  | [] => found
  | none :: above => commentAbove found above
  | some line :: above =>
    let text := Text.strip line
    if Text.begins text "//" then commentAbove (Text.strip (Text.dropFirst text 2) :: found) above
    else if text = "" then if found.isEmpty then commentAbove found above else found
    else found

/-- The lines above a row, nearest first: at most nineteen of them, and never the first line of the
file. A row beyond the lines of the file has no line. -/
def linesAbove (lines : List String) (row : Nat) : List (Option String) :=
  (List.range (row - 1 - (row - 20))).map fun i => lines[row - 1 - i]?

/-- The documentation of what begins on a row. -/
def docstring (lines : List String) (row : Nat) : String :=
  Text.join "\n" (commentAbove [] (linesAbove lines row))

/-- The receiver type that a parameter declaration names: by its last part that names one, or else
by its whole text. -/
def receiverOfParameter (s : Source) (c : Cursor) : Except Fault (Option String) := do
  let parts := c.children.reverse.filter fun d => d.kind != "identifier" && d.kind != ","
  match ← firstOf parts fun d => do .ok (receiverName? (← s.text d)) with
  | some r => .ok (some r)
  | none => .ok (receiverName? (← s.text c))

/-- The receiver type of a method declaration. -/
def receiverType (s : Source) (c : Cursor) : Except Fault (Option String) :=
  match c.child? "parameter_list" with
  | none => .ok none
  | some l => firstOf (l.children.filter (·.kind = "parameter_declaration")) (receiverOfParameter s)

/-- The name of the receiver variable of a method declaration. -/
def receiverVariable (s : Source) (c : Cursor) : Except Fault (Option String) :=
  match c.child? "parameter_list" with
  | none => .ok none
  | some l =>
    s.text? (((l.children.filter (·.kind = "parameter_declaration")).flatMap
      (·.children)).find? (·.kind = "identifier"))

/-- The parts of a function after its receiver list. -/
def afterReceiver (c : Cursor) : List Cursor :=
  if c.kind = "method_declaration" && (c.child? "parameter_list").isSome then
    (c.children.dropWhile (·.kind != "parameter_list")).drop 1
  else c.children

/-- The texts of several nodes. -/
def texts (s : Source) (nodes : List Cursor) : Except Fault (List String) :=
  collect nodes fun d => do .ok [← s.text d]

/-- The text of the last of several nodes. All of them have to be readable. -/
def lastText (s : Source) (nodes : List Cursor) : Except Fault (Option String) := do
  .ok (← texts s nodes).getLast?

/-- The names and the type text of a parameter declaration, where `kinds` are the kinds of type
nodes that count. -/
def parameterParts (s : Source) (kinds : List String) (c : Cursor) :
    Except Fault (List String × Option String) := do
  let names ← texts s (c.children.filter (·.kind = "identifier"))
  let type ← lastText s (c.children.filter fun d => kinds.contains d.kind)
  .ok (names, type)

/-- The parameters of a function as they are shown: each name with its type. -/
def parameters (s : Source) (c : Cursor) : Except Fault (Option (List String)) := do
  let lists := (afterReceiver c).filter (·.kind = "parameter_list")
  let declarations := lists.flatMap fun l => l.children.filter (·.kind = "parameter_declaration")
  let shown ← collect declarations fun d => do
    let (names, type) ← parameterParts s ["type_identifier", "qualified_type", "pointer_type",
      "slice_type", "map_type", "chan_type"] d
    .ok (names.map fun n => match nonEmpty type with
      | some t => n ++ " " ++ t
      | none => n)
  .ok (if shown.isEmpty then none else some shown)

/-- The parts of a function between its last parameter list and its body. -/
def resultNodes (c : Cursor) : List Cursor :=
  if (c.child? "parameter_list").isSome then
    ((c.children.reverse.takeWhile (·.kind != "parameter_list")).reverse).takeWhile
      (·.kind != "block")
  else []

/-- The bare names of the result types of a function. -/
def returnTypes (s : Source) (c : Cursor) : Except Fault (List String) := do
  let kinds := ["type_identifier", "qualified_type", "pointer_type", "slice_type", "map_type"]
  .ok ((← texts s ((resultNodes c).filter fun d => kinds.contains d.kind)).map baseType)

/-- Note what a node in the body of a function tells about the function. -/
def noteBody (s : Source) (f : Component) (c : Cursor) : Except Fault Component := do
  if c.kind = "go_statement" then .ok { f with spawnsGoroutines := true }
  else if c.kind = "select_statement" then .ok { f with usesSelect := true }
  else if ["send_statement", "receive_statement", "channel_type"].contains c.kind then
    .ok { f with usesChannels := true }
  else if c.kind = "defer_statement" then .ok { f with hasDefers := true }
  else if c.kind = "call_expression" then
    match c.children with
    | callee :: _ =>
      if callee.kind = "identifier" then
        let name ← s.text callee
        .ok (if name = "panic" then { f with hasPanic := true } else f)
      else .ok f
    | [] => .ok f
  else .ok f

/-- Note what the body of a function tells about it. -/
def noteBodies (s : Source) (f : Component) : List Cursor → Except Fault Component
  | [] => .ok f
  | c :: cs => do
    let f ← noteBody s f c
    noteBodies s f cs

/-- The component of a function or method with a name. -/
def functionComponent (s : Source) (c : Cursor) (kind name : String) (receiver : Option String) :
    Except Fault Component := do
  let id := componentId s name receiver
  let doc := docstring s.lines (s.startRow c)
  let shown := match receiver with
    | some r => r ++ "." ++ name
    | none => name
  let parameters ← parameters s c
  let returns ← returnTypes s c
  let f : Component :=
    { declared s c id kind name with
      hasDocstring := doc != "", docstring := doc, parameters := parameters,
      className := receiver, displayName := some (kind ++ " " ++ shown),
      isExported := isExported name, returnsError := returns.any fun t => baseType t = "error" }
  match c.child? "block" with
  | some body => noteBodies s f (body.within bodyLimit)
  | none => .ok f

/-- The component of a structure or an interface. The whole type declaration is its text. -/
def typeComponent (s : Source) (c : Cursor) (kind name : String) : Component :=
  let doc := docstring s.lines (s.startRow c)
  { declared s c (componentId s name none) kind name with
    hasDocstring := doc != "", docstring := doc, isExported := isExported name }

/-- Whether the first specification of a type declaration is a structure or an interface. -/
def typeKind? (spec : Cursor) : Option String :=
  if (spec.child? "struct_type").isSome then some "struct"
  else if (spec.child? "interface_type").isSome then some "interface"
  else none

/-- What a node declares, with the names under which the file remembers it. -/
def declaredAt (s : Source) (c : Cursor) : Except Fault (List (Component × List String)) := do
  if c.kind = "function_declaration" then
    match nonEmpty (← s.text? (c.child? "identifier")) with
    | none => .ok []
    | some name => .ok [(← functionComponent s c "function" name none, [name])]
  else if c.kind = "method_declaration" then
    let name? ← s.text? (c.child? "field_identifier")
    let receiver ← receiverType s c
    match nonEmpty name? with
    | none => .ok []
    | some name =>
      let names := match receiver with
        | some r => [name, r ++ "." ++ name]
        | none => [name]
      .ok [(← functionComponent s c "method" name receiver, names)]
  else if c.kind = "type_declaration" then
    match c.child? "type_spec" with
    | none => .ok []
    | some spec =>
      match nonEmpty (← s.text? (spec.child? "type_identifier")), typeKind? spec with
      | some name, some kind => .ok [(typeComponent s c kind name, [name])]
      | _, _ => .ok []
  else .ok []

/-- Everything that a file declares, in order, up to a failure. -/
def declarations (s : Source) (root : Cursor) : Trail Fault (Component × List String) :=
  Trail.each (root.within depthLimit) fun c => Trail.ofExcept (declaredAt s c)

/-- The table of declared names. -/
def remembered (found : List (Component × List String)) : Declarations :=
  Keyed.ofList (found.flatMap fun (c, names) => names.map fun n => (n, c))

end RepoAtlas.Extract.Go
