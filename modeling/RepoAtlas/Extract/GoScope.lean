import RepoAtlas.Extract.GoDeclaration

/-!
# What the types of a Go file tell

The declarations at the top of a file tell the fields of structures, the methods of interfaces and receivers,
and the signatures of functions. From these the types of variables are guessed. A method is recorded as its name
and its number of parameter declarations.
-/

namespace RepoAtlas.Extract.Go

open Syntax

/-- The types of the parameters of a function and its result types. -/
structure Signature where
  parameters : List (String × String)
  returns : List String
  deriving Repr

/-- A fact about the types of a file. -/
inductive TypeFact where
  /-- A structure begins, as yet without fields. -/
  | struct (name : String)
  | field (owner name type : String)
  /-- An interface begins, as yet without methods. -/
  | interface (name : String)
  | required (interface signature : String)
  /-- A type is the receiver of some method. -/
  | receiver (name : String)
  | method (receiver signature : String)
  | function (name : String) (signature : Signature)
  deriving Repr

/-- The facts about a file, put in order. -/
structure TypeContext where
  fields : Keyed (Keyed String) := .empty
  signatures : Keyed Signature := .empty
  /-- The methods that an interface asks for. -/
  interfaces : Keyed (List String) := .empty
  /-- The methods that a receiver type has. -/
  structs : Keyed (List String) := .empty
  deriving Inhabited

/-- Add a text to a set. -/
def addTo (set : List String) (x : String) : List String :=
  if set.contains x then set else set ++ [x]

/-- Take a fact into account. A structure or an interface that begins again starts anew. -/
def TypeContext.note (k : TypeContext) : TypeFact → TypeContext
  | .struct name => { k with fields := k.fields.insert name .empty }
  | .field owner name type =>
    let known := (k.fields.get? owner).getD .empty
    { k with fields := k.fields.insert owner (known.insert name type) }
  | .interface name => { k with interfaces := k.interfaces.insert name [] }
  | .required name signature =>
    let known := (k.interfaces.get? name).getD []
    { k with interfaces := k.interfaces.insert name (addTo known signature) }
  | .receiver name =>
    { k with structs := k.structs.insert name ((k.structs.get? name).getD []) }
  | .method name signature =>
    let known := (k.structs.get? name).getD []
    { k with structs := k.structs.insert name (addTo known signature) }
  | .function name signature => { k with signatures := k.signatures.insert name signature }

/-- The context that a list of facts gives. -/
def TypeContext.ofFacts (facts : List TypeFact) : TypeContext :=
  facts.foldl TypeContext.note {}

/-- How a method is recorded: by its name and its number of parameter declarations. -/
def methodSignature (name : String) (parameterList : Option Cursor) : String :=
  let parameters := (parameterList.map Cursor.children).getD []
  let count := (parameters.filter (·.kind = "parameter_declaration")).length
  name ++ "#" ++ toString count

/-- The type specifications of a type declaration that have a name and a body of a given kind. -/
def specifications (c : Cursor) (kind : String) : List (Cursor × Cursor) :=
  (c.children.filter (·.kind = "type_spec")).filterMap fun spec =>
    match spec.child? "type_identifier", spec.child? kind with
    | some name, some body => some (name, body)
    | _, _ => none

/-- The facts that a field declaration gives. -/
def fieldFacts (s : Source) (owner : String) (field : Cursor) : Except Fault (List TypeFact) := do
  let names ← texts s (field.children.filter (·.kind = "identifier"))
  match field.childIn? ["type_identifier", "qualified_type", "pointer_type", "slice_type", "map_type",
    "chan_type", "interface_type", "function_type", "struct_type"] with
  | none => .ok []
  | some type =>
    if names.isEmpty then .ok []
    else
      let t ← s.text type
      .ok (names.map fun n => .field owner n (baseType t))

/-- The facts that the structures of a type declaration give. -/
def structFacts (s : Source) (c : Cursor) : Trail Fault TypeFact :=
  Trail.each (specifications c "struct_type") fun (nameNode, body) =>
    Trail.given (s.text nameNode) fun name =>
      Trail.one (.struct name) ++
        match body.child? "field_declaration_list" with
        | none => Trail.none
        | some fields =>
          Trail.each (fields.children.filter (·.kind = "field_declaration")) fun f =>
            Trail.ofExcept (fieldFacts s name f)

/-- The facts that the interfaces of a type declaration give. -/
def interfaceFacts (s : Source) (c : Cursor) : Trail Fault TypeFact :=
  Trail.each (specifications c "interface_type") fun (nameNode, body) =>
    Trail.given (s.text nameNode) fun name =>
      Trail.one (.interface name) ++
        Trail.each (body.children.filter fun d => d.kind = "method_spec" || d.kind = "method_elem")
          fun m =>
            match m.child? "field_identifier" with
            | none => Trail.none
            | some methodName => Trail.given (s.text methodName) fun n =>
                Trail.one (.required name (methodSignature n (m.child? "parameter_list")))

/-- The kinds of type nodes that give a parameter its type. -/
def parameterKinds : List String :=
  ["type_identifier", "qualified_type", "pointer_type", "slice_type", "map_type", "chan_type",
    "interface_type"]

/-- The types of the parameters in a parameter list, by name. -/
def parameterTypes (s : Source) (parameterList : Option Cursor) :
    Except Fault (List (String × String)) :=
  match parameterList with
  | none => .ok []
  | some l => collect (l.children.filter (·.kind = "parameter_declaration")) fun d => do
    let (names, type) ← parameterParts s parameterKinds d
    match nonEmpty (type.map baseType) with
    | none => .ok []
    | some t => .ok (names.map fun n => (n, t))

/-- The parameter list of a function or method, after any receiver. -/
def firstParameters (c : Cursor) : Option Cursor :=
  (afterReceiver c).find? (·.kind = "parameter_list")

/-- The second parameter list of a method declaration; the first one is the receiver. -/
def methodParameters (c : Cursor) : Option Cursor :=
  (c.children.filter (·.kind = "parameter_list"))[1]?

/-- The fact that a function declaration gives. -/
def functionFacts (s : Source) (c : Cursor) : Except Fault (List TypeFact) := do
  match ← s.text? (c.child? "identifier") with
  | none => .ok []
  | some name =>
    let parameters ← parameterTypes s (firstParameters c)
    .ok [.function name ⟨parameters, ← returnTypes s c⟩]

/-- The fact that the signature of a method declaration gives. -/
def methodFacts (s : Source) (c : Cursor) : Except Fault (List TypeFact) := do
  let receiver ← receiverType s c
  match ← s.text? (c.child? "field_identifier") with
  | none => .ok []
  | some name =>
    let key := match receiver with
      | some r => r ++ "." ++ name
      | none => name
    .ok [.function key ⟨← parameterTypes s (methodParameters c), ← returnTypes s c⟩]

/-- The facts that a method declaration gives about its receiver type. -/
def receiverFacts (s : Source) (c : Cursor) : Trail Fault TypeFact :=
  Trail.given (receiverType s c) fun receiver =>
    match receiver, c.child? "field_identifier" with
    | some r, some nameNode =>
      Trail.one (.receiver r) ++ Trail.given (s.text nameNode) fun name =>
        Trail.one (.method r (methodSignature name (methodParameters c)))
    | _, _ => Trail.none

/-- The facts about the types of a file, up to a failure. -/
def typeFacts (s : Source) (root : Cursor) : Trail Fault TypeFact :=
  Trail.each root.children fun c =>
    if c.kind = "type_declaration" then structFacts s c ++ interfaceFacts s c
    else if c.kind = "function_declaration" then Trail.ofExcept (functionFacts s c)
    else if c.kind = "method_declaration" then
      Trail.ofExcept (methodFacts s c) ++ receiverFacts s c
    else Trail.none

/-- The types of the variables of a function, by name. -/
abbrev Scope := Keyed String

/-- The type of a literal by the node in front of its braces. -/
def literalType (s : Source) (c : Cursor) : Except Fault (Option String) := do
  match c.children with
  | type :: _ =>
    if type.kind = "type_identifier" || type.kind = "qualified_type" then
      .ok (some (baseType (← s.text type)))
    else .ok none
  | [] => .ok none

/-- The type of the result of calling a function: its first result type if the function is known,
or else what follows `New` in its name. -/
def resultType (k : TypeContext) (name : String) : Option String :=
  match (k.signatures.get? name).bind (·.returns.head?) with
  | some t => some t
  | none => if Text.begins name "New" && 3 < name.length then some (Text.dropFirst name 3) else none

/-- The type of an expression, as far as its form tells. -/
def expressionType (s : Source) (k : TypeContext) (c : Cursor) : Except Fault (Option String) := do
  if c.kind = "composite_literal" then literalType s c
  else if c.kind = "unary_expression" then
    match c.children with
    | op :: inner :: _ =>
      if op.kind = "&" && inner.kind = "composite_literal" then literalType s inner else .ok none
    | _ => .ok none
  else if c.kind = "call_expression" then
    match c.children with
    | [] => .ok none
    | callee :: _ =>
      let name ← if callee.kind = "identifier" then (s.text callee).map some
        else if callee.kind = "selector_expression" then s.text? (callee.child? "field_identifier")
        else .ok none
      .ok ((nonEmpty name).bind (resultType k))
  else if c.kind = "type_assertion_expression" then
    .ok ((← s.text? (c.childIn? ["type_identifier", "qualified_type", "pointer_type"])).map baseType)
  else .ok none

/-- Give each of several variables the type of the expression in the same place. -/
def assignTypes (s : Source) (k : TypeContext) (scope : Scope) :
    List String → List Cursor → Except Fault Scope
  | name :: names, e :: es => do
    match nonEmpty (← expressionType s k e) with
    | some t => assignTypes s k (scope.insert name t) names es
    | none => assignTypes s k scope names es
  | _, _ => .ok scope

/-- The variables that `x, y := a, b` declares. The first list is assigned to, the last one
assigned. -/
def shortDeclaration (s : Source) (k : TypeContext) (scope : Scope) (c : Cursor) :
    Except Fault Scope := do
  match c.children.filter (·.kind = "expression_list") with
  | left :: r :: rs =>
    let right := (r :: rs).getLast?.getD r
    let names ← texts s (left.children.filter (·.kind = "identifier"))
    assignTypes s k scope names (right.children.filter (·.kind != ","))
  | _ => .ok scope

/-- The variables that one specification of `var x, y T` declares. -/
def variableSpec (s : Source) (scope : Scope) (spec : Cursor) : Except Fault Scope := do
  let (names, type) ← parameterParts s
    ["type_identifier", "qualified_type", "pointer_type", "slice_type", "map_type"] spec
  match nonEmpty (type.map baseType) with
  | some t => .ok (names.foldl (fun sc n => sc.insert n t) scope)
  | none => .ok scope

/-- The variables that several specifications declare. -/
def variableSpecs (s : Source) (scope : Scope) : List Cursor → Except Fault Scope
  | [] => .ok scope
  | c :: cs => do
    let scope ← variableSpec s scope c
    variableSpecs s scope cs

/-- The variables that the nodes of a body declare. -/
def bodyScope (s : Source) (k : TypeContext) (scope : Scope) : List Cursor → Except Fault Scope
  | [] => .ok scope
  | c :: cs => do
    let scope ← if c.kind = "short_var_declaration" then shortDeclaration s k scope c
      else if c.kind = "var_declaration" then
        variableSpecs s scope (c.children.filter (·.kind = "var_spec"))
      else .ok scope
    bodyScope s k scope cs

/-- The function that a node lies in. -/
structure Enclosing where
  function : String
  receiver : Option String := none
  /-- The name of the receiver inside the function. -/
  receiverName : Option String := none
  scope : Scope := .empty

/-- The variables of a function: its parameters, its receiver, and what its body declares. -/
def functionScope (s : Source) (k : TypeContext) (f : Enclosing) (c : Cursor) :
    Except Fault Scope := do
  let own := match f.receiver with
    | some r => k.signatures.get? (r ++ "." ++ f.function)
    | none => none
  let signature := own.orElse fun _ => k.signatures.get? f.function
  let parameters : Scope := Keyed.ofList ((signature.map (·.parameters)).getD [])
  let scope := match nonEmpty f.receiverName, f.receiver with
    | some v, some r => parameters.insert v r
    | _, _ => parameters
  match c.child? "block" with
  | some body => bodyScope s k scope (body.within bodyLimit)
  | none => .ok scope

/-- The type of a variable: by the scope, or else as a field of the receiver type. -/
def variableType? (k : TypeContext) (f : Enclosing) (name : String) : Option String :=
  match f.scope.get? name with
  | some t => some t
  | none => (f.receiver.bind k.fields.get?).bind (·.get? name)

/-- Follow a chain of fields from a type. -/
def chainType? (k : TypeContext) (type : String) : List String → Option String
  | [] => some type
  | field :: rest =>
    match nonEmpty ((k.fields.get? type).bind (·.get? field)) with
    | some t => chainType? k t rest
    | none => none

end RepoAtlas.Extract.Go
