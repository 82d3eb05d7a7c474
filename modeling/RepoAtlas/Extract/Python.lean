import RepoAtlas.Extract.Declared
import RepoAtlas.Grammar.Statement
import RepoAtlas.Text.Margin

/-!
# Components of Python source

Classes are components wherever they stand, functions unless they stand in a class. A call counts for the class
or function around it. Leaving a definition leaves the enclosing ones of its kind too.
-/

namespace RepoAtlas.Extract.Python

open Syntax Grammar

/-- Names whose calls are of no interest. -/
def builtins : List String :=
  ["print", "len", "str", "int", "float", "bool", "list", "dict", "tuple", "set",
    "range", "enumerate", "zip", "isinstance", "hasattr", "getattr", "setattr",
    "open", "super", "__import__", "type", "object", "Exception", "ValueError",
    "TypeError", "KeyError", "IndexError", "AttributeError", "ImportError",
    "max", "min", "sum", "abs", "round", "sorted", "reversed", "filter", "map",
    "any", "all", "next", "iter", "callable", "repr", "format", "exec", "eval"]

/-- The endings that are not part of a module's name. -/
def endings : List String := [".py", ".pyx"]

/-- The dotted name of a base class. What an attribute is taken of does not count unless it is a
name. -/
def dottedName? : Phrase → Option String
  | .name n => some n
  | .attribute v a => some (qualify ((dottedName? v).getD "") a)
  | _ => none

/-- The name of what is called, unless it is built in. -/
def calledName? : Phrase → Option String
  | .name n => if builtins.contains n then none else some n
  | .attribute (.name n) a => if builtins.contains n then none else some (n ++ "." ++ a)
  | .attribute (.attribute v b) a =>
    match calledName? (.attribute v b) with
    | some base => some (base ++ "." ++ a)
    | none => some a
  | .attribute _ a => some a
  | _ => none

/-- The text that documents a definition with a given body. -/
def documentation? : List Phrase → Option (Option String)
  | .compound .statement [.text t] :: _ => some t
  | _ => none

/-- What is known during a visit. -/
structure Visit where
  inClass : Option String := none
  inFunction : Option String := none
  /-- The names of the components found so far. -/
  known : List String := []
  findings : Findings := {}
  /-- Whether a definition could not be described, which ends the visit. -/
  stopped : Bool := false

/-- The file that is visited. -/
structure Module where
  name : String
  lines : List String
  path : String
  /-- The path as seen from the repository, if there is one. -/
  relativePath : Option String

/-- The identifier of a name in a class or, outside of classes, in the module. -/
def Module.identifier (m : Module) (inClass : Option String) (name : String) : String :=
  match nonEmpty inClass with
  | some c => m.name ++ "." ++ c ++ "." ++ name
  | none => m.name ++ "." ++ name

/-- The component that a definition declares. Its documentation has to be text. -/
def component? (m : Module) (kind name : String) (line endLine : Nat) (body : List Phrase) :
    Option Component := do
  let relative ← m.relativePath
  let doc ← match documentation? body with
    | none => some ""
    | some none => none
    | some (some t) => some (Text.withoutMargin t)
  let id := m.name ++ "." ++ name
  return {
    id := id, name := name, kind := kind, filePath := m.path, relativePath := relative
    sourceCode := some (Text.excerpt m.lines line endLine), startLine := line, endLine := endLine
    hasDocstring := doc != "", docstring := doc, nodeType := some kind
    displayName := some (kind ++ " " ++ name), componentId := some id }

/-- Keep a component. -/
def Visit.declare (v : Visit) (c : Component) : Visit :=
  { v with
    known := c.name :: v.known
    findings := { v.findings with components := v.findings.components ++ [c] } }

/-- Keep relationships. -/
def Visit.relate (v : Visit) (rs : List Relationship) : Visit :=
  { v with findings := { v.findings with relationships := v.findings.relationships ++ rs } }

/-- Keep a class and its relationships to the bases that are known. -/
def Visit.declareClass (m : Module) (v : Visit) (c : Component) (bases : List String) : Visit :=
  let v := v.declare { c with baseClasses := if bases.isEmpty then none else some bases }
  v.relate ((bases.filter v.known.contains).map fun b =>
    { caller := c.id, callee := m.name ++ "." ++ b, line := some c.startLine, resolved := true })

/-- Keep a function unless it stands in a class or is an inner part of tests. -/
def Visit.declareFunction (v : Visit) (c : Component) (parameters : List String) : Visit :=
  if Text.begins c.name "_test_" then v else v.declare { c with parameters := some parameters }

/-- Keep a call. -/
def Visit.call (m : Module) (v : Visit) (line : Nat) (callee : Phrase) : Visit :=
  match v.inClass.orElse fun _ => v.inFunction, calledName? callee with
  | some caller, some name =>
    let known := v.known.contains name
    v.relate [{
      caller := m.name ++ "." ++ caller, callee := if known then m.name ++ "." ++ name else name
      line := some line, resolved := known }]
  | _, _ => v

mutual
/-- Visit a phrase and what stands in it. -/
def visit (m : Module) (v : Visit) : Phrase → Visit
  | .name _ => v
  | .text _ => v
  | .attribute value _ => visit m v value
  | .compound _ parts => visitAll m v parts
  | .call line callee arguments =>
    if v.stopped then v else visitAll m (visit m (v.call m line callee) callee) arguments
  | .function line endLine name parameters signature body decorators returns =>
    if v.stopped then v
    else
      let entered? := if v.inClass.isSome then some v
        else (component? m "function" name line endLine body).map (v.declareFunction · parameters)
      match entered? with
      | none => { v with stopped := true }
      | some v =>
        let v := visitAll m { v with inFunction := some name } signature
        let v := visitAll m (visitAll m (visitAll m v body) decorators) returns
        { v with inFunction := none }
  | .type line endLine name bases keywords body decorators =>
    if v.stopped then v
    else
      match component? m "class" name line endLine body with
      | none => { v with stopped := true }
      | some c =>
        let v := v.declareClass m c (bases.filterMap dottedName?)
        let v := visitAll m { v with inClass := some name } bases
        let v := visitAll m (visitAll m (visitAll m v keywords) body) decorators
        { v with inClass := none }

/-- Visit phrases one after the other. -/
def visitAll (m : Module) (v : Visit) : List Phrase → Visit
  | [] => v
  | p :: ps => visitAll m (visit m v p) ps
end

/-- The text of a path, also of a missing one. -/
def pathText (path : Option String) : String :=
  path.getD "None"

/-- The path of a file as seen from its repository. With a repository, the file needs a path. -/
def relativePath? (file : SourceFile) : Option String :=
  match nonEmpty file.root with
  | none => some (pathText file.path)
  | some r => (nonEmpty file.path).map fun p => Path.relative p r

/-- A file with a given text as a module. -/
def moduleOf (file : SourceFile) (text : String) : Module :=
  let relative := relativePath? file
  { name := Path.dotted (match relative with
      | some p => Path.dropEnding p endings
      | none => pathText file.path)
    lines := Text.lines text, path := pathText file.path, relativePath := relative }

/-- Analyse a Python file; `statements?` reads the statements of a text. A text that does not follow the
grammar has no findings; a missing text is a fault. -/
def analyze (statements? : List Char → Option (List Phrase)) (file : SourceFile) : Except Fault Findings := do
  let text ← file.content
  match statements? text.toList with
  | none => .ok {}
  | some statements => .ok (visitAll (moduleOf file text) {} statements).findings

end RepoAtlas.Extract.Python
