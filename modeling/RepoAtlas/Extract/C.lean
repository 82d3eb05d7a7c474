import RepoAtlas.Extract.Declared

/-!
# Components of C files

Functions and structures are components. Global variables are only remembered: a function that
mentions one is related to it. A call is related to the bare name of the called function, unless
that is a function of the system library.
-/

namespace RepoAtlas.Extract.C

open Syntax

/-- The dotted name of a C file. -/
def moduleName (s : Source) : String :=
  s.moduleName [".c", ".h"]

/-- Functions of the system library. -/
def systemFunctions : List String :=
  ["printf", "scanf", "malloc", "free", "strlen", "strcpy", "strcmp", "memcpy", "memset", "exit",
    "abort", "fopen", "fclose", "fread", "fwrite", "SDL_Init", "SDL_CreateWindow", "SDL_Log",
    "SDL_GetError", "SDL_Quit"]

/-- Whether a name is a function of the system library. -/
def isSystemFunction (name : String) : Bool :=
  systemFunctions.contains name

/-- The node that names a function definition. -/
def functionName? (c : Cursor) : Option Cursor :=
  (c.child? "function_declarator").bind (·.child? "identifier")

/-- The node that names the variable of a declaration: the first part that is, or initialises, a
variable or a pointer. -/
def variableName? (c : Cursor) : Option Cursor :=
  c.children.findSome? fun d =>
    if d.kind = "init_declarator" then
      match d.child? "identifier" with
      | some i => some i
      | none => (d.child? "pointer_declarator").bind (·.child? "identifier")
    else if d.kind = "identifier" then some d
    else none

/-- Whether a node lies in no function. -/
def isGlobal (c : Cursor) : Bool :=
  (c.enclosing? ["function_definition"]).isNone

/-- What a node declares: its kind and the node that names it. -/
def declaration? (c : Cursor) : Option (String × Cursor) :=
  if c.kind = "function_definition" then (functionName? c).map ("function", ·)
  else if c.kind = "struct_specifier" then (c.child? "type_identifier").map ("struct", ·)
  else if c.kind = "type_definition" then
    if (c.child? "struct_specifier").isSome then (c.child? "type_identifier").map ("struct", ·)
    else none
  else if c.kind = "declaration" then
    if isGlobal c then (variableName? c).map ("variable", ·) else none
  else none

/-- The component that a node declares, if its name is not empty. -/
def componentAt (s : Source) (c : Cursor) : Except Fault (List Component) := do
  match declaration? c with
  | none => .ok []
  | some (kind, nameNode) =>
    let name ← s.text nameNode
    .ok (if name = "" then [] else [declared s c (qualify (moduleName s) name) kind name])

/-- Everything that a file declares, in order. -/
def declarations (s : Source) (root : Cursor) : Except Fault (List Component) :=
  collect root.preorder (componentAt s)

/-- The name of the nearest function around a node that the file declares. -/
def containingFunction (s : Source) (table : Declarations) (c : Cursor) :
    Except Fault (Option String) :=
  firstOf c.ancestors fun a => do
    if a.kind = "function_definition" then
      match ← s.text? (functionName? a) with
      | some name => .ok (if table.has name then some name else none)
      | none => .ok none
    else .ok none

/-- The relationships that a node gives rise to. -/
def relationshipsAt (s : Source) (table : Declarations) (c : Cursor) :
    Except Fault (List Relationship) := do
  if c.kind = "call_expression" then
    match ← containingFunction s table c with
    | none => .ok []
    | some caller =>
      match ← s.text? (c.child? "identifier") with
      | none => .ok []
      | some callee =>
        .ok (if isSystemFunction callee then []
          else [{ caller := qualify (moduleName s) caller, callee := callee,
                  line := some (s.startLine c) }])
  else if c.kind = "identifier" then
    match ← containingFunction s table c with
    | none => .ok []
    | some caller =>
      let name ← s.text c
      match table.get? name with
      | some target =>
        .ok (if target.kind = "variable" then
          [{ caller := qualify (moduleName s) caller, callee := qualify (moduleName s) name,
             line := some (s.startLine c), resolved := true }]
          else [])
      | none => .ok []
  else .ok []

/-- The findings in a tree. -/
def findings (s : Source) (root : Cursor) : Except Fault Findings := do
  let all ← declarations s root
  let table := Keyed.ofList (all.map fun d => (d.name, d))
  let relationships ← collect root.preorder (relationshipsAt s table)
  .ok { components := all.filter fun d => d.kind != "variable", relationships := relationships }

/-- Analyse a C file. -/
def analyze (parsers : Parsers) (file : SourceFile) : Except Fault Findings := do
  let (s, root) ← opened parsers "c" file
  findings s root

end RepoAtlas.Extract.C
