import RepoAtlas.Extract.JavaScript
import RepoAtlas.Extract.TypeScript

/-!
# Components of Vue files

A Vue file is a component of its own. Its script is analysed as TypeScript or JavaScript and the findings are
moved to where it stands; its template is related to the components, handlers and names in it. If a text cannot
be read there are no findings at all.
-/

namespace RepoAtlas.Extract.Vue

open Syntax

/-- The script of a file. -/
structure Script where
  text : String
  /-- What the file says that the language is; empty if it says nothing. -/
  language : String
  isSetup : Bool
  /-- The number of lines of the file before the script. -/
  offset : Nat

/-- The last part of a given kind. -/
def lastChild? (c : Cursor) (kind : String) : Option Cursor :=
  (c.children.filter (·.kind = kind)).getLast?

/-- The text of the last of several nodes. All of them have to be readable. -/
def lastText (s : Source) (nodes : List Cursor) : Except Fault (Option String) := do
  .ok (← collect nodes fun n => do .ok [← s.text n]).getLast?

/-- The text of the last quoted value of an attribute. -/
def quotedValue (s : Source) (c : Cursor) : Except Fault (Option String) :=
  lastText s ((c.children.filter (·.kind = "quoted_attribute_value")).flatMap fun q =>
    q.children.filter (·.kind = "attribute_value"))

/-- The attributes of a tag with their values. -/
def attributes (s : Source) (tag : Cursor) :
    Except Fault (List (Option String × Option String)) :=
  collect (tag.children.filter (·.kind = "attribute")) fun a => do
    .ok [(← lastText s (a.children.filter (·.kind = "attribute_name")), ← quotedValue s a)]

/-- The script of the first script element of a file. A line feed at its beginning is left out. -/
def script? (s : Source) (root : Cursor) : Except Fault (Option Script) := do
  match root.child? "script_element" with
  | none => .ok none
  | some element =>
    match lastChild? element "raw_text" with
    | none => .ok none
    | some raw =>
      let attributes ← match lastChild? element "start_tag" with
        | some tag => attributes s tag
        | none => .ok []
      let text ← s.text raw
      let languages := attributes.filterMap fun (name, value) =>
        if name = some "lang" then nonEmpty value else none
      let row := s.startRow raw
      .ok (some
        { text := (Text.withoutStart? text "\n").getD text
          language := languages.getLast?.getD ""
          isSetup := attributes.any fun (name, _) => name == some "setup"
          offset := if Text.begins text "\n" then row + 1 else row })

/-- The path of a file seen from the repository root, or from the current directory. -/
def relativePath (path : String) (root : Option String) : String :=
  Path.relative path (root.getD "")

/-- The identifier of the component that a file is. -/
def componentId (path : String) (root : Option String) : String :=
  Path.dotted (Path.dropEnding (relativePath path root) [".vue"])

/-- The findings in a script, as if it were a file of its own. -/
def scriptFindings (parsers : Parsers) (path : String) (root : Option String) (b : Script) :
    Findings :=
  if b.language = "ts" || b.language = "tsx" then
    TypeScript.analyze parsers ⟨some (Text.replace path ".vue" ".ts"), some b.text, root⟩
  else
    JavaScript.analyze parsers ⟨some (Text.replace path ".vue" ".js"), some b.text, root⟩

/-- Move findings in a script to where the script stands in the file. -/
def moved (path : String) (root : Option String) (offset : Nat) (f : Findings) : Findings :=
  { components := f.components.map fun c =>
      { c with startLine := c.startLine + offset, endLine := c.endLine + offset,
               filePath := path, relativePath := relativePath path root }
    relationships := f.relationships.map fun r =>
      { r with line := r.line.map (· + (offset : Int)) } }

/-- Elements that every template can use. -/
def builtinElements : List String :=
  ["slot", "component", "transition", "transition-group", "keep-alive", "teleport", "suspense"]

/-- Whether a tag name is that of a component: capitalised and not built in. -/
def isComponentName (name : String) : Bool :=
  match name.toList with
  | c :: _ => Text.isCapital c && !builtinElements.contains (Text.lower name)
  | [] => false

/-- Whether a character may begin a plain name. -/
def beginsName (c : Char) : Bool :=
  c.isAlpha || c == '_' || c == '$'

/-- Whether a text is a plain name, possibly with a line feed after it. -/
def isPlainName (text : String) : Bool :=
  match ((Text.withoutEnd? text "\n").getD text).toList with
  | c :: cs => beginsName c && cs.all fun d => beginsName d || d.isDigit
  | [] => false

/-- The tag that says what an element is. -/
def tag? (c : Cursor) : Option Cursor :=
  if c.kind = "self_closing_tag" then some c else c.child? "start_tag"

/-- The relationship of a component with what a directive of its template names: an event handler or
a bound name. -/
def directiveAt (s : Source) (id : String) (c : Cursor) : Except Fault (List Relationship) := do
  let name ← lastText s (c.children.filter (·.kind = "directive_name"))
  match ← quotedValue s c with
  | none => .ok []
  | some value =>
    let use (kind : String) : Relationship :=
      { caller := id, callee := value, line := some (s.startLine c), kind := kind }
    if !isPlainName value then .ok []
    else if name = some "@" then .ok [use "calls"]
    else if name = some ":" then .ok [use "references"]
    else .ok []

/-- The relationships of an element: with the component that it shows, and those of its
directives. -/
def elementAt (s : Source) (id : String) (c : Cursor) : Except Fault (List Relationship) := do
  match tag? c with
  | none => .ok []
  | some tag =>
    match nonEmpty (← s.text? (tag.child? "tag_name")) with
    | none => .ok []
    | some name =>
      let shown : List Relationship := if isComponentName name then
          [{ caller := id, callee := name, line := some (s.startLine tag),
             kind := "uses_component" }]
        else []
      let directives ← collect (tag.children.filter (·.kind = "directive_attribute"))
        (directiveAt s id)
      .ok (shown ++ directives)

/-- The relationships with the plain names that a template prints. -/
def interpolationAt (s : Source) (id : String) (c : Cursor) : Except Fault (List Relationship) :=
  collect (c.children.filter (·.kind = "raw_text")) fun t => do
    let name := Text.strip (← s.text t)
    .ok (if isPlainName name then
        [{ caller := id, callee := name, line := some (s.startLine t), kind := "references" }]
      else [])

/-- The relationships that a node of a template gives rise to. -/
def templateAt (s : Source) (id : String) (c : Cursor) : Except Fault (List Relationship) :=
  if c.kind = "element" || c.kind = "self_closing_tag" then elementAt s id c
  else if c.kind = "interpolation" then interpolationAt s id c
  else .ok []

/-- The relationships of a template, from its end to its beginning. -/
def templateRelationships (s : Source) (id : String) (template : Cursor) :
    Except Fault (List Relationship) :=
  collect template.backward (templateAt s id)

/-- The functions that make a value reactive. -/
def reactivityFunctions : List String :=
  ["ref", "reactive", "computed", "readonly", "shallowRef", "shallowReactive", "toRef", "toRefs"]

/-- The kind of a component other than the file: by its name. -/
def kindByName (c : Component) : String :=
  if c.name = "defineProps" then "vue_props"
  else if c.name = "defineEmits" then "vue_emits"
  else c.kind

/-- The function that makes a variable reactive, if one does. -/
def reactivity? (relationships : List Relationship) (id : String) : Option String :=
  ((relationships.filter (·.caller == id)).map fun r => Text.afterLast '.' r.callee).find?
    reactivityFunctions.contains

/-- Tell what components are in terms of the framework. -/
def enriched (relationships : List Relationship) (c : Component) : Component :=
  if c.kind = "vue_component" then c
  else
    let c := { c with kind := kindByName c }
    if c.kind = "variable" then
      match reactivity? relationships c.id with
      | some f => { c with nodeType := some f }
      | none => c
    else c

/-- The component that a file is. -/
def fileComponent (path : String) (root : Option String) (text : String) : Component :=
  let id := componentId path root
  { id := id, name := Path.stem path, kind := "vue_component", filePath := path,
    relativePath := relativePath path root, sourceCode := some text, startLine := 1,
    endLine := Text.countChar text '\n' + 1, componentId := some id }

/-- The findings in a tree. A file without script and template has none. -/
def findings (parsers : Parsers) (s : Source) (text : String) (repository : Option String)
    (root : Cursor) : Except Fault Findings := do
  let script ← script? s root
  let template := root.child? "template_element"
  if script.isNone && template.isNone then .ok {}
  else
    let inScript : Findings := match script.filter (Text.strip ·.text != "") with
      | some b => moved s.path repository b.offset (scriptFindings parsers s.path repository b)
      | none => {}
    let inTemplate ← match template with
      | some t => templateRelationships s (componentId s.path repository) t
      | none => .ok []
    let relationships := inScript.relationships ++ inTemplate
    let components := fileComponent s.path repository text :: inScript.components
    .ok { components := components.map (enriched relationships), relationships := relationships }

/-- Analyse a Vue file. Whatever is missing, there are just no findings. -/
def analyze (parsers : Parsers) (file : SourceFile) : Findings :=
  let found : Except Fault Findings := do
    let (s, root) ← opened parsers "vue" file
    findings parsers s (file.text.getD "") file.root root
  match found with
  | .ok f => f
  | .error _ => {}

end RepoAtlas.Extract.Vue
