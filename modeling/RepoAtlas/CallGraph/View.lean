import RepoAtlas.CallGraph.Basic
import RepoAtlas.Repository.Language

/-!
# Views of a call graph

A call graph can be drawn, as a list of nodes and edges with their classes, and told, as a list of
functions with what they call and what calls them.
-/

namespace RepoAtlas.CallGraph

/-- The classes of nodes by the endings of their files. -/
def languageClasses : List (String × String) :=
  [(".py", "lang-python"), (".js", "lang-javascript"), (".ts", "lang-typescript"), (".c", "lang-c"),
    (".h", "lang-c"), (".cpp", "lang-cpp"), (".cc", "lang-cpp"), (".cxx", "lang-cpp"),
    (".hpp", "lang-cpp"), (".hxx", "lang-cpp"), (".php", "lang-php"), (".phtml", "lang-php"),
    (".inc", "lang-php"), (".go", "lang-go"), (".vue", "lang-vue")]

/-- The classes of a drawn component. -/
def nodeClasses (c : Component) : List String :=
  (if c.nodeType = some "method" then "node-method" else "node-function") ::
    (languageClasses.lookup (Repository.endingOf c.filePath)).toList

/-- A drawn component. -/
def drawnNode (id : String) (c : Component) : Json :=
  let kind := match c.nodeType with
    | some t => if t = "" then "function" else t
    | none => "function"
  .obj [("data", .obj [("id", .str id), ("label", .str c.name), ("file", .str c.filePath),
      ("type", .str kind),
      ("language", .str ((Repository.languageOf? (Repository.endingOf c.filePath)).getD "unknown"))]),
    ("classes", .str (Text.join " " (nodeClasses c)))]

/-- A drawn relationship. -/
def drawnEdge (r : Relationship) : Json :=
  .obj [("data", .obj [("id", .str (r.caller ++ "->" ++ r.callee)), ("source", .str r.caller),
      ("target", .str r.callee), ("line", Json.ofOption .int r.line)]),
    ("classes", .str "edge-call")]

/-- The drawing of a call graph: all components and the relationships that are resolved. -/
def drawing (g : CallGraph) : Json :=
  let resolved := g.relationships.filter (·.resolved)
  .obj [("cytoscape", .obj [("elements", .arr
      (g.functions.entries.map (fun (id, c) => drawnNode id c) ++ resolved.map drawnEdge))]),
    ("summary", .obj [("total_nodes", .int g.functions.size),
      ("total_edges", .int resolved.length),
      ("unresolved_calls", .int (g.relationships.length - resolved.length))])]

/-- What is told of a function itself. -/
def toldFunction (g : CallGraph) (c : Component) : Json :=
  let purpose := if c.docstring = "" then Json.null else .str (Text.cutFirst '\n' c.docstring).1
  .obj [("name", .str c.name), ("file", .str (Path.name c.filePath)), ("purpose", purpose),
    ("parameters", Json.ofOption .strings c.parameters),
    ("is_recursive", .bool (g.relationships.any fun r =>
      Text.ends r.caller c.name && r.callee = c.name))]

/-- What is told of the calls of a function. -/
def toldCalls (g : CallGraph) (c : Component) : Json :=
  let resolved := g.relationships.filter (·.resolved)
  let calls := resolved.filter fun r => Text.ends r.caller c.name
  let calledBy := resolved.filter fun r => Text.ends r.callee c.name
  .obj [("calls", .strings (calls.map fun r => Text.afterLast ':' r.callee)),
    ("called_by", .strings (calledBy.map fun r => Text.afterLast ':' r.caller))]

/-- The functions of a call graph and, by their names, their calls. -/
def telling (g : CallGraph) : Json :=
  .obj [("functions", .arr (g.functions.values.map g.toldFunction)),
    ("relationships", .ofMembers (g.functions.values.map fun c => (c.name, g.toldCalls c)))]

end RepoAtlas.CallGraph
