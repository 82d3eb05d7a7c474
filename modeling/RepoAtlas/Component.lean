import RepoAtlas.Json.Basic

/-!
# Components and relationships

A component is a named part of a program (a class, a function, a file of markup) with the place
where it stands and what is known about it. A relationship says that one component refers to
another; until it is resolved the second is only a name.
-/

namespace RepoAtlas

/-- A named part of a program. -/
structure Component where
  id : String
  name : String
  kind : String
  filePath : String
  relativePath : String
  /-- The identifiers that this component depends on, without repetition. -/
  dependsOn : List String := []
  sourceCode : Option String := none
  startLine : Nat := 0
  endLine : Nat := 0
  hasDocstring : Bool := false
  docstring : String := ""
  parameters : Option (List String) := none
  nodeType : Option String := none
  baseClasses : Option (List String) := none
  className : Option String := none
  displayName : Option String := none
  componentId : Option String := none
  pagerank : Float := 0.0
  fanIn : Nat := 0
  fanOut : Nat := 0
  instability : Float := 0.0
  isHub : Bool := false
  communityId : Int := -1
  /-- Characteristic words with their weights. -/
  keywords : List (String × Float) := []
  complexityScore : Float := 0.0
  betweenness : Float := 0.0
  cyclomatic : Nat := 0
  cognitive : Nat := 0
  /-- Lines of code without comments. -/
  nloc : Nat := 0
  tokenCount : Nat := 0
  parameterCount : Nat := 0
  maintainability : Float := 100.0
  implementsInterfaces : List String := []
  spawnsGoroutines : Bool := false
  usesChannels : Bool := false
  usesSelect : Bool := false
  returnsError : Bool := false
  hasDefers : Bool := false
  hasPanic : Bool := false
  isExported : Bool := false
  deriving Inhabited

/-- The name shown to readers: the display name unless it is missing or empty. -/
def Component.shownName (c : Component) : String :=
  match c.displayName with
  | some d => if d = "" then c.name else d
  | none => c.name

/-- That one component refers to another. -/
structure Relationship where
  caller : String
  callee : String
  line : Option Int := none
  resolved : Bool := false
  kind : String := "calls"
  deriving DecidableEq, Repr, Inhabited

/-- What an analysis of a file gives. -/
structure Findings where
  components : List Component := []
  relationships : List Relationship := []
  deriving Inhabited

namespace Component

/-- An optional text as a JSON value. -/
def optional (s : Option String) : Json :=
  Json.ofOption .str s

/-- All fields of a component in their fixed order. -/
def toJson (c : Component) : Json :=
  .obj [("id", .str c.id), ("name", .str c.name), ("component_type", .str c.kind),
    ("file_path", .str c.filePath), ("relative_path", .str c.relativePath),
    ("depends_on", .strings c.dependsOn), ("source_code", optional c.sourceCode),
    ("start_line", .int c.startLine), ("end_line", .int c.endLine),
    ("has_docstring", .bool c.hasDocstring), ("docstring", .str c.docstring),
    ("parameters", Json.ofOption .strings c.parameters), ("node_type", optional c.nodeType),
    ("base_classes", Json.ofOption .strings c.baseClasses),
    ("class_name", optional c.className), ("display_name", optional c.displayName),
    ("component_id", optional c.componentId), ("pagerank", .float c.pagerank),
    ("fan_in", .int c.fanIn), ("fan_out", .int c.fanOut), ("instability", .float c.instability),
    ("is_hub", .bool c.isHub), ("community_id", .int c.communityId),
    ("tfidf_keywords", .arr (c.keywords.map fun (w, x) => .arr [.str w, .float x])),
    ("complexity_score", .float c.complexityScore),
    ("betweenness_centrality", .float c.betweenness),
    ("cyclomatic_complexity", .int c.cyclomatic), ("cognitive_complexity", .int c.cognitive),
    ("nloc", .int c.nloc), ("token_count", .int c.tokenCount),
    ("parameter_count", .int c.parameterCount),
    ("maintainability_index", .float c.maintainability),
    ("implements_interfaces", .strings c.implementsInterfaces),
    ("spawns_goroutines", .bool c.spawnsGoroutines), ("uses_channels", .bool c.usesChannels),
    ("uses_select", .bool c.usesSelect), ("returns_error", .bool c.returnsError),
    ("has_defers", .bool c.hasDefers), ("has_panic", .bool c.hasPanic),
    ("is_exported", .bool c.isExported)]

end Component

end RepoAtlas
