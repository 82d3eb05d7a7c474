import RepoAtlas.Path
import RepoAtlas.Report.Rule

/-!
# The map of a repository

The map lists components with their measures, the dependencies between them, the communities they
form and a summary.
-/

namespace RepoAtlas.Report

/-- When and for which state of the repository a map is made. -/
structure Edition where
  repository : String
  time : String
  commit : Option String := none

/-- The endings of the files of components, without dots. -/
def fileEndings (cs : Components) : List String :=
  let endings := (cs.values.map fun c => (Path.splitExtension c.relativePath).2).filter (· != "")
  Text.sorted ((endings.map fun e => String.ofList (e.toList.dropWhile (· = '.'))).eraseDups)

/-- Add a weight to a word. -/
def addWeight (t : Keyed Float) (entry : String × Float) : Keyed Float :=
  t.insert entry.1 ((t.get? entry.1).getD 0.0 + entry.2)

/-- Words with their weights as JSON. -/
def keywordsJson (ws : List (String × Float)) : Json :=
  .arr (ws.map fun (w, x) => .arr [.str w, .float x])

/-- A community of components. Its words are the ten with the greatest total weights. -/
def communityJson (members : List Component) (id : Int) : Json :=
  let words := ((members.flatMap (·.keywords)).foldl addWeight Keyed.empty).entries
  let top := (words.mergeSort fun a b => a.2 ≥ b.2).take 10
  .obj [("id", .int id), ("node_count", .int members.length),
    ("hub_count", .int (members.filter (·.isHub)).length),
    ("tfidf_keywords", keywordsJson (top.map fun (w, x) => (w, Number.roundTo 4 x)))]

/-- The communities in order. -/
def communitiesJson (cs : Components) : List Json :=
  let ids := ((cs.values.map (·.communityId)).filter (0 ≤ ·)).eraseDups.mergeSort
  ids.map fun id => communityJson (cs.values.filter (·.communityId = id)) id

/-- The measures of a component. -/
def measuresJson (c : Component) : Json :=
  .obj [("pagerank", .float (Number.roundTo 6 c.pagerank)), ("fan_in", .int c.fanIn),
    ("fan_out", .int c.fanOut), ("instability", .float (Number.roundTo 4 c.instability)),
    ("is_hub", .bool c.isHub), ("complexity_score", .float (Number.roundTo 2 c.complexityScore)),
    ("tfidf_keywords", keywordsJson c.keywords),
    ("betweenness_centrality", .float (Number.roundTo 6 c.betweenness)),
    ("cyclomatic_complexity", .int c.cyclomatic), ("cognitive_complexity", .int c.cognitive),
    ("nloc", .int c.nloc),
    ("maintainability_index", .float (Number.roundTo 2 c.maintainability))]

/-- Whether a component has a feature that is worth listing. -/
def hasFeature (c : Component) : Bool :=
  !c.implementsInterfaces.isEmpty || c.spawnsGoroutines || c.usesChannels || c.usesSelect ||
    c.returnsError || c.hasDefers || c.hasPanic || c.isExported

/-- The features of a component. -/
def featuresJson (c : Component) : Json :=
  .obj [("implements_interfaces", .strings c.implementsInterfaces),
    ("spawns_goroutines", .bool c.spawnsGoroutines), ("uses_channels", .bool c.usesChannels),
    ("uses_select", .bool c.usesSelect), ("returns_error", .bool c.returnsError),
    ("has_defers", .bool c.hasDefers), ("has_panic", .bool c.hasPanic),
    ("is_exported", .bool c.isExported)]

/-- A component in the map. -/
def nodeJson (id : String) (c : Component) : Json :=
  .obj ([("id", .str id), ("name", .str c.name), ("type", .str c.kind),
      ("file_path", .str c.relativePath), ("metrics", measuresJson c),
      ("community_id", .int c.communityId), ("depends_on", .strings c.dependsOn)] ++
    if hasFeature c then [("analysis", featuresJson c)] else [])

/-- The dependencies of a component in the map. -/
def edgesJson (id : String) (c : Component) : List Json :=
  c.dependsOn.map fun d =>
    .obj [("source", .str id), ("target", .str d), ("type", .str "depends_on")]

/-- The dependencies of all components. -/
def allEdges (cs : Components) : List Json :=
  cs.entries.flatMap fun (id, c) => edgesJson id c

/-- The mean maintainability index. -/
def meanMaintainability (cs : Components) : Float :=
  let total := cs.values.foldl (fun x c => x + c.maintainability) 0.0
  Number.roundTo 1 (total / (max cs.size 1).toFloat)

/-- The summary of a map. -/
def summaryJson (cs : Components) (circuits : List (List String)) : Json :=
  let all := cs.values
  let unstable := (all.mergeSort fun a b => a.instability ≥ b.instability).map (·.name)
  let names (p : Component → Bool) := (all.filter p).map (·.name)
  let count (p : Component → Bool) : Json := .int (all.filter p).length
  .obj [("total_nodes", .int cs.size), ("total_edges", .int (allEdges cs).length),
    ("hub_files", .strings (names (·.isHub))), ("most_unstable", .strings (unstable.take 5)),
    ("most_stable", .strings (unstable.drop (unstable.length - 5))),
    ("circular_dependencies", .arr (circuits.map .strings)),
    ("avg_maintainability", .float (meanMaintainability cs)),
    ("high_cognitive_complexity",
      .strings ((names fun c => cognitiveLimit < c.cognitive).take 10)),
    ("bottleneck_components", .strings ((names fun c => c.betweenness > 0.1).take 10)),
    ("interface_implementations", count fun c => !c.implementsInterfaces.isEmpty),
    ("concurrent_components", count fun c => c.spawnsGoroutines || c.usesChannels),
    ("error_returning_functions", count (·.returnsError)),
    ("exported_symbols", count (·.isExported))]

/-- The map of a repository. -/
def mapJson (e : Edition) (cs : Components) (circuits : List (List String))
    (couplings violations : List Json) : Json :=
  .obj [("version", .str "1.0"),
    ("metadata", .obj [("project_name", .str (Path.base (Path.normal e.repository))),
      ("generated_at", .str e.time), ("commit_sha", Json.ofOption .str e.commit),
      ("languages", .strings (fileEndings cs)), ("total_components", .int cs.size)]),
    ("nodes", .arr (cs.entries.map fun (id, c) => nodeJson id c)), ("edges", .arr (allEdges cs)),
    ("communities", .arr (communitiesJson cs)), ("temporal_coupling", .arr couplings),
    ("architectural_violations", .arr violations),
    ("summary_metrics", summaryJson cs circuits)]

end RepoAtlas.Report
