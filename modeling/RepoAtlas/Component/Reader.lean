import RepoAtlas.Component
import RepoAtlas.Json.Writer
import RepoAtlas.Text.Search

/-!
# Components from JSON

A component is read from the fields that are present; a field that is missing has its default. The
name defaults to what follows the last dot of the identifier.
-/

namespace RepoAtlas.Component

/-- The texts of an array. -/
def textItems (j : Json) : List String :=
  j.items.filterMap Json.str?

/-- The texts of an array, if it is one. -/
def textItems? : Json → Option (List String)
  | .arr xs => some (xs.filterMap Json.str?)
  | _ => none

/-- A word with its weight. -/
def weighted? : Json → Option (String × Float)
  | .arr [.str w, x] => x.float?.map (w, ·)
  | _ => none

/-- The fields that say what a component is and where it stands. -/
def placeOfJson (j : Json) : Component :=
  let id := (j.field "id").str?.getD ""
  let text (name default : String) := (j.field name).str?.getD default
  let count (name : String) := ((j.field name).int?.getD 0).toNat
  let flag (name : String) := (j.field name).bool?.getD false
  { id := id, name := text "name" (Text.afterLast '.' id)
    kind := text "component_type" "function"
    filePath := text "file_path" "", relativePath := text "relative_path" ""
    dependsOn := (textItems (j.field "depends_on")).eraseDups
    sourceCode := (j.field "source_code").str?
    startLine := count "start_line", endLine := count "end_line"
    hasDocstring := flag "has_docstring", docstring := text "docstring" ""
    parameters := textItems? (j.field "parameters"), nodeType := (j.field "node_type").str?
    baseClasses := textItems? (j.field "base_classes"), className := (j.field "class_name").str?
    displayName := (j.field "display_name").str?, componentId := (j.field "component_id").str? }

/-- A component with the measures that JSON gives it. -/
def withMeasures (c : Component) (j : Json) : Component :=
  let count (name : String) := ((j.field name).int?.getD 0).toNat
  let number (name : String) := (j.field name).float?.getD 0.0
  { c with
    pagerank := number "pagerank", fanIn := count "fan_in", fanOut := count "fan_out"
    instability := number "instability", isHub := (j.field "is_hub").bool?.getD false
    communityId := (j.field "community_id").int?.getD (-1)
    keywords := (j.field "tfidf_keywords").items.filterMap weighted?
    complexityScore := number "complexity_score", betweenness := number "betweenness_centrality"
    cyclomatic := count "cyclomatic_complexity", cognitive := count "cognitive_complexity"
    nloc := count "nloc", tokenCount := count "token_count"
    parameterCount := count "parameter_count"
    maintainability := (j.field "maintainability_index").float?.getD 100.0 }

/-- A component with the features that JSON gives it. -/
def withFeatures (c : Component) (j : Json) : Component :=
  let flag (name : String) := (j.field name).bool?.getD false
  { c with
    implementsInterfaces := textItems (j.field "implements_interfaces")
    spawnsGoroutines := flag "spawns_goroutines", usesChannels := flag "uses_channels"
    usesSelect := flag "uses_select", returnsError := flag "returns_error"
    hasDefers := flag "has_defers", hasPanic := flag "has_panic"
    isExported := flag "is_exported" }

/-- The component that JSON describes. -/
def ofJson (j : Json) : Component :=
  ((placeOfJson j).withMeasures j).withFeatures j

/-- The fields that are always written. -/
def alwaysWritten : List String :=
  ["id", "name", "component_type", "file_path", "relative_path"]

/-- A component without the fields that have their default; its dependencies are in order. -/
def brief (c : Component) : Json :=
  let blank : Component := { id := "", name := "", kind := "", filePath := "", relativePath := "" }
  let full := { c with dependsOn := Text.sorted c.dependsOn }.toJson.members
  .obj ((full.zip blank.toJson.members).filterMap fun ((k, v), (_, d)) =>
    if alwaysWritten.contains k || v.compact != d.compact then some (k, v) else none)

end RepoAtlas.Component

namespace RepoAtlas.Relationship

/-- The relationship that JSON describes. -/
def ofJson (j : Json) : Relationship :=
  { caller := (j.field "caller").str?.getD "", callee := (j.field "callee").str?.getD ""
    line := (j.field "call_line").int?, resolved := (j.field "is_resolved").bool?.getD false
    kind := (j.field "relationship_type").str?.getD "calls" }

/-- A relationship without the fields that have their default. -/
def brief (r : Relationship) : Json :=
  .obj ([("caller", .str r.caller), ("callee", .str r.callee)] ++
    (match r.line with | some n => [("call_line", .int n)] | none => []) ++
    (if r.resolved then [("is_resolved", .bool true)] else []) ++
    if r.kind != "calls" then [("relationship_type", .str r.kind)] else [])

end RepoAtlas.Relationship
