import RepoAtlas.CallGraph.Description
import RepoAtlas.Proofs.Metric.Degree
import RepoAtlas.Report.Map

/-!
# The dependencies that a map lists

The components that a fresh inventory takes in depend on nothing but each other, so their map lists every
dependency once, between two of its nodes.
-/

namespace RepoAtlas

namespace Inventory

/-- What is taken in from descriptions is closed, also if one of them is malformed. -/
theorem closed_addDescribed (batch : Json) : Closed (({} : Inventory).addDescribed batch).1.components := by
  unfold addDescribed
  split
  · exact closed_addComponents _
  · exact closed_add _ _

end Inventory

namespace Report

variable {cs : Components} {e : Edition} {circuits : List (List String)}
  {couplings violations : List Json}

/-- The identifiers of the nodes of a map. -/
def listedIds (map : Json) : List String :=
  (map.field "nodes").items.filterMap fun node => (node.field "id").str?

/-- The edges of a map. -/
def listedEdges (map : Json) : List Json :=
  (map.field "edges").items

/-- The number of edges that the summary of a map gives. -/
def summedEdges? (map : Json) : Option Int :=
  ((map.field "summary_metrics").field "total_edges").int?

/-- Both ends of an edge are nodes of a map. -/
def Joins (map edge : Json) : Prop :=
  ∃ source target, (edge.field "source").str? = some source ∧
    (edge.field "target").str? = some target ∧ source ∈ listedIds map ∧ target ∈ listedIds map

/-- A map lists the components. -/
theorem listedIds_mapJson (e : Edition) (cs : Components) (circuits : List (List String))
    (couplings violations : List Json) : listedIds (mapJson e cs circuits couplings violations) = cs.keys := by
  have hid : ∀ entry : String × Component,
      ((nodeJson entry.1 entry.2).field "id").str? = some entry.1 := fun _ => rfl
  change (cs.entries.map fun entry => nodeJson entry.1 entry.2).filterMap _ = cs.entries.map (·.1)
  rw [List.filterMap_map]
  simp only [Function.comp_def, hid]
  exact congrFun List.filterMap_eq_map' cs.entries

/-- A map lists one edge for each dependency of each component. -/
theorem length_allEdges (cs : Components) : (allEdges cs).length = (cs.values.map (·.dependsOn.length)).sum := by
  simp only [allEdges, edgesJson, List.length_flatMap, List.length_map, Keyed.values, List.map_map, Function.comp_def]

/-- Every edge of a map joins two of them. -/
theorem joins_of_mem_allEdges (hcs : Inventory.Closed cs) {edge : Json} (hedge : edge ∈ allEdges cs) :
    Joins (mapJson e cs circuits couplings violations) edge := by
  obtain ⟨⟨id, c⟩, hentry, hedge⟩ := List.mem_flatMap.mp hedge
  obtain ⟨d, hd, rfl⟩ := List.mem_map.mp hedge
  refine ⟨id, d, rfl, rfl, ?_, ?_⟩
  · rw [listedIds_mapJson]
    exact Keyed.mem_keys_of_mem hentry
  · rw [listedIds_mapJson]
    exact hcs.known c (Keyed.mem_values_of_mem hentry) d hd

/-- Components and their map tell the same of dependencies: each is a component, both counts are right, their
sums are the number of edges, which the summary gives too, and every edge joins two nodes. -/
structure Tallies (cs : Components) (map : Json) : Prop where
  known : ∀ id c, cs.get? id = some c → ∀ d ∈ c.dependsOn, d ∈ cs.keys
  fanOut : ∀ id c, cs.get? id = some c → c.dependsOn.Nodup ∧ c.fanOut = c.dependsOn.length
  fanIn : ∀ id c, cs.get? id = some c →
    c.fanIn = (cs.values.filter fun b => b.dependsOn.contains id).length
  sum_fanIn : (cs.values.map (·.fanIn)).sum = (listedEdges map).length
  sum_fanOut : (cs.values.map (·.fanOut)).sum = (listedEdges map).length
  summary : summedEdges? map = some (listedEdges map).length
  joins : ∀ edge ∈ listedEdges map, Joins map edge

/-- The map of components that are counted right tells the same of dependencies as they do. -/
theorem tallies_of_counted (hcs : Metric.Counted cs) :
    Tallies cs (mapJson e cs circuits couplings violations) where
  known _ c hc := hcs.closed.known c (Keyed.mem_values_of_mem (cs.get?_eq_some_iff.mp hc))
  fanOut _ c hc :=
    have hvalue : c ∈ cs.values := Keyed.mem_values_of_mem (cs.get?_eq_some_iff.mp hc)
    ⟨hcs.closed.nodup c hvalue, hcs.fanOut c hvalue⟩
  fanIn id c hc := hcs.fanIn id c (cs.get?_eq_some_iff.mp hc)
  sum_fanIn := hcs.sum_fanIn.trans (length_allEdges cs).symm
  sum_fanOut := hcs.sum_fanOut.trans (length_allEdges cs).symm
  summary := rfl
  joins _ hedge := joins_of_mem_allEdges hcs.closed hedge

/-- The components of an inventory as they are measured in the graph of their dependencies. -/
def measuredIn (inv : Inventory) (k : Metric.Knowledge) : Components :=
  Metric.measured (Graph.ofComponents inv.components) k inv.components

/-- Whatever a fresh inventory takes in, the measured components and their map tell the same of
dependencies. -/
theorem map_tallies_dependencies (k : Metric.Knowledge) (e : Edition) (circuits : List (List String))
    (couplings violations : List Json) :
    (∀ (functions : List Component) (relationships : List Relationship),
      let cs := measuredIn (({} : Inventory).add functions relationships) k
      Tallies cs (mapJson e cs circuits couplings violations)) ∧
    ∀ batch : Json,
      let cs := measuredIn (({} : Inventory).addDescribed batch).1 k
      Tallies cs (mapJson e cs circuits couplings violations) := by
  constructor
  · intro functions relationships
    exact tallies_of_counted (Metric.counted_measured (Inventory.closed_add functions relationships) k)
  · intro batch
    exact tallies_of_counted (Metric.counted_measured (Inventory.closed_addDescribed batch) k)

end Report

end RepoAtlas
