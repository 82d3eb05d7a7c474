import Mathlib.Logic.Relation
import RepoAtlas.Graph.Walk

/-!
# Reachability in dependency graphs

A node reaches another if a path of dependencies leads there, and two nodes are tied if each reaches the other.
The classes of tied nodes are the strongly connected components.
-/

namespace RepoAtlas.Graph

variable {g : Graph} {u v w : String}

/-- A path of dependencies, possibly an empty one, leads from one node to another. -/
def Reaches (g : Graph) : String → String → Prop :=
  Relation.ReflTransGen fun v w => g.depends v w

/-- Each of two nodes reaches the other. -/
def Tied (g : Graph) (v w : String) : Prop :=
  g.Reaches v w ∧ g.Reaches w v

/-- No path of one dependency or more leads from a node back to it. -/
def Acyclic (g : Graph) : Prop :=
  ∀ v, ¬Relation.TransGen (fun v w => g.depends v w) v v

/-- What a node depends on are its successors. -/
theorem depends_iff : g.depends v w ↔ w ∈ g.successors v := by
  rw [depends, List.contains_iff_mem]

/-- The successors of a node stand in its entry. -/
theorem successors_of_mem {ds : List String} (hentry : (v, ds) ∈ g.edges.entries) : g.successors v = ds := by
  rw [successors, g.edges.get?_eq_some_iff.mpr hentry, Option.getD_some]

/-- Dependencies stand in entries. -/
theorem depends_iff_entry : g.depends v w ↔ ∃ ds, (v, ds) ∈ g.edges.entries ∧ w ∈ ds := by
  constructor
  · intro h
    rw [depends_iff, successors] at h
    cases hget : g.edges.get? v with
    | none => simp [hget] at h
    | some ds => exact ⟨ds, g.edges.get?_eq_some_iff.mp hget, by simpa [hget] using h⟩
  · rintro ⟨ds, hentry, hw⟩
    rw [depends_iff, successors_of_mem hentry]
    exact hw

/-- What has a dependency is a key. -/
theorem mem_keys_of_depends (h : g.depends v w) : v ∈ g.keys := by
  obtain ⟨ds, hentry, -⟩ := depends_iff_entry.mp h
  exact Keyed.mem_keys_of_mem hentry

/-- A key is a node. -/
theorem mem_nodes_of_mem_keys (h : v ∈ g.keys) : v ∈ g.nodes := by
  obtain ⟨⟨u, ds⟩, hentry, rfl⟩ := List.mem_map.mp h
  rw [nodes, List.mem_eraseDups, List.mem_flatMap]
  exact ⟨(u, ds), hentry, List.mem_cons_self⟩

/-- A dependency is a node. -/
theorem mem_nodes_of_depends (h : g.depends v w) : w ∈ g.nodes := by
  obtain ⟨ds, hentry, hw⟩ := depends_iff_entry.mp h
  rw [nodes, List.mem_eraseDups, List.mem_flatMap]
  exact ⟨(v, ds), hentry, List.mem_cons_of_mem v hw⟩

namespace Reaches

/-- A node reaches itself. -/
theorem refl (g : Graph) (v : String) : g.Reaches v v :=
  Relation.ReflTransGen.refl

/-- A node reaches what it depends on. -/
theorem single (h : g.depends v w) : g.Reaches v w :=
  Relation.ReflTransGen.single h

/-- A node reaches what something that it reaches does. -/
theorem trans (huv : g.Reaches u v) (hvw : g.Reaches v w) : g.Reaches u w :=
  Relation.ReflTransGen.trans huv hvw

/-- A path goes on along a dependency. -/
theorem tail (huv : g.Reaches u v) (hvw : g.depends v w) : g.Reaches u w :=
  Relation.ReflTransGen.tail huv hvw

/-- A path cannot leave a set of nodes that no dependency leaves. -/
theorem stays {p : String → Prop} (hclosed : ∀ v w, p v → g.depends v w → p w)
    (hvw : g.Reaches v w) (hv : p v) : p w := by
  induction hvw with
  | refl => exact hv
  | tail _ hedge ih => exact hclosed _ _ ih hedge

/-- What reaches another node is a key. -/
theorem mem_keys (hvw : g.Reaches v w) (hne : v ≠ w) : v ∈ g.keys := by
  rcases Relation.ReflTransGen.cases_head hvw with heq | ⟨u, hvu, -⟩
  · exact absurd heq hne
  · exact mem_keys_of_depends hvu

end Reaches

end RepoAtlas.Graph
