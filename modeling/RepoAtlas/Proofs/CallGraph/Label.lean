import RepoAtlas.CallGraph.Basic

/-!
# What components are found by

Names lead to components by way of a few of their fields, which make up a label. Steps that change
other fields keep the labels, and with them everything that a name is found to stand for.
-/

namespace RepoAtlas

/-- What a component is found by. -/
structure Label where
  id : String
  name : String
  className : Option String
  filePath : String
  relativePath : String

/-- The label of a component. -/
def Component.label (c : Component) : Label :=
  ⟨c.id, c.name, c.className, c.filePath, c.relativePath⟩

/-- The labels of components, by identifier. -/
def labels (cs : Components) : Keyed Label :=
  cs.map fun _ c => c.label

/-- Labels have the keys of their components. -/
theorem keys_labels (cs : Components) : (labels cs).keys = cs.keys :=
  cs.keys_map _

/-- The labels are those of components. -/
theorem mem_labels_iff {cs : Components} {k : String} {l : Label} :
    (k, l) ∈ (labels cs).entries ↔ ∃ c, (k, c) ∈ cs.entries ∧ c.label = l := by
  change (k, l) ∈ cs.entries.map (fun e => (e.1, e.2.label)) ↔ _
  rw [List.mem_map]
  constructor
  · rintro ⟨⟨j, c⟩, hentry, heq⟩
    cases heq
    exact ⟨c, hentry, rfl⟩
  · rintro ⟨c, hentry, rfl⟩
    exact ⟨(k, c), hentry, rfl⟩

/-- A change that keeps labels keeps the table. -/
theorem labels_modify (cs : Components) (k : String) {f : Component → Component}
    (hf : ∀ c, (f c).label = c.label) : labels (cs.modify k f) = labels cs := by
  apply Keyed.ext_entries
  change (cs.entries.map _).map _ = cs.entries.map _
  rw [List.map_map]
  refine List.map_congr_left fun e _ => ?_
  change (e.1, (if e.1 = k then f e.2 else e.2).label) = (e.1, e.2.label)
  split
  · rw [hf]
  · rfl

/-- A search by label can be made among labels. -/
theorem find?_labels (cs : Components) (p : Label → Bool) :
    (cs.entries.find? fun (_, c) => p c.label).map (·.1) = ((labels cs).entries.find? fun e => p e.2).map (·.1) := by
  change _ = ((cs.entries.map fun e => (e.1, e.2.label)).find? _).map _
  rw [List.find?_map, Option.map_map]
  rfl

/-- A label is found by the key of its component. -/
theorem get?_labels (cs : Components) (k : String) : (labels cs).get? k = (cs.get? k).map Component.label := by
  cases hget : cs.get? k with
  | none =>
    rw [Option.map_none, ← Option.not_isSome_iff_eq_none]
    change ¬(labels cs).has k
    rw [Keyed.has_iff_mem_keys, keys_labels, ← Keyed.has_iff_mem_keys, Keyed.has, hget]
    exact Bool.false_ne_true
  | some c =>
    rw [Option.map_some, Keyed.get?_eq_some_iff, mem_labels_iff]
    exact ⟨c, cs.get?_eq_some_iff.mp hget, rfl⟩

/-- The directory of a label. -/
def Label.directory (l : Label) : String :=
  Path.directory (if l.relativePath = "" then l.filePath else l.relativePath)

/-- A label tells the directory of its component. -/
theorem directory_label (c : Component) : c.label.directory = CallGraph.directoryOf c :=
  rfl

/-- Components with one label are in one directory. -/
theorem directoryOf_congr {c d : Component} (h : c.label = d.label) :
    CallGraph.directoryOf c = CallGraph.directoryOf d := by
  rw [← directory_label, h, directory_label]

end RepoAtlas
