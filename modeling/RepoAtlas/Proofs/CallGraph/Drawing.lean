import RepoAtlas.CallGraph.View
import RepoAtlas.Proofs.CallGraph.Matching

/-!
# Ends of drawn edges

A drawing is closed if both ends of every edge are nodes of it. After an analysis it is so exactly if callers of
components are components, and no file takes for resolved what no component goes by.
-/

namespace RepoAtlas.CallGraph

open Extract

variable {g : CallGraph} {cs : Components} {r : Relationship}

/-- The elements of a drawing. -/
def elements (d : Json) : List Json :=
  ((d.field "cytoscape").field "elements").items

/-- A text among the data of an element. -/
def datum? (e : Json) (name : String) : Option String :=
  ((e.field "data").field name).str?

/-- Whether an element is an edge: it has a source. -/
def isEdge (e : Json) : Bool :=
  (datum? e "source").isSome

/-- The identifiers of the nodes of a drawing. -/
def nodeIds (d : Json) : List String :=
  ((elements d).filter fun e => !isEdge e).filterMap (datum? · "id")

/-- Both ends of every edge of a drawing are nodes of it. -/
def Closed (d : Json) : Prop :=
  ∀ e ∈ elements d, isEdge e = true →
    (∃ source, datum? e "source" = some source ∧ source ∈ nodeIds d) ∧
      ∃ target, datum? e "target" = some target ∧ target ∈ nodeIds d

/-- The elements of the drawing of a call graph are its components and its resolved relationships. -/
theorem elements_drawing (g : CallGraph) :
    elements g.drawing = g.functions.entries.map (fun e => drawnNode e.1 e.2) ++
      (g.relationships.filter (·.resolved)).map drawnEdge :=
  rfl

/-- A node is no edge. -/
theorem isEdge_drawnNode (id : String) (c : Component) : isEdge (drawnNode id c) = false :=
  rfl

/-- An edge is one. -/
theorem isEdge_drawnEdge (r : Relationship) : isEdge (drawnEdge r) = true :=
  rfl

/-- The nodes of a drawing are the components. -/
theorem nodeIds_drawing (g : CallGraph) : nodeIds g.drawing = g.functions.keys := by
  have hid : ∀ e : String × Component, datum? (drawnNode e.1 e.2) "id" = some e.1 := fun _ => rfl
  simp [nodeIds, elements_drawing, List.filter_append, List.filter_map, Function.comp_def,
    isEdge_drawnNode, isEdge_drawnEdge, List.filterMap_map, hid, Keyed.keys]

/-- The drawing of a call graph is closed if its resolved relationships are between components. -/
theorem closed_drawing_iff :
    Closed g.drawing ↔ ∀ r ∈ g.relationships, r.resolved = true →
      r.caller ∈ g.functions.keys ∧ r.callee ∈ g.functions.keys := by
  unfold Closed
  rw [nodeIds_drawing, elements_drawing]
  constructor
  · intro h r hr hresolved
    have hmem := List.mem_map_of_mem (f := drawnEdge) (List.mem_filter.mpr ⟨hr, hresolved⟩)
    obtain ⟨⟨source, hsource, hcaller⟩, target, htarget, hcallee⟩ :=
      h (drawnEdge r) (List.mem_append_right _ hmem) (isEdge_drawnEdge r)
    obtain rfl : r.caller = source := Option.some.inj hsource
    obtain rfl : r.callee = target := Option.some.inj htarget
    exact ⟨hcaller, hcallee⟩
  · intro h e he hedge
    rcases List.mem_append.mp he with hnode | hdrawn
    · obtain ⟨⟨k, c⟩, -, rfl⟩ := List.mem_map.mp hnode
      exact absurd hedge (by simp [isEdge_drawnNode])
    · obtain ⟨r, hr, rfl⟩ := List.mem_map.mp hdrawn
      obtain ⟨hr, hresolved⟩ := List.mem_filter.mp hr
      obtain ⟨hcaller, hcallee⟩ := h r hr hresolved
      exact ⟨⟨r.caller, rfl, hcaller⟩, r.callee, rfl, hcallee⟩

/-- Structs and interfaces stand under their identifiers. -/
def TypesByIdentifier (cs : Components) : Prop :=
  ∀ e ∈ cs.entries, e.2.kind = "struct" ∨ e.2.kind = "interface" → e.2.id = e.1

/-- What is found by kind and name is a component. -/
theorem exists_of_lastNamed? {kind name key id : String} (h : lastNamed? cs kind name = some (key, id)) :
    ∃ c, (key, c) ∈ cs.entries ∧ c.kind = kind ∧ c.id = id := by
  obtain ⟨⟨k, c⟩, hlast, heq⟩ := Option.map_eq_some_iff.mp h
  cases heq
  obtain ⟨hmem, hkind, -⟩ := mem_of_lastOf? hlast
  exact ⟨c, hmem, hkind, rfl⟩

/-- Where structs and interfaces stand under their identifiers, matches relate components. -/
theorem ends_of_implementation? {pair : String × String} (htypes : TypesByIdentifier cs)
    (h : implementation? cs pair = some r) : r.caller ∈ cs.keys ∧ r.callee ∈ cs.keys := by
  obtain ⟨⟨j, a⟩, hstruct, h⟩ := Option.bind_eq_some_iff.mp h
  obtain ⟨⟨k, b⟩, hinterface, rfl⟩ := Option.map_eq_some_iff.mp h
  obtain ⟨c, hc, hckind, rfl⟩ := exists_of_lastNamed? hstruct
  obtain ⟨d, hd, hdkind, rfl⟩ := exists_of_lastNamed? hinterface
  have hcaller : c.id = j := htypes (j, c) hc (Or.inl hckind)
  have hcallee : d.id = k := htypes (k, d) hd (Or.inr hdkind)
  refine ⟨?_, ?_⟩
  · rw [hcaller]
    exact Keyed.mem_keys_of_mem hc
  · rw [hcallee]
    exact Keyed.mem_keys_of_mem hd

/-- Where a relationship refers to nothing, the first with its ends is still the first after
resolution. -/
theorem find?_resolvedIn (hnone : targetOf? cs r = none) (rs : List Relationship) :
    (rs.map (resolvedIn cs)).find? (sameEnds r) = rs.find? (sameEnds r) := by
  have hsame : ∀ r', sameEnds r (resolvedIn cs r') = sameEnds r r' := by
    intro r'
    cases htarget : targetOf? cs r' with
    | none => simp only [resolvedIn, htarget]
    | some id =>
      have hkey : id ∈ cs.keys := mem_keys_of_target? htarget
      have hne : id ≠ r.callee := fun heq => not_mem_keys_of_targetOf? hnone (heq ▸ hkey)
      have hother : sameEnds r r' = false := by
        by_contra hends
        rw [targetOf?_congr (by simpa using hends), hnone] at htarget
        exact Option.some_ne_none id htarget.symm
      rw [hother]
      simp [sameEnds, resolvedIn, htarget, hne]
  rw [List.find?_map, show sameEnds r ∘ resolvedIn cs = sameEnds r from funext hsame]
  cases hfind : rs.find? (sameEnds r) with
  | none => rfl
  | some r' =>
    have hends : sameEnds r r' = true := List.find?_some hfind
    have hsome : targetOf? cs r' = none := (targetOf?_congr hends).trans hnone
    simp only [Option.map_some, resolvedIn, hsome]

/-- Of the relationships with the ends of a given one there is a first. -/
theorem exists_first {rs : List Relationship} (h : r ∈ rs) :
    ∃ r₁ ∈ rs, r₁.caller = r.caller ∧ r₁.callee = r.callee ∧ rs.find? (sameEnds r₁) = some r₁ := by
  cases hfind : rs.find? (sameEnds r) with
  | none => exact absurd (by simp [sameEnds]) (List.find?_eq_none.mp hfind r h)
  | some r₁ =>
    obtain ⟨hcaller, hcallee⟩ := sameEnds_iff.mp (List.find?_some hfind)
    exact ⟨r₁, List.mem_of_find?_eq_some hfind, hcaller, hcallee,
      sameEnds_congr hcaller hcallee ▸ hfind⟩

/-- Of relationships between the same ends the first remains. -/
theorem mem_relationships_analysis :
    r ∈ g.resolve.matchInterfaces.deduplicate.relationships ↔
      (g.relationships.map (resolvedIn g.functions) ++
        g.resolve.satisfied.filterMap (implementation? g.functions)).find? (sameEnds r) = some r := by
  rw [← relationships_matched]
  exact mem_distinct_iff.trans (by simp)

/-- A relationship to a key is resolved. -/
theorem resolved_of_mem_matched
    (hr : r ∈ g.relationships.map (resolvedIn g.functions) ++
      g.resolve.satisfied.filterMap (implementation? g.functions))
    (hkey : r.callee ∈ g.functions.keys) : r.resolved = true := by
  rcases List.mem_append.mp hr with hr | hr
  · obtain ⟨r₀, -, rfl⟩ := List.mem_map.mp hr
    exact resolved_of_mem_keys hkey
  · obtain ⟨pair, -, hpair⟩ := List.mem_filterMap.mp hr
    exact resolved_of_implementation? hpair

/-- A drawing after resolution is closed if components are related by components, and the first relationship
with its ends that refers to nothing is not taken for resolved. -/
theorem closed_analysis_iff (htypes : TypesByIdentifier g.functions) :
    Closed g.resolve.matchInterfaces.deduplicate.drawing ↔
      (∀ r ∈ g.relationships, (targetOf? g.functions r).isSome → r.caller ∈ g.functions.keys) ∧
      ∀ r, g.relationships.find? (sameEnds r) = some r → targetOf? g.functions r = none →
        r.resolved = false := by
  have hkeys : g.resolve.matchInterfaces.deduplicate.functions.keys = g.functions.keys :=
    keys_matched g
  rw [closed_drawing_iff, hkeys]
  constructor
  · intro hclosed
    refine ⟨fun r hr hfound => ?_, fun r hfirst hnone => ?_⟩
    · obtain ⟨id, hid⟩ := Option.isSome_iff_exists.mp hfound
      obtain ⟨r₁, hr₁, hcaller, hcallee, hfirst⟩ :=
        exists_first (List.mem_append_left _ (List.mem_map_of_mem (f := resolvedIn g.functions) hr))
      simp only [resolvedIn, hid] at hcaller hcallee
      have hkey : r₁.callee ∈ g.functions.keys := hcallee ▸ mem_keys_of_target? hid
      have hdrawn := hclosed r₁ (mem_relationships_analysis.mpr hfirst)
        (resolved_of_mem_matched hr₁ hkey)
      exact hcaller ▸ hdrawn.1
    · by_contra hresolved
      have hfind := find?_resolvedIn hnone g.relationships
      have hr := mem_relationships_analysis.mpr
        (by rw [List.find?_append, hfind, hfirst, Option.some_or])
      exact not_mem_keys_of_targetOf? hnone (hclosed r hr (by simpa using hresolved)).2
  · rintro ⟨hcallers, hflags⟩ r hr hresolved
    have hfind := mem_relationships_analysis.mp hr
    rcases List.mem_append.mp (List.mem_of_find?_eq_some hfind) with hmapped | himplements
    · obtain ⟨r₀, hr₀, rfl⟩ := List.mem_map.mp hmapped
      cases htarget : targetOf? g.functions r₀ with
      | some id =>
        simp only [resolvedIn, htarget]
        exact ⟨hcallers r₀ hr₀ (by simp [htarget]), mem_keys_of_target? htarget⟩
      | none =>
        simp only [resolvedIn, htarget] at hfind hresolved
        obtain ⟨r₁, hr₁, hcaller, hcallee, hfirst⟩ := exists_first hr₀
        rw [List.find?_append, find?_resolvedIn htarget, ← sameEnds_congr hcaller hcallee, hfirst,
          Option.some_or] at hfind
        obtain rfl := Option.some.inj hfind
        exact absurd (hflags r₁ hfirst htarget) (by simp [hresolved])
    · obtain ⟨pair, -, hpair⟩ := List.mem_filterMap.mp himplements
      exact ends_of_implementation? htypes hpair

/-- A file relates its own components: all callers are among them, and all callees that it takes for
resolved. -/
def FileResult.RelatesOwn (f : FileResult) : Prop :=
  ∀ r ∈ f.relationships, r.caller ∈ f.components.map (·.1) ∧
    (r.resolved = true → r.callee ∈ f.components.map (·.1))

/-- If files relate their own components, callers and resolved callees are gathered. -/
theorem ends_of_relatesOwn {before : CallGraph} {fs : List FileResult}
    (hown : ∀ f ∈ fs, f.RelatesOwn) (hr : r ∈ (before.cleared.gather fs).relationships) :
    r.caller ∈ (before.cleared.gather fs).functions.keys ∧
      (r.resolved = true → r.callee ∈ (before.cleared.gather fs).functions.keys) := by
  rw [relationships_gather] at hr
  obtain ⟨f, hf, hrf⟩ := List.mem_flatMap.mp hr
  have hkeys : ∀ k ∈ f.components.map (·.1), k ∈ (before.cleared.gather fs).functions.keys := by
    intro k hk
    obtain ⟨e, he, rfl⟩ := List.mem_map.mp hk
    rw [functions_gather, Keyed.mem_keys_insertAll]
    exact Or.inr (List.mem_map_of_mem (List.mem_flatMap.mpr ⟨f, hf, he⟩))
  exact ⟨hkeys _ (hown f hf r hrf).1, fun hresolved => hkeys _ ((hown f hf r hrf).2 hresolved)⟩

namespace Site

variable {s : Site} {files : List Listed}

/-- What is gathered has types under their identifiers. -/
theorem typesByIdentifier_gathered (s : Site) (before : CallGraph) (files : List Listed) :
    TypesByIdentifier (s.gathered before files).functions := by
  rintro ⟨k, c⟩ hentry hkind
  obtain ⟨r, hr, hc, hkey⟩ := exists_result_of_mem_gather rfl hentry
  obtain ⟨front, hrooted⟩ := rooted_of_mem_results hr hc
  have hunder : Under front c.id := hrooted.id.resolve_right fun hvue => by
    rcases hkind with hkind | hkind
    · exact absurd (hkind.symm.trans hvue.2) (by decide)
    · exact absurd (hkind.symm.trans hvue.2) (by decide)
  exact (hkey.trans (if_neg hunder.ne_empty)).symm

/-- The drawing of an analysis is closed exactly if components are related by components, and what refers to
none is not taken for resolved; it is so if every file relates its own components only. -/
theorem drawing_closed_iff {before : CallGraph} {report : Report}
    (h : s.analyze before files = .ok report) :
    (Closed report.graph.drawing ↔
      (∀ r ∈ (s.gathered before files).relationships,
        (targetOf? (s.gathered before files).functions r).isSome →
          r.caller ∈ (s.gathered before files).functions.keys) ∧
      ∀ r, (s.gathered before files).relationships.find? (sameEnds r) = some r →
        targetOf? (s.gathered before files).functions r = none → r.resolved = false) ∧
    ((∀ f ∈ s.results files, f.RelatesOwn) → Closed report.graph.drawing) := by
  have hiff := closed_analysis_iff (typesByIdentifier_gathered s before files)
  have hgraph : report.graph = (s.gathered before files).resolve.matchInterfaces.deduplicate :=
    graph_of_analyze h
  rw [hgraph]
  refine ⟨hiff, fun hown => hiff.mpr ⟨fun r hr _ => ?_, fun r hfirst hnone => ?_⟩⟩
  · exact (ends_of_relatesOwn hown hr).1
  · by_contra hresolved
    have hr := List.mem_of_find?_eq_some hfirst
    exact not_mem_keys_of_targetOf? hnone ((ends_of_relatesOwn hown hr).2 (by simpa using hresolved))

/-- A repository with a function that is called by an inner part of tests, which is no component, and
two files that relate their own components. -/
def checked : Site where
  toolbox := {}
  files := .directory true [("r", .directory true [
    ("a.py", .file "def g(): pass\ndef _test_f():\n    g()\n".toUTF8.toList),
    ("b.py", .file "def g(): pass\ndef f():\n    g()\n".toUTF8.toList),
    ("c.py", .file "class C: pass\nclass D(C):\n    def m(self): f()\n".toUTF8.toList)])]
  root := "/r"

/-- The file with an inner part of tests. -/
def hiddenFiles : Contents :=
  [("a.py", "python", "def g(): pass\ndef _test_f():\n    g()\n")]

/-- The files that relate their own components. -/
def ownFiles : Contents :=
  [("b.py", "python", "def g(): pass\ndef f():\n    g()\n"),
    ("c.py", "python", "class C: pass\nclass D(C):\n    def m(self): f()\n")]

/-- A call from an inner part of tests is drawn as an edge from no node. -/
theorem hidden_caller_not_closed :
    ∃ report, checked.analyze {} hiddenFiles.listed = .ok report ∧
      nodeIds report.graph.drawing = ["a.g"] ∧
      (elements report.graph.drawing).filterMap (datum? · "source") = ["a._test_f"] ∧
      ¬Closed report.graph.drawing := by
  have hholds : checked.Holds hiddenFiles := by decide +kernel
  obtain ⟨report, hreport⟩ := exists_report_listed checked {} hiddenFiles
  refine ⟨report, hreport, ?_⟩
  rw [closed_drawing_iff, graph_of_analyze hreport, gathered, hholds.results_listed]
  decide +kernel

/-- Two files that relate their own components have a closed drawing, also with an edge between them. -/
theorem own_drawing_closed :
    ∃ report, checked.analyze {} ownFiles.listed = .ok report ∧
      (∀ f ∈ checked.results ownFiles.listed, f.RelatesOwn) ∧
      (elements report.graph.drawing).filterMap (datum? · "source") = ["b.f", "c.D", "c.D"] ∧
      Closed report.graph.drawing := by
  have hholds : checked.Holds ownFiles := by decide +kernel
  obtain ⟨report, hreport⟩ := exists_report_listed checked {} ownFiles
  obtain ⟨hown, hsources⟩ : (∀ f ∈ checked.results ownFiles.listed, f.RelatesOwn) ∧
      (elements report.graph.drawing).filterMap (datum? · "source") = ["b.f", "c.D", "c.D"] := by
    rw [graph_of_analyze hreport, gathered, hholds.results_listed]
    unfold FileResult.RelatesOwn
    decide +kernel
  exact ⟨report, hreport, hown, hsources, (drawing_closed_iff hreport).2 hown⟩

end Site

end RepoAtlas.CallGraph
