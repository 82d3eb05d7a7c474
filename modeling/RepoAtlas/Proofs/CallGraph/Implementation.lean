import RepoAtlas.Proofs.CallGraph.Reuse
import RepoAtlas.Proofs.Extract.Callee

/-!
# Edges from structs to the interfaces they satisfy

The relationship of a match comes behind all that the files relate, and of relationships with the same ends the
first is kept. So a match is told only if no file relates the struct to the interface.
-/

namespace RepoAtlas.Extract.Go

open Syntax

variable {s : Source} {root c : Cursor} {k : Context} {r : Relationship}

/-- In a Go file things call or embed. -/
theorem kind_of_findings (h : r ∈ (findings s root).findings.relationships) :
    r.kind = "calls" ∨ r.kind = "embeds" := by
  obtain ⟨-, k, now, c, -, -, h⟩ := exists_of_mem_findings h
  rcases called_or_embedded h with ⟨e, rs, -, -, hrs, hr⟩ | hembedded
  · exact Or.inl (told_of_callAt hrs hr).2.1
  · exact Or.inr hembedded.kind

end RepoAtlas.Extract.Go

namespace RepoAtlas.CallGraph

open Extract

variable {g : CallGraph} {a i : Component} {r : Relationship}

/-- A struct that satisfies an interface: the methods known by its name include those that are asked for
by the name of the interface, and both are the last of their kind and name. -/
structure Matches (g : CallGraph) (a i : Component) : Prop where
  methods : ∃ known wanted, g.structs.get? a.name = some known ∧
    g.interfaces.get? i.name = some wanted ∧ wanted ≠ [] ∧ ∀ m ∈ wanted, m ∈ known
  struct : ∃ key, lastOf? g.functions "struct" a.name = some (key, a)
  interface : ∃ key, lastOf? g.functions "interface" i.name = some (key, i)

/-- That a struct implements an interface. -/
def implementation (a i : Component) : Relationship :=
  { caller := a.id, callee := i.id, kind := "implements", resolved := true }

/-- A match gives rise to an implementation. -/
theorem Matches.implementation?_eq (h : Matches g a i) :
    implementation? g.functions (a.name, i.name) = some (implementation a i) := by
  obtain ⟨key, hstruct⟩ := h.struct
  obtain ⟨key', hinterface⟩ := h.interface
  simp [implementation?, lastNamed?, hstruct, hinterface, implementation]

/-- A match is found. -/
theorem Matches.mem_satisfied (h : Matches g a i) : (a.name, i.name) ∈ g.resolve.satisfied :=
  CallGraph.mem_satisfied.mpr h.methods

/-- The last struct and the last interface of two names match if the names are among the satisfied
pairs. -/
theorem exists_matches {name wanted key key' id id' : String} (hpair : (name, wanted) ∈ g.satisfied)
    (hstruct : lastNamed? g.functions "struct" name = some (key, id))
    (hinterface : lastNamed? g.functions "interface" wanted = some (key', id')) :
    ∃ a i, Matches g a i ∧ a.id = id ∧ i.id = id' := by
  obtain ⟨⟨_, a⟩, ha, heq⟩ := Option.map_eq_some_iff.mp hstruct
  obtain ⟨⟨_, i⟩, hi, heq'⟩ := Option.map_eq_some_iff.mp hinterface
  cases heq
  cases heq'
  obtain ⟨-, -, rfl⟩ := mem_of_lastOf? ha
  obtain ⟨-, -, rfl⟩ := mem_of_lastOf? hi
  exact ⟨a, i, ⟨CallGraph.mem_satisfied.mp hpair, ⟨_, ha⟩, ⟨_, hi⟩⟩, rfl, rfl⟩

/-- One relationship has the ends of a match: the first that is resolved to them, or else the match itself. -/
theorem Matches.mem_between_iff (h : Matches g a i) :
    r ∈ g.resolve.matchInterfaces.deduplicate.relationships ∧ r.caller = a.id ∧ r.callee = i.id ↔
      r = (g.resolve.relationships.find? (sameEnds (implementation a i))).getD (implementation a i) := by
  rw [mem_relationships_analysis_iff]
  constructor
  · rintro ⟨hr, hcaller, hcallee⟩
    rw [sameEnds_congr (r := implementation a i) hcaller hcallee] at hr
    rcases hr with hfirst | ⟨hnone, pair, -, hpair⟩
    · rw [hfirst, Option.getD_some]
    · rw [hnone, Option.getD_none]
      exact eq_of_implementation? h.implementation?_eq hpair (sameEnds_iff.mpr ⟨hcaller, hcallee⟩)
  · rintro rfl
    cases hfind : g.resolve.relationships.find? (sameEnds (implementation a i)) with
    | none => exact ⟨Or.inr ⟨hfind, _, h.mem_satisfied, h.implementation?_eq⟩, rfl, rfl⟩
    | some r =>
      obtain ⟨hcaller, hcallee⟩ := sameEnds_iff.mp (List.find?_some hfind)
      rw [Option.getD_some, sameEnds_congr hcaller hcallee]
      exact ⟨Or.inl hfind, hcaller, hcallee⟩

/-- The interface of a match is a component. -/
theorem Matches.mem_keys (h : Matches g a i) (htypes : TypesByIdentifier g.functions) :
    i.id ∈ g.functions.keys := (ends_of_implementation? htypes h.implementation?_eq).2

/-- A relationship is resolved to the ends of a match if its caller is the struct and it refers to the
interface. -/
theorem Matches.sameEnds_resolvedIn_iff (h : Matches g a i) (htypes : TypesByIdentifier g.functions) :
    sameEnds (implementation a i) (resolvedIn g.functions r) = true ↔
      r.caller = a.id ∧ targetOf? g.functions r = some i.id := by
  rw [sameEnds_iff]
  change _ = a.id ∧ _ = i.id ↔ _
  cases htarget : targetOf? g.functions r with
  | none =>
    have hne : r.callee ≠ i.id := fun heq =>
      not_mem_keys_of_targetOf? htarget (heq ▸ h.mem_keys htypes)
    simp [resolvedIn, htarget, hne]
  | some id => simp [resolvedIn, htarget]

/-- No relationship is resolved to the ends of a match if none from the struct refers to the
interface. -/
theorem Matches.find?_eq_none_iff (h : Matches g a i) (htypes : TypesByIdentifier g.functions) :
    g.resolve.relationships.find? (sameEnds (implementation a i)) = none ↔
      ∀ r ∈ g.relationships, r.caller = a.id → targetOf? g.functions r ≠ some i.id := by
  rw [List.find?_eq_none, relationships_resolve, List.forall_mem_map]
  simp only [h.sameEnds_resolvedIn_iff htypes, not_and, ne_eq]

/-- Resolving keeps the kind. -/
theorem kind_resolvedIn (cs : Components) (r : Relationship) : (resolvedIn cs r).kind = r.kind := by
  unfold resolvedIn
  split <;> rfl

/-- A match is told of after the analysis if no relationship from the struct refers to the interface. -/
theorem Matches.told_iff (h : Matches g a i) (htypes : TypesByIdentifier g.functions)
    (hkinds : ∀ r ∈ g.relationships, r.kind ≠ "implements") :
    (∃ r ∈ g.resolve.matchInterfaces.deduplicate.relationships,
        r.caller = a.id ∧ r.callee = i.id ∧ r.kind = "implements") ↔
      ∀ r ∈ g.relationships, r.caller = a.id → targetOf? g.functions r ≠ some i.id := by
  rw [← h.find?_eq_none_iff htypes]
  constructor
  · rintro ⟨r, hr, hcaller, hcallee, hkind⟩
    have heq := h.mem_between_iff.mp ⟨hr, hcaller, hcallee⟩
    cases hfind : g.resolve.relationships.find? (sameEnds (implementation a i)) with
    | none => rfl
    | some r' =>
      rw [hfind, Option.getD_some] at heq
      subst heq
      have hmem := List.mem_of_find?_eq_some hfind
      obtain ⟨r₀, hr₀, rfl⟩ := List.mem_map.mp (relationships_resolve g ▸ hmem)
      exact absurd ((kind_resolvedIn g.functions r₀).symm.trans hkind) (hkinds r₀ hr₀)
  · intro hnone
    obtain ⟨hr, hcaller, hcallee⟩ :=
      h.mem_between_iff.mpr (show implementation a i = _ by rw [hnone, Option.getD_none])
    exact ⟨implementation a i, hr, hcaller, hcallee, rfl⟩

namespace Site

variable {s : Site} {files : List Listed}

/-- In Go files things call or embed. -/
theorem kind_of_mem_results (hgo : ∀ l ∈ files, l.language = some (some "go")) {f : FileResult}
    (hf : f ∈ s.results files) (hr : r ∈ f.relationships) : r.kind = "calls" ∨ r.kind = "embeds" := by
  obtain ⟨l, hl, hresult⟩ := List.mem_filterMap.mp hf
  obtain ⟨path, -, hresult⟩ := Option.bind_eq_some_iff.mp hresult
  obtain ⟨found, hfound, rfl⟩ := Option.map_eq_some_iff.mp hresult
  simp only [findings?] at hfound
  split at hfound
  · rename_i text language htext hlanguage
    obtain rfl := Option.some.inj (Option.some.inj ((hgo l hl).symm.trans hlanguage))
    have hanalyze : Go.analyze s.toolbox.parsers _ = .ok found := eq_ok_of_toOption hfound
    rcases Go.findings_of_analyze hanalyze with ⟨source, root, rfl⟩ | rfl
    · exact Go.kind_of_findings hr
    · cases hr
  · cases hfound
    cases hr
  · cases hfound

/-- Every match gives one relationship between struct and interface, which tells of the match exactly if no
file has a call or an embedding between the two. -/
theorem implementation_kept_iff (before : CallGraph) (hlocated : Located files)
    (hgo : ∀ l ∈ files, l.language = some (some "go")) :
    ∃ report, s.analyze before files = .ok report ∧
      ∀ a i, Matches (s.gathered before files) a i →
        (∃! r, r ∈ report.graph.relationships ∧ r.caller = a.id ∧ r.callee = i.id) ∧
        ((∃ r ∈ report.graph.relationships,
            r.caller = a.id ∧ r.callee = i.id ∧ r.kind = "implements") ↔
          ∀ f ∈ s.results files, ∀ r ∈ f.relationships, r.caller = a.id →
            targetOf? (s.gathered before files).functions r ≠ some i.id) := by
  refine ⟨s.report before files, analyze_of_located before hlocated, fun a i h => ?_⟩
  have hrelated : (s.gathered before files).relationships =
      (s.results files).flatMap FileResult.relationships :=
    relationships_gather before.cleared (s.results files)
  have hkinds : ∀ r ∈ (s.gathered before files).relationships, r.kind ≠ "implements" := by
    intro r hr
    rw [hrelated] at hr
    obtain ⟨f, hf, hr⟩ := List.mem_flatMap.mp hr
    rcases kind_of_mem_results hgo hf hr with hkind | hkind
    · rw [hkind]
      decide
    · rw [hkind]
      decide
  have htold := h.told_iff (typesByIdentifier_gathered s before files) hkinds
  simp only [hrelated, List.mem_flatMap, forall_exists_index, and_imp] at htold
  refine ⟨⟨_, h.mem_between_iff.mpr rfl, fun r hr => h.mem_between_iff.mp hr⟩, htold.trans ?_⟩
  exact ⟨fun hnone f hf r => hnone r f hf, fun hnone r f hf => hnone f hf r⟩

/-- An interface, and a struct that embeds it and has its method. -/
def embeddingText : String :=
  "package p\n\ntype I interface{ A() }\n\ntype S struct{ I }\n\nfunc (S) A() {}\n"

/-- An interface, and a struct that has its method. -/
def plainText : String :=
  "package p\n\ntype I interface{ A() }\n\ntype S struct{}\n\nfunc (S) A() {}\n"

/-- The tree of a declaration like `type S struct{ I }`, from where it starts. -/
def embeddingTree (start : Nat) : Syntax.Tree :=
  .node "type_declaration" start (start + 18) [.sign "type" start (start + 4),
    .node "type_spec" (start + 5) (start + 18) [letter "type_identifier" (start + 5),
      .node "struct_type" (start + 7) (start + 18) [.sign "struct" (start + 7) (start + 13),
        .node "field_declaration_list" (start + 13) (start + 18) [
          .node "field_declaration" (start + 15) (start + 16) [letter "type_identifier" (start + 15)]]]]]

/-- A module of two files with these texts. -/
def wrappers : Site where
  toolbox := { parsers := { trees := [
    (("go", embeddingText), fileTree embeddingText [interfaceTree 11 1, embeddingTree 36, methodTree 56]),
    (("go", plainText), fileTree plainText [interfaceTree 11 1, structTree 36, methodTree 53])] } }
  files := .directory true [("r", .directory true [
    ("a.go", .file embeddingText.toUTF8.toList), ("b.go", .file plainText.toUTF8.toList)])]
  root := "/r"

/-- The file in which the struct embeds the interface. -/
def embeddingFile : Contents :=
  [("a.go", "go", embeddingText)]

/-- The file in which the struct embeds nothing. -/
def plainFile : Contents :=
  [("b.go", "go", plainText)]

/-- A struct that embeds nothing is told to implement the interface that it satisfies. -/
theorem plain_implementation_told :
    Located plainFile.listed ∧ (∀ l ∈ plainFile.listed, l.language = some (some "go")) ∧
    ∃ report a i, wrappers.analyze {} plainFile.listed = .ok report ∧
      Matches (wrappers.gathered {} plainFile.listed) a i ∧ a.id = "b.S" ∧ i.id = "b.I" ∧
      (∃! r, r ∈ report.graph.relationships ∧ r.caller = "b.S" ∧ r.callee = "b.I") ∧
      ∃ r ∈ report.graph.relationships,
        r.caller = "b.S" ∧ r.callee = "b.I" ∧ r.kind = "implements" := by
  have hgo : ∀ l ∈ plainFile.listed, l.language = some (some "go") := by decide
  have hholds : wrappers.Holds plainFile := by decide +kernel
  obtain ⟨hpair, hstruct, hinterface, hfound⟩ :
      ("S", "I") ∈ (wrappers.gathered {} plainFile.listed).satisfied ∧
      lastNamed? (wrappers.gathered {} plainFile.listed).functions "struct" "S" =
        some ("b.S", "b.S") ∧
      lastNamed? (wrappers.gathered {} plainFile.listed).functions "interface" "I" =
        some ("b.I", "b.I") ∧
      ∀ f ∈ wrappers.results plainFile.listed, f.relationships = [] := by
    rw [gathered, hholds.results_listed]
    decide +kernel
  obtain ⟨a, i, hmatch, ha, hi⟩ := exists_matches hpair hstruct hinterface
  obtain ⟨report, hreport, hall⟩ := implementation_kept_iff {} (located_listed plainFile) hgo
  obtain ⟨hone, htold⟩ := hall a i hmatch
  refine ⟨located_listed plainFile, hgo, report, a, i, hreport, hmatch, ha, hi, ha ▸ hi ▸ hone, ?_⟩
  rw [← ha, ← hi]
  refine htold.mpr fun f hf r hr => ?_
  rw [hfound f hf] at hr
  exact absurd hr List.not_mem_nil

/-- A struct that embeds an interface and satisfies it is related to it by the embedding only. -/
theorem embedding_implementation_not_told :
    ∃ report a i, wrappers.analyze {} embeddingFile.listed = .ok report ∧
      Matches (wrappers.gathered {} embeddingFile.listed) a i ∧ a.id = "a.S" ∧ i.id = "a.I" ∧
      report.graph.relationships.map (fun r => (r.caller, r.callee, r.kind)) =
        [("a.S", "a.I", "embeds")] := by
  have hholds : wrappers.Holds embeddingFile := by decide +kernel
  obtain ⟨report, hreport⟩ := exists_report_listed wrappers {} embeddingFile
  obtain ⟨hpair, hstruct, hinterface, hrelated⟩ :
      ("S", "I") ∈ (wrappers.gathered {} embeddingFile.listed).satisfied ∧
      lastNamed? (wrappers.gathered {} embeddingFile.listed).functions "struct" "S" =
        some ("a.S", "a.S") ∧
      lastNamed? (wrappers.gathered {} embeddingFile.listed).functions "interface" "I" =
        some ("a.I", "a.I") ∧
      report.graph.relationships.map (fun r => (r.caller, r.callee, r.kind)) =
        [("a.S", "a.I", "embeds")] := by
    rw [graph_of_analyze hreport, gathered, hholds.results_listed]
    decide +kernel
  obtain ⟨a, i, hmatch, ha, hi⟩ := exists_matches hpair hstruct hinterface
  exact ⟨report, a, i, hreport, hmatch, ha, hi, hrelated⟩

end Site

end RepoAtlas.CallGraph
