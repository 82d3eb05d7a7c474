import RepoAtlas.Proofs.Extract.Caller
import RepoAtlas.Proofs.Extract.Trace

/-!
# The dotted names of a file

Which dotted name the identifiers of a file begin with depends on how the file is analysed, and a Vue file has
several. Every component is rooted in one of the dotted names of its file.
-/

namespace RepoAtlas.Extract

open Syntax

variable {c : Component} {front language : String} {parsers : Parsers} {file : SourceFile} {f : Findings}

namespace Python

open Grammar

variable {m : Module} {v : Visit}

/-- All components that a visit has found are rooted in one name. -/
def Visit.AllRooted (front : String) (v : Visit) : Prop :=
  ∀ c ∈ v.findings.components, Rooted front c

/-- A component is rooted in its module. -/
theorem rooted_of_component? {kind name : String} {line endLine : Nat} {body : List Phrase}
    (h : component? m kind name line endLine body = some c) : Rooted m.name c := by
  obtain ⟨hid, -, himplements⟩ := told_of_component? h
  exact ⟨Or.inl (hid ▸ under_append _ _), himplements⟩

/-- A visit that keeps a rooted component has rooted ones only. -/
theorem Visit.AllRooted.declare (hv : v.AllRooted front) (hc : Rooted front c) : (v.declare c).AllRooted front := by
  intro d hd
  rcases List.mem_append.mp hd with hd | hd
  · exact hv d hd
  · exact List.mem_singleton.mp hd ▸ hc

/-- Components stay rooted at a class. -/
theorem Visit.AllRooted.declareClass (hv : v.AllRooted front) (hc : Rooted front c) (bases : List String) :
    (v.declareClass m c bases).AllRooted front :=
  hv.declare ⟨hc.id, hc.implements⟩

/-- So they do at a function. -/
theorem Visit.AllRooted.declareFunction (hv : v.AllRooted front) (hc : Rooted front c) (parameters : List String) :
    (v.declareFunction c parameters).AllRooted front := by
  unfold Visit.declareFunction
  split
  · exact hv
  · exact hv.declare ⟨hc.id, hc.implements⟩

/-- So they do at a call. -/
theorem Visit.AllRooted.call (hv : v.AllRooted front) (line : Nat) (callee : Phrase) :
    (v.call m line callee).AllRooted front := by
  unfold Visit.call
  split
  · exact hv
  · exact hv

/-- Every event keeps components rooted. -/
theorem Visit.invariant_allRooted (m : Module) : Invariant m (Visit.AllRooted m.name) where
  place hv hfindings _ := by rwa [Visit.AllRooted, hfindings]
  declareClass hd hv := hv.declareClass (rooted_of_component? hd)
  declareFunction hd hv := hv.declareFunction (rooted_of_component? hd)
  call hv := hv.call

/-- The dotted name of a Python file. -/
def moduleName (file : SourceFile) : String :=
  (moduleOf file "").name

/-- The components of a Python file are rooted in it. -/
theorem rooted_of_analyze {statements? : List Char → Option (List Phrase)} (h : analyze statements? file = .ok f)
    (hc : c ∈ f.components) : Rooted (moduleName file) c := by
  obtain ⟨text, -, h⟩ := bind_eq_ok.mp h
  split at h
  · cases h
    cases hc
  · rename_i statements _
    cases h
    have hstart : Visit.AllRooted (moduleOf file text).name {} := fun d hd =>
      absurd hd List.not_mem_nil
    rw [findings_visitAll] at hc
    exact (Visit.invariant_allRooted _).run hstart (eventsAll statements) c hc

end Python

namespace Query

/-- The dotted name of a file that is analysed by a query. -/
def frontOf (file : SourceFile) : String :=
  moduleName { Source.of (file.text.getD "") (file.path.getD "") file.root with
    relativePath := Path.relative (file.path.getD "") (file.root.getD "") }

/-- So are those that queries find. -/
theorem rooted_of_analyze {queries : Queries} (h : analyze parsers queries language file = .ok (some f))
    (hc : c ∈ f.components) : Rooted (frontOf file) c := by
  obtain ⟨root, captures, h⟩ := findings_of_analyze h
  obtain ⟨⟨definitions, references⟩, -, h⟩ := bind_eq_ok.mp h
  cases h
  obtain ⟨d, -, rfl⟩ := List.mem_map.mp hc
  exact ⟨Or.inl (under_append _ _), rfl⟩

end Query

/-- The dotted name of a file with a path, as a list. -/
def named (file : SourceFile) (front : Source → String) : List String :=
  match file.tidyPath with
  | .ok path => [front (Source.of (file.text.getD "") path file.root)]
  | .error _ => []

/-- A file that is opened has its name. -/
theorem mem_named_of_opened {s : Source} {root : Cursor} (front : Source → String)
    (h : opened parsers language file = .ok (s, root)) : front s ∈ named file front := by
  simp only [opened, bind_eq_ok] at h
  obtain ⟨path, hpath, -, -, text, htext, tree, -, h⟩ := h
  obtain ⟨rfl, -⟩ := Prod.mk.inj (Except.ok.inj h)
  have hcontent : file.text = some text := by
    unfold SourceFile.content at htext
    split at htext
    · rename_i t ht
      exact ht.trans (congrArg some (Except.ok.inj htext))
    · simp at htext
  simp [named, hpath, hcontent]

namespace JavaScript

/-- The components of a JavaScript file are anchored in it. -/
theorem anchored_of_analyze (hc : c ∈ (analyze parsers file).components) :
    ∃ front ∈ named file moduleName, Anchored front c := by
  unfold analyze at hc
  split at hc
  · rename_i s root hopened
    exact ⟨_, mem_named_of_opened moduleName hopened, anchored_of_findings hc⟩
  · cases hc

end JavaScript

namespace TypeScript

/-- So are those of a TypeScript file. -/
theorem anchored_of_analyze (hc : c ∈ (analyze parsers file).components) :
    ∃ front ∈ named file moduleName, Anchored front c := by
  unfold analyze at hc
  split at hc
  · rename_i s root hopened
    exact ⟨_, mem_named_of_opened moduleName hopened, anchored_of_findings hc⟩
  · cases hc

end TypeScript

namespace Vue

variable {path text : String} {root : Option String}

/-- The dotted names of a Vue file: its own and those that its script can have. -/
def fronts (path : String) (root : Option String) : List String :=
  componentId path root ::
    (named ⟨some (Text.replace path ".vue" ".ts"), none, root⟩ TypeScript.moduleName ++
      named ⟨some (Text.replace path ".vue" ".js"), none, root⟩ JavaScript.moduleName)

/-- The components of a script are rooted in one of its names. -/
theorem rooted_of_scriptFindings {b : Script} (hc : c ∈ (scriptFindings parsers path root b).components) :
    ∃ front ∈ fronts path root, Rooted front c := by
  unfold scriptFindings at hc
  split at hc
  · obtain ⟨front, hfront, hanchored⟩ := TypeScript.anchored_of_analyze hc
    exact ⟨front, List.mem_cons_of_mem _ (List.mem_append_left _ hfront), hanchored.rooted⟩
  · obtain ⟨front, hfront, hanchored⟩ := JavaScript.anchored_of_analyze hc
    exact ⟨front, List.mem_cons_of_mem _ (List.mem_append_right _ hfront), hanchored.rooted⟩

/-- Telling what a component is in the framework changes its kind and its type of node only. -/
theorem enriched_eq (relationships : List Relationship) (c : Component) :
    ∃ kind nodeType, enriched relationships c = { c with kind := kind, nodeType := nodeType } := by
  unfold enriched
  split
  · exact ⟨c.kind, c.nodeType, rfl⟩
  · dsimp only
    split
    · split
      · exact ⟨_, _, rfl⟩
      · exact ⟨_, _, rfl⟩
    · exact ⟨_, _, rfl⟩

/-- Enriching keeps a component rooted. -/
theorem rooted_enriched (relationships : List Relationship) (hc : Rooted front c) :
    Rooted front (enriched relationships c) := by
  by_cases hkind : c.kind = "vue_component"
  · simpa [enriched, hkind] using hc
  · have hunder : Under front c.id := hc.id.resolve_right fun h => hkind h.2
    simp only [enriched, hkind, if_false]
    split
    · split
      · exact ⟨Or.inl hunder, hc.implements⟩
      · exact ⟨Or.inl hunder, hc.implements⟩
    · exact ⟨Or.inl hunder, hc.implements⟩

/-- Moving keeps components rooted. -/
theorem rooted_of_moved {offset : Nat} (hc : c ∈ (moved path root offset f).components)
    (h : ∀ d ∈ f.components, ∃ front ∈ fronts path root, Rooted front d) :
    ∃ front ∈ fronts path root, Rooted front c := by
  obtain ⟨d, hd, rfl⟩ := List.mem_map.mp hc
  obtain ⟨front, hfront, hrooted⟩ := h d hd
  exact ⟨front, hfront, hrooted.id, hrooted.implements⟩

/-- The component of a file and those of its script are rooted in the names of the file. -/
theorem rooted_of_enriched {inScript : List Component} {relationships : List Relationship}
    (hscript : ∀ d ∈ inScript, ∃ front ∈ fronts path root, Rooted front d)
    (hc : c ∈ (fileComponent path root text :: inScript).map (enriched relationships)) :
    ∃ front ∈ fronts path root, Rooted front c := by
  obtain ⟨d, hd, rfl⟩ := List.mem_map.mp hc
  rcases List.mem_cons.mp hd with rfl | hd
  · have hfile : Rooted (componentId path root) (fileComponent path root text) :=
      ⟨Or.inr ⟨rfl, rfl⟩, rfl⟩
    exact ⟨componentId path root, List.mem_cons_self, rooted_enriched relationships hfile⟩
  · obtain ⟨front, hfront, hrooted⟩ := hscript d hd
    exact ⟨front, hfront, rooted_enriched relationships hrooted⟩

/-- The findings of a script that is not blank, where the script stands in its file. -/
def inScript (parsers : Parsers) (path : String) (root : Option String) (script : Option Script) : Findings :=
  match script.filter (Text.strip ·.text != "") with
  | some b => moved path root b.offset (scriptFindings parsers path root b)
  | none => {}

/-- In a file with a script or a template the file is found first, and then what its script has. -/
theorem exists_of_findings {s : Source} {n : Cursor} (h : findings parsers s text root n = .ok f) :
    f = {} ∧ script? s n = .ok none ∨ ∃ script inTemplate, script? s n = .ok script ∧
      f.relationships = (inScript parsers s.path root script).relationships ++ inTemplate ∧
      f.components = (fileComponent s.path root text :: (inScript parsers s.path root script).components).map
        (enriched f.relationships) := by
  simp only [findings, bind_eq_ok] at h
  obtain ⟨script, hscript, h⟩ := h
  split at h
  · rename_i hnone
    cases script with
    | none => exact .inl ⟨(Except.ok.inj h).symm, hscript⟩
    | some b => simp at hnone
  · right
    split at h
    all_goals
      obtain ⟨inTemplate, -, h⟩ := bind_eq_ok.mp h
      cases h
      exact ⟨script, inTemplate, hscript, rfl, rfl⟩

/-- What a script has was found in it and moved. -/
theorem exists_of_mem_inScript {script : Option Script} (hc : c ∈ (inScript parsers path root script).components) :
    ∃ b, c ∈ (moved path root b.offset (scriptFindings parsers path root b)).components := by
  unfold inScript at hc
  split at hc
  · exact ⟨_, hc⟩
  · cases hc

/-- The components in the tree of a Vue file are rooted in the names of the file. -/
theorem rooted_of_findings {s : Source} {n : Cursor} (h : findings parsers s text root n = .ok f)
    (hc : c ∈ f.components) : ∃ front ∈ fronts s.path root, Rooted front c := by
  rcases exists_of_findings h with ⟨rfl, -⟩ | ⟨script, inTemplate, -, -, hall⟩
  · cases hc
  · rw [hall] at hc
    refine rooted_of_enriched (fun d hd => ?_) hc
    obtain ⟨b, hd⟩ := exists_of_mem_inScript hd
    exact rooted_of_moved hd fun e he => rooted_of_scriptFindings he

/-- The dotted names of a file with a path. -/
def frontsOf (file : SourceFile) : List String :=
  match file.tidyPath with
  | .ok path => fronts path file.root
  | .error _ => []

/-- The components of a Vue file are rooted in one of its names. -/
theorem rooted_of_analyze (hc : c ∈ (analyze parsers file).components) : ∃ front ∈ frontsOf file, Rooted front c := by
  simp only [analyze] at hc
  split at hc
  · rename_i f hf
    obtain ⟨⟨s, root⟩, hopened, hf⟩ := bind_eq_ok.mp hf
    simp only [opened, bind_eq_ok] at hopened
    obtain ⟨path, hpath, -, -, text, -, tree, -, hopened⟩ := hopened
    obtain ⟨rfl, -⟩ := Prod.mk.inj (Except.ok.inj hopened)
    obtain ⟨front, hfront, hrooted⟩ := rooted_of_findings hf hc
    refine ⟨front, ?_, hrooted⟩
    simp only [frontsOf, hpath]
    exact hfront
  · cases hc

end Vue

/-- The dotted name of a PHP file: that of its namespace if it declares one. -/
def Php.frontsOf (parsers : Parsers) (file : SourceFile) : List String :=
  match opened parsers "php" file with
  | .ok (s, root) =>
    match Php.namesOf s {} (root.within Php.depthLimit) with
    | .ok names => [Php.frontOf s names]
    | .error _ => []
  | .error _ => []

/-- Those of a PHP file are rooted in it or its namespace. -/
theorem Php.rooted_of_analyze (h : Php.analyze parsers file = .ok f) (hc : c ∈ f.components) :
    ∃ front ∈ Php.frontsOf parsers file, Rooted front c := by
  obtain ⟨path, -, h⟩ := bind_eq_ok.mp h
  split at h
  · cases h
    cases hc
  · split at h
    · rename_i s root hopened
      cases h
      unfold Php.findings at hc
      split at hc
      · cases hc
      · rename_i names hnames
        refine ⟨Php.frontOf s names, ?_, Php.rooted_of_components hc⟩
        simp [Php.frontsOf, hopened, hnames]
    · cases h
      cases hc

/-- Those of a Go file are rooted in it. -/
theorem Go.rooted_of_analyze {f : Go.FileFindings} (h : Go.analyze parsers file = .ok f)
    (hc : c ∈ f.findings.components) : ∃ front ∈ named file Go.moduleName, Rooted front c := by
  simp only [Go.analyze, bind_eq_ok] at h
  obtain ⟨path, hpath, h⟩ := h
  split at h
  · cases h
    refine ⟨_, ?_, Go.rooted_of_findings hc⟩
    simp [named, hpath]
  · cases h
    cases hc

/-- The dotted names of a file under the analysis that belongs to a language. -/
def frontsByLanguage (t : Toolbox) (language : String) (file : SourceFile) : List String :=
  match language with
  | "python" => [Python.moduleName file]
  | "javascript" => named file JavaScript.moduleName
  | "typescript" => named file TypeScript.moduleName
  | "java" => named file Java.moduleName
  | "csharp" => named file CSharp.moduleName
  | "c" => named file C.moduleName
  | "cpp" => named file Cpp.moduleName
  | "php" => Php.frontsOf t.parsers file
  | "go" => named file Go.moduleName
  | "vue" => Vue.frontsOf file
  | _ => []

/-- Findings that are rooted stay so for a file that is opened. -/
theorem rooted_of_opened (moduleName : Source → String) (findings : Source → Cursor → Except Fault Findings)
    (hfindings : ∀ {s root f c}, findings s root = .ok f → c ∈ f.components → Rooted (moduleName s) c)
    (h : (opened parsers language file >>= fun (s, root) => findings s root) = .ok f) (hc : c ∈ f.components) :
    ∃ front ∈ named file moduleName, Rooted front c := by
  obtain ⟨⟨s, root⟩, hopened, h⟩ := bind_eq_ok.mp h
  exact ⟨_, mem_named_of_opened moduleName hopened, hfindings h hc⟩

/-- What the analysis that belongs to a language finds is rooted in a dotted name of the file. -/
theorem rooted_of_byLanguage {t : Toolbox} {f : Go.FileFindings} (h : byLanguage t language file = .ok f)
    (hc : c ∈ f.findings.components) : ∃ front ∈ frontsByLanguage t language file, Rooted front c := by
  have hplain : ∀ {x : Except Fault Findings},
      (x.map fun g => ({ findings := g } : Go.FileFindings)) = .ok f → x = .ok f.findings := by
    intro x hx
    cases x with
    | error e => simp [Except.map] at hx
    | ok g => exact congrArg (fun g : Go.FileFindings => Except.ok g.findings) (Except.ok.inj hx)
  unfold byLanguage at h
  split at h
  · exact ⟨_, List.mem_singleton_self _, Python.rooted_of_analyze (hplain h) hc⟩
  · cases h
    obtain ⟨front, hfront, hanchored⟩ := JavaScript.anchored_of_analyze hc
    exact ⟨front, hfront, hanchored.rooted⟩
  · cases h
    obtain ⟨front, hfront, hanchored⟩ := TypeScript.anchored_of_analyze hc
    exact ⟨front, hfront, hanchored.rooted⟩
  · exact rooted_of_opened Java.moduleName Java.findings Java.rooted_of_findings (hplain h) hc
  · exact rooted_of_opened CSharp.moduleName CSharp.findings CSharp.rooted_of_findings (hplain h) hc
  · exact rooted_of_opened C.moduleName C.findings C.rooted_of_findings (hplain h) hc
  · exact rooted_of_opened Cpp.moduleName Cpp.findings Cpp.rooted_of_findings (hplain h) hc
  · exact Php.rooted_of_analyze (hplain h) hc
  · exact Go.rooted_of_analyze h hc
  · cases h
    exact Vue.rooted_of_analyze hc
  · cases h
    cases hc

/-- The dotted names that the identifiers of a file begin with. -/
def fronts (t : Toolbox) (language : String) (file : SourceFile) : List String :=
  if language = "vue" || language = "go" then frontsByLanguage t language file
  else
    match Query.analyze t.parsers t.queries language file with
    | .ok (some _) => [Query.frontOf file]
    | _ => frontsByLanguage t language file

/-- Whatever the language, components are rooted in a front of the file. -/
theorem rooted_of_analyze {t : Toolbox} {f : Go.FileFindings} (h : analyze t language file = .ok f)
    (hc : c ∈ f.findings.components) : ∃ front ∈ fronts t language file, Rooted front c := by
  unfold analyze at h
  unfold fronts
  split at h
  · rename_i hlanguage
    rw [if_pos hlanguage]
    exact rooted_of_byLanguage h hc
  · rename_i hlanguage
    rw [if_neg hlanguage]
    cases hquery : Query.analyze t.parsers t.queries language file with
    | error e =>
      simp only [hquery] at h ⊢
      exact rooted_of_byLanguage h hc
    | ok found =>
      cases found with
      | none =>
        simp only [hquery] at h ⊢
        exact rooted_of_byLanguage h hc
      | some g =>
        simp only [hquery] at h ⊢
        cases h
        exact ⟨_, List.mem_singleton_self _, Query.rooted_of_analyze hquery hc⟩

end RepoAtlas.Extract
