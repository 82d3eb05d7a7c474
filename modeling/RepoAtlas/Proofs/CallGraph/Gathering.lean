import RepoAtlas.CallGraph.Analysis
import RepoAtlas.Proofs.Extract.Front
import RepoAtlas.Proofs.Files.Reading
import RepoAtlas.Proofs.Keyed

/-!
# What a call graph is gathered from

An analysis gathers the results of files in order. All relationships are kept; of components with one key the
last counts, and so does the last file that tells the methods of a type.
-/

namespace RepoAtlas.CallGraph

open Extract

/-- What was found in a file, and where the file is. -/
structure FileResult where
  place : String
  found : Go.FileFindings

namespace FileResult

/-- The key of a component of the file. -/
def key (r : FileResult) (c : Component) : String :=
  if c.id = "" then r.place ++ ":" ++ c.name else c.id

/-- The components of the file with their keys. -/
def components (r : FileResult) : List (String × Component) :=
  r.found.findings.components.map fun c => (r.key c, c)

/-- The relationships of the file. -/
def relationships (r : FileResult) : List Relationship :=
  r.found.findings.relationships

end FileResult

/-- Take in results one after the other. -/
def gather (g : CallGraph) (rs : List FileResult) : CallGraph :=
  rs.foldl (fun g r => g.addFindings r.place r.found) g

/-- The components of a file are inserted. -/
theorem functions_addFindings (g : CallGraph) (r : FileResult) :
    (g.addFindings r.place r.found).functions = g.functions.insertAll r.components := by
  rw [Keyed.insertAll, FileResult.components, List.foldl_map]
  rfl

/-- Taking in the call graph that a worker makes of a file is taking in what was found in it. -/
theorem join_ofFindings (g : CallGraph) (r : FileResult) :
    g.join (ofFindings r.place r.found) = g.addFindings r.place r.found := by
  have hfunctions : merged g.functions (ofFindings r.place r.found).functions =
      (g.addFindings r.place r.found).functions := by
    rw [functions_addFindings]
    exact Keyed.insertAll_entries_insertAll g.functions Keyed.empty r.components
  rw [join, hfunctions]
  rfl

/-- The components of all files are inserted in order. -/
theorem functions_gather (g : CallGraph) (rs : List FileResult) :
    (g.gather rs).functions = g.functions.insertAll (rs.flatMap FileResult.components) := by
  induction rs generalizing g with
  | nil => rfl
  | cons r rs ih =>
    change (gather (g.addFindings r.place r.found) rs).functions = _
    rw [ih, functions_addFindings, List.flatMap_cons, Keyed.insertAll_append]

/-- Relationships are gathered in order. -/
theorem relationships_gather (g : CallGraph) (rs : List FileResult) :
    (g.gather rs).relationships = g.relationships ++ rs.flatMap FileResult.relationships := by
  induction rs generalizing g with
  | nil => exact (List.append_nil _).symm
  | cons r rs ih =>
    change (gather (g.addFindings r.place r.found) rs).relationships = _
    rw [ih, List.flatMap_cons, ← List.append_assoc]
    rfl

/-- The methods that are told last: by the last of the results whose table has the type. -/
def lastTold (table : Go.FileFindings → MethodSets) (rs : List FileResult) (type : String) :
    Option (List String) :=
  rs.reverse.findSome? fun r => (table r.found).get? type

/-- The methods of a type are those told last, or else those known before. -/
theorem get?_foldl_merged (table : Go.FileFindings → MethodSets) (t : MethodSets) (rs : List FileResult)
    (type : String) :
    (rs.foldl (fun t r => merged t (table r.found)) t).get? type = (lastTold table rs type).or (t.get? type) := by
  induction rs generalizing t with
  | nil => rfl
  | cons r rs ih =>
    have hmerged : (merged t (table r.found)).get? type =
        ((table r.found).get? type).or (t.get? type) :=
      t.get?_insertAll_entries (table r.found) type
    rw [List.foldl_cons, ih, hmerged, ← Option.or_assoc, lastTold, lastTold, List.reverse_cons, List.findSome?_append]
    simp

/-- The methods of a struct are those told last. -/
theorem get?_structs_gather (g : CallGraph) (rs : List FileResult) (type : String) :
    (g.gather rs).structs.get? type = (lastTold (·.structs) rs type).or (g.structs.get? type) := by
  rw [← get?_foldl_merged]
  congr 1
  induction rs generalizing g with
  | nil => rfl
  | cons r rs ih => exact ih (g.addFindings r.place r.found)

/-- So are those of an interface. -/
theorem get?_interfaces_gather (g : CallGraph) (rs : List FileResult) (type : String) :
    (g.gather rs).interfaces.get? type = (lastTold (·.interfaces) rs type).or (g.interfaces.get? type) := by
  rw [← get?_foldl_merged]
  congr 1
  induction rs generalizing g with
  | nil => rfl
  | cons r rs ih => exact ih (g.addFindings r.place r.found)

/-- A call graph without components, in which the methods of types stay known. -/
def cleared (g : CallGraph) : CallGraph :=
  { g with functions := Keyed.empty, relationships := [] }

/-- What is gathered without components at first is a component of some result, under its key there. -/
theorem exists_result_of_mem_gather {g : CallGraph} (hempty : g.functions = Keyed.empty)
    {rs : List FileResult} {k : String} {c : Component} (h : (k, c) ∈ (g.gather rs).functions.entries) :
    ∃ r ∈ rs, c ∈ r.found.findings.components ∧ k = r.key c := by
  rw [functions_gather, hempty] at h
  have hlisted := (Keyed.mem_entries_insertAll h).resolve_left List.not_mem_nil
  obtain ⟨r, hr, hentry⟩ := List.mem_flatMap.mp hlisted
  obtain ⟨d, hd, heq⟩ := List.mem_map.mp hentry
  cases heq
  exact ⟨r, hr, hd, rfl⟩

namespace Site

variable {s : Site} {files : List Listed}

/-- The result of a listed file that can be analysed. -/
def result? (s : Site) (l : Listed) : Option FileResult :=
  l.path.join.bind fun path => (s.findings? path l.language).map fun f =>
    ⟨Path.tidy (Path.join (Path.tidy s.root) path), f⟩

/-- The results of the listed files that can be analysed, in order. -/
def results (s : Site) (files : List Listed) : List FileResult :=
  files.filterMap s.result?

/-- The dotted names that the identifiers of a listed file begin with. -/
def fronts (s : Site) (l : Listed) : List String :=
  match l.path.join, l.language.join with
  | some path, some language =>
    let place := Path.tidy (Path.join (Path.tidy s.root) path)
    match Files.readText s.files (Path.tidy s.root) place with
    | .ok text => Extract.fronts s.toolbox language ⟨some place, some text, some s.root⟩
    | .error _ => []
  | _, _ => []

/-- The result of a file with a given text. -/
def resultOf (s : Site) (path language text : String) : Option FileResult :=
  (Extract.analyze s.toolbox language ⟨some (Path.tidy (Path.join (Path.tidy s.root) path)), some text,
    some s.root⟩).toOption.map (FileResult.mk (Path.tidy (Path.join (Path.tidy s.root) path)))

/-- A list of files, each with its path, its language and its text. -/
abbrev Contents := List (String × String × String)

/-- Files with their contents, listed. -/
def Contents.listed (contents : Contents) : List Listed :=
  contents.map fun t => ⟨some (some t.1), some (some t.2.1)⟩

/-- The files stand below the root of the site with their texts, where their paths lead straight
down. -/
def Holds (s : Site) (contents : Contents) : Prop :=
  ∀ t ∈ contents,
    (Path.parts (Path.tidy s.root)).isPrefixOf
      (Path.parts (Path.tidy (Path.join (Path.tidy s.root) t.1))) = true ∧
    (s.files.straight? (Path.parts (Path.tidy (Path.join (Path.tidy s.root) t.1)))).bind
      FileNode.text? = some t.2.2

instance (s : Site) (contents : Contents) : Decidable (s.Holds contents) :=
  List.decidableBAll _ contents

variable {contents : Contents}

/-- The files that a site holds can be read. -/
theorem Holds.readText (h : s.Holds contents) {t : String × String × String} (ht : t ∈ contents) :
    Files.readText s.files (Path.tidy s.root) (Path.tidy (Path.join (Path.tidy s.root) t.1)) = .ok t.2.2 :=
  Files.readText_of_straight? (h t ht).1 (h t ht).2

/-- The result of such a file is that of its text. -/
theorem Holds.result?_eq (h : s.Holds contents) {t : String × String × String} (ht : t ∈ contents) :
    s.result? ⟨some (some t.1), some (some t.2.1)⟩ = s.resultOf t.1 t.2.1 t.2.2 := by
  simp [result?, findings?, resultOf, h.readText ht]

/-- The results of all of them are those of their texts. -/
theorem Holds.results_listed (h : s.Holds contents) :
    s.results contents.listed = contents.filterMap fun t => s.resultOf t.1 t.2.1 t.2.2 := by
  rw [results, Contents.listed, List.filterMap_map]
  exact List.filterMap_congr fun t ht => h.result?_eq ht

/-- A file that cannot be read has no result. -/
theorem result?_of_unread {path : String} {fault : Files.ReadFault}
    (h : Files.readText s.files (Path.tidy s.root) (Path.tidy (Path.join (Path.tidy s.root) path)) = .error fault)
    (language : Option (Option String)) : s.result? ⟨some (some path), language⟩ = none := by
  simp [result?, findings?, h]

/-- The fronts of such a file are those of its text. -/
theorem Holds.fronts_eq (h : s.Holds contents) {path language text : String}
    (ht : (path, language, text) ∈ contents) :
    s.fronts ⟨some (some path), some (some language)⟩ = Extract.fronts s.toolbox language
      ⟨some (Path.tidy (Path.join (Path.tidy s.root) path)), some text, some s.root⟩ := by
  simp [fronts, h.readText ht]

/-- The components of a result begin with a front of the file. -/
theorem rooted_of_result? {l : Listed} {r : FileResult} {c : Component} (h : s.result? l = some r)
    (hc : c ∈ r.found.findings.components) : ∃ front ∈ s.fronts l, Rooted front c := by
  obtain ⟨path, hpath, h⟩ := Option.bind_eq_some_iff.mp h
  obtain ⟨f, hf, rfl⟩ := Option.map_eq_some_iff.mp h
  simp only [findings?] at hf
  split at hf
  · rename_i text language htext hlanguage
    obtain ⟨front, hfront, hrooted⟩ := rooted_of_analyze (eq_ok_of_toOption hf) hc
    refine ⟨front, ?_, hrooted⟩
    simp only [fronts, hpath, hlanguage, Option.join_some, htext]
    exact hfront
  · cases hf
    cases hc
  · cases hf

/-- The components of all results begin with some front. -/
theorem rooted_of_mem_results {r : FileResult} {c : Component} (h : r ∈ s.results files)
    (hc : c ∈ r.found.findings.components) : ∃ front, Rooted front c := by
  obtain ⟨l, -, hl⟩ := List.mem_filterMap.mp h
  obtain ⟨front, -, hrooted⟩ := rooted_of_result? hl hc
  exact ⟨front, hrooted⟩

/-- Analysing one more file takes in its result. -/
theorem add_eq_gather (s : Site) (g : CallGraph) (path : String) (language : Option (Option String)) :
    (s.add g path language).1 = g.gather (s.result? ⟨some (some path), language⟩).toList := by
  unfold add result?
  cases hfound : s.findings? path language with
  | none => simp [hfound, gather]
  | some f => simp [hfound, gather]

/-- The result of the first file is gathered first. -/
theorem gather_results_cons (s : Site) (g : CallGraph) (l : Listed) (ls : List Listed) :
    g.gather (s.results (l :: ls)) = (g.gather (s.result? l).toList).gather (s.results ls) := by
  cases hresult : s.result? l with
  | none => rw [results, List.filterMap_cons_none hresult]; rfl
  | some r => rw [results, List.filterMap_cons_some hresult]; rfl

/-- A pool takes in the first file and counts it. -/
theorem addPooled_cons (s : Site) (g : CallGraph) (n : Nat) (path : String)
    (language : Option (Option String)) (ls : List Listed) :
    s.addPooled g n (⟨some (some path), language⟩ :: ls) =
      s.addPooled (g.gather (s.result? ⟨some (some path), language⟩).toList)
        (n + (s.result? ⟨some (some path), language⟩).toList.length) ls := by
  cases hfound : s.findings? path language with
  | none => simp [addPooled, alone?, result?, hfound, gather]
  | some f =>
    have hjoin := join_ofFindings g ⟨Path.tidy (Path.join (Path.tidy s.root) path), f⟩
    simp [addPooled, alone?, result?, hfound, gather, hjoin]

/-- A pool is given up, or it gathers the results and counts files, whatever was found before. -/
theorem addPooled_eq (s : Site) (files : List Listed) :
    (∀ g n, ∃ g' n', s.addPooled g n files = (g', n', false)) ∨
      ∃ count, ∀ g n, s.addPooled g n files = (g.gather (s.results files), n + count, true) := by
  induction files with
  | nil => exact Or.inr ⟨0, fun g n => rfl⟩
  | cons l ls ih =>
    obtain ⟨path, language⟩ := l
    match path with
    | none => exact Or.inl fun g n => ⟨g, n, rfl⟩
    | some none => exact ih
    | some (some path) =>
      refine ih.imp (fun h g n => ?_) fun ⟨count, h⟩ =>
        ⟨(s.result? ⟨some (some path), language⟩).toList.length + count, fun g n => ?_⟩
      · rw [addPooled_cons]
        exact h _ _
      · rw [addPooled_cons, h, gather_results_cons, Nat.add_assoc]

/-- Files cannot be analysed in turn, or their results are gathered, whatever was found before. -/
theorem addInTurn_eq (s : Site) (files : List Listed) :
    (∃ fault, ∀ g, s.addInTurn g files = .error fault) ∨
      ∀ g, s.addInTurn g files = .ok (g.gather (s.results files)) := by
  induction files with
  | nil => exact Or.inr fun g => rfl
  | cons l ls ih =>
    obtain ⟨path, language⟩ := l
    match path with
    | none => exact Or.inl ⟨.noPath, fun g => rfl⟩
    | some none => exact Or.inl ⟨.notAPath, fun g => rfl⟩
    | some (some path) =>
      refine ih.imp (fun ⟨fault, h⟩ => ⟨fault, fun g => h _⟩) fun h g => ?_
      rw [gather_results_cons, ← add_eq_gather]
      exact h _

/-- A pool is given up only at a file without its path, at which files cannot be analysed in turn
either. -/
theorem addInTurn_of_given_up {g g' : CallGraph} {n n' : Nat} (h : s.addPooled g n files = (g', n', false))
    (g₀ : CallGraph) : ∃ e, s.addInTurn g₀ files = .error e := by
  induction files generalizing g n g₀ with
  | nil => simp [addPooled] at h
  | cons l ls ih =>
    obtain ⟨path, language⟩ := l
    match path with
    | none => exact ⟨.noPath, rfl⟩
    | some none => exact ⟨.notAPath, rfl⟩
    | some (some path) =>
      rw [addPooled_cons] at h
      exact ih h (s.add g₀ path language).1

/-- Side by side as well as in turn, files cannot be analysed or their results are gathered. -/
theorem addAll_eq (s : Site) (files : List Listed) :
    (∃ fault, ∀ g, s.addAll g files = .error fault) ∨
      ∃ count, ∀ g, s.addAll g files = .ok (g.gather (s.results files), count) := by
  unfold addAll
  split
  · rcases s.addPooled_eq files with hpool | ⟨count, hpool⟩
    · obtain ⟨g', n', hgiven⟩ := hpool {} 0
      rcases s.addInTurn_eq files with ⟨fault, hturn⟩ | hturn
      · refine Or.inl ⟨fault, fun g => ?_⟩
        obtain ⟨g', n', hgiven⟩ := hpool g 0
        simp [hgiven, hturn, Except.map]
      · obtain ⟨e, he⟩ := addInTurn_of_given_up hgiven {}
        exact absurd ((hturn {}).symm.trans he) (by simp)
    · exact Or.inr ⟨count, fun g => by simp [hpool]⟩
  · rcases s.addInTurn_eq files with ⟨fault, hturn⟩ | hturn
    · exact Or.inl ⟨fault, fun g => by simp [hturn, Except.map]⟩
    · exact Or.inr ⟨files.length, fun g => by simp [hturn, Except.map]⟩

/-- What is gathered from files before relationships are resolved. -/
def gathered (s : Site) (before : CallGraph) (files : List Listed) : CallGraph :=
  before.cleared.gather (s.results files)

/-- Every file is listed with its path. -/
def Located (files : List Listed) : Prop :=
  ∀ l ∈ files, ∃ path, l.path = some (some path)

/-- Files with contents are listed with their paths. -/
theorem located_listed (contents : Contents) : Located contents.listed := by
  intro l hl
  obtain ⟨t, -, rfl⟩ := List.mem_map.mp hl
  exact ⟨t.1, rfl⟩

/-- A pool takes in all files that have paths. -/
theorem addPooled_of_located (g : CallGraph) (n : Nat) (h : Located files) :
    s.addPooled g n files = (g.gather (s.results files), n + (s.results files).length, true) := by
  induction files generalizing g n with
  | nil => rfl
  | cons l ls ih =>
    obtain ⟨path, hpath⟩ := h l List.mem_cons_self
    obtain ⟨_, language⟩ := l
    obtain rfl := hpath
    have hcount : (s.results (⟨some (some path), language⟩ :: ls)).length =
        (s.result? ⟨some (some path), language⟩).toList.length + (s.results ls).length := by
      cases hresult : s.result? ⟨some (some path), language⟩ with
      | none => simp [results, hresult]
      | some r => simp [results, hresult, Nat.add_comm]
    rw [addPooled_cons, ih _ _ fun l hl => h l (List.mem_cons_of_mem _ hl), gather_results_cons, hcount,
      Nat.add_assoc]

/-- Files that are listed with their paths can be analysed in turn, which gathers their results. -/
theorem addInTurn_of_located (g : CallGraph) (h : Located files) :
    s.addInTurn g files = .ok (g.gather (s.results files)) := by
  induction files generalizing g with
  | nil => rfl
  | cons l ls ih =>
    obtain ⟨path, hpath⟩ := h l List.mem_cons_self
    obtain ⟨_, language⟩ := l
    obtain rfl := hpath
    change s.addInTurn (s.add g path language).1 ls = _
    rw [ih _ fun l hl => h l (List.mem_cons_of_mem _ hl), gather_results_cons, add_eq_gather]

/-- How many files count as analysed: those with a result, or all if there is no pool. -/
def counted (s : Site) (files : List Listed) : Nat :=
  if s.toolbox.hasPool then (s.results files).length else files.length

/-- The report on files that are listed with their paths. -/
def report (s : Site) (before : CallGraph) (files : List Listed) : Report where
  graph := (s.gathered before files).resolve.matchInterfaces.deduplicate
  filesAnalyzed := s.counted files
  languages := (files.map fun l => l.language.join).eraseDups

/-- The analysis of files that have paths reports. -/
theorem analyze_of_located (before : CallGraph) (h : Located files) :
    s.analyze before files = .ok (s.report before files) := by
  have hall : s.addAll before.cleared files = .ok (s.gathered before files, s.counted files) := by
    unfold addAll counted
    split
    · rw [addPooled_of_located _ _ h, Nat.zero_add]
      rfl
    · change (s.addInTurn before.cleared files).map _ = _
      rw [addInTurn_of_located _ h]
      rfl
  change (s.addAll before.cleared files >>= _) = _
  rw [hall]
  rfl

/-- The analysis of files with contents reports. -/
theorem exists_report_listed (s : Site) (before : CallGraph) (contents : Contents) :
    ∃ report, s.analyze before contents.listed = .ok report :=
  ⟨_, analyze_of_located before (located_listed contents)⟩

/-- Files cannot be analysed, or their report is made of their results, whatever was analysed before. -/
theorem analyze_eq (s : Site) (files : List Listed) :
    (∃ fault, ∀ before, s.analyze before files = .error fault) ∨
      ∃ count, ∀ before,
        s.analyze before files = .ok { s.report before files with filesAnalyzed := count } := by
  refine (s.addAll_eq files).imp (fun ⟨fault, h⟩ => ⟨fault, fun before => ?_⟩) fun ⟨count, h⟩ =>
    ⟨count, fun before => ?_⟩
  · change (s.addAll before.cleared files >>= _) = _
    rw [h]
    rfl
  · change (s.addAll before.cleared files >>= _) = _
    rw [h]
    rfl

/-- A report has the graph that was gathered, resolved and matched. -/
theorem graph_of_analyze {before : CallGraph} {report : Report} (h : s.analyze before files = .ok report) :
    report.graph = (s.gathered before files).resolve.matchInterfaces.deduplicate := by
  rcases s.analyze_eq files with ⟨fault, hfault⟩ | ⟨count, hok⟩
  · exact absurd ((hfault before).symm.trans h) (by simp)
  · rw [← Except.ok.inj ((hok before).symm.trans h)]
    rfl

end Site

end RepoAtlas.CallGraph
