import RepoAtlas.Proofs.CallGraph.Gathering

/-!
# With a pool and without one

With a pool a worker makes a call graph of each file, and these are taken in one after the other. That gives the
same call graph as taking in the files directly, but a file that could not be analysed is not counted.
-/

namespace RepoAtlas.CallGraph.Site

variable {s : Site} {files : List Listed}

/-- The same site with a pool of workers, or without one. -/
def withPool (s : Site) (pool : Bool) : Site :=
  { s with toolbox := { s.toolbox with hasPool := pool } }

/-- A pool changes neither the graph nor the languages. -/
theorem report_withPool (s : Site) (pool : Bool) (before : CallGraph) (files : List Listed) :
    ((s.withPool pool).report before files).graph = (s.report before files).graph ∧
      ((s.withPool pool).report before files).languages = (s.report before files).languages :=
  ⟨rfl, rfl⟩

/-- With a pool the files that have a result are counted. -/
theorem counted_withPool_true (s : Site) (files : List Listed) :
    (s.withPool true).counted files = files.countP fun l => (s.result? l).isSome :=
  List.length_filterMap_eq_countP

/-- Without a pool all files are counted. -/
theorem counted_withPool_false (s : Site) (files : List Listed) : (s.withPool false).counted files = files.length :=
  rfl

/-- The summaries of reports on the same call graph and languages differ in the number of files only. -/
theorem summary_eq_iff {r t : Report} (hgraph : r.graph = t.graph) (hlanguages : r.languages = t.languages) :
    r.summary = t.summary ↔ r.filesAnalyzed = t.filesAnalyzed := by
  simp only [Report.summary, hgraph, hlanguages, List.cons.injEq, Prod.mk.injEq, Json.int.injEq, Int.ofNat_inj,
    true_and, and_true]

/-- With a pool and without one the call graph and the languages are the same, and the summaries exactly if
every file could be analysed. -/
theorem pool_agrees_iff (s : Site) (before : CallGraph) (h : Located files) :
    ∃ pooled inTurn, (s.withPool true).analyze before files = .ok pooled ∧
      (s.withPool false).analyze before files = .ok inTurn ∧
      pooled.graph = inTurn.graph ∧ pooled.languages = inTurn.languages ∧
      pooled.filesAnalyzed = (files.countP fun l => (s.result? l).isSome) ∧
      inTurn.filesAnalyzed = files.length ∧
      (pooled.summary = inTurn.summary ↔ ∀ l ∈ files, (s.result? l).isSome = true) := by
  have hpooled := report_withPool s true before files
  have hinTurn := report_withPool s false before files
  have hgraph := hpooled.1.trans hinTurn.1.symm
  have hlanguages := hpooled.2.trans hinTurn.2.symm
  have hcounts : (s.withPool true).counted files = (s.withPool false).counted files ↔
      ∀ l ∈ files, (s.result? l).isSome = true := by
    rw [counted_withPool_true, counted_withPool_false, List.countP_eq_length]
  exact ⟨_, _, analyze_of_located before h, analyze_of_located before h, hgraph, hlanguages,
    counted_withPool_true s files, counted_withPool_false s files,
    (summary_eq_iff hgraph hlanguages).trans hcounts⟩

/-- A repository with two files. -/
def pair : Site where
  toolbox := {}
  files := .directory true [("r", .directory true [
    ("a.py", .file "def f(): pass\n".toUTF8.toList),
    ("c.py", .file "def g(): f()\n".toUTF8.toList)])]
  root := "/r"

/-- The two files. -/
def pairFiles : Contents :=
  [("a.py", "python", "def f(): pass\n"), ("c.py", "python", "def g(): f()\n")]

/-- One of the two files, and one that is not there. -/
def brokenFiles : List Listed :=
  [⟨some (some "a.py"), some (some "python")⟩, ⟨some (some "b.py"), some (some "python")⟩]

/-- Each of the two files has a result. -/
theorem result?_pair {t : String × String × String} (ht : t ∈ pairFiles) :
    (pair.result? ⟨some (some t.1), some (some t.2.1)⟩).isSome = true := by
  have hholds : pair.Holds pairFiles := by decide +kernel
  have hresults : ∀ t ∈ pairFiles, (pair.resultOf t.1 t.2.1 t.2.2).isSome = true := by decide +kernel
  rw [hholds.result?_eq ht]
  exact hresults t ht

/-- A file that is not there counts as analysed without a pool, and not with one. -/
theorem missing_file_counted :
    ∃ pooled inTurn, (pair.withPool true).analyze {} brokenFiles = .ok pooled ∧
      (pair.withPool false).analyze {} brokenFiles = .ok inTurn ∧
      pooled.filesAnalyzed = 1 ∧ inTurn.filesAnalyzed = 2 := by
  have hlocated : Located brokenFiles := by
    unfold Located brokenFiles
    simp
  have hfirst : (pair.result? ⟨some (some "a.py"), some (some "python")⟩).isSome = true :=
    result?_pair (t := ("a.py", "python", "def f(): pass\n")) List.mem_cons_self
  have hsecond : pair.result? ⟨some (some "b.py"), some (some "python")⟩ = none := by
    have hparts : Path.parts (Path.tidy (Path.join (Path.tidy pair.root) "b.py")) =
        ["r"] ++ ["b.py"] := by decide +kernel
    have hmissing : (pair.files.straight? ["r"]).any
        (fun d => d.isDirectory && (d.child? "b.py").isNone) = true := by decide +kernel
    obtain ⟨fault, hfault⟩ := Files.readText_of_missing hparts (by decide) hmissing
    exact result?_of_unread hfault _
  have hcount : (pair.withPool true).counted brokenFiles = 1 := by
    rw [counted_withPool_true]
    simp [brokenFiles, hfirst, hsecond]
  exact ⟨_, _, analyze_of_located {} hlocated, analyze_of_located {} hlocated, hcount, rfl⟩

/-- Where every file is there, the summaries are the same. -/
theorem pair_summaries_agree :
    Located pairFiles.listed ∧
    ∃ pooled inTurn, (pair.withPool true).analyze {} pairFiles.listed = .ok pooled ∧
      (pair.withPool false).analyze {} pairFiles.listed = .ok inTurn ∧
      pooled.filesAnalyzed = 2 ∧ pooled.graph = inTurn.graph ∧ pooled.summary = inTurn.summary := by
  have hlocated : Located pairFiles.listed := located_listed pairFiles
  have hresults : ∀ l ∈ pairFiles.listed, (pair.result? l).isSome = true := by
    intro l hl
    obtain ⟨t, ht, rfl⟩ := List.mem_map.mp hl
    exact result?_pair ht
  obtain ⟨pooled, inTurn, hpooled, hinTurn, hgraph, -, hcount, -, hsummary⟩ :=
    pool_agrees_iff pair {} hlocated
  exact ⟨hlocated, pooled, inTurn, hpooled, hinTurn,
    hcount.trans (List.countP_eq_length.mpr hresults), hgraph, hsummary.mpr hresults⟩

end RepoAtlas.CallGraph.Site
