import RepoAtlas.Proofs.CallGraph.Gathering

/-!
# Identifiers of different files

Two files have an identifier in common only if a dotted name of one goes on from one of the other. Dotted names
come from paths without endings, so files that differ in their endings can share them.
-/

namespace RepoAtlas.CallGraph

open Extract

variable {a b id : String}

/-- Whether a dotted name goes on from another one. -/
def goesOn (a b : String) : Bool :=
  (a ++ ".").toList.isPrefixOf b.toList

/-- Dotted names that are not told apart: one is missing, or is the other, or goes on from it. -/
def Nested (a b : String) : Prop :=
  a = "" ∨ b = "" ∨ a = b ∨ goesOn a b = true ∨ goesOn b a = true

instance (a b : String) : Decidable (Nested a b) :=
  inferInstanceAs (Decidable (_ ∨ _ ∨ _ ∨ _ ∨ _))

/-- A dotted name goes on with a dot. -/
theorem goesOn_iff : goesOn a b = true ↔ ∃ rest, b = a ++ "." ++ rest := by
  rw [goesOn, List.isPrefixOf_iff_prefix]
  constructor
  · rintro ⟨rest, hrest⟩
    refine ⟨String.ofList rest, String.toList_inj.mp ?_⟩
    simp [← hrest]
  · rintro ⟨rest, rfl⟩
    exact ⟨rest.toList, by simp⟩

/-- If one of two lists begins the other, both with a last mark, it is the other or begins it with its
mark. -/
theorem eq_or_prefix_of_concat {xs ys : List Char} {x : Char} (h : xs ++ [x] <+: ys ++ [x]) :
    xs = ys ∨ xs ++ [x] <+: ys := by
  rcases List.prefix_concat_iff.mp h with heq | hle
  · exact Or.inl (List.append_cancel_right heq)
  · exact Or.inr hle

/-- Of two beginnings of one text, each with a dot after it, one is the other or goes on from it. -/
theorem nested_of_append {rest rest' : String} (h : a ++ "." ++ rest = b ++ "." ++ rest') :
    Nested a b := by
  have hlist : (a.toList ++ ['.']) ++ rest.toList = (b.toList ++ ['.']) ++ rest'.toList := by
    simpa using congrArg String.toList h
  have hends : ∀ c : String, (c ++ ".").toList = c.toList ++ ['.'] := fun c => by simp
  rcases List.prefix_or_prefix_of_prefix ⟨_, rfl⟩ ⟨_, hlist.symm⟩ with hle | hle
  · rcases eq_or_prefix_of_concat hle with heq | hbegins
    · exact Or.inr (Or.inr (Or.inl (String.toList_inj.mp heq)))
    · refine Or.inr (Or.inr (Or.inr (Or.inl ?_)))
      rwa [goesOn, List.isPrefixOf_iff_prefix, hends]
  · rcases eq_or_prefix_of_concat hle with heq | hbegins
    · exact Or.inr (Or.inr (Or.inl (String.toList_inj.mp heq.symm)))
    · refine Or.inr (Or.inr (Or.inr (Or.inr ?_)))
      rwa [goesOn, List.isPrefixOf_iff_prefix, hends]

/-- Some identifier is under two dotted names exactly if they are not told apart. -/
theorem exists_under_both_iff : (∃ id, Under a id ∧ Under b id) ↔ Nested a b := by
  constructor
  · rintro ⟨id, ⟨rest, rfl⟩ | ⟨ha, -⟩, ⟨rest', hrest'⟩ | ⟨hb, -⟩⟩
    · exact nested_of_append hrest'
    · exact Or.inr (Or.inl hb)
    · exact Or.inl ha
    · exact Or.inl ha
  · -- What follows the longer of the two names and a dot is under both.
    have hlonger : ∀ {c d : String}, c = "" ∨ c = d ∨ goesOn c d = true →
        Under c (d ++ "." ++ "") := by
      rintro c d (rfl | rfl | hgoes)
      · exact Or.inr ⟨rfl, (under_append d "").ne_empty⟩
      · exact under_append c ""
      · obtain ⟨rest, rfl⟩ := goesOn_iff.mp hgoes
        exact Or.inl ⟨rest ++ "." ++ "", by simp only [String.append_assoc]⟩
    rintro (ha | hb | heq | hgoes | hgoes)
    · exact ⟨_, hlonger (Or.inl ha), under_append b ""⟩
    · exact ⟨_, under_append a "", hlonger (Or.inl hb)⟩
    · exact ⟨_, hlonger (Or.inr (Or.inl heq)), under_append b ""⟩
    · exact ⟨_, hlonger (Or.inr (Or.inr hgoes)), under_append b ""⟩
    · exact ⟨_, under_append a "", hlonger (Or.inr (Or.inr hgoes))⟩

/-- Components rooted in names that are told apart have different identifiers. -/
theorem id_ne_of_not_nested {c d : Component} (hnested : ¬Nested a b) (hc : Rooted a c)
    (hd : Rooted b d) : c.id ≠ "" ∧ d.id ≠ "" ∧ c.id ≠ d.id := by
  have ha : a ≠ "" := fun h => hnested (Or.inl h)
  have hb : b ≠ "" := fun h => hnested (Or.inr (Or.inl h))
  have hunder : ∀ {x y : String}, x ≠ "" → Under x y → goesOn x y = true := by
    rintro x y hx (hrest | ⟨hempty, -⟩)
    · exact goesOn_iff.mpr hrest
    · exact absurd hempty hx
  rcases hc.id with hc | ⟨hc, -⟩
  · rcases hd.id with hd | ⟨hd, -⟩
    · exact ⟨hc.ne_empty, hd.ne_empty, fun heq =>
        hnested (exists_under_both_iff.mp ⟨c.id, hc, heq ▸ hd⟩)⟩
    · refine ⟨hc.ne_empty, hd ▸ hb, fun heq => hnested ?_⟩
      exact Or.inr (Or.inr (Or.inr (Or.inl (hunder ha (hd ▸ heq ▸ hc)))))
  · rcases hd.id with hd | ⟨hd, -⟩
    · refine ⟨hc ▸ ha, hd.ne_empty, fun heq => hnested ?_⟩
      exact Or.inr (Or.inr (Or.inr (Or.inr (hunder hb (hc ▸ heq ▸ hd)))))
    · exact ⟨hc ▸ ha, hd ▸ hb, fun heq =>
        hnested (Or.inr (Or.inr (Or.inl (hc.symm.trans (heq.trans hd)))))⟩

/-- If files share no key, each component is found as its file has it. -/
theorem get?_gather_of_disjoint {g : CallGraph} {fs : List FileResult} {f : FileResult} {k : String} {c : Component}
    (hfs : fs.Pairwise fun f f' => ∀ e ∈ f.components, ∀ e' ∈ f'.components, e.1 ≠ e'.1) (hf : f ∈ fs)
    (hc : (Keyed.ofList f.components).get? k = some c) : (g.gather fs).functions.get? k = some c := by
  obtain ⟨fs₁, fs₂, rfl⟩ := List.append_of_mem hf
  have hlater := (List.pairwise_cons.mp (List.pairwise_append.mp hfs).2.1).1
  rw [Keyed.ofList_eq_insertAll, Keyed.get?_insertAll] at hc
  have hfound : f.components.reverse.lookup k = some c := by
    simpa [Keyed.get?, Keyed.empty] using hc
  have hnone : (fs₂.flatMap FileResult.components).reverse.lookup k = none := by
    rw [List.lookup_eq_none_iff]
    intro e he
    obtain ⟨f', hf', he⟩ := List.mem_flatMap.mp (List.mem_reverse.mp he)
    have hk := List.mem_reverse.mp (Keyed.mem_of_lookup hfound)
    exact bne_iff_ne.mpr (hlater f' hf' (k, c) hk e he)
  rw [functions_gather, List.flatMap_append, List.flatMap_cons, Keyed.insertAll_append, Keyed.insertAll_append,
    Keyed.get?_insertAll, hnone, Option.none_or, Keyed.get?_insertAll, hfound, Option.some_or]

namespace Site

variable {s : Site} {files : List Listed}

/-- Where the dotted names of any two files are told apart, no identifier is shared and no component is lost. -/
theorem components_kept_of_not_nested (hfronts : files.Pairwise fun l l' =>
      ∀ a ∈ s.fronts l, ∀ b ∈ s.fronts l', ¬Nested a b) :
    ((s.results files).Pairwise fun f f' => ∀ c ∈ f.found.findings.components,
      ∀ c' ∈ f'.found.findings.components, c.id ≠ c'.id) ∧
    ∀ before, ∀ f ∈ s.results files, ∀ k c, (Keyed.ofList f.components).get? k = some c →
      (s.gathered before files).functions.get? k = some c := by
  have hids : (s.results files).Pairwise fun f f' => ∀ c ∈ f.found.findings.components,
      ∀ c' ∈ f'.found.findings.components, c.id ≠ "" ∧ c'.id ≠ "" ∧ c.id ≠ c'.id := by
    rw [results, List.pairwise_filterMap]
    refine hfronts.imp fun {l l'} hapart f hf f' hf' c hc c' hc' => ?_
    obtain ⟨a, ha, hrooted⟩ := rooted_of_result? hf hc
    obtain ⟨b, hb, hrooted'⟩ := rooted_of_result? hf' hc'
    exact id_ne_of_not_nested (hapart a ha b hb) hrooted hrooted'
  have hkeys : (s.results files).Pairwise fun f f' =>
      ∀ e ∈ f.components, ∀ e' ∈ f'.components, e.1 ≠ e'.1 := by
    refine hids.imp fun {f f'} hapart e he e' he' => ?_
    obtain ⟨c, hc, rfl⟩ := List.mem_map.mp he
    obtain ⟨c', hc', rfl⟩ := List.mem_map.mp he'
    obtain ⟨hne, hne', hdiffer⟩ := hapart c hc c' hc'
    simpa only [FileResult.key, if_neg hne, if_neg hne'] using hdiffer
  refine ⟨hids.imp fun hapart c hc c' hc' => (hapart c hc c' hc').2.2, ?_⟩
  intro before f hf k c hc
  exact get?_gather_of_disjoint hkeys hf hc

/-- A repository with the same function in three files, two of which differ in their endings only. -/
def namesakes : Site where
  toolbox := { parsers := { trees := [(("javascript", "function f() {}\n"),
    .node "program" 0 16 [.node "function_declaration" 0 15 [
      .sign "function" 0 8, .leaf "identifier" 9 10, .leaf "formal_parameters" 10 12,
      .leaf "statement_block" 13 15]])] } }
  files := .directory true [("r", .directory true [
    ("a.py", .file "def f(): pass\n".toUTF8.toList),
    ("a.js", .file "function f() {}\n".toUTF8.toList),
    ("ab.py", .file "def f(): pass\n".toUTF8.toList)])]
  root := "/r"

/-- The files that differ in their endings only. -/
def twinFiles : Contents :=
  [("a.py", "python", "def f(): pass\n"), ("a.js", "javascript", "function f() {}\n")]

/-- Files whose names begin alike. -/
def apartFiles : Contents :=
  [("a.py", "python", "def f(): pass\n"), ("ab.py", "python", "def f(): pass\n")]

/-- Files that differ in their endings only share an identifier, and only the last component is kept. -/
theorem twin_component_lost :
    ∃ report, namesakes.analyze {} twinFiles.listed = .ok report ∧
      (namesakes.results twinFiles.listed).map (fun f => f.found.findings.components.map (·.id)) =
        [["a.f"], ["a.f"]] ∧
      report.graph.functions.entries.map (fun e => (e.1, e.2.relativePath)) = [("a.f", "a.js")] := by
  have hholds : namesakes.Holds twinFiles := by decide +kernel
  obtain ⟨report, hreport⟩ := exists_report_listed namesakes {} twinFiles
  refine ⟨report, hreport, ?_⟩
  rw [graph_of_analyze hreport, gathered, hholds.results_listed]
  decide +kernel

/-- Files whose names only begin alike have dotted names that are told apart, and keep their
components. -/
theorem apart_components_kept :
    apartFiles.listed.Pairwise (fun l l' =>
      ∀ a ∈ namesakes.fronts l, ∀ b ∈ namesakes.fronts l', ¬Nested a b) ∧
    ∀ f ∈ namesakes.results apartFiles.listed, ∀ k c, (Keyed.ofList f.components).get? k = some c →
      (namesakes.gathered {} apartFiles.listed).functions.get? k = some c := by
  have hholds : namesakes.Holds apartFiles := by decide +kernel
  have hfirst : namesakes.fronts ⟨some (some "a.py"), some (some "python")⟩ = ["a"] :=
    (hholds.fronts_eq (.head _)).trans (by decide +kernel)
  have hsecond : namesakes.fronts ⟨some (some "ab.py"), some (some "python")⟩ = ["ab"] :=
    (hholds.fronts_eq (.tail _ (.head _))).trans (by decide +kernel)
  have hapart : apartFiles.listed.Pairwise (fun l l' =>
      ∀ a ∈ namesakes.fronts l, ∀ b ∈ namesakes.fronts l', ¬Nested a b) := by
    simp only [apartFiles, Contents.listed, List.map_cons, List.map_nil, List.pairwise_cons, List.mem_singleton,
      forall_eq, hfirst, hsecond, List.not_mem_nil, false_implies, implies_true, List.Pairwise.nil, and_true]
    decide
  exact ⟨hapart, (components_kept_of_not_nested hapart).2 {}⟩

end Site

end RepoAtlas.CallGraph
