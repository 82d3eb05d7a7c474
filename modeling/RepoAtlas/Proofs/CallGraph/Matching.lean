import RepoAtlas.Proofs.CallGraph.Gathering
import RepoAtlas.Proofs.CallGraph.Resolution

/-!
# Structs and the interfaces they satisfy

Matching does not change which component is the last of a kind and name, so a whole run of matches can be read
off the components before it.

A type has the methods that the last file to tell any of them tells. One whose methods stand in several files
satisfies an interface only by those in the last of them.
-/

namespace RepoAtlas.CallGraph

open Extract

variable {g : CallGraph} {cs : Components} {k kind name : String} {pair : String × String} {i : String}
  {c : Component} {rs : List FileResult}

/-- What is found by kind and name has both. -/
theorem mem_of_lastOf? {e : String × Component} (h : lastOf? cs kind name = some e) :
    e ∈ cs.entries ∧ e.2.kind = kind ∧ e.2.name = name := by
  have hsome := List.find?_some h
  exact ⟨List.mem_reverse.mp (List.mem_of_find?_eq_some h), by simpa using hsome⟩

/-- The key and the identifier of the last component of a kind and name. -/
def lastNamed? (cs : Components) (kind name : String) : Option (String × String) :=
  (lastOf? cs kind name).map fun e => (e.1, e.2.id)

/-- A change that keeps kind, name and identifier does not matter to the search. -/
theorem lastNamed?_modify (cs : Components) (k kind name : String) {f : Component → Component}
    (hf : ∀ c, (f c).kind = c.kind ∧ (f c).name = c.name ∧ (f c).id = c.id) :
    lastNamed? (cs.modify k f) kind name = lastNamed? cs kind name := by
  change ((cs.entries.map _).reverse.find? _).map _ = _
  rw [← List.map_reverse, List.find?_map, Option.map_map]
  have hsame : ∀ e : String × Component, (if e.1 = k then f e.2 else e.2).kind = e.2.kind ∧
      (if e.1 = k then f e.2 else e.2).name = e.2.name ∧
      (if e.1 = k then f e.2 else e.2).id = e.2.id := by
    intro e
    split
    · exact hf e.2
    · exact ⟨rfl, rfl, rfl⟩
  simp only [lastNamed?, lastOf?, Function.comp_def, (hsame _).1, (hsame _).2.1, (hsame _).2.2]

/-- Implementing an interface keeps these. -/
theorem implementing_keeps (name : String) (c : Component) :
    (implementing name c).kind = c.kind ∧ (implementing name c).name = c.name ∧ (implementing name c).id = c.id := by
  unfold implementing
  split <;> exact ⟨rfl, rfl, rfl⟩

/-- The key of the struct with a name. -/
def structKey? (cs : Components) (name : String) : Option String :=
  (lastNamed? cs "struct" name).map (·.1)

/-- The key of a struct leads to it. -/
theorem exists_of_structKey? (h : structKey? cs name = some k) : ∃ c, cs.get? k = some c ∧ c.name = name := by
  obtain ⟨e, he, rfl⟩ : ∃ e, lastOf? cs "struct" name = some e ∧ e.1 = k := by
    simpa [structKey?, lastNamed?] using h
  obtain ⟨hmem, -, hname⟩ := mem_of_lastOf? he
  exact ⟨e.2, cs.get?_eq_some_iff.mpr hmem, hname⟩

/-- The relationship that a match gives rise to. -/
def implementation? (cs : Components) (pair : String × String) : Option Relationship :=
  (lastNamed? cs "struct" pair.1).bind fun s => (lastNamed? cs "interface" pair.2).map fun i =>
    { caller := s.2, callee := i.2, kind := "implements", resolved := true }

/-- An implementation is resolved. -/
theorem resolved_of_implementation? {r : Relationship} (h : implementation? cs pair = some r) :
    r.resolved = true := by
  obtain ⟨s, -, h⟩ := Option.bind_eq_some_iff.mp h
  obtain ⟨i, -, rfl⟩ := Option.map_eq_some_iff.mp h
  rfl

/-- A match is noted at its struct. -/
theorem functions_noteMatch {key : String} {s : Component}
    (h : lastOf? g.functions "struct" pair.1 = some (key, s)) :
    (g.noteMatch pair).functions = g.functions.modify key (implementing pair.2) := by
  simp only [noteMatch, h]
  split <;> rfl

/-- Without its struct a match is not noted. -/
theorem noteMatch_of_none (h : lastOf? g.functions "struct" pair.1 = none) :
    g.noteMatch pair = g := by
  simp only [noteMatch, h]

/-- Noting a match changes no search by name. -/
theorem lastNamed?_noteMatch (g : CallGraph) (pair : String × String) :
    lastNamed? (g.noteMatch pair).functions kind name = lastNamed? g.functions kind name := by
  cases hstruct : lastOf? g.functions "struct" pair.1 with
  | none => rw [noteMatch_of_none hstruct]
  | some found =>
    rw [functions_noteMatch hstruct]
    exact lastNamed?_modify _ _ _ _ (implementing_keeps pair.2)

/-- It keeps the keys. -/
theorem keys_noteMatch (g : CallGraph) (pair : String × String) :
    (g.noteMatch pair).functions.keys = g.functions.keys := by
  cases hstruct : lastOf? g.functions "struct" pair.1 with
  | none => rw [noteMatch_of_none hstruct]
  | some found => rw [functions_noteMatch hstruct, Keyed.keys_modify]

/-- A match is noted at the struct of its name and nowhere else. -/
theorem get?_noteMatch (g : CallGraph) (pair : String × String) (k : String) :
    (g.noteMatch pair).functions.get? k = (g.functions.get? k).map fun c =>
      if structKey? g.functions pair.1 = some k then implementing pair.2 c else c := by
  cases hstruct : lastOf? g.functions "struct" pair.1 with
  | none => simp [noteMatch_of_none hstruct, structKey?, lastNamed?, hstruct]
  | some found =>
    obtain ⟨key, s⟩ := found
    have hkey : structKey? g.functions pair.1 = some k ↔ k = key := by
      simp [structKey?, lastNamed?, hstruct, eq_comm]
    rw [functions_noteMatch hstruct, Keyed.get?_modify]
    simp only [hkey]

/-- It adds the implementation. -/
theorem relationships_noteMatch (g : CallGraph) (pair : String × String) :
    (g.noteMatch pair).relationships = g.relationships ++ (implementation? g.functions pair).toList := by
  cases hstruct : lastOf? g.functions "struct" pair.1 with
  | none => simp [noteMatch_of_none hstruct, implementation?, lastNamed?, hstruct]
  | some found =>
    obtain ⟨key, s⟩ := found
    -- The interface is looked up after the struct has been told, which makes no difference.
    have hinterface := lastNamed?_modify g.functions key "interface" pair.2 (implementing_keeps pair.2)
    cases hfound : lastOf? (g.functions.modify key (implementing pair.2)) "interface" pair.2 with
    | none =>
      rw [lastNamed?, hfound] at hinterface
      simp [noteMatch, hstruct, hfound, implementation?, ← hinterface]
    | some found =>
      obtain ⟨j, i⟩ := found
      rw [lastNamed?, hfound] at hinterface
      have hs : lastNamed? g.functions "struct" pair.1 = some (key, s.id) := by
        rw [lastNamed?, hstruct]
        rfl
      simp [noteMatch, hstruct, hfound, implementation?, hs, ← hinterface]

/-- Noting several matches changes no search by name. -/
theorem lastNamed?_foldl_noteMatch (g : CallGraph) (pairs : List (String × String)) :
    lastNamed? (pairs.foldl noteMatch g).functions kind name = lastNamed? g.functions kind name := by
  induction pairs generalizing g with
  | nil => rfl
  | cons pair pairs ih => exact (ih (g.noteMatch pair)).trans (lastNamed?_noteMatch g pair)

/-- It keeps the keys. -/
theorem keys_foldl_noteMatch (g : CallGraph) (pairs : List (String × String)) :
    (pairs.foldl noteMatch g).functions.keys = g.functions.keys := by
  induction pairs generalizing g with
  | nil => rfl
  | cons pair pairs ih => exact (ih (g.noteMatch pair)).trans (keys_noteMatch g pair)

/-- A struct implements the interfaces of its matches. -/
theorem get?_foldl_noteMatch (g : CallGraph) (pairs : List (String × String)) (k : String) :
    (pairs.foldl noteMatch g).functions.get? k = (g.functions.get? k).map fun c =>
      (pairs.filter fun p => structKey? g.functions p.1 = some k).foldl
        (fun c p => implementing p.2 c) c := by
  induction pairs generalizing g with
  | nil => simp
  | cons pair pairs ih =>
    have hkey : ∀ n, structKey? (g.noteMatch pair).functions n = structKey? g.functions n := by
      intro n
      simp only [structKey?, lastNamed?_noteMatch]
    change (pairs.foldl noteMatch (g.noteMatch pair)).functions.get? k = _
    rw [ih, get?_noteMatch, Option.map_map]
    congr 1
    funext c
    by_cases hpair : structKey? g.functions pair.1 = some k
    · simp [hkey, hpair]
    · simp [hkey, hpair]

/-- The implementations are added in order. -/
theorem relationships_foldl_noteMatch (g : CallGraph) (pairs : List (String × String)) :
    (pairs.foldl noteMatch g).relationships = g.relationships ++ pairs.filterMap (implementation? g.functions) := by
  induction pairs generalizing g with
  | nil => exact (List.append_nil _).symm
  | cons pair pairs ih =>
    have hsame : implementation? (g.noteMatch pair).functions = implementation? g.functions := by
      funext p
      simp only [implementation?, lastNamed?_noteMatch]
    change (pairs.foldl noteMatch (g.noteMatch pair)).relationships = _
    rw [ih, relationships_noteMatch, hsame, List.append_assoc, List.filterMap_cons]
    cases implementation? g.functions pair with
    | none => rfl
    | some r => rfl

/-- Resolving and matching keep the keys. -/
theorem keys_matched (g : CallGraph) : g.resolve.matchInterfaces.functions.keys = g.functions.keys :=
  keys_foldl_noteMatch g.resolve g.resolve.satisfied

/-- The relationships are resolved, then the implementations follow. -/
theorem relationships_matched (g : CallGraph) :
    g.resolve.matchInterfaces.relationships = g.relationships.map (resolvedIn g.functions) ++
      g.resolve.satisfied.filterMap (implementation? g.functions) :=
  relationships_foldl_noteMatch g.resolve g.resolve.satisfied

/-- An interface is added to those that are implemented. -/
theorem mem_implementing :
    i ∈ (implementing name c).implementsInterfaces ↔ i = name ∨ i ∈ c.implementsInterfaces := by
  unfold implementing
  split
  · rename_i hname
    have hmem : name ∈ c.implementsInterfaces := by simpa using hname
    constructor
    · exact Or.inr
    · rintro (rfl | hi)
      · exact hmem
      · exact hi
  · rw [List.mem_append, List.mem_singleton, or_comm]

/-- All interfaces of matches are added. -/
theorem mem_foldl_implementing (pairs : List (String × String)) :
    i ∈ (pairs.foldl (fun c p => implementing p.2 c) c).implementsInterfaces ↔
      i ∈ c.implementsInterfaces ∨ ∃ p ∈ pairs, p.2 = i := by
  induction pairs generalizing c with
  | nil => simp
  | cons pair pairs ih =>
    rw [List.foldl_cons, ih, mem_implementing, List.exists_mem_cons_iff]
    constructor
    · rintro ((rfl | hi) | hp)
      · exact Or.inr (Or.inl rfl)
      · exact Or.inl hi
      · exact Or.inr (Or.inr hp)
    · rintro (hi | rfl | hp)
      · exact Or.inl (Or.inr hi)
      · exact Or.inl (Or.inl rfl)
      · exact Or.inr hp

/-- A struct has all methods of an interface that has some. -/
theorem satisfies_iff {methods wanted : List String} :
    satisfies methods wanted = true ↔ wanted ≠ [] ∧ ∀ m ∈ wanted, m ∈ methods := by
  simp [satisfies]

/-- An interface is satisfied if it asks for some methods, all of which the struct has. -/
theorem mem_satisfied {s : String} :
    (s, i) ∈ g.satisfied ↔ ∃ methods wanted, g.structs.get? s = some methods ∧
      g.interfaces.get? i = some wanted ∧ wanted ≠ [] ∧ ∀ m ∈ wanted, m ∈ methods := by
  simp only [satisfied, List.mem_flatMap, List.mem_map, List.mem_filter, Prod.exists, Prod.mk.injEq,
    Keyed.get?_eq_some_iff, satisfies_iff]
  constructor
  · rintro ⟨s', methods, hs, i', wanted, ⟨hi, hwanted⟩, rfl, rfl⟩
    exact ⟨methods, wanted, hs, hi, hwanted⟩
  · rintro ⟨methods, wanted, hs, hi, hwanted⟩
    exact ⟨s, methods, hs, i, wanted, ⟨hi, hwanted⟩, rfl, rfl⟩

/-- Where no other struct has its name, a struct is the one that is found by its name. -/
theorem structKey?_iff_of_unique (hc : (k, c) ∈ cs.entries) (hkind : c.kind = "struct")
    (hunique : ∀ e ∈ cs.entries, e.2.kind = "struct" → e.2.name = c.name → e.1 = k) :
    structKey? cs name = some k ↔ name = c.name := by
  constructor
  · intro hkey
    obtain ⟨d, hd, rfl⟩ := exists_of_structKey? hkey
    exact congrArg Component.name (Option.some.inj (hd.symm.trans (cs.get?_eq_some_iff.mpr hc)))
  · rintro rfl
    cases hlast : lastOf? cs "struct" c.name with
    | none =>
      have hno := List.find?_eq_none.mp hlast (k, c) (List.mem_reverse.mpr hc)
      exact absurd (by simp [hkind]) hno
    | some e =>
      obtain ⟨hmem, hstruct, hname⟩ := mem_of_lastOf? hlast
      simp [structKey?, lastNamed?, hlast, hunique e hmem hstruct hname]

/-- A component without what it implements. -/
def unmatched (c : Component) : Component :=
  { c with implementsInterfaces := [] }

/-- An interface changes only what a component implements. -/
theorem unmatched_implementing (name : String) (c : Component) : unmatched (implementing name c) = unmatched c := by
  unfold implementing
  split <;> rfl

/-- Nothing but what is implemented changes. -/
theorem unmatched_foldl_implementing (pairs : List (String × String)) (c : Component) :
    unmatched (pairs.foldl (fun c p => implementing p.2 c) c) = unmatched c := by
  induction pairs generalizing c with
  | nil => rfl
  | cons pair pairs ih => exact (ih _).trans (unmatched_implementing pair.2 c)

/-- A component after matching implements in addition what is matched with its key; nothing else changes. -/
theorem exists_component_of_matchInterfaces (hc : g.matchInterfaces.functions.get? k = some c) :
    ∃ c₀, g.functions.get? k = some c₀ ∧ unmatched c = unmatched c₀ ∧
      ∀ i, i ∈ c.implementsInterfaces ↔ i ∈ c₀.implementsInterfaces ∨
        ∃ name, structKey? g.functions name = some k ∧ (name, i) ∈ g.satisfied := by
  rw [matchInterfaces, get?_foldl_noteMatch] at hc
  obtain ⟨c₀, hc₀, rfl⟩ := Option.map_eq_some_iff.mp hc
  refine ⟨c₀, hc₀, unmatched_foldl_implementing _ c₀, fun i => ?_⟩
  rw [mem_foldl_implementing]
  refine or_congr_right ⟨?_, ?_⟩
  · rintro ⟨⟨name, i⟩, hp, rfl⟩
    obtain ⟨hmem, hkey⟩ := List.mem_filter.mp hp
    exact ⟨name, of_decide_eq_true hkey, hmem⟩
  · rintro ⟨name, hkey, hmem⟩
    exact ⟨(name, i), List.mem_filter.mpr ⟨hmem, decide_eq_true hkey⟩, rfl⟩

/-- Where nothing is implemented yet, a component implements what is matched with its key. -/
theorem mem_implements_matchInterfaces (hnone : ∀ e ∈ g.functions.entries, e.2.implementsInterfaces = [])
    (hc : (k, c) ∈ g.matchInterfaces.functions.entries) :
    i ∈ c.implementsInterfaces ↔ ∃ name, structKey? g.functions name = some k ∧ (name, i) ∈ g.satisfied := by
  obtain ⟨c₀, hc₀, -, himplements⟩ :=
    exists_component_of_matchInterfaces ((Keyed.get?_eq_some_iff _).mpr hc)
  rw [himplements, hnone (k, c₀) (g.functions.get?_eq_some_iff.mp hc₀)]
  simp

/-- A struct satisfies an interface by what files have told last of the two. -/
theorem mem_satisfied_of_told (hstructs : g.structs.get? name = lastTold (·.structs) rs name)
    (hinterfaces : g.interfaces.get? i = lastTold (·.interfaces) rs i) :
    (name, i) ∈ g.satisfied ↔ ∃ wanted, lastTold (·.interfaces) rs i = some wanted ∧ wanted ≠ [] ∧
      ∀ m ∈ wanted, m ∈ (lastTold (·.structs) rs name).getD [] := by
  rw [mem_satisfied, hstructs, hinterfaces]
  constructor
  · rintro ⟨methods, wanted, hmethods, hwanted, hne, hall⟩
    exact ⟨wanted, hwanted, hne, by simpa [hmethods] using hall⟩
  · rintro ⟨wanted, hwanted, hne, hall⟩
    cases hmethods : lastTold (·.structs) rs name with
    | none =>
      obtain ⟨m, hm⟩ := List.exists_mem_of_ne_nil wanted hne
      exact absurd (hall m hm) (by simp [hmethods])
    | some methods => exact ⟨methods, wanted, rfl, hwanted, hne, by simpa [hmethods] using hall⟩

/-- Of what is gathered, a struct satisfies an interface by what the last files tell of the two. -/
theorem mem_satisfied_gather :
    (name, i) ∈ (gather {} rs).resolve.satisfied ↔
      ∃ wanted, lastTold (·.interfaces) rs i = some wanted ∧ wanted ≠ [] ∧
        ∀ m ∈ wanted, m ∈ (lastTold (·.structs) rs name).getD [] :=
  mem_satisfied_of_told ((get?_structs_gather {} rs name).trans Option.or_none)
    ((get?_interfaces_gather {} rs i).trans Option.or_none)

/-- The methods that any of several files tells of a type. -/
def allTold (table : Go.FileFindings → MethodSets) (rs : List FileResult) (type : String) :
    List String :=
  rs.flatMap fun r => ((table r.found).get? type).getD []

/-- What is told last is told. -/
theorem mem_allTold_of_lastTold {table : Go.FileFindings → MethodSets} {type m : String}
    (h : m ∈ (lastTold table rs type).getD []) : m ∈ allTold table rs type := by
  cases hlast : lastTold table rs type with
  | none => simp [hlast] at h
  | some methods =>
    obtain ⟨r, hr, hget⟩ := List.exists_of_findSome?_eq_some hlast
    rw [hlast] at h
    exact List.mem_flatMap.mpr ⟨r, List.mem_reverse.mp hr, by simpa [hget] using h⟩

/-- A struct implements the interfaces all of whose methods the last file to tell of it tells; these are the
right ones if that file tells all of its methods. -/
theorem implements_iff_told_last {s : Site} {files : List Listed} {report : Report}
    (h : s.analyze {} files = .ok report) {c : Component}
    (hc : (k, c) ∈ report.graph.functions.entries) (hkind : c.kind = "struct")
    (hunique : ∀ e ∈ report.graph.functions.entries,
      e.2.kind = "struct" → e.2.name = c.name → e.1 = k) (i : String) :
    (i ∈ c.implementsInterfaces ↔
      ∃ wanted, lastTold (·.interfaces) (s.results files) i = some wanted ∧ wanted ≠ [] ∧
        ∀ m ∈ wanted, m ∈ (lastTold (·.structs) (s.results files) c.name).getD []) ∧
    ((∀ m ∈ allTold (·.structs) (s.results files) c.name,
        m ∈ (lastTold (·.structs) (s.results files) c.name).getD []) →
      (i ∈ c.implementsInterfaces ↔
        ∃ wanted, lastTold (·.interfaces) (s.results files) i = some wanted ∧ wanted ≠ [] ∧
          ∀ m ∈ wanted, m ∈ allTold (·.structs) (s.results files) c.name)) := by
  have hexact : i ∈ c.implementsInterfaces ↔
      ∃ wanted, lastTold (·.interfaces) (s.results files) i = some wanted ∧ wanted ≠ [] ∧
        ∀ m ∈ wanted, m ∈ (lastTold (·.structs) (s.results files) c.name).getD [] := by
    have hgraph : report.graph =
        (gather {} (s.results files)).resolve.matchInterfaces.deduplicate := Site.graph_of_analyze h
    rw [hgraph] at hc hunique
    have hnone : ∀ e ∈ (gather {} (s.results files)).resolve.functions.entries,
        e.2.implementsInterfaces = [] := by
      rintro ⟨j, d⟩ he
      obtain ⟨r, hr, hd, -⟩ := exists_result_of_mem_gather rfl he
      obtain ⟨front, hrooted⟩ := Site.rooted_of_mem_results hr hd
      exact hrooted.implements
    have hkey : ∀ name, structKey? (gather {} (s.results files)).resolve.functions name = some k ↔
        name = c.name := by
      intro name
      rw [← structKey?_iff_of_unique hc hkind hunique]
      simp only [structKey?, deduplicate, matchInterfaces, lastNamed?_foldl_noteMatch]
    rw [mem_implements_matchInterfaces hnone hc]
    simp only [hkey, exists_eq_left]
    exact mem_satisfied_gather
  refine ⟨hexact, fun hall => hexact.trans ?_⟩
  constructor
  · rintro ⟨wanted, hwanted, hne, hmethods⟩
    exact ⟨wanted, hwanted, hne, fun m hm => mem_allTold_of_lastTold (hmethods m hm)⟩
  · rintro ⟨wanted, hwanted, hne, hmethods⟩
    exact ⟨wanted, hwanted, hne, fun m hm => hall m (hmethods m hm)⟩

/-- The node of a name of one letter. -/
def letter (kind : String) (start : Nat) : Syntax.Tree :=
  .leaf kind start (start + 1)

/-- The tree of a Go file of a package `p` with some declarations. -/
def fileTree (text : String) (declarations : List Syntax.Tree) : Syntax.Tree :=
  .node "source_file" 0 text.utf8ByteSize
    (.node "package_clause" 0 9 [.sign "package" 0 7, letter "package_identifier" 8] :: declarations)

/-- The tree of a declaration like `type S struct{}`, from where it starts. -/
def structTree (start : Nat) : Syntax.Tree :=
  .node "type_declaration" start (start + 15) [.sign "type" start (start + 4),
    .node "type_spec" (start + 5) (start + 15) [letter "type_identifier" (start + 5),
      .node "struct_type" (start + 7) (start + 15) [.sign "struct" (start + 7) (start + 13),
        .leaf "field_declaration_list" (start + 13) (start + 15)]]]

/-- The tree of a declaration like `type I interface{ A(); B() }` with a number of methods. -/
def interfaceTree (start count : Nat) : Syntax.Tree :=
  let stop := start + 18 + 5 * count
  let methods := (List.range count).map fun i => start + 18 + 5 * i
  .node "type_declaration" start stop [.sign "type" start (start + 4),
    .node "type_spec" (start + 5) stop [letter "type_identifier" (start + 5),
      .node "interface_type" (start + 7) stop (methods.map fun m => .node "method_elem" m (m + 3)
        [letter "field_identifier" m, .leaf "parameter_list" (m + 1) (m + 3)])]]

/-- The tree of a declaration like `func (S) A() {}`. -/
def methodTree (start : Nat) : Syntax.Tree :=
  .node "method_declaration" start (start + 15) [.sign "func" start (start + 4),
    .node "parameter_list" (start + 5) (start + 8) [
      .node "parameter_declaration" (start + 6) (start + 7) [letter "type_identifier" (start + 6)]],
    letter "field_identifier" (start + 9), .leaf "parameter_list" (start + 10) (start + 12),
    .leaf "block" (start + 13) (start + 15)]

/-- A struct, an interface that asks for two methods, and one of these methods of the struct. -/
def typesText : String :=
  "package p\n\ntype S struct{}\n\ntype I interface{ A(); B() }\n\nfunc (S) A() {}\n"

/-- The other method of the struct. -/
def methodText : String := "package p\n\nfunc (S) B() {}\n"

/-- Both methods of the struct. -/
def methodsText : String := "package p\n\nfunc (S) A() {}\n\nfunc (S) B() {}\n"

/-- A package of three files with these texts. -/
def package : Site where
  toolbox := { parsers := { trees := [
    (("go", typesText), fileTree typesText [structTree 11, interfaceTree 28 2, methodTree 58]),
    (("go", methodText), fileTree methodText [methodTree 11]),
    (("go", methodsText), fileTree methodsText [methodTree 11, methodTree 28])] } }
  files := .directory true [("r", .directory true [
    ("a.go", .file typesText.toUTF8.toList), ("b.go", .file methodText.toUTF8.toList),
    ("c.go", .file methodsText.toUTF8.toList)])]
  root := "/r"

/-- The files of the package that tell one method of the struct each. -/
def spreadFiles : Site.Contents :=
  [("a.go", "go", typesText), ("b.go", "go", methodText)]

/-- A file of the package and one that tells all methods of the struct. -/
def wholeFiles : Site.Contents :=
  [("a.go", "go", typesText), ("c.go", "go", methodsText)]

/-- The keys, kinds and names of components and what they implement. -/
def outline (cs : Components) : List (String × String × String × List String) :=
  cs.entries.map fun e => (e.1, e.2.kind, e.2.name, e.2.implementsInterfaces)

/-- A struct whose methods stand in two files implements nothing, although both together have all methods of
an interface. -/
theorem spread_struct_implements_nothing :
    ∃ report, package.analyze {} spreadFiles.listed = .ok report ∧
      outline report.graph.functions = [("a.S", "struct", "S", []), ("a.I", "interface", "I", []),
        ("a.S.A", "method", "A", []), ("b.S.B", "method", "B", [])] ∧
      lastTold (·.interfaces) (package.results spreadFiles.listed) "I" = some ["A#0", "B#0"] ∧
      allTold (·.structs) (package.results spreadFiles.listed) "S" = ["A#0", "B#0"] := by
  have hholds : package.Holds spreadFiles := by decide +kernel
  obtain ⟨report, hreport⟩ := Site.exists_report_listed package {} spreadFiles
  refine ⟨report, hreport, ?_⟩
  rw [Site.graph_of_analyze hreport, Site.gathered, hholds.results_listed]
  decide +kernel

/-- A struct implements an interface whose methods the last file tells all. -/
theorem whole_struct_implements :
    ∃ report c, package.analyze {} wholeFiles.listed = .ok report ∧
      ("a.S", c) ∈ report.graph.functions.entries ∧ c.kind = "struct" ∧
      (∀ e ∈ report.graph.functions.entries, e.2.kind = "struct" → e.2.name = c.name → e.1 = "a.S") ∧
      (∀ m ∈ allTold (·.structs) (package.results wholeFiles.listed) c.name,
        m ∈ (lastTold (·.structs) (package.results wholeFiles.listed) c.name).getD []) ∧
      "I" ∈ c.implementsInterfaces := by
  have hholds : package.Holds wholeFiles := by decide +kernel
  obtain ⟨report, hreport⟩ := Site.exists_report_listed package {} wholeFiles
  obtain ⟨hfound, hstructs⟩ :
      (report.graph.functions.get? "a.S").map (fun c => (c.kind, c.name)) = some ("struct", "S") ∧
      ∀ e ∈ report.graph.functions.entries, e.2.kind = "struct" → e.1 = "a.S" := by
    rw [Site.graph_of_analyze hreport, Site.gathered, hholds.results_listed]
    decide +kernel
  obtain ⟨c, hc, hlabel⟩ := Option.map_eq_some_iff.mp hfound
  obtain ⟨hkind, hname⟩ := Prod.mk.inj hlabel
  have hentry := (report.graph.functions.get?_eq_some_iff).mp hc
  have hunique : ∀ e ∈ report.graph.functions.entries, e.2.kind = "struct" → e.2.name = c.name →
      e.1 = "a.S" := fun e he hstruct _ => hstructs e he hstruct
  have htold : ∀ m ∈ allTold (·.structs) (package.results wholeFiles.listed) c.name,
      m ∈ (lastTold (·.structs) (package.results wholeFiles.listed) c.name).getD [] := by
    rw [hname, hholds.results_listed]
    decide +kernel
  refine ⟨report, c, hreport, hentry, hkind, hunique, htold, ?_⟩
  rw [((implements_iff_told_last hreport hentry hkind hunique "I").2 htold)]
  refine ⟨["A#0", "B#0"], ?_⟩
  rw [hname, hholds.results_listed]
  decide +kernel

end RepoAtlas.CallGraph
