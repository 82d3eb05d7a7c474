import RepoAtlas.Proofs.CallGraph.Drawing

/-!
# Analysing again

An analyser that is used again forgets what it has found, but not the methods of types. So nothing is lost, and
something is added exactly if a struct is matched by methods that only the first files tell.
-/

namespace RepoAtlas.CallGraph

open Extract

variable {g h : CallGraph} {cs : Components} {r : Relationship} {name i : String}

/-- Some component is a struct with a name. -/
def HasStruct (cs : Components) (name : String) : Prop :=
  ∃ e ∈ cs.entries, e.2.kind = "struct" ∧ e.2.name = name

/-- There is a struct if it has a key. -/
theorem hasStruct_iff : HasStruct cs name ↔ (structKey? cs name).isSome = true := by
  have hlast : (structKey? cs name).isSome = (lastOf? cs "struct" name).isSome := by
    simp [structKey?, lastNamed?]
  rw [hlast, lastOf?, List.find?_isSome]
  simp [HasStruct]

/-- The analysis keeps the structs. -/
theorem hasStruct_analysis (g : CallGraph) (name : String) :
    HasStruct g.resolve.matchInterfaces.deduplicate.functions name ↔ HasStruct g.functions name := by
  rw [hasStruct_iff, hasStruct_iff, structKey?, structKey?]
  exact iff_of_eq (congrArg (fun found => (Option.map Prod.fst found).isSome = true)
    (lastNamed?_foldl_noteMatch g.resolve g.resolve.satisfied))

/-- A key is that of one name. -/
theorem eq_of_structKey? {k n : String} (h : structKey? cs name = some k)
    (h' : structKey? cs n = some k) : name = n := by
  obtain ⟨c, hc, rfl⟩ := exists_of_structKey? h
  obtain ⟨d, hd, rfl⟩ := exists_of_structKey? h'
  exact congrArg Component.name (Option.some.inj (hc.symm.trans hd))

/-- Two call graphs with the same components and relationships, whatever they know of types. -/
structure SameFindings (g h : CallGraph) : Prop where
  functions : g.functions = h.functions
  relationships : g.relationships = h.relationships

/-- Resolution looks at components and relationships only. -/
theorem SameFindings.resolve (hsame : SameFindings g h) : SameFindings g.resolve h.resolve where
  functions := hsame.functions
  relationships := by
    rw [relationships_resolve, relationships_resolve, hsame.functions, hsame.relationships]

/-- Noting a match keeps findings the same. -/
theorem SameFindings.noteMatch (hsame : SameFindings g h) (pair : String × String) :
    SameFindings (g.noteMatch pair) (h.noteMatch pair) := by
  refine ⟨?_, ?_⟩
  · cases hstruct : lastOf? g.functions "struct" pair.1 with
    | none =>
      rw [noteMatch_of_none hstruct, noteMatch_of_none (hsame.functions ▸ hstruct), hsame.functions]
    | some found =>
      rw [functions_noteMatch hstruct, functions_noteMatch (hsame.functions ▸ hstruct), hsame.functions]
  · rw [relationships_noteMatch, relationships_noteMatch, hsame.functions, hsame.relationships]

/-- So does noting several. -/
theorem SameFindings.foldl_noteMatch (hsame : SameFindings g h) (pairs : List (String × String)) :
    SameFindings (pairs.foldl CallGraph.noteMatch g) (pairs.foldl CallGraph.noteMatch h) := by
  induction pairs generalizing g h with
  | nil => exact hsame
  | cons pair pairs ih => exact ih (hsame.noteMatch pair)

/-- Whether a match is with a struct that is there. -/
def hasTaker (cs : Components) (pair : String × String) : Bool :=
  (structKey? cs pair.1).isSome

/-- Matches without a struct that is there change nothing. -/
theorem foldl_noteMatch_filter (g : CallGraph) (pairs : List (String × String)) :
    pairs.foldl noteMatch g = (pairs.filter (hasTaker g.functions)).foldl noteMatch g := by
  induction pairs generalizing g with
  | nil => rfl
  | cons pair pairs ih =>
    have htakers : hasTaker (g.noteMatch pair).functions = hasTaker g.functions := by
      funext p
      simp only [hasTaker, structKey?, lastNamed?_noteMatch]
    cases htaker : hasTaker g.functions pair with
    | true => rw [List.filter_cons_of_pos htaker, List.foldl_cons, List.foldl_cons, ih, htakers]
    | false =>
      have hnone : lastOf? g.functions "struct" pair.1 = none := by
        simpa [hasTaker, structKey?, lastNamed?] using htaker
      rw [List.filter_cons_of_neg (by simp [htaker]), List.foldl_cons, noteMatch_of_none hnone, ih]

/-- An analysis depends on what was found before and on the matches with structs that are there. -/
theorem SameFindings.analysis (hsame : SameFindings g h)
    (hmatches : g.resolve.satisfied.filter (hasTaker g.functions) = h.resolve.satisfied.filter (hasTaker g.functions)) :
    SameFindings g.resolve.matchInterfaces.deduplicate h.resolve.matchInterfaces.deduplicate := by
  have htakers : h.resolve.satisfied.filter (hasTaker h.resolve.functions) =
      g.resolve.satisfied.filter (hasTaker g.resolve.functions) := by
    change h.resolve.satisfied.filter (hasTaker h.functions) = _
    rw [← hsame.functions]
    exact hmatches.symm
  have hmatched : SameFindings g.resolve.matchInterfaces h.resolve.matchInterfaces := by
    rw [matchInterfaces, matchInterfaces, foldl_noteMatch_filter, foldl_noteMatch_filter h.resolve, htakers]
    exact hsame.resolve.foldl_noteMatch _
  exact ⟨hmatched.functions, congrArg (distinct []) hmatched.relationships⟩

/-- Implementations with the same ends are one. -/
theorem eq_of_implementation? {p q : String × String} {r' : Relationship} (hr : implementation? cs p = some r)
    (hr' : implementation? cs q = some r') (hends : sameEnds r r' = true) : r' = r := by
  obtain ⟨hcaller, hcallee⟩ := sameEnds_iff.mp hends
  obtain ⟨a, -, hr⟩ := Option.bind_eq_some_iff.mp hr
  obtain ⟨b, -, rfl⟩ := Option.map_eq_some_iff.mp hr
  obtain ⟨a', -, hr'⟩ := Option.bind_eq_some_iff.mp hr'
  obtain ⟨b', -, rfl⟩ := Option.map_eq_some_iff.mp hr'
  change a'.2 = a.2 at hcaller
  change b'.2 = b.2 at hcallee
  rw [hcaller, hcallee]

/-- A relationship is left by an analysis if it is the first with its ends, or if there is none and a match
gives rise to it. -/
theorem mem_relationships_analysis_iff :
    r ∈ g.resolve.matchInterfaces.deduplicate.relationships ↔
      g.resolve.relationships.find? (sameEnds r) = some r ∨
        g.resolve.relationships.find? (sameEnds r) = none ∧
          ∃ pair ∈ g.resolve.satisfied, implementation? g.functions pair = some r := by
  rw [mem_relationships_analysis, ← relationships_resolve, List.find?_append, Option.or_eq_some_iff]
  refine or_congr_right (and_congr_right fun _ => ?_)
  rw [← List.mem_filterMap]
  constructor
  · exact List.mem_of_find?_eq_some
  · intro hr
    obtain ⟨pair, -, hpair⟩ := List.mem_filterMap.mp hr
    obtain ⟨r', hfind⟩ : ∃ r', (g.resolve.satisfied.filterMap (implementation? g.functions)).find?
        (sameEnds r) = some r' :=
      Option.isSome_iff_exists.mp (List.find?_isSome.mpr ⟨r, hr, sameEnds_iff.mpr ⟨rfl, rfl⟩⟩)
    obtain ⟨pair', -, hpair'⟩ := List.mem_filterMap.mp (List.mem_of_find?_eq_some hfind)
    rw [hfind, eq_of_implementation? hpair hpair' (List.find?_some hfind)]

/-- A call graph has all that another one has: the same components, which differ at most in that they
implement more interfaces, and all of its relationships. -/
structure Includes (g h : CallGraph) : Prop where
  keys : g.functions.keys = h.functions.keys
  components : ∀ k c d, g.functions.get? k = some c → h.functions.get? k = some d →
    unmatched c = unmatched d ∧ ∀ i ∈ d.implementsInterfaces, i ∈ c.implementsInterfaces
  relationships : ∀ r ∈ h.relationships, r ∈ g.relationships

/-- With the same findings and all matches of another analysis, an analysis has all that it has. -/
theorem SameFindings.includes (hsame : SameFindings g h)
    (hmatches : ∀ pair ∈ h.resolve.satisfied, hasTaker g.functions pair = true →
      pair ∈ g.resolve.satisfied) :
    Includes g.resolve.matchInterfaces.deduplicate h.resolve.matchInterfaces.deduplicate where
  keys := (keys_matched g).trans ((congrArg Keyed.keys hsame.functions).trans (keys_matched h).symm)
  components := by
    intro k c d hc hd
    obtain ⟨c₀, hc₀, hunmatched, hc⟩ := exists_component_of_matchInterfaces hc
    obtain ⟨d₀, hd₀, hunmatched', hd⟩ := exists_component_of_matchInterfaces hd
    rw [← hsame.resolve.functions] at hd₀ hd
    obtain rfl : c₀ = d₀ := Option.some.inj (hc₀.symm.trans hd₀)
    refine ⟨hunmatched.trans hunmatched'.symm, fun i hi => (hc i).mpr ?_⟩
    rcases (hd i).mp hi with hbefore | ⟨name, hkey, hmem⟩
    · exact Or.inl hbefore
    · exact Or.inr ⟨name, hkey, hmatches _ hmem (Option.isSome_of_eq_some hkey)⟩
  relationships := by
    intro r hr
    rw [mem_relationships_analysis_iff, ← hsame.resolve.relationships, ← hsame.functions] at hr
    rw [mem_relationships_analysis_iff]
    refine hr.imp_right (And.imp_right ?_)
    rintro ⟨pair, hmem, hpair⟩
    have htaker : hasTaker g.functions pair = true := by
      obtain ⟨a, ha, -⟩ := Option.bind_eq_some_iff.mp hpair
      simp [hasTaker, structKey?, ha]
    exact ⟨pair, hmatches pair hmem htaker, hpair⟩

/-- An analysis has all that another one with the same findings has only if it has its matches with structs
that are there. -/
theorem SameFindings.includes_iff (hsame : SameFindings g h)
    (hnone : ∀ e ∈ g.functions.entries, e.2.implementsInterfaces = []) :
    Includes g.resolve.matchInterfaces.deduplicate h.resolve.matchInterfaces.deduplicate ↔
      ∀ pair ∈ h.resolve.satisfied, hasTaker g.functions pair = true →
        pair ∈ g.resolve.satisfied := by
  refine ⟨fun hincludes => ?_, hsame.includes⟩
  rintro ⟨name, i⟩ hmem htaker
  obtain ⟨k, hkey⟩ := Option.isSome_iff_exists.mp htaker
  have hthere : ∀ {g' : CallGraph}, g'.functions = g.functions →
      ∃ c, g'.resolve.matchInterfaces.deduplicate.functions.get? k = some c := by
    intro g' hfunctions
    have hmem : k ∈ g'.resolve.matchInterfaces.functions.keys := by
      obtain ⟨c₀, hc₀, -⟩ := exists_of_structKey? hkey
      rw [keys_matched, hfunctions]
      exact Keyed.mem_keys_of_mem (g.functions.get?_eq_some_iff.mp hc₀)
    exact Option.isSome_iff_exists.mp ((Keyed.has_iff_mem_keys _ k).mpr hmem)
  obtain ⟨c, hc⟩ := hthere rfl
  obtain ⟨d, hd⟩ := hthere hsame.functions.symm
  have hkept := (hincludes.components k c d hc hd).2 i
  obtain ⟨d₀, -, -, hd⟩ := exists_component_of_matchInterfaces hd
  obtain ⟨c₀, hc₀, -, hc⟩ := exists_component_of_matchInterfaces hc
  -- The component implements nothing of its own, so the interface is matched under a name that has this
  -- key, and only one name has it.
  have hi := (hc i).mp (hkept ((hd i).mpr (Or.inr ⟨name, hsame.functions ▸ hkey, hmem⟩)))
  rw [hnone (k, c₀) (g.functions.get?_eq_some_iff.mp hc₀)] at hi
  obtain ⟨n, hn, hmatch⟩ := hi.resolve_left List.not_mem_nil
  obtain rfl : name = n := eq_of_structKey? hkey hn
  exact hmatch

/-- Noting a match keeps the known methods. -/
theorem tables_noteMatch (g : CallGraph) (pair : String × String) :
    (g.noteMatch pair).structs = g.structs ∧ (g.noteMatch pair).interfaces = g.interfaces := by
  unfold noteMatch
  split
  · exact ⟨rfl, rfl⟩
  · dsimp only
    split <;> exact ⟨rfl, rfl⟩

/-- So does noting several. -/
theorem tables_foldl_noteMatch (g : CallGraph) (pairs : List (String × String)) :
    (pairs.foldl noteMatch g).structs = g.structs ∧ (pairs.foldl noteMatch g).interfaces = g.interfaces := by
  induction pairs generalizing g with
  | nil => exact ⟨rfl, rfl⟩
  | cons pair pairs ih =>
    obtain ⟨hstructs, hinterfaces⟩ := ih (g.noteMatch pair)
    exact ⟨hstructs.trans (g.tables_noteMatch pair).1, hinterfaces.trans (g.tables_noteMatch pair).2⟩

/-- The methods of types after gathering are those known before, with what the files tell put in. -/
theorem tables_gather (g : CallGraph) (rs : List FileResult) :
    (g.gather rs).structs = g.structs.insertAll (rs.flatMap fun r => r.found.structs.entries) ∧
      (g.gather rs).interfaces =
        g.interfaces.insertAll (rs.flatMap fun r => r.found.interfaces.entries) := by
  induction rs generalizing g with
  | nil => exact ⟨rfl, rfl⟩
  | cons r rs ih =>
    obtain ⟨hstructs, hinterfaces⟩ := ih (g.addFindings r.place r.found)
    simp only [List.flatMap_cons, Keyed.insertAll_append]
    exact ⟨hstructs, hinterfaces⟩

/-- Of the keys that were not there before, a table is filled as if nothing had been there. -/
theorem filter_new_insertAll (t : MethodSets) (es : List (String × List String)) :
    (t.insertAll es).entries.filter (fun e => !t.has e.1) =
      (Keyed.empty.insertAll es).entries.filter fun e => !t.has e.1 := by
  have hold : (Keyed.empty : MethodSets).entries = t.entries.filter fun e => !t.has e.1 := by
    refine (List.filter_eq_nil_iff.mpr fun e he => ?_).symm
    simp [(t.has_iff_mem_keys e.1).mpr (Keyed.mem_keys_of_mem he)]
  rw [Keyed.filter_entries_insertAll (fun k => !t.has k) hold,
    Keyed.filter_entries_insertAll (u := Keyed.empty) (fun k => !t.has k) rfl]

/-- Choosing satisfied pairs is choosing structs and interfaces. -/
theorem filter_satisfied (g : CallGraph) (p q : String → Bool) :
    g.satisfied.filter (fun pair => p pair.1 && q pair.2) =
      (g.structs.entries.filter fun e => p e.1).flatMap fun e =>
        ((g.interfaces.entries.filter fun e => q e.1).filter fun e' => satisfies e.2 e'.2).map
          fun e' => (e.1, e'.1) := by
  rw [satisfied, List.filter_flatMap]
  induction g.structs.entries with
  | nil => rfl
  | cons e es ih =>
    rw [List.flatMap_cons, ih]
    cases hp : p e.1 with
    | true =>
      rw [List.filter_cons_of_pos (p := fun e : String × List String => p e.1) hp, List.flatMap_cons,
        List.filter_map, List.filter_filter, List.filter_filter]
      simp [hp, Bool.and_comm]
    | false =>
      rw [List.filter_cons_of_neg (by simp [hp]), List.filter_map]
      simp [Function.comp_def, hp]

/-- Neither type of a match was known before. -/
def isNew (g : CallGraph) (pair : String × String) : Bool :=
  !g.structs.has pair.1 && !g.interfaces.has pair.2

/-- Types that were not known before are matched as if nothing had been known. -/
theorem filter_isNew_satisfied (g : CallGraph) (rs : List FileResult) :
    (g.gather rs).satisfied.filter g.isNew = (gather {} rs).satisfied.filter g.isNew := by
  obtain ⟨hstructs, hinterfaces⟩ := tables_gather g rs
  obtain ⟨hstructs', hinterfaces'⟩ := tables_gather {} rs
  unfold isNew
  rw [filter_satisfied _ (fun k => !g.structs.has k) fun k => !g.interfaces.has k,
    filter_satisfied _ (fun k => !g.structs.has k) fun k => !g.interfaces.has k, hstructs, hinterfaces,
    hstructs', hinterfaces', filter_new_insertAll, filter_new_insertAll]

/-- If the types of all matches are new, these are the matches as if nothing had been known. -/
theorem filter_hasTaker_satisfied {rs : List FileResult}
    (hmore : ∀ pair ∈ (gather {} rs).satisfied, pair ∈ (g.gather rs).satisfied)
    (hnew : ∀ pair ∈ (g.gather rs).satisfied, hasTaker cs pair = true → g.isNew pair = true) :
    (g.gather rs).satisfied.filter (hasTaker cs) = (gather {} rs).satisfied.filter (hasTaker cs) := by
  -- The two lists agree on new types, so both are first cut down to these.
  have hboth : ∀ pairs : List (String × String), (∀ pair ∈ pairs, pair ∈ (g.gather rs).satisfied) →
      pairs.filter (hasTaker cs) = (pairs.filter g.isNew).filter (hasTaker cs) := by
    intro pairs hpairs
    rw [List.filter_filter]
    refine List.filter_congr fun pair hpair => ?_
    cases htaker : hasTaker cs pair with
    | false => rfl
    | true => exact (hnew pair (hpairs pair hpair) htaker).symm
  rw [hboth _ fun _ h => h, hboth _ hmore, filter_isNew_satisfied]

/-- The methods that are told last in files and then in others. -/
theorem lastTold_append (table : Go.FileFindings → MethodSets) (rs ts : List FileResult) (type : String) :
    lastTold table (rs ++ ts) type = (lastTold table ts type).or (lastTold table rs type) := by
  rw [lastTold, List.reverse_append, List.findSome?_append]
  rfl

/-- A struct has all methods of an interface with methods, as the files tell of the two last. -/
def Matched (rs : List FileResult) (name i : String) : Prop :=
  ∃ wanted, lastTold (·.interfaces) rs i = some wanted ∧ wanted ≠ [] ∧
    ∀ m ∈ wanted, m ∈ (lastTold (·.structs) rs name).getD []

/-- What later files match is matched after earlier ones. -/
theorem Matched.append_left {ts : List FileResult} (hmatched : Matched ts name i)
    (rs : List FileResult) : Matched (rs ++ ts) name i := by
  obtain ⟨wanted, hwanted, hne, hall⟩ := hmatched
  refine ⟨wanted, by rw [lastTold_append, hwanted, Option.some_or], hne, fun m hm => ?_⟩
  have hmethod := hall m hm
  rw [lastTold_append]
  cases htold : lastTold (·.structs) ts name with
  | none => simp [htold] at hmethod
  | some methods => simpa [htold] using hmethod

namespace Site

variable {s s₁ s₂ : Site} {files files₁ files₂ : List Listed}

/-- What files contain is found whatever has been analysed before. -/
theorem sameFindings_gathered (s : Site) (before before' : CallGraph) (files : List Listed) :
    SameFindings (s.gathered before files) (s.gathered before' files) where
  functions := by rw [gathered, gathered, functions_gather, functions_gather]; rfl
  relationships := by rw [gathered, gathered, relationships_gather, relationships_gather]; rfl

/-- What is gathered implements nothing yet. -/
theorem implements_gathered (s : Site) (before : CallGraph) (files : List Listed) :
    ∀ e ∈ (s.gathered before files).functions.entries, e.2.implementsInterfaces = [] := by
  rintro ⟨k, c⟩ hentry
  obtain ⟨r, hr, hc, -⟩ := exists_result_of_mem_gather rfl hentry
  obtain ⟨front, hrooted⟩ := rooted_of_mem_results hr hc
  exact hrooted.implements

/-- A first report leaves the methods that its files told last. -/
theorem told_report (s : Site) (files : List Listed) (type : String) :
    (s.report {} files).graph.cleared.structs.get? type =
        lastTold (·.structs) (s.results files) type ∧
      (s.report {} files).graph.cleared.interfaces.get? type =
        lastTold (·.interfaces) (s.results files) type := by
  obtain ⟨hstructs, hinterfaces⟩ := tables_foldl_noteMatch (s.gathered {} files).resolve
    (s.gathered {} files).resolve.satisfied
  refine ⟨(congrArg (Keyed.get? · type) hstructs).trans ?_,
    (congrArg (Keyed.get? · type) hinterfaces).trans ?_⟩
  · exact (get?_structs_gather {} _ type).trans Option.or_none
  · exact (get?_interfaces_gather {} _ type).trans Option.or_none

/-- A second run knows what the files of both told last. -/
theorem told_gathered (s₁ s₂ : Site) (files₁ files₂ : List Listed) (type : String) :
    (s₂.gathered (s₁.report {} files₁).graph files₂).structs.get? type =
        lastTold (·.structs) (s₁.results files₁ ++ s₂.results files₂) type ∧
      (s₂.gathered (s₁.report {} files₁).graph files₂).interfaces.get? type =
        lastTold (·.interfaces) (s₁.results files₁ ++ s₂.results files₂) type := by
  obtain ⟨hstructs, hinterfaces⟩ := s₁.told_report files₁ type
  rw [gathered, get?_structs_gather, get?_interfaces_gather, hstructs, hinterfaces, lastTold_append, lastTold_append]
  exact ⟨rfl, rfl⟩

/-- It finds what the files of both match. -/
theorem mem_satisfied_gathered :
    (name, i) ∈ (s₂.gathered (s₁.report {} files₁).graph files₂).resolve.satisfied ↔
      Matched (s₁.results files₁ ++ s₂.results files₂) name i :=
  mem_satisfied_of_told (s₁.told_gathered s₂ files₁ files₂ name).1
    (s₁.told_gathered s₂ files₁ files₂ i).2

/-- A pair is new if the first run told of neither. -/
theorem isNew_report (s : Site) (files : List Listed) (pair : String × String) :
    (s.report {} files).graph.cleared.isNew pair = true ↔
      lastTold (·.structs) (s.results files) pair.1 = none ∧
        lastTold (·.interfaces) (s.results files) pair.2 = none := by
  rw [← (s.told_report files pair.1).1, ← (s.told_report files pair.2).2]
  simp [isNew, Keyed.has]

/-- A used analyser reports all that a fresh one does. It reports nothing else exactly if every struct that
has the methods of an interface has them by what the second files tell. -/
theorem reuse_independent_iff {first : Report} (hfirst : s₁.analyze {} files₁ = .ok first)
    (s₂ : Site) (files₂ : List Listed) :
    (∃ fault, s₂.analyze first.graph files₂ = .error fault ∧ s₂.analyze {} files₂ = .error fault) ∨
      ∃ again fresh, s₂.analyze first.graph files₂ = .ok again ∧ s₂.analyze {} files₂ = .ok fresh ∧
        again.filesAnalyzed = fresh.filesAnalyzed ∧ again.languages = fresh.languages ∧
        Includes again.graph fresh.graph ∧
        (Includes fresh.graph again.graph ↔ ∀ name i, HasStruct fresh.graph.functions name →
          Matched (s₁.results files₁ ++ s₂.results files₂) name i →
            Matched (s₂.results files₂) name i) ∧
        ((∀ name i, HasStruct fresh.graph.functions name →
            Matched (s₁.results files₁ ++ s₂.results files₂) name i →
              lastTold (·.structs) (s₁.results files₁) name = none ∧
                lastTold (·.interfaces) (s₁.results files₁) i = none) →
          SameFindings again.graph fresh.graph) := by
  have hgraph : first.graph = (s₁.report {} files₁).graph := graph_of_analyze hfirst
  rcases s₂.analyze_eq files₂ with ⟨fault, hfault⟩ | ⟨count, hok⟩
  · exact Or.inl ⟨fault, hfault _, hfault _⟩
  refine Or.inr ⟨_, _, hok _, hok _, rfl, rfl, ?_⟩
  rw [hgraph]
  -- Both runs gather the same findings and differ only in which pairs are matched.
  have hfresh : ∀ {name i}, (name, i) ∈ (s₂.gathered {} files₂).resolve.satisfied ↔
      Matched (s₂.results files₂) name i := mem_satisfied_gather
  have hstruct : ∀ {name i}, HasStruct (s₂.report {} files₂).graph.functions name ↔
      hasTaker (s₂.gathered {} files₂).functions (name, i) = true :=
    (hasStruct_analysis _ _).trans hasStruct_iff
  have hmore : ∀ pair ∈ (s₂.gathered {} files₂).resolve.satisfied,
      pair ∈ (s₂.gathered (s₁.report {} files₁).graph files₂).resolve.satisfied :=
    fun pair hpair => mem_satisfied_gathered.mpr ((hfresh.mp hpair).append_left _)
  have hsame := s₂.sameFindings_gathered (s₁.report {} files₁).graph {} files₂
  refine ⟨hsame.includes fun pair hpair _ => hmore pair hpair, ?_, fun hnew => ?_⟩
  · refine ((s₂.sameFindings_gathered {} (s₁.report {} files₁).graph files₂).includes_iff
      (s₂.implements_gathered {} files₂)).trans ⟨fun h name i hname hmatched => ?_, ?_⟩
    · exact hfresh.mp (h (name, i) (mem_satisfied_gathered.mpr hmatched) (hstruct.mp hname))
    · rintro h ⟨name, i⟩ hpair htaker
      exact hfresh.mpr (h name i (hstruct.mpr htaker) (mem_satisfied_gathered.mp hpair))
  · refine hsame.analysis (filter_hasTaker_satisfied hmore ?_)
    rintro ⟨name, i⟩ hpair htaker
    rw [hsame.functions] at htaker
    exact (s₁.isNew_report files₁ (name, i)).mpr
      (hnew name i (hstruct.mpr htaker) (mem_satisfied_gathered.mp hpair))

end Site

/-- A method of a type that is declared elsewhere. -/
def strayMethodText : String := "package p\n\nfunc (S) A() {}\n"

/-- The type with that name, a struct, and an interface that asks for the method. -/
def bareText : String := "package p\n\ntype S struct{}\n\ntype I interface{ A() }\n"

/-- Another struct with its method and an interface that asks for it. -/
def otherText : String :=
  "package p\n\ntype T struct{}\n\ntype J interface{ A() }\n\nfunc (T) A() {}\n"

/-- A checkout of three files with these texts. -/
def checkout : Site where
  toolbox := { parsers := { trees := [
    (("go", strayMethodText), fileTree strayMethodText [methodTree 11]),
    (("go", bareText), fileTree bareText [structTree 11, interfaceTree 28 1]),
    (("go", otherText), fileTree otherText [structTree 11, interfaceTree 28 1, methodTree 53])] } }
  files := .directory true [("r", .directory true [
    ("a.go", .file strayMethodText.toUTF8.toList), ("b.go", .file bareText.toUTF8.toList),
    ("c.go", .file otherText.toUTF8.toList)])]
  root := "/r"

/-- The file with a method of a type. -/
def methodFile : Site.Contents := [("a.go", "go", strayMethodText)]

/-- The file with a struct of that name and an interface that asks for the method. -/
def bareFile : Site.Contents := [("b.go", "go", bareText)]

/-- The file with other types. -/
def otherFile : Site.Contents := [("c.go", "go", otherText)]

/-- A struct implements an interface only because of a method that a file of the first time tells. -/
theorem earlier_method_implements :
    ∃ first again fresh, checkout.analyze {} methodFile.listed = .ok first ∧
      checkout.analyze first.graph bareFile.listed = .ok again ∧
      checkout.analyze {} bareFile.listed = .ok fresh ∧
      outline fresh.graph.functions = [("b.S", "struct", "S", []), ("b.I", "interface", "I", [])] ∧
      fresh.graph.relationships = [] ∧
      outline again.graph.functions = [("b.S", "struct", "S", ["I"]), ("b.I", "interface", "I", [])] ∧
      again.graph.relationships.map (fun r => (r.caller, r.callee)) = [("b.S", "b.I")] := by
  have hmethod : checkout.Holds methodFile := by decide +kernel
  have hbare : checkout.Holds bareFile := by decide +kernel
  obtain ⟨first, hfirst⟩ := Site.exists_report_listed checkout {} methodFile
  obtain ⟨again, hagain⟩ := Site.exists_report_listed checkout first.graph bareFile
  obtain ⟨fresh, hfresh⟩ := Site.exists_report_listed checkout {} bareFile
  refine ⟨first, again, fresh, hfirst, hagain, hfresh, ?_⟩
  rw [Site.graph_of_analyze hagain, Site.graph_of_analyze hfresh, Site.gathered, Site.gathered,
    hbare.results_listed, Site.graph_of_analyze hfirst, Site.gathered, hmethod.results_listed]
  decide +kernel

/-- Other types are matched the second time as if they had been analysed afresh. -/
theorem other_types_analysed_afresh :
    ∃ first again fresh, checkout.analyze {} methodFile.listed = .ok first ∧
      checkout.analyze first.graph otherFile.listed = .ok again ∧
      checkout.analyze {} otherFile.listed = .ok fresh ∧
      (∀ name i, HasStruct fresh.graph.functions name →
        Matched (checkout.results methodFile.listed ++ checkout.results otherFile.listed) name i →
          lastTold (·.structs) (checkout.results methodFile.listed) name = none ∧
            lastTold (·.interfaces) (checkout.results methodFile.listed) i = none) ∧
      SameFindings again.graph fresh.graph ∧
      outline fresh.graph.functions = [("c.T", "struct", "T", ["J"]), ("c.J", "interface", "J", []),
        ("c.T.A", "method", "A", [])] := by
  have hmethod : checkout.Holds methodFile := by decide +kernel
  have hother : checkout.Holds otherFile := by decide +kernel
  obtain ⟨first, hfirst⟩ := Site.exists_report_listed checkout {} methodFile
  obtain ⟨fault, -, hfault⟩ | ⟨again, fresh, hagain, hfresh, -, -, -, -, hexact⟩ :=
    Site.reuse_independent_iff hfirst checkout otherFile.listed
  · obtain ⟨report, hreport⟩ := Site.exists_report_listed checkout {} otherFile
    exact absurd (hreport.symm.trans hfault) (by simp)
  obtain ⟨hstructs, houtline⟩ : (∀ e ∈ fresh.graph.functions.entries, e.2.kind = "struct" →
      e.2.name = "T") ∧ outline fresh.graph.functions =
        [("c.T", "struct", "T", ["J"]), ("c.J", "interface", "J", []), ("c.T.A", "method", "A", [])] := by
    rw [Site.graph_of_analyze hfresh, Site.gathered, hother.results_listed]
    decide +kernel
  obtain ⟨htold, htables⟩ : lastTold (·.structs) (checkout.results methodFile.listed) "T" = none ∧
      ∀ r ∈ checkout.results methodFile.listed, r.found.interfaces.entries = [] := by
    rw [hmethod.results_listed]
    decide +kernel
  have hnew : ∀ name i, HasStruct fresh.graph.functions name →
      Matched (checkout.results methodFile.listed ++ checkout.results otherFile.listed) name i →
        lastTold (·.structs) (checkout.results methodFile.listed) name = none ∧
          lastTold (·.interfaces) (checkout.results methodFile.listed) i = none := by
    rintro name i ⟨e, he, hkind, rfl⟩ -
    rw [hstructs e he hkind]
    refine ⟨htold, List.findSome?_eq_none_iff.mpr fun r hr => Option.eq_none_iff_forall_not_mem.mpr ?_⟩
    intro wanted hwanted
    have hentry := r.found.interfaces.get?_eq_some_iff.mp hwanted
    rw [htables r (List.mem_reverse.mp hr)] at hentry
    exact absurd hentry List.not_mem_nil
  exact ⟨first, again, fresh, hfirst, hagain, hfresh, hnew, hexact hnew, houtline⟩

end RepoAtlas.CallGraph
