import RepoAtlas.Proofs.CallGraph.Agreement
import RepoAtlas.Proofs.CallGraph.Order

/-!
# What a name leads to

Identifiers and names of methods share one table, in which the last component counts. A callee that is an
identifier is always resolved, but leads elsewhere if a later component goes by the identifier too.

A bare name that is no identifier is looked for in the directory of the caller only.
-/

namespace RepoAtlas.CallGraph

variable {g : CallGraph} {cs : Components} {c : Component} {r : Relationship} {k id name : String}

/-- The names other than its key by which a component is known everywhere. -/
def otherNames (c : Component) : List String :=
  (c.componentId.filter (· != "")).toList ++ (methodKey? c).toList

/-- A component is known by its key and its other names. -/
theorem mem_wideNames_iff : name ∈ wideNames k c ↔ name = k ∨ name ∈ otherNames c := by
  simp only [wideNames, otherNames, List.cons_append, List.nil_append, List.mem_cons]

/-- The components that are listed behind the one with a key. -/
def behind (cs : Components) (k : String) : List (String × Component) :=
  (cs.entries.dropWhile fun e => e.1 != k).tail

/-- A key divides the components. -/
theorem exists_split_of_mem_keys (h : k ∈ cs.keys) : ∃ front c, cs.entries = front ++ (k, c) :: behind cs k := by
  obtain ⟨⟨j, c⟩, hentry, rfl⟩ := List.mem_map.mp h
  obtain ⟨front, rest, hsplit⟩ := List.append_of_mem hentry
  have hnodup := cs.nodup
  rw [hsplit, List.map_append, List.map_cons] at hnodup
  have hfront : ∀ e ∈ front, (e.1 != j) = true := by
    intro e he
    have hne := (List.nodup_append.mp hnodup).2.2 e.1 (List.mem_map_of_mem he) j List.mem_cons_self
    exact bne_iff_ne.mpr hne
  have hrest : behind cs j = rest := by
    rw [behind, hsplit, List.dropWhile_append_of_pos hfront, List.dropWhile_cons_of_neg (by simp)]
    rfl
  exact ⟨front, c, hrest ▸ hsplit⟩

/-- No key comes again. -/
theorem ne_of_mem_behind (h : k ∈ cs.keys) {e : String × Component} (he : e ∈ behind cs k) : e.1 ≠ k := by
  obtain ⟨front, c, hsplit⟩ := exists_split_of_mem_keys h
  have hnodup := cs.nodup
  rw [hsplit, List.map_append, List.map_cons] at hnodup
  have hbehind := (List.nodup_cons.mp (List.nodup_append.mp hnodup).2.1).1
  exact fun heq => hbehind (List.mem_map.mpr ⟨e, he, heq⟩)

/-- The last component behind the one with a key that goes by the key as well. -/
def namesake? (cs : Components) (k : String) : Option String :=
  ((behind cs k).reverse.find? fun e => decide (k ∈ otherNames e.2)).map (·.1)

/-- A key has no namesake if nothing behind it goes by it. -/
theorem namesake?_eq_none_iff : namesake? cs k = none ↔ ∀ e ∈ behind cs k, k ∉ otherNames e.2 := by
  simp [namesake?, List.find?_eq_none]

/-- A namesake is another component. -/
theorem ne_of_namesake? (h : k ∈ cs.keys) (hid : namesake? cs k = some id) : id ≠ k := by
  obtain ⟨e, hfind, rfl⟩ := Option.map_eq_some_iff.mp hid
  exact ne_of_mem_behind h (List.mem_reverse.mp (List.mem_of_find?_eq_some hfind))

/-- Everywhere a key leads to its namesake, and to its own component if it has none. -/
theorem lookup_wideTable_of_mem_keys (h : k ∈ cs.keys) :
    (wideTable cs).lookup k = some ((namesake? cs k).getD k) := by
  obtain ⟨front, c, hsplit⟩ := exists_split_of_mem_keys h
  have hown : goesBy k (k, c) = true := by
    simp [goesBy, mem_wideNames_iff]
  have hbehind : (behind cs k).reverse.find? (goesBy k) =
      (behind cs k).reverse.find? fun e => decide (k ∈ otherNames e.2) := by
    refine List.find?_congr fun e he => ?_
    have hne : k ≠ e.1 := (ne_of_mem_behind h (List.mem_reverse.mp he)).symm
    simp [goesBy, mem_wideNames_iff, hne]
  rw [lookup_wideTable, hsplit, List.reverse_append, List.reverse_cons, List.find?_append,
    List.find?_append, hbehind, namesake?]
  cases (behind cs k).reverse.find? fun e => decide (k ∈ otherNames e.2) with
  | none => simp [hown]
  | some e => rfl

/-- A callee that is a key goes to its namesake, if there is one. -/
theorem resolvedIn_of_mem_keys (h : r.callee ∈ cs.keys) :
    resolvedIn cs r = { r with callee := (namesake? cs r.callee).getD r.callee, resolved := true } := by
  have htarget : targetOf? cs r = some ((namesake? cs r.callee).getD r.callee) := by
    simp only [targetOf?, target?, lookup_wideTable_of_mem_keys h, Option.orElse_eq_or, Option.some_or]
  simp only [resolvedIn, htarget]

/-- Resolving keeps the places of relationships. -/
theorem getElem?_resolve {i : Nat} (h : g.relationships[i]? = some r) :
    g.resolve.relationships[i]? = some (resolvedIn g.functions r) := by
  rw [relationships_resolve, List.getElem?_map, h, Option.map_some]

/-- A callee that is an identifier is resolved at its place, to the last component behind it that goes by it
too, and stays exactly if there is none. -/
theorem exact_identifier_kept_iff {i : Nat} (hr : g.relationships[i]? = some r)
    (hkey : r.callee ∈ g.functions.keys) :
    ∃ r', g.resolve.relationships[i]? = some r' ∧
      r' = { r with
        callee := (namesake? g.functions r.callee).getD r.callee
        resolved := true } ∧
      (r'.callee = r.callee ↔ ∀ e ∈ behind g.functions r.callee, r.callee ∉ otherNames e.2) := by
  refine ⟨_, getElem?_resolve hr, resolvedIn_of_mem_keys hkey, ?_⟩
  rw [resolvedIn_of_mem_keys hkey, ← namesake?_eq_none_iff]
  cases hnamesake : namesake? g.functions r.callee with
  | none => simp
  | some id => simpa using ne_of_namesake? hkey hnamesake

/-- A file with a function and a caller of it. -/
def neighbours : List Component :=
  [member "S" "function" "A", member "S" "function" "main"]

/-- A method whose type is named like that file. -/
def likeNamed : Component :=
  { member "x" "method" "S.A" with name := "A", className := some "S" }

/-- Components in their order, with the call within the file as its analysis has resolved it. -/
def calling (listed : List Component) : CallGraph where
  functions := Keyed.ofList (listed.map fun c => (c.id, c))
  relationships := [{ caller := "S.main", callee := "S.A", resolved := true }]

/-- A method that is listed behind a function takes over the calls that name the function by its
identifier. -/
theorem later_method_takes_identifier :
    (calling (neighbours ++ [likeNamed])).functions.keys = ["S.A", "S.main", "x.S.A"] ∧
    (calling (neighbours ++ [likeNamed])).resolve.relationships =
      [{ caller := "S.main", callee := "x.S.A", resolved := true }] := by
  decide +kernel

/-- A method that is listed before a function goes by its identifier too, and leaves it its calls. -/
theorem earlier_method_leaves_identifier :
    (calling (likeNamed :: neighbours)).relationships[0]? =
      some { caller := "S.main", callee := "S.A", resolved := true } ∧
    "S.A" ∈ (calling (likeNamed :: neighbours)).functions.keys ∧ "S.A" ∈ otherNames likeNamed ∧
    ∃ r', (calling (likeNamed :: neighbours)).resolve.relationships[0]? = some r' ∧
      r'.callee = "S.A" ∧ r'.resolved = true := by
  have hr : (calling (likeNamed :: neighbours)).relationships[0]? =
      some { caller := "S.main", callee := "S.A", resolved := true } := rfl
  have hkey : "S.A" ∈ (calling (likeNamed :: neighbours)).functions.keys := by decide +kernel
  obtain ⟨r', hr', heq, hkept⟩ := exact_identifier_kept_iff hr hkey
  exact ⟨hr, hkey, by decide, r', hr', hkept.mpr (by decide +kernel), congrArg _ heq⟩

/-- A name without a dot that is neither the key nor the component identifier of a component. -/
structure Bare (cs : Components) (name : String) : Prop where
  dotless : '.' ∉ name.toList
  not_key : name ∉ cs.keys
  not_componentId : ∀ c ∈ cs.values, c.componentId ≠ some name

/-- The name of a method by its type has a dot. -/
theorem dot_mem_of_methodKey? (h : methodKey? c = some name) : '.' ∈ name.toList := by
  unfold methodKey? at h
  split at h
  · split at h
    · contradiction
    · cases h
      simp
  · contradiction

/-- Without a dot a local name is a bare one. -/
theorem mem_localNames_of_dotless (h : '.' ∉ name.toList) : name ∈ localNames c ↔ c.name = name := by
  have hmethod : methodKey? c ≠ some name := fun hkey => h (dot_mem_of_methodKey? hkey)
  simp [localNames, hmethod, eq_comm]

/-- A name without a dot has no short form. -/
theorem shortForm?_of_dotless (h : '.' ∉ name.toList) : shortForm? name = none := by
  unfold shortForm?
  split
  · rfl
  · rename_i front hfront
    exact absurd (by simp [Text.toList_of_beforeLast? hfront]) h

/-- A bare name is not known everywhere. -/
theorem Bare.lookup_wideTable (h : Bare cs name) : (wideTable cs).lookup name = none := by
  cases hlookup : (wideTable cs).lookup name with
  | none => rfl
  | some id =>
    obtain ⟨c, hentry, hname⟩ := mem_wideTable_iff.mp (Keyed.mem_of_lookup hlookup)
    rcases mem_wideNames_iff.mp hname with rfl | hother
    · exact absurd (Keyed.mem_keys_of_mem hentry) h.not_key
    · rcases List.mem_append.mp hother with hid | hmethod
      · have hfilter := Option.filter_eq_some_iff.mp (Option.mem_toList.mp hid)
        exact absurd hfilter.1 (h.not_componentId c (Keyed.mem_values_of_mem hentry))
      · exact absurd (dot_mem_of_methodKey? (by simpa using hmethod)) h.dotless

/-- A bare name is looked for in the directory of the caller and nowhere else. -/
theorem Bare.targetOf?_eq (h : Bare cs r.callee) :
    targetOf? cs r = (cs.get? r.caller).bind fun a => (localTable cs).lookup (directoryOf a, r.callee) := by
  simp [targetOf?, target?, h.lookup_wideTable, shortForm?_of_dotless h.dotless, h.dotless, Option.orElse_eq_or]

/-- What a bare name leads to goes by it in the directory of the caller. -/
theorem Bare.exists_neighbour (h : Bare cs r.callee) (hid : targetOf? cs r = some id) :
    ∃ a c, cs.get? r.caller = some a ∧ cs.get? id = some c ∧ directoryOf c = directoryOf a ∧ c.name = r.callee := by
  rw [h.targetOf?_eq] at hid
  obtain ⟨a, ha, hlookup⟩ := Option.bind_eq_some_iff.mp hid
  obtain ⟨c, hentry, hdirectory, hname⟩ := mem_localTable_iff.mp (Keyed.mem_of_lookup hlookup)
  exact ⟨a, c, ha, cs.get?_eq_some_iff.mpr hentry, hdirectory,
    (mem_localNames_of_dotless h.dotless).mp hname⟩

/-- Resolution does nothing to a relationship, or refers it to a component. -/
theorem resolvedIn_cases (cs : Components) (r : Relationship) :
    targetOf? cs r = none ∧ resolvedIn cs r = r ∨
      ∃ id ∈ cs.keys, targetOf? cs r = some id ∧
        resolvedIn cs r = { r with callee := id, resolved := true } := by
  cases htarget : targetOf? cs r with
  | none => exact Or.inl ⟨rfl, by simp only [resolvedIn, htarget]⟩
  | some id =>
    exact Or.inr ⟨id, mem_keys_of_target? htarget, rfl, by simp only [resolvedIn, htarget]⟩

/-- Resolution keeps relationships but for what they refer to. A bare name is changed exactly if some
component in the directory of the caller has it, and refers to such a one then. -/
theorem bare_names_stay_in_directory (g : CallGraph) :
    g.resolve.relationships.length = g.relationships.length ∧
    ∀ (i : Nat) (r : Relationship), g.relationships[i]? = some r →
      ∃ r' : Relationship, g.resolve.relationships[i]? = some r' ∧
      r'.caller = r.caller ∧ r'.line = r.line ∧ r'.kind = r.kind ∧
      (r' = r ∨ r'.callee ∈ g.functions.keys ∧ r'.resolved = true) ∧
      (Bare g.functions r.callee →
        (r' ≠ r → ∃ a c, g.functions.get? r.caller = some a ∧
          g.functions.get? r'.callee = some c ∧ directoryOf c = directoryOf a ∧
          c.name = r.callee) ∧
        ∀ a, g.functions.get? r.caller = some a → ∀ e ∈ g.functions.entries,
          directoryOf e.2 = directoryOf a → e.2.name = r.callee → r' ≠ r) := by
  refine ⟨by rw [relationships_resolve, List.length_map], fun i r hr => ?_⟩
  refine ⟨resolvedIn g.functions r, getElem?_resolve hr, ?_⟩
  rcases resolvedIn_cases g.functions r with ⟨hnone, hsame⟩ | ⟨id, hid, htarget, hchanged⟩
  · rw [hsame]
    refine ⟨rfl, rfl, rfl, Or.inl rfl, fun hbare => ⟨fun hne => absurd rfl hne, ?_⟩⟩
    intro a ha e he hdirectory hname
    have hunknown := (unknown_of_target? hnone).nearby a ha e.1 e.2 he hdirectory
    exact absurd ((mem_localNames_of_dotless hbare.dotless).mpr hname) hunknown
  · rw [hchanged]
    refine ⟨rfl, rfl, rfl, Or.inr ⟨hid, rfl⟩, fun hbare => ⟨fun _ => ?_, ?_⟩⟩
    · exact hbare.exists_neighbour htarget
    · intro a _ e _ _ _ hsame
      exact hbare.not_key (congrArg Relationship.callee hsame ▸ hid)

/-- The bare name of the struct leads to it from its own directory, that of the interface leads nowhere from
another one. -/
theorem service_names_stay_in_directory :
    Bare service.functions "Pump" ∧ Bare service.functions "Stopper" ∧
    (∃ r' : Relationship, service.resolve.relationships[1]? = some r' ∧ r'.caller = "app.run" ∧
      ∃ a c, service.functions.get? "app.run" = some a ∧ service.functions.get? r'.callee = some c ∧
        directoryOf c = directoryOf a ∧ c.name = "Pump") ∧
    service.resolve.relationships[2]? = some { caller := "app.run", callee := "Stopper" } := by
  have hpump : Bare service.functions "Pump" := ⟨by decide, by decide +kernel, by decide +kernel⟩
  have hstopper : Bare service.functions "Stopper" :=
    ⟨by decide, by decide +kernel, by decide +kernel⟩
  have hplaces : ∀ e ∈ service.functions.entries, (e.1 = "app.run" → directoryOf e.2 = "app") ∧
      (e.2.name = "Stopper" → directoryOf e.2 = "lib") := by decide +kernel
  refine ⟨hpump, hstopper, ?_, ?_⟩
  · obtain ⟨r', hr', hcaller, -, -, -, hbare⟩ := (bare_names_stay_in_directory service).2 1 _ rfl
    obtain ⟨a, ha⟩ : ∃ a, service.functions.get? "app.run" = some a :=
      Option.isSome_iff_exists.mp (by decide +kernel)
    obtain ⟨e, he, hdirectory, hname⟩ : ∃ e ∈ service.functions.entries,
        directoryOf e.2 = "app" ∧ e.2.name = "Pump" := by decide +kernel
    have hsame : directoryOf e.2 = directoryOf a :=
      hdirectory.trans ((hplaces _ (service.functions.get?_eq_some_iff.mp ha)).1 rfl).symm
    exact ⟨r', hr', hcaller, (hbare hpump).1 ((hbare hpump).2 a ha e he hsame hname)⟩
  · obtain ⟨r', hr', -, -, -, -, hbare⟩ := (bare_names_stay_in_directory service).2 2 _ rfl
    by_cases hkept : r' = { caller := "app.run", callee := "Stopper" }
    · exact hkept ▸ hr'
    · obtain ⟨a, c, ha, hc, hsame, hname⟩ := (hbare hstopper).1 hkept
      have happ := (hplaces _ (service.functions.get?_eq_some_iff.mp ha)).1 rfl
      have hlib := (hplaces _ (service.functions.get?_eq_some_iff.mp hc)).2 hname
      exact absurd (hlib.symm.trans (hsame.trans happ)) (by decide)

end RepoAtlas.CallGraph
