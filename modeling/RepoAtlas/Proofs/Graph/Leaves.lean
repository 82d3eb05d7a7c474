import Mathlib.Data.Set.Card
import RepoAtlas.Graph.Leaf
import RepoAtlas.Proofs.Graph.Sorting
import RepoAtlas.Proofs.Keyed
import RepoAtlas.Proofs.Text.Tidy

/-!
# Which leaves are kept

Among very many candidates only those that nothing depends on in the loosened graph are kept. Loosening never
removes the dependency of a node on itself, so a node that depends on itself is not kept.
-/

namespace RepoAtlas.Graph

variable {g : Graph} {cs : Components} {v : String}

/-- A key can be a leaf: its identifier is not blank, and it is that of a component of a kind that leaves
have. -/
structure Candidate (g : Graph) (cs : Components) (v : String) : Prop where
  key : v ∈ g.keys
  written : ∃ c ∈ v.toList, Text.isBlank c = false
  kind : ∃ c, cs.get? v = some c ∧ c.kind ∈ leafKinds cs

/-- The keys that are chosen are the candidates. -/
theorem mem_filter_isLeaf_iff : v ∈ g.loosened.keys.filter (isLeaf cs (leafKinds cs)) ↔ g.Candidate cs v := by
  have hkind : ((cs.get? v).map fun c => (leafKinds cs).contains c.kind).getD false = true ↔
      ∃ c, cs.get? v = some c ∧ c.kind ∈ leafKinds cs := by
    cases hget : cs.get? v with
    | none => simp
    | some c => simp
  rw [keys_loosened, List.mem_filter, isLeaf, Bool.and_eq_true, bne_iff_ne, Text.strip_ne_empty_iff, hkind]
  exact ⟨fun h => ⟨h.1, h.2.1, h.2.2⟩, fun h => ⟨h.key, h.written, h.kind⟩⟩

/-- As many keys are found to be leaves as there are candidates. -/
theorem length_filter_isLeaf (g : Graph) (cs : Components) :
    (g.loosened.keys.filter (isLeaf cs (leafKinds cs))).length = {v | g.Candidate cs v}.ncard := by
  have hnodup : g.loosened.keys.Nodup := g.loosened.edges.nodup
  have hcandidates : {v | g.Candidate cs v} =
      ((g.loosened.keys.filter (isLeaf cs (leafKinds cs))).toFinset : Set String) := by
    rw [List.coe_toFinset]
    ext v
    exact mem_filter_isLeaf_iff.symm
  rw [hcandidates, Set.ncard_coe_finset, List.toFinset_card_of_nodup (hnodup.filter _)]

/-- Among very many candidates those are kept that nothing depends on in the loosened graph. -/
theorem mem_leaves_of_many (hmany : manyLeaves ≤ {v | g.Candidate cs v}.ncard)
    (hgo : ∀ c ∈ cs.values, isGo c = false) : v ∈ g.leaves cs ↔ g.Candidate cs v ∧ ∀ u, ¬g.loosened.depends u v := by
  have hasGo_eq : hasGo cs = false := List.any_eq_false.mpr fun c hc => by simp [hgo c hc]
  rw [← length_filter_isLeaf] at hmany
  simp only [leaves, hasGo_eq, decide_eq_true hmany, Bool.not_false, Bool.and_true, if_true]
  rw [List.mem_filter, mem_filter_isLeaf_iff, Bool.not_eq_true', Bool.eq_false_iff, ne_eq, isNeeded_iff, not_exists]

/-- Of 400 candidates or more, none in a Go file, those are leaves that nothing depends on in the loosened
graph; one that no other depends on is kept exactly if it does not depend on itself. -/
theorem undemanded_candidate_kept_iff (g : Graph) (cs : Components)
    (hmany : 400 ≤ {v | g.Candidate cs v}.ncard) (hgo : ∀ c ∈ cs.values, isGo c = false) :
    (∀ v, v ∈ g.leaves cs ↔ g.Candidate cs v ∧ ∀ u, ¬g.loosened.depends u v) ∧
      ∀ v, g.Candidate cs v → (∀ u, g.depends u v → u = v) →
        (v ∈ g.leaves cs ↔ ¬g.depends v v) := by
  refine ⟨fun v => mem_leaves_of_many hmany hgo, fun v hv halone => ?_⟩
  rw [mem_leaves_of_many hmany hgo, and_iff_right hv]
  constructor
  · exact fun hfree hself => hfree v (depends_self_loosened hself)
  · intro hself u huv
    have hedge := depends_of_depends_loosened huv
    exact hself (halone u hedge ▸ hedge)

/-- The graph has the dependencies on components that exist. -/
theorem depends_ofComponents {u : String} :
    (ofComponents cs).depends u v ↔ ∃ c, (u, c) ∈ cs.entries ∧ v ∈ c.dependsOn ∧ cs.has v := by
  rw [depends_iff_entry]
  constructor
  · rintro ⟨ds, hentry, hv⟩
    obtain ⟨⟨k, c⟩, hc, heq⟩ := List.mem_map.mp hentry
    rw [Prod.mk.injEq] at heq
    obtain ⟨rfl, rfl⟩ := heq
    exact ⟨c, hc, List.mem_filter.mp hv⟩
  · rintro ⟨c, hc, hv⟩
    exact ⟨_, List.mem_map.mpr ⟨(u, c), hc, rfl⟩, List.mem_filter.mpr hv⟩

/-- A name of `n + 1` letters. -/
def crowdName (n : Nat) : String :=
  String.ofList (List.replicate (n + 1) 'c')

/-- Different numbers have different names. -/
theorem crowdName_injective : Function.Injective crowdName := by
  intro m n h
  have hlength := congrArg String.length h
  simpa [crowdName] using hlength

/-- A class without dependencies, except that the first depends on itself. -/
def crowdClass (n : Nat) : Component :=
  { id := crowdName n, name := crowdName n, kind := "class", filePath := "", relativePath := "",
    dependsOn := if n = 0 then [crowdName 0] else [] }

/-- The first 400 classes. -/
def crowd : Components :=
  ⟨(List.range 400).map fun n => (crowdName n, crowdClass n), by
    rw [List.map_map]
    exact List.nodup_range.map crowdName_injective⟩

/-- The crowd has the first 400 classes. -/
theorem mem_entries_crowd {c : Component} :
    (v, c) ∈ crowd.entries ↔ ∃ n < 400, v = crowdName n ∧ c = crowdClass n := by
  simp only [crowd, List.mem_map, List.mem_range, Prod.mk.injEq, eq_comm]

/-- None of them stands in a Go file. -/
theorem crowd_without_go : ∀ c ∈ crowd.values, isGo c = false := by
  intro c hc
  obtain ⟨v, hentry⟩ := Keyed.exists_key_of_mem_values hc
  obtain ⟨n, -, -, rfl⟩ := mem_entries_crowd.mp hentry
  rfl

/-- Each of them can be a leaf. -/
theorem candidate_crowd {n : Nat} (hn : n < 400) : (ofComponents crowd).Candidate crowd (crowdName n) where
  key := by
    change crowdName n ∈ (crowd.map _).keys
    rw [Keyed.keys_map]
    exact Keyed.mem_keys_of_mem (mem_entries_crowd.mpr ⟨n, hn, rfl, rfl⟩)
  written := ⟨'c', by simp [crowdName], by decide⟩
  kind := by
    refine ⟨crowdClass n, crowd.get?_eq_some_iff.mpr (mem_entries_crowd.mpr ⟨n, hn, rfl, rfl⟩), ?_⟩
    change "class" ∈ leafKinds crowd
    rw [leafKinds]
    split
    · decide
    · split <;> decide

/-- They are very many. -/
theorem crowd_many : manyLeaves ≤ {v | (ofComponents crowd).Candidate crowd v}.ncard := by
  have hnames : (((List.range 400).map crowdName).toFinset : Set String) ⊆
      {v | (ofComponents crowd).Candidate crowd v} := by
    rw [List.coe_toFinset]
    intro v hv
    obtain ⟨n, hn, rfl⟩ := List.mem_map.mp hv
    exact candidate_crowd (List.mem_range.mp hn)
  have hfinite : {v | (ofComponents crowd).Candidate crowd v}.Finite :=
    (List.finite_toSet (ofComponents crowd).keys).subset fun v hv => hv.key
  have hcard := Set.ncard_le_ncard hnames hfinite
  rwa [Set.ncard_coe_finset, List.toFinset_card_of_nodup (List.nodup_range.map crowdName_injective),
    List.length_map, List.length_range] at hcard

/-- Only the first one depends on something, itself. -/
theorem depends_crowd {u : String} : (ofComponents crowd).depends u v ↔ u = crowdName 0 ∧ v = crowdName 0 := by
  rw [depends_ofComponents]
  constructor
  · rintro ⟨c, hc, hv, -⟩
    obtain ⟨n, -, rfl, rfl⟩ := mem_entries_crowd.mp hc
    by_cases hn : n = 0
    · subst hn
      exact ⟨rfl, List.mem_singleton.mp hv⟩
    · simp [crowdClass, hn] at hv
  · rintro ⟨rfl, rfl⟩
    have hentry : (crowdName 0, crowdClass 0) ∈ crowd.entries :=
      mem_entries_crowd.mpr ⟨0, by decide, rfl, rfl⟩
    have hhas := (crowd.has_iff_mem_keys (crowdName 0)).mpr (Keyed.mem_keys_of_mem hentry)
    exact ⟨crowdClass 0, hentry, List.mem_singleton_self _, hhas⟩

/-- The second class of the crowd is kept, as nothing depends on it. -/
theorem second_class_kept : crowdName 1 ∈ (ofComponents crowd).leaves crowd := by
  have hname : crowdName 1 ≠ crowdName 0 := fun h => absurd (crowdName_injective h) (by decide)
  refine ((undemanded_candidate_kept_iff _ _ crowd_many crowd_without_go).2 (crowdName 1)
    (candidate_crowd (by decide)) fun u huv => ?_).mpr fun hself => ?_
  · exact absurd (depends_crowd.mp huv).2 hname
  · exact absurd (depends_crowd.mp hself).2 hname

/-- The first class of the crowd is a candidate that no other class depends on, and it is left out. -/
theorem first_class_left_out :
    400 ≤ {v | (ofComponents crowd).Candidate crowd v}.ncard ∧
      (∀ c ∈ crowd.values, isGo c = false) ∧ (ofComponents crowd).Candidate crowd (crowdName 0) ∧
      (∀ u, (ofComponents crowd).depends u (crowdName 0) → u = crowdName 0) ∧
      crowdName 0 ∉ (ofComponents crowd).leaves crowd := by
  refine ⟨crowd_many, crowd_without_go, candidate_crowd (by decide),
    fun u huv => (depends_crowd.mp huv).1, fun hleaf => ?_⟩
  have hself : (ofComponents crowd).depends (crowdName 0) (crowdName 0) := depends_crowd.mpr ⟨rfl, rfl⟩
  exact ((mem_leaves_of_many crowd_many crowd_without_go).mp hleaf).2 (crowdName 0)
    (depends_self_loosened hself)

end RepoAtlas.Graph
