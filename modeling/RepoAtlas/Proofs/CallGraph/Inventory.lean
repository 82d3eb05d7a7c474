import Mathlib.Data.List.Basic
import RepoAtlas.CallGraph.Inventory
import RepoAtlas.Proofs.CallGraph.Label

/-!
# What an inventory records

A relationship is recorded at the component that its caller leads to. Components are found by their labels and
only dependencies change, so one recording does not bear on another.
-/

namespace RepoAtlas

namespace Inventory

variable {inv inv' : Inventory} {table : List (String × String)} {a b k name : String}

/-- What a component of an inventory depends on. -/
def dependenciesOf (inv : Inventory) (a : String) : List String :=
  ((inv.components.get? a).map (·.dependsOn)).getD []

/-- A method is found by labels. -/
theorem methodOf?_eq (inv : Inventory) (name : String) :
    inv.methodOf? name = (Text.beforeLast? '.' name).bind fun type =>
      ((labels inv.components).entries.find? fun e =>
        e.2.name = Text.afterLast '.' name && e.2.className = some type).map (·.1) := by
  unfold methodOf?
  cases Text.beforeLast? '.' name with
  | none => rfl
  | some type =>
    exact find?_labels inv.components fun l =>
      l.name = Text.afterLast '.' name && l.className = some type

/-- A neighbour is found by labels. -/
theorem neighbour?_eq (inv : Inventory) (directory name : String) :
    inv.neighbour? directory name = ((labels inv.components).entries.find? fun e =>
      e.2.name = name && e.2.directory = directory).map (·.1) :=
  find?_labels inv.components fun l => l.name = name && l.directory = directory

/-- A directory is found by labels. -/
theorem directory_eq (inv : Inventory) (caller : Option String) :
    (caller.bind inv.components.get?).map CallGraph.directoryOf =
      (caller.bind (labels inv.components).get?).map Label.directory := by
  cases caller with
  | none => rfl
  | some a =>
    rw [Option.bind_some, Option.bind_some, get?_labels, Option.map_map]
    rfl

/-- The same labels lead to the same callee. -/
theorem callee?_congr (h : labels inv.components = labels inv'.components) (table : List (String × String))
    (caller : Option String) (name : String) : inv.callee? table caller name = inv'.callee? table caller name := by
  simp only [callee?, methodOf?_eq, neighbour?_eq, directory_eq, h]

/-- A dependency changes no label. -/
theorem label_depending (b : String) (c : Component) : (depending b c).label = c.label := by
  unfold depending
  split <;> rfl

/-- A dependency is added to the others. -/
theorem mem_dependsOn_depending (c : Component) : b ∈ (depending k c).dependsOn ↔ b ∈ c.dependsOn ∨ b = k := by
  unfold depending
  split
  · rename_i hk
    refine ⟨Or.inl, fun h => h.elim id fun heq => ?_⟩
    exact heq ▸ List.contains_iff_mem.mp hk
  · rw [List.mem_append, List.mem_singleton]

/-- A relationship changes no label. -/
theorem labels_addRelationship (table : List (String × String)) (inv : Inventory) (r : Relationship) :
    labels (addRelationship table inv r).components = labels inv.components := by
  cases hcaller : table.lookup r.caller with
  | none => simp only [addRelationship, hcaller]
  | some x =>
    cases hcallee : inv.callee? table (some x) r.callee with
    | none => simp only [addRelationship, hcaller, hcallee]
    | some y =>
      simp only [addRelationship, hcaller, hcallee]
      exact labels_modify inv.components x (label_depending y)

/-- Nor do several. -/
theorem labels_foldl (table : List (String × String)) (inv : Inventory) (rs : List Relationship) :
    labels (rs.foldl (addRelationship table) inv).components = labels inv.components := by
  induction rs generalizing inv with
  | nil => rfl
  | cons r rs ih => rw [List.foldl_cons, ih, labels_addRelationship]

/-- Recording a relationship adds one dependency at most, at the component that the caller is. -/
theorem mem_dependenciesOf_addRelationship (r : Relationship) :
    b ∈ (addRelationship table inv r).dependenciesOf a ↔
      b ∈ inv.dependenciesOf a ∨ a ∈ inv.components.keys ∧ table.lookup r.caller = some a ∧
        inv.callee? table (some a) r.callee = some b := by
  cases hcaller : table.lookup r.caller with
  | none => simp [addRelationship, hcaller]
  | some x =>
    by_cases hxa : x = a
    · subst hxa
      cases hcallee : inv.callee? table (some x) r.callee with
      | none => simp [addRelationship, hcaller, hcallee]
      | some y =>
        simp only [addRelationship, hcaller, hcallee, dependenciesOf, Keyed.get?_modify, if_true]
        rw [← Keyed.has_iff_mem_keys, Keyed.has]
        cases inv.components.get? x with
        | none => simp
        | some c => simp [mem_dependsOn_depending, eq_comm]
    · have hsame : (addRelationship table inv r).dependenciesOf a = inv.dependenciesOf a := by
        cases hcallee : inv.callee? table (some x) r.callee with
        | none => simp only [addRelationship, hcaller, hcallee]
        | some y =>
          simp only [addRelationship, hcaller, hcallee, dependenciesOf, Keyed.get?_modify,
            Ne.symm hxa, if_false, Option.map_id']
      simp [hsame, hxa]

/-- Dependencies come from relationships whose ends are found. -/
theorem mem_dependenciesOf_foldl (rs : List Relationship) :
    b ∈ (rs.foldl (addRelationship table) inv).dependenciesOf a ↔
      b ∈ inv.dependenciesOf a ∨ a ∈ inv.components.keys ∧
        ∃ r ∈ rs, table.lookup r.caller = some a ∧
          inv.callee? table (some a) r.callee = some b := by
  induction rs generalizing inv with
  | nil => simp
  | cons r rs ih =>
    have hlabels := labels_addRelationship table inv r
    have hkeys : (addRelationship table inv r).components.keys = inv.components.keys := by
      rw [← keys_labels, hlabels, keys_labels]
    have hcallee := fun name => callee?_congr hlabels table (some a) name
    rw [List.foldl_cons, ih, mem_dependenciesOf_addRelationship, hkeys, or_assoc]
    simp only [hcallee, List.exists_mem_cons_iff, and_or_left]

/-- A component as it is taken in: under its identifier and without dependencies. -/
def takenIn (c : Component) : Component :=
  { c with componentId := some c.id, dependsOn := [] }

/-- Components are taken in under their identifiers. -/
theorem mem_addComponents (cs : List Component) {c : Component}
    (h : (k, c) ∈ (inv.addComponents cs).components.entries) :
    (k, c) ∈ inv.components.entries ∨ ∃ d ∈ cs, d.id = k ∧ takenIn d = c := by
  induction cs generalizing inv with
  | nil => exact Or.inl h
  | cons d cs ih =>
    rcases ih h with hmem | ⟨d', hd', heq⟩
    · unfold addComponent at hmem
      split at hmem
      · exact Or.inl hmem
      · rcases Keyed.mem_put hmem with heq | hmem
        · cases heq
          exact Or.inr ⟨d, List.mem_cons_self, rfl, rfl⟩
        · exact Or.inl hmem
    · exact Or.inr ⟨d', List.mem_cons_of_mem d hd', heq⟩

/-- The keys are the identifiers that are not empty. -/
theorem mem_keys_addComponents (cs : List Component) :
    k ∈ (inv.addComponents cs).components.keys ↔
      k ∈ inv.components.keys ∨ k ≠ "" ∧ ∃ d ∈ cs, d.id = k := by
  induction cs generalizing inv with
  | nil => simp [addComponents]
  | cons d cs ih =>
    have hfirst : k ∈ (inv.addComponent d).components.keys ↔
        k ∈ inv.components.keys ∨ k ≠ "" ∧ d.id = k := by
      unfold addComponent
      split
      · rename_i hempty
        refine ⟨Or.inl, fun h => h.elim id fun hk => ?_⟩
        exact absurd (hk.2.symm.trans hempty) hk.1
      · rename_i hne
        change k ∈ (Keyed.put d.id _ inv.components.entries).map (·.1) ↔ _
        rw [Keyed.map_fst_put]
        change k ∈ (if d.id ∈ inv.components.keys then inv.components.keys
          else inv.components.keys ++ [d.id]) ↔ _
        split
        · rename_i hmem
          refine ⟨Or.inl, fun h => h.elim id fun hk => hk.2 ▸ hmem⟩
        · rw [List.mem_append, List.mem_singleton]
          refine or_congr_right ⟨fun heq => ⟨heq ▸ hne, heq.symm⟩, fun hk => hk.2.symm⟩
    change k ∈ ((inv.addComponent d).addComponents cs).components.keys ↔ _
    rw [ih, hfirst, or_assoc, ← and_or_left, List.exists_mem_cons_iff]

/-- What is taken in has no dependencies. -/
theorem dependenciesOf_addComponents (cs : List Component) (a : String) :
    (({} : Inventory).addComponents cs).dependenciesOf a = [] := by
  cases hget : (({} : Inventory).addComponents cs).components.get? a with
  | none => simp [dependenciesOf, hget]
  | some c =>
    rcases mem_addComponents cs (Keyed.get?_eq_some_iff _ |>.mp hget) with hmem | ⟨d, -, -, rfl⟩
    · cases hmem
    · simp [dependenciesOf, hget, takenIn]

/-- Every dependency of a component is a component, and none is listed twice. -/
structure Closed (cs : Components) : Prop where
  known : ∀ c ∈ cs.values, ∀ d ∈ c.dependsOn, d ∈ cs.keys
  nodup : ∀ c ∈ cs.values, c.dependsOn.Nodup

/-- No dependency is listed twice. -/
theorem nodup_depending {c : Component} (hc : c.dependsOn.Nodup) (b : String) : (depending b c).dependsOn.Nodup := by
  unfold depending
  split
  · exact hc
  · rename_i hb
    have hb' : b ∉ c.dependsOn := fun hmem => hb (List.contains_iff_mem.mpr hmem)
    exact List.nodup_append.mpr ⟨hc, List.pairwise_singleton _ b, fun d hd d' hd' heq =>
      hb' (List.mem_singleton.mp hd' ▸ heq ▸ hd)⟩

/-- A dependency on a component keeps them closed. -/
theorem Closed.modify_depending {cs : Components} (hcs : Closed cs) (a : String) (hb : b ∈ cs.keys) :
    Closed (cs.modify a (depending b)) := by
  have hvalue : ∀ c ∈ (cs.modify a (depending b)).values,
      ∃ c₀ ∈ cs.values, c = c₀ ∨ c = depending b c₀ := by
    intro c hc
    obtain ⟨⟨k, c'⟩, hentry, rfl⟩ := List.mem_map.mp hc
    obtain ⟨⟨k₀, c₀⟩, hentry₀, heq⟩ := List.mem_map.mp hentry
    cases heq
    refine ⟨c₀, Keyed.mem_values_of_mem hentry₀, ?_⟩
    split
    · exact Or.inr rfl
    · exact Or.inl rfl
  constructor
  · intro c hc d hd
    rw [Keyed.keys_modify]
    obtain ⟨c₀, hc₀, rfl | rfl⟩ := hvalue c hc
    · exact hcs.known c hc₀ d hd
    · rcases mem_dependsOn_depending c₀ |>.mp hd with hd | rfl
      · exact hcs.known c₀ hc₀ d hd
      · exact hb
  · intro c hc
    obtain ⟨c₀, hc₀, rfl | rfl⟩ := hvalue c hc
    · exact hcs.nodup c hc₀
    · exact nodup_depending (hcs.nodup c₀ hc₀) b

/-- What a relationship refers to is a component, if the names of the table lead to components. -/
theorem mem_keys_of_callee? {caller : Option String} (htable : ∀ e ∈ table, e.2 ∈ inv.components.keys)
    (h : inv.callee? table caller name = some b) : b ∈ inv.components.keys := by
  have hfound : ∀ p, (inv.components.entries.find? p).map (·.1) = some b →
      b ∈ inv.components.keys := by
    intro p hp
    obtain ⟨e, he, rfl⟩ := Option.map_eq_some_iff.mp hp
    exact Keyed.mem_keys_of_mem (List.mem_of_find?_eq_some he)
  simp only [callee?, Option.orElse_eq_or, Option.or_eq_some_iff] at h
  rcases h with hlookup | ⟨-, hmethod | ⟨-, hneighbour⟩⟩
  · exact htable (name, b) (Keyed.mem_of_lookup hlookup)
  · unfold methodOf? at hmethod
    split at hmethod
    · exact absurd hmethod (Option.some_ne_none b).symm
    · exact hfound _ hmethod
  · exact hfound _ hneighbour

/-- Adding a relationship keeps components closed. -/
theorem closed_addRelationship (hinv : Closed inv.components) (htable : ∀ e ∈ table, e.2 ∈ inv.components.keys)
    (r : Relationship) : Closed (addRelationship table inv r).components := by
  unfold addRelationship
  dsimp only
  split
  · rename_i a b _ hcallee
    exact hinv.modify_depending a (mem_keys_of_callee? htable hcallee)
  · exact hinv

/-- So does adding several. -/
theorem closed_foldl (hinv : Closed inv.components) (htable : ∀ e ∈ table, e.2 ∈ inv.components.keys)
    (rs : List Relationship) : Closed (rs.foldl (addRelationship table) inv).components := by
  induction rs generalizing inv with
  | nil => exact hinv
  | cons r rs ih =>
    have hkeys : (addRelationship table inv r).components.keys = inv.components.keys := by
      rw [← keys_labels, labels_addRelationship, keys_labels]
    exact ih (closed_addRelationship hinv htable r) (hkeys ▸ htable)

/-- Components that are taken in are closed. -/
theorem closed_addComponents (cs : List Component) : Closed (({} : Inventory).addComponents cs).components := by
  have hnone : ∀ c ∈ (({} : Inventory).addComponents cs).components.values, c.dependsOn = [] := by
    intro c hc
    obtain ⟨⟨k, c'⟩, hentry, rfl⟩ := List.mem_map.mp hc
    rcases mem_addComponents cs hentry with hmem | ⟨d, -, -, rfl⟩
    · cases hmem
    · rfl
  constructor
  · intro c hc d hd
    rw [hnone c hc] at hd
    cases hd
  · intro c hc
    rw [hnone c hc]
    exact List.nodup_nil

/-- What is taken in from an analysis is closed: the names of the table lead to the components taken
in. -/
theorem closed_add (cs : List Component) (rs : List Relationship) :
    Closed (({} : Inventory).add cs rs).components := by
  refine closed_foldl (closed_addComponents cs) ?_ rs
  rintro ⟨name, id⟩ he
  rw [nameTable, List.mem_reverse, List.mem_flatMap] at he
  obtain ⟨c, hc, he⟩ := he
  obtain ⟨hc, hid⟩ := List.mem_filter.mp hc
  have hsame : id = c.id := by
    simp only [List.mem_cons, Prod.mk.injEq, List.not_mem_nil, or_false] at he
    rcases he with ⟨-, heq⟩ | ⟨-, heq⟩
    · exact heq
    · exact heq
  subst hsame
  exact (mem_keys_addComponents cs).mpr (Or.inr ⟨bne_iff_ne.mp hid, c, hc, rfl⟩)

/-- Other names than those by place are found if they are identifiers. -/
theorem lookup_nameTable {cs : List Component}
    (hname : ∀ c ∈ cs, name ≠ c.filePath ++ ":" ++ c.name) :
    (nameTable cs).lookup name = some a ↔ a = name ∧ name ≠ "" ∧ ∃ c ∈ cs, c.id = name := by
  have hmem : ∀ b, (name, b) ∈ nameTable cs ↔ b = name ∧ name ≠ "" ∧ ∃ c ∈ cs, c.id = name := by
    intro b
    rw [nameTable, List.mem_reverse, List.mem_flatMap]
    constructor
    · rintro ⟨c, hc, hb⟩
      obtain ⟨hc, hid⟩ := List.mem_filter.mp hc
      simp only [List.mem_cons, Prod.mk.injEq, List.not_mem_nil, or_false] at hb
      rcases hb with ⟨rfl, rfl⟩ | ⟨heq, -⟩
      · exact ⟨rfl, bne_iff_ne.mp hid, c, hc, rfl⟩
      · exact absurd heq (hname c hc)
    · rintro ⟨rfl, hne, c, hc, rfl⟩
      exact ⟨c, List.mem_filter.mpr ⟨hc, bne_iff_ne.mpr hne⟩, List.mem_cons_self⟩
  constructor
  · intro h
    exact (hmem a).mp (Keyed.mem_of_lookup h)
  · rintro ⟨rfl, hid⟩
    obtain ⟨b, hb⟩ := Option.ne_none_iff_exists'.mp
      (Keyed.lookup_ne_none_of_mem ((hmem a).mpr ⟨rfl, hid⟩))
    rw [hb, ((hmem b).mp (Keyed.mem_of_lookup hb)).1]

end Inventory

end RepoAtlas
