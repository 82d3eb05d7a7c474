import RepoAtlas.Proofs.CallGraph.Inventory
import RepoAtlas.Proofs.CallGraph.Resolution

/-!
# The analysis and the inventory agree

The inventory looks up again, in other tables, what an analysis has resolved. Where no name can be taken for a
file with a name, it records exactly the relationships between components.
-/

namespace RepoAtlas

/-- The file of a component with its name. -/
def Component.place (c : Component) : String :=
  c.filePath ++ ":" ++ c.name

namespace CallGraph

variable {g h : CallGraph} {inv : Inventory} {caller name : String}

/-- The components stand under their identifiers, no identifier, name or class is the empty text, and
no identifier or end of a relationship is the file of a component with its name. -/
structure WellNamed (g : CallGraph) : Prop where
  keyed : ByIdentifier g.functions
  id_ne : "" ∉ g.functions.keys
  name_ne : ∀ c ∈ g.functions.values, c.name ≠ ""
  className_ne : ∀ c ∈ g.functions.values, c.className ≠ some ""
  place_not_id : ∀ c ∈ g.functions.values, c.place ∉ g.functions.keys
  place_ne_end : ∀ c ∈ g.functions.values, ∀ r ∈ g.relationships,
    c.place ≠ r.caller ∧ c.place ≠ r.callee

/-- Every component of an inventory has one with the same label in a call graph. -/
def Covers (g : CallGraph) (inv : Inventory) : Prop :=
  ∀ id c, (id, c) ∈ inv.components.entries → ∃ c₀, (id, c₀) ∈ g.functions.entries ∧ c₀.label = c.label

/-- A method is known by its type and its name. -/
theorem methodKey?_eq_some {c : Component} {type : String} (hclass : c.className = some type)
    (htype : type ≠ "") (hname : c.name ≠ "") : methodKey? c = some (type ++ "." ++ c.name) := by
  simp [methodKey?, hclass, htype, hname]

/-- No method goes by an unknown name. -/
theorem methodOf?_eq_none (hg : g.WellNamed) (hinv : g.Covers inv)
    (hname : Unknown g.functions caller name) : inv.methodOf? name = none := by
  unfold Inventory.methodOf?
  split
  · rfl
  · rename_i type hfront
    rw [Option.map_eq_none_iff, List.find?_eq_none]
    rintro ⟨id, c⟩ hc hfound
    obtain ⟨c₀, hc₀, hlabel⟩ := hinv id c hc
    obtain ⟨hlast, hclass⟩ : c.name = Text.afterLast '.' name ∧ c.className = some type := by
      simpa using hfound
    have hlast₀ : c₀.name = Text.afterLast '.' name := (congrArg Label.name hlabel).trans hlast
    have hclass₀ : c₀.className = some type := (congrArg Label.className hlabel).trans hclass
    have htype : type ≠ "" := fun heq =>
      hg.className_ne c₀ (Keyed.mem_values_of_mem hc₀) (heq ▸ hclass₀)
    have hwhole : type ++ "." ++ c₀.name = name := by
      apply String.toList_injective
      rw [Text.toList_of_beforeLast? hfront, hlast₀]
      simp
    have hkey := methodKey?_eq_some hclass₀ htype (hg.name_ne c₀ (Keyed.mem_values_of_mem hc₀))
    refine hname.everywhere id c₀ hc₀ ?_
    simp [wideNames, hkey, hwhole]

/-- No neighbour goes by an unknown name. -/
theorem neighbour?_eq_none (hinv : g.Covers inv) (hname : Unknown g.functions caller name) {a : Component}
    (ha : g.functions.get? caller = some a) : inv.neighbour? (directoryOf a) name = none := by
  rw [Inventory.neighbour?, Option.map_eq_none_iff, List.find?_eq_none]
  rintro ⟨id, c⟩ hc hfound
  obtain ⟨c₀, hc₀, hlabel⟩ := hinv id c hc
  obtain ⟨heq, hdir⟩ : c.name = name ∧ directoryOf c = directoryOf a := by
    simpa using hfound
  have heq₀ : c₀.name = name := (congrArg Label.name hlabel).trans heq
  have hdir₀ : directoryOf c₀ = directoryOf a := (directoryOf_congr hlabel).trans hdir
  refine hname.nearby a ha id c₀ hc₀ hdir₀ ?_
  simp [localNames, heq₀]

/-- An unknown name is looked up in the table only. -/
theorem callee?_eq_lookup (hg : g.WellNamed) (hinv : g.Covers inv) (hname : Unknown g.functions caller name)
    (hcaller : caller ∈ inv.components.keys) (table : List (String × String)) :
    inv.callee? table (some caller) name = table.lookup name := by
  have hsome := (inv.components.has_iff_mem_keys caller).mpr hcaller
  obtain ⟨c, hget⟩ := Option.isSome_iff_exists.mp hsome
  obtain ⟨c₀, hc₀, hlabel⟩ := hinv caller c (inv.components.get?_eq_some_iff.mp hget)
  have hdir : directoryOf c₀ = directoryOf c := directoryOf_congr hlabel
  have hneighbour := neighbour?_eq_none hinv hname (g.functions.get?_eq_some_iff.mpr hc₀)
  rw [hdir] at hneighbour
  have hmethod := methodOf?_eq_none hg hinv hname
  simp only [Inventory.callee?, hmethod, Option.bind_some, hget, Option.map_some, Option.getD_some,
    hneighbour, Option.orElse_eq_or, Option.or_none]

/-- An inventory of what follows a call graph is covered by it. -/
theorem Follows.covers (hf : Follows g h) (hg : g.WellNamed) :
    g.Covers (({} : Inventory).addComponents h.functions.values) := by
  intro id c hc
  rcases Inventory.mem_addComponents _ hc with hmem | ⟨d, hd, rfl, rfl⟩
  · cases hmem
  · obtain ⟨⟨k, d'⟩, hentry, rfl⟩ := List.mem_map.mp hd
    obtain ⟨c₀, hc₀, hlabel⟩ := hf.exists_entry hentry
    exact ⟨c₀, (hf.id_eq hg.keyed hentry).symm ▸ hc₀, hlabel⟩

/-- The identifiers that are taken in from a call graph that follows another are the keys of that
one. -/
theorem Follows.mem_keys_addComponents (hf : Follows g h) (hg : g.WellNamed) {id : String} :
    id ∈ (({} : Inventory).addComponents h.functions.values).components.keys ↔ id ∈ g.functions.keys := by
  rw [Inventory.mem_keys_addComponents, ← hf.mem_keys_iff hg.keyed]
  constructor
  · rintro (hempty | ⟨-, hid⟩)
    · cases hempty
    · exact hid
  · intro hid
    exact Or.inr ⟨fun heq => hg.id_ne (heq ▸ hid), hid⟩

/-- Other names than those by place are found if they are identifiers. -/
theorem Follows.lookup_nameTable (hf : Follows g h) (hg : g.WellNamed) {a : String}
    (hname : ∀ c ∈ g.functions.values, c.place ≠ name) :
    (Inventory.nameTable h.functions.values).lookup name = some a ↔ a = name ∧ name ∈ g.functions.keys := by
  have hplace : ∀ c ∈ h.functions.values, name ≠ c.filePath ++ ":" ++ c.name := by
    intro c hc heq
    obtain ⟨⟨k, c'⟩, hentry, rfl⟩ := List.mem_map.mp hc
    obtain ⟨c₀, hc₀, hlabel⟩ := hf.exists_entry hentry
    have hsame : c₀.place = c'.place := congrArg (fun l => l.filePath ++ ":" ++ l.name) hlabel
    exact hname c₀ (Keyed.mem_values_of_mem hc₀) (hsame.trans heq.symm)
  rw [Inventory.lookup_nameTable hplace, ← hf.mem_keys_iff hg.keyed]
  refine and_congr_right fun _ => ⟨And.right, fun hid => ⟨fun heq => hg.id_ne (heq ▸ hid), hid⟩⟩

/-- No end of a settled relationship is a place. -/
theorem WellNamed.place_ne (hg : g.WellNamed) {r : Relationship} (hr : Settled g r) {c : Component}
    (hc : c ∈ g.functions.values) : c.place ≠ r.caller ∧ c.place ≠ r.callee := by
  constructor
  · rcases hr.caller with hkey | ⟨r₀, hr₀, heq⟩
    · exact fun hsame => hg.place_not_id c hc (hsame ▸ hkey)
    · exact heq ▸ (hg.place_ne_end c hc r₀ hr₀).1
  · rcases hr.callee with hkey | ⟨-, r₀, hr₀, heq⟩
    · exact fun hsame => hg.place_not_id c hc (hsame ▸ hkey)
    · exact heq ▸ (hg.place_ne_end c hc r₀ hr₀).2

/-- The callee of a settled relationship between components is found in the table of names or not at
all. -/
theorem Follows.callee?_eq_lookup (hf : Follows g h) (hg : g.WellNamed) {r : Relationship}
    (hr : Settled g r) (hcaller : r.caller ∈ g.functions.keys) :
    (({} : Inventory).addComponents h.functions.values).callee?
        (Inventory.nameTable h.functions.values) (some r.caller) r.callee =
      (Inventory.nameTable h.functions.values).lookup r.callee := by
  rcases hr.callee with hkey | ⟨hunknown, -⟩
  · have hfound := (hf.lookup_nameTable hg fun c hc => (hg.place_ne hr hc).2).mpr ⟨rfl, hkey⟩
    simp [Inventory.callee?, hfound]
  · exact CallGraph.callee?_eq_lookup hg (hf.covers hg) hunknown
      ((hf.mem_keys_addComponents hg).mpr hcaller) _

/-- The dependencies that an inventory records are the relationships that the analysis leaves between components. -/
theorem dependencies_are_relationships (hg : g.WellNamed)
    (hh : g.resolve.matchInterfaces.deduplicate = h) :
    (∀ a b, b ∈ (({} : Inventory).add h.functions.values h.relationships).dependenciesOf a ↔
      (∃ r ∈ h.relationships, r.caller = a ∧ r.callee = b) ∧
        a ∈ g.functions.keys ∧ b ∈ g.functions.keys) ∧
    ∀ done r rest, h.relationships = done ++ r :: rest →
      ∀ a, (Inventory.nameTable h.functions.values).lookup r.caller = some a →
        (({} : Inventory).add h.functions.values done).callee?
            (Inventory.nameTable h.functions.values) (some a) r.callee =
          (Inventory.nameTable h.functions.values).lookup r.callee := by
  have hf : Follows g h := hh ▸ follows_analysis hg.keyed
  have hcaller : ∀ r ∈ h.relationships, ∀ a,
      (Inventory.nameTable h.functions.values).lookup r.caller = some a ↔
        a = r.caller ∧ r.caller ∈ g.functions.keys :=
    fun r hr a => hf.lookup_nameTable hg fun c hc => (hg.place_ne (hf.settled r hr) hc).1
  have hcallee : ∀ r ∈ h.relationships, ∀ b,
      (Inventory.nameTable h.functions.values).lookup r.callee = some b ↔
        b = r.callee ∧ r.callee ∈ g.functions.keys :=
    fun r hr b => hf.lookup_nameTable hg fun c hc => (hg.place_ne (hf.settled r hr) hc).2
  refine ⟨fun a b => ?_, fun done r rest hsplit a ha => ?_⟩
  · rw [Inventory.add, Inventory.mem_dependenciesOf_foldl, Inventory.dependenciesOf_addComponents,
      hf.mem_keys_addComponents hg]
    constructor
    · rintro (hnone | ⟨-, r, hr, ha, hb⟩)
      · exact absurd hnone List.not_mem_nil
      · obtain ⟨rfl, hkey⟩ := (hcaller r hr a).mp ha
        rw [hf.callee?_eq_lookup hg (hf.settled r hr) hkey] at hb
        obtain ⟨rfl, hkey'⟩ := (hcallee r hr b).mp hb
        exact ⟨⟨r, hr, rfl, rfl⟩, hkey, hkey'⟩
    · rintro ⟨⟨r, hr, rfl, rfl⟩, hkey, hkey'⟩
      refine Or.inr ⟨hkey, r, hr, (hcaller r hr _).mpr ⟨rfl, hkey⟩, ?_⟩
      rw [hf.callee?_eq_lookup hg (hf.settled r hr) hkey]
      exact (hcallee r hr _).mpr ⟨rfl, hkey'⟩
  · have hr : r ∈ h.relationships := hsplit ▸ List.mem_append_right done List.mem_cons_self
    obtain ⟨rfl, hkey⟩ := (hcaller r hr a).mp ha
    rw [Inventory.add, Inventory.callee?_congr (Inventory.labels_foldl _ _ done)]
    exact hf.callee?_eq_lookup hg (hf.settled r hr) hkey

/-- A component of a file that is named for it, in a directory. -/
def part (directory kind name : String) (className : Option String) : Component :=
  { id := directory ++ "." ++ name
    name := name
    kind := kind
    filePath := "/" ++ directory ++ "/" ++ name
    relativePath := directory ++ "/" ++ name
    className := className }

/-- A struct that implements an interface, and a function that calls its method by the type, the struct by its
bare name and, from another directory, the interface by its bare name. -/
def service : CallGraph where
  functions := Keyed.ofList (
    [part "app" "function" "run" none, part "app" "struct" "Pump" none,
      part "app" "method" "Stop" (some "Pump"), part "lib" "interface" "Stopper" none].map
        fun c => (c.id, c))
  relationships := [{ caller := "app.run", callee := "Pump.Stop" },
    { caller := "app.run", callee := "Pump" }, { caller := "app.run", callee := "Stopper" }]
  interfaces := Keyed.ofList [("Stopper", ["Stop"])]
  structs := Keyed.ofList [("Pump", ["Stop"])]

/-- The service is well named. -/
theorem service_wellNamed : service.WellNamed where
  keyed := by
    unfold ByIdentifier
    decide +kernel
  id_ne := by decide +kernel
  name_ne := by decide +kernel
  className_ne := by decide +kernel
  place_not_id := by decide +kernel
  place_ne_end := by decide +kernel

/-- The method and the struct are found, the interface is not, and the struct implements it. -/
theorem service_relationships : service.resolve.matchInterfaces.deduplicate.relationships = [
    { caller := "app.run", callee := "app.Stop", resolved := true },
    { caller := "app.run", callee := "app.Pump", resolved := true },
    { caller := "app.run", callee := "Stopper" },
    { caller := "app.Pump", callee := "lib.Stopper", kind := "implements", resolved := true }] := by
  decide +kernel

/-- The function of the service depends on the method and the struct, and on nothing else. -/
theorem service_dependencies :
    service.WellNamed ∧
    ∀ b, b ∈ (({} : Inventory).add service.resolve.matchInterfaces.deduplicate.functions.values
        service.resolve.matchInterfaces.deduplicate.relationships).dependenciesOf "app.run" ↔
      b = "app.Stop" ∨ b = "app.Pump" := by
  refine ⟨service_wellNamed, fun b => ?_⟩
  have hkeys : service.functions.keys = ["app.run", "app.Pump", "app.Stop", "lib.Stopper"] := by
    decide +kernel
  rw [(dependencies_are_relationships service_wellNamed rfl).1, service_relationships, hkeys]
  constructor
  · rintro ⟨⟨r, hr, hcaller, rfl⟩, -, hb⟩
    simp only [List.mem_cons, List.not_mem_nil, or_false] at hr
    rcases hr with rfl | rfl | rfl | rfl
    · exact Or.inl rfl
    · exact Or.inr rfl
    · exact absurd hb (by decide)
    · exact absurd hcaller (by decide)
  · rintro (rfl | rfl) <;> decide

end CallGraph

end RepoAtlas
