import Mathlib.Data.List.Basic
import RepoAtlas.CallGraph.Resolution
import RepoAtlas.Proofs.CallGraph.Label

/-!
# What resolution leaves behind

After resolution a relationship refers to a component by identifier, or its callee is a name that no component
goes by where the caller stands. Matching and leaving out repetitions keep this.
-/

namespace RepoAtlas.CallGraph

variable {cs : Components} {g : CallGraph} {r : Relationship} {id caller name : String} {c : Component}
  {h : CallGraph} {r' : Relationship}

/-- No component goes by a name, neither everywhere nor in the directory of a caller. -/
structure Unknown (cs : Components) (caller name : String) : Prop where
  everywhere : ∀ id c, (id, c) ∈ cs.entries → name ∉ wideNames id c
  nearby : ∀ a, cs.get? caller = some a → ∀ id c, (id, c) ∈ cs.entries →
    directoryOf c = directoryOf a → name ∉ localNames c

/-- Every component stands under its identifier. -/
def ByIdentifier (cs : Components) : Prop :=
  ∀ e ∈ cs.entries, e.2.id = e.1

/-- The table has every component by its wide names. -/
theorem mem_wideTable_iff : (name, id) ∈ wideTable cs ↔ ∃ c, (id, c) ∈ cs.entries ∧ name ∈ wideNames id c := by
  rw [wideTable, List.mem_reverse, List.mem_flatMap]
  constructor
  · rintro ⟨⟨j, c⟩, hentry, hmem⟩
    obtain ⟨n, hn, heq⟩ := List.mem_map.mp hmem
    cases heq
    exact ⟨c, hentry, hn⟩
  · rintro ⟨c, hentry, hname⟩
    exact ⟨(id, c), hentry, List.mem_map.mpr ⟨name, hname, rfl⟩⟩

/-- The local table has them by directory and local names. -/
theorem mem_localTable_iff {directory : String} :
    ((directory, name), id) ∈ localTable cs ↔
      ∃ c, (id, c) ∈ cs.entries ∧ directoryOf c = directory ∧ name ∈ localNames c := by
  rw [localTable, List.mem_reverse, List.mem_flatMap]
  constructor
  · rintro ⟨⟨j, c⟩, hentry, hmem⟩
    obtain ⟨n, hn, heq⟩ := List.mem_map.mp hmem
    obtain ⟨hplace, rfl⟩ := Prod.mk.inj heq
    cases hplace
    exact ⟨c, hentry, rfl, hn⟩
  · rintro ⟨c, hentry, rfl, hname⟩
    exact ⟨(id, c), hentry, List.mem_map.mpr ⟨name, hname, rfl⟩⟩

/-- What the table leads to is a component. -/
theorem mem_keys_of_wideTable (h : (wideTable cs).lookup name = some id) : id ∈ cs.keys := by
  obtain ⟨c, hentry, -⟩ := mem_wideTable_iff.mp (Keyed.mem_of_lookup h)
  exact Keyed.mem_keys_of_mem hentry

/-- So is what the local table leads to. -/
theorem mem_keys_of_localTable {directory : String}
    (h : (localTable cs).lookup (directory, name) = some id) : id ∈ cs.keys := by
  obtain ⟨c, hentry, -⟩ := mem_localTable_iff.mp (Keyed.mem_of_lookup h)
  exact Keyed.mem_keys_of_mem hentry

/-- A target is a component. -/
theorem mem_keys_of_target? (h : target? cs (wideTable cs) (localTable cs) r = some id) : id ∈ cs.keys := by
  have hnarrow : ∀ n, ((cs.get? r.caller).bind fun c =>
      (localTable cs).lookup (directoryOf c, n)) = some id → id ∈ cs.keys := by
    intro n hfound
    obtain ⟨c, -, hlookup⟩ := Option.bind_eq_some_iff.mp hfound
    exact mem_keys_of_localTable hlookup
  simp only [target?, Option.orElse_eq_or, Option.or_eq_some_iff] at h
  rcases h with hwide | ⟨-, hshort | ⟨-, hnear | ⟨-, hlast⟩⟩⟩
  · exact mem_keys_of_wideTable hwide
  · obtain ⟨s, -, hlookup⟩ := Option.bind_eq_some_iff.mp hshort
    exact mem_keys_of_wideTable hlookup
  · exact hnarrow _ hnear
  · split at hlast
    · exact hnarrow _ hlast
    · exact absurd hlast (Option.some_ne_none id).symm

/-- A callee without a target is unknown. -/
theorem unknown_of_target? (h : target? cs (wideTable cs) (localTable cs) r = none) :
    Unknown cs r.caller r.callee := by
  simp only [target?, Option.orElse_eq_or, Option.or_eq_none_iff] at h
  obtain ⟨hwide, -, hnear, -⟩ := h
  refine ⟨fun id c hentry hname => ?_, fun a ha id c hentry hdir hname => ?_⟩
  · exact Keyed.lookup_ne_none_of_mem (mem_wideTable_iff.mpr ⟨c, hentry, hname⟩) hwide
  · rw [ha, Option.bind_some] at hnear
    exact Keyed.lookup_ne_none_of_mem (mem_localTable_iff.mpr ⟨c, hentry, hdir, hname⟩) hnear

/-- The ends of a relationship after resolution: the caller is a component or stands as it was given,
and so does the callee, which then no component goes by. -/
structure Settled (g : CallGraph) (r : Relationship) : Prop where
  caller : r.caller ∈ g.functions.keys ∨ ∃ r₀ ∈ g.relationships, r₀.caller = r.caller
  callee : r.callee ∈ g.functions.keys ∨
    Unknown g.functions r.caller r.callee ∧ ∃ r₀ ∈ g.relationships, r₀.callee = r.callee

/-- Resolution settles every relationship. -/
theorem settled_of_mem_resolve (h : r ∈ g.resolve.relationships) : Settled g r := by
  obtain ⟨r₀, hr₀, rfl⟩ := List.mem_map.mp h
  cases htarget : target? g.functions (wideTable g.functions) (localTable g.functions) r₀ with
  | none => exact ⟨Or.inr ⟨r₀, hr₀, rfl⟩, Or.inr ⟨unknown_of_target? htarget, r₀, hr₀, rfl⟩⟩
  | some id => exact ⟨Or.inr ⟨r₀, hr₀, rfl⟩, Or.inl (mem_keys_of_target? htarget)⟩

/-- What is found by kind and name is a component. -/
theorem mem_values_of_lastOf? {kind : String} (h : lastOf? cs kind name = some (id, c)) : c ∈ cs.values :=
  Keyed.mem_values_of_mem (List.mem_reverse.mp (List.mem_of_find?_eq_some h))

/-- Implementing an interface keeps the label. -/
theorem label_implementing (name : String) (c : Component) : (implementing name c).label = c.label := by
  unfold implementing
  split <;> rfl

/-- A call graph with the components of another, as far as they are found by their labels, and with
settled relationships. -/
structure Follows (g h : CallGraph) : Prop where
  labels : labels h.functions = labels g.functions
  settled : ∀ r ∈ h.relationships, Settled g r

/-- A component that follows has one before it with the same label. -/
theorem Follows.exists_entry (hf : Follows g h) (hc : (id, c) ∈ h.functions.entries) :
    ∃ c₀, (id, c₀) ∈ g.functions.entries ∧ c₀.label = c.label :=
  mem_labels_iff.mp (hf.labels ▸ mem_labels_iff.mpr ⟨c, hc, rfl⟩)

/-- It stands under its identifier. -/
theorem Follows.id_eq (hf : Follows g h) (hkeyed : ByIdentifier g.functions) (hc : (id, c) ∈ h.functions.entries) :
    c.id = id := by
  obtain ⟨c₀, hc₀, hlabel⟩ := hf.exists_entry hc
  exact (congrArg Label.id hlabel).symm.trans (hkeyed (id, c₀) hc₀)

/-- The keys are the identifiers of what follows. -/
theorem Follows.mem_keys_iff (hf : Follows g h) (hkeyed : ByIdentifier g.functions) :
    id ∈ g.functions.keys ↔ ∃ c ∈ h.functions.values, c.id = id := by
  rw [← keys_labels, ← hf.labels, keys_labels]
  constructor
  · intro hid
    obtain ⟨⟨k, c⟩, hc, rfl⟩ := List.mem_map.mp hid
    exact ⟨c, Keyed.mem_values_of_mem hc, hf.id_eq hkeyed hc⟩
  · rintro ⟨c, hmem, rfl⟩
    obtain ⟨⟨k, c'⟩, hc, rfl⟩ := List.mem_map.mp hmem
    exact Keyed.mem_keys_of_mem ((hf.id_eq hkeyed hc).symm ▸ hc)

/-- What notes a match follows. -/
theorem Follows.noteMatch (hf : Follows g h) (hkeyed : ByIdentifier g.functions) (pair : String × String) :
    Follows g (h.noteMatch pair) := by
  cases hstruct : lastOf? h.functions "struct" pair.1 with
  | none => simpa only [CallGraph.noteMatch, hstruct] using hf
  | some found =>
    obtain ⟨key, s⟩ := found
    have hmarked : Follows g
        { h with functions := h.functions.modify key (implementing pair.2) } :=
      ⟨(labels_modify _ key (label_implementing pair.2)).trans hf.labels, hf.settled⟩
    cases hinterface :
        lastOf? (h.functions.modify key (implementing pair.2)) "interface" pair.2 with
    | none => simpa only [CallGraph.noteMatch, hstruct, hinterface] using hmarked
    | some found' =>
      obtain ⟨key', i⟩ := found'
      have hs : s ∈ h.functions.values := mem_values_of_lastOf? hstruct
      have hi : i ∈ (h.functions.modify key (implementing pair.2)).values :=
        mem_values_of_lastOf? hinterface
      simp only [CallGraph.noteMatch, hstruct, hinterface]
      refine ⟨hmarked.labels, fun r hr => ?_⟩
      rcases List.mem_append.mp hr with hr | hr
      · exact hf.settled r hr
      · rw [List.mem_singleton.mp hr]
        exact ⟨Or.inl ((hf.mem_keys_iff hkeyed).mpr ⟨s, hs, rfl⟩),
          Or.inl ((hmarked.mem_keys_iff hkeyed).mpr ⟨i, hi, rfl⟩)⟩

/-- So does what notes several. -/
theorem Follows.foldl_noteMatch (hf : Follows g h) (hkeyed : ByIdentifier g.functions)
    (pairs : List (String × String)) : Follows g (pairs.foldl CallGraph.noteMatch h) := by
  induction pairs generalizing h with
  | nil => exact hf
  | cons pair pairs ih => exact ih (hf.noteMatch hkeyed pair)

/-- What remains was there. -/
theorem mem_of_mem_distinct {seen : List (String × String)} {rs : List Relationship}
    (h : r ∈ distinct seen rs) : r ∈ rs := by
  fun_induction distinct seen rs with
  | case1 => exact h
  | case2 seen r' rs hseen ih => exact List.mem_cons_of_mem r' (ih h)
  | case3 seen r' rs hseen ih =>
    rcases List.mem_cons.mp h with rfl | h
    · exact List.mem_cons_self
    · exact List.mem_cons_of_mem r' (ih h)

/-- Whether a relationship has the ends of another one. -/
def sameEnds (r r' : Relationship) : Bool :=
  r'.caller = r.caller && r'.callee = r.callee

/-- The same ends are the same caller and callee. -/
theorem sameEnds_iff : sameEnds r r' = true ↔ r'.caller = r.caller ∧ r'.callee = r.callee := by
  simp [sameEnds]

/-- Having the same ends depends on the ends only. -/
theorem sameEnds_congr (hcaller : r'.caller = r.caller) (hcallee : r'.callee = r.callee) :
    sameEnds r' = sameEnds r := by
  funext r''
  simp only [sameEnds, hcaller, hcallee]

/-- What is left of several relationships is each one that is the first with its ends. -/
theorem mem_distinct_iff {seen : List (String × String)} {rs : List Relationship} :
    r ∈ distinct seen rs ↔ (r.caller, r.callee) ∉ seen ∧ rs.find? (sameEnds r) = some r := by
  fun_induction distinct seen rs with
  | case1 seen => simp
  | case2 seen r' rs hseen ih =>
    have hmem : (r'.caller, r'.callee) ∈ seen := by simpa using hseen
    rw [ih]
    refine and_congr_right fun hnew => ?_
    have hends : sameEnds r r' = false := by
      by_contra hsame
      obtain ⟨hcaller, hcallee⟩ := sameEnds_iff.mp (by simpa using hsame)
      exact hnew (hcaller ▸ hcallee ▸ hmem)
    rw [List.find?_cons_of_neg (by simp [hends])]
  | case3 seen r' rs hseen ih =>
    have hmem : (r'.caller, r'.callee) ∉ seen := by simpa using hseen
    rw [List.mem_cons, ih, List.mem_cons]
    by_cases hsame : r'.caller = r.caller ∧ r'.callee = r.callee
    · obtain ⟨hcaller, hcallee⟩ := hsame
      rw [hcaller, hcallee] at hmem ⊢
      rw [List.find?_cons_of_pos (by simp [sameEnds, hcaller, hcallee])]
      simp only [Option.some.injEq, eq_comm, true_or, not_true_eq_false, false_and, or_false]
      exact ⟨fun h => ⟨hmem, h⟩, fun h => h.2⟩
    · rw [List.find?_cons_of_neg (by simpa [sameEnds] using hsame)]
      have hne : (r.caller, r.callee) ≠ (r'.caller, r'.callee) := fun heq =>
        hsame ⟨(Prod.mk.inj heq).1.symm, (Prod.mk.inj heq).2.symm⟩
      have hr : r ≠ r' := fun heq => hsame ⟨congrArg _ heq.symm, congrArg _ heq.symm⟩
      simp only [hr, hne, false_or]

/-- The identifier that a relationship refers to among components. -/
def targetOf? (cs : Components) (r : Relationship) : Option String :=
  target? cs (wideTable cs) (localTable cs) r

/-- A relationship after resolution among components. -/
def resolvedIn (cs : Components) (r : Relationship) : Relationship :=
  match targetOf? cs r with
  | some id => { r with callee := id, resolved := true }
  | none => r

/-- Resolving resolves each relationship. -/
theorem relationships_resolve (g : CallGraph) :
    g.resolve.relationships = g.relationships.map (resolvedIn g.functions) :=
  rfl

/-- The same ends have the same target. -/
theorem targetOf?_congr (h : sameEnds r r' = true) : targetOf? cs r' = targetOf? cs r := by
  obtain ⟨hcaller, hcallee⟩ := sameEnds_iff.mp h
  simp only [targetOf?, target?, hcaller, hcallee]

/-- A relationship that refers to nothing does not name a key. -/
theorem not_mem_keys_of_targetOf? (h : targetOf? cs r = none) : r.callee ∉ cs.keys := by
  intro hkey
  obtain ⟨⟨k, c⟩, hentry, rfl⟩ := List.mem_map.mp hkey
  exact (unknown_of_target? h).everywhere _ c hentry List.mem_cons_self

/-- A relationship that names a key after resolution is resolved. -/
theorem resolved_of_mem_keys (h : (resolvedIn cs r).callee ∈ cs.keys) : (resolvedIn cs r).resolved = true := by
  unfold resolvedIn at h ⊢
  split at h
  · rfl
  · rename_i hnone
    exact absurd h (not_mem_keys_of_targetOf? hnone)

/-- What is analysed follows what was gathered. -/
theorem follows_analysis (hkeyed : ByIdentifier g.functions) : Follows g g.resolve.matchInterfaces.deduplicate := by
  have hresolve : Follows g g.resolve := ⟨rfl, fun r hr => settled_of_mem_resolve hr⟩
  have hmatch : Follows g g.resolve.matchInterfaces := hresolve.foldl_noteMatch hkeyed _
  exact ⟨hmatch.labels, fun r hr => hmatch.settled r (mem_of_mem_distinct hr)⟩

end RepoAtlas.CallGraph
