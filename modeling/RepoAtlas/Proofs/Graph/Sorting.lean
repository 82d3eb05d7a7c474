import RepoAtlas.Graph.Order
import RepoAtlas.Proofs.Graph.Loosening

/-!
# What sorting does with the keys

The queue starts with the keys that nothing depends on, so no node ever joins it. Sorting therefore reverses the
keys if nothing depends on any of them, and otherwise leaves them as they are given.
-/

namespace RepoAtlas.Graph

variable {g : Graph} {k : List String} {v w : String}

/-- A node is needed if something depends on it. -/
theorem isNeeded_iff : g.isNeeded w ↔ ∃ v, g.depends v w := by
  rw [isNeeded, List.any_eq_true]
  constructor
  · rintro ⟨ds, hds, hw⟩
    obtain ⟨⟨v, ds⟩, hentry, rfl⟩ := List.mem_map.mp hds
    exact ⟨v, depends_iff_entry.mpr ⟨ds, hentry, List.contains_iff_mem.mp hw⟩⟩
  · rintro ⟨v, hvw⟩
    obtain ⟨ds, hentry, hw⟩ := depends_iff_entry.mp hvw
    exact ⟨ds, List.mem_map_of_mem (f := (·.2)) hentry, List.contains_iff_mem.mpr hw⟩

/-- A node is in no demand exactly if it is not needed. -/
theorem demand_eq_zero_iff (g : Graph) (v : String) :
    (((g.edges.values.filter (·.contains v)).length : Int) = 0) ↔ g.isNeeded v = false := by
  rw [Int.natCast_eq_zero, List.length_eq_zero_iff, List.filter_eq_nil_iff, isNeeded, List.any_eq_false]

/-- The queue begins with the keys that are not needed. -/
theorem free_keys (g : Graph) :
    (g.demand.filter fun (_, d) => d = 0).map (·.1) = g.keys.filter fun v => !g.isNeeded v := by
  rw [demand, List.filter_map, List.map_map]
  have hfst : (fun p : String × Int => p.1) ∘ (fun v =>
      (v, ((g.edges.values.filter (·.contains v)).length : Int))) = id := rfl
  rw [hfst, List.map_id]
  refine List.filter_congr fun v _ => ?_
  rw [Function.comp_apply, Bool.eq_iff_iff, decide_eq_true_eq, demand_eq_zero_iff, Bool.not_eq_true']

/-- A queue of nodes that nothing depends on is taken as it is. -/
theorem drain_eq_queue (queue : List String) (fuel : Nat) (demand : List (String × Int))
    (hqueue : ∀ v ∈ queue, g.isNeeded v = false) (hfuel : queue.length ≤ fuel) :
    g.drain fuel queue demand = queue := by
  induction queue generalizing fuel demand with
  | nil => cases fuel <;> rfl
  | cons v queue ih =>
    cases fuel with
    | zero => simp at hfuel
    | succ fuel =>
      have hfree : ∀ u, g.depends u v = false := by
        intro u
        rw [Bool.eq_false_iff]
        intro huv
        have hneeded := isNeeded_iff.mpr ⟨u, huv⟩
        rw [hqueue v List.mem_cons_self] at hneeded
        exact Bool.false_ne_true hneeded
      have hready : ∀ lowered : List (String × Int),
          (lowered.filter fun (u, d) => g.depends u v && d = 0) = [] := by
        intro lowered
        rw [List.filter_eq_nil_iff]
        rintro ⟨u, d⟩ -
        simp [hfree u]
      rw [drain, hready, List.map_nil, List.append_nil]
      rw [ih fuel _ (fun u hu => hqueue u (List.mem_cons_of_mem v hu)) (Nat.le_of_succ_le_succ hfuel)]

/-- The queue takes the keys that are not needed, in order. -/
theorem drained_eq (g : Graph) : g.drained = g.keys.filter fun v => !g.isNeeded v := by
  rw [drained, free_keys]
  refine drain_eq_queue _ _ _ (fun v hv => ?_) ?_
  · simpa using (List.mem_filter.mp hv).2
  · exact (List.length_filter_le _ _).trans (Nat.le_succ _)

/-- Cutting keeps the keys. -/
theorem keys_cutOnce (g : Graph) (k : List String) : (g.cutOnce k).keys = g.keys := by
  cases hcut : g.cut? k with
  | none => simp only [cutOnce, hcut]
  | some e => simp only [cutOnce, hcut, keys_removeEdge]

/-- Loosening keeps the keys. -/
theorem keys_loosened (g : Graph) : g.loosened.keys = g.keys := by
  rw [loosened]
  generalize g.knots = ks
  induction ks generalizing g with
  | nil => rfl
  | cons k ks ih => rw [List.foldl_cons, ih, keys_cutOnce]

/-- A key that some node depends on leaves, after loosening, a key that some node depends on. -/
theorem exists_needed_loosened (hw : w ∈ g.keys) (hvw : g.depends v w) : ∃ u ∈ g.keys, g.loosened.isNeeded u := by
  by_cases hkept : g.loosened.depends v w
  · exact ⟨w, hw, isNeeded_iff.mpr ⟨v, hkept⟩⟩
  · have hcut : ∃ k ∈ g.knots, g.cut? k = some (v, w) := by
      by_contra hnone
      exact hkept (depends_loosened.mpr ⟨hvw, fun k hk heq => hnone ⟨k, hk, heq⟩⟩)
    obtain ⟨k, hk, hcut⟩ := hcut
    have hne := ne_of_cut? (nodup_of_mem_knots hk) hcut
    obtain ⟨hv, hwk⟩ := mem_of_cut? hcut
    have htied := (mem_knot_iff hk hv).mp hwk
    rcases Relation.ReflTransGen.cases_tail htied.2 with heq | ⟨u, hwu, huv⟩
    · exact absurd heq hne
    · have hu : u ∈ k := (mem_knot_iff hk hv).mpr ⟨htied.1.trans hwu, .single huv⟩
      refine ⟨v, mem_keys_of_depends hvw, isNeeded_iff.mpr ⟨u, ?_⟩⟩
      rw [depends_loosened_of_mem hk hu, hcut, ne_eq, Option.some.injEq, Prod.mk.injEq]
      exact ⟨huv, fun h => hne h.2.symm⟩

/-- The queue takes all keys exactly if none of them is needed in the loosened graph. -/
theorem sorted_eq (g : Graph) :
    g.sorted = if ∀ v ∈ g.keys, g.loosened.isNeeded v = false then g.keys.reverse else g.keys := by
  simp only [sorted, drained_eq, keys_loosened, List.length_filter_eq_length_iff, Bool.not_eq_true']
  split
  · rename_i hfree
    rw [List.filter_eq_self.mpr fun v hv => by rw [hfree v hv, Bool.not_false]]
  · rfl

/-- Without a dependency on a key the keys are reversed. -/
theorem sorted_of_unneeded (h : ∀ v w, g.depends v w → w ∉ g.keys) : g.sorted = g.keys.reverse := by
  rw [sorted_eq, if_pos]
  intro w hw
  rw [Bool.eq_false_iff]
  intro hneeded
  obtain ⟨v, hvw⟩ := isNeeded_iff.mp hneeded
  exact h v w (depends_of_depends_loosened hvw) hw

/-- With one they stay as they are given. -/
theorem sorted_of_needed (hw : w ∈ g.keys) (hvw : g.depends v w) : g.sorted = g.keys := by
  obtain ⟨u, hu, hneeded⟩ := exists_needed_loosened hw hvw
  rw [sorted_eq, if_neg]
  intro hfree
  rw [hfree u hu] at hneeded
  exact Bool.false_ne_true hneeded

/-- Sorting gives the keys as they are or in reverse, and the latter only if nothing depends on any of
them. -/
theorem sorted_cases (g : Graph) :
    g.sorted = g.keys ∨ g.sorted = g.keys.reverse ∧ ∀ v w, g.depends v w → w ∉ g.keys := by
  by_cases h : ∃ v w, g.depends v w ∧ w ∈ g.keys
  · obtain ⟨v, w, hvw, hw⟩ := h
    exact Or.inl (sorted_of_needed hw hvw)
  · have hfree : ∀ v w, g.depends v w → w ∉ g.keys := fun v w hvw hw => h ⟨v, w, hvw, hw⟩
    exact Or.inr ⟨sorted_of_unneeded hfree, hfree⟩

/-- Sorting lists every key exactly once. It puts every dependency before what depends on it exactly if
the keys are given in such an order already. -/
theorem sorted_dependencies_first_iff (g : Graph) :
    g.sorted.Nodup ∧ (∀ v, v ∈ g.sorted ↔ v ∈ g.keys) ∧
      ((∀ v w, g.depends v w → [w, v].Sublist g.sorted) ↔
        ∀ v w, g.depends v w → [w, v].Sublist g.keys) := by
  have hnodup : g.keys.Nodup := g.edges.nodup
  rcases sorted_cases g with heq | ⟨heq, hfree⟩
  · rw [heq]
    exact ⟨hnodup, fun _ => Iff.rfl, Iff.rfl⟩
  · rw [heq]
    refine ⟨List.nodup_reverse.mpr hnodup, fun v => List.mem_reverse, ?_⟩
    refine forall₃_congr fun v w hvw => iff_of_false (fun hsub => ?_) (fun hsub => ?_)
    · exact hfree v w hvw (List.mem_reverse.mp (hsub.subset List.mem_cons_self))
    · exact hfree v w hvw (hsub.subset List.mem_cons_self)

/-- A node with one dependency, given before it. -/
def pair : Graph :=
  .ofList [("a", ["b"]), ("b", [])]

/-- The pair is acyclic and depends only on keys, and sorting leaves its dependency behind. -/
theorem pair_not_sorted :
    pair.Acyclic ∧ (∀ v w, pair.depends v w → w ∈ pair.keys) ∧
      ¬∀ v w, pair.depends v w → [w, v].Sublist pair.sorted := by
  have hedge : ∀ v w, pair.depends v w → v = "a" ∧ w = "b" := by
    intro v w hvw
    obtain ⟨ds, hentry, hw⟩ := depends_iff_entry.mp hvw
    have hentries : pair.edges.entries = [("a", ["b"]), ("b", [])] := by decide
    rw [hentries] at hentry
    simp only [List.mem_cons, Prod.mk.injEq, List.not_mem_nil, or_false] at hentry
    rcases hentry with ⟨rfl, rfl⟩ | ⟨rfl, rfl⟩
    · exact ⟨rfl, List.mem_singleton.mp hw⟩
    · exact absurd hw List.not_mem_nil
  refine ⟨fun v hcycle => ?_, fun v w hvw => ?_, fun hsorted => ?_⟩
  · obtain ⟨x, hvx, -⟩ := Relation.TransGen.head'_iff.mp hcycle
    obtain ⟨y, -, hyv⟩ := Relation.TransGen.tail'_iff.mp hcycle
    have hab : "a" = "b" := (hedge v x hvx).1.symm.trans (hedge y v hyv).2
    exact absurd hab (by decide)
  · rw [(hedge v w hvw).2]
    decide
  · exact absurd (hsorted "a" "b" (by decide)) (by decide)

end RepoAtlas.Graph
