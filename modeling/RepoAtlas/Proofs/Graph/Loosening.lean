import RepoAtlas.Proofs.Graph.Knots

/-!
# What loosening leaves of the cycles

Loosening removes at most one dependency from each knot, and knots share no node. The result is acyclic only if
that dependency lies on every cycle of its knot, which already fails for a ring of three.
-/

namespace RepoAtlas.Graph

variable {g : Graph} {k : List String} {v w x y : String}

/-- Removing a dependency takes away just this one. -/
theorem depends_removeEdge : (g.removeEdge v w).depends x y ↔ g.depends x y ∧ (x, y) ≠ (v, w) := by
  rw [depends_iff, depends_iff, removeEdge, successors, Keyed.get?_modify, successors]
  cases hget : g.edges.get? x with
  | none => simp
  | some ds =>
    by_cases hx : x = v
    · simp [hx]
    · simp [hx]

/-- Removing a dependency keeps the keys. -/
theorem keys_removeEdge (g : Graph) (v w : String) : (g.removeEdge v w).keys = g.keys :=
  g.edges.keys_modify v _

/-- What is cut is a dependency between neighbours. -/
theorem neighbours_of_cut? (h : g.cut? k = some (v, w)) : [v, w] <:+: k ∧ g.depends v w := by
  induction k with
  | nil => simp [cut?] at h
  | cons a rest ih =>
    cases rest with
    | nil => simp [cut?] at h
    | cons b rest =>
      by_cases hab : g.depends a b
      · simp only [cut?, hab, if_true, Option.some.injEq, Prod.mk.injEq] at h
        obtain ⟨rfl, rfl⟩ := h
        exact ⟨⟨[], rest, rfl⟩, hab⟩
      · simp only [cut?, hab, Bool.false_eq_true, if_false] at h
        obtain ⟨hpart, hdepends⟩ := ih h
        exact ⟨hpart.trans (List.suffix_cons a _).isInfix, hdepends⟩

/-- The cut depends on the dependencies within the list only. -/
theorem cut?_congr {h : Graph} (hsame : ∀ v ∈ k, ∀ w ∈ k, g.depends v w = h.depends v w) : g.cut? k = h.cut? k := by
  induction k with
  | nil => rfl
  | cons a rest ih =>
    cases rest with
    | nil => rfl
    | cons b rest =>
      have htail := ih fun v hv w hw =>
        hsame v (List.mem_cons_of_mem a hv) w (List.mem_cons_of_mem a hw)
      have hab := hsame a List.mem_cons_self b (by simp)
      rw [cut?, cut?, htail, hab]

/-- Cutting takes away just what is cut. -/
theorem depends_cutOnce : (g.cutOnce k).depends x y ↔ g.depends x y ∧ g.cut? k ≠ some (x, y) := by
  cases hcut : g.cut? k with
  | none => simp [cutOnce, hcut]
  | some e =>
    obtain ⟨v, w⟩ := e
    simp only [cutOnce, hcut]
    rw [depends_removeEdge, ne_comm (a := some (v, w)), ne_eq (some (x, y)), Option.some.injEq]

/-- What is cut lies in the list. -/
theorem mem_of_cut? (h : g.cut? k = some (v, w)) : v ∈ k ∧ w ∈ k := by
  have hsub := (neighbours_of_cut? h).1.subset
  exact ⟨hsub (by simp), hsub (by simp)⟩

/-- No node is cut off from itself. -/
theorem ne_of_cut? (hk : k.Nodup) (h : g.cut? k = some (v, w)) : v ≠ w := by
  have hnodup := (neighbours_of_cut? h).1.sublist.nodup hk
  simpa using hnodup

/-- Cutting several lists that share no node removes from each what is found in it. -/
theorem depends_foldl_cutOnce (ks : List (List String)) (hdisjoint : ks.Pairwise List.Disjoint) :
    (ks.foldl cutOnce g).depends x y ↔ g.depends x y ∧ ∀ k ∈ ks, g.cut? k ≠ some (x, y) := by
  induction ks generalizing g with
  | nil => simp
  | cons k ks ih =>
    rw [List.pairwise_cons] at hdisjoint
    have hsame : ∀ l ∈ ks, (g.cutOnce k).cut? l = g.cut? l := by
      intro l hl
      apply cut?_congr
      intro v hv w hw
      rw [Bool.eq_iff_iff, depends_cutOnce, and_iff_left_iff_imp]
      exact fun _ hcut => hdisjoint.1 l hl (mem_of_cut? hcut).1 hv
    rw [List.foldl_cons, ih hdisjoint.2, depends_cutOnce, List.forall_mem_cons, and_assoc]
    refine and_congr_right fun _ => and_congr_right fun _ => ?_
    exact forall₂_congr fun l hl => by rw [hsame l hl]

/-- Loosening removes from each knot what is cut in it. -/
theorem depends_loosened : g.loosened.depends x y ↔ g.depends x y ∧ ∀ k ∈ g.knots, g.cut? k ≠ some (x, y) :=
  depends_foldl_cutOnce g.knots (knots_disjoint g)

/-- Knots with a common node are one. -/
theorem eq_of_mem_knots {l : List String} (hk : k ∈ g.knots) (hl : l ∈ g.knots) (hvk : v ∈ k)
    (hvl : v ∈ l) : k = l := by
  by_contra hne
  have : Std.Symm (List.Disjoint (α := String)) := ⟨fun _ _ h => h.symm⟩
  exact (knots_disjoint g).forall hk hl hne hvk hvl

/-- A node of a knot loses just what is cut in this knot. -/
theorem depends_loosened_of_mem (hk : k ∈ g.knots) (hx : x ∈ k) :
    g.loosened.depends x y ↔ g.depends x y ∧ g.cut? k ≠ some (x, y) := by
  rw [depends_loosened]
  refine and_congr_right fun _ => ⟨fun h => h k hk, fun h l hl hcut => ?_⟩
  rw [eq_of_mem_knots hl hk (mem_of_cut? hcut).1 hx] at hcut
  exact h hcut

/-- Loosening adds no dependency. -/
theorem depends_of_depends_loosened (h : g.loosened.depends x y) : g.depends x y :=
  (depends_loosened.mp h).1

/-- The dependency of `v` on `w` lies on every cycle among the nodes of `k`: without it none of them
has a path back to itself there. -/
def OnEveryCycle (g : Graph) (k : List String) (v w : String) : Prop :=
  ∀ x, ¬Relation.TransGen (fun a b => a ∈ k ∧ b ∈ k ∧ g.depends a b ∧ (a, b) ≠ (v, w)) x x

/-- A path from a node of a knot to a node that reaches back to it stays in the knot. -/
theorem path_in_knot {r : String → String → Prop} (hr : ∀ a b, r a b → g.depends a b)
    (hk : k ∈ g.knots) (hx : x ∈ k) (hxy : Relation.ReflTransGen r x y) (hyx : g.Reaches y x) :
    Relation.ReflTransGen (fun a b => a ∈ k ∧ b ∈ k ∧ r a b) x y := by
  induction hxy with
  | refl => exact .refl
  | @tail y z hxy hyz ih =>
    have hy : g.Reaches y x := (Reaches.single (hr y z hyz)).trans hyx
    have hfrom : g.Reaches x y := Relation.ReflTransGen.mono hr x y hxy
    have hyk := (mem_knot_iff hk hx).mpr ⟨hfrom, hy⟩
    have hzk := (mem_knot_iff hk hx).mpr ⟨hfrom.tail (hr y z hyz), hyx⟩
    exact (ih hy).tail ⟨hyk, hzk, hyz⟩

/-- A knot in which nothing is cut keeps a cycle. -/
theorem cyclic_of_cut?_none (hk : k ∈ g.knots) (hcut : g.cut? k = none) : ¬g.loosened.Acyclic := by
  intro hacyclic
  obtain ⟨v, hv, -⟩ := exists_ne_of_mem_knot hk ""
  obtain ⟨w, hw, hwv⟩ := exists_ne_of_mem_knot hk v
  obtain ⟨hvw, hback⟩ := (mem_knot_iff hk hv).mp hw
  have hkeep : ∀ a b, a ∈ k ∧ b ∈ k ∧ g.depends a b → g.loosened.depends a b := by
    rintro a b ⟨ha, -, hab⟩
    exact (depends_loosened_of_mem hk ha).mpr ⟨hab, by simp [hcut]⟩
  have hout := Relation.ReflTransGen.mono hkeep v w
    (path_in_knot (fun _ _ h => h) hk hv hvw hback)
  have hreturn := Relation.ReflTransGen.mono hkeep w v
    (path_in_knot (fun _ _ h => h) hk hw hback hvw)
  rcases Relation.reflTransGen_iff_eq_or_transGen.mp hout with heq | hpos
  · exact hwv heq
  · exact hacyclic v (hpos.trans_left hreturn)

/-- A dependency of a node on itself is never removed. -/
theorem depends_self_loosened (h : g.depends v v) : g.loosened.depends v v :=
  depends_loosened.mpr ⟨h, fun _ hk hcut => ne_of_cut? (nodup_of_mem_knots hk) hcut rfl⟩

/-- The loosened graph is acyclic exactly if no node depends on itself and in every knot the first dependency
on the node listed next lies on every cycle of the knot. -/
theorem loosened_acyclic_iff (g : Graph) :
    g.loosened.Acyclic ↔ (∀ v, ¬g.depends v v) ∧
      ∀ k ∈ g.knots, ∃ v w, g.cut? k = some (v, w) ∧ g.OnEveryCycle k v w := by
  constructor
  · intro hacyclic
    refine ⟨fun v hv => hacyclic v (.single (depends_self_loosened hv)), fun k hk => ?_⟩
    cases hcut : g.cut? k with
    | none => exact absurd hacyclic (cyclic_of_cut?_none hk hcut)
    | some e =>
      refine ⟨e.1, e.2, rfl, fun x hcycle => hacyclic x (Relation.TransGen.mono ?_ x x hcycle)⟩
      rintro a b ⟨ha, -, hab, hne⟩
      refine (depends_loosened_of_mem hk ha).mpr ⟨hab, fun heq => hne ?_⟩
      rw [hcut, Option.some.injEq] at heq
      exact heq.symm
  · rintro ⟨hloop, hknots⟩ x hcycle
    obtain ⟨y, hxy, hyx⟩ := Relation.TransGen.head'_iff.mp hcycle
    have hback : g.Reaches y x :=
      Relation.ReflTransGen.mono (fun _ _ => depends_of_depends_loosened) y x hyx
    have hedge := depends_of_depends_loosened hxy
    have hne : x ≠ y := fun heq => hloop x (heq ▸ hedge)
    obtain ⟨k, hk, hx⟩ := exists_knot hne ⟨.single hedge, hback⟩
    obtain ⟨v, w, hcut, hevery⟩ := hknots k hk
    have hy := (mem_knot_iff hk hx).mpr ⟨.single hedge, hback⟩
    have hstay : ∀ a b, a ∈ k ∧ b ∈ k ∧ g.loosened.depends a b →
        a ∈ k ∧ b ∈ k ∧ g.depends a b ∧ (a, b) ≠ (v, w) := by
      rintro a b ⟨ha, hb, hab⟩
      obtain ⟨hab, hne⟩ := (depends_loosened_of_mem hk ha).mp hab
      rw [hcut, ne_eq, Option.some.injEq] at hne
      exact ⟨ha, hb, hab, fun heq => hne heq.symm⟩
    have hreturn := Relation.ReflTransGen.mono hstay y x
      (path_in_knot (fun _ _ => depends_of_depends_loosened) hk hy hyx (.single hedge))
    exact hevery x (.head' (hstay x y ⟨hx, hy, hxy⟩) hreturn)

/-- Three nodes in a ring. -/
def ring : Graph :=
  .ofList [("a", ["b"]), ("b", ["c"]), ("c", ["a"])]

/-- Loosening leaves the ring as it is: its nodes are listed against the direction of their dependencies. -/
theorem ring_stays_cyclic : (∀ v, ¬ring.depends v v) ∧ ¬ring.loosened.Acyclic := by
  constructor
  · intro v hv
    obtain ⟨ds, hentry, hmem⟩ := depends_iff_entry.mp hv
    have hentries : ring.edges.entries = [("a", ["b"]), ("b", ["c"]), ("c", ["a"])] := by decide
    rw [hentries] at hentry
    simp only [List.mem_cons, Prod.mk.injEq, List.not_mem_nil, or_false] at hentry
    rcases hentry with ⟨rfl, rfl⟩ | ⟨rfl, rfl⟩ | ⟨rfl, rfl⟩ <;> simp at hmem
  · intro hacyclic
    have hab : ring.loosened.depends "a" "b" := by decide
    have hbc : ring.loosened.depends "b" "c" := by decide
    have hca : ring.loosened.depends "c" "a" := by decide
    exact hacyclic "a" (.tail (.tail (.single hab) hbc) hca)

end RepoAtlas.Graph
