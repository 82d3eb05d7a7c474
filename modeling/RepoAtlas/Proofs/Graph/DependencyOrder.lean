import Mathlib.Data.Set.Card
import Mathlib.Order.WellFoundedSet
import RepoAtlas.Proofs.Graph.Sorting
import RepoAtlas.Proofs.Graph.Walking
import RepoAtlas.Proofs.Text.Tidy

/-!
# What the order of dependencies lists

The order is that of a walk from the roots of the loosened graph. If cycles are left, the roots may miss keys.
The walk then goes on from the keys, but only if it has not met as many nodes as there are keys, and nodes that
are no keys count as well.
-/

namespace RepoAtlas.Graph

variable {g : Graph} {u v w : String}

/-- The nodes that the roots reach. -/
def fromRoots (g : Graph) : Set String :=
  {v | ∃ r ∈ g.roots, g.Reaches r v}

/-- The nodes are the keys and what something depends on. -/
theorem mem_nodes_iff : v ∈ g.nodes ↔ v ∈ g.keys ∨ ∃ u, g.depends u v := by
  constructor
  · intro h
    rw [nodes, List.mem_eraseDups, List.mem_flatMap] at h
    obtain ⟨⟨u, ds⟩, hentry, hv⟩ := h
    rcases List.mem_cons.mp hv with rfl | hv
    · exact Or.inl (Keyed.mem_keys_of_mem hentry)
    · exact Or.inr ⟨u, depends_iff_entry.mpr ⟨ds, hentry, hv⟩⟩
  · rintro (hv | ⟨u, huv⟩)
    · exact mem_nodes_of_mem_keys hv
    · exact mem_nodes_of_depends huv

/-- What a node reaches is a node. -/
theorem Reaches.mem_nodes (huv : g.Reaches u v) (hu : u ∈ g.nodes) : v ∈ g.nodes :=
  huv.stays (fun _ _ _ hxy => mem_nodes_of_depends hxy) hu

/-- Roots are keys. -/
theorem mem_keys_of_mem_roots (h : v ∈ g.roots) : v ∈ g.keys := by
  rw [roots] at h
  split at h
  · exact List.mem_of_mem_take h
  · exact (List.mem_filter.mp h).1

/-- What the roots reach are nodes. -/
theorem mem_nodes_of_mem_fromRoots (h : v ∈ g.fromRoots) : v ∈ g.nodes := by
  obtain ⟨r, hr, hrv⟩ := h
  exact hrv.mem_nodes (mem_nodes_of_mem_keys (mem_keys_of_mem_roots hr))

/-- A key that nothing depends on is a root. -/
theorem mem_roots_of_unneeded (hv : v ∈ g.keys) (hfree : ¬g.isNeeded v) : v ∈ g.roots := by
  have hmem : v ∈ g.keys.filter fun v => !g.isNeeded v :=
    List.mem_filter.mpr ⟨hv, by simpa using hfree⟩
  rw [roots]
  split
  · rename_i hnil
    exact absurd (hnil ▸ hmem) List.not_mem_nil
  · exact hmem

/-- In an acyclic graph every key is reached from a root. -/
theorem Acyclic.mem_fromRoots (h : g.Acyclic) (hv : v ∈ g.keys) : v ∈ g.fromRoots := by
  have : IsStrictOrder String (Relation.TransGen fun v w => g.depends v w) :=
    { irrefl := h, trans := fun _ _ _ => Relation.TransGen.trans }
  have hfounded : {v | v ∈ g.keys}.WellFoundedOn (Relation.TransGen fun v w => g.depends v w) :=
    (List.finite_toSet g.keys).wellFoundedOn
  -- Going against the dependencies ends, and it ends at a root.
  refine hfounded.induction hv fun v hv ih => ?_
  by_cases hneeded : g.isNeeded v
  · obtain ⟨u, huv⟩ := isNeeded_iff.mp hneeded
    obtain ⟨r, hr, hru⟩ := ih u (mem_keys_of_depends huv) (.single huv)
    exact ⟨r, hr, hru.tail huv⟩
  · exact ⟨v, mem_roots_of_unneeded hv hneeded, .refl g v⟩

/-- Without cycles the roots reach all nodes. -/
theorem Acyclic.mem_fromRoots_iff (h : g.Acyclic) : v ∈ g.fromRoots ↔ v ∈ g.nodes := by
  refine ⟨mem_nodes_of_mem_fromRoots, fun hv => ?_⟩
  rcases mem_nodes_iff.mp hv with hv | ⟨u, huv⟩
  · exact h.mem_fromRoots hv
  · obtain ⟨r, hr, hru⟩ := h.mem_fromRoots (mem_keys_of_depends huv)
    exact ⟨r, hr, hru.tail huv⟩

/-- Where a walk can go next, names deciding the order. -/
def byName (g : Graph) (v : String) : List String :=
  Text.sorted (g.successors v)

/-- The walk from the roots. -/
def rootWalk (g : Graph) : Walk :=
  g.walkOn g.byName {} (Text.sorted g.roots)

/-- The walk from the roots, continued from all keys. -/
def keyWalk (g : Graph) : Walk :=
  g.walkOn g.byName g.rootWalk (Text.sorted g.keys)

/-- The order by name leaves out no dependency. -/
theorem mem_byName (g : Graph) (v w : String) : w ∈ g.byName v ↔ g.depends v w := by
  rw [byName, Text.mem_sorted, depends_iff]

/-- The first walk visits the roots. -/
theorem visited_rootWalk (g : Graph) : Walk.Visited g [] {} (Text.sorted g.roots) g.rootWalk :=
  Walk.visited_walkOn g.mem_byName (Walk.sound_start g) fun _ hv =>
    mem_nodes_of_mem_keys (mem_keys_of_mem_roots (Text.mem_sorted.mp hv))

/-- The walk goes on from the keys after that from the roots. -/
theorem visited_keyWalk (g : Graph) : Walk.Visited g [] g.rootWalk (Text.sorted g.keys) g.keyWalk :=
  Walk.visited_walkOn g.mem_byName (visited_rootWalk g).sound fun _ hv =>
    mem_nodes_of_mem_keys (Text.mem_sorted.mp hv)

/-- The first walk is done with what the roots reach. -/
theorem mem_done_rootWalk : v ∈ g.rootWalk.done ↔ v ∈ g.fromRoots := by
  rw [(visited_rootWalk g).mem_done_iff (Walk.sound_start g), or_iff_right List.not_mem_nil]
  exact exists_congr fun r => and_congr_left fun _ => Text.mem_sorted

/-- The walk from all keys is done with all nodes. -/
theorem mem_done_keyWalk : v ∈ g.keyWalk.done ↔ v ∈ g.nodes := by
  rw [(visited_keyWalk g).mem_done_iff (visited_rootWalk g).sound, mem_done_rootWalk]
  constructor
  · rintro (hv | ⟨k, hk, hkv⟩)
    · exact mem_nodes_of_mem_fromRoots hv
    · exact hkv.mem_nodes (mem_nodes_of_mem_keys (Text.mem_sorted.mp hk))
  · intro hv
    rcases mem_nodes_iff.mp hv with hv | ⟨u, huv⟩
    · exact Or.inr ⟨v, Text.mem_sorted.mpr hv, .refl g v⟩
    · exact Or.inr ⟨u, Text.mem_sorted.mpr (mem_keys_of_depends huv), .single huv⟩

/-- The roots reach as many nodes that are no keys as there are keys that they do not reach. -/
def Balanced (g : Graph) : Prop :=
  ({v | v ∈ g.keys} \ g.fromRoots).ncard = (g.fromRoots \ {v | v ∈ g.keys}).ncard

/-- The walk from the roots meets as many nodes as there are keys exactly if they are balanced. -/
theorem length_done_rootWalk_iff : g.rootWalk.done.length = g.keys.length ↔ g.Balanced := by
  have hreached : (g.rootWalk.done.toFinset : Set String) = g.fromRoots := by
    rw [List.coe_toFinset]
    ext v
    exact mem_done_rootWalk
  have hkeys : g.keys.Nodup := g.edges.nodup
  rw [Balanced, ← hreached, ← List.coe_toFinset,
    ← Set.ncard_eq_ncard_iff_ncard_sdiff_eq_ncard_sdiff (Finset.finite_toSet _) (Finset.finite_toSet _),
    Set.ncard_coe_finset, Set.ncard_coe_finset, List.toFinset_card_of_nodup hkeys,
    List.toFinset_card_of_nodup (visited_rootWalk g).sound.nodup]
  exact eq_comm

/-- The order is that of one of the two walks. -/
theorem dependenciesFirst_eq (g : Graph) :
    g.dependenciesFirst =
      (if g.loosened.rootWalk.done.length = g.loosened.keys.length then g.loosened.rootWalk
        else g.loosened.keyWalk).done.reverse :=
  rfl

/-- Balance decides which walk gives the order. -/
theorem dependenciesFirst_cases (g : Graph) :
    (g.loosened.Balanced ∧ g.dependenciesFirst = g.loosened.rootWalk.done.reverse) ∨
      (¬g.loosened.Balanced ∧ g.dependenciesFirst = g.loosened.keyWalk.done.reverse) := by
  rw [← length_done_rootWalk_iff, dependenciesFirst_eq]
  by_cases hlength : g.loosened.rootWalk.done.length = g.loosened.keys.length
  · exact Or.inl ⟨hlength, by rw [if_pos hlength]⟩
  · exact Or.inr ⟨hlength, by rw [if_neg hlength]⟩

/-- Every node is in the order, unless the roots do not reach it and the graph is balanced. -/
theorem mem_dependenciesFirst :
    v ∈ g.dependenciesFirst ↔ v ∈ g.loosened.nodes ∧ (v ∈ g.loosened.fromRoots ∨ ¬g.loosened.Balanced) := by
  rcases dependenciesFirst_cases g with ⟨hbalanced, heq⟩ | ⟨hbalanced, heq⟩
  · rw [heq, List.mem_reverse, mem_done_rootWalk, or_iff_left (not_not.mpr hbalanced)]
    exact (and_iff_right_of_imp mem_nodes_of_mem_fromRoots).symm
  · rw [heq, List.mem_reverse, mem_done_keyWalk, and_iff_left (Or.inr hbalanced)]

/-- The order comes from a walk of the loosened graph. -/
theorem exists_sound_walk (g : Graph) : ∃ t, Walk.Sound g.loosened [] t ∧ g.dependenciesFirst = t.done.reverse := by
  rcases dependenciesFirst_cases g with ⟨-, heq⟩ | ⟨-, heq⟩
  · exact ⟨g.loosened.rootWalk, (visited_rootWalk g.loosened).sound, heq⟩
  · exact ⟨g.loosened.keyWalk, (visited_keyWalk g.loosened).sound, heq⟩

/-- No node is in the order twice. -/
theorem nodup_dependenciesFirst (g : Graph) : g.dependenciesFirst.Nodup := by
  obtain ⟨t, ht, heq⟩ := exists_sound_walk g
  rw [heq, List.nodup_reverse]
  exact ht.nodup

/-- The dependency of a node that is listed comes first, unless it leads back to the node. -/
theorem sublist_or_reaches (hv : v ∈ g.dependenciesFirst) (hvw : g.loosened.depends v w) :
    [w, v].Sublist g.dependenciesFirst ∨ g.loosened.Reaches w v := by
  obtain ⟨t, ht, heq⟩ := exists_sound_walk g
  rw [heq, List.mem_reverse] at hv
  rw [heq]
  exact (ht.ordered v hv w hvw).imp_left fun hsub => hsub.reverse

/-- If the loosened graph is acyclic, the order lists all of its nodes once, and every dependency before what
depends on it. -/
theorem dependencies_first_of_acyclic (g : Graph) (hacyclic : g.loosened.Acyclic) :
    g.dependenciesFirst.Nodup ∧
      (∀ v, v ∈ g.dependenciesFirst ↔ v ∈ g.keys ∨ ∃ u, g.loosened.depends u v) ∧
      ∀ v w, g.loosened.depends v w → [w, v].Sublist g.dependenciesFirst := by
  have hmem : ∀ v, v ∈ g.dependenciesFirst ↔ v ∈ g.loosened.nodes := by
    intro v
    rw [mem_dependenciesFirst, hacyclic.mem_fromRoots_iff]
    exact and_iff_left_of_imp Or.inl
  refine ⟨nodup_dependenciesFirst g, fun v => ?_, fun v w hvw => ?_⟩
  · rw [hmem, mem_nodes_iff, keys_loosened]
  · have hv := (hmem v).mpr (mem_nodes_of_mem_keys (mem_keys_of_depends hvw))
    refine (sublist_or_reaches hv hvw).resolve_right fun hwv => ?_
    exact hacyclic v (.head' hvw hwv)

/-- Two nodes that depend on each other, and one of them on a node that is no key. -/
def duo : Graph :=
  .ofList [("a", ["b", "x"]), ("b", ["a"])]

/-- Loosening makes the duo acyclic, so its order puts both dependencies of the first node before it. -/
theorem duo_dependencies_first :
    duo.loosened.Acyclic ∧ ["x", "a"].Sublist duo.dependenciesFirst ∧
      ["b", "a"].Sublist duo.dependenciesFirst := by
  have hacyclic : duo.loosened.Acyclic := by
    have hentries : duo.loosened.edges.entries = [("a", ["b", "x"]), ("b", [])] := by decide
    have hedge : ∀ v w, duo.loosened.depends v w → v = "a" ∧ w ≠ "a" := by
      intro v w hvw
      obtain ⟨ds, hentry, hw⟩ := depends_iff_entry.mp hvw
      rw [hentries] at hentry
      simp only [List.mem_cons, Prod.mk.injEq, List.not_mem_nil, or_false] at hentry
      rcases hentry with ⟨rfl, rfl⟩ | ⟨rfl, rfl⟩
      · exact ⟨rfl, fun heq => by simp [heq] at hw⟩
      · exact absurd hw List.not_mem_nil
    intro v hcycle
    obtain ⟨x, hvx, -⟩ := Relation.TransGen.head'_iff.mp hcycle
    obtain ⟨y, -, hyv⟩ := Relation.TransGen.tail'_iff.mp hcycle
    exact (hedge y v hyv).2 (hedge v x hvx).1
  obtain ⟨-, -, hfirst⟩ := dependencies_first_of_acyclic duo hacyclic
  exact ⟨hacyclic, hfirst "a" "x" (by decide), hfirst "a" "b" (by decide)⟩

/-- The order lists a key exactly if the roots of the loosened graph reach it, or they miss more or fewer keys
than they reach nodes that are no keys. -/
theorem key_listed_iff_reached_or_unbalanced (g : Graph) :
    g.dependenciesFirst.Nodup ∧ ∀ v ∈ g.keys,
      (g.dependenciesFirst.count v = 1 ↔
        v ∈ g.loosened.fromRoots ∨
          ({x | x ∈ g.keys} \ g.loosened.fromRoots).ncard ≠
            (g.loosened.fromRoots \ {x | x ∈ g.keys}).ncard) := by
  refine ⟨nodup_dependenciesFirst g, fun v hv => ?_⟩
  have hnode : v ∈ g.loosened.nodes := mem_nodes_of_mem_keys ((keys_loosened g).symm ▸ hv)
  have hcount : g.dependenciesFirst.count v = 1 ↔ v ∈ g.dependenciesFirst := by
    refine ⟨fun hone => ?_, List.count_eq_one_of_mem (nodup_dependenciesFirst g)⟩
    exact List.count_pos_iff.mp (hone ▸ Nat.one_pos)
  rw [hcount, mem_dependenciesFirst, and_iff_right hnode, Balanced, keys_loosened]

/-- A node that depends only on itself, beside one that depends on a node that is no key. -/
def hermit : Graph :=
  .ofList [("a", ["x"]), ("b", ["b"])]

/-- The walk from the only root meets as many nodes as there are keys and stops, so one key is not listed. -/
theorem hermit_not_listed : ¬∀ v ∈ hermit.keys, hermit.dependenciesFirst.count v = 1 := by
  intro hlisted
  have horder : hermit.dependenciesFirst = ["x", "a"] := by decide +kernel
  have hcount := hlisted "b" (by decide)
  rw [horder] at hcount
  exact absurd hcount (by decide)

end RepoAtlas.Graph
