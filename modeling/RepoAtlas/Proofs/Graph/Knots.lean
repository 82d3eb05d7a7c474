import Mathlib.Data.Set.Subsingleton
import Mathlib.Order.Fin.Basic
import RepoAtlas.Proofs.Graph.Visit

/-!
# The knots are the strongly connected components

When a visit came upon no lesser number, the nodes above the former stack are a class of tied nodes. So
completing it keeps a search sound, which ends with every larger component listed once.
-/

namespace RepoAtlas.Graph.Search

variable {g : Graph} {path done new : List String} {s t : Search} {v w x y : String} {low : Nat}

/-- The nodes that a visit would complete: those above the former stack. -/
def Above (s t : Search) (x : String) : Prop :=
  x ∈ t.stack ∧ x ∉ s.stack

namespace Following

/-- Of the nodes above the former stack those met after the visited one are not on the path. -/
theorem not_mem_path (hs : Sound g path s) (hx : Above s t x) (hne : x ≠ v) : x ∉ v :: path := by
  intro hmem
  rcases List.mem_cons.mp hmem with heq | hpath
  · exact hne heq
  · exact hx.2 (hs.onStack x hpath)

/-- If no lesser number was come upon, the nodes above the former stack lead only to each other and to
settled nodes. -/
theorem above_closed (h : Following g path s v done t s.numbers.length) (hs : Sound g path s)
    (hdone : ∀ w, g.depends v w → w ∈ done) (hx : Above s t x) (hxy : g.depends x y) : Above s t y ∨ t.Settled y := by
  have hfacts : t.Met y ∧ (y ∈ s.stack → s.numbers.length ≤ s.number y) := by
    by_cases hxv : x = v
    · subst hxv
      exact h.followed y (hdone y hxy)
    · refine ⟨h.sound.explored x y (h.sound.met x hx.1) (not_mem_path hs hx hxv) hxy, ?_⟩
      intro hy
      refine h.above x hx.1 (fun hmem => ?_) y hy hxy
      exact (List.mem_cons.mp hmem).elim hxv hx.2
  by_cases hy : y ∈ t.stack
  · refine Or.inl ⟨hy, fun hys => ?_⟩
    exact absurd (hs.number_lt (hs.met y hys)) (Nat.not_lt.mpr (hfacts.2 hys))
  · exact Or.inr ⟨hfacts.1, hy⟩

/-- Such nodes reach only each other and settled nodes. -/
theorem above_of_reaches (h : Following g path s v done t s.numbers.length) (hs : Sound g path s)
    (hdone : ∀ w, g.depends v w → w ∈ done) (hx : Above s t x) (hxy : g.Reaches x y) : Above s t y ∨ t.Settled y := by
  refine hxy.stays (p := fun y => Above s t y ∨ t.Settled y) ?_ (Or.inl hx)
  intro a b ha hab
  rcases ha with ha | ha
  · exact h.above_closed hs hdone ha hab
  · exact Or.inr (h.sound.closed a b ha hab)

/-- Such nodes reach the visited node: the node of the path that they reach back to is no other. -/
theorem above_reaches_self (h : Following g path s v done t s.numbers.length) (hs : Sound g path s)
    (hdone : ∀ w, g.depends v w → w ∈ done) (hx : Above s t x) : g.Reaches x v := by
  obtain ⟨u, hu, -, hxu⟩ := h.sound.back x hx.1
  rcases h.above_of_reaches hs hdone hx hxu with habove | hsettled
  · rcases List.mem_cons.mp hu with rfl | hpath
    · exact hxu
    · exact absurd (hs.onStack u hpath) habove.2
  · exact absurd (h.sound.onStack u hu) hsettled.2

/-- The visited node reaches the nodes above the former stack. -/
theorem self_reaches_above (h : Following g path s v done t low) (hx : Above s t x) : g.Reaches v x := by
  refine h.sound.forth v (h.sound.onStack v List.mem_cons_self) x hx.1 ?_
  rw [h.number_self]
  exact h.le_number hx.1 hx.2

/-- The nodes above the former stack are a class of tied nodes. -/
theorem above_iff_tied (h : Following g path s v done t s.numbers.length) (hs : Sound g path s)
    (hdone : ∀ w, g.depends v w → w ∈ done) (hx : Above s t x) : Above s t y ↔ g.Tied x y := by
  constructor
  · intro hy
    exact ⟨(h.above_reaches_self hs hdone hx).trans (h.self_reaches_above hy),
      (h.above_reaches_self hs hdone hy).trans (h.self_reaches_above hx)⟩
  · rintro ⟨hxy, hyx⟩
    refine (h.above_of_reaches hs hdone hx hxy).resolve_right fun hsettled => ?_
    exact (h.sound.settled_of_reaches hsettled hyx).2 hx.1

/-- The group that a visit completes is what stands above the former stack. -/
theorem mem_group (h : Following g path s v done t low) (hstack : t.stack = new ++ v :: s.stack) :
    x ∈ new ++ [v] ↔ Above s t x := by
  have hgroup : t.stack = (new ++ [v]) ++ s.stack := hstack.trans (List.append_cons new v s.stack)
  have hnodup := h.sound.nodup_stack
  rw [hgroup] at hnodup
  rw [Above, hgroup]
  constructor
  · intro hx
    exact ⟨List.mem_append_left _ hx, fun hxs => List.disjoint_of_nodup_append hnodup hx hxs⟩
  · rintro ⟨hx, hoff⟩
    exact (List.mem_append.mp hx).resolve_right hoff

end Following

/-- Completing a group cuts the stack below the node. -/
theorem complete_stack (t : Search) (hstack : t.stack = new ++ v :: s.stack) (hv : v ∉ new) :
    (t.complete v).stack = s.stack := by
  have hnew : ∀ w ∈ new, (w != v) = true := fun w hw => bne_iff_ne.mpr fun heq => hv (heq ▸ hw)
  simp only [complete, hstack]
  rw [List.dropWhile_append_of_pos hnew, List.dropWhile_cons_of_neg (by simp), List.tail_cons]

/-- A group of two nodes or more becomes the last knot. -/
theorem complete_knots (t : Search) (hstack : t.stack = new ++ v :: s.stack) (hv : v ∉ new) :
    (t.complete v).knots = if 1 < (new ++ [v]).length then t.knots ++ [new ++ [v]] else t.knots := by
  have hnew : ∀ w ∈ new, (w != v) = true := fun w hw => bne_iff_ne.mpr fun heq => hv (heq ▸ hw)
  simp only [complete, hstack]
  rw [List.takeWhile_append_of_pos hnew, List.takeWhile_cons_of_neg (by simp), List.append_nil]

namespace Following

/-- Completing settles what stands above the former stack. -/
theorem settled_complete (h : Following g path s v done t low) (hstack : (t.complete v).stack = s.stack) :
    (t.complete v).Settled x ↔ t.Settled x ∨ Above s t x := by
  have hmet : (t.complete v).Met x ↔ t.Met x := Iff.rfl
  rw [Settled, hmet, hstack]
  constructor
  · rintro ⟨hx, hoff⟩
    by_cases hxt : x ∈ t.stack
    · exact Or.inr ⟨hxt, hoff⟩
    · exact Or.inl ⟨hx, hxt⟩
  · rintro (⟨hx, hoff⟩ | ⟨hx, hoff⟩)
    · exact ⟨hx, fun hxs => hoff (h.mem_stack hxs)⟩
    · exact ⟨h.sound.met x hx, hoff⟩

/-- A group with two different nodes is a knot. -/
theorem group_mem_knots (h : Following g path s v done t low) (hstack : t.stack = new ++ v :: s.stack) (hv : v ∉ new)
    (hx : Above s t x) (hy : Above s t y) (hne : x ≠ y) : new ++ [v] ∈ (t.complete v).knots := by
  rw [complete_knots t hstack hv, if_pos, List.mem_append]
  · exact Or.inr (List.mem_singleton_self _)
  · by_contra hle
    obtain ⟨z, hz⟩ := List.length_eq_one_iff.mp
      (le_antisymm (Nat.not_lt.mp hle) (List.length_pos_of_mem ((h.mem_group hstack).mpr hx)))
    have hxz := (h.mem_group hstack).mpr hx
    have hyz := (h.mem_group hstack).mpr hy
    rw [hz, List.mem_singleton] at hxz hyz
    exact hne (hxz.trans hyz.symm)

/-- A completed group is one of the former knots or the whole group above the former stack. -/
theorem mem_knots_complete {k : List String} (hstack : t.stack = new ++ v :: s.stack) (hv : v ∉ new)
    (hk : k ∈ (t.complete v).knots) : k ∈ t.knots ∨ k = new ++ [v] ∧ 1 < k.length := by
  rw [complete_knots t hstack hv] at hk
  split at hk
  · rename_i hlarge
    rcases List.mem_append.mp hk with hk | hk
    · exact Or.inl hk
    · obtain rfl := List.mem_singleton.mp hk
      exact Or.inr ⟨rfl, hlarge⟩
  · exact Or.inl hk

/-- Completing a group keeps the knots right. -/
theorem knotted_complete (h : Following g path s v done t s.numbers.length) (hs : Sound g path s)
    (hdone : ∀ w, g.depends v w → w ∈ done) (hstack : t.stack = new ++ v :: s.stack)
    (hv : v ∉ new) : Knotted g (t.complete v) := by
  have hcut := complete_stack t hstack hv
  have hsettled := fun x => h.settled_complete (x := x) hcut
  have hgroup := fun x => h.mem_group (x := x) hstack
  have hold : ∀ k ∈ t.knots, k ∈ (t.complete v).knots := by
    intro k hk
    rw [complete_knots t hstack hv]
    split
    · exact List.mem_append_left _ hk
    · exact hk
  refine ⟨?_, ?_, ?_, ?_, ?_, ?_⟩
  · intro k hk
    rcases mem_knots_complete hstack hv hk with hk | ⟨rfl, -⟩
    · exact h.sound.knotted.nodup k hk
    · have hnodup := h.sound.nodup_stack
      rw [hstack, List.append_cons] at hnodup
      exact (List.nodup_append.mp hnodup).1
  · intro k hk
    rcases mem_knots_complete hstack hv hk with hk | ⟨-, hlarge⟩
    · exact h.sound.knotted.large k hk
    · exact hlarge
  · intro k hk x hx
    rcases mem_knots_complete hstack hv hk with hk | ⟨rfl, -⟩
    · exact (hsettled x).mpr (Or.inl (h.sound.knotted.settled k hk x hx))
    · exact (hsettled x).mpr (Or.inr ((hgroup x).mp hx))
  · intro k hk x hx y
    rcases mem_knots_complete hstack hv hk with hk | ⟨rfl, -⟩
    · exact h.sound.knotted.component k hk x hx y
    · rw [hgroup y]
      exact h.above_iff_tied hs hdone ((hgroup x).mp hx)
  · intro x y hx hne htied
    rcases (hsettled x).mp hx with hx | hx
    · obtain ⟨k, hk, hxk⟩ := h.sound.knotted.complete x y hx hne htied
      exact ⟨k, hold k hk, hxk⟩
    · have hy := (h.above_iff_tied hs hdone hx).mpr htied
      exact ⟨new ++ [v], h.group_mem_knots hstack hv hx hy hne, (hgroup x).mpr hx⟩
  · rw [complete_knots t hstack hv]
    split
    · refine List.pairwise_append.mpr ⟨h.sound.knotted.disjoint, List.pairwise_singleton _ _, ?_⟩
      intro k hk l hl x hxk hxl
      rw [List.mem_singleton.mp hl] at hxl
      exact (h.sound.knotted.settled k hk x hxk).2 ((hgroup x).mp hxl).1
    · exact h.sound.knotted.disjoint

/-- Once its dependencies are followed, the visited node leads only to nodes that were met. -/
theorem explored (h : Following g path s v done t low) (hdone : ∀ w, g.depends v w → w ∈ done)
    (hx : t.Met x) (hoff : x ∉ path) (hxy : g.depends x y) : t.Met y := by
  by_cases hxv : x = v
  · subst hxv
    exact (h.followed y (hdone y hxy)).1
  · refine h.sound.explored x y hx (fun hmem => ?_) hxy
    exact (List.mem_cons.mp hmem).elim hxv hoff

/-- Nodes of the former stack reach back to a node of the path below the visited one. -/
theorem back_below (h : Following g path s v done t low) (hs : Sound g path s) (hnew : ¬s.Met v)
    (hx : x ∈ s.stack) : ∃ u ∈ path, t.number u ≤ t.number x ∧ g.Reaches x u := by
  obtain ⟨u, hu, hle, hxu⟩ := h.sound.back x (h.mem_stack hx)
  rcases List.mem_cons.mp hu with rfl | hpath
  · rw [h.number_self, h.number_eq hs hnew hx] at hle
    exact absurd (hs.number_lt (hs.met x hx)) (Nat.not_lt.mpr hle)
  · exact ⟨u, hpath, hle, hxu⟩

/-- A visit that came upon no number less than its own completes a group. -/
theorem visited_complete (h : Following g path s v done t s.numbers.length) (hs : Sound g path s) (hnew : ¬s.Met v)
    (hdone : ∀ w, g.depends v w → w ∈ done) : Visited g path s v (t.complete v) s.numbers.length := by
  obtain ⟨new, hstack⟩ := h.stack_eq
  have hv : v ∉ new := by
    have hnodup := h.sound.nodup_stack
    rw [hstack] at hnodup
    exact fun hmem => List.disjoint_of_nodup_append hnodup hmem List.mem_cons_self
  have hcut := complete_stack t hstack hv
  have hsettled := fun x => h.settled_complete (x := x) hcut
  have hsub : ∀ x ∈ (t.complete v).stack, x ∈ s.stack := fun x hx => hcut ▸ hx
  refine ⟨⟨?_, [], hcut, by simp⟩, ?_, h.met_self, Or.inl rfl, ?_⟩
  · exact ((Extends.enter hnew).trans h.extends_enter).numbers
  · refine ⟨h.sound.bounded, ?_, ?_, ?_, ?_, ?_, ?_, ?_, h.knotted_complete hs hdone hstack hv⟩
    · intro x hx
      exact h.sound.met x (h.mem_stack (hsub x hx))
    · have hordered := h.sound.ordered
      rw [hstack, List.append_cons] at hordered
      rw [hcut]
      exact (List.pairwise_append.mp hordered).2.1
    · intro x hx
      rw [hcut]
      exact hs.onStack x hx
    · intro x y hx hoff hxy
      exact h.explored hdone hx hoff hxy
    · intro x y hx hxy
      rcases (hsettled x).mp hx with hx | hx
      · exact (hsettled y).mpr (Or.inl (h.sound.closed x y hx hxy))
      · exact (hsettled y).mpr (h.above_closed hs hdone hx hxy).symm
    · intro x hx y hy hle
      exact h.sound.forth x (h.mem_stack (hsub x hx)) y (h.mem_stack (hsub y hy)) hle
    · intro x hx
      exact h.back_below hs hnew (hsub x hx)
  · intro x hx hoff
    exact absurd (hsub x hx) hoff

/-- A visit that came upon a lesser number leaves its node on the stack. -/
theorem visited_open (h : Following g path s v done t low) (hs : Sound g path s) (hnew : ¬s.Met v)
    (hdone : ∀ w, g.depends v w → w ∈ done) (hlt : low < s.numbers.length) : Visited g path s v t low := by
  refine ⟨(Extends.enter hnew).trans h.extends_enter, ?_, h.met_self, h.reached, ?_⟩
  · refine ⟨h.sound.bounded, h.sound.met, h.sound.ordered,
      fun x hx => h.mem_stack (hs.onStack x hx), fun x y hx hoff => h.explored hdone hx hoff,
      h.sound.closed, h.sound.forth, ?_, h.sound.knotted⟩
    intro x hx
    obtain ⟨u, hu, hle, hxu⟩ := h.sound.back x hx
    rcases List.mem_cons.mp hu with rfl | hpath
    · obtain ⟨y, hy, hnumber, huy⟩ := h.reached.resolve_left hlt.ne
      obtain ⟨z, hz, hzy, hyz⟩ := h.back_below hs hnew hy
      refine ⟨z, hz, ?_, (hxu.trans huy).trans hyz⟩
      rw [h.number_eq hs hnew hy] at hzy
      rw [h.number_self] at hle
      omega
    · exact ⟨u, hpath, hle, hxu⟩
  · intro x hx hoff y hy hxy
    by_cases hxv : x = v
    · subst hxv
      exact (h.followed y (hdone y hxy)).2 hy
    · refine h.above x hx (fun hmem => ?_) y hy hxy
      exact (List.mem_cons.mp hmem).elim hxv hoff

end Following

/-- The nodes that a search has not met. -/
def unmet (g : Graph) (s : Search) : Finset String :=
  g.nodes.toFinset.filter fun v => s.numbers.lookup v = none

/-- The nodes that were not met. -/
theorem mem_unmet : v ∈ unmet g s ↔ v ∈ g.nodes ∧ ¬s.Met v := by
  rw [unmet, Finset.mem_filter, List.mem_toFinset, not_met_iff]

/-- Later in a search no more nodes are unmet. -/
theorem Extends.card_unmet_le (h : Extends s t) : (unmet g t).card ≤ (unmet g s).card := by
  refine Finset.card_le_card fun v hv => ?_
  rw [mem_unmet] at hv ⊢
  exact ⟨hv.1, fun hmet => hv.2 (h.met hmet)⟩

/-- Entering a node leaves fewer nodes unmet. -/
theorem card_unmet_enter (hv : v ∈ g.nodes) (hnew : ¬s.Met v) : (unmet g (s.enter v)).card < (unmet g s).card := by
  refine Finset.card_lt_card (Finset.ssubset_iff_subset_ne.mpr ⟨fun w hw => ?_, fun heq => ?_⟩)
  · rw [mem_unmet] at hw ⊢
    exact ⟨hw.1, fun hmet => hw.2 (met_enter.mpr (Or.inr hmet))⟩
  · have hmem : v ∈ unmet g (s.enter v) := heq ▸ mem_unmet.mpr ⟨hv, hnew⟩
    exact (mem_unmet.mp hmem).2 (met_enter.mpr (Or.inl rfl))

/-- What a visit relies on when it begins: among others that paths may be followed for as many nodes as
were not met. -/
structure Ready (g : Graph) (path : List String) (s : Search) (v : String) (fuel : Nat) : Prop where
  sound : Sound g path s
  node : v ∈ g.nodes
  fresh : ¬s.Met v
  path_reaches : ∀ u ∈ path, g.Reaches u v
  card_unmet_le : (unmet g s).card ≤ fuel

/-- A visit that may begin may meet its node. -/
theorem Ready.fuel_pos {fuel : Nat} (h : Ready g path s v fuel) : 0 < fuel :=
  (Finset.card_pos.mpr ⟨v, mem_unmet.mpr ⟨h.node, h.fresh⟩⟩).trans_le h.card_unmet_le

/-- What a visit relies on holds for the visits of the dependencies that it follows. -/
theorem Ready.dependency {fuel : Nat} (h : Ready g path s v (fuel + 1)) (hext : Extends (s.enter v) t)
    (hsound : Sound g (v :: path) t) (hvw : g.depends v w) (hw : ¬t.Met w) :
    Ready g (v :: path) t w fuel where
  sound := hsound
  node := mem_nodes_of_depends hvw
  fresh := hw
  path_reaches u hu := by
    rcases List.mem_cons.mp hu with rfl | hu
    · exact .single hvw
    · exact (h.path_reaches u hu).tail hvw
  card_unmet_le := by
    have hlt := card_unmet_enter h.node h.fresh
    have hle := hext.card_unmet_le (g := g)
    have hfuel := h.card_unmet_le
    omega

/-- A visit is right if it begins with what it relies on. -/
theorem visit_spec {fuel : Nat} (h : Ready g path s v fuel) :
    Visited g path s v (visit g fuel s v).1 (visit g fuel s v).2 := by
  induction fuel generalizing path s v with
  | zero => exact absurd h.fuel_pos (Nat.lt_irrefl 0)
  | succ fuel ih =>
    have hfollow := (following_enter h.sound h.fresh h.path_reaches).foldl (visit g fuel) h.sound
      h.fresh (g.successors v) (fun w hw => depends_iff.mpr hw)
      (fun t w hext hsound hvw hw => ih (h.dependency hext hsound hvw hw))
    have hdone : ∀ w, g.depends v w → w ∈ [] ++ g.successors v := by
      intro w hw
      exact depends_iff.mp hw
    simp only [visit]
    split
    · rename_i heq
      rw [heq] at hfollow ⊢
      exact hfollow.visited_complete h.sound h.fresh hdone
    · rename_i hne
      exact hfollow.visited_open h.sound h.fresh hdone (lt_of_le_of_ne hfollow.low_le hne)

/-- Paths may be followed for more nodes than a graph has. -/
theorem card_unmet_le_pathBound (g : Graph) (s : Search) : (unmet g s).card ≤ g.pathBound :=
  (Finset.card_filter_le _ _).trans ((List.toFinset_card_le g.nodes).trans (Nat.le_succ _))

/-- A key that was not met may be visited. -/
theorem Sound.ready (hs : Sound g [] s) (hv : v ∈ g.keys) (hnew : ¬s.Met v) : Ready g [] s v g.pathBound :=
  ⟨hs, mem_nodes_of_mem_keys hv, hnew, by simp, card_unmet_le_pathBound g s⟩

/-- Visiting a key keeps the search sound and meets the key. -/
theorem visitOnce_spec (hs : Sound g [] s) (hv : v ∈ g.keys) :
    Sound g [] (visitOnce g s v) ∧ Extends s (visitOnce g s v) ∧ (visitOnce g s v).Met v := by
  cases hlookup : s.numbers.lookup v with
  | none =>
    have hvisit := visit_spec (hs.ready hv (not_met_iff.mpr hlookup))
    simp only [visitOnce, hlookup]
    exact ⟨hvisit.sound, hvisit.extends_start, hvisit.met⟩
  | some n =>
    simp only [visitOnce, hlookup]
    exact ⟨hs, .refl s, n, hlookup⟩

/-- So does visiting keys in turn. -/
theorem foldl_visitOnce_spec (vs : List String) (hvs : ∀ v ∈ vs, v ∈ g.keys) (hs : Sound g [] s) :
    Sound g [] (vs.foldl (visitOnce g) s) ∧ Extends s (vs.foldl (visitOnce g) s) ∧
      ∀ v ∈ vs, (vs.foldl (visitOnce g) s).Met v := by
  induction vs generalizing s with
  | nil => exact ⟨hs, .refl s, by simp⟩
  | cons v vs ih =>
    obtain ⟨hsound, hext, hmet⟩ := visitOnce_spec hs (hvs v List.mem_cons_self)
    obtain ⟨hsound', hext', hmet'⟩ := ih (fun w hw => hvs w (List.mem_cons_of_mem v hw)) hsound
    refine ⟨hsound', hext.trans hext', fun w hw => ?_⟩
    rcases List.mem_cons.mp hw with rfl | hw
    · exact hext'.met hmet
    · exact hmet' w hw

end RepoAtlas.Graph.Search

namespace RepoAtlas.Graph

variable {g : Graph} {k : List String} {v w : String}

/-- A strongly connected component with two nodes or more. -/
def IsKnot (g : Graph) (c : Set String) : Prop :=
  c.Nontrivial ∧ ∃ v, c = {w | g.Tied v w}

/-- The search over all keys ends with all of them settled and the knots right. -/
theorem search_spec (g : Graph) :
    Search.Knotted g (g.keys.foldl (Search.visitOnce g) {}) ∧
      ∀ v ∈ g.keys, (g.keys.foldl (Search.visitOnce g) {}).Settled v := by
  obtain ⟨hsound, -, hmet⟩ :=
    Search.foldl_visitOnce_spec g.keys (fun _ hv => hv) (Search.sound_start g)
  refine ⟨hsound.knotted, fun v hv => ⟨hmet v hv, ?_⟩⟩
  rw [hsound.stack_eq_nil]
  exact List.not_mem_nil

/-- No node is in a knot twice. -/
theorem nodup_of_mem_knots (hk : k ∈ g.knots) : k.Nodup :=
  (search_spec g).1.nodup k hk

/-- A knot has two nodes or more. -/
theorem length_of_mem_knots (hk : k ∈ g.knots) : 1 < k.length :=
  (search_spec g).1.large k hk

/-- A knot lists all nodes that are tied to one of its nodes. -/
theorem mem_knot_iff (hk : k ∈ g.knots) (hv : v ∈ k) : w ∈ k ↔ g.Tied v w :=
  (search_spec g).1.component k hk v hv w

/-- Two different nodes that are tied are in some knot. -/
theorem exists_knot (hne : v ≠ w) (htied : g.Tied v w) : ∃ k ∈ g.knots, v ∈ k :=
  (search_spec g).1.complete v w ((search_spec g).2 v (htied.1.mem_keys hne)) hne htied

/-- No node is in two knots. -/
theorem knots_disjoint (g : Graph) : g.knots.Pairwise List.Disjoint :=
  (search_spec g).1.disjoint

/-- A knot has a node other than a given one. -/
theorem exists_ne_of_mem_knot (hk : k ∈ g.knots) (v : String) : ∃ w ∈ k, w ≠ v := by
  obtain ⟨a, b, rest, rfl⟩ : ∃ a b rest, k = a :: b :: rest := by
    match k, length_of_mem_knots hk with
    | a :: b :: rest, _ => exact ⟨a, b, rest, rfl⟩
  have hab : a ≠ b := by
    intro heq
    subst heq
    exact (List.nodup_cons.mp (nodup_of_mem_knots hk)).1 List.mem_cons_self
  by_cases ha : a = v
  · exact ⟨b, by simp, fun hb => hab (ha.trans hb.symm)⟩
  · exact ⟨a, List.mem_cons_self, ha⟩

/-- What is found are strongly connected components. -/
theorem isKnot_of_mem_knots (hk : k ∈ g.knots) : g.IsKnot {v | v ∈ k} := by
  obtain ⟨v, hv, -⟩ := exists_ne_of_mem_knot hk ""
  obtain ⟨w, hw, hwv⟩ := exists_ne_of_mem_knot hk v
  refine ⟨⟨w, hw, v, hv, hwv⟩, v, ?_⟩
  ext x
  exact mem_knot_iff hk hv

/-- A component with two nodes or more is listed. -/
theorem IsKnot.exists_mem_knots {c : Set String} (hc : g.IsKnot c) : ∃ k ∈ g.knots, {v | v ∈ k} = c := by
  obtain ⟨hlarge, v, rfl⟩ := hc
  obtain ⟨w, hw, hwv⟩ := hlarge.exists_ne v
  obtain ⟨k, hk, hv⟩ := exists_knot hwv.symm hw
  refine ⟨k, hk, ?_⟩
  ext x
  exact mem_knot_iff hk hv

/-- The knots are the strongly connected components with two nodes or more, each listed once and without
repetition. -/
theorem knots_are_components (g : Graph) :
    (∀ k ∈ g.knots, k.Nodup ∧ g.IsKnot {v | v ∈ k}) ∧
      (∀ c, g.IsKnot c → ∃! i : Fin g.knots.length, {v | v ∈ g.knots.get i} = c) ∧
      ∀ v, (∀ w, w ≠ v → ¬g.Tied v w) → ∀ k ∈ g.knots, v ∉ k := by
  refine ⟨fun k hk => ⟨nodup_of_mem_knots hk, isKnot_of_mem_knots hk⟩, ?_, ?_⟩
  · intro c hc
    obtain ⟨k, hk, hkc⟩ := hc.exists_mem_knots
    obtain ⟨i, rfl⟩ := List.mem_iff_get.mp hk
    refine ⟨i, hkc, fun j hj => ?_⟩
    obtain ⟨v, hv, -⟩ := exists_ne_of_mem_knot hk ""
    have hvj : v ∈ g.knots.get j := by
      have hmem : v ∈ {v | v ∈ g.knots.get j} := by
        rw [hj, ← hkc]
        exact hv
      exact hmem
    have hdisjoint := List.pairwise_iff_get.mp (knots_disjoint g)
    rcases lt_trichotomy j i with hlt | heq | hlt
    · exact absurd hv (hdisjoint j i hlt hvj)
    · exact heq
    · exact absurd hvj (hdisjoint i j hlt hv)
  · intro v halone k hk hv
    obtain ⟨w, hw, hwv⟩ := exists_ne_of_mem_knot hk v
    exact halone w hwv ((mem_knot_iff hk hv).mp hw)

end RepoAtlas.Graph
