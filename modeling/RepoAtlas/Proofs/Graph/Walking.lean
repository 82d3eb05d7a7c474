import Mathlib.Data.Finset.Card
import RepoAtlas.Proofs.Graph.Reachability

/-!
# What a depth-first walk does

Between two steps there is a path of nodes that were seen and are not done with. What a node depends on is done
with earlier, unless it stands on the path, and from there a path leads back to the node.
-/

namespace RepoAtlas.Graph.Walk

variable {g : Graph} {next : String → List String} {path us vs : List String} {w t u : Walk}
  {v x : String} {fuel : Nat}

/-- See a node for the first time. -/
def enter (w : Walk) (v : String) : Walk :=
  { w with seen := v :: w.seen }

/-- Be done with a node. -/
def leave (w : Walk) (v : String) : Walk :=
  { w with done := v :: w.done }

/-- Nothing happens at a node that was seen. -/
theorem visit_of_seen (h : v ∈ w.seen) : visit next fuel w v = w := by
  cases fuel with
  | zero => rfl
  | succ fuel => simp only [visit, List.contains_iff_mem.mpr h, if_true]

/-- A node that was not seen is entered and left, and in between the walk goes to what comes next. -/
theorem visit_of_not_seen (h : v ∉ w.seen) :
    visit next (fuel + 1) w v = ((next v).foldl (visit next fuel) (w.enter v)).leave v := by
  have hcontains : w.seen.contains v = false := by simpa using h
  simp only [visit, hcontains, Bool.false_eq_true, if_false]
  rfl

/-- What holds between two steps of a walk. The nodes of `path` were seen and are not done with. -/
structure Sound (g : Graph) (path : List String) (w : Walk) : Prop where
  nodup : w.done.Nodup
  seen_iff : ∀ v, v ∈ w.seen ↔ v ∈ path ∨ v ∈ w.done
  apart : ∀ v ∈ path, v ∉ w.done
  explored : ∀ v ∈ w.done, ∀ x, g.depends v x → x ∈ w.seen
  ordered : ∀ v ∈ w.done, ∀ x, g.depends v x → [v, x].Sublist w.done ∨ g.Reaches x v

/-- What holds after nodes were visited: all of them were seen, and nothing that they do not reach. -/
structure Visited (g : Graph) (path : List String) (w : Walk) (vs : List String) (t : Walk) :
    Prop where
  sound : Sound g path t
  keeps : ∀ x ∈ w.seen, x ∈ t.seen
  seen : ∀ v ∈ vs, v ∈ t.seen
  reached : ∀ x ∈ t.seen, x ∈ w.seen ∨ ∃ v ∈ vs, g.Reaches v x

/-- A walk is sound at the beginning. -/
theorem sound_start (g : Graph) : Sound g [] {} where
  nodup := .nil
  seen_iff v := by simp
  apart v hv := absurd hv List.not_mem_nil
  explored v hv := absurd hv List.not_mem_nil
  ordered v hv := absurd hv List.not_mem_nil

/-- Seeing a new node puts it on the path. -/
theorem Sound.enter (hw : Sound g path w) (hv : v ∉ w.seen) : Sound g (v :: path) (w.enter v) where
  nodup := hw.nodup
  seen_iff x := by
    change x ∈ v :: w.seen ↔ x ∈ v :: path ∨ x ∈ w.done
    rw [List.mem_cons, List.mem_cons, hw.seen_iff, or_assoc]
  apart x hx hdone := by
    rcases List.mem_cons.mp hx with rfl | hx
    · exact hv ((hw.seen_iff x).mpr (Or.inr hdone))
    · exact hw.apart x hx hdone
  explored x hx y hxy := List.mem_cons_of_mem v (hw.explored x hx y hxy)
  ordered := hw.ordered

/-- No visit is needed to visit nothing. -/
theorem Visited.refl (hw : Sound g path w) : Visited g path w [] w where
  sound := hw
  keeps _ hx := hx
  seen _ hv := absurd hv List.not_mem_nil
  reached _ hx := Or.inl hx

/-- Visits one after the other are visits of all the nodes. -/
theorem Visited.append (hwt : Visited g path w vs t) (htu : Visited g path t us u) :
    Visited g path w (vs ++ us) u where
  sound := htu.sound
  keeps x hx := htu.keeps x (hwt.keeps x hx)
  seen v hv := by
    rcases List.mem_append.mp hv with hv | hv
    · exact htu.keeps v (hwt.seen v hv)
    · exact htu.seen v hv
  reached x hx := by
    rcases htu.reached x hx with hx | ⟨v, hv, hvx⟩
    · rcases hwt.reached x hx with hx | ⟨v, hv, hvx⟩
      · exact Or.inl hx
      · exact Or.inr ⟨v, List.mem_append_left us hv, hvx⟩
    · exact Or.inr ⟨v, List.mem_append_right vs hv, hvx⟩

/-- A node that was seen counts as visited. -/
theorem Visited.of_seen (hw : Sound g path w) (hv : v ∈ w.seen) : Visited g path w [v] w where
  sound := hw
  keeps _ hx := hx
  seen _ hx := List.mem_singleton.mp hx ▸ hv
  reached _ hx := Or.inl hx

/-- A walk stays sound when it leaves a node all of whose dependencies were visited. -/
theorem Sound.leave (ht : Sound g (v :: path) t) (hv : v ∉ path)
    (hpath : ∀ x ∈ path, g.Reaches x v) (hseen : ∀ x, g.depends v x → x ∈ t.seen) :
    Sound g path (t.leave v) where
  nodup := List.nodup_cons.mpr ⟨ht.apart v List.mem_cons_self, ht.nodup⟩
  seen_iff x := by
    change x ∈ t.seen ↔ x ∈ path ∨ x ∈ v :: t.done
    rw [ht.seen_iff, List.mem_cons, List.mem_cons, or_assoc, or_left_comm]
  apart x hx hdone := by
    rcases List.mem_cons.mp hdone with rfl | hdone
    · exact hv hx
    · exact ht.apart x (List.mem_cons_of_mem v hx) hdone
  explored x hx y hxy := by
    rcases List.mem_cons.mp hx with rfl | hx
    · exact hseen y hxy
    · exact ht.explored x hx y hxy
  ordered x hx y hxy := by
    rcases List.mem_cons.mp hx with rfl | hx
    · -- What `x` depends on is done with, or is on the path, or is `x` itself.
      rcases (ht.seen_iff y).mp (hseen y hxy) with hy | hy
      · rcases List.mem_cons.mp hy with rfl | hy
        · exact Or.inr (.refl g y)
        · exact Or.inr (hpath y hy)
      · exact Or.inl ((List.singleton_sublist.mpr hy).cons_cons x)
    · exact (ht.ordered x hx y hxy).imp_left fun hsub => hsub.cons v

/-- Entering a node, visiting its dependencies and leaving it is a visit of the node. -/
theorem Visited.leave (hw : Sound g path w) (hv : v ∉ w.seen) (hpath : ∀ x ∈ path, g.Reaches x v)
    (hvs : ∀ x, x ∈ vs ↔ g.depends v x) (h : Visited g (v :: path) (w.enter v) vs t) :
    Visited g path w [v] (t.leave v) where
  sound := by
    refine h.sound.leave (fun hmem => hv ((hw.seen_iff v).mpr (Or.inl hmem))) hpath ?_
    exact fun x hvx => h.seen x ((hvs x).mpr hvx)
  keeps x hx := h.keeps x (List.mem_cons_of_mem v hx)
  seen x hx := List.mem_singleton.mp hx ▸ h.keeps v List.mem_cons_self
  reached x hx := by
    rcases h.reached x hx with hx | ⟨y, hy, hyx⟩
    · rcases List.mem_cons.mp hx with rfl | hx
      · exact Or.inr ⟨x, List.mem_singleton_self x, .refl g x⟩
      · exact Or.inl hx
    · exact Or.inr ⟨v, List.mem_singleton_self v, (Reaches.single ((hvs y).mp hy)).trans hyx⟩

/-- Nodes are visited one after the other if each of them is visited from what was seen before. -/
theorem visited_foldl (f : Walk → String → Walk) (vs : List String) (hw : Sound g path w)
    (hvisit : ∀ t v, v ∈ vs → (∀ x ∈ w.seen, x ∈ t.seen) → Sound g path t → Visited g path t [v] (f t v)) :
    Visited g path w vs (vs.foldl f w) := by
  induction vs generalizing w with
  | nil => exact .refl hw
  | cons v vs ih =>
    have hfirst := hvisit w v List.mem_cons_self (fun _ hx => hx) hw
    refine hfirst.append (ih hfirst.sound fun t y hy hkeeps ht => ?_)
    exact hvisit t y (List.mem_cons_of_mem v hy) (fun x hx => hkeeps x (hfirst.keeps x hx)) ht

/-- The nodes that a walk has not seen. -/
def unseen (g : Graph) (w : Walk) : Finset String :=
  g.nodes.toFinset.filter (· ∉ w.seen)

/-- The nodes that were not seen. -/
theorem mem_unseen : v ∈ unseen g w ↔ v ∈ g.nodes ∧ v ∉ w.seen := by
  rw [unseen, Finset.mem_filter, List.mem_toFinset]

/-- Seeing a new node leaves fewer unseen. -/
theorem card_unseen_lt (hv : v ∈ g.nodes) (hnew : v ∉ w.seen)
    (hkeeps : ∀ x ∈ (w.enter v).seen, x ∈ t.seen) : (unseen g t).card < (unseen g w).card := by
  refine Finset.card_lt_card (Finset.ssubset_iff_of_subset ?_ |>.mpr ⟨v, ?_, ?_⟩)
  · intro x hx
    rw [mem_unseen] at hx ⊢
    exact ⟨hx.1, fun hseen => hx.2 (hkeeps x (List.mem_cons_of_mem v hseen))⟩
  · exact mem_unseen.mpr ⟨hv, hnew⟩
  · exact fun hmem => (mem_unseen.mp hmem).2 (hkeeps v List.mem_cons_self)

/-- A node is visited as long as paths may be followed for as many nodes as were not seen. -/
theorem visited_visit (hnext : ∀ v x, x ∈ next v ↔ g.depends v x) (fuel : Nat)
    (hw : Sound g path w) (hv : v ∈ g.nodes) (hpath : ∀ x ∈ path, g.Reaches x v)
    (hfuel : (unseen g w).card ≤ fuel) : Visited g path w [v] (visit next fuel w v) := by
  induction fuel generalizing path w v with
  | zero =>
    have hseen : v ∈ w.seen := by
      by_contra hnew
      have hpos := Finset.card_pos.mpr ⟨v, mem_unseen.mpr ⟨hv, hnew⟩⟩
      omega
    exact .of_seen hw hseen
  | succ fuel ih =>
    by_cases hseen : v ∈ w.seen
    · rw [visit_of_seen hseen]
      exact .of_seen hw hseen
    · rw [visit_of_not_seen hseen]
      refine .leave hw hseen hpath (hnext v) (visited_foldl _ _ (hw.enter hseen) ?_)
      intro t x hx hkeeps ht
      have hvx := (hnext v x).mp hx
      have hlt := card_unseen_lt hv hseen hkeeps
      refine ih ht (mem_nodes_of_depends hvx) (fun y hy => ?_) (by omega)
      rcases List.mem_cons.mp hy with rfl | hy
      · exact .single hvx
      · exact (hpath y hy).tail hvx

/-- Walking visits the given nodes. -/
theorem visited_walkOn (hnext : ∀ v x, x ∈ next v ↔ g.depends v x) (hw : Sound g [] w)
    (hvs : ∀ v ∈ vs, v ∈ g.nodes) : Visited g [] w vs (g.walkOn next w vs) := by
  refine visited_foldl _ vs hw fun t v hv _ ht => ?_
  refine visited_visit hnext g.pathBound ht (hvs v hv) (by simp) ?_
  exact (Finset.card_filter_le _ _).trans ((List.toFinset_card_le g.nodes).trans (Nat.le_succ _))

/-- Between walks the seen nodes are those done with. -/
theorem Sound.mem_seen_iff (hw : Sound g [] w) : v ∈ w.seen ↔ v ∈ w.done := by
  rw [hw.seen_iff, or_iff_right List.not_mem_nil]

/-- After visits a walk is done with what it was done with before and what the visited nodes reach. -/
theorem Visited.mem_done_iff (hw : Sound g [] w) (h : Visited g [] w vs t) :
    x ∈ t.done ↔ x ∈ w.done ∨ ∃ v ∈ vs, g.Reaches v x := by
  rw [← h.sound.mem_seen_iff, ← hw.mem_seen_iff]
  refine ⟨h.reached x, fun hx => ?_⟩
  rcases hx with hx | ⟨v, hv, hvx⟩
  · exact h.keeps x hx
  · -- What was seen is closed under dependencies.
    refine hvx.stays (fun y z hy hyz => ?_) (h.seen v hv)
    exact h.sound.explored y (h.sound.mem_seen_iff.mp hy) z hyz

end RepoAtlas.Graph.Walk
