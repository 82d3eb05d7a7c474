import Mathlib.Data.Finset.Card
import RepoAtlas.Proofs.Graph.Search

/-!
# What a visit does

A visit enters a node, follows its dependencies and completes a group if it came upon no lesser number. Each of
the three steps keeps a search sound.
-/

namespace RepoAtlas.Graph.Search

variable {g : Graph} {path done : List String} {s t : Search} {v w : String} {n low : Nat}

/-- Meeting a new node settles nothing. -/
theorem settled_enter (hnew : ¬s.Met v) : (s.enter v).Settled w ↔ s.Settled w := by
  constructor
  · rintro ⟨hmet, hoff⟩
    have hwv : w ≠ v := fun heq => hoff (heq ▸ List.mem_cons_self)
    exact ⟨(met_enter.mp hmet).resolve_left hwv, fun hw => hoff (List.mem_cons_of_mem v hw)⟩
  · rintro ⟨hmet, hoff⟩
    refine ⟨met_enter.mpr (Or.inr hmet), fun hw => ?_⟩
    exact (List.mem_cons.mp hw).elim (fun heq => hnew (heq ▸ hmet)) hoff

/-- Entering a node adds no knot and settles nothing, so the knots stay right. -/
theorem Knotted.enter (h : Knotted g s) (hnew : ¬s.Met v) : Knotted g (s.enter v) where
  nodup := h.nodup
  large := h.large
  settled k hk w hw := (settled_enter hnew).mpr (h.settled k hk w hw)
  component := h.component
  complete x y hx := h.complete x y ((settled_enter hnew).mp hx)
  disjoint := h.disjoint

/-- A search stays sound when it enters a node that every node of the path reaches. -/
theorem Sound.enter (h : Sound g path s) (hnew : ¬s.Met v) (hpath : ∀ u ∈ path, g.Reaches u v) :
    Sound g (v :: path) (s.enter v) := by
  have hkeep : ∀ w, s.Met w → (s.enter v).number w = s.number w :=
    fun w hw => number_enter_of_ne s fun heq => hnew (heq ▸ hw)
  have hreach : ∀ w ∈ s.stack, g.Reaches w v := by
    intro w hw
    obtain ⟨u, hu, -, hwu⟩ := h.back w hw
    exact hwu.trans (hpath u hu)
  refine ⟨?_, ?_, ?_, ?_, ?_, ?_, ?_, ?_, h.knotted.enter hnew⟩
  · intro w n hn
    change n < s.numbers.length + 1
    by_cases hwv : w = v
    · subst hwv
      rw [lookup_enter_self] at hn
      exact Option.some.inj hn ▸ Nat.lt_succ_self _
    · rw [lookup_enter_of_ne s hwv] at hn
      exact Nat.lt_succ_of_lt (h.bounded w n hn)
  · intro w hw
    exact met_enter.mpr ((List.mem_cons.mp hw).imp_right (h.met w))
  · refine List.pairwise_cons.mpr ⟨?_, ?_⟩
    · intro w hw
      rw [number_enter_self, hkeep w (h.met w hw)]
      exact h.number_lt (h.met w hw)
    · refine h.ordered.imp_of_mem ?_
      intro x y hx hy hxy
      rw [hkeep x (h.met x hx), hkeep y (h.met y hy)]
      exact hxy
  · intro w hw
    exact List.mem_cons.mpr ((List.mem_cons.mp hw).imp_right (h.onStack w))
  · intro x y hx hoff hxy
    obtain ⟨hxv, hxp⟩ := not_or.mp (fun h => hoff (List.mem_cons.mpr h))
    have hmet := (met_enter.mp hx).resolve_left hxv
    exact met_enter.mpr (Or.inr (h.explored x y hmet hxp hxy))
  · intro x y hx hxy
    exact (settled_enter hnew).mpr (h.closed x y ((settled_enter hnew).mp hx) hxy)
  · intro x hx y hy hle
    rcases List.mem_cons.mp hx with hxv | hxs
    · rcases List.mem_cons.mp hy with hyv | hys
      · rw [hxv, hyv]
        exact .refl g v
      · rw [hxv, number_enter_self, hkeep y (h.met y hys)] at hle
        exact absurd (h.number_lt (h.met y hys)) (Nat.not_lt.mpr hle)
    · rcases List.mem_cons.mp hy with hyv | hys
      · rw [hyv]
        exact hreach x hxs
      · rw [hkeep x (h.met x hxs), hkeep y (h.met y hys)] at hle
        exact h.forth x hxs y hys hle
  · intro w hw
    rcases List.mem_cons.mp hw with rfl | hw
    · exact ⟨w, List.mem_cons_self, le_rfl, .refl g w⟩
    · obtain ⟨u, hu, hle, hwu⟩ := h.back w hw
      refine ⟨u, List.mem_cons_of_mem v hu, ?_, hwu⟩
      rw [hkeep u (h.met u (h.onStack u hu)), hkeep w (h.met w hw)]
      exact hle

/-- What holds after the visit of `v` has followed the dependencies in `done`: it stands above the
stack of `s`, and the least number come upon bounds every number that it leads back to there. -/
structure Following (g : Graph) (path : List String) (s : Search) (v : String) (done : List String)
    (t : Search) (low : Nat) : Prop where
  extends_enter : Extends (s.enter v) t
  sound : Sound g (v :: path) t
  low_le : low ≤ s.numbers.length
  reached : low = s.numbers.length ∨ ∃ y ∈ s.stack, s.number y = low ∧ g.Reaches v y
  above : ∀ x ∈ t.stack, x ∉ v :: s.stack → ∀ y ∈ s.stack, g.depends x y → low ≤ s.number y
  followed : ∀ w ∈ done, t.Met w ∧ (w ∈ s.stack → low ≤ s.number w)

/-- What holds after a visit of `v`. -/
structure Visited (g : Graph) (path : List String) (s : Search) (v : String) (t : Search)
    (low : Nat) : Prop where
  extends_start : Extends s t
  sound : Sound g path t
  met : t.Met v
  reached : low = s.numbers.length ∨ ∃ y ∈ s.stack, s.number y = low ∧ g.Reaches v y
  above : ∀ x ∈ t.stack, x ∉ s.stack → ∀ y ∈ s.stack, g.depends x y → low ≤ s.number y

/-- A visit begins with no dependency followed. -/
theorem following_enter (h : Sound g path s) (hnew : ¬s.Met v)
    (hpath : ∀ u ∈ path, g.Reaches u v) :
    Following g path s v [] (s.enter v) s.numbers.length where
  extends_enter := .refl _
  sound := h.enter hnew hpath
  low_le := le_rfl
  reached := Or.inl rfl
  above x hx hoff := absurd hx hoff
  followed := by simp

namespace Following

/-- The node that is visited was met. -/
theorem met_self (h : Following g path s v done t low) : t.Met v :=
  h.extends_enter.met (met_enter.mpr (Or.inl rfl))

/-- Its number is the first one of the visit. -/
theorem number_self (h : Following g path s v done t low) : t.number v = s.numbers.length := by
  rw [h.extends_enter.number_eq (met_enter.mpr (Or.inl rfl)), number_enter_self]

/-- The former stack remains below it. -/
theorem mem_stack (h : Following g path s v done t low) (hw : w ∈ s.stack) : w ∈ t.stack :=
  h.extends_enter.mem_stack (List.mem_cons_of_mem v hw)

/-- What was on the stack keeps its number. -/
theorem number_eq (h : Following g path s v done t low) (hs : Sound g path s) (hnew : ¬s.Met v)
    (hw : w ∈ s.stack) : t.number w = s.number w := by
  have hmet := hs.met w hw
  have hne : w ≠ v := fun heq => hnew (heq ▸ hmet)
  rw [h.extends_enter.number_eq (met_enter.mpr (Or.inr hmet)), number_enter_of_ne s hne]

/-- New nodes stand above it on the stack. -/
theorem stack_eq (h : Following g path s v done t low) : ∃ new, t.stack = new ++ v :: s.stack := by
  obtain ⟨new, hstack, -⟩ := h.extends_enter.stack
  exact ⟨new, hstack⟩

/-- Nodes that are not on the former stack have no lesser number than the node that is visited. -/
theorem le_number (h : Following g path s v done t low) (hw : w ∈ t.stack) (hoff : w ∉ s.stack) :
    s.numbers.length ≤ t.number w := by
  obtain ⟨new, hstack⟩ := h.stack_eq
  have hordered := h.sound.ordered
  rw [hstack] at hordered hw
  rw [← h.number_self]
  rcases List.mem_append.mp hw with hw | hw
  · exact ((List.pairwise_append.mp hordered).2.2 w hw v List.mem_cons_self).le
  · rcases List.mem_cons.mp hw with rfl | hw
    · exact le_rfl
    · exact absurd hw hoff

/-- A number less than that of the visited node belongs to a node of the former stack. -/
theorem mem_of_number_lt (h : Following g path s v done t low) (hw : w ∈ t.stack)
    (hlt : t.number w < s.numbers.length) : w ∈ s.stack := by
  by_contra hoff
  exact absurd hlt (Nat.not_lt.mpr (h.le_number hw hoff))

/-- A dependency that was not met is visited. -/
theorem visit (h : Following g path s v done t low) (hs : Sound g path s) (hnew : ¬s.Met v)
    (hvw : g.depends v w) (hw : ¬t.Met w) {t' : Search} {low' : Nat}
    (hvisit : Visited g (v :: path) t w t' low') :
    Following g path s v (done ++ [w]) t' (min low low') where
  extends_enter := h.extends_enter.trans hvisit.extends_start
  sound := hvisit.sound
  low_le := (Nat.min_le_left low low').trans h.low_le
  reached := by
    rcases Nat.le_total low low' with hle | hle
    · rw [Nat.min_eq_left hle]
      exact h.reached
    · rw [Nat.min_eq_right hle]
      rcases hvisit.reached with heq | ⟨y, hy, hnumber, hwy⟩
      · have hlt := h.sound.number_lt h.met_self
        rw [h.number_self, ← heq] at hlt
        exact absurd (hle.trans h.low_le) (Nat.not_le.mpr hlt)
      · rcases Nat.lt_or_ge low' s.numbers.length with hlt | hge
        · have hys := h.mem_of_number_lt hy (hnumber ▸ hlt)
          rw [h.number_eq hs hnew hys] at hnumber
          exact Or.inr ⟨y, hys, hnumber, (Reaches.single hvw).trans hwy⟩
        · exact Or.inl (le_antisymm (hle.trans h.low_le) hge)
  above := by
    intro x hx hoff y hy hxy
    by_cases hxt : x ∈ t.stack
    · exact (Nat.min_le_left low low').trans (h.above x hxt hoff y hy hxy)
    · have hle := hvisit.above x hx hxt y (h.mem_stack hy) hxy
      rw [h.number_eq hs hnew hy] at hle
      exact (Nat.min_le_right low low').trans hle
  followed := by
    intro x hx
    rcases List.mem_append.mp hx with hx | hx
    · obtain ⟨hmet, hle⟩ := h.followed x hx
      exact ⟨hvisit.extends_start.met hmet, fun hxs => (Nat.min_le_left low low').trans (hle hxs)⟩
    · rw [List.mem_singleton.mp hx]
      exact ⟨hvisit.met, fun hws => absurd (h.sound.met w (h.mem_stack hws)) hw⟩

/-- The number of a dependency on the stack counts. -/
theorem onStack (h : Following g path s v done t low) (hs : Sound g path s) (hnew : ¬s.Met v)
    (hvw : g.depends v w) (hw : w ∈ t.stack) :
    Following g path s v (done ++ [w]) t (min low (t.number w)) where
  extends_enter := h.extends_enter
  sound := h.sound
  low_le := (Nat.min_le_left _ _).trans h.low_le
  reached := by
    rcases Nat.lt_or_ge (t.number w) low with hlt | hle
    · rw [Nat.min_eq_right hlt.le]
      have hws := h.mem_of_number_lt hw (hlt.trans_le h.low_le)
      exact Or.inr ⟨w, hws, (h.number_eq hs hnew hws).symm, .single hvw⟩
    · rw [Nat.min_eq_left hle]
      exact h.reached
  above x hx hoff y hy hxy := (Nat.min_le_left _ _).trans (h.above x hx hoff y hy hxy)
  followed := by
    intro x hx
    rcases List.mem_append.mp hx with hx | hx
    · obtain ⟨hmet, hle⟩ := h.followed x hx
      exact ⟨hmet, fun hxs => (Nat.min_le_left _ _).trans (hle hxs)⟩
    · rw [List.mem_singleton.mp hx]
      refine ⟨h.sound.met w hw, fun hws => ?_⟩
      rw [← h.number_eq hs hnew hws]
      exact Nat.min_le_right _ _

/-- A dependency that is settled does not matter. -/
theorem settled (h : Following g path s v done t low) (hw : t.Settled w) :
    Following g path s v (done ++ [w]) t low where
  extends_enter := h.extends_enter
  sound := h.sound
  low_le := h.low_le
  reached := h.reached
  above := h.above
  followed := by
    intro x hx
    rcases List.mem_append.mp hx with hx | hx
    · exact h.followed x hx
    · rw [List.mem_singleton.mp hx]
      exact ⟨hw.1, fun hws => absurd (h.mem_stack hws) hw.2⟩

/-- One dependency is followed, provided that visits of nodes that were not met are right. -/
theorem step (f : Search → String → Search × Nat) (h : Following g path s v done t low) (hs : Sound g path s)
    (hnew : ¬s.Met v) (hvw : g.depends v w) (hvisit : ¬t.Met w → Visited g (v :: path) t w (f t w).1 (f t w).2) :
    Following g path s v (done ++ [w]) (follow f (t, low) w).1 (follow f (t, low) w).2 := by
  cases hlookup : t.numbers.lookup w with
  | none =>
    have hw : ¬t.Met w := not_met_iff.mpr hlookup
    simpa only [follow, hlookup] using h.visit hs hnew hvw hw (hvisit hw)
  | some n =>
    have hn : t.number w = n := by rw [number, hlookup, Option.getD_some]
    by_cases hw : w ∈ t.stack
    · simpa only [follow, hlookup, List.contains_iff_mem.mpr hw, if_true, hn] using
        h.onStack hs hnew hvw hw
    · have hcontains : t.stack.contains w = false := by simpa using hw
      simpa only [follow, hlookup, hcontains, Bool.false_eq_true, if_false] using
        h.settled ⟨⟨n, hlookup⟩, hw⟩

/-- Following dependencies in turn keeps what holds of a visit. -/
theorem foldl (f : Search → String → Search × Nat) (hs : Sound g path s) (hnew : ¬s.Met v) (ws : List String)
    (hws : ∀ w ∈ ws, g.depends v w)
    (hvisit : ∀ t w, Extends (s.enter v) t → Sound g (v :: path) t → g.depends v w → ¬t.Met w →
      Visited g (v :: path) t w (f t w).1 (f t w).2)
    (h : Following g path s v done t low) :
    Following g path s v (done ++ ws) (ws.foldl (follow f) (t, low)).1 (ws.foldl (follow f) (t, low)).2 := by
  induction ws generalizing done t low with
  | nil => simpa using h
  | cons w ws ih =>
    have hvw := hws w List.mem_cons_self
    have hstep := h.step f hs hnew hvw (hvisit t w h.extends_enter h.sound hvw)
    have hrest := ih (fun x hx => hws x (List.mem_cons_of_mem w hx)) hstep
    rwa [List.append_assoc, List.singleton_append] at hrest

end Following

end RepoAtlas.Graph.Search
