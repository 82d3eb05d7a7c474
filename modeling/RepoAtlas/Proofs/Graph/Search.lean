import Mathlib.Data.List.Pairwise
import RepoAtlas.Graph.Cycle
import RepoAtlas.Proofs.Graph.Reachability

/-!
# What a search for knots keeps true

Between two steps there is a path of nodes whose visits are not finished. Nodes on the stack reach those met
after them and reach back to the path; what has left the stack depends only on what has left it too.
-/

namespace RepoAtlas.Graph.Search

variable {g : Graph} {path : List String} {s t u : Search} {v w : String} {n : Nat}

/-- The search has given a node a number. -/
def Met (s : Search) (v : String) : Prop :=
  ∃ n, s.numbers.lookup v = some n

/-- The number of a node that was met. -/
def number (s : Search) (v : String) : Nat :=
  (s.numbers.lookup v).getD 0

/-- A node was met and has left the stack, so that its group is complete. -/
def Settled (s : Search) (v : String) : Prop :=
  s.Met v ∧ v ∉ s.stack

/-- A node that was met has its number. -/
theorem Met.lookup (h : s.Met v) : s.numbers.lookup v = some (s.number v) := by
  obtain ⟨n, hn⟩ := h
  rw [number, hn, Option.getD_some]

/-- A node was not met if it has no number. -/
theorem not_met_iff : ¬s.Met v ↔ s.numbers.lookup v = none := by
  rw [Option.eq_none_iff_forall_ne_some]
  exact not_exists

/-- A node that is met gets the next number. -/
theorem lookup_enter_self (s : Search) (v : String) : (s.enter v).numbers.lookup v = some s.numbers.length :=
  List.lookup_cons_self

/-- The others keep theirs. -/
theorem lookup_enter_of_ne (s : Search) (h : w ≠ v) : (s.enter v).numbers.lookup w = s.numbers.lookup w := by
  have hbeq : (w == v) = false := beq_eq_false_iff_ne.mpr h
  rw [enter, List.lookup_cons, hbeq]

/-- Meeting a node adds it to those that were met. -/
theorem met_enter : (s.enter v).Met w ↔ w = v ∨ s.Met w := by
  by_cases h : w = v
  · subst h
    exact ⟨fun _ => Or.inl rfl, fun _ => ⟨_, lookup_enter_self s w⟩⟩
  · rw [Met, lookup_enter_of_ne s h, or_iff_right h, Met]

/-- The number of a node that is met is the next one. -/
theorem number_enter_self (s : Search) (v : String) : (s.enter v).number v = s.numbers.length := by
  rw [number, lookup_enter_self, Option.getD_some]

/-- The numbers of the others do not change. -/
theorem number_enter_of_ne (s : Search) (h : w ≠ v) : (s.enter v).number w = s.number w := by
  rw [number, lookup_enter_of_ne s h, number]

/-- A later state of a search keeps the numbers, and has only new nodes above the former stack. -/
structure Extends (s t : Search) : Prop where
  numbers : ∀ w n, s.numbers.lookup w = some n → t.numbers.lookup w = some n
  stack : ∃ new, t.stack = new ++ s.stack ∧ ∀ w ∈ new, ¬s.Met w

namespace Extends

/-- Nodes stay met. -/
theorem met (h : Extends s t) (hv : s.Met v) : t.Met v :=
  ⟨_, h.numbers _ _ hv.lookup⟩

/-- Nodes keep their numbers. -/
theorem number_eq (h : Extends s t) (hv : s.Met v) : t.number v = s.number v := by
  rw [number, h.numbers _ _ hv.lookup, Option.getD_some]

/-- The former stack remains. -/
theorem mem_stack (h : Extends s t) (hv : v ∈ s.stack) : v ∈ t.stack := by
  obtain ⟨new, hnew, -⟩ := h.stack
  rw [hnew]
  exact List.mem_append_right new hv

/-- A state extends itself. -/
theorem refl (s : Search) : Extends s s where
  numbers _ _ hn := hn
  stack := ⟨[], rfl, by simp⟩

/-- What extends an extension extends the first state. -/
theorem trans (hst : Extends s t) (htu : Extends t u) : Extends s u where
  numbers w n hn := htu.numbers w n (hst.numbers w n hn)
  stack := by
    obtain ⟨new, hnew, hmet⟩ := hst.stack
    obtain ⟨newer, hnewer, hmeter⟩ := htu.stack
    refine ⟨newer ++ new, by rw [hnewer, hnew, List.append_assoc], ?_⟩
    intro w hw
    rcases List.mem_append.mp hw with hw | hw
    · exact fun h => hmeter w hw (hst.met h)
    · exact hmet w hw

/-- Meeting a new node extends a search. -/
theorem enter (hnew : ¬s.Met v) : Extends s (s.enter v) where
  numbers w n hn := by
    have hne : w ≠ v := fun h => hnew (h ▸ ⟨n, hn⟩)
    rw [lookup_enter_of_ne s hne]
    exact hn
  stack := ⟨[v], rfl, by simpa using hnew⟩

end Extends

/-- The knots of a state are the larger classes of tied nodes among the settled ones. -/
structure Knotted (g : Graph) (s : Search) : Prop where
  nodup : ∀ k ∈ s.knots, k.Nodup
  large : ∀ k ∈ s.knots, 1 < k.length
  settled : ∀ k ∈ s.knots, ∀ v ∈ k, s.Settled v
  component : ∀ k ∈ s.knots, ∀ v ∈ k, ∀ w, w ∈ k ↔ g.Tied v w
  complete : ∀ v w, s.Settled v → v ≠ w → g.Tied v w → ∃ k ∈ s.knots, v ∈ k
  disjoint : s.knots.Pairwise List.Disjoint

/-- What is true of a search while the nodes of `path` are being visited. -/
structure Sound (g : Graph) (path : List String) (s : Search) : Prop where
  bounded : ∀ v n, s.numbers.lookup v = some n → n < s.numbers.length
  met : ∀ v ∈ s.stack, s.Met v
  ordered : s.stack.Pairwise fun v w => s.number w < s.number v
  onStack : ∀ v ∈ path, v ∈ s.stack
  explored : ∀ v w, s.Met v → v ∉ path → g.depends v w → s.Met w
  closed : ∀ v w, s.Settled v → g.depends v w → s.Settled w
  forth : ∀ v ∈ s.stack, ∀ w ∈ s.stack, s.number v ≤ s.number w → g.Reaches v w
  back : ∀ w ∈ s.stack, ∃ v ∈ path, s.number v ≤ s.number w ∧ g.Reaches w v
  knotted : Knotted g s

/-- A search is sound at the beginning. -/
theorem sound_start (g : Graph) : Sound g [] {} where
  bounded := by simp
  met := by simp
  ordered := .nil
  onStack := by simp
  explored := by simp [Met]
  closed := by simp [Settled, Met]
  forth := by simp
  back := by simp
  knotted := ⟨by simp, by simp, by simp, by simp, by simp [Settled, Met], .nil⟩

namespace Sound

/-- Numbers are less than the next one. -/
theorem number_lt (h : Sound g path s) (hv : s.Met v) : s.number v < s.numbers.length :=
  h.bounded _ _ hv.lookup

/-- No node is on the stack twice. -/
theorem nodup_stack (h : Sound g path s) : s.stack.Nodup :=
  h.ordered.imp fun hlt heq => by simp [heq] at hlt

/-- What is settled reaches only what is settled. -/
theorem settled_of_reaches (h : Sound g path s) (hv : s.Settled v) (hvw : g.Reaches v w) : s.Settled w :=
  hvw.stays (h.closed) hv

/-- Once no visit is under way, everything that was met is settled. -/
theorem stack_eq_nil (h : Sound g [] s) : s.stack = [] := by
  rw [List.eq_nil_iff_forall_not_mem]
  intro w hw
  obtain ⟨v, hv, -⟩ := h.back w hw
  exact List.not_mem_nil hv

end Sound

end RepoAtlas.Graph.Search
