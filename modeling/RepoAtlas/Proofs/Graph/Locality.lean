import RepoAtlas.Proofs.Graph.Sorting

/-!
# How little loosening changes

Loosening relies on nodes being on the stack when their group is completed, on the bound on paths, and on the
nodes of knots being keys. In the checked forms below a step fails where this does not hold; on every graph all
steps succeed. The interpreter's limit on recursion is not modelled: a visit goes as deep as a path is long.
-/

namespace RepoAtlas.Graph.Search

variable {g : Graph} {path done : List String} {s t : Search} {v w : String} {fuel low : Nat}

/-- Take nodes off a stack until a given one is taken. Nothing can be taken off an empty stack. -/
def takeDown? (v : String) : List String → Option (List String × List String)
  | [] => none
  | u :: rest =>
    if u = v then some ([u], rest)
    else (takeDown? v rest).map fun (taken, rest) => (u :: taken, rest)

/-- Complete a group by taking nodes off the stack one by one. -/
def complete? (s : Search) (v : String) : Option Search :=
  (takeDown? v s.stack).map fun (group, rest) =>
    { s with stack := rest, knots := if 1 < group.length then s.knots ++ [group] else s.knots }

/-- Follow a dependency where a visit may fail. -/
def follow? (visit? : Search → String → Option (Search × Nat)) (sofar : Search × Nat) (w : String) :
    Option (Search × Nat) :=
  match sofar.1.numbers.lookup w with
  | none => (visit? sofar.1 w).map fun (s, low) => (s, min sofar.2 low)
  | some n => some (if sofar.1.stack.contains w then (sofar.1, min sofar.2 n) else sofar)

/-- Visit a node that was not met. A path of more than `fuel` nodes makes the visit fail. -/
def visit? (g : Graph) : Nat → Search → String → Option (Search × Nat)
  | 0, _, _ => none
  | fuel + 1, s, v => do
    let (t, low) ← (g.successors v).foldlM (follow? (visit? g fuel)) (s.enter v, s.numbers.length)
    let u ← if low = s.numbers.length then t.complete? v else some t
    some (u, low)

/-- Visit a node unless it was met already, where the visit may fail. -/
def visitOnce? (g : Graph) (s : Search) (v : String) : Option Search :=
  match s.numbers.lookup v with
  | none => (visit? g g.pathBound s v).map (·.1)
  | some _ => some s

/-- A node on the stack can be taken, with all nodes above it. -/
theorem takeDown?_eq {stack : List String} (h : v ∈ stack) :
    takeDown? v stack = some (stack.takeWhile (· != v) ++ [v], (stack.dropWhile (· != v)).tail) := by
  induction stack with
  | nil => cases h
  | cons u rest ih =>
    by_cases huv : u = v
    · simp [takeDown?, huv]
    · have hrest : v ∈ rest := (List.mem_cons.mp h).resolve_left fun heq => huv heq.symm
      simp [takeDown?, huv, ih hrest]

/-- Taking nodes off succeeds if the last one to take is on the stack. -/
theorem complete?_eq (h : v ∈ t.stack) : t.complete? v = some (t.complete v) := by
  rw [complete?, takeDown?_eq h, Option.map_some, complete]

/-- Following a dependency succeeds if visiting does. -/
theorem follow?_eq {f : Search → String → Search × Nat} {f? : Search → String → Option (Search × Nat)}
    (hvisit : ¬t.Met w → f? t w = some (f t w)) : follow? f? (t, low) w = some (follow f (t, low) w) := by
  cases hlookup : t.numbers.lookup w with
  | none => simp only [follow?, follow, hlookup, hvisit (not_met_iff.mpr hlookup), Option.map_some]
  | some n => simp only [follow?, follow, hlookup]

/-- Dependencies are followed without failure, one after the other, if their visits do not fail. -/
theorem Following.foldlM_follow? (f : Search → String → Search × Nat) (f? : Search → String → Option (Search × Nat))
    (hs : Sound g path s) (hnew : ¬s.Met v) (ws : List String) (hws : ∀ w ∈ ws, g.depends v w)
    (hvisit : ∀ t w, Extends (s.enter v) t → Sound g (v :: path) t → g.depends v w → ¬t.Met w →
      f? t w = some (f t w) ∧ Visited g (v :: path) t w (f t w).1 (f t w).2)
    (h : Following g path s v done t low) :
    ws.foldlM (follow? f?) (t, low) = some (ws.foldl (follow f) (t, low)) := by
  induction ws generalizing done t low with
  | nil => rfl
  | cons w ws ih =>
    have hvw := hws w List.mem_cons_self
    have hnext := hvisit t w h.extends_enter h.sound hvw
    have hstep := h.step f hs hnew hvw fun hw => (hnext hw).2
    rw [List.foldlM_cons, follow?_eq fun hw => (hnext hw).1]
    exact ih (fun x hx => hws x (List.mem_cons_of_mem w hx)) hstep

/-- A visit does not fail if it begins with what it relies on. -/
theorem visit?_eq (h : Ready g path s v fuel) : visit? g fuel s v = some (visit g fuel s v) := by
  induction fuel generalizing path s v with
  | zero => exact absurd h.fuel_pos (Nat.lt_irrefl 0)
  | succ fuel ih =>
    have hbegin := following_enter h.sound h.fresh h.path_reaches
    have hsuccessors : ∀ w ∈ g.successors v, g.depends v w := fun w hw => depends_iff.mpr hw
    have hvisit : ∀ t w, Extends (s.enter v) t → Sound g (v :: path) t → g.depends v w → ¬t.Met w →
        visit? g fuel t w = some (visit g fuel t w) ∧
          Visited g (v :: path) t w (visit g fuel t w).1 (visit g fuel t w).2 := by
      intro t w hext hsound hvw hw
      have hready := h.dependency hext hsound hvw hw
      exact ⟨ih hready, visit_spec hready⟩
    have hfold := hbegin.foldlM_follow? (visit g fuel) (visit? g fuel) h.sound h.fresh
      (g.successors v) hsuccessors hvisit
    have hfollowed := hbegin.foldl (visit g fuel) h.sound h.fresh (g.successors v)
      hsuccessors fun t w hext hsound hvw hw => (hvisit t w hext hsound hvw hw).2
    -- Following dependencies leaves the node that was entered on the stack.
    have hstack := hfollowed.extends_enter.mem_stack (List.mem_cons_self (a := v) (l := s.stack))
    simp only [visit?, hfold, visit, Option.bind_eq_bind, Option.bind_some]
    split
    · rw [complete?_eq hstack, Option.bind_some]
    · rfl

/-- The visit of a key succeeds. -/
theorem visitOnce?_eq (hs : Sound g [] s) (hv : v ∈ g.keys) : visitOnce? g s v = some (visitOnce g s v) := by
  cases hlookup : s.numbers.lookup v with
  | none =>
    have hvisit := visit?_eq (hs.ready hv (not_met_iff.mpr hlookup))
    simp only [visitOnce?, visitOnce, hlookup, hvisit, Option.map_some]
  | some n => simp only [visitOnce?, visitOnce, hlookup]

/-- So do visits of keys in turn. -/
theorem foldlM_visitOnce? (vs : List String) (hvs : ∀ v ∈ vs, v ∈ g.keys) (hs : Sound g [] s) :
    vs.foldlM (visitOnce? g) s = some (vs.foldl (visitOnce g) s) := by
  induction vs generalizing s with
  | nil => rfl
  | cons v vs ih =>
    have hv := hvs v List.mem_cons_self
    rw [List.foldlM_cons, visitOnce?_eq hs hv]
    exact ih (fun w hw => hvs w (List.mem_cons_of_mem v hw)) (visitOnce_spec hs hv).1

end RepoAtlas.Graph.Search

namespace RepoAtlas.Graph

variable {g : Graph} {k : List String} {v w : String}

/-- The knots, found by visits that may fail. -/
def knots? (g : Graph) : Option (List (List String)) :=
  (g.keys.foldlM (Search.visitOnce? g) {}).map (·.knots)

/-- Remove the first dependency between two neighbours of a list. Looking up what a node depends on
fails if the node is no key. -/
def cutOnce? (g : Graph) : List String → Option Graph
  | v :: w :: rest => do
    let ds ← g.edges.get? v
    if ds.contains w then some (g.removeEdge v w) else g.cutOnce? (w :: rest)
  | _ => some g

/-- The loosened graph, found by steps that may fail. -/
def loosened? (g : Graph) : Option Graph := do
  let ks ← g.knots?
  ks.foldlM cutOnce? g

/-- Finding the knots succeeds. -/
theorem knots?_eq (g : Graph) : g.knots? = some g.knots := by
  rw [knots?, Search.foldlM_visitOnce? g.keys (fun _ hv => hv) (Search.sound_start g), Option.map_some, knots]

/-- The nodes of a knot are keys. -/
theorem mem_keys_of_mem_knots (hk : k ∈ g.knots) (hv : v ∈ k) : v ∈ g.keys := by
  obtain ⟨w, hw, hwv⟩ := exists_ne_of_mem_knot hk v
  exact ((mem_knot_iff hk hv).mp hw).1.mem_keys hwv.symm

/-- A cut among keys succeeds. -/
theorem cutOnce?_eq (hkeys : ∀ v ∈ k, v ∈ g.keys) : g.cutOnce? k = some (g.cutOnce k) := by
  induction k with
  | nil => rfl
  | cons v rest ih =>
    cases rest with
    | nil => rfl
    | cons w rest =>
      have hkey : g.edges.has v := (g.edges.has_iff_mem_keys v).mpr (hkeys v List.mem_cons_self)
      obtain ⟨ds, hds⟩ := Option.isSome_iff_exists.mp hkey
      have hdepends : ds.contains w = g.depends v w := by
        rw [depends, successors, hds, Option.getD_some]
      have htail := ih fun u hu => hkeys u (List.mem_cons_of_mem v hu)
      simp only [cutOnce?, hds, Option.bind_eq_bind, Option.bind_some, hdepends, htail]
      by_cases hvw : g.depends v w
      · simp only [cutOnce, cut?, hvw, if_true]
      · simp only [cutOnce, cut?, hvw, Bool.false_eq_true, if_false]

/-- So do several cuts. -/
theorem foldlM_cutOnce? (ks : List (List String)) (hkeys : ∀ k ∈ ks, ∀ v ∈ k, v ∈ g.keys) :
    ks.foldlM cutOnce? g = some (ks.foldl cutOnce g) := by
  induction ks generalizing g with
  | nil => rfl
  | cons k ks ih =>
    rw [List.foldlM_cons, cutOnce?_eq (hkeys k List.mem_cons_self)]
    refine ih fun l hl v hv => ?_
    rw [keys_cutOnce]
    exact hkeys l (List.mem_cons_of_mem k hl) v hv

/-- Loosening succeeds. -/
theorem loosened?_eq (g : Graph) : g.loosened? = some g.loosened := by
  rw [loosened?, knots?_eq]
  exact foldlM_cutOnce? g.knots fun _ hk _ hv => mem_keys_of_mem_knots hk hv

/-- The graph has a dependency that the loosened graph lacks. -/
def Removed (g : Graph) (v w : String) : Prop :=
  g.depends v w ∧ ¬g.loosened.depends v w

/-- What is removed is what is cut in the knots. -/
theorem removed_iff : g.Removed v w ↔ ∃ k ∈ g.knots, g.cut? k = some (v, w) := by
  constructor
  · rintro ⟨hvw, hgone⟩
    by_contra hnone
    exact hgone (depends_loosened.mpr ⟨hvw, fun k hk hcut => hnone ⟨k, hk, hcut⟩⟩)
  · rintro ⟨k, hk, hcut⟩
    exact ⟨(neighbours_of_cut? hcut).2, fun hkept => (depends_loosened.mp hkept).2 k hk hcut⟩

/-- What is removed leads from one node to another of a component with two nodes or more. -/
theorem Removed.exists_isKnot (h : g.Removed v w) : ∃ c, g.IsKnot c ∧ v ∈ c ∧ w ∈ c := by
  obtain ⟨k, hk, hcut⟩ := removed_iff.mp h
  exact ⟨{x | x ∈ k}, isKnot_of_mem_knots hk, mem_of_cut? hcut⟩

/-- The nodes of a knot are tied. -/
theorem IsKnot.tied {c : Set String} (hc : g.IsKnot c) (hv : v ∈ c) (hw : w ∈ c) : g.Tied v w := by
  obtain ⟨-, u, rfl⟩ := hc
  exact ⟨hv.2.trans hw.1, hw.2.trans hv.1⟩

/-- From a component at most one dependency is removed. -/
theorem IsKnot.removed_subsingleton {c : Set String} (hc : g.IsKnot c) :
    {e : String × String | g.Removed e.1 e.2 ∧ e.1 ∈ c}.Subsingleton := by
  obtain ⟨k, hk, rfl⟩ := hc.exists_mem_knots
  -- A cut with its first end in `k` is the cut of `k`, as no other knot has that node.
  have hcut : ∀ v w, g.Removed v w → v ∈ k → g.cut? k = some (v, w) := by
    intro v w hremoved hv
    obtain ⟨l, hl, hcut⟩ := removed_iff.mp hremoved
    rwa [eq_of_mem_knots hl hk (mem_of_cut? hcut).1 hv] at hcut
  rintro ⟨v, w⟩ ⟨hvw, hv⟩ ⟨x, y⟩ ⟨hxy, hx⟩
  exact Option.some.inj ((hcut v w hvw hv).symm.trans (hcut x y hxy hx))

/-- Loosening succeeds on every graph, keeps the keys, adds no dependency and removes at most one from each
component with two nodes or more, between two of its nodes. -/
theorem loosening_changes_little (g : Graph) :
    g.loosened? = some g.loosened ∧ g.loosened.keys = g.keys ∧
      (∀ v w, g.loosened.depends v w → g.depends v w) ∧
      (∀ v w, g.Removed v w ↔ ∃ k ∈ g.knots, g.cut? k = some (v, w)) ∧
      (∀ c, g.IsKnot c → {e : String × String | g.Removed e.1 e.2 ∧ e.1 ∈ c}.Subsingleton) ∧
      (∀ v w, g.Removed v w → ∃ c, g.IsKnot c ∧ v ∈ c ∧ w ∈ c) ∧
      (∀ v w, g.depends v w → ¬g.Tied v w → g.loosened.depends v w) ∧
      ∀ v, g.depends v v → g.loosened.depends v v := by
  refine ⟨loosened?_eq g, keys_loosened g, fun v w => depends_of_depends_loosened,
    fun v w => removed_iff, fun c hc => hc.removed_subsingleton, fun v w h => h.exists_isKnot, ?_,
    fun v => depends_self_loosened⟩
  intro v w hvw hapart
  by_contra hgone
  obtain ⟨c, hc, hv, hw⟩ := Removed.exists_isKnot ⟨hvw, hgone⟩
  exact hapart (hc.tied hv hw)

end RepoAtlas.Graph
