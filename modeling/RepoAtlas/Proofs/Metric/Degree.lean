import Mathlib.Algebra.BigOperators.Group.List.Basic
import Mathlib.Algebra.GroupWithZero.Nat
import RepoAtlas.Metric.Graph
import RepoAtlas.Proofs.CallGraph.Inventory
import RepoAtlas.Proofs.Graph.Reachability
import RepoAtlas.Proofs.Keyed

/-!
# Dependents and dependencies

Measuring counts for each component its dependents and its dependencies. Where every dependency is a component,
each is counted once where it begins and once where it ends, so both counts have the same sum.
-/

namespace RepoAtlas.Metric

open Inventory

variable {α β : Type} {g : Graph} {cs : Components}

/-- What a component depends on, and its two counts. -/
structure Tally where
  dependsOn : List String
  fanIn : Nat
  fanOut : Nat

/-- The tally of a component. -/
def tally (c : Component) : Tally :=
  ⟨c.dependsOn, c.fanIn, c.fanOut⟩

/-- The components that depend on a given one, itself included. -/
def dependents (cs : Components) (id : String) : List Component :=
  cs.values.filter (·.dependsOn.contains id)

/-- Assigning values keeps what they do not bear on. -/
theorem map_assign (values : List (String × α)) {f : Component → α → Component}
    (aspect : Component → β) (hf : ∀ c a, aspect (f c a) = aspect c) (cs : Components) :
    (assign values f cs).map (fun _ => aspect) = cs.map fun _ => aspect := by
  induction values generalizing cs with
  | nil => rfl
  | cons entry values ih =>
    obtain ⟨v, a⟩ := entry
    change (assign values f (cs.modify v (f · a))).map _ = _
    rw [ih, Keyed.map_modify cs v aspect fun c => hf c a]

/-- Where a value replaces an earlier one, giving values by name changes the components named. -/
theorem assign_map (names : List String) (value : String → α) {f : Component → α → Component}
    (hf : ∀ c a, f (f c a) a = f c a) (cs : Components) :
    assign (names.map fun v => (v, value v)) f cs = cs.map fun k c => if k ∈ names then f c (value k) else c := by
  induction names generalizing cs with
  | nil =>
    apply Keyed.ext_entries
    change cs.entries = cs.entries.map _
    simp
  | cons v names ih =>
    change assign (names.map _) f (cs.modify v (f · (value v))) = _
    rw [ih]
    apply Keyed.ext_entries
    change (cs.entries.map _).map _ = cs.entries.map _
    rw [List.map_map]
    refine List.map_congr_left fun entry _ => ?_
    obtain ⟨k, c⟩ := entry
    by_cases hkv : k = v
    · subst hkv
      by_cases hk : k ∈ names
      · simp [hk, hf]
      · simp [hk]
    · simp [hkv]

/-- Each node gets its counts, other components stay. -/
theorem withFans_eq (g : Graph) (cs : Components) :
    withFans g cs = cs.map fun k c =>
      if k ∈ g.nodes then
        { c with fanIn := fanIn g k, fanOut := fanOut g k,
                 instability := instability (fanIn g k) (fanOut g k) }
      else c := by
  refine assign_map g.nodes (fun v => (fanIn g v, fanOut g v)) ?_ cs
  intro c counts
  rfl

/-- After counting, no measure touches the tallies. -/
theorem map_tally_measured_of_nodes (hnodes : g.nodes ≠ []) (k : Knowledge) (cs : Components) :
    (measured g k cs).map (fun _ => tally) = (withFans g cs).map fun _ => tally := by
  have hbetween : ∀ cs : Components,
      (if k.betweennessFails then cs
        else assign (betweenness g) (fun c x => { c with betweenness := x }) cs).map
          (fun _ => tally) = cs.map fun _ => tally := by
    intro cs
    split
    · rfl
    · apply map_assign
      intro c x
      rfl
  have hhubs : ∀ cs : Components, (withHubs g cs).map (fun _ => tally) = cs.map fun _ => tally := by
    intro cs
    apply map_assign
    intro c b
    rfl
  unfold measured
  rw [if_neg (by simpa using hnodes)]
  refine (map_assign _ tally ?_ _).trans ((hhubs _).trans ((map_assign _ tally ?_ _).trans
    (hbetween _)))
  · intro c community
    rfl
  · intro c rank
    rfl

/-- Measuring gives each component its counts and leaves its dependencies as they are. -/
theorem map_tally_measured (hkeys : ∀ id ∈ cs.keys, id ∈ g.nodes) (k : Knowledge) :
    (measured g k cs).map (fun _ => tally) = cs.map fun id c => ⟨c.dependsOn, fanIn g id, fanOut g id⟩ := by
  by_cases hnodes : g.nodes = []
  · have hempty : cs.entries = [] := by
      rw [List.eq_nil_iff_forall_not_mem]
      rintro ⟨id, c⟩ hentry
      have hnode := hkeys id (Keyed.mem_keys_of_mem hentry)
      rw [hnodes] at hnode
      cases hnode
    have hsame : measured g k cs = cs := by simp [measured, hnodes]
    apply Keyed.ext_entries
    change (measured g k cs).entries.map _ = cs.entries.map _
    rw [hsame, hempty]
    rfl
  · rw [map_tally_measured_of_nodes hnodes, withFans_eq]
    apply Keyed.ext_entries
    change (cs.entries.map _).map _ = cs.entries.map _
    rw [List.map_map]
    refine List.map_congr_left fun entry hentry => ?_
    have hnode : entry.1 ∈ g.nodes := hkeys entry.1 (Keyed.mem_keys_of_mem hentry)
    simp [hnode, tally]

/-- Components with known dependencies keep them all in the graph. -/
theorem ofComponents_of_closed (hcs : Closed cs) : Graph.ofComponents cs = ⟨cs.map fun _ c => c.dependsOn⟩ := by
  refine congrArg Graph.mk (Keyed.ext_entries ?_)
  change cs.entries.map _ = cs.entries.map _
  refine List.map_congr_left fun entry hentry => ?_
  have hall : entry.2.dependsOn.filter cs.has = entry.2.dependsOn := by
    rw [List.filter_eq_self]
    intro d hd
    exact (cs.has_iff_mem_keys d).mpr (hcs.known entry.2 (Keyed.mem_values_of_mem hentry) d hd)
  exact congrArg (Prod.mk entry.1) hall

/-- The components that depend on a given one are as many as the entries of the graph that list it. -/
theorem fanIn_ofComponents (hcs : Closed cs) (id : String) :
    fanIn (Graph.ofComponents cs) id = (dependents cs id).length := by
  rw [ofComponents_of_closed hcs]
  change (((cs.entries.map fun e => (e.1, e.2.dependsOn)).map (·.2)).filter _).length =
    ((cs.entries.map (·.2)).filter _).length
  simp only [List.map_map, List.filter_map, List.length_map, Function.comp_def]

/-- A component has as many dependencies as it lists. -/
theorem fanOut_ofComponents (hcs : Closed cs) {id : String} {c : Component} (hentry : (id, c) ∈ cs.entries) :
    fanOut (Graph.ofComponents cs) id = c.dependsOn.length := by
  rw [ofComponents_of_closed hcs, fanOut]
  exact congrArg List.length (Graph.successors_of_mem (List.mem_map.mpr ⟨(id, c), hentry, rfl⟩))

/-- Measuring keeps the dependencies and counts them both ways. -/
theorem tallies_measured (hcs : Closed cs) (k : Knowledge) :
    (measured (Graph.ofComponents cs) k cs).entries.map (fun e => (e.1, tally e.2)) =
      cs.entries.map fun e =>
        (e.1, ⟨e.2.dependsOn, (dependents cs e.1).length, e.2.dependsOn.length⟩) := by
  have hkeys : ∀ id ∈ cs.keys, id ∈ (Graph.ofComponents cs).nodes := fun id hid =>
    Graph.mem_nodes_of_mem_keys (by rwa [Graph.keys, Graph.ofComponents, Keyed.keys_map])
  have htable := congrArg Keyed.entries (map_tally_measured hkeys k)
  refine htable.trans (List.map_congr_left fun entry hentry => ?_)
  simp only [fanIn_ofComponents hcs, fanOut_ofComponents hcs hentry]

/-- Ones for the members that fit add up to their number. -/
theorem sum_map_indicator (p : String → Bool) (names : List String) :
    (names.map fun id => if p id then 1 else 0).sum = names.countP p := by
  induction names with
  | nil => rfl
  | cons id names ih => rw [List.map_cons, List.sum_cons, List.countP_cons, ih, Nat.add_comm]

/-- Of names without repetition, as many stand in a list of them without repetition as that list has. -/
theorem countP_contains {names ds : List String} (hnames : names.Nodup) (hds : ds.Nodup)
    (hmem : ∀ d ∈ ds, d ∈ names) : names.countP (ds.contains ·) = ds.length := by
  rw [List.countP_eq_length_filter]
  refine List.Perm.length_eq ((List.perm_ext_iff_of_nodup (hnames.filter _) hds).mpr fun d => ?_)
  rw [List.mem_filter, List.contains_iff_mem]
  exact ⟨And.right, fun hd => ⟨hmem d hd, hd⟩⟩

/-- Counted by either end, the dependencies are as many. -/
theorem sum_dependents {names : List String} (hnames : names.Nodup) (cs : List Component)
    (hnodup : ∀ c ∈ cs, c.dependsOn.Nodup) (hknown : ∀ c ∈ cs, ∀ d ∈ c.dependsOn, d ∈ names) :
    (names.map fun id => (cs.filter (·.dependsOn.contains id)).length).sum = (cs.map (·.dependsOn.length)).sum := by
  induction cs with
  | nil => simp
  | cons c cs ih =>
    have hsplit : ∀ id, ((c :: cs).filter (·.dependsOn.contains id)).length =
        (if c.dependsOn.contains id then 1 else 0) +
          (cs.filter (·.dependsOn.contains id)).length := by
      intro id
      rw [List.filter_cons]
      split <;> simp [Nat.add_comm]
    have hhere : (names.map fun id => if c.dependsOn.contains id then 1 else 0).sum =
        c.dependsOn.length := by
      rw [← countP_contains hnames (hnodup c List.mem_cons_self) (hknown c List.mem_cons_self)]
      exact sum_map_indicator _ names
    simp only [hsplit, List.sum_map_add, hhere, List.map_cons, List.sum_cons]
    rw [ih (fun d hd => hnodup d (List.mem_cons_of_mem c hd)) fun d hd => hknown d (List.mem_cons_of_mem c hd)]

/-- Components whose dependencies are components, with both counts right. -/
structure Counted (cs : Components) : Prop where
  closed : Closed cs
  fanOut : ∀ c ∈ cs.values, c.fanOut = c.dependsOn.length
  fanIn : ∀ id c, (id, c) ∈ cs.entries → c.fanIn = (dependents cs id).length

/-- The dependents are the lists that name a component. -/
theorem length_dependents (cs : Components) (id : String) :
    (dependents cs id).length = ((cs.entries.map fun e => e.2.dependsOn).filter (·.contains id)).length := by
  simp only [dependents, Keyed.values, List.filter_map, List.length_map, Function.comp_def]

/-- Measured components have both counts right. -/
theorem counted_measured (hcs : Closed cs) (k : Knowledge) : Counted (measured (Graph.ofComponents cs) k cs) := by
  have htallies := tallies_measured hcs k
  generalize measured (Graph.ofComponents cs) k cs = measuredCs at htallies
  have hentry : ∀ id c, (id, c) ∈ measuredCs.entries → ∃ c₀, (id, c₀) ∈ cs.entries ∧
      c.dependsOn = c₀.dependsOn ∧ c.fanIn = (dependents cs id).length ∧
        c.fanOut = c.dependsOn.length := by
    intro id c hc
    have hmem : (id, tally c) ∈ measuredCs.entries.map fun e => (e.1, tally e.2) :=
      List.mem_map.mpr ⟨(id, c), hc, rfl⟩
    rw [htallies] at hmem
    obtain ⟨⟨id₀, c₀⟩, hc₀, heq⟩ := List.mem_map.mp hmem
    obtain ⟨rfl, htally⟩ := Prod.mk.inj heq
    obtain ⟨hdepends, hin, hout⟩ := Tally.mk.inj htally
    exact ⟨c₀, hc₀, hdepends.symm, hin.symm, hdepends ▸ hout.symm⟩
  have hkeys : measuredCs.keys = cs.keys := by
    have hfirst := congrArg (List.map Prod.fst) htallies
    rw [List.map_map, List.map_map] at hfirst
    exact hfirst
  have hlists : (measuredCs.entries.map fun e => e.2.dependsOn) =
      cs.entries.map fun e => e.2.dependsOn := by
    have hsecond := congrArg (List.map fun e => e.2.dependsOn) htallies
    rw [List.map_map, List.map_map] at hsecond
    exact hsecond
  refine ⟨⟨?_, ?_⟩, ?_, ?_⟩
  · intro c hc d hd
    obtain ⟨id, hc⟩ := Keyed.exists_key_of_mem_values hc
    obtain ⟨c₀, hc₀, hsame, -⟩ := hentry id c hc
    exact hkeys ▸ hcs.known c₀ (Keyed.mem_values_of_mem hc₀) d (hsame ▸ hd)
  · intro c hc
    obtain ⟨id, hc⟩ := Keyed.exists_key_of_mem_values hc
    obtain ⟨c₀, hc₀, hsame, -⟩ := hentry id c hc
    exact hsame ▸ hcs.nodup c₀ (Keyed.mem_values_of_mem hc₀)
  · intro c hc
    obtain ⟨id, hc⟩ := Keyed.exists_key_of_mem_values hc
    obtain ⟨c₀, -, -, -, hout⟩ := hentry id c hc
    exact hout
  · intro id c hc
    obtain ⟨c₀, -, -, hin, -⟩ := hentry id c hc
    rw [hin, length_dependents, length_dependents, hlists]

/-- The dependencies of all components, counted where they begin. -/
theorem Counted.sum_fanOut (hcs : Counted cs) :
    (cs.values.map (·.fanOut)).sum = (cs.values.map (·.dependsOn.length)).sum :=
  congrArg List.sum (List.map_congr_left hcs.fanOut)

/-- The dependencies of all components, counted where they end. -/
theorem Counted.sum_fanIn (hcs : Counted cs) :
    (cs.values.map (·.fanIn)).sum = (cs.values.map (·.dependsOn.length)).sum := by
  have hcounts : cs.values.map (·.fanIn) = cs.keys.map fun id => (dependents cs id).length := by
    simp only [Keyed.values, Keyed.keys, List.map_map]
    exact List.map_congr_left fun entry hentry => hcs.fanIn entry.1 entry.2 hentry
  rw [hcounts]
  exact sum_dependents cs.nodup cs.values hcs.closed.nodup hcs.closed.known

end RepoAtlas.Metric
