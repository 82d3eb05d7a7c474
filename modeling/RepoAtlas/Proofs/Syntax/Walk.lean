import Mathlib.Data.List.Basic
import RepoAtlas.Syntax.Agenda

/-!
# What walks meet

A walk meets the ancestors and the parts of every node that it meets, and a tour enters just the nodes within
its limit. What is handed down from a node to its parts holds along the whole walk.
-/

namespace RepoAtlas.Syntax

/-- A construct with its parts. -/
def Tree.node (kind : String) (start stop : Nat) (parts : List Tree) : Tree :=
  ⟨kind, true, start, stop, parts⟩

/-- A construct without parts. -/
def Tree.leaf (kind : String) (start stop : Nat) : Tree :=
  .node kind start stop []

/-- A word or a sign of the grammar. -/
def Tree.sign (kind : String) (start stop : Nat) : Tree :=
  ⟨kind, false, start, stop, []⟩

/-- A construct with its parts in parentheses. -/
def Tree.round (kind : String) (start stop : Nat) (parts : List Tree) : Tree :=
  .node kind start stop (.sign "(" start (start + 1) :: parts ++ [.sign ")" (stop - 1) stop])

/-- A construct with its parts in braces. -/
def Tree.curly (kind : String) (start stop : Nat) (parts : List Tree) : Tree :=
  .node kind start stop (.sign "\x7b" start (start + 1) :: parts ++ [.sign "\x7d" (stop - 1) stop])

end RepoAtlas.Syntax

namespace RepoAtlas.Syntax.Cursor

variable {α : Type} {root c a p d : Cursor} {limit : Nat} {earlier ts : List Tree} {pass : α → Cursor → α}
  {t : Tree} {depth : Nat}

/-- One cursor is another or one of its ancestors. -/
def AtOrAbove (a c : Cursor) : Prop :=
  a = c ∨ a ∈ c.ancestors

/-- The ancestors are the parent and what is above it. -/
theorem mem_ancestors_iff : a ∈ c.ancestors ↔ ∃ p, c.parent = some p ∧ AtOrAbove a p := by
  obtain ⟨tree, earlier, parent⟩ := c
  cases parent with
  | none => simp [ancestors]
  | some p => simp [ancestors, AtOrAbove]

/-- Siblings have their parent. -/
theorem parent_of_mem_siblings (hd : d ∈ siblings p earlier ts) : d.parent = some p := by
  induction ts generalizing earlier with
  | nil => cases hd
  | cons t ts ih =>
    rcases List.mem_cons.mp hd with rfl | hd
    · rfl
    · exact ih hd

/-- A part has the whole as its nearest ancestor. -/
theorem ancestors_of_mem_children (hd : d ∈ c.children) : d.ancestors = c :: c.ancestors := by
  have hparent : d.parent = some c := parent_of_mem_siblings hd
  obtain ⟨tree, earlier, parent⟩ := d
  obtain rfl : parent = some c := hparent
  rw [ancestors]

/-- What follows an ancestor among the ancestors of a node is above that ancestor. -/
theorem ancestors_of_append {before above : List Cursor} (h : c.ancestors = before ++ a :: above) :
    above = a.ancestors := by
  induction before generalizing c with
  | nil =>
    obtain ⟨tree, earlier, _ | p⟩ := c
    · exact absurd h.symm (List.cons_ne_nil a above)
    · rw [ancestors] at h
      cases h
      rfl
  | cons b before ih =>
    obtain ⟨tree, earlier, _ | p⟩ := c
    · exact absurd h.symm (List.cons_ne_nil b _)
    · rw [ancestors] at h
      exact ih (List.cons.inj h).2

/-- What holds of a node whenever it holds of its parts holds of all nodes. -/
theorem induction {motive : Cursor → Prop} (node : ∀ c, (∀ d ∈ c.children, motive d) → motive c) (c : Cursor) :
    motive c :=
  node c fun d _ => induction node d
termination_by sizeOf c.tree
decreasing_by
  have hpart : d.tree ∈ c.tree.children := c.children_map_tree ▸ List.mem_map_of_mem ‹_›
  have hsize := List.sizeOf_lt_of_mem hpart
  obtain ⟨⟨kind, named, start, stop, parts⟩, earlier, parent⟩ := c
  simp only [Tree.mk.sizeOf_spec] at hsize ⊢
  omega

/-- A node is the first of the nodes below it. -/
theorem inherit_eq_cons (pass : α → Cursor → α) (value : α) (c : Cursor) :
    c.inherit pass value = (value, c) :: inheritList pass (pass value c) (some c) [] c.tree.children := by
  obtain ⟨⟨kind, named, start, stop, parts⟩, earlier, parent⟩ := c
  rw [inherit, inheritAt]

/-- Siblings are met one by one. -/
theorem inheritList_eq_flatMap (pass : α → Cursor → α) (value : α) (p : Cursor) (earlier ts : List Tree) :
    inheritList pass value (some p) earlier ts = (siblings p earlier ts).flatMap (inherit pass value) := by
  induction ts generalizing earlier with
  | nil => rw [inheritList, siblings, List.flatMap_nil]
  | cons t ts ih => rw [inheritList, siblings, List.flatMap_cons, ih, inherit]

/-- A node is met before its parts. -/
theorem inherit_eq (pass : α → Cursor → α) (value : α) (c : Cursor) :
    c.inherit pass value = (value, c) :: c.children.flatMap (inherit pass (pass value c)) := by
  rw [inherit_eq_cons, inheritList_eq_flatMap, children]

section

variable {pass : α → Cursor → α} {value v : α} {e : α × Cursor}

/-- What is met is the node or met in a part. -/
theorem mem_inherit_iff :
    e ∈ c.inherit pass value ↔ e = (value, c) ∨ ∃ d ∈ c.children, e ∈ d.inherit pass (pass value c) := by
  rw [inherit_eq, List.mem_cons, List.mem_flatMap]

/-- A node meets itself. -/
theorem self_mem_inherit : (value, c) ∈ c.inherit pass value :=
  mem_inherit_iff.mpr (Or.inl rfl)

/-- An ancestor of a node below a root lies above the root, or it hands its value down to the node. -/
theorem above_of_mem_inherit (he : e ∈ root.inherit pass value) (ha : a ∈ e.2.ancestors) :
    (∃ b, (b, a) ∈ root.inherit pass value ∧ e ∈ a.inherit pass b) ∨ a ∈ root.ancestors := by
  induction root using induction generalizing value with
  | node root ih =>
    rcases mem_inherit_iff.mp he with rfl | ⟨d, hd, hbelow⟩
    · exact Or.inr ha
    · rcases ih d hd hbelow with ⟨b, hb, hbelow⟩ | habove
      · exact Or.inl ⟨b, mem_inherit_iff.mpr (Or.inr ⟨d, hd, hb⟩), hbelow⟩
      · rw [ancestors_of_mem_children hd] at habove
        rcases List.mem_cons.mp habove with rfl | habove
        · exact Or.inl ⟨value, self_mem_inherit, he⟩
        · exact Or.inr habove

/-- The parts of what is met are met. -/
theorem mem_inherit_of_mem_children (hc : (v, c) ∈ root.inherit pass value) (hd : d ∈ c.children) :
    (pass v c, d) ∈ root.inherit pass value := by
  induction root using induction generalizing value with
  | node root ih =>
    rcases mem_inherit_iff.mp hc with heq | ⟨x, hx, hc⟩
    · cases heq
      exact mem_inherit_iff.mpr (Or.inr ⟨d, hd, self_mem_inherit⟩)
    · exact mem_inherit_iff.mpr (Or.inr ⟨x, hx, ih x hx hc⟩)

/-- What is handed down with the values holds of everything below a node. -/
theorem forall_mem_inherit {P : α → Cursor → Prop} (hpart : ∀ v c, P v c → ∀ d ∈ c.children, P (pass v c) d)
    (h : P value c) : ∀ e ∈ c.inherit pass value, P e.1 e.2 := by
  induction c using induction generalizing value with
  | node c ih =>
    intro e he
    rcases mem_inherit_iff.mp he with rfl | ⟨d, hd, he⟩
    · exact h
    · exact ih d hd (hpart value c h d hd) e he

/-- What is handed down with the values holds of all nodes of sibling trees. -/
theorem forall_mem_inheritList {P : α → Cursor → Prop} (hpart : ∀ v c, P v c → ∀ d ∈ c.children, P (pass v c) d)
    (value : α) (p : Cursor) (earlier ts : List Tree) (h : ∀ d ∈ siblings p earlier ts, P value d) :
    ∀ e ∈ inheritList pass value (some p) earlier ts, P e.1 e.2 := by
  rw [inheritList_eq_flatMap]
  intro e he
  obtain ⟨d, hd, he⟩ := List.mem_flatMap.mp he
  exact forall_mem_inherit hpart (h d hd) e he

end

/-- An ancestor of a node below the root is so at some depth, from which that of the node counts on. -/
theorem exists_depth_of_mem_ancestors {d : Nat} (hroot : root.parent = none) (hc : (d, c) ∈ root.depths)
    (ha : a ∈ c.ancestors) : ∃ d', (d', a) ∈ root.depths ∧ (d, c) ∈ a.inherit (fun d _ => d + 1) d' := by
  refine (above_of_mem_inherit hc ha).resolve_right fun habove => ?_
  obtain ⟨p, hp, -⟩ := mem_ancestors_iff.mp habove
  exact absurd (hroot.symm.trans hp).symm (Option.some_ne_none p)

/-- The ancestors of what is listed are listed. -/
theorem mem_preorder_of_mem_ancestors (hroot : root.parent = none) (hc : c ∈ root.preorder)
    (ha : a ∈ c.ancestors) : a ∈ root.preorder := by
  obtain ⟨⟨d, _⟩, he, rfl⟩ := List.mem_map.mp hc
  obtain ⟨d', hmem, -⟩ := exists_depth_of_mem_ancestors hroot he ha
  exact List.mem_map.mpr ⟨(d', a), hmem, rfl⟩

/-- The parts of what is listed are listed. -/
theorem mem_preorder_of_mem_children (hc : c ∈ root.preorder) (hd : d ∈ c.children) : d ∈ root.preorder := by
  obtain ⟨⟨depth, _⟩, he, rfl⟩ := List.mem_map.mp hc
  exact List.mem_map.mpr ⟨(depth + 1, d), mem_inherit_of_mem_children he hd, rfl⟩

/-- Parts are at depth one. -/
theorem mem_depths_of_mem_children (hd : d ∈ root.children) : (1, d) ∈ root.depths :=
  mem_inherit_iff.mpr (Or.inr ⟨d, hd, self_mem_inherit⟩)

/-- What is not too deep is within the limit. -/
theorem mem_within_of_mem_depths {d : Nat} (hlimit : d ≤ limit) (hc : (d, c) ∈ root.depths) : c ∈ root.within limit :=
  List.mem_map.mpr ⟨(d, c), List.mem_filter.mpr ⟨hc, decide_eq_true hlimit⟩, rfl⟩

/-- Parts are within a limit of one. -/
theorem mem_within_of_mem_children (hlimit : 1 ≤ limit) (hd : d ∈ root.children) : d ∈ root.within limit :=
  mem_within_of_mem_depths hlimit (mem_depths_of_mem_children hd)

/-- Parts of parts are within a limit of two. -/
theorem mem_within_of_mem_parts {x : Cursor} (hlimit : 2 ≤ limit) (hx : x ∈ root.children) (hd : d ∈ x.children) :
    d ∈ root.within limit :=
  mem_within_of_mem_depths hlimit (mem_inherit_of_mem_children (mem_depths_of_mem_children hx) hd)

/-- What is within a limit is listed without it. -/
theorem mem_preorder_of_mem_within (hc : c ∈ root.within limit) : c ∈ root.preorder := by
  obtain ⟨e, he, rfl⟩ := List.mem_map.mp hc
  exact List.mem_map_of_mem (List.mem_filter.mp he).1

/-- Values can be changed before or after they are handed down. -/
theorem map_inherit {β : Type} {pass' : β → Cursor → β} {g : α → β} (hpass : ∀ a c, g (pass a c) = pass' (g a) c)
    (value : α) (c : Cursor) : (c.inherit pass value).map (fun e => (g e.1, e.2)) = c.inherit pass' (g value) := by
  induction c using induction generalizing value with
  | node c ih =>
    rw [inherit_eq, inherit_eq, List.map_cons, List.map_flatMap, ← hpass]
    exact congrArg _ (List.flatMap_congr fun d hd => ih d hd _)

/-- Without the values the nodes are listed in order. -/
theorem map_snd_inherit (pass : α → Cursor → α) (value : α) (c : Cursor) :
    (c.inherit pass value).map (·.2) = c.preorder := by
  have hnodes : ∀ {β : Type} (pass : β → Cursor → β) (b : β), (c.inherit pass b).map (·.2) =
      (c.inherit (fun (_ : Unit) _ => ()) ()).map (·.2) := by
    intro β pass b
    have hvalues : (c.inherit pass b).map (fun e => ((), e.2)) = c.inherit (fun _ _ => ()) () :=
      map_inherit (g := fun _ => ()) (fun _ _ => rfl) b c
    rw [← hvalues, List.map_map]
    rfl
  exact (hnodes pass value).trans (hnodes _ _).symm

/-- What parts take over holds of all nodes. -/
theorem forall_mem_preorder {P : Cursor → Prop} (hpart : ∀ c, P c → ∀ d ∈ c.children, P d) (h : P c) :
    ∀ d ∈ c.preorder, P d := by
  intro d hd
  obtain ⟨e, he, rfl⟩ := List.mem_map.mp hd
  exact forall_mem_inherit (P := fun _ => P) (fun _ => hpart) h e he

/-- What is below a node that is below a root is below the root. -/
theorem preorder_subset (hc : c ∈ root.preorder) (hd : d ∈ c.preorder) : d ∈ root.preorder :=
  forall_mem_preorder (fun _ hn _ hpart => mem_preorder_of_mem_children hn hpart) hc d hd

/-- A node lists itself. -/
theorem self_mem_preorder (c : Cursor) : c ∈ c.preorder :=
  List.mem_map.mpr ⟨(0, c), self_mem_inherit, rfl⟩

/-- Cursors at one tree have the same parts. -/
theorem map_tree_children (h : c.tree = d.tree) : c.children.map (·.tree) = d.children.map (·.tree) := by
  rw [children_map_tree, children_map_tree, h]

/-- They have the same part of a kind. -/
theorem map_tree_child? (h : c.tree = d.tree) (kind : String) :
    (c.child? kind).map (·.tree) = (d.child? kind).map (·.tree) := by
  have hfind : ∀ e : Cursor, (e.child? kind).map (·.tree) =
      (e.children.map (·.tree)).find? (·.kind == kind) := by
    intro e
    rw [List.find?_map]
    rfl
  rw [hfind, hfind, map_tree_children h]

/-- They have the same last part of chosen kinds. -/
theorem map_tree_getLast? (h : c.tree = d.tree) (p : String → Bool) :
    (c.children.filter fun e => p e.kind).getLast?.map (·.tree) =
      (d.children.filter fun e => p e.kind).getLast?.map (·.tree) := by
  have hlast : ∀ e : Cursor, (e.children.filter fun e => p e.kind).getLast?.map (·.tree) =
      ((e.children.map (·.tree)).filter fun t => p t.kind).getLast? := by
    intro e
    rw [List.filter_map, List.getLast?_map]
    rfl
  rw [hlast, hlast, map_tree_children h]

/-- Two nodes that may be missing, and are the same in any place, are both missing or both there. -/
theorem eq_none_or_exists_of_map_tree {o o' : Option Cursor} (h : o.map (·.tree) = o'.map (·.tree)) :
    o = none ∧ o' = none ∨ ∃ a b, o = some a ∧ o' = some b ∧ a.tree = b.tree := by
  rcases o with _ | a <;> rcases o' with _ | b
  · exact Or.inl ⟨rfl, rfl⟩
  · cases h
  · cases h
  · exact Or.inr ⟨a, b, rfl, rfl, Option.some.inj h⟩

/-- What stands before a place stands before all parts from there on. -/
theorem mem_earlier_of_mem_siblings (hd : d ∈ siblings p earlier ts) (ht : t ∈ earlier) : t ∈ d.earlier := by
  induction ts generalizing earlier with
  | nil => cases hd
  | cons u ts ih =>
    rcases List.mem_cons.mp hd with rfl | hd
    · exact ht
    · exact ih hd (List.mem_cons_of_mem u ht)

/-- What stands before a part is the tree of a part before it. -/
theorem exists_of_mem_earlier_siblings (hd : d ∈ siblings p earlier ts) (ht : t ∈ d.earlier) :
    t ∈ earlier ∨ ∃ e ∈ siblings p earlier ts, e.tree = t := by
  induction ts generalizing earlier with
  | nil => cases hd
  | cons u ts ih =>
    rcases List.mem_cons.mp hd with rfl | hd
    · exact Or.inl ht
    · rcases ih hd with hmem | ⟨e, he, rfl⟩
      · rcases List.mem_cons.mp hmem with rfl | hmem
        · exact Or.inr ⟨_, List.mem_cons_self, rfl⟩
        · exact Or.inl hmem
      · exact Or.inr ⟨e, List.mem_cons_of_mem _ he, rfl⟩

/-- An earlier sibling is listed too. -/
theorem exists_of_mem_earlier (hroot : root.earlier = []) (hc : c ∈ root.preorder) (ht : t ∈ c.earlier) :
    ∃ d ∈ root.preorder, d.tree = t := by
  have hall : ∀ c ∈ root.preorder, c ∈ root.preorder ∧
      ∀ t ∈ c.earlier, ∃ d ∈ root.preorder, d.tree = t := by
    refine forall_mem_preorder (fun c hc d hd => ?_) ⟨root.self_mem_preorder, fun t ht => ?_⟩
    · refine ⟨mem_preorder_of_mem_children hc.1 hd, fun t ht => ?_⟩
      rcases exists_of_mem_earlier_siblings hd ht with hmem | ⟨e, he, rfl⟩
      · cases hmem
      · exact ⟨e, mem_preorder_of_mem_children hc.1 he, rfl⟩
    · rw [hroot] at ht
      cases ht
  exact (hall c hc).2 t ht

/-- The node of a step. -/
def Step.node : Step → Cursor
  | .enter _ c => c
  | .leave _ c => c

/-- The tour through a node and all that is below it. -/
def tourFrom (depth : Nat) (c : Cursor) : List Step :=
  tourAt depth c.parent c.earlier c.tree

/-- A tour enters a node, tours its parts and leaves it. -/
theorem tourFrom_eq (d : Nat) (c : Cursor) :
    tourFrom d c = .enter d c :: (c.children.flatMap (tourFrom (d + 1)) ++ [.leave d c]) := by
  have hparts : ∀ earlier ts, tourList (d + 1) (some c) earlier ts =
      (siblings c earlier ts).flatMap (tourFrom (d + 1)) := by
    intro earlier ts
    induction ts generalizing earlier with
    | nil => rw [tourList, siblings, List.flatMap_nil]
    | cons t ts ih => rw [tourList, siblings, List.flatMap_cons, ih, tourFrom]
  rw [children, ← hparts]
  obtain ⟨⟨kind, named, start, stop, parts⟩, earlier, parent⟩ := c
  rw [tourFrom, tourAt]

/-- A tour steps at nodes that are met, at their depth. -/
theorem mem_inherit_of_step {step : Step} (h : step ∈ tourFrom depth c) :
    (step.depth, step.node) ∈ c.inherit (fun d _ => d + 1) depth := by
  induction c using induction generalizing depth with
  | node c ih =>
    rw [tourFrom_eq, List.mem_cons, List.mem_append, List.mem_flatMap, List.mem_singleton] at h
    rcases h with rfl | ⟨d, hd, h⟩ | rfl
    · exact self_mem_inherit
    · exact mem_inherit_iff.mpr (Or.inr ⟨d, hd, ih d hd h⟩)
    · exact self_mem_inherit

/-- A tour with a limit enters what is within it. -/
theorem mem_within_of_enter {d : Nat} (h : Step.enter d c ∈ root.tour limit) : c ∈ root.within limit := by
  obtain ⟨h, hdepth⟩ := List.mem_filter.mp h
  exact mem_within_of_mem_depths (of_decide_eq_true hdepth) (mem_inherit_of_step h)

/-- A tour holds the tour through a node, and what it has been at before stands before the node in a list. -/
def Reaches (steps : List Step) (nodes : List (Nat × Cursor)) (d : Nat) (c : Cursor) : Prop :=
  ∃ before after front back, steps = before ++ (tourFrom d c ++ after) ∧
    nodes = front ++ (d, c) :: back ∧ ∀ step ∈ before, (step.depth, step.node) ∈ front

/-- What the tour of one of several nodes reaches, that of all does. -/
theorem Reaches.flatMap {cs : List Cursor} {x : Cursor} {d : Nat} (hx : x ∈ cs)
    (h : Reaches (tourFrom depth x) (x.inherit (fun d _ => d + 1) depth) d c) :
    Reaches (cs.flatMap (tourFrom depth)) (cs.flatMap (inherit (fun d _ => d + 1) depth)) d c := by
  obtain ⟨earlier, later, rfl⟩ := List.append_of_mem hx
  obtain ⟨before, after, front, back, hsteps, hnodes, hfront⟩ := h
  refine ⟨earlier.flatMap (tourFrom depth) ++ before, after ++ later.flatMap (tourFrom depth),
    earlier.flatMap (inherit (fun d _ => d + 1) depth) ++ front,
    back ++ later.flatMap (inherit (fun d _ => d + 1) depth), by simp [hsteps], by simp [hnodes], ?_⟩
  intro step hstep
  rcases List.mem_append.mp hstep with hstep | hstep
  · obtain ⟨y, hy, hstep⟩ := List.mem_flatMap.mp hstep
    exact List.mem_append_left _ (List.mem_flatMap.mpr ⟨y, hy, mem_inherit_of_step hstep⟩)
  · exact List.mem_append_right _ (hfront step hstep)

/-- A tour reaches its nodes in preorder. -/
theorem reaches_of_mem_inherit {d : Nat} (h : (d, c) ∈ root.inherit (fun d _ => d + 1) depth) :
    Reaches (tourFrom depth root) (root.inherit (fun d _ => d + 1) depth) d c := by
  induction root using induction generalizing depth with
  | node root ih =>
    rcases mem_inherit_iff.mp h with heq | ⟨x, hx, h⟩
    · cases heq
      exact ⟨[], [], [], _, by simp, inherit_eq _ _ _, by simp⟩
    · obtain ⟨before, after, front, back, hsteps, hnodes, hfront⟩ := (ih x hx h).flatMap hx
      refine ⟨.enter depth root :: before, after ++ [.leave depth root], (depth, root) :: front, back, ?_, ?_, ?_⟩
      · rw [tourFrom_eq, hsteps]
        simp only [List.cons_append, List.append_assoc]
      · rw [inherit_eq, hnodes, List.cons_append]
      · intro step hstep
        rcases List.mem_cons.mp hstep with rfl | hstep
        · exact List.mem_cons_self
        · exact List.mem_cons_of_mem _ (hfront step hstep)

/-- What is handed down holds of every value that an agenda leads to. -/
theorem value_of_mem_visits {P : α → Prop} (hpass : ∀ b c, P b → P (pass b c)) {agenda : List (Visit α)}
    (hagenda : ∀ v ∈ agenda, P v.value) {v : Visit α} (hv : v ∈ visits pass limit agenda) : P v.value := by
  induction agenda using visits.induct pass limit with
  | case1 =>
    rw [visits] at hv
    cases hv
  | case2 w rest hdeep ih =>
    rw [visits, if_pos hdeep] at hv
    exact ih (fun u hu => hagenda u (List.mem_cons_of_mem w hu)) hv
  | case3 w rest hdeep ih =>
    rw [visits, if_neg hdeep] at hv
    rcases List.mem_cons.mp hv with rfl | hv
    · exact hagenda v List.mem_cons_self
    · refine ih (fun u hu => ?_) hv
      rcases List.mem_append.mp hu with hu | hu
      · obtain ⟨part, -, rfl⟩ := List.mem_map.mp hu
        exact hpass w.value w.node (hagenda w List.mem_cons_self)
      · exact hagenda u (List.mem_cons_of_mem w hu)

/-- Hand a value down to the parts of a node, one deeper than the node. -/
def deeper (pass : α → Cursor → α) (value : α × Nat) (c : Cursor) : α × Nat :=
  (pass value.1 c, value.2 + 1)

/-- A node with a value and a depth, to visit. -/
def Visit.of (e : (α × Nat) × Cursor) : Visit α :=
  ⟨e.1.1, e.1.2, e.2⟩

/-- Those nodes that are not too deep, to visit. -/
def shallow (limit : Nat) (es : List ((α × Nat) × Cursor)) : List (Visit α) :=
  (es.filter fun e => e.1.2 ≤ limit).map Visit.of

/-- What is shallow in two lists is put together. -/
theorem shallow_append (es fs : List ((α × Nat) × Cursor)) :
    shallow limit (es ++ fs) = shallow limit es ++ shallow limit fs := by
  simp [shallow]

/-- A first node that is not too deep is visited first. -/
theorem shallow_cons {e : (α × Nat) × Cursor} (es : List ((α × Nat) × Cursor)) (he : e.1.2 ≤ limit) :
    shallow limit (e :: es) = Visit.of e :: shallow limit es := by
  simp [shallow, he]

/-- Below the limit nothing is visited. -/
theorem shallow_inherit_of_lt {value : α × Nat} (h : limit < value.2) :
    shallow limit (c.inherit (deeper pass) value) = [] := by
  have hdepths : ∀ e ∈ c.inherit (deeper pass) value, limit < e.1.2 :=
    forall_mem_inherit (P := fun (v : α × Nat) _ => limit < v.2) (fun _ _ hv _ _ => Nat.lt_succ_of_lt hv) h
  rw [shallow, List.map_eq_nil_iff, List.filter_eq_nil_iff]
  exact fun e he => by simpa using hdepths e he

/-- An agenda leads through all that is below its first node and then to the rest. -/
theorem visits_cons_eq (pass : α → Cursor → α) (limit : Nat) (a : α) (d : Nat) (c : Cursor)
    (rest : List (Visit α)) :
    visits pass limit (⟨a, d, c⟩ :: rest) =
      shallow limit (c.inherit (deeper pass) (a, d)) ++ visits pass limit rest := by
  induction c using induction generalizing a d rest with
  | node c ih =>
    rw [visits]
    split
    · rename_i hdeep
      rw [shallow_inherit_of_lt hdeep, List.nil_append]
    · rename_i hdeep
      -- The parts are visited one after the other.
      have hparts : ∀ cs : List Cursor, cs ⊆ c.children → ∀ a d,
          visits pass limit (cs.map (fun c => ⟨a, d, c⟩) ++ rest) =
            shallow limit (cs.flatMap (inherit (deeper pass) (a, d))) ++ visits pass limit rest := by
        intro cs hcs a d
        induction cs with
        | nil => rfl
        | cons x cs ihcs =>
          obtain ⟨hx, hcs⟩ := List.cons_subset.mp hcs
          rw [List.map_cons, List.cons_append, ih x hx, ihcs hcs, List.flatMap_cons, shallow_append,
            List.append_assoc]
      rw [inherit_eq, shallow_cons _ (Nat.le_of_not_lt hdeep), List.cons_append]
      exact congrArg _ (hparts c.children (fun _ h => h) _ _)

/-- A walk visits the nodes that are not too deep, in preorder. -/
theorem walk_eq (pass : α → Cursor → α) (start : α) (limit : Nat) (c : Cursor) :
    c.walk pass start limit = shallow limit (c.inherit (deeper pass) (start, 0)) := by
  rw [walk, visits_cons_eq, visits, List.append_nil]

/-- What is met is at least as deep as where one begins. -/
theorem depth_le_of_mem_inherit {d d' : Nat} (h : (d, c) ∈ a.inherit (fun d _ => d + 1) d') : d' ≤ d :=
  forall_mem_inherit (P := fun d _ => d' ≤ d) (fun _ _ hd _ _ => Nat.le_succ_of_le hd) (Nat.le_refl d') _ h

/-- A node stands below another one, and before a third one. -/
def Between (a b c : Cursor) : Prop :=
  ∃ front back, a.preorder = a :: (front ++ c :: back) ∧ b ∈ front

/-- A tour has entered the ancestors of a node before it, and then been at nodes between only. -/
theorem exists_tour_between (hroot : root.parent = none) (hc : c ∈ root.within limit) (ha : a ∈ c.ancestors)
    (hne : c ≠ a) :
    ∃ d d' before inside after,
      root.tour limit = before ++ .enter d' a :: (inside ++ .enter d c :: after) ∧
      ∀ step ∈ inside, Between a step.node c := by
  obtain ⟨⟨d, e⟩, he, heq⟩ := List.mem_map.mp hc
  obtain rfl : e = c := heq
  obtain ⟨hmem, hdepth⟩ := List.mem_filter.mp he
  obtain ⟨d', ha', hbelow⟩ := exists_depth_of_mem_ancestors hroot hmem ha
  have hdepth' : decide (d' ≤ limit) = true :=
    decide_eq_true (Nat.le_trans (depth_le_of_mem_inherit hbelow) (of_decide_eq_true hdepth))
  -- The node is not the root of the tour through its ancestor, so it is met on the tour through the parts.
  obtain ⟨x, hx, hparts⟩ := (mem_inherit_iff.mp hbelow).resolve_left fun heq => hne (Prod.mk.inj heq).2
  obtain ⟨before, after, -, -, hsplit, -, -⟩ := reaches_of_mem_inherit ha'
  obtain ⟨inside, rest, front, back, hinside, hnodes, hfront⟩ := (reaches_of_mem_inherit hparts).flatMap hx
  refine ⟨d, d', before.filter (·.depth ≤ limit), inside.filter (·.depth ≤ limit),
    (e.children.flatMap (tourFrom (d + 1)) ++ (.leave d e :: (rest ++ (.leave d' a :: after)))).filter
      (·.depth ≤ limit), ?_, fun step hstep => ⟨front.map (·.2), back.map (·.2), ?_, ?_⟩⟩
  · have htour : tourAt 0 root.parent root.earlier root.tree = before ++ .enter d' a :: (inside ++ .enter d e ::
        (e.children.flatMap (tourFrom (d + 1)) ++ (.leave d e :: (rest ++ (.leave d' a :: after))))) := by
      rw [← tourFrom, hsplit, tourFrom_eq, hinside, tourFrom_eq]
      simp only [List.cons_append, List.append_assoc, List.nil_append]
    have hkeep : ∀ {d : Nat} (n : Cursor) (steps : List Step), decide (d ≤ limit) = true →
        (Step.enter d n :: steps).filter (·.depth ≤ limit) = .enter d n :: steps.filter (·.depth ≤ limit) :=
      fun n steps h => List.filter_cons_of_pos h
    rw [tour, htour, List.filter_append, hkeep a _ hdepth', List.filter_append, hkeep e _ hdepth]
  · rw [← map_snd_inherit (fun d _ => d + 1) d' a, inherit_eq, hnodes, List.map_cons, List.map_append,
      List.map_cons]
  · exact List.mem_map.mpr ⟨_, hfront step (List.mem_filter.mp hstep).1, rfl⟩

/-- A walk visits the nodes within its limit in preorder, whatever it hands down. -/
theorem map_node_walk (pass : α → Cursor → α) (start : α) (limit : Nat) (c : Cursor) :
    (c.walk pass start limit).map (·.node) = c.within limit := by
  have hdepths : (c.inherit (deeper pass) (start, 0)).map (fun e => (e.1.2, e.2)) = c.depths :=
    map_inherit (g := Prod.snd) (fun _ _ => rfl) _ _
  rw [walk_eq, shallow, within, ← hdepths, List.filter_map, List.map_map, List.map_map]
  rfl

/-- A walk meets the nodes within its limit in order. -/
theorem walked_eq_within (limit : Nat) (c : Cursor) : c.walked limit = c.within limit :=
  map_node_walk _ _ limit c

/-- A depth is the number of ancestors passed. -/
theorem length_ancestors_of_mem_inherit {d d' : Nat} (h : (d, c) ∈ a.inherit (fun d _ => d + 1) d') :
    c.ancestors.length + d' = a.ancestors.length + d := by
  refine forall_mem_inherit (P := fun d c => c.ancestors.length + d' = a.ancestors.length + d)
    (fun d c hc x hx => ?_) rfl _ h
  rw [ancestors_of_mem_children hx, List.length_cons]
  omega

/-- The nodes within a limit are those with at most so many ancestors more than the node above them all. -/
theorem within_eq_filter (limit : Nat) (c : Cursor) :
    c.within limit = c.preorder.filter fun d => d.ancestors.length ≤ c.ancestors.length + limit := by
  rw [within, preorder, List.filter_map]
  refine congrArg _ (List.filter_congr fun e he => decide_eq_decide.mpr ?_)
  have hlevels := length_ancestors_of_mem_inherit he
  change e.1 ≤ limit ↔ e.2.ancestors.length ≤ _
  omega

end RepoAtlas.Syntax.Cursor
