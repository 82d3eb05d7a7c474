import Mathlib.Data.List.Nodup
import RepoAtlas.Proofs.Syntax.Walk

/-!
# Walks meet every node once

A node is told apart by its address, the numbers of siblings before it and before each of its ancestors. So a
walk in preorder meets no node twice.
-/

namespace RepoAtlas.Syntax.Cursor

variable {α : Type}

/-- How many siblings stand before a node and before each of its ancestors, nearest first. -/
def address : Cursor → List Nat
  | ⟨_, earlier, none⟩ => [earlier.length]
  | ⟨_, earlier, some p⟩ => earlier.length :: p.address

/-- The address of what is above a node. -/
def addressAbove (parent : Option Cursor) : List Nat :=
  (parent.map address).getD []

/-- An address begins with the place among the siblings. -/
theorem address_eq (c : Cursor) : c.address = c.earlier.length :: addressAbove c.parent := by
  obtain ⟨tree, earlier, parent⟩ := c
  cases parent <;> rw [address] <;> rfl

/-- A part adds its place to the address of the whole. -/
theorem address_of_mem_children {c d : Cursor} (hd : d ∈ c.children) : d.address = d.earlier.length :: c.address := by
  rw [address_eq, parent_of_mem_siblings hd]
  rfl

/-- The address of a node is the end of all addresses below it. -/
theorem address_suffix {pass : α → Cursor → α} {value : α} {c : Cursor} {e : α × Cursor}
    (he : e ∈ c.inherit pass value) : c.address <:+ e.2.address :=
  forall_mem_inherit (P := fun _ d => c.address <:+ d.address)
    (fun _ _ hn _ hd => hn.trans (address_of_mem_children hd ▸ List.suffix_cons _ _)) List.suffix_rfl e he

/-- Different parts have different places. -/
theorem nodup_places (c : Cursor) : (c.children.map (·.earlier.length)).Nodup := by
  have hplaces : ∀ (earlier ts : List Tree), (siblings c earlier ts).map (·.earlier.length) =
      List.range' earlier.length ts.length := by
    intro earlier ts
    induction ts generalizing earlier with
    | nil => rfl
    | cons t ts ih =>
      rw [siblings, List.map_cons, ih, List.length_cons, List.length_cons, List.range'_succ]
  rw [children, hplaces]
  exact List.nodup_range'

/-- No node is met twice. -/
theorem nodup_inherit (pass : α → Cursor → α) (value : α) (c : Cursor) :
    ((c.inherit pass value).map (·.2)).Nodup := by
  induction c using induction generalizing value with
  | node c ih =>
    rw [inherit_eq, List.map_cons, List.map_flatMap, List.nodup_cons, List.nodup_flatMap]
    refine ⟨fun hmem => ?_, fun d hd => ih d hd _, ?_⟩
    · -- What is below a node has a longer address than the node.
      obtain ⟨d, hd, hmem⟩ := List.mem_flatMap.mp hmem
      obtain ⟨e, he, heq⟩ := List.mem_map.mp hmem
      have hlength := (address_suffix he).length_le
      rw [heq, address_of_mem_children hd] at hlength
      exact Nat.not_succ_le_self _ hlength
    · refine (List.pairwise_map.mp c.nodup_places).imp_of_mem fun {d d'} hd hd' hne x hx hx' => ?_
      obtain ⟨e, he, rfl⟩ := List.mem_map.mp hx
      obtain ⟨e', he', heq⟩ := List.mem_map.mp hx'
      have hfirst := address_suffix he
      have hsecond := address_suffix he'
      rw [address_of_mem_children hd] at hfirst
      rw [heq, address_of_mem_children hd'] at hsecond
      -- Two ends of one address that are equally long are the same.
      have hends := (List.suffix_of_suffix_length_le hfirst hsecond (Nat.le_refl _)).eq_of_length rfl
      exact hne (List.cons.inj hends).1

/-- No node is listed twice. -/
theorem nodup_preorder (c : Cursor) : c.preorder.Nodup :=
  nodup_inherit _ _ c

/-- Nor with a limit of depth. -/
theorem nodup_within (limit : Nat) (c : Cursor) : (c.within limit).Nodup :=
  within_eq_filter limit c ▸ c.nodup_preorder.filter _

/-- No part is listed twice. -/
theorem nodup_children (c : Cursor) : c.children.Nodup :=
  c.nodup_places.of_map

mutual
/-- Backward the same nodes are met. -/
theorem backwardAt_perm (pass : α → Cursor → α) (value : α) (parent : Option Cursor) (earlier : List Tree)
    (t : Tree) : (backwardAt parent earlier t).Perm ((inheritAt pass value parent earlier t).map (·.2)) := by
  obtain ⟨kind, named, start, stop, parts⟩ := t
  rw [backwardAt, inheritAt, List.map_cons]
  exact (backwardList_perm pass _ _ [] parts).cons _

/-- Backward the same nodes of siblings are met. -/
theorem backwardList_perm (pass : α → Cursor → α) (value : α) (parent : Option Cursor) (earlier : List Tree)
    (ts : List Tree) :
    (backwardList parent earlier ts).Perm ((inheritList pass value parent earlier ts).map (·.2)) := by
  cases ts with
  | nil =>
    rw [backwardList, inheritList]
    exact List.Perm.refl []
  | cons t ts =>
    rw [backwardList, inheritList, List.map_append]
    exact ((backwardList_perm pass value parent (t :: earlier) ts).append
      (backwardAt_perm pass value parent earlier t)).trans List.perm_append_comm
end

/-- A walk that takes the last part first meets the nodes that a walk in preorder meets. -/
theorem backward_perm_preorder (c : Cursor) : c.backward.Perm c.preorder :=
  backwardAt_perm _ _ c.parent c.earlier c.tree

end RepoAtlas.Syntax.Cursor
