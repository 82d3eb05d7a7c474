import RepoAtlas.Extract.Php
import RepoAtlas.Proofs.Extract.Readable

/-!
# Analyses of readable PHP files

The analysis of a PHP file reads texts of nodes of its tree, and comments that stand before them. In a readable
tree nothing fails: all names become known, and all components are found.
-/

namespace RepoAtlas.Extract.Php

open Syntax

variable {s : Source} {root c d : Cursor} {names names' : Names} {owner : Option String}

/-- The name and the alias of an import clause are parts of it. -/
theorem readable_of_clauseParts {clause n : Cursor} {nameNode a : Option Cursor} (h : Readable s clause)
    (hname : ∀ m ∈ nameNode, Readable s m) (hparts : clauseParts clause nameNode = some (n, a)) :
    Readable s n ∧ ∀ m ∈ a, Readable s m := by
  obtain ⟨m, hm, heq⟩ := Option.map_eq_some_iff.mp hparts
  obtain ⟨rfl, rfl⟩ := Prod.mk.inj heq
  refine ⟨hname m hm, fun b hb => ?_⟩
  obtain ⟨aliasing, haliasing, hb⟩ := Option.bind_eq_some_iff.mp hb
  exact (h.child? haliasing).child? hb

/-- Imports are read. -/
theorem isOk_importsAt (h : Readable s c) : (importsAt s c).isOk = true := by
  unfold importsAt
  split
  · rename_i group hgroup
    refine isOk_bind (isOk_text? fun d hd => h.child? hd) fun _ _ => isOk_collect fun clause hclause => ?_
    have hclause : Readable s clause := (h.child? hgroup).filtered _ clause hclause
    split
    · rfl
    · rename_i n a hparts
      obtain ⟨hn, ha⟩ := readable_of_clauseParts hclause (fun m hm => hclause.child? hm) hparts
      exact isOk_bind hn.text fun _ _ => isOk_bind (isOk_text? ha) fun _ _ => rfl
  · refine isOk_collect fun clause hclause => ?_
    have hclause : Readable s clause := h.filtered _ clause hclause
    unfold clauseImports
    split
    · rfl
    · rename_i n a hparts
      obtain ⟨hn, ha⟩ := readable_of_clauseParts hclause (fun m hm => hclause.either hm) hparts
      exact isOk_bind hn.text fun _ _ => isOk_bind (isOk_text? ha) fun _ _ => rfl

/-- The names that a node makes known are read. -/
theorem isOk_noteNames (h : Readable s c) : (noteNames s names c).isOk = true := by
  unfold noteNames
  split
  · refine isOk_bind (isOk_text? fun d hd => h.child? hd) fun _ _ => ?_
    split <;> rfl
  split
  · exact isOk_bind (isOk_importsAt h) fun _ _ => rfl
  · rfl

/-- So are those of several nodes. -/
theorem isOk_namesOf {nodes : List Cursor} (h : ∀ c ∈ nodes, Readable s c) : (namesOf s names nodes).isOk = true := by
  induction nodes generalizing names with
  | nil => rfl
  | cons c nodes ih =>
    refine isOk_bind (isOk_noteNames (h c List.mem_cons_self)) fun _ _ => ?_
    exact ih fun d hd => h d (List.mem_cons_of_mem c hd)

/-- Documentation is read. -/
theorem isOk_docstring (hroot : root.earlier = []) (h : Readable s root) (hc : c ∈ root.preorder) :
    (docstring s c).isOk = true := by
  unfold docstring
  dsimp only
  by_cases hrow : s.startRow c = 0
  · rw [if_pos hrow]
    rfl
  rw [if_neg hrow]
  split
  · rename_i t ht
    have hmem : t ∈ c.earlier := List.mem_of_find?_eq_some (Option.filter_eq_some_iff.mp ht).1
    obtain ⟨d, hd, rfl⟩ := Cursor.exists_of_mem_earlier hroot hc hmem
    refine isOk_bind (isOk_map (h d hd)) fun before _ => ?_
    split <;> rfl
  · refine isOk_bind rfl fun before _ => ?_
    split <;> rfl

/-- Modifiers are read. -/
theorem isOk_isAbstract {nodes : List Cursor} (h : ∀ c ∈ nodes, Readable s c) : (isAbstract s nodes).isOk = true := by
  induction nodes with
  | nil => rfl
  | cons c nodes ih =>
    have hrest : (isAbstract s nodes).isOk = true := ih fun d hd => h d (List.mem_cons_of_mem c hd)
    rw [isAbstract]
    split
    · rfl
    split
    · refine isOk_bind (h c List.mem_cons_self).text fun _ _ => ?_
      split
      · rfl
      · exact hrest
    · exact hrest

/-- A plain name is read. -/
theorem isOk_plainName (h : Readable s c) : (plainName s c).isOk = true :=
  isOk_text? fun _ hd => h.child? hd

/-- The type around a node is read. -/
theorem isOk_containingType (h : ∀ a ∈ c.ancestors, Readable s a) : (containingType s c).isOk = true := by
  refine isOk_text? fun n hn => ?_
  obtain ⟨a, ha, hn⟩ := List.exists_of_findSome?_eq_some hn
  exact (h a (List.mem_filter.mp ha).1).child? hn

/-- The name of a method is read. -/
theorem isOk_methodName (h : Readable s c) (habove : ∀ a ∈ c.ancestors, Readable s a) :
    (methodName s owner c).isOk = true := by
  refine isOk_bind (isOk_plainName h) fun name? _ => ?_
  split
  · rfl
  · dsimp only
    split
    · refine isOk_bind rfl fun _ _ => ?_
      split <;> rfl
    · refine isOk_bind (isOk_containingType habove) fun _ _ => ?_
      split <;> rfl

/-- A declaration is read. -/
theorem isOk_declaration (h : Readable s c) (habove : ∀ a ∈ c.ancestors, Readable s a) :
    (declaration s owner c).isOk = true := by
  -- Whatever kind a node is of, only its name is left to be read.
  have hnamed : ∀ kind : String, (if kind = "method" then
        methodName s owner c >>= fun name? => Except.ok ((nonEmpty name?).map fun name => (kind, name))
      else plainName s c >>= fun name? => Except.ok ((nonEmpty name?).map fun name => (kind, name))).isOk =
      true := by
    intro kind
    split
    · exact isOk_bind (isOk_methodName h habove) fun _ _ => rfl
    · exact isOk_bind (isOk_plainName h) fun _ _ => rfl
  unfold declaration
  dsimp only
  split
  case h_1 => exact isOk_bind (isOk_isAbstract fun d hd => h.part hd) fun _ _ => hnamed _
  case h_7 => rfl
  all_goals
    refine isOk_bind rfl fun kind? hkind => ?_
    cases hkind
    exact hnamed _

/-- Parameters are read. -/
theorem isOk_parameters (h : Readable s c) : (parameters s c).isOk = true := by
  unfold parameters
  split
  · rfl
  · rename_i l hl
    refine isOk_bind (isOk_collect fun p hp => ?_) fun _ _ => rfl
    have hp : Readable s p := (h.child? hl).filtered _ p hp
    refine isOk_bind (isOk_text? fun d hd => hp.child? hd) fun _ _ => ?_
    split
    · rfl
    · exact isOk_bind (isOk_text? fun d hd => hp.either hd) fun _ _ => rfl

/-- The names in a clause are readable. -/
theorem readable_of_clauseNames {kind : String} (h : Readable s c) : ∀ n ∈ clauseNames c kind, Readable s n := by
  unfold clauseNames
  split
  · rename_i clause hclause
    exact (h.child? hclause).filtered _
  · exact fun n hn => absurd hn List.not_mem_nil

/-- Base classes are read. -/
theorem isOk_baseClasses (h : Readable s c) : (baseClasses s c).isOk = true := by
  refine isOk_bind (isOk_collect_text fun n hn => ?_) fun _ _ => rfl
  rcases List.mem_append.mp hn with hn | hn
  · exact readable_of_clauseNames h n hn
  · exact readable_of_clauseNames h n hn

/-- The component at a node is read. -/
theorem isOk_componentAt (hroot : root.parent = none) (hfirst : root.earlier = []) (h : Readable s root)
    (hc : c ∈ root.preorder) : (componentAt s names owner c).isOk = true := by
  have hread : Readable s c := h.below hc
  have habove : ∀ a ∈ c.ancestors, Readable s a :=
    fun a ha => h.below (Cursor.mem_preorder_of_mem_ancestors hroot hc ha)
  refine isOk_bind (isOk_docstring hfirst h hc) fun _ _ => ?_
  refine isOk_bind (isOk_declaration hread habove) fun declared? hdeclared => ?_
  cases declared? with
  | none => rfl
  | some e =>
    obtain ⟨kind, name⟩ := e
    dsimp only
    by_cases hfunction : (kind = "function" || kind = "method") = true
    · rw [if_pos hfunction]
      refine isOk_bind (isOk_parameters hread) fun _ _ => ?_
      split
      · exact isOk_bind (isOk_baseClasses hread) fun _ _ => rfl
      · rfl
    · rw [if_neg hfunction]
      refine isOk_bind rfl fun _ _ => ?_
      split
      · exact isOk_bind (isOk_baseClasses hread) fun _ _ => rfl
      · rfl

/-- All components are read without failure. -/
theorem failure_components (hroot : root.parent = none) (hfirst : root.earlier = []) (h : Readable s root) :
    (components s names root).failure = none := by
  refine Trail.failure_each fun ⟨⟨depth, owner⟩, c⟩ hc => Trail.failure_ofExcept ?_
  refine isOk_componentAt hroot hfirst h ?_
  rw [← Cursor.map_snd_inherit]
  exact List.mem_map_of_mem (List.mem_filter.mp hc).1

end RepoAtlas.Extract.Php
