import RepoAtlas.Proofs.Extract.Identifier
import RepoAtlas.Proofs.Extract.PhpReadable
import RepoAtlas.Proofs.Text.Cutting

/-!
# Namespaces of PHP files

All names of a file become known before any component is found, so all components are named in the namespace
that the file declares last.
-/

namespace RepoAtlas.Extract.Php

open Syntax

variable {s : Source} {root c : Cursor} {names names' : Names} {owner : Option String} {kind name : String}

/-- The namespace that a node declares. -/
def space? (s : Source) (c : Cursor) : Option String :=
  if c.kind = "namespace_definition" then (s.text? (c.child? "namespace_name")).toOption.join else none

/-- The namespaces that nodes declare, in order. -/
def spaces (s : Source) (nodes : List Cursor) : List String :=
  nodes.filterMap (space? s)

/-- The dotted name in front of what is declared in a namespace. -/
def frontIn (s : Source) (space : String) : String :=
  if single space = "" then moduleName s else dotted (single space)

/-- Uses keep the namespace. -/
theorem current_foldl_use (imports : List (String × Option String)) (names : Names) :
    (imports.foldl (fun n (name, alias?) => n.use name alias?) names).current = names.current := by
  induction imports generalizing names with
  | nil => rfl
  | cons e imports ih => exact ih (names.use e.1 e.2)

/-- A node enters the namespace that it declares. -/
theorem current_of_noteNames (h : noteNames s names c = .ok names') :
    names'.current = ((space? s c).map single).getD names.current := by
  unfold noteNames at h
  unfold space?
  split at h
  · rename_i hkind
    obtain ⟨space, hspace, h⟩ := bind_eq_ok.mp h
    rw [if_pos hkind, hspace]
    cases space with
    | none => exact Except.ok.inj h ▸ rfl
    | some space => exact Except.ok.inj h ▸ rfl
  · rename_i hkind
    rw [if_neg hkind]
    split at h
    · obtain ⟨imports, -, h⟩ := bind_eq_ok.mp h
      exact Except.ok.inj h ▸ current_foldl_use imports names
    · exact Except.ok.inj h ▸ rfl

/-- In the end the namespace is the last one declared. -/
theorem current_of_namesOf {nodes : List Cursor} (h : namesOf s names nodes = .ok names') :
    names'.current = ((spaces s nodes).getLast?.map single).getD names.current := by
  induction nodes generalizing names with
  | nil => exact Except.ok.inj h ▸ rfl
  | cons c nodes ih =>
    obtain ⟨noted, hnoted, h⟩ := bind_eq_ok.mp h
    rw [ih h, current_of_noteNames hnoted, spaces, spaces, List.filterMap_cons]
    cases space? s c with
    | none => rfl
    | some space =>
      rw [List.getLast?_cons]
      cases (nodes.filterMap (space? s)).getLast? <;> rfl

/-- Every identifier begins with the last namespace. -/
theorem componentId_of_namesOf {nodes : List Cursor} {last : String} (h : namesOf s {} nodes = .ok names)
    (hlast : (spaces s nodes).getLast? = some last) (name : String) :
    componentId s names name = frontIn s last ++ "." ++ name := by
  have hcurrent : names.current = single last := by
    rw [current_of_namesOf h, hlast]
    rfl
  rw [componentId, hcurrent, frontIn]

/-- The kinds of nodes that declare something under their own name. -/
def plainDeclarations : List String :=
  typeDeclarations ++ ["function_definition"]

/-- A plain declaration is told under its name. -/
theorem exists_declaration (owner : Option String) (h : Readable s c) (hkind : c.kind ∈ plainDeclarations)
    (hname : s.text? (c.child? "name") = .ok (some name)) (hne : name ≠ "") :
    ∃ kind, declaration s owner c = .ok (some (kind, name)) := by
  have hplain : ∀ kind : String, (plainName s c >>= fun name? =>
      Except.ok ((nonEmpty name?).map fun name => (kind, name))) = .ok (some (kind, name)) := by
    intro kind
    rw [plainName, hname]
    change Except.ok ((nonEmpty (some name)).map _) = _
    rw [nonEmpty_of_ne hne]
    rfl
  simp only [plainDeclarations, typeDeclarations, List.cons_append, List.nil_append, List.mem_cons,
    List.not_mem_nil, or_false] at hkind
  unfold declaration
  rcases hkind with hkind | hkind | hkind | hkind | hkind
  · obtain ⟨b, hb⟩ := exists_of_isOk (isOk_isAbstract fun d (hd : d ∈ c.children) => h.part hd)
    rw [hkind, hb]
    cases b with
    | true => exact ⟨"abstract class", hplain "abstract class"⟩
    | false => exact ⟨"class", hplain "class"⟩
  · rw [hkind]
    exact ⟨"interface", hplain "interface"⟩
  · rw [hkind]
    exact ⟨"trait", hplain "trait"⟩
  · rw [hkind]
    exact ⟨"enum", hplain "enum"⟩
  · rw [hkind]
    exact ⟨"function", hplain "function"⟩

/-- A component is the one of a declaration: it has its name, its lines and its place in the namespace. -/
structure Describes (s : Source) (names : Names) (c : Cursor) (called : String) (k : Component) : Prop where
  name : k.name = called
  startLine : k.startLine = s.startLine c
  endLine : k.endLine = s.endLine c
  id : k.id = componentId s names called

/-- A declaration has one component. -/
theorem exists_describes {found : List Component} (h : componentAt s names owner c = .ok found)
    (hdeclaration : declaration s owner c = .ok (some (kind, name))) : ∃ k ∈ found, Describes s names c name k := by
  rcases componentAt_cases h with ⟨hnone, -⟩ | ⟨kind', name', k, hdeclared, rfl, hname, hid, -, hstart, hend, -⟩
  · cases hdeclaration.symm.trans hnone
  · cases hdeclaration.symm.trans hdeclared
    exact ⟨k, List.mem_cons_self, hname, hstart, hend, hid⟩

/-- Every node within the limit is looked at, with some type around it. -/
theorem exists_owner (hc : c ∈ root.within depthLimit) :
    ∃ owner depth, ((depth, owner), c) ∈
      (root.inherit (fun (d, owner) c => (d + 1, ownerBelow s owner c)) (0, none)).filter
        fun ((d, _), _) => d ≤ depthLimit := by
  have hdepths : (root.inherit (fun (d, owner) c => (d + 1, ownerBelow s owner c)) (0, none)).map
      (fun e => (e.1.1, e.2)) = root.depths :=
    Cursor.map_inherit (g := Prod.fst) (fun _ _ => rfl) _ _
  obtain ⟨⟨depth, e⟩, he, rfl⟩ := List.mem_map.mp hc
  obtain ⟨hmem, hdepth⟩ := List.mem_filter.mp he
  rw [← hdepths] at hmem
  obtain ⟨⟨⟨d, owner⟩, n⟩, hn, heq⟩ := List.mem_map.mp hmem
  cases heq
  exact ⟨owner, d, List.mem_filter.mpr ⟨hn, hdepth⟩⟩

/-- In a readable tree every declaration with a name of its own has a component. -/
theorem exists_components (hroot : root.parent = none) (hfirst : root.earlier = []) (h : Readable s root) :
    ∃ names, namesOf s {} (root.within depthLimit) = .ok names ∧
      ∀ c ∈ root.within depthLimit, c.kind ∈ plainDeclarations →
        ∀ name, s.text? (c.child? "name") = .ok (some name) → name ≠ "" →
          ∃ k ∈ (findings s root).components, Describes s names c name k := by
  have hnodes : ∀ c ∈ root.within depthLimit, Readable s c :=
    fun c hc => h.below (Cursor.mem_preorder_of_mem_within hc)
  have hknown : (namesOf s {} (root.within depthLimit)).isOk = true := isOk_namesOf hnodes
  obtain ⟨names, hnames⟩ := exists_of_isOk hknown
  have hfailure : (components s names root).failure = none := failure_components hroot hfirst h
  refine ⟨names, hnames, fun c hc hkind name hname hne => ?_⟩
  obtain ⟨owner, depth, hmem⟩ := exists_owner (s := s) hc
  obtain ⟨hfound, hsub⟩ := Trail.subset_of_each hfailure hmem
  obtain ⟨kind, hdeclaration⟩ := exists_declaration owner (hnodes c hc) hkind hname hne
  obtain ⟨k, hk, hdescribes⟩ := exists_describes (Trail.eq_ok_of_failure hfound) hdeclaration
  refine ⟨k, ?_, hdescribes⟩
  rw [findings, hnames]
  exact hsub k hk

/-- The namespace that stands before a part of a file is declared in the file, perhaps not as the last one. -/
theorem exists_last {before after : List Cursor} {part definition : Cursor} {space : String}
    (hparts : root.children = before ++ part :: after)
    (hdefinition : before.reverse.find? (·.kind = "namespace_definition") = some definition)
    (hspace : space? s definition = some space) :
    ∃ last, (spaces s (root.within depthLimit)).getLast? = some last := by
  have hmem : definition ∈ root.children := by
    rw [hparts]
    exact List.mem_append_left _ (List.mem_reverse.mp (List.mem_of_find?_eq_some hdefinition))
  have hwithin : definition ∈ root.within depthLimit := Cursor.mem_within_of_mem_children (by decide) hmem
  have hne : spaces s (root.within depthLimit) ≠ [] :=
    List.ne_nil_of_mem (List.mem_filterMap.mpr ⟨definition, hwithin, hspace⟩)
  exact ⟨_, List.getLast?_eq_some_getLast hne⟩

/-- A declaration is named in the last namespace of the file. Its identifier begins with its own exactly if
the last one does, or if its own goes on from that with a beginning of its name. -/
theorem id_begins_with_namespace_iff (tree : Tree) (h : Readable s (Cursor.ofTree tree))
    {before after : List Cursor} {part definition : Cursor} {space : String}
    (hparts : (Cursor.ofTree tree).children = before ++ part :: after)
    (hdefinition : before.reverse.find? (·.kind = "namespace_definition") = some definition)
    (hspace : space? s definition = some space) :
    ∃ last, (spaces s ((Cursor.ofTree tree).within depthLimit)).getLast? = some last ∧
      ∀ c ∈ part.preorder, c ∈ (Cursor.ofTree tree).within depthLimit → c.kind ∈ plainDeclarations →
        ∀ name, s.text? (c.child? "name") = .ok (some name) → name ≠ "" →
          ∃ k ∈ (findings s (Cursor.ofTree tree)).components,
            k.name = name ∧ k.startLine = s.startLine c ∧ k.endLine = s.endLine c ∧
            k.id = frontIn s last ++ "." ++ name ∧
            (Text.begins k.id (dotted space) = true ↔
              Text.begins (frontIn s last) (dotted space) = true ∨
                ∃ more, dotted space = frontIn s last ++ "." ++ more ∧ Text.begins name more = true) := by
  obtain ⟨last, hlast⟩ := exists_last hparts hdefinition hspace
  obtain ⟨names, hnames, hcomponents⟩ := exists_components rfl rfl h
  refine ⟨last, hlast, fun c _ hc hkind name hname hne => ?_⟩
  obtain ⟨k, hk, hdescribes⟩ := hcomponents c hc hkind name hname hne
  have hid : k.id = frontIn s last ++ "." ++ name :=
    hdescribes.id.trans (componentId_of_namesOf hnames hlast name)
  refine ⟨k, hk, hdescribes.name, hdescribes.startLine, hdescribes.endLine, hid, ?_⟩
  rw [hid]
  exact Text.begins_append_dot_iff

/-- The source of a file with two namespaces and a class in each. -/
def twoSpaces : Source :=
  Source.of "<?php\nnamespace A;\nclass X \x7b\x7d\nnamespace B;\nclass Y \x7b\x7d\n" "/r/m.php" (some "/r")

/-- The tree of that file. -/
def twoSpacesTree : Tree :=
  .node "program" 0 54 [
    .leaf "php_tag" 0 5,
    .node "namespace_definition" 6 18 [
      .sign "namespace" 6 15, .node "namespace_name" 16 17 [.leaf "name" 16 17], .sign ";" 17 18],
    .node "class_declaration" 19 29 [.sign "class" 19 24, .leaf "name" 25 26, .leaf "declaration_list" 27 29],
    .node "namespace_definition" 30 42 [
      .sign "namespace" 30 39, .node "namespace_name" 40 41 [.leaf "name" 40 41], .sign ";" 41 42],
    .node "class_declaration" 43 53 [.sign "class" 43 48, .leaf "name" 49 50, .leaf "declaration_list" 51 53]]

/-- The class in the last namespace has an identifier that begins with its namespace. -/
theorem last_class_in_own_namespace :
    Readable twoSpaces (Cursor.ofTree twoSpacesTree) ∧
    ∃ k ∈ (findings twoSpaces (Cursor.ofTree twoSpacesTree)).components,
      k.name = "Y" ∧ Text.begins k.id (dotted "B") = true := by
  have hread : Readable twoSpaces (Cursor.ofTree twoSpacesTree) := by decide +kernel
  have hlast : (spaces twoSpaces ((Cursor.ofTree twoSpacesTree).within depthLimit)).getLast? = some "B" := by
    decide +kernel
  obtain ⟨before, definition, part, hparts, hdefinition, hspace, hkind, hname⟩ :
      ∃ before definition part, (Cursor.ofTree twoSpacesTree).children = before ++ [part] ∧
        before.reverse.find? (·.kind = "namespace_definition") = some definition ∧
        space? twoSpaces definition = some "B" ∧ part.kind ∈ plainDeclarations ∧
        (twoSpaces.text? (part.child? "name")).toOption = some (some "Y") :=
    ⟨[_, _, _, _], _, _, rfl, rfl, by decide +kernel, by decide +kernel, by decide +kernel⟩
  have hpart : part ∈ (Cursor.ofTree twoSpacesTree).children := hparts ▸ List.mem_append_right _ List.mem_cons_self
  obtain ⟨last, hlast', hcomponents⟩ := id_begins_with_namespace_iff twoSpacesTree hread hparts hdefinition hspace
  obtain rfl : "B" = last := Option.some.inj (hlast.symm.trans hlast')
  obtain ⟨k, hk, hk', -, -, -, hbegins⟩ := hcomponents part part.self_mem_preorder
    (Cursor.mem_within_of_mem_children (by decide) hpart) hkind "Y" (eq_ok_of_toOption hname) (by decide)
  exact ⟨hread, k, hk, hk', hbegins.mpr (Or.inl (by decide +kernel))⟩

/-- The class in the first namespace has an identifier that does not begin with its namespace. -/
theorem first_class_in_last_namespace :
    Readable twoSpaces (Cursor.ofTree twoSpacesTree) ∧
    (∃ before definition part after, (Cursor.ofTree twoSpacesTree).children = before ++ part :: after ∧
      before.reverse.find? (·.kind = "namespace_definition") = some definition ∧
      definition.child? "compound_statement" = none ∧ space? twoSpaces definition = some "A" ∧
      part.kind = "class_declaration" ∧ (twoSpaces.text? (part.child? "name")).toOption = some (some "X")) ∧
    ∃ k ∈ (findings twoSpaces (Cursor.ofTree twoSpacesTree)).components,
      k.name = "X" ∧ k.id = "B.X" ∧ Text.begins k.id (dotted "A") = false := by
  refine ⟨by decide +kernel, ⟨[_, _], _, _, _, rfl, rfl, rfl, ?_, rfl, ?_⟩, ?_⟩
  · decide +kernel
  · decide +kernel
  · decide +kernel

end RepoAtlas.Extract.Php
