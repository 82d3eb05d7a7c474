import RepoAtlas.Proofs.Extract.Identifier
import RepoAtlas.Proofs.Syntax.Range

/-!
# Whether the source of a component shows its name

The source of a component are the lines with the numbers of its rows. Line ends other than line feeds shift the
lines against the rows, so the name is shown only as long as the rows reach it.
-/

namespace RepoAtlas.Extract

open Syntax

variable {s : Source} {root c d n : Cursor} {k : Component} {f : Findings} {kind : String} {name : String}
  {owner : Option String}

/-- A node declares a component that is named after a node below it, perhaps behind the name of an owner. -/
structure NamedAfter (s : Source) (k : Component) (c n : Cursor) (name : String) : Prop where
  below : Below n c
  text : s.text n = .ok name
  named : k.name = name ∨ ∃ owner, k.name = owner ++ "." ++ name
  source : k.sourceCode = some (s.nodeLines c)

/-- What is in a part is below the whole. -/
theorem below_of_part (hd : d ∈ c.children) (h : n = d ∨ Below n d) : Below n c := by
  rcases h with rfl | h
  · exact .child hd
  · exact .step hd h

/-- What is found in parts is below. -/
theorem below_of_findSome? {names : Cursor → Option Cursor} (h : c.children.findSome? names = some n)
    (hnames : ∀ d, names d = some n → n = d ∨ Below n d) : Below n c := by
  obtain ⟨d, hd, hn⟩ := List.exists_of_findSome?_eq_some h
  exact below_of_part hd (hnames d hn)

/-- What is found in a part of a kind is below. -/
theorem below_of_child?_bind {outer : String} {names : Cursor → Option Cursor}
    (h : (c.child? outer).bind names = some n) (hnames : ∀ d, names d = some n → Below n d) : Below n c := by
  obtain ⟨d, hd, hn⟩ := Option.bind_eq_some_iff.mp h
  exact .step (List.mem_of_find?_eq_some hd) (hnames d hn)

/-- The first of some parts after a keyword is below the node. -/
theorem below_of_find?_dropWhile {p q : Cursor → Bool} (h : (c.children.dropWhile p).find? q = some n) : Below n c :=
  .child ((List.dropWhile_sublist p).subset (List.mem_of_find?_eq_some h))

/-- A kind is put beside the node. -/
theorem eq_some_of_map_pair {kind' : String} {o : Option Cursor} (h : o.map (kind', ·) = some (kind, n)) :
    o = some n := by
  obtain ⟨d, hd, heq⟩ := Option.map_eq_some_iff.mp h
  rw [hd, (Prod.mk.inj heq).2]

namespace C

/-- A C name is below its declaration. -/
theorem below_of_declaration? (h : declaration? c = some (kind, n)) : Below n c := by
  unfold declaration? at h
  split at h
  · exact below_of_child?_bind (eq_some_of_map_pair h) fun d => below_of_child?
  split at h
  · exact below_of_child? (eq_some_of_map_pair h)
  split at h
  · split at h
    · exact below_of_child? (eq_some_of_map_pair h)
    · cases h
  split at h
  · split at h
    · refine below_of_findSome? (eq_some_of_map_pair h) fun d hd => ?_
      split at hd
      · split at hd
        · rename_i i hi
          exact Or.inr (Option.some.inj hd ▸ below_of_child? hi)
        · exact Or.inr (below_of_child?_bind hd fun e => below_of_child?)
      split at hd
      · exact Or.inl (Option.some.inj hd).symm
      · cases hd
    · cases h
  · cases h

/-- A C component is named after a node. -/
theorem exists_namedAfter (h : findings s root = .ok f) (hk : k ∈ f.components) :
    ∃ c ∈ root.preorder, ∃ kind n name, declaration? c = some (kind, n) ∧ NamedAfter s k c n name := by
  obtain ⟨c, hc, kind, n, name, hdeclaration, hread, -, rfl⟩ := exists_of_findings h hk
  exact ⟨c, hc, kind, n, name, hdeclaration, below_of_declaration? hdeclaration, hread, Or.inl rfl, rfl⟩

end C

namespace Cpp

/-- The name of a definition is below it. -/
theorem below_of_definitionName? (h : definitionName? c = some n) : Below n c := by
  refine below_of_child?_bind h fun d hd => below_of_findSome? hd fun e he => ?_
  split at he
  · exact Or.inl (Option.some.inj he).symm
  split at he
  · exact Or.inr (.child (List.mem_filter.mp (List.mem_of_getLast? he)).1)
  · cases he

/-- A C++ name is below its declaration. -/
theorem below_of_declaration? (h : declaration? s c = .ok (some (kind, n))) : Below n c := by
  unfold declaration? at h
  split at h
  · exact below_of_child? (eq_some_of_map_pair (Except.ok.inj h))
  split at h
  · exact below_of_child? (eq_some_of_map_pair (Except.ok.inj h))
  split at h
  · obtain ⟨owner, -, h⟩ := bind_eq_ok.mp h
    exact below_of_definitionName? (eq_some_of_map_pair (Except.ok.inj h))
  split at h
  · have h := Except.ok.inj h
    split at h
    · refine below_of_findSome? (eq_some_of_map_pair h) fun d hd => ?_
      split at hd
      · exact Or.inr (below_of_child? hd)
      split at hd
      · exact Or.inl (Option.some.inj hd).symm
      · cases hd
    · cases h
  split at h
  · exact below_of_find?_dropWhile (eq_some_of_map_pair (Except.ok.inj h))
  · cases h

/-- A C++ component is named after a node. -/
theorem exists_namedAfter (h : findings s root = .ok f) (hk : k ∈ f.components) :
    ∃ c ∈ root.preorder, ∃ kind n name, declaration? s c = .ok (some (kind, n)) ∧ NamedAfter s k c n name := by
  obtain ⟨c, hc, kind, n, hdeclaration, hread, -, hsource⟩ := exists_of_findings h hk
  exact ⟨c, hc, kind, n, _, hdeclaration, below_of_declaration? hdeclaration, hread, Or.inl rfl, hsource⟩

end Cpp

namespace CSharp

/-- A C# name is below its declaration. -/
theorem below_of_declaration? (h : declaration? s c = .ok (some (kind, n))) : Below n c := by
  unfold declaration? at h
  split at h
  · obtain ⟨kind', -, h⟩ := bind_eq_ok.mp h
    exact below_of_find?_dropWhile (eq_some_of_map_pair (Except.ok.inj h))
  iterate 4
    split at h
    · exact below_of_find?_dropWhile (eq_some_of_map_pair (Except.ok.inj h))
  split at h
  · exact below_of_child? (eq_some_of_map_pair (Except.ok.inj h))
  · cases h

/-- A C# component is named after a node. -/
theorem exists_namedAfter (h : findings s root = .ok f) (hk : k ∈ f.components) :
    ∃ c ∈ root.preorder, ∃ kind n name, declaration? s c = .ok (some (kind, n)) ∧ NamedAfter s k c n name := by
  obtain ⟨c, hc, kind, n, name, hdeclaration, hread, -, rfl⟩ := exists_of_findings h hk
  exact ⟨c, hc, kind, n, name, hdeclaration, below_of_declaration? hdeclaration, hread, Or.inl rfl, rfl⟩

end CSharp

namespace Java

/-- A Java name is that of an identifier, perhaps behind its owner. -/
theorem exists_of_declaration? (h : declaration? s c = .ok (some (kind, name))) :
    ∃ n t, c.child? "identifier" = some n ∧ s.text n = .ok t ∧
      (name = t ∨ ∃ owner, name = owner ++ "." ++ t) := by
  unfold declaration? at h
  split at h
  · obtain ⟨plain, hplain, h⟩ := bind_eq_ok.mp h
    split at h
    · cases h
    · rename_i t
      obtain ⟨n, hn, ht⟩ := text?_eq_some_iff.mp hplain
      refine ⟨n, t, hn, ht, ?_⟩
      obtain ⟨owner?, -, h⟩ := bind_eq_ok.mp h
      split at h
      · rename_i owner howner
        exact Or.inr ⟨owner, (Prod.mk.inj (Option.some.inj (Except.ok.inj h))).2.symm⟩
      · exact Or.inl (Prod.mk.inj (Option.some.inj (Except.ok.inj h))).2.symm
  · obtain ⟨type?, -, h⟩ := bind_eq_ok.mp h
    split at h
    · cases h
    · obtain ⟨plain, hplain, h⟩ := bind_eq_ok.mp h
      obtain ⟨t, ht, heq⟩ := Option.map_eq_some_iff.mp (Except.ok.inj h)
      subst ht
      obtain ⟨n, hn, hread⟩ := text?_eq_some_iff.mp hplain
      exact ⟨n, t, hn, hread, Or.inl (Prod.mk.inj heq).2.symm⟩

/-- A Java component is named after its identifier. -/
theorem exists_namedAfter (h : findings s root = .ok f) (hk : k ∈ f.components) :
    ∃ c ∈ root.preorder, ∃ n name, c.child? "identifier" = some n ∧ NamedAfter s k c n name := by
  obtain ⟨all, hall, h⟩ := bind_eq_ok.mp h
  obtain ⟨relationships, -, h⟩ := bind_eq_ok.mp h
  cases h
  obtain ⟨c, hc, kind, name, hdeclaration, rfl⟩ := exists_of_components hall hk
  obtain ⟨n, t, hn, ht, hname⟩ := exists_of_declaration? hdeclaration
  exact ⟨c, hc, n, t, hn, below_of_child? hn, ht, hname, rfl⟩

end Java

namespace Php

/-- The name of a method is its own, perhaps behind its owner. -/
theorem exists_of_methodName
    (h : methodName s owner c = .ok (some name)) :
    ∃ n t, c.child? "name" = some n ∧ s.text n = .ok t ∧
      (name = t ∨ ∃ owner, name = owner ++ "." ++ t) := by
  obtain ⟨plain, hplain, h⟩ := bind_eq_ok.mp h
  split at h
  · cases h
  · rename_i t
    obtain ⟨n, hn, hread⟩ := text?_eq_some_iff.mp hplain
    refine ⟨n, t, hn, hread, ?_⟩
    -- The owner is given, or it is looked for around the method.
    dsimp only at h
    split at h
    all_goals
      obtain ⟨owner', -, h⟩ := bind_eq_ok.mp h
      split at h
      · exact Or.inr ⟨_, (Option.some.inj (Except.ok.inj h)).symm⟩
      · exact Or.inl (Option.some.inj (Except.ok.inj h)).symm

/-- A name that is told was read. -/
theorem eq_ok_of_named {x : Except Fault (Option String)} {kind' : String}
    (h : (x >>= fun name? => Except.ok ((nonEmpty name?).map fun name => (kind', name))) = .ok (some (kind, name))) :
    x = .ok (some name) := by
  obtain ⟨name?, hname?, h⟩ := bind_eq_ok.mp h
  obtain ⟨name', hname', heq⟩ := Option.map_eq_some_iff.mp (Except.ok.inj h)
  rw [hname?, eq_some_of_nonEmpty hname', (Prod.mk.inj heq).2]

/-- Either way the name is that of a node, perhaps behind its owner. -/
theorem exists_of_named {kind' : String}
    (h : (if kind' = "method" then
        methodName s owner c >>= fun name? => Except.ok ((nonEmpty name?).map fun name => (kind', name))
      else plainName s c >>= fun name? => Except.ok ((nonEmpty name?).map fun name => (kind', name))) =
      .ok (some (kind, name))) :
    ∃ n t, c.child? "name" = some n ∧ s.text n = .ok t ∧
      (name = t ∨ ∃ owner, name = owner ++ "." ++ t) := by
  split at h
  · exact exists_of_methodName (eq_ok_of_named h)
  · obtain ⟨n, hn, hread⟩ := text?_eq_some_iff.mp (eq_ok_of_named h)
    exact ⟨n, name, hn, hread, Or.inl rfl⟩

/-- A PHP name is that of a node, perhaps behind its owner. -/
theorem exists_of_declaration
    (h : declaration s owner c = .ok (some (kind, name))) :
    ∃ n t, c.child? "name" = some n ∧ s.text n = .ok t ∧
      (name = t ∨ ∃ owner, name = owner ++ "." ++ t) := by
  unfold declaration at h
  dsimp only at h
  split at h
  case h_1 =>
    obtain ⟨isAbstract, -, h⟩ := bind_eq_ok.mp h
    exact exists_of_named h
  case h_7 => cases h
  all_goals
    obtain ⟨kind?, hkind, h⟩ := bind_eq_ok.mp h
    cases hkind
    exact exists_of_named h

/-- A PHP component is named after its name. -/
theorem exists_namedAfter (hk : k ∈ (findings s root).components) :
    ∃ c ∈ root.preorder, ∃ n name, c.child? "name" = some n ∧ NamedAfter s k c n name := by
  unfold findings at hk
  split at hk
  · cases hk
  · rename_i names hnames
    obtain ⟨⟨⟨depth, owner⟩, c⟩, hc, hk⟩ := Trail.exists_of_mem_each hk
    obtain ⟨found, hfound, hmem⟩ := Trail.exists_of_mem_ofExcept hk
    have hnode : c ∈ root.preorder := by
      rw [← Cursor.map_snd_inherit]
      exact List.mem_map_of_mem (List.mem_filter.mp hc).1
    refine ⟨c, hnode, ?_⟩
    rcases componentAt_cases hfound with ⟨-, rfl⟩ | ⟨kind, name, k', hdeclaration, rfl, hname', -, hsource, -⟩
    · cases hmem
    · obtain rfl := List.mem_singleton.mp hmem
      obtain ⟨n, t, hn, ht, hname⟩ := exists_of_declaration hdeclaration
      exact ⟨n, t, hn, below_of_child? hn, ht, hname' ▸ hname, hsource⟩

end Php

namespace Go

/-- The node that names what a node declares. -/
def nameNode? (c : Cursor) : Option Cursor :=
  if c.kind = "function_declaration" then c.child? "identifier"
  else if c.kind = "method_declaration" then c.child? "field_identifier"
  else if c.kind = "type_declaration" then (c.child? "type_spec").bind (·.child? "type_identifier")
  else none

/-- A text that is not empty is that of a node. -/
theorem exists_of_nonEmpty_text? {o : Option Cursor} {name? : Option String} (h : s.text? o = .ok name?)
    (hname : nonEmpty name? = some name) : ∃ n, o = some n ∧ s.text n = .ok name :=
  text?_eq_some_iff.mp (eq_some_of_nonEmpty hname ▸ h)

/-- A heading is named by a node below. -/
theorem exists_nameNode? {d : Heading} (h : heading? s c = .ok (some d)) :
    ∃ n, nameNode? c = some n ∧ Below n c ∧ s.text n = .ok d.name := by
  unfold heading? at h
  unfold nameNode?
  split at h
  · rename_i hkind
    obtain ⟨name?, hname?, h⟩ := bind_eq_ok.mp h
    obtain ⟨name, hname, rfl⟩ := Option.map_eq_some_iff.mp (Except.ok.inj h)
    obtain ⟨n, hn, hread⟩ := exists_of_nonEmpty_text? hname? hname
    rw [if_pos hkind]
    exact ⟨n, hn, below_of_child? hn, hread⟩
  rename_i hfunction
  split at h
  · rename_i hkind
    obtain ⟨name?, hname?, h⟩ := bind_eq_ok.mp h
    obtain ⟨receiver, -, h⟩ := bind_eq_ok.mp h
    obtain ⟨name, hname, rfl⟩ := Option.map_eq_some_iff.mp (Except.ok.inj h)
    obtain ⟨n, hn, hread⟩ := exists_of_nonEmpty_text? hname? hname
    rw [if_neg hfunction, if_pos hkind]
    exact ⟨n, hn, below_of_child? hn, hread⟩
  rename_i hmethod
  split at h
  · rename_i hkind
    rw [if_neg hfunction, if_neg hmethod, if_pos hkind]
    split at h
    · cases h
    · rename_i spec hspec
      obtain ⟨name?, hname?, h⟩ := bind_eq_ok.mp h
      split at h
      · rename_i name kind hname hkind
        cases h
        obtain ⟨n, hn, hread⟩ := exists_of_nonEmpty_text? hname? hname
        refine ⟨n, by rw [hspec]; exact hn, ?_, hread⟩
        exact .step (List.mem_of_find?_eq_some hspec) (below_of_child? hn)
      · cases h
  · cases h

/-- A Go component is named after a node. -/
theorem exists_namedAfter (hk : k ∈ (findings s root).findings.components) :
    ∃ c ∈ root.preorder, ∃ n name, nameNode? c = some n ∧ NamedAfter s k c n name := by
  have hdeclared : k ∈ (declarations s root).found.map (·.1) := by
    unfold findings at hk
    split at hk
    · cases hk
    · dsimp only at hk
      split at hk
      · exact hk
      · exact hk
  obtain ⟨e, he, rfl⟩ := List.mem_map.mp hdeclared
  obtain ⟨c, hc, he⟩ := Trail.exists_of_mem_each he
  obtain ⟨found, hfound, hmem⟩ := Trail.exists_of_mem_ofExcept he
  obtain ⟨d, hd, hhead⟩ := exists_heading_of_mem_declaredAt hfound hmem
  obtain ⟨n, hn, hbelow, hread⟩ := exists_nameNode? hd
  exact ⟨c, Cursor.mem_preorder_of_mem_within hc, n, d.name, hn, hbelow, hread, Or.inl hhead.name, hhead.code⟩

end Go

/-- How the source `code` of a component that `c` declares shows the name `name`, which stands at `n`. -/
structure NameShown (s : Source) (k : Component) (c n : Cursor) (name code : String) : Prop where
  text : s.text n = .ok name
  named : k.name = name ∨ ∃ owner, k.name = owner ++ "." ++ name
  source : k.sourceCode = some code
  /-- Where only line feeds end lines before and in the name, the name is shown. -/
  shown : straysBefore s.chars n.tree.start = 0 → (∀ x ∈ name.toList, Text.endsLine x = true → x = '\n') →
    name.toList.getLast? ≠ some '\n' → Text.has code name = true
  /-- A name on one row is shown if the lines reach its place, or else by chance on a line before. -/
  shown_iff : name ≠ "" → '\n' ∉ name.toList →
    (Text.has code name = true ↔ (∀ x ∈ name.toList, Text.endsLine x = false) ∧
      (s.startRow n + straysBefore s.chars n.tree.start ≤ s.endRow c ∨
        ∃ i line, s.startRow c ≤ i ∧ i ≤ s.endRow c ∧
          i < s.startRow n + straysBefore s.chars n.tree.start ∧ s.lines[i]? = some line ∧
          Text.has line name = true))

/-- In a nested tree the name of a component is shown as far as the lines of its declaration reach. -/
theorem NamedAfter.shown {text path : String} {above : Option String} (hroot : Nested root) (hc : c ∈ root.preorder)
    (h : NamedAfter (Source.of text path above) k c n name) :
    NameShown (Source.of text path above) k c n name ((Source.of text path above).nodeLines c) := by
  have hinside : Inside n c := hroot.inside hc h.below
  refine ⟨h.text, h.named, h.source, ?_, fun hne hfeed => Source.has_nodeLines_iff hinside h.text hne hfeed⟩
  intro hstrays hends hlast
  by_cases hne : name = ""
  · subst hne
    exact Text.occurs_iff_infix.mpr List.nil_infix
  · refine Source.has_nodeLines_of_reach hinside h.text hends hlast hne ?_
    exact (Source.lineIndex_add_count_le h.text hne hstrays).trans (rowAt_mono _ hinside.2.2)

/-- Whether the source of a component shows the name it was given, for every file of six languages whose tree
is nested. -/
theorem name_shown_iff_lines_reach (text path : String) (above : Option String) (tree : Tree)
    (hnested : Nested (Cursor.ofTree tree)) :
    let s := Source.of text path above
    let root := Cursor.ofTree tree
    (∀ f, C.findings s root = .ok f → ∀ k ∈ f.components, ∃ c ∈ root.preorder, ∃ kind n name code,
      C.declaration? c = some (kind, n) ∧ NameShown s k c n name code) ∧
    (∀ f, Cpp.findings s root = .ok f → ∀ k ∈ f.components, ∃ c ∈ root.preorder, ∃ kind n name code,
      Cpp.declaration? s c = .ok (some (kind, n)) ∧ NameShown s k c n name code) ∧
    (∀ f, Java.findings s root = .ok f → ∀ k ∈ f.components, ∃ c ∈ root.preorder, ∃ n name code,
      c.child? "identifier" = some n ∧ NameShown s k c n name code) ∧
    (∀ f, CSharp.findings s root = .ok f → ∀ k ∈ f.components, ∃ c ∈ root.preorder, ∃ kind n name code,
      CSharp.declaration? s c = .ok (some (kind, n)) ∧ NameShown s k c n name code) ∧
    (∀ k ∈ (Go.findings s root).findings.components, ∃ c ∈ root.preorder, ∃ n name code,
      Go.nameNode? c = some n ∧ NameShown s k c n name code) ∧
    (∀ k ∈ (Php.findings s root).components, ∃ c ∈ root.preorder, ∃ n name code,
      c.child? "name" = some n ∧ NameShown s k c n name code) := by
  intro s root
  refine ⟨fun f hf k hk => ?_, fun f hf k hk => ?_, fun f hf k hk => ?_, fun f hf k hk => ?_,
    fun k hk => ?_, fun k hk => ?_⟩
  · obtain ⟨c, hc, kind, n, name, hdeclaration, h⟩ := C.exists_namedAfter hf hk
    exact ⟨c, hc, kind, n, name, _, hdeclaration, h.shown hnested hc⟩
  · obtain ⟨c, hc, kind, n, name, hdeclaration, h⟩ := Cpp.exists_namedAfter hf hk
    exact ⟨c, hc, kind, n, name, _, hdeclaration, h.shown hnested hc⟩
  · obtain ⟨c, hc, n, name, hn, h⟩ := Java.exists_namedAfter hf hk
    exact ⟨c, hc, n, name, _, hn, h.shown hnested hc⟩
  · obtain ⟨c, hc, kind, n, name, hdeclaration, h⟩ := CSharp.exists_namedAfter hf hk
    exact ⟨c, hc, kind, n, name, _, hdeclaration, h.shown hnested hc⟩
  · obtain ⟨c, hc, n, name, hn, h⟩ := Go.exists_namedAfter hk
    exact ⟨c, hc, n, name, _, hn, h.shown hnested hc⟩
  · obtain ⟨c, hc, n, name, hn, h⟩ := Php.exists_namedAfter hk
    exact ⟨c, hc, n, name, _, hn, h.shown hnested hc⟩

/-- The text of a file with a form feed before a function. -/
def fedText : String :=
  "\x0cvoid f() \x7b\n\x7d\n"

/-- The tree of that file. -/
def fedTree : Tree :=
  .node "translation_unit" 0 14 [.node "function_definition" 1 13 [
    .leaf "primitive_type" 1 5,
    .node "function_declarator" 6 9 [.leaf "identifier" 6 7, .round "parameter_list" 7 9 []],
    .curly "compound_statement" 10 13 []]]

/-- The function is shown without its last line, but with its name. -/
theorem fed_name_shown :
    Nested (Cursor.ofTree fedTree) ∧
    ∃ f, C.findings (Source.of fedText "/r/m.c" (some "/r")) (Cursor.ofTree fedTree) = .ok f ∧
      ∃ k ∈ f.components, k.name = "f" ∧ ∃ code, k.sourceCode = some code ∧ Text.has code "f" = true := by
  have hnested : Nested (Cursor.ofTree fedTree) := by decide +kernel
  obtain ⟨f, hf, k, hk, hname⟩ :
      ∃ f ∈ (C.findings (Source.of fedText "/r/m.c" (some "/r")) (Cursor.ofTree fedTree)).toOption,
        ∃ k ∈ f.components, k.name = "f" := by
    decide +kernel
  -- The form feed is one stray line end, and the function goes on for one row after its name.
  have hreach : ∀ c ∈ (Cursor.ofTree fedTree).preorder, ∀ p ∈ C.declaration? c,
      (Source.of fedText "/r/m.c" (some "/r")).startRow p.2 +
        straysBefore (Source.of fedText "/r/m.c" (some "/r")).chars p.2.tree.start ≤
      (Source.of fedText "/r/m.c" (some "/r")).endRow c := by
    decide +kernel
  obtain ⟨c, hc, kind, n, name, code, hn, hshown⟩ :=
    (name_shown_iff_lines_reach fedText "/r/m.c" (some "/r") fedTree hnested).1 f (eq_ok_of_toOption hf) k hk
  have hplain : name = "f" := by
    rcases hshown.named with heq | ⟨owner, heq⟩
    · exact heq.symm.trans hname
    · have hdot : '.' ∈ k.name.toList := by simp [heq]
      rw [hname] at hdot
      exact absurd hdot (by decide)
  subst hplain
  refine ⟨hnested, f, eq_ok_of_toOption hf, k, hk, hname, code, hshown.source, ?_⟩
  have hends : ∀ x ∈ "f".toList, Text.endsLine x = false := by
    intro x hx
    have hletter : "f".toList = ['f'] := by decide
    rw [hletter] at hx
    obtain rfl := List.mem_singleton.mp hx
    decide
  exact (hshown.shown_iff (by decide) (by decide)).mpr ⟨hends, Or.inl (hreach c hc (kind, n) hn)⟩

/-- The text of a file with a form feed on a line of its own before a function. -/
def partedText : String :=
  "int a;\n\x0c\nvoid f() \x7b\x7d\n"

/-- The tree of that file. -/
def partedTree : Tree :=
  .node "translation_unit" 0 21 [
    .node "declaration" 0 6 [.leaf "primitive_type" 0 3, .leaf "identifier" 4 5, .sign ";" 5 6],
    .node "function_definition" 9 20 [
      .leaf "primitive_type" 9 13,
      .node "function_declarator" 14 17 [.leaf "identifier" 14 15, .round "parameter_list" 15 17 []],
      .curly "compound_statement" 18 20 []]]

/-- The source of the function is the empty line before it. -/
theorem parted_name_not_shown :
    Nested (Cursor.ofTree partedTree) ∧
    ∃ f, C.findings (Source.of partedText "/r/m.c" (some "/r")) (Cursor.ofTree partedTree) = .ok f ∧
      ∃ k ∈ f.components, k.name = "f" ∧ k.sourceCode = some "" ∧ Text.has "" "f" = false := by
  refine ⟨by decide +kernel, ?_⟩
  obtain ⟨f, hf, k, hk, hname, hcode⟩ :
      ∃ f ∈ (C.findings (Source.of partedText "/r/m.c" (some "/r")) (Cursor.ofTree partedTree)).toOption,
        ∃ k ∈ f.components, k.name = "f" ∧ k.sourceCode = some "" := by
    decide +kernel
  exact ⟨f, eq_ok_of_toOption hf, k, hk, hname, hcode, by decide⟩

end RepoAtlas.Extract
