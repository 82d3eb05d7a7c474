import RepoAtlas.Extract.Dispatch
import RepoAtlas.Proofs.Extract.Heading

/-!
# Identifiers of components

All identifiers of a file begin with one dotted name, that of the file or, in PHP, of its namespace. No analysis
of a single file knows what a component implements.
-/

namespace RepoAtlas.Extract

open Syntax

/-- An identifier under a dotted name: the name, a dot and more. Any identifier is under the empty
name. -/
def Under (front id : String) : Prop :=
  (∃ rest, id = front ++ "." ++ rest) ∨ front = "" ∧ id ≠ ""

/-- A component as it is found in a file with a dotted name. -/
structure Rooted (front : String) (c : Component) : Prop where
  id : Under front c.id ∨ c.id = front ∧ c.kind = "vue_component"
  implements : c.implementsInterfaces = []

/-- A component with an identifier that is a dotted name, a dot and more, even if the name is empty. -/
structure Anchored (front : String) (c : Component) : Prop where
  id : ∃ rest, c.id = front ++ "." ++ rest
  implements : c.implementsInterfaces = []

variable {s : Source} {n root : Cursor} {c : Component} {cs : List Component} {f : Findings}
  {front name : String}

/-- What is anchored is rooted. -/
theorem Anchored.rooted (h : Anchored front c) : Rooted front c :=
  ⟨Or.inl (Or.inl h.id), h.implements⟩

/-- What follows a dotted name and a dot is under that name. -/
theorem under_append (front rest : String) : Under front (front ++ "." ++ rest) :=
  Or.inl ⟨rest, rfl⟩

/-- A qualified name is under its front. -/
theorem under_qualify (front : String) (hname : name ≠ "") : Under front (qualify front name) := by
  unfold qualify
  split
  · rename_i hfront
    exact Or.inr ⟨hfront, hname⟩
  · exact under_append front name

/-- What is under a name is not empty. -/
theorem Under.ne_empty {id : String} (h : Under front id) : id ≠ "" := by
  rcases h with ⟨rest, rfl⟩ | ⟨-, hne⟩
  · intro heq
    have hlist := congrArg String.toList heq
    simp at hlist
  · exact hne

/-- What is declared under a name is rooted in it. -/
theorem rooted_declared {id kind : String} (h : Under front id) : Rooted front (declared s n id kind name) :=
  ⟨Or.inl h, rfl⟩

namespace C

/-- A C component comes from a declaration with a name. -/
theorem exists_of_findings (h : findings s root = .ok f) (hc : c ∈ f.components) :
    ∃ n ∈ root.preorder, ∃ kind d name, declaration? n = some (kind, d) ∧ s.text d = .ok name ∧ name ≠ "" ∧
      c = declared s n (qualify (moduleName s) name) kind name := by
  simp only [findings, bind_eq_ok] at h
  obtain ⟨all, hall, relationships, -, h⟩ := h
  cases h
  obtain ⟨n, hn, found, hfound, hmem⟩ := exists_of_mem_collect hall (List.mem_filter.mp hc).1
  unfold componentAt at hfound
  split at hfound
  · cases hfound
    cases hmem
  · rename_i kind d hdeclaration
    obtain ⟨name, hread, hfound⟩ := bind_eq_ok.mp hfound
    cases hfound
    obtain ⟨hname, rfl⟩ := mem_unless hmem
    exact ⟨n, hn, kind, d, name, hdeclaration, hread, hname, rfl⟩

/-- C components are rooted in their file. -/
theorem rooted_of_findings (h : findings s root = .ok f) (hc : c ∈ f.components) : Rooted (moduleName s) c := by
  obtain ⟨n, -, kind, d, name, -, -, hname, rfl⟩ := exists_of_findings h hc
  exact rooted_declared (under_qualify (moduleName s) hname)

end C

namespace Cpp

/-- A component of a C++ file has the name and the lines of a declaration, and is rooted in the file. -/
theorem exists_of_findings (h : findings s root = .ok f) (hc : c ∈ f.components) :
    ∃ n ∈ root.preorder, ∃ kind d, declaration? s n = .ok (some (kind, d)) ∧ s.text d = .ok c.name ∧
      Rooted (moduleName s) c ∧ c.sourceCode = some (s.nodeLines n) := by
  simp only [findings, bind_eq_ok] at h
  obtain ⟨all, hall, relationships, -, h⟩ := h
  cases h
  obtain ⟨e, he, rfl⟩ := List.mem_map.mp (List.mem_filter.mp hc).1
  obtain ⟨n, hn, found, hfound, hmem⟩ := exists_of_mem_collect hall he
  simp only [declaredAt, bind_eq_ok] at hfound
  obtain ⟨declaration, hdeclaration, hfound⟩ := hfound
  split at hfound
  · cases hfound
    cases hmem
  · rename_i kind d
    obtain ⟨name, hread, hfound⟩ := bind_eq_ok.mp hfound
    refine ⟨n, hn, kind, d, hdeclaration, ?_⟩
    split at hfound
    · cases hfound
      cases hmem
    · rename_i hname
      split at hfound
      · obtain ⟨owner, -, hfound⟩ := bind_eq_ok.mp hfound
        cases hfound
        obtain rfl := List.mem_singleton.mp hmem
        have hmethod : owner.getD "" ++ "." ++ name ≠ "" := (under_append (owner.getD "") name).ne_empty
        have hunder : Under (moduleName s) (methodId s (owner.getD "") name) :=
          under_qualify (moduleName s) hmethod
        -- The identifier is not to be unfolded when records are compared.
        generalize methodId s (owner.getD "") name = id at hunder
        exact ⟨hread, ⟨Or.inl hunder, rfl⟩, rfl⟩
      · cases hfound
        obtain rfl := List.mem_singleton.mp hmem
        exact ⟨hread, rooted_declared (under_qualify (moduleName s) hname), rfl⟩

/-- So are those of C++. -/
theorem rooted_of_findings (h : findings s root = .ok f) (hc : c ∈ f.components) : Rooted (moduleName s) c := by
  obtain ⟨n, -, kind, d, -, -, hrooted, -⟩ := exists_of_findings h hc
  exact hrooted

end Cpp

namespace CSharp

/-- A C# component comes from a declaration with a name. -/
theorem exists_of_findings (h : findings s root = .ok f) (hc : c ∈ f.components) :
    ∃ n ∈ root.preorder, ∃ kind d name, declaration? s n = .ok (some (kind, d)) ∧ s.text d = .ok name ∧ name ≠ "" ∧
      c = declared s n (qualify (moduleName s) name) kind name := by
  simp only [findings, bind_eq_ok] at h
  obtain ⟨all, hall, relationships, -, h⟩ := h
  cases h
  obtain ⟨n, hn, found, hfound, hmem⟩ := exists_of_mem_collect hall hc
  simp only [componentAt, bind_eq_ok] at hfound
  obtain ⟨declaration, hdeclaration, hfound⟩ := hfound
  split at hfound
  · cases hfound
    cases hmem
  · rename_i kind d
    obtain ⟨name, hread, hfound⟩ := bind_eq_ok.mp hfound
    cases hfound
    obtain ⟨hname, rfl⟩ := mem_unless hmem
    exact ⟨n, hn, kind, d, name, hdeclaration, hread, hname, rfl⟩

/-- C# components are rooted in their file. -/
theorem rooted_of_findings (h : findings s root = .ok f) (hc : c ∈ f.components) : Rooted (moduleName s) c := by
  obtain ⟨n, -, kind, d, name, -, -, hname, rfl⟩ := exists_of_findings h hc
  exact rooted_declared (under_qualify (moduleName s) hname)

end CSharp

namespace Java

/-- The dotted name of a Java file. -/
def moduleName (s : Source) : String :=
  s.moduleName [".java"]

/-- A Java component comes from a declaration. -/
theorem exists_of_components (hall : collect root.preorder (componentAt s) = .ok cs) (hc : c ∈ cs) :
    ∃ n ∈ root.preorder, ∃ kind name, declaration? s n = .ok (some (kind, name)) ∧
      c = declared s n (componentId s name) kind name := by
  obtain ⟨n, hn, found, hfound, hmem⟩ := exists_of_mem_collect hall hc
  simp only [componentAt, bind_eq_ok] at hfound
  obtain ⟨declaration, hdeclaration, hfound⟩ := hfound
  split at hfound
  · cases hfound
    cases hmem
  · rename_i kind name
    cases hfound
    obtain ⟨-, rfl⟩ := mem_unless hmem
    exact ⟨n, hn, kind, name, hdeclaration, rfl⟩

/-- Java components are rooted in their file. -/
theorem rooted_of_findings (h : findings s root = .ok f) (hc : c ∈ f.components) : Rooted (moduleName s) c := by
  obtain ⟨all, hall, h⟩ := bind_eq_ok.mp h
  obtain ⟨relationships, -, h⟩ := bind_eq_ok.mp h
  cases h
  obtain ⟨n, -, kind, name, -, rfl⟩ := exists_of_components hall hc
  exact ⟨Or.inl (under_append _ _), rfl⟩

end Java

namespace JavaScript

/-- A class is anchored in its file. -/
theorem anchored_of_classComponent (h : classComponent s n = .ok (some c)) : Anchored (moduleName s) c := by
  simp only [classComponent, bind_eq_ok] at h
  obtain ⟨name?, -, h⟩ := h
  split at h
  · simp at h
  · obtain ⟨bases, -, h⟩ := bind_eq_ok.mp h
    obtain rfl := Option.some.inj (Except.ok.inj h)
    exact ⟨⟨_, rfl⟩, rfl⟩

/-- So is a function. -/
theorem anchored_of_functionAt {body whole : Cursor} (h : functionAt s name body whole = .ok c) :
    Anchored (moduleName s) c := by
  simp only [functionAt, bind_eq_ok] at h
  obtain ⟨parameters, -, code, -, h⟩ := h
  obtain rfl := Except.ok.inj h
  exact ⟨⟨_, rfl⟩, rfl⟩

/-- So is a declared function. -/
theorem anchored_of_functionComponent (h : functionComponent s n = .ok (some c)) : Anchored (moduleName s) c := by
  simp only [functionComponent, bind_eq_ok] at h
  obtain ⟨name?, -, h⟩ := h
  split at h
  · simp at h
  · obtain ⟨f, hf, h⟩ := bind_eq_ok.mp h
    cases h
    have hanchored := anchored_of_functionAt hf
    exact ⟨hanchored.id, hanchored.implements⟩

/-- What a lenient reading finds is what the reading gives. -/
theorem eq_ok_of_lenient {α : Type} {x : Except Fault (Option α)} {a : α}
    (h : lenient x = some a) : x = .ok (some a) := by
  cases x with
  | error e => simp [lenient] at h
  | ok b => exact congrArg Except.ok h

/-- So is an exported function. -/
theorem anchored_of_exportedFunction (h : exportedFunction s n = .ok (some c)) : Anchored (moduleName s) c := by
  unfold exportedFunction at h
  split at h
  · simp at h
  · rename_i f hf
    obtain ⟨d, -, hd⟩ := Option.bind_eq_some_iff.mp hf
    have hanchored := anchored_of_functionComponent (eq_ok_of_lenient hd)
    obtain ⟨code, -, h⟩ := bind_eq_ok.mp h
    cases h
    split
    · exact ⟨hanchored.id, hanchored.implements⟩
    · exact hanchored

/-- So is an assigned function. -/
theorem anchored_of_assignedFunction (h : assignedFunction s n = .ok (some c)) : Anchored (moduleName s) c := by
  unfold assignedFunction at h
  split at h
  · simp at h
  · obtain ⟨name, -, h⟩ := bind_eq_ok.mp h
    obtain ⟨f, hf, h⟩ := bind_eq_ok.mp h
    cases h
    exact anchored_of_functionAt hf

/-- What is listed is the component. -/
theorem eq_of_mem_listed {e : Entry} {o : Option Component} (h : e ∈ (listed o).found) : o = some e.component := by
  cases o with
  | none => cases h
  | some f =>
    obtain rfl := List.mem_singleton.mp h
    rfl

/-- What a class remembers of its body are methods of it. -/
theorem exists_of_mem_methodEntries {e : Entry} {owner : String} (h : e ∈ (methodEntries s n owner).found) :
    ∃ d method, e = methodEntry s d owner method := by
  have hentry : ∀ (d : Cursor) (o : Option String), e ∈ (o.map (methodEntry s d owner)).toList →
      ∃ d method, e = methodEntry s d owner method := by
    intro d o he
    obtain ⟨method, -, rfl⟩ := Option.map_eq_some_iff.mp (Option.mem_toList.mp he)
    exact ⟨d, method, rfl⟩
  unfold methodEntries at h
  split at h
  · cases h
  · obtain ⟨d, -, h⟩ := Trail.exists_of_mem_each h
    obtain ⟨found, hfound, h⟩ := Trail.exists_of_mem_ofExcept h
    split at hfound
    · obtain ⟨method, -, hfound⟩ := bind_eq_ok.mp hfound
      cases hfound
      exact hentry d _ h
    · split at hfound
      · obtain ⟨method, -, hfound⟩ := bind_eq_ok.mp hfound
        cases hfound
        split at h
        · exact hentry d _ h
        · cases h
      · cases hfound
        cases h

/-- Methods are anchored in their file. -/
theorem anchored_of_methodEntries {e : Entry} {owner : String}
    (h : e ∈ (methodEntries s n owner).found) : Anchored (moduleName s) e.component := by
  obtain ⟨d, method, rfl⟩ := exists_of_mem_methodEntries h
  exact ⟨⟨_, rfl⟩, rfl⟩

/-- So is every entry at a node. -/
theorem anchored_of_entriesAt {e : Entry} (h : e ∈ (entriesAt s n).found) : Anchored (moduleName s) e.component := by
  unfold entriesAt at h
  split at h
  · split at h
    · rename_i d hd
      rcases Trail.mem_found_append h with h | h
      · obtain rfl := Option.some.inj (eq_of_mem_listed h)
        exact anchored_of_classComponent (eq_ok_of_lenient hd)
      · exact anchored_of_methodEntries h
    · cases h
  · split at h
    · obtain ⟨owner, -, h⟩ := Trail.exists_of_mem_given h
      split at h
      · exact anchored_of_functionComponent (eq_ok_of_lenient (eq_of_mem_listed h))
      · cases h
    · split at h
      · exact anchored_of_exportedFunction (eq_ok_of_lenient (eq_of_mem_listed h))
      · split at h
        · obtain ⟨owner, -, h⟩ := Trail.exists_of_mem_given h
          split at h
          · exact anchored_of_assignedFunction (eq_ok_of_lenient (eq_of_mem_listed h))
          · cases h
        · cases h

/-- So are all components. -/
theorem anchored_of_components (h : c ∈ components (entries s root).found) : Anchored (moduleName s) c := by
  obtain ⟨e, he, rfl⟩ := List.mem_map.mp h
  obtain ⟨d, -, hd⟩ := Trail.exists_of_mem_each (List.mem_filter.mp he).1
  exact anchored_of_entriesAt hd

/-- JavaScript components are anchored in their file. -/
theorem anchored_of_findings (hc : c ∈ (findings s root).components) : Anchored (moduleName s) c := by
  simp only [findings] at hc
  split at hc
  · exact anchored_of_components hc
  · exact anchored_of_components (List.mem_mergeSort.mp hc)

end JavaScript

namespace TypeScript

/-- So are those of TypeScript. -/
theorem anchored_of_findings (hc : c ∈ (findings s root).components) : Anchored (moduleName s) c := by
  unfold findings at hc
  split at hc
  · cases hc
  · obtain ⟨e, -, he⟩ := List.mem_filterMap.mp hc
    unfold component? at he
    split at he
    · exact absurd he (Option.some_ne_none c).symm
    · split at he
      · exact absurd he (Option.some_ne_none c).symm
      · obtain rfl := Option.some.inj he
        exact ⟨⟨_, rfl⟩, rfl⟩

end TypeScript

namespace Php

/-- The dotted name that a file goes by: that of its namespace, or else that of the file. -/
def frontOf (s : Source) (names : Names) : String :=
  if names.current = "" then moduleName s else dotted names.current

/-- A node of a PHP file has the component of what it declares. -/
theorem componentAt_cases {names : Names} {owner : Option String} (h : componentAt s names owner n = .ok cs) :
    declaration s owner n = .ok none ∧ cs = [] ∨
    ∃ kind name c, declaration s owner n = .ok (some (kind, name)) ∧ cs = [c] ∧ c.name = name ∧
      c.id = componentId s names name ∧ c.sourceCode = some (s.nodeLines n) ∧ c.startLine = s.startLine n ∧
      c.endLine = s.endLine n ∧ c.implementsInterfaces = [] := by
  simp only [componentAt, bind_eq_ok] at h
  obtain ⟨doc, -, declaration, hdeclaration, h⟩ := h
  split at h
  · cases h
    exact Or.inl ⟨hdeclaration, rfl⟩
  · rename_i kind name
    -- Parameters are read of functions only and bases of classes only.
    split at h <;> split at h <;> simp only [bind_eq_ok] at h
    all_goals
      obtain ⟨parameters, -, bases, -, h⟩ := h
      cases h
      exact Or.inr ⟨kind, name, _, hdeclaration, rfl, rfl, rfl, rfl, rfl, rfl, rfl⟩

/-- PHP components are rooted in their namespace or file. -/
theorem rooted_of_components {names : Names} (hc : c ∈ (components s names root).found) :
    Rooted (frontOf s names) c := by
  obtain ⟨⟨⟨depth, owner⟩, d⟩, -, hd⟩ := Trail.exists_of_mem_each hc
  obtain ⟨found, hfound, hmem⟩ := Trail.exists_of_mem_ofExcept hd
  rcases componentAt_cases hfound with ⟨-, rfl⟩ | ⟨kind, name, k, -, rfl, -, hid, -, -, -, himplements⟩
  · cases hmem
  · obtain rfl := List.mem_singleton.mp hmem
    exact ⟨Or.inl (hid ▸ under_append _ name), himplements⟩

end Php

namespace Go

/-- A Go identifier is under the name of its file. -/
theorem under_componentId (hname : name ≠ "") (receiver : Option String) :
    Under (moduleName s) (componentId s name receiver) := by
  cases receiver with
  | none => exact under_qualify (moduleName s) hname
  | some r =>
    refine Or.inl ⟨r ++ "." ++ name, ?_⟩
    simp only [componentId, String.append_assoc]

/-- What a node declares is rooted in its file. -/
theorem rooted_of_declaredAt {found : List (Component × List String)} {e : Component × List String}
    (h : declaredAt s n = .ok found) (he : e ∈ found) : Rooted (moduleName s) e.1 := by
  obtain ⟨d, hd, hheads⟩ := exists_heading_of_mem_declaredAt h he
  have hunder : Under (moduleName s) (d.id s) := under_componentId (name_ne_of_heading? hd) d.receiver
  exact ⟨Or.inl (hheads.id ▸ hunder), hheads.implements⟩

/-- Go components are rooted in their file. -/
theorem rooted_of_findings (hc : c ∈ (findings s root).findings.components) : Rooted (moduleName s) c := by
  have hdeclared : ∀ d ∈ (declarations s root).found.map (·.1), Rooted (moduleName s) d := by
    intro d hd
    obtain ⟨e, he, rfl⟩ := List.mem_map.mp hd
    obtain ⟨node, -, he⟩ := Trail.exists_of_mem_each he
    obtain ⟨found, hfound, he⟩ := Trail.exists_of_mem_ofExcept he
    exact rooted_of_declaredAt hfound he
  simp only [findings] at hc
  split at hc
  · cases hc
  · split at hc
    · exact hdeclared c hc
    · exact hdeclared c hc

end Go

end RepoAtlas.Extract
