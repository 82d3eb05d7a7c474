import RepoAtlas.Extract.Cpp
import RepoAtlas.Proofs.Extract.Origin
import RepoAtlas.Proofs.Keyed
import RepoAtlas.Proofs.Syntax.Walk

/-!
# Names of function definitions in C++ files

A function becomes a component under a plain name, a member name or the last part of a qualified name, but a
call looks for the function around it by plain names only. A call in a definition that is not named plainly goes
to the next one around that is, or is lost.
-/

namespace RepoAtlas.Extract.Cpp

open Syntax

variable {s : Source} {root c d e : Cursor} {key name : String} {k : Component} {f : Findings}

/-- The first plain name in the declarator of a function definition. -/
def plainName? (d : Cursor) : Option Cursor :=
  (d.child? "function_declarator").bind (·.child? "identifier")

/-- A node is a plain name that stands directly in the declarator of a definition. -/
def NamesPlainly (d e : Cursor) : Prop :=
  e.kind = "identifier" ∧ ∃ declarator, d.child? "function_declarator" = some declarator ∧ e.parent = some declarator

/-- The search for a function stops at the nearest definition with a plain name. -/
theorem functionAround_eq (h : c.enclosing? ["function_definition"] = some d) :
    functionAround s c =
      match plainName? d with
      | some n => (s.text n).map some
      | none => functionAround s d := by
  obtain ⟨hkind, before, above, hancestors, hbefore⟩ := List.find?_eq_some_iff_append.mp h
  have hkind : d.kind = "function_definition" := by simpa using hkind
  have hpassed : ∀ a ∈ before, ¬a.kind = "function_definition" := fun a ha => by simpa using hbefore a ha
  obtain rfl := Cursor.ancestors_of_append hancestors
  rw [functionAround, hancestors, List.findSome?_append,
    List.findSome?_eq_none_iff.mpr fun a ha => if_neg (hpassed a ha), Option.none_or, List.findSome?_cons,
    if_pos hkind, ← plainName?]
  cases plainName? d with
  | some n => rfl
  | none => rfl

/-- The name of a definition is in its declarator, in or at the first part that can hold it. -/
theorem exists_of_definitionName? (h : definitionName? d = some e) :
    ∃ declarator before part after, d.child? "function_declarator" = some declarator ∧
      declarator.children = before ++ part :: after ∧ (∀ x ∈ before, x.kind ≠ "identifier") ∧
      (part = e ∨ part.kind ≠ "identifier" ∧ e.parent = some part) := by
  obtain ⟨declarator, hdeclarator, h⟩ := Option.bind_eq_some_iff.mp h
  obtain ⟨before, part, after, hchildren, hpart, hbefore⟩ := List.findSome?_eq_some_iff.mp h
  refine ⟨declarator, before, part, after, hdeclarator, hchildren, fun x hx hkind => ?_, ?_⟩
  · exact absurd (hbefore x hx) (by simp [hkind])
  · split at hpart
    · exact Or.inl (Option.some.inj hpart)
    · rename_i hother
      split at hpart
      · have he : e ∈ part.children := (List.mem_filter.mp (List.mem_of_getLast? hpart)).1
        exact Or.inr ⟨by simp_all, Cursor.parent_of_mem_siblings he⟩
      · cases hpart

/-- A definition is known by its first plain name exactly if that stands plainly in the declarator. -/
theorem plainName?_eq_iff (h : definitionName? d = some e) : plainName? d = some e ↔ NamesPlainly d e := by
  obtain ⟨declarator, before, part, after, hdeclarator, hchildren, hbefore, hpart⟩ :=
    exists_of_definitionName? h
  have hplain : plainName? d = declarator.child? "identifier" := by rw [plainName?, hdeclarator]; rfl
  constructor
  · intro hname
    rw [hplain] at hname
    refine ⟨by simpa using List.find?_some hname, declarator, hdeclarator, ?_⟩
    exact Cursor.parent_of_mem_siblings (List.mem_of_find?_eq_some hname)
  · rintro ⟨hkind, declarator', hdeclarator', hparent⟩
    obtain rfl := Option.some.inj (hdeclarator.symm.trans hdeclarator')
    -- A part of the declarator is not the declarator, so the name is no part of a part.
    have heq : part = e := by
      refine hpart.resolve_right fun ⟨_, hbelow⟩ => ?_
      obtain rfl := Option.some.inj (hparent.symm.trans hbelow)
      have hmem : declarator ∈ declarator.children := by rw [hchildren]; simp
      have hlength := congrArg List.length (Cursor.ancestors_of_mem_children hmem)
      simp at hlength
    subst heq
    rw [hplain, Cursor.child?, List.find?_eq_some_iff_append]
    exact ⟨by simpa using hkind, before, after, hchildren, fun x hx => by simpa using hbefore x hx⟩

/-- A method is named by an identifier that has a dot, and a function that stands in no class by its name. -/
theorem exists_of_mem_declaredAt {found : List (String × Component)} (h : declaredAt s d = .ok found)
    (hk : (key, k) ∈ found) :
    ∃ kind n, declaration? s d = .ok (some (kind, n)) ∧ s.text n = .ok k.name ∧ k.name ≠ "" ∧ k.kind = kind ∧
      found = [(key, k)] ∧
      (kind = "method" ∧ (∃ owner, key = methodId s owner k.name) ∨
        key = k.name ∧ k.id = componentId s k.name ∧ k.className = none) := by
  rw [declaredAt, bind_eq_ok] at h
  obtain ⟨declaration, hdeclaration, h⟩ := h
  cases declaration with
  | none =>
    cases h
    cases hk
  | some p =>
    obtain ⟨kind, n⟩ := p
    rw [bind_eq_ok] at h
    obtain ⟨name, hname, h⟩ := h
    split_ifs at h with hempty hmethod
    · cases h
      cases hk
    · rw [bind_eq_ok] at h
      obtain ⟨owner, -, h⟩ := h
      generalize hid : methodId s (owner.getD "") name = id at h
      cases h
      obtain ⟨rfl, rfl⟩ := Prod.mk.inj (List.mem_singleton.mp hk)
      exact ⟨kind, n, hdeclaration, hname, hempty, rfl, rfl, Or.inl ⟨hmethod, _, hid.symm⟩⟩
    · generalize hid : componentId s name = id at h
      cases h
      obtain ⟨rfl, rfl⟩ := Prod.mk.inj (List.mem_singleton.mp hk)
      exact ⟨kind, n, hdeclaration, hname, hempty, rfl, rfl, Or.inr ⟨rfl, hid.symm, rfl⟩⟩

/-- A definition that declares a function declares nothing else, under the name in its declarator. -/
theorem exists_definitionName? {found : List (String × Component)} (hd : d.kind = "function_definition")
    (h : declaredAt s d = .ok found) (hk : (key, k) ∈ found) (hkind : k.kind = "function") :
    ∃ e, definitionName? d = some e ∧ s.text e = .ok k.name ∧ k.name ≠ "" ∧ k.id = componentId s k.name := by
  obtain ⟨kind, n, hdeclaration, hname, hne, rfl, -, hplace⟩ := exists_of_mem_declaredAt h hk
  simp only [declaration?, hd, String.reduceEq, if_true, if_false] at hdeclaration
  obtain ⟨owner, -, hdeclaration⟩ := bind_eq_ok.mp hdeclaration
  obtain ⟨e, he, heq⟩ := Option.map_eq_some_iff.mp (Except.ok.inj hdeclaration)
  obtain rfl := (Prod.mk.inj heq).2
  refine ⟨e, he, hname, hne, ?_⟩
  obtain ⟨hmethod, -⟩ | ⟨-, hid, -⟩ := hplace
  · exact absurd (hkind.symm.trans hmethod) (by decide)
  · exact hid

/-- The identifier of a method has a dot. -/
theorem dot_mem_methodId (s : Source) (owner name : String) : '.' ∈ (methodId s owner name).toList := by
  rw [methodId, qualify]
  split <;> simp

/-- A function with a name without a dot is identified by it, as no method is remembered so. -/
theorem functionId_of_no_dot {all : List (String × Component)} (h : declarations s root = .ok all)
    (hname : '.' ∉ name.toList) : functionId s (Keyed.ofList all) name = componentId s name := by
  rw [functionId]
  cases hget : (Keyed.ofList all).get? name with
  | none => rfl
  | some k =>
    obtain ⟨d, -, found, hfound, hk⟩ := exists_of_mem_collect h (Keyed.mem_of_get?_ofList hget)
    obtain ⟨-, -, -, -, -, -, -, ⟨-, owner, hkey⟩ | ⟨-, -, hclass⟩⟩ := exists_of_mem_declaredAt hfound hk
    · exact absurd (hkey ▸ dot_mem_methodId s owner k.name) hname
    · simp [hclass]

/-- What a call calls: the first class or structure that seems to declare a method of the called name, or else
what the file remembers under that name. -/
def target (s : Source) (table : Declarations) (c : Cursor) : Except Fault (Option String) := do
  match ← calledName s c with
  | none => .ok none
  | some name =>
    if name = "" || isSystemName name then .ok none
    else
      match classWithMethod? table name with
      | some owner => .ok (some owner)
      | none => .ok (if table.has name then some name else none)

/-- A call in a function with a name is told of that function. -/
theorem callAt_eq (table : Declarations) (h : functionAround s c = .ok (some name)) (hne : name ≠ "") :
    callAt s table c = (target s table c).map fun t => t.toList.map fun callee =>
      { caller := functionId s table name, callee := componentId s callee, line := some (s.startLine c) } := by
  rw [callAt, h]
  change (if name = "" then _ else _) = _
  rw [if_neg hne, target]
  cases calledName s c with
  | error fault => rfl
  | ok called =>
    cases called with
    | none => rfl
    | some called =>
      change (if _ then _ else _) = Except.map _ (if _ then _ else _)
      by_cases hskip : (called = "" || isSystemName called) = true
      · rw [if_pos hskip, if_pos hskip]
        rfl
      · rw [if_neg hskip, if_neg hskip]
        cases classWithMethod? table called with
        | some owner => rfl
        | none => cases table.has called <;> rfl

/-- A call outside of functions is not told. -/
theorem callAt_of_none (table : Declarations) (h : functionAround s c = .ok none) : callAt s table c = .ok [] := by
  rw [callAt, h]
  rfl

/-- A call just inside a definition is looked up under its name exactly if the definition is named plainly,
holds a plain name that reads the same, or holds none and the search above comes to it. A call that is looked
up under no name is lost. -/
theorem call_in_function_attributed_iff {found : List (String × Component)}
    (hc : c.enclosing? ["function_definition"] = some d) (hd : declaredAt s d = .ok found) (hk : (key, k) ∈ found)
    (hkind : k.kind = "function") :
    (∃ e, definitionName? d = some e ∧ s.text e = .ok k.name ∧
      (functionAround s c = .ok (some k.name) ↔
        NamesPlainly d e ∨ (∃ n, plainName? d = some n ∧ n ≠ e ∧ s.text n = .ok k.name) ∨
          plainName? d = none ∧ functionAround s d = .ok (some k.name))) ∧
    ∀ root f, findings s root = .ok f → d ∈ root.preorder → c ∈ root.preorder → c.kind = "call_expression" →
      k ∈ f.components ∧ ∃ all, declarations s root = .ok all ∧
        ∃ relationships, callAt s (Keyed.ofList all) c = .ok relationships ∧
        (∀ r ∈ relationships, r ∈ f.relationships) ∧
        (functionAround s c = .ok none → relationships = []) ∧
        (functionAround s c = .ok (some k.name) → '.' ∉ k.name.toList →
          ∃ t, target s (Keyed.ofList all) c = .ok t ∧
            relationships = t.toList.map fun callee =>
              { caller := k.id, callee := componentId s callee, line := some (s.startLine c) }) := by
  have hdefinition : d.kind = "function_definition" := by simpa using List.find?_some hc
  obtain ⟨e, he, hname, hne, hid⟩ := exists_definitionName? hdefinition hd hk hkind
  refine ⟨⟨e, he, hname, ?_⟩, fun root f hf hdroot hcroot hcall => ?_⟩
  · rw [← plainName?_eq_iff he, functionAround_eq hc]
    cases hplain : plainName? d with
    | none => simp
    | some n =>
      have hread : (s.text n).map some = .ok (some k.name) ↔ s.text n = .ok k.name := by
        cases s.text n <;> simp [Except.map]
      refine hread.trans ⟨fun h => ?_, ?_⟩
      · by_cases hsame : n = e
        · exact Or.inl (congrArg some hsame)
        · exact Or.inr (Or.inl ⟨n, rfl, hsame, h⟩)
      · rintro (h | ⟨m, hm, -, h⟩ | ⟨h, -⟩)
        · rw [Option.some.inj h]
          exact hname
        · rwa [Option.some.inj hm]
        · exact absurd h (Option.some_ne_none n)
  · simp only [findings, bind_eq_ok] at hf
    obtain ⟨all, hall, relationships, hrelationships, hf⟩ := hf
    obtain rfl := Except.ok.inj hf
    obtain ⟨here, hhere, hsubset⟩ := subset_of_collect hrelationships hcroot
    rw [relationshipsAt, if_pos hcall] at hhere
    have hmem : (key, k) ∈ all := by
      obtain ⟨found', hfound', hsubset'⟩ := subset_of_collect hall hdroot
      obtain rfl := Except.ok.inj (hd.symm.trans hfound')
      exact hsubset' _ hk
    refine ⟨List.mem_filter.mpr ⟨List.mem_map_of_mem hmem, by simp [hkind]⟩, all, hall, here, hhere, hsubset,
      fun h => ?_, fun h hdot => ?_⟩
    · exact Except.ok.inj (hhere.symm.trans (callAt_of_none _ h))
    · have heq := hhere.symm.trans (callAt_eq _ h hne)
      rw [functionId_of_no_dot hall hdot, ← hid] at heq
      cases htarget : target s (Keyed.ofList all) c with
      | error fault => simp [htarget, Except.map] at heq
      | ok t =>
        rw [htarget] at heq
        exact ⟨t, rfl, Except.ok.inj heq⟩

/-- The source of a file where a function and a function with a qualified name call each other. -/
def crossCalls : Source :=
  Source.of "void f() \x7b g(); \x7d\nvoid A::g() \x7b f(); \x7d\n" "/r/m.cpp" (some "/r")

/-- The tree of that file. -/
def crossCallsTree : Tree :=
  .node "translation_unit" 0 39 [
    .node "function_definition" 0 17 [
      .leaf "primitive_type" 0 4,
      .node "function_declarator" 5 8 [.leaf "identifier" 5 6, .round "parameter_list" 6 8 []],
      .curly "compound_statement" 9 17 [.node "expression_statement" 11 15 [
        .node "call_expression" 11 14 [.leaf "identifier" 11 12, .round "argument_list" 12 14 []],
        .sign ";" 14 15]]],
    .node "function_definition" 18 38 [
      .leaf "primitive_type" 18 22,
      .node "function_declarator" 23 29 [
        .node "qualified_identifier" 23 27 [
          .leaf "namespace_identifier" 23 24, .sign "::" 24 26, .leaf "identifier" 26 27],
        .round "parameter_list" 27 29 []],
      .curly "compound_statement" 30 38 [.node "expression_statement" 32 36 [
        .node "call_expression" 32 35 [.leaf "identifier" 32 33, .round "argument_list" 33 35 []],
        .sign ";" 35 36]]]]

/-- The call in the function with a plain name is related to it. -/
theorem plain_function_calls :
    ∃ f, findings crossCalls (Cursor.ofTree crossCallsTree) = .ok f ∧ (∃ k ∈ f.components, k.id = "m.f") ∧
      { caller := "m.f", callee := "m.g", line := some 1 } ∈ f.relationships := by
  obtain ⟨f, hf⟩ := exists_of_isOk
    (by decide +kernel : (findings crossCalls (Cursor.ofTree crossCallsTree)).isOk = true)
  obtain ⟨all, hall, c, hc, ⟨hcall, hline⟩, htarget, haround, d, hd, found, hfound, p, hp, hkind, hname, hid⟩ :
      ∃ all ∈ (declarations crossCalls (Cursor.ofTree crossCallsTree)).toOption,
        ∃ c ∈ (Cursor.ofTree crossCallsTree).preorder,
          (c.kind = "call_expression" ∧ crossCalls.startLine c = 1) ∧
          (target crossCalls (Keyed.ofList all) c).toOption = some (some "g") ∧
          (functionAround crossCalls c).toOption = some (some "f") ∧
          ∃ d ∈ c.enclosing? ["function_definition"], ∃ found ∈ (declaredAt crossCalls d).toOption,
            ∃ p ∈ found, p.2.kind = "function" ∧ p.2.name = "f" ∧ p.2.id = "m.f" := by
    decide +kernel
  obtain ⟨-, hattributed⟩ := call_in_function_attributed_iff hd (eq_ok_of_toOption hfound) hp hkind
  have hdroot := Cursor.mem_preorder_of_mem_ancestors rfl hc (List.mem_of_find?_eq_some hd)
  obtain ⟨hk, all', hall', here, -, hsubset, -, hrelated⟩ := hattributed _ f hf hdroot hc hcall
  obtain rfl := Except.ok.inj ((eq_ok_of_toOption hall).symm.trans hall')
  obtain ⟨t, ht, rfl⟩ := hrelated (hname ▸ eq_ok_of_toOption haround) (by rw [hname]; decide)
  obtain rfl := Except.ok.inj ((eq_ok_of_toOption htarget).symm.trans ht)
  have hcallee : componentId crossCalls "g" = "m.g" := by decide +kernel
  refine ⟨f, hf, ⟨p.2, hk, hid⟩, hsubset _ ?_⟩
  simp [hid, hline, hcallee]

/-- The call in the function with a qualified name is related to nothing. -/
theorem qualified_function_not_found :
    (∃ c ∈ (Cursor.ofTree crossCallsTree).preorder, c.kind = "call_expression" ∧ crossCalls.startLine c = 2 ∧
      ∃ d ∈ c.enclosing? ["function_definition"],
        (declaredAt crossCalls d).toOption.map (·.map fun p => (p.2.kind, p.2.id)) = some [("function", "m.g")] ∧
        (functionAround crossCalls c).toOption = some none) ∧
    (findings crossCalls (Cursor.ofTree crossCallsTree)).toOption.map
        (fun f => (f.components.map (·.id), f.relationships.map fun r => (r.caller, r.callee, r.line))) =
      some (["m.f", "m.g"], [("m.f", "m.g", some 1)]) :=
  ⟨by decide +kernel, by decide +kernel⟩

end RepoAtlas.Extract.Cpp
