import RepoAtlas.Proofs.Extract.GoReadable

/-!
# Grouped type declarations in Go files

Of the specifications of a type declaration only the first becomes a component. A later one is found exactly if
a first one has its kind and name.
-/

namespace RepoAtlas.Extract.Go

open Syntax

variable {s : Source} {root c spec : Cursor} {d : Heading} {kind name : String}

/-- The kinds of components that are types. -/
def isTypeKind (kind : String) : Bool :=
  kind == "struct" || kind == "interface"

/-- The kind and the name of the first specification of a type declaration. -/
def firstType? (s : Source) (c : Cursor) : Option (String × String) :=
  if c.kind = "type_declaration" then
    ((c.child? "type_spec").bind fun spec => (specHeading? s spec).toOption.join).map fun d => (d.kind, d.name)
  else none

/-- A specification declares a type. -/
theorem isTypeKind_of_typeKind? (h : typeKind? spec = some kind) : isTypeKind kind = true := by
  unfold typeKind? at h
  split at h
  · exact Option.some.inj h ▸ rfl
  split at h
  · exact Option.some.inj h ▸ rfl
  · cases h

/-- A specification with a name and a body that counts has a heading, and no other has. -/
theorem specHeading?_eq_ok_iff :
    specHeading? s spec = .ok (some d) ↔
      s.text? (spec.child? "type_identifier") = .ok (some d.name) ∧ d.name ≠ "" ∧
        typeKind? spec = some d.kind ∧ d.receiver = none := by
  rw [specHeading?, bind_eq_ok]
  constructor
  · rintro ⟨name?, hname?, h⟩
    split at h
    · rename_i name kind hname hkind
      cases h
      exact ⟨eq_some_of_nonEmpty hname ▸ hname?, ne_of_nonEmpty hname, hkind, rfl⟩
    · cases h
  · rintro ⟨hname, hne, hkind, hreceiver⟩
    refine ⟨_, hname, ?_⟩
    rw [nonEmpty_of_ne hne, hkind, ← hreceiver]

/-- Of the headings of nodes, those of types are the first ones of type declarations. -/
theorem filter_heading? (s : Source) (c : Cursor) :
    ((heading? s c).toOption.join.map fun d => (d.kind, d.name)).filter (fun p => isTypeKind p.1) =
      firstType? s c := by
  unfold heading? firstType?
  by_cases hfunction : c.kind = "function_declaration"
  · rw [if_pos hfunction, if_neg (by rw [hfunction]; decide)]
    cases s.text? (c.child? "identifier") with
    | error e => rfl
    | ok name? =>
      change Option.filter _ (Option.map _ ((nonEmpty name?).map _)) = none
      cases nonEmpty name? <;> rfl
  by_cases hmethod : c.kind = "method_declaration"
  · rw [if_neg hfunction, if_pos hmethod, if_neg (by rw [hmethod]; decide)]
    cases s.text? (c.child? "field_identifier") with
    | error e => rfl
    | ok name? =>
      cases receiverType s c with
      | error e => rfl
      | ok receiver =>
        change Option.filter _ (Option.map _ ((nonEmpty name?).map _)) = none
        cases nonEmpty name? <;> rfl
  by_cases htype : c.kind = "type_declaration"
  · rw [if_neg hfunction, if_neg hmethod, if_pos htype, if_pos htype]
    cases c.child? "type_spec" with
    | none => rfl
    | some spec =>
      change Option.filter _ ((specHeading? s spec).toOption.join.map _) =
        (specHeading? s spec).toOption.join.map _
      cases hd : (specHeading? s spec).toOption.join with
      | none => rfl
      | some d =>
        have hd : specHeading? s spec = .ok (some d) := eq_ok_of_toOption (Option.join_eq_some_iff.mp hd)
        exact Option.filter_some_pos (isTypeKind_of_typeKind? (specHeading?_eq_ok_iff.mp hd).2.2.1)
  · rw [if_neg hfunction, if_neg hmethod, if_neg htype, if_neg htype]
    rfl

/-- The types among the components of a readable tree are, in order, the first types of its declarations. -/
theorem types_eq_firstTypes (tree : Tree) (h : Readable s (Cursor.ofTree tree)) :
    ((findings s (Cursor.ofTree tree)).findings.components.filter (isTypeKind ·.kind)).map
        (fun k => (k.kind, k.name)) =
      ((Cursor.ofTree tree).within depthLimit).filterMap (firstType? s) := by
  obtain ⟨k, -, hcomponents, -, -⟩ := exists_findings rfl h
  rw [hcomponents]
  calc
    (((declarations s (Cursor.ofTree tree)).found.map (·.1)).filter (isTypeKind ·.kind)).map
        (fun k => (k.kind, k.name))
      = ((declarations s (Cursor.ofTree tree)).found.map fun e => (e.1.kind, e.1.name)).filter
          (isTypeKind ·.1) := by
        rw [List.filter_map, List.filter_map, List.map_map, Function.comp_def, Function.comp_def, Function.comp_def]
    _ = ((headings s ((Cursor.ofTree tree).within depthLimit)).map fun p => (p.2.kind, p.2.name)).filter
          (isTypeKind ·.1) := by
        rw [map_found_eq (g := fun p => (p.2.kind, p.2.name)) (failure_declarations h)
          fun p e he => Prod.ext he.kind he.name]
    _ = ((Cursor.ofTree tree).within depthLimit).filterMap (firstType? s) := by
        rw [headings, List.map_filterMap, List.filter_filterMap]
        congr 1
        funext c
        rw [← filter_heading?, Option.map_map]
        rfl

/-- The first specification of a type declaration gives its type. -/
theorem firstType?_eq_some_iff :
    firstType? s c = some (kind, name) ↔
      c.kind = "type_declaration" ∧ ∃ spec, c.child? "type_spec" = some spec ∧
        specHeading? s spec = .ok (some ⟨kind, name, none⟩) := by
  unfold firstType?
  split
  · rename_i hkind
    rw [Option.map_eq_some_iff]
    constructor
    · rintro ⟨d, hd, heq⟩
      obtain ⟨spec, hspec, hd⟩ := Option.bind_eq_some_iff.mp hd
      cases heq
      have hd : specHeading? s spec = .ok (some d) := eq_ok_of_toOption (Option.join_eq_some_iff.mp hd)
      refine ⟨hkind, spec, hspec, ?_⟩
      rw [hd, ← (specHeading?_eq_ok_iff.mp hd).2.2.2]
    · rintro ⟨-, spec, hspec, hd⟩
      exact ⟨⟨kind, name, none⟩, by rw [hspec, Option.bind_some, hd]; rfl, rfl⟩
  · rename_i hkind
    exact ⟨fun h => absurd h.symm (Option.some_ne_none _), fun h => absurd h.1 hkind⟩

/-- The types of a file are the first ones of its declarations. -/
theorem exists_component_iff (tree : Tree) (h : Readable s (Cursor.ofTree tree))
    (hkind : isTypeKind kind = true) :
    (∃ k ∈ (findings s (Cursor.ofTree tree)).findings.components, k.kind = kind ∧ k.name = name) ↔
      ∃ c ∈ (Cursor.ofTree tree).within depthLimit, firstType? s c = some (kind, name) := by
  rw [← List.mem_filterMap, ← types_eq_firstTypes tree h, List.mem_map]
  constructor
  · rintro ⟨k, hk, rfl, rfl⟩
    exact ⟨k, List.mem_filter.mpr ⟨hk, hkind⟩, rfl⟩
  · rintro ⟨k, hk, heq⟩
    cases heq
    exact ⟨k, (List.mem_filter.mp hk).1, rfl, rfl⟩

/-- The first specifications with a name become components, and later ones only if a first one has their kind
and name. -/
theorem spec_emitted_iff_first (tree : Tree) (h : Readable s (Cursor.ofTree tree)) :
    ((findings s (Cursor.ofTree tree)).findings.components.filter (isTypeKind ·.kind)).map
        (fun k => (k.kind, k.name)) =
      ((Cursor.ofTree tree).within depthLimit).filterMap (firstType? s) ∧
    ∀ c ∈ (Cursor.ofTree tree).within depthLimit, c.kind = "type_declaration" →
      ∀ spec ∈ c.children, spec.kind = "type_spec" →
      ∀ n name kind, spec.child? "type_identifier" = some n → s.text n = .ok name →
        typeKind? spec = some kind →
        ((∃ k ∈ (findings s (Cursor.ofTree tree)).findings.components, k.kind = kind ∧ k.name = name) ↔
          name ≠ "" ∧ (c.child? "type_spec" = some spec ∨
            ∃ c' ∈ (Cursor.ofTree tree).within depthLimit, c'.kind = "type_declaration" ∧
              ∃ first, c'.child? "type_spec" = some first ∧ typeKind? first = some kind ∧
                s.text? (first.child? "type_identifier") = .ok (some name))) := by
  refine ⟨types_eq_firstTypes tree h, fun c hc hc' spec hspec hspec' n name kind hn hname hkind => ?_⟩
  have htext : s.text? (spec.child? "type_identifier") = .ok (some name) := by
    rw [hn, Source.text?, hname]
    rfl
  rw [exists_component_iff tree h (isTypeKind_of_typeKind? hkind)]
  constructor
  · rintro ⟨c', hc', hfirst⟩
    obtain ⟨hdeclares, first, hchild, hheading⟩ := firstType?_eq_some_iff.mp hfirst
    obtain ⟨hread, hne, hfirstKind, -⟩ := specHeading?_eq_ok_iff.mp hheading
    exact ⟨hne, Or.inr ⟨c', hc', hdeclares, first, hchild, hfirstKind, hread⟩⟩
  · rintro ⟨hne, hfirst | ⟨c', hmem, hdeclares, first, hchild, hfirstKind, hread⟩⟩
    · exact ⟨c, hc, firstType?_eq_some_iff.mpr
        ⟨hc', spec, hfirst, specHeading?_eq_ok_iff.mpr ⟨htext, hne, hkind, rfl⟩⟩⟩
    · exact ⟨c', hmem, firstType?_eq_some_iff.mpr
        ⟨hdeclares, first, hchild, specHeading?_eq_ok_iff.mpr ⟨hread, hne, hfirstKind, rfl⟩⟩⟩

/-- The source of a file with a group of two structures. -/
def grouped : Source :=
  Source.of "package m\n\ntype (\n\tA struct\x7b\x7d\n\tB struct\x7b\x7d\n)\n" "/r/m.go" (some "/r")

/-- The tree of that file. -/
def groupedTree : Tree :=
  .node "source_file" 0 44 [
    .node "package_clause" 0 9 [.sign "package" 0 7, .leaf "package_identifier" 8 9],
    .node "type_declaration" 11 43 [
      .sign "type" 11 15, .sign "(" 16 17,
      .node "type_spec" 19 29 [.leaf "type_identifier" 19 20, .leaf "struct_type" 21 29],
      .node "type_spec" 31 41 [.leaf "type_identifier" 31 32, .leaf "struct_type" 33 41], .sign ")" 42 43]]

/-- The first structure of the group is a component. -/
theorem first_of_group_emitted :
    Readable grouped (Cursor.ofTree groupedTree) ∧
    ∃ k ∈ (findings grouped (Cursor.ofTree groupedTree)).findings.components,
      k.kind = "struct" ∧ k.name = "A" := by
  have hread : Readable grouped (Cursor.ofTree groupedTree) := by decide +kernel
  obtain ⟨c, hc, hkind, spec, hfirst, hspecKind, n, hn, hname, htype⟩ :
      ∃ c ∈ (Cursor.ofTree groupedTree).within depthLimit, c.kind = "type_declaration" ∧
      ∃ spec ∈ c.child? "type_spec", spec.kind = "type_spec" ∧ ∃ n ∈ spec.child? "type_identifier",
        (grouped.text n).toOption = some "A" ∧ typeKind? spec = some "struct" := by
    decide +kernel
  have hspec : spec ∈ c.children := List.mem_of_find?_eq_some hfirst
  refine ⟨hread, ((spec_emitted_iff_first groupedTree hread).2 c hc hkind spec hspec hspecKind n "A" "struct"
    hn (eq_ok_of_toOption hname) htype).mpr ⟨by decide, Or.inl hfirst⟩⟩

/-- The second structure of the group is no component. -/
theorem second_of_group_not_emitted :
    Readable grouped (Cursor.ofTree groupedTree) ∧
    (∃ c ∈ (Cursor.ofTree groupedTree).within depthLimit, c.kind = "type_declaration" ∧
      ∃ spec ∈ c.children, spec.kind = "type_spec" ∧ ∃ n ∈ spec.child? "type_identifier",
        (grouped.text n).toOption = some "B" ∧ typeKind? spec = some "struct") ∧
    ∀ k ∈ (findings grouped (Cursor.ofTree groupedTree)).findings.components, k.name ≠ "B" := by
  decide +kernel

end RepoAtlas.Extract.Go
