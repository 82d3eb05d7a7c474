import RepoAtlas.Proofs.Extract.NameHistory
import RepoAtlas.Proofs.Extract.PhpReadable
import RepoAtlas.Proofs.Syntax.Distinct

/-!
# Names that PHP declarations import

An import declaration is read twice: to make its names known, without backslashes in front or doubled ones, and
to relate the file to the names as they are written. The first reading stops at the first group.
-/

namespace RepoAtlas.Extract.Php

open Syntax

variable {s : Source} {c d clause group : Cursor} {name : String}

/-- A name without a backslash in front and without a doubled one. -/
def Plain (name : String) : Prop :=
  Undoubled name ∧ name.toList.head? ≠ some '\\'

instance (name : String) : Decidable (Plain name) :=
  inferInstanceAs (Decidable (_ ∧ _))

/-- The name that a use makes known. -/
def fullName (name : String) : String :=
  unrooted (single name)

/-- The alias under which a use makes a name known: the one given unless it is empty, or else the last part. -/
def shortName (name : String) (alias? : Option String) : String :=
  (alias?.filter (· != "")).getD (lastPart (fullName name))

/-- The names that a file knows after it has used some more. -/
def Names.knowing (names : Names) (imports : List (String × Option String)) : Names :=
  { names with uses := imports.foldl (fun uses i => uses.insert (shortName i.1 i.2) (fullName i.1)) names.uses }

/-- Uses one by one make their names known. -/
theorem foldl_use (imports : List (String × Option String)) (names : Names) :
    imports.foldl (fun n (name, alias?) => n.use name alias?) names = names.knowing imports := by
  induction imports generalizing names with
  | nil => rfl
  | cons i imports ih =>
    obtain ⟨name, alias?⟩ := i
    have huse : names.use name alias? = names.knowing [(name, alias?)] := by
      rw [Names.use]
      cases hgiven : alias?.filter (· != "") <;> simp [Names.knowing, shortName, fullName, hgiven]
    calc
      imports.foldl (fun n (name, alias?) => n.use name alias?) (names.use name alias?) =
          (names.knowing [(name, alias?)]).knowing imports := by rw [ih, huse]
      _ = names.knowing ((name, alias?) :: imports) := rfl

/-- Dots for backslashes keep the length. -/
theorem length_dotted (name : String) : (dotted name).toList.length = name.toList.length := by
  simp [dotted, Text.replaceChar]

/-- A plain name is made known as it is. -/
theorem fullName_of_plain (h : Plain name) : fullName name = name := by
  rw [fullName, single_of_undoubled h.1, unrooted]
  cases hname : name.toList with
  | nil => rw [List.dropWhile_nil, ← hname, String.ofList_toList]
  | cons x xs =>
    have hx : ¬x = '\\' := fun heq => h.2 (by rw [hname, heq, List.head?_cons])
    rw [List.dropWhile_cons_of_neg (by simpa using hx), ← hname, String.ofList_toList]

/-- A name is shortened exactly if it is not plain. -/
theorem length_fullName_lt (h : ¬Plain name) : (fullName name).toList.length < name.toList.length := by
  have hsingle : (single name).toList = Text.exchange ['\\', '\\'] ['\\'] 0 name.toList := String.toList_ofList
  have hfull : (fullName name).toList = (single name).toList.dropWhile (· = '\\') := String.toList_ofList
  have hdrop : (fullName name).toList.length ≤ (single name).toList.length := by
    rw [hfull]
    exact (List.dropWhile_suffix _).length_le
  by_cases hdoubled : Undoubled name
  · rw [single_of_undoubled hdoubled] at hfull
    have hfront : name.toList.head? = some '\\' := not_not.mp fun hne => h ⟨hdoubled, hne⟩
    obtain ⟨rest, hrest⟩ := List.head?_eq_some_iff.mp hfront
    rw [hfull, hrest, List.dropWhile_cons_of_pos (by simp), List.length_cons]
    exact Nat.lt_succ_of_le (List.dropWhile_suffix _).length_le
  · have hoccurs : Text.occurs ['\\', '\\'] name.toList = true := Text.occurs_iff_infix.mpr (not_not.mp hdoubled)
    have hshorter : (single name).toList.length < name.toList.length := by
      rw [hsingle]
      exact Text.length_exchange_lt (by decide) hoccurs
    exact Nat.lt_of_le_of_lt hdrop hshorter

/-- The two readings agree on a name exactly if it is plain. -/
theorem dotted_eq_iff_plain (name : String) : dotted name = dotted (fullName name) ↔ Plain name := by
  refine ⟨fun heq => not_not.mp fun hplain => ?_, fun hplain => by rw [fullName_of_plain hplain]⟩
  have hlength := congrArg (·.toList.length) heq
  simp only [length_dotted] at hlength
  exact absurd hlength.symm (length_fullName_lt hplain).ne

/-- The text of a node that may be missing, where there is one. -/
def written? (s : Source) (o : Option Cursor) : Option String :=
  (s.text? o).toOption.join

/-- The names that the clauses of a group import, where the declaration gives the part in front of them. -/
def groupNames (s : Source) (declaration group : Cursor) : List String :=
  (group.children.filter (·.kind = "namespace_use_group_clause")).flatMap fun clause =>
    ((written? s (clause.child? "namespace_name")).map
      (grouped ((written? s (declaration.child? "namespace_name")).getD ""))).toList

/-- The names that a part of an import declaration imports: a plain clause imports one, a group those of its
clauses. -/
def partNames (s : Source) (declaration part : Cursor) : List String :=
  if part.kind = "namespace_use_clause" then (written? s (importedName? part)).toList
  else if part.kind = "namespace_use_group" then groupNames s declaration part
  else []

/-- The names that an import declaration imports, as they are written. -/
def writtenNames (s : Source) (c : Cursor) : List String :=
  c.children.flatMap (partNames s c)

/-- Beside its first group a declaration imports nothing. -/
def NothingBesideGroup (s : Source) (c : Cursor) : Prop :=
  ∀ group, c.child? "namespace_use_group" = some group → ∀ d ∈ c.children, d ≠ group → partNames s c d = []

/-- A readable text is the one written. -/
theorem text?_eq_ok {o : Option Cursor} (h : ∀ c ∈ o, Readable s c) : s.text? o = .ok (written? s o) := by
  obtain ⟨t, ht⟩ := exists_of_isOk (isOk_text? h)
  rw [written?, ht]
  rfl

/-- A declaration imports the names that it writes. -/
theorem importRelationships_eq (h : Readable s c) :
    importRelationships s c = Trail.many ((writtenNames s c).map (imported s c)) := by
  rw [writtenNames, List.map_flatMap]
  refine Trail.each_eq_many fun d hd => ?_
  have hpart : Readable s d := h.part hd
  unfold partNames
  split
  · have hname : s.text? (importedName? d) = .ok (written? s (importedName? d)) :=
      text?_eq_ok fun n hn => hpart.either hn
    rw [hname, Trail.given, Option.toList_map]
  split
  · rw [text?_eq_ok fun n hn => h.child? hn, Trail.given, groupNames, List.map_flatMap]
    refine Trail.each_eq_many fun clause hclause => ?_
    have hread : Readable s clause := hpart.filtered _ clause hclause
    rw [text?_eq_ok fun n hn => hread.child? hn, Trail.given, ← Option.toList_map, Option.map_map]
    rfl
  · rfl

/-- Name and alias of a clause are read. -/
theorem exists_texts {n : Cursor} (h : Readable s clause) (hn : Readable s n) :
    ∃ t a, s.text n = .ok t ∧ written? s (some n) = some t ∧
      s.text? ((clause.child? "namespace_aliasing_clause").bind (·.child? "name")) = .ok a := by
  obtain ⟨t, ht⟩ := exists_of_isOk hn.text
  have hname : ∀ m ∈ some n, Readable s m := fun m hm => Option.some.inj hm ▸ hn
  obtain ⟨-, ha⟩ := readable_of_clauseParts h hname rfl
  refine ⟨t, _, ht, ?_, text?_eq_ok ha⟩
  rw [written?, Source.text?, ht]
  rfl

/-- A clause makes its name known. -/
theorem exists_clauseImports (h : Readable s clause) :
    ∃ found, clauseImports s clause = .ok found ∧ found.map (·.1) = (written? s (importedName? clause)).toList := by
  unfold clauseImports
  cases hname : importedName? clause with
  | none => exact ⟨[], rfl, rfl⟩
  | some n =>
    obtain ⟨t, a, ht, hwritten, ha⟩ := exists_texts h (h.either hname)
    refine ⟨[(t, a)], ?_, by rw [hwritten]; rfl⟩
    rw [clauseParts, Option.map_some]
    dsimp only
    rw [ht, ha]
    rfl

/-- A group makes its names known. -/
theorem exists_groupImports (h : Readable s c) (hgroup : Readable s group) :
    ∃ found, groupImports s c group = .ok found ∧ found.map (·.1) = groupNames s c group := by
  rw [groupImports, text?_eq_ok fun n hn => h.child? hn]
  refine exists_collect _ _ fun clause hclause => ?_
  have hread : Readable s clause := hgroup.filtered _ clause hclause
  cases hname : clause.child? "namespace_name" with
  | none => exact ⟨[], rfl, rfl⟩
  | some n =>
    obtain ⟨t, a, ht, hwritten, ha⟩ := exists_texts hread (hread.child? hname)
    refine ⟨[(_, a)], ?_, by rw [hwritten]; rfl⟩
    rw [clauseParts, Option.map_some]
    dsimp only
    rw [ht, ha]
    rfl

/-- The names that a declaration makes known: those of its first group, or else all that it imports. -/
def knownNames (s : Source) (c : Cursor) : List String :=
  match c.child? "namespace_use_group" with
  | some group => groupNames s c group
  | none => writtenNames s c

/-- Where there is no group, the plain clauses import all names. -/
theorem flatMap_clauses {nodes : List Cursor} (h : ∀ d ∈ nodes, d.kind ≠ "namespace_use_group") :
    (nodes.filter (·.kind = "namespace_use_clause")).flatMap (fun d => (written? s (importedName? d)).toList) =
      nodes.flatMap (partNames s c) := by
  induction nodes with
  | nil => rfl
  | cons d nodes ih =>
    have hrest := ih fun e he => h e (List.mem_cons_of_mem d he)
    by_cases hkind : d.kind = "namespace_use_clause"
    · rw [List.filter_cons_of_pos (by simpa using hkind), List.flatMap_cons, List.flatMap_cons, hrest, partNames,
        if_pos hkind]
    · rw [List.filter_cons_of_neg (by simpa using hkind), List.flatMap_cons, hrest, partNames, if_neg hkind,
        if_neg (h d List.mem_cons_self), List.nil_append]

/-- A declaration makes its known names known. -/
theorem exists_importsAt (h : Readable s c) :
    ∃ imports, importsAt s c = .ok imports ∧ imports.map (·.1) = knownNames s c := by
  unfold importsAt knownNames
  cases hgroup : c.child? "namespace_use_group" with
  | some group => exact exists_groupImports h (h.child? hgroup)
  | none =>
    have hkinds : ∀ d ∈ c.children, d.kind ≠ "namespace_use_group" := fun d hd => by
      simpa using List.find?_eq_none.mp hgroup d hd
    rw [writtenNames, ← flatMap_clauses hkinds]
    exact exists_collect Prod.fst _ fun clause hclause => exists_clauseImports (h.filtered _ clause hclause)

/-- The names that a declaration makes known stand in a row among those that it imports. -/
theorem exists_writtenNames (s : Source) (c : Cursor) :
    ∃ before after, writtenNames s c = before ++ (knownNames s c ++ after) ∧
      (NothingBesideGroup s c ↔ before = [] ∧ after = []) := by
  unfold knownNames NothingBesideGroup
  cases hgroup : c.child? "namespace_use_group" with
  | none => exact ⟨[], [], by simp, by simp⟩
  | some group =>
    obtain ⟨hkind, before, after, hchildren, -⟩ := List.find?_eq_some_iff_append.mp hgroup
    have hnames : partNames s c group = groupNames s c group := by
      have hgroupKind : group.kind = "namespace_use_group" := by simpa using hkind
      simp [partNames, hgroupKind]
    have hnodup := c.nodup_children
    rw [hchildren, List.nodup_middle, List.nodup_cons] at hnodup
    refine ⟨before.flatMap (partNames s c), after.flatMap (partNames s c), ?_, ?_⟩
    · rw [writtenNames, hchildren, List.flatMap_append, List.flatMap_cons, hnames]
    · simp only [List.flatMap_eq_nil_iff, hchildren, Option.some.injEq, forall_eq', List.mem_append,
        List.mem_cons]
      constructor
      · intro h
        exact ⟨fun d hd => h d (Or.inl hd) fun heq => hnodup.1 (heq ▸ List.mem_append_left after hd),
          fun d hd => h d (Or.inr (Or.inr hd)) fun heq => hnodup.1 (heq ▸ List.mem_append_right before hd)⟩
      · rintro ⟨hbefore, hafter⟩ d (hd | rfl | hd) hne
        · exact hbefore d hd
        · exact absurd rfl hne
        · exact hafter d hd

/-- The related names are the known ones exactly if nothing is imported beside the first group and all names
are written without a backslash in front and without a doubled one. -/
theorem imports_agree_iff_plain (names : Names) (hkind : c.kind = "namespace_use_declaration")
    (h : Readable s c) :
    ∃ imports, importsAt s c = .ok imports ∧ noteNames s names c = .ok (names.knowing imports) ∧
      (importRelationships s c).failure = none ∧
      (importRelationships s c).found.map (·.callee) = (writtenNames s c).map dotted ∧
      ((importRelationships s c).found.map (·.callee) = imports.map (fun i => dotted (fullName i.1)) ↔
        NothingBesideGroup s c ∧ ∀ name ∈ writtenNames s c, Plain name) := by
  obtain ⟨imports, himports, hknown⟩ := exists_importsAt h
  have hnoted : noteNames s names c = .ok (names.knowing imports) := by
    rw [noteNames, if_neg (by rw [hkind]; decide), if_pos hkind, himports]
    exact congrArg Except.ok (foldl_use imports names)
  have hrelated : (importRelationships s c).found.map (·.callee) = (writtenNames s c).map dotted := by
    rw [importRelationships_eq h, Trail.found_many, List.map_map]
    rfl
  have hregistered : imports.map (fun i => dotted (fullName i.1)) =
      (knownNames s c).map fun name => dotted (fullName name) := by
    rw [← hknown, List.map_map]
    rfl
  obtain ⟨before, after, hwritten, hbeside⟩ := exists_writtenNames s c
  refine ⟨imports, himports, hnoted, by rw [importRelationships_eq h]; rfl, hrelated, ?_⟩
  rw [hrelated, hregistered, hbeside]
  constructor
  · intro heq
    -- The lists are equally long, so no name stands beside the known ones.
    have hlength := congrArg List.length heq
    simp only [hwritten, List.length_map, List.length_append] at hlength
    have hnil : before = [] ∧ after = [] :=
      ⟨List.eq_nil_of_length_eq_zero (by omega), List.eq_nil_of_length_eq_zero (by omega)⟩
    rw [hnil.1, hnil.2, List.nil_append, List.append_nil] at hwritten
    rw [hwritten, List.map_inj_left] at heq
    exact ⟨hnil, fun name hname => (dotted_eq_iff_plain name).mp (heq name (hwritten ▸ hname))⟩
  · rintro ⟨⟨rfl, rfl⟩, hplain⟩
    rw [List.nil_append, List.append_nil] at hwritten
    rw [hwritten, List.map_inj_left]
    exact fun name hname => (dotted_eq_iff_plain name).mpr (hplain name (hwritten ▸ hname))

/-- The source of a file with a declaration that imports a group. -/
def groupImport : Source :=
  Source.of "<?php\nuse App\\\x7bUser, Post as P\x7d;\n" "/r/m.php" (some "/r")

/-- The tree of that file. -/
def groupImportTree : Tree :=
  .node "program" 0 33 [
    .leaf "php_tag" 0 5,
    .node "namespace_use_declaration" 6 32 [
      .sign "use" 6 9, .node "namespace_name" 10 13 [.leaf "name" 10 13], .sign "\\" 13 14,
      .curly "namespace_use_group" 14 31 [
        .node "namespace_use_group_clause" 15 19 [.node "namespace_name" 15 19 [.leaf "name" 15 19]],
        .sign "," 19 20,
        .node "namespace_use_group_clause" 21 30 [
          .node "namespace_name" 21 25 [.leaf "name" 21 25],
          .node "namespace_aliasing_clause" 26 30 [.sign "as" 26 28, .leaf "name" 29 30]]],
      .sign ";" 31 32]]

/-- Both readings of the group give its two names. -/
theorem group_import_related_alike :
    ∃ c ∈ (Cursor.ofTree groupImportTree).children, c.kind = "namespace_use_declaration" ∧
      Readable groupImport c ∧ writtenNames groupImport c = ["App\\User", "App\\Post"] ∧
      ∃ imports, importsAt groupImport c = .ok imports ∧
        (importRelationships groupImport c).found.map (·.callee) =
          imports.map fun i => dotted (fullName i.1) := by
  obtain ⟨tag, c, hparts, hkind, hread, hwritten, hgroup⟩ : ∃ tag c,
      (Cursor.ofTree groupImportTree).children = [tag, c] ∧ c.kind = "namespace_use_declaration" ∧
      Readable groupImport c ∧ writtenNames groupImport c = ["App\\User", "App\\Post"] ∧
      ∃ a b e group f, c.children = [a, b, e, group, f] ∧ c.child? "namespace_use_group" = some group ∧
        ∀ d ∈ [a, b, e, f], partNames groupImport c d = [] :=
    ⟨_, _, rfl, by decide +kernel, by decide +kernel, by decide +kernel, _, _, _, _, _, rfl, rfl,
      by decide +kernel⟩
  obtain ⟨a, b, e, group, f, hchildren, hfirst, hnone⟩ := hgroup
  have hbeside : NothingBesideGroup groupImport c := by
    intro group' hgroup' d hd hne
    obtain rfl := Option.some.inj (hfirst.symm.trans hgroup')
    refine hnone d ?_
    simpa [hchildren, hne] using hd
  obtain ⟨imports, himports, -, -, -, hagree⟩ := imports_agree_iff_plain {} hkind hread
  refine ⟨c, hparts ▸ List.mem_cons_of_mem tag List.mem_cons_self, hkind, hread, hwritten, imports, himports,
    hagree.mpr ⟨hbeside, ?_⟩⟩
  rw [hwritten]
  decide +kernel

/-- The source of a file that imports a name with a backslash in front. -/
def rootedImport : Source :=
  Source.of "<?php\nuse \\App\\User;\nclass A extends User \x7b\x7d\n" "/r/m.php" (some "/r")

/-- The tree of that file. -/
def rootedImportTree : Tree :=
  .node "program" 0 45 [
    .leaf "php_tag" 0 5,
    .node "namespace_use_declaration" 6 20 [
      .sign "use" 6 9,
      .node "namespace_use_clause" 10 19 [.node "qualified_name" 10 19 [
        .sign "\\" 10 11, .node "namespace_name" 11 14 [.leaf "name" 11 14], .sign "\\" 14 15,
        .leaf "name" 15 19]],
      .sign ";" 19 20],
    .node "class_declaration" 21 44 [
      .sign "class" 21 26, .leaf "name" 27 28,
      .node "base_clause" 29 41 [.sign "extends" 29 36, .leaf "name" 37 41], .curly "declaration_list" 42 44 []]]

/-- The file is related to the name with a dot in front, its class to the name that is known. -/
theorem rooted_import_related_otherwise :
    (∃ c ∈ (Cursor.ofTree rootedImportTree).children, c.kind = "namespace_use_declaration" ∧
      Readable rootedImport c ∧ (importsAt rootedImport c).toOption = some [("\\App\\User", none)] ∧
      (importRelationships rootedImport c).found.map (·.callee) = [".App.User"] ∧
      dotted (fullName "\\App\\User") = "App.User") ∧
    (findings rootedImport (Cursor.ofTree rootedImportTree)).relationships.map (fun r => (r.caller, r.callee)) =
      [("m", ".App.User"), ("m.A", "App.User")] := by
  constructor
  · decide +kernel
  · decide +kernel

end RepoAtlas.Extract.Php
