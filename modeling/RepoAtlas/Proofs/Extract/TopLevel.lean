import RepoAtlas.Extract.TypeScript
import RepoAtlas.Proofs.Extract.Readable
import RepoAtlas.Proofs.Keyed

/-!
# Declarations at the top of TypeScript files

Entities are known by their names, at whatever depth they stand, and of several with one name only the last is
looked at. So a local variable hides a declaration at the top.
-/

namespace RepoAtlas.Extract.TypeScript

open Syntax

variable {s : Source} {root c d n x : Cursor} {e : Entity} {name kind subkind : String} {e? : Option Entity}

/-! ## Entities of readable trees -/

/-- Bases are read. -/
theorem isOk_bases (h : Readable s c) : (bases s c).isOk = true := by
  refine isOk_collect_text fun n hn => ?_
  obtain ⟨l, hl, hn⟩ := List.mem_flatMap.mp hn
  have hl : Readable s l := by
    rcases List.mem_append.mp hl with hl | hl
    · exact h.child? (Option.mem_toList.mp hl)
    · exact h.child? (Option.mem_toList.mp hl)
  exact hl.filtered _ n hn

/-- Parameters are read. -/
theorem isOk_parameters (h : Readable s c) : (parameters s c).isOk = true := by
  unfold parameters
  split
  · rfl
  · rename_i l hl
    have hl : Readable s l := h.child? hl
    refine isOk_collect_text fun n hn => ?_
    obtain ⟨d, hd, hn⟩ := List.mem_filterMap.mp hn
    split at hn
    · exact Option.some.inj hn ▸ hl.part hd
    split at hn
    · exact (hl.part hd).child? hn
    · cases hn

/-- An entity is read. -/
theorem isOk_entity {shown : String → String} (hc : Readable s c) (hn : Readable s n) :
    (entity s c n kind subkind shown).isOk = true :=
  isOk_bind hn.text fun _ _ => isOk_bind hc.text fun _ _ => rfl

/-- A function is read. -/
theorem isOk_functionEntity (h : Readable s c) : (functionEntity s c subkind).isOk = true := by
  unfold functionEntity
  split
  · rfl
  · rename_i n hn
    exact isOk_bind (isOk_entity h (h.child? hn)) fun _ _ => isOk_bind (isOk_parameters h) fun _ _ => rfl

/-- An arrow function is read. -/
theorem isOk_arrowEntity (h : Readable s c) (hparent : ∀ p ∈ c.parent, Readable s p) :
    (arrowEntity s c).isOk = true := by
  unfold arrowEntity
  split
  · rfl
  · rename_i p hp
    have hp : Readable s p := hparent p (Option.filter_eq_some_iff.mp hp).1
    split
    · rfl
    · rename_i n hn
      refine isOk_bind (hp.child? hn).text fun _ _ => ?_
      exact isOk_bind (isOk_parameters h) fun _ _ => isOk_bind hp.text fun _ _ => rfl

/-- A method is read. -/
theorem isOk_methodEntity (h : Readable s c) : (methodEntity s c).isOk = true := by
  unfold methodEntity
  split
  · rfl
  · rename_i n hn
    exact isOk_bind (isOk_entity h (h.child? hn)) fun _ _ => isOk_bind (isOk_parameters h) fun _ _ => rfl

/-- A class is read. -/
theorem isOk_classEntity {nameNode : Option Cursor} (h : Readable s c) (hname : ∀ n ∈ nameNode, Readable s n) :
    (classEntity s c nameNode kind subkind).isOk = true := by
  unfold classEntity
  split
  · rfl
  · rename_i n
    exact isOk_bind (isOk_entity h (hname n rfl)) fun _ _ => isOk_bind (isOk_bases h) fun _ _ => rfl

/-- A plain entity is read. -/
theorem isOk_simpleEntity {nameNode : Option Cursor} {word : String} (h : Readable s c)
    (hname : ∀ n ∈ nameNode, Readable s n) : (simpleEntity s c nameNode kind subkind word).isOk = true := by
  unfold simpleEntity
  split
  · rfl
  · rename_i n
    exact isOk_bind (isOk_entity h (hname n rfl)) fun _ _ => rfl

/-- The name in a declarator is readable. -/
theorem readable_declaratorName (h : Readable s c) (hn : declaratorName? c = some n) : Readable s n := by
  obtain ⟨d, hd, hn⟩ := Option.bind_eq_some_iff.mp hn
  exact (h.child? hd).child? hn

/-- A constant or variable is read. -/
theorem isOk_lexicalEntity (h : Readable s c) : (lexicalEntity s c).isOk = true := by
  unfold lexicalEntity
  split
  · rfl
  · rename_i n hn
    refine isOk_bind h.text fun _ _ => ?_
    exact isOk_bind (isOk_entity h (readable_declaratorName h hn)) fun _ _ => rfl

/-- What is exported is readable. -/
theorem readable_exported {words : String} (h : Readable s c)
    (hd : exported? c = some (d, n, kind, subkind, words)) : Readable s d ∧ Readable s n := by
  have hnamed : ∀ {p : Cursor} {part kind' subkind' words' : String}, Readable s p →
      ((p.child? part).map fun m => (p, m, kind', subkind', words')) = some (d, n, kind, subkind, words) →
      Readable s d ∧ Readable s n := by
    intro p part kind' subkind' words' hp hd
    obtain ⟨m, hm, heq⟩ := Option.map_eq_some_iff.mp hd
    simp only [Prod.mk.injEq] at heq
    obtain ⟨rfl, rfl, -⟩ := heq
    exact ⟨hp, hp.child? hm⟩
  unfold exported? at hd
  split at hd
  · rename_i f _ _ _ hf
    exact hnamed (h.child? hf) hd
  · rename_i k _ _ _ hk
    exact hnamed (h.child? hk) hd
  · rename_i i _ _ _ hi
    exact hnamed (h.child? hi) hd
  · rename_i l _ _ _ hl
    obtain ⟨declarator, hdeclarator, hd⟩ := Option.bind_eq_some_iff.mp hd
    have hdeclarator : Readable s declarator := (h.child? hl).child? hdeclarator
    split at hd
    · rename_i m f hm hf
      simp only [Option.some.injEq, Prod.mk.injEq] at hd
      obtain ⟨rfl, rfl, -⟩ := hd
      exact ⟨hdeclarator.either hf, hdeclarator.child? hm⟩
    · cases hd
  · cases hd

/-- An export is read. -/
theorem isOk_exportEntity (h : Readable s c) : (exportEntity s c).isOk = true := by
  refine isOk_bind h.text fun _ _ => ?_
  split
  · rename_i d n kind subkind words hexported
    obtain ⟨hd, hn⟩ := readable_exported h hexported
    refine isOk_bind (isOk_entity h hn) fun _ _ => ?_
    split
    · exact isOk_bind (isOk_parameters hd) fun _ _ => rfl
    · exact isOk_bind (isOk_bases hd) fun _ _ => rfl
  · split
    · rfl
    · rename_i callee hcallee
      have hcallee : Readable s callee := by
        unfold defaultCallee? at hcallee
        split at hcallee
        · obtain ⟨call, hcall, hfirst⟩ := Option.bind_eq_some_iff.mp hcallee
          exact (h.filtered _ call (List.mem_of_getLast? hcall)).part (List.mem_of_head? hfirst)
        · cases hcallee
      exact isOk_bind (isOk_entity h hcallee) fun _ _ => rfl

/-- An ambient declaration is read. -/
theorem isOk_ambientEntity (h : Readable s c) : (ambientEntity s c).isOk = true := by
  refine isOk_bind ?_ fun _ _ => rfl
  unfold ambientName
  split
  · rfl
  · rename_i d hd
    have hd : Readable s d := h.part (List.mem_of_find?_eq_some hd)
    split
    · refine isOk_bind (isOk_text? fun n hn => hd.child? hn) fun t _ => ?_
      split <;> rfl
    · split
      · rename_i first n rest hparts
        exact (hd.part (hparts ▸ List.mem_cons_of_mem _ List.mem_cons_self)).text
      · rfl

/-- The entity at a node is read. -/
theorem isOk_entityAt (h : Readable s c) (hparent : ∀ p ∈ c.parent, Readable s p) : (entityAt s c).isOk = true := by
  unfold entityAt
  split
  · exact isOk_functionEntity h
  · exact isOk_functionEntity h
  · exact isOk_arrowEntity h hparent
  · exact isOk_methodEntity h
  · exact isOk_classEntity h fun n hn => h.either hn
  · exact isOk_classEntity h fun n hn => h.either hn
  · exact isOk_classEntity h fun n hn => h.child? hn
  · exact isOk_simpleEntity h fun n hn => h.child? hn
  · exact isOk_simpleEntity h fun n hn => h.child? hn
  · exact isOk_simpleEntity h fun n hn => h.child? hn
  · exact isOk_exportEntity h
  · exact isOk_lexicalEntity h
  · exact isOk_simpleEntity h fun n hn => readable_declaratorName h hn
  · exact isOk_ambientEntity h
  · rfl

/-! ## The last entity with a name -/

/-- The entity that a node declares, if its texts can be read. -/
def entity? (s : Source) (c : Cursor) : Option Entity :=
  (entityAt s c).toOption.join

/-- The last entity of a file with a name. -/
def lastEntity? (s : Source) (root : Cursor) (name : String) : Option Entity :=
  ((root.within depthLimit).filterMap (entity? s)).reverse.find? fun e => decide (name = e.name)

/-- So it is at every node within the limit. -/
theorem isOk_entityAt_of_mem_within (hroot : root.parent = none) (h : Readable s root)
    (hc : c ∈ root.within depthLimit) : (entityAt s c).isOk = true := by
  have hc := Cursor.mem_preorder_of_mem_within hc
  refine isOk_entityAt (h.below hc) fun p hp => h.below ?_
  exact Cursor.mem_preorder_of_mem_ancestors hroot hc (Cursor.mem_ancestors_iff.mpr ⟨p, hp, Or.inl rfl⟩)

/-- The entities of a file are those with a name. -/
theorem entityList_eq_ok (h : ∀ c ∈ root.within depthLimit, (entityAt s c).isOk = true) :
    entityList s root =
      .ok (((root.within depthLimit).filterMap (entity? s)).filter (·.name != "")) := by
  rw [entityList, Cursor.walked_eq_within,
    collect_eq_ok fun c hc => isOk_bind (h c hc) fun _ _ => rfl,
    List.filter_filterMap, List.filterMap_eq_flatMap_toList]
  congr 2
  funext c
  rw [entity?]
  cases entityAt s c with
  | error e => rfl
  | ok e? => rfl

/-- Of every name the last entity is kept. -/
theorem exists_entities (h : ∀ c ∈ root.within depthLimit, (entityAt s c).isOk = true) :
    ∃ es, entities s root = .ok es ∧ (∀ name ≠ "", es.get? name = lastEntity? s root name) ∧
      ∀ n e, (n, e) ∈ es.entries → n = e.name ∧ n ≠ "" := by
  refine ⟨_, by rw [entities, entityList_eq_ok h]; rfl, fun name hname => ?_, fun n e he => ?_⟩
  · have hlookup : ∀ es : List Entity, (es.map fun e => (e.name, e)).reverse.lookup name =
        es.reverse.find? fun e => decide (name = e.name) := by
      intro es
      rw [List.map_eq_flatMap]
      refine (Keyed.lookup_reverse_flatMap (fun e : Entity => [e.name]) id name es).trans ?_
      simp only [List.mem_singleton, Option.map_id_fun, id]
    have hnamed : (fun e : Entity => decide ((e.name != "") = true ∧ decide (name = e.name) = true)) =
        fun e => decide (name = e.name) := by
      funext e
      rw [decide_eq_decide, decide_eq_true_iff, and_iff_right_iff_imp]
      rintro rfl
      exact bne_iff_ne.mpr hname
    rw [Keyed.ofList_eq_insertAll, Keyed.get?_insertAll, hlookup, ← List.filter_reverse, List.find?_filter, hnamed]
    exact Option.or_none
  · obtain ⟨e', he', heq⟩ := List.mem_map.mp (Keyed.mem_of_get?_ofList ((Keyed.get?_eq_some_iff _).mpr he))
    cases heq
    exact ⟨rfl, bne_iff_ne.mp (List.mem_filter.mp he').2⟩

/-! ## What is shown -/

/-- Whether an entity is one to be shown, if its name is not reserved. -/
def Entity.counts (e : Entity) : Bool :=
  e.code.isSome && isTopLevel e.node && e.kind != "variable"

/-- A component has the name of its entity. -/
theorem name_of_component? {k : Component} (h : component? s e = some k) : k.name = e.name := by
  unfold component? at h
  split at h
  · cases h
  split at h
  · cases h
  · exact Option.some.inj h ▸ rfl

/-- An entity is shown if it counts and its name is not reserved. -/
theorem isSome_component?_iff :
    (component? s e).isSome = true ↔ e.counts = true ∧ Text.lower e.name ∉ reservedNames := by
  cases hcode : e.code with
  | none => simp [component?, Entity.counts, hcode]
  | some code =>
    have hshown : ¬(!isTopLevel e.node || e.kind == "variable" || reservedNames.contains (Text.lower e.name))
        = true ↔ e.counts = true ∧ Text.lower e.name ∉ reservedNames := by
      simp [Entity.counts, hcode]
    rw [component?, hcode]
    dsimp only
    split
    · rename_i hnot
      exact iff_of_false Bool.false_ne_true fun h => hshown.mpr h hnot
    · rename_i hnot
      exact iff_of_true rfl (hshown.mp hnot)

/-- The components of a name come from its last entity. -/
theorem mem_components_iff (hroot : root.parent = none) (h : Readable s root) (hname : name ≠ "")
    {k : Component} :
    k ∈ (findings s root).components ∧ k.name = name ↔
      ∃ e, lastEntity? s root name = some e ∧ component? s e = some k := by
  obtain ⟨es, hes, hlast, hkeys⟩ := exists_entities fun _ => isOk_entityAt_of_mem_within hroot h
  have hcomponents : (findings s root).components = es.values.filterMap (component? s) := by
    rw [findings, hes]
    rfl
  rw [hcomponents, ← hlast name hname]
  constructor
  · rintro ⟨hk, rfl⟩
    obtain ⟨e, he, hcomponent⟩ := List.mem_filterMap.mp hk
    obtain ⟨n, hentry⟩ := Keyed.exists_key_of_mem_values he
    obtain ⟨rfl, -⟩ := hkeys n e hentry
    rw [name_of_component? hcomponent]
    exact ⟨e, (es.get?_eq_some_iff).mpr hentry, hcomponent⟩
  · rintro ⟨e, he, hcomponent⟩
    have hentry : (name, e) ∈ es.entries := es.get?_eq_some_iff.mp he
    refine ⟨List.mem_filterMap.mpr ⟨e, Keyed.mem_values_of_mem hentry, hcomponent⟩, ?_⟩
    rw [name_of_component? hcomponent]
    exact (hkeys name e hentry).1.symm

/-! ## Declarations at the top -/

/-- The node that names a function, class, interface, type or enumeration. -/
def declarationName? (c : Cursor) : Option Cursor :=
  match c.kind with
  | "function_declaration" => c.child? "identifier"
  | "generator_function_declaration" => c.child? "identifier"
  | "class_declaration" => className? c
  | "abstract_class_declaration" => className? c
  | "interface_declaration" => c.child? "type_identifier"
  | "type_alias_declaration" => c.child? "type_identifier"
  | "enum_declaration" => c.child? "identifier"
  | _ => none

/-- The nodes at the top of a file: the parts of the root and of the export statements among them. -/
def topNodes (root : Cursor) : List Cursor :=
  root.children ++ (root.children.filter (·.kind = "export_statement")).flatMap (·.children)

/-- What is at the top of a file is walked through. -/
theorem mem_within_of_mem_topNodes (hc : c ∈ topNodes root) : c ∈ root.within depthLimit := by
  rcases List.mem_append.mp hc with hc | hc
  · exact Cursor.mem_within_of_mem_children (by decide) hc
  · obtain ⟨x, hx, hc⟩ := List.mem_flatMap.mp hc
    exact Cursor.mem_within_of_mem_parts (by decide) (List.mem_filter.mp hx).1 hc

/-- The nodes at the top are found to be there. -/
theorem isTopLevel_of_mem_topNodes (hroot : root.parent = none) (hprogram : root.kind = "program")
    (hc : c ∈ topNodes root) : isTopLevel c = true := by
  have habove : root.ancestors = [] := by
    obtain ⟨tree, earlier, parent⟩ := root
    obtain rfl : parent = none := hroot
    rw [Cursor.ancestors]
  rcases List.mem_append.mp hc with hc | hc
  · simp [isTopLevel, inFunctionBody, Cursor.ancestors_of_mem_children hc, habove, hprogram, topLevelKinds]
  · obtain ⟨x, hx, hc⟩ := List.mem_flatMap.mp hc
    obtain ⟨hx, hkind⟩ := List.mem_filter.mp hx
    simp [isTopLevel, inFunctionBody, Cursor.ancestors_of_mem_children hc,
      Cursor.ancestors_of_mem_children hx, habove, hprogram, of_decide_eq_true hkind, topLevelKinds]

/-- An entity that a node declares under a name: it has a text and is no variable. -/
structure Declares (c : Cursor) (name : String) (e : Entity) : Prop where
  name : e.name = name
  node : e.node = c
  code : e.code.isSome = true
  kind : e.kind ≠ "variable"

/-- What is declared at the top counts. -/
theorem Declares.counts (h : Declares c name e) (htop : isTopLevel c = true) : e.counts = true := by
  rw [Entity.counts, h.code, h.node, htop]
  exact bne_iff_ne.mpr h.kind

/-- An entity that is no variable is declared. -/
theorem declares_of_entity {shown : String → String} (h : entity s c n kind subkind shown = .ok e)
    (hname : s.text n = .ok name) (hkind : kind ≠ "variable") : Declares c name e := by
  obtain ⟨name', hname', h⟩ := bind_eq_ok.mp h
  obtain ⟨code, -, h⟩ := bind_eq_ok.mp h
  cases h
  exact ⟨Except.ok.inj (hname'.symm.trans hname), rfl, rfl, hkind⟩

/-- A function is declared under its name. -/
theorem declares_of_functionEntity (h : functionEntity s c subkind = .ok e?)
    (hn : c.child? "identifier" = some n) (hname : s.text n = .ok name) :
    ∃ own, e? = some own ∧ Declares c name own := by
  rw [functionEntity, hn] at h
  obtain ⟨e, he, h⟩ := bind_eq_ok.mp h
  obtain ⟨parameters, -, h⟩ := bind_eq_ok.mp h
  obtain ⟨hname, hnode, hcode, hkind⟩ := declares_of_entity he hname (by decide)
  exact ⟨_, (Except.ok.inj h).symm, hname, hnode, hcode, hkind⟩

/-- A class is declared under its name. -/
theorem declares_of_classEntity (h : classEntity s c (some n) kind subkind = .ok e?)
    (hname : s.text n = .ok name) (hkind : kind ≠ "variable") : ∃ own, e? = some own ∧ Declares c name own := by
  obtain ⟨e, he, h⟩ := bind_eq_ok.mp h
  obtain ⟨bases, -, h⟩ := bind_eq_ok.mp h
  obtain ⟨hname, hnode, hcode, hkind⟩ := declares_of_entity he hname hkind
  exact ⟨_, (Except.ok.inj h).symm, hname, hnode, hcode, hkind⟩

/-- So is a plain entity. -/
theorem declares_of_simpleEntity {word : String}
    (h : simpleEntity s c (some n) kind subkind word = .ok e?) (hname : s.text n = .ok name)
    (hkind : kind ≠ "variable") : ∃ own, e? = some own ∧ Declares c name own := by
  obtain ⟨e, he, h⟩ := bind_eq_ok.mp h
  exact ⟨e, (Except.ok.inj h).symm, declares_of_entity he hname hkind⟩

/-- What has a declared name is declared under it. -/
theorem declares_of_declarationName? (h : entityAt s c = .ok e?) (hn : declarationName? c = some n)
    (hname : s.text n = .ok name) : ∃ own, e? = some own ∧ Declares c name own := by
  unfold declarationName? at hn
  split at hn
  · rename_i hkind
    simp only [entityAt, hkind] at h
    exact declares_of_functionEntity h hn hname
  · rename_i hkind
    simp only [entityAt, hkind] at h
    exact declares_of_functionEntity h hn hname
  · rename_i hkind
    simp only [entityAt, hkind, hn] at h
    exact declares_of_classEntity h hname (by decide)
  · rename_i hkind
    simp only [entityAt, hkind, hn] at h
    exact declares_of_classEntity h hname (by decide)
  · rename_i hkind
    simp only [entityAt, hkind, hn] at h
    exact declares_of_classEntity h hname (by decide)
  · rename_i hkind
    simp only [entityAt, hkind, hn] at h
    exact declares_of_simpleEntity h hname (by decide)
  · rename_i hkind
    simp only [entityAt, hkind, hn] at h
    exact declares_of_simpleEntity h hname (by decide)
  · cases hn

/-- A name that is declared has a last entity. -/
theorem exists_lastEntity? (hc : c ∈ root.within depthLimit) (he : entityAt s c = .ok (some e)) :
    ∃ last, lastEntity? s root e.name = some last ∧ last.name = e.name := by
  have hmem : e ∈ (root.within depthLimit).filterMap (entity? s) :=
    List.mem_filterMap.mpr ⟨c, hc, by rw [entity?, he]; rfl⟩
  have hfound : (lastEntity? s root e.name).isSome = true :=
    List.find?_isSome.mpr ⟨e, List.mem_reverse.mpr hmem, decide_eq_true rfl⟩
  obtain ⟨last, hlast⟩ := Option.isSome_iff_exists.mp hfound
  have hname : decide (e.name = last.name) = true :=
    List.find?_some (p := fun d : Entity => decide (e.name = d.name)) hlast
  exact ⟨last, hlast, (of_decide_eq_true hname).symm⟩

/-- A declaration at the top of a program has a component exactly if the last entity with its name counts and
the name, in small letters, is not reserved. -/
theorem top_declaration_emitted_iff_last (tree : Tree) (hprogram : tree.kind = "program")
    (h : Readable s (Cursor.ofTree tree)) :
    ∀ c ∈ topNodes (Cursor.ofTree tree), ∀ n, declarationName? c = some n →
    ∀ name, s.text n = .ok name → name ≠ "" →
      ∃ own last, entityAt s c = .ok (some own) ∧ own.name = name ∧ own.counts = true ∧
        lastEntity? s (Cursor.ofTree tree) name = some last ∧
        ((∃ k ∈ (findings s (Cursor.ofTree tree)).components, k.name = name) ↔
          last.counts = true ∧ Text.lower name ∉ reservedNames) := by
  intro c hc n hn name hname hne
  have hwithin : c ∈ (Cursor.ofTree tree).within depthLimit := mem_within_of_mem_topNodes hc
  have hkind : (Cursor.ofTree tree).kind = "program" := hprogram
  obtain ⟨e?, he⟩ := exists_of_isOk (isOk_entityAt_of_mem_within rfl h hwithin)
  obtain ⟨own, rfl, hown⟩ := declares_of_declarationName? he hn hname
  obtain ⟨last, hlast, hlastName⟩ := exists_lastEntity? hwithin he
  rw [hown.name] at hlast hlastName
  refine ⟨own, last, he, hown.name, hown.counts (isTopLevel_of_mem_topNodes rfl hkind hc), hlast, ?_⟩
  calc (∃ k ∈ (findings s (Cursor.ofTree tree)).components, k.name = name)
      ↔ ∃ k, component? s last = some k := by
        simp only [mem_components_iff rfl h hne, hlast, Option.some.injEq, exists_eq_left']
    _ ↔ (component? s last).isSome = true := Option.isSome_iff_exists.symm
    _ ↔ last.counts = true ∧ Text.lower name ∉ reservedNames := by
        rw [isSome_component?_iff, hlastName]

/-- The source of a file with a local constant and, after it, a function with its name. -/
def functionAfter : Source :=
  Source.of "function g() \x7b\n  const f = 1;\n\x7d\nexport function f() \x7b\x7d\n" "/r/m.ts" (some "/r")

/-- The tree of that file. -/
def functionAfterTree : Tree :=
  .node "program" 0 55 [
    .node "function_declaration" 0 31 [
      .sign "function" 0 8, .leaf "identifier" 9 10, .leaf "formal_parameters" 10 12,
      .node "statement_block" 13 31 [.node "lexical_declaration" 17 29 [
        .sign "const" 17 22,
        .node "variable_declarator" 23 28 [.leaf "identifier" 23 24, .leaf "number" 27 28]]]],
    .node "export_statement" 32 54 [
      .sign "export" 32 38,
      .node "function_declaration" 39 54 [
        .sign "function" 39 47, .leaf "identifier" 48 49, .leaf "formal_parameters" 49 51,
        .leaf "statement_block" 52 54]]]

/-- The function is shown, though a local constant has its name. -/
theorem function_after_local_emitted :
    functionAfterTree.kind = "program" ∧ Readable functionAfter (Cursor.ofTree functionAfterTree) ∧
    ∃ k ∈ (findings functionAfter (Cursor.ofTree functionAfterTree)).components, k.name = "f" := by
  have hread : Readable functionAfter (Cursor.ofTree functionAfterTree) := by decide +kernel
  obtain ⟨c, hc, n, hn, hname⟩ : ∃ c ∈ topNodes (Cursor.ofTree functionAfterTree),
      ∃ n ∈ declarationName? c, (functionAfter.text n).toOption = some "f" := by
    decide +kernel
  obtain ⟨own, last, -, -, -, hlast, hshown⟩ := top_declaration_emitted_iff_last functionAfterTree rfl hread
    c hc n hn "f" (eq_ok_of_toOption hname) (by decide)
  have hcounts : (lastEntity? functionAfter (Cursor.ofTree functionAfterTree) "f").map Entity.counts =
      some true := by
    decide +kernel
  rw [hlast] at hcounts
  exact ⟨rfl, hread, hshown.mpr ⟨Option.some.inj hcounts, by decide +kernel⟩⟩

/-- The source of a file with a function and, after it, a local constant with its name. -/
def localAfter : Source :=
  Source.of "function f() \x7b\x7d\nfunction g() \x7b\n  const f = 1;\n\x7d\n" "/r/m.ts" (some "/r")

/-- The tree of that file. -/
def localAfterTree : Tree :=
  .node "program" 0 48 [
    .node "function_declaration" 0 15 [
      .sign "function" 0 8, .leaf "identifier" 9 10, .leaf "formal_parameters" 10 12,
      .leaf "statement_block" 13 15],
    .node "function_declaration" 16 47 [
      .sign "function" 16 24, .leaf "identifier" 25 26, .leaf "formal_parameters" 26 28,
      .node "statement_block" 29 47 [.node "lexical_declaration" 33 45 [
        .sign "const" 33 38,
        .node "variable_declarator" 39 44 [.leaf "identifier" 39 40, .leaf "number" 43 44]]]]]

/-- The function at the top is not shown, since a local constant has its name. -/
theorem function_before_local_not_emitted :
    localAfterTree.kind = "program" ∧ Readable localAfter (Cursor.ofTree localAfterTree) ∧
    (∃ c ∈ topNodes (Cursor.ofTree localAfterTree), ∃ n ∈ declarationName? c,
      (localAfter.text n).toOption = some "f") ∧
    Text.lower "f" ∉ reservedNames ∧
    ∀ k ∈ (findings localAfter (Cursor.ofTree localAfterTree)).components, k.name ≠ "f" := by
  have hread : Readable localAfter (Cursor.ofTree localAfterTree) := by decide +kernel
  refine ⟨rfl, hread, by decide +kernel, by decide +kernel, fun k hk hname => ?_⟩
  have hhidden : (lastEntity? localAfter (Cursor.ofTree localAfterTree) "f").map Entity.counts =
      some false := by
    decide +kernel
  obtain ⟨e, he, hcomponent⟩ := (mem_components_iff rfl hread (by decide)).mp ⟨hk, hname⟩
  have hcounts : e.counts = true :=
    (isSome_component?_iff.mp (Option.isSome_iff_exists.mpr ⟨k, hcomponent⟩)).1
  rw [he, Option.map_some, hcounts] at hhidden
  exact absurd hhidden (by decide)

end RepoAtlas.Extract.TypeScript
