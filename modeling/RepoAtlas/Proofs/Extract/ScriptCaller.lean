import RepoAtlas.Proofs.Extract.Caller
import RepoAtlas.Proofs.Extract.Identifier
import RepoAtlas.Proofs.Extract.Readable

/-!
# Callers in JavaScript files

A declaration of several functions gives the last name to everything inside, but only the first becomes a
component; and a function inside a class gives its name and is none. A caller is a component exactly if some
declaration in the file makes one of that name.
-/

namespace RepoAtlas.Extract.JavaScript

open Syntax

variable {s : Source} {root a b c d : Cursor} {name caller : String} {around now : Option String} {k : Component}
  {r : Relationship} {table : Declarations}

/-- Different names have different identifiers. -/
theorem componentId_inj {other : String} : componentId s name = componentId s other ↔ name = other := by
  rw [componentId, componentId, String.append_right_inj]

/-! ## Who is around -/

/-- The nodes that name the class or the functions which a node declares. -/
def namingNodes (c : Cursor) : List Cursor :=
  if classKinds.contains c.kind then (classNameNode? c).toList
  else if c.kind = "function_declaration" || c.kind = "generator_function_declaration" then
    (c.child? "identifier").toList
  else if c.kind = "lexical_declaration" then
    c.children.filterMap fun d => (functionDeclarator? d).map (·.1)
  else []

/-- A node gives a name to what is inside it: the last of the names that it declares. -/
def NamesCaller (s : Source) (c : Cursor) (name : String) : Prop :=
  ∃ n, (namingNodes c).getLast? = some n ∧ s.text n = .ok name

/-- Collected texts are those of the nodes. -/
theorem map_text_of_collect {nodes : List Cursor} {names : List String}
    (h : collect nodes (fun n => do .ok [← s.text n]) = .ok names) : nodes.map s.text = names.map .ok := by
  induction nodes generalizing names with
  | nil =>
    cases h
    rfl
  | cons n nodes ih =>
    simp only [collect, bind_eq_ok] at h
    obtain ⟨here, ⟨text, htext, hhere⟩, rest, hrest, h⟩ := h
    cases hhere
    cases h
    rw [List.map_cons, ih hrest, htext]
    rfl

/-- The parts of a node lie in what it declares, or else in what the node itself lies in. -/
theorem exists_of_topLevel (h : topLevel s around c = .ok now) :
    namingNodes c = [] ∧ now = around ∨ ∃ name, now = some name ∧ NamesCaller s c name := by
  obtain ⟨names, hnames, h⟩ := bind_eq_ok.mp h
  have hlast : (namingNodes c).getLast?.map s.text = names.getLast?.map .ok := by
    rw [← List.getLast?_map, ← List.getLast?_map]
    exact congrArg List.getLast? (map_text_of_collect hnames)
  cases h
  cases hnode : (namingNodes c).getLast? with
  | none =>
    rw [hnode] at hlast
    exact Or.inl ⟨List.getLast?_eq_none_iff.mp hnode, by rw [Option.map_eq_none_iff.mp hlast.symm]; rfl⟩
  | some n =>
    rw [hnode] at hlast
    obtain ⟨name, hname, htext⟩ := Option.map_eq_some_iff.mp hlast.symm
    exact Or.inr ⟨name, by rw [hname]; rfl, n, hnode, htext.symm⟩

/-- What a walk takes a node to lie in is named by an ancestor of it. -/
theorem exists_ancestor_of_mem_inherit
    (h : (around, c) ∈ root.inherit (fun around c => lenient (topLevel s around c)) none)
    (hname : around = some name) : ∃ a ∈ c.ancestors, NamesCaller s a name := by
  refine Cursor.forall_mem_inherit
    (P := fun v c => ∀ name, v = some name → ∃ a ∈ c.ancestors, NamesCaller s a name)
    (fun v c hv d hd name hname => ?_) (fun name hname => absurd hname.symm (Option.some_ne_none name)) _ h name hname
  rw [Cursor.ancestors_of_mem_children hd]
  obtain ⟨-, hsame⟩ | ⟨other, hother, hnames⟩ := exists_of_topLevel (eq_ok_of_lenient hname)
  · obtain ⟨a, ha, hnames⟩ := hv name hsame.symm
    exact ⟨a, List.mem_cons_of_mem c ha, hnames⟩
  · cases hother
    exact ⟨c, List.mem_cons_self, hnames⟩

/-! ## Relationships and their callers -/

/-- A relationship is told of a caller at a node. -/
def ToldAt (s : Source) (caller : String) (c : Cursor) (r : Relationship) : Prop :=
  r.caller = componentId s caller ∧ r.line = some (s.startLine c : Int)

/-- What comments tell is told of the caller. -/
theorem toldAt_of_mem_commentsAt (h : r ∈ (commentsAt s caller c).found) : ToldAt s caller c r := by
  obtain ⟨t, -, h⟩ := Trail.exists_of_mem_each h
  obtain ⟨comment, -, h⟩ := Trail.exists_of_mem_given h
  obtain ⟨type, -, rfl⟩ := List.mem_map.mp h
  exact ⟨rfl, rfl⟩

/-- So is a call. -/
theorem toldAt_of_callRelationship (h : callRelationship s table caller c = .ok (some r)) : ToldAt s caller c r := by
  rw [callRelationship, bind_eq_ok] at h
  obtain ⟨callee?, -, h⟩ := h
  split at h
  · cases h
  · obtain ⟨code, -, h⟩ := bind_eq_ok.mp h
    obtain ⟨-, h⟩ := Option.ite_none_left_eq_some.mp (Except.ok.inj h)
    obtain rfl := Option.some.inj h
    exact ⟨rfl, rfl⟩

/-- A use is told at its node, or at the call that the node awaits. -/
theorem toldAt_of_mem_useRelationship (h : r ∈ (useRelationship s table caller c).found) :
    ∃ d, (d = c ∨ d ∈ c.children) ∧ ToldAt s caller d r := by
  unfold useRelationship at h
  split at h
  · exact ⟨c, Or.inl rfl, toldAt_of_callRelationship (eq_ok_of_lenient (Option.mem_toList.mp h))⟩
  · split at h
    · obtain ⟨d, hd, hcall⟩ := Option.bind_eq_some_iff.mp (Option.mem_toList.mp h)
      exact ⟨d, Or.inr (List.mem_of_find?_eq_some hd), toldAt_of_callRelationship (eq_ok_of_lenient hcall)⟩
    · split at h
      · obtain ⟨callee, -, h⟩ := Trail.exists_of_mem_given h
        obtain ⟨name, -, rfl⟩ := Option.map_eq_some_iff.mp (Option.mem_toList.mp h)
        exact ⟨c, Or.inl rfl, rfl, rfl⟩
      · cases h

/-- Bases are told of the class that names the caller. -/
theorem toldAt_of_mem_baseRelationships (hnow : topLevel s around c = .ok now)
    (h : r ∈ (baseRelationships s c (now.getD "")).found) : ∃ name, NamesCaller s c name ∧ ToldAt s name c r := by
  unfold baseRelationships at h
  split at h
  · rename_i hclass
    obtain ⟨hkind, hnamed⟩ := Bool.and_eq_true_iff.mp hclass
    obtain ⟨b, -, h⟩ := Trail.exists_of_mem_each h
    obtain ⟨base, -, h⟩ := Trail.exists_of_mem_given h
    obtain rfl := List.mem_singleton.mp h
    obtain ⟨hnone, -⟩ | ⟨name, rfl, hname⟩ := exists_of_topLevel hnow
    · rw [namingNodes, if_pos hkind, Option.toList_eq_nil_iff] at hnone
      rw [hnone] at hnamed
      exact absurd hnamed (by decide)
    · exact ⟨name, hname, rfl, rfl⟩
  · cases h

/-- A relationship at a node is told of what is around or of what it names. -/
theorem exists_of_mem_relationshipsAt (h : r ∈ (relationshipsAt s table around c).found) :
    ∃ d name, (d = c ∨ d ∈ c.children) ∧ ToldAt s name d r ∧ (around = some name ∨ NamesCaller s c name) := by
  rcases Trail.mem_found_append h with h | h
  · split at h
    · rename_i caller haround
      exact ⟨c, caller, Or.inl rfl, toldAt_of_mem_commentsAt h, Or.inl (eq_some_of_nonEmpty haround)⟩
    · cases h
  · obtain ⟨now, hnow, h⟩ := Trail.exists_of_mem_given h
    rcases Trail.mem_found_append h with h | h
    · obtain ⟨name, hname, htold⟩ := toldAt_of_mem_baseRelationships hnow h
      exact ⟨c, name, Or.inl rfl, htold, Or.inr hname⟩
    · split at h
      · rename_i caller hcaller
        obtain ⟨d, hd, htold⟩ := toldAt_of_mem_useRelationship h
        refine ⟨d, caller, hd, htold, ?_⟩
        have hcaller := eq_some_of_nonEmpty hcaller
        obtain ⟨-, hsame⟩ | ⟨name, hname, hnames⟩ := exists_of_topLevel hnow
        · exact Or.inl (hsame.symm.trans hcaller)
        · obtain rfl := Option.some.inj (hname.symm.trans hcaller)
          exact Or.inr hnames
      · cases h

/-- Every relationship of a file is told at a node of what the node itself or an ancestor of it names. -/
theorem exists_of_mem_relationships (h : r ∈ (relationships s table root).found) :
    ∃ c ∈ root.preorder, ∃ a name, Cursor.AtOrAbove a c ∧ NamesCaller s a name ∧ ToldAt s name c r := by
  obtain ⟨⟨around, c⟩, he, h⟩ := Trail.exists_of_mem_each h
  have hc : c ∈ root.preorder := by
    rw [← Cursor.map_snd_inherit]
    exact List.mem_map_of_mem he
  obtain ⟨d, name, hd, htold, hname⟩ := exists_of_mem_relationshipsAt h
  obtain ⟨a, ha, hnames⟩ : ∃ a, Cursor.AtOrAbove a c ∧ NamesCaller s a name := by
    rcases hname with haround | hnames
    · obtain ⟨a, ha, hnames⟩ := exists_ancestor_of_mem_inherit he haround
      exact ⟨a, Or.inr ha, hnames⟩
    · exact ⟨c, Or.inl rfl, hnames⟩
  rcases hd with rfl | hd
  · exact ⟨d, hc, a, name, ha, hnames, htold⟩
  · refine ⟨d, Cursor.mem_preorder_of_mem_children hc hd, a, name, Or.inr ?_, hnames, htold⟩
    exact Cursor.mem_ancestors_iff.mpr ⟨c, Cursor.parent_of_mem_siblings hd, ha⟩

/-- Of relationships with the same ends and the same line one is there before. -/
theorem mem_of_mem_distinctUses {rs : List Relationship} (h : r ∈ distinctUses rs) : r ∈ rs := by
  suffices hsubset : ∀ n (rs : List Relationship), rs.length = n → ∀ r ∈ rs.eraseDupsBy sameUse, r ∈ rs from
    hsubset _ rs rfl r h
  intro n
  induction n using Nat.strongRecOn with
  | ind n ih =>
    intro rs hn r hr
    cases rs with
    | nil => cases hr
    | cons q rs =>
      rw [List.eraseDupsBy_cons] at hr
      rcases List.mem_cons.mp hr with rfl | hr
      · exact List.mem_cons_self
      · have hrest := ih _ (hn ▸ Nat.lt_succ_of_le (List.length_filter_le _ rs)) _ rfl r hr
        exact List.mem_cons_of_mem q (List.mem_filter.mp hrest).1

/-! ## Components and their declarations -/

/-- What a node declares, if it is found to lie in no class. -/
def outsideClasses (s : Source) (c : Cursor) (component : Except Fault (Option Component)) : Option Component :=
  match containingClass s c with
  | .ok none => lenient component
  | _ => none

/-- The component that a node declares. -/
def declaredAt? (s : Source) (c : Cursor) : Option Component :=
  if classKinds.contains c.kind then lenient (classComponent s c)
  else if c.kind = "function_declaration" || c.kind = "generator_function_declaration" then
    outsideClasses s c (functionComponent s c)
  else if c.kind = "export_statement" then lenient (exportedFunction s c)
  else if c.kind = "lexical_declaration" then outsideClasses s c (assignedFunction s c)
  else none

/-- The components of two lists of entries are put together. -/
theorem components_append (es fs : List Entry) : components (es ++ fs) = components es ++ components fs := by
  simp [components]

/-- A component that is listed is one. -/
theorem components_listed (o : Option Component) : components (listed o).found = o.toList := by
  cases o <;> rfl

/-- Methods are no components. -/
theorem components_methodEntries (owner : String) : components (methodEntries s c owner).found = [] := by
  rw [components, List.filter_eq_nil_iff.mpr fun e he => ?_, List.map_nil]
  obtain ⟨d, method, rfl⟩ := exists_of_mem_methodEntries he
  exact Bool.false_ne_true

/-- The function of a declaration is a component if the declaration is in no class. -/
theorem components_given_containingClass (component : Except Fault (Option Component)) :
    components (Trail.given (containingClass s c) fun owner =>
        if owner.isNone then listed (lenient component) else Trail.none).found =
      (outsideClasses s c component).toList := by
  rw [outsideClasses]
  rcases containingClass s c with fault | (_ | owner)
  · rfl
  · exact components_listed _
  · rfl

/-- A node declares at most one component. -/
theorem components_entriesAt (s : Source) (c : Cursor) :
    components (entriesAt s c).found = (declaredAt? s c).toList := by
  unfold entriesAt declaredAt?
  split
  · split
    · rename_i k hk
      rw [hk, Trail.append_of_failure_none _ _ rfl, components_append, components_listed,
        components_methodEntries, List.append_nil]
    · rename_i hk
      rw [hk]
      rfl
  · split
    · exact components_given_containingClass _
    · split
      · exact components_listed _
      · split
        · exact components_given_containingClass _
        · rfl

/-- The components are what nodes declare. -/
theorem mem_components_entries_iff (h : (entries s root).failure = none) :
    k ∈ components (entries s root).found ↔ ∃ b ∈ root.preorder, declaredAt? s b = some k := by
  rw [entries, Trail.found_each h]
  simp only [components, List.filter_flatMap, List.map_flatMap, List.mem_flatMap]
  refine exists_congr fun b => and_congr_right fun _ => ?_
  rw [← Option.mem_toList, ← components_entriesAt]
  rfl

/-! ## Components of readable files -/

/-- Whether a node lies in a class that has a name. -/
def inClass (c : Cursor) : Bool :=
  c.ancestors.any fun a => classKinds.contains a.kind && (classNameNode? a).isSome

/-- The node that names the component which a node declares: of several functions the first one, and none of
functions inside a class. An exported function is named where it stands. -/
def componentNode? (c : Cursor) : Option Cursor :=
  if c.kind = "export_statement" then (c.child? "function_declaration").bind (·.child? "identifier")
  else if classKinds.contains c.kind || !inClass c then (namingNodes c).head?
  else none

/-- The identifier of what a node names. -/
def idBy (s : Source) (o : Option Cursor) : Option String :=
  (o.bind fun n => (s.text n).toOption).map (componentId s)

/-- A node names the identifier of its text. -/
theorem idBy_of_text {n : Cursor} (h : s.text n = .ok name) : idBy s (some n) = some (componentId s name) := by
  rw [idBy, Option.bind_some, h]
  rfl

/-- An identifier is that of the text of the node. -/
theorem idBy_eq_some_iff {o : Option Cursor} :
    idBy s o = some (componentId s name) ↔ ∃ n, o = some n ∧ s.text n = .ok name := by
  simp only [idBy, Option.map_eq_some_iff, Option.bind_eq_some_iff, componentId_inj]
  constructor
  · rintro ⟨_, ⟨n, hn, hname⟩, rfl⟩
    exact ⟨n, hn, eq_ok_of_toOption hname⟩
  · rintro ⟨n, hn, hname⟩
    exact ⟨name, ⟨n, hn, by rw [hname]; rfl⟩, rfl⟩

/-- A class is identified by its name. -/
theorem id_of_classComponent (h : Readable s c) :
    (lenient (classComponent s c)).map (·.id) = idBy s (classNameNode? c) := by
  have hbases : (collect (heritage c) fun b => do .ok [← s.text b]).isOk = true := by
    refine isOk_collect_text fun b hb => ?_
    unfold heritage at hb
    split at hb
    · rename_i clause hclause
      exact (h.child? hclause).filtered _ b hb
    · cases hb
  obtain ⟨bases, hbases⟩ := exists_of_isOk hbases
  rw [classComponent]
  cases hnode : classNameNode? c with
  | none => rfl
  | some n =>
    obtain ⟨name, hname⟩ := exists_of_isOk (h.either hnode).text
    rw [idBy_of_text hname, Source.text?, hname, hbases]
    rfl

/-- A function that can be read is identified by its name. -/
theorem exists_functionAt {body whole : Cursor} (hbody : Readable s body) (hwhole : Readable s whole) (name : String) :
    ∃ k, functionAt s name body whole = .ok k ∧ k.id = componentId s name := by
  have hparameters : (parameters s body).isOk = true := by
    unfold parameters
    split
    · rename_i l hl
      exact isOk_collect_text ((hbody.child? hl).filtered _)
    · rfl
  obtain ⟨parameters, hparameters⟩ := exists_of_isOk hparameters
  obtain ⟨code, hcode⟩ := exists_of_isOk hwhole.text
  rw [functionAt, hparameters, hcode]
  exact ⟨_, rfl, rfl⟩

/-- So is a declared function. -/
theorem id_of_functionComponent (h : Readable s c) :
    (lenient (functionComponent s c)).map (·.id) = idBy s (c.child? "identifier") := by
  rw [functionComponent]
  cases hnode : c.child? "identifier" with
  | none => rfl
  | some n =>
    obtain ⟨name, hname⟩ := exists_of_isOk (h.child? hnode).text
    obtain ⟨f, hf, hid⟩ := exists_functionAt h h name
    rw [idBy_of_text hname, Source.text?, hname]
    change Option.map _ (lenient (functionAt s name c c >>= _)) = _
    rw [hf]
    exact congrArg some hid

/-- So is an exported function. -/
theorem id_of_exportedFunction (h : Readable s c) :
    (lenient (exportedFunction s c)).map (·.id) =
      idBy s ((c.child? "function_declaration").bind (·.child? "identifier")) := by
  rw [exportedFunction]
  cases hnode : c.child? "function_declaration" with
  | none => rfl
  | some d =>
    rw [Option.bind_some, Option.bind_some, ← id_of_functionComponent (h.child? hnode)]
    cases lenient (functionComponent s d) with
    | none => rfl
    | some f =>
      obtain ⟨code, hcode⟩ := exists_of_isOk h.text
      change Option.map _ (lenient (s.text c >>= _)) = _
      rw [hcode]
      change some (if _ then _ else f : Component).id = some f.id
      split <;> rfl

/-- So is the first function that is assigned. -/
theorem id_of_assignedFunction (h : Readable s c) :
    (lenient (assignedFunction s c)).map (·.id) =
      idBy s (c.children.filterMap fun d => (functionDeclarator? d).map (·.1)).head? := by
  have hfirst : (c.children.filterMap fun d => (functionDeclarator? d).map (·.1)).head? =
      (c.children.findSome? fun d => (functionDeclarator? d).map fun p => (d, p)).map (·.2.1) := by
    rw [List.head?_filterMap, List.map_findSome?]
    simp only [Function.comp_def, Option.map_map]
  rw [assignedFunction, hfirst]
  cases hfound : c.children.findSome? fun d => (functionDeclarator? d).map fun p => (d, p) with
  | none => rfl
  | some p =>
    obtain ⟨whole, nameNode, body⟩ := p
    obtain ⟨d, hd, hpair⟩ := List.exists_of_findSome?_eq_some hfound
    obtain ⟨p, hp, heq⟩ := Option.map_eq_some_iff.mp hpair
    obtain ⟨rfl, rfl⟩ := Prod.mk.inj heq
    have hread := h.part hd
    obtain ⟨hname, hbody⟩ : Readable s nameNode ∧ Readable s body := by
      unfold functionDeclarator? at hp
      split at hp
      · split at hp
        · rename_i n f hn hf
          cases hp
          exact ⟨hread.child? hn, hread.either hf⟩
        · cases hp
      · cases hp
    obtain ⟨name, htext⟩ := exists_of_isOk hname.text
    obtain ⟨k, hk, hid⟩ := exists_functionAt hbody hread name
    change Option.map _ (lenient (s.text nameNode >>= _)) = idBy s (some nameNode)
    rw [idBy_of_text htext, htext]
    change Option.map _ (lenient (functionAt s name body d >>= _)) = _
    rw [hk]
    exact congrArg some hid

/-- In a readable file a node is found to lie in a class exactly if a class around it has a name. -/
theorem containingClass_eq_none_iff (hread : Readable s root) (hroot : root.parent = none) (hc : c ∈ root.preorder) :
    containingClass s c = .ok none ↔ inClass c = false := by
  rw [containingClass, inClass, List.any_eq_false]
  cases hnode : (c.ancestors.filter fun a => classKinds.contains a.kind).findSome? classNameNode? with
  | none =>
    refine iff_of_true rfl fun a ha hclass => ?_
    obtain ⟨hkind, hnamed⟩ := Bool.and_eq_true_iff.mp hclass
    rw [List.findSome?_eq_none_iff.mp hnode a (List.mem_filter.mpr ⟨ha, hkind⟩)] at hnamed
    exact absurd hnamed (by decide)
  | some n =>
    obtain ⟨a, ha, hnamed⟩ := List.exists_of_findSome?_eq_some hnode
    obtain ⟨ha, hkind⟩ := List.mem_filter.mp ha
    have hreada := hread.below (Cursor.mem_preorder_of_mem_ancestors hroot hc ha)
    obtain ⟨owner, howner⟩ := exists_of_isOk (hreada.either hnamed).text
    rw [Source.text?, howner]
    refine iff_of_false (fun h => absurd (Except.ok.inj h) (Option.some_ne_none owner)) fun h => ?_
    exact h a ha (by rw [hkind, hnamed]; rfl)

/-- Inside classes functions are left out. -/
theorem id_of_outsideClasses (hread : Readable s root) (hroot : root.parent = none) (hc : c ∈ root.preorder)
    (component : Except Fault (Option Component)) :
    (outsideClasses s c component).map (·.id) = if inClass c then none else (lenient component).map (·.id) := by
  have hiff := containingClass_eq_none_iff hread hroot hc
  rw [outsideClasses]
  cases hclass : inClass c with
  | false =>
    rw [hiff.mpr hclass]
    rfl
  | true =>
    rcases howner : containingClass s c with fault | (_ | owner)
    · rfl
    · exact absurd (hclass.symm.trans (hiff.mp howner)) (by decide)
    · rfl

/-- In a readable file the component that a node declares has the name which the node gives it. -/
theorem id_of_declaredAt? (hread : Readable s root) (hroot : root.parent = none) (hc : c ∈ root.preorder) :
    (declaredAt? s c).map (·.id) = idBy s (componentNode? c) := by
  have hreadc := hread.below hc
  unfold declaredAt? componentNode? namingNodes
  by_cases hclass : classKinds.contains c.kind = true
  · have hexport : c.kind ≠ "export_statement" := fun h => absurd (h ▸ hclass) (by decide)
    simp only [hclass, hexport, Bool.true_or, if_true, if_false]
    rw [id_of_classComponent hreadc, Option.head?_toList]
  · have hplace : (classKinds.contains c.kind || !inClass c) = !inClass c := by
      rw [Bool.eq_false_iff.mpr hclass, Bool.false_or]
    by_cases hfunction : (c.kind = "function_declaration" || c.kind = "generator_function_declaration") = true
    · have hexport : c.kind ≠ "export_statement" := fun h => absurd (h ▸ hfunction) (by decide)
      simp only [hplace, if_neg hclass, if_pos hfunction, if_neg hexport]
      rw [id_of_outsideClasses hread hroot hc, id_of_functionComponent hreadc, Option.head?_toList]
      cases inClass c <;> rfl
    · by_cases hexport : c.kind = "export_statement"
      · simp only [if_neg hclass, if_neg hfunction, if_pos hexport]
        exact id_of_exportedFunction hreadc
      · by_cases hlexical : c.kind = "lexical_declaration"
        · simp only [hplace, if_neg hclass, if_neg hfunction, if_neg hexport, if_pos hlexical]
          rw [id_of_outsideClasses hread hroot hc, id_of_assignedFunction hreadc]
          cases inClass c <;> rfl
        · simp only [hplace, if_neg hclass, if_neg hfunction, if_neg hexport, if_neg hlexical]
          cases inClass c <;> rfl

/-- A node declares a component with a name. -/
def MakesComponent (s : Source) (c : Cursor) (name : String) : Prop :=
  ∃ k, declaredAt? s c = some k ∧ k.id = componentId s name

/-- A node makes a component of the name that it gives. -/
theorem makesComponent_iff (hread : Readable s root) (hroot : root.parent = none) (hc : c ∈ root.preorder) :
    MakesComponent s c name ↔ ∃ n, componentNode? c = some n ∧ s.text n = .ok name := by
  rw [← idBy_eq_some_iff, ← id_of_declaredAt? hread hroot hc, Option.map_eq_some_iff]
  rfl

/-- A node declares a component with the name it gives if it is a class or lies in none, and its first name is
its last. -/
theorem componentNode?_of_namesCaller (h : NamesCaller s c caller) :
    (∃ n, componentNode? c = some n ∧ s.text n = .ok name) ↔
      (classKinds.contains c.kind = true ∨ inClass c = false) ∧
        ∃ n, (namingNodes c).head? = some n ∧ s.text n = .ok name := by
  have hexport : c.kind ≠ "export_statement" := by
    obtain ⟨n, hn, -⟩ := h
    intro hkind
    have hnone : namingNodes c = [] := by
      unfold namingNodes
      rw [hkind]
      rfl
    rw [hnone] at hn
    cases hn
  rw [componentNode?, if_neg hexport]
  by_cases hplace : (classKinds.contains c.kind || !inClass c) = true
  · rw [if_pos hplace, and_iff_right (by simpa using hplace)]
  · rw [if_neg hplace]
    refine iff_of_false (by simp) fun h => hplace (by simpa using h.1)

/-- The components of the findings are those that are declared. -/
theorem ids_perm (s : Source) (root : Cursor) :
    (findings s root).ids.Perm ((components (entries s root).found).map (·.id)) := by
  simp only [Findings.ids, findings]
  split
  · exact List.Perm.refl _
  · exact (List.mergeSort_perm _ _).map _

/-- If there is a relationship, no declaration has failed. -/
theorem failure_of_mem_relationships (h : r ∈ (findings s root).relationships) :
    (entries s root).failure = none ∧ r ∈ (relationships s (remembered (entries s root).found) root).found := by
  simp only [findings] at h
  split at h
  · cases h
  · rename_i hfailure
    exact ⟨by simpa using hfailure, mem_of_mem_distinctUses h⟩

/-- A relationship is told of the class or function around it by name, and is listed exactly if some
declaration makes a component with that name. The one around does so exactly if it is a class or lies in none,
and its first name is its last. -/
theorem caller_listed_iff_declared (s : Source) (t : Tree) (r : Relationship)
    (hr : r ∈ (findings s (Cursor.ofTree t)).relationships) :
    ∃ c ∈ (Cursor.ofTree t).preorder, ∃ a name, Cursor.AtOrAbove a c ∧ NamesCaller s a name ∧ ToldAt s name c r ∧
      (r.caller ∈ (findings s (Cursor.ofTree t)).ids ↔ ∃ b ∈ (Cursor.ofTree t).preorder, MakesComponent s b name) ∧
      (Readable s (Cursor.ofTree t) →
        (∀ b ∈ (Cursor.ofTree t).preorder,
          MakesComponent s b name ↔ ∃ n, componentNode? b = some n ∧ s.text n = .ok name) ∧
        (MakesComponent s a name ↔ (classKinds.contains a.kind = true ∨ inClass a = false) ∧
          ∃ n, (namingNodes a).head? = some n ∧ s.text n = .ok name)) := by
  obtain ⟨hfailure, hr⟩ := failure_of_mem_relationships hr
  obtain ⟨c, hc, a, name, habove, hnames, htold⟩ := exists_of_mem_relationships hr
  refine ⟨c, hc, a, name, habove, hnames, htold, ?_, fun hread => ⟨fun b hb => makesComponent_iff hread rfl hb, ?_⟩⟩
  · rw [(ids_perm s _).mem_iff, List.mem_map, htold.1]
    simp only [mem_components_entries_iff hfailure]
    constructor
    · rintro ⟨k, ⟨b, hb, hk⟩, hid⟩
      exact ⟨b, hb, k, hk, hid⟩
    · rintro ⟨b, hb, k, hk, hid⟩
      exact ⟨k, ⟨b, hb, hk⟩, hid⟩
  · have ha : a ∈ (Cursor.ofTree t).preorder := by
      rcases habove with rfl | habove
      · exact hc
      · exact Cursor.mem_preorder_of_mem_ancestors rfl hc habove
    rw [makesComponent_iff hread rfl ha, componentNode?_of_namesCaller hnames]

/-- The source of a file where calls stand in a function inside a class, in the second function of a declaration and
in a plain function. -/
def threeCalls : Source :=
  Source.of ("class A \x7b\n  m() \x7b\n    function g() \x7b\n      h();\n    \x7d\n  \x7d\n\x7d\n" ++
    "const a = () => \x7b\x7d, b = () => \x7b\n  h();\n\x7d;\nfunction k() \x7b\n  h();\n\x7d\n") "/r/m.js" (some "/r")

/-- The tree of that file. -/
def threeCallsTree : Tree :=
  .node "program" 0 126 [
    .node "class_declaration" 0 59 [
      .sign "class" 0 5, .leaf "identifier" 6 7,
      .curly "class_body" 8 59 [.node "method_definition" 12 57 [
        .leaf "property_identifier" 12 13, .round "formal_parameters" 13 15 [],
        .curly "statement_block" 16 57 [.node "function_declaration" 22 53 [
          .sign "function" 22 30, .leaf "identifier" 31 32, .round "formal_parameters" 32 34 [],
          .curly "statement_block" 35 53 [.node "expression_statement" 43 47 [
            .node "call_expression" 43 46 [.leaf "identifier" 43 44, .round "arguments" 44 46 []],
            .sign ";" 46 47]]]]]]],
    .node "lexical_declaration" 60 101 [
      .sign "const" 60 65,
      .node "variable_declarator" 66 78 [
        .leaf "identifier" 66 67, .sign "=" 68 69,
        .node "arrow_function" 70 78 [
          .round "formal_parameters" 70 72 [], .sign "=>" 73 75, .curly "statement_block" 76 78 []]],
      .sign "," 78 79,
      .node "variable_declarator" 80 100 [
        .leaf "identifier" 80 81, .sign "=" 82 83,
        .node "arrow_function" 84 100 [
          .round "formal_parameters" 84 86 [], .sign "=>" 87 89,
          .curly "statement_block" 90 100 [.node "expression_statement" 94 98 [
            .node "call_expression" 94 97 [.leaf "identifier" 94 95, .round "arguments" 95 97 []],
            .sign ";" 97 98]]]],
      .sign ";" 100 101],
    .node "function_declaration" 102 125 [
      .sign "function" 102 110, .leaf "identifier" 111 112, .round "formal_parameters" 112 114 [],
      .curly "statement_block" 115 125 [.node "expression_statement" 119 123 [
        .node "call_expression" 119 122 [.leaf "identifier" 119 120, .round "arguments" 120 122 []],
        .sign ";" 122 123]]]]

/-- The call in the plain function is told of a component. -/
theorem plain_caller_listed :
    Readable threeCalls (Cursor.ofTree threeCallsTree) ∧
    ∃ r ∈ (findings threeCalls (Cursor.ofTree threeCallsTree)).relationships, r.line = some 12 ∧ r.caller = "m.k" ∧
      r.caller ∈ (findings threeCalls (Cursor.ofTree threeCallsTree)).ids := by
  have hread : Readable threeCalls (Cursor.ofTree threeCallsTree) := by decide +kernel
  obtain ⟨r, hr, hline, hcaller⟩ : ∃ r ∈ (findings threeCalls (Cursor.ofTree threeCallsTree)).relationships,
      r.line = some 12 ∧ r.caller = "m.k" := by
    decide +kernel
  obtain ⟨c, -, a, name, -, -, htold, hlisted, hnamed⟩ := caller_listed_iff_declared threeCalls threeCallsTree r hr
  have hname : "k" = name := by
    rw [← componentId_inj (s := threeCalls), ← htold.1, hcaller]
    decide +kernel
  obtain ⟨b, hb, n, hn, htext⟩ : ∃ b ∈ (Cursor.ofTree threeCallsTree).preorder, ∃ n ∈ componentNode? b,
      (threeCalls.text n).toOption = some "k" := by
    decide +kernel
  refine ⟨hread, r, hr, hline, hcaller, hlisted.mpr ⟨b, hb, ((hnamed hread).1 b hb).mpr ⟨n, hn, ?_⟩⟩⟩
  exact hname ▸ eq_ok_of_toOption htext

/-- The calls in the inner function and in the second function are told of callers that are no components. -/
theorem inner_callers_not_listed :
    (findings threeCalls (Cursor.ofTree threeCallsTree)).relationships.map (fun r => (r.caller, r.callee, r.line)) =
      [("m.g", "m.h", some 4), ("m.b", "m.h", some 9), ("m.k", "m.h", some 12)] ∧
    "m.g" ∉ (findings threeCalls (Cursor.ofTree threeCallsTree)).ids ∧
    "m.b" ∉ (findings threeCalls (Cursor.ofTree threeCallsTree)).ids := by
  simp only [(ids_perm _ _).mem_iff]
  decide +kernel

end RepoAtlas.Extract.JavaScript
