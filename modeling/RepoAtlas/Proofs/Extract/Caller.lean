import RepoAtlas.Proofs.Extract.Identifier
import RepoAtlas.Proofs.Keyed
import RepoAtlas.Proofs.Syntax.Walk

/-!
# Callers are components

Relationships are looked for in a second walk, which finds the component around a node anew. Both walks agree:
the callers are components of the same file.
-/

namespace RepoAtlas

/-- The identifiers of the components that were found. -/
def Findings.ids (f : Findings) : List String :=
  f.components.map (·.id)

/-- Whatever refers to something is a component. -/
def Findings.CallersListed (f : Findings) : Prop :=
  ∀ r ∈ f.relationships, r.caller ∈ f.ids

namespace Extract

open Syntax

variable {s : Source} {root c : Cursor} {name : String} {r : Relationship} {f : Findings} {parsers : Parsers}
  {file : SourceFile} {rs : List Relationship}

/-- The root of a file has no parent. -/
theorem parent_of_opened {language : String} (h : opened parsers language file = .ok (s, root)) :
    root.parent = none := by
  obtain ⟨path, -, h⟩ := bind_eq_ok.mp h
  obtain ⟨-, -, h⟩ := bind_eq_ok.mp h
  obtain ⟨text, -, h⟩ := bind_eq_ok.mp h
  obtain ⟨tree, -, h⟩ := bind_eq_ok.mp h
  obtain rfl := (Prod.mk.inj (Except.ok.inj h)).2
  rfl

/-- Components by their names. -/
def tableOf (all : List Component) : Declarations :=
  Keyed.ofList (all.map fun d => (d.name, d))

/-- Where identifiers are made of names, a name in the table makes the identifier of a component. -/
theorem mem_ids_of_has {all : List Component} {idOf : String → String} (hid : ∀ d ∈ all, d.id = idOf d.name)
    (h : (tableOf all).has name = true) : idOf name ∈ all.map (·.id) := by
  rw [Keyed.has_iff_mem_keys, tableOf, Keyed.ofList_eq_insertAll, Keyed.mem_keys_insertAll] at h
  rcases h with h | h
  · cases h
  · obtain ⟨e, he, rfl⟩ := List.mem_map.mp h
    obtain ⟨d, hd, rfl⟩ := List.mem_map.mp he
    exact List.mem_map.mpr ⟨d, hd, hid d hd⟩

namespace Java

variable {all : List Component} {rs : List Relationship}

/-- The components have the identifiers of their names. -/
theorem id_of_mem_collect {d : Component} (hall : collect root.preorder (componentAt s) = .ok all)
    (hd : d ∈ all) : d.id = componentId s d.name := by
  obtain ⟨n, -, kind, name, -, rfl⟩ := exists_of_components hall hd
  rfl

/-- What is declared under a name is listed. -/
theorem mem_ids_of_declaration? (kind : String) (hall : collect root.preorder (componentAt s) = .ok all)
    (hc : c ∈ root.preorder) (hdeclares : declaration? s c = .ok (some (kind, name)))
    (hne : name ≠ "") : componentId s name ∈ all.map (·.id) := by
  obtain ⟨found, hfound, hsub⟩ := subset_of_collect hall hc
  obtain ⟨declaration, hdeclaration, hfound⟩ := bind_eq_ok.mp hfound
  obtain rfl := Except.ok.inj (hdeclares.symm.trans hdeclaration)
  cases hfound
  -- The identifier is not to be unfolded when records are compared.
  generalize componentId s name = id at hsub ⊢
  have hmem : declared s c id kind name ∈ all := hsub _ (by simp [hne])
  exact List.mem_map.mpr ⟨declared s c id kind name, hmem, rfl⟩

/-- So are classes, enumerations and records under their plain names. -/
theorem mem_ids_of_plainName (hall : collect root.preorder (componentAt s) = .ok all)
    (hc : c ∈ root.preorder)
    (hkind : c.kind = "class_declaration" ∨ c.kind = "enum_declaration" ∨
      c.kind = "record_declaration")
    (hname : plainName s c = .ok (some name)) (hne : name ≠ "") :
    componentId s name ∈ all.map (·.id) := by
  have hmethod : c.kind ≠ "method_declaration" := by
    rcases hkind with h | h | h <;> rw [h] <;> decide
  obtain ⟨found, hfound, -⟩ := subset_of_collect hall hc
  obtain ⟨declaration, hdeclaration, -⟩ := bind_eq_ok.mp hfound
  simp only [declaration?, if_neg hmethod] at hdeclaration
  obtain ⟨kind?, hkind?, -⟩ := bind_eq_ok.mp hdeclaration
  -- Only the kind of a class needs its modifiers to be read.
  obtain ⟨kind, rfl⟩ : ∃ kind, kind? = some kind := by
    unfold typeKind at hkind?
    rcases hkind with h | h | h
    · rw [if_pos h] at hkind?
      obtain ⟨isAbstract, -, hkind?⟩ := bind_eq_ok.mp hkind?
      exact ⟨_, (Except.ok.inj hkind?).symm⟩
    all_goals
      simp only [h, String.reduceEq, if_true, if_false] at hkind?
      exact ⟨_, (Except.ok.inj hkind?).symm⟩
  refine mem_ids_of_declaration? kind hall hc ?_ hne
  simp only [declaration?, if_neg hmethod, hkind?, hname]
  rfl

/-- The type around a node is listed. -/
theorem mem_ids_of_containingType {owner : String} (hall : collect root.preorder (componentAt s) = .ok all)
    (h : containingType s (tableOf all) c = .ok (some owner)) : owner ∈ all.map (·.id) := by
  obtain ⟨a, -, h⟩ := exists_of_firstOf h
  split at h
  · obtain ⟨name?, -, h⟩ := bind_eq_ok.mp h
    split at h
    · rename_i name hname
      split at h
      · rename_i hhas
        obtain rfl := Option.some.inj (Except.ok.inj h)
        exact mem_ids_of_has (fun d => id_of_mem_collect hall) hhas
      · cases h
    · cases h
  · cases h

/-- The method around a node is listed. -/
theorem mem_ids_of_containingMethod {method : String} (hroot : root.parent = none)
    (hall : collect root.preorder (componentAt s) = .ok all) (hc : c ∈ root.preorder)
    (h : containingMethod s c = .ok (some method)) : method ∈ all.map (·.id) := by
  obtain ⟨a, ha, h⟩ := exists_of_firstOf h
  have hmem : a ∈ root.preorder := Cursor.mem_preorder_of_mem_ancestors hroot hc ha
  split at h
  · rename_i hkind
    obtain ⟨name?, hname?, h⟩ := bind_eq_ok.mp h
    obtain ⟨owner?, howner?, h⟩ := bind_eq_ok.mp h
    split at h
    · rename_i name owner hname howner
      obtain rfl := Option.some.inj (Except.ok.inj h)
      obtain rfl := eq_some_of_nonEmpty hname
      refine mem_ids_of_declaration? "method" hall hmem ?_ ?_
      · simp only [declaration?, if_pos hkind, hname?, howner?, bind, Except.bind, howner]
      · intro heq
        have hlist := congrArg String.toList heq
        simp at hlist
    · cases h
  · cases h

/-- A use of a type is told of its caller. -/
theorem caller_of_usesType {caller : String} {type : Option String}
    (h : r ∈ usesType s c caller type) : r.caller = caller := by
  unfold usesType at h
  split at h
  · cases h
  · obtain ⟨-, rfl⟩ := mem_unless h
    rfl

/-- What extends something is listed. -/
theorem caller_of_extendsAt (hall : collect root.preorder (componentAt s) = .ok all)
    (hc : c ∈ root.preorder) (hkind : c.kind = "class_declaration")
    (h : extendsAt s c = .ok rs) (hr : r ∈ rs) : r.caller ∈ all.map (·.id) := by
  obtain ⟨name?, hname?, h⟩ := bind_eq_ok.mp h
  split at h
  · cases h
    cases hr
  · obtain ⟨baseName, -, h⟩ := bind_eq_ok.mp h
    split at h
    · rename_i name base hname hbase
      cases h
      obtain ⟨-, rfl⟩ := mem_unless hr
      obtain rfl := eq_some_of_nonEmpty hname
      exact mem_ids_of_plainName hall hc (Or.inl hkind) hname? (ne_of_nonEmpty hname)
    · cases h
      cases hr

/-- What implements something is listed. -/
theorem caller_of_implementsAt (hall : collect root.preorder (componentAt s) = .ok all)
    (hc : c ∈ root.preorder)
    (hkind : c.kind = "class_declaration" ∨ c.kind = "enum_declaration" ∨
      c.kind = "record_declaration")
    (h : implementsAt s c = .ok rs) (hr : r ∈ rs) : r.caller ∈ all.map (·.id) := by
  obtain ⟨name?, hname?, h⟩ := bind_eq_ok.mp h
  split at h
  · rename_i interfaces name hinterfaces hname
    obtain ⟨t, -, found, hfound, hr⟩ := exists_of_mem_collect h hr
    obtain ⟨type?, -, hfound⟩ := bind_eq_ok.mp hfound
    split at hfound
    · cases hfound
      cases hr
    · cases hfound
      obtain ⟨-, rfl⟩ := mem_unless hr
      obtain rfl := eq_some_of_nonEmpty hname
      exact mem_ids_of_plainName hall hc hkind hname? (ne_of_nonEmpty hname)
  · cases h
    cases hr

/-- What mentions a type is listed. -/
theorem caller_of_mentionsAt (hall : collect root.preorder (componentAt s) = .ok all)
    (h : mentionsAt s (tableOf all) c = .ok rs) (hr : r ∈ rs) : r.caller ∈ all.map (·.id) := by
  obtain ⟨owner?, howner?, h⟩ := bind_eq_ok.mp h
  split at h
  · obtain ⟨type, -, h⟩ := bind_eq_ok.mp h
    cases h
    rw [caller_of_usesType hr]
    exact mem_ids_of_containingType hall howner?
  · cases h
    cases hr

/-- What calls something is listed. -/
theorem caller_of_callAt (hroot : root.parent = none) (hall : collect root.preorder (componentAt s) = .ok all)
    (hc : c ∈ root.preorder) (h : callAt s (tableOf all) c = .ok rs) (hr : r ∈ rs) : r.caller ∈ all.map (·.id) := by
  obtain ⟨owner?, howner?, h⟩ := bind_eq_ok.mp h
  obtain ⟨method?, hmethod?, h⟩ := bind_eq_ok.mp h
  cases owner? with
  | none =>
    cases h
    cases hr
  | some owner =>
    obtain ⟨called, -, h⟩ := bind_eq_ok.mp h
    split at h
    · cases h
      cases hr
    · have hcaller : r.caller = method?.getD owner := by
        split at h
        all_goals
          obtain ⟨type, -, h⟩ := bind_eq_ok.mp h
          cases h
          exact caller_of_usesType hr
      rw [hcaller]
      cases method? with
      | none => exact mem_ids_of_containingType hall howner?
      | some method => exact mem_ids_of_containingMethod hroot hall hc hmethod?

/-- Whatever refers to something at a node is listed. -/
theorem caller_of_relationshipsAt (hroot : root.parent = none)
    (hall : collect root.preorder (componentAt s) = .ok all) (hc : c ∈ root.preorder)
    (h : relationshipsAt s (tableOf all) c = .ok rs) (hr : r ∈ rs) : r.caller ∈ all.map (·.id) := by
  unfold relationshipsAt at h
  split at h
  · rename_i hkind
    obtain ⟨extended, hextended, h⟩ := bind_eq_ok.mp h
    obtain ⟨implemented, himplemented, h⟩ := bind_eq_ok.mp h
    cases h
    rcases List.mem_append.mp hr with hr | hr
    · exact caller_of_extendsAt hall hc hkind hextended hr
    · exact caller_of_implementsAt hall hc (Or.inl hkind) himplemented hr
  split at h
  · rename_i hkind
    exact caller_of_implementsAt hall hc (Or.inr (by simpa using hkind)) h hr
  split at h
  · exact caller_of_mentionsAt hall h hr
  split at h
  · exact caller_of_callAt hroot hall hc h hr
  · cases h
    cases hr

/-- In Java whatever refers to something is listed. -/
theorem callersListed_findings (hroot : root.parent = none) (h : findings s root = .ok f) : f.CallersListed := by
  obtain ⟨all, hall, h⟩ := bind_eq_ok.mp h
  obtain ⟨relationships, hrelationships, h⟩ := bind_eq_ok.mp h
  cases h
  intro r hr
  obtain ⟨c, hc, found, hfound, hmem⟩ := exists_of_mem_collect hrelationships hr
  exact caller_of_relationshipsAt hroot hall hc hfound hmem

end Java

namespace TypeScript

variable {k : Context} {caller : String}

/-- The component that a node lies in, if any, is one of the components at the top. -/
def AtTop (k : Context) (around : Option String) : Prop :=
  ∀ name, around = some name → name ∈ k.topLevel

/-- What is entered is at the top if what was around is. -/
theorem atTop_enclosing {around now : Option String} (haround : AtTop k around)
    (h : enclosing s k around c = .ok now) : AtTop k now := by
  unfold enclosing at h
  split at h
  · obtain ⟨name?, -, h⟩ := bind_eq_ok.mp h
    split at h
    · cases h
      split
      · rename_i htop
        intro name hname
        cases hname
        simpa using htop
      · exact haround
    · exact Except.ok.inj h ▸ haround
  · exact Except.ok.inj h ▸ haround

/-- So is what is handed down. -/
theorem atTop_handedDown {around : Option String} (haround : AtTop k around) : AtTop k (handedDown s k around c) := by
  unfold handedDown
  split
  · rename_i now hnow
    exact atTop_enclosing haround hnow
  · exact fun name hname => absurd hname.symm (Option.some_ne_none name)

/-- A relationship is told of its caller. -/
theorem caller_of_mem_related {names : Option String}
    (h : r ∈ (names.map (related s c caller)).toList) : r.caller = componentId s caller := by
  obtain ⟨callee, -, rfl⟩ := Option.map_eq_some_iff.mp (Option.mem_toList.mp h)
  rfl

/-- So is a call. -/
theorem caller_of_callAt (h : callAt s k caller c = .ok rs) (hr : r ∈ rs) : r.caller = componentId s caller := by
  obtain ⟨callee?, -, h⟩ := bind_eq_ok.mp h
  split at h
  · cases h
    cases hr
  · obtain ⟨code, -, h⟩ := bind_eq_ok.mp h
    cases h
    split at hr
    · obtain rfl := List.mem_singleton.mp hr
      rfl
    · cases hr

/-- So is an annotation. -/
theorem caller_of_annotationAt (h : r ∈ (annotationAt s k caller c).found) : r.caller = componentId s caller := by
  obtain ⟨t, -, h⟩ := Trail.exists_of_mem_each h
  obtain ⟨name, -, h⟩ := Trail.exists_of_mem_given h
  split at h
  · cases h
  · split at h
    · obtain rfl := List.mem_singleton.mp h
      rfl
    · cases h

/-- So is a mention of a name. -/
theorem caller_of_namesAt {kinds : List String} (h : r ∈ (namesAt s k caller c kinds).found) :
    r.caller = componentId s caller := by
  obtain ⟨d, -, h⟩ := Trail.exists_of_mem_each h
  obtain ⟨name, -, h⟩ := Trail.exists_of_mem_given h
  split at h
  · obtain rfl := List.mem_singleton.mp h
    rfl
  · cases h

/-- So is whatever a node tells. -/
theorem caller_of_relationshipsAt (h : r ∈ (relationshipsAt s k caller c).found) :
    r.caller = componentId s caller := by
  unfold relationshipsAt Trail.absorb at h
  split at h
  · obtain ⟨rs, hrs, hr⟩ := Trail.exists_of_mem_ofExcept h
    exact caller_of_callAt hrs hr
  · obtain ⟨rs, hrs, hr⟩ := Trail.exists_of_mem_ofExcept h
    obtain ⟨text, -, hrs⟩ := bind_eq_ok.mp hrs
    cases hrs
    exact caller_of_mem_related hr
  · obtain ⟨rs, hrs, hr⟩ := Trail.exists_of_mem_ofExcept h
    obtain ⟨text, -, hrs⟩ := bind_eq_ok.mp hrs
    cases hrs
    exact caller_of_mem_related hr
  · exact caller_of_annotationAt h
  · exact caller_of_namesAt h
  · exact caller_of_namesAt h
  · exact caller_of_namesAt h
  · cases h

/-- The callers are components at the top. -/
theorem caller_of_relationships (h : r ∈ (relationships s k root).found) :
    ∃ name ∈ k.topLevel, r.caller = componentId s name := by
  obtain ⟨v, hv, h⟩ := Trail.exists_of_mem_each h
  obtain ⟨now, hnow, h⟩ := Trail.exists_of_mem_given h
  -- The names are handed down from component to component, so all of them are at the top.
  have hvalue : AtTop k v.value := by
    refine Cursor.value_of_mem_visits (fun around c haround => atTop_handedDown haround) ?_ hv
    intro w hw
    obtain rfl := List.mem_singleton.mp hw
    exact fun name hname => absurd hname.symm (Option.some_ne_none name)
  split at h
  · rename_i caller hcaller
    have htop : caller ∈ k.topLevel :=
      atTop_enclosing hvalue hnow caller (eq_some_of_nonEmpty hcaller)
    exact ⟨caller, htop, caller_of_relationshipsAt h⟩
  · cases h

/-- A component has the identifier of its name. -/
theorem id_of_component? {e : Entity} {d : Component} (h : component? s e = some d) :
    d.id = componentId s d.name := by
  unfold component? at h
  split at h
  · cases h
  · split at h
    · cases h
    · obtain rfl := Option.some.inj h
      rfl

/-- In TypeScript whatever refers to something is listed. -/
theorem callersListed_findings : (findings s root).CallersListed := by
  intro r hr
  unfold findings at hr ⊢
  split at hr
  · cases hr
  · obtain ⟨name, hname, hcaller⟩ := caller_of_relationships hr
    obtain ⟨d, hd, rfl⟩ := List.mem_map.mp hname
    obtain ⟨e, -, he⟩ := List.mem_filterMap.mp hd
    rw [hcaller]
    exact List.mem_map.mpr ⟨d, hd, id_of_component? he⟩

end TypeScript

namespace Query

/-- So it is by queries. -/
theorem callersListed_findings {captures : Captures} (h : findings s root captures = .ok f) : f.CallersListed := by
  obtain ⟨⟨definitions, references⟩, -, h⟩ := bind_eq_ok.mp h
  cases h
  intro r hr
  obtain ⟨reference, -, hrelates⟩ := List.mem_filterMap.mp hr
  unfold relationship? at hrelates
  split at hrelates
  · cases hrelates
  · split at hrelates
    · cases hrelates
    · rename_i d hd
      have hid : d.id s ∈ (definitions.map (·.component s)).map (·.id) :=
        List.mem_map.mpr ⟨d.component s, List.mem_map_of_mem (List.mem_of_find?_eq_some hd), rfl⟩
      split at hrelates
      · split at hrelates
        · cases hrelates
        · exact Option.some.inj hrelates ▸ hid
      · exact Option.some.inj hrelates ▸ hid

/-- What queries tell of a file comes from its captures. -/
theorem findings_of_analyze {queries : Queries} {language : String}
     (h : analyze parsers queries language file = .ok (some f)) :
    ∃ root captures, findings { Source.of (file.text.getD "") (file.path.getD "") file.root with
      relativePath := Path.relative (file.path.getD "") (file.root.getD "") } root captures = .ok f := by
  simp only [analyze] at h
  split at h
  · simp at h
  · split at h
    · simp at h
    · split at h
      · simp [throw, throwThe, MonadExceptOf.throw, bind, Except.bind] at h
      · simp only [bind_eq_ok] at h
        obtain ⟨captures?, -, h⟩ := h
        split at h
        · simp at h
        · obtain ⟨found, hfound, h⟩ := bind_eq_ok.mp h
          cases h
          exact ⟨_, _, hfound⟩

end Query

namespace Go

variable {k : Context} {g g' : Component} {receiver : Option String} {current : Option Enclosing}

/-- The identifiers of what a file declares. -/
def idsOf (s : Source) (root : Cursor) : List String :=
  ((declarations s root).found.map (·.1)).map (·.id)

/-- What has a heading is listed. -/
theorem mem_idsOf_heading {d : Heading} (hfailure : (declarations s root).failure = none)
    (hc : c ∈ root.within depthLimit) (hd : heading? s c = .ok (some d)) :
    componentId s d.name d.receiver ∈ idsOf s root := by
  obtain ⟨found, hfound, hsub⟩ := exists_declaredAt hfailure hc
  obtain ⟨e, he, hheads⟩ := exists_mem_of_heading? hfound hd
  rw [← Heading.id, ← hheads.id]
  exact List.mem_map_of_mem (List.mem_map_of_mem (hsub e he))

/-- The function that a tour is in is a component, if it has a name. -/
def InComponent (s : Source) (root : Cursor) (current : Option Enclosing) : Prop :=
  ∀ f, current = some f → f.function ≠ "" → componentId s f.function f.receiver ∈ idsOf s root

/-- Outside of functions nothing is to be listed. -/
theorem inComponent_none : InComponent s root none :=
  fun f hf => absurd hf.symm (Option.some_ne_none f)

/-- A tour that enters a node of the walk is in a component. -/
theorem inComponent_enterFunction {now : Option Enclosing} (hfailure : (declarations s root).failure = none)
    (hc : c ∈ root.within depthLimit) (hcurrent : InComponent s root current)
    (h : enterFunction s k current c = .ok now) : InComponent s root now := by
  unfold enterFunction at h
  split at h
  · rename_i hkind
    obtain ⟨name?, hname?, h⟩ := bind_eq_ok.mp h
    split at h
    · exact Except.ok.inj h ▸ hcurrent
    · obtain ⟨scope, -, h⟩ := bind_eq_ok.mp h
      cases h
      rintro f hf hne
      cases hf
      exact mem_idsOf_heading (d := ⟨"function", _, none⟩) hfailure hc (heading?_function hkind hname? hne)
  split at h
  · rename_i hkind
    obtain ⟨name?, hname?, h⟩ := bind_eq_ok.mp h
    split at h
    · exact Except.ok.inj h ▸ hcurrent
    · obtain ⟨receiver, hreceiver, h⟩ := bind_eq_ok.mp h
      obtain ⟨receiverName, -, h⟩ := bind_eq_ok.mp h
      obtain ⟨scope, -, h⟩ := bind_eq_ok.mp h
      cases h
      rintro f hf hne
      cases hf
      exact mem_idsOf_heading (d := ⟨"method", _, receiver⟩) hfailure hc
        (heading?_method hkind hname? hne hreceiver)
  · exact Except.ok.inj h ▸ hcurrent

/-- A call relates the function around it. If it is resolved, it leads to what the file remembers. -/
theorem told_of_callAt {e : Enclosing} (h : callAt s k e c = .ok rs) (hr : r ∈ rs) :
    r.caller = componentId s e.function e.receiver ∧ r.kind = "calls" ∧
      (r.resolved = true → ∃ key d, k.table.get? key = some d ∧ r.callee = d.id) := by
  unfold callAt at h
  split at h
  · cases h
    cases hr
  · obtain ⟨callee?, -, h⟩ := bind_eq_ok.mp h
    split at h
    · cases h
      cases hr
    · split at h
      · cases h
        cases hr
      · cases h
        obtain rfl := List.mem_singleton.mp hr
        refine ⟨rfl, rfl, fun hresolved => ?_⟩
        obtain ⟨d, hd⟩ := Option.isSome_iff_exists.mp hresolved
        exact ⟨_, d, hd, by simp only [hd]⟩

/-- A relationship with an embedded type: it is no call, and not resolved. -/
structure Embedded (r : Relationship) : Prop where
  kind : r.kind = "embeds"
  resolved : r.resolved = false

/-- An embedding is no call. -/
theorem embedded_of_embeds {owner : String} {type : Cursor} (h : embeds s c owner type = .ok rs) (hr : r ∈ rs) :
    Embedded r := by
  obtain ⟨name, -, h⟩ := bind_eq_ok.mp h
  cases h
  obtain ⟨-, rfl⟩ := mem_unless hr
  exact ⟨rfl, rfl⟩

/-- Nor is one in a struct. -/
theorem embedded_of_structEmbedding (h : r ∈ (structEmbedding s c).found) : Embedded r := by
  obtain ⟨owner?, -, h⟩ := Trail.exists_of_mem_given h
  split at h
  · cases h
  · obtain ⟨field, -, h⟩ := Trail.exists_of_mem_each h
    split at h
    · obtain ⟨rs, hrs, hr⟩ := Trail.exists_of_mem_ofExcept h
      exact embedded_of_embeds hrs hr
    · cases h

/-- Nor is one in an interface. -/
theorem embedded_of_interfaceEmbedding (h : r ∈ (interfaceEmbedding s c).found) : Embedded r := by
  obtain ⟨owner?, -, h⟩ := Trail.exists_of_mem_given h
  split at h
  · cases h
  · obtain ⟨element, -, h⟩ := Trail.exists_of_mem_each h
    split at h
    · obtain ⟨rs, hrs, hr⟩ := Trail.exists_of_mem_ofExcept h
      exact embedded_of_embeds hrs hr
    · cases h

/-- A node relates the function around it by a call, or a type to one that it embeds. -/
theorem called_or_embedded (h : r ∈ (relationshipsAt s k current c).found) :
    (∃ f rs, current = some f ∧ f.function ≠ "" ∧ callAt s k f c = .ok rs ∧ r ∈ rs) ∨ Embedded r := by
  unfold relationshipsAt at h
  split at h
  · split at h
    · cases h
    · split at h
      · cases h
      · rename_i f hne
        obtain ⟨rs, hrs, hr⟩ := Trail.exists_of_mem_ofExcept h
        exact Or.inl ⟨f, rs, rfl, hne, hrs, hr⟩
  split at h
  · exact Or.inr (embedded_of_structEmbedding h)
  split at h
  · exact Or.inr (embedded_of_interfaceEmbedding h)
  · cases h

/-- What calls something at a node is listed. -/
theorem caller_of_relationshipsAt (hcurrent : InComponent s root current)
    (h : r ∈ (relationshipsAt s k current c).found) (hcalls : r.kind = "calls") :
    r.caller ∈ idsOf s root := by
  rcases called_or_embedded h with ⟨f, rs, hf, hne, hrs, hr⟩ | hembedded
  · rw [(told_of_callAt hrs hr).1]
    exact hcurrent f hf hne
  · exact absurd (hcalls.symm.trans hembedded.kind) (by decide)

/-- What a tour through nodes of the walk relates is related at a node, while the tour is in a component. -/
theorem exists_of_mem_relationshipsAlong {steps : List Cursor.Step}
    (hfailure : (declarations s root).failure = none)
    (hsteps : ∀ d c, Cursor.Step.enter d c ∈ steps → c ∈ root.within depthLimit)
    (hcurrent : InComponent s root current) (h : r ∈ (relationshipsAlong s k current steps).found) :
    ∃ now c, InComponent s root now ∧ r ∈ (relationshipsAt s k now c).found := by
  -- On the steps of the tour: entering a function, the tour is in a component; leaving one, it is in none.
  induction steps generalizing current with
  | nil => cases h
  | cons step rest ih =>
    have hrest : ∀ d c, Cursor.Step.enter d c ∈ rest → c ∈ root.within depthLimit :=
      fun d c hmem => hsteps d c (List.mem_cons_of_mem step hmem)
    cases step with
    | enter d c =>
      obtain ⟨now, hnow, h⟩ := Trail.exists_of_mem_given h
      have hin : InComponent s root now :=
        inComponent_enterFunction hfailure (hsteps d c List.mem_cons_self) hcurrent hnow
      rcases Trail.mem_found_append h with h | h
      · exact ⟨now, c, hin, h⟩
      · exact ih hrest hin h
    | leave d c =>
      rw [relationshipsAlong] at h
      refine ih hrest ?_ h
      split
      · exact inComponent_none
      · exact hcurrent

/-- Relationships are found along a tour if all declarations have been found, each of them at a node. -/
theorem exists_of_mem_findings (h : r ∈ (findings s root).findings.relationships) :
    (findings s root).findings.ids = idsOf s root ∧
      ∃ (k : Context) (now : Option Enclosing) (c : Cursor), k.table = remembered (declarations s root).found ∧
        InComponent s root now ∧ r ∈ (relationshipsAt s k now c).found := by
  unfold findings at h ⊢
  split at h
  · cases h
  · rename_i names hnames
    dsimp only at h ⊢
    split at h
    · cases h
    · rename_i hdeclared
      rw [if_neg hdeclared]
      dsimp only at h ⊢
      split at h
      · cases h
      · obtain ⟨now, c, hin, hr⟩ := exists_of_mem_relationshipsAlong (by simpa using hdeclared)
          (fun d c => Cursor.mem_within_of_enter) inComponent_none h
        exact ⟨rfl, _, now, c, rfl, hin, hr⟩

/-- In Go what calls something is listed. -/
theorem caller_of_findings (h : r ∈ (findings s root).findings.relationships)
    (hcalls : r.kind = "calls") : r.caller ∈ (findings s root).findings.ids := by
  obtain ⟨hids, k, now, c, -, hin, h⟩ := exists_of_mem_findings h
  rw [hids]
  exact caller_of_relationshipsAt hin h hcalls

/-- What is told of a file comes from its tree. -/
theorem findings_of_analyze {f : FileFindings} (h : analyze parsers file = .ok f) :
    (∃ s root, f = findings s root) ∨ f = {} := by
  obtain ⟨path, -, h⟩ := bind_eq_ok.mp h
  dsimp only at h
  split at h
  · exact Or.inl ⟨_, _, (Except.ok.inj h).symm⟩
  · exact Or.inr (Except.ok.inj h).symm

end Go

/-- What refers to something in a Java or TypeScript file or by a capture, and what calls something in Go, is
a component. -/
theorem callers_are_components (parsers : Parsers) (file : SourceFile) :
    (∀ f, Java.analyze parsers file = .ok f → f.CallersListed) ∧
    (TypeScript.analyze parsers file).CallersListed ∧
    (∀ queries language f, Query.analyze parsers queries language file = .ok (some f) →
      f.CallersListed) ∧
    (∀ f, Go.analyze parsers file = .ok f →
      ∀ r ∈ f.findings.relationships, r.kind = "calls" → r.caller ∈ f.findings.ids) := by
  refine ⟨?_, ?_, ?_, ?_⟩
  · intro f h
    obtain ⟨⟨s, root⟩, hopened, h⟩ := bind_eq_ok.mp h
    exact Java.callersListed_findings (parent_of_opened hopened) h
  · unfold TypeScript.analyze
    split
    · exact TypeScript.callersListed_findings
    · exact fun r hr => absurd hr List.not_mem_nil
  · intro queries language f h
    obtain ⟨root, captures, h⟩ := Query.findings_of_analyze h
    exact Query.callersListed_findings h
  · intro f h r hr hcalls
    rcases Go.findings_of_analyze h with ⟨s, root, rfl⟩ | rfl
    · exact Go.caller_of_findings hr hcalls
    · exact absurd hr List.not_mem_nil

/-- Java source with a method that calls one of another class. -/
def javaCall : SourceFile :=
  ⟨some "/r/a.java", some "class A \x7b\n  void f() \x7b B.g(); \x7d\n\x7d\n\nclass B \x7b\x7d\n", some "/r"⟩

/-- TypeScript source with a function that calls another. -/
def typeScriptCall : SourceFile :=
  ⟨some "/r/a.ts", some "function f() \x7b g(); \x7d\n", some "/r"⟩

/-- Go source with a method that calls one of another value. -/
def goCall : SourceFile :=
  ⟨some "/r/a.go", some "package p\n\nfunc (a A) f() \x7b b.g() \x7d\n", some "/r"⟩

/-- The trees of these files. -/
def callTrees : Parsers where
  trees := [
    (("java", javaCall.text.getD ""), .node "program" 0 46 [
      .node "class_declaration" 0 33 [
        .sign "class" 0 5, .leaf "identifier" 6 7,
        .node "class_body" 8 33 [.node "method_declaration" 12 31 [
          .leaf "void_type" 12 16, .leaf "identifier" 17 18, .leaf "formal_parameters" 18 20,
          .node "block" 21 31 [.node "expression_statement" 23 29 [.node "method_invocation" 23 28 [
            .leaf "identifier" 23 24, .sign "." 24 25, .leaf "identifier" 25 26, .leaf "argument_list" 26 28]]]]]],
      .node "class_declaration" 35 45 [.sign "class" 35 40, .leaf "identifier" 41 42, .leaf "class_body" 43 45]]),
    (("typescript", typeScriptCall.text.getD ""), .node "program" 0 22 [.node "function_declaration" 0 21 [
      .sign "function" 0 8, .leaf "identifier" 9 10, .leaf "formal_parameters" 10 12,
      .node "statement_block" 13 21 [.node "expression_statement" 15 19 [
        .node "call_expression" 15 18 [.leaf "identifier" 15 16, .leaf "arguments" 16 18]]]]]),
    (("go", goCall.text.getD ""), .node "source_file" 0 36 [
      .node "package_clause" 0 9 [.sign "package" 0 7, .leaf "package_identifier" 8 9],
      .node "method_declaration" 11 35 [
        .sign "func" 11 15,
        .node "parameter_list" 16 21 [
          .node "parameter_declaration" 17 20 [.leaf "identifier" 17 18, .leaf "type_identifier" 19 20]],
        .leaf "field_identifier" 22 23, .leaf "parameter_list" 23 25,
        .node "block" 26 35 [.node "expression_statement" 28 33 [.node "call_expression" 28 33 [
          .node "selector_expression" 28 31 [
            .leaf "identifier" 28 29, .sign "." 29 30, .leaf "field_identifier" 30 31],
          .leaf "argument_list" 31 33]]]]])]

/-- Captures in the Java tree: the classes, the method and the call. -/
def callCaptures : Query.Queries where
  languages := ["java"]
  captures := [(("java", javaCall.text.getD ""),
    [("definition.class", [3, 18]), ("definition.method", [7]), ("reference.call", [14])])]

/-- What calls something in short Java, TypeScript and Go files is a component in all four analyses. -/
theorem short_file_callers_listed :
    (∃ f, Java.analyze callTrees javaCall = .ok f ∧
      f.relationships.map (·.caller) = ["a.A.f"] ∧ f.CallersListed) ∧
    ((TypeScript.analyze callTrees typeScriptCall).relationships.map (·.caller) = ["a.f"] ∧
      (TypeScript.analyze callTrees typeScriptCall).CallersListed) ∧
    (∃ f, Query.analyze callTrees callCaptures "java" javaCall = .ok (some f) ∧
      f.relationships.map (·.caller) = ["a.A"] ∧ f.CallersListed) ∧
    (∃ f, Go.analyze callTrees goCall = .ok f ∧
      f.findings.relationships.map (fun r => (r.caller, r.kind)) = [("a.A.f", "calls")] ∧
      ∀ r ∈ f.findings.relationships, r.kind = "calls" → r.caller ∈ f.findings.ids) := by
  have hjava := callers_are_components callTrees javaCall
  refine ⟨?_, ⟨?_, (callers_are_components callTrees typeScriptCall).2.1⟩, ?_, ?_⟩
  · have hcallers : ((Java.analyze callTrees javaCall).toOption.map fun f =>
        f.relationships.map (·.caller)) = some ["a.A.f"] := by decide +kernel
    obtain ⟨f, hf, hcallers⟩ := exists_of_map_toOption hcallers
    exact ⟨f, hf, hcallers, hjava.1 f hf⟩
  · -- Walks with an agenda do not compute in the kernel, lists in preorder do.
    simp only [TypeScript.analyze, TypeScript.findings, TypeScript.entities, TypeScript.entityList,
      TypeScript.relationships, Cursor.walked, Cursor.walk_eq]
    decide +kernel
  · have hcallers : ((Query.analyze callTrees callCaptures "java" javaCall).toOption.join.map
        fun f => f.relationships.map (·.caller)) = some ["a.A"] := by decide +kernel
    obtain ⟨f, hf, hcallers⟩ := Option.map_eq_some_iff.mp hcallers
    have hquery := eq_ok_of_toOption (Option.join_eq_some_iff.mp hf)
    exact ⟨f, hquery, hcallers, hjava.2.2.1 callCaptures "java" f hquery⟩
  · have hcallers : ((Go.analyze callTrees goCall).toOption.map fun f =>
        f.findings.relationships.map fun r => (r.caller, r.kind)) = some [("a.A.f", "calls")] := by
      decide +kernel
    obtain ⟨f, hf, hcallers⟩ := exists_of_map_toOption hcallers
    exact ⟨f, hf, hcallers, (callers_are_components callTrees goCall).2.2.2 f hf⟩

end Extract

end RepoAtlas
