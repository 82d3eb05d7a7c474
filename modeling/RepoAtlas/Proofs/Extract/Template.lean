import RepoAtlas.Proofs.Extract.VueReadable
import RepoAtlas.Proofs.Syntax.Distinct

/-!
# The components that a template shows

A tag that closes itself is met as a node of its own, any other one with the element that it opens. In a
readable template each tag of a component is met once.
-/

namespace RepoAtlas.Extract.Vue

open Syntax

variable {s : Source} {id name : String} {c tag template : Cursor} {rs : List Relationship}

/-- The tag that stands for a node of a template: a tag that closes itself, or the one that opens an element. -/
inductive TagOf (c : Cursor) : Cursor → Prop
  | closed : c.kind = "self_closing_tag" → TagOf c c
  | opening {tag : Cursor} : c.kind = "element" → c.child? "start_tag" = some tag → TagOf c tag

/-- A node of a template shows the component that its tag names: with a capital in front, and none that is built in. -/
structure Shows (s : Source) (c tag : Cursor) (name : String) : Prop where
  isTag : TagOf c tag
  named : ∃ n, tag.child? "tag_name" = some n ∧ s.text n = .ok name
  capital : ∃ x rest, name.toList = x :: rest ∧ Text.isCapital x = true
  notBuiltin : Text.lower name ∉ builtinElements

/-- A relationship tells of the component that a node shows. -/
def Uses (s : Source) (id : String) (c : Cursor) (r : Relationship) : Prop :=
  ∃ tag name, Shows s c tag name ∧
    r = { caller := id, callee := name, line := some (s.startLine tag), kind := "uses_component" }

/-- Those of some relationships that tell of a component in a template. -/
def uses (rs : List Relationship) : List Relationship :=
  rs.filter (·.kind = "uses_component")

/-- What two lists tell of components is put together. -/
theorem uses_append (rs rs' : List Relationship) : uses (rs ++ rs') = uses rs ++ uses rs' :=
  List.filter_append rs rs'

/-- Other relationships tell of none. -/
theorem uses_eq_nil (h : ∀ r ∈ rs, r.kind ≠ "uses_component") : uses rs = [] :=
  List.filter_eq_nil_iff.mpr fun r hr => by simpa using h r hr

/-- What a node gives rise to tells of the component that it shows, once, or of none if it shows none. -/
def ToldOnce (s : Source) (id : String) (c : Cursor) (rs : List Relationship) : Prop :=
  (uses rs = [] ∧ ∀ tag name, ¬Shows s c tag name) ∨ ∃ r, Uses s id c r ∧ uses rs = [r]

/-- A component has a capital in front and is not built in. -/
theorem isComponentName_iff :
    isComponentName name = true ↔
      (∃ x rest, name.toList = x :: rest ∧ Text.isCapital x = true) ∧ Text.lower name ∉ builtinElements := by
  unfold isComponentName
  cases name.toList with
  | nil => simp
  | cons x rest => simp

/-- The tag of an element is the one found. -/
theorem tagOf_iff (hkind : c.kind = "element" ∨ c.kind = "self_closing_tag") :
    TagOf c tag ↔ tag? c = some tag := by
  unfold tag?
  constructor
  · intro h
    cases h with
    | closed hclosed => rw [if_pos hclosed]
    | opening helement htag => rwa [if_neg (by rw [helement]; decide)]
  · intro h
    split at h
    · rename_i hclosed
      exact Option.some.inj h ▸ .closed hclosed
    · rename_i hclosed
      exact .opening (hkind.resolve_right hclosed) h

/-- Directives tell of no component. -/
theorem directiveAt_uses (h : directiveAt s id c = .ok rs) : ∀ r ∈ rs, r.kind ≠ "uses_component" := by
  obtain ⟨name, -, h⟩ := bind_eq_ok.mp h
  obtain ⟨value, -, h⟩ := bind_eq_ok.mp h
  cases value with
  | none =>
    cases h
    simp
  | some value =>
    dsimp only at h
    split at h
    · cases h
      simp
    split at h
    · cases h
      simp
    split at h <;> obtain rfl := Except.ok.inj h <;> simp

/-- Nor do interpolations. -/
theorem interpolationAt_uses (h : interpolationAt s id c = .ok rs) : ∀ r ∈ rs, r.kind ≠ "uses_component" := by
  intro r hr
  obtain ⟨t, -, found, hfound, hr⟩ := exists_of_mem_collect h hr
  obtain ⟨text, -, hfound⟩ := bind_eq_ok.mp hfound
  obtain rfl := Except.ok.inj hfound
  split at hr
  · rw [List.mem_singleton.mp hr]
    simp
  · cases hr

/-- Among elements and tags, what shows a component is told by its tag and by the name of the tag. -/
theorem shows_iff (hkind : c.kind = "element" ∨ c.kind = "self_closing_tag") :
    Shows s c tag name ↔
      tag? c = some tag ∧ s.text? (tag.child? "tag_name") = .ok (some name) ∧ isComponentName name = true := by
  rw [← tagOf_iff hkind, text?_eq_some_iff, isComponentName_iff]
  exact ⟨fun h => ⟨h.isTag, h.named, h.capital, h.notBuiltin⟩, fun ⟨htag, hname, hcapital, hbuiltin⟩ =>
    ⟨htag, hname, hcapital, hbuiltin⟩⟩

/-- The name of a component is not empty. -/
theorem ne_empty_of_isComponentName (h : isComponentName name = true) : name ≠ "" := by
  rintro rfl
  exact absurd h (by decide)

/-- An element tells of the component that it shows beside what its directives give rise to. -/
theorem toldOnce_of_elementAt (hkind : c.kind = "element" ∨ c.kind = "self_closing_tag")
    (h : elementAt s id c = .ok rs) : ToldOnce s id c rs := by
  rw [ToldOnce]
  simp only [shows_iff hkind]
  unfold elementAt at h
  split at h
  · rename_i hnone
    cases h
    exact .inl ⟨rfl, by simp [hnone]⟩
  · rename_i tag htag
    obtain ⟨name?, hname?, h⟩ := bind_eq_ok.mp h
    split at h
    · rename_i hnone
      cases h
      refine .inl ⟨rfl, fun tag' name ⟨htag', hname, hcomponent⟩ => ?_⟩
      obtain rfl := Option.some.inj (htag.symm.trans htag')
      obtain rfl := Except.ok.inj (hname?.symm.trans hname)
      rw [nonEmpty_of_ne (ne_empty_of_isComponentName hcomponent)] at hnone
      cases hnone
    · rename_i name hname
      obtain ⟨directives, hdirectives, h⟩ := bind_eq_ok.mp h
      cases h
      obtain rfl := eq_some_of_nonEmpty hname
      have hnone : uses directives = [] := uses_eq_nil fun r hr => by
        obtain ⟨d, -, found, hfound, hr⟩ := exists_of_mem_collect hdirectives hr
        exact directiveAt_uses hfound r hr
      rw [uses_append, hnone, List.append_nil]
      split
      · rename_i hcomponent
        exact .inr ⟨_, ⟨tag, name, (shows_iff hkind).mpr ⟨htag, hname?, hcomponent⟩, rfl⟩, rfl⟩
      · rename_i hcomponent
        refine .inl ⟨rfl, fun tag' name' ⟨htag', hname', hcomponent'⟩ => hcomponent ?_⟩
        obtain rfl := Option.some.inj (htag.symm.trans htag')
        obtain rfl := Option.some.inj (Except.ok.inj (hname?.symm.trans hname'))
        exact hcomponent'

/-- A node of a template tells of its component once. -/
theorem toldOnce_of_templateAt (h : templateAt s id c = .ok rs) : ToldOnce s id c rs := by
  unfold templateAt at h
  split at h
  · rename_i hkind
    refine toldOnce_of_elementAt ?_ h
    simpa using hkind
  · rename_i hkind
    have hother : ∀ tag name, ¬Shows s c tag name := by
      intro tag name hshows
      cases hshows.isTag with
      | closed hclosed => simp [hclosed] at hkind
      | opening helement _ => simp [helement] at hkind
    refine .inl ⟨?_, hother⟩
    split at h
    · exact uses_eq_nil (interpolationAt_uses h)
    · rw [← Except.ok.inj h]
      rfl

/-- A walk over readable nodes tells, in order, of the components that the nodes show. -/
theorem exists_walk (id : String) {nodes : List Cursor} (h : ∀ c ∈ nodes, Readable s c) :
    ∃ rs shown, collect nodes (templateAt s id) = .ok rs ∧ List.Sublist shown nodes ∧
      (∀ c ∈ shown, ∃ tag name, Shows s c tag name) ∧
      (∀ c ∈ nodes, (∃ tag name, Shows s c tag name) → c ∈ shown) ∧ List.Forall₂ (Uses s id) shown (uses rs) := by
  induction nodes with
  | nil => exact ⟨[], [], rfl, .slnil, by simp, by simp, .nil⟩
  | cons c nodes ih =>
    obtain ⟨rest, shown, hrest, hsub, hshown, hall, htold⟩ := ih fun d hd => h d (List.mem_cons_of_mem c hd)
    obtain ⟨found, hfound⟩ : ∃ found, templateAt s id c = .ok found :=
      exists_of_isOk (isOk_templateAt (h c List.mem_cons_self))
    have hcollect : collect (c :: nodes) (templateAt s id) = .ok (found ++ rest) := by
      rw [collect, hfound, hrest]
      rfl
    rcases toldOnce_of_templateAt hfound with ⟨hnone, hnot⟩ | ⟨r, hr, hone⟩
    · refine ⟨_, shown, hcollect, hsub.cons c, hshown, ?_, ?_⟩
      · rintro d hd ⟨tag, name, hshows⟩
        rcases List.mem_cons.mp hd with rfl | hd
        · exact absurd hshows (hnot tag name)
        · exact hall d hd ⟨tag, name, hshows⟩
      · rwa [uses_append, hnone, List.nil_append]
    · refine ⟨_, c :: shown, hcollect, hsub.cons_cons c, ?_, ?_, ?_⟩
      · intro d hd
        rcases List.mem_cons.mp hd with rfl | hd
        · obtain ⟨tag, name, hshows, -⟩ := hr
          exact ⟨tag, name, hshows⟩
        · exact hshown d hd
      · intro d hd hshows
        rcases List.mem_cons.mp hd with rfl | hd
        · exact List.mem_cons_self
        · exact List.mem_cons_of_mem c (hall d hd hshows)
      · rw [uses_append, hone]
        exact .cons hr htold

/-- In a readable template the file uses the components that the nodes of the template show: one relationship for
each such node, and no others. -/
theorem shown_components_used_once (id : String) (h : Readable s template) :
    ∃ rs shown, templateRelationships s id template = .ok rs ∧
      shown.Nodup ∧ (∀ c, c ∈ shown ↔ c ∈ template.preorder ∧ ∃ tag name, Shows s c tag name) ∧
      List.Forall₂ (Uses s id) shown (rs.filter (·.kind = "uses_component")) := by
  have hperm := Cursor.backward_perm_preorder template
  obtain ⟨rs, shown, hrs, hsub, hshown, hall, htold⟩ :=
    exists_walk id fun c hc => h.below (hperm.mem_iff.mp hc)
  have hnodup : template.backward.Nodup := hperm.nodup_iff.mpr (Cursor.nodup_preorder template)
  refine ⟨rs, shown, hrs, hsub.nodup hnodup, fun c => ⟨fun hc => ?_, fun ⟨hc, hshows⟩ => ?_⟩, htold⟩
  · exact ⟨hperm.mem_iff.mp (hsub.subset hc), hshown c hc⟩
  · exact hall c (hperm.mem_iff.mpr hc) hshows

/-- The source of a file whose template shows a component inside another one. -/
def cards : Source :=
  Source.of "<template><Card><Icon/></Card><p/></template>\n" "/r/m.vue" (some "/r")

/-- The tree of that template. -/
def cardsTree : Tree :=
  .node "template_element" 0 45 [
    .node "start_tag" 0 10 [.sign "<" 0 1, .leaf "tag_name" 1 9, .sign ">" 9 10],
    .node "element" 10 30 [
      .node "start_tag" 10 16 [.sign "<" 10 11, .leaf "tag_name" 11 15, .sign ">" 15 16],
      .node "element" 16 23 [.node "self_closing_tag" 16 23 [.sign "<" 16 17, .leaf "tag_name" 17 21, .sign "/>" 21 23]],
      .node "end_tag" 23 30 [.sign "</" 23 25, .leaf "tag_name" 25 29, .sign ">" 29 30]],
    .node "element" 30 34 [.node "self_closing_tag" 30 34 [.sign "<" 30 31, .leaf "tag_name" 31 32, .sign "/>" 32 34]],
    .node "end_tag" 34 45 [.sign "</" 34 36, .leaf "tag_name" 36 44, .sign ">" 44 45]]

/-- The outer and the inner component are used once each, and the paragraph is not. -/
theorem nested_components_used_once :
    Readable cards (Cursor.ofTree cardsTree) ∧
      ∃ rs shown, templateRelationships cards "m" (Cursor.ofTree cardsTree) = .ok rs ∧ shown.Nodup ∧
        List.Forall₂ (Uses cards "m") shown (rs.filter (·.kind = "uses_component")) ∧
        (rs.filter (·.kind = "uses_component")).map (·.callee) = ["Card", "Icon"] := by
  have hread : Readable cards (Cursor.ofTree cardsTree) := by decide +kernel
  obtain ⟨rs, shown, hrs, hnodup, -, htold⟩ := shown_components_used_once "m" hread
  have hcallees : (templateRelationships cards "m" (Cursor.ofTree cardsTree)).toOption.map
      (fun rs => (rs.filter (·.kind = "uses_component")).map (·.callee)) = some ["Card", "Icon"] := by
    decide +kernel
  rw [hrs] at hcallees
  exact ⟨hread, rs, shown, hrs, hnodup, htold, Option.some.inj hcallees⟩

end RepoAtlas.Extract.Vue
