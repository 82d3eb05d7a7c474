import RepoAtlas.Proofs.Extract.Capture
import RepoAtlas.Proofs.Syntax.Range

/-!
# To whom a captured reference belongs

A reference is attributed by lines: to the first captured component whose lines it stands on, where a component
has the lines of the node just around its name. So the innermost declaration gets its references exactly if none
around it is captured before. Where another node stands between a name and its declaration, as a declarator
does, references in the body may be lost.
-/

namespace RepoAtlas.Extract.Query

open Syntax

variable {s : Source} {root c : Cursor} {captures : Captures} {f : Findings} {kind name id : String}
  {line i : Nat} {ds : List Definition} {d : Definition} {k : Component}

/-- The kinds of nodes that declare what the queries capture. -/
def declarationKinds : List String :=
  ["class_definition", "class_declaration", "class_specifier", "abstract_class_declaration",
    "struct_specifier", "struct_declaration", "record_declaration", "interface_declaration",
    "enum_specifier", "enum_declaration", "type_declaration", "type_alias_declaration",
    "function_definition", "function_declaration", "method_definition", "method_declaration"]

/-- The declaration around a name. -/
def declaration? (c : Cursor) : Option Cursor :=
  c.enclosing? declarationKinds

/-- A name that stands directly in its declaration. -/
def NamedDirectly (c : Cursor) : Prop :=
  ∃ p ∈ c.parent, p.kind ∈ declarationKinds

instance (c : Cursor) : Decidable (NamedDirectly c) :=
  inferInstanceAs (Decidable (∃ p ∈ c.parent, p.kind ∈ declarationKinds))

/-- A name that stands directly in its declaration has it as its parent. -/
theorem NamedDirectly.parent_eq {n : Cursor} (h : NamedDirectly n) : n.parent = declaration? n := by
  obtain ⟨p, hp, hkind⟩ := h
  obtain ⟨tree, earlier, parent⟩ := n
  obtain rfl : parent = some p := hp
  have hcontains : declarationKinds.contains p.kind = true := List.contains_iff_mem.mpr hkind
  rw [declaration?, Cursor.enclosing?, Cursor.ancestors, List.find?_cons, hcontains]

/-- The innermost one of the captured declarations around a node: the node lies inside, and it lies inside
all others that the node lies in. -/
def Innermost (nodes : List (String × Cursor)) (c d : Cursor) : Prop :=
  Inside c d ∧ ∀ e ∈ definedIn nodes, ∀ d' ∈ declaration? e.2, Inside c d' → Inside d d'

instance (nodes : List (String × Cursor)) (c d : Cursor) : Decidable (Innermost nodes c d) :=
  inferInstanceAs (Decidable (_ ∧ _))

/-- Names that refer to no definition. -/
def selfNames : List String :=
  ["self", "cls", "this", "super"]

/-- Whether a component stands on a line. -/
def onLine (line : Nat) (k : Component) : Bool :=
  k.startLine ≤ line && line ≤ k.endLine

/-- The first component on a line. -/
def callerAt? (f : Findings) (line : Nat) : Option Component :=
  f.components.find? (onLine line)

/-- What a name refers to: the last component of that name or, if there is none, the name itself. -/
def calleeIn (f : Findings) (name : String) : String :=
  ((Keyed.ofList (f.components.map fun k => (k.name, k.id))).get? name).getD name

/-- A relationship from a component to what a name on a line refers to. -/
def RelatedFrom (f : Findings) (id name : String) (line : Nat) : Prop :=
  ∃ r ∈ f.relationships, r.caller = id ∧ r.callee = calleeIn f name ∧ r.line = some (line : Int)

/-- A declaration around a node is captured before a place. -/
def EnclosedBefore (nodes : List (String × Cursor)) (c : Cursor) (i : Nat) : Prop :=
  ∃ e ∈ (definedIn nodes).take i, ∃ d ∈ declaration? e.2, Inside c d

instance (nodes : List (String × Cursor)) (c : Cursor) (i : Nat) : Decidable (EnclosedBefore nodes c i) :=
  inferInstanceAs (Decidable (∃ e ∈ (definedIn nodes).take i, ∃ d ∈ declaration? e.2, Inside c d))

/-- Before a place, the components on the line of a node are those whose declarations it lies in. -/
def TidyBefore (s : Source) (f : Findings) (nodes : List (String × Cursor)) (c : Cursor) (i : Nat) : Prop :=
  ∀ j < i, ∀ e ∈ (definedIn nodes)[j]?, ∀ k ∈ f.components[j]?,
    (onLine (s.startLine c) k = true ↔ ∃ d ∈ declaration? e.2, Inside c d)

instance (s : Source) (f : Findings) (nodes : List (String × Cursor)) (c : Cursor) (i : Nat) :
    Decidable (TidyBefore s f nodes c i) :=
  inferInstanceAs (Decidable (∀ j < i, ∀ e ∈ (definedIn nodes)[j]?, ∀ k ∈ f.components[j]?,
    (onLine (s.startLine c) k = true ↔ ∃ d ∈ declaration? e.2, Inside c d)))

/-- A reference is told of the first definition on its line. -/
theorem exists_of_relationship? {ids : Keyed String} {r : Reference} {x : Relationship}
    (h : relationship? s ds ids r = some x) :
    ∃ d, ds.find? (fun d => d.startLine ≤ r.line && r.line ≤ d.endLine) = some d ∧
      x.caller = d.id s ∧ x.line = some (r.line : Int) := by
  unfold relationship? at h
  split at h
  · cases h
  · split at h
    · cases h
    · rename_i d hd
      split at h
      · split at h
        · cases h
        · exact ⟨d, hd, Option.some.inj h ▸ ⟨rfl, rfl⟩⟩
      · exact ⟨d, hd, Option.some.inj h ▸ ⟨rfl, rfl⟩⟩

/-- A reference on the lines of a definition is related, unless it refers to the first of them. -/
theorem exists_relationship? {ids : Keyed String} {r : Reference} (hname : r.name ∉ selfNames)
    (hd : ds.find? (fun d => d.startLine ≤ r.line && r.line ≤ d.endLine) = some d)
    (hcallee : (ids.get? r.name).getD r.name ≠ d.id s) :
    ∃ x, relationship? s ds ids r = some x ∧ x.caller = d.id s ∧
      x.callee = (ids.get? r.name).getD r.name ∧ x.line = some (r.line : Int) := by
  have hother : ¬ ["self", "cls", "this", "super"].contains r.name = true := by
    rwa [List.contains_iff_mem]
  unfold relationship?
  rw [if_neg hother, hd]
  cases hget : ids.get? r.name with
  | none => exact ⟨_, rfl, rfl, rfl, rfl⟩
  | some callee =>
    have hne : d.id s ≠ callee := by
      rw [hget] at hcallee
      exact hcallee.symm
    dsimp only
    rw [if_neg hne]
    exact ⟨_, rfl, rfl, rfl, rfl⟩

/-- A reference relates a component to what it names exactly if the first component on its line has its
identifier. -/
theorem relatedFrom_iff (h : findings s root captures = .ok f) (hc : c ∈ referredIn (captured root captures))
    (hname : s.text c = .ok name) (hother : name ∉ selfNames) (hcallee : calleeIn f name ≠ id) :
    RelatedFrom f id name (s.startLine c) ↔ ∃ k ∈ callerAt? f (s.startLine c), k.id = id := by
  obtain ⟨ds, rs, -, hreferred, hcomponents, hrelationships⟩ := exists_of_findings h
  have hcaller : ∀ line, callerAt? f line =
      (ds.find? fun d => d.startLine ≤ line && line ≤ d.endLine).map (·.component s) := by
    intro line
    rw [callerAt?, hcomponents, List.find?_map]
    rfl
  have hids : Keyed.ofList (f.components.map fun k => (k.name, k.id)) =
      Keyed.ofList (ds.map fun d => (d.name, d.id s)) := by
    rw [hcomponents, List.map_map]
    rfl
  constructor
  · rintro ⟨x, hx, rfl, -, hline⟩
    rw [hrelationships] at hx
    -- Another reference may be the source of the relationship, but the caller depends on the line only.
    obtain ⟨r, -, hr⟩ := List.mem_filterMap.mp hx
    obtain ⟨d, hd, hid, hrline⟩ := exists_of_relationship? hr
    have hsame : r.line = s.startLine c := Int.ofNat.inj (Option.some.inj (hrline.symm.trans hline))
    rw [hsame] at hd
    exact ⟨d.component s, by rw [hcaller, hd]; rfl, hid.symm⟩
  · rintro ⟨k, hk, rfl⟩
    rw [hcaller] at hk
    obtain ⟨d, hd, rfl⟩ := Option.map_eq_some_iff.mp hk
    obtain ⟨j, hj⟩ := List.mem_iff_getElem?.mp hc
    obtain ⟨r, hr, hrname, hrline⟩ := exists_counterpart hreferred hj
    obtain rfl : r.name = name := Except.ok.inj (hrname.symm.trans hname)
    rw [← hrline] at hd ⊢
    rw [calleeIn, hids] at hcallee
    obtain ⟨x, hx, hcaller, hcalled, hline⟩ := exists_relationship? hother hd hcallee
    refine ⟨x, ?_, hcaller, ?_, hline⟩
    · rw [hrelationships]
      exact List.mem_filterMap.mpr ⟨r, List.mem_of_getElem? hr, hx⟩
    · rw [calleeIn, hids, hcalled]

/-- A component named directly in its declaration stands on the lines of all that lies inside. -/
theorem onLine_of_inside {n p : Cursor} (hd : Defines s kind n d) (hp : n.parent = some p)
    (hc : Inside c p) : onLine (s.startLine c) (d.component s) = true := by
  obtain ⟨hfirst, hlast⟩ := hc.startLine_mem (s := s)
  have hstart : (d.component s).startLine = s.startLine p := by
    rw [Definition.component, hd.startLine, hp, Option.getD_some]
  have hend : (d.component s).endLine = s.endLine p := by
    rw [Definition.component, hd.endLine, hp, Option.getD_some]
  rw [onLine, hstart, hend]
  simp [hfirst, hlast]

/-- The first component on a line is found there. -/
theorem callerAt?_eq_some (hk : f.components[i]? = some k) (hline : onLine line k = true)
    (hbefore : ∀ k' ∈ f.components.take i, onLine line k' = false) : callerAt? f line = some k := by
  obtain ⟨hi, hget⟩ := List.getElem?_eq_some_iff.mp hk
  have hsplit : f.components = f.components.take i ++ k :: f.components.drop (i + 1) := by
    rw [← hget, ← List.drop_eq_getElem_cons hi, List.take_append_drop]
  refine List.find?_eq_some_iff_append.mpr ⟨hline, _, _, hsplit, fun k' hk' => ?_⟩
  rw [hbefore k' hk', Bool.not_false]

/-- A component with an identifier of its own is the first on a line exactly if none before stands there. -/
theorem exists_callerAt?_iff (hk : f.components[i]? = some k) (hline : onLine line k = true)
    (hown : ∀ k' ∈ f.components.take i, k'.id ≠ k.id) :
    (∃ k' ∈ callerAt? f line, k'.id = k.id) ↔ ∀ k' ∈ f.components.take i, onLine line k' = false := by
  constructor
  · rintro ⟨k₀, hk₀, hid⟩ k' hk'
    by_contra hon
    obtain ⟨first, hfirst⟩ := Option.isSome_iff_exists.mp
      (List.find?_isSome.mpr ⟨k', hk', Bool.not_eq_false _ ▸ hon⟩)
    have hsame : callerAt? f line = some first := by
      rw [callerAt?, ← List.take_append_drop i f.components, List.find?_append, hfirst, Option.some_or]
    obtain rfl : k₀ = first := Option.some.inj (hk₀.symm.trans hsame)
    exact hown k₀ (List.mem_of_find?_eq_some hfirst) hid
  · intro hbefore
    exact ⟨k, callerAt?_eq_some hk hline hbefore, rfl⟩

/-- There is a component for each captured definition. -/
theorem length_components (h : findings s root captures = .ok f) :
    f.components.length = (definedIn (captured root captures)).length := by
  obtain ⟨ds, rs, hdefined, -, hcomponents, -⟩ := exists_of_findings h
  rw [hcomponents, List.length_map, hdefined.length_eq]

/-- Where lines are tidy, only declarations around a node that are captured before stand on its line before. -/
theorem forall_offLine_iff {nodes : List (String × Cursor)}
    (hlength : f.components.length = (definedIn nodes).length) (htidy : TidyBefore s f nodes c i) :
    (∀ k ∈ f.components.take i, onLine (s.startLine c) k = false) ↔ ¬ EnclosedBefore nodes c i := by
  have hline (j : Nat) (hj : j < i) (hk : j < f.components.length) (he : j < (definedIn nodes).length) :
      onLine (s.startLine c) f.components[j] = true ↔
        ∃ d ∈ declaration? (definedIn nodes)[j].2, Inside c d :=
    htidy j hj _ (List.getElem?_eq_getElem he) _ (List.getElem?_eq_getElem hk)
  constructor
  · rintro hoff ⟨e, he, henclosed⟩
    obtain ⟨j, hj, rfl⟩ := List.mem_take_iff_getElem.mp he
    obtain ⟨hi, hn⟩ := Nat.lt_min.mp hj
    have hk : j < f.components.length := by rwa [hlength]
    have hfalse := hoff _ (List.mem_take_iff_getElem.mpr ⟨j, Nat.lt_min.mpr ⟨hi, hk⟩, rfl⟩)
    exact Bool.false_ne_true (hfalse.symm.trans ((hline j hi hk hn).mpr henclosed))
  · intro hnone k hk
    obtain ⟨j, hj, rfl⟩ := List.mem_take_iff_getElem.mp hk
    obtain ⟨hi, hk⟩ := Nat.lt_min.mp hj
    have hn : j < (definedIn nodes).length := by rwa [← hlength]
    by_contra hon
    rw [Bool.not_eq_false] at hon
    refine hnone ⟨_, List.mem_take_iff_getElem.mpr ⟨j, Nat.lt_min.mpr ⟨hi, hn⟩, rfl⟩, ?_⟩
    exact (hline j hi hk hn).mp hon

/-- A node lies in the declarations captured before a place exactly if the innermost one does. -/
theorem Innermost.enclosedBefore_iff {nodes : List (String × Cursor)} {d : Cursor}
    (h : Innermost nodes c d) : EnclosedBefore nodes c i ↔ EnclosedBefore nodes d i := by
  constructor
  · rintro ⟨e, he, d', hd', hc⟩
    exact ⟨e, he, d', hd', h.2 e (List.mem_of_mem_take he) d' hd' hc⟩
  · rintro ⟨e, he, d', hd', hd⟩
    exact ⟨e, he, d', hd', h.1.trans hd⟩

/-- The innermost declaration around a reference is related to what it names exactly if the first component on
the line has its identifier. If its name stands directly in it and the line is tidy, that is so exactly if
none around it is captured before. -/
theorem innermost_related_iff_first_on_line (hread : ∀ e ∈ captured root captures, Legible s e) :
    ∃ f, findings s root captures = .ok f ∧
      ∀ (c n d : Cursor) (name kind : String) (i : Nat), c ∈ referredIn (captured root captures) →
        s.text c = .ok name → name ∉ selfNames →
        (definedIn (captured root captures))[i]? = some (kind, n) → declaration? n = some d →
        Innermost (captured root captures) c d →
        ∃ k, f.components[i]? = some k ∧ s.text n = .ok k.name ∧
          k.startLine = s.startLine (n.parent.getD n) ∧ k.endLine = s.endLine (n.parent.getD n) ∧
          (calleeIn f name ≠ k.id →
            (RelatedFrom f k.id name (s.startLine c) ↔
              ∃ k' ∈ callerAt? f (s.startLine c), k'.id = k.id) ∧
            (NamedDirectly n → (∃ k', callerAt? f (s.startLine c) = some k') ∧
              ((∀ k' ∈ f.components.take i, k'.id ≠ k.id) →
                TidyBefore s f (captured root captures) c i →
                (RelatedFrom f k.id name (s.startLine c) ↔
                  ¬ EnclosedBefore (captured root captures) d i)))) := by
  obtain ⟨f, hf⟩ := exists_findings hread
  refine ⟨f, hf, fun c n d name kind i hc hname hother hi hd hinnermost => ?_⟩
  obtain ⟨defined, hk, hdefines⟩ := exists_component hf hi
  refine ⟨defined.component s, hk, hdefines.name, hdefines.startLine, hdefines.endLine,
    fun hcallee => ?_⟩
  have hrelated := relatedFrom_iff hf hc hname hother hcallee
  refine ⟨hrelated, fun hdirect => ?_⟩
  have hline := onLine_of_inside hdefines (hdirect.parent_eq.trans hd) hinnermost.1
  refine ⟨?_, fun hown htidy => ?_⟩
  · exact Option.isSome_iff_exists.mp
      (List.find?_isSome.mpr ⟨defined.component s, List.mem_of_getElem? hk, hline⟩)
  · calc
      RelatedFrom f (defined.component s).id name (s.startLine c)
        ↔ ∃ k' ∈ callerAt? f (s.startLine c), k'.id = (defined.component s).id := hrelated
      _ ↔ ∀ k' ∈ f.components.take i, onLine (s.startLine c) k' = false :=
          exists_callerAt?_iff hk hline hown
      _ ↔ ¬ EnclosedBefore (captured root captures) c i :=
          forall_offLine_iff (length_components hf) htidy
      _ ↔ ¬ EnclosedBefore (captured root captures) d i :=
          not_congr hinnermost.enclosedBefore_iff

/-- A file with a function and another one that calls it. -/
def calling : Source :=
  Source.of "def g(): 0\ndef f():\n  g()\n" "/r/m.py" (some "/r")

/-- The tree of that file. -/
def callingTree : Cursor :=
  .ofTree <| .node "module" 0 26 [
    .node "function_definition" 0 10 [.leaf "identifier" 4 5],
    .node "function_definition" 11 25 [
      .leaf "identifier" 15 16, .node "block" 22 25 [.node "call" 22 25 [.leaf "identifier" 22 23]]]]

/-- Its functions and its call. -/
def callingCaptures : Captures :=
  [("definition.function", [2, 4]), ("reference.call", [7])]

/-- A function on lines of its own is related to what it calls. -/
theorem call_related :
    (∀ e ∈ captured callingTree callingCaptures, Legible calling e) ∧
    ∃ f, findings calling callingTree callingCaptures = .ok f ∧ calleeIn f "g" = "m.g" ∧
      RelatedFrom f "m.f" "g" 3 := by
  have hread : ∀ e ∈ captured callingTree callingCaptures, Legible calling e := by decide +kernel
  obtain ⟨c, hc, ⟨kind, n⟩, hi, d, hd, hname, hstart, hdirect, hinnermost, hfree⟩ :
      ∃ c ∈ referredIn (captured callingTree callingCaptures),
      ∃ e ∈ (definedIn (captured callingTree callingCaptures))[1]?, ∃ d ∈ declaration? e.2,
        (calling.text c).toOption = some "g" ∧ calling.startLine c = 3 ∧ NamedDirectly e.2 ∧
        Innermost (captured callingTree callingCaptures) c d ∧
        ¬ EnclosedBefore (captured callingTree callingCaptures) d 1 := by
    decide +kernel
  have hfound : ∀ f ∈ (findings calling callingTree callingCaptures).toOption,
      calleeIn f "g" = "m.g" ∧ (∀ k ∈ f.components[1]?, k.id = "m.f") ∧
      (∀ k ∈ f.components.take 1, k.id ≠ "m.f") ∧
      ∀ c ∈ referredIn (captured callingTree callingCaptures),
        TidyBefore calling f (captured callingTree callingCaptures) c 1 := by
    decide +kernel
  obtain ⟨f, hf, hall⟩ := innermost_related_iff_first_on_line hread
  obtain ⟨hcallee, hid, hown, htidy⟩ := hfound f (by rw [hf]; rfl)
  obtain ⟨k, hk, -, -, -, hrelated⟩ := hall c n d "g" kind 1 hc (eq_ok_of_toOption hname) (by decide) hi hd
    hinnermost
  have hfid : k.id = "m.f" := hid k hk
  obtain ⟨-, hline⟩ := hrelated (by rw [hcallee, hfid]; decide)
  refine ⟨hread, f, hf, hcallee, ?_⟩
  rw [← hfid, ← hstart]
  exact ((hline hdirect).2 (by rwa [hfid]) (htidy c hc)).mpr hfree

/-- A file with a function whose name stands in a declarator, and a call in its body. -/
def declared : Source :=
  Source.of "void f() \x7b\n  g();\n\x7d\n" "/r/m.c" (some "/r")

/-- The tree of that file. -/
def declaredTree : Cursor :=
  .ofTree <| .node "translation_unit" 0 20 [.node "function_definition" 0 19 [
    .node "function_declarator" 5 8 [.leaf "identifier" 5 6],
    .node "compound_statement" 9 19 [.node "call_expression" 13 16 [.leaf "identifier" 13 14]]]]

/-- Its function and its call. -/
def declaredCaptures : Captures :=
  [("definition.function", [3]), ("reference.call", [6])]

/-- The only component has the line of the declarator, and the call on the next line is lost. -/
theorem declared_call_lost :
    (∃ c ∈ referredIn (captured declaredTree declaredCaptures),
      ∃ e ∈ (definedIn (captured declaredTree declaredCaptures))[0]?, ∃ d ∈ declaration? e.2,
        Innermost (captured declaredTree declaredCaptures) c d ∧
        (declared.text c).toOption = some "g") ∧
    ∃ f, findings declared declaredTree declaredCaptures = .ok f ∧
      f.components.map (·.id) = ["m.f"] ∧ f.relationships = [] := by
  refine ⟨by decide +kernel, ?_⟩
  obtain ⟨f, hf, hids, hnone⟩ : ∃ f ∈ (findings declared declaredTree declaredCaptures).toOption,
      f.components.map (·.id) = ["m.f"] ∧ f.relationships.isEmpty := by
    decide +kernel
  exact ⟨f, eq_ok_of_toOption hf, hids, List.isEmpty_iff.mp hnone⟩

end RepoAtlas.Extract.Query
