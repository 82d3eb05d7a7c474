import Mathlib.Data.List.Forall2
import RepoAtlas.Extract.Query
import RepoAtlas.Proofs.Extract.Origin
import RepoAtlas.Proofs.Text.Cutting

/-!
# Captured definitions and their identifiers

Every captured definition becomes one component. Its identifier is made of the module, its name and, for methods
only, the nearest class around it, so definitions that are no methods can share one.
-/

namespace RepoAtlas.Extract.Query

open Syntax

variable {s : Source} {root c : Cursor} {captures : Captures} {f : Findings} {kind : String}
  {nodes : List (String × Cursor)} {ds : List Definition} {rs : List Reference} {d : Definition}

/-- The captured definitions: their kinds, and the nodes of their names. -/
def definedIn (nodes : List (String × Cursor)) : List (String × Cursor) :=
  nodes.filterMap fun e => (Text.withoutStart? e.1 "definition.").map (·, e.2)

/-- The captured references. -/
def referredIn (nodes : List (String × Cursor)) : List Cursor :=
  (nodes.filter fun e => Text.begins e.1 "reference.").map (·.2)

/-- A capture of a reference is none of a definition. -/
theorem withoutStart?_of_reference {capture : String} (h : Text.begins capture "reference." = true) :
    Text.withoutStart? capture "definition." = none := by
  obtain ⟨rest, rfl⟩ := Text.exists_of_begins h
  simp [Text.withoutStart?, Text.begins]

/-- A definition that can be read: its name, the construct around it and, for a method, its class. -/
def DefinitionLegible (s : Source) (kind : String) (c : Cursor) : Prop :=
  (s.text c).isOk ∧ (∀ p ∈ c.parent, (s.text p).isOk) ∧ (kind = "method" → (containingClass s c).isOk)

instance (s : Source) (kind : String) (c : Cursor) : Decidable (DefinitionLegible s kind c) :=
  inferInstanceAs (Decidable (_ ∧ _ ∧ _))

/-- A captured node that can be read. -/
def Legible (s : Source) (e : String × Cursor) : Prop :=
  (s.text e.2).isOk ∧ ∀ kind ∈ Text.withoutStart? e.1 "definition.", DefinitionLegible s kind e.2

instance (s : Source) (e : String × Cursor) : Decidable (Legible s e) :=
  inferInstanceAs (Decidable (_ ∧ _))

/-- A legible definition is read. -/
theorem exists_definition (h : DefinitionLegible s kind c) : ∃ d, definition s kind c = .ok d := by
  obtain ⟨hname, hwhole, howner⟩ := h
  obtain ⟨name, hname⟩ := exists_of_isOk hname
  cases hparent : c.parent with
  | none =>
    by_cases hkind : kind = "method"
    · obtain ⟨owner, howner⟩ := exists_of_isOk (howner hkind)
      exact ⟨_, by simp only [definition, hname, hparent, hkind, howner, bind, Except.bind]; rfl⟩
    · exact ⟨_, by simp only [definition, hname, hparent, hkind, bind, Except.bind]; rfl⟩
  | some p =>
    obtain ⟨code, hcode⟩ := exists_of_isOk (hwhole p hparent)
    by_cases hkind : kind = "method"
    · obtain ⟨owner, howner⟩ := exists_of_isOk (howner hkind)
      exact ⟨_, by simp only [definition, hname, hparent, hcode, hkind, howner, bind, Except.bind]; rfl⟩
    · exact ⟨_, by simp only [definition, hname, hparent, hcode, hkind, bind, Except.bind]; rfl⟩

/-- Legible captures are sorted out. -/
theorem exists_sorted (h : ∀ e ∈ nodes, Legible s e) : ∃ p, sorted s nodes = .ok p := by
  induction nodes with
  | nil => exact ⟨_, rfl⟩
  | cons e nodes ih =>
    obtain ⟨hname, hdefinition⟩ := h e List.mem_cons_self
    obtain ⟨name, hname⟩ := exists_of_isOk hname
    obtain ⟨p, hp⟩ := ih fun e he => h e (List.mem_cons_of_mem _ he)
    cases hkind : Text.withoutStart? e.1 "definition." with
    | some kind =>
      obtain ⟨d, hd⟩ := exists_definition (hdefinition kind hkind)
      exact ⟨_, by simp [sorted, hname, hkind, hd, hp, bind, Except.bind]; rfl⟩
    | none =>
      by_cases hreference : Text.begins e.1 "reference." = true
      · exact ⟨_, by simp [sorted, hname, hkind, hp, hreference, bind, Except.bind]; rfl⟩
      · exact ⟨_, by simp [sorted, hname, hkind, hp, hreference, bind, Except.bind]; rfl⟩

/-- A file with legible captures has findings. -/
theorem exists_findings (h : ∀ e ∈ captured root captures, Legible s e) : ∃ f, findings s root captures = .ok f := by
  obtain ⟨p, hp⟩ := exists_sorted h
  exact ⟨_, bind_eq_ok.mpr ⟨p, hp, rfl⟩⟩

/-- A reference as it is captured at a node. -/
structure Refers (s : Source) (c : Cursor) (r : Reference) : Prop where
  name : s.text c = .ok r.name
  line : r.line = s.startLine c

/-- Captured nodes are sorted into their definitions and their references, each in order. -/
theorem forall₂_of_sorted (h : sorted s nodes = .ok (ds, rs)) :
    List.Forall₂ (fun e d => definition s e.1 e.2 = .ok d) (definedIn nodes) ds ∧
      List.Forall₂ (Refers s) (referredIn nodes) rs := by
  induction nodes generalizing ds rs with
  | nil =>
    cases h
    exact ⟨.nil, .nil⟩
  | cons e nodes ih =>
    obtain ⟨capture, c⟩ := e
    obtain ⟨name, hname, h⟩ := bind_eq_ok.mp h
    split at h
    · rename_i kind hkind
      obtain ⟨d, hd, h⟩ := bind_eq_ok.mp h
      obtain ⟨⟨ds', rs'⟩, hrest, h⟩ := bind_eq_ok.mp h
      cases h
      have hreference : Text.begins capture "reference." = false := by
        by_contra hbegins
        rw [withoutStart?_of_reference (by simpa using hbegins)] at hkind
        exact Option.some_ne_none kind hkind.symm
      simp only [definedIn, referredIn, List.filterMap_cons, hkind, Option.map_some, List.filter_cons, hreference]
      exact ⟨.cons hd (ih hrest).1, (ih hrest).2⟩
    · rename_i hkind
      obtain ⟨⟨ds', rs'⟩, hrest, h⟩ := bind_eq_ok.mp h
      simp only [definedIn, referredIn, List.filterMap_cons, hkind, Option.map_none, List.filter_cons]
      dsimp only at h
      split at h
      · rename_i hreference
        cases h
        rw [if_pos hreference]
        exact ⟨(ih hrest).1, .cons ⟨hname, rfl⟩ (ih hrest).2⟩
      · rename_i hreference
        cases h
        rw [if_neg hreference]
        exact ih hrest

/-- There is a component for each captured definition, and the relationships of the captured references. -/
theorem exists_of_findings (h : findings s root captures = .ok f) :
    ∃ ds rs, List.Forall₂ (fun e d => definition s e.1 e.2 = .ok d)
        (definedIn (captured root captures)) ds ∧
      List.Forall₂ (Refers s) (referredIn (captured root captures)) rs ∧
      f.components = ds.map (·.component s) ∧
      f.relationships = rs.filterMap
        (relationship? s ds (Keyed.ofList (ds.map fun d => (d.name, d.id s)))) := by
  obtain ⟨⟨ds, rs⟩, hsorted, h⟩ := bind_eq_ok.mp h
  cases h
  obtain ⟨hdefined, hreferred⟩ := forall₂_of_sorted hsorted
  exact ⟨ds, rs, hdefined, hreferred, rfl, rfl⟩

/-- The class that counts for a definition: a function or a class belongs to none. -/
def countedClass (kind : String) (around : Option String) : Option String :=
  if kind = "method" then around else none

/-- What is known of the definition at a node. -/
structure Defines (s : Source) (kind : String) (c : Cursor) (d : Definition) : Prop where
  name : s.text c = .ok d.name
  startLine : d.startLine = s.startLine (c.parent.getD c)
  endLine : d.endLine = s.endLine (c.parent.getD c)
  owner : ∀ around, containingClass s c = .ok around → d.owner = countedClass kind around

/-- A definition has the name at its node, the construct around it and, as a method, the nearest class. -/
theorem exists_of_definition (h : definition s kind c = .ok d) :
    ∃ name code owner, s.text c = .ok name ∧ (kind = "method" → containingClass s c = .ok owner) ∧
      (kind ≠ "method" → owner = none) ∧
      d = ⟨name, kind, s.startLine (c.parent.getD c), s.endLine (c.parent.getD c), code, owner⟩ := by
  obtain ⟨name, hname, h⟩ := bind_eq_ok.mp h
  dsimp only at h
  split at h
  all_goals
    obtain ⟨code, -, h⟩ := bind_eq_ok.mp h
    split at h
    · rename_i hkind
      obtain ⟨owner, howner, h⟩ := bind_eq_ok.mp h
      exact ⟨name, code, owner, hname, fun _ => howner, fun hne => absurd hkind hne,
        (Except.ok.inj h).symm⟩
    · rename_i hkind
      exact ⟨name, code, none, hname, fun heq => absurd heq hkind, fun _ => rfl,
        (Except.ok.inj h).symm⟩

/-- A definition that is read is the one at its node. -/
theorem defines_of_definition (h : definition s kind c = .ok d) : Defines s kind c d := by
  obtain ⟨name, code, owner, hname, hmethod, hother, rfl⟩ := exists_of_definition h
  refine ⟨hname, rfl, rfl, fun around haround => ?_⟩
  unfold countedClass
  split
  · rename_i hkind
    exact Except.ok.inj ((hmethod hkind).symm.trans haround)
  · rename_i hkind
    exact hother hkind

/-- A name behind that of its class, if one counts. -/
def dotted (owner : Option String) (name : String) : String :=
  match owner with
  | some o => o ++ "." ++ name
  | none => name

/-- Names without a dot are the same behind their classes only if names and classes are. -/
theorem dotted_eq_iff {owner owner' : Option String} {name name' : String} (hname : '.' ∉ name.toList)
    (hname' : '.' ∉ name'.toList) : dotted owner name = dotted owner' name' ↔ name = name' ∧ owner = owner' := by
  have hlist : ∀ o n : String, (o ++ "." ++ n).toList = o.toList ++ '.' :: n.toList := by simp
  constructor
  · intro h
    have htext := congrArg String.toList h
    cases owner with
    | none =>
      cases owner' with
      | none => exact ⟨h, rfl⟩
      | some o' =>
        rw [dotted, dotted, hlist] at htext
        exact absurd (htext ▸ List.mem_append_right _ List.mem_cons_self) hname
    | some o =>
      cases owner' with
      | none =>
        rw [dotted, dotted, hlist] at htext
        exact absurd (htext ▸ List.mem_append_right _ List.mem_cons_self) hname'
      | some o' =>
        rw [dotted, dotted, hlist, hlist] at htext
        obtain ⟨howner, hsame⟩ := Text.append_cons_inj hname hname' htext
        rw [String.toList_inj.mp howner, String.toList_inj.mp hsame]
        exact ⟨rfl, rfl⟩
  · rintro ⟨rfl, rfl⟩
    rfl

/-- Identifiers in a file are the same if what follows the module is. -/
theorem id_eq_iff {d d' : Definition} : d.id s = d'.id s ↔ dotted d.owner d.name = dotted d'.owner d'.name := by
  have hlist : ∀ e : Definition, (e.id s).toList =
      (moduleName s ++ ".").toList ++ (dotted e.owner e.name).toList := fun _ => String.toList_append
  rw [← String.toList_inj, hlist, hlist, List.append_cancel_left_eq, String.toList_inj]

/-- Different classes count alike only if none of the two counts. -/
theorem countedClass_eq_iff {kind' : String} {around around' : Option String} (h : around ≠ around') :
    countedClass kind around = countedClass kind' around' ↔
      (kind = "method" → around = none) ∧ (kind' = "method" → around' = none) := by
  unfold countedClass
  by_cases hkind : kind = "method"
  · by_cases hkind' : kind' = "method"
    · simp only [hkind, hkind', if_true, forall_const]
      exact ⟨fun heq => absurd heq h, fun hnone => hnone.1.trans hnone.2.symm⟩
    · simp [hkind, hkind']
  · by_cases hkind' : kind' = "method"
    · simp [hkind, hkind', eq_comm]
    · simp [hkind, hkind']

/-- What stands at a place in the first of two lists has its counterpart at that place in the second. -/
theorem exists_counterpart {α β : Type} {R : α → β → Prop} {as : List α} {bs : List β} (h : List.Forall₂ R as bs)
    {i : Nat} {a : α} (ha : as[i]? = some a) : ∃ b, bs[i]? = some b ∧ R a b := by
  induction h generalizing i with
  | nil => simp at ha
  | cons hr _ ih =>
    cases i with
    | zero =>
      cases ha
      exact ⟨_, rfl, hr⟩
    | succ i => exact ih ha

/-- Each captured definition has its component, in order. -/
theorem exists_component (h : findings s root captures = .ok f) {i : Nat}
    (hi : (definedIn (captured root captures))[i]? = some (kind, c)) :
    ∃ d, f.components[i]? = some (d.component s) ∧ Defines s kind c d := by
  obtain ⟨ds, rs, hdefined, -, hcomponents, -⟩ := exists_of_findings h
  obtain ⟨d, hd, hdefinition⟩ := exists_counterpart hdefined hi
  refine ⟨d, ?_, defines_of_definition hdefinition⟩
  rw [hcomponents, List.getElem?_map, hd, Option.map_some]

/-- Two captured definitions get the same identifier exactly if their names behind the classes that count are
the same. Different ones with names without dots do so exactly if the names are the same and no class counts
for either. -/
theorem same_id_iff_class_uncounted (hread : ∀ e ∈ captured root captures, Legible s e) :
    ∃ f, findings s root captures = .ok f ∧
      ∀ (i j : Nat) (kind kind' : String) (c c' : Cursor) (around around' : Option String),
        (definedIn (captured root captures))[i]? = some (kind, c) →
        (definedIn (captured root captures))[j]? = some (kind', c') →
        containingClass s c = .ok around → containingClass s c' = .ok around' →
        ∃ k k' : Component, f.components[i]? = some k ∧ f.components[j]? = some k' ∧
          s.text c = .ok k.name ∧ s.text c' = .ok k'.name ∧
          (k.id = k'.id ↔ dotted (countedClass kind around) k.name =
            dotted (countedClass kind' around') k'.name) ∧
          ('.' ∉ k.name.toList → '.' ∉ k'.name.toList →
            (k.id = k'.id ↔ k.name = k'.name ∧
              countedClass kind around = countedClass kind' around') ∧
            (k.name ≠ k'.name ∨ around ≠ around' →
              (k.id = k'.id ↔ k.name = k'.name ∧ (kind = "method" → around = none) ∧
                (kind' = "method" → around' = none)))) := by
  obtain ⟨f, hf⟩ := exists_findings hread
  refine ⟨f, hf, fun i j kind kind' c c' around around' hi hj haround haround' => ?_⟩
  obtain ⟨d, hk, hd⟩ := exists_component hf hi
  obtain ⟨d', hk', hd'⟩ := exists_component hf hj
  have hid : (d.component s).id = (d'.component s).id ↔
      dotted (countedClass kind around) d.name = dotted (countedClass kind' around') d'.name := by
    rw [← hd.owner around haround, ← hd'.owner around' haround']
    exact id_eq_iff
  refine ⟨d.component s, d'.component s, hk, hk', hd.name, hd'.name, hid, fun hname hname' => ?_⟩
  have hcounted := hid.trans (dotted_eq_iff hname hname')
  refine ⟨hcounted, fun hdiffer => hcounted.trans (and_congr_right fun hsame => ?_)⟩
  exact countedClass_eq_iff (hdiffer.resolve_left fun hne => hne hsame)

/-- A file with two classes that have a function of the same name each. -/
def twins : Source :=
  Source.of "class A:\n  def f(): 0\nclass B:\n  def f(): 0\n" "/r/m.py" (some "/r")

/-- A class that begins at an offset, with its name and its function. -/
def twin (start : Nat) : Tree :=
  ⟨"class_definition", true, start, start + 21, [⟨"identifier", true, start + 6, start + 7, []⟩,
    ⟨"block", true, start + 11, start + 21, [⟨"function_definition", true, start + 11, start + 21,
      [⟨"identifier", true, start + 15, start + 16, []⟩]⟩]⟩]⟩

/-- The tree of the file with the two classes. -/
def twinTree : Cursor :=
  .ofTree ⟨"module", true, 0, 44, [twin 0, twin 22]⟩

/-- The names of the classes, and those of their functions as definitions of some kind. -/
def twinCaptures (kind : String) : Captures :=
  [("definition.class", [2, 7]), ("definition." ++ kind, [5, 10])]

/-- Captured as methods, functions of the same name in two classes are kept apart. -/
theorem twin_methods_apart :
    (∀ e ∈ captured twinTree (twinCaptures "method"), Legible twins e) ∧
    ∃ f k k', findings twins twinTree (twinCaptures "method") = .ok f ∧ f.components[2]? = some k ∧
      f.components[3]? = some k' ∧ k.name = "f" ∧ k'.name = "f" ∧ k.id ≠ k'.id := by
  have hread : ∀ e ∈ captured twinTree (twinCaptures "method"), Legible twins e := by decide +kernel
  obtain ⟨⟨kind, c⟩, hi, rfl, hname, haround⟩ :
      ∃ e ∈ (definedIn (captured twinTree (twinCaptures "method")))[2]?, e.1 = "method" ∧
        (twins.text e.2).toOption = some "f" ∧
        (containingClass twins e.2).toOption = some (some "A") := by
    decide +kernel
  obtain ⟨⟨kind', c'⟩, hj, rfl, hname', haround'⟩ :
      ∃ e ∈ (definedIn (captured twinTree (twinCaptures "method")))[3]?, e.1 = "method" ∧
        (twins.text e.2).toOption = some "f" ∧
        (containingClass twins e.2).toOption = some (some "B") := by
    decide +kernel
  obtain ⟨f, hf, hall⟩ := same_id_iff_class_uncounted hread
  obtain ⟨k, k', hk, hk', htext, htext', -, hdotless⟩ := hall 2 3 _ _ c c' _ _ hi hj
    (eq_ok_of_toOption haround) (eq_ok_of_toOption haround')
  have hshown : k.name = "f" := Except.ok.inj (htext.symm.trans (eq_ok_of_toOption hname))
  have hshown' : k'.name = "f" := Except.ok.inj (htext'.symm.trans (eq_ok_of_toOption hname'))
  obtain ⟨-, hclasses⟩ := hdotless (by simp [hshown]) (by simp [hshown'])
  refine ⟨hread, f, k, k', hf, hk, hk', hshown, hshown', fun hid => ?_⟩
  have hnone := ((hclasses (.inr (by decide))).mp hid).2.1 rfl
  exact absurd hnone (Option.some_ne_none "A")

/-- Captured as functions, they are not: the class is left out of both identifiers. -/
theorem twin_functions_share_id :
    ∃ f, findings twins twinTree (twinCaptures "function") = .ok f ∧
      f.components.map (·.id) = ["m.A", "m.B", "m.f", "m.f"] ∧
      ((definedIn (captured twinTree (twinCaptures "function"))).map fun e =>
        (containingClass twins e.2).toOption) =
          [some (some "A"), some (some "B"), some (some "A"), some (some "B")] := by
  obtain ⟨f, hf, hids⟩ : ∃ f ∈ (findings twins twinTree (twinCaptures "function")).toOption,
      f.components.map (·.id) = ["m.A", "m.B", "m.f", "m.f"] := by
    decide +kernel
  exact ⟨f, eq_ok_of_toOption hf, hids, by decide +kernel⟩

end RepoAtlas.Extract.Query
