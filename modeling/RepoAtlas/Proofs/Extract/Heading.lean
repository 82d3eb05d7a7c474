import Mathlib.Data.List.Forall2
import RepoAtlas.Extract.GoDeclaration
import RepoAtlas.Proofs.Extract.Origin

/-!
# What a node of a Go file declares

The heading of a declaration, its kind, name and receiver type, decides which component it declares and under
which names the file remembers it. A type declaration has that of its first specification.
-/

namespace RepoAtlas.Extract.Go

open Syntax

variable {s : Source} {root c n : Cursor} {g g' : Component} {d : Heading} {found : List (Component × List String)}

/-- A component without what the body of a function tells about it. -/
def unflagged (g : Component) : Component :=
  { g with spawnsGoroutines := false, usesSelect := false, usesChannels := false, hasDefers := false,
           hasPanic := false }

/-- What a body tells changes flags only. -/
theorem unflagged_of_noteBody (h : noteBody s g c = .ok g') : unflagged g' = unflagged g := by
  unfold noteBody at h
  split at h
  · exact Except.ok.inj h ▸ rfl
  split at h
  · exact Except.ok.inj h ▸ rfl
  split at h
  · exact Except.ok.inj h ▸ rfl
  split at h
  · exact Except.ok.inj h ▸ rfl
  split at h
  · split at h
    · split at h
      · obtain ⟨name, -, h⟩ := bind_eq_ok.mp h
        cases h
        split <;> rfl
      · exact Except.ok.inj h ▸ rfl
    · exact Except.ok.inj h ▸ rfl
  · exact Except.ok.inj h ▸ rfl

/-- What its whole body tells about a function are flags only. -/
theorem unflagged_of_noteBodies {nodes : List Cursor} (h : noteBodies s g nodes = .ok g') :
    unflagged g' = unflagged g := by
  induction nodes generalizing g with
  | nil => exact Except.ok.inj h ▸ rfl
  | cons d nodes ih =>
    obtain ⟨noted, hnoted, h⟩ := bind_eq_ok.mp h
    exact (ih h).trans (unflagged_of_noteBody hnoted)

/-- The heading of a declaration. -/
structure Heading where
  kind : String
  name : String
  /-- The receiver type of a method. -/
  receiver : Option String
  deriving DecidableEq, Repr

/-- The identifier of what a heading declares. -/
def Heading.id (s : Source) (d : Heading) : String :=
  componentId s d.name d.receiver

/-- The names under which a file remembers what a heading declares. -/
def Heading.keys (d : Heading) : List String :=
  match d.receiver with
  | some r => [d.name, r ++ "." ++ d.name]
  | none => [d.name]

/-- The heading of a type specification with a name and a body that counts. -/
def specHeading? (s : Source) (spec : Cursor) : Except Fault (Option Heading) := do
  match nonEmpty (← s.text? (spec.child? "type_identifier")), typeKind? spec with
  | some name, some kind => .ok (some ⟨kind, name, none⟩)
  | _, _ => .ok none

/-- The heading of a node that declares something with a name. -/
def heading? (s : Source) (c : Cursor) : Except Fault (Option Heading) := do
  if c.kind = "function_declaration" then
    .ok ((nonEmpty (← s.text? (c.child? "identifier"))).map fun name => ⟨"function", name, none⟩)
  else if c.kind = "method_declaration" then
    let name? ← s.text? (c.child? "field_identifier")
    let receiver ← receiverType s c
    .ok ((nonEmpty name?).map fun name => ⟨"method", name, receiver⟩)
  else if c.kind = "type_declaration" then
    match c.child? "type_spec" with
    | none => .ok none
    | some spec => specHeading? s spec
  else .ok none

/-- The component of a node with a heading. -/
def headedComponent (s : Source) (c : Cursor) (d : Heading) : Except Fault Component :=
  if c.kind = "type_declaration" then .ok (typeComponent s c d.kind d.name)
  else functionComponent s c d.kind d.name d.receiver

/-- What a node declares that may have a heading. -/
def headed (s : Source) (c : Cursor) : Option Heading → Except Fault (List (Component × List String))
  | none => .ok []
  | some d => (headedComponent s c d).map fun g => [(g, d.keys)]

/-- A node declares what its heading says. -/
theorem declaredAt_eq (s : Source) (c : Cursor) : declaredAt s c = heading? s c >>= headed s c := by
  unfold declaredAt heading?
  by_cases hfunction : c.kind = "function_declaration"
  · have hheaded : ∀ d : Heading, headedComponent s c d = functionComponent s c d.kind d.name d.receiver :=
      fun d => if_neg (by rw [hfunction]; decide)
    rw [if_pos hfunction, if_pos hfunction]
    cases s.text? (c.child? "identifier") with
    | error e => rfl
    | ok name? =>
      cases h : nonEmpty name? with
      | none => simp [bind, Except.bind, h, headed]
      | some name => simp [bind, Except.bind, h, headed, hheaded, Except.map, Heading.keys]
  by_cases hmethod : c.kind = "method_declaration"
  · have hheaded : ∀ d : Heading, headedComponent s c d = functionComponent s c d.kind d.name d.receiver :=
      fun d => if_neg (by rw [hmethod]; decide)
    rw [if_neg hfunction, if_neg hfunction, if_pos hmethod, if_pos hmethod]
    cases s.text? (c.child? "field_identifier") with
    | error e => rfl
    | ok name? =>
      cases receiverType s c with
      | error e => rfl
      | ok receiver =>
        cases h : nonEmpty name? with
        | none => simp [bind, Except.bind, h, headed]
        | some name =>
          cases receiver <;> simp [bind, Except.bind, h, headed, hheaded, Except.map, Heading.keys]
  by_cases htype : c.kind = "type_declaration"
  · rw [if_neg hfunction, if_neg hfunction, if_neg hmethod, if_neg hmethod, if_pos htype, if_pos htype]
    cases c.child? "type_spec" with
    | none => rfl
    | some spec =>
      dsimp only [specHeading?]
      cases s.text? (spec.child? "type_identifier") with
      | error e => rfl
      | ok name? =>
        cases h : nonEmpty name? with
        | none => simp [bind, Except.bind, h, headed]
        | some name =>
          cases typeKind? spec with
          | none => simp [bind, Except.bind, h, headed]
          | some kind =>
            simp [bind, Except.bind, h, headed, headedComponent, htype, Except.map, Heading.keys]
  · rw [if_neg hfunction, if_neg hfunction, if_neg hmethod, if_neg hmethod, if_neg htype, if_neg htype]
    rfl

/-- A declared component, with the names under which it is remembered, as a heading of a node says. -/
structure Heads (s : Source) (c : Cursor) (d : Heading) (e : Component × List String) : Prop where
  kind : e.1.kind = d.kind
  name : e.1.name = d.name
  id : e.1.id = d.id s
  code : e.1.sourceCode = some (s.nodeLines c)
  implements : e.1.implementsInterfaces = []
  keys : e.2 = d.keys

/-- A function with a name has its heading. -/
theorem heading?_function {name : String} (hkind : c.kind = "function_declaration")
    (hname : s.text? (c.child? "identifier") = .ok (some name)) (hne : name ≠ "") :
    heading? s c = .ok (some ⟨"function", name, none⟩) := by
  rw [heading?, if_pos hkind, hname]
  change Except.ok ((nonEmpty (some name)).map _) = _
  rw [nonEmpty_of_ne hne]
  rfl

/-- A method with a name has its heading. -/
theorem heading?_method {name : String} {receiver : Option String} (hkind : c.kind = "method_declaration")
    (hname : s.text? (c.child? "field_identifier") = .ok (some name)) (hne : name ≠ "")
    (hreceiver : receiverType s c = .ok receiver) :
    heading? s c = .ok (some ⟨"method", name, receiver⟩) := by
  rw [heading?, if_neg (by rw [hkind]; decide), if_pos hkind, hname, hreceiver]
  change Except.ok ((nonEmpty (some name)).map _) = _
  rw [nonEmpty_of_ne hne]
  rfl

/-- No heading has an empty name. -/
theorem name_ne_of_heading? (h : heading? s c = .ok (some d)) : d.name ≠ "" := by
  unfold heading? at h
  split at h
  · obtain ⟨name?, -, h⟩ := bind_eq_ok.mp h
    obtain ⟨name, hname, rfl⟩ := Option.map_eq_some_iff.mp (Except.ok.inj h)
    exact ne_of_nonEmpty hname
  split at h
  · obtain ⟨name?, -, h⟩ := bind_eq_ok.mp h
    obtain ⟨receiver, -, h⟩ := bind_eq_ok.mp h
    obtain ⟨name, hname, rfl⟩ := Option.map_eq_some_iff.mp (Except.ok.inj h)
    exact ne_of_nonEmpty hname
  split at h
  · split at h
    · cases h
    · obtain ⟨name?, -, h⟩ := bind_eq_ok.mp h
      split at h
      · rename_i name kind hname hkind
        exact Option.some.inj (Except.ok.inj h) ▸ ne_of_nonEmpty hname
      · cases h
  · cases h

/-- A type has no receiver. -/
theorem receiver_of_heading? (h : heading? s c = .ok (some d))
    (hkind : c.kind = "type_declaration") : d.receiver = none := by
  rw [heading?, if_neg (by rw [hkind]; decide), if_neg (by rw [hkind]; decide), if_pos hkind] at h
  split at h
  · cases h
  · obtain ⟨name?, -, h⟩ := bind_eq_ok.mp h
    split at h
    · exact Option.some.inj (Except.ok.inj h) ▸ rfl
    · cases h

/-- The component of a heading is as it says. -/
theorem heads_of_headedComponent (hd : heading? s c = .ok (some d)) (h : headedComponent s c d = .ok g) :
    Heads s c d (g, d.keys) := by
  unfold headedComponent at h
  split at h
  · rename_i hkind
    have hid : componentId s d.name none = d.id s := by rw [Heading.id, receiver_of_heading? hd hkind]
    obtain rfl := Except.ok.inj h
    unfold typeComponent
    generalize componentId s d.name none = id at hid
    exact ⟨rfl, rfl, hid, rfl, rfl, rfl⟩
  · simp only [functionComponent, bind_eq_ok] at h
    obtain ⟨parameters, -, returns, -, h⟩ := h
    have hid : componentId s d.name d.receiver = d.id s := rfl
    generalize componentId s d.name d.receiver = id at h hid
    split at h
    · have hflags := unflagged_of_noteBodies h
      exact ⟨congrArg Component.kind hflags, congrArg Component.name hflags,
        (congrArg Component.id hflags).trans hid, congrArg Component.sourceCode hflags,
        congrArg Component.implementsInterfaces hflags, rfl⟩
    · cases h
      exact ⟨rfl, rfl, hid, rfl, rfl, rfl⟩

/-- What a node declares is what its heading says. -/
theorem exists_heading_of_declaredAt (h : declaredAt s c = .ok found) :
    ∃ d?, heading? s c = .ok d? ∧ List.Forall₂ (Heads s c) d?.toList found := by
  rw [declaredAt_eq] at h
  obtain ⟨d?, hd, h⟩ := bind_eq_ok.mp h
  refine ⟨d?, hd, ?_⟩
  cases d? with
  | none => exact Except.ok.inj h ▸ .nil
  | some d =>
    rw [headed] at h
    cases hg : headedComponent s c d with
    | error e =>
      rw [hg] at h
      exact absurd h (by simp [Except.map])
    | ok g =>
      rw [hg] at h
      exact Except.ok.inj h ▸ .cons (heads_of_headedComponent hd hg) .nil

/-- Each declared component has a heading. -/
theorem exists_heading_of_mem_declaredAt {e : Component × List String} (h : declaredAt s c = .ok found)
    (he : e ∈ found) : ∃ d, heading? s c = .ok (some d) ∧ Heads s c d e := by
  obtain ⟨d?, hd, hheads⟩ := exists_heading_of_declaredAt h
  cases d? with
  | none =>
    rw [List.forall₂_nil_left_iff.mp hheads] at he
    cases he
  | some d =>
    obtain ⟨e', es, hhead, hes, rfl⟩ := List.forall₂_cons_left_iff.mp hheads
    rw [List.forall₂_nil_left_iff.mp hes] at he
    exact ⟨d, hd, List.mem_singleton.mp he ▸ hhead⟩

/-- Each heading has a declared component. -/
theorem exists_mem_of_heading? (h : declaredAt s c = .ok found) (hd : heading? s c = .ok (some d)) :
    ∃ e ∈ found, Heads s c d e := by
  obtain ⟨d?, hd?, hheads⟩ := exists_heading_of_declaredAt h
  obtain rfl := Except.ok.inj (hd.symm.trans hd?)
  obtain ⟨e, es, hhead, -, rfl⟩ := List.forall₂_cons_left_iff.mp hheads
  exact ⟨e, List.mem_cons_self, hhead⟩

/-- What a node within the limit declares is found. -/
theorem exists_declaredAt (hfailure : (declarations s root).failure = none) (hc : c ∈ root.within depthLimit) :
    ∃ found, declaredAt s c = .ok found ∧ ∀ e ∈ found, e ∈ (declarations s root).found := by
  obtain ⟨hc, hsub⟩ := Trail.subset_of_each hfailure hc
  exact ⟨_, Trail.eq_ok_of_failure hc, hsub⟩

/-- The headings of the nodes of a list that have one, in order. -/
def headings (s : Source) (nodes : List Cursor) : List (Cursor × Heading) :=
  nodes.filterMap fun c => (heading? s c).toOption.join.map (c, ·)

/-- The declarations of nodes are those of their headings, in order. -/
theorem forall₂_headings {nodes : List Cursor}
    (hfailure : (Trail.each nodes fun c => Trail.ofExcept (declaredAt s c)).failure = none) :
    List.Forall₂ (fun p e => Heads s p.1 p.2 e) (headings s nodes)
      (Trail.each nodes fun c => Trail.ofExcept (declaredAt s c)).found := by
  induction nodes with
  | nil => exact .nil
  | cons c nodes ih =>
    rw [Trail.each_cons] at hfailure ⊢
    obtain ⟨hc, hnodes, hfound⟩ := Trail.append_of_failure hfailure
    obtain ⟨d?, hd, hheads⟩ := exists_heading_of_declaredAt (Trail.eq_ok_of_failure hc)
    rw [hfound, headings, List.filterMap_cons, hd]
    cases d? with
    | none =>
      rw [List.forall₂_nil_left_iff.mp hheads]
      exact ih hnodes
    | some d =>
      obtain ⟨e, es, he, hes, heq⟩ := List.forall₂_cons_left_iff.mp hheads
      rw [heq, List.forall₂_nil_left_iff.mp hes]
      exact .cons he (ih hnodes)

/-- What holds of every heading and what it declares holds of the lists of them. -/
theorem map_found_eq {γ : Type} {f : Component × List String → γ} {g : Cursor × Heading → γ}
    (hfailure : (declarations s root).failure = none) (h : ∀ p e, Heads s p.1 p.2 e → f e = g p) :
    (declarations s root).found.map f = (headings s (root.within depthLimit)).map g := by
  have hmaps : List.Forall₂ (· = ·) ((headings s (root.within depthLimit)).map g)
      ((declarations s root).found.map f) :=
    List.forall₂_map_left_iff.mpr (List.forall₂_map_right_iff.mpr
      ((forall₂_headings hfailure).imp fun p e he => (h p e he).symm))
  rw [List.forall₂_eq_eq_eq] at hmaps
  exact hmaps.symm

end RepoAtlas.Extract.Go
