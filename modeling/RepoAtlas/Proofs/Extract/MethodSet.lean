import Mathlib.Data.List.Induction
import RepoAtlas.Proofs.Extract.GoReadable
import RepoAtlas.Proofs.Keyed

/-!
# Method sets in Go files

Methods are recorded by name and number of parameter declarations. As `a, b int` is one declaration and `a int,
b int` are two, methods with equally many parameters may be recorded differently.
-/

namespace RepoAtlas.Extract.Go

open Syntax

variable {s : Source} {root c : Cursor} {f : TypeFact} {i r signature : String}

section Signature

/-- The parameter declarations in a parameter list that may be missing. -/
def declarationsIn (l : Option Cursor) : List Cursor :=
  ((l.map Cursor.children).getD []).filter (·.kind = "parameter_declaration")

/-- How many names a parameter declaration has. -/
def nameCount (d : Cursor) : Nat :=
  (d.children.filter (·.kind = "identifier")).length

/-- How many parameters are declared: one for each name, and one by a declaration without names. -/
def parameterCount : List Cursor → Nat
  | [] => 0
  | d :: ds => max 1 (nameCount d) + parameterCount ds

/-- How many names share a declaration with an earlier one. -/
def sharedCount : List Cursor → Nat
  | [] => 0
  | d :: ds => (nameCount d - 1) + sharedCount ds

/-- A parameter begins a declaration or shares one. -/
theorem parameterCount_eq (ds : List Cursor) : parameterCount ds = ds.length + sharedCount ds := by
  induction ds with
  | nil => rfl
  | cons d ds ih =>
    rw [parameterCount, sharedCount, List.length_cons, ih]
    omega

/-- Methods of one name are recorded alike exactly if they have equally many parameter declarations. -/
theorem methodSignature_eq_iff {name : String} {l l' : Option Cursor} :
    methodSignature name l = methodSignature name l' ↔ (declarationsIn l).length = (declarationsIn l').length := by
  change name ++ "#" ++ Nat.repr _ = name ++ "#" ++ Nat.repr _ ↔ _
  rw [String.append_right_inj]
  constructor
  · intro h
    rw [Nat.repr_eq_ofList_toDigits, Nat.repr_eq_ofList_toDigits, String.ofList_inj] at h
    -- The digits of a number give the number back.
    have h := congrArg (Nat.ofDigitChars 10 · 0) h
    rwa [Nat.ofDigitChars_toDigits (by decide) (by decide),
      Nat.ofDigitChars_toDigits (by decide) (by decide)] at h
  · exact congrArg Nat.repr

end Signature

section Facts

/-- What a fact tells about an interface: that it begins, or that it asks for a method. -/
def TypeFact.asked? : TypeFact → Option (String × Option String)
  | .interface name => some (name, none)
  | .required name signature => some (name, some signature)
  | _ => none

/-- The method that a fact gives to a receiver type. -/
def TypeFact.had? : TypeFact → Option (String × String)
  | .method name signature => some (name, signature)
  | _ => none

/-- A fact about anything else. -/
def TypeFact.Silent (f : TypeFact) : Prop :=
  f.asked? = none ∧ f.had? = none

/-- Take into account what a fact tells about an interface. -/
def ask (t : Keyed (List String)) : String × Option String → Keyed (List String)
  | (name, none) => t.insert name []
  | (name, some signature) => t.insert name (addTo ((t.get? name).getD []) signature)

/-- The methods recorded for a type. -/
def recorded (t : Keyed (List String)) (type : String) : List String :=
  (t.get? type).getD []

/-- A set has what is added beside what it had. -/
theorem mem_addTo {set : List String} {x y : String} : y ∈ addTo set x ↔ y ∈ set ∨ y = x := by
  unfold addTo
  split
  · rename_i hx
    exact ⟨Or.inl, fun h => h.elim id fun h => h ▸ List.contains_iff_mem.mp hx⟩
  · rw [List.mem_append, List.mem_singleton]

/-- So it has all that is added one by one. -/
theorem mem_foldl_addTo {set xs : List String} {y : String} : y ∈ xs.foldl addTo set ↔ y ∈ set ∨ y ∈ xs := by
  induction xs generalizing set with
  | nil => simp
  | cons x xs ih => rw [List.foldl_cons, ih, mem_addTo, List.mem_cons, or_assoc]

/-- Interfaces come from what facts ask. -/
theorem interfaces_foldl_note (k : TypeContext) (facts : List TypeFact) :
    (facts.foldl TypeContext.note k).interfaces = (facts.filterMap TypeFact.asked?).foldl ask k.interfaces := by
  induction facts generalizing k with
  | nil => rfl
  | cons f facts ih =>
    rw [List.foldl_cons, ih]
    cases f <;> rfl

/-- A fact records the method that it gives. -/
theorem mem_recorded_note (k : TypeContext) (f : TypeFact) :
    signature ∈ recorded (k.note f).structs r ↔ signature ∈ recorded k.structs r ∨ f.had? = some (r, signature) := by
  cases f with
  | method name new =>
    change signature ∈ ((k.structs.insert name _).get? r).getD [] ↔ _
    rw [Keyed.get?_insert]
    by_cases hr : r = name
    · subst hr
      rw [if_pos rfl, Option.getD_some, mem_addTo]
      simp [recorded, TypeFact.had?, eq_comm]
    · simp [recorded, TypeFact.had?, hr, Ne.symm hr]
  | receiver name =>
    change signature ∈ ((k.structs.insert name _).get? r).getD [] ↔ _
    rw [Keyed.get?_insert]
    by_cases hr : r = name
    · subst hr
      simp [recorded, TypeFact.had?]
    · simp [recorded, TypeFact.had?, hr]
  | _ => simp [recorded, TypeFact.had?, TypeContext.note]

/-- Facts record the methods that they give. -/
theorem mem_recorded_foldl_note (k : TypeContext) (facts : List TypeFact) :
    signature ∈ recorded (facts.foldl TypeContext.note k).structs r ↔
      signature ∈ recorded k.structs r ∨ (r, signature) ∈ facts.filterMap TypeFact.had? := by
  induction facts generalizing k with
  | nil => simp
  | cons f facts ih =>
    rw [List.foldl_cons, ih, mem_recorded_note, or_assoc]
    simp [List.mem_filterMap]

/-- What is told about an interface with some methods. -/
def asking (name : String) (signatures : List String) : List (String × Option String) :=
  (name, none) :: signatures.map fun signature => (name, some signature)

/-- An interface that has begun asks for the methods that follow as well. -/
theorem get?_foldl_ask {t : Keyed (List String)} {known signatures : List String} {j : String}
    (h : t.get? i = some known) :
    ((signatures.map fun signature => (i, some signature)).foldl ask t).get? j =
      if j = i then some (signatures.foldl addTo known) else t.get? j := by
  induction signatures generalizing t known with
  | nil =>
    split
    · rename_i hj
      exact hj ▸ h
    · rfl
  | cons signature signatures ih =>
    have hadd : (ask t (i, some signature)).get? i = some (addTo known signature) := by
      rw [ask, h, Keyed.get?_insert_self, Option.getD_some]
    rw [List.map_cons, List.foldl_cons, ih hadd, List.foldl_cons]
    split
    · rfl
    · rename_i hj
      exact Keyed.get?_insert_of_ne t _ hj

/-- An interface asks for the methods that it was declared with last. -/
theorem get?_foldl_asking {α : Type} (g : α → List String) (entries : List (String × α)) :
    ((entries.flatMap fun e => asking e.1 (g e.2)).foldl ask .empty).get? i =
      (entries.reverse.lookup i).map fun a => (g a).foldl addTo [] := by
  induction entries using List.reverseRecOn with
  | nil => rfl
  | append_singleton entries e ih =>
    have hbegun (t : Keyed (List String)) : (ask t (e.1, none)).get? e.1 = some [] :=
      Keyed.get?_insert_self t e.1 []
    rw [List.flatMap_append, List.foldl_append, List.flatMap_singleton, asking, List.foldl_cons,
      get?_foldl_ask (hbegun _), List.reverse_append, List.reverse_singleton, List.singleton_append, List.lookup_cons]
    -- The last entry decides about its own name, and what the entries before it say stays for all others.
    by_cases hi : i = e.1
    · simp [hi]
    · rw [if_neg hi, beq_false_of_ne hi, ask, Keyed.get?_insert_of_ne _ _ hi, ih]

end Facts

section Tree

/-- The methods that the body of an interface asks for, each with its parameter list. -/
def methodsAsked (s : Source) (body : Cursor) : List (String × Option Cursor) :=
  (body.children.filter fun d => d.kind = "method_spec" || d.kind = "method_elem").filterMap fun m =>
    (s.text? (m.child? "field_identifier")).toOption.join.map (·, m.child? "parameter_list")

/-- The interfaces of a type declaration, each with its body. -/
def interfacesAt (s : Source) (c : Cursor) : List (String × Cursor) :=
  (specifications c "interface_type").filterMap fun e => (s.text e.1).toOption.map (·, e.2)

/-- The interfaces at the top of a file. -/
def interfacesIn (s : Source) (root : Cursor) : List (String × Cursor) :=
  root.children.flatMap fun c => if c.kind = "type_declaration" then interfacesAt s c else []

/-- The receiver type, the name and the parameter list of a method declaration. -/
def methodAt? (s : Source) (c : Cursor) : Option (String × String × Option Cursor) :=
  match (receiverType s c).toOption.join, (s.text? (c.child? "field_identifier")).toOption.join with
  | some r, some name => some (r, name, methodParameters c)
  | _, _ => none

/-- The methods at the top of a file. -/
def methodsIn (s : Source) (root : Cursor) : List (String × String × Option Cursor) :=
  root.children.filterMap fun c => if c.kind = "method_declaration" then methodAt? s c else none

/-- Fields tell nothing of methods. -/
theorem silent_of_mem_fieldFacts {owner : String} {facts : List TypeFact}
    (h : fieldFacts s owner c = .ok facts) (hf : f ∈ facts) : f.Silent := by
  obtain ⟨names, -, h⟩ := bind_eq_ok.mp h
  split at h
  · exact absurd (Except.ok.inj h ▸ hf) List.not_mem_nil
  split at h
  · exact absurd (Except.ok.inj h ▸ hf) List.not_mem_nil
  · obtain ⟨type, -, h⟩ := bind_eq_ok.mp h
    obtain ⟨name, -, rfl⟩ := List.mem_map.mp (Except.ok.inj h ▸ hf)
    exact ⟨rfl, rfl⟩

/-- Nor do structs. -/
theorem silent_of_mem_structFacts (hf : f ∈ (structFacts s c).found) : f.Silent := by
  obtain ⟨⟨n, body⟩, -, hf⟩ := Trail.exists_of_mem_each hf
  obtain ⟨name, -, hf⟩ := Trail.exists_of_mem_given hf
  rcases Trail.mem_found_append hf with hf | hf
  · obtain rfl := List.mem_singleton.mp hf
    exact ⟨rfl, rfl⟩
  · split at hf
    · cases hf
    · obtain ⟨field, -, hf⟩ := Trail.exists_of_mem_each hf
      obtain ⟨facts, hfacts, hf⟩ := Trail.exists_of_mem_ofExcept hf
      exact silent_of_mem_fieldFacts hfacts hf

/-- Nor do functions. -/
theorem silent_of_mem_functionFacts (hf : f ∈ (Trail.ofExcept (functionFacts s c)).found) : f.Silent := by
  obtain ⟨facts, h, hf⟩ := Trail.exists_of_mem_ofExcept hf
  obtain ⟨name?, -, h⟩ := bind_eq_ok.mp h
  split at h
  · exact absurd (Except.ok.inj h ▸ hf) List.not_mem_nil
  · simp only [bind_eq_ok] at h
    obtain ⟨parameters, -, returns, -, h⟩ := h
    obtain rfl := List.mem_singleton.mp (Except.ok.inj h ▸ hf)
    exact ⟨rfl, rfl⟩

/-- Nor do the results of methods. -/
theorem silent_of_mem_methodFacts (hf : f ∈ (Trail.ofExcept (methodFacts s c)).found) : f.Silent := by
  obtain ⟨facts, h, hf⟩ := Trail.exists_of_mem_ofExcept hf
  simp only [methodFacts, bind_eq_ok] at h
  obtain ⟨receiver, -, name?, -, h⟩ := h
  split at h
  · exact absurd (Except.ok.inj h ▸ hf) List.not_mem_nil
  · simp only [bind_eq_ok] at h
    obtain ⟨parameters, -, returns, -, h⟩ := h
    obtain rfl := List.mem_singleton.mp (Except.ok.inj h ▸ hf)
    exact ⟨rfl, rfl⟩

/-- The facts about the methods that the body of an interface asks for. -/
def requiredFacts (s : Source) (name : String) (body : Cursor) : Trail Fault TypeFact :=
  Trail.each (body.children.filter fun d => d.kind = "method_spec" || d.kind = "method_elem") fun m =>
    match m.child? "field_identifier" with
    | none => Trail.none
    | some n => Trail.given (s.text n) fun method =>
        Trail.one (.required name (methodSignature method (m.child? "parameter_list")))

/-- An interface begins, then it asks for its methods. -/
theorem interfaceFacts_eq (s : Source) (c : Cursor) :
    interfaceFacts s c = Trail.each (specifications c "interface_type") fun e =>
      Trail.given (s.text e.1) fun name => Trail.one (.interface name) ++ requiredFacts s name e.2 :=
  rfl

/-- A body asks for its methods. -/
theorem filterMap_asked_requiredFacts {name : String} {body : Cursor} (h : Readable s body)
    (hfailure : (requiredFacts s name body).failure = none) :
    (requiredFacts s name body).found.filterMap TypeFact.asked? =
      (methodsAsked s body).map fun m => (name, some (methodSignature m.1 m.2)) := by
  rw [requiredFacts, Trail.found_each hfailure, List.filterMap_flatMap, methodsAsked, List.map_filterMap,
    List.filterMap_eq_flatMap_toList]
  refine List.flatMap_congr fun m hm => ?_
  cases hn : m.child? "field_identifier" with
  | none => rfl
  | some n =>
    obtain ⟨method, hmethod⟩ := exists_of_isOk ((h.filtered _ m hm).child? hn).text
    change (Trail.given (s.text n) _).found.filterMap TypeFact.asked? = _
    rw [Source.text?, hmethod]
    rfl

/-- A declaration asks for the methods of its interfaces. -/
theorem filterMap_asked_interfaceFacts (h : Readable s c) :
    (interfaceFacts s c).found.filterMap TypeFact.asked? =
      (interfacesAt s c).flatMap fun e =>
        asking e.1 ((methodsAsked s e.2).map fun m => methodSignature m.1 m.2) := by
  have hfailure := failure_interfaceFacts h
  rw [interfaceFacts_eq] at hfailure ⊢
  rw [Trail.found_each hfailure, List.filterMap_flatMap, interfacesAt, List.filterMap_eq_flatMap_toList,
    List.flatMap_assoc]
  refine List.flatMap_congr fun e he => ?_
  obtain ⟨hname, hbody⟩ := readable_of_specifications h he
  obtain ⟨name, hname⟩ := exists_of_isOk hname.text
  have hfailure := (Trail.subset_of_each hfailure he).1
  rw [hname] at hfailure ⊢
  obtain ⟨-, hmethods, hfound⟩ := Trail.append_of_failure hfailure
  change (Trail.one (TypeFact.interface name) ++ requiredFacts s name e.2).found.filterMap TypeFact.asked? =
    [(name, e.2)].flatMap _
  rw [hfound, List.filterMap_append, filterMap_asked_requiredFacts hbody hmethods, List.flatMap_singleton,
    asking, List.map_map]
  rfl

/-- A method is given to its receiver. -/
theorem filterMap_had_receiverFacts (h : Readable s c) :
    (receiverFacts s c).found.filterMap TypeFact.had? =
      ((methodAt? s c).map fun m => (m.1, methodSignature m.2.1 m.2.2)).toList := by
  obtain ⟨receiver, hreceiver⟩ := exists_of_isOk (isOk_receiverType h)
  rw [receiverFacts, methodAt?, hreceiver]
  cases receiver with
  | none => rfl
  | some r =>
    cases hn : c.child? "field_identifier" with
    | none => rfl
    | some n =>
      obtain ⟨name, hname⟩ := exists_of_isOk (h.child? hn).text
      change (Trail.one (TypeFact.receiver r) ++ Trail.given (s.text n) _).found.filterMap TypeFact.had? = _
      rw [Source.text?, hname]
      rfl

/-- It asks for nothing. -/
theorem asked_of_mem_receiverFacts (hf : f ∈ (receiverFacts s c).found) : f.asked? = none := by
  obtain ⟨receiver, -, hf⟩ := Trail.exists_of_mem_given hf
  split at hf
  · rcases Trail.mem_found_append hf with hf | hf
    · exact List.mem_singleton.mp hf ▸ rfl
    · obtain ⟨name, -, hf⟩ := Trail.exists_of_mem_given hf
      exact List.mem_singleton.mp hf ▸ rfl
  · cases hf

/-- The facts about interfaces give no receiver type a method. -/
theorem had_of_mem_interfaceFacts (hf : f ∈ (interfaceFacts s c).found) : f.had? = none := by
  rw [interfaceFacts_eq] at hf
  obtain ⟨e, -, hf⟩ := Trail.exists_of_mem_each hf
  obtain ⟨name, -, hf⟩ := Trail.exists_of_mem_given hf
  rcases Trail.mem_found_append hf with hf | hf
  · exact List.mem_singleton.mp hf ▸ rfl
  · obtain ⟨m, -, hf⟩ := Trail.exists_of_mem_each hf
    split at hf
    · cases hf
    · obtain ⟨method, -, hf⟩ := Trail.exists_of_mem_given hf
      exact List.mem_singleton.mp hf ▸ rfl

/-- A file asks for the methods of its interfaces. -/
theorem filterMap_asked_typeFacts (h : Readable s root) :
    (typeFacts s root).found.filterMap TypeFact.asked? =
      (interfacesIn s root).flatMap fun e =>
        asking e.1 ((methodsAsked s e.2).map fun m => methodSignature m.1 m.2) := by
  rw [typeFacts, Trail.found_each (failure_typeFacts h), List.filterMap_flatMap, interfacesIn, List.flatMap_assoc]
  refine List.flatMap_congr fun c hc => ?_
  have hc : Readable s c := h.part hc
  by_cases htype : c.kind = "type_declaration"
  · rw [if_pos htype, if_pos htype, Trail.append_of_failure_none _ _ (failure_structFacts hc),
      List.filterMap_append, List.filterMap_eq_nil_iff.mpr fun f hf => (silent_of_mem_structFacts hf).1,
      List.nil_append, filterMap_asked_interfaceFacts hc]
  -- Functions and methods tell nothing about interfaces.
  rw [if_neg htype, if_neg htype, List.flatMap_nil, List.filterMap_eq_nil_iff]
  intro f hf
  split at hf
  · exact (silent_of_mem_functionFacts hf).1
  split at hf
  · rcases Trail.mem_found_append hf with hf | hf
    · exact (silent_of_mem_methodFacts hf).1
    · exact asked_of_mem_receiverFacts hf
  · cases hf

/-- A file gives its methods to their receivers. -/
theorem filterMap_had_typeFacts (h : Readable s root) :
    (typeFacts s root).found.filterMap TypeFact.had? =
      (methodsIn s root).map fun m => (m.1, methodSignature m.2.1 m.2.2) := by
  rw [typeFacts, Trail.found_each (failure_typeFacts h), List.filterMap_flatMap, methodsIn,
    List.map_filterMap, List.filterMap_eq_flatMap_toList]
  refine List.flatMap_congr fun c hc => ?_
  have hc : Readable s c := h.part hc
  by_cases hmethod : c.kind = "method_declaration"
  · rw [if_neg (by rw [hmethod]; decide), if_neg (by rw [hmethod]; decide), if_pos hmethod, if_pos hmethod,
      Trail.append_of_failure_none _ _ (Trail.failure_ofExcept (isOk_methodFacts hc)), List.filterMap_append,
      List.filterMap_eq_nil_iff.mpr fun f hf => (silent_of_mem_methodFacts hf).2, List.nil_append,
      filterMap_had_receiverFacts hc]
  rw [if_neg hmethod, if_neg hmethod, Option.map_none, Option.toList_none, List.filterMap_eq_nil_iff]
  intro f hf
  split at hf
  · rcases Trail.mem_found_append hf with hf | hf
    · exact (silent_of_mem_structFacts hf).2
    · exact had_of_mem_interfaceFacts hf
  split at hf
  · exact (silent_of_mem_functionFacts hf).2
  · cases hf

/-- What is found of methods is what the facts tell. -/
theorem findings_methodSets (h : Readable s root) :
    (findings s root).interfaces = (TypeContext.ofFacts (typeFacts s root).found).interfaces ∧
      (findings s root).structs = (TypeContext.ofFacts (typeFacts s root).found).structs := by
  obtain ⟨names, hnames⟩ := exists_of_isOk (isOk_imports h)
  simp only [findings, hnames, failure_declarations h, Option.isSome_none, Bool.false_eq_true, if_false, and_self]

/-- An interface asks for the methods in its last declaration. -/
theorem mem_recorded_interfaces_iff (h : Readable s root) :
    signature ∈ recorded (findings s root).interfaces i ↔
      ∃ body, (interfacesIn s root).reverse.lookup i = some body ∧
        ∃ m ∈ methodsAsked s body, methodSignature m.1 m.2 = signature := by
  rw [(findings_methodSets h).1, TypeContext.ofFacts, interfaces_foldl_note, filterMap_asked_typeFacts h,
    recorded, get?_foldl_asking fun body => (methodsAsked s body).map fun m => methodSignature m.1 m.2]
  cases (interfacesIn s root).reverse.lookup i with
  | none => simp
  | some body => simp [mem_foldl_addTo]

/-- A receiver type has the methods that are declared with it. -/
theorem mem_recorded_structs_iff (h : Readable s root) :
    signature ∈ recorded (findings s root).structs r ↔
      ∃ method l, (r, method, l) ∈ methodsIn s root ∧ methodSignature method l = signature := by
  rw [(findings_methodSets h).2, TypeContext.ofFacts, mem_recorded_foldl_note, filterMap_had_typeFacts h]
  have hempty : signature ∉ recorded (.empty : Keyed (List String)) r := List.not_mem_nil
  refine (or_iff_right hempty).trans ?_
  constructor
  · intro hmem
    obtain ⟨⟨r, method, l⟩, hm, heq⟩ := List.mem_map.mp hmem
    cases heq
    exact ⟨method, l, hm, rfl⟩
  · rintro ⟨method, l, hm, rfl⟩
    exact List.mem_map.mpr ⟨(r, method, l), hm, rfl⟩

end Tree

/-- Two methods of one name with equally many parameters are recorded alike exactly if equally many of their
names share a declaration. -/
theorem recorded_alike_iff_shared_alike (h : Readable s root) :
    (∀ i signature, signature ∈ recorded (findings s root).interfaces i ↔
      ∃ body, (interfacesIn s root).reverse.lookup i = some body ∧
        ∃ m ∈ methodsAsked s body, methodSignature m.1 m.2 = signature) ∧
    (∀ r signature, signature ∈ recorded (findings s root).structs r ↔
      ∃ method l, (r, method, l) ∈ methodsIn s root ∧ methodSignature method l = signature) ∧
    ∀ method l l', parameterCount (declarationsIn l) = parameterCount (declarationsIn l') →
      (methodSignature method l = methodSignature method l' ↔
        sharedCount (declarationsIn l) = sharedCount (declarationsIn l')) := by
  refine ⟨fun i signature => mem_recorded_interfaces_iff h, fun r signature => mem_recorded_structs_iff h,
    fun method l l' hcount => ?_⟩
  rw [parameterCount_eq, parameterCount_eq] at hcount
  rw [methodSignature_eq_iff]
  omega

/-- The source of a file with an interface that asks for two methods and a structure that has them. -/
def sharing : Source :=
  Source.of ("package m\n\ntype I interface \x7b\n\tA(a, b int)\n\tB(int)\n\x7d\n\ntype S struct\x7b\x7d\n\n" ++
    "func (s S) A(a int, b int) \x7b\x7d\n\nfunc (s S) B(a int) \x7b\x7d\n") "/r/m.go" (some "/r")

/-- The tree of that file. -/
def sharingTree : Tree :=
  .node "source_file" 0 125 [
    .node "package_clause" 0 9 [.sign "package" 0 7, .leaf "package_identifier" 8 9],
    .node "type_declaration" 11 52 [
      .sign "type" 11 15,
      .node "type_spec" 16 52 [
        .leaf "type_identifier" 16 17,
        .node "interface_type" 18 52 [
          .sign "interface" 18 27, .sign "\x7b" 28 29,
          .node "method_elem" 31 42 [
            .leaf "field_identifier" 31 32,
            .round "parameter_list" 32 42 [.node "parameter_declaration" 33 41 [
              .leaf "identifier" 33 34, .sign "," 34 35, .leaf "identifier" 36 37,
              .leaf "type_identifier" 38 41]]],
          .node "method_elem" 44 50 [
            .leaf "field_identifier" 44 45,
            .round "parameter_list" 45 50 [.node "parameter_declaration" 46 49 [.leaf "type_identifier" 46 49]]],
          .sign "\x7d" 51 52]]],
    .node "type_declaration" 54 69 [
      .sign "type" 54 58,
      .node "type_spec" 59 69 [
        .leaf "type_identifier" 59 60,
        .node "struct_type" 61 69 [.sign "struct" 61 67, .curly "field_declaration_list" 67 69 []]]],
    .node "method_declaration" 71 100 [
      .sign "func" 71 75,
      .round "parameter_list" 76 81 [
        .node "parameter_declaration" 77 80 [.leaf "identifier" 77 78, .leaf "type_identifier" 79 80]],
      .leaf "field_identifier" 82 83,
      .round "parameter_list" 83 97 [
        .node "parameter_declaration" 84 89 [.leaf "identifier" 84 85, .leaf "type_identifier" 86 89],
        .sign "," 89 90,
        .node "parameter_declaration" 91 96 [.leaf "identifier" 91 92, .leaf "type_identifier" 93 96]],
      .curly "block" 98 100 []],
    .node "method_declaration" 102 124 [
      .sign "func" 102 106,
      .round "parameter_list" 107 112 [
        .node "parameter_declaration" 108 111 [.leaf "identifier" 108 109, .leaf "type_identifier" 110 111]],
      .leaf "field_identifier" 113 114,
      .round "parameter_list" 114 121 [
        .node "parameter_declaration" 115 120 [.leaf "identifier" 115 116, .leaf "type_identifier" 117 120]],
      .curly "block" 122 124 []]]

/-- A parameter without a name is recorded as one with a name is. -/
theorem unnamed_parameter_recorded_alike :
    Readable sharing (Cursor.ofTree sharingTree) ∧
    ∃ body ∈ (interfacesIn sharing (Cursor.ofTree sharingTree)).reverse.lookup "I",
    ∃ l l', ("B", l) ∈ methodsAsked sharing body ∧
      ("S", "B", l') ∈ methodsIn sharing (Cursor.ofTree sharingTree) ∧
      methodSignature "B" l ∈ recorded (findings sharing (Cursor.ofTree sharingTree)).interfaces "I" ∧
      methodSignature "B" l' ∈ recorded (findings sharing (Cursor.ofTree sharingTree)).structs "S" ∧
      methodSignature "B" l = methodSignature "B" l' := by
  have hread : Readable sharing (Cursor.ofTree sharingTree) := by decide +kernel
  obtain ⟨body, hbody, ⟨_, l⟩, hm, ⟨_, _, l'⟩, hm', rfl, rfl, rfl, hcount, hshared⟩ :
      ∃ body ∈ (interfacesIn sharing (Cursor.ofTree sharingTree)).reverse.lookup "I",
      ∃ m ∈ methodsAsked sharing body, ∃ m' ∈ methodsIn sharing (Cursor.ofTree sharingTree),
        m.1 = "B" ∧ m'.1 = "S" ∧ m'.2.1 = "B" ∧
        parameterCount (declarationsIn m.2) = parameterCount (declarationsIn m'.2.2) ∧
        sharedCount (declarationsIn m.2) = sharedCount (declarationsIn m'.2.2) := by
    decide +kernel
  obtain ⟨hinterfaces, hstructs, halike⟩ := recorded_alike_iff_shared_alike hread
  exact ⟨hread, body, hbody, l, l', hm, hm', (hinterfaces _ _).mpr ⟨body, hbody, _, hm, rfl⟩,
    (hstructs _ _).mpr ⟨_, _, hm', rfl⟩, (halike _ l l' hcount).mpr hshared⟩

/-- Two parameters that share a declaration are not recorded as two with a declaration each are. -/
theorem shared_declaration_recorded_otherwise :
    Readable sharing (Cursor.ofTree sharingTree) ∧
    ∃ body ∈ (interfacesIn sharing (Cursor.ofTree sharingTree)).reverse.lookup "I",
    ∃ m ∈ methodsAsked sharing body, ∃ m' ∈ methodsIn sharing (Cursor.ofTree sharingTree),
      m.1 = "A" ∧ m'.1 = "S" ∧ m'.2.1 = "A" ∧
      parameterCount (declarationsIn m.2) = parameterCount (declarationsIn m'.2.2) ∧
      methodSignature m.1 m.2 ∈ recorded (findings sharing (Cursor.ofTree sharingTree)).interfaces "I" ∧
      methodSignature m'.2.1 m'.2.2 ∈ recorded (findings sharing (Cursor.ofTree sharingTree)).structs "S" ∧
      methodSignature m.1 m.2 = "A#1" ∧ methodSignature m'.2.1 m'.2.2 = "A#2" := by
  decide +kernel

end RepoAtlas.Extract.Go
