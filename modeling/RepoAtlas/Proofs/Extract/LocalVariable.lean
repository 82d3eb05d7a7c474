import RepoAtlas.Extract.Java
import RepoAtlas.Proofs.Extract.Origin
import RepoAtlas.Proofs.Syntax.Walk

/-!
# Local variables in Java files

The type of a local variable is the first that a declaration in the blocks of the method names, wherever the
call stands. A declaration of the variable that names no type ends the search of its block.
-/

namespace RepoAtlas.Extract.Java

open Syntax

variable {s : Source} {name type : String} {c d D method : Cursor}

/-! ## Declarations apart from their place -/

/-- Texts depend on trees only. -/
theorem text?_congr {o o' : Option Cursor} (h : o.map (·.tree) = o'.map (·.tree)) : s.text? o = s.text? o' := by
  obtain ⟨rfl, rfl⟩ | ⟨a, b, rfl, rfl, htree⟩ := Cursor.eq_none_or_exists_of_map_tree h
  · rfl
  · rw [Source.text?, Source.text?, Source.text, Source.text, htree]

/-- So do names of types. -/
theorem typeName_congr (h : c.tree = d.tree) : typeName s c = typeName s d := by
  have hkind : c.kind = d.kind := congrArg Tree.kind h
  rw [typeName, typeName, hkind, Source.text, Source.text, h, text?_congr (Cursor.map_tree_child? h "type_identifier")]

/-- So do declared types. -/
theorem declaredType_congr (h : c.tree = d.tree) : declaredType s name c = declaredType s name d := by
  have htype := Cursor.map_tree_getLast? h isTypeNode
  have hdeclarator := Cursor.map_tree_getLast? h (· = "variable_declarator")
  simp only [declaredType]
  generalize (c.children.filter fun e => isTypeNode e.kind).getLast? = type at htype ⊢
  generalize (d.children.filter fun e => isTypeNode e.kind).getLast? = type' at htype ⊢
  generalize (c.children.filter fun e => e.kind = "variable_declarator").getLast? = declarator at hdeclarator ⊢
  generalize (d.children.filter fun e => e.kind = "variable_declarator").getLast? = declarator' at hdeclarator ⊢
  have hname : (declarator.bind (·.child? "identifier")).map (·.tree) =
      (declarator'.bind (·.child? "identifier")).map (·.tree) := by
    obtain ⟨rfl, rfl⟩ | ⟨a, b, rfl, rfl, htree⟩ := Cursor.eq_none_or_exists_of_map_tree hdeclarator
    · rfl
    · exact Cursor.map_tree_child? htree "identifier"
  obtain ⟨hn, hn'⟩ | ⟨n, n', hn, hn', hnames⟩ := Cursor.eq_none_or_exists_of_map_tree hname
  · rw [hn, hn']
  · rw [hn, hn']
    obtain ⟨rfl, rfl⟩ | ⟨a, b, rfl, rfl, htypes⟩ := Cursor.eq_none_or_exists_of_map_tree htype
    · rfl
    · have hread : s.text n = s.text n' := congrArg s.textOf hnames
      simp only [hread, typeName_congr htypes]

/-! ## The declarations that a search comes to -/

/-- The type that a declaration offers for a variable: it declares the variable and names a type. -/
def offered (s : Source) (name : String) (c : Cursor) : Except Fault (Option String) :=
  (declaredType s name c).map fun type => nonEmpty type.join

/-- So does what is offered. -/
theorem offered_congr (h : c.tree = d.tree) : offered s name c = offered s name d := by
  rw [offered, offered, declaredType_congr h]

/-- Whether a tree is a declaration of a local variable that names no type. -/
def untyped (s : Source) (name : String) (t : Tree) : Bool :=
  t.kind = "local_variable_declaration" &&
    (declaredType s name (Cursor.ofTree t)).toOption.join.any fun type => (nonEmpty type).isNone

/-- Whether a node comes after a declaration of the variable, in the same block, that names no type. -/
def hidden (s : Source) (name : String) (c : Cursor) : Bool :=
  c.earlier.any (untyped s name)

/-- Whether a search goes from a node to its parts. -/
def descends (s : Source) (name : String) (reached : Bool) (c : Cursor) : Bool :=
  reached && c.kind = "block" && !hidden s name c

/-- The local declarations among nodes that a search comes to. -/
def declarationsIn (s : Source) (name : String) (es : List (Bool × Cursor)) : List Cursor :=
  (es.filter fun e => e.1 && e.2.kind = "local_variable_declaration" && !hidden s name e.2).map (·.2)

/-- The local declarations that a search for a variable in a method comes to, in document order: those inside
blocks, unless a declaration of the variable that names no type comes before them or a block around them. -/
def searched (s : Source) (name : String) (method : Cursor) : List Cursor :=
  (method.children.filter (·.kind = "block")).flatMap fun block =>
    declarationsIn s name (block.children.flatMap (Cursor.inherit (descends s name) true))

/-- The declarations in two lists are put together. -/
theorem declarationsIn_append (es fs : List (Bool × Cursor)) :
    declarationsIn s name (es ++ fs) = declarationsIn s name es ++ declarationsIn s name fs := by
  rw [declarationsIn, List.filter_append, List.map_append]
  rfl

/-- Among hidden nodes there are none. -/
theorem declarationsIn_of_hidden {es : List (Bool × Cursor)}
    (h : ∀ e ∈ es, e.1 = true → hidden s name e.2 = true) : declarationsIn s name es = [] := by
  rw [declarationsIn, List.filter_eq_nil_iff.mpr, List.map_nil]
  intro e he
  have hhidden := h e he
  cases hreached : e.1 with
  | false => simp
  | true => simp [hhidden hreached]

/-- Below a node from which the search does not go to the parts it comes to nothing. -/
theorem declarationsIn_inheritList_false (p : Cursor) (earlier ts : List Tree) :
    declarationsIn s name (Cursor.inheritList (descends s name) false (some p) earlier ts) = [] := by
  refine declarationsIn_of_hidden fun e he hreached => ?_
  have hfalse : e.1 = false := Cursor.forall_mem_inheritList (P := fun v _ => v = false)
    (fun v c hv d hd => by simp [descends, hv]) false p earlier ts (fun d hd => rfl) e he
  exact absurd (hreached.symm.trans hfalse) (by decide)

/-- After a declaration of the variable that names no type the search comes to nothing. -/
theorem declarationsIn_inheritList_hidden (p : Cursor) {earlier : List Tree} (ts : List Tree)
    (h : earlier.any (untyped s name) = true) :
    declarationsIn s name (Cursor.inheritList (descends s name) true (some p) earlier ts) = [] := by
  refine declarationsIn_of_hidden (Cursor.forall_mem_inheritList
    (P := fun v c => v = true → hidden s name c = true) (fun v c hv d hd hreached => ?_) true p earlier ts
    fun d hd _ => ?_)
  · simp only [descends, Bool.and_eq_true, Bool.not_eq_true'] at hreached
    exact absurd (hreached.2.symm.trans (hv hreached.1.1)) (by decide)
  · obtain ⟨t, ht, huntyped⟩ := List.any_eq_true.mp h
    exact List.any_eq_true.mpr ⟨t, Cursor.mem_earlier_of_mem_siblings hd ht, huntyped⟩

/-- The search goes through the first of several parts, and then through the others. -/
theorem declarationsIn_inheritList_cons (p : Cursor) {earlier : List Tree} (t : Tree) (ts : List Tree)
    (h : earlier.any (untyped s name) = false) :
    declarationsIn s name (Cursor.inheritList (descends s name) true (some p) earlier (t :: ts)) =
      (if t.kind = "local_variable_declaration" then [⟨t, earlier, some p⟩]
        else if t.kind = "block" then
          declarationsIn s name
            (Cursor.inheritList (descends s name) true (some ⟨t, earlier, some p⟩) [] t.children)
        else []) ++
      declarationsIn s name (Cursor.inheritList (descends s name) true (some p) (t :: earlier) ts) := by
  have hhere : hidden s name ⟨t, earlier, some p⟩ = false := h
  rw [Cursor.inheritList, declarationsIn_append]
  congr 1
  change declarationsIn s name (Cursor.inherit (descends s name) true ⟨t, earlier, some p⟩) = _
  rw [Cursor.inherit_eq_cons, ← List.singleton_append, declarationsIn_append]
  have hkind : (⟨t, earlier, some p⟩ : Cursor).kind = t.kind := rfl
  by_cases hlocal : t.kind = "local_variable_declaration"
  · rw [if_pos hlocal, show descends s name true ⟨t, earlier, some p⟩ = false by simp [descends, hkind, hlocal],
      declarationsIn_inheritList_false]
    simp [declarationsIn, hkind, hlocal, hhere]
  · rw [if_neg hlocal, show declarationsIn s name [(true, ⟨t, earlier, some p⟩)] = [] by
      simp [declarationsIn, hkind, hlocal], List.nil_append]
    by_cases hblock : t.kind = "block"
    · rw [if_pos hblock, show descends s name true ⟨t, earlier, some p⟩ = true by
        simp [descends, hkind, hblock, hhere]]
    · rw [if_neg hblock, show descends s name true ⟨t, earlier, some p⟩ = false by simp [descends, hkind, hblock],
        declarationsIn_inheritList_false]

/-- A search takes what a declaration offers, and ends if it declares the variable and offers nothing. -/
theorem map_searchParts_local {t : Tree} (ts : List Tree) (h : t.kind = "local_variable_declaration") :
    (searchParts s name (t :: ts)).map nonEmpty = (do
      match ← offered s name (Cursor.ofTree t) with
      | some type => .ok (some type)
      | none => if untyped s name t then .ok none else (searchParts s name ts).map nonEmpty) := by
  rw [searchParts, if_pos h, offered]
  simp only [untyped, h, decide_true, Bool.true_and]
  rcases declaredType s name (Cursor.ofTree t) with fault | (_ | type)
  · rfl
  · rfl
  · change Except.ok (nonEmpty type) = (match nonEmpty type with | some type => _ | none => _)
    cases htype : nonEmpty type with
    | none => simp [Except.toOption, htype]
    | some type => rfl

mutual
/-- The search of a block finds the first type that a declaration it comes to offers. -/
theorem map_searchBlock (parent : Option Cursor) (earlier : List Tree) (t : Tree) :
    (searchBlock s name t).map nonEmpty =
      firstOf (declarationsIn s name
        (Cursor.inheritList (descends s name) true (some ⟨t, earlier, parent⟩) [] t.children)) (offered s name) := by
  obtain ⟨kind, named, start, stop, parts⟩ := t
  rw [searchBlock]
  exact map_searchParts _ [] parts rfl

/-- The search of the parts of a block finds the first type that a declaration it comes to offers. -/
theorem map_searchParts (p : Cursor) (earlier ts : List Tree) (h : earlier.any (untyped s name) = false) :
    (searchParts s name ts).map nonEmpty =
      firstOf (declarationsIn s name (Cursor.inheritList (descends s name) true (some p) earlier ts))
        (offered s name) := by
  cases ts with
  | nil =>
    rw [searchParts, Cursor.inheritList]
    rfl
  | cons t ts =>
    rw [declarationsIn_inheritList_cons p t ts h, firstOf_append]
    by_cases hlocal : t.kind = "local_variable_declaration"
    · rw [map_searchParts_local ts hlocal, if_pos hlocal, firstOf,
        offered_congr (show (⟨t, earlier, some p⟩ : Cursor).tree = (Cursor.ofTree t).tree from rfl)]
      rcases offered s name (Cursor.ofTree t) with fault | (_ | type)
      · rfl
      · cases huntyped : untyped s name t with
        | true =>
          have hhidden : (t :: earlier).any (untyped s name) = true := by simp [huntyped]
          rw [declarationsIn_inheritList_hidden p ts hhidden]
          rfl
        | false =>
          have hopen : (t :: earlier).any (untyped s name) = false := by simp [huntyped, h]
          exact map_searchParts p (t :: earlier) ts hopen
      · rfl
    · have hopen : (t :: earlier).any (untyped s name) = false := by simp [untyped, hlocal, h]
      rw [searchParts, if_neg hlocal, if_neg hlocal, ← map_searchParts p (t :: earlier) ts hopen]
      by_cases hblock : t.kind = "block"
      · rw [if_pos hblock, if_pos hblock, ← map_searchBlock (some p) earlier t]
        rcases searchBlock s name t with fault | type
        · rfl
        · cases htype : nonEmpty type with
          | none => simp [htype, bind, Except.bind, Except.map]
          | some found => simp [htype, bind, Except.bind, Except.map, nonEmpty_of_ne (ne_of_nonEmpty htype)]
      · rw [if_neg hblock, if_neg hblock]
        rfl
end

/-- The type of a local variable is the first that a declaration the search comes to offers. -/
theorem localType_eq (h : c.enclosing? ["method_declaration"] = some method) :
    localType s name c = firstOf (searched s name method) (offered s name) := by
  rw [localType, h]
  refine firstOf_flatMap fun block _ => ?_
  obtain ⟨tree, earlier, parent⟩ := block
  rw [Cursor.children, ← Cursor.inheritList_eq_flatMap]
  refine Eq.trans ?_ (map_searchBlock parent earlier tree)
  cases searchBlock s name tree <;> rfl

/-- What the search comes to are declarations in blocks of the method. -/
theorem exists_block_of_mem_searched (h : d ∈ searched s name method) :
    d.kind = "local_variable_declaration" ∧ ∃ b ∈ method.preorder, b.kind = "block" ∧ d.parent = some b := by
  obtain ⟨block, hblock, hd⟩ := List.mem_flatMap.mp h
  obtain ⟨hblock, hkind⟩ := List.mem_filter.mp hblock
  obtain ⟨e, he, rfl⟩ := List.mem_map.mp hd
  obtain ⟨he, hlocal⟩ := List.mem_filter.mp he
  simp only [Bool.and_eq_true, decide_eq_true_eq] at hlocal
  obtain ⟨part, hpart, he⟩ := List.mem_flatMap.mp he
  have hmem := Cursor.mem_preorder_of_mem_children method.self_mem_preorder hblock
  refine ⟨hlocal.1.2, (Cursor.forall_mem_inherit (P := fun v c => c ∈ method.preorder ∧
    (v = true → ∃ b ∈ method.preorder, b.kind = "block" ∧ c.parent = some b))
    (fun v c hc d hd => ⟨Cursor.mem_preorder_of_mem_children hc.1 hd, fun hreached => ?_⟩)
    ⟨Cursor.mem_preorder_of_mem_children hmem hpart, fun _ => ?_⟩ e he).2 hlocal.1.1⟩
  · simp only [descends, Bool.and_eq_true, decide_eq_true_eq] at hreached
    exact ⟨c, hc.1, hreached.1.2, Cursor.parent_of_mem_siblings hd⟩
  · exact ⟨block, hmem, by simpa using hkind, Cursor.parent_of_mem_siblings hpart⟩

/-! ## Scope -/

/-- A declaration is in scope at a node: the block that contains it is around the node. -/
def InScope (d c : Cursor) : Prop :=
  ∃ b, d.parent = some b ∧ b ∈ c.ancestors

/-- A declaration offers a type for the variable. -/
def Offers (s : Source) (name : String) (d : Cursor) : Prop :=
  ∃ type, offered s name d = .ok (some type)

/-- A type is taken from a declaration: it is the first that the search in a method comes to which offers one. -/
def TakenFrom (s : Source) (name : String) (method d : Cursor) (type : String) : Prop :=
  ∃ before after, searched s name method = before ++ d :: after ∧ (∀ e ∈ before, offered s name e = .ok none) ∧
    offered s name d = .ok (some type)

/-- In a method no declaration that the search comes to offers a type. Outside of methods there are none. -/
def NoneOffers (s : Source) (name : String) (c : Cursor) : Prop :=
  ∀ method, c.enclosing? ["method_declaration"] = some method →
    ∀ d ∈ searched s name method, offered s name d = .ok none

/-- A local type is taken from the first declaration that offers one. -/
theorem localType_eq_some_iff :
    localType s name c = .ok (some type) ↔
      ∃ method d, c.enclosing? ["method_declaration"] = some method ∧ TakenFrom s name method d type := by
  cases h : c.enclosing? ["method_declaration"] with
  | none => simp [localType, h]
  | some method =>
    rw [localType_eq h, firstOf_eq_some_iff]
    constructor
    · rintro ⟨before, d, after, hsearched⟩
      exact ⟨method, d, rfl, before, after, hsearched⟩
    · rintro ⟨_, d, hmethod, before, after, hsearched⟩
      cases hmethod
      exact ⟨before, d, after, hsearched⟩

/-- There is none if no declaration offers one. -/
theorem localType_eq_none_iff : localType s name c = .ok none ↔ NoneOffers s name c := by
  cases h : c.enclosing? ["method_declaration"] with
  | none => simp [localType, NoneOffers, h]
  | some method => simp [localType_eq h, firstOf_eq_none_iff, NoneOffers, h]

/-- The declaration taken is in scope exactly if every one that is not comes after one that is. -/
theorem inScope_iff_of_takenFrom (h : TakenFrom s name method d type) :
    InScope d c ↔ ∀ before e after, searched s name method = before ++ e :: after → Offers s name e → ¬InScope e c →
      ∃ x ∈ before, Offers s name x ∧ InScope x c := by
  obtain ⟨front, back, hsearched, hfront, htype⟩ := h
  constructor
  · intro hd before e after heq ⟨t, ht⟩ he
    rw [hsearched, List.append_eq_append_iff] at heq
    rcases heq with ⟨between, rfl, heq⟩ | ⟨between, rfl, heq⟩
    · cases between with
      | nil =>
        obtain ⟨rfl, -⟩ := List.cons.inj heq
        exact absurd hd he
      | cons x between =>
        obtain ⟨rfl, -⟩ := List.cons.inj heq
        exact ⟨d, by simp, ⟨type, htype⟩, hd⟩
    · cases between with
      | nil =>
        obtain ⟨rfl, -⟩ := List.cons.inj heq
        exact absurd hd he
      | cons x between =>
        obtain ⟨rfl, -⟩ := List.cons.inj heq
        exact absurd (ht.symm.trans (hfront e (by simp))) (by simp)
  · intro h
    refine Classical.byContradiction fun hd => ?_
    obtain ⟨x, hx, ⟨t, ht⟩, -⟩ := h front d back hsearched ⟨type, htype⟩ hd
    exact absurd (ht.symm.trans (hfront x hx)) (by simp)

/-- The type of a variable is taken from a local declaration or, if none offers one, from a field. The
declaration is in scope exactly if every one that is not comes after one that is. -/
theorem local_declaration_in_scope_iff (s : Source) (name type : String) (c : Cursor) :
    (variableType s name c = .ok (some type) ↔
      (∃ method d, c.enclosing? ["method_declaration"] = some method ∧ TakenFrom s name method d type) ∨
        NoneOffers s name c ∧ fieldType s name c = .ok (some type)) ∧
    ∀ method d, c.enclosing? ["method_declaration"] = some method → TakenFrom s name method d type →
      (d.kind = "local_variable_declaration" ∧ ∃ b ∈ method.preorder, b.kind = "block" ∧ d.parent = some b) ∧
      (InScope d c ↔
        ∀ before e after, searched s name method = before ++ e :: after → Offers s name e → ¬InScope e c →
          ∃ x ∈ before, Offers s name x ∧ InScope x c) := by
  refine ⟨?_, fun method d _ hd => ⟨?_, inScope_iff_of_takenFrom hd⟩⟩
  · rw [← localType_eq_some_iff, ← localType_eq_none_iff, variableType]
    rcases localType s name c with fault | (_ | found) <;> simp [bind, Except.bind]
  · obtain ⟨before, after, hsearched, -⟩ := hd
    exact exists_block_of_mem_searched (hsearched ▸ List.mem_append_right before List.mem_cons_self)

/-- The source of a file where a variable in an inner block has the name of a field, with a call on either. -/
def innerBlock : Source :=
  Source.of ("class A \x7b\n  B x;\n  void f() \x7b\n    \x7b\n      C x = null;\n      x.g();\n    \x7d\n" ++
    "    x.g();\n  \x7d\n\x7d\n") "/r/m.java" (some "/r")

/-- The tree of that file. -/
def innerBlockTree : Tree :=
  .node "program" 0 90 [.node "class_declaration" 0 89 [
    .sign "class" 0 5, .leaf "identifier" 6 7,
    .curly "class_body" 8 89 [
      .node "field_declaration" 12 16 [
        .leaf "type_identifier" 12 13, .node "variable_declarator" 14 15 [.leaf "identifier" 14 15],
        .sign ";" 15 16],
      .node "method_declaration" 19 87 [
        .leaf "void_type" 19 23, .leaf "identifier" 24 25, .round "formal_parameters" 25 27 [],
        .curly "block" 28 87 [
          .curly "block" 34 72 [
            .node "local_variable_declaration" 42 53 [
              .leaf "type_identifier" 42 43,
              .node "variable_declarator" 44 52 [
                .leaf "identifier" 44 45, .sign "=" 46 47, .leaf "null_literal" 48 52],
              .sign ";" 52 53],
            .node "expression_statement" 60 66 [
              .node "method_invocation" 60 65 [
                .leaf "identifier" 60 61, .sign "." 61 62, .leaf "identifier" 62 63,
                .round "argument_list" 63 65 []],
              .sign ";" 65 66]],
          .node "expression_statement" 77 83 [
            .node "method_invocation" 77 82 [
              .leaf "identifier" 77 78, .sign "." 78 79, .leaf "identifier" 79 80,
              .round "argument_list" 80 82 []],
            .sign ";" 82 83]]]]]]

/-- At the call in the inner block the variable has the type of the declaration there, which is in scope. -/
theorem inner_call_in_scope :
    ∃ c ∈ (Cursor.ofTree innerBlockTree).preorder, c.kind = "method_invocation" ∧ innerBlock.startLine c = 6 ∧
      variableType innerBlock "x" c = .ok (some "C") ∧
      ∃ method d, c.enclosing? ["method_declaration"] = some method ∧ TakenFrom innerBlock "x" method d "C" ∧
        InScope d c := by
  obtain ⟨c, hc, hkind, hline, hlocal, method, hmethod, hparents, b, hb, hstart⟩ :
      ∃ c ∈ (Cursor.ofTree innerBlockTree).preorder, c.kind = "method_invocation" ∧ innerBlock.startLine c = 6 ∧
        (localType innerBlock "x" c).toOption = some (some "C") ∧
        ∃ method ∈ c.enclosing? ["method_declaration"],
          (∀ e ∈ searched innerBlock "x" method, ∀ a ∈ e.parent, a.tree.start = 34) ∧
          ∃ b ∈ c.ancestors, b.kind = "block" ∧ b.tree.start = 34 := by
    decide +kernel
  obtain ⟨method', d, hmethod', htaken⟩ := localType_eq_some_iff.mp (eq_ok_of_toOption hlocal)
  obtain rfl := Option.some.inj (hmethod.symm.trans hmethod')
  obtain ⟨hvariable, hscope⟩ := local_declaration_in_scope_iff innerBlock "x" "C" c
  refine ⟨c, hc, hkind, hline, hvariable.mpr (Or.inl ⟨method, d, hmethod, htaken⟩), method, d, hmethod, htaken, ?_⟩
  refine (hscope method d hmethod htaken).2.mpr fun before e after hsearched _ he => absurd ?_ he
  have he : e ∈ searched innerBlock "x" method := hsearched ▸ List.mem_append_right before List.mem_cons_self
  obtain ⟨-, a, ha, hblock, hparent⟩ := exists_block_of_mem_searched he
  -- There is but one block that begins at the place of the inner one.
  obtain ⟨x, hx⟩ := List.length_eq_one_iff.mp (by decide +kernel : ((Cursor.ofTree innerBlockTree).preorder.filter
    fun a => a.kind = "block" && a.tree.start = 34).length = 1)
  have hunique : ∀ a ∈ (Cursor.ofTree innerBlockTree).preorder, a.kind = "block" → a.tree.start = 34 → a = x := by
    intro a ha hblock hstart
    exact List.mem_singleton.mp (hx ▸ List.mem_filter.mpr ⟨ha, by simp [hblock, hstart]⟩)
  have hmem := Cursor.mem_preorder_of_mem_ancestors rfl hc (List.mem_of_find?_eq_some hmethod)
  have hinner := hunique a (Cursor.preorder_subset hmem ha) hblock (hparents e he a hparent)
  have haround := hunique b (Cursor.mem_preorder_of_mem_ancestors rfl hc hb) hstart.1 hstart.2
  exact ⟨a, hparent, (hinner.trans haround.symm) ▸ hb⟩

/-- Behind the inner block the variable still has the type of the declaration there, not that of the field. -/
theorem outer_call_out_of_scope :
    ∃ c ∈ (Cursor.ofTree innerBlockTree).preorder, c.kind = "method_invocation" ∧ innerBlock.startLine c = 8 ∧
      variableType innerBlock "x" c = .ok (some "C") ∧ fieldType innerBlock "x" c = .ok (some "B") ∧
      ∃ method d, c.enclosing? ["method_declaration"] = some method ∧ TakenFrom innerBlock "x" method d "C" ∧
        ¬InScope d c := by
  obtain ⟨c, hc, hkind, hline, ⟨hvariable, hfield⟩, method, hmethod, d, hd, htype, hparent, habove⟩ :
      ∃ c ∈ (Cursor.ofTree innerBlockTree).preorder, c.kind = "method_invocation" ∧ innerBlock.startLine c = 8 ∧
        ((variableType innerBlock "x" c).toOption = some (some "C") ∧
          (fieldType innerBlock "x" c).toOption = some (some "B")) ∧
        ∃ method ∈ c.enclosing? ["method_declaration"], ∃ d ∈ (searched innerBlock "x" method).head?,
          (offered innerBlock "x" d).toOption = some (some "C") ∧ (∀ a ∈ d.parent, a.tree.start = 34) ∧
          ∀ a ∈ c.ancestors, a.tree.start ≠ 34 := by
    decide +kernel
  obtain ⟨after, hsearched⟩ := List.head?_eq_some_iff.mp hd
  refine ⟨c, hc, hkind, hline, eq_ok_of_toOption hvariable, eq_ok_of_toOption hfield, method, d, hmethod,
    ⟨[], after, hsearched, by simp, eq_ok_of_toOption htype⟩, ?_⟩
  rintro ⟨a, ha, haround⟩
  exact habove a haround (hparent a ha)

end RepoAtlas.Extract.Java
