import RepoAtlas.Proofs.Extract.TopLevel
import RepoAtlas.Proofs.Syntax.Distinct

/-!
# The last definition of a name

Walks through a TypeScript file visit every node at most 500 levels below their start, once and in preorder. Type
names are found in that order, and a name of a file stands for the entity of the last visited node that defines it.
-/

namespace RepoAtlas.Extract.TypeScript

open Syntax

variable {s : Source} {root c : Cursor} {e : Entity} {es : Entities} {name : String}

/-- A node defines a name if it declares an entity with that name, which is not empty. -/
def Defines (s : Source) (c : Cursor) (name : String) (e : Entity) : Prop :=
  entityAt s c = .ok (some e) ∧ e.name = name ∧ name ≠ ""

/-- An entity is what the last of several nodes to define a name defines. -/
def LastDefined (s : Source) (nodes : List Cursor) (name : String) (e : Entity) : Prop :=
  ∃ before c after, nodes = before ++ c :: after ∧ Defines s c name e ∧
    ∀ d ∈ after, ∀ e', ¬Defines s d name e'

/-- An entity is found if it can be read. -/
theorem entity?_eq_some_iff : entity? s c = some e ↔ entityAt s c = .ok (some e) := by
  rw [entity?]
  cases entityAt s c <;> simp [Except.toOption]

/-- A node defines a name if its entity has it. -/
theorem exists_defines_iff (hname : name ≠ "") :
    (∃ e, Defines s c name e) ↔ (entity? s c).any (fun e => decide (name = e.name)) = true := by
  simp only [Option.any_eq_true, entity?_eq_some_iff, decide_eq_true_iff, Defines, hname, ne_eq, not_false_iff,
    and_true, @eq_comm _ name]

/-- The last entity of a name is what is defined last. -/
theorem lastEntity?_eq_some_iff (hname : name ≠ "") :
    lastEntity? s root name = some e ↔ LastDefined s (root.within depthLimit) name e := by
  rw [lastEntity?, ← List.filterMap_reverse, List.find?_filterMap, Option.bind_eq_some_iff]
  -- The search runs backwards: what it passes over stands after what it finds.
  constructor
  · rintro ⟨c, hfind, he⟩
    obtain ⟨hc, later, earlier, hnodes, hlater⟩ := List.find?_eq_some_iff_append.mp hfind
    obtain ⟨e', hown⟩ := (exists_defines_iff hname).mpr hc
    obtain rfl : e' = e := Option.some.inj ((entity?_eq_some_iff.mpr hown.1).symm.trans he)
    refine ⟨earlier.reverse, c, later.reverse, ?_, hown, fun d hd e' hd' => ?_⟩
    · rw [← List.reverse_reverse (root.within depthLimit), hnodes]
      simp
    · have hnone := hlater d (List.mem_reverse.mp hd)
      rw [(exists_defines_iff hname).mp ⟨e', hd'⟩] at hnone
      cases hnone
  · rintro ⟨before, c, after, hnodes, hown, hafter⟩
    refine ⟨c, List.find?_eq_some_iff_append.mpr ⟨(exists_defines_iff hname).mp ⟨e, hown⟩, after.reverse,
      before.reverse, by simp [hnodes], fun d hd => ?_⟩, entity?_eq_some_iff.mpr hown.1⟩
    rw [Bool.not_eq_true', Bool.eq_false_iff, ne_eq, ← exists_defines_iff hname, not_exists]
    exact hafter d (List.mem_reverse.mp hd)

/-- The entities of a tree can be told exactly if those of all visited nodes can. -/
theorem isOk_entities_iff :
    (entities s root).isOk = true ↔ ∀ c ∈ root.within depthLimit, (entityAt s c).isOk = true := by
  constructor
  · intro h c hc
    obtain ⟨es, hes⟩ := exists_of_isOk h
    obtain ⟨all, hall, -⟩ := bind_eq_ok.mp hes
    rw [entityList, Cursor.walked_eq_within] at hall
    obtain ⟨found, hfound, -⟩ := subset_of_collect hall hc
    obtain ⟨e?, he, -⟩ := bind_eq_ok.mp hfound
    rw [he]
    rfl
  · intro h
    obtain ⟨es, hes, -⟩ := exists_entities h
    rw [hes]
    rfl

/-- A file keeps what is defined last. -/
theorem get?_entities_iff (h : entities s root = .ok es) :
    es.get? name = some e ↔ LastDefined s (root.within depthLimit) name e := by
  obtain ⟨es', hes, hlast, hkeys⟩ := exists_entities (isOk_entities_iff.mp (by rw [h]; rfl))
  obtain rfl : es' = es := Except.ok.inj (hes.symm.trans h)
  by_cases hname : name = ""
  · refine iff_of_false (fun hget => ?_) fun ⟨_, _, _, _, hdefines, _⟩ => hdefines.2.2 hname
    exact (hkeys name e (es'.get?_eq_some_iff.mp hget)).2 hname
  · rw [hlast name hname, lastEntity?_eq_some_iff hname]

/-- Every walk visits the nodes at most 500 levels below its start, in preorder and each once. A name has the
entity of the last visited node that defines it, if the entities of all of them can be told. -/
theorem walks_in_preorder_last_definition_kept (s : Source) (c : Cursor) :
    c.within 500 = (c.preorder.filter fun d => d.ancestors.length ≤ c.ancestors.length + 500) ∧
    (c.within 500).Nodup ∧
    (∀ (α : Type) (pass : α → Cursor → α) (start : α),
      (c.walk pass start depthLimit).map (·.node) = c.within 500) ∧
    typeIdentifiers c = (c.within 500).filter (·.kind = "type_identifier") ∧
    ((entities s c).isOk = true ↔ ∀ d ∈ c.within 500, (entityAt s d).isOk = true) ∧
    (c.parent = none → Readable s c → (entities s c).isOk = true) ∧
    ∀ es, entities s c = .ok es → ∀ name e, es.get? name = some e ↔ LastDefined s (c.within 500) name e := by
  refine ⟨Cursor.within_eq_filter 500 c, Cursor.nodup_within 500 c,
    fun α pass start => Cursor.map_node_walk pass start 500 c,
    congrArg (List.filter _) (Cursor.walked_eq_within 500 c), isOk_entities_iff, fun hroot hread => ?_,
    fun es hes name e => get?_entities_iff hes⟩
  exact isOk_entities_iff.mpr fun _ => isOk_entityAt_of_mem_within hroot hread

/-- The name of a function and of a constant further down stands for what declares the constant. -/
theorem declarator_is_last_definition :
    Readable localAfter (Cursor.ofTree localAfterTree) ∧
    ∃ es e, entities localAfter (Cursor.ofTree localAfterTree) = .ok es ∧ es.get? "f" = some e ∧
      e.node.kind = "variable_declarator" := by
  have hread : Readable localAfter (Cursor.ofTree localAfterTree) := by decide +kernel
  obtain ⟨-, -, -, -, -, hreturns, hlast⟩ :=
    walks_in_preorder_last_definition_kept localAfter (Cursor.ofTree localAfterTree)
  obtain ⟨es, hes⟩ := exists_of_isOk (hreturns rfl hread)
  have hnode : (lastEntity? localAfter (Cursor.ofTree localAfterTree) "f").map (·.node.kind) =
      some "variable_declarator" := by
    decide +kernel
  obtain ⟨e, he, hkind⟩ := Option.map_eq_some_iff.mp hnode
  exact ⟨hread, es, e, hes, (hlast es hes "f" e).mpr ((lastEntity?_eq_some_iff (by decide)).mp he), hkind⟩

end RepoAtlas.Extract.TypeScript
