import RepoAtlas.Proofs.Extract.Origin
import RepoAtlas.Proofs.Syntax.Walk

/-!
# Trees that can be read

A tree can be read if no node of it ends inside a character. Reading the texts of such a tree succeeds, and
so does a walk that reads nothing else.
-/

namespace RepoAtlas.Extract

open Syntax

variable {ε α β : Type} {s : Source} {root c d : Cursor} {nodes : List Cursor} {f : Cursor → Except Fault (List α)}

/-- All nodes below and including a node have a text. -/
def Readable (s : Source) (c : Cursor) : Prop :=
  ∀ d ∈ c.preorder, (s.text d).isOk = true

instance (s : Source) (c : Cursor) : Decidable (Readable s c) :=
  inferInstanceAs (Decidable (∀ d ∈ c.preorder, (s.text d).isOk = true))

/-- What is below a readable node is readable. -/
theorem Readable.below (h : Readable s c) (hd : d ∈ c.preorder) : Readable s d :=
  fun e he => h e (Cursor.preorder_subset hd he)

/-- A readable node has a text. -/
theorem Readable.text (h : Readable s c) : (s.text c).isOk = true :=
  h c c.self_mem_preorder

/-- Its parts are readable. -/
theorem Readable.part (h : Readable s c) (hd : d ∈ c.children) : Readable s d :=
  h.below (Cursor.mem_preorder_of_mem_children c.self_mem_preorder hd)

/-- So is a part of a kind. -/
theorem Readable.child? (h : Readable s c) {kind : String} (hd : c.child? kind = some d) : Readable s d :=
  h.part (List.mem_of_find?_eq_some hd)

/-- So are chosen parts. -/
theorem Readable.filtered (h : Readable s c) (p : Cursor → Bool) : ∀ d ∈ c.children.filter p, Readable s d :=
  fun _ hd => h.part (List.mem_filter.mp hd).1

/-- So is one of two kinds. -/
theorem Readable.either (h : Readable s c) {first second : String}
    (hd : ((c.child? first).orElse fun _ => c.child? second) = some d) : Readable s d := by
  cases hfirst : c.child? first with
  | none =>
    rw [hfirst] at hd
    exact h.child? hd
  | some d' =>
    rw [hfirst] at hd
    exact Option.some.inj hd ▸ h.child? hfirst

/-- A computation in two steps succeeds if the first one does, and the second one with its value. -/
theorem isOk_bind {x : Except ε α} {f : α → Except ε β} (hx : x.isOk = true)
    (hf : ∀ a, x = .ok a → (f a).isOk = true) : (x >>= f).isOk = true := by
  obtain ⟨a, rfl⟩ := exists_of_isOk hx
  exact hf a rfl

/-- Changing a result keeps the success. -/
theorem isOk_map {x : Except ε α} {f : α → β} (hx : x.isOk = true) : (x.map f).isOk = true := by
  obtain ⟨a, rfl⟩ := exists_of_isOk hx
  rfl

/-- The text of a node that may be missing is read. -/
theorem isOk_text? {o : Option Cursor} (h : ∀ c ∈ o, Readable s c) : (s.text? o).isOk = true := by
  cases o with
  | none => rfl
  | some c => exact isOk_map (h c rfl).text

/-- What succeeds everywhere is collected. -/
theorem collect_eq_ok (h : ∀ c ∈ nodes, (f c).isOk = true) :
    collect nodes f = .ok (nodes.flatMap fun c => (f c).toOption.getD []) := by
  induction nodes with
  | nil => rfl
  | cons c nodes ih =>
    obtain ⟨here, hhere⟩ := exists_of_isOk (h c List.mem_cons_self)
    rw [collect, ih fun d hd => h d (List.mem_cons_of_mem c hd), List.flatMap_cons, hhere]
    rfl

/-- A walk succeeds if it does at every node. -/
theorem isOk_collect (h : ∀ c ∈ nodes, (f c).isOk = true) : (collect nodes f).isOk = true := by
  rw [collect_eq_ok h]
  rfl

/-- A walk collects, in order, what is seen of the results at the nodes. -/
theorem exists_collect (view : α → β) (seen : Cursor → List β)
    (h : ∀ c ∈ nodes, ∃ found, f c = .ok found ∧ found.map view = seen c) :
    ∃ all, collect nodes f = .ok all ∧ all.map view = nodes.flatMap seen := by
  induction nodes with
  | nil => exact ⟨[], rfl, rfl⟩
  | cons c nodes ih =>
    obtain ⟨found, hfound, hseen⟩ := h c List.mem_cons_self
    obtain ⟨rest, hrest, hall⟩ := ih fun d hd => h d (List.mem_cons_of_mem c hd)
    refine ⟨found ++ rest, ?_, ?_⟩
    · rw [collect, hfound, hrest]
      rfl
    · rw [List.map_append, hseen, hall, List.flatMap_cons]

/-- The texts of readable nodes are collected. -/
theorem isOk_collect_text (h : ∀ c ∈ nodes, Readable s c) :
    (collect nodes fun c => do .ok [← s.text c]).isOk = true :=
  isOk_collect fun c hc => isOk_bind (h c hc).text fun _ _ => rfl

/-- A search that succeeds everywhere succeeds. -/
theorem isOk_firstOf {f : Cursor → Except Fault (Option α)} (h : ∀ c ∈ nodes, (f c).isOk = true) :
    (firstOf nodes f).isOk = true := by
  induction nodes with
  | nil => rfl
  | cons c nodes ih =>
    rw [firstOf]
    refine isOk_bind (h c List.mem_cons_self) fun found _ => ?_
    split
    · rfl
    · exact ih fun d hd => h d (List.mem_cons_of_mem c hd)

end RepoAtlas.Extract

namespace RepoAtlas.Syntax.Trail

variable {ε α β : Type}

/-- A success leaves no failure. -/
theorem failure_ofExcept {x : Except ε (List α)} (h : x.isOk = true) : (ofExcept x).failure = Option.none := by
  obtain ⟨as, rfl⟩ := Extract.exists_of_isOk h
  rfl

/-- Trails without failures are joined to one without a failure. -/
theorem failure_append {s t : Trail ε α} (hs : s.failure = Option.none) (ht : t.failure = Option.none) :
    (s ++ t).failure = Option.none := by
  change (append s t).failure = Option.none
  rw [append, hs]
  exact ht

/-- Trails without failure have none together. -/
theorem failure_each {xs : List β} {f : β → Trail ε α} (h : ∀ b ∈ xs, (f b).failure = Option.none) :
    (each xs f).failure = Option.none := by
  induction xs with
  | nil => rfl
  | cons b xs ih =>
    rw [each_cons]
    exact failure_append (h b List.mem_cons_self) (ih fun c hc => h c (List.mem_cons_of_mem b hc))

/-- Trails that list what they find list it together. -/
theorem each_eq_many {xs : List β} {f : β → Trail ε α} {g : β → List α} (h : ∀ b ∈ xs, f b = many (g b)) :
    each xs f = many (xs.flatMap g) := by
  induction xs with
  | nil => rfl
  | cons b xs ih =>
    rw [each_cons, h b List.mem_cons_self, ih fun c hc => h c (List.mem_cons_of_mem b hc)]
    rfl

/-- What goes on with the value of a computation that succeeds does not fail if it does not with the value. -/
theorem failure_given {x : Except ε β} {f : β → Trail ε α} (hx : x.isOk = true)
    (hf : ∀ b, x = .ok b → (f b).failure = Option.none) : (given x f).failure = Option.none := by
  obtain ⟨b, rfl⟩ := Extract.exists_of_isOk hx
  exact hf b rfl

end RepoAtlas.Syntax.Trail
