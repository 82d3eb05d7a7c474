import RepoAtlas.Extract.Declared

/-!
# Where results come from

A result that an analysis finds in many nodes is one that it finds at one of them. What holds of the
results at every node holds therefore of all results, whether a walk fails as a whole or keeps what it
has found.
-/

namespace RepoAtlas

namespace Extract

open Syntax

variable {ε α β : Type} {x : Except ε α} {a : α} {nodes : List Cursor} {f : Cursor → Except Fault (Option α)}
  {name : String}

/-- Two steps succeed if both do. -/
theorem bind_eq_ok {f : α → Except ε β} {b : β} : (x >>= f) = .ok b ↔ ∃ a, x = .ok a ∧ f a = .ok b := by
  cases x <;> simp [bind, Except.bind]

/-- What succeeds has a result. -/
theorem exists_of_isOk (h : x.isOk) : ∃ a, x = .ok a := by
  cases x with
  | error e => exact absurd h Bool.false_ne_true
  | ok a => exact ⟨a, rfl⟩

/-- What has a result succeeds. -/
theorem eq_ok_of_toOption (h : x.toOption = some a) : x = .ok a := by
  cases x with
  | error e => cases h
  | ok b => exact congrArg Except.ok (Option.some.inj h)

/-- What is told of a result is told of a success. -/
theorem exists_of_map_toOption {g : α → β} {b : β} (h : x.toOption.map g = some b) : ∃ a, x = .ok a ∧ g a = b := by
  obtain ⟨a, ha, hb⟩ := Option.map_eq_some_iff.mp h
  exact ⟨a, eq_ok_of_toOption ha, hb⟩

/-- What is collected comes from a node. -/
theorem exists_of_mem_collect {f : Cursor → Except Fault (List α)} {as : List α} (h : collect nodes f = .ok as)
    (ha : a ∈ as) : ∃ c ∈ nodes, ∃ found, f c = .ok found ∧ a ∈ found := by
  induction nodes generalizing as with
  | nil =>
    cases h
    cases ha
  | cons c nodes ih =>
    simp only [collect, bind_eq_ok] at h
    obtain ⟨here, hhere, rest, hrest, hall⟩ := h
    cases hall
    rcases List.mem_append.mp ha with ha | ha
    · exact ⟨c, List.mem_cons_self, here, hhere, ha⟩
    · obtain ⟨d, hd, hfound⟩ := ih hrest ha
      exact ⟨d, List.mem_cons_of_mem c hd, hfound⟩

/-- What comes from a node is collected. -/
theorem subset_of_collect {f : Cursor → Except Fault (List α)} {as : List α} {c : Cursor}
    (h : collect nodes f = .ok as) (hc : c ∈ nodes) : ∃ found, f c = .ok found ∧ ∀ a ∈ found, a ∈ as := by
  induction nodes generalizing as with
  | nil => cases hc
  | cons d nodes ih =>
    simp only [collect, bind_eq_ok] at h
    obtain ⟨here, hhere, rest, hrest, hall⟩ := h
    cases hall
    rcases List.mem_cons.mp hc with rfl | hc
    · exact ⟨here, hhere, fun a ha => List.mem_append_left rest ha⟩
    · obtain ⟨found, hfound, hsub⟩ := ih hrest hc
      exact ⟨found, hfound, fun a ha => List.mem_append_right here (hsub a ha)⟩

/-- What is found first is found at a node. -/
theorem exists_of_firstOf (h : firstOf nodes f = .ok (some a)) : ∃ c ∈ nodes, f c = .ok (some a) := by
  induction nodes with
  | nil => cases h
  | cons c nodes ih =>
    simp only [firstOf, bind_eq_ok] at h
    obtain ⟨here, hhere, h⟩ := h
    split at h
    · cases h
      exact ⟨c, List.mem_cons_self, hhere⟩
    · obtain ⟨d, hd, hgives⟩ := ih h
      exact ⟨d, List.mem_cons_of_mem c hd, hgives⟩

/-- Search goes on in the second list if nothing is in the first. -/
theorem firstOf_append (xs ys : List Cursor) (f : Cursor → Except Fault (Option α)) :
    firstOf (xs ++ ys) f = (do
      match ← firstOf xs f with
      | some a => .ok (some a)
      | none => firstOf ys f) := by
  induction xs with
  | nil => rfl
  | cons x xs ih =>
    rw [List.cons_append, firstOf, firstOf, ih]
    rcases f x with fault | (_ | a) <;> rfl

/-- A search among what nodes stand for may be made node by node. -/
theorem firstOf_flatMap {g : Cursor → Except Fault (Option α)} {h : Cursor → List Cursor}
    (hg : ∀ c ∈ nodes, g c = firstOf (h c) f) : firstOf nodes g = firstOf (nodes.flatMap h) f := by
  induction nodes with
  | nil => rfl
  | cons c nodes ih =>
    rw [List.flatMap_cons, firstOf_append, firstOf, hg c List.mem_cons_self]
    rcases firstOf (h c) f with fault | (_ | a)
    · rfl
    · exact ih fun d hd => hg d (List.mem_cons_of_mem c hd)
    · rfl

/-- A search finds what the first node gives that gives anything. -/
theorem firstOf_eq_some_iff :
    firstOf nodes f = .ok (some a) ↔
      ∃ before c after, nodes = before ++ c :: after ∧ (∀ d ∈ before, f d = .ok none) ∧ f c = .ok (some a) := by
  induction nodes with
  | nil => simp [firstOf]
  | cons c nodes ih =>
    rw [firstOf]
    constructor
    · intro h
      obtain ⟨here, hhere, h⟩ := bind_eq_ok.mp h
      cases here with
      | some b => exact ⟨[], c, nodes, rfl, by simp, hhere.trans h⟩
      | none =>
        obtain ⟨before, d, after, rfl, hbefore, hd⟩ := ih.mp h
        refine ⟨c :: before, d, after, rfl, fun e he => ?_, hd⟩
        rcases List.mem_cons.mp he with rfl | he
        · exact hhere
        · exact hbefore e he
    · rintro ⟨_ | ⟨b, before⟩, d, after, hnodes, hbefore, hd⟩
      · cases hnodes
        rw [hd]
        rfl
      · cases hnodes
        rw [hbefore c List.mem_cons_self]
        exact ih.mpr ⟨before, d, after, rfl, fun e he => hbefore e (List.mem_cons_of_mem c he), hd⟩

/-- Nothing is found if no node has anything. -/
theorem firstOf_eq_none_iff : firstOf nodes f = .ok none ↔ ∀ c ∈ nodes, f c = .ok none := by
  induction nodes with
  | nil => simp [firstOf]
  | cons c nodes ih =>
    rw [firstOf, List.forall_mem_cons, ← ih]
    constructor
    · intro h
      obtain ⟨here, hhere, h⟩ := bind_eq_ok.mp h
      cases here with
      | some b => cases h
      | none => exact ⟨hhere, h⟩
    · rintro ⟨hhere, hrest⟩
      rw [hhere]
      exact hrest

/-- A member of a list that is given only under a condition. -/
theorem mem_unless {p : Prop} [Decidable p] {b : α} (h : a ∈ if p then [] else [b]) : ¬p ∧ a = b := by
  split at h
  · cases h
  · rename_i hp
    exact ⟨hp, List.mem_singleton.mp h⟩

/-- A text is that of a node. -/
theorem text?_eq_some_iff {s : Source} {o : Option Cursor} :
    s.text? o = .ok (some name) ↔ ∃ n, o = some n ∧ s.text n = .ok name := by
  cases o with
  | none => simp [Source.text?]
  | some n => cases htext : s.text n <;> simp [Source.text?, htext, Except.map]

/-- A text that counts is the text that is there. -/
theorem eq_some_of_nonEmpty {t : Option String} (h : nonEmpty t = some name) : t = some name :=
  (Option.filter_eq_some_iff.mp h).1

/-- A text that is not empty stays. -/
theorem nonEmpty_of_ne (hne : name ≠ "") : nonEmpty (some name) = some name := by
  simp [nonEmpty, hne]

/-- What stays is not empty. -/
theorem ne_of_nonEmpty {t : Option String} (h : nonEmpty t = some name) :
    name ≠ "" := by
  obtain ⟨-, hne⟩ := Option.filter_eq_some_iff.mp h
  simpa using hne

end Extract

namespace Syntax.Trail

variable {ε α β : Type} {a : α}

/-- What two trails find is found in one of them. -/
theorem mem_found_append {s t : Trail ε α} (h : a ∈ (s ++ t).found) : a ∈ s.found ∨ a ∈ t.found := by
  change a ∈ (append s t).found at h
  unfold append at h
  split at h
  · exact Or.inl h
  · exact List.mem_append.mp h

/-- The first element leaves the first trail. -/
theorem each_cons (b : β) (xs : List β) (f : β → Trail ε α) : each (b :: xs) f = f b ++ each xs f :=
  rfl

/-- What is found is found at an element. -/
theorem exists_of_mem_each {xs : List β} {f : β → Trail ε α} (h : a ∈ (each xs f).found) :
    ∃ b ∈ xs, a ∈ (f b).found := by
  induction xs with
  | nil => cases h
  | cons b xs ih =>
    rw [each_cons] at h
    rcases mem_found_append h with h | h
    · exact ⟨b, List.mem_cons_self, h⟩
    · obtain ⟨c, hc, hfound⟩ := ih h
      exact ⟨c, List.mem_cons_of_mem b hc, hfound⟩

/-- Two trails without failure are put together. -/
theorem append_of_failure {s t : Trail ε α} (h : (s ++ t).failure = Option.none) :
    s.failure = Option.none ∧ t.failure = Option.none ∧ (s ++ t).found = s.found ++ t.found := by
  change (append s t).failure = Option.none at h
  unfold append at h
  split at h
  · cases h
  · rename_i hs
    exact ⟨hs, h, append_of_failure_none s t hs⟩

/-- Without failure all elements give what they find. -/
theorem subset_of_each {xs : List β} {f : β → Trail ε α} {b : β} (h : (each xs f).failure = Option.none)
    (hb : b ∈ xs) : (f b).failure = Option.none ∧ ∀ a ∈ (f b).found, a ∈ (each xs f).found := by
  induction xs with
  | nil => cases hb
  | cons c xs ih =>
    rw [each_cons] at h ⊢
    obtain ⟨hc, hxs, hfound⟩ := append_of_failure h
    rw [hfound]
    rcases List.mem_cons.mp hb with rfl | hb
    · exact ⟨hc, fun a ha => List.mem_append_left _ ha⟩
    · obtain ⟨hfailure, hsub⟩ := ih hxs hb
      exact ⟨hfailure, fun a ha => List.mem_append_right _ (hsub a ha)⟩

/-- Without failure all that is found is put together. -/
theorem found_each {xs : List β} {f : β → Trail ε α} (h : (each xs f).failure = Option.none) :
    (each xs f).found = xs.flatMap fun b => (f b).found := by
  induction xs with
  | nil => rfl
  | cons b xs ih =>
    rw [each_cons] at h ⊢
    obtain ⟨-, hxs, hfound⟩ := append_of_failure h
    rw [hfound, ih hxs, List.flatMap_cons]

/-- A trail without failure comes from a success. -/
theorem eq_ok_of_failure {x : Except ε (List α)} (h : (ofExcept x).failure = Option.none) :
    x = .ok (ofExcept x).found := by
  cases x with
  | error e => cases h
  | ok as => rfl

/-- What is found comes from a success. -/
theorem exists_of_mem_ofExcept {x : Except ε (List α)} (h : a ∈ (ofExcept x).found) : ∃ as, x = .ok as ∧ a ∈ as := by
  cases x with
  | error e => cases h
  | ok as => exact ⟨as, rfl, h⟩

/-- What is found given a computation is found with its value. -/
theorem exists_of_mem_given {x : Except ε β} {f : β → Trail ε α} (h : a ∈ (given x f).found) :
    ∃ b, x = .ok b ∧ a ∈ (f b).found := by
  cases x with
  | error e => cases h
  | ok b => exact ⟨b, rfl, h⟩

/-- Without failure a trail goes on from a result. -/
theorem given_of_failure {x : Except ε β} {f : β → Trail ε α} (h : (given x f).failure = Option.none) :
    ∃ b, x = .ok b ∧ given x f = f b := by
  cases x with
  | error e => cases h
  | ok b => exact ⟨b, rfl, rfl⟩

end Syntax.Trail

end RepoAtlas
