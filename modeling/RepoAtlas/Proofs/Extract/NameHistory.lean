import RepoAtlas.Extract.PhpName
import RepoAtlas.Proofs.Keyed
import RepoAtlas.Proofs.Text.Exchange
import RepoAtlas.Proofs.Text.Line

/-!
# What names stand for after a history of declarations

A file enters namespaces and uses names. What a name stands for afterwards is told by the last use under its
first segment, or else by the last namespace entered.
-/

namespace RepoAtlas.Extract.Php

/-- A text in which no two backslashes stand side by side. -/
def Undoubled (s : String) : Prop :=
  ¬['\\', '\\'] <:+: s.toList

instance (s : String) : Decidable (Undoubled s) :=
  inferInstanceAs (Decidable (¬_))

/-- The parts of a name between its backslashes. -/
def segments (name : String) : List String :=
  Text.split '\\' name

/-- A step in the history of the names of a file. -/
inductive Step where
  | declare (space : String)
  | use (name : String) (alias? : Option String)
  deriving DecidableEq, Repr

namespace Step

/-- A step without doubled backslashes; an alias that is given is a single segment and not empty. -/
def Proper : Step → Prop
  | declare space => Undoubled space
  | use name none => Undoubled name
  | use name (some a) => Undoubled name ∧ a ≠ "" ∧ '\\' ∉ a.toList

instance (t : Step) : Decidable t.Proper :=
  match t with
  | declare space => inferInstanceAs (Decidable (Undoubled space))
  | use name none => inferInstanceAs (Decidable (Undoubled name))
  | use name (some a) => inferInstanceAs (Decidable (Undoubled name ∧ a ≠ "" ∧ '\\' ∉ a.toList))

/-- The namespace that a step enters. -/
def space? : Step → Option String
  | declare space => some space
  | use _ _ => none

/-- The alias under which a step uses a name: the one given, or else the last segment of the name. -/
def alias? : Step → Option String
  | declare _ => none
  | use _ (some a) => some a
  | use name none => (segments (unrooted name)).getLast?

/-- The name that a step uses, without the backslashes in front. -/
def name? : Step → Option String
  | declare _ => none
  | use name _ => some (unrooted name)

/-- What a step does to the names of a file. -/
def apply (n : Names) : Step → Names
  | declare space => n.declare space
  | use name alias? => n.use name alias?

end Step

/-- The names of a file after a history. -/
def Names.after (steps : List Step) : Names :=
  steps.foldl Step.apply {}

/-- The name that a history uses last under an alias. -/
def lastUsed? (steps : List Step) (short : String) : Option String :=
  (steps.reverse.find? fun t => t.alias? = some short).bind Step.name?

/-- The namespace that a history enters last; the empty one if it enters none. -/
def lastSpace (steps : List Step) : String :=
  (steps.reverse.findSome? Step.space?).getD ""

/-- What a name stands for after a history. A name with a backslash in front is qualified already. Another one
begins with an alias, or it lies in the namespace entered last. -/
def meaning (steps : List Step) (name : String) : String :=
  if name.toList.head? = some '\\' then String.ofList name.toList.tail
  else
    match (segments name).head?.bind (lastUsed? steps) with
    | some full => Text.join "\\" (full :: (segments name).tail)
    | none => if lastSpace steps = "" then name else lastSpace steps ++ "\\" ++ name

variable {steps : List Step} {name short : String}

/-- Backslashes that are not doubled stay as they are. -/
theorem single_of_undoubled (h : Undoubled name) : single name = name := by
  have hoccurs : Text.occurs ['\\', '\\'] name.toList = false := by
    rw [← Bool.not_eq_true, Text.occurs_iff_infix]
    exact h
  calc
    single name = String.ofList (Text.exchange ['\\', '\\'] ['\\'] 0 name.toList) := rfl
    _ = name := by rw [Text.exchange_of_not_occurs hoccurs, String.ofList_toList]

/-- An alias has no backslash. -/
theorem not_mem_of_alias? {t : Step} (ht : t.Proper) (h : t.alias? = some short) : '\\' ∉ short.toList := by
  match t with
  | .declare space => cases h
  | .use name none => exact Text.not_mem_of_mem_split (List.mem_of_getLast? h)
  | .use name (some a) => exact Option.some.inj h ▸ ht.2.2

/-- A step enters a namespace or leaves the current one. -/
theorem current_apply (n : Names) {t : Step} (ht : t.Proper) : (t.apply n).current = t.space?.getD n.current := by
  cases t with
  | declare space => exact single_of_undoubled ht
  | use name a => rfl

/-- A use makes its name known under its alias. -/
theorem exists_alias_of_use (n : Names) {given? : Option String} (h : (Step.use name given?).Proper) :
    ∃ a, (Step.use name given?).alias? = some a ∧ (n.use name given?).uses = n.uses.insert a (unrooted name) := by
  cases given? with
  | none =>
    have hname : single name = name := single_of_undoubled h
    refine ⟨lastPart (unrooted name), Text.getLast?_split _, ?_⟩
    rw [Names.use, hname]
    rfl
  | some a =>
    have hname : single name = name := single_of_undoubled h.1
    have hgiven : (some a).filter (· != "") = some a := by simpa using h.2.1
    refine ⟨a, rfl, ?_⟩
    rw [Names.use, hgiven, hname]

/-- A step gives its alias its name and leaves the other aliases. -/
theorem get?_apply (n : Names) {t : Step} (ht : t.Proper) (short : String) :
    (t.apply n).uses.get? short = if t.alias? = some short then t.name? else n.uses.get? short := by
  cases t with
  | declare space => rfl
  | use name given? =>
    obtain ⟨a, ha, huses⟩ := exists_alias_of_use n ht
    change (n.use name given?).uses.get? short = _
    rw [huses, Keyed.get?_insert]
    simp only [ha, Option.some.injEq, eq_comm]
    rfl

/-- The last step is applied last. -/
theorem after_concat (steps : List Step) (t : Step) :
    Names.after (steps ++ [t]) = t.apply (Names.after steps) := by
  rw [Names.after, List.foldl_concat, Names.after]

/-- The namespace is the one entered last. -/
theorem current_after (h : ∀ t ∈ steps, t.Proper) : (Names.after steps).current = lastSpace steps := by
  induction steps using List.reverseRecOn with
  | nil => rfl
  | append_singleton steps t ih =>
    have hsteps : ∀ u ∈ steps, u.Proper := fun u hu => h u (List.mem_append_left [t] hu)
    have ht : t.Proper := h t (List.mem_append_right steps List.mem_cons_self)
    rw [after_concat, current_apply _ ht, ih hsteps, lastSpace, lastSpace, List.reverse_append, List.reverse_singleton,
      List.singleton_append, List.findSome?_cons]
    cases t.space? <;> rfl

/-- An alias stands for what was used last under it. -/
theorem get?_after (h : ∀ t ∈ steps, t.Proper) (short : String) :
    (Names.after steps).uses.get? short = lastUsed? steps short := by
  induction steps using List.reverseRecOn with
  | nil => rfl
  | append_singleton steps t ih =>
    have hsteps : ∀ u ∈ steps, u.Proper := fun u hu => h u (List.mem_append_left [t] hu)
    have ht : t.Proper := h t (List.mem_append_right steps List.mem_cons_self)
    rw [after_concat, get?_apply _ ht, ih hsteps, lastUsed?, lastUsed?, List.reverse_append, List.reverse_singleton,
      List.singleton_append, List.find?_cons]
    by_cases halias : t.alias? = some short
    · simp [halias]
    · simp [halias]

/-- What was used has an alias without a backslash. -/
theorem not_mem_of_lastUsed? (h : ∀ t ∈ steps, t.Proper) {full : String}
    (hused : lastUsed? steps short = some full) : '\\' ∉ short.toList := by
  obtain ⟨t, ht, -⟩ := Option.bind_eq_some_iff.mp hused
  have halias : t.alias? = some short := by simpa using List.find?_some ht
  exact not_mem_of_alias? (h t (List.mem_reverse.mp (List.mem_of_find?_eq_some ht))) halias

/-- A base with what follows the first segment of a name is the base with the further segments. -/
theorem join_tail_of_cutFirst (base : String) {first : String} {rest : Option String}
    (h : Text.cutFirst '\\' name = (first, rest)) :
    Text.join "\\" (base :: (segments name).tail) = rest.elim base fun r => base ++ "\\" ++ r := by
  rw [segments, Text.split_of_cutFirst h, List.tail_cons]
  cases rest with
  | none => exact String.intercalate_singleton
  | some r =>
    obtain ⟨part, parts, hparts⟩ := List.exists_cons_of_ne_nil (Text.cut_ne_nil '\\' r.toList)
    have hsplit : Text.split '\\' r = String.ofList part :: parts.map String.ofList := by
      rw [Text.split, hparts, List.map_cons]
    have hjoin : "\\".intercalate (String.ofList part :: parts.map String.ofList) = r := by
      rw [← hsplit]
      exact Text.join_split r
    rw [Option.map_some, Option.getD_some, hsplit, Text.join, String.intercalate_cons_cons, hjoin]
    rfl

/-- A name with a backslash in front stands for what follows it. -/
theorem resolve_of_rooted (n : Names) (hname : Undoubled name) (hrooted : name.toList.head? = some '\\') :
    n.resolve name = String.ofList name.toList.tail := by
  obtain ⟨cs, hcs⟩ := List.head?_eq_some_iff.mp hrooted
  have hbackslash : name = "\\" ++ String.ofList cs := by
    rw [← String.toList_inj, hcs]
    simp
  have hne : name ≠ "" := by
    intro hnil
    rw [hnil] at hcs
    exact absurd hcs (List.cons_ne_nil _ _).symm
  have hstart : Text.withoutStart? name "\\" = some (String.ofList cs) := by
    rw [hbackslash]
    exact Text.withoutStart?_append _ _
  rw [Names.resolve, if_neg hne, single_of_undoubled hname, hcs, List.tail_cons]
  dsimp only
  rw [hstart]

/-- Another name stands for what its first segment does, or else it lies in the current namespace. -/
theorem resolve_of_not_rooted (n : Names) (hne : name ≠ "") (hname : Undoubled name)
    (hrooted : name.toList.head? ≠ some '\\')
    (hsingle : ∀ full, n.uses.get? name = some full → '\\' ∉ name.toList) :
    n.resolve name =
      match (segments name).head?.bind n.uses.get? with
      | some full => Text.join "\\" (full :: (segments name).tail)
      | none => if n.current = "" then name else n.current ++ "\\" ++ name := by
  have hstart : Text.withoutStart? name "\\" = none := by
    refine if_neg fun hbegins => hrooted ?_
    obtain ⟨rest, rfl⟩ := Text.exists_of_begins hbegins
    simp
  rw [Names.resolve, if_neg hne, single_of_undoubled hname]
  dsimp only
  rw [hstart]
  dsimp only
  -- A name that is an alias as a whole is a single segment, so the search by its first segment finds the same.
  cases hfull : n.uses.get? name with
  | some full =>
    have hsegments : segments name = [name] := Text.split_of_not_mem (hsingle full hfull)
    rw [hsegments, List.head?_cons, Option.bind_some, hfull, List.tail_cons]
    exact (String.intercalate_singleton).symm
  | none =>
    obtain ⟨first, rest, hcut⟩ : ∃ first rest, Text.cutFirst '\\' name = (first, rest) := ⟨_, _, rfl⟩
    have hfirst : (segments name).head? = some first := by
      rw [segments, Text.split_of_cutFirst hcut, List.head?_cons]
    rw [hcut, hfirst, Option.bind_some]
    dsimp only
    cases n.uses.get? first with
    | some base =>
      dsimp only
      rw [join_tail_of_cutFirst base hcut]
      cases rest <;> rfl
    | none => rfl

/-- After a history a name stands for what the steps say. -/
theorem resolve_after_history (steps : List Step) (h : ∀ t ∈ steps, t.Proper) (name : String) (hne : name ≠ "")
    (hname : Undoubled name) : (Names.after steps).resolve name = meaning steps name := by
  unfold meaning
  split
  · rename_i hrooted
    exact resolve_of_rooted _ hname hrooted
  · rename_i hrooted
    have hsingle : ∀ full, (Names.after steps).uses.get? name = some full → '\\' ∉ name.toList := by
      intro full hfull
      rw [get?_after h] at hfull
      exact not_mem_of_lastUsed? h hfull
    rw [resolve_of_not_rooted _ hne hname hrooted hsingle, current_after h, funext (get?_after h)]

/-- A name begins with an alias that was used twice, in a namespace entered later. -/
theorem resolve_after_second_use :
    (∀ t ∈ [Step.use "\\Lib\\Base" none, .declare "App", .use "Other\\Thing" (some "Base")], t.Proper) ∧
    "Base\\Inner" ≠ "" ∧ Undoubled "Base\\Inner" ∧
    (Names.after [.use "\\Lib\\Base" none, .declare "App", .use "Other\\Thing" (some "Base")]).resolve
      "Base\\Inner" = "Other\\Thing\\Inner" := by
  have hsteps : ∀ t ∈ [Step.use "\\Lib\\Base" none, .declare "App", .use "Other\\Thing" (some "Base")],
      t.Proper := by decide
  have hname : Undoubled "Base\\Inner" := by decide
  refine ⟨hsteps, by decide, hname, ?_⟩
  rw [resolve_after_history _ hsteps _ (by decide) hname]
  decide +kernel

end RepoAtlas.Extract.Php
