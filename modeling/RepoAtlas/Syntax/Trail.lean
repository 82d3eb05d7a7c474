/-!
# Results up to a failure

A walk over a tree gives results one after another and may fail on the way. A trail holds what was
found before the failure, and the failure. Trails are joined in order: nothing is found after a
failure.
-/

namespace RepoAtlas.Syntax

/-- What was found, in order, and why the search stopped early if it did. -/
structure Trail (ε α : Type) where
  found : List α := []
  failure : Option ε := none
  deriving Inhabited

namespace Trail

variable {ε α β : Type}

/-- Nothing found. -/
def none : Trail ε α := {}

/-- One result. -/
def one (a : α) : Trail ε α := { found := [a] }

/-- Several results. -/
def many (as : List α) : Trail ε α := { found := as }

/-- A failure before anything is found. -/
def fail (e : ε) : Trail ε α := { failure := some e }

/-- The results of a computation that fails as a whole. -/
def ofExcept : Except ε (List α) → Trail ε α
  | .ok as => many as
  | .error e => fail e

/-- First one trail and then, unless it failed, another. -/
def append (s t : Trail ε α) : Trail ε α :=
  match s.failure with
  | some e => { found := s.found, failure := some e }
  | Option.none => { found := s.found ++ t.found, failure := t.failure }

instance : Append (Trail ε α) := ⟨append⟩

/-- Trails one after the other. -/
def concat : List (Trail ε α) → Trail ε α
  | [] => none
  | t :: ts => t ++ concat ts

/-- The trails of several things one after the other. -/
def each (xs : List β) (f : β → Trail ε α) : Trail ε α :=
  concat (xs.map f)

/-- Go on with the value of a computation, or fail with it. -/
def given (x : Except ε β) (f : β → Trail ε α) : Trail ε α :=
  match x with
  | .ok b => f b
  | .error e => fail e

/-- Keep what was found and forget the failure. -/
def absorb (t : Trail ε α) : Trail ε α :=
  { found := t.found }

/-- The results, unless there was a failure. -/
def result (t : Trail ε α) : Except ε (List α) :=
  match t.failure with
  | some e => .error e
  | Option.none => .ok t.found

/-- All that is given is found. -/
@[simp] theorem found_many (as : List α) : (many as : Trail ε α).found = as := rfl

/-- What follows a trail without failure is found too. -/
theorem append_of_failure_none (s t : Trail ε α) (h : s.failure = Option.none) :
    (s ++ t).found = s.found ++ t.found := by
  show (append s t).found = _
  simp [append, h]

/-- What was found before stays first. -/
theorem found_append_prefix (s t : Trail ε α) : s.found <+: (s ++ t).found := by
  show s.found <+: (append s t).found
  unfold append
  split
  · exact List.prefix_refl _
  · exact List.prefix_append _ _

end Trail

end RepoAtlas.Syntax
