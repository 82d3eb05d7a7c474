/-!
# Limits on lists

A limit on how many elements are kept may be negative: then that many are left out at the end.
-/

namespace RepoAtlas.Repository

/-- The first `n` elements; a negative number leaves out as many at the end. -/
def firstOf {α : Type} (n : Int) (xs : List α) : List α :=
  if 0 ≤ n then xs.take n.toNat else xs.take (xs.length - n.natAbs)

/-- What is taken first is a beginning. -/
theorem firstOf_prefix {α : Type} (n : Int) (xs : List α) : firstOf n xs <+: xs := by
  unfold firstOf
  split
  · exact List.take_prefix _ _
  · exact List.take_prefix _ _

/-- The first of changed elements are the first ones, changed. -/
theorem firstOf_map {α β : Type} (n : Int) (f : α → β) (xs : List α) :
    firstOf n (xs.map f) = (firstOf n xs).map f := by
  simp only [firstOf, List.length_map, ← List.map_take]
  split <;> rfl

end RepoAtlas.Repository
