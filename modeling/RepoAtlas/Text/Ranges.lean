/-!
# Sets of characters as ranges

A set of code points is written as a list of disjoint ranges in increasing order.
-/

namespace RepoAtlas.Text

/-- Disjoint ranges of code points in increasing order, both ends included. -/
abbrev Ranges := List (Nat × Nat)

/-- Whether a code point lies in one of the ranges. -/
def Ranges.has : Ranges → Nat → Bool
  | [], _ => false
  | (lo, hi) :: rest, n => if n < lo then false else n ≤ hi || Ranges.has rest n

/-- Numbers that are written one after the other, with a blank or a line end between them; `n` is what is read of
the first. -/
def numbersFrom (n : Nat) : List Char → List Nat
  | [] => [n]
  | c :: s => if c.isDigit then numbersFrom (10 * n + (c.toNat - '0'.toNat)) s else n :: numbersFrom 0 s

/-- The numbers in a text, with a blank or a line end between them. -/
def numbersIn (s : String) : List Nat :=
  numbersFrom 0 s.toList

/-- Ranges told by numbers of code points: from `start` on so many are passed over, so many are in the
set, and so on in turn. -/
def Ranges.ofCounts (start : Nat) : List Nat → Ranges
  | passed :: taken :: rest =>
    let first := start + passed
    (first, first + taken - 1) :: Ranges.ofCounts (first + taken) rest
  | _ => []

end RepoAtlas.Text
