import RepoAtlas.Text.Ranges

/-!
# Capital letters

The capitals beyond ASCII, as runs of every character or of every second one.
-/

namespace RepoAtlas.Text

/-- Runs told by numbers: how many code points the first of a run is away from the last of the run before, how many
follow it, and the distance between neighbours. -/
def runsOfCounts (last : Nat) : List Nat → List (Nat × Nat × Nat)
  | passed :: followers :: step :: rest =>
    let first := last + passed
    (first, first + followers * step, step) :: runsOfCounts (first + followers * step) rest
  | _ => []

/-- Capitals from U+0080 on: first, last and the distance between neighbours. -/
def wideCapitalRuns : List (Nat × Nat × Nat) := runsOfCounts 0x80
  (numbersIn "64 22 1 2 6 1 34 27 2 3 7 2 3 23 2 1 2 2 4 1 1 2 1 2 1 1 2 1 1 1 3 3 1 2 1 1 2 2 1 4 1 1 2 1 1 2 2 2 1 1
2 3 1 2 1 1 2 1 1 1 2 1 2 1 0 1 4 0 1 8 0 1 3 0 1 3 0 1 3 7 2 3 8 2 3 0 1 3 1 2 1 1 1 2 28 2 8 1 1 2 1 1 3 1 2 1 2 1 2
3 2 290 1 2 4 0 1 9 0 1 7 1 2 1 1 1 2 1 2 1 1 2 1 15 1 2 8 1 36 0 1 3 2 1 4 11 2 6 0 1 3 1 2 1 0 1 3 50 1 49 16 2 10 27
2 1 6 2 3 47 2 3 37 1 2890 37 1 2 0 1 6 0 1 723 85 1 2203 42 1 3 2 1 321 74 2 10 48 2 10 7 1 9 5 1 11 7 1 9 7 1 9 5 1
12 3 2 9 7 1 73 3 1 13 3 1 13 3 1 13 4 1 12 3 1 263 0 1 5 0 1 4 2 1 3 2 1 3 0 1 4 4 1 7 3 2 1 2 1 3 3 1 11 1 1 6 0 1 27
15 1 20 0 1 819 25 1 1841 47 1 49 1 2 1 1 1 3 3 2 1 2 1 2 0 1 3 0 1 9 2 1 2 48 2 9 1 2 5 0 1 31054 22 2 20 13 2 136 6 2
4 30 2 11 2 2 1 4 2 5 1 2 3 1 2 4 10 2 1 3 1 2 4 1 2 7 2 1 2 1 2 0 1 7 0 1 6 1 2 29 0 1 22316 25 1 1222 39 1 137 35 1
157 10 1 2 14 1 2 6 1 2 1 1 1771 50 1 3054 31 1 21889 31 1 26017 25 1 27 25 1 27 25 1 27 1 2 1 0 1 3 0 1 3 1 1 3 3 1 2
7 1 27 25 1 27 1 1 2 3 1 3 7 1 2 6 1 28 1 1 2 3 1 2 4 1 2 0 1 4 6 1 28 25 1 27 25 1 27 25 1 27 25 1 27 25 1 27 25 1 31
24 1 34 24 1 34 24 1 34 24 1 34 24 1 34 0 1 4406 33 1 2063 25 1 7 25 1 7 25 1")

end RepoAtlas.Text
