import RepoAtlas.Text.Search

/-!
# Lines

A text is cut into lines at every line boundary of Unicode; a carriage return followed by a line
feed is one boundary. A boundary at the very end opens no further line.
-/

namespace RepoAtlas.Text

/-- Whether a character ends a line. -/
def endsLine (c : Char) : Bool :=
  let n := c.toNat
  (10 ≤ n && n ≤ 13) || (28 ≤ n && n ≤ 30) || n == 0x85 || n == 0x2028 || n == 0x2029

/-- The lines of a text; `line` is the line being read, reversed. -/
def linesFrom (line : List Char) : List Char → List (List Char)
  | [] => if line.isEmpty then [] else [line.reverse]
  | '\r' :: '\n' :: s => line.reverse :: linesFrom [] s
  | c :: s => if endsLine c then line.reverse :: linesFrom [] s else linesFrom (c :: line) s

/-- The lines of a text, without their boundaries. -/
def lines (s : String) : List String :=
  (linesFrom [] s.toList).map String.ofList

/-- Lines `first` to `last`, counted from one, joined by line feeds. -/
def excerpt (lines : List String) (first last : Nat) : String :=
  join "\n" ((lines.take last).drop (first - 1))

/-- Line ends written as line feeds. -/
def withLineFeeds : List Char → List Char
  | '\r' :: '\n' :: s => '\n' :: withLineFeeds s
  | '\r' :: s => '\n' :: withLineFeeds s
  | c :: s => c :: withLineFeeds s
  | [] => []

end RepoAtlas.Text
