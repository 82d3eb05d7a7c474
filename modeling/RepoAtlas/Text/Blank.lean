import RepoAtlas.Text.Search

/-!
# Blank characters

The white space of Unicode together with the separators of the C0 range. Trimming removes blanks
from the ends of a text; `words` gives the maximal runs without a blank.
-/

namespace RepoAtlas.Text

/-- The blank characters outside the ASCII range. -/
def isWideBlank (n : Nat) : Bool :=
  n == 0x85 || n == 0xA0 || n == 0x1680 || (0x2000 ≤ n && n ≤ 0x200A) || n == 0x2028 ||
    n == 0x2029 || n == 0x202F || n == 0x205F || n == 0x3000

/-- Whether a character is blank. -/
def isBlank (c : Char) : Bool :=
  let n := c.toNat
  (9 ≤ n && n ≤ 13) || (28 ≤ n && n ≤ 32) || isWideBlank n

/-- Remove blanks from both ends. -/
def strip (s : String) : String :=
  String.ofList (trim isBlank s.toList)

/-- The number of blanks a text begins with. -/
def indent (s : String) : Nat :=
  (s.toList.takeWhile isBlank).length

/-- The maximal runs of characters that are not blank; `word` is the run being read, reversed. -/
def wordsFrom (word : List Char) : List Char → List (List Char)
  | [] => if word.isEmpty then [] else [word.reverse]
  | c :: s =>
    if isBlank c then
      if word.isEmpty then wordsFrom [] s else word.reverse :: wordsFrom [] s
    else wordsFrom (c :: word) s

/-- The words of a text: its maximal runs without a blank. -/
def words (s : String) : List String :=
  (wordsFrom [] s.toList).map String.ofList

end RepoAtlas.Text
