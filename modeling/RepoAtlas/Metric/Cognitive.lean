import RepoAtlas.Text.Blank
import RepoAtlas.Text.Word

/-!
# Cognitive complexity

Every word of control flow counts one, and more inside nested code; every Boolean operator counts
one. Nesting is read off the indentation: four blanks or one tab are a level. Lines that are blank
or comments do not count.
-/

namespace RepoAtlas.Metric

/-- Words that open a level of nesting. -/
def nestingWords : List String := ["if", "for", "while", "switch"]

/-- Words of control flow. -/
def flowWords : List String := ["if", "elif", "else", "for", "while", "catch", "case"]

/-- How many times two equal characters stand side by side, counted without overlap. -/
def countDouble (c : Char) : List Char → Nat
  | a :: b :: rest => if a = c && b = c then countDouble c rest + 1 else countDouble c (b :: rest)
  | _ => 0

/-- How many words of a text are among given ones. -/
def countWords (words : List String) (s : List Char) : Nat :=
  ((Text.wordRuns s).filter fun w => words.contains (String.ofList w)).length

/-- How many Boolean operators a text has. -/
def countOperators (s : List Char) : Nat :=
  countDouble '&' s + countDouble '|' s + countWords ["and", "or"] s

/-- Whether a line is blank or a comment. -/
def isIdle (line : String) : Bool :=
  let s := Text.strip line
  s = "" || Text.begins s "#" || Text.begins s "//"

/-- The level at which a line stands. -/
def level (line : String) : Nat :=
  if line.toList.contains '\t' then Text.countChar line '\t' else Text.indent line / 4

/-- The score so far and the nesting that the next line finds. -/
structure Reckoning where
  score : Nat := 0
  nesting : Nat := 0

/-- The nesting after a line. -/
def nestingAfter (nesting : Nat) (line : String) : Nat :=
  if countWords nestingWords line.toList ≠ 0 then max nesting (level line + 1)
  else if level line = 0 then 0 else nesting

/-- Count a line. -/
def Reckoning.add (r : Reckoning) (line : String) : Reckoning :=
  if isIdle line then r
  else
    { score := r.score + countOperators line.toList +
        countWords flowWords line.toList * (1 + r.nesting)
      nesting := nestingAfter r.nesting line }

/-- The cognitive complexity of a text. -/
def cognitive (source : String) : Nat :=
  ((Text.split '\n' source).foldl Reckoning.add {}).score

end RepoAtlas.Metric
