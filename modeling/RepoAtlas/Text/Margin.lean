import RepoAtlas.Text.Blank

/-!
# The margin of an indented text

A text written inside indented source is shown without the indentation that all its lines share. The
first line does not count for the margin and loses all its blanks. Tabs reach to the next multiple
of eight.
-/

namespace RepoAtlas.Text

/-- A text with blanks for tabs; `column` is the place on the line. -/
def withoutTabs (column : Nat) : List Char → List Char
  | [] => []
  | '\t' :: s =>
    let width := 8 - column % 8
    List.replicate width ' ' ++ withoutTabs (column + width) s
  | c :: s => c :: withoutTabs (if c = '\n' || c = '\r' then 0 else column + 1) s

/-- The least indentation of lines that are not blank. -/
def margin? (lines : List String) : Option Nat :=
  ((lines.filter fun l => !l.toList.all isBlank).map indent).min?

/-- A text without its margin and without empty lines at its ends. -/
def withoutMargin (s : String) : String :=
  match split '\n' (String.ofList (withoutTabs 0 s.toList)) with
  | [] => ""
  | first :: rest =>
    let rest := match margin? rest with
      | some n => rest.map fun l => String.ofList (l.toList.drop n)
      | none => rest
    let all := String.ofList (first.toList.dropWhile isBlank) :: rest
    join "\n" (trimEnd (· == "") (all.dropWhile (· == "")))

end RepoAtlas.Text
