import RepoAtlas.Text.Search

/-!
# Finding parts of a text

A recogniser looks at the beginning of a text and, if it finds what it looks for there, gives the
part of interest and what remains. `findAll` applies a recogniser from left to right; parts that
it finds do not overlap.
-/

namespace RepoAtlas.Text

/-- A recogniser of something at the beginning of a text: the part of interest and the rest. -/
abbrev Recogniser := List Char → Option (List Char × List Char)

/-- What follows `head`, if the text begins with it. -/
def after? (head s : List Char) : Option (List Char) :=
  if head.isPrefixOf s then some (s.drop head.length) else none

/-- A non-empty run of characters that satisfy `p`. -/
def run (p : Char → Bool) : Recogniser := fun s =>
  match s.takeWhile p with
  | [] => none
  | part => some (part, s.dropWhile p)

/-- What a recogniser finds in a text, where `skip` characters belong to something already found. -/
def findFrom (m : Recogniser) : Nat → List Char → List (List Char)
  | _, [] => []
  | skip + 1, _ :: s => findFrom m skip s
  | 0, c :: s =>
    match m (c :: s) with
    | some (part, rest) => part :: findFrom m (s.length - rest.length) s
    | none => findFrom m 0 s

/-- What a recogniser of non-empty texts finds in a text, from left to right. -/
def findAll (m : Recogniser) (s : List Char) : List (List Char) :=
  findFrom m 0 s

/-- The part between two brackets, where neither it is empty nor does it hold one of the characters
`stops`. -/
def bracketed (opening closing : Char) (stops : List Char) : Recogniser
  | [] => none
  | c :: s =>
    if c = opening then
      match run (fun d => !stops.contains d) s with
      | some (part, d :: rest) => if d = closing then some (part, rest) else none
      | _ => none
    else none

end RepoAtlas.Text
