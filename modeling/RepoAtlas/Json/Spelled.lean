import RepoAtlas.Json.Basic
import RepoAtlas.Number.Shortest
import RepoAtlas.Text.Literal

/-!
# Values in messages

In a message a value is spelled out: nothing is `None`, texts inside other values are quoted, and a
text that stands alone is shown as it is.
-/

namespace RepoAtlas.Json

/-- Whether a value counts as something: neither nothing nor false, zero or empty. -/
def isSomething : Json → Bool
  | .null => false
  | .bool b => b
  | .int n => n != 0
  | .float x => x != 0.0
  | .str s => s != ""
  | .arr xs => !xs.isEmpty
  | .obj ms => !ms.isEmpty

mutual
/-- A value inside another one. -/
def spelledInside : Json → String
  | .null => "None"
  | .bool b => if b then "True" else "False"
  | .int n => toString n
  | .float x => Number.text x
  | .str s => Text.quoted s
  | .arr xs => "[" ++ Text.join ", " (spelledItems xs) ++ "]"
  | .obj ms => "\x7b" ++ Text.join ", " (spelledMembers ms) ++ "\x7d"

/-- The items of an array. -/
def spelledItems : List Json → List String
  | [] => []
  | x :: xs => spelledInside x :: spelledItems xs

/-- The members of an object. -/
def spelledMembers : List (String × Json) → List String
  | [] => []
  | (n, v) :: ms => (Text.quoted n ++ ": " ++ spelledInside v) :: spelledMembers ms
end

/-- A value in a message. -/
def spelled : Json → String
  | .str s => s
  | j => spelledInside j

/-- The texts that a value is a sequence of: the items of an array of texts, the characters of a text,
the names of an object. -/
def texts? : Json → Option (List String)
  | .arr xs => xs.mapM Json.str?
  | .str s => some (s.toList.map fun c => String.ofList [c])
  | .obj ms => some (ms.map (·.1))
  | _ => none

end RepoAtlas.Json
