/-!
# JSON values

A number without a fraction or an exponent is a whole number of any size, every other number is a
double. The members of an object keep the order in which their names first appear.
-/

namespace RepoAtlas

/-- A JSON value. -/
inductive Json where
  | null
  | bool (b : Bool)
  | int (n : Int)
  | float (x : Float)
  | str (s : String)
  | arr (items : List Json)
  | obj (members : List (String × Json))
  deriving Inhabited

namespace Json

/-- The members after `name` is given `value`: a known name keeps its place, a new one goes last. -/
def insertMember (name : String) (value : Json) : List (String × Json) → List (String × Json)
  | [] => [(name, value)]
  | (n, v) :: rest =>
    if n = name then (n, value) :: rest else (n, v) :: insertMember name value rest

/-- An object from its members in order; of members with one name the last value counts. -/
def ofMembers (members : List (String × Json)) : Json :=
  .obj (members.foldl (fun acc m => insertMember m.1 m.2 acc) [])

/-- The member of an object with a given name. -/
def get? (j : Json) (name : String) : Option Json :=
  match j with
  | .obj members => members.lookup name
  | _ => none

/-- The member with a given name, a missing one and an explicit null alike. -/
def field (j : Json) (name : String) : Json :=
  (j.get? name).getD .null

/-- The text of a string value. -/
def str? : Json → Option String
  | .str s => some s
  | _ => none

/-- The whole number of a number value. -/
def int? : Json → Option Int
  | .int n => some n
  | _ => none

/-- The number of a number value as a double. -/
def float? : Json → Option Float
  | .float x => some x
  | .int n => some (Float.ofInt n)
  | _ => none

/-- The truth value of a Boolean. -/
def bool? : Json → Option Bool
  | .bool b => some b
  | _ => none

/-- The items of an array; any other value has none. -/
def items : Json → List Json
  | .arr xs => xs
  | _ => []

/-- The members of an object; any other value has none. -/
def members : Json → List (String × Json)
  | .obj ms => ms
  | _ => []

/-- An array of strings. -/
def strings (xs : List String) : Json :=
  .arr (xs.map .str)

/-- Null for a missing value. -/
def ofOption {α : Type} (f : α → Json) : Option α → Json
  | none => .null
  | some a => f a

end Json

end RepoAtlas
