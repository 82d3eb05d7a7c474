import RepoAtlas.Json.Basic
import RepoAtlas.Text.Blank

/-!
# Addresses of repositories

A repository is given by the address of its page, of something inside it, or by its owner and name.
-/

namespace RepoAtlas.Repository

/-- A text without a given end, if it has it. -/
def dropEnd (s tail : String) : String :=
  (Text.withoutEnd? s tail).getD s

/-- An address without its scheme, and the scheme to clone with. -/
def splitScheme (s : String) : String × String :=
  match Text.withoutStart? s "https://", Text.withoutStart? s "http://" with
  | some rest, _ => ("https://", rest)
  | none, some rest => ("http://", rest)
  | none, none => ("https://", s)

/-- The owner and the name that an address without scheme gives. -/
def ownerAndName? (s : String) : Option (String × String) :=
  let parts := Text.split '/' s
  if Text.begins s "github.com/" then
    match parts with
    | _ :: owner :: name :: _ => some (owner, name)
    | _ => none
  else if Text.begins s "github.com" then none
  else
    match parts with
    | owner :: name :: _ => some (owner, name)
    | _ => none

/-- The address that is cloned. An address that gives no owner and name is taken as it is. -/
def cloneAddress (address : String) : String :=
  let (scheme, rest) := splitScheme (Text.strip address)
  match ownerAndName? ((Text.withoutStart? rest "www.").getD rest) with
  | some (owner, name) => scheme ++ "github.com/" ++ owner ++ "/" ++ dropEnd name ".git"
  | none => address

/-- What an address says about a repository. -/
structure Location where
  owner : String
  name : String
  fullName : String
  address : String
  deriving DecidableEq, Repr

/-- The last two parts of an address are the owner and the name of the repository. -/
def locate (address : String) : Location :=
  match (Text.split '/' (String.ofList (Text.trimEnd (· = '/') address.toList))).reverse with
  | last :: owner :: _ =>
    let name := Text.replace last ".git" ""
    { owner := owner, name := name, fullName := owner ++ "/" ++ name, address := address }
  | _ => { owner := "unknown", name := "unknown", fullName := "unknown", address := address }

/-- A location as JSON. -/
def Location.toJson (l : Location) : Json :=
  .obj [("owner", .str l.owner), ("name", .str l.name), ("full_name", .str l.fullName),
    ("url", .str l.address)]

end RepoAtlas.Repository
