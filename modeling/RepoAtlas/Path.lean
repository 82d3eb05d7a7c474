import RepoAtlas.Text.Search

/-!
# Slash-separated paths

A path is a text whose parts are divided by slashes. `tidy` removes empty parts and single dots,
`normal` resolves double dots as well, and `relative` expresses one path as seen from another.
Nothing here looks at a file system.
-/

namespace RepoAtlas.Path

/-- The non-empty parts of a path other than single dots. -/
def parts (p : String) : List String :=
  (Text.split '/' p).filter fun s => s != "" && s != "."

/-- The leading slashes that a path keeps: two stay two, any other number of them is one. -/
def rootOf (p : String) : String :=
  match p.toList with
  | '/' :: '/' :: '/' :: _ => "/"
  | '/' :: '/' :: _ => "//"
  | '/' :: _ => "/"
  | _ => ""

/-- Whether a path starts at the root. -/
def isAbsolute (p : String) : Bool :=
  Text.begins p "/"

/-- A path without empty parts, single dots and a final slash; double dots stay. -/
def tidy (p : String) : String :=
  let body := Text.join "/" (parts p)
  if rootOf p ++ body = "" then "." else rootOf p ++ body

/-- Resolve double dots against the parts before them; `done` is reversed. Above the root there is
nothing, so an absolute path drops them there. -/
def resolve (absolute : Bool) (done : List String) : List String → List String
  | [] => done.reverse
  | ".." :: rest =>
    match done with
    | [] => if absolute then resolve absolute [] rest else resolve absolute [".."] rest
    | ".." :: _ => resolve absolute (".." :: done) rest
    | _ :: up => resolve absolute up rest
  | s :: rest => resolve absolute (s :: done) rest

/-- The parts of a path with double dots resolved. -/
def normalParts (p : String) : List String :=
  resolve (isAbsolute p) [] (parts p)

/-- A path with double dots resolved. -/
def normal (p : String) : String :=
  let body := rootOf p ++ Text.join "/" (normalParts p)
  if body = "" then "." else body

/-- What remains of two lists after their common beginning. -/
def diverge : List String → List String → List String × List String
  | a :: as, b :: bs => if a = b then diverge as bs else (a :: as, b :: bs)
  | as, bs => (as, bs)

/-- `p` as seen from the directory `start`; an empty `start` is the current directory. -/
def relative (p start : String) : String :=
  let (up, down) := diverge (normalParts start) (normalParts p)
  let steps := up.map (fun _ => "..") ++ down
  if steps.isEmpty then "." else Text.join "/" steps

/-- The last part of a tidy path. -/
def name (p : String) : String :=
  match (parts p).reverse with
  | [] => ""
  | s :: _ => s

/-- What follows the last slash. -/
def base (p : String) : String :=
  Text.afterLast '/' p

/-- What stands before the last slash, without the slashes at its end. -/
def directory (p : String) : String :=
  match Text.beforeLast? '/' p with
  | none => ""
  | some d =>
    let t := Text.trimEnd (· = '/') d.toList
    if t.isEmpty then String.ofList (d.toList ++ ['/']) else String.ofList t

/-- Cut a file name before the last dot, unless nothing or nothing but the dot is cut off. -/
def splitName (s : String) : String × String :=
  match Text.beforeLast? '.' s with
  | none => (s, "")
  | some stem =>
    let ext := Text.afterLast '.' s
    if stem = "" || ext = "" then (s, "") else (stem, "." ++ ext)

/-- The extension of the last part, with its dot. -/
def suffixOf (p : String) : String :=
  (splitName (name p)).2

/-- The last part without its extension. -/
def stem (p : String) : String :=
  (splitName (name p)).1

/-- Cut a path before the last dot of its last part. Dots that the part begins with do not count,
and a dot at the very end does. -/
def splitExtension (p : String) : String × String :=
  let last := (Text.afterLast '/' p).toList
  let dots := last.takeWhile (· = '.')
  let body := last.drop dots.length
  if body.contains '.' then
    let ext := (body.reverse.takeWhile (· != '.')).reverse
    (String.ofList (p.toList.take (p.length - ext.length - 1)), "." ++ String.ofList ext)
  else (p, "")

/-- `p` inside the directory `dir`; an absolute `p` stands for itself. -/
def join (dir p : String) : String :=
  if isAbsolute p then p
  else if dir = "" || Text.ends dir "/" then dir ++ p
  else dir ++ "/" ++ p

/-- A path without the first of the given endings that it has. -/
def dropEnding (p : String) (endings : List String) : String :=
  match endings.findSome? (Text.withoutEnd? p) with
  | some s => s
  | none => p

/-- A path as a dotted name: slashes and backslashes become dots. -/
def dotted (p : String) : String :=
  Text.replaceChar (Text.replaceChar p '/' '.') '\\' '.'

end RepoAtlas.Path
