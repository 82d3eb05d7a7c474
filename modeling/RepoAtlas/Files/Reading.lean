import RepoAtlas.Files.Node

/-!
# Reading files inside a repository

A file is read only if its path is no link and stays inside the repository.
-/

namespace RepoAtlas.Files

/-- Why a file is not read. -/
inductive ReadFault where
  /-- The path is a link. -/
  | link (path : String)
  /-- The path leads out of the repository. -/
  | outside (path place : String)
  | notFound
  | notDirectory
  | isDirectory
  /-- Too many links would have to be followed. -/
  | loop (path : String)
  deriving DecidableEq, Repr

/-- The message of a fault that has one. -/
def ReadFault.message? : ReadFault → Option String
  | .link path => some s!"Symlink blocked: {path}"
  | .outside path place => some s!"Path escapes repo: {path} -> {place}"
  | _ => none

/-- An absolute path of names. -/
def absolute (names : List String) : String :=
  "/" ++ Text.join "/" names

/-- Check that a path is no link and stays inside the directory `base`. -/
def checkPath (root : FileNode) (base target : String) : Except ReadFault Unit :=
  let isLink := match lookupLink root target with
    | .ok (_, n) => n.isLink
    | .error _ => false
  if isLink then .error (.link target)
  else
    match realPlace? root base, realPlace? root target with
    | some b, some t => if b.isPrefixOf t then .ok () else .error (.outside target (absolute t))
    | _, _ => .error (.loop target)

/-- Read the text of a file inside the directory `base`. -/
def readText (root : FileNode) (base target : String) : Except ReadFault String := do
  checkPath root base target
  match lookup root target with
  | .ok (_, .file bytes) => .ok (Text.fileText bytes)
  | .ok (_, .pipe) => .ok ""
  | .ok _ => .error .isDirectory
  | .error .notFound => .error .notFound
  | .error .notDirectory => .error .notDirectory
  | .error .tooManyLinks => .error (.loop target)

end RepoAtlas.Files
