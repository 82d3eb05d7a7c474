import RepoAtlas.Files.Reading

/-!
# Changing files and directories

Directories are made with all that lead to them, and files are written where their directory exists.
Every change gives a new tree or the reason why there is none.
-/

namespace RepoAtlas.Files

/-- Why a file or directory was not changed. -/
inductive ChangeFault where
  | notFound
  | notDirectory
  | isDirectory
  | alreadyThere
  /-- Too many links would have to be followed. -/
  | loop
  /-- The bytes of a file are not UTF-8. -/
  | notText
  deriving DecidableEq, Repr

/-- Make the directory at a place; `done` leads to where the making has come. -/
def makeFrom (root : FileNode) (done : List String) : List String → Except ChangeFault FileNode
  | [] => .ok root
  | name :: rest =>
    let place := done ++ [name]
    match root.at? place with
    | none => makeFrom (root.insert place .emptyDirectory) place rest
    | some (.directory _ _) => makeFrom root place rest
    | some _ => .error (if rest.isEmpty then .alreadyThere else .notDirectory)

/-- Make a directory and those that lead to it. One that is there already stays as it is. -/
def makeDirectories (root : FileNode) (path : String) : Except ChangeFault FileNode :=
  match realPlace? root path with
  | some place => makeFrom root [] place
  | none => .error .loop

/-- Whether a file can be put at a place. -/
def checkPlace (root : FileNode) (place : List String) : Except ChangeFault Unit :=
  match root.at? place.dropLast with
  | some (.directory _ cs) =>
    match place.getLast? with
    | none => .error .isDirectory
    | some name => if ((cs.lookup name).map FileNode.isDirectory).getD false then
        .error .isDirectory else .ok ()
  | some _ => .error .notDirectory
  | none =>
    match lookup root (absolute place.dropLast) with
    | .error .notDirectory => .error .notDirectory
    | _ => .error .notFound

/-- Write a text to a file. -/
def writeText (root : FileNode) (path text : String) : Except ChangeFault FileNode := do
  match realPlace? root path with
  | none => .error .loop
  | some place =>
    checkPlace root place
    .ok (root.insert place (.file (Text.encode text)))

/-- Read the text of a file wherever it is, if its bytes are one. -/
def readAnywhere (root : FileNode) (path : String) : Except ChangeFault String :=
  match lookup root path with
  | .ok (_, .file bytes) => ((Text.fileText? bytes).map .ok).getD (.error .notText)
  | .ok (_, .pipe) => .ok ""
  | .ok _ => .error .isDirectory
  | .error .notFound => .error .notFound
  | .error .notDirectory => .error .notDirectory
  | .error .tooManyLinks => .error .loop

/-- Remove a file or a link. -/
def removeFile (root : FileNode) (path : String) : Except ChangeFault FileNode :=
  match lookupLink root path with
  | .ok (_, .directory _ _) => .error .isDirectory
  | .ok (place, _) => .ok (root.remove place)
  | .error .notFound => .error .notFound
  | .error .notDirectory => .error .notDirectory
  | .error .tooManyLinks => .error .loop

mutual
/-- The paths of all files below a node; `path` is its own. -/
def filesBelow (path : String) : FileNode → List String
  | .file _ => [path]
  | .directory _ cs => filesIn path cs
  | .link _ => []
  | .pipe => []

/-- The paths of all files below the children of a directory. -/
def filesIn (path : String) : List (String × FileNode) → List String
  | [] => []
  | (name, c) :: rest =>
    filesBelow (if path = "" then name else path ++ "/" ++ name) c ++ filesIn path rest
end

end RepoAtlas.Files
