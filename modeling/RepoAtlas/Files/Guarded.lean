import RepoAtlas.Files.Change

/-!
# Guarded access to files

Directories are made and files are read and written in a way that tells the user what went wrong. A
file is written beside its place first and then put there, so that a failure leaves the old one. Some
paths may refuse every access.
-/

namespace RepoAtlas.Files

/-- What went wrong with a path. -/
inductive AccessFault where
  | notFound (path : String)
  | unreadable (path : String)
  | readDenied (path : String)
  | unwritable (path : String)
  | unmade (path : String)
  | makeDenied (path : String)
  /-- What was to be removed after a failure is a directory. -/
  | stuck (path : String)
  deriving DecidableEq, Repr

/-- What the user is told. -/
def AccessFault.message : AccessFault → String
  | .notFound p => "File not found: " ++ p
  | .unreadable p => "Cannot read " ++ p
  | .readDenied p => "Permission denied: Cannot read " ++ p
  | .unwritable p => "Cannot write to " ++ p
  | .unmade p => "Cannot create directory " ++ p
  | .makeDenied p => "Permission denied: Cannot create directory " ++ p
  | .stuck p => "Is a directory: " ++ p

/-- The place that a path leads to, as a path. -/
def resolved (root : FileNode) (path : String) : String :=
  match realPlace? root path with
  | some place => absolute place
  | none => path

/-- The places on the way to a place that are not there yet. -/
def missingAbove (root : FileNode) (place : List String) : List (List String) :=
  ((List.range place.length).map place.take).filter fun p => (root.at? p).isNone

/-- Make a directory; `denied` are the paths that refuse. -/
def ensureDirectory (denied : List String) (root : FileNode) (path : String) :
    Except AccessFault (FileNode × String) :=
  let full := resolved root path
  let refuses (p : List String) := denied.contains (absolute p)
  if denied.contains full then .error (.makeDenied full)
  else
    match makeDirectories root full with
    | .error _ => .error (.unmade full)
    | .ok t =>
      if (missingAbove root (Path.parts full)).any refuses then .error (.makeDenied full)
      else .ok (t, full)

/-- The path that a file is first written to. -/
def besidePath (path : String) : String := path ++ ".tmp"

/-- What is left after a failed write: the file beside the place is removed. -/
def afterFailure (root : FileNode) (full : String) : FileNode × AccessFault :=
  match root.at? (Path.parts (besidePath full)) with
  | none => (root, .unwritable full)
  | some (.directory _ _) => (root, .stuck (besidePath full))
  | some _ => (root.remove (Path.parts (besidePath full)), .unwritable full)

/-- Write a text to a file: first beside its place, then there. -/
def writeGuarded (denied : List String) (root : FileNode) (path text : String) :
    FileNode × Option AccessFault :=
  let full := resolved root path
  let failed (t : FileNode) := (afterFailure t full).map id some
  if denied.contains (besidePath full) then failed root
  else
    match writeText root (besidePath full) text with
    | .error _ => failed root
    | .ok t =>
      match checkPlace t (Path.parts full) with
      | .error _ => failed t
      | .ok _ =>
        ((t.remove (Path.parts (besidePath full))).insert (Path.parts full)
          (.file (Text.encode text)), none)

/-- Read the text of a file. -/
def readGuarded (denied : List String) (root : FileNode) (path : String) :
    Except AccessFault String :=
  let full := resolved root path
  if denied.contains full then .error (.readDenied full)
  else
    match readAnywhere root full with
    | .ok s => .ok s
    | .error .notFound => .error (.notFound full)
    | .error _ => .error (.unreadable full)

end RepoAtlas.Files
