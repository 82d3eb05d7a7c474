import RepoAtlas.Graph.Leaf
import RepoAtlas.Number.Fixed

/-!
# Files that change together

A log of changes lists commits, each with the files it changed. Two files are coupled if they often
change in the same commit. Only files with components count, and commits that change very many of
them are left out.
-/

namespace RepoAtlas.Report

/-- Two files that change together, the first before the second by name. -/
structure Coupling where
  fileA : String
  fileB : String
  /-- The number of commits that change both. -/
  shared : Nat
  /-- The share of such commits among those of the file that changes less often. -/
  ratio : Float

/-- A coupling as JSON. -/
def Coupling.toJson (c : Coupling) : Json :=
  .obj [("file_a", .str c.fileA), ("file_b", .str c.fileB), ("shared_commits", .int c.shared),
    ("coupling_ratio", .float c.ratio)]

/-- From when on files count as coupled, and how many files a commit may change. -/
structure CouplingLimits where
  shared : Int := 5
  ratio : Float := 0.3
  files : Int := 50

/-- The line that begins a commit starts with this. -/
def commitMark : String := "COMMIT:"

/-- The commits of a log as lists of the tracked files that they change, without repetition; `files`
are those of the commit being read. Commits without tracked files are left out. -/
def commitsFrom (tracked : List String) (files : List String) : List String → List (List String)
  | [] => if files.isEmpty then [] else [files]
  | line :: rest =>
    let name := Text.strip line
    if Text.begins name commitMark then
      if files.isEmpty then commitsFrom tracked [] rest else files :: commitsFrom tracked [] rest
    else if tracked.contains name && !files.contains name then
      commitsFrom tracked (files ++ [name]) rest
    else commitsFrom tracked files rest

/-- The files of components. -/
def trackedFiles (cs : Components) : List String :=
  ((cs.values.map (·.relativePath)).filter (· != "")).eraseDups

/-- The commits of a log that change at most a given number of tracked files. -/
def commits (limits : CouplingLimits) (tracked : List String) (log : String) :
    List (List String) :=
  (commitsFrom tracked [] (Text.split '\n' log)).filter fun c => c.length ≤ limits.files

/-- All pairs of a list, an earlier element before a later one. -/
def pairs : List String → List (String × String)
  | [] => []
  | a :: rest => rest.map (a, ·) ++ pairs rest

/-- How many commits change a file. -/
def changes (commits : List (List String)) (file : String) : Nat :=
  (commits.filter (·.contains file)).length

/-- How many commits change both of two files. -/
def sharedChanges (commits : List (List String)) (a b : String) : Nat :=
  (commits.filter fun c => c.contains a && c.contains b).length

/-- The coupling of two files, if it is within the limits. -/
def coupling? (limits : CouplingLimits) (commits : List (List String)) (a b : String) :
    Option Coupling :=
  let shared := sharedChanges commits a b
  let ratio := shared.toFloat / (min (changes commits a) (changes commits b)).toFloat
  if limits.shared ≤ shared && ratio ≥ limits.ratio then
    some { fileA := a, fileB := b, shared := shared, ratio := Number.roundTo 3 ratio }
  else none

/-- No more couplings than this are reported. -/
def couplingLimit : Nat := 100

/-- The couplings that a log shows, the closest first. -/
def couplings (limits : CouplingLimits) (cs : Components) (log : String) : List Coupling :=
  let all := commits limits (trackedFiles cs) log
  let candidates := (all.flatMap fun c => pairs (Text.sorted c)).eraseDups
  let found := candidates.filterMap fun (a, b) => coupling? limits all a b
  (found.mergeSort fun x y => x.ratio ≥ y.ratio).take couplingLimit

end RepoAtlas.Report
