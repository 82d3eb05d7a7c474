import RepoAtlas.Files.Node

/-!
# The languages of a repository

The files below a directory are counted by language. Directories that are links or cannot be listed are
not entered, links to files count as files. Files on a path with the name of a skipped directory are left
out, wherever in the path that name stands.
-/

namespace RepoAtlas.Repository

/-- The languages that are counted and the endings of their files. -/
def countedLanguages : List (String × List String) :=
  [("Python", [".py"]), ("Java", [".java"]), ("JavaScript", [".js", ".jsx"]),
    ("TypeScript", [".ts", ".tsx"]), ("C", [".c", ".h"]),
    ("C++", [".cpp", ".hpp", ".cc", ".hh", ".cxx", ".hxx"]), ("C#", [".cs"]),
    ("PHP", [".php", ".phtml", ".inc"]), ("Go", [".go"])]

/-- The names of skipped directories. -/
def skippedNames : List String :=
  ["node_modules", "__pycache__", ".git", "build", "dist", ".venv", "venv", "env", ".env", "target",
    "bin", "obj", ".pytest_cache", ".mypy_cache", ".tox", "coverage", "htmlcov", ".eggs",
    "*.egg-info", "vendor", "bower_components", ".idea", ".vscode", ".gradle", ".mvn"]

/-- The language of a file by its ending. -/
def countedLanguage? (name : String) : Option String :=
  (countedLanguages.find? fun (_, es) => es.contains (Path.suffixOf name)).map (·.1)

/-- Whether a node is counted by its name: a file, or a link that may lead to one. -/
def isLeaf (n : FileNode) : Bool :=
  n.isFile || n.isLink

/-- The places of the files and links that are children of a directory; `place` is its own. -/
def leavesAmong (place : List String) (children : List (String × FileNode)) : List (List String) :=
  (children.filter fun e => isLeaf e.2).map fun e => place ++ [e.1]

mutual
/-- The places of all files and links below a node, in directories that can be listed. The children of a
directory come before what is deeper. -/
def leavesBelow (place : List String) : FileNode → List (List String)
  | .directory true cs => leavesAmong place cs ++ leavesIn place cs
  | _ => []

/-- The places of all files and links below the children of a directory. -/
def leavesIn (place : List String) : List (String × FileNode) → List (List String)
  | [] => []
  | (name, c) :: rest => leavesBelow (place ++ [name]) c ++ leavesIn place rest
end

/-- Whether a place leads to a file. -/
def leadsToFile (root : FileNode) (place : List String) : Bool :=
  match seek root true linkLimit [] place with
  | .ok (_, n) => n.isFile
  | .error _ => false

/-- The languages of the files below a directory, one for each file. -/
def languagesBelow (root : FileNode) (place : List String) : List String :=
  let below := ((root.at? place).map (leavesBelow place)).getD []
  let counted := below.filter fun p => leadsToFile root p && !p.any skippedNames.contains
  counted.filterMap fun p => countedLanguage? (p.getLast?.getD "")

/-- Languages with their numbers of files: the most frequent first, those that are equally frequent in the
order in which they were met. -/
def tally (all : List String) : List (String × Nat) :=
  (all.eraseDups.map fun l => (l, all.count l)).mergeSort fun a b => a.2 ≥ b.2

/-- The languages below a directory with their numbers of files. -/
def census (root : FileNode) (place : List String) : List (String × Nat) :=
  tally (languagesBelow root place)

/-- Why a directory is no repository. -/
inductive RepositoryFault where
  | missing (path : String)
  | notDirectory (path : String)
  | noCode (path : String)
  deriving DecidableEq, Repr

/-- What the user is told. -/
def RepositoryFault.message : RepositoryFault → String
  | .missing p => "Repository path does not exist: " ++ p
  | .notDirectory p => "Repository path is not a directory: " ++ p
  | .noCode p => "No supported code files found in " ++ p ++ "\n\n" ++
      "CodeWiki supports: Python, Java, JavaScript, TypeScript, C, C++, C#, PHP, Go\n\n" ++
      "Please navigate to a code repository:\n  cd /path/to/your/project\n  codewiki generate"

/-- A repository: where it is and which languages its files are in. -/
structure Recognized where
  path : String
  languages : List (String × Nat)

/-- Recognise the repository that a path leads to. -/
def recognize (root : FileNode) (path : String) : Except RepositoryFault Recognized :=
  let place := (realPlace? root path).getD (Path.parts path)
  let full := "/" ++ Text.join "/" place
  match root.at? place with
  | none => .error (.missing full)
  | some (.directory _ _) =>
    let found := census root place
    if found.isEmpty then .error (.noCode full) else .ok { path := full, languages := found }
  | some _ => .error (.notDirectory full)

end RepoAtlas.Repository
