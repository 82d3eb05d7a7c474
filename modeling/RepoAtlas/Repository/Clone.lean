import RepoAtlas.Files.Node
import RepoAtlas.Repository.Address
import RepoAtlas.Repository.Git
import RepoAtlas.Text.Literal

/-!
# Cloning a repository and removing the clone

A repository is cloned into a directory of its own. If that fails the directory is removed again. A
removal that is refused is tried once more after the permissions of what is inside were set; a directory
that may only be written to can then no longer be opened, which is what the second try runs into.
-/

namespace RepoAtlas.Repository

/-- What removing a directory tree gives. -/
inductive Removal where
  /-- The tree is removed. -/
  | works
  /-- The removal is not permitted. -/
  | refused
  /-- The removal fails for another reason. -/
  | fails
  /-- A file in it is read-only: whoever can handle that removes it, for others it is not permitted. -/
  | readOnly
  deriving DecidableEq, Repr

/-- A directory that repositories are cloned to. -/
structure CloneSite where
  /-- The path of the directory. -/
  path : String
  /-- What is there now, if anything. -/
  target : Option FileNode := none
  /-- What the next removals give; after these every removal works. -/
  removals : List Removal := []
  /-- What was printed. -/
  printed : String := ""

/-- The systems a repository is cloned on. -/
inductive Platform where
  | unix
  | windows
  deriving DecidableEq, Repr

/-- Why a tree was not removed. -/
inductive RemovalFault where
  | notPermitted (message : String)
  | other (message : String)
  deriving DecidableEq, Repr

/-- The message of a removal that is refused or fails. -/
def removalMessage : String := "rmtree failed"

/-- The read-only file of a tree. -/
def readOnlyName : String := "ro"

/-- The first directory of a tree, by name, that cannot be opened. -/
def firstLocked? (t : FileNode) : Option String :=
  (Text.sorted ((t.children.filter fun (_, c) => c.isDirectory && !c.isListable).map (·.1))).head?

/-- Whether a tree that works is really removed: it is if all its directories can be opened. The one who
handles read-only files tries to open a locked directory once more, which goes wrong in its own way. -/
def removeOpen (handles : Bool) (t : FileNode) : Option RemovalFault :=
  match firstLocked? t with
  | none => none
  | some name =>
    if handles then some (.other "open() missing required argument 'flags' (pos 2)")
    else some (.notPermitted ("[Errno 13] Permission denied: " ++ Text.quoted name))

/-- Remove a tree, with or without someone who handles read-only files. -/
def CloneSite.removeTree (s : CloneSite) (handles : Bool) (t : FileNode) :
    CloneSite × Option RemovalFault :=
  let next := s.removals.headD .works
  let s := { s with removals := s.removals.tail }
  let fault := match next with
    | .works => removeOpen handles t
    | .refused => some (.notPermitted removalMessage)
    | .fails => some (.other removalMessage)
    | .readOnly =>
      if !handles then some (.notPermitted removalMessage)
      else if ((t.child? readOnlyName).map FileNode.isDirectory).getD false then
        some (.other ("[Errno 21] Is a directory: " ++
          Text.quoted (s.path ++ "/" ++ readOnlyName)))
      else none
  (if fault.isNone then { s with target := none } else s, fault)

/-- The directories of a tree after their permissions were set: they can be written to and no longer
opened, so what is inside them stays as it is. -/
def locked : FileNode → FileNode
  | .directory b cs => .directory b (cs.map fun (n, c) => match c with
      | .directory _ inner => (n, .directory false inner)
      | other => (n, other))
  | other => other

/-- Print a line. -/
def CloneSite.print (s : CloneSite) (line : String) : CloneSite :=
  { s with printed := s.printed ++ line ++ "\n" }

/-- The second try to remove a tree. -/
def CloneSite.removeAgain (s : CloneSite) (t : FileNode) : CloneSite × Bool :=
  let t := locked t
  match ({ s with target := some t }).removeTree false t with
  | (s, none) => (s, true)
  | (s, some (.notPermitted m)) | (s, some (.other m)) =>
    (s.print s!"⚠️ Warning: Failed to cleanup {s.path} after retry: {m}", false)

/-- Remove the clone: whether it was there and is removed. -/
def CloneSite.cleanUp (s : CloneSite) (platform : Platform) : CloneSite × Bool :=
  match s.target with
  | none => (s, false)
  | some t =>
    match s.removeTree (platform = .windows) t with
    | (s, none) => (s, true)
    | (s, some (.notPermitted _)) => s.removeAgain t
    | (s, some (.other m)) => (s.print s!"⚠️ Warning: Failed to cleanup {s.path}: {m}", false)

/-- Why a repository was not cloned. -/
inductive CloneFault where
  | noGit
  | timedOut
  | failed (errors : String)
  | gitMissing (executable : String)
  deriving DecidableEq, Repr

/-- The message of a fault. -/
def CloneFault.message : CloneFault → String
  | .noGit => "Git executable not found. Please install Git and ensure it is in the system's PATH."
  | .timedOut => "Repository cloning timed out after 5 minutes. " ++
      "The repository may be too large or network is slow."
  | .failed errors => "Failed to clone repository: " ++ errors
  | .gitMissing executable => s!"Git executable not found at '{executable}'. " ++
      "Please ensure Git is installed and the path is correct."

/-- The part of the repository that is checked out on Windows. -/
def sparseText : String :=
  "*\n!**/tests/**/CvnF9nAXfESwhrtdkjGhX2wAkKHzwr8N2rjExPK8eZYS/**\n" ++
    "!**/0x0000000000000000000000000000000000000000000000000000000000000002/**\n"

/-- Where that part is written down. -/
def sparsePlace : List String := [".git", "info", "sparse-checkout"]

/-- How git answers while a repository is cloned. -/
structure CloneAnswers where
  /-- The program that is called, if there is one. -/
  executable : Option String := some "git"
  clone : GitAnswer := .finished 0 "" ""
  /-- For settings of the user. -/
  config : GitAnswer := .finished 0 "" ""
  /-- For calls inside the clone. -/
  inside : GitAnswer := .finished 0 "" ""

/-- Whether a call ran at all. -/
def GitAnswer.ran : GitAnswer → Bool
  | .finished _ _ _ => true
  | _ => false

/-- What cloning gives: the site afterwards, the calls made, and the fault if there was one. -/
structure Cloned where
  site : CloneSite
  calls : List (List String)
  fault : Option CloneFault

/-- The fault of the call that clones. -/
def cloneFault? (executable : String) : GitAnswer → Option CloneFault
  | .finished code _ errors => if code = 0 then none else some (.failed errors)
  | .timedOut => some .timedOut
  | .missing => some (.gitMissing executable)
  | .interrupted => none

/-- Check out only a part of a fresh clone. -/
def checkOutPart (a : CloneAnswers) (git : String) (s : CloneSite) :
    CloneSite × List (List String) :=
  let first := [git, "-C", s.path, "config", "core.sparseCheckout", "true"]
  let second := [git, "-C", s.path, "read-tree", "-m", "-u", "HEAD"]
  let sparse := FileNode.file (Text.encode sparseText)
  if a.inside.ran then
    let target := s.target.map fun t => t.insert sparsePlace sparse
    ({ s with target := target }, [first, second])
  else (s, [first])

/-- Clone the repository at an address. -/
def clone (platform : Platform) (a : CloneAnswers) (s : CloneSite) (address : String) : Cloned :=
  match a.executable.filter (· != "") with
  | none => ⟨s, [], some .noGit⟩
  | some git =>
    let s := { s with target := some FileNode.emptyDirectory }
    let before := if platform = .windows then
      [[git, "config", "--global", "core.longpaths", "true"]] else []
    let calls := before ++
      [[git, "clone", "--depth", "1", "--filter=blob:none", cloneAddress address, s.path]]
    match cloneFault? git a.clone with
    | some fault => ⟨(s.cleanUp platform).1, calls, some fault⟩
    | none =>
      if platform = .windows then
        let (s, more) := checkOutPart a git s
        ⟨s, calls ++ more, none⟩
      else ⟨s, calls, none⟩

end RepoAtlas.Repository
