import RepoAtlas.CallGraph.Analysis
import RepoAtlas.CallGraph.Inventory
import RepoAtlas.Repository.Address
import RepoAtlas.Repository.Limit

/-!
# Surveys of a repository

A survey lists the selected files of a repository and analyses those of code, unless its own directory is
excluded. A survey of an address clones it first and removes the clone afterwards. A full survey goes through
stages, of which the first that fails is told; if the clone fails, it finds nothing to remove, which is a fault
of its own.
-/

namespace RepoAtlas.Repository

open CallGraph

/-- Why there is no survey. -/
inductive SurveyFault where
  /-- The directory of the repository is itself excluded. -/
  | excludedRoot
  /-- The repository was not cloned. -/
  | notCloned (message : String)
  /-- A stage after the clone failed. -/
  | stageFailed (message : String)
  /-- After a failed clone there is no directory to remove. -/
  | nothingToRemove
  deriving DecidableEq, Repr

/-- What a fault is called. -/
def SurveyFault.reason : SurveyFault → String
  | .excludedRoot => "'NoneType' object is not subscriptable"
  | .notCloned message => message
  | .stageFailed message => message
  | .nothingToRemove => ""

/-- What is told of a survey that failed: its reason after the given start. A survey that breaks off while
it tidies up tells nothing. -/
def SurveyFault.told? (start : String) : SurveyFault → Option String
  | .nothingToRemove => none
  | fault => some (start ++ fault.reason)

/-- The selected files of a repository. -/
def structureOf (sel : Selection) (site : Site) : Except SurveyFault FileTree :=
  match (node? site.files site.root).bind (fileTree sel (Path.name site.root)) with
  | some t => .ok t
  | none => .error .excludedRoot

/-- The selected files with their number and size. -/
def structureJson (t : FileTree) : Json :=
  .obj [("file_tree", t.toJson), ("summary", .obj t.summary)]

/-- What an analysis of the files of a tree gives. -/
structure CodeSurvey where
  report : Report
  /-- How many files of code are in languages that cannot be analysed. -/
  unsupported : Nat

/-- Analyse the files of a tree that can be analysed. -/
def surveyCode (site : Site) (t : FileTree) : CodeSurvey :=
  let all := codeFiles t
  let supported := analysableFiles all
  { report := site.analyzeCode supported, unsupported := all.length - supported.length }

/-- The summary of an analysis; languages are in the order of their names. -/
def CodeSurvey.summary (s : CodeSurvey) : List (String × Json) :=
  let languages := Text.sorted (s.report.languages.filterMap id)
  ({ s.report with languages := languages.map some }).summary ++
    [("supported_languages", .strings (Text.sorted analysable)),
      ("unsupported_files", .int s.unsupported), ("analysis_type", .str "full"),
      ("languages_analyzed", .strings languages)]

/-- What a survey of a directory gives. -/
structure LocalSurvey where
  report : Report
  files : Nat

/-- No more files than this are looked at unless more are asked for. -/
def usualFileLimit : Int := 100

/-- Survey a directory: the files in the given languages, or in all if none are given, and no more of
them than `limit`. -/
def surveyDirectory (site : Site) (limit : Int) (languages : List String) :
    Except SurveyFault LocalSurvey := do
  let t ← structureOf (.of none none) site
  let chosen := (codeFiles t).filter fun f => languages.isEmpty || languages.contains f.language
  let files := firstOf limit chosen
  .ok { report := site.analyzeCode files, files := files.length }

/-- The numbers of a survey of a directory. -/
def LocalSurvey.summary (s : LocalSurvey) : Json :=
  .obj [("total_files", .int s.files), ("total_nodes", .int s.report.graph.functions.size),
    ("total_relationships", .int s.report.graph.relationships.length)]

/-- The names of files that introduce a repository, in the order in which they are looked for. -/
def readmeNames : List String :=
  ["README.md", "README", "readme.md", "README.txt"]

/-- The text that introduces a repository. Only the first of these files that exists is read. -/
def readme? (files : FileNode) (root : String) : Option String :=
  match readmeNames.find? fun n => (node? files (Path.join root n)).isSome with
  | some n => (Files.readText files root (Path.join root n)).toOption
  | none => none

/-- What a survey of the repository at an address gives. -/
structure FullSurvey where
  location : Location
  path : String
  tree : FileTree
  code : CodeSurvey
  readme : Option String

/-- Where clones are surveyed. -/
structure Workplace where
  /-- The files and tools; a clone is put at its root. -/
  site : Site
  /-- The directories of clones that are still to be removed. -/
  clones : List String := []

namespace Workplace

/-- Note that a repository was cloned. -/
def note (w : Workplace) : Workplace :=
  { w with clones := w.clones ++ [w.site.root] }

/-- Remove a clone. -/
def discard (w : Workplace) (directory : String) : Workplace :=
  { site := { w.site with files := w.site.files.remove (Path.parts directory) }
    clones := w.clones.erase directory }

/-- Remove all clones. -/
def discardAll (w : Workplace) : Workplace :=
  w.clones.foldl discard w

/-- Whether there is something where clones are put. -/
def isOccupied (w : Workplace) : Bool :=
  (node? w.site.files w.site.root).isSome

end Workplace

/-- What the stages of a full survey give: each a result, or a message if it fails. -/
structure Stages where
  /-- Whether the repository is cloned to the root of the workplace. -/
  clone : Except String Unit
  location : Except String Location
  tree : Except String FileTree
  code : FileTree → Except String CodeSurvey
  readme : Except String (Option String)

/-- The survey of a clone at a path; the first stage that fails ends it. -/
def Stages.survey (st : Stages) (path : String) : Except String FullSurvey := do
  let location ← st.location
  let tree ← st.tree
  let code ← st.code tree
  let readme ← st.readme
  .ok { location := location, path := path, tree := tree, code := code, readme := readme }

/-- What is said before the reason why a full survey failed. -/
def fullSurveyFailed : String := "Repository analysis failed: "

/-- Survey a repository in stages. The clone is removed at the end, after a failure only if it is still
there. Without a clone there is nothing that could be looked for to be removed. -/
def Workplace.survey (w : Workplace) (st : Stages) : Workplace × Except SurveyFault FullSurvey :=
  match st.clone with
  | .error _ => (w, .error .nothingToRemove)
  | .ok () =>
    let w := w.note
    match st.survey w.site.root with
    | .ok s => (w.discard w.site.root, .ok s)
    | .error message =>
      (if w.isOccupied then w.discard w.site.root else w, .error (.stageFailed message))

/-- The stages of a survey of the repository at an address, which is cloned unless there is an error. -/
def stagesAt (site : Site) (sel : Selection) (cloneError : Option String) (address : String) :
    Stages where
  clone := match cloneError with
    | some message => .error message
    | none => .ok ()
  location := .ok (locate address)
  tree := (structureOf sel site).mapError SurveyFault.reason
  code := fun t => .ok (surveyCode site t)
  readme := .ok (readme? site.files site.root)

/-- Survey the repository at an address. -/
def surveyAddress (w : Workplace) (sel : Selection) (cloneError : Option String)
    (address : String) : Workplace × Except SurveyFault FullSurvey :=
  w.survey (stagesAt w.site sel cloneError address)

/-- The repository of a full survey. -/
def FullSurvey.repositoryJson (s : FullSurvey) : Json :=
  .obj [("url", .str s.location.address), ("name", .str s.location.name),
    ("clone_path", .str s.path),
    ("analysis_id", .str (s.location.owner ++ "-" ++ s.location.name))]

/-- The summary of a full survey. -/
def FullSurvey.summary (s : FullSurvey) : Json :=
  .obj (s.tree.summary ++ s.code.summary)

/-- The files of the repository at an address. -/
def listingJson (address : String) (t : FileTree) : Json :=
  .obj [("repository", (locate address).toJson), ("file_tree", t.toJson),
    ("file_summary", .obj (t.summary ++ [("analysis_type", .str "structure_only")]))]

/-- List the files of the repository at an address, which is cloned unless there is an error. The clone is
removed afterwards. -/
def listAddress (w : Workplace) (sel : Selection) (cloneError : Option String)
    (address : String) : Workplace × Except SurveyFault Json :=
  match cloneError with
  | some message => (w, .error (.notCloned message))
  | none =>
    let w := w.note
    (w.discard w.site.root, (structureOf sel w.site).map (listingJson address))

/-- Take the components of a repository into an inventory. -/
def inventoryOf (sel : Selection) (site : Site) : Except SurveyFault Inventory := do
  let t ← structureOf sel site
  let g := (surveyCode site t).report.graph
  .ok (({} : Inventory).add g.functions.values g.relationships)

end RepoAtlas.Repository
