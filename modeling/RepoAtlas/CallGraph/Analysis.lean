import RepoAtlas.CallGraph.Resolution
import RepoAtlas.CallGraph.View
import RepoAtlas.Extract.Dispatch
import RepoAtlas.Files.Reading
import RepoAtlas.Repository.FileTree

/-!
# Analysing the files of a repository

Files are analysed side by side if there is a pool of workers, and one after the other otherwise. A file that
cannot be analysed is left out; with a pool it is not counted either. If a file is listed without its path, the
pool is given up.
-/

namespace RepoAtlas.CallGraph

open Extract Syntax

/-- A file that is to be analysed. Its path and its language may be missing, or given but no text. -/
structure Listed where
  path : Option (Option String)
  language : Option (Option String)
  deriving DecidableEq, Repr

/-- A file of code as one to be analysed. -/
def Listed.of (f : Repository.CodeFile) : Listed :=
  ⟨some (some f.path), some (some f.language)⟩

/-- Why a list of files cannot be analysed. -/
inductive ListingFault where
  /-- A file is listed without its path. -/
  | noPath
  /-- What is listed as a path is none. -/
  | notAPath
  deriving DecidableEq, Repr

/-- Where files are analysed, and with what. -/
structure Site where
  toolbox : Toolbox
  files : FileNode
  /-- The directory of the repository. -/
  root : String

/-- The findings in one file of the repository; `none` if it cannot be analysed. -/
def Site.findings? (s : Site) (path : String) (language : Option (Option String)) :
    Option Go.FileFindings :=
  let base := Path.tidy s.root
  let place := Path.tidy (Path.join base path)
  match Files.readText s.files base place, language with
  | .ok text, some (some l) =>
    (Extract.analyze s.toolbox l ⟨some place, some text, some s.root⟩).toOption
  | .ok _, some none => some {}
  | _, _ => none

/-- The key of a component: a component without an identifier is known by its file and name. -/
def keyIn (place : String) (c : Component) : String :=
  if c.id = "" then place ++ ":" ++ c.name else c.id

/-- Take in the findings of a file one by one. -/
def addFindings (g : CallGraph) (place : String) (f : Go.FileFindings) : CallGraph :=
  { functions := f.findings.components.foldl (fun t c => t.insert (keyIn place c) c) g.functions
    relationships := g.relationships ++ f.findings.relationships
    interfaces := merged g.interfaces f.interfaces
    structs := merged g.structs f.structs }

/-- The call graph of a file on its own, as a worker makes it. -/
def ofFindings (place : String) (f : Go.FileFindings) : CallGraph :=
  { functions := Keyed.ofList (f.findings.components.map fun c => (keyIn place c, c))
    relationships := f.findings.relationships
    interfaces := f.interfaces
    structs := f.structs }

/-- Take in the call graph of a file. -/
def join (g h : CallGraph) : CallGraph :=
  { functions := merged g.functions h.functions
    relationships := g.relationships ++ h.relationships
    interfaces := merged g.interfaces h.interfaces
    structs := merged g.structs h.structs }

/-- Analyse one more file, if it can be analysed. -/
def Site.add (s : Site) (g : CallGraph) (path : String) (language : Option (Option String)) :
    CallGraph × Bool :=
  match s.findings? path language with
  | some f => (g.addFindings (Path.tidy (Path.join (Path.tidy s.root) path)) f, true)
  | none => (g, false)

/-- What a worker makes of one file; `none` if it cannot be analysed. -/
def Site.alone? (s : Site) (path : String) (language : Option (Option String)) : Option CallGraph :=
  (s.findings? path language).map (ofFindings (Path.tidy (Path.join (Path.tidy s.root) path)))

/-- Analyse files side by side: what was found, how many files were analysed, and whether the pool was
not given up. -/
def Site.addPooled (s : Site) (g : CallGraph) (count : Nat) : List Listed → CallGraph × Nat × Bool
  | [] => (g, count, true)
  | l :: ls =>
    match l.path with
    | none => (g, count, false)
    | some none => s.addPooled g count ls
    | some (some path) =>
      match s.alone? path l.language with
      | some h => s.addPooled (g.join h) (count + 1) ls
      | none => s.addPooled g count ls

/-- Analyse files one after the other. -/
def Site.addInTurn (s : Site) (g : CallGraph) : List Listed → Except ListingFault CallGraph
  | [] => .ok g
  | l :: ls =>
    match l.path with
    | none => .error .noPath
    | some none => .error .notAPath
    | some (some path) => s.addInTurn (s.add g path l.language).1 ls

/-- Analyse files: what was found and how many files were analysed. -/
def Site.addAll (s : Site) (g : CallGraph) (files : List Listed) :
    Except ListingFault (CallGraph × Nat) :=
  let inTurn (g : CallGraph) := (s.addInTurn g files).map fun g => (g, files.length)
  if s.toolbox.hasPool then
    match s.addPooled g 0 files with
    | (g, count, true) => .ok (g, count)
    | (g, _, false) => inTurn g
  else inTurn g

/-- The call graph of a list of files and how it was made. -/
structure Report where
  graph : CallGraph
  filesAnalyzed : Nat
  /-- The languages of the files, without repetition. -/
  languages : List (Option String)

/-- Analyse files with an analyser that has analysed others before: the methods of Go types that it
knows stay known. -/
def Site.analyze (s : Site) (before : CallGraph) (files : List Listed) :
    Except ListingFault Report := do
  let start := { before with functions := Keyed.empty, relationships := [] }
  let (g, count) ← s.addAll start files
  .ok {
    graph := g.resolve.matchInterfaces.deduplicate
    filesAnalyzed := count
    languages := (files.map fun l => l.language.join).eraseDups }

/-- Analyse files of code, all of which have a path. -/
def Site.analyzeCode (s : Site) (files : List Repository.CodeFile) : Report :=
  let (g, count) := files.foldl (fun (g, n) f =>
    let (g, analysed) := s.add g f.path (some (some f.language))
    (g, if analysed then n + 1 else n)) (({} : CallGraph), 0)
  { graph := g.resolve.matchInterfaces.deduplicate
    filesAnalyzed := if s.toolbox.hasPool then count else files.length
    languages := (files.map fun f => some f.language).eraseDups }

/-- The summary of a report. -/
def Report.summary (r : Report) : List (String × Json) :=
  [("total_functions", .int r.graph.functions.size),
    ("total_calls", .int r.graph.relationships.length),
    ("languages_found", .arr (r.languages.map (Json.ofOption .str))),
    ("files_analyzed", .int r.filesAnalyzed), ("analysis_approach", .str "complete_unlimited")]

end RepoAtlas.CallGraph
