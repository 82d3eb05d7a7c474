import RepoAtlas.Repository.Atlas
import RepoAtlas.Snapshot.Tree

/-!
# Repositories in a snapshot

A snapshot of a repository lists its files. A file has a text or bytes in hexadecimal digits; other
entries are directories, links and pipes. Beside its text a file may have its tree, the captures of its
queries and the tree of a script in it. What git and other tools said is noted as well.
-/

namespace RepoAtlas.Snapshot

open Syntax Repository

/-- The bytes of pairs of hexadecimal digits. -/
def hexBytes : List Char → List UInt8
  | a :: b :: rest =>
    let value (c : Char) : Nat := (c.toLower.toNat - 48) % 39
    (value a * 16 + value b).toUInt8 :: hexBytes rest
  | _ => []

/-- Whether a member is set. -/
def isSet (j : Json) (name : String) : Bool :=
  (j.field name).bool? == some true

/-- An entry of the list of files. -/
def node (j : Json) : FileNode :=
  match (j.field "link").str?, (j.field "hex").str? with
  | some target, _ => .link target
  | none, some digits => .file (hexBytes digits.toList)
  | none, none =>
    if isSet j "dir" then .emptyDirectory
    else if isSet j "denied" then .directory false []
    else if isSet j "fifo" then .pipe
    else .file (Text.encode (text (j.field "text")))

/-- The files below a directory. -/
def files (root : String) (entries : List Json) : FileNode :=
  let place := Path.parts root
  entries.foldl (fun t j => t.insert (place ++ Path.parts (text (j.field "path"))) (node j))
    (FileNode.emptyDirectory.insert place .emptyDirectory)

/-- The language of a file: the one that is given or that of its ending. -/
def languageOf (j : Json) : String :=
  match (j.field "language").str? with
  | some l => l
  | none => (languageOf? (endingOf (text (j.field "path")))).getD ""

/-- The trees that come with a file. -/
def treesOf (j : Json) : List ((String × String) × Tree) :=
  let script := j.field "script"
  known j (languageOf j) (text (j.field "text")) ++
    known script (text (script.field "language")) (text (script.field "content"))

/-- The parsers for texts with known trees. Of trees for one text the last counts. -/
def parsers (unavailable : Json) (entries : List Json) : Parsers :=
  { unavailable := texts unavailable, trees := entries.flatMap treesOf }

/-- How queries behave. -/
def queries (j : Json) (languages : List String) : Extract.Query.Queries :=
  let broken := texts (j.field "unavailable")
  { languages := match j.get? "query_languages" with
      | some (.arr xs) => xs.filterMap Json.str?
      | _ => languages
    hasCursor := (j.field "api").str? != some "query"
    cursorFails := broken.contains "cursor_broken", queryFails := broken.contains "query_broken" }

/-- The captures that come with a file. -/
def capturesOf (j : Json) : Option ((String × String) × Extract.Query.Captures) :=
  (j.get? "captures").map fun c => ((languageOf j, text (j.field "text")), captures c)

/-- A repository at a path, with the tools to analyse it. -/
def site (j : Json) (root : String) : CallGraph.Site :=
  let entries := (j.field "files").items
  let found := entries.filterMap capturesOf
  { toolbox := { parsers := parsers (j.field "unavailable") entries
                 queries := { queries j [] with captures := found }
                 hasPool := (j.field "parallel").bool? != some false }
    files := files root entries, root := root }

/-- What a call of git gave. -/
def gitAnswer (j : Json) : GitAnswer :=
  match (j.field "raise").str? with
  | some "timeout" => .timedOut
  | some "notfound" => .missing
  | some _ => .interrupted
  | none => .finished ((j.field "code").int?.getD 0) (text (j.field "out")) (text (j.field "err"))

/-- What was measured in a function. -/
def routine (j : Json) : Metric.Routine :=
  let number (name : String) : Int := (j.field name).int?.getD 0
  { name := text (j.field "name"), longName := text (j.field "long_name")
    startLine := number "start_line", endLine := number "end_line"
    cyclomatic := number "cyclomatic_complexity", nloc := number "nloc"
    tokens := number "token_count", parameters := (j.field "parameters").items.length }

/-- What was measured in the functions of files. -/
def routines (j : Json) : Keyed (List Metric.Routine) :=
  Keyed.ofList (j.members.map fun (path, rs) => (path, rs.items.map routine))

/-- What is known about the graph of a repository. -/
def knowledge (j : Json) : Metric.Knowledge :=
  { ranks := (j.get? "pagerank").map fun m =>
      m.members.filterMap fun (k, v) => v.float?.map (k, ·)
    communities := (j.get? "partition").map fun m =>
      m.members.filterMap fun (k, v) => v.int?.map (k, ·) }

/-- What is known about a repository from elsewhere. -/
def surroundings (j : Json) (measured : Json) : Surroundings :=
  let git := j.field "git"
  { knowledge := knowledge j, routines := routines measured
    log := gitAnswer (git.field "log"), head := gitAnswer (git.field "rev-parse") }

end RepoAtlas.Snapshot
