import RepoAtlas.Metric.Complexity
import RepoAtlas.Metric.Graph
import RepoAtlas.Report.Map
import RepoAtlas.Repository.Git
import RepoAtlas.Repository.Survey

/-!
# The atlas of a repository

The atlas holds the components of a repository with all that was measured: the graph of their
dependencies, its circuits, the leaves, and the files that change together.
-/

namespace RepoAtlas.Repository

open CallGraph

/-- What is known about a repository from elsewhere. -/
structure Surroundings where
  knowledge : Metric.Knowledge := {}
  /-- What was measured in the functions of files. -/
  routines : Keyed (List Metric.Routine) := Keyed.empty
  log : GitAnswer := .finished 0 "" ""
  head : GitAnswer := .finished 0 "" ""

/-- The components of a repository with all that was measured. -/
structure Atlas where
  components : Components
  graph : Graph
  circuits : List (List String)
  couplings : List Report.Coupling
  leaves : List String

/-- Why there is no atlas. -/
inductive AtlasFault where
  | survey (fault : SurveyFault)
  | interrupted
  deriving DecidableEq, Repr

/-- Whether a directory is kept by git. -/
def isKeptByGit (files : FileNode) (root : String) : Bool :=
  ((node? files (Path.join root ".git")).map FileNode.isDirectory).getD false

/-- No patterns are as good as none given. -/
def someIfAny (patterns : Option (List String)) : Option (List String) :=
  patterns.filter (!·.isEmpty)

/-- Make the atlas of a repository. -/
def Atlas.make (included excluded : Option (List String)) (site : Site) (w : Surroundings) :
    Except AtlasFault Atlas := do
  let sel := Selection.of (someIfAny included) (someIfAny excluded)
  let inventory ← (inventoryOf sel site).mapError .survey
  let g := Graph.ofComponents inventory.components
  let cs := Metric.withComplexity w.routines (Metric.measured g w.knowledge inventory.components)
  let couplings ← (couplingsOf {} (isKeptByGit site.files site.root) w.log cs).mapError
    fun _ => .interrupted
  let sorted := cs.map fun _ c => { c with dependsOn := Text.sorted c.dependsOn }
  .ok { components := sorted, graph := g, circuits := Metric.knownCircuits g w.knowledge,
        couplings := couplings, leaves := g.leaves cs }

/-- The map of an atlas. -/
def Atlas.map (a : Atlas) (e : Report.Edition) : Json :=
  let found := Report.violations a.components a.circuits
    (a.couplings.filter fun c => c.ratio > Report.strongRatio)
  Report.mapJson e a.components a.circuits (a.couplings.map Report.Coupling.toJson)
    (found.map Report.Violation.toJson)

/-- The name of the file that the graph of a repository is kept in: what is no letter or number in the
name of the repository becomes an underscore. -/
def graphFileName (root : String) : String :=
  let safe (c : Char) : Char := if Text.isWordChar c then c else '_'
  String.ofList ((Path.base (Path.normal root)).toList.map safe) ++ "_dependency_graph.json"

/-- The graph of an atlas as it is kept. -/
def savedJson (cs : Components) : Json :=
  .obj (cs.entries.map fun (id, c) => (id, c.toJson))

end RepoAtlas.Repository
