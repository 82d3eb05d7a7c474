import RepoAtlas.Graph.Leaf
import RepoAtlas.Metric.Cognitive
import RepoAtlas.Number.Fixed

/-!
# Complexity of components

Routines that a tool measured in a file are assigned to the first component of that file that they overlap or
whose name they carry. From these measures and the source follow the cognitive complexity, the maintainability
index and a score.
-/

namespace RepoAtlas.Metric

/-- A routine as a measuring tool describes it. -/
structure Routine where
  name : String
  longName : String
  startLine : Int
  endLine : Int
  cyclomatic : Int
  nloc : Int
  tokens : Int
  parameters : Nat

/-- Whether a routine belongs to a component. -/
def Routine.belongs (r : Routine) (c : Component) : Bool :=
  (c.startLine ≤ r.startLine && r.startLine ≤ c.endLine) ||
    (c.startLine ≤ r.endLine && r.endLine ≤ c.endLine) ||
    c.name = r.name || Text.has r.longName c.name

/-- A component whose measures are at least those of a routine. -/
def Routine.raise (r : Routine) (c : Component) : Component :=
  { c with
    cyclomatic := max c.cyclomatic r.cyclomatic.toNat, nloc := max c.nloc r.nloc.toNat
    tokenCount := max c.tokenCount r.tokens.toNat
    parameterCount := max c.parameterCount r.parameters }

/-- Assign a routine of a file to the first component of the file that it belongs to. -/
def assignRoutine (path : String) (cs : Components) (r : Routine) : Components :=
  match cs.entries.find? fun (_, c) => c.filePath = path && r.belongs c with
  | some (id, _) => cs.modify id r.raise
  | none => cs

/-- Assign the routines of all files, by the paths of the files. -/
def assignRoutines (routines : Keyed (List Routine)) (cs : Components) : Components :=
  let paths := ((cs.values.map (·.filePath)).filter (· != "")).eraseDups
  paths.foldl (fun cs path => ((routines.get? path).getD []).foldl (assignRoutine path) cs) cs

/-- The maintainability index: 100 is best, and the result has two places. Code without lines has the
best index. -/
def maintainability (lines cyclomatic : Int) (volume comments : Float) : Float :=
  if lines ≤ 0 then 100.0
  else
    let v := if volume > 1.0 then volume else 1.0
    let index := 171.0 - 5.2 * Float.log v - 0.23 * Float.ofInt cyclomatic -
      16.2 * Float.log (Float.ofInt lines) + 50.0 * Float.sin (Float.sqrt (2.4 * comments))
    let rounded := Number.roundTo 2 (100.0 * index / 171.0)
    if rounded > 0.0 then rounded else 0.0

/-- The maintainability index, if there is one: code with lines has none for a share of comments below
zero. -/
def maintainability? (lines cyclomatic : Int) (volume comments : Float) : Option Float :=
  if 0 < lines && comments < 0.0 then none
  else some (maintainability lines cyclomatic volume comments)

/-- An estimate of the volume of code from its number of tokens. -/
def volume (tokens : Nat) : Float :=
  if tokens = 0 then 1.0 else tokens.toFloat * Float.log2 (max tokens 2).toFloat

/-- The measures that follow from the source of a component. -/
def withSourceMeasures (c : Component) : Component :=
  match c.sourceCode with
  | none => c
  | some source =>
    if source = "" then c
    else
      let lines := Text.split '\n' source
      let total := (lines.filter fun l => Text.strip l != "").length
      let comments := (lines.filter fun l =>
        Text.begins (Text.strip l) "#" || Text.begins (Text.strip l) "//").length
      let share := comments.toFloat / (max total 1).toFloat
      { c with
        cognitive := cognitive source
        maintainability := maintainability (if 0 < c.nloc then c.nloc else total)
          (if 0 < c.cyclomatic then c.cyclomatic else 1) (volume c.tokenCount) share }

/-- What speaks against a component. -/
def burden (c : Component) : Float :=
  (c.cyclomatic * 3 + c.cognitive * 2).toFloat + (100.0 - c.maintainability)

/-- The least and the greatest of several numbers. -/
def extent (x : Float) (xs : List Float) : Float × Float :=
  xs.foldl (fun (lo, hi) y => (if y < lo then y else lo, if y > hi then y else hi)) (x, x)

/-- Scores from 0 to 100 that compare the burdens of components. -/
def withScores (cs : Components) : Components :=
  match cs.values.map burden with
  | [] => cs
  | x :: xs =>
    let (lo, hi) := extent x xs
    cs.map fun _ c =>
      { c with complexityScore :=
          if hi - lo > 0.0 then Number.roundTo 2 ((burden c - lo) / (hi - lo) * 100.0) else 0.0 }

/-- Measure the complexity of components. -/
def withComplexity (routines : Keyed (List Routine)) (cs : Components) : Components :=
  withScores ((assignRoutines routines cs).map fun _ c => withSourceMeasures c)

end RepoAtlas.Metric
