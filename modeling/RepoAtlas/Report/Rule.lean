import RepoAtlas.Report.Coupling

/-!
# Rules of architecture

Each rule looks for one kind of weakness and describes every case as a violation. Violations are
listed by severity, and equally severe ones in the order of the rules.
-/

namespace RepoAtlas.Report

/-- How much a violation matters. -/
inductive Severity where
  | high
  | medium
  | low
  deriving DecidableEq, Repr

/-- The name of a severity. -/
def Severity.name : Severity → String
  | .high => "high"
  | .medium => "medium"
  | .low => "low"

/-- The place of a severity in a report. -/
def Severity.place : Severity → Nat
  | .high => 0
  | .medium => 1
  | .low => 2

/-- A weakness that a rule found. -/
structure Violation where
  rule : String
  severity : Severity
  message : String
  components : List String

/-- A violation as JSON. -/
def Violation.toJson (v : Violation) : Json :=
  .obj [("rule", .str v.rule), ("severity", .str v.severity.name), ("message", .str v.message),
    ("components", .strings v.components)]

/-- Long circuits of dependencies. -/
def longCircuit? (circuit : List String) : Option Violation :=
  if 3 < circuit.length then
    some {
      rule := "no-long-circular-deps", severity := .high, components := circuit.take 10
      message := s!"Circular dependency chain of {circuit.length} components" }
  else none

/-- Complex components that many others depend on. -/
def godComponent? (id : String) (c : Component) : Option Violation :=
  if 10 ≤ c.fanIn && c.complexityScore > 70.0 then
    let score := Number.fixed 1 c.complexityScore
    some {
      rule := "no-god-components", severity := .high, components := [id]
      message := s!"{c.name}: fan-in={c.fanIn}, complexity={score} — likely doing too much" }
  else none

/-- Hubs that depend on more than depends on them. -/
def unstableHub? (id : String) (c : Component) : Option Violation :=
  if c.isHub && c.instability > 0.8 then
    let x := Number.fixed 2 c.instability
    some {
      rule := "no-unstable-hubs", severity := .medium, components := [id]
      message := s!"{c.name}: hub with instability={x} — changes here cascade widely" }
  else none

/-- Components that are hard to maintain. -/
def lowMaintainability? (id : String) (c : Component) : Option Violation :=
  if c.maintainability < 20.0 && (20 < c.nloc || 5 < c.cyclomatic) then
    let x := Number.fixed 1 c.maintainability
    some {
      rule := "low-maintainability", severity := .medium, components := [id]
      message := s!"{c.name}: maintainability_index={x}/100, CC={c.cyclomatic}" }
  else none

/-- From more than this on, code is hard to understand. -/
def cognitiveLimit : Nat := 15

/-- Components that are hard to understand. -/
def highCognitive? (id : String) (c : Component) : Option Violation :=
  if cognitiveLimit < c.cognitive then
    some {
      rule := "high-cognitive-complexity", severity := .medium, components := [id]
      message := s!"{c.name}: cognitive_complexity={c.cognitive} (threshold: {cognitiveLimit})" }
  else none

/-- Whether a component in one file and a component in another depend on each other. -/
def linked (cs : Components) (a b : String) : Bool :=
  (cs.values.filter (·.relativePath = a)).any fun x =>
    (cs.values.filter (·.relativePath = b)).any fun y =>
      x.dependsOn.contains y.id || y.dependsOn.contains x.id

/-- Files that change together with a ratio above this are coupled strongly. -/
def strongRatio : Float := 0.7

/-- Files that change together without a dependency between them. -/
def hiddenCoupling? (cs : Components) (c : Coupling) : Option Violation :=
  if c.ratio > strongRatio && !linked cs c.fileA c.fileB then
    let x := Number.fixed 0 (c.ratio * 100.0)
    some {
      rule := "hidden-coupling", severity := .low, components := []
      message :=
        s!"{c.fileA} ↔ {c.fileB}: {x}% temporal coupling without code dependency" }
  else none

/-- Components on many paths that several others depend on. -/
def bottleneck? (id : String) (c : Component) : Option Violation :=
  if 5 ≤ c.fanIn then
    let x := Number.fixed 4 c.betweenness
    some {
      rule := "bottleneck-component", severity := .low, components := [id]
      message := s!"{c.name}: betweenness={x}, fan-in={c.fanIn} — sits on many dependency paths" }
  else none

/-- The components that lie between most others: one in twenty of those that lie between any, but at
least one. -/
def mostBetween (cs : Components) : List (String × Component) :=
  let between := cs.entries.filter fun (_, c) => c.betweenness > 0.0
  (between.mergeSort fun a b => a.2.betweenness ≥ b.2.betweenness).take
    (max 1 (between.length / 20))

/-- The violations of all rules, by severity. -/
def violations (cs : Components) (circuits : List (List String)) (couplings : List Coupling) :
    List Violation :=
  let each (rule : String → Component → Option Violation) (es : List (String × Component)) :=
    es.filterMap fun (id, c) => rule id c
  let all := circuits.filterMap longCircuit? ++ each godComponent? cs.entries ++
    each unstableHub? cs.entries ++ each lowMaintainability? cs.entries ++
    each highCognitive? cs.entries ++ couplings.filterMap (hiddenCoupling? cs) ++
    each bottleneck? (mostBetween cs)
  all.mergeSort fun a b => a.severity.place ≤ b.severity.place

/-- Why a coupling cannot be judged. -/
inductive CouplingGap where
  /-- A field that is needed is missing. -/
  | missingField (name : String)
  deriving Repr

/-- The strong couplings among those that JSON describes. Each needs a ratio; only a strong one needs
its files. -/
def strongCoupling? (j : Json) : Except CouplingGap (Option Coupling) := do
  let needed (name : String) : Except CouplingGap Json :=
    match j.get? name with
    | some v => .ok v
    | none => .error (.missingField name)
  let ratio := ((← needed "coupling_ratio").float?).getD 0.0
  if ratio > strongRatio then
    let a ← needed "file_a"
    let b ← needed "file_b"
    .ok (some { fileA := a.str?.getD "", fileB := b.str?.getD "", shared := 0, ratio := ratio })
  else .ok none

end RepoAtlas.Report
