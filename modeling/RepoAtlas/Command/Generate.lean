import RepoAtlas.Command.Settings
import RepoAtlas.Files.Change
import RepoAtlas.Report.Viewer
import RepoAtlas.Repository.Atlas
import RepoAtlas.Repository.Census

/-!
# Making the reports of a repository

The command recognises the repository, makes its atlas and writes three reports: the graph of its
components, the map, and the page that shows the map. The user may interrupt it while git runs.
-/

namespace RepoAtlas.Command

open Repository CallGraph

/-- How the reports are made. -/
structure GenerateOptions where
  output : String := "docs"
  included : Option String := none
  excluded : Option String := none
  verbose : Bool := false

/-- The time of a command. -/
structure Clock where
  date : String
  timeOfDay : String
  /-- The seconds that the command takes. -/
  elapsed : Nat := 0

/-- Where a command runs. -/
structure Scene where
  home : String
  /-- The files and tools; its root is where the command is called. -/
  site : Site
  surroundings : Surroundings := {}
  clock : Clock

/-- How a command was stopped. -/
inductive Stop where
  | trouble (t : Trouble)
  | interrupted

/-- What was done before a command ended. -/
structure Progress where
  transcript : Transcript := {}
  files : FileNode
  written : List String := []

/-- Write a report. -/
def Progress.write (p : Progress) (path text : String) : Except Stop Progress :=
  match Files.writeText p.files path text with
  | .ok files => .ok { p with files := files, written := p.written ++ [path] }
  | .error _ => .error (.trouble (.unexpected "a report cannot be written"))

/-- Make a directory for reports. -/
def Progress.makeDirectory (p : Progress) (path : String) : Except Stop Progress :=
  match Files.makeDirectories p.files path with
  | .ok files => .ok { p with files := files }
  | .error _ => .error (.trouble (.unexpected "a directory cannot be made"))

/-- The patterns that the command uses: those of its option, else those of the settings. -/
def chosenPatterns (option : Option String) (settings : Json) : Json :=
  match option.filter (· != "") with
  | some text => .strings (parsePatterns text)
  | none => settings

/-- How the command stops at patterns that are no texts. -/
def noTexts : Stop := .trouble (.unexpected "the patterns are no texts")

/-- The patterns for files to exclude as texts. They are added to a list, so they must be one. -/
def excludedTexts (patterns : Json) : Except Stop (Option (List String)) :=
  if patterns.isSomething then
    match patterns, patterns.texts? with
    | .arr _, some ts => .ok (some ts)
    | _, _ => .error noTexts
  else .ok none

/-- The texts that a value begins with if it is a sequence, and whether nothing else is in it. -/
def leadingTexts : Json → List String × Bool
  | .arr xs =>
    let leading := xs.takeWhile (·.str?.isSome)
    (leading.filterMap Json.str?, leading.length = xs.length)
  | j => (j.texts?.getD [], j.texts?.isSome)

/-- How many files of a repository are selected. -/
def selectedCount (site : Site) (included excluded : Option (List String)) : Nat :=
  match structureOf (.of included excluded) site with
  | .ok t => t.count
  | .error _ => 0

/-- The patterns for files to include as texts. A file is compared with one pattern after the other, so
what is no text stops the command only if a file is not selected before. -/
def includedTexts (site : Site) (patterns : Json) (excluded : Option (List String)) :
    Except Stop (Option (List String)) :=
  if patterns.isSomething then
    let (leading, complete) := leadingTexts patterns
    let selected := if leading.isEmpty then 0 else selectedCount site (some leading) excluded
    if complete || selected = selectedCount site (some []) excluded then .ok (some leading)
    else .error noTexts
  else .ok none

/-- The directory of the reports; a leading tilde is the home of the user. -/
def outputPlace (s : Scene) (root output : String) : Except Stop String :=
  match Path.isAbsolute output, Path.parts output with
  | false, "~" :: rest =>
    .ok (Files.resolved s.site.files (Path.join s.home (Text.join "/" rest)))
  | false, first :: _ =>
    if Text.begins first "~" then
      .error (.trouble (.unexpected "Could not determine home directory."))
    else .ok (Files.resolved s.site.files (Path.join root output))
  | _, _ => .ok (Files.resolved s.site.files (Path.join root output))

/-- The languages of a repository in words. -/
def languageWords (languages : List (String × Nat)) : String :=
  Text.join ", " (languages.map fun (l, n) => s!"{l} ({n})")

/-- The directory of the graph below that of the reports. -/
def graphDirectory (output : String) : String := Path.join output "dependency_graphs"

/-- What the command says at its end. -/
def closingLines (a : Atlas) (clock : Clock) (output page : String) : List String :=
  ["", "Analysis complete!", "", s!"  Components:    {a.components.size}",
    s!"  Leaf nodes:    {a.leaves.length}", s!"  Circular deps: {a.circuits.length}",
    s!"  Temporal pairs:{a.couplings.length}", s!"  Time:          {clock.elapsed}s", "",
    "  Output:        " ++ output, "  Graph viewer:  " ++ page, ""]

/-- The work of the command, step by step. Each step gives what was done so far, and the last one that
was not stopped counts. -/
structure Work where
  progress : Progress
  stop : Option Stop := none

/-- Go on unless the work was stopped. -/
def Work.next (w : Work) (step : Progress → Except Stop Progress) : Work :=
  match w.stop with
  | some _ => w
  | none =>
    match step w.progress with
    | .ok p => { w with progress := p }
    | .error s => { w with stop := some s }

/-- Tell the user something. -/
def Work.tell (w : Work) (o : GenerateOptions) (clock : Clock) (n : Notice) : Work :=
  w.next fun p =>
    .ok { p with transcript := p.transcript.tell o.verbose clock.timeOfDay n }

/-- Make the atlas of a repository with the patterns of the command. -/
def makeAtlas (s : Scene) (root : String) (included excluded : Json) : Except Stop Atlas := do
  let site := { s.site with root := root }
  let excluded ← excludedTexts excluded
  let included ← includedTexts site included excluded
  match Atlas.make included excluded site s.surroundings with
  | .ok a => .ok a
  | .error .interrupted => .error .interrupted
  | .error (.survey f) => .error (.trouble (.unexpected f.reason))

/-- Write the map of an atlas and its page. -/
def writeMap (s : Scene) (root output : String) (a : Atlas) (p : Progress) :
    Except Stop Progress := do
  let kept := isKeptByGit s.site.files root
  let commit ← (headOf kept s.surroundings.head).mapError fun _ => Stop.interrupted
  let map := a.map ⟨root, s.clock.date, if kept then some commit else none⟩
  let p ← p.write (Path.join output "codebase_map.json") (map.render (.indented 4))
  match Report.page map with
  | .ok html => p.write (Path.join output "graph.html") html
  | .error _ => .error (.trouble (.unexpected "the map has no page"))

/-- Analyse a recognised repository and write its reports. -/
def analyse (s : Scene) (o : GenerateOptions) (r : Recognized) (w : Work) : Work :=
  let store : Settings.Store := { home := s.home }
  match store.load s.site.files with
  | .error f => { w with stop := some (.trouble (troubleOf f)) }
  | .ok (store, _) =>
    let p := (store.held.getD {}).patterns
    match outputPlace s r.path o.output with
    | .error stop => { w with stop := some stop }
    | .ok output =>
      let w := w.tell o s.clock (.step "Running static analysis..." (some (2, 3)))
      let w := (w.tell o s.clock (.plain "")).next (·.makeDirectory output)
      let w := w.next (·.makeDirectory (graphDirectory output))
      let atlas := makeAtlas s r.path (chosenPatterns o.included p.included)
        (chosenPatterns o.excluded p.excluded)
      match w.stop, atlas with
      | some _, _ => w
      | none, .error stop => { w with stop := some stop }
      | none, .ok a =>
        let graph := Path.join (graphDirectory output) (graphFileName r.path)
        let w := w.next (·.write graph ((savedJson a.components).render (.indented 2)))
        let w := w.tell o s.clock (.plain
          s!"  Parsed {a.components.size} components, {a.leaves.length} leaf nodes")
        let w := w.next (writeMap s r.path output a)
        let w := w.tell o s.clock (.step "Done." (some (3, 3)))
        let closing := closingLines a s.clock output (Path.join output "graph.html")
        w.next fun p => .ok { p with transcript := p.transcript.sayAll closing }

/-- The result of the work. -/
def Work.result (w : Work) : Result :=
  let p := w.progress
  let r : Result := { transcript := p.transcript, files := p.files, written := Text.sorted p.written }
  match w.stop with
  | none => r
  | some .interrupted =>
    { r with exit := 130, transcript := p.transcript.say "\n\nInterrupted by user" }
  | some (.trouble (.repository m)) =>
    { r with exit := 3, transcript := p.transcript.warn ("✗ " ++ m) }
  | some (.trouble t) =>
    { r with exit := t.exit, transcript := p.transcript.report false t }

/-- Make the reports of the repository in which the command is called. -/
def generate (s : Scene) (o : GenerateOptions) : Result :=
  let w : Work := { progress := { files := s.site.files } }
  let w := w.tell o s.clock (.step "Validating repository..." (some (1, 3)))
  let w := match recognize s.site.files s.site.root with
    | .error f => { w with stop := some (.trouble (.repository f.message)) }
    | .ok r =>
      let w := w.tell o s.clock (.success ("Repository: " ++ Path.name r.path))
      let w := w.tell o s.clock (.detail ("Languages: " ++ languageWords r.languages))
      analyse s o r w
  w.result

end RepoAtlas.Command
