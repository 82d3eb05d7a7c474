import RepoAtlas.Command.Log
import RepoAtlas.Settings.Store
import RepoAtlas.Text.Blank

/-!
# Commands on the settings

One command shows the settings, the other one changes the patterns for files. What was shown before a
trouble stays shown.
-/

namespace RepoAtlas.Command

open Settings

/-- What a command leaves behind. -/
structure Result where
  exit : Nat := 0
  transcript : Transcript := {}
  /-- The files afterwards. -/
  files : FileNode
  /-- The paths of the reports that were written. -/
  written : List String := []

/-- The parts of a text at its commas, without blanks around them; empty parts are left out. -/
def parsePatterns (text : String) : List String :=
  ((Text.split ',' text).map Text.strip).filter (· != "")

/-- The trouble of a fault of the store. -/
def troubleOf (f : StoreFault) : Trouble :=
  match f.message? with
  | some m => .settings m
  | none => .unexpected "the file holds no settings"

/-- A result that ends with a trouble. -/
def stopped (t : Transcript) (files : FileNode) (trouble : Trouble) : Result :=
  { exit := trouble.exit, transcript := t.report false trouble, files := files }

/-- Patterns on a line, if they are texts. -/
def patternLine? (label : String) (patterns : Json) : Option String :=
  patterns.texts?.map fun ts => "  " ++ label ++ ": " ++ Text.join ", " ts

/-- The lines that show patterns, and whether all could be shown. -/
def patternLines (p : PatternSettings) : List String × Bool :=
  let lines (label : String) (j : Json) : List String × Bool :=
    if j.isSomething then
      match patternLine? label j with
      | some l => ([l], true)
      | none => ([], false)
    else ([], true)
  match lines "Include" p.included with
  | (ls, false) => (ls, false)
  | (ls, true) => ((lines "Exclude" p.excluded).map (ls ++ ·) id)

/-- The line below a heading. -/
def rule : String := String.ofList (List.replicate 40 '=')

/-- The trouble when patterns cannot be shown. -/
def unshown : Trouble := .unexpected "the patterns are no texts"

/-- The settings in words. -/
def showInWords (store : Store) (files : FileNode) (s : Settings) : Result :=
  let head : Transcript := ({} : Transcript).sayAll ["", "CodeWiki Configuration", rule, "",
    "  Default Output: " ++ s.defaultOutput.spelled, "", "File Patterns"]
  let (lines, complete) := if s.patterns.isEmpty then
      (["  Using defaults (no custom patterns)"], true) else patternLines s.patterns
  let t := head.sayAll lines
  if complete then
    { transcript := t.sayAll ["", "Config file: " ++ store.file, ""], files := files }
  else stopped t files unshown

/-- The settings as JSON for the user. -/
def shownJson (store : Store) (s : Settings) : Json :=
  .obj [("default_output", s.defaultOutput), ("agent_instructions", s.patterns.toJson),
    ("config_file", .str store.file)]

/-- Show the settings. -/
def showSettings (home : String) (files : FileNode) (asJson : Bool) : Result :=
  match ({ home := home } : Store).load files with
  | .error f => stopped {} files (troubleOf f)
  | .ok (store, _) =>
    match store.held with
    | none =>
      { exit := 2, files := files,
        transcript := (({} : Transcript).warn "\nNo configuration found.").say
          "Run 'codewiki config agent' to set file patterns." }
    | some s =>
      if asJson then
        { transcript := ({} : Transcript).say ((shownJson store s).render (.indented 2))
          files := files }
      else showInWords store files s

/-- Save new patterns and say so. -/
def savePatterns (store : Store) (files : FileNode) (s : Settings) (p : PatternSettings)
    (lines : List String) : Result :=
  match ({ store with held := some { s with patterns := p } }).save files none with
  | (_, files, some f) => stopped {} files (troubleOf f)
  | (_, files, none) => { transcript := ({} : Transcript).sayAll lines, files := files }

/-- Show the patterns. -/
def showPatterns (files : FileNode) (p : PatternSettings) : Result :=
  let (lines, complete) := if p.isEmpty then (["  No patterns configured"], true)
    else patternLines p
  let t := (({} : Transcript).sayAll ["", "File Patterns", rule]).sayAll lines
  if complete then
    { transcript := t.say "\nUse 'codewiki config agent --help' for usage.", files := files }
  else stopped t files unshown

/-- New patterns for an option: none if it is not given, nothing if it is empty. -/
def newPatterns (old : Json) : Option String → Json
  | none => old
  | some "" => .null
  | some text => .strings (parsePatterns text)

/-- The line that confirms new patterns. -/
def confirmed (label : String) : Option String → List String
  | none => []
  | some "" => []
  | some text => [label ++ ": " ++ Text.quotedList (parsePatterns text)]

/-- Change the patterns, clear them, or show them if nothing is to be changed. -/
def changePatterns (home : String) (files : FileNode) (included excluded : Option String)
    (clear : Bool) : Result :=
  match ({ home := home } : Store).load files with
  | .error f => stopped {} files (troubleOf f)
  | .ok (store, _) =>
    let s := store.held.getD {}
    if clear then savePatterns store files s {} ["\nPatterns cleared."]
    else if included.getD "" = "" && excluded.getD "" = "" then showPatterns files s.patterns
    else
      savePatterns store files s
        { included := newPatterns s.patterns.included included
          excluded := newPatterns s.patterns.excluded excluded }
        ("" :: confirmed "Include" included ++ confirmed "Exclude" excluded ++
          ["\nPatterns updated."])

end RepoAtlas.Command
