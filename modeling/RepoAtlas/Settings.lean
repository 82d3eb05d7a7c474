import RepoAtlas.Json.Spelled

/-!
# Settings of the user

The settings say where reports go and which files are selected. They are kept as JSON, and any value
may stand where a path or patterns are expected; a value that is nothing is left out when they are
written.
-/

namespace RepoAtlas

/-- Patterns for the files to select. -/
structure PatternSettings where
  included : Json := .null
  excluded : Json := .null

/-- The settings of the user. -/
structure Settings where
  defaultOutput : Json := .str "docs"
  patterns : PatternSettings := {}

namespace PatternSettings

/-- Whether there are no patterns. -/
def isEmpty (p : PatternSettings) : Bool :=
  !(p.included.isSomething || p.excluded.isSomething)

/-- Patterns as JSON. -/
def toJson (p : PatternSettings) : Json :=
  .obj ((if p.included.isSomething then [("include_patterns", p.included)] else []) ++
    if p.excluded.isSomething then [("exclude_patterns", p.excluded)] else [])

end PatternSettings

/-- Why a value holds no settings. -/
inductive SettingsMisfit where
  /-- The value, or that of the patterns, has no members. -/
  | noMembers
  /-- The value cannot be searched for the name of the patterns, or not be looked up by it. -/
  | noLookup
  deriving DecidableEq, Repr

namespace Settings

/-- The member that holds the patterns. -/
def patternsName : String := "agent_instructions"

/-- The settings as members of an object. -/
def members (s : Settings) : List (String × Json) :=
  ("default_output", s.defaultOutput) ::
    if s.patterns.isEmpty then [] else [(patternsName, s.patterns.toJson)]

/-- The settings as JSON. -/
def toJson (s : Settings) : Json :=
  .obj s.members

/-- The patterns that a value holds. -/
def patternsOf : Json → Except SettingsMisfit PatternSettings
  | .obj ms => .ok { included := (ms.lookup "include_patterns").getD .null
                     excluded := (ms.lookup "exclude_patterns").getD .null }
  | _ => .error .noMembers

/-- The settings that a value holds. -/
def ofJson : Json → Except SettingsMisfit Settings
  | .obj ms => do
    let patterns ← match ms.lookup patternsName with
      | some j => patternsOf j
      | none => .ok {}
    .ok { defaultOutput := (ms.lookup "default_output").getD (.str "docs"), patterns := patterns }
  | .arr xs => .error (if xs.any fun x => x.str? == some patternsName then .noLookup else .noMembers)
  | .str s => .error (if Text.has s patternsName then .noLookup else .noMembers)
  | _ => .error .noLookup

/-- The version of the form in which settings are kept. -/
def version : String := "1.0"

/-- The settings as they are kept. -/
def kept (s : Settings) : Json :=
  .obj (("version", .str version) :: s.members)

end Settings

end RepoAtlas
