import RepoAtlas.Files.Guarded
import RepoAtlas.Json.Reader
import RepoAtlas.Json.Writer
import RepoAtlas.Settings

/-!
# Where settings are kept

Settings are kept in a file below the home of the user. A store holds the settings that were loaded or
made last; they stay if loading others fails.
-/

namespace RepoAtlas.Settings

/-- Why settings were not loaded, saved or cleared. -/
inductive StoreFault where
  /-- The file cannot be read or holds no JSON. -/
  | unloadable (reason : String)
  /-- The file holds JSON that is no settings. -/
  | misfit (m : SettingsMisfit)
  | noDirectory (reason : String)
  | unsavable (reason : String)
  /-- A directory stands where the file belongs. -/
  | isDirectory
  deriving DecidableEq, Repr

/-- What the user is told, if the fault is one of the settings. -/
def StoreFault.message? : StoreFault → Option String
  | .unloadable r => some ("Failed to load configuration: " ++ r)
  | .noDirectory r => some ("Cannot create config directory: " ++ r)
  | .unsavable r => some ("Failed to save configuration: " ++ r)
  | _ => none

/-- A store of settings. -/
structure Store where
  home : String
  held : Option Settings := none

namespace Store

/-- The directory of the settings. -/
def directory (s : Store) : String := s.home ++ "/.codewiki"

/-- The file of the settings. -/
def file (s : Store) : String := s.directory ++ "/config.json"

/-- The settings in a text. -/
def read (text : String) : Except StoreFault Settings :=
  match Json.parse? text with
  | none => .error (.unloadable "the file holds no JSON")
  | some j => (ofJson j).mapError .misfit

/-- Load the settings: whether there were any. -/
def load (s : Store) (files : FileNode) : Except StoreFault (Store × Bool) :=
  if (node? files s.file).isNone then .ok (s, false)
  else
    match Files.readGuarded [] files s.file with
    | .error f => .error (.unloadable f.message)
    | .ok text => (read text).map fun v => ({ s with held := some v }, true)

/-- The settings that are saved: those held, else those in the file, else new ones. -/
def toSave (s : Store) (files : FileNode) : Except StoreFault Settings :=
  match s.held with
  | some v => .ok v
  | none => (s.load files).map fun (s, _) => s.held.getD {}

/-- Save the settings with a new place for reports, if one is given. -/
def save (s : Store) (files : FileNode) (output : Option String) :
    Store × FileNode × Option StoreFault :=
  match Files.ensureDirectory [] files s.directory with
  | .error f => (s, files, some (.noDirectory f.message))
  | .ok (files, _) =>
    match s.toSave files with
    | .error f => (s, files, some f)
    | .ok v =>
      let v := match output with
        | some o => { v with defaultOutput := .str o }
        | none => v
      let (files, fault) := Files.writeGuarded [] files s.file (v.kept.render (.indented 2))
      ({ s with held := some v }, files, fault.map fun f => .unsavable f.message)

/-- Remove the file and forget the settings. -/
def clear (s : Store) (files : FileNode) : Except StoreFault (Store × FileNode) :=
  if (node? files s.file).isNone then .ok ({ s with held := none }, files)
  else
    match Files.removeFile files s.file with
    | .ok files => .ok ({ s with held := none }, files)
    | .error _ => .error .isDirectory

end Store

end RepoAtlas.Settings
