import RepoAtlas.Repository.Limit
import RepoAtlas.Text.Word

/-!
# Where a program starts

Names and paths of files, and names and texts of functions, hint at where a program starts and at which
files call many others. All comparisons ignore the case of letters.
-/

namespace RepoAtlas.Repository

/-- Files with these names are entry points. -/
def entryNames : List String :=
  ["main.py", "app.py", "server.py", "__main__.py", "run.py", "start.py", "manage.py", "wsgi.py",
    "asgi.py", "gunicorn.py", "index.js", "app.js", "server.js", "main.js", "index.ts", "app.ts",
    "server.ts", "main.ts", "start.js", "start.ts", "bootstrap.js", "bootstrap.ts", "entry.js",
    "entry.ts", "main.go", "cmd.go", "server.go", "app.go", "root.go", "start.go", "main.rs",
    "lib.rs", "server.rs", "app.rs", "start.rs", "bin.rs", "main.c", "main.cpp", "main.cc",
    "main.cxx", "app.c", "app.cpp", "start.c", "start.cpp", "entry.c", "entry.cpp", "index.php",
    "app.php", "bootstrap.php", "artisan", "console", "server.php", "start.php"]

/-- Paths of entry points hold one of these. -/
def entryPaths : List String :=
  ["cmd/main", "cmd/root", "cmd/server", "src/main", "src/app", "src/server", "bin/main",
    "bin/app", "bin/server", "app/main", "app/server", "app/start", "scripts/start",
    "scripts/run"]

/-- Names of entry points hold one of these. -/
def entryWords : List String :=
  ["main", "app", "server", "start", "run", "entry", "bootstrap", "init", "cmd", "cli", "daemon",
    "service", "worker", "launcher"]

/-- Names and paths of files with many calls hold one of these. -/
def connectedWords : List String :=
  ["router", "controller", "service", "handler", "middleware", "api", "core", "engine",
    "manager", "processor", "client", "mod", "module", "pkg", "package", "lib", "util", "utils",
    "helper", "helpers", "express", "fastapi", "gin", "actix", "rocket", "db", "database",
    "model", "entity", "repo", "repository", "config", "settings", "constants", "types",
    "interfaces", "console", "text", "style", "render", "display", "format", "parse", "parser",
    "convert", "transform", "process", "table", "tree", "list", "grid", "layout", "widget",
    "color", "theme", "visual", "graphic", "draw", "paint", "file", "io", "stream", "buffer",
    "cache", "store", "base", "common", "shared", "global", "main", "index"]

/-- Directories that sources stand in. -/
def sourceDirectories : List String :=
  ["src/", "lib/", "core/", "pkg/", "cmd/", "internal/", "crates/", "modules/", "include/",
    "source/", "components/", "services/", "utils/"]

/-- Functions with these names are critical. -/
def criticalNames : List String :=
  ["main", "index", "app", "server", "start", "init", "run", "new"]

/-- Texts of critical functions hold one of these. -/
def exportTexts : List String :=
  ["export default", "module.exports =", "exports.", "pub fn main", "pub fn new", "pub fn",
    "func main", "func new", "int main", "void main", "public static void main",
    "if __name__ == \"__main__\""]

/-- The endings of source files. -/
def sourceEndings : List String :=
  [".py", ".js", ".ts", ".go", ".rs", ".c", ".cpp"]

/-- How functions are defined in a language where nothing else is known. -/
def anyDefinition : List String :=
  ["\x7bname\x7d("]

/-- How functions are defined in the languages. -/
def definitions : List (String × List String) :=
  let script := ["function \x7bname\x7d", "const \x7bname\x7d", "export \x7bname\x7d"]
  let native := ["void \x7bname\x7d", "int \x7bname\x7d", "\x7bname\x7d("]
  [("python", ["def \x7bname\x7d"]), ("javascript", script), ("typescript", script),
    ("go", ["func \x7bname\x7d"]), ("rust", ["fn \x7bname\x7d", "pub fn \x7bname\x7d"]),
    ("c", native), ("cpp", native),
    ("php", ["function \x7bname\x7d", "public function \x7bname\x7d",
      "private function \x7bname\x7d", "protected function \x7bname\x7d"]),
    ("general", anyDefinition)]

/-- Whether a text holds one of the given texts. -/
def holdsOne (s : String) (pieces : List String) : Bool :=
  pieces.any (Text.has s)

/-- How functions are defined in a language. -/
def definitionsIn (language : String) : List String :=
  (definitions.lookup (Text.lower language)).getD anyDefinition

/-- Whether the name of a file is that of an entry point. -/
def isEntryName (name : String) : Bool :=
  let name := Text.lower name
  entryNames.contains name || (holdsOne name entryWords && holdsOne name sourceEndings)

/-- Whether the path of a file is that of an entry point. -/
def isEntryPath (path : String) : Bool :=
  holdsOne (Text.lower path) entryPaths

/-- Whether a file may call many others. -/
def mayConnect (name path : String) : Bool :=
  holdsOne (Text.lower name) connectedWords || holdsOne (Text.lower path) connectedWords ||
    holdsOne (Text.lower path) sourceDirectories

/-- Whether a function is critical. -/
def isCritical (name : String) (text : Option String) : Bool :=
  criticalNames.contains (Text.lower name) ||
    holdsOne (Text.lower (text.getD "")) exportTexts

/-- A listed file. Its name or its path may be missing. -/
structure NamedFile where
  name : Option String
  path : Option String
  deriving DecidableEq, Repr

/-- What a listed file lacks. -/
inductive FileGap where
  | name
  | path
  deriving DecidableEq, Repr

/-- The name of a file in small letters. -/
def NamedFile.lowerName (f : NamedFile) : Except FileGap String :=
  match f.name with
  | some n => .ok (Text.lower n)
  | none => .error .name

/-- The path of a file. -/
def NamedFile.wholePath (f : NamedFile) : Except FileGap String :=
  match f.path with
  | some p => .ok p
  | none => .error .path

/-- How far behind a likely entry point comes. -/
def entryRank (name path : String) : Int :=
  -(Text.countChar path '/' : Int) - (if holdsOne name ["main", "app", "index"] then 10 else 0) -
    (if holdsOne name [".py", ".js", ".go", ".rs"] then 5 else 0)

/-- The files that are most likely entry points, at most `limit` of them. If no name or path hints at
one, the files at the top of the repository are taken. -/
def likelyEntries (limit : Int) (files : List NamedFile) : Except FileGap (List String) := do
  let all ← files.mapM fun f => do
    let name ← f.lowerName
    let path ← f.wholePath
    .ok (name, path)
  let hinted := all.filter fun (name, path) =>
    holdsOne name ["main", "app", "server", "start", "index"] || isEntryPath path
  let found := if hinted.isEmpty then all.filter fun (_, path) => Text.countChar path '/' ≤ 1
    else hinted
  let ranked := found.map fun (name, path) => (entryRank name path, path)
  .ok (firstOf limit ((ranked.mergeSort fun a b => a.1 ≤ b.1).map (·.2)))

/-- Source files that are no tests and are not yet among those found. -/
def addSources (found : List NamedFile) : List NamedFile → Except FileGap (List NamedFile)
  | [] => .ok found
  | f :: fs =>
    if found.contains f then addSources found fs
    else do
      let name ← f.lowerName
      if holdsOne name sourceEndings && !holdsOne name ["test", "spec", "_test"] then
        addSources (found ++ [f]) fs
      else addSources found fs

/-- The files that most likely call many others, at most `limit` of them: those in directories of
sources, and if these are too few other source files. -/
def likelyConnected (limit : Int) (files : List NamedFile) : Except FileGap (List String) := do
  let inSources ← files.filterM fun f => do
    let path ← f.wholePath
    .ok (holdsOne (Text.lower path) ["src/", "lib/", "app/", "pkg/", "core/"])
  let found ← if inSources.length < limit then addSources inSources files else .ok inSources
  (firstOf limit found).mapM NamedFile.wholePath

end RepoAtlas.Repository
