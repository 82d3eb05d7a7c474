import RepoAtlas.Text.Glob

/-!
# Selecting files

Patterns say which files of a repository are looked at. Names that begin with a dot are never looked
at. Patterns to include replace the usual ones, patterns to exclude are added to them.
-/

namespace RepoAtlas.Repository

/-- What is usually excluded. -/
def usuallyExcluded : List String :=
  [".github", ".vscode", ".git", ".gitignore", ".gitmodules", "examples", "*.pyc", "*.pyo",
    "*.pyd", "__pycache__", ".pytest_cache", ".coverage", ".tox", ".nox", ".mypy_cache",
    ".ruff_cache", ".hypothesis", "poetry.lock", "Pipfile.lock", "node_modules",
    "package-lock.json", "yarn.lock", ".npm", ".yarn", ".pnpm-store", "bun.lock", "bun.lockb",
    "jspm_packages", "*.class", "*.jar", "*.war", "*.ear", "*.nar", ".gradle/", ".settings/",
    ".classpath", "gradle-app.setting", "*.gradle", ".project", "*.o", "*.obj", "*.dll",
    "*.dylib", "*.exe", "*.lib", "*.out", "*.a", "*.pdb", "*.suo", "*.user", "*.userosscache",
    "*.sln.docstates", "*.nupkg", "bin/", ".svn", ".hg", ".gitattributes", "*.svg", "*.png",
    "*.jpg", "*.jpeg", "*.gif", "*.ico", "*.pdf", "*.mov", "*.mp4", "*.mp3", "*.wav", "venv",
    ".venv", "env", ".env", "virtualenv", ".idea", ".vs", "*.swo", "*.swn", "*.sublime-*",
    "*.log", "*.bak", "*.swp", "*.tmp", "*.temp", ".cache", ".sass-cache", ".DS_Store",
    "Thumbs.db", "desktop.ini", "dist", "build", "target", "obj", "out", "*.egg-info",
    "*.egg", "*.whl", "*.so", ".docusaurus", "*.min.js", "*.min.css", "*.map", ".terraform",
    "*.tfstate*", "Pods", "*.xcworkspace", "*.xcuserdata", "DerivedData", ".cargo", "vendor",
    "Godeps", "digest.txt", "tests", "test", "Tests", "Test", "Examples"]

/-- What is usually included. -/
def usuallyIncluded : List String :=
  ["*.py", "*.js", "*.ts", "*.jsx", "*.tsx", "*.vue", "*.java", "*.cpp", "*.c", "*.h",
    "*.cs", "*.go", "*.rs", "*.php", "*.rb", "*.swift", "*.kt", "*.scala", "*.clj", "*.hs",
    "*.ml", "*.html", "*.css", "*.scss", "*.sass", "*.json", "*.yaml", "*.yml", "*.xml",
    "*.md", "*.txt", "*.toml", "*.cfg", "*.ini"]

/-- Patterns for the files of a repository. -/
structure Selection where
  included : List String
  excluded : List String

/-- The selection for given patterns. -/
def Selection.of (included excluded : Option (List String)) : Selection :=
  { included := included.getD usuallyIncluded
    excluded := usuallyExcluded ++ excluded.getD [] }

/-- Whether a pattern excludes a path, as a glob, as a directory on the way or as a beginning. -/
def excludes (path name pattern : String) : Bool :=
  Text.globMatches pattern path || Text.globMatches pattern name ||
    (Text.ends pattern "/" &&
      Text.begins path (String.ofList (Text.trimEnd (· = '/') pattern.toList))) ||
    Text.begins path (pattern ++ "/") || path = pattern || (Text.split '/' path).contains pattern

/-- Whether a path whose last part is `name` is excluded. -/
def Selection.isExcluded (s : Selection) (path name : String) : Bool :=
  Text.begins name "." || s.excluded.any (excludes path name)

/-- Whether a file is included. Without patterns every file is. -/
def Selection.isIncluded (s : Selection) (path name : String) : Bool :=
  s.included.isEmpty ||
    s.included.any fun p => Text.globMatches p path || Text.globMatches p name

end RepoAtlas.Repository
