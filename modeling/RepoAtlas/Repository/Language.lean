import RepoAtlas.Path
import RepoAtlas.Text.Word

/-!
# Languages of files

The ending of a file tells its language. Not every language that is known can be analysed.
-/

namespace RepoAtlas.Repository

/-- The languages of endings. -/
def languages : List (String × String) :=
  [(".py", "python"), (".js", "javascript"), (".ts", "typescript"), (".jsx", "javascript"),
    (".tsx", "typescript"), (".java", "java"), (".cpp", "cpp"), (".cc", "cpp"), (".cxx", "cpp"),
    (".c++", "cpp"), (".c", "c"), (".h", "c"), (".hpp", "cpp"), (".hxx", "cpp"), (".h++", "cpp"),
    (".rs", "rust"), (".go", "go"), (".php", "php"), (".rb", "ruby"), (".swift", "swift"),
    (".kt", "kotlin"), (".scala", "scala"), (".cs", "csharp"), (".vue", "vue")]

/-- The language of an ending in small letters. -/
def languageOf? (ending : String) : Option String :=
  languages.lookup ending

/-- The ending of a path in small letters. -/
def endingOf (path : String) : String :=
  Text.lower (Path.suffixOf path)

/-- The languages that can be analysed. -/
def analysable : List String :=
  ["python", "javascript", "typescript", "java", "csharp", "c", "cpp", "php", "go", "vue"]

/-- The endings that the name of a module leaves out. -/
def moduleEndings : List String :=
  [".py", ".js", ".ts", ".java", ".cs", ".cpp", ".hpp", ".h", ".c", ".tsx", ".jsx", ".cc", ".mjs",
    ".cxx", ".cjs"]

/-- The name of the module in a file: its path without its ending, with dots for slashes. -/
def moduleName (path : String) : String :=
  Text.replaceChar (Path.dropEnding path moduleEndings) '/' '.'

end RepoAtlas.Repository
