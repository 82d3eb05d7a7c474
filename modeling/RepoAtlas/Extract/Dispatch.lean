import RepoAtlas.Extract.C
import RepoAtlas.Extract.Cpp
import RepoAtlas.Extract.CSharp
import RepoAtlas.Extract.Go
import RepoAtlas.Extract.Java
import RepoAtlas.Extract.JavaScript
import RepoAtlas.Extract.Php
import RepoAtlas.Extract.Python
import RepoAtlas.Extract.Query
import RepoAtlas.Extract.TypeScript
import RepoAtlas.Extract.Vue

/-!
# Analysing a file by its language

Queries are tried first, except for Go and Vue files. Where they give nothing, the analysis that
belongs to the language is used; a language without one has no findings.
-/

namespace RepoAtlas.Extract

open Syntax

/-- What files are analysed with. -/
structure Toolbox where
  parsers : Parsers := {}
  queries : Query.Queries := {}
  /-- How the statements of a Python text are read. -/
  statements? : List Char → Option (List Grammar.Phrase) := Grammar.program?
  /-- Whether files can be analysed side by side. -/
  hasPool : Bool := true

/-- The findings of the analysis that belongs to a language. -/
def byLanguage (t : Toolbox) (language : String) (file : SourceFile) :
    Except Fault Go.FileFindings :=
  let plain (f : Except Fault Findings) : Except Fault Go.FileFindings :=
    f.map fun f => { findings := f }
  match language with
  | "python" => plain (Python.analyze t.statements? file)
  | "javascript" => .ok { findings := JavaScript.analyze t.parsers file }
  | "typescript" => .ok { findings := TypeScript.analyze t.parsers file }
  | "java" => plain (Java.analyze t.parsers file)
  | "csharp" => plain (CSharp.analyze t.parsers file)
  | "c" => plain (C.analyze t.parsers file)
  | "cpp" => plain (Cpp.analyze t.parsers file)
  | "php" => plain (Php.analyze t.parsers file)
  | "go" => Go.analyze t.parsers file
  | "vue" => .ok { findings := Vue.analyze t.parsers file }
  | _ => .ok {}

/-- The findings in a file of a given language. -/
def analyze (t : Toolbox) (language : String) (file : SourceFile) :
    Except Fault Go.FileFindings :=
  if language = "vue" || language = "go" then byLanguage t language file
  else
    match Query.analyze t.parsers t.queries language file with
    | .ok (some f) => .ok { findings := f }
    | _ => byLanguage t language file

end RepoAtlas.Extract
