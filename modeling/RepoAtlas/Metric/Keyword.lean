import RepoAtlas.Graph.Leaf
import RepoAtlas.Number.Fixed

/-!
# Characteristic words

The words of a component are the parts of the identifiers in its source, in small letters and without
words that say little. With two or more components that have words, weights that compare them are
asked for; a single one is characterised by its most frequent words.
-/

namespace RepoAtlas.Metric

/-- Words that say little about code. -/
def stopWords : List String :=
  ["self", "cls", "def", "class", "return", "import", "from", "if", "else",
    "elif", "for", "while", "try", "except", "finally", "with", "as", "in",
    "not", "and", "or", "is", "none", "true", "false", "pass", "break",
    "continue", "raise", "yield", "lambda", "global", "nonlocal", "assert",
    "del", "print", "len", "str", "int", "float", "list", "dict", "set",
    "tuple", "bool", "type", "var", "let", "const", "function", "new",
    "this", "null", "undefined", "void", "public", "private", "protected",
    "static", "final", "abstract", "interface", "extends", "implements",
    "override", "super", "throw", "throws", "catch", "switch", "case",
    "default", "do", "goto", "package", "string", "object", "array",
    "args", "kwargs", "param", "params", "init", "main", "test", "get"]

/-- Cut into parts: a capital begins a part, an underscore or any character outside of identifiers ends
one, and a digit only continues an identifier. `part` is the part being read, reversed, and `inside`
says whether an identifier is being read. -/
def partsFrom (inside : Bool) (part : List Char) : List Char → List (List Char)
  | [] => [part.reverse]
  | c :: s =>
    if c.isUpper then part.reverse :: partsFrom true [c] s
    else if c.isAlpha || (inside && c.isDigit) then partsFrom true (c :: part) s
    else part.reverse :: partsFrom (c = '_') [] s

/-- The words of source code. -/
def codeWords (source : String) : List String :=
  ((partsFrom false [] source.toList).map fun p => String.ofList (p.map Char.toLower)).filter
    fun w => 1 < w.length && !stopWords.contains w

/-- The components that have words, with their words. -/
def corpus (cs : Components) : List (String × List String) :=
  cs.entries.filterMap fun (id, c) =>
    match codeWords (c.sourceCode.getD "") with
    | [] => none
    | ws => some (id, ws)

/-- A component is characterised by this many words at most. -/
def keywordLimit : Nat := 5

/-- The words with the greatest positive weights, greatest first; weights have four places. -/
def strongest (features : List String) (row : List Float) : List (String × Float) :=
  let positive := (features.zip row).filter fun (_, x) => x > 0.0
  ((positive.mergeSort fun a b => a.2 ≥ b.2).take keywordLimit).map fun (w, x) =>
    (w, Number.roundTo 4 x)

/-- The most frequent words; of equally frequent ones those that come first. -/
def mostFrequent (words : List String) : List String :=
  let counted := words.eraseDups.map fun w => (w, words.count w)
  ((counted.mergeSort fun a b => a.2 ≥ b.2).take keywordLimit).map (·.1)

/-- Words with a row of weights for every component that has words. -/
structure Weights where
  features : List String
  rows : List (List Float)

/-- Characterise components by words. -/
def withKeywords (weights : Weights) (cs : Components) : Components :=
  match corpus cs with
  | [] => cs
  | [(id, ws)] =>
    cs.modify id fun c => { c with keywords := (mostFrequent ws).map fun w => (w, 1.0) }
  | documents =>
    (documents.zip weights.rows).foldl (fun cs ((id, _), row) =>
      cs.modify id fun c => { c with keywords := strongest weights.features row }) cs

end RepoAtlas.Metric
