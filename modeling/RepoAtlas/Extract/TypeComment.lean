import RepoAtlas.Text.Blank
import RepoAtlas.Text.Pattern
import RepoAtlas.Text.Word

/-!
# Types named in documentation comments

A documentation comment names types in its tags: the types of parameters and results in braces, and
the names that it defines. A type expression names a main type, type arguments in angle brackets,
and alternatives between bars.
-/

namespace RepoAtlas.Extract.TypeComment

open Text

/-- Types that need no definition. -/
def builtinTypes : List String :=
  ["string", "number", "boolean", "object", "undefined", "null", "void", "any",
    "Array", "Promise", "Date", "RegExp", "Error", "Map", "Set", "WeakMap", "WeakSet",
    "Function", "Object", "String", "Number", "Boolean", "Symbol", "BigInt",
    "Element", "HTMLElement", "Document", "Window", "Event", "EventTarget", "Node",
    "Response", "Request", "Headers", "URL", "URLSearchParams", "FormData", "Blob", "File",
    "T", "U", "V", "K", "P", "R", "E"]

/-- Whether a type needs no definition. -/
def isBuiltinType (name : String) : Bool :=
  builtinTypes.contains name

/-- Remove white space from both ends. -/
def bare (s : List Char) : List Char :=
  trim isBlank s

/-- The part in braces that follows white space. -/
def braced : Recogniser := fun s =>
  bracketed '\x7b' '\x7d' ['\x7d'] (s.dropWhile isBlank)

/-- A tag with a type in braces. -/
def typeTag (tag : String) : Recogniser := fun s =>
  (after? tag.toList s).bind braced

/-- A tag for the type of a result, in either spelling. -/
def resultTag : Recogniser := fun s =>
  (after? "@return".toList s).bind fun rest =>
    braced (match rest with
      | 's' :: r => r
      | r => r)

/-- A tag that defines a name, after anything in braces. -/
def definitionTag : Recogniser := fun s =>
  match (after? "@typedef".toList s).map (·.dropWhile isBlank) with
  | some ('\x7b' :: r) =>
    match r.dropWhile (· != '\x7d') with
    | _ :: rest => run isWordChar (rest.dropWhile isBlank)
    | [] => none
  | _ => none

/-- A tag that names an interface, after white space. -/
def interfaceTag : Recogniser := fun s =>
  ((after? "@interface".toList s).bind (run isBlank)).bind fun blanks => run isWordChar blanks.2

/-- The type expressions in a comment, tag by tag. -/
def expressions (comment : String) : List (List Char) :=
  [typeTag "@param", resultTag, typeTag "@type", definitionTag, interfaceTag].flatMap fun tag =>
    findAll tag comment.toList

/-- The word at the beginning of a text. -/
def firstWord (s : List Char) : List (List Char) :=
  match run isWordChar s with
  | some (word, _) => [word]
  | none => []

/-- The words in the angle brackets of a type expression, where these hold no others. -/
def arguments (s : List Char) : List (List Char) :=
  (findAll (bracketed '<' '>' ['<', '>']) s).flatMap wordRuns

/-- The first words of the alternatives of a type expression, if it has several. -/
def alternatives (s : List Char) : List (List Char) :=
  if s.contains '|' then (cut '|' s).flatMap fun part => firstWord (bare part) else []

/-- The types that a type expression names. -/
def typesIn (expression : List Char) : List String :=
  let s := bare expression
  (firstWord s ++ arguments s ++ alternatives s).map String.ofList

/-- The types that a comment names and that need a definition. -/
def referenced (comment : String) : List String :=
  ((expressions comment).flatMap typesIn).filter fun t => !isBuiltinType t

end RepoAtlas.Extract.TypeComment
