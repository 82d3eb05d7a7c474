import RepoAtlas.Text.Blank
import RepoAtlas.Text.Word

/-!
# Type names in Go

The text of a type is reduced to a bare name: without pointers, slices, package and type
arguments. Some names belong to the language.
-/

namespace RepoAtlas.Extract.Go

open RepoAtlas

/-- The predeclared types. -/
def primitiveTypes : List String :=
  ["bool", "byte", "rune", "int", "int8", "int16", "int32", "int64", "uint", "uint8", "uint16",
    "uint32", "uint64", "uintptr", "float32", "float64", "complex64", "complex128", "string",
    "error", "any"]

/-- The predeclared functions. -/
def builtinFunctions : List String :=
  ["append", "cap", "clear", "close", "complex", "copy", "delete", "imag", "len", "make", "new",
    "panic", "print", "println", "real", "recover", "min", "max"]

/-- Whether a name is exported: it begins with a capital. -/
def isExported (name : String) : Bool :=
  match name.toList with
  | c :: _ => Text.isCapital c
  | [] => false

/-- Whether the last part of a dotted name is a predeclared function; no name counts as one. -/
def isBuiltin (name : String) : Bool :=
  name = "" || builtinFunctions.contains (Text.afterLast '.' name)

/-- Whether a type counts as predeclared. Leading stars, then brackets, then letters of `map[` are
removed, and what remains is read up to a closing bracket and a dot. -/
def isPrimitive (type : String) : Bool :=
  if type = "" then true
  else
    let t := type.toList.dropWhile (· = '*')
    let t := t.dropWhile fun c => c = '[' || c = ']'
    let t := t.dropWhile fun c => c = 'm' || c = 'a' || c = 'p' || c = '['
    let t := (t.takeWhile (· != ']')).takeWhile (· != '.')
    primitiveTypes.contains (Text.lower (String.ofList t))

/-- Remove slice brackets and the blanks after them; `skipping` tells whether a bracket pair has
just been removed. -/
def dropSlices : Bool → List Char → List Char
  | _, [] => []
  | skipping, [c] => if skipping && Text.isBlank c then [] else [c]
  | skipping, c :: d :: r =>
    if skipping && Text.isBlank c then dropSlices true (d :: r)
    else if c = '[' && d = ']' then dropSlices true r
    else c :: d :: r

/-- Remove pointer stars and the blanks between them from a text without blanks at its ends. -/
def dropStars (t : List Char) : List Char :=
  if t.head? = some '*' then t.dropWhile fun c => c = '*' || Text.isBlank c else t

/-- The characters after the last dot. -/
def lastSegment (t : List Char) : List Char :=
  (t.reverse.takeWhile (· != '.')).reverse

/-- The bare name of a type: without pointer stars, slice brackets and package. -/
def baseType (type : String) : String :=
  let t := Text.trim Text.isBlank type.toList
  String.ofList (lastSegment (dropSlices false (dropStars t)))

/-- Remove enclosing parentheses and the blanks inside them, as long as something is inside. -/
def dropParentheses : Nat → List Char → List Char
  | 0, t => t
  | fuel + 1, t =>
    if t.head? = some '(' && t.getLast? = some ')' && 2 < t.length then
      dropParentheses fuel (Text.trim Text.isBlank (t.drop 1).dropLast)
    else t

/-- The bare name of a receiver type, if there is one. In a text with spaces the last word is the
type; type arguments are cut off. -/
def receiverName? (text : String) : Option String :=
  let t := Text.trim Text.isBlank text.toList
  if t.isEmpty then none
  else
    let t := if t.contains ' ' then ((Text.wordsFrom [] t).getLast?).getD [] else t
    let t := dropSlices false (dropStars (dropParentheses t.length t))
    let t := lastSegment (t.takeWhile (· != '['))
    let t := Text.trim (· = ',') (Text.trim Text.isBlank t)
    if t.isEmpty then none else some (String.ofList t)

end RepoAtlas.Extract.Go
