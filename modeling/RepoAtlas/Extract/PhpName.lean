import RepoAtlas.Keyed
import RepoAtlas.Text.Blank
import RepoAtlas.Text.Word

/-!
# Qualified names in PHP

A name is qualified by backslashes. A file declares a namespace and uses names of other namespaces,
each under an alias. A name is resolved by the alias that it or its first part is, or else by the
namespace of the file. A doubled backslash counts as one.
-/

namespace RepoAtlas.Extract.Php

/-- The names that a file knows. -/
structure Names where
  /-- The namespace of the file; empty if it has none. -/
  current : String := ""
  /-- The qualified name behind each alias. -/
  uses : Keyed String := .empty
  deriving Inhabited

/-- Make doubled backslashes single. -/
def single (name : String) : String :=
  Text.replace name "\\\\" "\\"

/-- Backslashes turned into dots. -/
def dotted (name : String) : String :=
  Text.replaceChar name '\\' '.'

/-- Remove the backslashes in front. -/
def unrooted (name : String) : String :=
  String.ofList (name.toList.dropWhile (· = '\\'))

/-- The last part of a qualified name. -/
def lastPart (name : String) : String :=
  Text.afterLast '\\' name

namespace Names

/-- Enter a namespace. -/
def declare (n : Names) (space : String) : Names :=
  { n with current := single space }

/-- Use a qualified name under an alias. Without one the alias is its last part. -/
def use (n : Names) (name : String) (alias? : Option String) : Names :=
  let full := unrooted (single name)
  let short := match alias?.filter (· != "") with
    | some a => a
    | none => lastPart full
  { n with uses := n.uses.insert short full }

/-- The qualified name that a name stands for. -/
def resolve (n : Names) (name : String) : String :=
  if name = "" then name
  else
    let name := single name
    match Text.withoutStart? name "\\" with
    | some full => full
    | none =>
      match n.uses.get? name with
      | some full => full
      | none =>
        match Text.cutFirst '\\' name with
        | (first, rest) =>
          match n.uses.get? first with
          | some base => match rest with
            | some r => base ++ "\\" ++ r
            | none => base
          | none => if n.current = "" then name else n.current ++ "\\" ++ name

end Names

/-- Types that need no definition. -/
def builtinTypes : List String :=
  ["string", "int", "float", "bool", "array", "object", "callable", "iterable", "mixed", "void",
    "null", "false", "true", "never", "self", "static", "parent", "integer", "boolean", "double",
    "Exception", "Error", "Throwable", "Closure", "Generator", "Iterator", "IteratorAggregate",
    "Traversable", "ArrayAccess", "Serializable", "Countable", "JsonSerializable", "Stringable",
    "DateTime", "DateTimeInterface", "DateTimeImmutable", "DateInterval", "stdClass",
    "ArrayObject", "SplObjectStorage", "WeakReference"]

/-- Whether a type needs no definition: by its last part, whatever the case of its letters. -/
def isBuiltinType (name : String) : Bool :=
  name = "" ||
    (builtinTypes.map Text.lower).contains (Text.lower (lastPart (unrooted name)))

end RepoAtlas.Extract.Php
