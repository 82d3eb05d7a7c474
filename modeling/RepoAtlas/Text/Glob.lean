import RepoAtlas.Text.Search

/-!
# Glob patterns

In a pattern a star stands for any text, a question mark for any character and brackets for one of
several characters or, after an exclamation mark, for any other. A bracket that is not closed stands
for itself. A pattern matches a whole text; slashes are characters like any other.
-/

namespace RepoAtlas.Text

/-- Characters between brackets: single ones and ranges. -/
structure CharSet where
  singles : List Char
  ranges : List (Char × Char)
  negated : Bool

/-- Whether a character is one of a set. -/
def CharSet.has (s : CharSet) (c : Char) : Bool :=
  (s.singles.contains c || s.ranges.any fun (a, b) => a ≤ c && c ≤ b) != s.negated

/-- A part of a pattern. -/
inductive GlobPart where
  | star
  | any
  | char (c : Char)
  | set (s : CharSet)

/-- The text between brackets and what follows them. A bracket that closes does so only after the first
character, an exclamation mark not counted. -/
def bracketText? (s : List Char) : Option (List Char × List Char) :=
  let (mark, rest) := match s with
    | '!' :: t => (['!'], t)
    | t => ([], t)
  let (first, rest) := match rest with
    | ']' :: t => ([']'], t)
    | t => ([], t)
  match rest.dropWhile (· != ']') with
  | [] => none
  | _ :: after => some (mark ++ first ++ rest.takeWhile (· != ']'), after)

/-- Cut at the hyphens that make ranges. A hyphen does so if `wait` more characters have been passed
since the last one that did; `chunk` is the part being read, reversed. -/
def rangeChunks (wait : Nat) (chunk : List Char) : List Char → List (List Char)
  | [] => [chunk.reverse]
  | c :: s =>
    if c = '-' && wait = 0 then chunk.reverse :: rangeChunks 2 [] s
    else rangeChunks (wait - 1) (c :: chunk) s

/-- Chunks whose last one is not empty: a hyphen at the end stands for itself. -/
def withFinalHyphen : List (List Char) → List (List Char)
  | [a, []] => [a ++ ['-']]
  | a :: rest => a :: withFinalHyphen rest
  | [] => []

/-- Join a chunk with those after it; the ends of a range that is empty are dropped. -/
def joinChunk (a : List Char) : List (List Char) → List (List Char)
  | [] => [a]
  | b :: rest =>
    match a.getLast?, b.head? with
    | some x, some y => if y < x then (a.dropLast ++ b.drop 1) :: rest else a :: b :: rest
    | _, _ => a :: b :: rest

/-- Chunks without empty ranges between them. -/
def withoutEmptyRanges (chunks : List (List Char)) : List (List Char) :=
  chunks.foldr joinChunk []

/-- The ranges between neighbouring chunks. -/
def chunkRanges : List (List Char) → List (Char × Char)
  | a :: b :: rest =>
    match a.getLast?, b.head? with
    | some x, some y => (x, y) :: chunkRanges (b :: rest)
    | _, _ => chunkRanges (b :: rest)
  | _ => []

/-- The set that a text between brackets describes. -/
def charSet (text : List Char) : CharSet :=
  let wait := if text.head? = some '!' then 2 else 1
  let chunks := withoutEmptyRanges (withFinalHyphen (rangeChunks wait [] text))
  match chunks with
  | ('!' :: a) :: rest =>
    { singles := a ++ rest.flatten, ranges := chunkRanges (('!' :: a) :: rest), negated := true }
  | cs => { singles := cs.flatten, ranges := chunkRanges cs, negated := false }

/-- The parts of a pattern, of which at most `fuel` are read. -/
def globPartsFrom : Nat → List Char → List GlobPart
  | 0, _ => []
  | _, [] => []
  | fuel + 1, c :: s =>
    match c with
    | '*' => .star :: globPartsFrom fuel s
    | '?' => .any :: globPartsFrom fuel s
    | '[' =>
      match bracketText? s with
      | some (text, after) => .set (charSet text) :: globPartsFrom fuel after
      | none => .char '[' :: globPartsFrom fuel s
    | c => .char c :: globPartsFrom fuel s

/-- The parts of a pattern; each takes at least one character. -/
def globParts (pattern : String) : List GlobPart :=
  globPartsFrom pattern.length pattern.toList

/-- Whether the parts of a pattern match a text. -/
def matchesParts : List GlobPart → List Char → Bool
  | [], s => s.isEmpty
  | .star :: ps, s => (endings s).any (matchesParts ps)
  | .any :: ps, _ :: s => matchesParts ps s
  | .char c :: ps, d :: s => c == d && matchesParts ps s
  | .set k :: ps, d :: s => k.has d && matchesParts ps s
  | _ :: _, [] => false

/-- Whether a pattern matches a text. -/
def globMatches (pattern s : String) : Bool :=
  matchesParts (globParts pattern) s.toList

end RepoAtlas.Text
