import RepoAtlas.Text.Search
import RepoAtlas.Text.WordTable
import RepoAtlas.Text.CapitalTable
import RepoAtlas.Text.NameTable

/-!
# Words, capitals and names

A word is a run of letters, numeric characters and underscores. A name begins with a letter or an
underscore and goes on with letters, digits and marks.
-/

namespace RepoAtlas.Text

/-- Whether a character may stand in a word. -/
def isWordChar (c : Char) : Bool :=
  c.isAlphanum || c = '_' || (0x80 ≤ c.toNat &&
    (wideNumeric.has c.toNat || (wideNameStart.has c.toNat && !wideNonLetters.has c.toNat)))

/-- Whether a code point lies on one of the runs. -/
def onRun (n : Nat) : List (Nat × Nat × Nat) → Bool
  | [] => false
  | (lo, hi, step) :: rest =>
    if n < lo then false else (n ≤ hi && (n - lo) % step == 0) || onRun n rest

/-- Whether a character is a capital letter. -/
def isCapital (c : Char) : Bool :=
  c.isUpper || (0x80 ≤ c.toNat && onRun c.toNat wideCapitalRuns)

/-- Whether a character may begin a name. -/
def isNameStart (c : Char) : Bool :=
  c.isAlpha || c = '_' || (0x80 ≤ c.toNat && wideNameStart.has c.toNat)

/-- Whether a character may continue a name. -/
def isNamePart (c : Char) : Bool :=
  c.isAlphanum || c = '_' || (0x80 ≤ c.toNat && (wideNameStart.has c.toNat || wideNameRest.has c.toNat))

/-- The words of a text: its maximal runs of word characters; `word` is the run being read,
reversed. -/
def wordRunsFrom (word : List Char) : List Char → List (List Char)
  | [] => if word.isEmpty then [] else [word.reverse]
  | c :: s =>
    if isWordChar c then wordRunsFrom (c :: word) s
    else if word.isEmpty then wordRunsFrom [] s
    else word.reverse :: wordRunsFrom [] s

/-- The maximal runs of word characters. -/
def wordRuns (s : List Char) : List (List Char) :=
  wordRunsFrom [] s

/-- The small form of a character as far as ASCII text can show it: the capitals of ASCII, the
Kelvin sign, and the dotted capital I, which becomes an i and a mark. -/
def small (c : Char) : List Char :=
  if c.toNat = 0x212A then ['k']
  else if c.toNat = 0x130 then ['i', Char.ofNat 0x307]
  else [c.toLower]

/-- A text in small letters. Only what a comparison with ASCII text can tell apart is mapped. -/
def lower (s : String) : String :=
  String.ofList (s.toList.flatMap small)

end RepoAtlas.Text
