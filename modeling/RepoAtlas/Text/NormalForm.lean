import RepoAtlas.Text.CompoundTable
import RepoAtlas.Text.Ranges
import RepoAtlas.Text.Search

/-!
# The normal form of names

Two spellings of one name have the same normal form. Every character is divided into its parts, the
marks of a letter are put into the order of their classes, and what can become one character does. A
text in ASCII is its own normal form.
-/

namespace RepoAtlas.Text

/-- The combining class of a character: zero for what marks are put on. -/
def markClass (c : Char) : Nat :=
  ((markClasses.find? fun (_, ranges) => ranges.has c.toNat).map (·.1)).getD 0

/-- The last row that begins at or before a code. -/
def rowFor? (rows : List (Nat × String)) (code : Nat) : Option (Nat × String) :=
  (rows.takeWhile (·.1 ≤ code)).getLast?

/-- The first syllable of Hangul. -/
def firstSyllable : Nat := 0xAC00

/-- How many sounds can begin a syllable. -/
def leads : Nat := 19

/-- How many sounds can carry a syllable. -/
def vowels : Nat := 21

/-- How many ways there are to end a syllable, with a sound or with none. -/
def tails : Nat := 28

/-- The first sound that begins a syllable. -/
def firstLead : Nat := 0x1100

/-- The first sound that carries a syllable. -/
def firstVowel : Nat := 0x1161

/-- The code before that of the first sound that ends a syllable. -/
def beforeTails : Nat := 0x11A7

/-- The place of a syllable among all of them. -/
def syllable? (c : Char) : Option Nat :=
  if firstSyllable ≤ c.toNat && c.toNat < firstSyllable + leads * vowels * tails then
    some (c.toNat - firstSyllable)
  else none

/-- The sounds of a syllable by its place. -/
def sounds (place : Nat) : List Char :=
  let lead := Char.ofNat (firstLead + place / (vowels * tails))
  let vowel := Char.ofNat (firstVowel + place % (vowels * tails) / tails)
  let tail := place % tails
  [lead, vowel] ++ if tail = 0 then [] else [Char.ofNat (beforeTails + tail)]

/-- What a character stands for; one that stands for no other is its own. -/
def standsFor (c : Char) : List Char :=
  let code := c.toNat
  let variant? := (rowFor? variantRows code).bind fun (first, row) =>
    (row.toList[code - first]?).map fun d => [d]
  let compound? := (rowFor? compoundRows code).bind fun (first, row) =>
    ((split ' ' row)[code - first]?).map String.toList
  match syllable? c, variant?, compound? with
  | some place, _, _ => sounds place
  | none, some ds, _ => ds
  | none, none, some ds => ds
  | none, none, none => [c]

/-- What stands before a character in a list of pairs. -/
def owner? (c : Char) : List Char → Option Char
  | a :: b :: s => if c = b then some a else owner? c s
  | _ => none

/-- The two characters that become a character. -/
def halves? (c : Char) : Option (Char × Char) :=
  unionRows.findSome? fun (second, row) => (owner? c row.toList).map (·, Char.ofNat second)

/-- Divide the first of some characters if two others become it. -/
def divideFirst : List Char → List Char
  | [] => []
  | c :: s =>
    match halves? c with
    | some (a, b) => a :: b :: s
    | none => c :: s

/-- The parts of a character. No character has more than three marks to divide off. -/
def partsOf (c : Char) : List Char :=
  match divideFirst (divideFirst (divideFirst [c])) with
  | [] => []
  | letter :: marks => standsFor letter ++ marks

/-- Put a character before others; a mark goes behind the marks of a lower class. -/
def placeMark (c : Char) : List Char → List Char
  | [] => [c]
  | d :: s =>
    if 0 < markClass d && markClass d < markClass c then d :: placeMark c s else c :: d :: s

/-- Characters with the marks of each letter in the order of their classes. -/
def marksInOrder : List Char → List Char
  | [] => []
  | c :: s => placeMark c (marksInOrder s)

/-- What two sounds, or a syllable without tail and a tail, become. -/
def syllableOf? (a b : Char) : Option Char :=
  let lead := a.toNat - firstLead
  let vowel := b.toNat - firstVowel
  let tail := b.toNat - beforeTails
  if firstLead ≤ a.toNat && lead < leads && firstVowel ≤ b.toNat && vowel < vowels then
    some (Char.ofNat (firstSyllable + (lead * vowels + vowel) * tails))
  else
    match syllable? a with
    | some place =>
      if place % tails = 0 && 0 < tail && tail < tails then some (Char.ofNat (a.toNat + tail))
      else none
    | none => none

/-- What follows a character in a list of pairs. -/
def partner? (a : Char) : List Char → Option Char
  | b :: c :: s => if a = b then some c else partner? a s
  | _ => none

/-- The character that two become. -/
def union? (a b : Char) : Option Char :=
  (syllableOf? a b).orElse fun _ =>
    (unionRows.filter (·.1 = b.toNat)).findSome? fun (_, row) => partner? a row.toList

/-- Unite what can become one character. The marks behind `letter` that it was not united with are in
`marks`, the last one first; a mark of the same class bars the way to the letter, and so does another
letter behind a mark. -/
def unite (letter : Char) (marks : List Char) : List Char → List Char
  | [] => letter :: marks.reverse
  | c :: s =>
    let isOpen := match marks with
      | [] => true
      | m :: _ => markClass m < markClass c
    match if isOpen then union? letter c else none with
    | some u => unite u marks s
    | none =>
      if markClass c = 0 then letter :: marks.reverse ++ unite c [] s
      else unite letter (c :: marks) s

/-- The normal form of characters. -/
def normalCharacters (s : List Char) : List Char :=
  match marksInOrder (s.flatMap partsOf) with
  | [] => []
  | c :: s => unite c [] s

/-- The normal form of a name. -/
def normalName (s : String) : String :=
  if s.toList.all (·.toNat < 128) then s else String.ofList (normalCharacters s.toList)

end RepoAtlas.Text
