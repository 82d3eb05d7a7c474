import RepoAtlas.Text.CharacterTable

/-!
# Characters by name

A character can be referred to by its name, whatever the case of the letters.
-/

namespace RepoAtlas.Text

/-- The words that a sign stands for. -/
def wordsFor? (c : Char) : Option String :=
  let signs := wordSigns.toList
  let place := if 0x100 ≤ c.toNat then signs.length + (c.toNat - 0x100) else signs.idxOf c
  if 0x100 ≤ c.toNat || place < signs.length then nameWords[place]? else none

/-- A text with the words written out that signs stand for, and in these words again, `depth` times. -/
def writtenOut : Nat → List Char → List Char
  | 0, s => s
  | depth + 1, s => s.flatMap fun c => ((wordsFor? c).map fun words => writtenOut depth words.toList).getD [c]

/-- The names that an item of a row tells. Signs are nested at most five deep. -/
def namesTold (item : String) : List String :=
  match item.toList with
  | '=' :: rest =>
    let name := writtenOut 5 rest
    let (script, letter) := (name.takeWhile (· ≠ ' '), name.dropWhile (· ≠ ' '))
    [" CAPITAL", " SMALL"].map fun size => String.ofList (script ++ size.toList ++ letter)
  | rest => [String.ofList (writtenOut 5 rest)]

/-- The code of the character with a name in capitals in a row of consecutive characters. -/
def namedInRow? (name : String) : Nat × String → Option Nat
  | (first, names) => (((itemsOf names).flatMap namesTold).findIdx? (· == name)).map (first + ·)

/-- The code of the character with a name. -/
def characterNamed? (name : String) : Option Nat :=
  (characterRows ++ aliasRows).findSome? (namedInRow? (String.ofList (name.toList.map Char.toUpper)))

end RepoAtlas.Text
