import RepoAtlas.Text.Line

/-!
# Text from bytes

Bytes are read as UTF-8. A part that is not UTF-8 becomes one replacement character for every longest
beginning of a character, and for every byte that begins none; read strictly, bytes with such a part
have no text.
-/

namespace RepoAtlas.Text

/-- What stands for bytes that are no text. -/
def replacement : Char := Char.ofNat 0xFFFD

/-- The continuation bytes that may follow a first byte: their number and the range of the first. -/
def continuation? (first : Nat) : Option (Nat × Nat × Nat) :=
  if 0xC2 ≤ first && first ≤ 0xDF then some (1, 0x80, 0xBF)
  else if first = 0xE0 then some (2, 0xA0, 0xBF)
  else if first = 0xED then some (2, 0x80, 0x9F)
  else if 0xE1 ≤ first && first ≤ 0xEF then some (2, 0x80, 0xBF)
  else if first = 0xF0 then some (3, 0x90, 0xBF)
  else if first = 0xF4 then some (3, 0x80, 0x8F)
  else if 0xF1 ≤ first && first ≤ 0xF3 then some (3, 0x80, 0xBF)
  else none

/-- Read up to `n` continuation bytes, the first of them in a given range: the value with these bytes,
how many were read and whether all of them were there. -/
def continueWith (n lo hi value : Nat) : List UInt8 → Nat × Nat × Bool
  | [] => (value, 0, n = 0)
  | b :: s =>
    match n with
    | 0 => (value, 0, true)
    | n + 1 =>
      if lo ≤ b.toNat && b.toNat ≤ hi then
        let (v, k, complete) := continueWith n 0x80 0xBF (value * 64 + b.toNat % 64) s
        (v, k + 1, complete)
      else (value, 0, false)

/-- The character that begins with a byte, if there is one, and how many of the following bytes belong to
it. -/
def decodeOne (first : UInt8) (rest : List UInt8) : Option Char × Nat :=
  if first.toNat < 0x80 then (some (Char.ofNat first.toNat), 0)
  else
    match continuation? first.toNat with
    | none => (none, 0)
    | some (n, lo, hi) =>
      let (v, k, complete) := continueWith n lo hi (first.toNat % Nat.pow 2 (6 - n)) rest
      (if complete then some (Char.ofNat v) else none, k)

/-- The characters of bytes, of which the first `skip` belong to a character before. -/
def decodeFrom : Nat → List UInt8 → List (Option Char)
  | _, [] => []
  | skip + 1, _ :: s => decodeFrom skip s
  | 0, b :: s =>
    let (c, k) := decodeOne b s
    c :: decodeFrom k s

/-- The text of the bytes of a file, with line feeds for all line ends. -/
def fileText (bytes : List UInt8) : String :=
  String.ofList (withLineFeeds ((decodeFrom 0 bytes).map (·.getD replacement)))

/-- The text of the bytes of a file that are UTF-8 throughout. -/
def fileText? (bytes : List UInt8) : Option String :=
  if (decodeFrom 0 bytes).all Option.isSome then some (fileText bytes) else none

/-- The bytes of a text. -/
def encode (s : String) : List UInt8 :=
  s.toUTF8.toList

end RepoAtlas.Text
