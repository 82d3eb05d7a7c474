import RepoAtlas.Json.Basic
import RepoAtlas.Number.Shortest

/-!
# JSON text

Strings are written in ASCII: every other character becomes an escape of one or two UTF-16 units.
On one line, items are divided by `", "`; indented, each item has a line of its own.
-/

namespace RepoAtlas.Json

/-- A hexadecimal digit. -/
def hexDigit (n : Nat) : Char :=
  if n < 10 then Char.ofNat (48 + n) else Char.ofNat (87 + n)

/-- The escape of a UTF-16 unit. -/
def unitEscape (n : Nat) : List Char :=
  ['\\', 'u', hexDigit (n / 4096 % 16), hexDigit (n / 256 % 16), hexDigit (n / 16 % 16),
    hexDigit (n % 16)]

/-- A character inside a written string. -/
def escapeChar (c : Char) : List Char :=
  let n := c.toNat
  if c = '"' then ['\\', '"']
  else if c = '\\' then ['\\', '\\']
  else if c = '\n' then ['\\', 'n']
  else if c = '\r' then ['\\', 'r']
  else if c = '\t' then ['\\', 't']
  else if n = 8 then ['\\', 'b']
  else if n = 12 then ['\\', 'f']
  else if 0x20 ≤ n && n < 0x7F then [c]
  else if n < 0x10000 then unitEscape n
  else
    let m := n - 0x10000
    unitEscape (0xD800 + m / 1024) ++ unitEscape (0xDC00 + m % 1024)

/-- A string with its quotes. -/
def quoted (s : String) : String :=
  "\"" ++ String.ofList (s.toList.flatMap escapeChar) ++ "\""

/-- The text of a double. -/
def floatText (x : Float) : String :=
  match Number.text x with
  | "nan" => "NaN"
  | "inf" => "Infinity"
  | "-inf" => "-Infinity"
  | t => t

/-- How the parts of arrays and objects are laid out. -/
inductive Layout where
  /-- Everything on one line. -/
  | line
  /-- Each part on its own line, indented by `width` more than its container. -/
  | indented (width : Nat)
  deriving DecidableEq, Repr

/-- What stands before a part at depth `depth`. -/
def Layout.lead : Layout → Nat → String
  | .line, _ => ""
  | .indented width, depth => "\n" ++ String.ofList (List.replicate (width * depth) ' ')

/-- What divides two parts at depth `depth`. -/
def Layout.divider (l : Layout) (depth : Nat) : String :=
  match l with
  | .line => ", "
  | .indented _ => "," ++ l.lead depth

mutual
/-- The text of a value at a given depth. -/
def renderAt (l : Layout) (depth : Nat) : Json → String
  | .null => "null"
  | .bool b => if b then "true" else "false"
  | .int n => toString n
  | .float x => floatText x
  | .str s => quoted s
  | .arr [] => "[]"
  | .arr (x :: xs) =>
    "[" ++ l.lead (depth + 1) ++ renderAt l (depth + 1) x ++ renderItems l (depth + 1) xs ++
      l.lead depth ++ "]"
  | .obj [] => "\x7b\x7d"
  | .obj ((n, v) :: ms) =>
    "\x7b" ++ l.lead (depth + 1) ++ quoted n ++ ": " ++ renderAt l (depth + 1) v ++
      renderMembers l (depth + 1) ms ++ l.lead depth ++ "\x7d"

/-- The texts of further items, each after a divider. -/
def renderItems (l : Layout) (depth : Nat) : List Json → String
  | [] => ""
  | x :: xs => l.divider depth ++ renderAt l depth x ++ renderItems l depth xs

/-- The texts of further members, each after a divider. -/
def renderMembers (l : Layout) (depth : Nat) : List (String × Json) → String
  | [] => ""
  | (n, v) :: ms =>
    l.divider depth ++ quoted n ++ ": " ++ renderAt l depth v ++ renderMembers l depth ms
end

/-- The text of a value. -/
def render (l : Layout) (j : Json) : String :=
  j.renderAt l 0

/-- The text of a value on one line. -/
def compact (j : Json) : String :=
  j.render .line

end RepoAtlas.Json
