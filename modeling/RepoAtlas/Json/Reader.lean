import RepoAtlas.Json.Basic

/-!
# Reading JSON

The reader follows the grammar of JSON, and takes the words `NaN`, `Infinity` and `-Infinity` as
numbers. A text is read only if nothing but white space follows its value.
-/

namespace RepoAtlas.Json

/-- White space between the parts of a JSON text. -/
def isSpace (c : Char) : Bool :=
  c = ' ' || c = '\t' || c = '\n' || c = '\r'

/-- The value of a hexadecimal digit. -/
def hexValue? (c : Char) : Option Nat :=
  if '0' ≤ c ∧ c ≤ '9' then some (c.toNat - 48)
  else if 'a' ≤ c ∧ c ≤ 'f' then some (c.toNat - 87)
  else if 'A' ≤ c ∧ c ≤ 'F' then some (c.toNat - 55)
  else none

/-- The number of four hexadecimal digits. -/
def hexUnit? : List Char → Option (Nat × List Char)
  | a :: b :: c :: d :: s => do
    let a ← hexValue? a
    let b ← hexValue? b
    let c ← hexValue? c
    let d ← hexValue? d
    some (a * 4096 + b * 256 + c * 16 + d, s)
  | _ => none

/-- The character of an escape letter that stands for one character. -/
def escapeLetter? (c : Char) : Option Char :=
  match c with
  | '"' => some '"'
  | '\\' => some '\\'
  | '/' => some '/'
  | 'b' => some (Char.ofNat 8)
  | 'f' => some (Char.ofNat 12)
  | 'n' => some '\n'
  | 'r' => some '\r'
  | 't' => some '\t'
  | _ => none

/-- The rest of a string after its opening quote; `acc` holds the characters read, reversed.
Half of a surrogate pair that stands alone is read as the replacement character. -/
def readString (acc : List Char) : Nat → List Char → Option (String × List Char)
  | 0, _ => none
  | _ + 1, [] => none
  | _ + 1, '"' :: s => some (String.ofList acc.reverse, s)
  | fuel + 1, '\\' :: 'u' :: s => do
    let (n, s) ← hexUnit? s
    if 0xD800 ≤ n ∧ n < 0xDC00 then
      match s with
      | '\\' :: 'u' :: t =>
        match hexUnit? t with
        | some (m, t) =>
          if 0xDC00 ≤ m ∧ m < 0xE000 then
            readString (Char.ofNat (0x10000 + (n - 0xD800) * 1024 + (m - 0xDC00)) :: acc) fuel t
          else readString (Char.ofNat 0xFFFD :: acc) fuel s
        | none => none
      | _ => readString (Char.ofNat 0xFFFD :: acc) fuel s
    else if 0xDC00 ≤ n ∧ n < 0xE000 then readString (Char.ofNat 0xFFFD :: acc) fuel s
    else readString (Char.ofNat n :: acc) fuel s
  | fuel + 1, '\\' :: c :: s => do
    let c ← escapeLetter? c
    readString (c :: acc) fuel s
  | fuel + 1, c :: s => if c.toNat < 0x20 then none else readString (c :: acc) fuel s

/-- The value of a list of decimal digits. -/
def digitsValue (ds : List Char) : Nat :=
  ds.foldl (fun n d => n * 10 + (d.toNat - 48)) 0

/-- A run of digits and what follows it. -/
def digitRun (s : List Char) : List Char × List Char :=
  (s.takeWhile Char.isDigit, s.dropWhile Char.isDigit)

/-- The double `digits * 10 ^ exponent`. Exponents beyond the range of doubles are cut off before
the power is formed. -/
def scaledFloat (digits : Nat) (exponent : Int) : Float :=
  let size : Int := (toString digits).length
  if digits = 0 then 0.0
  else if exponent + size > 400 then 1.0 / 0.0
  else if exponent + size < -400 then 0.0
  else if exponent < 0 then Float.ofScientific digits true exponent.natAbs
  else Float.ofScientific digits false exponent.natAbs

/-- The part of a number after its point, if there is a point with a digit after it. -/
def fraction? : List Char → Option (List Char × List Char)
  | '.' :: s =>
    let (ds, rest) := digitRun s
    if ds.isEmpty then none else some (ds, rest)
  | _ => none

/-- The exponent of a number, if there is a complete one. -/
def exponent? : List Char → Option (Int × List Char)
  | c :: s =>
    if c = 'e' ∨ c = 'E' then
      let (negative, s) := match s with
        | '-' :: t => (true, t)
        | '+' :: t => (false, t)
        | _ => (false, s)
      let (ds, rest) := digitRun s
      if ds.isEmpty then none
      else
        let n : Int := digitsValue ds
        some (if negative then -n else n, rest)
    else none
  | [] => none

/-- A number without its sign. -/
def readNumber (negative : Bool) (s : List Char) : Option (Json × List Char) :=
  let whole : Option (List Char × List Char) := match s with
    | '0' :: t => some (['0'], t)
    | _ =>
      let (ds, rest) := digitRun s
      if ds.isEmpty then none else some (ds, rest)
  match whole with
  | none => none
  | some (ds, rest) =>
    let (fs, rest, hasFraction) := match fraction? rest with
      | some (fs, rest) => (fs, rest, true)
      | none => ([], rest, false)
    let (e, rest, hasExponent) := match exponent? rest with
      | some (e, rest) => (e, rest, true)
      | none => ((0 : Int), rest, false)
    if hasFraction || hasExponent then
      let x := scaledFloat (digitsValue (ds ++ fs)) (e - fs.length)
      some (.float (if negative then -x else x), rest)
    else
      let n : Int := digitsValue ds
      some (.int (if negative then -n else n), rest)

/-- Read a fixed word. -/
def word? (w : String) (value : Json) (s : List Char) : Option (Json × List Char) :=
  if w.toList.isPrefixOf s then some (value, s.drop w.length) else none

mutual
/-- Read a value at the beginning of a text that may start with white space. -/
def readValue : Nat → List Char → Option (Json × List Char)
  | 0, _ => none
  | fuel + 1, s =>
    match s.dropWhile isSpace with
    | '"' :: t => (readString [] (t.length + 1) t).map fun (x, r) => (.str x, r)
    | '[' :: t =>
      match t.dropWhile isSpace with
      | ']' :: r => some (.arr [], r)
      | t => do
        let (xs, r) ← readItems fuel t
        some (.arr xs, r)
    | '\x7b' :: t =>
      match t.dropWhile isSpace with
      | '\x7d' :: r => some (.obj [], r)
      | t => do
        let (ms, r) ← readMembers fuel t
        some (ofMembers ms, r)
    | '-' :: t =>
      match word? "Infinity" (.float (-1.0 / 0.0)) t with
      | some r => some r
      | none => readNumber true t
    | t =>
      match word? "null" .null t with
      | some r => some r
      | none => match word? "true" (.bool true) t with
        | some r => some r
        | none => match word? "false" (.bool false) t with
          | some r => some r
          | none => match word? "NaN" (.float (0.0 / 0.0)) t with
            | some r => some r
            | none => match word? "Infinity" (.float (1.0 / 0.0)) t with
              | some r => some r
              | none => readNumber false t

/-- Read the items of an array up to its closing bracket. -/
def readItems : Nat → List Char → Option (List Json × List Char)
  | 0, _ => none
  | fuel + 1, s => do
    let (x, r) ← readValue fuel s
    match r.dropWhile isSpace with
    | ',' :: r => do
      let (xs, r) ← readItems fuel r
      some (x :: xs, r)
    | ']' :: r => some ([x], r)
    | _ => none

/-- Read the members of an object up to its closing brace. -/
def readMembers : Nat → List Char → Option (List (String × Json) × List Char)
  | 0, _ => none
  | fuel + 1, s =>
    match s.dropWhile isSpace with
    | '"' :: t => do
      let (name, r) ← readString [] (t.length + 1) t
      match r.dropWhile isSpace with
      | ':' :: r => do
        let (v, r) ← readValue fuel r
        match r.dropWhile isSpace with
        | ',' :: r => do
          let (ms, r) ← readMembers fuel r
          some ((name, v) :: ms, r)
        | '\x7d' :: r => some ([(name, v)], r)
        | _ => none
      | _ => none
    | _ => none
end

/-- Read a whole text as one value. -/
def parse? (s : String) : Option Json :=
  match readValue (s.length + 1) s.toList with
  | some (j, rest) => if rest.all isSpace then some j else none
  | none => none

end RepoAtlas.Json
