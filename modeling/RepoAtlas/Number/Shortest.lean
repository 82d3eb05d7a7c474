import RepoAtlas.Number.Binary

/-!
# The shortest decimal of a double

Among the decimals that round to a given double, the one with the fewest digits, and of those the
nearest, is its text. Numbers from `10 ^ -4` up to below `10 ^ 16` are written with a point, all
others with an exponent.
-/

namespace RepoAtlas.Number

/-- The decimals that round to a positive double: `value`, the distances to both ends of the
interval, all in units of `1 / unit`, and whether the ends belong to it. -/
structure Interval where
  unit : Nat
  value : Nat
  below : Nat
  above : Nat
  closed : Bool

/-- The interval of reals that round to a positive double. -/
def Binary.interval (b : Binary) : Interval :=
  let shift := (2 - b.exponent).toNat
  let up := twoTo (b.exponent + shift - 1).toNat
  let narrow := b.mantissa == twoTo 52 && b.exponent > -1074
  { unit := twoTo shift
    value := b.mantissa * twoTo (b.exponent + shift).toNat
    below := if narrow then up / 2 else up
    above := up
    closed := b.mantissa % 2 == 0 }

/-- Whether `digits * 10 ^ place` lies in the interval, and its distance from the value. -/
def Interval.distance? (i : Interval) (digits : Nat) (place : Int) : Option Nat :=
  let scale := tenTo (-place).toNat
  let point := digits * i.unit * tenTo place.toNat
  let value := i.value * scale
  if point ≤ value then
    let d := value - point
    if d < i.below * scale || (i.closed && d == i.below * scale) then some d else none
  else
    let d := point - value
    if d < i.above * scale || (i.closed && d == i.above * scale) then some d else none

/-- The digits of the nearer of the two neighbours on the grid of `10 ^ place`, if one of them lies
in the interval. -/
def Interval.onGrid? (i : Interval) (place : Int) : Option Nat :=
  let low := i.value * tenTo (-place).toNat / (i.unit * tenTo place.toNat)
  match i.distance? low place, i.distance? (low + 1) place with
  | some a, some b =>
    some (if a < b then low else if b < a then low + 1 else low + low % 2)
  | some _, none => some low
  | none, some _ => some (low + 1)
  | none, none => none

/-- Search finer and finer grids for one that meets the interval. -/
def Interval.search (i : Interval) : Nat → Int → Nat × Int
  | 0, place => (0, place)
  | fuel + 1, place =>
    match i.onGrid? place with
    | some digits => if digits = 0 then i.search fuel (place - 1) else (digits, place)
    | none => i.search fuel (place - 1)

/-- The number of bits of a natural number. -/
def bitLength (n : Nat) : Nat :=
  if n = 0 then 0 else n.log2 + 1

/-- A power of ten not below a positive double. -/
def Binary.topPlace (b : Binary) : Int :=
  ((bitLength b.mantissa : Int) + b.exponent) * 30103 / 100000 + 1

/-- Digits and decimal exponent of the shortest decimal of a positive double. -/
def Binary.shortest (b : Binary) : Nat × Int :=
  b.interval.search 22 (b.topPlace + 1)

/-- Digits with the point after the first `whole` of them, which may lie outside the digits. -/
def positional (digits : List Char) (whole : Int) : String :=
  if whole ≤ 0 then
    "0." ++ String.ofList (List.replicate (-whole).toNat '0' ++ digits)
  else if digits.length ≤ whole.toNat then
    String.ofList (digits ++ List.replicate (whole.toNat - digits.length) '0') ++ ".0"
  else
    String.ofList (digits.take whole.toNat) ++ "." ++ String.ofList (digits.drop whole.toNat)

/-- Digits in scientific notation; the exponent has a sign and at least two digits. -/
def scientific (digits : List Char) (exponent : Int) : String :=
  let head := String.ofList (digits.take 1)
  let tail := digits.drop 1
  let body := if tail.isEmpty then head else head ++ "." ++ String.ofList tail
  let size := toString exponent.natAbs
  body ++ "e" ++ (if exponent < 0 then "-" else "+") ++
    (if size.length < 2 then "0" ++ size else size)

/-- The shortest text of a double. -/
def text (x : Float) : String :=
  match Value.ofFloat x with
  | .undefined => "nan"
  | .infinite negative => if negative then "-inf" else "inf"
  | .finite b =>
    let sign := if b.negative then "-" else ""
    if b.mantissa = 0 then sign ++ "0.0"
    else
      let (n, place) := b.shortest
      let digits := (toString n).toList
      let kept := (digits.reverse.dropWhile (· = '0')).reverse
      let whole := place + digits.length
      sign ++ (if -4 < whole && whole ≤ 16 then positional kept whole
        else scientific kept (whole - 1))

end RepoAtlas.Number
