import RepoAtlas.Number.Binary

/-!
# Decimals with a fixed number of places

The exact value of a double is rounded once, to the nearest decimal with the asked number of
places; a half goes to the even neighbour.
-/

namespace RepoAtlas.Number

/-- The magnitude in units of `10 ^ -places`, rounded to the nearest. -/
def Binary.scaled (b : Binary) (places : Nat) : Nat :=
  match b.exponent with
  | .ofNat e => b.mantissa * twoTo e * tenTo places
  | .negSucc e => roundDiv (b.mantissa * tenTo places) (twoTo (e + 1))

/-- A number of units of `10 ^ -places` written with its point. -/
def withPoint (units places : Nat) : String :=
  if places = 0 then toString units
  else
    let whole := toString (units / tenTo places)
    let part := (toString (units % tenTo places)).toList
    whole ++ "." ++ String.ofList (List.replicate (places - part.length) '0' ++ part)

/-- A double with the given number of places. -/
def fixed (places : Nat) (x : Float) : String :=
  match Value.ofFloat x with
  | .finite b => (if b.negative then "-" else "") ++ withPoint (b.scaled places) places
  | .infinite negative => if negative then "-inf" else "inf"
  | .undefined => "nan"

/-- The double nearest to the decimal that `x` rounds to. -/
def roundTo (places : Nat) (x : Float) : Float :=
  match Value.ofFloat x with
  | .finite b =>
    let r := Float.ofScientific (b.scaled places) true places
    if b.negative then -r else r
  | _ => x

/-- A finite double in units of `10 ^ -places`, rounded to the nearest; any other is zero. -/
def unitsOf (places : Nat) (x : Float) : Int :=
  match Value.ofFloat x with
  | .finite b => if b.negative then -(b.scaled places : Int) else b.scaled places
  | _ => 0

end RepoAtlas.Number
