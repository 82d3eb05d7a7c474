/-!
# Binary numbers taken apart

A finite double is `± mantissa * 2 ^ exponent` exactly. Decimal text is computed from that, in
natural numbers, so that no rounding happens before the one that is asked for.
-/

namespace RepoAtlas.Number

/-- A power of two. -/
def twoTo (n : Nat) : Nat :=
  Nat.pow 2 n

/-- A power of ten. -/
def tenTo (n : Nat) : Nat :=
  Nat.pow 10 n

/-- A finite double, exactly. -/
structure Binary where
  negative : Bool
  mantissa : Nat
  exponent : Int
  deriving DecidableEq, Repr

/-- The value that a double holds. -/
inductive Value where
  | finite (b : Binary)
  | infinite (negative : Bool)
  | undefined
  deriving DecidableEq, Repr

/-- The value with the given bits of a double. -/
def Value.ofBits (bits : Nat) : Value :=
  let negative := bits / twoTo 63 % 2 == 1
  let biased : Nat := bits / twoTo 52 % 2048
  let fraction : Nat := bits % twoTo 52
  if biased == 2047 then
    if fraction == 0 then .infinite negative else .undefined
  else if biased == 0 then .finite ⟨negative, fraction, -1074⟩
  else .finite ⟨negative, twoTo 52 + fraction, (biased : Int) - 1075⟩

/-- The value of a double. -/
def Value.ofFloat (x : Float) : Value :=
  .ofBits x.toBits.toNat

/-- The quotient to the nearest natural number; a half goes to the even neighbour. -/
def roundDiv (num den : Nat) : Nat :=
  let q := num / den
  let r := num % den
  if 2 * r < den then q else if den < 2 * r then q + 1 else q + q % 2

end RepoAtlas.Number
