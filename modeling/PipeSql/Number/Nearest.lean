import PipeSql.Number.Binary64

set_option autoImplicit false

namespace PipeSql

-- Of two equally near integers the even one is taken.
def roundDiv (numerator denominator : Nat) : Nat :=
  let quotient := numerator / denominator
  let twice := 2 * (numerator % denominator)
  if twice < denominator then quotient
  else if denominator < twice then quotient + 1
  else quotient + quotient % 2

def floorLog2 (numerator denominator : Nat) : Int :=
  let guess : Int := numerator.log2 - denominator.log2
  if numerator * Nat.pow 2 (-guess).toNat < denominator * Nat.pow 2 guess.toNat then guess - 1
  else guess

namespace Binary64

def ofMagnitude (negative : Bool) (magnitude : Nat) : Binary64 :=
  if 0x7FF0000000000000 ≤ magnitude then infinite negative
  else ⟨.ofNat (if negative then 0x8000000000000000 + magnitude else magnitude)⟩

-- The highest of fifty-three bits is not stored, so a mantissa that is rounded up to a power of two carries
-- over into the exponent.
def quotientBits (numerator denominator : Nat) : Nat :=
  let power := max (floorLog2 numerator denominator - 52) (-1074)
  let mantissa :=
    roundDiv (numerator * Nat.pow 2 (-power).toNat) (denominator * Nat.pow 2 power.toNat)
  (power + 1074).toNat * fractionBound + mantissa

-- From ten to the 310th on all is infinite, and below ten to the minus 330th all is zero.
def nearest (negative : Bool) (digits : Nat) (power : Int) : Binary64 :=
  let point := power + (Nat.toDigits 10 digits).length
  if digits = 0 ∨ point < -330 then ofMagnitude negative 0
  else if 310 < point then infinite negative
  else
    ofMagnitude negative
      (quotientBits (digits * Nat.pow 10 power.toNat) (Nat.pow 10 (-power).toNat))

end Binary64

end PipeSql
