import PipeSql.Number.Binary64

set_option autoImplicit false

namespace PipeSql

structure Decimal where
  digits : List Char
  point : Int
deriving DecidableEq, Repr

namespace Binary64

-- What reads back as a positive number lies between the midpoints to its neighbours; the midpoints belong to it
-- if the mantissa is even.
structure Range where
  value : Nat
  low : Nat
  high : Nat
  denominator : Nat
  closed : Bool

-- Below a power of two the neighbour is nearer.
def range (number : Binary64) : Range :=
  let mantissa := number.mantissa
  let power := number.exponent - 2
  let scale := Nat.pow 2 power.toNat
  let isPower := number.fractionBits == 0 && decide (1 < number.exponentBits)
  { value := 4 * mantissa * scale
    low := (4 * mantissa - if isPower then 1 else 2) * scale
    high := (4 * mantissa + 2) * scale
    denominator := Nat.pow 2 (-power).toNat
    closed := mantissa % 2 == 0 }

def leadingZeros : Nat → Nat → Nat → Nat
  | 0, _, _ => 0
  | fuel + 1, numerator, denominator =>
    if numerator * 10 < denominator then leadingZeros fuel (numerator * 10) denominator + 1 else 0

def digitCount (value : Nat) : Nat :=
  (Nat.toDigits 10 value).length

def Range.point (range : Range) : Int :=
  if range.denominator ≤ range.value then digitCount (range.value / range.denominator)
  else -(leadingZeros 400 range.value range.denominator)

def Range.scaled (range : Range) (count : Nat) (power : Int) : Nat × Nat :=
  (count * range.denominator * Nat.pow 10 power.toNat, Nat.pow 10 (-power).toNat)

def Range.holds (range : Range) (count : Nat) (power : Int) : Bool :=
  let (candidate, factor) := range.scaled count power
  if range.closed then
    decide (range.low * factor ≤ candidate) && decide (candidate ≤ range.high * factor)
  else decide (range.low * factor < candidate) && decide (candidate < range.high * factor)

def Range.below (range : Range) (power : Int) : Nat :=
  range.value * Nat.pow 10 (-power).toNat / (range.denominator * Nat.pow 10 power.toNat)

def Range.nextIsNearer (range : Range) (count : Nat) (power : Int) : Bool :=
  let (below, factor) := range.scaled count power
  let (next, _) := range.scaled (count + 1) power
  let value := range.value * factor
  decide (next - value ≤ value - below)

-- If any decimal of so many digits is between the midpoints, then one of the two next to the number is.
def Range.search (range : Range) (point : Int) : Nat → Nat → Nat × Int
  | 0, count => (range.below (point - count), point - count)
  | fuel + 1, count =>
    let power := point - count
    let below := range.below power
    match range.holds below power, range.holds (below + 1) power with
    | true, true => (if range.nextIsNearer below power then below + 1 else below, power)
    | true, false => (below, power)
    | false, true => (below + 1, power)
    | false, false => range.search point fuel (count + 1)

def withoutTrailingZeros (digits : List Char) : List Char :=
  (digits.reverse.dropWhile (· == '0')).reverse

-- Seventeen digits always read back.
def shortest (number : Binary64) : Decimal :=
  if number.isZero then ⟨['0'], 1⟩
  else
    let range := number.range
    let (count, power) := range.search range.point 17 1
    let digits := Nat.toDigits 10 count
    ⟨withoutTrailingZeros digits, power + digits.length⟩

end Binary64

end PipeSql
