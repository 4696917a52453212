set_option autoImplicit false

namespace PipeSql

structure Binary64 where
  bits : UInt64
deriving DecidableEq, Repr

namespace Binary64

def infinite (negative : Bool) : Binary64 :=
  ⟨if negative then 0xFFF0000000000000 else 0x7FF0000000000000⟩

def nan : Binary64 :=
  ⟨0x7FF8000000000000⟩

def isNegative (number : Binary64) : Bool :=
  0x8000000000000000 ≤ number.bits.toNat

def fractionBound : Nat :=
  0x10000000000000

def exponentBits (number : Binary64) : Nat :=
  number.bits.toNat / fractionBound % 2048

def fractionBits (number : Binary64) : Nat :=
  number.bits.toNat % fractionBound

def isNaN (number : Binary64) : Bool :=
  number.exponentBits == 2047 && number.fractionBits != 0

def isInfinite (number : Binary64) : Bool :=
  number.exponentBits == 2047 && number.fractionBits == 0

def isZero (number : Binary64) : Bool :=
  number.exponentBits == 0 && number.fractionBits == 0

def mantissa (number : Binary64) : Nat :=
  if number.exponentBits = 0 then number.fractionBits else number.fractionBits + fractionBound

def exponent (number : Binary64) : Int :=
  (max number.exponentBits 1 : Nat) - 1075

-- Zeros are equal whatever their sign, and what is not a number equals nothing.
def same (left right : Binary64) : Bool :=
  !left.isNaN && !right.isNaN && (left == right || (left.isZero && right.isZero))

end Binary64

end PipeSql
