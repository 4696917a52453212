import PipeSql.Number.Shortest

set_option autoImplicit false

namespace PipeSql

namespace Decimal

def zeros (count : Nat) : List Char :=
  List.replicate count '0'

def split (decimal : Decimal) : List Char × List Char :=
  if decimal.point ≤ 0 then (['0'], zeros (-decimal.point).toNat ++ decimal.digits)
  else
    let whole := decimal.point.toNat
    (decimal.digits.take whole ++ zeros (whole - decimal.digits.length), decimal.digits.drop whole)

def positional (places : Nat) (decimal : Decimal) : String :=
  let (whole, fraction) := decimal.split
  let fraction := fraction ++ zeros (places - fraction.length)
  String.ofList (if fraction.isEmpty then whole else whole ++ '.' :: fraction)

def scientific (decimal : Decimal) : String :=
  let mantissa :=
    match decimal.digits with
    | first :: second :: rest => first :: '.' :: second :: rest
    | digits => digits
  String.ofList mantissa ++ "e" ++ toString (decimal.point - 1)

end Decimal

namespace Binary64

def signed (magnitude : Decimal → String) (number : Binary64) : String :=
  if number.isNaN then "NaN"
  else
    (if number.isNegative then "-" else "") ++
      (if number.isInfinite then "inf" else magnitude number.shortest)

def plain (number : Binary64) : String :=
  number.signed (Decimal.positional 0)

def describe (number : Binary64) : String :=
  number.signed fun decimal =>
    if number.isZero || (decide (-4 < decimal.point) && decide (decimal.point ≤ 16)) then
      decimal.positional 1
    else decimal.scientific

end Binary64

end PipeSql
