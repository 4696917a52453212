import PipeSql.Moment
import PipeSql.Number.Nearest
import PipeSql.Toml

set_option autoImplicit false

namespace PipeSql.Toml

def underscored? (isDigit : Char → Bool) : List Char → Option (List Char)
  | [] => none
  | [last] => if isDigit last then some [last] else none
  | digit :: '_' :: rest =>
    if isDigit digit then (underscored? isDigit rest).map (digit :: ·) else none
  | digit :: rest =>
    if isDigit digit then (underscored? isDigit rest).map (digit :: ·) else none

def digitValue (c : Char) : Nat :=
  if c.isDigit then c.toNat - '0'.toNat else c.toLower.toNat - 'a'.toNat + 10

def ofBase (base : Nat) (digits : List Char) : Nat :=
  digits.foldl (fun value digit => value * base + digitValue digit) 0

def isHexDigit (c : Char) : Bool :=
  c.isDigit || ('a' ≤ c && c ≤ 'f') || ('A' ≤ c && c ≤ 'F')

def decimal? (chars : List Char) : Option (List Char) :=
  match underscored? Char.isDigit chars with
  | some ['0'] => some ['0']
  | some ('0' :: _) => none
  | digits => digits

def int? (value : Int) : Option Toml :=
  if -170141183460469231731687303715884105728 ≤ value ∧
      value < 340282366920938463463374607431768211456 then some (.int value)
  else none

def signed (negative : Bool) (magnitude : Nat) : Int :=
  if negative then -magnitude else magnitude

def splitSign : List Char → Bool × List Char
  | '-' :: rest => (true, rest)
  | '+' :: rest => (false, rest)
  | rest => (false, rest)

def exponent? (chars : List Char) : Option Int :=
  match splitSign chars with
  | (negative, rest) =>
    (underscored? Char.isDigit rest).map fun digits => signed negative (ofBase 10 digits)

def isExponentMark (c : Char) : Bool :=
  c == 'e' || c == 'E'

def float? (negative : Bool) (digits : List Char) (power : Int) : Option Toml :=
  let number := Binary64.nearest negative (ofBase 10 digits) power
  if number.isInfinite then none else some (.float number)

def fractional? (negative : Bool) (chars : List Char) : Option Toml := do
  let mantissa := chars.takeWhile (!isExponentMark ·)
  let power ←
    match chars.dropWhile (!isExponentMark ·) with
    | [] => some 0
    | _ :: rest => exponent? rest
  let whole ← decimal? (mantissa.takeWhile (· != '.'))
  match mantissa.dropWhile (· != '.') with
  | [] => float? negative whole power
  | _ :: rest =>
    let fraction ← underscored? Char.isDigit rest
    float? negative (whole ++ fraction) (power - fraction.length)

def unsigned? (negative : Bool) (chars : List Char) : Option Toml :=
  if chars = "inf".toList then some (.float (.infinite negative))
  else if chars = "nan".toList then some (.float .nan)
  else if chars.any fun c => c == '.' || isExponentMark c then fractional? negative chars
  else (decimal? chars).bind fun digits => int? (signed negative (ofBase 10 digits))

def number? : List Char → Option Toml
  | '0' :: 'x' :: rest => (underscored? isHexDigit rest).bind fun digits => int? (ofBase 16 digits)
  | '0' :: 'o' :: rest =>
    (underscored? (fun c => '0' ≤ c && c ≤ '7') rest).bind fun digits => int? (ofBase 8 digits)
  | '0' :: 'b' :: rest =>
    (underscored? (fun c => c == '0' || c == '1') rest).bind fun digits => int? (ofBase 2 digits)
  | chars => unsigned? (splitSign chars).1 (splitSign chars).2

def fixed? (count : Nat) (chars : List Char) : Option (Nat × List Char) :=
  let digits := chars.take count
  if digits.length = count ∧ digits.all Char.isDigit then
    some (ofBase 10 digits, chars.drop count)
  else none

def mark? (marks : List Char) : List Char → Option (List Char)
  | [] => none
  | c :: rest => if marks.contains c then some rest else none

def day? (chars : List Char) : Option (List Char) := do
  let (year, rest) ← fixed? 4 chars
  let (month, rest) ← fixed? 2 (← mark? ['-'] rest)
  let (day, rest) ← fixed? 2 (← mark? ['-'] rest)
  if Moment.isDay year month day then some rest else none

def seconds? (chars : List Char) : Option (Nat × List Char) :=
  match chars with
  | ':' :: rest => do
    let (second, rest) ← fixed? 2 rest
    match rest with
    | '.' :: more =>
      if (more.takeWhile Char.isDigit).isEmpty then none
      else some (second, more.dropWhile Char.isDigit)
    | _ => some (second, rest)
  | _ => some (0, chars)

def clock? (chars : List Char) : Option (List Char) := do
  let (hour, rest) ← fixed? 2 chars
  let (minute, rest) ← fixed? 2 (← mark? [':'] rest)
  let (second, rest) ← seconds? rest
  if Moment.isTime hour minute second then some rest else none

def isOffset (chars : List Char) : Bool :=
  match chars with
  | [] => true
  | [c] => c == 'Z' || c == 'z'
  | _ =>
    (do
      let (hour, rest) ← fixed? 2 (← mark? ['+', '-'] chars)
      let (minute, rest) ← fixed? 2 (← mark? [':'] rest)
      return rest.isEmpty && decide (hour ≤ 23) && decide (minute ≤ 59)) == some true

def isTime (chars : List Char) : Bool :=
  match day? chars with
  | some [] => true
  | some rest => ((mark? ['T', 't', ' '] rest).bind clock?).any isOffset
  | none => clock? chars == some []

def scalar? (chars : List Char) : Option Toml :=
  if chars = "true".toList then some (.bool true)
  else if chars = "false".toList then some (.bool false)
  else if isTime chars then some (.time (String.ofList chars))
  else number? chars

def isScalarChar (c : Char) : Bool :=
  c.isAlphanum || c == '+' || c == '-' || c == '.' || c == '_' || c == ':'

-- Between a day and a time there may be a space.
def splitScalar (chars : List Char) : List Char × List Char :=
  let first := chars.takeWhile isScalarChar
  match chars.dropWhile isScalarChar with
  | ' ' :: c :: rest =>
    if day? first = some [] ∧ c.isDigit then
      (first ++ ' ' :: (c :: rest).takeWhile isScalarChar, (c :: rest).dropWhile isScalarChar)
    else (first, ' ' :: c :: rest)
  | rest => (first, rest)

end PipeSql.Toml
