import PipeSql.Text

set_option autoImplicit false

namespace PipeSql

structure Moment where
  year : Int
  month : Nat
  day : Nat
  hour : Nat
  minute : Nat
  second : Nat
  nanosecond : Nat
deriving DecidableEq, Repr

namespace Moment

def isLeapYear (year : Int) : Bool :=
  year % 4 == 0 && (year % 100 != 0 || year % 400 == 0)

def daysInMonth (year : Int) (month : Nat) : Nat :=
  match month with
  | 2 => if isLeapYear year then 29 else 28
  | 4 | 6 | 9 | 11 => 30
  | _ => 31

def isDay (year : Int) (month day : Nat) : Bool :=
  decide (-262143 ≤ year) && decide (year ≤ 262142) && decide (1 ≤ month) && decide (month ≤ 12) &&
    decide (1 ≤ day) && decide (day ≤ daysInMonth year month)

def isTime (hour minute second : Nat) : Bool :=
  decide (hour ≤ 23) && decide (minute ≤ 59) && decide (second ≤ 60)

def ofDigits (digits : List Char) : Nat :=
  digits.foldl (fun value digit => value * 10 + (digit.toNat - '0'.toNat)) 0

-- Reading is lenient about blanks before numbers and around the marks between them, and about missing zeros in
-- front.
def number? (most : Nat) (chars : List Char) : Option (Nat × List Char) :=
  let digits := (chars.take most).takeWhile Char.isDigit
  if digits.isEmpty then none else some (ofDigits digits, chars.drop digits.length)

def skipBlanks (chars : List Char) : List Char :=
  chars.dropWhile Text.isBlank

def mark? (mark : Char) (chars : List Char) : Option (List Char) :=
  match skipBlanks chars with
  | c :: rest => if c = mark then some rest else none
  | [] => none

def field? (chars : List Char) : Option (Nat × List Char) :=
  number? 2 (skipBlanks chars)

def year? (chars : List Char) : Option (Int × List Char) :=
  match skipBlanks chars with
  | '-' :: rest => (number? rest.length rest).map fun (year, after) => (-(year : Int), after)
  | '+' :: rest => (number? rest.length rest).map fun (year, after) => ((year : Int), after)
  | rest => (number? 4 rest).map fun (year, after) => ((year : Int), after)

-- Digits beyond the ninth are dropped.
def fraction? : List Char → Option (Nat × List Char)
  | '.' :: rest =>
    let digits := rest.takeWhile Char.isDigit
    if digits.isEmpty then none
    else
      let kept := digits.take 9
      some (ofDigits kept * Nat.pow 10 (9 - kept.length), rest.dropWhile Char.isDigit)
  | rest => some (0, rest)

def ofText? (text : String) : Option Moment := do
  let (year, rest) ← year? text.toList
  let (month, rest) ← field? (← mark? '-' rest)
  let (day, rest) ← field? (← mark? '-' rest)
  let (hour, rest) ← field? (← mark? 'T' rest)
  let (minute, rest) ← field? (← mark? ':' rest)
  let (second, rest) ← field? (← mark? ':' rest)
  let (nanosecond, rest) ← fraction? rest
  if (skipBlanks rest).isEmpty && isDay year month day && isTime hour minute second then
    return ⟨year, month, day, hour, minute, second, nanosecond⟩
  else none

def padded (width value : Nat) : String :=
  let digits := Nat.toDigits 10 value
  String.ofList (List.replicate (width - digits.length) '0' ++ digits)

def yearText (year : Int) : String :=
  let digits := padded 4 year.natAbs
  if year < 0 then "-" ++ digits else if 9999 < year then "+" ++ digits else digits

def dayText (moment : Moment) : String :=
  yearText moment.year ++ "-" ++ padded 2 moment.month ++ "-" ++ padded 2 moment.day

def timeText (moment : Moment) : String :=
  padded 2 moment.hour ++ ":" ++ padded 2 moment.minute ++ ":" ++ padded 2 moment.second

def fractionText (nanosecond : Nat) : String :=
  if nanosecond = 0 then ""
  else if nanosecond % 1000000 = 0 then "." ++ padded 3 (nanosecond / 1000000)
  else if nanosecond % 1000 = 0 then "." ++ padded 6 (nanosecond / 1000)
  else "." ++ padded 9 nanosecond

def toText (moment : Moment) : String :=
  moment.dayText ++ "T" ++ moment.timeText ++ fractionText moment.nanosecond

-- SQL has the whole seconds only.
def sql (moment : Moment) : String :=
  "'" ++ moment.dayText ++ " " ++ moment.timeText ++ "'"

end Moment

end PipeSql
