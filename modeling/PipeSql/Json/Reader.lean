import PipeSql.Json

set_option autoImplicit false

namespace PipeSql.Json

private def isGap (c : Char) : Bool :=
  c == ' ' || c == '\n' || c == '\t' || c == '\r'

private def skipGap (chars : List Char) : List Char :=
  chars.dropWhile isGap

private def hexValue? (c : Char) : Option Nat :=
  if c.isDigit then some (c.toNat - '0'.toNat)
  else if 'a' ≤ c ∧ c ≤ 'f' then some (c.toNat - 'a'.toNat + 10)
  else if 'A' ≤ c ∧ c ≤ 'F' then some (c.toNat - 'A'.toNat + 10)
  else none

private def unit? : List Char → Option (Nat × List Char)
  | a :: b :: c :: d :: rest => do
    let high := (← hexValue? a) * 16 + (← hexValue? b)
    let low := (← hexValue? c) * 16 + (← hexValue? d)
    return (high * 256 + low, rest)
  | _ => none

private def lowSurrogate? : List Char → Option (Nat × List Char)
  | '\\' :: 'u' :: rest => (unit? rest).filter fun (low, _) => 0xDC00 ≤ low && low < 0xE000
  | _ => none

-- One unit, or a pair of surrogates. Half a pair is no character.
private def codePoint? (chars : List Char) : Option (Option Char × List Char) := do
  let (first, rest) ← unit? chars
  if 0xD800 ≤ first ∧ first < 0xDC00 then
    match lowSurrogate? rest with
    | some (second, after) =>
      return (some (Char.ofNat (0x10000 + (first - 0xD800) * 0x400 + (second - 0xDC00))), after)
    | none => return (none, rest)
  else if 0xDC00 ≤ first ∧ first < 0xE000 then return (none, rest)
  else return (some (Char.ofNat first), rest)

private def escape? : List Char → Option (Option Char × List Char)
  | [] => none
  | c :: rest =>
    if c = 'u' then codePoint? rest
    else if c = '"' ∨ c = '\\' ∨ c = '/' then some (c, rest)
    else if c = 'b' then some ('\x08', rest)
    else if c = 'f' then some ('\x0c', rest)
    else if c = 'n' then some ('\n', rest)
    else if c = 'r' then some ('\r', rest)
    else if c = 't' then some ('\t', rest)
    else none

private def text? : Nat → List Char → Option (Option (List Char) × List Char)
  | 0, _ => none
  | _, [] => none
  | fuel + 1, c :: rest =>
    if c = '"' then some (some [], rest)
    else if c = '\\' then do
      let (meant, after) ← escape? rest
      let (value, beyond) ← text? fuel after
      return (meant.bind fun c => value.map (c :: ·), beyond)
    else if c.toNat < 0x20 then none
    else do
      let (value, beyond) ← text? fuel rest
      return (value.map (c :: ·), beyond)

private def ofText : Option (List Char) → Json
  | some value => .text (String.ofList value)
  | none => .garbled

private def ofFields : Option (List (String × Json)) → Json
  | some fields => .object fields
  | none => .garbled

private def consField (name : Option (List Char)) (value : Json)
    (others : Option (List (String × Json))) : Option (List (String × Json)) :=
  name.bind fun name => others.map ((String.ofList name, value) :: ·)

private def digitsValue (digits : List Char) : Nat :=
  digits.foldl (fun value d => value * 10 + (d.toNat - '0'.toNat)) 0

private def digits? (chars : List Char) : Option (List Char × List Char) :=
  match chars.takeWhile Char.isDigit with
  | [] => none
  | digits => some (digits, chars.dropWhile Char.isDigit)

private def exponent? (chars : List Char) : Option (Int × List Char) := do
  let (negative, rest) :=
    match chars with
    | '-' :: rest => (true, rest)
    | '+' :: rest => (false, rest)
    | _ => (false, chars)
  let (digits, after) ← digits? rest
  let size : Int := digitsValue digits
  return (if negative then -size else size, after)

private def number? (chars : List Char) : Option (Number × List Char) := do
  let (negative, unsigned) :=
    match chars with
    | '-' :: rest => (true, rest)
    | _ => (false, chars)
  let (whole, rest) ← digits? unsigned
  if whole.head? = some '0' ∧ whole.length ≠ 1 then none
  else
    let (fraction, rest) ←
      match rest with
      | '.' :: more => (digits? more).map fun (digits, after) => (digits, after)
      | _ => some ([], rest)
    let isExponent := rest.head? = some 'e' ∨ rest.head? = some 'E'
    let (exponent, rest) ← if isExponent then exponent? rest.tail else some (0, rest)
    return (
      { negative := negative
        digits := digitsValue (whole ++ fraction)
        exponent := exponent - fraction.length
        whole := fraction.isEmpty && !isExponent },
      rest)

mutual

private def value? : Nat → List Char → Option (Json × List Char)
  | 0, _ => none
  | fuel + 1, chars =>
    match skipGap chars with
    | [] => none
    | c :: rest =>
      if c = '"' then
        (text? fuel rest).map fun (value, after) => (ofText value, after)
      else if c = '[' then
        match skipGap rest with
        | ']' :: after => some (.list [], after)
        | inner => (items? fuel inner).map fun (items, after) => (.list items, after)
      else if c = '\x7b' then
        match skipGap rest with
        | '\x7d' :: after => some (.object [], after)
        | inner => (fields? fuel inner).map fun (fields, after) => (ofFields fields, after)
      else if c = '-' ∨ c.isDigit then
        (number? (c :: rest)).map fun (value, after) => (.number value, after)
      else if ['n', 'u', 'l', 'l'].isPrefixOf (c :: rest) then some (.null, rest.drop 3)
      else if ['t', 'r', 'u', 'e'].isPrefixOf (c :: rest) then some (.bool true, rest.drop 3)
      else if ['f', 'a', 'l', 's', 'e'].isPrefixOf (c :: rest) then some (.bool false, rest.drop 4)
      else none

private def items? : Nat → List Char → Option (List Json × List Char)
  | 0, _ => none
  | fuel + 1, chars => do
    let (first, rest) ← value? fuel chars
    match skipGap rest with
    | ',' :: more =>
      let (others, after) ← items? fuel more
      return (first :: others, after)
    | ']' :: after => return ([first], after)
    | _ => none

private def fields? : Nat → List Char → Option (Option (List (String × Json)) × List Char)
  | 0, _ => none
  | fuel + 1, chars => do
    match skipGap chars with
    | '"' :: inner =>
      let (name, rest) ← text? fuel inner
      match skipGap rest with
      | ':' :: content =>
        let (value, rest) ← value? fuel content
        match skipGap rest with
        | ',' :: more =>
          let (others, after) ← fields? fuel more
          return (consField name value others, after)
        | '\x7d' :: after => return (consField name value (some []), after)
        | _ => none
      | _ => none
    | _ => none

end

-- Every call uses up a unit of fuel and, but for the step into a value, a character, so twice the length of the
-- text is enough.
def read? (text : String) : Option Json :=
  let chars := text.toList
  match value? (2 * chars.length + 2) chars with
  | some (json, rest) => if (skipGap rest).isEmpty then some json else none
  | none => none

end PipeSql.Json
