import PipeSql.Json

set_option autoImplicit false

namespace PipeSql.Json

private def hexDigit (value : Nat) : Char :=
  if value < 10 then Char.ofNat ('0'.toNat + value) else Char.ofNat ('a'.toNat + value - 10)

private def escapeChar (c : Char) : List Char :=
  if c = '"' then ['\\', '"']
  else if c = '\\' then ['\\', '\\']
  else if c = '\x08' then ['\\', 'b']
  else if c = '\x0c' then ['\\', 'f']
  else if c = '\n' then ['\\', 'n']
  else if c = '\r' then ['\\', 'r']
  else if c = '\t' then ['\\', 't']
  else if c.toNat < 0x20 then
    ['\\', 'u', '0', '0', hexDigit (c.toNat / 16), hexDigit (c.toNat % 16)]
  else [c]

def quoted (text : String) : String :=
  String.ofList ('"' :: text.toList.flatMap escapeChar ++ ['"'])

def Number.render (number : Number) : String :=
  let sign := if number.negative then "-" else ""
  let power := if number.whole then "" else "e" ++ toString number.exponent
  sign ++ toString number.digits ++ power

mutual

def compact : Json → String
  | .null => "null"
  | .bool true => "true"
  | .bool false => "false"
  | .number value => value.render
  | .text value => quoted value
  | .list items => "[" ++ Text.joinWith "," (compactItems items) ++ "]"
  | .object fields => "\x7b" ++ Text.joinWith "," (compactFields fields) ++ "\x7d"
  | .garbled => "\"\\ud800\""

def compactItems : List Json → List String
  | [] => []
  | item :: rest => item.compact :: compactItems rest

def compactFields : List (String × Json) → List String
  | [] => []
  | (name, value) :: rest => (quoted name ++ ":" ++ value.compact) :: compactFields rest

end

private def block (opening closing : String) (level : Nat) (lines : List String) : String :=
  if lines.isEmpty then opening ++ closing
  else
    let indent := String.ofList (List.replicate (2 * level) ' ')
    opening ++ "\n" ++ Text.joinWith ",\n" (lines.map (indent ++ "  " ++ ·)) ++ "\n" ++ indent ++
      closing

mutual

def prettyAt (level : Nat) : Json → String
  | .list items => block "[" "]" level (prettyItems (level + 1) items)
  | .object fields => block "\x7b" "\x7d" level (prettyFields (level + 1) fields)
  | other => other.compact

def prettyItems (level : Nat) : List Json → List String
  | [] => []
  | item :: rest => item.prettyAt level :: prettyItems level rest

def prettyFields (level : Nat) : List (String × Json) → List String
  | [] => []
  | (name, value) :: rest =>
    (quoted name ++ ": " ++ value.prettyAt level) :: prettyFields level rest

end

def pretty (json : Json) : String :=
  json.prettyAt 0

end PipeSql.Json
