import PipeSql.Text

set_option autoImplicit false

namespace PipeSql

namespace Json

structure Number where
  negative : Bool
  digits : Nat
  exponent : Int
  whole : Bool
deriving DecidableEq, Repr

def Number.ofNat (value : Nat) : Number :=
  ⟨false, value, 0, true⟩

-- A negative zero is no integer.
def Number.toInt? (number : Number) : Option Int :=
  if !number.whole then none
  else if number.negative then if number.digits = 0 then none else some (-number.digits)
  else some number.digits

end Json

inductive Json where
  | null
  | bool (value : Bool)
  | number (value : Json.Number)
  | text (value : String)
  | list (items : List Json)
  | object (fields : List (String × Json))
  -- Half a surrogate pair stands in the text or in a field name. It can be passed over, but it stands for no
  -- characters.
  | garbled
deriving Repr, Inhabited

namespace Json

inductive Place where
  | outside
  | within
deriving DecidableEq, Repr

def ofNat (value : Nat) : Json :=
  .number (.ofNat value)

def ofOption {α : Type} (encode : α → Json) : Option α → Json
  | some value => encode value
  | none => .null

def asText? : Json → Option String
  | .text value => some value
  | _ => none

def asBool? : Json → Option Bool
  | .bool value => some value
  | _ => none

def asList? : Json → Option (List Json)
  | .list items => some items
  | _ => none

def asInt? : Json → Option Int
  | .number value => value.toInt?
  | _ => none

def listOf? {α : Type} (decode : Json → Option α) (json : Json) : Option (List α) :=
  json.asList?.bind fun items => items.mapM decode

def fieldsNamed (name : String) : List (String × Json) → List Json
  | [] => []
  | (other, value) :: rest =>
    if other = name then value :: fieldsNamed name rest else fieldsNamed name rest

-- A component may be missing, but none may be given twice; further fields are ignored.
def components? (names : List String) : Json → Option (List (Option Json))
  | .object fields =>
    names.mapM fun name =>
      match fieldsNamed name fields with
      | [] => some none
      | [value] => some (some value)
      | _ => none
  | _ => none

def record? (names : List String) : Json → Option (List (Option Json))
  | .list items => if items.length = names.length then some (items.map some) else none
  | json => json.components? names

def required? {α : Type} (decode : Json → Option α) (component : Option Json) : Option α :=
  component.bind decode

def optional? {α : Type} (decode : Json → Option α) : Option Json → Option (Option α)
  | none => some none
  | some .null => some none
  | some json => (decode json).map some

-- Within a record that names its kind an empty object counts as nothing too.
def choice? : Place → Json → Option String
  | _, .text name => some name
  | _, .object [(name, .null)] => some name
  | .within, .object [(name, .object [])] => some name
  | _, _ => none

def choiceWith? : Json → Option (String × Json)
  | .object [(name, content)] => some (name, content)
  | _ => none

-- Within a record that names its kind, a kind may also be given by its number, counted from zero.
def kind? (kinds : List String) : Place → Json → Option String
  | _, .text name => if kinds.contains name then some name else none
  | .within, .number value =>
    match value.toInt? with
    | some (.ofNat index) => kinds[index]?
    | _ => none
  | _, _ => none

def kinded? (kinds : List String) (place : Place) : Json → Option (String × Json)
  | .object fields =>
    match fieldsNamed "kind" fields with
    | [kind] =>
      (kind? kinds place kind).map fun kind =>
        (kind, .object (fields.filter fun field => field.1 ≠ "kind"))
    | _ => none
  | .list (kind :: components) =>
    (kind? kinds place kind).map fun kind => (kind, .list components)
  | _ => none

mutual

def depth : Json → Nat
  | .list items => itemsDepth items + 1
  | .object fields => fieldsDepth fields + 1
  | _ => 0

def itemsDepth : List Json → Nat
  | [] => 0
  | item :: rest => max item.depth (itemsDepth rest)

def fieldsDepth : List (String × Json) → Nat
  | [] => 0
  | (_, value) :: rest => max value.depth (fieldsDepth rest)

end

end Json

end PipeSql
