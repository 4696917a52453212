import PipeSql.Number.Binary64

set_option autoImplicit false

namespace PipeSql

-- No table is defined twice: each remembers how it came to be, and that decides what may still be added to it.
inductive Toml.Origin where
  | header
  | path
  | dotted
  | inline
deriving DecidableEq, Repr

inductive Toml where
  | text (value : String)
  | bool (value : Bool)
  | int (value : Int)
  | float (value : Binary64)
  | time (value : String)
  | list (items : List Toml)
  | tables (items : List Toml)
  | table (origin : Toml.Origin) (fields : List (String × Toml))
deriving Repr, Inhabited

namespace Toml

abbrev Fields := List (String × Toml)

inductive Line where
  | assign (key : List String) (value : Toml)
  | openTable (key : List String)
  | openElement (key : List String)
deriving Repr

def Fields.get? (name : String) : Fields → Option Toml
  | [] => none
  | (other, value) :: rest => if other = name then some value else get? name rest

def Fields.put (name : String) (value : Toml) : Fields → Fields
  | [] => [(name, value)]
  | (other, old) :: rest =>
    if other = name then (name, value) :: rest else (other, old) :: put name value rest

-- On the way to the key there may be tables that headers merely named, and lists of tables, of which the last
-- one is meant. The flag tells whether the table at hand takes the value itself.
def Fields.assign? (value : Toml) : Bool → List String → Fields → Option Fields
  | _, [], _ => none
  | takes, [name], fields =>
    match takes, fields.get? name with
    | true, none => some (fields.put name value)
    | _, _ => none
  | _, name :: rest, fields =>
    match fields.get? name with
    | none =>
      (Fields.assign? value true rest []).map fun inner => fields.put name (.table .dotted inner)
    | some (.table .dotted inner) =>
      (Fields.assign? value true rest inner).map fun inner => fields.put name (.table .dotted inner)
    | some (.table .path inner) =>
      (Fields.assign? value false rest inner).map fun inner => fields.put name (.table .path inner)
    | some (.tables items) =>
      match items.getLast? with
      | some (.table origin inner) =>
        (Fields.assign? value false rest inner).map fun inner =>
          fields.put name (.tables (items.dropLast ++ [.table origin inner]))
      | _ => none
    | some _ => none

def Fields.under? (change : Fields → Option Fields) : List String → Fields → Option Fields
  | [], fields => change fields
  | name :: rest, fields =>
    match fields.get? name with
    | none => (Fields.under? change rest []).map fun inner => fields.put name (.table .path inner)
    | some (.table .inline _) => none
    | some (.table origin inner) =>
      (Fields.under? change rest inner).map fun inner => fields.put name (.table origin inner)
    | some (.tables items) =>
      match items.getLast? with
      | some (.table origin inner) =>
        (Fields.under? change rest inner).map fun inner =>
          fields.put name (.tables (items.dropLast ++ [.table origin inner]))
      | _ => none
    | some _ => none

def Fields.open? (name : String) (fields : Fields) : Option Fields :=
  match fields.get? name with
  | none => some (fields.put name (.table .header []))
  | some (.table .path inner) => some (fields.put name (.table .header inner))
  | some _ => none

def Fields.extend? (name : String) (fields : Fields) : Option Fields :=
  match fields.get? name with
  | none => some (fields.put name (.tables [.table .header []]))
  | some (.tables items) => some (fields.put name (.tables (items ++ [.table .header []])))
  | some _ => none

structure Draft where
  root : Fields
  current : List String

def Draft.empty : Draft :=
  ⟨[], []⟩

def Draft.enter? (change : String → Fields → Option Fields) (key : List String) (draft : Draft) :
    Option Draft :=
  match key.getLast? with
  | none => none
  | some name =>
    (draft.root.under? (change name) key.dropLast).map fun root => ⟨root, key⟩

def Draft.add? (draft : Draft) : Line → Option Draft
  | .assign key value =>
    (draft.root.under? (Fields.assign? value true key) draft.current).map fun root =>
      { draft with root := root }
  | .openTable key => draft.enter? Fields.open? key
  | .openElement key => draft.enter? Fields.extend? key

def ofLines? (lines : List Line) : Option Fields :=
  (lines.foldlM Draft.add? Draft.empty).map Draft.root

end Toml

end PipeSql
