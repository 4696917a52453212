set_option autoImplicit false

namespace PipeSql

inductive Comparison where
  | eq | notEq | greaterThan | lessThan | greaterOrEq | lessOrEq | like | in | isNull | isNotNull
deriving DecidableEq, Repr

namespace Comparison

def sql : Comparison → String
  | .eq => "="
  | .notEq => "<>"
  | .greaterThan => ">"
  | .lessThan => "<"
  | .greaterOrEq => ">="
  | .lessOrEq => "<="
  | .like => "LIKE"
  | .in => "IN"
  | .isNull => "IS NULL"
  | .isNotNull => "IS NOT NULL"

def isUnary : Comparison → Bool
  | .isNull | .isNotNull => true
  | _ => false

end Comparison

inductive Connective where
  | and | or
deriving DecidableEq, Repr

def Connective.sql : Connective → String
  | .and => "AND"
  | .or => "OR"

inductive Condition (γ : Type) where
  | comparison (left : γ) (operator : Comparison) (right : String)
  | connective (connective : Connective)
  | opening
  | closing
  | expression (text : String)
deriving DecidableEq, Repr

namespace Condition

variable {γ : Type}

def and : Condition γ := .connective .and

def or : Condition γ := .connective .or

def balancedFrom : Nat → List (Condition γ) → Bool
  | depth, [] => depth == 0
  | depth, .opening :: rest => balancedFrom (depth + 1) rest
  | 0, .closing :: _ => false
  | depth + 1, .closing :: rest => balancedFrom depth rest
  | depth, _ :: rest => balancedFrom depth rest

def balanced (conditions : List (Condition γ)) : Bool :=
  balancedFrom 0 conditions

def looseOrFrom : Nat → List (Condition γ) → Bool
  | _, [] => false
  | depth, .opening :: rest => looseOrFrom (depth + 1) rest
  | depth, .closing :: rest => looseOrFrom (depth - 1) rest
  | 0, .connective .or :: _ => true
  | depth, _ :: rest => looseOrFrom depth rest

def hasLooseOr (conditions : List (Condition γ)) : Bool :=
  looseOrFrom 0 conditions

end Condition

end PipeSql
