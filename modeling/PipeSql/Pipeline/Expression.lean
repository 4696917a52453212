import PipeSql.Pipeline.Lowering
import PipeSql.Text

set_option autoImplicit false

namespace PipeSql.Function

def synonyms : List (String × String) :=
  [("substr", "SUBSTRING")]

def known : List String :=
  ["COUNT", "SUM", "AVG", "MIN", "MAX",
    "UPPER", "LOWER", "LENGTH", "TRIM", "LTRIM", "RTRIM", "SUBSTRING", "CONCAT", "REPLACE",
    "COALESCE", "IFNULL", "NULLIF",
    "ROUND", "ABS", "FLOOR", "CEILING",
    "NOW", "DATE",
    "ROW_NUMBER", "RANK", "DENSE_RANK", "NTILE", "LAG", "LEAD", "FIRST_VALUE", "LAST_VALUE"]

def sqlName (name : String) : String :=
  match synonyms.find? fun entry => Text.sameWord entry.1 name with
  | some (_, function) => function
  | none => (known.find? fun function => Text.sameWord function name).getD name

end PipeSql.Function

namespace PipeSql

-- How a query inside of a term becomes text is a parameter of all that follows, so that terms can be read
-- without knowing how pipelines are lowered.
abbrev QueryText := Term → List Term → Lowering String

def Literal.sql : Literal → String
  | .str value => Text.sqlLiteral value
  | .int digits => digits
  | .decimal digits => digits
  | .null => "NULL"

namespace Term

def isBinary : Term → Bool
  | .binary .. => true
  | _ => false

def isNamed : Term → Bool
  | .named .. => true
  | _ => false

def isNumber : Term → Bool
  | .literal _ (.int _) => true
  | .literal _ (.decimal _) => true
  | .unary _ .negate operand => operand.isNumber
  | _ => false

def parenthesized (needed : Bool) (text : String) : String :=
  if needed then "(" ++ text ++ ")" else text

def needsParens (op : Operator) (operand : Term) (onRight : Bool) : Bool :=
  match operand with
  | .binary _ inner _ _ =>
    decide (inner.precedence < op.precedence) ||
      (onRight && inner.precedence == op.precedence && [.sub, .div, .mod].contains op)
  | _ => false

def callText (head : CallHead) (args : List String) : String :=
  Function.sqlName head.name ++ "(" ++ (if head.distinct then "DISTINCT " else "") ++
    Text.joinWith ", " args ++ ")"

def windowPart (keywords : String) (entries : List String) : List String :=
  if entries.isEmpty then [] else [keywords ++ " " ++ Text.joinWith ", " entries]

def windowText (partitionBy orderBy : List String) : String :=
  " OVER (" ++ Text.joinWith " "
    (windowPart "PARTITION BY" partitionBy ++ windowPart "ORDER BY" orderBy) ++ ")"

def negation (negated : Bool) : String :=
  if negated then "NOT " else ""

def declareCompared (left right : Term) : Lowering Unit := do
  if let .param _ name := left then
    if right.isNumber then Lowering.declare name "NUMERIC"
  if let .param _ name := right then
    if left.isNumber then Lowering.declare name "NUMERIC"

-- A single query needs no parentheses of its own.
def entriesText (queryText : QueryText) (items : List Term) (texts : Lowering (List String)) :
    Lowering String :=
  match items with
  | [.pipe _ source stages] => do return "(" ++ (← queryText source stages) ++ ")"
  | _ => do return "(" ++ Text.joinWith ", " (← texts) ++ ")"

mutual

def text (queryText : QueryText) : Term → Lowering String
  | .ident _ name => return name
  | .qualified _ parts => do return Text.joinWith "." ((← read).stripRow parts)
  | .wildcard _ none => return "*"
  | .wildcard _ (some table) => return table ++ ".*"
  | .param _ name => do
    Lowering.declare name "TEXT"
    return "@" ++ name
  | .literal _ value => return value.sql
  | .call _ head args => do return callText head (← texts queryText args)
  | .windowed _ head args partitionBy orderBy => do
    let args ← texts queryText args
    let partitionBy ← texts queryText partitionBy
    let orderBy ← texts queryText orderBy
    return callText head args ++ windowText partitionBy orderBy
  | .cases _ operand branches otherwise => do
    let operand ← optionText queryText " " operand
    let branches ← branchesText queryText branches
    let otherwise ← optionText queryText " ELSE " otherwise
    return "CASE" ++ operand ++ branches ++ otherwise ++ " END"
  | .binary _ op left right => do
    if op.isComparison then declareCompared left right
    let leftText ← left.text queryText
    let rightText ← right.text queryText
    return parenthesized (needsParens op left false) leftText ++ " " ++ op.sql ++ " " ++
      parenthesized (needsParens op right true) rightText
  | .unary _ op operand => do
    let inner := parenthesized operand.isBinary (← operand.text queryText)
    match op with
    | .negate => return "-" ++ inner
    | .not => return "NOT " ++ inner
  | .isNull _ operand negated => do
    return (← operand.text queryText) ++ " IS " ++ negation negated ++ "NULL"
  | .inList _ operand items negated => do
    let inner ← operand.text queryText
    let entries ← entriesText queryText items (texts queryText items)
    return inner ++ " " ++ negation negated ++ "IN " ++ entries
  | .like _ operand pattern negated => do
    let inner ← operand.text queryText
    let pattern ← pattern.text queryText
    return inner ++ " " ++ negation negated ++ "LIKE " ++ pattern
  | .exists _ source stages => do return "EXISTS (" ++ (← queryText source stages) ++ ")"
  | .paren _ inner => do return "(" ++ (← inner.text queryText) ++ ")"
  | .pipe _ source stages => do return "(" ++ (← queryText source stages) ++ ")"
  | .aliased _ inner label => do return (← inner.text queryText) ++ " AS " ++ label
  | .ordered _ inner direction => do return (← inner.text queryText) ++ " " ++ direction.sql
  | .lambda span _ _ => Lowering.refuse .strayLambda span
  | .named span name _ => Lowering.refuse (.strayName name) span

def texts (queryText : QueryText) : List Term → Lowering (List String)
  | [] => return []
  | term :: rest => do
    let first ← term.text queryText
    let others ← texts queryText rest
    return first :: others

def optionText (queryText : QueryText) (introduction : String) : Option Term → Lowering String
  | none => return ""
  | some term => do return introduction ++ (← term.text queryText)

def branchesText (queryText : QueryText) : List (Term × Term) → Lowering String
  | [] => return ""
  | (condition, value) :: rest => do
    let condition ← condition.text queryText
    let value ← value.text queryText
    let others ← branchesText queryText rest
    return " WHEN " ++ condition ++ " THEN " ++ value ++ others

end

def bodyText (queryText : QueryText) : Term → Lowering String
  | .lambda _ params body => Lowering.withRows params (body.text queryText)
  | term => term.text queryText

def namedColumn (parts : List String) : Column :=
  match parts.reverse with
  | [] => .wildcard none
  | [name] => .ofName name
  | name :: table => .named name (some (Text.joinWith "." table.reverse)) none

def operandColumn (queryText : QueryText) : Term → Lowering Column
  | .ident _ name => return .ofName name
  | .qualified _ parts => do return namedColumn ((← read).stripRow parts)
  | term => do return .ofText (← term.text queryText)

def comparisonOf : Operator → Comparison
  | .notEq => .notEq
  | .lt => .lessThan
  | .gt => .greaterThan
  | .ltEq => .lessOrEq
  | .gtEq => .greaterOrEq
  | _ => .eq

def condition (queryText : QueryText) (term : Term) : Lowering (Condition Column) :=
  match term with
  | .binary _ op left right =>
    if op.isComparison then do
      declareCompared left right
      let column ← left.operandColumn queryText
      let value ← right.text queryText
      return .comparison column (comparisonOf op) value
    else do return .expression (← term.text queryText)
  | .isNull _ operand negated => do
    let column ← operand.operandColumn queryText
    return .comparison column (if negated then .isNotNull else .isNull) ""
  | .inList _ operand items false => do
    let column ← operand.operandColumn queryText
    let entries ← entriesText queryText items (texts queryText items)
    return .comparison column .in entries
  | .like _ operand pattern false => do
    let column ← operand.operandColumn queryText
    let pattern ← pattern.text queryText
    return .comparison column .like pattern
  | _ => do return .expression (← term.text queryText)

def conditions (queryText : QueryText) : Term → Lowering (List (Condition Column))
  | .binary _ .and left right => do
    let before ← left.conditions queryText
    let after ← right.conditions queryText
    return before ++ .and :: after
  | .binary _ .or left right => do
    let before ← left.conditions queryText
    let after ← right.conditions queryText
    return before ++ .or :: after
  | .paren _ inner => do
    let inside ← inner.conditions queryText
    return .opening :: inside ++ [.closing]
  | term => do return [← term.condition queryText]

def column (queryText : QueryText) : Term → Lowering Column
  | .aliased _ inner label => do return (← inner.column queryText).withAlias label
  | .wildcard _ table => return .wildcard table
  | .ident _ name => return .ofName name
  | .qualified _ parts => return namedColumn parts
  | .pipe span _ _ => Lowering.refuse .queryAsColumn span
  | .lambda span _ _ => Lowering.refuse .notAColumn span
  | .named span _ _ => Lowering.refuse .notAColumn span
  | .ordered span _ _ => Lowering.refuse .notAColumn span
  | term => do return .ofText (← term.text queryText)

def columns (queryText : QueryText) : List Term → Lowering (List Column)
  | [] => return []
  | term :: rest => do
    let first ← term.column queryText
    let others ← columns queryText rest
    return first :: others

def orderItem (queryText : QueryText) : Term → Lowering OrderItem
  | .ordered _ inner .descending => do return ⟨← inner.bodyText queryText, .desc⟩
  | .ordered _ inner .ascending => do return ⟨← inner.bodyText queryText, .asc⟩
  | term => do return ⟨← term.bodyText queryText, .asc⟩

def orderItems (queryText : QueryText) : List Term → Lowering (List OrderItem)
  | [] => return []
  | term :: rest => do
    let first ← term.orderItem queryText
    let others ← orderItems queryText rest
    return first :: others

end Term

end PipeSql
