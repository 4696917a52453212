import PipeSql.Pipeline.Expression

set_option autoImplicit false

namespace PipeSql

inductive Operation where
  | innerJoin | leftJoin | crossJoin | filter | having | select | selectDistinct | groupBy
  | orderBy | limit | offset | union | unionAll | insert
deriving DecidableEq, Repr

def Operation.ofName? (name : String) : Option Operation :=
  match Text.asciiLower name with
  | "join" => some .innerJoin
  | "left_join" => some .leftJoin
  | "cross_join" => some .crossJoin
  | "filter" => some .filter
  | "having" => some .having
  | "select" => some .select
  | "select_distinct" => some .selectDistinct
  | "group_by" => some .groupBy
  | "order_by" => some .orderBy
  | "limit" => some .limit
  | "offset" => some .offset
  | "union" => some .union
  | "union_all" => some .unionAll
  | "insert" => some .insert
  | _ => none

structure Stage where
  span : Span
  name : String
  nameSpan : Span
  args : List Term

namespace Stage

-- What a call says of distinctness or a window does not matter here.
def ofTerm? : Term → Option Stage
  | .call span head args => some ⟨span, head.name, head.nameSpan, args⟩
  | .windowed span head args _ _ => some ⟨span, head.name, head.nameSpan, args⟩
  | _ => none

def tableOf? : Term → Option Table
  | .ident _ name => some (.named name)
  | .qualified _ parts => some (.named (Text.joinWith "." parts))
  | .aliased _ (.ident _ name) label => some ⟨name, some label⟩
  | _ => none

def table (stage : Stage) : Lowering Table :=
  match (stage.args.find? fun arg => !arg.isNamed).bind tableOf? with
  | some table => return table
  | none => Lowering.refuse (.missingTable stage.name) stage.span

def named? (name : String) : List Term → Option Term
  | [] => none
  | .named _ given value :: rest =>
    if Text.sameWord given name then some value else named? name rest
  | _ :: rest => named? name rest

def onlyArgument (stage : Stage) : Lowering Term :=
  match stage.args with
  | [arg] => return arg
  | _ => Lowering.refuse (.notOneArgument stage.name) stage.span

def join (queryText : QueryText) (current : Option String) (joinType : String) (stage : Stage) :
    Lowering (Step Node) := do
  let table ← stage.table
  let condition ←
    match named? "on" stage.args with
    | some term => some <$> term.bodyText queryText
    | none =>
      if joinType = "CROSS" then pure none
      else Lowering.refuse (.missingOn stage.name) stage.span
  return .join table ⟨current.getD "", table.name, condition, joinType⟩

-- An OR on the outside is put into parentheses, since further filters are joined to it by AND.
def filterConditions (queryText : QueryText) (term : Term) :
    Lowering (List (Condition Column)) := do
  let conditions ←
    match term with
    | .lambda _ params body => Lowering.withRows params (body.conditions queryText)
    | _ => term.conditions queryText
  return if Condition.hasLooseOr conditions then .opening :: conditions ++ [.closing]
    else conditions

def count (queryText : QueryText) (term : Term) : Lowering String := do
  if let .param _ name := term then Lowering.declare name "INTEGER"
  term.text queryText

def unionQuery (queryText : QueryText) (stage : Stage) : Lowering String := do
  let term ← stage.onlyArgument
  match term with
  | .ident .. | .paren .. | .pipe .. => queryText term []
  | _ => Lowering.refuse (.notAQuery stage.name) term.span

def step (queryText : QueryText) (current : Option String) (stage : Stage) :
    Lowering (Step Node) := do
  match Operation.ofName? stage.name with
  | some .innerJoin => stage.join queryText current "INNER"
  | some .leftJoin => stage.join queryText current "LEFT"
  | some .crossJoin => stage.join queryText current "CROSS"
  | some .filter => return .filter (← filterConditions queryText (← stage.onlyArgument))
  | some .having => return .having (← (← stage.onlyArgument).bodyText queryText)
  | some .select => return .select (← Term.columns queryText stage.args)
  | some .selectDistinct => return .selectDistinct (← Term.columns queryText stage.args)
  | some .groupBy => return .groupBy (← Term.columns queryText stage.args)
  | some .orderBy => return .orderBy (← Term.orderItems queryText stage.args)
  | some .limit => return .limit (← count queryText (← stage.onlyArgument))
  | some .offset => return .offset (← count queryText (← stage.onlyArgument))
  | some .union => return .union (← stage.unionQuery queryText)
  | some .unionAll => return .unionAll (← stage.unionQuery queryText)
  | some .insert => return .insert (← stage.table).name []
  | none => Lowering.refuse (.unknownOperation stage.name) stage.nameSpan

def tableAfter (current : Option String) : Step Node → Option String
  | .join joined _ => some joined.name
  | _ => current

def steps (queryText : QueryText) : Option String → List Term → Lowering (List (Step Node))
  | _, [] => return []
  | current, term :: rest => do
    match ofTerm? term with
    | none => Lowering.refuse .notAnOperation term.span
    | some stage =>
      let first ← stage.step queryText current
      let others ← steps queryText (tableAfter current first) rest
      return first :: others

def through (queryText : QueryText) (base : Node) (stages : List Term) : Lowering Node :=
  match stages with
  | [] => return base
  | _ => do return .pipeline (.source base :: (← steps queryText base.lastTable? stages))

end Stage

def Term.source (queryText : QueryText) : Term → Lowering Node
  | .ident _ name => do return (← read).node name
  | .paren _ inner => inner.source queryText
  | .pipe _ source stages => do Stage.through queryText (← source.source queryText) stages
  | term => Lowering.refuse .notASource term.span

def Pipe.nodeWith (queryText : QueryText) (pipe : Pipe) : Lowering Node := do
  Stage.through queryText (← pipe.source.source queryText) pipe.stages

def Pipe.textWithin : Nat → QueryText
  | 0, source, _ => Lowering.refuse .tooDeep source.span
  | depth + 1, source, stages => do
    Lowering.writeNode (← Pipe.nodeWith (Pipe.textWithin depth) ⟨source, stages⟩)

-- Queries nest in a pipe less deeply than terms do.
def Pipe.node (pipe : Pipe) : Lowering Node :=
  pipe.nodeWith (Pipe.textWithin pipe.height)

structure Plan where
  root : Node
  parameters : List Parameter

namespace Plan

def lastNode : ScriptStatement → List ScriptStatement → Lowering Node
  | statement, [] => statement.pipe.node
  | .bind name _ value, next :: rest => do
    let node ← value.node
    Lowering.withBinding name node (lastNode next rest)
  | .query value, next :: rest => do
    let _ ← value.node
    lastNode next rest

def ofScript (dialect : Dialect) (script : Script) : Except Lowering.Failure Plan := do
  let (root, parameters) ← (lastNode script.first script.others).run ⟨dialect, [], []⟩ |>.run []
  return ⟨root, parameters⟩

def statement (plan : Plan) : Statement :=
  plan.parameters.foldl Statement.declare plan.root.statement

end Plan

end PipeSql
