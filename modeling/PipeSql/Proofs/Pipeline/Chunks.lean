import PipeSql.Dialect.Spelling
import PipeSql.Proofs.Script.Tokens

set_option autoImplicit false

namespace PipeSql

-- The spelling in which expressions are held.
def Spelling.common : Spelling :=
  ⟨fun _ => none, "||"⟩

def Operator.spelled (spelling : Spelling) : Operator → String
  | .concat => spelling.concat
  | op => op.sql

namespace Term

-- A call under the name that the spelling has for the function. Some functions go without an empty list of arguments.
def spelledCall (spelling : Spelling) (head : CallHead) (args : List String) : String :=
  match spelling.rename (Text.asciiUpper (Function.sqlName head.name)) with
  | none => callText head args
  | some name =>
    if Spelling.isBare name && !head.distinct && args.isEmpty then name
    else name ++ "(" ++ (if head.distinct then "DISTINCT " else "") ++ Text.joinWith ", " args ++ ")"

mutual

-- A term as SQL text in a spelling.
def spelled (spelling : Spelling) (queryText : QueryText) : Term → Lowering String
  | .ident _ name => return name
  | .qualified _ parts => do return Text.joinWith "." ((← read).stripRow parts)
  | .wildcard _ none => return "*"
  | .wildcard _ (some table) => return table ++ ".*"
  | .param _ name => do
    Lowering.declare name "TEXT"
    return "@" ++ name
  | .literal _ value => return value.sql
  | .call _ head args => do return spelledCall spelling head (← spelledAll spelling queryText args)
  | .windowed _ head args partitionBy orderBy => do
    let args ← spelledAll spelling queryText args
    let partitionBy ← spelledAll spelling queryText partitionBy
    let orderBy ← spelledAll spelling queryText orderBy
    return spelledCall spelling head args ++ windowText partitionBy orderBy
  | .cases _ operand branches otherwise => do
    let operand ← spelledOption spelling queryText " " operand
    let branches ← spelledBranches spelling queryText branches
    let otherwise ← spelledOption spelling queryText " ELSE " otherwise
    return "CASE" ++ operand ++ branches ++ otherwise ++ " END"
  | .binary _ op left right => do
    if op.isComparison then declareCompared left right
    let leftText ← left.spelled spelling queryText
    let rightText ← right.spelled spelling queryText
    return parenthesized (needsParens op left false) leftText ++ " " ++ op.spelled spelling ++ " " ++
      parenthesized (needsParens op right true) rightText
  | .unary _ op operand => do
    let inner := parenthesized operand.isBinary (← operand.spelled spelling queryText)
    match op with
    | .negate => return "-" ++ inner
    | .not => return "NOT " ++ inner
  | .isNull _ operand negated => do
    return (← operand.spelled spelling queryText) ++ " IS " ++ negation negated ++ "NULL"
  | .inList _ operand items negated => do
    let inner ← operand.spelled spelling queryText
    let entries ← entriesText queryText items (spelledAll spelling queryText items)
    return inner ++ " " ++ negation negated ++ "IN " ++ entries
  | .like _ operand pattern negated => do
    let inner ← operand.spelled spelling queryText
    let pattern ← pattern.spelled spelling queryText
    return inner ++ " " ++ negation negated ++ "LIKE " ++ pattern
  | .exists _ source stages => do return "EXISTS (" ++ (← queryText source stages) ++ ")"
  | .paren _ inner => do return "(" ++ (← inner.spelled spelling queryText) ++ ")"
  | .pipe _ source stages => do return "(" ++ (← queryText source stages) ++ ")"
  | .aliased _ inner label => do return (← inner.spelled spelling queryText) ++ " AS " ++ label
  | .ordered _ inner direction => do return (← inner.spelled spelling queryText) ++ " " ++ direction.sql
  | .lambda span _ _ => Lowering.refuse .strayLambda span
  | .named span name _ => Lowering.refuse (.strayName name) span

def spelledAll (spelling : Spelling) (queryText : QueryText) : List Term → Lowering (List String)
  | [] => return []
  | term :: rest => do
    let first ← term.spelled spelling queryText
    let others ← spelledAll spelling queryText rest
    return first :: others

def spelledOption (spelling : Spelling) (queryText : QueryText) (introduction : String) : Option Term → Lowering String
  | none => return ""
  | some term => do return introduction ++ (← term.spelled spelling queryText)

def spelledBranches (spelling : Spelling) (queryText : QueryText) : List (Term × Term) → Lowering String
  | [] => return ""
  | (condition, value) :: rest => do
    let condition ← condition.spelled spelling queryText
    let value ← value.spelled spelling queryText
    let others ← spelledBranches spelling queryText rest
    return " WHEN " ++ condition ++ " THEN " ++ value ++ others

end

section

variable {queryText : QueryText}

theorem all_common (terms : List Term)
    (each : ∀ term ∈ terms, term.spelled .common queryText = term.text queryText) :
    spelledAll .common queryText terms = texts queryText terms := by
  induction terms with
  | nil => rfl
  | cons term rest ih => rw [spelledAll, texts, each term (.head _), ih fun other member => each other (.tail _ member)]

theorem option_common (introduction : String) (term : Option Term)
    (each : ∀ inner, term = some inner → inner.spelled .common queryText = inner.text queryText) :
    spelledOption .common queryText introduction term = optionText queryText introduction term := by
  cases term with
  | none => rfl
  | some term => rw [spelledOption, optionText, each term rfl]

theorem branches_common (branches : List (Term × Term))
    (each : ∀ branch ∈ branches, branch.1.spelled .common queryText = branch.1.text queryText ∧
      branch.2.spelled .common queryText = branch.2.text queryText) :
    spelledBranches .common queryText branches = branchesText queryText branches := by
  induction branches with
  | nil => rfl
  | cons branch rest ih =>
    rw [spelledBranches, branchesText, (each branch (.head _)).1, (each branch (.head _)).2,
      ih fun other member => each other (.tail _ member)]

-- Only the names of functions and the concatenation depend on the spelling: in the common one this is the text.
theorem spelled_common (queryText : QueryText) (term : Term) : term.spelled .common queryText = term.text queryText := by
  induction term using parts_induction with
  | step term ih =>
    cases term with
    | ident | qualified | param | literal | «exists» | pipe | lambda | named => rfl
    | wildcard span table => cases table <;> rfl
    | call span head args =>
      rw [spelled, text, all_common args ih]
      rfl
    | windowed span head args partitionBy orderBy =>
      obtain ⟨ofArgs, ofPartition, ofOrder⟩ := windowed_parts ih
      rw [spelled, text, all_common args ofArgs, all_common partitionBy ofPartition, all_common orderBy ofOrder]
      rfl
    | cases span operand branches otherwise =>
      obtain ⟨ofOperand, ofBranches, ofOtherwise⟩ := cases_parts ih
      rw [spelled, text, option_common _ operand ofOperand, branches_common branches ofBranches,
        option_common _ otherwise ofOtherwise]
    | binary span op first second =>
      have operator : op.spelled .common = op.sql := by cases op <;> rfl
      rw [spelled, text, ih first (.head _), ih second (.tail _ (.head _)), operator]
    | unary span op operand => cases op <;> simp only [spelled, text, ih operand (.head _)]
    | isNull span operand => rw [spelled, text, ih operand (.head _)]
    | inList span operand items =>
      rw [spelled, text, ih operand (.head _), all_common items fun item member => ih item (.tail _ member)]
    | like span operand pattern => rw [spelled, text, ih operand (.head _), ih pattern (.tail _ (.head _))]
    | paren span inside => rw [spelled, text, ih inside (.head _)]
    | aliased span inside => rw [spelled, text, ih inside (.head _)]
    | ordered span inside => rw [spelled, text, ih inside (.head _)]

end

end Term

def Token.sql : Token → String
  | .keyword word => word.spelling
  | .ident name => name
  | .qualified parts => Text.joinWith "." parts
  | .tableWildcard table => table ++ ".*"
  | .param name => "@" ++ name
  | .str value => Text.sqlLiteral value
  | .int digits => digits
  | .decimal digits => digits
  | .symbol .notEq => "<>"
  | .symbol mark => mark.spelling

-- The text of a term is cut into chunks. A call is cut behind its opening parenthesis, or behind the closing one if
-- nothing stands between them. A numeric parameter is only declared: its name is a chunk of its own.
inductive Chunk where
  | blank
  | token (token : Token)
  | call (name : String) (empty : Bool)
  | numeric (name : String)
  | query (source : Term) (stages : List Term)
  | refusal (misuse : Misuse) (span : Span)

namespace Chunk

@[match_pattern] abbrev opening : Chunk := .token (.symbol .leftParen)

@[match_pattern] abbrev closing : Chunk := .token (.symbol .rightParen)

@[match_pattern] abbrev comma : Chunk := .token (.symbol .comma)

@[match_pattern] abbrev minus : Chunk := .token (.symbol .minus)

def words (keywords : List Keyword) : List Chunk :=
  keywords.flatMap fun word => [.token (.keyword word), .blank]

def phrase (keywords : List Keyword) : List Chunk :=
  .blank :: words keywords

def enclosed (inner : List Chunk) : List Chunk :=
  opening :: (inner ++ [closing])

def parenthesized (needed : Bool) (inner : List Chunk) : List Chunk :=
  if needed then enclosed inner else inner

def separated (separator : List Chunk) : List (List Chunk) → List Chunk
  | [] => []
  | [last] => last
  | first :: rest => first ++ separator ++ separated separator rest

def called (head : CallHead) (args : List (List Chunk)) : List Chunk :=
  if args.isEmpty && !head.distinct then [.call (Function.sqlName head.name) true]
  else .call (Function.sqlName head.name) false ::
    ((if head.distinct then words [.distinct] else []) ++ separated [comma, .blank] args ++ [closing])

def windowPart (first : Keyword) (entries : List (List Chunk)) : List (List Chunk) :=
  if entries.isEmpty then [] else [words [first, .by] ++ separated [comma, .blank] entries]

def window (partitionBy orderBy : List (List Chunk)) : List Chunk :=
  phrase [.over] ++ enclosed (separated [.blank] (windowPart .partition partitionBy ++ windowPart .order orderBy))

def negation (negated : Bool) : List Keyword :=
  if negated then [.not] else []

-- A parameter beside a number is numeric.
def beside (number : Bool) : Term → List Chunk
  | .param _ name => if number then [.numeric name] else []
  | _ => []

def compared (left right : Term) : List Chunk :=
  beside right.isNumber left ++ beside left.isNumber right

-- A query that is the only item brings its own parentheses.
def lonePipe : List Term → Bool
  | [.pipe ..] => true
  | _ => false

def entries (items : List Term) (listed : List (List Chunk)) : List Chunk :=
  parenthesized (!lonePipe items) (separated [comma, .blank] listed)

end Chunk

namespace Term

open Chunk

mutual

def chunks : Term → List Chunk
  | .ident _ name => [.token (.ident name)]
  | .qualified _ parts => [.token (.qualified parts)]
  | .wildcard _ none => [.token (.symbol .star)]
  | .wildcard _ (some table) => [.token (.tableWildcard table)]
  | .param _ name => [.token (.param name)]
  | .literal _ value => [.token value.token]
  | .call _ head args => called head (listChunks args)
  | .windowed _ head args partitionBy orderBy =>
    called head (listChunks args) ++ window (listChunks partitionBy) (listChunks orderBy)
  | .cases _ operand branches otherwise =>
    .token (.keyword .case) :: (optionChunks [.blank] operand ++ branchChunks branches ++
      optionChunks (phrase [.else]) otherwise ++ [.blank, .token (.keyword .end)])
  | .binary _ op left right =>
    (if op.isComparison then compared left right else []) ++
      Chunk.parenthesized (needsParens op left false) left.chunks ++ [.blank, .token op.token, .blank] ++
      Chunk.parenthesized (needsParens op right true) right.chunks
  | .unary _ .negate operand => minus :: Chunk.parenthesized operand.isBinary operand.chunks
  | .unary _ .not operand => words [.not] ++ Chunk.parenthesized operand.isBinary operand.chunks
  | .isNull _ operand negated =>
    operand.chunks ++ phrase (.is :: Chunk.negation negated) ++ [.token (.keyword .null)]
  | .inList _ operand items negated =>
    operand.chunks ++ phrase (Chunk.negation negated ++ [.in]) ++ entries items (listChunks items)
  | .like _ operand pattern negated =>
    operand.chunks ++ phrase (Chunk.negation negated ++ [.like]) ++ pattern.chunks
  | .exists _ source stages => words [.exists] ++ enclosed [.query source stages]
  | .paren _ inner => enclosed inner.chunks
  | .pipe _ source stages => enclosed [.query source stages]
  | .aliased _ inner label => inner.chunks ++ phrase [.as] ++ [.token (.ident label)]
  | .ordered _ inner direction => inner.chunks ++ [.blank, .token (.keyword direction.keyword)]
  | .lambda span _ _ => [.refusal .strayLambda span]
  | .named span name _ => [.refusal (.strayName name) span]

def listChunks : List Term → List (List Chunk)
  | [] => []
  | term :: rest => term.chunks :: listChunks rest

def optionChunks (introduction : List Chunk) : Option Term → List Chunk
  | none => []
  | some term => introduction ++ term.chunks

def branchChunks : List (Term × Term) → List Chunk
  | [] => []
  | (condition, value) :: rest =>
    phrase [.when] ++ condition.chunks ++ phrase [.then] ++ value.chunks ++ branchChunks rest

end

end Term

namespace Chunk

open Lowering

def text (queryText : QueryText) : Chunk → Lowering String
  | .blank => return " "
  | .token (.qualified parts) => do return Text.joinWith "." ((← read).stripRow parts)
  | .token (.param name) => do
    declare name "TEXT"
    return "@" ++ name
  | .token lexeme => return lexeme.sql
  | .call name empty => return name ++ if empty then "()" else "("
  | .numeric name => do
    declare name "NUMERIC"
    return ""
  | .query source stages => queryText source stages
  | .refusal misuse span => refuse misuse span

def spelled (spelling : Spelling) (queryText : QueryText) : Chunk → Lowering String
  | .token (.symbol .concat) => return spelling.concat
  | .call name empty =>
    match spelling.rename (Text.asciiUpper name) with
    | none => return name ++ if empty then "()" else "("
    | some other => return other ++ if empty then (if Spelling.isBare other then "" else "()") else "("
  | chunk => chunk.text queryText

theorem spelled_common (queryText : QueryText) (chunk : Chunk) : chunk.spelled .common queryText = chunk.text queryText := by
  cases chunk with
  | token lexeme =>
    cases lexeme with
    | symbol mark => cases mark <;> rfl
    | _ => rfl
  | _ => rfl

def print (write : Chunk → Lowering String) : List Chunk → Lowering String
  | [] => return ""
  | chunk :: rest => do
    let first ← write chunk
    let others ← print write rest
    return first ++ others

def printAll (write : Chunk → Lowering String) : List (List Chunk) → Lowering (List String)
  | [] => return []
  | entry :: rest => do
    let first ← print write entry
    let others ← printAll write rest
    return first :: others

variable {write : Chunk → Lowering String}

theorem print_append (first second : List Chunk) :
    print write (first ++ second) = (do
      let before ← print write first
      let after ← print write second
      return before ++ after) := by
  induction first with
  | nil => simp only [print, List.nil_append, pure_bind, String.empty_append, bind_pure]
  | cons chunk rest ih => simp only [print, List.cons_append, ih, bind_assoc, pure_bind, String.append_assoc]

theorem print_single (chunk : Chunk) : print write [chunk] = write chunk := by
  simp only [print, pure_bind, String.append_empty, bind_pure]

theorem print_map (place : Chunk → Chunk) (chunks : List Chunk) :
    print write (chunks.map place) = print (fun chunk => write (place chunk)) chunks := by
  induction chunks with
  | nil => rfl
  | cons chunk rest ih => rw [List.map_cons, print, print, ih]

theorem print_separated {separator : List Chunk} {between : String} (fixed : print write separator = pure between)
    (entries : List (List Chunk)) :
    print write (separated separator entries) = (do return Text.joinWith between (← printAll write entries)) := by
  induction entries with
  | nil => rfl
  | cons first rest ih =>
    cases rest with
    | nil => simp only [separated, printAll, Text.joinWith, bind_assoc, pure_bind, bind_pure]
    | cons second rest =>
      rw [printAll] at ih ⊢
      simp only [separated, print_append, fixed, ih, bind_assoc, pure_bind, printAll, Text.joinWith]

theorem print_all_append (first second : List (List Chunk)) :
    printAll write (first ++ second) = (do
      let before ← printAll write first
      let after ← printAll write second
      return before ++ after) := by
  induction first with
  | nil => simp only [printAll, List.nil_append, pure_bind, bind_pure]
  | cons entry rest ih => simp only [printAll, List.cons_append, ih, bind_assoc, pure_bind]

-- What a writer makes of the chunks that stand between names and literals.
structure Plain (write : Chunk → Lowering String) : Prop where
  blank : write .blank = pure " "
  keyword : ∀ word, write (.token (.keyword word)) = pure word.spelling
  opening : write opening = pure "("
  closing : write closing = pure ")"
  comma : write comma = pure ","

theorem spelled_plain (spelling : Spelling) (queryText : QueryText) : Plain (spelled spelling queryText) :=
  ⟨rfl, fun _ => rfl, rfl, rfl, rfl⟩

variable (plain : Plain write)
include plain

theorem print_comma : print write [comma, .blank] = pure ", " := by
  simp only [print, plain.comma, plain.blank, pure_bind]
  rfl

theorem print_words (keywords : List Keyword) {text : String}
    (spelled : text = String.join (keywords.map fun word => word.spelling ++ " ")) :
    print write (words keywords) = pure text := by
  subst spelled
  induction keywords with
  | nil => rfl
  | cons word rest ih =>
    simp only [words, List.flatMap_cons, print_append] at ih ⊢
    simp only [print, plain.keyword, plain.blank, ih, pure_bind, List.map_cons, String.join_cons, String.append_empty]

theorem print_phrase (keywords : List Keyword) {text : String}
    (spelled : text = " " ++ String.join (keywords.map fun word => word.spelling ++ " ")) :
    print write (phrase keywords) = pure text := by
  rw [phrase, print, plain.blank, print_words plain keywords rfl, spelled]
  rfl

theorem print_enclosed (inner : List Chunk) :
    print write (enclosed inner) = (do return "(" ++ (← print write inner) ++ ")") := by
  simp only [enclosed, print, print_append, plain.opening, plain.closing, pure_bind, bind_assoc, String.append_assoc,
    String.append_empty]

theorem print_parenthesized (needed : Bool) (inner : List Chunk) :
    print write (parenthesized needed inner) = (do return Term.parenthesized needed (← print write inner)) := by
  cases needed with
  | true => exact print_enclosed plain inner
  | false => simp only [parenthesized, Term.parenthesized, Bool.false_eq_true, if_false, bind_pure]

theorem print_window_part (first : Keyword) {keywords : String}
    (spelled : keywords = Text.joinWith " " ([first, .by].map Keyword.spelling)) (entries : List (List Chunk)) :
    printAll write (windowPart first entries) = (do return Term.windowPart keywords (← printAll write entries)) := by
  have introduced : print write (words [first, .by]) = pure (keywords ++ " ") := by
    apply print_words plain [first, .by]
    simp [spelled, Text.joinWith, String.append_assoc]
  cases entries with
  | nil => rfl
  | cons entry entries =>
    have listed : print write (words [first, .by] ++ separated [comma, .blank] (entry :: entries)) =
        (do return keywords ++ " " ++ Text.joinWith ", " (← printAll write (entry :: entries))) := by
      rw [print_append, introduced, print_separated (print_comma plain)]
      simp only [pure_bind, bind_assoc]
    have filled : windowPart first (entry :: entries) =
        [words [first, .by] ++ separated [comma, .blank] (entry :: entries)] :=
      rfl
    rw [filled, printAll, listed]
    simp only [printAll, Term.windowPart, pure_bind, bind_assoc, List.isEmpty_cons, Bool.false_eq_true, if_false]

theorem print_window (partitionBy orderBy : List (List Chunk)) :
    print write (window partitionBy orderBy) = (do
      let partitionBy ← printAll write partitionBy
      let orderBy ← printAll write orderBy
      return Term.windowText partitionBy orderBy) := by
  have spaced : print write [.blank] = pure " " := by
    simp only [print, plain.blank, pure_bind, String.append_empty]
  simp only [window, print_append, print_phrase plain [.over] (rfl : " OVER " = _), print_enclosed plain,
    print_separated spaced,
    print_all_append, print_window_part plain .partition (by decide : "PARTITION BY" = _),
    print_window_part plain .order (by decide : "ORDER BY" = _), pure_bind, bind_assoc, Term.windowText, String.append_assoc]
  rfl

end Chunk

namespace Term

open Chunk

variable {spelling : Spelling} {queryText : QueryText}

theorem call_chunks (head : CallHead) (args : List (List Chunk)) :
    print (Chunk.spelled spelling queryText) (called head args) =
      (do return spelledCall spelling head (← printAll (Chunk.spelled spelling queryText) args)) := by
  have plain := spelled_plain spelling queryText
  have distinct : print (Chunk.spelled spelling queryText) (if head.distinct then words [.distinct] else []) =
      pure (if head.distinct then "DISTINCT " else "") := by
    cases head.distinct with
    | true => exact print_words plain [.distinct] rfl
    | false => rfl
  unfold called spelledCall
  split
  · rename_i empty
    rw [Bool.and_eq_true, List.isEmpty_iff, Bool.not_eq_true'] at empty
    rw [print_single, Chunk.spelled]
    cases spelling.rename (Text.asciiUpper (Function.sqlName head.name)) with
    | none => simp [empty, printAll, callText, Text.joinWith, String.append_assoc]
    | some name =>
      cases bare : Spelling.isBare name <;> simp [empty, bare, printAll, Text.joinWith, String.append_assoc]
  · rename_i filled
    rw [print, Chunk.spelled]
    cases spelling.rename (Text.asciiUpper (Function.sqlName head.name)) with
    | none =>
      simp only [print, print_append, distinct, print_separated (print_comma plain), plain.closing, pure_bind,
        bind_assoc, callText,
        String.append_assoc, String.append_empty]
      rfl
    | some name =>
      have listed : ∀ args : List String, (args = [] → head.distinct = true) →
          (Spelling.isBare name && !head.distinct && args.isEmpty) = false := by
        intro args given
        cases args with
        | nil => simp [given]
        | cons => simp
      simp only [print, print_append, distinct, print_separated (print_comma plain), plain.closing, pure_bind, bind_assoc,
        String.append_assoc, String.append_empty]
      cases args with
      | nil =>
        have given : head.distinct = true := by simpa using filled
        simp only [printAll, pure_bind, listed [] fun _ => given]
        rfl
      | cons entry entries =>
        simp only [printAll, bind_assoc, pure_bind, listed (_ :: _) fun empty => absurd empty (List.cons_ne_nil _ _)]
        rfl

theorem all_chunks (terms : List Term)
    (each : ∀ term ∈ terms, term.spelled spelling queryText = print (Chunk.spelled spelling queryText) term.chunks) :
    spelledAll spelling queryText terms = printAll (Chunk.spelled spelling queryText) (listChunks terms) := by
  induction terms with
  | nil => rfl
  | cons term rest ih =>
    rw [spelledAll, listChunks, printAll, each term (.head _), ih fun other member => each other (.tail _ member)]

theorem option_chunks {introduction : List Chunk} {phrase : String}
    (fixed : print (Chunk.spelled spelling queryText) introduction = pure phrase) (term : Option Term)
    (each : ∀ inner, term = some inner →
      inner.spelled spelling queryText = print (Chunk.spelled spelling queryText) inner.chunks) :
    spelledOption spelling queryText phrase term =
      print (Chunk.spelled spelling queryText) (optionChunks introduction term) := by
  cases term with
  | none => rfl
  | some term => simp only [spelledOption, optionChunks, print_append, fixed, each term rfl, pure_bind]

theorem branches_chunks (branches : List (Term × Term))
    (each : ∀ branch ∈ branches,
      branch.1.spelled spelling queryText = print (Chunk.spelled spelling queryText) branch.1.chunks ∧
      branch.2.spelled spelling queryText = print (Chunk.spelled spelling queryText) branch.2.chunks) :
    spelledBranches spelling queryText branches = print (Chunk.spelled spelling queryText) (branchChunks branches) := by
  have plain := spelled_plain spelling queryText
  induction branches with
  | nil => rfl
  | cons branch rest ih =>
    obtain ⟨condition, value⟩ := branch
    simp only [spelledBranches, branchChunks, print_append, (each _ (.head _)).1, (each _ (.head _)).2,
      ih fun other member => each other (.tail _ member), print_phrase plain [.when] (rfl : " WHEN " = _),
      print_phrase plain [.then] (rfl : " THEN " = _), pure_bind, bind_assoc, String.append_assoc]

theorem entries_chunks (items : List Term)
    (each : ∀ item ∈ items, item.spelled spelling queryText = print (Chunk.spelled spelling queryText) item.chunks) :
    entriesText queryText items (spelledAll spelling queryText items) =
      print (Chunk.spelled spelling queryText) (entries items (listChunks items)) := by
  have plain := spelled_plain spelling queryText
  unfold entriesText entries
  split
  · exact each _ (.head _)
  · rename_i other
    have several : lonePipe items = false := by
      unfold lonePipe
      split
      · exact (other _ _ _ rfl).elim
      · rfl
    rw [several, Bool.not_false, print_parenthesized plain, print_separated (print_comma plain), all_chunks items each]
    simp only [bind_assoc, pure_bind]
    rfl

theorem compared_chunks (left right : Term) :
    print (Chunk.spelled spelling queryText) (compared left right) = (do declareCompared left right; return "") := by
  unfold declareCompared compared
  cases left with
  | param span name =>
    simp only [beside]
    cases right.isNumber <;> cases right <;> rfl
  | _ =>
    cases right with
    | param span name =>
      simp only [beside]
      generalize isNumber _ = number
      cases number <;> rfl
    | _ => rfl

theorem spelled_chunks (spelling : Spelling) (queryText : QueryText) (term : Term) :
    term.spelled spelling queryText = print (Chunk.spelled spelling queryText) term.chunks := by
  induction term using parts_induction with
  | step term ih =>
    have plain := spelled_plain spelling queryText
    cases term with
    | ident | qualified | param =>
      rw [chunks, print_single]
      rfl
    | wildcard span table =>
      cases table <;>
      · rw [chunks, print_single]
        rfl
    | literal span value =>
      rw [chunks, print_single]
      cases value <;> rfl
    | call span head args =>
      rw [spelled, chunks, call_chunks, all_chunks args ih]
    | windowed span head args partitionBy orderBy =>
      obtain ⟨ofArgs, ofPartition, ofOrder⟩ := windowed_parts ih
      rw [spelled, all_chunks args ofArgs, all_chunks partitionBy ofPartition, all_chunks orderBy ofOrder]
      simp only [chunks, print_append, call_chunks, print_window plain, bind_assoc, pure_bind]
    | cases span operand branches otherwise =>
      obtain ⟨ofOperand, ofBranches, ofOtherwise⟩ := cases_parts ih
      have space : print (Chunk.spelled spelling queryText) [.blank] = pure " " := print_single _
      rw [spelled, option_chunks space operand ofOperand, branches_chunks branches ofBranches,
        option_chunks (print_phrase plain [.else] (rfl : " ELSE " = _)) otherwise ofOtherwise]
      simp only [chunks, print, print_append, plain.keyword, plain.blank, bind_assoc, pure_bind, String.append_assoc]
      rfl
    | binary span op left right =>
      have operator : Chunk.spelled spelling queryText (.token op.token) = pure (op.spelled spelling) := by cases op <;> rfl
      have declared : print (Chunk.spelled spelling queryText) (if op.isComparison then compared left right else []) =
          (do (if op.isComparison then declareCompared left right else pure ()); return "") := by
        cases op.isComparison with
        | true => exact compared_chunks left right
        | false => rfl
      rw [spelled, chunks, print_append, print_append, print_append, declared]
      simp only [print, print_parenthesized plain, operator, plain.blank, ih left (.head _), ih right (.tail _ (.head _)),
        bind_assoc, pure_bind, String.append_assoc, String.empty_append]
      cases op.isComparison <;> rfl
    | unary span op operand =>
      cases op with
      | negate =>
        simp only [spelled, chunks, print, print_parenthesized plain, ih operand (.head _), bind_assoc, pure_bind]
        rfl
      | not =>
        simp only [spelled, chunks, print_append, print_words plain [.not] (rfl : "NOT " = _), print_parenthesized plain,
          ih operand (.head _), bind_assoc, pure_bind]
    | isNull span operand negated =>
      have tested : print (Chunk.spelled spelling queryText) (phrase (.is :: Chunk.negation negated)) =
          pure (" IS " ++ negation negated) := print_phrase plain _ (by cases negated <;> rfl)
      simp only [spelled, chunks, print_append, tested, print_single, plain.keyword, ih operand (.head _), bind_assoc,
        pure_bind, String.append_assoc]
      rfl
    | inList span operand items negated =>
      have listed : print (Chunk.spelled spelling queryText) (phrase (Chunk.negation negated ++ [.in])) =
          pure (" " ++ negation negated ++ "IN ") := print_phrase plain _ (by cases negated <;> rfl)
      simp only [spelled, chunks, print_append, listed, ih operand (.head _),
        entries_chunks items fun item member => ih item (.tail _ member), bind_assoc, pure_bind, String.append_assoc]
    | like span operand pattern negated =>
      have liked : print (Chunk.spelled spelling queryText) (phrase (Chunk.negation negated ++ [.like])) =
          pure (" " ++ negation negated ++ "LIKE ") := print_phrase plain _ (by cases negated <;> rfl)
      simp only [spelled, chunks, print_append, liked, ih operand (.head _), ih pattern (.tail _ (.head _)), bind_assoc,
        pure_bind, String.append_assoc]
    | «exists» span source stages =>
      simp only [spelled, chunks, print_append, print_words plain [.exists] (rfl : "EXISTS " = _), print_enclosed plain,
        print_single, bind_assoc, pure_bind, String.append_assoc]
      rfl
    | pipe span source stages =>
      simp only [spelled, chunks, print_enclosed plain, print_single]
      rfl
    | paren span inner => simp only [spelled, chunks, print_enclosed plain, ih inner (.head _)]
    | aliased span inner label =>
      simp only [spelled, chunks, print_append, print_phrase plain [.as] (rfl : " AS " = _), print_single, ih inner (.head _),
        bind_assoc, pure_bind, String.append_assoc]
      rfl
    | ordered span inner direction =>
      simp only [spelled, chunks, print_append, print, plain.blank, plain.keyword, ih inner (.head _), pure_bind,
        String.append_assoc]
      cases direction <;> rfl
    | lambda | named =>
      rw [chunks, print_single]
      rfl

theorem text_chunks (queryText : QueryText) (term : Term) :
    term.text queryText = print (Chunk.text queryText) term.chunks := by
  have same : Chunk.spelled .common queryText = Chunk.text queryText := funext (Chunk.spelled_common queryText)
  rw [← spelled_common, spelled_chunks, same]

theorem list_text_chunks (queryText : QueryText) (items : List Term) :
    entriesText queryText items (texts queryText items) =
      print (Chunk.text queryText) (entries items (listChunks items)) := by
  have same : Chunk.spelled .common queryText = Chunk.text queryText := funext (Chunk.spelled_common queryText)
  rw [← all_common items fun item _ => spelled_common queryText item,
    entries_chunks items fun item _ => spelled_chunks .common queryText item, same]

theorem declare_compared_chunks (queryText : QueryText) (left right : Term) :
    declareCompared left right = (do let _ ← print (Chunk.text queryText) (compared left right); return ()) := by
  have same : Chunk.spelled .common queryText = Chunk.text queryText := funext (Chunk.spelled_common queryText)
  rw [← same, compared_chunks]
  simp only [bind_assoc, pure_bind]
  exact (bind_pure _).symm

theorem list_chunks (terms : List Term) : listChunks terms = terms.map chunks := by
  induction terms with
  | nil => rfl
  | cons term rest ih => rw [listChunks, ih, List.map_cons]

end Term

end PipeSql
