import PipeSql.Proofs.Dialect.Respell
import PipeSql.Proofs.Pipeline.Sealed
import PipeSql.Proofs.Script.Grammar
import PipeSql.Proofs.Statement.Tokens

set_option autoImplicit false

namespace PipeSql

namespace Lowering

-- Names are bound to the pipes of scripts, under any row names.
inductive Scope.Reached : Scope → Prop where
  | start (dialect : Dialect) : Reached ⟨dialect, [], []⟩
  | bound {scope : Scope} {source : String} {screened : Bool} {script : Script} {statement : ScriptStatement}
      {parameters met : List Parameter} {node : Node} (name : String) (reached : Reached scope)
      (accepted : Script.read source screened = .ok script) (member : statement ∈ script.statements)
      (lowered : statement.pipe.node scope parameters = .ok (node, met)) :
      Reached { scope with bound := (name, node) :: scope.bound }
  | rows {scope : Scope} (names : List String) (reached : Reached scope) : Reached { scope with rows := names }

theorem Scope.reached_like {scope : Scope} (reached : scope.Reached) :
    ∃ twin, Likeness.blanked.ScopeLike scope twin := by
  induction reached with
  | start dialect => exact ⟨⟨dialect, [], []⟩, rfl, .nil, rfl⟩
  | @bound scope source screened script statement parameters met node name reached accepted member lowered ih =>
    obtain ⟨twin, like⟩ := ih
    have formed := Script.read_well_formed source screened script accepted statement member
    have agree := @Pipe.coupled_node .blanked id statement.pipe formed scope twin like parameters []
    rw [lowered] at agree
    match (statement.pipe.mapped Likeness.blanked.contents id).node twin [], agree with
    | .ok (other, _), agree =>
      exact ⟨{ twin with bound := (name, other) :: twin.bound }, like.dialect, .cons ⟨rfl, agree⟩ like.bound, like.rows⟩
  | rows names reached ih =>
    obtain ⟨twin, like⟩ := ih
    exact ⟨{ twin with rows := names }, like.dialect, like.bound, rfl⟩

variable {α β γ δ : Type}

def Yields (scope : Scope) (lowering : Lowering α) (value : α) : Prop :=
  ∃ parameters met, lowering scope parameters = .ok (value, met)

inductive Matches (related : α → β → Prop) :
    Except Failure (α × List Parameter) → Except Failure (β × List Parameter) → Prop where
  | ok (left : α) (right : β) (met : List Parameter) (relate : related left right) :
      Matches related (.ok (left, met)) (.ok (right, met))
  | error (failure : Failure) : Matches related (.error failure) (.error failure)

-- Both lowerings fail in the same way, or both succeed with the same parameters and related values.
def Matched (scope : Scope) (related : α → β → Prop) (left : Lowering α) (right : Lowering β) : Prop :=
  ∀ parameters, Matches related (left scope parameters) (right scope parameters)

variable {scope : Scope} {related : α → β → Prop} {follows : γ → δ → Prop}

theorem matched_pure {left : α} {right : β} (relate : related left right) :
    Matched scope related (pure left) (pure right) :=
  fun parameters => .ok left right parameters relate

theorem matched_bind {left : Lowering α} {right : Lowering β} {next : α → Lowering γ} {after : β → Lowering δ}
    (first : Matched scope related left right)
    (second : ∀ value other, related value other → Yields scope right other →
      Matched scope follows (next value) (after other)) :
    Matched scope follows (left >>= next) (right >>= after) := by
  intro parameters
  have runs := first parameters
  change Matches follows ((left scope parameters).bind fun result => next result.1 scope result.2)
    ((right scope parameters).bind fun result => after result.1 scope result.2)
  cases rightRun : right scope parameters with
  | error failure =>
    rw [rightRun] at runs
    generalize left scope parameters = leftRun at runs ⊢
    cases runs
    exact .error failure
  | ok result =>
    rw [rightRun] at runs
    generalize left scope parameters = leftRun at runs ⊢
    cases runs with
    | ok value other met relate => exact second value other relate ⟨parameters, met, rightRun⟩ met

theorem matched_map {left : Lowering α} {right : Lowering β} {next : α → γ} {after : β → δ}
    (first : Matched scope related left right)
    (second : ∀ value other, related value other → Yields scope right other → follows (next value) (after other)) :
    Matched scope follows (do return next (← left)) (do return after (← right)) :=
  matched_bind first fun value other relate yields => matched_pure (second value other relate yields)

theorem matched_beside {left : Lowering α} {right : Lowering β} {next : α → γ} {beside : γ → β → Prop}
    (first : Matched scope related left right)
    (second : ∀ value other, related value other → Yields scope right other → beside (next value) other) :
    Matched scope beside (do return next (← left)) right := by
  rw [← bind_pure right]
  exact matched_map first second

theorem matched_self (lowering : Lowering α) : Matched scope Eq lowering lowering := by
  intro parameters
  cases lowering scope parameters with
  | error failure => exact .error failure
  | ok result => exact .ok result.1 result.1 result.2 rfl

theorem matched_eq {before : α → γ} {after : β → γ} {left : Lowering α} {right : Lowering β}
    (runs : Matched scope related left right) (same : ∀ value other, related value other → before value = after other)
    (parameters : List Parameter) :
    (do return before (← left) : Lowering γ) scope parameters =
      (do return after (← right) : Lowering γ) scope parameters := by
  have outcomes := runs parameters
  change (left scope parameters).bind (fun result => .ok (before result.1, result.2)) =
    (right scope parameters).bind fun result => .ok (after result.1, result.2)
  generalize left scope parameters = leftRun at outcomes ⊢
  generalize right scope parameters = rightRun at outcomes ⊢
  cases outcomes with
  | ok value other met relate => exact congrArg (fun text => Except.ok (text, met)) (same value other relate)
  | error failure => rfl

end Lowering

theorem Text.joined_mem (separator : String) (texts : List String) (c : Char)
    (member : c ∈ (joinWith separator texts).toList) : c ∈ separator.toList ∨ ∃ text ∈ texts, c ∈ text.toList := by
  induction texts with
  | nil => simp [joinWith] at member
  | cons first rest ih =>
    cases rest with
    | nil => exact .inr ⟨first, .head _, member⟩
    | cons second rest =>
      simp only [joinWith, String.toList_append, List.mem_append] at member
      rcases member with (member | member) | member
      · exact .inr ⟨first, .head _, member⟩
      · exact .inl member
      · rcases ih member with found | ⟨text, listed, found⟩
        · exact .inl found
        · exact .inr ⟨text, .tail _ listed, found⟩

theorem Text.joined_last (separator last : String) {texts : List String} (filled : texts ≠ []) :
    joinWith separator (texts ++ [last]) = joinWith separator texts ++ separator ++ last := by
  induction texts with
  | nil => exact absurd rfl filled
  | cons first rest ih =>
    cases rest with
    | nil => rfl
    | cons second rest =>
      have shorter := ih (List.cons_ne_nil _ _)
      simp only [List.cons_append, joinWith] at shorter ⊢
      rw [shorter]
      simp only [String.append_assoc]

namespace Term

open Lowering

variable {scope : Scope}

theorem text_closed (reached : scope.Reached) (depth : Nat) (term : Term) (formed : term.WellFormed) {text : String}
    (yields : Yields scope (term.text (Pipe.textWithin depth)) text) : Text.Closed text := by
  obtain ⟨twin, like⟩ := Scope.reached_like reached
  obtain ⟨parameters, met, lowered⟩ := yields
  have queries := @Pipe.queries_coupled .blanked id term.height depth depth rfl
  have agree := coupled_text queries term formed (Nat.le_refl _) scope twin like parameters []
  rw [lowered] at agree
  match (term.mapped Likeness.blanked.contents id).text (Pipe.textWithin depth) twin [], agree with
  | .ok (other, _), agree => exact ⟨other.toList, agree⟩

theorem named_column_operand (dialect : Dialect) (parts : List String) (filled : parts ≠ []) (listed : String) :
    (namedColumn parts).operand dialect listed = Text.joinWith "." parts := by
  unfold namedColumn
  have front : parts = parts.reverse.reverse := parts.reverse_reverse.symm
  match reversed : parts.reverse with
  | [] => exact absurd (List.reverse_eq_nil_iff.1 reversed) filled
  | [name] =>
    rw [front, reversed]
    rfl
  | name :: last :: table =>
    rw [front, reversed, List.reverse_cons, Text.joined_last "." name (by simp)]
    rfl

theorem dotted_respelled (dialect : Dialect) {parts : List String}
    (words : ∀ part ∈ parts, Text.isWord part.toList = true) :
    dialect.respell (Text.joinWith "." parts) = Text.joinWith "." parts := by
  have plain : ∀ c, c ∈ (Text.joinWith "." parts).toList → c = '.' ∨ Text.isNamePart c = true := by
    intro c member
    rcases Text.joined_mem "." parts c member with dot | ⟨part, listed, member⟩
    · exact .inl (List.mem_singleton.1 dot)
    · exact .inr (Token.word_parts _ (words part listed) c member)
  refine dialect.respell_plain (fun bar => ?_) fun call => ?_
  · exact absurd (plain _ bar) (by decide)
  · exact absurd (plain _ call) (by decide)

def WrittenAs (dialect : Dialect) (column : Column) (text : String) : Prop :=
  column.operand dialect (column.sql dialect true) = dialect.respell text

theorem operand_matched (dialect : Dialect) (queryText : QueryText) (term : Term) (formed : term.WellFormed) :
    Matched scope (WrittenAs dialect) (term.operandColumn queryText) (term.text queryText) := by
  have listed : Matched scope (WrittenAs dialect) (do return Column.ofText (← term.text queryText))
      (term.text queryText) := by
    refine matched_beside (matched_self _) ?_
    rintro text _ rfl _
    rfl
  cases term with
  | ident span name =>
    have kept := @dotted_respelled dialect [name] (by simpa using formed.1)
    exact matched_pure kept.symm
  | qualified span parts =>
    refine matched_map (matched_self read) ?_
    rintro scope _ rfl _
    have filled : parts ≠ [] := by
      rintro rfl
      exact absurd formed.1 (by decide)
    have kept := @dotted_respelled dialect (scope.stripRow parts) fun part member =>
      formed.2 part (strip_row_sub scope parts part member)
    rw [WrittenAs, named_column_operand dialect _ (strip_row_filled scope parts filled), kept]
  | _ => exact listed

theorem comparison_sql (op : Operator) (comparison : op.isComparison = true) : (comparisonOf op).sql = op.sql := by
  cases op <;> first | rfl | cases comparison

theorem comparison_binary (op : Operator) : (comparisonOf op).isUnary = false := by
  cases op <;> rfl

theorem phrase_written (dialect : Dialect) {column : Column} {text : String} (written : WrittenAs dialect column text)
    (closed : Text.Closed text) (operator : Comparison) (binary : operator.isUnary = false) (right : String) :
    Condition.sqls dialect [.comparison column operator right] =
      [dialect.respell (text ++ " " ++ operator.sql ++ " " ++ right)] := by
  have plain : '\'' ∉ operator.sql.toList ∧ '|' ∉ operator.sql.toList ∧ '(' ∉ operator.sql.toList := by
    cases operator <;> decide
  rw [dialect.respell_phrase closed plain, ← written]
  simp [Condition.sqls, Comparison.phrase, binary]

theorem condition_matched (reached : scope.Reached) (dialect : Dialect) (depth : Nat) (term : Term)
    (formed : term.WellFormed) :
    Matched scope (fun condition text => Condition.sqls dialect [condition] = [dialect.respell text])
      (term.condition (Pipe.textWithin depth)) (term.text (Pipe.textWithin depth)) := by
  have phrase : Matched scope (fun condition text => Condition.sqls dialect [condition] = [dialect.respell text])
      (do return Condition.expression (← term.text (Pipe.textWithin depth))) (term.text (Pipe.textWithin depth)) := by
    refine matched_beside (matched_self _) ?_
    rintro text _ rfl _
    rfl
  cases term with
  | binary span op left right =>
    unfold condition
    dsimp only
    by_cases comparison : op.isComparison = true
    · rw [if_pos comparison, formed_binary_text _ formed, if_pos comparison]
      obtain ⟨-, -, leftFormed, rightFormed⟩ := formed
      refine matched_bind (matched_self _) fun _ _ _ _ => ?_
      refine matched_bind (operand_matched dialect _ left leftFormed) fun column leftText written leftYields => ?_
      refine matched_map (matched_self _) ?_
      rintro rightText _ rfl _
      have closed := text_closed reached depth left leftFormed leftYields
      rw [← comparison_sql op comparison]
      exact phrase_written dialect written closed _ (comparison_binary op) rightText
    · rw [if_neg comparison]
      exact phrase
  | isNull span operand negated =>
    have kept : dialect.respell ("IS " ++ negation negated ++ "NULL") = "IS " ++ negation negated ++ "NULL" := by
      cases negated <;> exact dialect.respell_plain (by decide) (by decide)
    refine matched_map (operand_matched dialect _ operand formed.2) fun column text written yields => ?_
    have spaced : text ++ " IS " ++ negation negated ++ "NULL" = text ++ " " ++ ("IS " ++ negation negated ++ "NULL") := by
      simp only [String.append_assoc]
      rfl
    rw [spaced, dialect.respell_spaced (text_closed reached depth operand formed.2 yields), kept, ← written]
    cases negated <;> rfl
  | inList span operand items negated =>
    cases negated with
    | true => exact phrase
    | false =>
      refine matched_bind (operand_matched dialect _ operand formed.2.1) fun column text written yields => ?_
      refine matched_map (matched_self _) ?_
      rintro entries _ rfl _
      have spaced : text ++ " " ++ negation false ++ "IN " ++ entries = text ++ " " ++ "IN" ++ " " ++ entries := by
        simp only [String.append_assoc]
        rfl
      rw [spaced]
      exact phrase_written dialect written (text_closed reached depth operand formed.2.1 yields) .in rfl entries
  | like span operand pattern negated =>
    cases negated with
    | true => exact phrase
    | false =>
      refine matched_bind (operand_matched dialect _ operand formed.2.1) fun column text written yields => ?_
      refine matched_map (matched_self _) ?_
      rintro patternText _ rfl _
      have spaced : text ++ " " ++ negation false ++ "LIKE " ++ patternText =
          text ++ " " ++ "LIKE" ++ " " ++ patternText := by
        simp only [String.append_assoc]
        rfl
      rw [spaced]
      exact phrase_written dialect written (text_closed reached depth operand formed.2.1 yields) .like rfl patternText
  | _ => exact phrase

theorem respelled_token (dialect : Dialect) {text : String} (whole : Text.Sealed text) :
    Clause.Joins [dialect.respell text] (dialect.respell text) := by
  refine Clause.joins_single (fun closing => ?_) fun opening => ?_
  · have single := dialect.respell_single (.inr rfl) (congrArg String.toList closing)
    have starts := whole.starts
    rw [single] at starts
    cases starts
  · have single := dialect.respell_single (.inl rfl) (congrArg String.toList opening)
    have ends := whole.ends
    rw [single] at ends
    cases ends

def JoinsTo (dialect : Dialect) (conditions : List (Condition Column)) (text : String) : Prop :=
  Clause.Joins (Condition.sqls dialect conditions) (dialect.respell text)

theorem joins_connective {dialect : Dialect} {before after : List (Condition Column)} {leftText rightText : String}
    (leftJoins : JoinsTo dialect before leftText) (closed : Text.Closed leftText) (connective : Connective)
    (rightJoins : JoinsTo dialect after rightText) :
    JoinsTo dialect (before ++ .connective connective :: after)
      (leftText ++ " " ++ connective.sql ++ " " ++ rightText) := by
  have token : Clause.Joins [connective.sql] connective.sql := by
    cases connective <;> exact Clause.joins_single (by decide) (by decide)
  have plain : '\'' ∉ connective.sql.toList ∧ '|' ∉ connective.sql.toList ∧ '(' ∉ connective.sql.toList := by
    cases connective <;> decide
  have joins := Clause.joins_spaced (Clause.joins_spaced leftJoins token) rightJoins
  rw [JoinsTo, dialect.respell_phrase closed plain, Condition.sqls_append, Condition.sqls]
  simpa using joins

theorem joins_paren {dialect : Dialect} {inside : List (Condition Column)} {text : String}
    (joins : JoinsTo dialect inside text) (closed : Text.Closed text) (whole : Text.Sealed text) :
    JoinsTo dialect (.opening :: inside ++ [.closing]) ("(" ++ text ++ ")") := by
  have filled : text.toList.getLast? ≠ some '(' := by
    intro opening
    have ends := whole.ends
    rw [opening] at ends
    cases ends
  rw [JoinsTo, dialect.respell_parenthesized closed filled, Condition.sqls_append]
  exact Clause.joins_parenthesized joins

-- Only AND, OR and parentheses make more than one token, and these follow the structure of the text.
theorem conditions_matched (reached : scope.Reached) (dialect : Dialect) (depth : Nat) (term : Term)
    (formed : term.WellFormed) :
    Matched scope (JoinsTo dialect) (term.conditions (Pipe.textWithin depth)) (term.text (Pipe.textWithin depth)) := by
  induction term using parts_induction with
  | step term ih =>
    have inner := fun part member => ih part member (part_well_formed term part formed member)
    have single : Matched scope (JoinsTo dialect)
        (do return [← term.condition (Pipe.textWithin depth)]) (term.text (Pipe.textWithin depth)) := by
      refine matched_beside (condition_matched reached dialect depth term formed) ?_
      rintro condition text written ⟨parameters, met, lowered⟩
      rw [JoinsTo, written]
      exact respelled_token dialect (text_sealed _ term formed lowered)
    cases term with
    | binary span op left right =>
      have connected : ∀ connective : Connective, Matched scope (JoinsTo dialect)
          (do
            let before ← left.conditions (Pipe.textWithin depth)
            let after ← right.conditions (Pipe.textWithin depth)
            return before ++ .connective connective :: after)
          (do
            let leftText ← left.text (Pipe.textWithin depth)
            let rightText ← right.text (Pipe.textWithin depth)
            return leftText ++ " " ++ connective.sql ++ " " ++ rightText) := by
        intro connective
        refine matched_bind (inner left (.head _)) fun before leftText leftJoins leftYields => ?_
        refine matched_map (inner right (.tail _ (.head _))) fun after rightText rightJoins _ => ?_
        exact joins_connective leftJoins (text_closed reached depth left formed.2.2.1 leftYields) connective rightJoins
      cases op with
      | and =>
        rw [joined_text _ formed rfl]
        exact connected .and
      | or =>
        rw [joined_text _ formed rfl]
        exact connected .or
      | _ => exact single
    | paren span inside =>
      refine matched_map (inner inside (.head _)) fun conditions text joins yields => ?_
      obtain ⟨_, _, lowered⟩ := yields
      exact joins_paren joins (text_closed reached depth inside formed.2 ⟨_, _, lowered⟩)
        (text_sealed _ inside formed.2 lowered)
    | _ => exact single

end Term

/-- The conditions of a term, joined token by token, are its text in the spelling of the dialect. -/
theorem conditions_write_the_text (source : String) (screened : Bool) (script : Script) (term : Term)
    (scope : Lowering.Scope) (depth : Nat) (dialect : Dialect) (parameters : List Parameter)
    (accepted : Script.read source screened = .ok script) (contained : script.Contains term) (reached : scope.Reached) :
    (do return Clause.joinTokens (Condition.sqls dialect (← term.conditions (Pipe.textWithin depth))) : Lowering String)
        scope parameters =
      (do return dialect.respell (← term.text (Pipe.textWithin depth)) : Lowering String) scope parameters := by
  have formed := Script.contains_well_formed script term (Script.read_well_formed source screened script accepted) contained
  have runs := Term.conditions_matched reached dialect depth term formed
  exact Lowering.matched_eq runs (fun _ _ joins => joins.joined) parameters

theorem renamed_call_conditions_write_the_text :
    ∃ script term, Script.read "t|>filter(fn(r)=>(r.a=ifnull(@p,'(') or b))" false = .ok script ∧ script.Contains term ∧
      Lowering.Scope.Reached ⟨.sqlite, [], ["r"]⟩ ∧
      (do return Clause.joinTokens (Condition.sqls .sqlserver (← term.conditions (Pipe.textWithin 1))) : Lowering String)
          ⟨.sqlite, [], ["r"]⟩ [] =
        (do return Dialect.sqlserver.respell (← term.text (Pipe.textWithin 1)) : Lowering String) ⟨.sqlite, [], ["r"]⟩ [] ∧
      (do return Dialect.sqlserver.respell (← term.text (Pipe.textWithin 1)) : Lowering String) ⟨.sqlite, [], ["r"]⟩ [] =
        .ok ("(a = ISNULL(@p, '(') OR b)", [⟨"p", "TEXT"⟩]) := by
  have tokens : tokenize "t|>filter(fn(r)=>(r.a=ifnull(@p,'(') or b))" = .ok [⟨.ident "t", ⟨0, 1⟩⟩,
      ⟨.symbol .pipe, ⟨1, 3⟩⟩, ⟨.ident "filter", ⟨3, 9⟩⟩, ⟨.symbol .leftParen, ⟨9, 10⟩⟩, ⟨.keyword .fn, ⟨10, 12⟩⟩,
      ⟨.symbol .leftParen, ⟨12, 13⟩⟩, ⟨.ident "r", ⟨13, 14⟩⟩, ⟨.symbol .rightParen, ⟨14, 15⟩⟩, ⟨.symbol .arrow, ⟨15, 17⟩⟩,
      ⟨.symbol .leftParen, ⟨17, 18⟩⟩, ⟨.qualified ["r", "a"], ⟨18, 21⟩⟩, ⟨.symbol .eq, ⟨21, 22⟩⟩,
      ⟨.ident "ifnull", ⟨22, 28⟩⟩, ⟨.symbol .leftParen, ⟨28, 29⟩⟩, ⟨.param "p", ⟨29, 31⟩⟩, ⟨.symbol .comma, ⟨31, 32⟩⟩,
      ⟨.str "(", ⟨32, 35⟩⟩, ⟨.symbol .rightParen, ⟨35, 36⟩⟩, ⟨.keyword .or, ⟨37, 39⟩⟩, ⟨.ident "b", ⟨40, 41⟩⟩,
      ⟨.symbol .rightParen, ⟨41, 42⟩⟩, ⟨.symbol .rightParen, ⟨42, 43⟩⟩] := by decide +kernel
  have accepted : Script.read "t|>filter(fn(r)=>(r.a=ifnull(@p,'(') or b))" false = .ok
      ⟨.query ⟨.ident ⟨0, 1⟩ "t", [.call ⟨3, 43⟩ ⟨"filter", ⟨3, 9⟩, false⟩ [.lambda ⟨10, 42⟩ ["r"]
        (.paren ⟨17, 42⟩ (.binary ⟨18, 41⟩ .or
          (.binary ⟨18, 36⟩ .eq (.qualified ⟨18, 21⟩ ["r", "a"])
            (.call ⟨22, 36⟩ ⟨"ifnull", ⟨22, 28⟩, false⟩ [.param ⟨29, 31⟩ "p", .literal ⟨32, 35⟩ (.str "(")]))
          (.ident ⟨40, 41⟩ "b")))]]⟩, []⟩ :=
    Script.read_of_stages tokens (by set_option maxRecDepth 4000 in rfl)
  have reached : Lowering.Scope.Reached ⟨.sqlite, [], ["r"]⟩ := .rows ["r"] (.start .sqlite)
  refine ⟨_, _, accepted,
    ⟨_, .head _, _, .tail _ (.head _), .deeper _ _ _ (.head _) (.deeper _ _ _ (.head _) (.self _))⟩, reached, ?_,
    by decide +kernel⟩
  exact conditions_write_the_text _ _ _ _ _ 1 .sqlserver [] accepted
    ⟨_, .head _, _, .tail _ (.head _), .deeper _ _ _ (.head _) (.deeper _ _ _ (.head _) (.self _))⟩ reached

end PipeSql
