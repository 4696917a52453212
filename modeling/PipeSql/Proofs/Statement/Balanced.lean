import PipeSql.Proofs.Dialect.Nesting
import PipeSql.Proofs.Statement.Tokens

set_option autoImplicit false

namespace PipeSql

namespace Clause

-- A part of a written clause: a parenthesis, a word of its own, or a text that it was given.
inductive Item where
  | opening
  | closing
  | keyword (text : String)
  | leaf (text : String)
deriving DecidableEq, Repr

namespace Item

def text : Item → String
  | .opening => "("
  | .closing => ")"
  | .keyword text => text
  | .leaf text => text

def gap : Item → Item → String
  | .opening, _ => ""
  | _, .closing => ""
  | _, _ => " "

def write : List Item → String
  | [] => ""
  | [last] => last.text
  | first :: second :: rest => first.text ++ gap first second ++ write (second :: rest)

theorem gap_eq (left right : Item) : gap left right = if left ≠ .opening ∧ right ≠ .closing then " " else "" := by
  cases left <;> cases right <;> simp [gap]

theorem write_append {left right : List Item} {last first : Item} (ends : left.getLast? = some last)
    (starts : right.head? = some first) : write (left ++ right) = write left ++ gap last first ++ write right := by
  induction left with
  | nil => cases ends
  | cons item rest ih =>
    cases rest with
    | nil =>
      cases right with
      | nil => cases starts
      | cons second others =>
        cases ends
        cases starts
        rfl
    | cons second others =>
      have shorter := ih (by rwa [List.getLast?_cons_cons] at ends)
      rw [List.cons_append] at shorter
      rw [List.cons_append, List.cons_append, write, write, shorter]
      simp only [String.append_assoc]

end Item

theorem join_tokens_past (token : String) (tokens : List String) :
    ∃ gap, Text.Nesting.Plain gap.toList ∧ joinTokens (token :: tokens) = token ++ gap ++ joinTokens tokens := by
  cases tokens with
  | nil => exact ⟨"", by decide, by simp [joinTokens]⟩
  | cons second rest =>
    refine ⟨_, ?_, joinTokens.eq_3 token second rest⟩
    split <;> decide

end Clause

open Clause (Item)

def Comparison.words : Comparison → List String
  | .isNull => ["IS", "NULL"]
  | .isNotNull => ["IS", "NOT", "NULL"]
  | operator => [operator.sql]

theorem Comparison.words_unspaced (operator : Comparison) : ∀ word ∈ operator.words, ' ' ∉ word.toList := by
  cases operator <;> decide

theorem Comparison.sql_plain (operator : Comparison) : Text.Nesting.Plain operator.sql.toList := by
  cases operator <;> decide

theorem Connective.sql_plain (word : Connective) : Text.Nesting.Plain word.sql.toList := by
  cases word <;> decide

def Column.leaves : Column → List String
  | .named name table _ => name :: table.toList
  | .expression text _ => [text]
  | .wildcard table => table.toList
  | .subQuery _ _ => []

namespace Condition

def leaves : Condition Column → List String
  | .comparison left operator right => left.leaves ++ if operator.isUnary then [] else [right]
  | .expression text => [text]
  | _ => []

def token (dialect : Dialect) : Condition Column → String
  | .comparison left operator right => operator.phrase dialect (left.operand dialect (left.sql dialect true)) right
  | .connective word => word.sql
  | .opening => "("
  | .closing => ")"
  | .expression text => dialect.respell text

def items (dialect : Dialect) : Condition Column → List Item
  | .comparison left operator right =>
    .leaf (left.operand dialect (left.sql dialect true)) :: operator.words.map .keyword ++
      if operator.isUnary then [] else [.leaf (dialect.respell right)]
  | .connective word => [.keyword word.sql]
  | .opening => [.opening]
  | .closing => [.closing]
  | .expression text => [.leaf (dialect.respell text)]

theorem sqls_eq_map (dialect : Dialect) (conditions : List (Condition Column)) :
    sqls dialect conditions = conditions.map (token dialect) := by
  induction conditions with
  | nil => rfl
  | cons first rest ih => cases first <;> rw [sqls, ih] <;> rfl

theorem write_items (dialect : Dialect) (condition : Condition Column) :
    Item.write (condition.items dialect) = condition.token dialect := by
  cases condition with
  | comparison left operator right =>
    generalize written : left.operand dialect (left.sql dialect true) = subject
    cases operator with
    | isNull | isNotNull => simp [items, token, written, Comparison.words, Comparison.phrase, Comparison.isUnary,
        Item.write, Item.text, Item.gap, Comparison.sql, String.append_assoc]
    | _ => simp [items, token, written, Comparison.words, Comparison.phrase, Comparison.isUnary, Item.write, Item.text,
        Item.gap, String.append_assoc]
  | connective word => rfl
  | opening => rfl
  | closing => rfl
  | expression text => rfl

theorem keyword_unspaced (dialect : Dialect) {condition : Condition Column} {text : String}
    (among : .keyword text ∈ condition.items dialect) : ' ' ∉ text.toList := by
  cases condition with
  | comparison left operator right =>
    refine operator.words_unspaced text ?_
    by_cases unary : operator.isUnary
    · simpa [items, unary] using among
    · simpa [items, unary] using among
  | connective word =>
    cases List.mem_singleton.1 among
    cases word <;> decide
  | opening => cases List.mem_singleton.1 among
  | closing => cases List.mem_singleton.1 among
  | expression text => cases List.mem_singleton.1 among

-- The first item is a closing parenthesis only if the first condition is one.
theorem items_start (dialect : Dialect) (condition : Condition Column) (rest : List (Condition Column)) :
    ∃ first, ((condition :: rest).flatMap (items dialect)).head? = some first ∧
      (first = .closing ↔ condition = .closing) := by
  cases condition <;> exact ⟨_, rfl, by simp⟩

theorem items_end (dialect : Dialect) (condition : Condition Column) :
    ∃ last, (condition.items dialect).getLast? = some last ∧ (last = .opening ↔ condition = .opening) := by
  cases condition with
  | comparison left operator right =>
    cases operator with
    | isNull | isNotNull => exact ⟨.keyword "NULL", rfl, by simp⟩
    | _ => exact ⟨.leaf (dialect.respell right), rfl, by simp⟩
  | _ => exact ⟨_, rfl, by simp⟩

end Condition

open Text (Balanced balanced_append balanced_plain balanced_respell)

theorem Column.operand_balanced (dialect : Dialect) {column : Column}
    (simple : ∀ query label, column ≠ .subQuery query label) (leaves : ∀ text ∈ column.leaves, Balanced text) :
    Balanced (column.operand dialect (column.sql dialect true)) := by
  cases column with
  | named name table label =>
    have nameBalanced := leaves name List.mem_cons_self
    cases table with
    | none => exact nameBalanced
    | some table =>
      have tableBalanced := leaves table (List.mem_cons_of_mem _ List.mem_cons_self)
      exact balanced_append (balanced_append tableBalanced (balanced_plain "." (by decide))) nameBalanced
  | expression text label => exact balanced_respell dialect (leaves text List.mem_cons_self)
  | wildcard table =>
    cases table with
    | none => exact balanced_plain "*" (by decide)
    | some table => exact balanced_append (leaves table List.mem_cons_self) (balanced_plain ".*" (by decide))
  | subQuery query label => exact absurd rfl (simple query label)

namespace Condition

-- The condition compares no subquery and writes only balanced texts.
structure Sound (condition : Condition Column) : Prop where
  simple : ∀ query label operator right, condition ≠ .comparison (.subQuery query label) operator right
  leaves : ∀ text ∈ condition.leaves, Balanced text

theorem token_balanced (dialect : Dialect) {condition : Condition Column} (sound : Sound condition)
    (opening : condition ≠ .opening) (closing : condition ≠ .closing) : Balanced (condition.token dialect) := by
  cases condition with
  | comparison left operator right =>
    have subject : Balanced (left.operand dialect (left.sql dialect true)) := by
      refine left.operand_balanced dialect ?_ fun text among => sound.leaves text (List.mem_append_left _ among)
      rintro query label rfl
      exact sound.simple query label operator right rfl
    have spaced := balanced_append subject (balanced_plain " " (by decide))
    have compared := balanced_append spaced (balanced_plain _ operator.sql_plain)
    rw [token, Comparison.phrase]
    split
    next => exact compared
    next binary =>
      have object := sound.leaves right (List.mem_append_right _ (by rw [if_neg binary]; exact List.mem_cons_self))
      exact balanced_append (balanced_append compared (balanced_plain " " (by decide)))
        (balanced_respell dialect object)
  | connective word => exact balanced_plain _ word.sql_plain
  | opening => exact absurd rfl opening
  | closing => exact absurd rfl closing
  | expression text => exact balanced_respell dialect (sound.leaves text List.mem_cons_self)

-- Only a parenthesis is written like one, for all other texts are balanced.
theorem token_parenthesis (dialect : Dialect) {condition paren : Condition Column} (sound : Sound condition)
    (parenthesis : paren = .opening ∨ paren = .closing) :
    condition.token dialect = paren.token dialect ↔ condition = paren := by
  refine ⟨fun written => ?_, congrArg (token dialect)⟩
  by_cases opening : condition = .opening
  · rcases parenthesis with rfl | rfl
    · exact opening
    · rw [opening, token, token] at written
      exact absurd written (by decide)
  by_cases closing : condition = .closing
  · rcases parenthesis with rfl | rfl
    · rw [closing, token, token] at written
      exact absurd written (by decide)
    · exact closing
  have balanced := token_balanced dialect sound opening closing
  rw [written] at balanced
  rcases parenthesis with rfl | rfl
  · exact absurd balanced.matched (by rw [token]; decide)
  · exact absurd balanced.matched (by rw [token]; decide)

theorem write_conditions (dialect : Dialect) {conditions : List (Condition Column)}
    (sound : ∀ condition ∈ conditions, Sound condition) :
    Item.write (conditions.flatMap (items dialect)) = Clause.joinTokens (conditions.map (token dialect)) := by
  induction conditions with
  | nil => rfl
  | cons first rest ih =>
    cases rest with
    | nil =>
      rw [List.flatMap_cons, List.flatMap_nil, List.append_nil]
      exact write_items dialect first
    | cons second others =>
      obtain ⟨firstSound, restSound⟩ := List.forall_mem_cons.1 sound
      obtain ⟨last, ends, isOpening⟩ := items_end dialect first
      obtain ⟨head, starts, isClosing⟩ := items_start dialect second others
      have opens : first.token dialect = "(" ↔ first = .opening := token_parenthesis dialect firstSound (.inl rfl)
      have closes : second.token dialect = ")" ↔ second = .closing :=
        token_parenthesis dialect (restSound second List.mem_cons_self) (.inr rfl)
      have spaced : (first.token dialect != "(" && second.token dialect != ")") = true ↔
          last ≠ .opening ∧ head ≠ .closing := by
        rw [Bool.and_eq_true, bne_iff_ne, bne_iff_ne, Ne, Ne, opens, closes, ← isOpening, ← isClosing]
      rw [List.map_cons, List.map_cons, Clause.joinTokens, ← List.map_cons, ← ih restSound, List.flatMap_cons,
        Item.write_append ends starts, write_items, Item.gap_eq]
      simp only [spaced]

-- Balanced conditions do not begin with a closing parenthesis, so a space stands in front of them.
theorem write_clause (dialect : Dialect) {first : Condition Column} {rest : List (Condition Column)}
    (sound : ∀ condition ∈ first :: rest, Sound condition) (balanced : balanced (first :: rest) = true) :
    Item.write (.keyword "WHERE" :: (first :: rest).flatMap (items dialect)) =
      "WHERE " ++ Clause.joinTokens ((first :: rest).map (token dialect)) := by
  obtain ⟨head, starts, isClosing⟩ := items_start dialect first rest
  have inside : head ≠ .closing := by
    intro closing
    cases isClosing.1 closing
    cases balanced
  have alone : [Item.keyword "WHERE"].getLast? = some (.keyword "WHERE") := rfl
  have spaced := Item.write_append alone starts
  rw [Item.gap_eq, if_pos ⟨by simp, inside⟩, write_conditions dialect sound] at spaced
  exact spaced

open Text.Nesting in
theorem along_tokens (dialect : Dialect) {conditions : List (Condition Column)}
    (sound : ∀ condition ∈ conditions, Sound condition) {depth : Nat}
    (balanced : balancedFrom depth conditions = true) :
    along (Clause.joinTokens (conditions.map (token dialect))).toList ⟨false, depth⟩ = some ⟨false, 0⟩ := by
  induction conditions generalizing depth with
  | nil =>
    cases beq_iff_eq.1 balanced
    rfl
  | cons first rest ih =>
    obtain ⟨firstSound, restSound⟩ := List.forall_mem_cons.1 sound
    obtain ⟨gap, plain, joined⟩ := Clause.join_tokens_past (first.token dialect) (rest.map (token dialect))
    have pass : ∀ {behind : Nat}, along (first.token dialect).toList ⟨false, depth⟩ = some ⟨false, behind⟩ →
        balancedFrom behind rest = true →
        along (Clause.joinTokens ((first :: rest).map (token dialect))).toList ⟨false, depth⟩ = some ⟨false, 0⟩ := by
      intro behind passed others
      rw [List.map_cons, joined, String.toList_append, String.toList_append, List.append_assoc, along_past passed,
        along_past (along_plain plain _)]
      exact ih restSound others
    by_cases opening : first = .opening
    · cases opening
      exact pass (by simp [token, along, next]) balanced
    by_cases closing : first = .closing
    · cases closing
      cases depth with
      | zero => cases balanced
      | succ less => exact pass (by simp [token, along, next]) balanced
    · refine pass (Text.balanced_along (token_balanced dialect firstSound opening closing) depth) ?_
      cases first with
      | opening => exact absurd rfl opening
      | closing => exact absurd rfl closing
      | _ => cases depth <;> exact balanced

end Condition

/-- The clause of balanced conditions is balanced, and spaced by what its tokens are. -/
theorem where_clause_balanced (dialect : Dialect) {conditions : List (Condition Column)} (filled : conditions ≠ [])
    (balanced : Condition.balanced conditions = true) (sound : ∀ condition ∈ conditions, condition.Sound) :
    ∃ text, Clause.whereTokens (Condition.sqls dialect conditions) = some text ∧ Balanced text ∧
      text = Item.write (.keyword "WHERE" :: conditions.flatMap (Condition.items dialect)) ∧
      ∀ condition ∈ conditions, ∀ word, .keyword word ∈ condition.items dialect → ' ' ∉ word.toList := by
  cases conditions with
  | nil => exact absurd rfl filled
  | cons first rest =>
    refine ⟨_, ?_, ?_, (Condition.write_clause dialect sound balanced).symm,
      fun condition _ word among => Condition.keyword_unspaced dialect among⟩
    · rw [Condition.sqls_eq_map]
      rfl
    · rw [Text.balanced_iff, String.toList_append, Text.Nesting.along_past (Text.Nesting.along_plain (by decide) _)]
      exact Condition.along_tokens dialect sound balanced

theorem dropped_arguments_stay_balanced :
    let conditions : List (Condition Column) := [.opening, .comparison (.expression "now()" none) .lessThan "f(x)", .or,
      .expression "a = 'it''s ('", .closing, .and, .comparison (.named "b" (some "t") none) .isNull ")"]
    let text := "WHERE (CURRENT_TIMESTAMP < f(x) OR a = 'it''s (') AND t.b IS NULL"
    Condition.balanced conditions = true ∧ (∀ condition ∈ conditions, condition.Sound) ∧
      Clause.whereTokens (Condition.sqls .sqlite conditions) = some text ∧ Balanced text := by
  intro conditions text
  have balanced : Condition.balanced conditions = true := by decide
  have sound : ∀ condition ∈ conditions, condition.Sound := by
    simp only [conditions, List.forall_mem_cons]
    refine ⟨⟨by simp, ?_⟩, ⟨by simp, ?_⟩, ⟨by simp [Condition.or], ?_⟩, ⟨by simp, ?_⟩, ⟨by simp, ?_⟩,
      ⟨by simp [Condition.and], ?_⟩, ⟨by simp, ?_⟩, List.forall_mem_nil _⟩ <;> decide
  obtain ⟨written, clause, closed, -⟩ := where_clause_balanced .sqlite (List.cons_ne_nil _ _) balanced sound
  have known : Clause.whereTokens (Condition.sqls .sqlite conditions) = some text := by decide +kernel
  rw [known] at clause
  cases clause
  exact ⟨balanced, sound, known, closed⟩

end PipeSql
