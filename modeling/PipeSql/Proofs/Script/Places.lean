import Mathlib.Data.List.Forall2
import PipeSql.Proofs.Script.Mapped
import PipeSql.Proofs.Script.Recognizer
import PipeSql.Script.Screen

set_option autoImplicit false

namespace PipeSql

-- Both cursors stand before the same tokens.
structure Cursor.Beside (left right : Cursor) : Prop where
  index : left.index = right.index
  tokens : left.tokens = right.tokens

namespace Recognizer

variable {α β γ δ : Type}

-- Before the same tokens both get stuck in the same way, and both read nothing or related values.
def Blind (same : α → β → Prop) (left : Recognizer α) (right : Recognizer β) : Prop :=
  ∀ cursor twin, cursor.Beside twin → (left cursor).stall = (right twin).stall ∧
    Option.Rel (fun found other => same found.1 other.1 ∧ found.2.Beside other.2) (left cursor).result (right twin).result

variable {same : α → β → Prop} {follows : γ → δ → Prop}

theorem blind_pure {value : α} {other : β} (related : same value other) : Blind same (pure value) (pure other) := by
  intro cursor twin beside
  exact ⟨rfl, .some ⟨related, beside⟩⟩

theorem blind_fail : Blind same fail fail := by
  intro cursor twin beside
  exact ⟨rfl, .none⟩

theorem bind_stall (first : Recognizer α) (next : α → Recognizer γ) (cursor : Cursor) :
    ((first >>= next) cursor).stall = match (first cursor).result with
      | none => (first cursor).stall
      | some found => Stall.further (first cursor).stall (next found.1 found.2).stall := by
  dsimp only [bind]
  rcases first cursor with ⟨stall, _ | ⟨value, behind⟩⟩ <;> rfl

theorem blind_bind {left : Recognizer α} {right : Recognizer β} {next : α → Recognizer γ} {after : β → Recognizer δ}
    (first : Blind same left right) (others : ∀ value other, same value other → Blind follows (next value) (after other)) :
    Blind follows (left >>= next) (right >>= after) := by
  intro cursor twin beside
  obtain ⟨stalled, found⟩ := first cursor twin beside
  rw [bind_stall, bind_stall, bind_result, bind_result, stalled]
  generalize (left cursor).result = leftFound at found ⊢
  generalize (right twin).result = rightFound at found ⊢
  cases found with
  | none => exact ⟨rfl, .none⟩
  | some related =>
    obtain ⟨stalledNext, foundNext⟩ := others _ _ related.1 _ _ related.2
    exact ⟨by simp [stalledNext], foundNext⟩

theorem blind_map {left : Recognizer α} {right : Recognizer β} {change : α → γ} {alter : β → δ}
    (first : Blind same left right) (changed : ∀ value other, same value other → follows (change value) (alter other)) :
    Blind follows (change <$> left) (alter <$> right) :=
  blind_bind first fun value other related => blind_pure (changed value other related)

theorem blind_next {same : α → α → Prop} (wanted : String) (use : Token → Option α)
    (used : ∀ token value, use token = some value → same value value) : Blind same (next wanted use) (next wanted use) := by
  rintro ⟨index, offset, ahead⟩ ⟨_, place, others⟩ ⟨rfl, tokens⟩
  cases ahead with
  | nil =>
    cases others with
    | nil => exact ⟨rfl, .none⟩
    | cons => simp [Cursor.tokens] at tokens
  | cons lexeme ahead =>
    cases others with
    | nil => simp [Cursor.tokens] at tokens
    | cons other others =>
      simp only [Cursor.tokens, List.map_cons, List.cons.injEq] at tokens
      simp only [next, tokens.1]
      cases taken : use other.token with
      | none => exact ⟨rfl, .none⟩
      | some value => exact ⟨rfl, .some ⟨used _ value taken, rfl, tokens.2⟩⟩

theorem blind_accept {same : α → α → Prop} (use : Token → Option α)
    (used : ∀ token value, use token = some value → same value value) : Blind same (accept use) (accept use) :=
  blind_next _ use used

theorem blind_token (expected : Token) : Blind Eq (token expected) (token expected) :=
  blind_next _ _ fun _ _ _ => rfl

theorem blind_keyword (word : Keyword) : Blind Eq (keyword word) (keyword word) :=
  blind_token _

theorem blind_symbol (mark : Symbol) : Blind Eq (symbol mark) (symbol mark) :=
  blind_token _

theorem ahead_length {cursor twin : Cursor} (beside : cursor.Beside twin) : cursor.ahead.length = twin.ahead.length := by
  simpa [Cursor.tokens] using congrArg List.length beside.tokens

theorem blind_at_end : Blind Eq atEnd atEnd := by
  intro cursor twin beside
  have ended : cursor.ahead.isEmpty = twin.ahead.isEmpty := by
    rw [Bool.eq_iff_iff, List.isEmpty_iff_length_eq_zero, List.isEmpty_iff_length_eq_zero, ahead_length beside]
  by_cases empty : twin.ahead.isEmpty = true
  · rw [atEnd, atEnd, if_pos (ended.trans empty), if_pos empty]
    exact ⟨rfl, .some ⟨rfl, beside⟩⟩
  · rw [atEnd, atEnd, if_neg (ended ▸ empty), if_neg empty, refuse, refuse, beside.index]
    exact ⟨rfl, .none⟩

theorem labelled_stall (label : String) (inner : Recognizer α) (cursor : Cursor) :
    (labelled label inner cursor).stall = (inner cursor).stall.map fun stall =>
      if stall.index = cursor.index then ⟨cursor.index, [label]⟩ else stall := by
  simp only [labelled]
  cases stalled : (inner cursor).stall with
  | none => simp [stalled]
  | some stall =>
    by_cases here : stall.index = cursor.index
    · simp [here]
    · simp [here, stalled]

theorem blind_labelled (label : String) {left : Recognizer α} {right : Recognizer β} (inner : Blind same left right) :
    Blind same (labelled label left) (labelled label right) := by
  intro cursor twin beside
  obtain ⟨stalled, found⟩ := inner cursor twin beside
  rw [labelled_stall, labelled_stall, labelled_result, labelled_result, stalled, beside.index]
  exact ⟨rfl, found⟩

theorem or_else_stall (first second : Recognizer α) (cursor : Cursor) :
    (orElse first second cursor).stall = match (first cursor).result with
      | some _ => (first cursor).stall
      | none => Stall.further (first cursor).stall (second cursor).stall := by
  unfold orElse
  rcases first cursor with ⟨stall, _ | found⟩ <;> rfl

theorem blind_or_else {left left' : Recognizer α} {right right' : Recognizer β} (first : Blind same left right)
    (second : Blind same left' right') : Blind same (orElse left left') (orElse right right') := by
  intro cursor twin beside
  obtain ⟨stalled, found⟩ := first cursor twin beside
  obtain ⟨stalledNext, foundNext⟩ := second cursor twin beside
  rw [or_else_stall, or_else_stall, or_else_result, or_else_result, stalled, stalledNext]
  generalize (left cursor).result = leftFound at found ⊢
  generalize (right twin).result = rightFound at found ⊢
  cases found with
  | none => exact ⟨rfl, foundNext⟩
  | some related => exact ⟨rfl, .some related⟩

theorem blind_first_of {lefts : List (Recognizer α)} {rights : List (Recognizer β)}
    (each : List.Forall₂ (Blind same) lefts rights) : Blind same (firstOf lefts) (firstOf rights) := by
  induction each with
  | nil => exact blind_fail
  | cons first rest ih => exact blind_or_else first ih

theorem blind_optional {left : Recognizer α} {right : Recognizer β} (inner : Blind same left right) :
    Blind (Option.Rel same) (optional left) (optional right) :=
  blind_or_else (blind_map inner fun _ _ related => .some related) (blind_pure .none)

theorem blind_up_to {left : Recognizer α} {right : Recognizer β} (inner : Blind same left right) (bound : Nat) :
    Blind (List.Forall₂ same) (upTo left bound) (upTo right bound) := by
  induction bound with
  | zero => exact blind_pure .nil
  | succ bound ih =>
    apply blind_or_else _ (blind_pure .nil)
    apply blind_bind inner
    intro value other related
    exact blind_map ih fun _ _ others => .cons related others

theorem blind_many {left : Recognizer α} {right : Recognizer β} (inner : Blind same left right) :
    Blind (List.Forall₂ same) (many left) (many right) := by
  intro cursor twin beside
  simp only [many, ahead_length beside]
  exact blind_up_to inner _ cursor twin beside

theorem blind_separated {left : Recognizer α} {right : Recognizer β} {separator : Recognizer Unit}
    (inner : Blind same left right) (between : Blind Eq separator separator) :
    Blind (List.Forall₂ same) (separated left separator) (separated right separator) := by
  apply blind_bind inner
  intro value other related
  apply blind_map (blind_many (blind_bind between fun _ _ _ => inner))
  exact fun _ _ others => .cons related others

theorem blind_separated_or_none {left : Recognizer α} {right : Recognizer β} {separator : Recognizer Unit}
    (inner : Blind same left right) (between : Blind Eq separator separator) :
    Blind (List.Forall₂ same) (separatedOrNone left separator) (separatedOrNone right separator) :=
  blind_or_else (blind_separated inner between) (blind_pure .nil)

-- The spans themselves are not related.
theorem blind_spanned {left : Recognizer α} {right : Recognizer β} (inner : Blind same left right) :
    Blind (fun found other => same found.1 other.1) (spanned left) (spanned right) := by
  intro cursor twin beside
  obtain ⟨stalled, found⟩ := inner cursor twin beside
  refine ⟨stalled, ?_⟩
  simp only [spanned]
  generalize (left cursor).result = leftFound at found ⊢
  generalize (right twin).result = rightFound at found ⊢
  cases found with
  | none => exact .none
  | some related => exact .some related

theorem blind_spanned_bind (same : α → β → Prop) {left : Recognizer α} {right : Recognizer β}
    {next : α × Span → Recognizer γ} {after : β × Span → Recognizer δ} (inner : Blind same left right)
    (others : ∀ value other span place, same value other → Blind follows (next (value, span)) (after (other, place))) :
    Blind follows (spanned left >>= next) (spanned right >>= after) :=
  blind_bind (blind_spanned inner) fun found other related => others found.1 other.1 found.2 other.2 related

def Both (same : α → β → Prop) (follows : γ → δ → Prop) (found : α × γ) (other : β × δ) : Prop :=
  same found.1 other.1 ∧ follows found.2 other.2

end Recognizer

-- All places become one.
def Span.nowhere (_ : Span) : Span :=
  ⟨0, 0⟩

namespace Term

-- The terms differ in their spans only.
def Matches (left right : Term) : Prop :=
  left.mapped id Span.nowhere = right.mapped id Span.nowhere

theorem all_match {lefts rights : List Term} (each : List.Forall₂ Matches lefts rights) :
    mappedAll id Span.nowhere lefts = mappedAll id Span.nowhere rights := by
  induction each with
  | nil => rfl
  | cons first rest ih => exact congrArg₂ List.cons first ih

theorem option_match {left right : Option Term} (related : Option.Rel Matches left right) :
    mappedOption id Span.nowhere left = mappedOption id Span.nowhere right := by
  cases related with
  | none => rfl
  | some inner => exact congrArg some inner

theorem branches_match {lefts rights : List (Term × Term)}
    (each : List.Forall₂ (Recognizer.Both Matches Matches) lefts rights) :
    mappedBranches id Span.nowhere lefts = mappedBranches id Span.nowhere rights := by
  induction each with
  | nil => rfl
  | cons first rest ih => exact congrArg₂ List.cons (congrArg₂ Prod.mk first.1 first.2) ih

end Term

def Pipe.Matches (left right : Pipe) : Prop :=
  left.mapped id Span.nowhere = right.mapped id Span.nowhere

def ScriptStatement.Matches (left right : ScriptStatement) : Prop :=
  left.mapped id Span.nowhere = right.mapped id Span.nowhere

def Script.Matches (left right : Script) : Prop :=
  left.mapped id Span.nowhere = right.mapped id Span.nowhere

namespace Grammar

open Recognizer

variable {left right : Recognizer Term}

theorem blind_comma : Blind Eq comma comma :=
  blind_symbol _

def Named (found other : String × Span) : Prop :=
  found.1 = other.1

theorem blind_identifier : Blind Named identifier identifier :=
  blind_labelled _ (blind_spanned (blind_accept _ fun _ _ _ => rfl))

theorem blind_pipe (given : Blind Term.Matches left right) : Blind Pipe.Matches (pipe left) (pipe right) := by
  apply blind_bind given
  intro source other sources
  apply blind_bind (blind_many (blind_bind (blind_symbol _) fun _ _ _ => given))
  intro stages others each
  exact blind_pure (congrArg₂ Pipe.mk sources (Term.all_match each))

theorem blind_direction : Blind Eq direction direction := by
  apply blind_first_of
  refine .cons ?_ (.cons ?_ .nil)
  · exact blind_bind (blind_keyword _) fun _ _ _ => blind_pure rfl
  · exact blind_bind (blind_keyword _) fun _ _ _ => blind_pure rfl

theorem blind_directed (given : Blind Term.Matches left right) :
    Blind Term.Matches (directed left) (directed right) := by
  apply blind_spanned_bind (Both Term.Matches (Option.Rel Eq))
  · apply blind_bind given
    intro inner other same
    exact blind_bind (blind_optional blind_direction) fun _ _ directions => blind_pure ⟨same, directions⟩
  · rintro ⟨inner, direction⟩ ⟨other, reversed⟩ span place ⟨same, directions⟩
    cases directions with
    | none => exact blind_pure same
    | some equal => exact blind_pure (congrArg₂ (Term.ordered ⟨0, 0⟩) same equal)

theorem blind_aliased (given : Blind Term.Matches left right) : Blind Term.Matches (aliased left) (aliased right) := by
  apply blind_spanned_bind (Both Term.Matches (Option.Rel Named))
  · apply blind_bind given
    intro inner other same
    apply blind_bind (blind_optional (blind_bind (blind_keyword _) fun _ _ _ => blind_labelled _ blind_identifier))
    exact fun _ _ labels => blind_pure ⟨same, labels⟩
  · rintro ⟨inner, label⟩ ⟨other, twin⟩ span place ⟨same, labels⟩
    cases labels with
    | none => exact blind_pure same
    | some equal => exact blind_pure (congrArg₂ (Term.aliased ⟨0, 0⟩) same equal)

theorem blind_on_argument (given : Blind Term.Matches left right) :
    Blind Term.Matches (onArgument left) (onArgument right) := by
  apply blind_spanned_bind Term.Matches
  · exact blind_bind (blind_keyword _) fun _ _ _ => blind_bind (blind_symbol _) fun _ _ _ => given
  · exact fun _ _ _ _ same => blind_pure (congrArg (Term.named ⟨0, 0⟩ "on") same)

theorem blind_argument (given : Blind Term.Matches left right) :
    Blind Term.Matches (argument left) (argument right) :=
  blind_or_else (blind_on_argument given) (blind_directed (blind_aliased given))

theorem all_match_or_none {lefts rights : Option (List Term)}
    (related : Option.Rel (List.Forall₂ Term.Matches) lefts rights) :
    List.Forall₂ Term.Matches (lefts.getD []) (rights.getD []) := by
  cases related with
  | none => exact .nil
  | some each => exact each

theorem blind_window (given : Blind Term.Matches left right) :
    Blind (Both (List.Forall₂ Term.Matches) (List.Forall₂ Term.Matches)) (window left) (window right) := by
  have partitions := blind_bind (blind_keyword .partition) fun _ _ _ =>
    blind_bind (blind_keyword .by) fun _ _ _ => blind_separated given blind_comma
  have orders := blind_bind (blind_keyword .order) fun _ _ _ =>
    blind_bind (blind_keyword .by) fun _ _ _ => blind_separated (blind_directed given) blind_comma
  apply blind_bind (blind_labelled _ (blind_symbol _))
  intro _ _ _
  apply blind_bind (blind_optional partitions)
  intro partitionBy partitionedBy partitionsMatch
  apply blind_bind (blind_optional orders)
  intro orderBy orderedBy ordersMatch
  apply blind_bind (blind_labelled _ (blind_symbol _))
  exact fun _ _ _ => blind_pure ⟨all_match_or_none partitionsMatch, all_match_or_none ordersMatch⟩

def HeadMatches (found other : CallHead) : Prop :=
  found.mapped Span.nowhere = other.mapped Span.nowhere

theorem blind_call (given : Blind Term.Matches left right) : Blind Term.Matches (call left) (call right) := by
  apply blind_spanned_bind (Both HeadMatches (Both (List.Forall₂ Term.Matches)
    (Option.Rel (Both (List.Forall₂ Term.Matches) (List.Forall₂ Term.Matches)))))
  · apply blind_bind blind_identifier
    rintro ⟨name, nameSpan⟩ ⟨other, otherSpan⟩ (equal : name = other)
    apply blind_bind (blind_symbol _)
    intro _ _ _
    apply blind_bind (blind_optional (blind_keyword _))
    intro distinct distinctOther distinctMatch
    apply blind_bind (blind_separated_or_none (blind_argument given) blind_comma)
    intro args others argsMatch
    apply blind_bind (blind_labelled _ (blind_symbol _))
    intro _ _ _
    apply blind_bind (blind_optional (blind_bind (blind_keyword _) fun _ _ _ => blind_window given))
    intro frame framed frameMatch
    have heads : HeadMatches ⟨name, nameSpan, distinct.isSome⟩ ⟨other, otherSpan, distinctOther.isSome⟩ := by
      cases equal
      cases distinctMatch <;> rfl
    exact blind_pure ⟨heads, argsMatch, frameMatch⟩
  · rintro ⟨head, args, frame⟩ ⟨other, others, framed⟩ span place ⟨heads, argsMatch, frameMatch⟩
    cases frameMatch with
    | none => exact blind_pure (congrArg₂ (Term.call ⟨0, 0⟩) heads (Term.all_match argsMatch))
    | @some frame framed frameMatch =>
      obtain ⟨partitionBy, orderBy⟩ := frame
      obtain ⟨partitionedBy, orderedBy⟩ := framed
      apply blind_pure
      rw [Term.Matches, Term.mapped, Term.mapped, Term.all_match argsMatch, Term.all_match frameMatch.1,
        Term.all_match frameMatch.2, show head.mapped Span.nowhere = other.mapped Span.nowhere from heads]
      rfl

theorem names_match {params others : List (String × Span)} (each : List.Forall₂ Named params others) :
    params.map Prod.fst = others.map Prod.fst := by
  induction each with
  | nil => rfl
  | cons first rest ih => exact congrArg₂ List.cons first ih

theorem blind_lambda (given : Blind Term.Matches left right) : Blind Term.Matches (lambda left) (lambda right) := by
  apply blind_spanned_bind (Both Eq Term.Matches)
  · apply blind_bind (blind_keyword _)
    intro _ _ _
    apply blind_bind (blind_labelled _ (blind_symbol _))
    intro _ _ _
    apply blind_bind (blind_separated (blind_labelled _ blind_identifier) blind_comma)
    intro params others each
    apply blind_bind (blind_symbol _)
    intro _ _ _
    apply blind_bind (blind_labelled _ (blind_symbol _))
    intro _ _ _
    exact blind_bind given fun _ _ bodies => blind_pure ⟨names_match each, bodies⟩
  · rintro ⟨params, body⟩ ⟨others, twin⟩ span place ⟨equal, bodies⟩
    exact blind_pure (congrArg₂ (Term.lambda ⟨0, 0⟩) equal bodies)

theorem blind_branch (given : Blind Term.Matches left right) :
    Blind (Both Term.Matches Term.Matches) (branch left) (branch right) := by
  apply blind_bind (blind_keyword _)
  intro _ _ _
  apply blind_bind given
  intro condition other conditions
  apply blind_bind (blind_keyword _)
  intro _ _ _
  exact blind_bind given fun _ _ values => blind_pure ⟨conditions, values⟩

theorem blind_cases (given : Blind Term.Matches left right) : Blind Term.Matches (cases left) (cases right) := by
  apply blind_spanned_bind (Both (Option.Rel Term.Matches) (Both (List.Forall₂ (Both Term.Matches Term.Matches))
    (Option.Rel Term.Matches)))
  · apply blind_bind (blind_keyword _)
    intro _ _ _
    apply blind_bind (blind_optional given)
    intro operand other operands
    apply blind_bind (blind_branch given)
    intro first second firsts
    apply blind_bind (blind_many (blind_branch given))
    intro rest others rests
    apply blind_bind (blind_optional (blind_bind (blind_keyword _) fun _ _ _ => given))
    intro otherwise twin alternatives
    exact blind_bind (blind_keyword _) fun _ _ _ => blind_pure ⟨operands, .cons firsts rests, alternatives⟩
  · rintro ⟨operand, branches, otherwise⟩ ⟨other, others, twin⟩ span place ⟨operands, branchesMatch, alternatives⟩
    apply blind_pure
    rw [Term.Matches, Term.mapped, Term.mapped, Term.option_match operands, Term.branches_match branchesMatch,
      Term.option_match alternatives]
    rfl

theorem blind_existence (given : Blind Term.Matches left right) :
    Blind Term.Matches (existence left) (existence right) := by
  apply blind_spanned_bind Pipe.Matches
  · apply blind_bind (blind_keyword _)
    intro _ _ _
    apply blind_bind (blind_labelled _ (blind_symbol _))
    intro _ _ _
    apply blind_bind (blind_pipe given)
    intro query other queries
    exact blind_bind (blind_labelled _ (blind_symbol _)) fun _ _ _ => blind_pure queries
  · rintro ⟨source, stages⟩ ⟨other, others⟩ span place queries
    exact blind_pure (congrArg (fun query : Pipe => Term.exists ⟨0, 0⟩ query.source query.stages) queries)

-- A pipe with stages matches only a pipe with stages.
theorem blind_enclosed {query other : Pipe} (queries : query.Matches other) {alone lone : Term} {span place : Span}
    (singles : query.source.Matches other.source → alone.Matches lone) :
    Blind Term.Matches
      (match query.stages with
        | [] => return alone
        | stages => return .pipe span query.source stages)
      (match other.stages with
        | [] => return lone
        | stages => return .pipe place other.source stages) := by
  obtain ⟨source, stages⟩ := query
  obtain ⟨twin, others⟩ := other
  simp only [Pipe.Matches, Pipe.mapped, Pipe.mk.injEq] at queries
  cases stages with
  | nil =>
    cases others with
    | nil => exact blind_pure (singles queries.1)
    | cons => simp [Term.mappedAll] at queries
  | cons first rest =>
    cases others with
    | nil => simp [Term.mappedAll] at queries
    | cons => exact blind_pure (congrArg₂ (Term.pipe ⟨0, 0⟩) queries.1 queries.2)

theorem blind_parenthesis (given : Blind Term.Matches left right) :
    Blind Term.Matches (parenthesis left) (parenthesis right) := by
  apply blind_spanned_bind Pipe.Matches
  · apply blind_bind (blind_symbol _)
    intro _ _ _
    apply blind_bind (blind_pipe given)
    intro query other queries
    exact blind_bind (blind_symbol _) fun _ _ _ => blind_pure queries
  · exact fun _ _ _ _ queries => blind_enclosed queries fun sources => congrArg (Term.paren ⟨0, 0⟩) sources

theorem blind_terminal : Blind Term.Matches terminal terminal := by
  apply blind_spanned_bind fun shape other : Span → Term => ∀ span place, (shape span).Matches (other place)
  · apply blind_accept
    intro token shape used span place
    split at used
    all_goals cases used
    all_goals rfl
  · exact fun _ _ span place shapes => blind_pure (shapes span place)

theorem blind_bare_name : Blind Term.Matches bareName bareName :=
  blind_bind blind_identifier fun _ _ names => blind_pure (congrArg (Term.ident ⟨0, 0⟩) names)

theorem blind_primary (given : Blind Term.Matches left right) :
    Blind Term.Matches (primary left) (primary right) := by
  apply blind_labelled
  apply blind_first_of
  exact .cons blind_terminal (.cons (blind_call given) (.cons blind_bare_name (.cons (blind_lambda given)
    (.cons (blind_cases given) (.cons (blind_existence given) (.cons (blind_parenthesis given) .nil))))))

theorem blind_prefixed (op : UnaryOperator) {mark : Recognizer Unit} (marks : Blind Eq mark mark)
    (given : Blind Term.Matches left right) : Blind Term.Matches (prefixed op mark left) (prefixed op mark right) := by
  apply blind_bind (blind_many (blind_spanned marks))
  intro found others each
  apply blind_bind given
  intro inner other same
  apply blind_pure
  induction each with
  | nil => exact same
  | cons first rest ih => exact congrArg (Term.unary ⟨0, 0⟩ op) ih

theorem joined_match {op other : Operator} {first second third fourth : Term} (equal : op = other)
    (lefts : first.Matches third) (rights : second.Matches fourth) :
    (Term.joined op first second).Matches (.joined other third fourth) := by
  cases equal
  exact congrArg₂ (Term.binary ⟨0, 0⟩ op) lefts rights

theorem blind_leftward {operator : Recognizer Operator} (operators : Blind Eq operator operator)
    (given : Blind Term.Matches left right) : Blind Term.Matches (leftward left operator) (leftward right operator) := by
  have pairs : Blind (Both Eq Term.Matches) (do return (← operator, ← left)) (do return (← operator, ← right)) := by
    apply blind_bind operators
    intro op other equal
    exact blind_bind given fun _ _ same => blind_pure ⟨equal, same⟩
  apply blind_bind given
  intro first other firsts
  apply blind_bind (blind_many pairs)
  intro rest others each
  apply blind_pure
  induction each generalizing first other with
  | nil => exact firsts
  | cons pair rest ih => exact ih _ _ (joined_match pair.1 firsts pair.2)

theorem blind_negation (given : Blind Term.Matches left right) :
    Blind Term.Matches (negation left) (negation right) :=
  blind_prefixed _ (blind_symbol _) (blind_primary given)

theorem blind_product (given : Blind Term.Matches left right) : Blind Term.Matches (product left) (product right) :=
  blind_leftward (blind_accept _ fun _ _ _ => rfl) (blind_negation given)

theorem blind_sum (given : Blind Term.Matches left right) : Blind Term.Matches (sum left) (sum right) :=
  blind_leftward (blind_accept _ fun _ _ _ => rfl) (blind_product given)

theorem blind_list_entry (given : Blind Term.Matches left right) :
    Blind Term.Matches (listEntry left) (listEntry right) :=
  blind_bind (blind_pipe given) fun _ _ queries => blind_enclosed queries id

-- What stands behind the first operand is related through the term that it makes with any operand.
def TailMatches (found other : Tail) : Prop :=
  ∀ span place first twin, first.Matches twin → (found.attach span first).Matches (other.attach place twin)

theorem blind_negated : Blind Eq negated negated := by
  apply blind_bind (blind_optional (blind_keyword _))
  intro word other words
  cases words <;> exact blind_pure rfl

theorem blind_comparison_operator : Blind Eq comparisonOperator comparisonOperator :=
  blind_accept _ fun _ _ _ => rfl

theorem blind_tail (given : Blind Term.Matches left right) : Blind TailMatches (tail left) (tail right) := by
  apply blind_first_of
  refine .cons ?_ (.cons ?_ (.cons ?_ (.cons ?_ .nil)))
  · apply blind_bind blind_comparison_operator
    intro op other equal
    apply blind_bind (blind_sum given)
    exact fun _ _ rights => blind_pure fun _ _ _ _ firsts => joined_match equal firsts rights
  · apply blind_bind (blind_keyword _)
    intro _ _ _
    apply blind_bind blind_negated
    intro negated other equal
    apply blind_bind (blind_keyword _)
    exact fun _ _ _ => blind_pure fun _ _ _ _ firsts => congrArg₂ (Term.isNull ⟨0, 0⟩) firsts equal
  · apply blind_bind blind_negated
    rintro negated _ rfl
    apply blind_bind (blind_keyword _)
    intro _ _ _
    apply blind_bind (blind_labelled _ (blind_symbol _))
    intro _ _ _
    apply blind_bind (blind_separated_or_none (blind_list_entry given) blind_comma)
    intro items others each
    apply blind_bind (blind_labelled _ (blind_symbol _))
    exact fun _ _ _ => blind_pure fun _ _ _ _ firsts =>
      congrArg₂ (Term.inList ⟨0, 0⟩ · · negated) firsts (Term.all_match each)
  · apply blind_bind blind_negated
    rintro negated _ rfl
    apply blind_bind (blind_keyword _)
    intro _ _ _
    apply blind_bind (blind_sum given)
    exact fun _ _ patterns => blind_pure fun _ _ _ _ firsts =>
      congrArg₂ (Term.like ⟨0, 0⟩ · · negated) firsts patterns

theorem blind_comparison (given : Blind Term.Matches left right) :
    Blind Term.Matches (comparison left) (comparison right) := by
  apply blind_spanned_bind (Both Term.Matches (Option.Rel TailMatches))
  · apply blind_bind (blind_sum given)
    intro first other firsts
    exact blind_bind (blind_optional (blind_tail given)) fun _ _ tails => blind_pure ⟨firsts, tails⟩
  · rintro ⟨first, tail⟩ ⟨other, twin⟩ span place ⟨firsts, tails⟩
    cases tails with
    | none => exact blind_pure firsts
    | some related => exact blind_pure (related span place first other firsts)

theorem blind_disjunction (given : Blind Term.Matches left right) :
    Blind Term.Matches (disjunction left) (disjunction right) := by
  have inversions := blind_prefixed .not (blind_keyword .not) (blind_comparison given)
  have conjunctions : Blind Term.Matches (conjunction left) (conjunction right) :=
    blind_leftward (blind_bind (blind_keyword .and) fun _ _ _ => blind_pure rfl) inversions
  exact blind_leftward (blind_bind (blind_keyword .or) fun _ _ _ => blind_pure rfl) conjunctions

theorem blind_term (depth : Nat) : Blind Term.Matches (term depth) (term depth) := by
  induction depth with
  | zero => exact blind_fail
  | succ depth ih => exact blind_disjunction ih

theorem blind_statement (given : Blind Term.Matches left right) :
    Blind ScriptStatement.Matches (statement left) (statement right) := by
  apply blind_or_else
  · apply blind_bind (blind_keyword _)
    intro _ _ _
    apply blind_bind (blind_labelled _ blind_identifier)
    rintro ⟨name, nameSpan⟩ ⟨other, otherSpan⟩ (names : name = other)
    apply blind_bind (blind_labelled _ (blind_symbol _))
    intro _ _ _
    apply blind_bind (blind_pipe given)
    exact fun _ _ values => blind_pure (congrArg₂ (ScriptStatement.bind · ⟨0, 0⟩ ·) names values)
  · exact blind_map (blind_pipe given) fun _ _ values => congrArg ScriptStatement.query values

theorem statements_match {statements others : List ScriptStatement}
    (each : List.Forall₂ ScriptStatement.Matches statements others) :
    statements.map (ScriptStatement.mapped id Span.nowhere) = others.map (ScriptStatement.mapped id Span.nowhere) := by
  induction each with
  | nil => rfl
  | cons first rest ih => exact congrArg₂ List.cons first ih

theorem blind_script (given : Blind Term.Matches left right) : Blind Script.Matches (script left) (script right) := by
  apply blind_bind (blind_statement given)
  intro first other firsts
  apply blind_bind (blind_many (blind_statement given))
  intro rest others each
  exact blind_bind blind_at_end fun _ _ _ => blind_pure (congrArg₂ Script.mk firsts (statements_match each))

end Grammar

namespace Script

theorem stall_message {lexemes others : List Lexeme} (same : lexemes.map Lexeme.token = others.map Lexeme.token)
    (width otherWidth : Nat) (stall : Option Stall) :
    (Fault.ofStall lexemes width stall).message = (Fault.ofStall others otherWidth stall).message := by
  have found := congrArg (fun tokens => tokens[(stall.getD ⟨0, []⟩).index]?) same
  simp only [List.getElem?_map] at found
  simp only [Fault.ofStall]
  cases left : lexemes[(stall.getD ⟨0, []⟩).index]? with
  | none =>
    cases right : others[(stall.getD ⟨0, []⟩).index]? with
    | none => rfl
    | some other => simp [left, right] at found
  | some lexeme =>
    cases right : others[(stall.getD ⟨0, []⟩).index]? with
    | none => simp [left, right] at found
    | some other =>
      rw [left, right, Option.map_some, Option.map_some, Option.some.injEq] at found
      simp only [found, Fault.message]

-- The script of the tokens up to places, or the message about what is wrong with them.
def outline (lexemes : List Lexeme) (width : Nat) : Except String Script :=
  ((parse lexemes width).map (mapped id Span.nowhere)).mapError Fault.message

theorem outline_eq {lexemes others : List Lexeme} (same : lexemes.map Lexeme.token = others.map Lexeme.token)
    (width otherWidth : Nat) : outline lexemes width = outline others otherWidth := by
  have lengths : lexemes.length = others.length := by simpa using congrArg List.length same
  have empties : lexemes.isEmpty = others.isEmpty := by
    rw [Bool.eq_iff_iff, List.isEmpty_iff_length_eq_zero, List.isEmpty_iff_length_eq_zero, lengths]
  rw [outline, outline, parse, parse, empties, lengths]
  by_cases empty : others.isEmpty = true
  · rw [if_pos empty, if_pos empty]
  · rw [if_neg empty, if_neg empty]
    obtain ⟨stalled, found⟩ := Grammar.blind_script (Grammar.blind_term (others.length + 1)) ⟨0, 0, lexemes⟩ ⟨0, 0, others⟩
      ⟨rfl, same⟩
    dsimp only
    rw [stalled]
    generalize (Grammar.script (Grammar.term (others.length + 1)) ⟨0, 0, lexemes⟩).result = script at found ⊢
    generalize (Grammar.script (Grammar.term (others.length + 1)) ⟨0, 0, others⟩).result = other at found ⊢
    cases found with
    | none => exact congrArg Except.error (stall_message same width otherWidth _)
    | some related => exact congrArg Except.ok related.1

end Script

end PipeSql
