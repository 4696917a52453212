import PipeSql.Proofs.Script.Grammar
import PipeSql.Proofs.Script.Taken
import PipeSql.Proofs.Script.Tokens

set_option autoImplicit false

namespace PipeSql

-- Two things are free: equality has two marks, and a query that is an entry of a list may go without
-- parentheses of its own.
inductive Operator.Written : Operator → Token → Prop where
  | own (op : Operator) : Written op op.token
  | doubled : Written .eq (.symbol .eqEq)

def UnaryOperator.token : UnaryOperator → Token
  | .negate => .symbol .minus
  | .not => .keyword .not

def Token.piped (source : List Token) (stages : List (List Token)) : List Token :=
  source ++ stages.flatMap (.symbol .pipe :: ·)

def CallHead.printed (head : CallHead) (args : List (List Token)) : List Token :=
  .ident head.name :: Token.enclosed ((if head.distinct then [.keyword .distinct] else []) ++ Token.commaed args)

namespace Term

mutual

inductive Printed : Term → List Token → Prop where
  | ident (span : Span) (name : String) : Printed (.ident span name) [.ident name]
  | qualified (span : Span) (parts : List String) : Printed (.qualified span parts) [.qualified parts]
  | wildcard (span : Span) : Printed (.wildcard span none) [.symbol .star]
  | tableWildcard (span : Span) (table : String) : Printed (.wildcard span (some table)) [.tableWildcard table]
  | param (span : Span) (name : String) : Printed (.param span name) [.param name]
  | literal (span : Span) (value : Literal) : Printed (.literal span value) [value.token]
  | call (span : Span) (head : CallHead) {args : List Term} {pieces : List (List Token)}
      (each : List.Forall₂ Printed args pieces) : Printed (.call span head args) (head.printed pieces)
  | windowed (span : Span) (head : CallHead) {args partitionBy orderBy : List Term}
      {pieces partitions orders : List (List Token)} (each : List.Forall₂ Printed args pieces)
      (divided : List.Forall₂ Printed partitionBy partitions) (sorted : List.Forall₂ Printed orderBy orders) :
      Printed (.windowed span head args partitionBy orderBy) (head.printed pieces ++ Token.window partitions orders)
  | lambda (span : Span) (params : List String) {body : Term} {tokens : List Token} (inner : Printed body tokens) :
      Printed (.lambda span params body) (.keyword .fn ::
        (Token.enclosed (Token.commaed (params.map fun name => [.ident name])) ++ .symbol .arrow :: tokens))
  | cases (span : Span) {operand otherwise : Option Term} {branches : List (Term × Term)} {front back : List Token}
      {pieces : List (List Token)} (first : PrintedChoice [] operand front)
      (each : List.Forall₂ PrintedBranch branches pieces) (last : PrintedChoice [.keyword .else] otherwise back) :
      Printed (.cases span operand branches otherwise)
        (.keyword .case :: (front ++ pieces.flatten ++ back ++ [.keyword .end]))
  | binary (span : Span) {op : Operator} {mark : Token} {left right : Term} {before after : List Token}
      (written : op.Written mark) (first : Printed left before) (second : Printed right after) :
      Printed (.binary span op left right) (before ++ mark :: after)
  | unary (span : Span) (op : UnaryOperator) {operand : Term} {tokens : List Token} (inner : Printed operand tokens) :
      Printed (.unary span op operand) (op.token :: tokens)
  | isNull (span : Span) (negated : Bool) {operand : Term} {tokens : List Token} (inner : Printed operand tokens) :
      Printed (.isNull span operand negated) (tokens ++ .keyword .is :: (Token.negation negated ++ [.keyword .null]))
  | inList (span : Span) (negated : Bool) {operand : Term} {items : List Term} {tokens : List Token}
      {pieces : List (List Token)} (inner : Printed operand tokens) (each : List.Forall₂ PrintedEntry items pieces) :
      Printed (.inList span operand items negated)
        (tokens ++ (Token.negation negated ++ .keyword .in :: Token.enclosed (Token.commaed pieces)))
  | like (span : Span) (negated : Bool) {operand pattern : Term} {before after : List Token}
      (first : Printed operand before) (second : Printed pattern after) :
      Printed (.like span operand pattern negated) (before ++ (Token.negation negated ++ .keyword .like :: after))
  | exists (span : Span) {source : Term} {stages : List Term} {front : List Token} {pieces : List (List Token)}
      (first : Printed source front) (each : List.Forall₂ Printed stages pieces) :
      Printed (.exists span source stages) (.keyword .exists :: Token.enclosed (Token.piped front pieces))
  | paren (span : Span) {inner : Term} {tokens : List Token} (inside : Printed inner tokens) :
      Printed (.paren span inner) (Token.enclosed tokens)
  | pipe (span : Span) {source : Term} {stages : List Term} {front : List Token} {pieces : List (List Token)}
      (first : Printed source front) (each : List.Forall₂ Printed stages pieces) :
      Printed (.pipe span source stages) (Token.enclosed (Token.piped front pieces))
  | aliased (span : Span) (label : String) {inner : Term} {tokens : List Token} (inside : Printed inner tokens) :
      Printed (.aliased span inner label) (tokens ++ [.keyword .as, .ident label])
  | ordered (span : Span) (direction : Direction) {inner : Term} {tokens : List Token} (inside : Printed inner tokens) :
      Printed (.ordered span inner direction) (tokens ++ [.keyword direction.keyword])
  | named (span : Span) {value : Term} {tokens : List Token} (inner : Printed value tokens) :
      Printed (.named span "on" value) (.keyword .on :: .symbol .eq :: tokens)

inductive PrintedEntry : Term → List Token → Prop where
  | closed {item : Term} {tokens : List Token} (printed : Printed item tokens) : PrintedEntry item tokens
  | bare (span : Span) {source : Term} {stages : List Term} {front : List Token} {pieces : List (List Token)}
      (first : Printed source front) (each : List.Forall₂ Printed stages pieces) :
      PrintedEntry (.pipe span source stages) (Token.piped front pieces)

inductive PrintedBranch : Term × Term → List Token → Prop where
  | mk {condition value : Term} {before after : List Token} (first : Printed condition before)
      (second : Printed value after) :
      PrintedBranch (condition, value) (.keyword .when :: (before ++ .keyword .then :: after))

inductive PrintedChoice : List Token → Option Term → List Token → Prop where
  | none (introduction : List Token) : PrintedChoice introduction none []
  | some (introduction : List Token) {term : Term} {tokens : List Token} (printed : Printed term tokens) :
      PrintedChoice introduction (some term) (introduction ++ tokens)

end

end Term

def Pipe.Printed (pipe : Pipe) (tokens : List Token) : Prop :=
  ∃ front pieces, pipe.source.Printed front ∧ List.Forall₂ Term.Printed pipe.stages pieces ∧
    tokens = Token.piped front pieces

inductive ScriptStatement.Printed : ScriptStatement → List Token → Prop where
  | bind (name : String) (nameSpan : Span) {value : Pipe} {tokens : List Token} (printed : value.Printed tokens) :
      Printed (.bind name nameSpan value) (.keyword .let :: .ident name :: .symbol .eq :: tokens)
  | query {value : Pipe} {tokens : List Token} (printed : value.Printed tokens) : Printed (.query value) tokens

def Script.Printed (script : Script) (tokens : List Token) : Prop :=
  ∃ pieces, List.Forall₂ ScriptStatement.Printed script.statements pieces ∧ tokens = pieces.flatten

namespace Recognizer

variable {α : Type} {relation : α → List Token → Prop}

def Marked (mark : Token) (relation : α → List Token → Prop) (value : α) (tokens : List Token) : Prop :=
  ∃ piece, relation value piece ∧ tokens = mark :: piece

theorem repeated_marked {mark : Token} {values : List α} {tokens : List Token}
    (repeated : Repeated (Marked mark relation) values tokens) :
    ∃ pieces, List.Forall₂ relation values pieces ∧ tokens = pieces.flatMap (mark :: ·) := by
  obtain ⟨marked, each, rfl⟩ := repeated
  induction each with
  | nil => exact ⟨[], .nil, rfl⟩
  | cons first rest ih =>
    obtain ⟨piece, holds, rfl⟩ := first
    obtain ⟨pieces, others, same⟩ := ih
    refine ⟨piece :: pieces, .cons holds others, ?_⟩
    rw [List.flatten_cons, same, List.flatMap_cons]

def Listed (relation : α → List Token → Prop) (values : List α) (tokens : List Token) : Prop :=
  ∃ pieces, List.Forall₂ relation values pieces ∧ tokens = Token.commaed pieces

theorem writes_separated {inner : Recognizer α} (given : Writes inner relation) :
    Writes (separated inner Grammar.comma) fun values tokens => values ≠ [] ∧ Listed relation values tokens := by
  have further : Writes (do Grammar.comma; inner) (Marked (.symbol .comma) relation) :=
    writes_after_token (writes_mono given fun _ tokens holds => ⟨tokens, holds, rfl⟩)
  refine writes_bind given fun first front holds => ?_
  refine writes_bind (writes_many further) fun others back repeated => writes_pure ?_
  obtain ⟨pieces, each, rfl⟩ := repeated_marked repeated
  refine ⟨by simp, front :: pieces, .cons holds each, ?_⟩
  rw [List.append_nil]
  rfl

theorem writes_separated_or_none {inner : Recognizer α} (given : Writes inner relation) :
    Writes (separatedOrNone inner Grammar.comma) (Listed relation) :=
  writes_or_else (writes_mono (writes_separated given) fun _ _ holds => holds.2) (writes_pure ⟨[], .nil, rfl⟩)

end Recognizer

namespace Grammar

open Recognizer

theorem takes_identifier : Takes identifier fun found taken => taken = [⟨.ident found.1, found.2⟩] := by
  apply takes_labelled
  rintro ⟨index, offset, ahead⟩ ⟨name, span⟩ behind found
  cases ahead with
  | nil => cases found
  | cons lexeme ahead =>
    obtain ⟨token, place⟩ := lexeme
    cases token with
    | ident text =>
      cases found
      exact ⟨[⟨.ident name, place⟩], rfl, rfl⟩
    | _ => cases found

theorem writes_identifier : Writes identifier fun found tokens => tokens = [.ident found.1] := by
  apply takes_mono takes_identifier
  rintro found _ rfl
  rfl

variable {term : Recognizer Term}

theorem writes_pipe (given : Writes term Term.Printed) : Writes (pipe term) Pipe.Printed := by
  have stage : Writes (do symbol .pipe; term) (Marked (.symbol .pipe) Term.Printed) :=
    writes_after_token (writes_mono given fun _ tokens printed => ⟨tokens, printed, rfl⟩)
  refine writes_bind given fun source front printed => ?_
  refine writes_bind (writes_many stage) fun stages back repeated => writes_pure ?_
  obtain ⟨pieces, each, rfl⟩ := repeated_marked repeated
  refine ⟨front, pieces, printed, each, ?_⟩
  rw [List.append_nil]
  rfl

theorem writes_direction : Writes direction fun found tokens => tokens = [.keyword found.keyword] := by
  apply writes_first_of
  simp only [List.forall_mem_cons, List.not_mem_nil, false_imp_iff, implies_true, and_true]
  constructor
  · exact writes_after_token (writes_pure rfl)
  · exact writes_after_token (writes_pure rfl)

theorem writes_directed {inner : Recognizer Term} (given : Writes inner Term.Printed) :
    Writes (directed inner) Term.Printed := by
  apply writes_spanned_bind fun found tokens => ∃ front back, found.1.Printed front ∧
    Perhaps (fun direction tokens => tokens = [.keyword direction.keyword]) found.2 back ∧ tokens = front ++ back
  · refine writes_bind given fun inner front printed => ?_
    refine writes_bind (writes_optional writes_direction) fun direction back found => writes_pure ?_
    exact ⟨front, back, printed, found, by rw [List.append_nil]⟩
  · rintro ⟨inner, direction⟩ span _ ⟨front, back, printed, found, rfl⟩
    cases direction with
    | none =>
      obtain rfl : back = [] := found
      apply writes_pure
      rw [List.append_nil, List.append_nil]
      exact printed
    | some direction =>
      obtain rfl : back = [.keyword direction.keyword] := found
      apply writes_pure
      rw [List.append_nil]
      exact .ordered span direction printed

theorem writes_aliased (given : Writes term Term.Printed) : Writes (aliased term) Term.Printed := by
  apply writes_spanned_bind fun found tokens => ∃ front back, found.1.Printed front ∧
    Perhaps (fun label tokens => tokens = [.keyword .as, .ident label.1]) found.2 back ∧ tokens = front ++ back
  · refine writes_bind given fun inner front printed => ?_
    have label : Writes (do keyword .as; labelled "alias after AS" identifier)
        fun found tokens => tokens = [.keyword .as, .ident found.1] :=
      writes_after_token (writes_mono (writes_labelled writes_identifier) fun _ _ same => congrArg _ same)
    refine writes_bind (writes_optional label) fun label back found => writes_pure ?_
    exact ⟨front, back, printed, found, by rw [List.append_nil]⟩
  · rintro ⟨inner, label⟩ span _ ⟨front, back, printed, found, rfl⟩
    cases label with
    | none =>
      obtain rfl : back = [] := found
      apply writes_pure
      rw [List.append_nil, List.append_nil]
      exact printed
    | some label =>
      obtain rfl : back = [.keyword .as, .ident label.1] := found
      apply writes_pure
      rw [List.append_nil]
      exact .aliased span label.1 printed

theorem writes_argument (given : Writes term Term.Printed) : Writes (argument term) Term.Printed := by
  apply writes_or_else _ (writes_directed (writes_aliased given))
  apply writes_spanned_bind fun value tokens => ∃ back, value.Printed back ∧
    tokens = .keyword .on :: .symbol .eq :: back
  · exact writes_after_token (writes_after_token (writes_mono given fun _ back printed => ⟨back, printed, rfl⟩))
  · rintro value span _ ⟨back, printed, rfl⟩
    apply writes_pure
    rw [List.append_nil]
    exact .named span printed

theorem writes_window_part (first : Keyword) {entry : Recognizer Term} (given : Writes entry Term.Printed) :
    Writes (optional do keyword first; keyword .by; separated entry comma) fun found tokens =>
      ∃ pieces, List.Forall₂ Term.Printed (found.getD []) pieces ∧ tokens = Token.windowPart first pieces := by
  have part : Writes (do keyword first; keyword .by; separated entry comma) fun entries tokens =>
      ∃ pieces, List.Forall₂ Term.Printed entries pieces ∧ tokens = Token.windowPart first pieces := by
    apply writes_after_token
    apply writes_after_token
    apply writes_mono (writes_separated given)
    rintro entries _ ⟨filled, pieces, each, rfl⟩
    refine ⟨pieces, each, ?_⟩
    cases each with
    | nil => exact absurd rfl filled
    | cons => rfl
  apply writes_mono (writes_optional part)
  intro found tokens holds
  cases found with
  | none => exact ⟨[], .nil, holds⟩
  | some entries => exact holds

def WindowPrinted (window : List Term × List Term) (tokens : List Token) : Prop :=
  ∃ partitions orders, List.Forall₂ Term.Printed window.1 partitions ∧ List.Forall₂ Term.Printed window.2 orders ∧
    tokens = Token.window partitions orders

theorem writes_window (given : Writes term Term.Printed) : Writes (do keyword .over; window term) WindowPrinted := by
  apply writes_after_token
  apply writes_after_labelled
  refine writes_bind (writes_window_part .partition given) fun partitionBy front divided => ?_
  refine writes_bind (writes_window_part .order (writes_directed given)) fun orderBy back sorted => ?_
  apply writes_after_labelled
  apply writes_pure
  obtain ⟨partitions, dividedEach, rfl⟩ := divided
  obtain ⟨orders, sortedEach, rfl⟩ := sorted
  refine ⟨partitions, orders, dividedEach, sortedEach, ?_⟩
  simp [Token.window, Token.enclosed]

theorem writes_call (given : Writes term Term.Printed) : Writes (call term) Term.Printed := by
  apply writes_spanned_bind fun found tokens => ∃ pieces framed, List.Forall₂ Term.Printed found.2.1 pieces ∧
    Perhaps WindowPrinted found.2.2 framed ∧ tokens = found.1.printed pieces ++ framed
  · apply writes_bind writes_identifier
    rintro ⟨name, nameSpan⟩ _ rfl
    apply writes_after_token
    refine writes_bind (writes_optional (writes_keyword .distinct)) fun distinct word said => ?_
    refine writes_bind (writes_separated_or_none (writes_argument given)) fun args inside listed => ?_
    apply writes_after_labelled
    refine writes_bind (writes_optional (writes_window given)) fun frame framed found => writes_pure ?_
    obtain ⟨pieces, each, rfl⟩ := listed
    refine ⟨pieces, framed, each, found, ?_⟩
    cases distinct with
    | none =>
      obtain rfl : word = [] := said
      simp [CallHead.printed, Token.enclosed]
    | some =>
      obtain rfl : word = [.keyword .distinct] := said
      simp [CallHead.printed, Token.enclosed]
  · rintro ⟨head, args, frame⟩ span _ ⟨pieces, framed, each, found, rfl⟩
    cases frame with
    | none =>
      obtain rfl : framed = [] := found
      apply writes_pure
      rw [List.append_nil, List.append_nil]
      exact .call span head each
    | some frame =>
      obtain ⟨partitions, orders, divided, sorted, rfl⟩ := found
      apply writes_pure
      rw [List.append_nil]
      exact .windowed span head each divided sorted

theorem names_printed {params : List (String × Span)} {tokens : List Token}
    (listed : Listed (fun (found : String × Span) tokens => tokens = [.ident found.1]) params tokens) :
    tokens = Token.commaed ((params.map Prod.fst).map fun name => [.ident name]) := by
  obtain ⟨pieces, each, rfl⟩ := listed
  congr 1
  induction each with
  | nil => rfl
  | cons first rest ih => rw [first, ih, List.map_cons, List.map_cons]

theorem writes_lambda (given : Writes term Term.Printed) : Writes (lambda term) Term.Printed := by
  apply writes_spanned_bind fun found tokens => ∃ back, found.2.Printed back ∧ tokens = .keyword .fn ::
    (Token.enclosed (Token.commaed (found.1.map fun name => [.ident name])) ++ .symbol .arrow :: back)
  · apply writes_after_token
    apply writes_after_labelled
    refine writes_bind (writes_separated (writes_labelled writes_identifier)) fun params inside listed => ?_
    apply writes_after_token
    apply writes_after_labelled
    refine writes_bind given fun body back printed => writes_pure ⟨back, printed, ?_⟩
    rw [names_printed listed.2]
    simp [Token.enclosed]
  · rintro ⟨params, body⟩ span _ ⟨back, printed, rfl⟩
    apply writes_pure
    rw [List.append_nil]
    exact .lambda span params printed

theorem writes_branch (given : Writes term Term.Printed) : Writes (branch term) Term.PrintedBranch := by
  apply writes_after_token
  refine writes_bind given fun condition before first => ?_
  apply writes_after_token
  refine writes_bind given fun value after second => writes_pure ?_
  simpa using Term.PrintedBranch.mk first second

theorem choice_printed {introduction : List Token} {term : Option Term} {tokens : List Token}
    (found : Perhaps (fun term tokens => ∃ back, Term.Printed term back ∧ tokens = introduction ++ back) term tokens) :
    Term.PrintedChoice introduction term tokens := by
  cases term with
  | none =>
    obtain rfl : tokens = [] := found
    exact .none introduction
  | some term =>
    obtain ⟨back, printed, rfl⟩ := found
    exact .some introduction printed

theorem writes_cases (given : Writes term Term.Printed) : Writes (cases term) Term.Printed := by
  apply writes_spanned_bind fun found tokens => ∃ front pieces back, Term.PrintedChoice [] found.1 front ∧
    List.Forall₂ Term.PrintedBranch found.2.1 pieces ∧ Term.PrintedChoice [.keyword .else] found.2.2 back ∧
    tokens = .keyword .case :: (front ++ pieces.flatten ++ back ++ [.keyword .end])
  · apply writes_after_token
    have tested := writes_mono given fun _ back printed => (⟨back, printed, rfl⟩ : ∃ rest, _ ∧ back = [] ++ rest)
    refine writes_bind (writes_optional tested) fun operand front first => ?_
    refine writes_bind (writes_branch given) fun branch piece printed => ?_
    refine writes_bind (writes_many (writes_branch given)) fun others inside repeated => ?_
    have alternative : Writes (do keyword .else; term)
        fun term tokens => ∃ back, term.Printed back ∧ tokens = [.keyword .else] ++ back :=
      writes_after_token (writes_mono given fun _ back printed => ⟨back, printed, rfl⟩)
    refine writes_bind (writes_optional alternative) fun otherwise back last => ?_
    apply writes_after_token
    apply writes_pure
    obtain ⟨pieces, each, rfl⟩ := repeated
    refine ⟨front, piece :: pieces, back, choice_printed first, .cons printed each, choice_printed last, ?_⟩
    simp
  · rintro ⟨operand, branches, otherwise⟩ span _ ⟨front, pieces, back, first, each, last, rfl⟩
    apply writes_pure
    rw [List.append_nil]
    exact .cases span first each last

theorem writes_existence (given : Writes term Term.Printed) : Writes (existence term) Term.Printed := by
  apply writes_spanned_bind fun query tokens => ∃ inside, query.Printed inside ∧
    tokens = .keyword .exists :: Token.enclosed inside
  · apply writes_after_token
    apply writes_after_labelled
    refine writes_bind (writes_pipe given) fun query inside printed => ?_
    apply writes_after_labelled
    exact writes_pure ⟨inside, printed, by simp [Token.enclosed]⟩
  · rintro query span _ ⟨_, ⟨front, pieces, first, each, rfl⟩, rfl⟩
    apply writes_pure
    rw [List.append_nil]
    exact .exists span first each

theorem writes_parenthesis (given : Writes term Term.Printed) : Writes (parenthesis term) Term.Printed := by
  apply writes_spanned_bind fun query tokens => ∃ inside, query.Printed inside ∧ tokens = Token.enclosed inside
  · apply writes_after_token
    refine writes_bind (writes_pipe given) fun query inside printed => ?_
    apply writes_after_token
    exact writes_pure ⟨inside, printed, by simp [Token.enclosed]⟩
  · rintro ⟨source, stages⟩ span _ ⟨_, ⟨front, pieces, first, each, rfl⟩, rfl⟩
    cases each with
    | nil =>
      apply writes_pure
      rw [List.append_nil, Token.piped, List.flatMap_nil, List.append_nil]
      exact .paren span first
    | cons stage others =>
      apply writes_pure
      rw [List.append_nil]
      exact .pipe span first (.cons stage others)

theorem writes_terminal : Writes terminal Term.Printed := by
  apply writes_spanned_bind fun shape tokens => ∀ span, (shape span).Printed tokens
  · apply writes_accept
    intro token shape used span
    split at used
    all_goals cases used
    all_goals constructor
  · intro shape span tokens printed
    apply writes_pure
    rw [List.append_nil]
    exact printed span

theorem writes_primary (given : Writes term Term.Printed) : Writes (primary term) Term.Printed := by
  apply writes_labelled
  apply writes_first_of
  simp only [List.forall_mem_cons, List.not_mem_nil, false_imp_iff, implies_true, and_true]
  refine ⟨writes_terminal, writes_call given, ?_, writes_lambda given, writes_cases given, writes_existence given,
    writes_parenthesis given⟩
  apply writes_bind writes_identifier
  rintro ⟨name, span⟩ _ rfl
  exact writes_pure (.ident span name)

theorem writes_prefixed {op : UnaryOperator} {operand : Recognizer Term} (given : Writes operand Term.Printed) :
    Writes (prefixed op (token op.token) operand) Term.Printed := by
  refine writes_bind (writes_many (writes_spanned (writes_token op.token))) fun marks front repeated => ?_
  refine writes_bind given fun inner back printed => writes_pure ?_
  obtain ⟨pieces, each, rfl⟩ := repeated
  rw [List.append_nil]
  induction each with
  | nil => exact printed
  | cons first rest ih =>
    rw [first]
    exact .unary _ op ih

theorem writes_leftward {operand : Recognizer Term} {operator : Recognizer Operator}
    (given : Writes operand Term.Printed)
    (operated : Writes operator fun op tokens => ∃ mark, op.Written mark ∧ tokens = [mark]) :
    Writes (leftward operand operator) Term.Printed := by
  have stepped : Writes (do return (← operator, ← operand)) fun step tokens =>
      ∃ mark back, step.1.Written mark ∧ step.2.Printed back ∧ tokens = mark :: back := by
    apply writes_bind operated
    rintro op _ ⟨mark, written, rfl⟩
    refine writes_bind given fun right back printed => writes_pure ⟨mark, back, written, printed, ?_⟩
    rw [List.append_nil]
    rfl
  refine writes_bind given fun first front printed => ?_
  refine writes_bind (writes_many stepped) fun steps inside repeated => writes_pure ?_
  obtain ⟨pieces, each, rfl⟩ := repeated
  rw [List.append_nil]
  -- the term on the left grows by one operator and one operand
  induction each generalizing first front with
  | nil =>
    rw [List.flatten_nil, List.append_nil]
    exact printed
  | cons step rest ih =>
    obtain ⟨mark, back, written, second, rfl⟩ := step
    rw [List.flatten_cons, ← List.append_assoc]
    exact ih _ _ (.binary _ written printed second)

theorem writes_negation (given : Writes term Term.Printed) : Writes (negation term) Term.Printed :=
  @writes_prefixed .negate _ (writes_primary given)

theorem writes_product (given : Writes term Term.Printed) : Writes (product term) Term.Printed := by
  apply writes_leftward (writes_negation given)
  apply writes_accept
  intro token op used
  split at used
  all_goals cases used
  all_goals exact ⟨_, .own _, rfl⟩

theorem writes_sum (given : Writes term Term.Printed) : Writes (sum term) Term.Printed := by
  apply writes_leftward (writes_product given)
  apply writes_accept
  intro token op used
  split at used
  all_goals cases used
  all_goals exact ⟨_, .own _, rfl⟩

theorem writes_comparison_operator :
    Writes comparisonOperator fun op tokens => ∃ mark, op.Written mark ∧ tokens = [mark] := by
  apply writes_accept
  intro token op used
  split at used
  all_goals cases used
  case h_2 => exact ⟨_, .doubled, rfl⟩
  all_goals exact ⟨_, .own _, rfl⟩

theorem writes_list_entry (given : Writes term Term.Printed) : Writes (listEntry term) Term.PrintedEntry := by
  apply writes_bind (writes_pipe given)
  rintro ⟨source, stages⟩ _ ⟨front, pieces, first, each, rfl⟩
  cases each with
  | nil =>
    apply writes_pure
    rw [List.append_nil, Token.piped, List.flatMap_nil, List.append_nil]
    exact .closed first
  | cons stage others =>
    apply writes_pure
    rw [List.append_nil]
    exact .bare _ first (.cons stage others)

theorem writes_negated : Writes negated fun found tokens => tokens = Token.negation found := by
  refine writes_bind (writes_optional (writes_keyword .not)) fun word tokens said => writes_pure ?_
  cases word with
  | none =>
    obtain rfl : tokens = [] := said
    rfl
  | some =>
    obtain rfl : tokens = [.keyword .not] := said
    rfl

-- What stands behind the first operand is printed behind it.
def TailPrinted (tail : Tail) (tokens : List Token) : Prop :=
  ∀ span left front, Term.Printed left front → (tail.attach span left).Printed (front ++ tokens)

theorem writes_tail (given : Writes term Term.Printed) : Writes (tail term) TailPrinted := by
  apply writes_first_of
  simp only [List.forall_mem_cons, List.not_mem_nil, false_imp_iff, implies_true, and_true]
  refine ⟨?_, ?_, ?_, ?_⟩
  · apply writes_bind writes_comparison_operator
    rintro op _ ⟨mark, written, rfl⟩
    refine writes_bind (writes_sum given) fun right back second => writes_pure ?_
    intro span left front first
    rw [List.append_nil]
    exact .binary _ written first second
  · apply writes_after_token
    apply writes_bind writes_negated
    rintro negated _ rfl
    apply writes_after_token
    apply writes_pure
    intro span left front first
    exact .isNull span negated first
  · apply writes_bind writes_negated
    rintro negated _ rfl
    apply writes_after_token
    apply writes_after_labelled
    apply writes_bind (writes_separated_or_none (writes_list_entry given))
    rintro items _ ⟨pieces, each, rfl⟩
    apply writes_after_labelled
    apply writes_pure
    intro span left front first
    exact .inList span negated first each
  · apply writes_bind writes_negated
    rintro negated _ rfl
    apply writes_after_token
    refine writes_bind (writes_sum given) fun pattern back second => writes_pure ?_
    intro span left front first
    rw [List.append_nil]
    exact .like span negated first second

theorem writes_comparison (given : Writes term Term.Printed) : Writes (comparison term) Term.Printed := by
  apply writes_spanned_bind fun found tokens => ∃ front back, found.1.Printed front ∧
    Perhaps TailPrinted found.2 back ∧ tokens = front ++ back
  · refine writes_bind (writes_sum given) fun left front printed => ?_
    refine writes_bind (writes_optional (writes_tail given)) fun tail back found => writes_pure ?_
    exact ⟨front, back, printed, found, by rw [List.append_nil]⟩
  · rintro ⟨left, tail⟩ span _ ⟨front, back, printed, found, rfl⟩
    cases tail with
    | none =>
      obtain rfl : back = [] := found
      apply writes_pure
      rw [List.append_nil, List.append_nil]
      exact printed
    | some tail =>
      apply writes_pure
      rw [List.append_nil]
      exact found span left front printed

theorem writes_disjunction (given : Writes term Term.Printed) : Writes (disjunction term) Term.Printed := by
  have inversions : Writes (inversion term) Term.Printed := @writes_prefixed .not _ (writes_comparison given)
  have conjunctions : Writes (conjunction term) Term.Printed :=
    writes_leftward inversions (writes_after_token (writes_pure ⟨_, .own .and, rfl⟩))
  exact writes_leftward conjunctions (writes_after_token (writes_pure ⟨_, .own .or, rfl⟩))

theorem writes_term (depth : Nat) : Writes (Grammar.term depth) Term.Printed := by
  induction depth with
  | zero => exact takes_fail
  | succ depth ih => exact writes_disjunction ih

theorem writes_statement (given : Writes term Term.Printed) : Writes (statement term) ScriptStatement.Printed := by
  apply writes_or_else _ (writes_map (writes_pipe given) fun _ _ printed => .query printed)
  apply writes_after_token
  apply writes_bind (writes_labelled writes_identifier)
  rintro ⟨name, nameSpan⟩ _ rfl
  apply writes_after_labelled
  refine writes_bind (writes_pipe given) fun value tokens printed => writes_pure ?_
  rw [List.append_nil]
  exact .bind name nameSpan printed

end Grammar

namespace Script

-- A script is read to the last token.
theorem script_taken {term : Recognizer Term} {relation : ScriptStatement → List Lexeme → Prop}
    (given : Recognizer.Takes (Grammar.statement term) relation) {cursor behind : Cursor} {script : Script}
    (found : (Grammar.script term cursor).result = some (script, behind)) :
    Recognizer.Repeated relation script.statements cursor.ahead := by
  rw [Grammar.script, Recognizer.bind_result] at found
  obtain ⟨⟨first, between⟩, firstRead, found⟩ := Option.bind_eq_some_iff.1 found
  rw [Recognizer.bind_result] at found
  obtain ⟨⟨others, last⟩, othersRead, found⟩ := Option.bind_eq_some_iff.1 found
  obtain ⟨taken, ahead, holds⟩ := given cursor first between firstRead
  obtain ⟨more, further, repeated⟩ := Recognizer.takes_many given between others last othersRead
  have ended : last.ahead = [] ∧ script = ⟨first, others⟩ := by
    dsimp only at found
    rw [Recognizer.bind_result, Recognizer.atEnd] at found
    by_cases empty : last.ahead.isEmpty = true
    · rw [if_pos empty] at found
      cases found
      exact ⟨List.isEmpty_iff.1 empty, rfl⟩
    · rw [if_neg empty] at found
      cases found
  rw [ahead, further, ended.1, ended.2, List.append_nil]
  exact Recognizer.repeated_cons holds repeated

theorem parse_taken {relation : ScriptStatement → List Lexeme → Prop}
    (given : ∀ depth, Recognizer.Takes (Grammar.statement (Grammar.term depth)) relation) {lexemes : List Lexeme}
    {width : Nat} {script : Script} (parsed : parse lexemes width = .ok script) :
    Recognizer.Repeated relation script.statements lexemes := by
  obtain ⟨behind, result⟩ := parse_result parsed
  exact script_taken (given _) result

theorem parsed_script_prints_tokens (lexemes : List Lexeme) (width : Nat) (script : Script)
    (parsed : parse lexemes width = .ok script) : script.Printed (lexemes.map Lexeme.token) := by
  obtain ⟨pieces, each, same⟩ := parse_taken (fun depth => Grammar.writes_statement (Grammar.writes_term depth)) parsed
  refine ⟨pieces.map (List.map Lexeme.token), ?_, ?_⟩
  · rw [List.forall₂_map_right_iff]
    exact each
  · rw [same, List.map_flatten]

theorem listed_queries_print_tokens :
    ∃ lexemes script, tokenize "let x = a not in (b |> c, (d |> e)) x |> f(distinct g == 1 as h)" = .ok lexemes ∧
      parse lexemes 64 = .ok script ∧ script.Printed (lexemes.map Lexeme.token) := by
  have lexed : tokenize "let x = a not in (b |> c, (d |> e)) x |> f(distinct g == 1 as h)" = .ok
      [⟨.keyword .let, ⟨0, 3⟩⟩, ⟨.ident "x", ⟨4, 5⟩⟩, ⟨.symbol .eq, ⟨6, 7⟩⟩, ⟨.ident "a", ⟨8, 9⟩⟩,
        ⟨.keyword .not, ⟨10, 13⟩⟩, ⟨.keyword .in, ⟨14, 16⟩⟩, ⟨.symbol .leftParen, ⟨17, 18⟩⟩, ⟨.ident "b", ⟨18, 19⟩⟩,
        ⟨.symbol .pipe, ⟨20, 22⟩⟩, ⟨.ident "c", ⟨23, 24⟩⟩, ⟨.symbol .comma, ⟨24, 25⟩⟩, ⟨.symbol .leftParen, ⟨26, 27⟩⟩,
        ⟨.ident "d", ⟨27, 28⟩⟩, ⟨.symbol .pipe, ⟨29, 31⟩⟩, ⟨.ident "e", ⟨32, 33⟩⟩, ⟨.symbol .rightParen, ⟨33, 34⟩⟩,
        ⟨.symbol .rightParen, ⟨34, 35⟩⟩, ⟨.ident "x", ⟨36, 37⟩⟩, ⟨.symbol .pipe, ⟨38, 40⟩⟩, ⟨.ident "f", ⟨41, 42⟩⟩,
        ⟨.symbol .leftParen, ⟨42, 43⟩⟩, ⟨.keyword .distinct, ⟨43, 51⟩⟩, ⟨.ident "g", ⟨52, 53⟩⟩,
        ⟨.symbol .eqEq, ⟨54, 56⟩⟩, ⟨.int "1", ⟨57, 58⟩⟩, ⟨.keyword .as, ⟨59, 61⟩⟩, ⟨.ident "h", ⟨62, 63⟩⟩,
        ⟨.symbol .rightParen, ⟨63, 64⟩⟩] := by decide +kernel
  refine ⟨_, ⟨.bind "x" ⟨4, 5⟩ ⟨.inList ⟨8, 35⟩ (.ident ⟨8, 9⟩ "a")
      [.pipe ⟨18, 24⟩ (.ident ⟨18, 19⟩ "b") [.ident ⟨23, 24⟩ "c"],
        .pipe ⟨26, 34⟩ (.ident ⟨27, 28⟩ "d") [.ident ⟨32, 33⟩ "e"]] true, []⟩,
    [.query ⟨.ident ⟨36, 37⟩ "x", [.call ⟨41, 64⟩ ⟨"f", ⟨41, 42⟩, true⟩ [.aliased ⟨52, 63⟩
      (.binary ⟨52, 58⟩ .eq (.ident ⟨52, 53⟩ "g") (.literal ⟨57, 58⟩ (.int "1"))) "h"]]⟩]⟩, lexed, ?_, ?_⟩
  · set_option maxRecDepth 4000 in rfl
  · apply parsed_script_prints_tokens _ 64
    set_option maxRecDepth 4000 in rfl

end Script

end PipeSql
